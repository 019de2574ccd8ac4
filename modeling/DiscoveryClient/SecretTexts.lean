import DiscoveryClient.NvmeConnect

namespace DiscoveryClient

open GoString

/-- The requests differ at most in the values of the secrets that are set. -/
structure SameButSecrets (r₁ r₂ : ConnectRequest) : Prop where
  rest : r₂ = { r₁ with
    dhChapSecret := r₂.dhChapSecret, dhChapControllerSecret := r₂.dhChapControllerSecret }
  secret : r₁.dhChapSecret = [] ↔ r₂.dhChapSecret = []
  ctrlSecret : r₁.dhChapControllerSecret = [] ↔ r₂.dhChapControllerSecret = []

section

variable {r₁ r₂ : ConnectRequest}

theorem SameButSecrets.publicOptions_eq (same : SameButSecrets r₁ r₂) :
    r₁.publicOptions = r₂.publicOptions := by
  rw [same.rest]
  rfl

theorem SameButSecrets.string_eq (same : SameButSecrets r₁ r₂) : r₁.string = r₂.string := by
  unfold ConnectRequest.string ConnectRequest.secretOptions
  simp only [same.publicOptions_eq, ne_eq, same.secret, same.ctrlSecret]

theorem SameButSecrets.toOptions_eq_iff (same : SameButSecrets r₁ r₂) :
    r₁.toOptions = r₂.toOptions ↔ r₁.shownSecrets = r₂.shownSecrets := by
  unfold ConnectRequest.toOptions
  rw [same.publicOptions_eq, List.append_cancel_left_eq]

theorem SameButSecrets.prepared (same : SameButSecrets r₁ r₂) (auxSuffix traddr hostid : GoString) :
    SameButSecrets (r₁.prepared auxSuffix traddr hostid) (r₂.prepared auxSuffix traddr hostid) := by
  obtain ⟨hrest, hsecret, hctrl⟩ := same
  refine ⟨?_, hsecret, hctrl⟩
  rw [hrest]
  rfl

theorem shownSecrets_prepared (r : ConnectRequest) (auxSuffix traddr hostid : GoString) :
    (r.prepared auxSuffix traddr hostid).shownSecrets = r.shownSecrets := rfl

end

/-- Writing the options or reading the answer fails. -/
def Kernel.FailsWithOptions (kernel : Kernel) : Prop :=
  kernel.openFile = none ∧ (kernel.write ≠ none ∨ kernel.read.isOk = false)

theorem errorText_wrapCtrl (msg : GoString) (status : Nat) (err : GoError) :
    errorText (wrapCtrl (.error (.client msg status err))) =
      some ((if ascii "operation already in progress" <:+: err.error then
          ascii "controller already connected" else ascii "add controller failed") ++
        ascii ". err: " ++ (msg ++ ascii ". err: " ++ err.error)) := by
  rw [wrapCtrl]
  split
  next => rfl
  next => rfl

section

variable {printable : Nat → Bool} {kernel : Kernel} {options options' : GoString}

theorem errorText_addCtrl_iff (fails : kernel.FailsWithOptions) :
    errorText (wrapCtrl (addCtrl printable kernel options)) =
      errorText (wrapCtrl (addCtrl printable kernel options')) ↔ options = options' := by
  obtain ⟨hopen, hfails⟩ := fails
  -- the two messages are the same but for the quoted options in their middle
  have hquoted : ∀ (text : String) (err : GoString),
      errorText (wrapCtrl (.error (.client (ascii text ++ quote printable options) addCtrlFailed
        (.text err)))) =
      errorText (wrapCtrl (.error (.client (ascii text ++ quote printable options') addCtrlFailed
        (.text err)))) ↔ options = options' := by
    intro text err
    simp only [errorText_wrapCtrl, Option.some.injEq, List.append_cancel_left_eq,
      List.append_cancel_right_eq]
    exact ⟨quote_inj, fun h => by rw [h]⟩
  unfold addCtrl
  rw [hopen]
  cases hwrite : kernel.write with
  | some err => exact hquoted "write failed: " err
  | none =>
    cases hread : kernel.read with
    | error err => exact hquoted "read failed: " err
    | ok buf =>
      rw [hwrite, hread] at hfails
      simp [Except.isOk, Except.toBool] at hfails

theorem addCtrl_congr (works : ¬kernel.FailsWithOptions) (options options' : GoString) :
    addCtrl printable kernel options = addCtrl printable kernel options' := by
  unfold addCtrl
  cases hopen : kernel.openFile with
  | some err => rfl
  | none =>
    cases hwrite : kernel.write with
    | some err => exact absurd ⟨hopen, Or.inl (by simp [hwrite])⟩ works
    | none =>
      cases hread : kernel.read with
      | error err => exact absurd ⟨hopen, Or.inr (by rw [hread]; rfl)⟩ works
      | ok buf => rfl

end

/-- The texts a call of `Connect` puts out: the request's `String`, the lines it logs and the error
it returns. -/
def printedTexts (host : Host) (kernel : Kernel) (request : ConnectRequest) :
    GoString × List GoString × Option GoString :=
  (request.string, (connect host kernel request).logged,
    errorText (connect host kernel request).result)

/-- `Connect` gets as far as `addCtrl`. -/
def Host.Prepares (host : Host) (request : ConnectRequest) : Prop :=
  (host.adjustTraddr request.traddr).isOk = true ∧ (host.hostid request).isOk = true

/-- Two requests that differ in their secrets are told apart by what is printed exactly if the
kernel fails on the options and these show different secrets. -/
theorem secrets_hidden_iff {host : Host} {kernel : Kernel} {r₁ r₂ : ConnectRequest}
    (same : SameButSecrets r₁ r₂) :
    printedTexts host kernel r₁ = printedTexts host kernel r₂ ↔
      ¬(host.Prepares r₁ ∧ kernel.FailsWithOptions) ∨ r₁.shownSecrets = r₂.shownSecrets := by
  have htraddr : r₂.traddr = r₁.traddr := by rw [same.rest]
  have hhostid : host.hostid r₂ = host.hostid r₁ := by
    rw [same.rest]
    rfl
  unfold printedTexts connect Host.Prepares
  rw [same.string_eq, htraddr, hhostid]
  cases hadjust : host.adjustTraddr r₁.traddr with
  | error err => simp [Except.isOk, Except.toBool]
  | ok traddr =>
    cases hid : host.hostid r₁ with
    | error err => simp [Except.isOk, Except.toBool]
    | ok hostid =>
      have hprepared := same.prepared host.auxSuffix traddr hostid
      simp only [Prod.mk.injEq, true_and, hprepared.string_eq]
      by_cases hfails : kernel.FailsWithOptions
      · rw [errorText_addCtrl_iff hfails, hprepared.toOptions_eq_iff, shownSecrets_prepared,
          shownSecrets_prepared]
        simp [Except.isOk, Except.toBool, hfails]
      · simp [hfails, addCtrl_congr hfails (r₁.prepared host.auxSuffix traddr hostid).toOptions
          (r₂.prepared host.auxSuffix traddr hostid).toOptions]

def secretRequest (secret : String) : ConnectRequest :=
  { transport := ascii "tcp", traddr := ascii "10.0.0.1", trsvcid := 4420, hostnqn := ascii "nqn.h"
    subsysnqn := ascii "nqn.c", ctrlLossTMO := -1, maxIOQueues := 0, hostid := ascii "h"
    kato := 0, dhChapSecret := ascii secret }

/-- Addresses that need no resolving. -/
def literalHost : Host := { adjustTraddr := .ok, getOrCreateHostID := .ok (ascii "h") }

theorem secrets_hidden_iff_open :
    printedTexts literalHost { openFile := some (ascii "no such file"), read := .ok [] }
        (secretRequest "one") =
      printedTexts literalHost { openFile := some (ascii "no such file"), read := .ok [] }
        (secretRequest "two") := by
  refine (secrets_hidden_iff ⟨rfl, by decide, by decide⟩).mpr (Or.inl ?_)
  rintro ⟨-, hopen, -⟩
  cases hopen

/-- The node is down: the write fails, and the error quotes the options it wrote. -/
theorem secret_in_error : ¬∀ (host : Host) (kernel : Kernel) (r₁ r₂ : ConnectRequest),
    SameButSecrets r₁ r₂ → printedTexts host kernel r₁ = printedTexts host kernel r₂ := by
  intro h
  have hsame := h literalHost
    { write := some (ascii "write /dev/nvme-fabrics: input/output error"), read := .ok [] }
    (secretRequest "one") (secretRequest "two") ⟨rfl, by decide, by decide⟩
  have herror := congrArg (fun texts => texts.2.2) hsame
  revert herror
  decide +kernel

end DiscoveryClient
