import DiscoveryClient.SessionTable

namespace DiscoveryClient

open GoString

/-- The client was stopped, or a session in the table has it. -/
def HostApi.Accounted (h : HostApi) (client : Nat) : Prop :=
  .stopped client ∈ h.effects ∨ ∃ id info, h.connTbl.lookup id = some info ∧ info.client = client

def NoLeak (h : HostApi) : Prop := ∀ client, .opened client ∈ h.effects → h.Accounted client

/-- The first step that fails, if one does, fails because the connect timer has stopped the client. -/
def ClosesOnError (outcomes : Outcomes) : Prop :=
  outcomes.hostIDFailed = false → outcomes.dialFailed = false →
    ∀ step, handshakeSteps.find? (fun t => (outcomes.step t).failed) = some step →
      (outcomes.step step).expired = true

def CallClosesOnError (_ : HostApi) : ApiCall → Prop
  | .discover _ _ outcomes => ClosesOnError outcomes
  | .disconnect _ => True

theorem handshake_error_iff {outcome : HandshakeStep → StepOutcome} {steps : List HandshakeStep}
    (returns : handshake outcome steps false ≠ .panicked) (expired : Bool) :
    handshake outcome steps false = .error expired ↔
      ∃ step, steps.find? (fun t => (outcome t).failed) = some step ∧
        (outcome step).expired = expired := by
  induction steps with
  | nil => simp [handshake]
  | cons step rest ih =>
    by_cases hfailed : (outcome step).failed = true
    · simp [handshake, hfailed]
    · simp only [handshake, hfailed, Bool.false_eq_true, if_false] at returns ⊢
      rw [List.find?_cons_of_neg (p := fun t => (outcome t).failed) hfailed]
      cases hexpired : (outcome step).expired with
      | false =>
        rw [hexpired] at returns
        exact ih returns
      | true =>
        -- Only after the last step does the handshake survive the timer's `Stop`.
        rw [hexpired] at returns
        cases rest with
        | nil => simp [handshake]
        | cons next rest => exact absurd rfl returns

theorem closesOnError_iff {outcomes : Outcomes} (returns : tcpClientDiscover outcomes ≠ .panicked) :
    ClosesOnError outcomes ↔ tcpClientDiscover outcomes ≠ .error false := by
  unfold tcpClientDiscover at returns ⊢
  unfold ClosesOnError
  cases hhost : outcomes.hostIDFailed with
  | true => simp
  | false =>
    cases hdial : outcomes.dialFailed with
    | true => simp
    | false =>
      simp only [hhost, hdial, Bool.or_self, Bool.false_eq_true, if_false] at returns
      have herror := handshake_error_iff returns false
      simp only [Bool.or_self, Bool.false_eq_true, if_false, ne_eq, herror, not_exists, not_and,
        Bool.not_eq_false, forall_const]

namespace HostApi

variable {h : HostApi} {client client' : Nat}

theorem Accounted.newClient (haccounted : h.Accounted client) (effects : List ApiEffect) :
    (h.newClient effects).Accounted client := by
  rcases haccounted with hstopped | hinfo
  · exact Or.inl (List.mem_append_right _ hstopped)
  · exact Or.inr hinfo

theorem Accounted.disconnect (haccounted : h.Accounted client) (connectionID : ConnectionID) :
    (h.disconnect connectionID).1.Accounted client := by
  cases hlookup : h.connTbl.lookup connectionID with
  | none => rwa [disconnect_of_notMem hlookup]
  | some info =>
    rw [disconnect_of_mem hlookup]
    rcases haccounted with hstopped | ⟨id, info', hinfo, rfl⟩
    · exact Or.inl (List.mem_cons_of_mem _ hstopped)
    · by_cases heq : id = connectionID
      · subst heq
        rw [hlookup, Option.some.injEq] at hinfo
        subst hinfo
        exact Or.inl (List.mem_cons_self ..)
      · refine Or.inr ⟨id, info', ?_, rfl⟩
        rw [GoMap.lookup_erase_eq, if_neg heq]
        exact hinfo

theorem Accounted.register (haccounted : h.Accounted client) {connectionID : ConnectionID}
    (hfree : connectionID ∉ h.connTbl) (found : Bool) (r : DiscoverRequest) (client' : Nat) :
    (h.register connectionID found r client').Accounted client := by
  rcases haccounted with hstopped | ⟨id, info, hinfo, hclient⟩
  · exact Or.inl (List.mem_cons_of_mem _ hstopped)
  · refine Or.inr ⟨id, info, ?_, hclient⟩
    have hne : id ≠ connectionID := by
      intro heq
      subst heq
      exact hfree (GoMap.mem_iff_lookup.mpr ⟨info, hinfo⟩)
    have hlook := @GoMap.lookup_insert_eq _ _ _ h.connTbl connectionID id ⟨r, client'⟩
    rw [if_neg hne] at hlook
    exact hlook.trans hinfo

theorem accounted_register (h : HostApi) (connectionID : ConnectionID) (found : Bool)
    (r : DiscoverRequest) (client : Nat) :
    (h.register connectionID found r client).Accounted client :=
  Or.inr ⟨connectionID, ⟨r, client⟩, AList.lookup_insert _, rfl⟩

theorem Accounted.persist (haccounted : h.Accounted client) (order : RangeOrder ConnItem)
    (r : DiscoverRequest) (client' : Nat) : (h.persist order r client').1.Accounted client :=
  (haccounted.disconnect _).register (h.notMem_disconnect _) _ r client'

theorem accounted_persist (h : HostApi) (order : RangeOrder ConnItem) (r : DiscoverRequest)
    (client : Nat) : (h.persist order r client).1.Accounted client :=
  accounted_register ..

theorem opened_disconnect {connectionID : ConnectionID} :
    .opened client ∈ (h.disconnect connectionID).1.effects ↔ .opened client ∈ h.effects := by
  unfold HostApi.disconnect
  split <;> simp

theorem opened_persist {order : RangeOrder ConnItem} {r : DiscoverRequest} :
    .opened client ∈ (h.persist order r client').1.effects ↔ .opened client ∈ h.effects := by
  simp [HostApi.persist, HostApi.register, opened_disconnect]

end HostApi

/-- The history and the table name only clients that were created. -/
structure ClientsBelow (h : HostApi) : Prop where
  stopped : ∀ client, .stopped client ∈ h.effects → client < h.clients
  table : ∀ id info, h.connTbl.lookup id = some info → info.client < h.clients

namespace ClientsBelow

variable {h : HostApi}

theorem not_accounted (below : ClientsBelow h) : ¬h.Accounted h.clients := by
  intro haccounted
  rcases haccounted with hstopped | ⟨id, info, hinfo, hclient⟩
  · have := below.stopped _ hstopped
    omega
  · have := below.table id info hinfo
    omega

theorem newClient (below : ClientsBelow h) {effects : List ApiEffect}
    (heffects : ∀ client, .stopped client ∈ effects → client = h.clients) :
    ClientsBelow (h.newClient effects) := by
  refine ⟨?_, ?_⟩
  · intro client hmem
    change client < h.clients + 1
    rcases List.mem_append.mp hmem with hmem | hmem
    · have := heffects client hmem
      omega
    · have := below.stopped client hmem
      omega
  · intro id info hinfo
    exact Nat.lt_succ_of_lt (below.table id info hinfo)

theorem reply (below : ClientsBelow h) (connectionID : ConnectionID) (r : DiscoverRequest) :
    ClientsBelow (h.reply connectionID r) :=
  ⟨below.stopped, below.table⟩

theorem disconnect (below : ClientsBelow h) (connectionID : ConnectionID) :
    ClientsBelow (h.disconnect connectionID).1 := by
  cases hlookup : h.connTbl.lookup connectionID with
  | none => rwa [HostApi.disconnect_of_notMem hlookup]
  | some info =>
    rw [HostApi.disconnect_of_mem hlookup]
    refine ⟨?_, ?_⟩
    · intro client hmem
      rcases List.mem_cons.mp hmem with heq | hmem
      · rw [ApiEffect.stopped.inj heq]
        exact below.table _ _ hlookup
      · exact below.stopped client hmem
    · intro id info' hinfo
      exact below.table id info' (GoMap.lookup_erase_some hinfo).2

theorem register (below : ClientsBelow h) {client : Nat} (hclient : client < h.clients)
    (connectionID : ConnectionID) (found : Bool) (r : DiscoverRequest) :
    ClientsBelow (h.register connectionID found r client) := by
  refine ⟨?_, ?_⟩
  · intro client' hmem
    exact below.stopped client' (by simpa [HostApi.register] using hmem)
  · intro id info hinfo
    rcases GoMap.lookup_insert_some hinfo with ⟨_, rfl⟩ | ⟨_, hinfo⟩
    · exact hclient
    · exact below.table id info hinfo

theorem persist (below : ClientsBelow h) {client : Nat} (hclient : client < h.clients)
    (order : RangeOrder ConnItem) (r : DiscoverRequest) :
    ClientsBelow (h.persist order r client).1 := by
  refine (below.disconnect _).register ?_ _ _ r
  rw [HostApi.clients_disconnect]
  exact hclient

end ClientsBelow

theorem NoLeak.newClient {h : HostApi} (noLeak : NoLeak h) {effects : List ApiEffect}
    (heffects : ∀ client, .opened client ∈ effects → .stopped client ∈ effects) :
    NoLeak (h.newClient effects) := by
  intro client hmem
  rcases List.mem_append.mp hmem with hmem | hmem
  · exact Or.inl (List.mem_append_left _ (heffects client hmem))
  · exact (noLeak client hmem).newClient effects

theorem NoLeak.persist {h : HostApi} (noLeak : NoLeak h) {effects : List ApiEffect}
    (heffects : ∀ client, .opened client ∈ effects → client = h.clients)
    (order : RangeOrder ConnItem) (r : DiscoverRequest) :
    NoLeak ((h.newClient effects).persist order r h.clients).1 := by
  intro client hmem
  rw [HostApi.opened_persist] at hmem
  rcases List.mem_append.mp hmem with hmem | hmem
  · rw [heffects client hmem]
    exact HostApi.accounted_persist ..
  · exact ((noLeak client hmem).newClient effects).persist order r h.clients

/-- A client that was opened and not stopped is lost when `Discover` returns the error. -/
theorem leak_of_error {h : HostApi} (below : ClientsBelow h) :
    ¬NoLeak (h.newClient [.opened h.clients]) := by
  intro noLeak
  rcases noLeak h.clients (List.mem_append_left _ (by simp)) with hstopped | hinfo
  · have hstopped : .stopped h.clients ∈ h.effects := by simpa [HostApi.newClient] using hstopped
    exact below.not_accounted (Or.inl hstopped)
  · exact below.not_accounted (Or.inr hinfo)

theorem leak_step {h h' : HostApi} {c : ApiCall} (noLeak : NoLeak h) (below : ClientsBelow h)
    (hcall : h.call c = some h') : (NoLeak h' ↔ CallClosesOnError h c) ∧ ClientsBelow h' := by
  cases c with
  | disconnect connectionID =>
    rw [← Option.some.inj hcall]
    refine ⟨iff_of_true ?_ trivial, below.disconnect connectionID⟩
    intro client hmem
    exact (noLeak client (HostApi.opened_disconnect.mp hmem)).disconnect connectionID
  | discover order r outcomes =>
    simp only [HostApi.call, HostApi.discover] at hcall
    have hcloses : tcpClientDiscover outcomes ≠ .panicked →
        (CallClosesOnError h (.discover order r outcomes) ↔
          tcpClientDiscover outcomes ≠ .error false) := closesOnError_iff
    cases hresult : tcpClientDiscover outcomes with
    | panicked => simp [hresult] at hcall
    | notOpened =>
      simp only [hresult, Option.some.injEq] at hcall
      rw [← hcall, hcloses (by simp [hresult]), hresult]
      exact ⟨iff_of_true (noLeak.newClient (by simp)) (by simp), (below.newClient (by simp)).reply _ r⟩
    | error stopped =>
      cases stopped
      · simp only [hresult, Option.some.injEq] at hcall
        rw [← hcall, hcloses (by simp [hresult]), hresult]
        exact ⟨iff_of_false (leak_of_error below) (by simp), (below.newClient (by simp)).reply _ r⟩
      · simp only [hresult, Option.some.injEq] at hcall
        rw [← hcall, hcloses (by simp [hresult]), hresult]
        exact ⟨iff_of_true (noLeak.newClient (by simp)) (by simp), (below.newClient (by simp)).reply _ r⟩
    | response stopped =>
      rw [hcloses (by simp [hresult]), hresult]
      simp only [hresult] at hcall
      by_cases hkato : r.kato = 0
      · cases stopped
        · simp only [hkato, if_true, Bool.false_eq_true, if_false, Option.some.injEq] at hcall
          rw [← hcall]
          exact ⟨iff_of_true (noLeak.newClient (by simp)) (by simp), (below.newClient (by simp)).reply _ r⟩
        · simp [hkato] at hcall
      · simp only [hkato, if_false, Option.some.injEq] at hcall
        rw [← hcall]
        refine ⟨iff_of_true (noLeak.persist ?_ order r) (by simp), ?_⟩
        · cases stopped <;> simp
        · refine ((below.newClient ?_).persist (Nat.lt_succ_self h.clients) order r).reply _ r
          cases stopped <;> simp

/-- The runs that leave no client open and unregistered are those in which no call of `Discover`
fails after it has dialed, unless the connect timer has stopped the client. -/
theorem no_leak_iff {past : List (HostApi × ApiCall)} {h : HostApi} (run : hostApi.Run past h) :
    Machine.Always NoLeak past h ↔ Machine.Each CallClosesOnError past := by
  refine Machine.Run.always_iff_each (J := ClientsBelow) ?_ ?_ run
  · intro h hinit
    rw [hinit]
    exact ⟨by simp [NoLeak], by simp, by simp⟩
  · intro h c h' noLeak below hcall
    have hstep := leak_step noLeak below hcall
    exact ⟨hstep.1, fun _ => hstep.2⟩

/-- The server closes the connection instead of answering the connect command. -/
def connectFails (expired : Bool) : Outcomes :=
  ⟨false, false, fun step => if step = .connect then ⟨true, expired⟩ else ⟨false, false⟩⟩

theorem no_leak_iff_expired : ∃ past h, hostApi.Run past h ∧
    h.effects = [.stopped 1, .opened 1, .registered (ascii "1") 0, .opened 0] ∧
    Machine.Always NoLeak past h := by
  have first := hostApi_next (.start rfl)
    (.discover .stored (sampleRequest "10.0.0.1" 30) allWell) rfl
  have run := hostApi_next first
    (.discover .stored (sampleRequest "10.0.0.2" 30) (connectFails true)) rfl
  refine ⟨_, _, run, by decide, (no_leak_iff run).mpr ?_⟩
  refine Machine.each_snoc.mpr ⟨Machine.each_snoc.mpr ⟨?_, ?_⟩, ?_⟩
  · simp [Machine.Each]
  · intro _ _ step hstep
    revert hstep
    simp [handshakeSteps, allWell]
  · intro _ _ step hstep
    have hconnect : step = .connect := by
      revert hstep
      simp [handshakeSteps, connectFails, eq_comm]
    rw [hconnect]
    rfl

/-- The connect command fails: the socket stays open and no session has it. -/
theorem leak_on_failed_connect : ¬∀ past h, hostApi.Run past h → NoLeak h := by
  intro h
  have run := hostApi_next (.start rfl)
    (.discover .stored (sampleRequest "10.0.0.1" 30) (connectFails false)) rfl
  rcases h _ _ run 0 (by decide) with hstopped | ⟨id, info, hinfo, _⟩
  · revert hstopped
    decide
  · have hinfo : (∅ : GoMap ConnectionID ConnInfo).lookup id = some info := hinfo
    simp at hinfo

end DiscoveryClient
