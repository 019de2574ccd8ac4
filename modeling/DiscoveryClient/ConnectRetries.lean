import DiscoveryClient.ConnectAll

/-! `Connect` rewrites three fields of the request that it is given, and a retry is given the request
as the attempt before it has left it. What is written there is its own fixed point, so that the
attempts cannot drift apart. -/

namespace DiscoveryClient

open GoString

/-- An answer of the resolver reads back as an address. -/
def ResolvesToLiterals (around : Nat → Surroundings) : Prop :=
  ∀ n name ip, (around n).lookupIP name = .ok ip → (GoIP.parseIP (GoIP.string ip)).isSome = true

/-- Whenever the host id can be read, it is the same. -/
def HostIDUnchanged (around : Nat → Surroundings) : Prop :=
  ∀ m n hostid hostid', (around m).getOrCreateHostID = .ok hostid →
    (around n).getOrCreateHostID = .ok hostid' → hostid = hostid'

/-- What `AdjustTraddr` asks the resolver for this request, with the answer, unless the address is
a literal. -/
def ConnectRequest.lookup (request : ConnectRequest) (around : Surroundings) :
    Option (GoString × Except GoString GoIP.IP) :=
  if (GoIP.parseIP request.traddr).isSome then none
  else some (request.traddr, around.lookupIP request.traddr)

/-- The calls of `Connect` that `connectNVMEDevicesWithRetry` makes, each with the request it is
given. -/
def retryCalls (s : ConnectSettings) (around : Nat → Surroundings) :
    Nat → Nat → ConnectRequest → List (Nat × ConnectRequest)
  | 0, _, _ => []
  | attempts + 1, calls, request =>
    let connected := connect (s.host (around calls)) (around calls).kernel request
    match connected.result with
    | .ok _ => [(calls, request)]
    | .error _ => (calls, request) :: retryCalls s around attempts (calls + 1) connected.request

/-- A first call and the retries after it. -/
def connectCalls (s : ConnectSettings) (around : Nat → Surroundings) (attempts calls : Nat)
    (request : ConnectRequest) : List (Nat × ConnectRequest) :=
  (calls, request) :: retryCalls s around attempts (calls + 1)
    (connect (s.host (around calls)) (around calls).kernel request).request

/-- What these calls hand to `addCtrl`. -/
def handedBy (s : ConnectSettings) (around : Nat → Surroundings)
    (made : List (Nat × ConnectRequest)) : List GoString :=
  made.filterMap fun call => handedOptions (s.host (around call.1)) call.2

/-- What these calls ask the resolver, and how it answers. -/
def lookupsOf (around : Nat → Surroundings) (made : List (Nat × ConnectRequest)) :
    List (GoString × Except GoString GoIP.IP) :=
  made.filterMap fun call => call.2.lookup (around call.1)

theorem handedBy_cons (s : ConnectSettings) (around : Nat → Surroundings)
    (call : Nat × ConnectRequest) (made : List (Nat × ConnectRequest)) :
    handedBy s around (call :: made) =
      (handedOptions (s.host (around call.1)) call.2).toList ++ handedBy s around made := by
  rw [handedBy, List.filterMap_cons]
  cases handedOptions (s.host (around call.1)) call.2 <;> rfl

theorem lookupsOf_cons (around : Nat → Surroundings) (call : Nat × ConnectRequest)
    (made : List (Nat × ConnectRequest)) :
    lookupsOf around (call :: made) =
      (call.2.lookup (around call.1)).toList ++ lookupsOf around made := by
  rw [lookupsOf, List.filterMap_cons]
  cases call.2.lookup (around call.1) <;> rfl

/-- Each call is given the request as the call before it has left it. -/
inductive Attempts (s : ConnectSettings) (around : Nat → Surroundings) :
    ConnectRequest → List (Nat × ConnectRequest) → Prop
  | done (request : ConnectRequest) : Attempts s around request []
  | call {calls : Nat} {request : ConnectRequest} {made : List (Nat × ConnectRequest)}
      (rest : Attempts s around
        (connect (s.host (around calls)) (around calls).kernel request).request made) :
      Attempts s around request ((calls, request) :: made)

/-- The suffix stands at the end, unless none is configured; it stands there a second time only in
a name that was left as it is. -/
structure SuffixOnce (auxSuffix original subsysnqn : GoString) : Prop where
  appended : subsysnqn = original ∨ subsysnqn = original ++ ascii "." ++ auxSuffix
  present : auxSuffix ≠ [] → ascii "." ++ auxSuffix <:+ subsysnqn
  kept : auxSuffix = [] ∨ ascii "." ++ auxSuffix <:+ original → subsysnqn = original
  once : ascii "." ++ auxSuffix ++ (ascii "." ++ auxSuffix) <:+ subsysnqn → subsysnqn = original

/-- Every question was for the same name, and an answered one was the last. -/
structure AskedOnce (name : GoString) (lookups : List (GoString × Except GoString GoIP.IP)) :
    Prop where
  same : ∀ lookup ∈ lookups, lookup.1 = name
  failed : ∀ lookup ∈ lookups.dropLast, ∃ err, lookup.2 = .error err

theorem suffixOnce_withAuxSuffix (auxSuffix original : GoString) :
    SuffixOnce auxSuffix original (withAuxSuffix auxSuffix original) := by
  by_cases h : auxSuffix ≠ [] ∧ ¬(ascii "." ++ auxSuffix <:+ original)
  · have heq : withAuxSuffix auxSuffix original = original ++ (ascii "." ++ auxSuffix) := by
      rw [withAuxSuffix, if_pos h, List.append_assoc]
    rw [heq]
    refine ⟨Or.inr (by rw [List.append_assoc]), fun _ => ⟨original, rfl⟩, ?_, ?_⟩
    · rintro (hnil | hsuffix)
      · exact absurd hnil h.1
      · exact absurd hsuffix h.2
    · intro htwice
      exact absurd ((List.suffix_append_inj_of_length_eq rfl).mp htwice).1 h.2
  · have heq : withAuxSuffix auxSuffix original = original := if_neg h
    rw [heq]
    refine ⟨Or.inl rfl, fun hne => ?_, fun _ => rfl, fun _ => rfl⟩
    exact Decidable.not_not.mp fun hsuffix => h ⟨hne, hsuffix⟩

namespace ConnectRequest

variable {s : ConnectSettings} {around : Nat → Surroundings} {request : ConnectRequest}

/-- A request that a further call of `Connect` has nothing to rewrite in. -/
structure Settled (s : ConnectSettings) (around : Nat → Surroundings) (request : ConnectRequest) :
    Prop where
  traddr : (GoIP.parseIP request.traddr).isSome = true
  hostid : request.hostid = [] → ∀ n hostid, (around n).getOrCreateHostID = .ok hostid → hostid = []
  subsysnqn : withAuxSuffix s.auxSuffix request.subsysnqn = request.subsysnqn

theorem literal_of_adjustTraddr (hresolver : ResolvesToLiterals around) {n : Nat}
    {traddr adjusted : GoString} (h : adjustTraddr (around n).lookupIP traddr = .ok adjusted) :
    (GoIP.parseIP adjusted).isSome = true := by
  rw [adjustTraddr_eq] at h
  split at h
  next hliteral => exact Except.ok.inj h ▸ hliteral
  next =>
    cases hlookup : (around n).lookupIP traddr with
    | error err => rw [hlookup] at h; cases h
    | ok ip =>
      rw [hlookup] at h
      exact Except.ok.inj h ▸ hresolver n traddr ip hlookup

theorem settled_prepared (hresolver : ResolvesToLiterals around) (hfile : HostIDUnchanged around)
    {n : Nat} {traddr hostid : GoString}
    (htraddr : (s.host (around n)).adjustTraddr request.traddr = .ok traddr)
    (hhostid : (s.host (around n)).hostid request = .ok hostid) :
    (request.prepared s.auxSuffix traddr hostid).Settled s around where
  traddr := literal_of_adjustTraddr hresolver htraddr
  subsysnqn := withAuxSuffix_idem s.auxSuffix request.subsysnqn
  hostid := by
    intro hnil m hostid' hread
    change hostid = [] at hnil
    rw [Host.hostid] at hhostid
    split at hhostid
    next => rw [hfile m n hostid' hostid hread hhostid, hnil]
    next hne => exact absurd ((Except.ok.inj hhostid).trans hnil) hne

/-- A settled request stays as it is, and its own options are all that is handed over. -/
theorem Settled.connect (h : request.Settled s around) (n : Nat) (kernel : Kernel) :
    (DiscoveryClient.connect (s.host (around n)) kernel request).request = request ∧
    ∀ options, handedOptions (s.host (around n)) request = some options →
      options = request.toOptions := by
  have htraddr : (s.host (around n)).adjustTraddr request.traddr = .ok request.traddr := by
    change adjustTraddr (around n).lookupIP request.traddr = _
    rw [adjustTraddr_eq, if_pos h.traddr]
  cases hhostid : (s.host (around n)).hostid request with
  | error err => simp [DiscoveryClient.connect, handedOptions, htraddr, hhostid]
  | ok hostid =>
    have hsame : hostid = request.hostid := by
      rw [Host.hostid] at hhostid
      split at hhostid
      next hnil => rw [h.hostid hnil n hostid hhostid, hnil]
      next => exact (Except.ok.inj hhostid).symm
    have hprepared : request.prepared s.auxSuffix request.traddr hostid = request := by
      rw [prepared, h.subsysnqn, hsame]
    have haux : (s.host (around n)).auxSuffix = s.auxSuffix := rfl
    simp [DiscoveryClient.connect, handedOptions, htraddr, hhostid, haux, hprepared]

/-- A call either settles the request and hands over its options, or hands over nothing and leaves
all but the address. -/
theorem connect_cases (hresolver : ResolvesToLiterals around) (hfile : HostIDUnchanged around)
    (n : Nat) (kernel : Kernel) (request : ConnectRequest) :
    (∃ traddr hostid, (request.prepared s.auxSuffix traddr hostid).Settled s around ∧
      (DiscoveryClient.connect (s.host (around n)) kernel request).request =
        request.prepared s.auxSuffix traddr hostid ∧
      handedOptions (s.host (around n)) request =
        some (request.prepared s.auxSuffix traddr hostid).toOptions) ∨
    (∃ traddr, (DiscoveryClient.connect (s.host (around n)) kernel request).request =
        { request with traddr := traddr } ∧
      handedOptions (s.host (around n)) request = none) := by
  cases htraddr : (s.host (around n)).adjustTraddr request.traddr with
  | error err =>
    exact Or.inr ⟨request.traddr, by simp [DiscoveryClient.connect, handedOptions, htraddr]⟩
  | ok traddr =>
    cases hhostid : (s.host (around n)).hostid request with
    | error err =>
      exact Or.inr ⟨traddr, by simp [DiscoveryClient.connect, handedOptions, htraddr, hhostid]⟩
    | ok hostid =>
      have haux : (s.host (around n)).auxSuffix = s.auxSuffix := rfl
      refine Or.inl ⟨traddr, hostid, settled_prepared hresolver hfile htraddr hhostid, ?_⟩
      simp [DiscoveryClient.connect, handedOptions, htraddr, hhostid, haux]

theorem traddr_connect (host : Host) (kernel : Kernel) (request : ConnectRequest) :
    (DiscoveryClient.connect host kernel request).request.traddr =
      match host.adjustTraddr request.traddr with
      | .ok traddr => traddr
      | .error _ => request.traddr := by
  cases htraddr : host.adjustTraddr request.traddr with
  | error err => simp [DiscoveryClient.connect, htraddr]
  | ok traddr =>
    cases hhostid : host.hostid request with
    | error err => simp [DiscoveryClient.connect, htraddr, hhostid]
    | ok hostid => simp [DiscoveryClient.connect, htraddr, hhostid, prepared]

end ConnectRequest

section Attempts

variable {s : ConnectSettings} {around : Nat → Surroundings} {request : ConnectRequest}
  {made : List (Nat × ConnectRequest)}

theorem retryCalls_attempts (s : ConnectSettings) (around : Nat → Surroundings)
    (attempts calls : Nat) (request : ConnectRequest) :
    Attempts s around request (retryCalls s around attempts calls request) := by
  induction attempts generalizing calls request with
  | zero => exact .done request
  | succ attempts ih =>
    rw [retryCalls]
    split
    next => exact .call (.done _)
    next => exact .call (ih (calls + 1) _)

/-- What the loop hands over is what its calls hand over. -/
theorem connectNVMEDevicesWithRetry_handed (s : ConnectSettings) (around : Nat → Surroundings)
    (attempts calls : Nat) (request : ConnectRequest) :
    (connectNVMEDevicesWithRetry s around attempts calls request).handed =
      handedBy s around (retryCalls s around attempts calls request) := by
  induction attempts generalizing calls request with
  | zero => rfl
  | succ attempts ih =>
    cases hresult : (connect (s.host (around calls)) (around calls).kernel request).result with
    | ok ctrlID =>
      simp only [connectNVMEDevicesWithRetry, retryCalls, hresult, handedBy_cons]
      exact (List.append_nil _).symm
    | error err =>
      simp only [connectNVMEDevicesWithRetry, retryCalls, hresult, handedBy_cons, ← ih]
      split
      next hlast =>
        subst hlast
        exact (List.append_nil _).symm
      next => rfl

theorem handedBy_of_settled (h : request.Settled s around) (hmade : Attempts s around request made) :
    ∀ options ∈ handedBy s around made, options = request.toOptions := by
  induction hmade with
  | done => exact List.forall_mem_nil _
  | call rest ih =>
    rename_i calls request made
    obtain ⟨hsame, hhanded⟩ := h.connect calls (around calls).kernel
    rw [hsame] at ih
    intro options hmem
    rw [handedBy_cons] at hmem
    rcases List.mem_append.mp hmem with hmem | hmem
    · exact hhanded options (Option.mem_toList.mp hmem)
    · exact ih h options hmem

/-- Whatever the number of attempts, they hand over one and the same string. -/
theorem handedBy_same (hresolver : ResolvesToLiterals around) (hfile : HostIDUnchanged around)
    (hmade : Attempts s around request made) :
    ∃ traddr hostid, ∀ options ∈ handedBy s around made,
      options = (request.prepared s.auxSuffix traddr hostid).toOptions := by
  induction hmade with
  | done => exact ⟨[], [], List.forall_mem_nil _⟩
  | call rest ih =>
    rename_i calls request made
    rcases request.connect_cases (s := s) hresolver hfile calls (around calls).kernel with
      ⟨traddr, hostid, hsettled, hrequest, hhanded⟩ | ⟨traddr, hrequest, hhanded⟩
    · refine ⟨traddr, hostid, fun options hmem => ?_⟩
      rw [handedBy_cons, hhanded] at hmem
      rcases List.mem_cons.mp hmem with rfl | hmem
      · rfl
      · exact handedBy_of_settled hsettled (hrequest ▸ rest) options hmem
    · -- the next call is given the request with at most its address replaced
      rw [hrequest] at ih
      obtain ⟨traddr', hostid, hall⟩ := ih
      refine ⟨traddr', hostid, fun options hmem => ?_⟩
      rw [handedBy_cons, hhanded] at hmem
      exact hall options hmem

theorem lookupsOf_of_literal (h : (GoIP.parseIP request.traddr).isSome = true)
    (hmade : Attempts s around request made) : lookupsOf around made = [] := by
  induction hmade with
  | done => rfl
  | call rest ih =>
    rename_i calls request made
    have hkept : (connect (s.host (around calls)) (around calls).kernel request).request.traddr =
        request.traddr := by
      have hadjust : (s.host (around calls)).adjustTraddr request.traddr = .ok request.traddr := by
        change adjustTraddr (around calls).lookupIP request.traddr = _
        rw [adjustTraddr_eq, if_pos h]
      rw [ConnectRequest.traddr_connect, hadjust]
    rw [hkept] at ih
    rw [lookupsOf_cons, ih h, List.append_nil, ConnectRequest.lookup, if_pos h]
    rfl

theorem askedOnce_nil (name : GoString) : AskedOnce name [] :=
  ⟨List.forall_mem_nil _, List.forall_mem_nil _⟩

theorem askedOnce_singleton (name : GoString) (answer : Except GoString GoIP.IP) :
    AskedOnce name [(name, answer)] :=
  ⟨List.forall_mem_singleton.mpr rfl, List.forall_mem_nil _⟩

/-- The resolver is asked until it answers, and not again. -/
theorem lookupsOf_askedOnce (hresolver : ResolvesToLiterals around)
    (hmade : Attempts s around request made) : AskedOnce request.traddr (lookupsOf around made) := by
  induction hmade with
  | done => exact askedOnce_nil _
  | call rest ih =>
    rename_i calls request made
    by_cases hliteral : (GoIP.parseIP request.traddr).isSome = true
    · rw [lookupsOf_of_literal hliteral (.call rest)]
      exact askedOnce_nil _
    · have hlookup : lookupsOf around ((calls, request) :: made) =
          (request.traddr, (around calls).lookupIP request.traddr) :: lookupsOf around made := by
        rw [lookupsOf_cons, ConnectRequest.lookup, if_neg hliteral]
        rfl
      have htraddr := ConnectRequest.traddr_connect (s.host (around calls)) (around calls).kernel
        request
      have hadjust : (s.host (around calls)).adjustTraddr request.traddr =
          ((around calls).lookupIP request.traddr).map GoIP.string := by
        change adjustTraddr (around calls).lookupIP request.traddr = _
        rw [adjustTraddr_eq, if_neg hliteral]
      rw [hlookup]
      cases hanswer : (around calls).lookupIP request.traddr with
      | error err =>
        rw [hadjust, hanswer] at htraddr
        rw [htraddr] at ih
        refine ⟨List.forall_mem_cons.mpr ⟨rfl, ih.same⟩, ?_⟩
        cases hrest : lookupsOf around made with
        | nil => exact List.forall_mem_nil _
        | cons next others =>
          rw [List.dropLast_cons_of_ne_nil (List.cons_ne_nil next others), ← hrest]
          exact List.forall_mem_cons.mpr ⟨⟨err, rfl⟩, ih.failed⟩
      | ok ip =>
        rw [hadjust, hanswer] at htraddr
        have hnext := hresolver calls request.traddr ip hanswer
        rw [lookupsOf_of_literal (htraddr ▸ hnext) rest]
        exact askedOnce_singleton request.traddr (.ok ip)

/-- What a first call and its retries hand over is what the calls of `connectCalls` hand over. -/
theorem handedBy_connectCalls (s : ConnectSettings) (around : Nat → Surroundings)
    (attempts calls : Nat) (request : ConnectRequest) :
    handedBy s around (connectCalls s around attempts calls request) =
      (handedOptions (s.host (around calls)) request).toList ++
      (connectNVMEDevicesWithRetry s around attempts (calls + 1)
        (connect (s.host (around calls)) (around calls).kernel request).request).handed := by
  rw [connectCalls, handedBy_cons, connectNVMEDevicesWithRetry_handed]

theorem connectCalls_attempts (s : ConnectSettings) (around : Nat → Surroundings)
    (attempts calls : Nat) (request : ConnectRequest) :
    Attempts s around request (connectCalls s around attempts calls request) :=
  .call (retryCalls_attempts s around attempts (calls + 1) _)

theorem connectEntry_handed_subset (s : ConnectSettings) (around : Nat → Surroundings)
    (calls : Nat) (logPageEntry : NvmeDiscPageEntry) :
    (connectEntry s around calls logPageEntry).handed ⊆
      handedBy s around (connectCalls s around 5 calls (s.request logPageEntry)) := by
  rw [handedBy_connectCalls]
  dsimp only [connectEntry]
  split
  next => exact List.subset_append_left _ _
  next => exact List.subset_append_left _ _
  next =>
    split
    next => exact List.subset_append_left _ _
    next =>
      split
      next => exact List.Subset.refl _
      next => exact List.Subset.refl _
      next => exact List.Subset.refl _

/-- For an entry of the log page, one string is handed over. -/
theorem connectEntry_handed_same (hresolver : ResolvesToLiterals around)
    (hfile : HostIDUnchanged around) (s : ConnectSettings) (calls : Nat)
    (logPageEntry : NvmeDiscPageEntry) :
    ∃ traddr hostid, ∀ options ∈ (connectEntry s around calls logPageEntry).handed,
      options = ((s.request logPageEntry).prepared s.auxSuffix traddr hostid).toOptions := by
  obtain ⟨traddr, hostid, hall⟩ := handedBy_same hresolver hfile
    (connectCalls_attempts s around 5 calls (s.request logPageEntry))
  exact ⟨traddr, hostid, fun options hmem =>
    hall options (connectEntry_handed_subset s around calls logPageEntry hmem)⟩

/-- A first call of `Connect` and any number of retries write one option string, for the given
subsystem with the suffix once at its end, and resolve the address at most once. -/
theorem connect_retries_idempotent (hresolver : ResolvesToLiterals around)
    (hfile : HostIDUnchanged around) (s : ConnectSettings) (attempts calls : Nat)
    (request : ConnectRequest) :
    let connected := connect (s.host (around calls)) (around calls).kernel request
    let retried := connectNVMEDevicesWithRetry s around attempts (calls + 1) connected.request
    (∃ traddr hostid, ∀ options ∈
        (handedOptions (s.host (around calls)) request).toList ++ retried.handed,
      options = (request.prepared s.auxSuffix traddr hostid).toOptions) ∧
    SuffixOnce s.auxSuffix request.subsysnqn (withAuxSuffix s.auxSuffix request.subsysnqn) ∧
    AskedOnce request.traddr (lookupsOf around (connectCalls s around attempts calls request)) := by
  intro connected retried
  have hmade := connectCalls_attempts s around attempts calls request
  obtain ⟨traddr, hostid, hall⟩ := handedBy_same hresolver hfile hmade
  rw [handedBy_connectCalls] at hall
  exact ⟨⟨traddr, hostid, hall⟩, suffixOnce_withAuxSuffix s.auxSuffix request.subsysnqn,
    lookupsOf_askedOnce hresolver hmade⟩

end Attempts

/-- The name is not known at first, then it resolves to another address every time; the kernel
refuses every connection. -/
def sampleResolver (n : Nat) : Surroundings where
  lookupIP := fun _ =>
    if n = 0 then .error (ascii "no such host") else .ok [10, 0, 0, UInt8.ofNat n]
  getOrCreateHostID := .ok (ascii "id")
  kernel := { write := some (ascii "connection refused"), read := .ok [] }

theorem sampleResolver_literals : ResolvesToLiterals sampleResolver := by
  intro n name ip hip
  have hall : ∀ b, (GoIP.parseIP (GoIP.string [10, 0, 0, b])).isSome = true :=
    forall_byte (by decide +kernel)
  simp only [sampleResolver] at hip
  split at hip
  next => cases hip
  next =>
    cases Except.ok.inj hip
    exact hall (UInt8.ofNat n)

theorem sampleResolver_hostID : HostIDUnchanged sampleResolver := by
  intro m n hostid hostid' hread hread'
  exact (Except.ok.inj hread).symm.trans (Except.ok.inj hread')

def sampleNameRequest : ConnectRequest :=
  { sampleSettings.request (ioEntry (ascii "nqn.s")) with traddr := ascii "node", hostid := [] }

/-- What four retries hand over after a first attempt that could not resolve the name. -/
def retriedHanded : List GoString :=
  (connectNVMEDevicesWithRetry sampleSettings sampleResolver 4 1
    (connect (sampleSettings.host (sampleResolver 0)) (sampleResolver 0).kernel
      sampleNameRequest).request).handed

theorem connect_retries_idempotent_name :
    retriedHanded =
      List.replicate 4 (ascii "nqn=nqn.s.aux,traddr=10.0.0.1,trsvcid=4420,hostnqn=nqn.h,hostid=id") ∧
    lookupsOf sampleResolver (connectCalls sampleSettings sampleResolver 4 0 sampleNameRequest) =
      [(ascii "node", .error (ascii "no such host")), (ascii "node", .ok [10, 0, 0, 1])] ∧
    SuffixOnce (ascii "aux") (ascii "nqn.s") (ascii "nqn.s.aux") := by
  obtain ⟨⟨traddr, hostid, hall⟩, hsuffix, -⟩ :=
    connect_retries_idempotent sampleResolver_literals sampleResolver_hostID sampleSettings 4 0
      sampleNameRequest
  have hsame : ∀ options ∈ retriedHanded, options = (sampleNameRequest.prepared
      sampleSettings.auxSuffix traddr hostid).toOptions :=
    fun options h => hall options (List.mem_append_right _ h)
  have hfirst : retriedHanded.head? =
      some (ascii "nqn=nqn.s.aux,traddr=10.0.0.1,trsvcid=4420,hostnqn=nqn.h,hostid=id") := by
    decide +kernel
  have hlength : retriedHanded.length = 4 := by decide +kernel
  refine ⟨List.eq_replicate_iff.mpr ⟨hlength, fun options h => ?_⟩, by rfl, hsuffix⟩
  rw [hsame options h, ← hsame _ (List.mem_of_head? hfirst)]

end DiscoveryClient
