import DiscoveryClient.AenReferrals
import DiscoveryClient.ConnectRetries
import DiscoveryClient.PublishedPorts

/-! What becomes of the targets that a discovery service publishes when a client is notified: it
discovers them over the wire, hands those with namespaces to the kernel and goes on to those that
are discovery services themselves. -/

namespace DiscoveryClient

open GoString

/-- The options are those of one connection, to the target as it was published. -/
structure ToldOf (auxSuffix : GoString) (t : Target) (options : GoString) : Prop where
  once : ((splitOptions options).map Prod.fst).Nodup
  nqn : (ascii "nqn", withAuxSuffix auxSuffix t.subsysNqn) ∈ splitOptions options
  traddr : (ascii "traddr", t.port.trAddr) ∈ splitOptions options
  trsvcid : (ascii "trsvcid", t.port.trsvcID) ∈ splitOptions options

/-- A target that can be named in the options: at a literal address and a port other than zero, and
without a comma in its name. -/
structure Target.Nameable (t : Target) (number : UInt16) : Prop where
  literal : (GoIP.parseIP t.port.trAddr).isSome = true
  number_ne : number ≠ 0
  subsysNqn : 0x2C ∉ t.subsysNqn

/-- The key of a discovery service in the cache of a client that it was reported to. -/
def Target.endpoint (t : Target) (number : UInt16) (conn : Connection) : TKey :=
  ⟨ascii "tcp", t.port.trAddr, number.toNat, conn.key.nqn, conn.hostnqn⟩

/-- The host has an id in its settings or its file. -/
def ConnectSettings.HasHostID (s : ConnectSettings) (around : Nat → Surroundings) : Prop :=
  s.hostid = [] → ∀ n, ∃ hostid, (around n).getOrCreateHostID = .ok hostid

section Attempts

variable {s : ConnectSettings} {around : Nat → Surroundings} {request : ConnectRequest}
  {made : List (Nat × ConnectRequest)}

/-- What holds of the request through all calls of `Connect` decides what they hand over. -/
theorem forall_handedBy {I : ConnectRequest → Prop} {P : GoString → Prop}
    (hconnect : ∀ n request, I request →
      I (connect (s.host (around n)) (around n).kernel request).request)
    (hhanded : ∀ n request options, I request →
      handedOptions (s.host (around n)) request = some options → P options)
    (hmade : Attempts s around request made) (h : I request) :
    ∀ options ∈ handedBy s around made, P options := by
  induction hmade with
  | done => exact List.forall_mem_nil _
  | call rest ih =>
    rename_i calls request made
    intro options hmem
    rw [handedBy_cons] at hmem
    rcases List.mem_append.mp hmem with hmem | hmem
    · exact hhanded calls request options h (Option.mem_toList.mp hmem)
    · exact ih (hconnect calls request h) options hmem

/-- The first call of `Connect` is always made. -/
theorem first_handed_subset (s : ConnectSettings) (around : Nat → Surroundings) (calls : Nat)
    (logPageEntry : NvmeDiscPageEntry) :
    (handedOptions (s.host (around calls)) (s.request logPageEntry)).toList ⊆
      (connectEntry s around calls logPageEntry).handed := by
  dsimp only [connectEntry]
  split
  next => exact List.Subset.refl _
  next => exact List.Subset.refl _
  next =>
    split
    next => exact List.Subset.refl _
    next =>
      split
      next => exact List.subset_append_left _ _
      next => exact List.subset_append_left _ _
      next => exact List.subset_append_left _ _

end Attempts

section Entries

variable {s : ConnectSettings} {around : Nat → Surroundings} {logPageEntry : NvmeDiscPageEntry}
  {logPageEntries : List NvmeDiscPageEntry} {calls : Nat}

theorem of_mem_handed {options : GoString}
    (h : (logPageEntry, options) ∈ (connectAllNVMEDevices s around calls logPageEntries).handed) :
    logPageEntry ∈ logPageEntries ∧
      ∃ calls', options ∈ (connectEntry s around calls' logPageEntry).handed := by
  induction logPageEntries generalizing calls with
  | nil => cases h
  | cons entry logPageEntries ih =>
    rw [connectAllNVMEDevices] at h
    split at h
    next => exact (ih h).imp_left (List.mem_cons_of_mem _)
    next =>
      rcases List.mem_append.mp h with h | h
      · obtain ⟨o, ho, heq⟩ := List.mem_map.mp h
        cases heq
        exact ⟨List.mem_cons_self, calls, ho⟩
      · exact (ih h).imp_left (List.mem_cons_of_mem _)

/-- Every entry of a subsystem with namespaces is tried. -/
theorem exists_mem_handed (hmem : logPageEntry ∈ logPageEntries)
    (hnvme : logPageEntry.subType = nvmeNqnNvme)
    (h : ∀ calls, ∃ options, options ∈ (connectEntry s around calls logPageEntry).handed) :
    ∃ options, (logPageEntry, options) ∈
      (connectAllNVMEDevices s around calls logPageEntries).handed := by
  induction logPageEntries generalizing calls with
  | nil => cases hmem
  | cons entry logPageEntries ih =>
    rw [connectAllNVMEDevices]
    rcases List.mem_cons.mp hmem with rfl | hmem
    · obtain ⟨options, hoptions⟩ := h calls
      rw [if_neg (not_not.mpr hnvme)]
      exact ⟨options, List.mem_append_left _ (List.mem_map_of_mem hoptions)⟩
    · split
      next => exact ih hmem
      next => exact (ih hmem).imp fun _ h => List.mem_append_right _ h

end Entries

section Told

variable {s : ConnectSettings} {around : Nat → Surroundings} {t : Target} {number : UInt16}

/-- A request for the target, as it is before or after a call of `Connect`. -/
structure ConnectRequest.ForTarget (s : ConnectSettings) (t : Target) (number : UInt16)
    (request : ConnectRequest) : Prop where
  forEntry : request.For s (t.seenAs number)
  traddr : request.traddr = t.port.trAddr
  trsvcid : request.trsvcid = number.toNat

theorem adjustTraddr_literal (literal : (GoIP.parseIP t.port.trAddr).isSome = true) (n : Nat) :
    (s.host (around n)).adjustTraddr t.port.trAddr = .ok t.port.trAddr := by
  change adjustTraddr (around n).lookupIP t.port.trAddr = _
  rw [adjustTraddr_eq, if_pos literal]

theorem trsvcid_connect (host : Host) (kernel : Kernel) (request : ConnectRequest) :
    (connect host kernel request).request.trsvcid = request.trsvcid := by
  unfold connect
  split
  next => rfl
  next =>
    split
    next => rfl
    next => rfl

theorem ConnectRequest.ForTarget.connect {request : ConnectRequest}
    (h : request.ForTarget s t number) (literal : (GoIP.parseIP t.port.trAddr).isSome = true)
    (haround : HostIDsCommaFree around) (n : Nat) :
    ForTarget s t number (connect (s.host (around n)) (around n).kernel request).request where
  forEntry := h.forEntry.connect (haround n) _
  traddr := by rw [ConnectRequest.traddr_connect, h.traddr, adjustTraddr_literal literal]
  trsvcid := (trsvcid_connect _ _ _).trans h.trsvcid

theorem ConnectRequest.ForTarget.commaFree {request : ConnectRequest}
    (h : request.ForTarget s t number) (nameable : t.Nameable number) (hs : s.CommaFree)
    {hostid : GoString} (hhostid : 0x2C ∉ hostid) :
    (request.prepared s.auxSuffix t.port.trAddr hostid).CommaFree := by
  have hliteral : adjustTraddr (fun _ => .error []) t.port.trAddr = .ok t.port.trAddr := by
    rw [adjustTraddr_eq, if_pos nameable.literal]
  refine (h.forEntry.prepared t.port.trAddr hhostid).commaFree ?_
    (comma_not_mem_adjustTraddr hliteral)
  have hnqn : withAuxSuffix s.auxSuffix request.subsysnqn = withAuxSuffix s.auxSuffix t.subsysNqn :=
    h.forEntry.nqn
  change 0x2C ∉ withAuxSuffix s.auxSuffix request.subsysnqn
  rw [hnqn, comma_mem_withAuxSuffix hs.auxSuffix]
  exact nameable.subsysNqn

/-- The address and the port are given, in the texts that the service has for them. -/
theorem ConnectRequest.ForTarget.mem_written {request : ConnectRequest}
    (h : request.ForTarget s t number) (listens : t.ListensOn number) (nameable : t.Nameable number)
    (hostid : GoString) :
    ("traddr", t.port.trAddr) ∈ (request.prepared s.auxSuffix t.port.trAddr hostid).written ∧
      ("trsvcid", t.port.trsvcID) ∈ (request.prepared s.auxSuffix t.port.trAddr hostid).written := by
  have haddr : t.port.trAddr ≠ [] := by
    intro hnil
    have hliteral := nameable.literal
    rw [hnil] at hliteral
    cases hliteral
  have hport : formatInt number.toNat = t.port.trsvcID := by
    rw [listens.trsvcID, formatInt, if_neg (by omega)]
    rfl
  have hpos : 0 < number.toNat :=
    Nat.pos_of_ne_zero fun hzero => nameable.number_ne (UInt16.toNat_inj.mp hzero)
  constructor
  · simp [ConnectRequest.written, ConnectRequest.mem_given, ConnectRequest.prepared, haddr]
  · simp [ConnectRequest.written, ConnectRequest.mem_given, ConnectRequest.prepared, h.trsvcid,
      hport, hpos]

theorem ConnectRequest.ForTarget.toldOf {request : ConnectRequest}
    (h : request.ForTarget s t number) (listens : t.ListensOn number) (nameable : t.Nameable number)
    (hs : s.CommaFree) (haround : HostIDsCommaFree around) {n : Nat} {options : GoString}
    (hhanded : handedOptions (s.host (around n)) request = some options) :
    ToldOf s.auxSuffix t options := by
  have haux : (s.host (around n)).auxSuffix = s.auxSuffix := rfl
  rw [handedOptions, h.traddr, adjustTraddr_literal nameable.literal, haux] at hhanded
  cases hhostid : (s.host (around n)).hostid request with
  | error err =>
    rw [hhostid] at hhanded
    cases hhanded
  | ok hostid =>
    rw [hhostid] at hhanded
    cases Option.some.inj hhanded
    have hfree := h.commaFree nameable hs (h.forEntry.hostid_ok (haround n) hhostid)
    have hmeant := @optionsAsMeant_toOptions s (t.seenAs number) _ hfree h.forEntry.nqn
    obtain ⟨htraddr, htrsvcid⟩ := h.mem_written listens nameable hostid
    refine ⟨hmeant.1, hmeant.2.2, ?_, ?_⟩
    · rw [ConnectRequest.splitOptions_toOptions hfree]
      exact List.mem_map_of_mem htraddr
    · rw [ConnectRequest.splitOptions_toOptions hfree]
      exact List.mem_map_of_mem htrsvcid

/-- Whatever the kernel answers, all that is handed over for a target names it. -/
theorem toldOf_of_mem_handed (listens : t.ListensOn number) (nameable : t.Nameable number)
    (hs : s.CommaFree) (haround : HostIDsCommaFree around) {calls : Nat} {options : GoString}
    (h : options ∈ (connectEntry s around calls (t.seenAs number)).handed) :
    ToldOf s.auxSuffix t options := by
  have first : (s.request (t.seenAs number)).ForTarget s t number :=
    ⟨ConnectRequest.for_request hs _, rfl, rfl⟩
  exact forall_handedBy (fun n _ h => h.connect nameable.literal haround n)
    (fun n _ _ h hhanded => h.toldOf listens nameable hs haround hhanded)
    (connectCalls_attempts s around 5 calls _) first options
    (connectEntry_handed_subset s around calls _ h)

theorem exists_handed (nameable : t.Nameable number) (hostID : s.HasHostID around) (calls : Nat) :
    ∃ options, options ∈ (connectEntry s around calls (t.seenAs number)).handed := by
  have hhostid : ∃ hostid,
      (s.host (around calls)).hostid (s.request (t.seenAs number)) = .ok hostid := by
    by_cases hnil : s.hostid = []
    · obtain ⟨hostid, hread⟩ := hostID hnil calls
      exact ⟨hostid, (if_pos hnil).trans hread⟩
    · exact ⟨s.hostid, if_neg hnil⟩
  obtain ⟨hostid, hhostid⟩ := hhostid
  have hhanded : handedOptions (s.host (around calls)) (s.request (t.seenAs number)) =
      some ((s.request (t.seenAs number)).prepared s.auxSuffix t.port.trAddr hostid).toOptions := by
    have haddr : (s.request (t.seenAs number)).traddr = t.port.trAddr := rfl
    rw [handedOptions, haddr, adjustTraddr_literal nameable.literal, hhostid]
    rfl
  exact ⟨_, first_handed_subset s around calls _ (Option.mem_toList.mpr hhanded)⟩

end Told

/-- What a client has made of the targets: the discovery services that its cache has for the pair of
the connection, and what its host was told of the others. -/
structure Followed (s : ConnectSettings) (conn : Connection) (targets : List (Target × UInt16))
    (cache : Cache) (handed : List (NvmeDiscPageEntry × GoString)) : Prop where
  endpoints : ∀ k, k ∈ cache.keysOf conn.pair ↔
    (∃ x ∈ targets, x.1.subType = nvmeNqnDisc ∧ k = x.1.endpoint x.2 conn) ∨
      k = ⟨ascii "tcp", conn.key.ip, nvmeTCPDiscPort.toNat, conn.key.nqn, conn.hostnqn⟩
  tried : ∀ x ∈ targets, x.1.subType = nvmeNqnNvme → ∃ options, (x.1.seenAs x.2, options) ∈ handed
  told : ∀ entry options, (entry, options) ∈ handed →
    ∃ x ∈ targets, x.1.subType = nvmeNqnNvme ∧ entry = x.1.seenAs x.2 ∧
      ToldOf s.auxSuffix x.1 options

section Followed

variable {s : ConnectSettings} {around : Nat → Surroundings} {targets : List (Target × UInt16)}
  {conn : Connection}

theorem mem_seenAs_filter {entry : NvmeDiscPageEntry} {subType : UInt8} :
    entry ∈ (targets.map fun x => x.1.seenAs x.2).filter (·.subType = subType) ↔
      ∃ x ∈ targets, x.1.subType = subType ∧ entry = x.1.seenAs x.2 := by
  rw [List.mem_filter, List.mem_map, decide_eq_true_eq]
  constructor
  · rintro ⟨⟨x, hx, rfl⟩, htype⟩
    exact ⟨x, hx, htype, rfl⟩
  · rintro ⟨x, hx, htype, rfl⟩
    exact ⟨⟨x, hx, rfl⟩, htype⟩

theorem mem_keysOf_handleReferrals {c : Cache} (reach : Reachable c)
    (hpair : conn.pair.isEmpty = false) (addOrder removeOrder : RangeOrder Referral) {k : TKey} :
    k ∈ (handleReferrals addOrder removeOrder c (referralMap conn
        (conn.referrals (targets.map fun x => x.1.seenAs x.2)))).cache.keysOf conn.pair ↔
      (∃ x ∈ targets, x.1.subType = nvmeNqnDisc ∧ k = x.1.endpoint x.2 conn) ∨
        k = ⟨ascii "tcp", conn.key.ip, nvmeTCPDiscPort.toNat, conn.key.nqn, conn.hostnqn⟩ := by
  obtain ⟨added, middle, removed, passes⟩ := @handleReferrals_passes addOrder removeOrder c _ _
    reach.inv (referralMap_onePair hpair)
  rw [passes.keysOf reach.inv (referralMap_onePair hpair)]
  refine mem_referralMap_tkey.trans ⟨?_, ?_⟩
  · rintro ⟨d, hd, rfl⟩
    rcases List.mem_append.mp hd with hd | hd
    · obtain ⟨x, hx, htype, rfl⟩ := mem_seenAs_filter.mp hd
      exact .inl ⟨x, hx, htype, rfl⟩
    · rw [List.mem_singleton.mp hd]
      exact .inr rfl
  · rintro (⟨x, hx, htype, rfl⟩ | rfl)
    · exact ⟨_, List.mem_append_left _ (mem_seenAs_filter.mpr ⟨x, hx, htype, rfl⟩), rfl⟩
    · exact ⟨_, List.mem_append_right _ (List.mem_singleton_self _), rfl⟩

end Followed

namespace Session

variable {s : Session} {link : Link} {hostnqn hostID : GoString} {settings : ConnectSettings}
  {around : Nat → Surroundings} {conn : Connection} {c : Cache}

/-- The discovery service beside the sample targets. -/
def sampleService : Target where
  port := { trAddr := ascii "10.0.0.3", trsvcID := ascii "8009", trType := 3, adrFam := 1, treq := 0
            id := 3, tsas := .replicate 256 0 }
  subsysNqn := ascii "nqn.2014-08.org.nvmexpress.discovery"
  subType := 1

def sampleServices : List (Target × UInt16) :=
  [(sampleTarget 1, 4420), (sampleService, 8009), (sampleTarget 2, 4420)]

theorem sampleServices_listen : ∀ x ∈ sampleServices, x.1.ListensOn x.2 := by
  have hport : ascii "8009" = decimal (8009 : UInt16).toNat := by decide
  have haddr : (ascii "10.0.0.3").length ≤ 256 ∧ (ascii "10.0.0.3").getLast? ≠ some 0 := by decide
  have hnqn : sampleService.subsysNqn.length ≤ 256 ∧ sampleService.subsysNqn.getLast? ≠ some 0 := by
    decide
  intro x hx
  simp only [sampleServices, List.mem_cons, List.not_mem_nil, or_false] at hx
  rcases hx with rfl | rfl | rfl
  · exact sampleTarget_listens 1
  · exact ⟨hport, haddr.1, haddr.2, hnqn.1, hnqn.2⟩
  · exact sampleTarget_listens 2

theorem sampleServices_nameable :
    ∀ x ∈ sampleServices, x.1.subType = nvmeNqnNvme → x.1.Nameable x.2 := by
  have hliteral : (GoIP.parseIP (ascii "10.0.0.1")).isSome = true := by decide +kernel
  have hcomma : 0x2C ∉ ascii "nqn.s" := by decide
  have htarget (id : UInt16) : (sampleTarget id).Nameable 4420 := ⟨hliteral, by decide, hcomma⟩
  intro x hx htype
  simp only [sampleServices, List.mem_cons, List.not_mem_nil, or_false] at hx
  rcases hx with rfl | rfl | rfl
  · exact htarget 1
  · cases htype
  · exact htarget 2

def servicesLog : DiscoveryLog := ⟨sampleServices.map (·.1.pageEntry), 3, by decide⟩

end Session

end DiscoveryClient
