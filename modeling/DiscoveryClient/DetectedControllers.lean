import DiscoveryClient.AutoDetect
import DiscoveryClient.Struc

/-! Which controllers are detected, and which are missed. -/

namespace DiscoveryClient

open GoString

theorem parseUint_decimal {port : Nat} (h : port < 2 ^ 16) :
    parseUint 16 (decimal port) = some port := by
  rw [parseUint, parseDigits_decimal, Option.bind_some, if_pos h]

section Detected

variable {lookupIP : GoString → Except GoString GoIP.IP} {port : Nat} {c : IOController}

/-- What `CreateEntries` makes of one endpoint, when all names are set. -/
theorem createEntries_endpoint (hport : port < 2 ^ 16) {adjust : GoString → Bool}
    {traddr hostnqn nqn hostid : GoString} (hhostnqn : hostnqn ≠ []) (hnqn : nqn ≠ [])
    (hhostid : hostid ≠ []) {entries : List Commonstructs.Entry} :
    createEntries adjust [endpoint traddr port] hostnqn nqn (ascii "tcp") hostid = .ok entries ↔
      ∃ host, splitHostPort (endpoint traddr port) = .ok (host, decimal port) ∧
        adjust host = true ∧ entries = [⟨ascii "tcp", host, port, hostnqn, nqn, hostid⟩] := by
  have htcp : ascii "tcp" ≠ [] := by decide
  rw [createEntries, if_neg hhostnqn, if_neg htcp, if_neg hnqn, if_neg hhostid]
  simp only [createEntriesLoop]
  cases hsplit : splitHostPort (endpoint traddr port) with
  | error err => simp
  | ok hostport =>
    obtain ⟨host, port'⟩ := hostport
    have hport' := splitHostPort_endpoint_port hsplit
    subst hport'
    cases hadjust : adjust host with
    | false => simp [hadjust]
    | true =>
      simp only [hadjust, parseUint_decimal hport, if_true]
      constructor
      · intro h
        cases Except.ok.inj h
        exact ⟨host, rfl, hadjust, rfl⟩
      · rintro ⟨host', heq, -, rfl⟩
        cases Except.ok.inj heq
        rfl

theorem createEntries_set {adjust : GoString → Bool} {addresses : List GoString}
    {hostnqn nqn transport hostid : GoString} {entries : List Commonstructs.Entry}
    (h : createEntries adjust addresses hostnqn nqn transport hostid = .ok entries) :
    hostnqn ≠ [] ∧ nqn ≠ [] ∧ hostid ≠ [] := by
  unfold createEntries at h
  split at h
  next => cases h
  next hhostnqn =>
    split at h
    next => cases h
    next =>
      split at h
      next => cases h
      next hnqn =>
        split at h
        next => cases h
        next hhostid => exact ⟨hhostnqn, hnqn, hhostid⟩

theorem toOption_eq_some_iff {ε α : Type} {x : Except ε α} {a : α} :
    x.toOption = some a ↔ x = .ok a := by
  cases x with
  | error err => simp [Except.toOption]
  | ok b => simp [Except.toOption]

theorem attributes_eq_some_iff {a : Attributes} :
    c.attributes = some a ↔
      (valueFromFile c.subsysnqn = some a.nqn ∧ ascii "com.lightbitslabs" <:+: a.nqn) ∧
      valueFromFile c.transport = some (ascii "tcp") ∧
      (valueFromFile c.hostnqn = some a.hostnqn ∧ a.hostnqn ≠ []) ∧
      (valueFromFile c.hostid = some a.hostid ∧ a.hostid ≠ []) ∧
      valueFromFile c.address = some a.address := by
  constructor
  · intro h
    obtain ⟨nqn, hnqn, h⟩ := Option.bind_eq_some_iff.mp h
    obtain ⟨transport, htransport, h⟩ := Option.bind_eq_some_iff.mp h
    obtain ⟨hostnqn, hhostnqn, h⟩ := Option.bind_eq_some_iff.mp h
    obtain ⟨hostid, hhostid, h⟩ := Option.bind_eq_some_iff.mp h
    obtain ⟨address, haddress, h⟩ := Option.bind_eq_some_iff.mp h
    split at h
    next hchecks =>
      obtain ⟨hvendor, htcp, hset, hset'⟩ := hchecks
      cases Option.some.inj h
      exact ⟨⟨hnqn, hvendor⟩, htcp ▸ htransport, ⟨hhostnqn, hset⟩, ⟨hhostid, hset'⟩, haddress⟩
    next => cases h
  · rintro ⟨⟨hnqn, hvendor⟩, htransport, ⟨hhostnqn, hset⟩, ⟨hhostid, hset'⟩, haddress⟩
    rw [IOController.attributes, hnqn, htransport, hhostnqn, hhostid, haddress]
    exact if_pos ⟨hvendor, rfl, hset, hset'⟩

/-- A directory gives one entry if it has the attributes, its address is plain, and the host that is
split off it again is a literal or a name that resolves. -/
theorem detectEntries_eq_some_iff (hport : port < 2 ^ 16) {entries : List Commonstructs.Entry} :
    detectEntries lookupIP port c = some entries ↔
      ∃ a traddr trsvcid host, c.attributes = some a ∧
        parseAddress a.address = some (traddr, trsvcid) ∧
        splitHostPort (endpoint traddr port) = .ok (host, decimal port) ∧
        (adjustTraddr lookupIP host).isOk = true ∧ entries = [a.entry host port] := by
  constructor
  · intro h
    obtain ⟨nqn, hnqn, h⟩ := Option.bind_eq_some_iff.mp h
    split at h
    next => cases h
    next hvendor =>
      obtain ⟨transport, htransport, h⟩ := Option.bind_eq_some_iff.mp h
      split at h
      next => cases h
      next htcp =>
        cases not_not.mp htcp
        obtain ⟨hostnqn, hhostnqn, h⟩ := Option.bind_eq_some_iff.mp h
        obtain ⟨hostid, hhostid, h⟩ := Option.bind_eq_some_iff.mp h
        obtain ⟨address, haddress, h⟩ := Option.bind_eq_some_iff.mp h
        obtain ⟨⟨traddr, trsvcid⟩, hparse, h⟩ := Option.bind_eq_some_iff.mp h
        have hok := toOption_eq_some_iff.mp h
        obtain ⟨hset, hset', hid⟩ := createEntries_set hok
        obtain ⟨host, hsplit, hadjust, rfl⟩ := (createEntries_endpoint hport hset hset' hid).mp hok
        exact ⟨⟨nqn, hostnqn, hostid, address⟩, traddr, trsvcid, host,
          attributes_eq_some_iff.mpr ⟨⟨hnqn, not_not.mp hvendor⟩, htransport, ⟨hhostnqn, hset⟩,
            ⟨hhostid, hid⟩, haddress⟩, hparse, hsplit, hadjust, rfl⟩
  · rintro ⟨a, traddr, trsvcid, host, ha, hparse, hsplit, hadjust, rfl⟩
    obtain ⟨⟨hnqn, hvendor⟩, htransport, ⟨hhostnqn, hset⟩, ⟨hhostid, hid⟩, haddress⟩ :=
      attributes_eq_some_iff.mp ha
    have hne : a.nqn ≠ [] := by
      intro hnil
      rw [hnil] at hvendor
      exact absurd (List.infix_nil.mp hvendor) (by decide)
    have hok : createEntries (fun host => (adjustTraddr lookupIP host).isOk)
        [endpoint traddr port] a.hostnqn a.nqn (ascii "tcp") a.hostid = .ok [a.entry host port] :=
      (createEntries_endpoint hport hset hne hid).mpr ⟨host, hsplit, hadjust, rfl⟩
    rw [detectEntries, hnqn, htransport, hhostnqn, hhostid, haddress]
    simp only [Struc.some_bind, if_neg (not_not.mpr hvendor), if_neg (not_not.mpr rfl), hparse]
    exact congrArg Except.toOption hok

/-- The directory is one to be detected, at this address. -/
def IOController.Qualifies (c : IOController) (a : Attributes) (traddr : GoString) : Prop :=
  c.attributes = some a ∧ ListsAddress a.address traddr

/-- A directory that is to be detected gives its one entry, and any other gives none. -/
def DetectedRight (lookupIP : GoString → Except GoString GoIP.IP) (port : Nat) (c : IOController) :
    Prop :=
  (∀ a traddr, c.Qualifies a traddr → entriesFor lookupIP port c = [a.entry traddr port]) ∧
  ((∀ a traddr, ¬ c.Qualifies a traddr) → entriesFor lookupIP port c = [])

/-- What the detection takes for granted. A directory that is to be detected has a number of one
digit, and its address lists a dotted address and a port and nothing else. In any other directory,
what stands for the address, put in front of the port and split off again, is no literal and no name
that resolves. -/
structure DetectionFits (lookupIP : GoString → Except GoString GoIP.IP) (port : Nat)
    (c : IOController) : Prop where
  detected : ∀ a traddr, c.Qualifies a traddr → c.number < 10 ∧ 0x3A ∉ traddr ∧
    ∃ trsvcid, splitOptions a.address = [(ascii "traddr", traddr), (ascii "trsvcid", trsvcid)]
  other : c.number < 10 → ∀ a traddr trsvcid host port', c.attributes = some a →
    parseAddress a.address = some (traddr, trsvcid) → GoIP.parseIP traddr = none →
    splitHostPort (endpoint traddr port) = .ok (host, port') →
    (adjustTraddr lookupIP host).isOk = false

/-- The directory passes all checks of the loop. -/
structure Found (lookupIP : GoString → Except GoString GoIP.IP) (port : Nat) (c : IOController)
    (a : Attributes) (traddr trsvcid host : GoString) : Prop where
  number : c.number < 10
  attributes : c.attributes = some a
  address : parseAddress a.address = some (traddr, trsvcid)
  split : splitHostPort (endpoint traddr port) = .ok (host, decimal port)
  adjusted : (adjustTraddr lookupIP host).isOk = true

theorem entriesFor_of_found (hport : port < 2 ^ 16) {a : Attributes}
    {traddr trsvcid host : GoString} (h : Found lookupIP port c a traddr trsvcid host) :
    entriesFor lookupIP port c = [a.entry host port] := by
  have hdetect := (detectEntries_eq_some_iff hport).mpr
    ⟨a, traddr, trsvcid, host, h.attributes, h.address, h.split, h.adjusted, rfl⟩
  rw [entriesFor, if_pos ((matchName_nvmeCtrlPath c).mpr h.number), hdetect, Option.getD_some]

theorem found_of_entriesFor (hport : port < 2 ^ 16) (h : entriesFor lookupIP port c ≠ []) :
    ∃ a traddr trsvcid host, Found lookupIP port c a traddr trsvcid host := by
  unfold entriesFor at h
  split at h
  next hname =>
    cases hdetect : detectEntries lookupIP port c with
    | none =>
      rw [hdetect] at h
      exact absurd rfl h
    | some entries =>
      obtain ⟨a, traddr, trsvcid, host, ha, hparse, hsplit, hadjust, -⟩ :=
        (detectEntries_eq_some_iff hport).mp hdetect
      exact ⟨a, traddr, trsvcid, host, (matchName_nvmeCtrlPath c).mp hname, ha, hparse, hsplit,
        hadjust⟩
  next => exact absurd rfl h

theorem splitOptions_of_parseAddress {address traddr trsvcid : GoString}
    (h : parseAddress address = some (traddr, trsvcid)) :
    splitOptions address = [(ascii "traddr", traddr), (ascii "trsvcid", trsvcid)] := by
  obtain ⟨haddress, hcomma, hne, hnum⟩ := parseAddress_eq_some_iff.mp h
  exact (splitOptions_plainAddress hne hnum).mpr ⟨haddress, hcomma⟩

theorem mem_plain_pairs {traddr trsvcid value : GoString} :
    ((ascii "traddr", value) ∈ [(ascii "traddr", traddr), (ascii "trsvcid", trsvcid)] ↔
      value = traddr) ∧
    ((ascii "trsvcid", value) ∈ [(ascii "traddr", traddr), (ascii "trsvcid", trsvcid)] ↔
      value = trsvcid) := by
  have hne : ascii "traddr" ≠ ascii "trsvcid" := by decide
  simp [hne, hne.symm]

/-- The address that a plain attribute lists is the one that is parsed. -/
theorem ListsAddress.eq_of_parseAddress {address traddr traddr' trsvcid : GoString}
    (h : ListsAddress address traddr) (hparse : parseAddress address = some (traddr', trsvcid)) :
    traddr = traddr' := by
  have hlisted := h.listed
  rw [splitOptions_of_parseAddress hparse] at hlisted
  exact mem_plain_pairs.1.mp hlisted

theorem listsAddress_of_parseAddress {address traddr trsvcid : GoString}
    (hparse : parseAddress address = some (traddr, trsvcid))
    (hliteral : (GoIP.parseIP traddr).isSome) : ListsAddress address traddr := by
  obtain ⟨-, -, hne, hnum⟩ := parseAddress_eq_some_iff.mp hparse
  have hsplit := splitOptions_of_parseAddress hparse
  have hnames : ascii "traddr" ≠ [] ∧ ascii "trsvcid" ≠ [] := by decide
  constructor
  · rw [hsplit]
    simp [hnames, hne, hnum.1]
  · rw [hsplit]
    exact mem_plain_pairs.1.mpr rfl
  · rw [hsplit]
    exact fun value hvalue => mem_plain_pairs.1.mp hvalue
  · exact hliteral
  · rw [hsplit]
    exact ⟨trsvcid, mem_plain_pairs.2.mpr rfl, hnum⟩

theorem parseAddress_of_listsAddress {address traddr trsvcid : GoString}
    (h : ListsAddress address traddr)
    (hsplit : splitOptions address = [(ascii "traddr", traddr), (ascii "trsvcid", trsvcid)]) :
    parseAddress address = some (traddr, trsvcid) := by
  obtain ⟨trsvcid', hmem, hnum⟩ := h.port
  have hne := (h.pairs _ h.listed).2
  rw [hsplit] at hmem
  cases mem_plain_pairs.2.mp hmem
  obtain ⟨haddress, hcomma⟩ := (splitOptions_plainAddress hne hnum).mp hsplit
  exact parseAddress_eq_some_iff.mpr ⟨haddress, hcomma, hne, hnum⟩

theorem ListsAddress.addressBytes {address traddr : GoString} (h : ListsAddress address traddr) :
    ∀ b ∈ traddr, GoIP.AddressByte b := by
  obtain ⟨ip, hip⟩ := Option.isSome_iff_exists.mp h.literal
  exact GoIP.addressByte_of_parseIP hip

theorem detectedRight_iff (hport : port < 2 ^ 16) :
    DetectedRight lookupIP port c ↔ DetectionFits lookupIP port c := by
  constructor
  · rintro ⟨hone, hnone⟩
    constructor
    · intro a traddr hq
      have hentries := hone a traddr hq
      obtain ⟨a', traddr', trsvcid, host, hfound⟩ :=
        found_of_entriesFor hport (by rw [hentries]; exact List.cons_ne_nil _ _)
      have ha : a = a' := Option.some.inj (hq.1.symm.trans hfound.attributes)
      subst ha
      have htraddr := hq.2.eq_of_parseAddress hfound.address
      subst htraddr
      refine ⟨hfound.number, ?_, trsvcid, splitOptions_of_parseAddress hfound.address⟩
      intro hcolon
      have hsplit := hfound.split
      rw [splitHostPort_endpoint hq.2.addressBytes, if_pos hcolon] at hsplit
      cases hsplit
    · intro hnumber a traddr trsvcid host port' ha hparse hliteral hsplit
      have hport' := splitHostPort_endpoint_port hsplit
      subst hport'
      rw [← Bool.not_eq_true]
      intro hadjust
      have hentries := entriesFor_of_found hport ⟨hnumber, ha, hparse, hsplit, hadjust⟩
      have hnot : ∀ a' traddr', ¬ c.Qualifies a' traddr' := by
        rintro a' traddr' ⟨ha', hlists⟩
        cases Option.some.inj (ha.symm.trans ha')
        have hsome := hlists.literal
        rw [hlists.eq_of_parseAddress hparse, hliteral] at hsome
        cases hsome
      rw [hnone hnot] at hentries
      cases hentries
  · rintro ⟨hdetected, hother⟩
    constructor
    · intro a traddr hq
      obtain ⟨hnumber, hcolon, trsvcid, hsplit⟩ := hdetected a traddr hq
      refine entriesFor_of_found hport ⟨hnumber, hq.1, parseAddress_of_listsAddress hq.2 hsplit, ?_, ?_⟩
      · rw [splitHostPort_endpoint hq.2.addressBytes, if_neg hcolon]
      · rw [adjustTraddr_eq, if_pos hq.2.literal]
        rfl
    · intro hnot
      by_contra hentries
      obtain ⟨a, traddr, trsvcid, host, hfound⟩ := found_of_entriesFor hport hentries
      cases hliteral : GoIP.parseIP traddr with
      | some ip =>
        exact hnot a traddr ⟨hfound.attributes,
          listsAddress_of_parseAddress hfound.address (by rw [hliteral]; rfl)⟩
      | none =>
        have hfalse := hother hfound.number a traddr trsvcid host _ hfound.attributes hfound.address
          hliteral hfound.split
        rw [hfound.adjusted] at hfalse
        cases hfalse

/-- A controller as the detection expects it. -/
theorem detectionFits_of_plain {a : Attributes} {traddr trsvcid : GoString} (hnumber : c.number < 10)
    (ha : c.attributes = some a) (hparse : parseAddress a.address = some (traddr, trsvcid))
    (hliteral : (GoIP.parseIP traddr).isSome) (hcolon : 0x3A ∉ traddr) :
    DetectionFits lookupIP port c := by
  constructor
  · rintro a' traddr' ⟨ha', hlists⟩
    cases Option.some.inj (ha.symm.trans ha')
    cases hlists.eq_of_parseAddress hparse
    exact ⟨hnumber, hcolon, trsvcid, splitOptions_of_parseAddress hparse⟩
  · intro _ a' traddr' trsvcid' host port' ha' hparse' hnone _
    cases Option.some.inj (ha.symm.trans ha')
    cases Option.some.inj (hparse.symm.trans hparse')
    rw [hnone] at hliteral
    cases hliteral

end Detected

/-- What is returned is made up of what comes from each directory, and that is right for all of them
exactly when all of them are as the detection takes for granted. -/
theorem detectEntriesByIOControllers_iff (lookupIP : GoString → Except GoString GoIP.IP) {port : Nat}
    (hport : port < 2 ^ 16) (controllers : List IOController) :
    (detectEntriesByIOControllers lookupIP nvmeCtrlPath port controllers).Perm
      (controllers.flatMap (entriesFor lookupIP port)) ∧
    ((∀ c ∈ controllers, DetectedRight lookupIP port c) ↔
      ∀ c ∈ controllers, DetectionFits lookupIP port c) :=
  ⟨detectEntriesByIOControllers_perm lookupIP port controllers,
    forall₂_congr fun _ _ => detectedRight_iff hport⟩

/-- A controller of the vendor's, with the given number and address. -/
def sampleController (number : Nat) (address : GoString) : IOController where
  number := number
  subsysnqn := some (ascii "com.lightbitslabs")
  transport := some (ascii "tcp")
  hostnqn := some (ascii "h")
  hostid := some (ascii "i")
  address := some (address ++ ascii "\n")

def sampleAttributes (address : GoString) : Attributes :=
  ⟨ascii "com.lightbitslabs", ascii "h", ascii "i", address⟩

theorem sampleController_attributes (number : Nat) {address : GoString}
    (h : trimSpace (address ++ ascii "\n") = address) :
    (sampleController number address).attributes = some (sampleAttributes address) := by
  have htrim : trimSpace (ascii "com.lightbitslabs") = ascii "com.lightbitslabs" ∧
      trimSpace (ascii "tcp") = ascii "tcp" ∧ trimSpace (ascii "h") = ascii "h" ∧
      trimSpace (ascii "i") = ascii "i" := by
    decide +kernel
  have hset : ascii "h" ≠ [] ∧ ascii "i" ≠ [] := by decide
  refine attributes_eq_some_iff.mpr
    ⟨⟨?_, List.infix_refl _⟩, ?_, ⟨?_, hset.1⟩, ⟨?_, hset.2⟩, ?_⟩
  · exact congrArg some htrim.1
  · exact congrArg some htrim.2.1
  · exact congrArg some htrim.2.2.1
  · exact congrArg some htrim.2.2.2
  · exact congrArg some h

/-- No name is resolved. -/
def noLookup (_ : GoString) : Except GoString GoIP.IP := .error (ascii "no such host")

theorem detectEntriesByIOControllers_iff_plain :
    (sampleController 3 (ascii "traddr=10.0.0.1,trsvcid=4420")).Qualifies
      (sampleAttributes (ascii "traddr=10.0.0.1,trsvcid=4420")) (ascii "10.0.0.1") ∧
    DetectedRight noLookup 8009 (sampleController 3 (ascii "traddr=10.0.0.1,trsvcid=4420")) := by
  have hattributes := sampleController_attributes 3
    (show trimSpace (ascii "traddr=10.0.0.1,trsvcid=4420" ++ ascii "\n") =
      ascii "traddr=10.0.0.1,trsvcid=4420" by decide +kernel)
  have hparse : parseAddress (ascii "traddr=10.0.0.1,trsvcid=4420") =
      some (ascii "10.0.0.1", ascii "4420") := by
    decide +kernel
  have hliteral : (GoIP.parseIP (ascii "10.0.0.1")).isSome := by decide +kernel
  have hfits : ∀ c ∈ [sampleController 3 (ascii "traddr=10.0.0.1,trsvcid=4420")],
      DetectionFits noLookup 8009 c := by
    intro c hc
    rw [List.mem_singleton.mp hc]
    exact detectionFits_of_plain (by decide) hattributes hparse hliteral (by decide)
  exact ⟨⟨hattributes, listsAddress_of_parseAddress hparse hliteral⟩,
    (detectEntriesByIOControllers_iff noLookup (by decide) _).2.mpr hfits _
      (List.mem_singleton_self _)⟩

/-- A controller that is not among the first ten, one at an address with colons, and one whose
address lists its source too. -/
def missedControllers : List IOController :=
  [sampleController 10 (ascii "traddr=10.0.0.1,trsvcid=4420"),
    sampleController 1 (ascii "traddr=fe80::1,trsvcid=4420"),
    sampleController 2 (ascii "traddr=10.0.0.1,trsvcid=4420,src_addr=10.0.0.9")]

/-- All of them are to be detected, and nothing is returned. -/
theorem controllers_missed :
    detectEntriesByIOControllers noLookup nvmeCtrlPath 8009 missedControllers = [] ∧
    (sampleController 10 (ascii "traddr=10.0.0.1,trsvcid=4420")).Qualifies
      (sampleAttributes (ascii "traddr=10.0.0.1,trsvcid=4420")) (ascii "10.0.0.1") ∧
    (sampleController 1 (ascii "traddr=fe80::1,trsvcid=4420")).Qualifies
      (sampleAttributes (ascii "traddr=fe80::1,trsvcid=4420")) (ascii "fe80::1") ∧
    (sampleController 2 (ascii "traddr=10.0.0.1,trsvcid=4420,src_addr=10.0.0.9")).Qualifies
      (sampleAttributes (ascii "traddr=10.0.0.1,trsvcid=4420,src_addr=10.0.0.9"))
      (ascii "10.0.0.1") := by
  refine ⟨?_, ⟨?_, ?_⟩, ⟨?_, ?_⟩, ⟨?_, ?_⟩⟩
  · have hperm := detectEntriesByIOControllers_perm noLookup 8009 missedControllers
    have hnone : missedControllers.flatMap (entriesFor noLookup 8009) = [] := by decide +kernel
    exact (hnone ▸ hperm).eq_nil
  · exact sampleController_attributes 10 (by decide +kernel)
  · exact @listsAddress_of_parseAddress _ _ (ascii "4420") (by decide +kernel) (by decide +kernel)
  · exact sampleController_attributes 1 (by decide +kernel)
  · exact @listsAddress_of_parseAddress _ _ (ascii "4420") (by decide +kernel) (by decide +kernel)
  · exact sampleController_attributes 2 (by decide +kernel)
  · have hsplit : splitOptions (ascii "traddr=10.0.0.1,trsvcid=4420,src_addr=10.0.0.9") =
        [(ascii "traddr", ascii "10.0.0.1"), (ascii "trsvcid", ascii "4420"),
          (ascii "src_addr", ascii "10.0.0.9")] := by
      decide +kernel
    constructor
    · rw [sampleAttributes, hsplit]
      decide +kernel
    · rw [sampleAttributes, hsplit]
      exact List.mem_cons_self
    · have hne : ascii "traddr" ≠ ascii "trsvcid" ∧ ascii "traddr" ≠ ascii "src_addr" := by decide
      intro value hvalue
      rw [sampleAttributes, hsplit] at hvalue
      simpa [hne] using hvalue
    · decide +kernel
    · rw [sampleAttributes, hsplit]
      exact ⟨ascii "4420", List.mem_cons_of_mem _ List.mem_cons_self, by decide⟩

end DiscoveryClient
