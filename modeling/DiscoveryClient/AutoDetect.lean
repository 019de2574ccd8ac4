import DiscoveryClient.ConfGen
import DiscoveryClient.ConnectOptions

/-! `DetectEntriesByIOControllers` makes entries for the controllers that the kernel is already
connected to, from what it finds in their directories under `/sys/class/nvme`. -/

namespace DiscoveryClient

open GoString

/-- A directory `nvme<number>`, with what its files hold where they can be read. -/
structure IOController where
  number : Nat
  subsysnqn : Option GoString
  transport : Option GoString
  hostnqn : Option GoString
  hostid : Option GoString
  address : Option GoString
deriving DecidableEq, Repr

def IOController.name (c : IOController) : GoString := ascii "nvme" ++ decimal c.number

/-- What a pattern has for one byte of a name. -/
inductive PatternByte
  | byte (b : UInt8)
  | range (lo hi : UInt8)
deriving DecidableEq, Repr

def PatternByte.accepts : PatternByte → UInt8 → Bool
  | .byte b, c => b == c
  | .range lo hi, c => lo ≤ c && c ≤ hi

/-- `filepath.Match`, for patterns of bytes and ranges. -/
def matchName : List PatternByte → GoString → Bool
  | [], [] => true
  | p :: pattern, b :: name => p.accepts b && matchName pattern name
  | _, _ => false

/-- The last part of `NvmeCtrlPath`, which is `nvme[0-9]`. -/
def nvmeCtrlPath : List PatternByte := (ascii "nvme").map .byte ++ [.range 0x30 0x39]

/-- `filepath.Glob`: the directories whose names match, in the order of their names. -/
def glob (pattern : List PatternByte) (controllers : List IOController) : List IOController :=
  (controllers.filter fun c => matchName pattern c.name).mergeSort fun c d => c.name ≤ d.name

def valueFromFile (content : Option GoString) : Option GoString := content.map trimSpace

/-- A number as `\d+` accepts it. -/
def Numeric (s : GoString) : Prop := s ≠ [] ∧ s.all GoIP.isDigit = true

instance (s : GoString) : Decidable (Numeric s) := inferInstanceAs (Decidable (_ ∧ _))

/-- The match of `^traddr=([^,]+),trsvcid=(\d+)$`: the first value ends at the first comma. -/
def parseAddress (address : GoString) : Option (GoString × GoString) :=
  let rest := address.drop (ascii "traddr=").length
  let traddr := rest.takeWhile (· != 0x2C)
  let trsvcid := rest.drop (traddr.length + (ascii ",trsvcid=").length)
  if address = ascii "traddr=" ++ traddr ++ ascii ",trsvcid=" ++ trsvcid ∧ traddr ≠ [] ∧
      Numeric trsvcid then
    some (traddr, trsvcid)
  else none

/-- The text that the port is put behind the address with. -/
def endpoint (traddr : GoString) (discoveryServicePort : Nat) : GoString :=
  traddr ++ ascii ":" ++ decimal discoveryServicePort

/-- The body of the loop; `none` where it continues with the next directory. -/
def detectEntries (lookupIP : GoString → Except GoString GoIP.IP) (discoveryServicePort : Nat)
    (c : IOController) : Option (List Commonstructs.Entry) := do
  let subsysNqn ← valueFromFile c.subsysnqn
  if ¬ascii "com.lightbitslabs" <:+: subsysNqn then none
  else
    let transport ← valueFromFile c.transport
    if transport ≠ ascii "tcp" then none
    else
      let hostNqn ← valueFromFile c.hostnqn
      let hostID ← valueFromFile c.hostid
      let address ← valueFromFile c.address
      let (traddr, _) ← parseAddress address
      (createEntries (fun host => (adjustTraddr lookupIP host).isOk)
        [endpoint traddr discoveryServicePort] hostNqn subsysNqn transport hostID).toOption

/-- The pattern is well formed, so no error is returned. -/
def detectEntriesByIOControllers (lookupIP : GoString → Except GoString GoIP.IP)
    (pattern : List PatternByte) (discoveryServicePort : Nat) (controllers : List IOController) :
    List Commonstructs.Entry :=
  (glob pattern controllers).flatMap fun c =>
    (detectEntries lookupIP discoveryServicePort c).getD []

/-- The values of a directory that is to be detected, apart from its address. -/
structure Attributes where
  nqn : GoString
  hostnqn : GoString
  hostid : GoString
  address : GoString
deriving DecidableEq, Repr

/-- The subsystem is one of the vendor's, the transport is TCP, and the host's names are set. -/
def IOController.attributes (c : IOController) : Option Attributes := do
  let nqn ← valueFromFile c.subsysnqn
  let transport ← valueFromFile c.transport
  let hostnqn ← valueFromFile c.hostnqn
  let hostid ← valueFromFile c.hostid
  let address ← valueFromFile c.address
  if ascii "com.lightbitslabs" <:+: nqn ∧ transport = ascii "tcp" ∧ hostnqn ≠ [] ∧ hostid ≠ [] then
    some ⟨nqn, hostnqn, hostid, address⟩
  else none

/-- A list of pairs, as `getNvmeControllerInfo` reads them, with one literal address and a port. -/
structure ListsAddress (address traddr : GoString) : Prop where
  pairs : ∀ pair ∈ splitOptions address, pair.1 ≠ [] ∧ pair.2 ≠ []
  listed : (ascii "traddr", traddr) ∈ splitOptions address
  unique : ∀ value, (ascii "traddr", value) ∈ splitOptions address → value = traddr
  literal : (GoIP.parseIP traddr).isSome
  port : ∃ trsvcid, (ascii "trsvcid", trsvcid) ∈ splitOptions address ∧ Numeric trsvcid

/-- The entry for a directory with these attributes. -/
def Attributes.entry (a : Attributes) (traddr : GoString) (discoveryServicePort : Nat) :
    Commonstructs.Entry :=
  ⟨ascii "tcp", traddr, discoveryServicePort, a.hostnqn, a.nqn, a.hostid⟩

/-- The entries that come from one directory. -/
def entriesFor (lookupIP : GoString → Except GoString GoIP.IP) (discoveryServicePort : Nat)
    (c : IOController) : List Commonstructs.Entry :=
  if matchName nvmeCtrlPath c.name then (detectEntries lookupIP discoveryServicePort c).getD []
  else []

/-- What is returned is what comes from each of the directories. -/
theorem detectEntriesByIOControllers_perm (lookupIP : GoString → Except GoString GoIP.IP)
    (discoveryServicePort : Nat) (controllers : List IOController) :
    (detectEntriesByIOControllers lookupIP nvmeCtrlPath discoveryServicePort controllers).Perm
      (controllers.flatMap (entriesFor lookupIP discoveryServicePort)) := by
  have hsort := (List.mergeSort_perm (controllers.filter fun c => matchName nvmeCtrlPath c.name)
    fun c d => c.name ≤ d.name).flatMap_right
    (fun c => (detectEntries lookupIP discoveryServicePort c).getD [])
  refine hsort.trans (List.Perm.of_eq ?_)
  clear hsort
  induction controllers with
  | nil => rfl
  | cons c controllers ih =>
    rw [List.flatMap_cons, ← ih, List.filter_cons, entriesFor]
    split
    next => rw [List.flatMap_cons]
    next => rw [List.nil_append]

theorem matchName_append (s name : GoString) (pattern : List PatternByte) :
    matchName (s.map .byte ++ pattern) (s ++ name) = matchName pattern name := by
  induction s with
  | nil => rfl
  | cons b s ih =>
    rw [List.map_cons, List.cons_append, List.cons_append, matchName, PatternByte.accepts,
      beq_self_eq_true, Bool.true_and, ih]

/-- Only the first ten controllers have names that match. -/
theorem matchName_nvmeCtrlPath (c : IOController) :
    matchName nvmeCtrlPath c.name = true ↔ c.number < 10 := by
  rw [nvmeCtrlPath, IOController.name, matchName_append]
  by_cases hlt : c.number < 10
  · have hdigit := digit_toNat hlt
    simp only [decimal_of_lt hlt, matchName, PatternByte.accepts, Bool.and_true, Bool.and_eq_true,
      decide_eq_true_eq, UInt8.le_iff_toNat_le, UInt8.reduceToNat, hdigit, hlt, iff_true]
    omega
  · have hfalse : matchName [.range 0x30 0x39] (decimal c.number) = false := by
      rw [decimal_of_le (Nat.not_lt.mp hlt)]
      cases hfirst : decimal (c.number / 10) with
      | nil => exact absurd hfirst (decimal_ne_nil _)
      | cons b rest =>
        cases rest with
        | nil => simp [matchName]
        | cons d rest => simp [matchName]
    simp [hfalse, hlt]

theorem endpoint_eq (traddr : GoString) (port : Nat) :
    endpoint traddr port = traddr ++ 0x3A :: decimal port := by
  have hcolon : ascii ":" = [0x3A] := by decide
  rw [endpoint, hcolon, List.append_assoc, List.singleton_append]

theorem isDigit_of_mem_decimal {n : Nat} {b : UInt8} (h : b ∈ decimal n) :
    GoIP.isDigit b = true := by
  have hb := mem_decimal h
  simp only [GoIP.isDigit, Bool.and_eq_true, decide_eq_true_eq, UInt8.le_iff_toNat_le,
    UInt8.reduceToNat]
  omega

theorem not_mem_decimal {n : Nat} {b : UInt8} (h : GoIP.isDigit b = false) : b ∉ decimal n := by
  intro hmem
  rw [isDigit_of_mem_decimal hmem] at h
  cases h

/-- The last colon of an endpoint is the one in front of the port. -/
theorem lastIndexByte_endpoint (traddr : GoString) (port : Nat) :
    lastIndexByte (endpoint traddr port) 0x3A = some traddr.length := by
  have hport : (decimal port).reverse.findIdx? (· == 0x3A) = none := by
    rw [List.findIdx?_eq_none_iff]
    intro b hb
    have hne : b ≠ 0x3A := by
      rintro rfl
      exact not_mem_decimal (by decide) (List.mem_reverse.mp hb)
    simpa using hne
  rw [lastIndexByte, endpoint_eq, List.reverse_append, List.reverse_cons, List.append_assoc,
    List.findIdx?_append, hport, List.singleton_append, List.findIdx?_cons]
  simp

theorem checkBrackets_ok {hostport host : GoString} {i j k : Nat} {x : GoString × GoString}
    (h : checkBrackets hostport host i j k = .ok x) : x = (host, hostport.drop (i + 1)) := by
  unfold checkBrackets at h
  split at h
  next => cases h
  next =>
    split at h
    next => cases h
    next => exact (Except.ok.inj h).symm

theorem drop_endpoint (traddr : GoString) (port : Nat) :
    (endpoint traddr port).drop (traddr.length + 1) = decimal port := by
  rw [endpoint_eq, ← List.drop_drop, List.drop_left, List.drop_one, List.tail_cons]

/-- Whatever stands for the host, the port is found again. -/
theorem splitHostPort_endpoint_port {traddr host port' : GoString} {port : Nat}
    (h : splitHostPort (endpoint traddr port) = .ok (host, port')) : port' = decimal port := by
  rw [← drop_endpoint traddr port]
  simp only [splitHostPort, lastIndexByte_endpoint] at h
  split at h
  next =>
    split at h
    next => cases h
    next =>
      split at h
      next => cases h
      next =>
        split at h
        next => exact congrArg Prod.snd (checkBrackets_ok h)
        next =>
          split at h
          next => cases h
          next => cases h
  next =>
    split at h
    next => cases h
    next => exact congrArg Prod.snd (checkBrackets_ok h)

section Literal

variable {traddr : GoString} (hbytes : ∀ b ∈ traddr, GoIP.AddressByte b)
include hbytes

theorem bracket_not_mem_endpoint {b : UInt8} (hb : b = 0x5B ∨ b = 0x5D) (port : Nat) :
    b ∉ endpoint traddr port := by
  rw [endpoint_eq, List.mem_append, List.mem_cons]
  rintro (hmem | rfl | hmem)
  · have hbyte := hbytes b hmem
    rcases hb with rfl | rfl
    · exact absurd hbyte (by decide)
    · exact absurd hbyte (by decide)
  · exact absurd hb (by decide)
  · rcases hb with rfl | rfl
    · exact not_mem_decimal (by decide) hmem
    · exact not_mem_decimal (by decide) hmem

theorem splitHostPort_endpoint (port : Nat) :
    splitHostPort (endpoint traddr port) =
      if 0x3A ∈ traddr then .error ⟨"too many colons in address", endpoint traddr port⟩
      else .ok (traddr, decimal port) := by
  have hopen := bracket_not_mem_endpoint hbytes (.inl rfl) port
  have hclose := bracket_not_mem_endpoint hbytes (.inr rfl) port
  have hhead : (endpoint traddr port).head? ≠ some 0x5B :=
    fun hhead => hopen (List.mem_of_mem_head? hhead)
  have htake : (endpoint traddr port).take traddr.length = traddr := by
    rw [endpoint_eq, List.take_left]
  unfold splitHostPort
  rw [lastIndexByte_endpoint]
  simp only [if_neg hhead, htake]
  split
  next => rfl
  next =>
    rw [checkBrackets, List.drop_zero, if_neg hopen, if_neg hclose, drop_endpoint]

end Literal

/-- The one form of the attribute that the expression matches. -/
def plainAddress (traddr trsvcid : GoString) : GoString :=
  ascii "traddr=" ++ (traddr ++ (ascii ",trsvcid=" ++ trsvcid))

theorem parseAddress_eq_some_iff {address traddr trsvcid : GoString} :
    parseAddress address = some (traddr, trsvcid) ↔
      address = plainAddress traddr trsvcid ∧ 0x2C ∉ traddr ∧ traddr ≠ [] ∧ Numeric trsvcid := by
  constructor
  · intro h
    dsimp only [parseAddress] at h
    split at h
    next hform =>
      cases Option.some.inj h
      refine ⟨?_, ?_, hform.2⟩
      · simpa only [plainAddress, List.append_assoc] using hform.1
      · intro hcomma
        have hne := List.mem_takeWhile_imp hcomma
        simp at hne
    next => cases h
  · rintro ⟨rfl, hcomma, hne, hnum⟩
    have hrest : (plainAddress traddr trsvcid).drop (ascii "traddr=").length =
        traddr ++ (ascii ",trsvcid=" ++ trsvcid) := List.drop_left
    have hhead : ascii ",trsvcid=" = 0x2C :: ascii "trsvcid=" := by decide
    have htake : (traddr ++ (ascii ",trsvcid=" ++ trsvcid)).takeWhile (· != 0x2C) = traddr := by
      have hall : ∀ b ∈ traddr, (b != 0x2C) = true := by
        intro b hb
        have hne : b ≠ 0x2C := by
          rintro rfl
          exact hcomma hb
        simpa using hne
      rw [List.takeWhile_append_of_pos hall, hhead]
      exact List.append_nil traddr
    have hdrop : (traddr ++ (ascii ",trsvcid=" ++ trsvcid)).drop
        (traddr.length + (ascii ",trsvcid=").length) = trsvcid := by
      rw [← List.drop_drop, List.drop_left, List.drop_left]
    dsimp only [parseAddress]
    rw [hrest, htake, hdrop, if_pos]
    refine ⟨?_, hne, hnum⟩
    simp only [plainAddress, List.append_assoc]

theorem comma_not_mem_of_numeric {s : GoString} (h : Numeric s) : 0x2C ∉ s := by
  intro hmem
  have hdigit := List.all_eq_true.mp h.2 _ hmem
  exact absurd hdigit (by decide)

/-- A part with something behind its equals sign is put together from what it is split into. -/
theorem eq_append_of_split {part name value : GoString}
    (hname : part.takeWhile (· != 0x3D) = name)
    (hvalue : (part.dropWhile (· != 0x3D)).drop 1 = value) (hne : value ≠ []) :
    part = name ++ 0x3D :: value := by
  induction part generalizing name with
  | nil => exact absurd hvalue.symm hne
  | cons b part ih =>
    by_cases hb : b = 0x3D
    · subst hb
      have hnil : name = [] := hname.symm
      have hpart : part = value := hvalue
      rw [hnil, hpart, List.nil_append]
    · have hpos : (b != 0x3D) = true := by simpa using hb
      simp only [List.takeWhile_cons, hpos, if_true] at hname
      simp only [List.dropWhile_cons, hpos, if_true] at hvalue
      rw [← hname, List.cons_append, ← ih rfl hvalue]

theorem splitOptions_plainAddress {address traddr trsvcid : GoString} (htraddr : traddr ≠ [])
    (hnum : Numeric trsvcid) :
    splitOptions address = [(ascii "traddr", traddr), (ascii "trsvcid", trsvcid)] ↔
      address = plainAddress traddr trsvcid ∧ 0x2C ∉ traddr := by
  have hjoin : ∀ traddr : GoString, [0x2C].intercalate
      [ascii "traddr" ++ 0x3D :: traddr, ascii "trsvcid" ++ 0x3D :: trsvcid] =
        plainAddress traddr trsvcid := by
    intro traddr
    have hfirst : ascii "traddr=" = ascii "traddr" ++ [0x3D] := by decide
    have hsecond : ascii ",trsvcid=" = 0x2C :: (ascii "trsvcid" ++ [0x3D]) := by decide
    simp [List.intercalate, plainAddress, hfirst, hsecond]
  constructor
  · intro h
    cases hparts : address.splitOn 0x2C with
    | nil => exact absurd hparts (List.splitOn_ne_nil _ _)
    | cons first rest =>
      have hsplit := h
      rw [splitOptions, hparts, List.map_cons] at hsplit
      obtain ⟨hfirst, hrest⟩ := List.cons.inj hsplit
      obtain ⟨second, rfl, hsecond⟩ := List.map_eq_singleton_iff.mp hrest
      have heq₁ := eq_append_of_split (congrArg Prod.fst hfirst) (congrArg Prod.snd hfirst) htraddr
      have heq₂ := eq_append_of_split (congrArg Prod.fst hsecond) (congrArg Prod.snd hsecond) hnum.1
      have hcomma := not_mem_of_mem_splitOn (hparts ▸ List.mem_cons_self :
        first ∈ address.splitOn 0x2C)
      have haddress := @List.intercalate_splitOn _ address _ _ 0x2C
      rw [hparts] at haddress
      rw [heq₁] at hcomma
      refine ⟨?_, ?_⟩
      · rw [← haddress, ← hjoin, ← heq₁, ← heq₂]
      · exact fun hmem => hcomma (List.mem_append_right _ (List.mem_cons_of_mem _ hmem))
  · rintro ⟨rfl, hcomma⟩
    have hfree : ∀ part ∈ [ascii "traddr" ++ 0x3D :: traddr, ascii "trsvcid" ++ 0x3D :: trsvcid],
        0x2C ∉ part := by
      have hnames : 0x2C ∉ ascii "traddr" ∧ 0x2C ∉ ascii "trsvcid" := by decide
      simp [hnames, hcomma, comma_not_mem_of_numeric hnum]
    have hequals : ∀ b ∈ ascii "traddr" ++ ascii "trsvcid", (b != 0x3D) = true := by
      decide +kernel
    have hleft : ∀ b ∈ ascii "traddr", (b != 0x3D) = true :=
      fun b hb => hequals b (List.mem_append_left _ hb)
    have hright : ∀ b ∈ ascii "trsvcid", (b != 0x3D) = true :=
      fun b hb => hequals b (List.mem_append_right _ hb)
    rw [← hjoin, splitOptions, List.splitOn_intercalate _ hfree (by simp)]
    simp only [List.map_cons, List.map_nil, List.takeWhile_append_of_pos hleft,
      List.dropWhile_append_of_pos hleft, List.takeWhile_append_of_pos hright,
      List.dropWhile_append_of_pos hright]
    simp

end DiscoveryClient
