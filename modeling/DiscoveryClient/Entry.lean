import DiscoveryClient.GoString

namespace DiscoveryClient

open GoString

/-- Where an entry came from; `unset` is the zero value of the Go string type. -/
inductive EntrySource
  | unset
  | user
  | referral
  | internal
deriving DecidableEq, Repr

/-- `clientconfig.Entry`. `ctrlLossTMO` is a pointer in the source, nil when not set. -/
structure Entry where
  transport : GoString := []
  trsvcid : Int := 0
  traddr : GoString := []
  hostnqn : GoString := []
  hostid : GoString := []
  subsysnqn : GoString := []
  persistent : Bool := false
  hostaddr : GoString := []
  entrySource : EntrySource := .unset
  ctrlLossTMO : Option Int := none
  effectiveHostid : GoString := []
deriving DecidableEq, Repr

/-- The key of a connection. -/
structure TKey where
  transport : GoString
  ip : GoString
  port : Int
  nqn : GoString
  hostnqn : GoString
deriving DecidableEq, Repr

structure ClientClusterPair where
  clusterNqn : GoString := []
  hostNqn : GoString := []
deriving DecidableEq, Repr

def ClientClusterPair.isEmpty (pair : ClientClusterPair) : Bool :=
  pair.clusterNqn.isEmpty && pair.hostNqn.isEmpty

@[simp] theorem ClientClusterPair.isEmpty_zero : ({} : ClientClusterPair).isEmpty = true := rfl

/-- The pair whose connection map a key belongs to. -/
def TKey.pair (key : TKey) : ClientClusterPair := ⟨key.nqn, key.hostnqn⟩

namespace Entry

def tkey (e : Entry) : TKey := ⟨e.transport, e.traddr, e.trsvcid, e.subsysnqn, e.hostnqn⟩

def pair (e : Entry) : ClientClusterPair := ⟨e.subsysnqn, e.hostnqn⟩

@[simp] theorem tkey_pair (e : Entry) : e.tkey.pair = e.pair := rfl

/-- The comparison that de-duplicates entries. It looks at `persistent`, which no key holds. -/
def compare (e other : Entry) : Bool :=
  e.traddr == other.traddr && e.persistent == other.persistent && e.hostnqn == other.hostnqn &&
    e.trsvcid == other.trsvcid && e.transport == other.transport && e.subsysnqn == other.subsysnqn

theorem compare_iff {e other : Entry} :
    e.compare other = true ↔ e.tkey = other.tkey ∧ e.persistent = other.persistent := by
  simp only [compare, tkey, Bool.and_eq_true, beq_iff_eq, TKey.mk.injEq]
  tauto

def verify (e : Entry) : Except String Unit :=
  if e.subsysnqn.length = 0 then .error "Subsysnqn is mandatory"
  else if e.traddr.length = 0 then .error "Traddr is mandatory"
  else if e.trsvcid = 0 then .error "Trsvcid is mandatory"
  else if e.transport.length = 0 then .error "Transport is mandatory"
  else if e.hostnqn.length = 0 then .error "Hostnqn is mandatory"
  else if (match e.ctrlLossTMO with | some t => decide (t < -1) | none => false) then
    .error "CtrlLossTMO must be >= -1"
  else .ok ()

/-- The entry passes `verify`. -/
def Verified (e : Entry) : Prop :=
  e.subsysnqn ≠ [] ∧ e.traddr ≠ [] ∧ e.trsvcid ≠ 0 ∧ e.transport ≠ [] ∧ e.hostnqn ≠ [] ∧
    ∀ t, e.ctrlLossTMO = some t → -1 ≤ t

theorem verify_ok_iff {e : Entry} : e.verify = .ok () ↔ e.Verified := by
  unfold verify Verified
  cases h : e.ctrlLossTMO <;> simp only [List.length_eq_zero_iff] <;> grind

theorem Verified.pair_not_empty {e : Entry} (h : e.Verified) : e.pair.isEmpty = false := by
  simp [ClientClusterPair.isEmpty, pair, h.1]

def getEffectiveHostId (e : Entry) : GoString :=
  if e.effectiveHostid ≠ [] then e.effectiveHostid else e.hostid

/-- The entry as it comes back out of `internal.json`: strings coerced to valid UTF-8, and
`EffectiveHostid`, which is tagged `json:"-"`, gone. -/
def throughJson (e : Entry) : Entry :=
  { e with
    transport := e.transport.throughJson
    traddr := e.traddr.throughJson
    hostnqn := e.hostnqn.throughJson
    hostid := e.hostid.throughJson
    subsysnqn := e.subsysnqn.throughJson
    hostaddr := e.hostaddr.throughJson
    effectiveHostid := [] }

/-- Every string the encoder writes is valid UTF-8. -/
def ValidStrings (e : Entry) : Prop :=
  validString e.transport = true ∧ validString e.traddr = true ∧ validString e.hostnqn = true ∧
    validString e.hostid = true ∧ validString e.subsysnqn = true ∧ validString e.hostaddr = true

theorem throughJson_of_valid {e : Entry} (h : e.ValidStrings) :
    e.throughJson = { e with effectiveHostid := [] } := by
  obtain ⟨ht, ha, hn, hi, hs, hh⟩ := h
  simp [throughJson, GoString.throughJson_of_valid, ht, ha, hn, hi, hs, hh]

theorem throughJson_verified {e : Entry} : e.throughJson.Verified ↔ e.Verified := by
  simp [Verified, throughJson, GoString.throughJson_eq_nil_iff]

end Entry

end DiscoveryClient
