import DiscoveryClient.LogPageEntry
import DiscoveryClient.Struc

namespace DiscoveryClient

open GoString

/-- `nvme.DiscRspPageHdr`. -/
structure DiscRspPageHdr where
  genCtr : UInt64 := 0
  numRec : UInt64 := 0
  recFmt : UInt16 := 0
  resv14 : Vector UInt8 1006 := .replicate 1006 0

namespace DiscRspPageHdr

def fields (h : DiscRspPageHdr) : List Struc.Field :=
  [.uint 8 h.genCtr.toNat, .uint 8 h.numRec.toNat, .uint 2 h.recFmt.toNat, .array h.resv14.toList]

def unpack (r : List UInt8) : Option (DiscRspPageHdr × List UInt8) := do
  let (genCtr, r) ← Struc.readUint 8 r
  let (numRec, r) ← Struc.readUint 8 r
  let (recFmt, r) ← Struc.readUint 2 r
  let (resv14, r) ← Struc.readArray 1006 r
  return (⟨.ofNat genCtr, .ofNat numRec, .ofNat recFmt, resv14⟩, r)

/-- The 1024 bytes of the header. -/
def record (h : DiscRspPageHdr) : List UInt8 := h.fields.flatMap Struc.Field.bytes

theorem pack_eq (h : DiscRspPageHdr) : Struc.pack h.fields = some h.record := by
  apply Struc.pack_of_fits
  simp [fields, Struc.Field.Fits]

theorem record_length (h : DiscRspPageHdr) : h.record.length = 1024 := by
  simp [record, fields, Struc.Field.bytes]

theorem unpack_record (h : DiscRspPageHdr) (r : List UInt8) :
    unpack (h.record ++ r) = some (h, r) := by
  have hg : h.genCtr.toNat % 256 ^ 8 = h.genCtr.toNat := Nat.mod_eq_of_lt h.genCtr.toNat_lt
  have hn : h.numRec.toNat % 256 ^ 8 = h.numRec.toNat := Nat.mod_eq_of_lt h.numRec.toNat_lt
  have hf : h.recFmt.toNat % 256 ^ 2 = h.recFmt.toNat := Nat.mod_eq_of_lt h.recFmt.toNat_lt
  simp only [unpack, record, fields, Struc.Field.bytes, List.flatMap_cons, List.flatMap_nil,
    List.append_assoc, List.nil_append, Struc.readUint_append, Struc.readArray_append,
    Struc.some_bind, hg, hn, hf, UInt64.ofNat_toNat, UInt16.ofNat_toNat]
  rfl

/-- Any 1024 bytes can be read as a header. -/
theorem unpack_of_le {r : List UInt8} (hr : 1024 ≤ r.length) :
    ∃ h, unpack r = some (h, r.drop 1024) := by
  obtain ⟨genCtr, hgen⟩ := @Struc.readUint_of_le 8 r (by omega)
  obtain ⟨numRec, hnum⟩ := @Struc.readUint_of_le 8 (r.drop 8) (by rw [List.length_drop]; omega)
  obtain ⟨recFmt, hfmt⟩ := @Struc.readUint_of_le 2 (r.drop 16) (by rw [List.length_drop]; omega)
  obtain ⟨resv14, hresv⟩ := @Struc.readArray_of_le 1006 (r.drop 18) (by rw [List.length_drop]; omega)
  rw [List.drop_drop] at hnum hfmt hresv
  exact ⟨_, by simp only [unpack, hgen, hnum, hfmt, hresv, Struc.some_bind]; rfl⟩

/-- Fewer bytes than a header has cannot be read as one. -/
theorem le_of_unpack {r : List UInt8} {x : DiscRspPageHdr × List UInt8} (h : unpack r = some x) :
    1024 ≤ r.length := by
  obtain ⟨gen, hgen, h⟩ := Option.bind_eq_some_iff.mp h
  obtain ⟨num, hnum, h⟩ := Option.bind_eq_some_iff.mp h
  obtain ⟨fmt, hfmt, h⟩ := Option.bind_eq_some_iff.mp h
  obtain ⟨resv, hresv, -⟩ := Option.bind_eq_some_iff.mp h
  obtain ⟨hg, rfl⟩ := Struc.readUint_some hgen
  obtain ⟨hn, rfl⟩ := Struc.readUint_some hnum
  obtain ⟨hf, rfl⟩ := Struc.readUint_some hfmt
  obtain ⟨hr, -⟩ := Struc.readArray_some hresv
  simp only [List.length_drop] at hn hf hr
  omega

end DiscRspPageHdr

namespace NvmefDiscRspPageEntry

def fields (e : NvmefDiscRspPageEntry) : List Struc.Field :=
  [.uint 1 e.trType.toNat, .uint 1 e.adrFam.toNat, .uint 1 e.subType.toNat, .uint 1 e.treq.toNat,
    .uint 2 e.portID.toNat, .uint 2 e.cntlID.toNat, .uint 2 e.asqsz.toNat, .array e.resv8.toList,
    .array e.trsvcID.toList, .array e.resv64.toList, .string 256 e.subnqn, .string 256 e.traddr,
    .array e.tsas.toList]

def unpack (r : List UInt8) : Option (NvmefDiscRspPageEntry × List UInt8) := do
  let (trType, r) ← Struc.readUint 1 r
  let (adrFam, r) ← Struc.readUint 1 r
  let (subType, r) ← Struc.readUint 1 r
  let (treq, r) ← Struc.readUint 1 r
  let (portID, r) ← Struc.readUint 2 r
  let (cntlID, r) ← Struc.readUint 2 r
  let (asqsz, r) ← Struc.readUint 2 r
  let (resv8, r) ← Struc.readArray 22 r
  let (trsvcID, r) ← Struc.readArray 32 r
  let (resv64, r) ← Struc.readArray 192 r
  let (subnqn, r) ← Struc.readFull 256 r
  let (traddr, r) ← Struc.readFull 256 r
  let (tsas, r) ← Struc.readArray 256 r
  return ({ trType := .ofNat trType, adrFam := .ofNat adrFam, subType := .ofNat subType
            treq := .ofNat treq, portID := .ofNat portID, cntlID := .ofNat cntlID
            asqsz := .ofNat asqsz, resv8, trsvcID, resv64, subnqn, traddr, tsas }, r)

/-- The entry's strings are no longer than their fields. -/
def Fits (e : NvmefDiscRspPageEntry) : Prop := e.subnqn.length ≤ 256 ∧ e.traddr.length ≤ 256

/-- The 1024 bytes of an entry that fits. -/
def record (e : NvmefDiscRspPageEntry) : List UInt8 := e.fields.flatMap Struc.Field.bytes

/-- The entry as the other side reads it: its strings fill their fields. -/
def onWire (e : NvmefDiscRspPageEntry) : NvmefDiscRspPageEntry :=
  { e with
    subnqn := e.subnqn ++ List.replicate (256 - e.subnqn.length) 0
    traddr := e.traddr ++ List.replicate (256 - e.traddr.length) 0 }

theorem pack_eq {e : NvmefDiscRspPageEntry} (h : e.Fits) : Struc.pack e.fields = some e.record := by
  apply Struc.pack_of_fits
  simpa [fields, Struc.Field.Fits, Fits] using h

theorem fits_of_pack {e : NvmefDiscRspPageEntry} {bytes : List UInt8}
    (h : Struc.pack e.fields = some bytes) : e.Fits := by
  have hsplit : e.fields = e.fields.dropLast ++ [.array e.tsas.toList] := rfl
  rw [hsplit] at h
  have hfits := Struc.fits_of_pack h
  have hsubnqn : Struc.Field.string 256 e.subnqn ∈ e.fields.dropLast := by
    simp [fields]
  have htraddr : Struc.Field.string 256 e.traddr ∈ e.fields.dropLast := by
    simp [fields]
  exact ⟨hfits _ hsubnqn, hfits _ htraddr⟩

theorem record_length {e : NvmefDiscRspPageEntry} (h : e.Fits) : e.record.length = 1024 := by
  obtain ⟨hs, ht⟩ := h
  simp [record, fields, Struc.Field.bytes]
  omega

theorem unpack_record {e : NvmefDiscRspPageEntry} (h : e.Fits) (r : List UInt8) :
    unpack (e.record ++ r) = some (e.onWire, r) := by
  have h₁ : e.trType.toNat % 256 ^ 1 = e.trType.toNat := Nat.mod_eq_of_lt e.trType.toNat_lt
  have h₂ : e.adrFam.toNat % 256 ^ 1 = e.adrFam.toNat := Nat.mod_eq_of_lt e.adrFam.toNat_lt
  have h₃ : e.subType.toNat % 256 ^ 1 = e.subType.toNat := Nat.mod_eq_of_lt e.subType.toNat_lt
  have h₄ : e.treq.toNat % 256 ^ 1 = e.treq.toNat := Nat.mod_eq_of_lt e.treq.toNat_lt
  have h₅ : e.portID.toNat % 256 ^ 2 = e.portID.toNat := Nat.mod_eq_of_lt e.portID.toNat_lt
  have h₆ : e.cntlID.toNat % 256 ^ 2 = e.cntlID.toNat := Nat.mod_eq_of_lt e.cntlID.toNat_lt
  have h₇ : e.asqsz.toNat % 256 ^ 2 = e.asqsz.toNat := Nat.mod_eq_of_lt e.asqsz.toNat_lt
  simp only [unpack, record, fields, Struc.Field.bytes, List.flatMap_cons, List.flatMap_nil,
    List.append_assoc, List.nil_append, Struc.readUint_append, Struc.readArray_append,
    Struc.readFull_string h.1, Struc.readFull_string h.2, Struc.some_bind,
    h₁, h₂, h₃, h₄, h₅, h₆, h₇, UInt8.ofNat_toNat, UInt16.ofNat_toNat]
  rfl

/-- Any 1024 bytes can be read as an entry. -/
theorem unpack_of_le {r : List UInt8} (hr : 1024 ≤ r.length) :
    ∃ e, unpack r = some (e, r.drop 1024) := by
  have hdrop : ∀ n, (r.drop n).length = r.length - n := fun n => List.length_drop
  obtain ⟨x₁, h₁⟩ := @Struc.readUint_of_le 1 r (by omega)
  obtain ⟨x₂, h₂⟩ := @Struc.readUint_of_le 1 (r.drop 1) (by rw [hdrop]; omega)
  obtain ⟨x₃, h₃⟩ := @Struc.readUint_of_le 1 (r.drop 2) (by rw [hdrop]; omega)
  obtain ⟨x₄, h₄⟩ := @Struc.readUint_of_le 1 (r.drop 3) (by rw [hdrop]; omega)
  obtain ⟨x₅, h₅⟩ := @Struc.readUint_of_le 2 (r.drop 4) (by rw [hdrop]; omega)
  obtain ⟨x₆, h₆⟩ := @Struc.readUint_of_le 2 (r.drop 6) (by rw [hdrop]; omega)
  obtain ⟨x₇, h₇⟩ := @Struc.readUint_of_le 2 (r.drop 8) (by rw [hdrop]; omega)
  obtain ⟨x₈, h₈⟩ := @Struc.readArray_of_le 22 (r.drop 10) (by rw [hdrop]; omega)
  obtain ⟨x₉, h₉⟩ := @Struc.readArray_of_le 32 (r.drop 32) (by rw [hdrop]; omega)
  obtain ⟨x₁₀, h₁₀⟩ := @Struc.readArray_of_le 192 (r.drop 64) (by rw [hdrop]; omega)
  have h₁₁ := @Struc.readFull_of_le 256 (r.drop 256) (by rw [hdrop]; omega)
  have h₁₂ := @Struc.readFull_of_le 256 (r.drop 512) (by rw [hdrop]; omega)
  obtain ⟨x₁₃, h₁₃⟩ := @Struc.readArray_of_le 256 (r.drop 768) (by rw [hdrop]; omega)
  simp only [List.drop_drop, Nat.reduceAdd] at h₂ h₃ h₄ h₅ h₆ h₇ h₈ h₉ h₁₀ h₁₁ h₁₂ h₁₃
  exact ⟨_, by
    simp only [unpack, h₁, h₂, h₃, h₄, h₅, h₆, h₇, h₈, h₉, h₁₀, h₁₁, h₁₂, h₁₃, Struc.some_bind]
    rfl⟩

theorem onWire_eq_self {e : NvmefDiscRspPageEntry} (h : e.Fits) :
    e.onWire = e ↔ e.subnqn.length = 256 ∧ e.traddr.length = 256 := by
  obtain ⟨hs, ht⟩ := h
  constructor
  · intro heq
    have hsubnqn := congrArg (fun x => x.subnqn.length) heq
    have htraddr := congrArg (fun x => x.traddr.length) heq
    simp only [onWire, List.length_append, List.length_replicate] at hsubnqn htraddr
    omega
  · intro hlen
    simp [onWire, hlen]

theorem map_onWire_eq_self {es : List NvmefDiscRspPageEntry} (fits : ∀ e ∈ es, e.Fits) :
    es.map onWire = es ↔ ∀ e ∈ es, e.subnqn.length = 256 ∧ e.traddr.length = 256 := by
  have hexact : es.map onWire = es ↔ ∀ e ∈ es, e.onWire = e := by
    simpa using @List.map_inj_left _ _ es onWire id
  rw [hexact]
  exact forall₂_congr fun e he => onWire_eq_self (fits e he)

/-- `Discover` takes the padding off again. -/
theorem discoverEntry_onWire (e : NvmefDiscRspPageEntry) :
    discoverEntry e.onWire = discoverEntry e := by
  simp only [discoverEntry, onWire, trimRightNul_zeros]

end NvmefDiscRspPageEntry

end DiscoveryClient
