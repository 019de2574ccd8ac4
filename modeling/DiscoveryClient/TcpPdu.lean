import DiscoveryClient.Struc

namespace DiscoveryClient

/-- `nvme.TCPHeaderType`, the header of every PDU. `plen` counts the header too. -/
structure TCPHeaderType where
  type : UInt8
  flags : UInt8
  hlen : UInt8
  pdo : UInt8
  plen : UInt32
deriving DecidableEq, Repr

namespace TCPHeaderType

def fields (h : TCPHeaderType) : List Struc.Field :=
  [.uint 1 h.type.toNat, .uint 1 h.flags.toNat, .uint 1 h.hlen.toNat, .uint 1 h.pdo.toNat,
    .uint 4 h.plen.toNat]

def unpack (r : List UInt8) : Option (TCPHeaderType × List UInt8) := do
  let (type, r) ← Struc.readUint 1 r
  let (flags, r) ← Struc.readUint 1 r
  let (hlen, r) ← Struc.readUint 1 r
  let (pdo, r) ← Struc.readUint 1 r
  let (plen, r) ← Struc.readUint 4 r
  return (⟨.ofNat type, .ofNat flags, .ofNat hlen, .ofNat pdo, .ofNat plen⟩, r)

/-- The 8 bytes of the header. -/
def record (h : TCPHeaderType) : List UInt8 := h.fields.flatMap Struc.Field.bytes

theorem record_length (h : TCPHeaderType) : h.record.length = 8 := by
  simp [record, fields, Struc.Field.bytes]

theorem unpack_record (h : TCPHeaderType) (r : List UInt8) : unpack (h.record ++ r) = some (h, r) := by
  have h₁ : h.type.toNat % 256 ^ 1 = h.type.toNat := Nat.mod_eq_of_lt h.type.toNat_lt
  have h₂ : h.flags.toNat % 256 ^ 1 = h.flags.toNat := Nat.mod_eq_of_lt h.flags.toNat_lt
  have h₃ : h.hlen.toNat % 256 ^ 1 = h.hlen.toNat := Nat.mod_eq_of_lt h.hlen.toNat_lt
  have h₄ : h.pdo.toNat % 256 ^ 1 = h.pdo.toNat := Nat.mod_eq_of_lt h.pdo.toNat_lt
  have h₅ : h.plen.toNat % 256 ^ 4 = h.plen.toNat := Nat.mod_eq_of_lt h.plen.toNat_lt
  simp only [unpack, record, fields, Struc.Field.bytes, List.flatMap_cons, List.flatMap_nil,
    List.append_assoc, List.nil_append, Struc.readUint_append, Struc.some_bind, h₁, h₂, h₃, h₄, h₅,
    UInt8.ofNat_toNat, UInt32.ofNat_toNat]
  rfl

/-- A header is read from the stream exactly when its bytes are the first of it. -/
theorem unpack_eq_some_iff {r : List UInt8} {h : TCPHeaderType} {rest : List UInt8} :
    unpack r = some (h, rest) ↔ r = h.record ++ rest := by
  constructor
  · intro hunpack
    obtain ⟨type, htype, hunpack⟩ := Option.bind_eq_some_iff.mp hunpack
    obtain ⟨flags, hflags, hunpack⟩ := Option.bind_eq_some_iff.mp hunpack
    obtain ⟨hlen, hhlen, hunpack⟩ := Option.bind_eq_some_iff.mp hunpack
    obtain ⟨pdo, hpdo, hunpack⟩ := Option.bind_eq_some_iff.mp hunpack
    obtain ⟨plen, hplen, hunpack⟩ := Option.bind_eq_some_iff.mp hunpack
    obtain ⟨e₁, l₁⟩ := Struc.readUint_split htype
    obtain ⟨e₂, l₂⟩ := Struc.readUint_split hflags
    obtain ⟨e₃, l₃⟩ := Struc.readUint_split hhlen
    obtain ⟨e₄, l₄⟩ := Struc.readUint_split hpdo
    obtain ⟨e₅, l₅⟩ := Struc.readUint_split hplen
    cases Option.some.inj hunpack
    have n₁ : (UInt8.ofNat type.1).toNat = type.1 := UInt8.toNat_ofNat_of_lt l₁
    have n₂ : (UInt8.ofNat flags.1).toNat = flags.1 := UInt8.toNat_ofNat_of_lt l₂
    have n₃ : (UInt8.ofNat hlen.1).toNat = hlen.1 := UInt8.toNat_ofNat_of_lt l₃
    have n₄ : (UInt8.ofNat pdo.1).toNat = pdo.1 := UInt8.toNat_ofNat_of_lt l₄
    have n₅ : (UInt32.ofNat plen.1).toNat = plen.1 := UInt32.toNat_ofNat_of_lt l₅
    simp only [record, fields, Struc.Field.bytes, List.flatMap_cons, List.flatMap_nil,
      List.append_assoc, List.nil_append, n₁, n₂, n₃, n₄, n₅]
    rw [← e₅, ← e₄, ← e₃, ← e₂, ← e₁]
  · rintro rfl
    exact unpack_record h rest

end TCPHeaderType

/-- `nvme.TCPIcrespPdu`; of its fields only these two are looked at. -/
structure TCPIcrespPdu where
  pfv : UInt16
  cpda : UInt8
deriving DecidableEq, Repr

/-- The fields behind `cpda` are `digest`, `maxdata` and 112 reserved bytes. -/
def TCPIcrespPdu.unpack (r : List UInt8) : Option (TCPIcrespPdu × List UInt8) := do
  let (pfv, r) ← Struc.readUint 2 r
  let (cpda, r) ← Struc.readUint 1 r
  let (_, r) ← Struc.readUint 1 r
  let (_, r) ← Struc.readUint 4 r
  let (_, r) ← Struc.readFull 112 r
  return (⟨.ofNat pfv, .ofNat cpda⟩, r)

/-- `nvme.TCPDataPDU`, what precedes the data of a data PDU. -/
structure TCPDataPDU where
  commandID : UInt16
  tTag : UInt16
  dataOffset : UInt32
  dataLength : UInt32
  reserved : Vector UInt8 4
deriving DecidableEq, Repr

namespace TCPDataPDU

def fields (d : TCPDataPDU) : List Struc.Field :=
  [.uint 2 d.commandID.toNat, .uint 2 d.tTag.toNat, .uint 4 d.dataOffset.toNat,
    .uint 4 d.dataLength.toNat, .array d.reserved.toList]

def unpack (r : List UInt8) : Option (TCPDataPDU × List UInt8) := do
  let (commandID, r) ← Struc.readUint 2 r
  let (tTag, r) ← Struc.readUint 2 r
  let (dataOffset, r) ← Struc.readUint 4 r
  let (dataLength, r) ← Struc.readUint 4 r
  let (reserved, r) ← Struc.readArray 4 r
  return (⟨.ofNat commandID, .ofNat tTag, .ofNat dataOffset, .ofNat dataLength, reserved⟩, r)

def record (d : TCPDataPDU) : List UInt8 := d.fields.flatMap Struc.Field.bytes

theorem record_length (d : TCPDataPDU) : d.record.length = 16 := by
  simp [record, fields, Struc.Field.bytes]

theorem unpack_record (d : TCPDataPDU) (r : List UInt8) : unpack (d.record ++ r) = some (d, r) := by
  have h₁ : d.commandID.toNat % 256 ^ 2 = d.commandID.toNat := Nat.mod_eq_of_lt d.commandID.toNat_lt
  have h₂ : d.tTag.toNat % 256 ^ 2 = d.tTag.toNat := Nat.mod_eq_of_lt d.tTag.toNat_lt
  have h₃ : d.dataOffset.toNat % 256 ^ 4 = d.dataOffset.toNat :=
    Nat.mod_eq_of_lt d.dataOffset.toNat_lt
  have h₄ : d.dataLength.toNat % 256 ^ 4 = d.dataLength.toNat :=
    Nat.mod_eq_of_lt d.dataLength.toNat_lt
  simp only [unpack, record, fields, Struc.Field.bytes, List.flatMap_cons, List.flatMap_nil,
    List.append_assoc, List.nil_append, Struc.readUint_append, Struc.readArray_append,
    Struc.some_bind, h₁, h₂, h₃, h₄, UInt16.ofNat_toNat, UInt32.ofNat_toNat]
  rfl

end TCPDataPDU

/-- `nvme.Completion`. -/
structure Completion where
  result : Vector UInt8 8
  sqHead : UInt16
  sqID : UInt16
  commandID : UInt16
  status : UInt16
deriving DecidableEq, Repr

namespace Completion

def fields (c : Completion) : List Struc.Field :=
  [.array c.result.toList, .uint 2 c.sqHead.toNat, .uint 2 c.sqID.toNat, .uint 2 c.commandID.toNat,
    .uint 2 c.status.toNat]

def unpack (r : List UInt8) : Option (Completion × List UInt8) := do
  let (result, r) ← Struc.readArray 8 r
  let (sqHead, r) ← Struc.readUint 2 r
  let (sqID, r) ← Struc.readUint 2 r
  let (commandID, r) ← Struc.readUint 2 r
  let (status, r) ← Struc.readUint 2 r
  return (⟨result, .ofNat sqHead, .ofNat sqID, .ofNat commandID, .ofNat status⟩, r)

def record (c : Completion) : List UInt8 := c.fields.flatMap Struc.Field.bytes

theorem record_length (c : Completion) : c.record.length = 16 := by
  simp [record, fields, Struc.Field.bytes]

theorem unpack_record (c : Completion) (r : List UInt8) : unpack (c.record ++ r) = some (c, r) := by
  have h₁ : c.sqHead.toNat % 256 ^ 2 = c.sqHead.toNat := Nat.mod_eq_of_lt c.sqHead.toNat_lt
  have h₂ : c.sqID.toNat % 256 ^ 2 = c.sqID.toNat := Nat.mod_eq_of_lt c.sqID.toNat_lt
  have h₃ : c.commandID.toNat % 256 ^ 2 = c.commandID.toNat := Nat.mod_eq_of_lt c.commandID.toNat_lt
  have h₄ : c.status.toNat % 256 ^ 2 = c.status.toNat := Nat.mod_eq_of_lt c.status.toNat_lt
  simp only [unpack, record, fields, Struc.Field.bytes, List.flatMap_cons, List.flatMap_nil,
    List.append_assoc, List.nil_append, Struc.readUint_append, Struc.readArray_append,
    Struc.some_bind, h₁, h₂, h₃, h₄, UInt16.ofNat_toNat]
  rfl

end Completion

end DiscoveryClient
