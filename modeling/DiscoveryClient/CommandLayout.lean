import DiscoveryClient.NvmeCommands

/-! The commands of 64 bytes as `struc` lays them out. -/

namespace DiscoveryClient

namespace Nvme

structure DataPtr where
  part1 : UInt64
  part2 : Vector UInt8 8
deriving DecidableEq, Repr

namespace DataPtr

def fields (d : DataPtr) : List Struc.Field := [.uint 8 d.part1.toNat, .array d.part2.toList]

/-- The data of this length follow the command. -/
def setSgInline (d : DataPtr) (length : UInt32) : DataPtr where
  part1 := 0
  part2 := Vector.ofFn fun i =>
    if i.val < 4 then (Struc.putUint 4 length.toNat).getD i.val 0
    else if i.val = 7 then sglInline
    else d.part2[i]

end DataPtr

/-- `GetLogPageCommand` with what the other one leaves out; the reserved fields are zero. -/
structure DiscoveryLogPageCommand extends GetLogPageCommand where
  opcode : UInt8
  flags : UInt8
  commandID : UInt16
  nsId : UInt32
  dptr : DataPtr
  lid : UInt8
  lsp : UInt8
deriving DecidableEq, Repr

def nvmeNoLogLsp : UInt8 := 0x0

/-- The command of `NewNvmeGetDiscoveryLogPageRequest`. -/
def discoveryLogPageCommand (cmdid : UInt16) (size : UInt32) (offset : UInt64) (nsid : UInt32) :
    DiscoveryLogPageCommand :=
  { newNvmeGetDiscoveryLogPageRequest size offset with
    opcode := adminGetLogPage
    flags := 0x40
    commandID := cmdid
    nsId := nsid
    dptr := { part1 := 0, part2 := #v[16, 0, 0, 0, 0, 0, 0, 90] }
    lid := logDisc
    lsp := nvmeNoLogLsp }

/-- The same command with another log specific field. -/
def DiscoveryLogPageCommand.withLsp (cmd : DiscoveryLogPageCommand) (lsp : UInt8) :
    DiscoveryLogPageCommand := { cmd with lsp }

/-- Two double words before the pointer to the data and two at the end are reserved. -/
def DiscoveryLogPageCommand.fields (cmd : DiscoveryLogPageCommand) : List Struc.Field :=
  [.uint 1 cmd.opcode.toNat, .uint 1 cmd.flags.toNat, .uint 2 cmd.commandID.toNat,
    .uint 4 cmd.nsId.toNat, .array (List.replicate 16 0)] ++ cmd.dptr.fields ++
  [.uint 1 cmd.lid.toNat, .uint 1 cmd.lsp.toNat, .uint 2 cmd.numDl.toNat, .uint 2 cmd.numDu.toNat,
    .uint 2 0, .uint 4 cmd.lpol.toNat, .uint 4 cmd.lpou.toNat, .array (List.replicate 8 0)]

structure CommonCommand where
  opcode : UInt8
  flags : UInt8
  commandID : UInt16
  nsId : UInt32
  cdw2 : UInt32 × UInt32
  metadata : UInt64
  dptr : DataPtr
  cdw10 : UInt32
  cdw11 : UInt32
  cdw12 : UInt32
  cdw13 : UInt32
  cdw14 : UInt32
  cdw15 : UInt32
deriving DecidableEq, Repr

def CommonCommand.unpack (r : List UInt8) : Option (CommonCommand × List UInt8) := do
  let (opcode, r) ← Struc.readUint 1 r
  let (flags, r) ← Struc.readUint 1 r
  let (commandID, r) ← Struc.readUint 2 r
  let (nsId, r) ← Struc.readUint 4 r
  let (cdw2, r) ← Struc.readUint 4 r
  let (cdw3, r) ← Struc.readUint 4 r
  let (metadata, r) ← Struc.readUint 8 r
  let (part1, r) ← Struc.readUint 8 r
  let (part2, r) ← Struc.readArray 8 r
  let (cdw10, r) ← Struc.readUint 4 r
  let (cdw11, r) ← Struc.readUint 4 r
  let (cdw12, r) ← Struc.readUint 4 r
  let (cdw13, r) ← Struc.readUint 4 r
  let (cdw14, r) ← Struc.readUint 4 r
  let (cdw15, r) ← Struc.readUint 4 r
  return (
    { opcode := .ofNat opcode, flags := .ofNat flags, commandID := .ofNat commandID
      nsId := .ofNat nsId, cdw2 := (.ofNat cdw2, .ofNat cdw3), metadata := .ofNat metadata
      dptr := { part1 := .ofNat part1, part2 }, cdw10 := .ofNat cdw10, cdw11 := .ofNat cdw11
      cdw12 := .ofNat cdw12, cdw13 := .ofNat cdw13, cdw14 := .ofNat cdw14
      cdw15 := .ofNat cdw15 }, r)

/-- A double word of a command, in little endian. -/
def dword (bytes : List UInt8) (i : Nat) : UInt32 :=
  .ofNat (Struc.getUint ((bytes.drop (4 * i)).take 4))

theorem readUint_drop {bytes : List UInt8} {i size : Nat} (h : i + size ≤ bytes.length) :
    Struc.readUint size (bytes.drop i) =
      some (Struc.getUint ((bytes.drop i).take size), bytes.drop (i + size)) := by
  have hle : size ≤ (bytes.drop i).length := by
    rw [List.length_drop]
    omega
  rw [Struc.readUint, Struc.readFull_of_le hle, Option.map_some, List.drop_drop]

/-- Unpacking 64 bytes reads the double words 10 to 13 where they are. -/
theorem CommonCommand.unpack_dwords {bytes : List UInt8} (h : bytes.length = 64) :
    ∃ c, CommonCommand.unpack bytes = some (c, []) ∧ c.cdw10 = dword bytes 10 ∧
      c.cdw11 = dword bytes 11 ∧ c.cdw12 = dword bytes 12 ∧ c.cdw13 = dword bytes 13 := by
  have hread : ∀ i size, i + size ≤ 64 → Struc.readUint size (bytes.drop i) =
      some (Struc.getUint ((bytes.drop i).take size), bytes.drop (i + size)) :=
    fun i size hle => readUint_drop (h ▸ hle)
  obtain ⟨part2, hpart2⟩ := @Struc.readArray_of_le 8 (bytes.drop 32) (by simp [h])
  rw [List.drop_drop] at hpart2
  have hstart := hread 0 1 (by omega)
  rw [List.drop_zero] at hstart
  unfold CommonCommand.unpack
  simp only [hstart, hread 1 1 (by omega), hread 2 2 (by omega), hread 4 4 (by omega),
    hread 8 4 (by omega), hread 12 4 (by omega), hread 16 8 (by omega), hread 24 8 (by omega),
    hpart2, hread 40 4 (by omega), hread 44 4 (by omega), hread 48 4 (by omega),
    hread 52 4 (by omega), hread 56 4 (by omega), hread 60 4 (by omega), Struc.some_bind,
    Nat.reduceAdd]
  refine ⟨_, congrArg some (Prod.ext rfl (List.drop_eq_nil_of_le h.le)), rfl, rfl, rfl, rfl⟩

end Nvme

end DiscoveryClient
