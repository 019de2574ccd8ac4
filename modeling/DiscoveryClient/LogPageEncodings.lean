import DiscoveryClient.CommandLayout
import DiscoveryClient.IoctlLogPage

/-! Three places write the length and the offset of a log page into a command: the TCP client, the
ioctl client, and the server, which reads them back. -/

namespace DiscoveryClient

open Nvme

namespace Nvmeclient

/-- The device is given the command, and its answer is the one of `nvmeGetLog`. -/
theorem nvmeGetLog_eq {size : Nat} (h : size ≠ 0) (f : Device) (n : Nat) (nsid logID : UInt32)
    (lsp : UInt8) (lpo : UInt64) (lsi : UInt16) (rae : Bool) :
    nvmeGetLog f n nsid logID lsp lpo lsi rae size =
      (f.ioctl n (getLogCmd nsid logID lsp lpo lsi rae size) size).mapError (.error ∘ .text) := by
  rw [nvmeGetLog, if_neg h]
  cases f.ioctl n (getLogCmd nsid logID lsp lpo lsi rae size) size with
  | error err => rfl
  | ok data => rfl

end Nvmeclient

open Nvmeclient

theorem ofNat_shiftRight (size : UInt32) : UInt32.ofNat (size.toNat >>> 2) = size >>> 2 := by
  apply UInt32.toNat_inj.mp
  have hlt := size.toNat_lt
  rw [UInt32.toNat_shiftRight, UInt32.toNat_ofNat']
  simp only [Nat.shiftRight_eq_div_pow, UInt32.reduceToNat, Nat.reduceMod, Nat.reducePow]
  omega

/-- The fields of the first double word do not overlap. -/
theorem cdw10_toNat (numdl : UInt16) (lsp : UInt8) :
    ((0x70 : UInt32) ||| numdl.toUInt32 <<< 16 ||| lsp.toUInt32 <<< 8).toNat =
      0x70 + 256 * (lsp.toNat + 256 * numdl.toNat) := by
  have hdl := numdl.toNat_lt
  have hlsp := lsp.toNat_lt
  have hlow : 2 ^ 8 * lsp.toNat + 0x70 = 2 ^ 8 * lsp.toNat ||| 0x70 :=
    Nat.two_pow_add_eq_or_of_lt (by decide) _
  have hall : 2 ^ 16 * numdl.toNat + (2 ^ 8 * lsp.toNat + 0x70) =
      2 ^ 16 * numdl.toNat ||| (2 ^ 8 * lsp.toNat + 0x70) :=
    Nat.two_pow_add_eq_or_of_lt (by omega) _
  have hshift : (numdl.toUInt32 <<< 16).toNat = 2 ^ 16 * numdl.toNat ∧
      (lsp.toUInt32 <<< 8).toNat = 2 ^ 8 * lsp.toNat := by
    simp only [UInt32.toNat_shiftLeft, UInt16.toNat_toUInt32, UInt8.toNat_toUInt32,
      Nat.shiftLeft_eq, UInt32.reduceToNat, Nat.reduceMod, Nat.reducePow]
    omega
  have hlid : (0x70 : UInt32).toNat = 0x70 := rfl
  rw [UInt32.toNat_or, UInt32.toNat_or, hshift.1, hshift.2, hlid, Nat.or_comm 0x70,
    Nat.or_assoc, Nat.or_comm 0x70, ← hlow, ← hall]
  omega

/-- The double word behind `4 * i` bytes. -/
theorem dword_append {front word rest : List UInt8} {i : Nat} (hfront : front.length = 4 * i)
    (hword : word.length = 4) : dword (front ++ (word ++ rest)) i = .ofNat (Struc.getUint word) := by
  rw [dword, List.drop_left' hfront, List.take_left' hword]

namespace Nvme.DiscoveryLogPageCommand

variable (cmd : DiscoveryLogPageCommand)

/-- The 64 bytes of the command. -/
def record : List UInt8 := cmd.fields.flatMap Struc.Field.bytes

/-- The bytes up to the log page's number, and those from there on. -/
theorem record_eq : ∃ front : List UInt8, front.length = 40 ∧ cmd.record = front ++
    (Struc.putUint 1 cmd.lid.toNat ++ (Struc.putUint 1 cmd.lsp.toNat ++
      Struc.putUint 2 cmd.numDl.toNat) ++ ((Struc.putUint 2 cmd.numDu.toNat ++ Struc.putUint 2 0) ++
        (Struc.putUint 4 cmd.lpol.toNat ++ (Struc.putUint 4 cmd.lpou.toNat ++
          List.replicate 8 0)))) := by
  refine ⟨Struc.putUint 1 cmd.opcode.toNat ++ (Struc.putUint 1 cmd.flags.toNat ++
    (Struc.putUint 2 cmd.commandID.toNat ++ (Struc.putUint 4 cmd.nsId.toNat ++
      (List.replicate 16 0 ++ (Struc.putUint 8 cmd.dptr.part1.toNat ++ cmd.dptr.part2.toList))))),
    ?_, ?_⟩
  · simp
  · simp only [record, fields, DataPtr.fields, List.flatMap_append, List.flatMap_cons,
      List.flatMap_nil, Struc.Field.bytes, List.append_assoc, List.append_nil]

theorem pack_fields : Struc.pack cmd.fields = some cmd.record := by
  apply Struc.pack_of_fits
  simp [fields, DataPtr.fields, Struc.Field.Fits]

theorem record_length : cmd.record.length = 64 := by
  obtain ⟨front, hfront, hrecord⟩ := cmd.record_eq
  rw [hrecord]
  simp [hfront]

theorem record_dwords :
    (dword cmd.record 10).toNat = cmd.lid.toNat + 256 * (cmd.lsp.toNat + 256 * cmd.numDl.toNat) ∧
    dword cmd.record 11 = cmd.numDu.toUInt32 ∧ dword cmd.record 12 = cmd.lpol ∧
    dword cmd.record 13 = cmd.lpou := by
  obtain ⟨front, hfront, hrecord⟩ := cmd.record_eq
  have hlid := cmd.lid.toNat_lt
  have hlsp := cmd.lsp.toNat_lt
  have hdl := cmd.numDl.toNat_lt
  have hdu := cmd.numDu.toNat_lt
  have hlpol := cmd.lpol.toNat_lt
  have hlpou := cmd.lpou.toNat_lt
  rw [hrecord]
  refine ⟨?_, ?_, ?_, ?_⟩
  · rw [dword_append (by simp [hfront]) (by simp), Struc.getUint_append, Struc.getUint_append,
      Struc.getUint_putUint, Struc.getUint_putUint, Struc.getUint_putUint, Struc.putUint_length,
      Struc.putUint_length, UInt32.toNat_ofNat']
    omega
  · rw [← List.append_assoc front, dword_append (by simp [hfront]) (by simp), Struc.getUint_append,
      Struc.getUint_putUint, Struc.getUint_putUint, Struc.putUint_length]
    apply UInt32.toNat_inj.mp
    rw [UInt32.toNat_ofNat', UInt16.toNat_toUInt32]
    omega
  · rw [← List.append_assoc front, ← List.append_assoc (front ++ _),
      dword_append (by simp [hfront]) (by simp), Struc.getUint_putUint]
    apply UInt32.toNat_inj.mp
    rw [UInt32.toNat_ofNat']
    omega
  · rw [← List.append_assoc front, ← List.append_assoc (front ++ _),
      ← List.append_assoc (front ++ _ ++ _), dword_append (by simp [hfront]) (by simp),
      Struc.getUint_putUint]
    apply UInt32.toNat_inj.mp
    rw [UInt32.toNat_ofNat']
    omega

end Nvme.DiscoveryLogPageCommand

theorem and_allOnes (n : UInt32) : n &&& 0xffffffff = n := by
  apply UInt32.toNat_inj.mp
  have hlt := n.toNat_lt
  rw [UInt32.toNat_and]
  exact (Nat.and_two_pow_sub_one_eq_mod n.toNat 32).trans (Nat.mod_eq_of_lt hlt)

theorem upper32Bits_eq (n : UInt64) : (n >>> 32).toUInt32 = upper32Bits n := by
  apply UInt32.toNat_inj.mp
  simp only [upper32Bits, UInt64.toNat_toUInt32, UInt64.toNat_shiftRight,
    Nat.shiftRight_eq_div_pow, UInt64.reduceToNat, Nat.reduceMod, Nat.reducePow]
  omega

/-- The last four double words of the ioctl client's command for a buffer of the size are those of
the TCP client's command. -/
theorem getLogCmd_dwords (size : UInt32) (offset : UInt64) (lsp : UInt8) (cmdid : UInt16)
    (nsid : UInt32) :
    let admin := getLogCmd nsid 0x70 lsp offset 0 false size.toNat
    let bytes := ((discoveryLogPageCommand cmdid size offset nsid).withLsp lsp).record
    admin.cdw10 = dword bytes 10 ∧ admin.cdw11 = dword bytes 11 ∧ admin.cdw12 = dword bytes 12 ∧
      admin.cdw13 = dword bytes 13 := by
  intro admin bytes
  obtain ⟨h₁₀, h₁₁, h₁₂, h₁₃⟩ :=
    ((discoveryLogPageCommand cmdid size offset nsid).withLsp lsp).record_dwords
  have hnumd : UInt32.ofNat (size.toNat >>> 2) - 1 = nvmeBytesToNumd size := by
    rw [ofNat_shiftRight, nvmeBytesToNumd]
  have hlsi : (0 : UInt16).toUInt32 <<< 16 = 0 := by decide
  refine ⟨?_, ?_, ?_, ?_⟩
  · apply UInt32.toNat_inj.mp
    rw [h₁₀]
    simp only [admin, getLogCmd, hnumd, Bool.false_eq_true, if_false]
    exact cdw10_toNat (nvmeBytesToNumd size &&& 0xffff).toUInt16 lsp
  · rw [h₁₁]
    simp only [admin, getLogCmd, hnumd, hlsi, UInt32.or_zero]
    rfl
  · rw [h₁₂]
    exact and_allOnes offset.toUInt32
  · rw [h₁₃]
    exact upper32Bits_eq offset

/-- The retain bit is the highest bit of the log specific field. -/
theorem retain_clear_iff (nsid : UInt32) (lsp : UInt8) (offset : UInt64) (size : Nat) :
    (getLogCmd nsid 0x70 lsp offset 0 false size).cdw10.toNat.testBit 15 = false ↔ lsp < 0x80 := by
  simp only [getLogCmd, Bool.false_eq_true, if_false]
  rw [cdw10_toNat, Nat.testBit_eq_decide_div_mod_eq, decide_eq_false_iff_not, UInt8.lt_iff_toNat_lt]
  have hlsp := lsp.toNat_lt
  have hbound : (0x80 : UInt8).toNat = 128 := rfl
  rw [hbound]
  omega

/-- The length and the offset survive the TCP client's encoding, the length in whole double words;
and the ioctl client's command has the double words of the TCP client's. -/
theorem logPage_encodings_agree :
    (∀ size offset,
      (newNvmeGetDiscoveryLogPageRequest size offset).getLogPageOffset = offset ∧
      (newNvmeGetDiscoveryLogPageRequest size offset).getLogPageLen.toNat = size.toNat / 4 * 4) ∧
    ∀ (size : UInt32) (offset : UInt64) (lsp : UInt8) (cmdid : UInt16) (nsid : UInt32), 4 ≤ size →
      ∃ admin bytes common,
        (∀ f n, nvmeGetLog f n nsid logDisc.toUInt32 lsp offset 0 false size.toNat =
          (f.ioctl n admin size.toNat).mapError (.error ∘ .text)) ∧
        Struc.pack ((discoveryLogPageCommand cmdid size offset nsid).withLsp lsp).fields =
          some bytes ∧
        bytes.length = 64 ∧ CommonCommand.unpack bytes = some (common, []) ∧
        [admin.cdw10, admin.cdw11, admin.cdw12, admin.cdw13] =
          [dword bytes 10, dword bytes 11, dword bytes 12, dword bytes 13] ∧
        [admin.cdw10, admin.cdw11, admin.cdw12, admin.cdw13] =
          [common.cdw10, common.cdw11, common.cdw12, common.cdw13] ∧
        (admin.cdw10.toNat.testBit 15 = false ↔ lsp < 0x80) := by
  refine ⟨fun size offset => ⟨getLogPageOffset_new size offset, getLogPageLen_new size offset⟩, ?_⟩
  intro size offset lsp cmdid nsid hsize
  have hne : size.toNat ≠ 0 := by
    have hle : (4 : UInt32).toNat ≤ size.toNat := UInt32.le_iff_toNat_le.mp hsize
    have hfour : (4 : UInt32).toNat = 4 := rfl
    omega
  have hlid : logDisc.toUInt32 = 0x70 := by decide
  let cmd := (discoveryLogPageCommand cmdid size offset nsid).withLsp lsp
  obtain ⟨common, hunpack, c₁₀, c₁₁, c₁₂, c₁₃⟩ := CommonCommand.unpack_dwords cmd.record_length
  obtain ⟨h₁₀, h₁₁, h₁₂, h₁₃⟩ := getLogCmd_dwords size offset lsp cmdid nsid
  refine ⟨getLogCmd nsid 0x70 lsp offset 0 false size.toNat, cmd.record, common, ?_,
    cmd.pack_fields, cmd.record_length, hunpack, ?_, ?_, retain_clear_iff nsid lsp offset size.toNat⟩
  · intro f n
    rw [hlid]
    exact nvmeGetLog_eq hne f n nsid 0x70 lsp offset 0 false
  · rw [h₁₀, h₁₁, h₁₂, h₁₃]
  · rw [h₁₀, h₁₁, h₁₂, h₁₃, c₁₀, c₁₁, c₁₂, c₁₃]

/-- The header read: both clients leave the log specific field zero, and the retain bit is clear. -/
theorem logPage_encodings_agree_header : ∃ (admin : NvmeAdminCmd) (bytes : List UInt8),
    Struc.pack (discoveryLogPageCommand 1 1032 0 0).fields = some bytes ∧
    [admin.cdw10, admin.cdw11, admin.cdw12, admin.cdw13] =
      [dword bytes 10, dword bytes 11, dword bytes 12, dword bytes 13] ∧
    admin.cdw10.toNat.testBit 15 = false ∧
    ∀ f n, nvmeDiscoveryLog f n 1032 = (f.ioctl n admin 1032).mapError (.error ∘ .text) := by
  obtain ⟨admin, bytes, common, hget, hpack, -, -, hdwords, -, hretain⟩ :=
    logPage_encodings_agree.2 1032 0 nvmeNoLogLsp 1 0 (by decide)
  exact ⟨admin, bytes, hpack, hdwords, hretain.mpr (by decide), hget⟩

end DiscoveryClient
