import Mathlib.Algebra.Ring.Nat

namespace DiscoveryClient

/-- The part of `nvme.GetLogPageCommand` that says which bytes of the log page are asked for. -/
structure GetLogPageCommand where
  numDl : UInt16
  numDu : UInt16
  lpol : UInt32
  lpou : UInt32
deriving DecidableEq, Repr

def nvmeBytesToNumd (len : UInt32) : UInt32 := (len >>> 2) - 1

def lower32Bits (n : UInt64) : UInt32 := n.toUInt32

def upper32Bits (n : UInt64) : UInt32 := ((n >>> 16) >>> 16).toUInt32

def newNvmeGetDiscoveryLogPageRequest (size : UInt32) (offset : UInt64) : GetLogPageCommand :=
  let dwlen := nvmeBytesToNumd size
  { lpol := lower32Bits offset
    lpou := upper32Bits offset
    numDl := (dwlen &&& 0xffff).toUInt16
    numDu := (dwlen >>> 16).toUInt16 }

namespace GetLogPageCommand

def getLogPageLen (cmd : GetLogPageCommand) : UInt32 :=
  ((cmd.numDu.toUInt32 <<< 16) + cmd.numDl.toUInt32 + 1) * 4

def getLogPageOffset (cmd : GetLogPageCommand) : UInt64 :=
  (cmd.lpou.toUInt64 <<< 32) + cmd.lpol.toUInt64

end GetLogPageCommand

theorem nvmeBytesToNumd_toNat (len : UInt32) :
    (nvmeBytesToNumd len).toNat = (len.toNat / 4 + (2 ^ 32 - 1)) % 2 ^ 32 := by
  have hshift : (len >>> 2).toNat = len.toNat / 4 := by
    rw [UInt32.toNat_shiftRight]
    simp [Nat.shiftRight_eq_div_pow]
  rw [nvmeBytesToNumd, UInt32.toNat_sub, hshift]
  have hone : (1 : UInt32).toNat = 1 := rfl
  rw [hone]
  omega

/-- The command carries the length rounded down to whole double words. -/
theorem getLogPageLen_new (size : UInt32) (offset : UInt64) :
    (newNvmeGetDiscoveryLogPageRequest size offset).getLogPageLen.toNat = size.toNat / 4 * 4 := by
  have hlt := size.toNat_lt
  have hdw := nvmeBytesToNumd_toNat size
  have hdl : (nvmeBytesToNumd size &&& 0xffff).toNat =
      (nvmeBytesToNumd size).toNat % 2 ^ 16 := by
    rw [UInt32.toNat_and]
    exact Nat.and_two_pow_sub_one_eq_mod _ 16
  simp only [newNvmeGetDiscoveryLogPageRequest, GetLogPageCommand.getLogPageLen, UInt32.toNat_mul,
    UInt32.toNat_add, UInt32.toNat_shiftLeft, UInt32.toNat_shiftRight, UInt16.toNat_toUInt32,
    UInt32.toNat_toUInt16, hdl, Nat.shiftLeft_eq, Nat.shiftRight_eq_div_pow, UInt32.reduceToNat,
    Nat.reduceMod, Nat.reducePow]
  omega

theorem getLogPageOffset_new (size : UInt32) (offset : UInt64) :
    (newNvmeGetDiscoveryLogPageRequest size offset).getLogPageOffset = offset := by
  apply UInt64.toNat_inj.mp
  have hlt := offset.toNat_lt
  simp only [newNvmeGetDiscoveryLogPageRequest, GetLogPageCommand.getLogPageOffset, upper32Bits,
    lower32Bits, UInt64.toNat_add, UInt64.toNat_shiftLeft, UInt64.toNat_shiftRight,
    UInt32.toNat_toUInt64, UInt64.toNat_toUInt32, Nat.shiftLeft_eq, Nat.shiftRight_eq_div_pow,
    UInt64.reduceToNat, Nat.reduceMod, Nat.reducePow]
  omega

end DiscoveryClient
