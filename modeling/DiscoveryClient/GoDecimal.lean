import Mathlib.Algebra.Ring.Int.Defs
import DiscoveryClient.GoFields
import DiscoveryClient.NvmeConnect

namespace DiscoveryClient

open GoString

theorem decimal_of_lt {n : Nat} (h : n < 10) : decimal n = [(48 + n).toUInt8] := by
  rw [decimal, Nat.toDigits_of_lt_base h, List.map_singleton, Nat.toNat_digitChar_of_lt_ten h]

theorem decimal_of_le {n : Nat} (h : 10 ≤ n) :
    decimal n = decimal (n / 10) ++ [(48 + n % 10).toUInt8] := by
  rw [decimal, Nat.toDigits_of_base_le (by omega) h, List.map_append, List.map_singleton,
    Nat.toNat_digitChar_of_lt_ten (Nat.mod_lt n (by omega))]
  rfl

theorem digit_toNat {d : Nat} (h : d < 10) : (48 + d).toUInt8.toNat = 48 + d := by
  rw [Nat.toUInt8, UInt8.toNat_ofNat']
  omega

/-- One step of `parseDigits`. -/
def digitStep (n : Option Nat) (b : UInt8) : Option Nat :=
  n.bind fun n => if 0x30 ≤ b && b ≤ 0x39 then some (10 * n + (b.toNat - 0x30)) else none

theorem digitStep_digit (n : Nat) {d : Nat} (h : d < 10) :
    digitStep (some n) (48 + d).toUInt8 = some (10 * n + d) := by
  have hd := digit_toNat h
  have hin : (0x30 ≤ (48 + d).toUInt8 && (48 + d).toUInt8 ≤ 0x39) = true := by
    simp only [Bool.and_eq_true, decide_eq_true_eq, UInt8.le_iff_toNat_le, UInt8.reduceToNat, hd]
    omega
  simp only [digitStep, Option.bind_some, hin, if_true, hd]
  congr 1
  omega

theorem foldl_digitStep_decimal (n : Nat) : (decimal n).foldl digitStep (some 0) = some n := by
  induction n using Nat.strong_induction_on with
  | _ n ih =>
    by_cases h : n < 10
    · rw [decimal_of_lt h, List.foldl_cons, digitStep_digit 0 h, List.foldl_nil]
      congr 1
      omega
    · rw [decimal_of_le (by omega), List.foldl_append, ih (n / 10) (by omega), List.foldl_cons,
        digitStep_digit _ (Nat.mod_lt n (by omega)), List.foldl_nil]
      congr 1
      omega

theorem parseDigits_decimal (n : Nat) : parseDigits (decimal n) = some n := by
  have hne := decimal_ne_nil n
  rw [parseDigits, if_neg (by simpa using hne)]
  exact foldl_digitStep_decimal n

theorem mem_decimal {n : Nat} {b : UInt8} (h : b ∈ decimal n) :
    48 ≤ b.toNat ∧ b.toNat ≤ 57 := by
  induction n using Nat.strong_induction_on with
  | _ n ih =>
    by_cases hlt : n < 10
    · rw [decimal_of_lt hlt, List.mem_singleton] at h
      rw [h, digit_toNat hlt]
      omega
    · rw [decimal_of_le (by omega), List.mem_append, List.mem_singleton] at h
      rcases h with h | h
      · exact ih (n / 10) (by omega) h
      · rw [h, digit_toNat (Nat.mod_lt n (by omega))]
        omega

theorem parseInt_decimal {bits n : Nat} (h : n < 2 ^ (bits - 1)) :
    parseInt bits (decimal n) = some (n : Int) := by
  have hparse := parseDigits_decimal n
  obtain ⟨b, s, hs⟩ := List.exists_cons_of_ne_nil (decimal_ne_nil n)
  have hb := mem_decimal (hs ▸ List.mem_cons_self : b ∈ decimal n)
  have hminus : b ≠ 0x2D := by
    rintro rfl
    simp at hb
  have hplus : b ≠ 0x2B := by
    rintro rfl
    simp at hb
  rw [hs] at hparse ⊢
  simp [parseInt, hminus, hplus, hparse, h]

/-- What `%d` prints, `strconv.ParseInt` reads. -/
theorem parseInt_formatInt {bits : Nat} {n : Int} (hlo : -2 ^ (bits - 1) ≤ n)
    (hhi : n < 2 ^ (bits - 1)) : parseInt bits (formatInt n) = some n := by
  have hcast : ((2 ^ (bits - 1) : Nat) : Int) = 2 ^ (bits - 1) := by push_cast; rfl
  unfold formatInt
  split
  next hneg =>
    have hle : n.natAbs ≤ 2 ^ (bits - 1) := by
      rw [← hcast] at hlo
      generalize 2 ^ (bits - 1) = bound at hlo ⊢
      omega
    change parseInt bits (0x2D :: decimal n.natAbs) = some n
    simp only [parseInt, if_true, parseDigits_decimal, Option.bind_some, hle]
    congr 1
    omega
  next hpos =>
    have hlt : n.natAbs < 2 ^ (bits - 1) := by
      rw [← hcast] at hhi
      generalize 2 ^ (bits - 1) = bound at hhi ⊢
      omega
    rw [parseInt_decimal hlt]
    congr 1
    omega

theorem mem_formatInt {n : Int} {b : UInt8} (h : b ∈ formatInt n) :
    45 ≤ b.toNat ∧ b.toNat ≤ 57 := by
  unfold formatInt at h
  split at h
  next =>
    rcases List.mem_append.mp h with h | h
    · have hb : b = 0x2D := by simpa [ascii] using h
      subst hb
      decide
    · have hb := mem_decimal h
      omega
  next =>
    have hb := mem_decimal h
    omega

theorem formatInt_ne_nil (n : Int) : formatInt n ≠ [] := by
  unfold formatInt
  split
  · simp [ascii]
  · exact decimal_ne_nil _

/-- No number starts with the sign of another. -/
theorem minus_ne_decimal (m n : Nat) : ascii "-" ++ decimal m ≠ decimal n := by
  intro h
  have hmem : (0x2D : UInt8) ∈ decimal n := by
    rw [← h]
    exact List.mem_append_left _ (by decide)
  have hb := mem_decimal hmem
  simp at hb

theorem formatInt_inj {m n : Int} (h : formatInt m = formatInt n) : m = n := by
  unfold formatInt at h
  split at h
  next hm =>
    split at h
    next hn =>
      have habs := decimal_inj (List.append_cancel_left h)
      omega
    next => exact absurd h (minus_ne_decimal _ _)
  next hm =>
    split at h
    next => exact absurd h.symm (minus_ne_decimal _ _)
    next hn =>
      have habs := decimal_inj h
      omega

end DiscoveryClient
