import Mathlib.Algebra.Ring.Nat
import Mathlib.Data.List.DropRight

/-- A Go string: any sequence of bytes, valid UTF-8 or not. -/
abbrev GoString := List UInt8

namespace GoString

/-- The bytes of an ASCII literal. -/
def ascii (s : String) : GoString := s.toList.map fun c => c.toNat.toUInt8

/-- What holds for the values of all bytes holds for all bytes. -/
theorem forall_byte {p : UInt8 → Prop} (h : ∀ n < 256, p (UInt8.ofNat n)) (b : UInt8) : p b := by
  have hb := h b.toNat b.toNat_lt
  rwa [UInt8.ofNat_toNat] at hb

/-- Bytes `0x80` to `0xBF`, the ones that continue a rune. -/
def isTail (b : UInt8) : Bool := 0x80 ≤ b && b ≤ 0xBF

/-- The second bytes `unicode/utf8` accepts after a given first byte. -/
def isSecond (b0 b1 : UInt8) : Bool :=
  if b0 = 0xE0 then 0xA0 ≤ b1 && b1 ≤ 0xBF
  else if b0 = 0xED then 0x80 ≤ b1 && b1 ≤ 0x9F
  else if b0 = 0xF0 then 0x90 ≤ b1 && b1 ≤ 0xBF
  else if b0 = 0xF4 then 0x80 ≤ b1 && b1 ≤ 0x8F
  else isTail b1

/-- How many bytes `utf8.DecodeRune` takes: one byte where no valid rune starts. -/
def runeLen (s : GoString) : Nat :=
  -- Past the end a zero is read, which continues no rune.
  let b0 := s.getD 0 0
  let b1 := s.getD 1 0
  let b2 := s.getD 2 0
  let b3 := s.getD 3 0
  if 0xC2 ≤ b0 && b0 ≤ 0xDF && isTail b1 then 2
  else if 0xE0 ≤ b0 && b0 ≤ 0xEF && isSecond b0 b1 && isTail b2 then 3
  else if 0xF0 ≤ b0 && b0 ≤ 0xF4 && isSecond b0 b1 && isTail b2 && isTail b3 then 4
  else 1

def runesFuel : Nat → GoString → List GoString
  | 0, _ => []
  | _ + 1, [] => []
  | fuel + 1, b :: s =>
    (b :: s).take (runeLen (b :: s)) :: runesFuel fuel ((b :: s).drop (runeLen (b :: s)))

/-- The runes of a string as byte groups, in the order a `range` over it visits them. -/
def runes (s : GoString) : List GoString := runesFuel s.length s

/-- A single byte from `0x80` on is what the decoder reports as `utf8.RuneError`. -/
def validRune : GoString → Bool
  | [b] => b < 0x80
  | _ => true

/-- The code point of a byte group of `runes`; `0xFFFD` for an invalid byte. -/
def runeValue : GoString → Nat
  | [b] => if b < 0x80 then b.toNat else 0xFFFD
  | [b0, b1] => b0.toNat % 32 * 64 + b1.toNat % 64
  | [b0, b1, b2] => (b0.toNat % 16 * 64 + b1.toNat % 64) * 64 + b2.toNat % 64
  | [b0, b1, b2, b3] =>
    ((b0.toNat % 8 * 64 + b1.toNat % 64) * 64 + b2.toNat % 64) * 64 + b3.toNat % 64
  | _ => 0xFFFD

theorem one_le_runeLen (s : GoString) : 1 ≤ runeLen s := by
  simp only [runeLen]
  repeat' split
  all_goals omega

theorem runesFuel_flatten {fuel : Nat} {s : GoString} (h : s.length ≤ fuel) :
    (runesFuel fuel s).flatten = s := by
  induction fuel generalizing s with
  | zero =>
    have hs : s = [] := List.length_eq_zero_iff.mp (by omega)
    subst hs
    rfl
  | succ fuel ih =>
    cases s with
    | nil => rfl
    | cons b s =>
      have hlen := one_le_runeLen (b :: s)
      have hdrop : ((b :: s).drop (runeLen (b :: s))).length ≤ fuel := by
        simp only [List.length_drop, List.length_cons] at h ⊢
        omega
      simp only [runesFuel, List.flatten_cons, ih hdrop, List.take_append_drop]

theorem runes_flatten (s : GoString) : (runes s).flatten = s := runesFuel_flatten le_rfl

theorem runesFuel_ne_nil {fuel : Nat} {s r : GoString} (h : r ∈ runesFuel fuel s) : r ≠ [] := by
  induction fuel generalizing s with
  | zero => simp [runesFuel] at h
  | succ fuel ih =>
    cases s with
    | nil => simp [runesFuel] at h
    | cons b s =>
      rcases List.mem_cons.mp h with h | h
      · have hlen := one_le_runeLen (b :: s)
        intro hr
        rw [h, List.take_eq_nil_iff] at hr
        rcases hr with hr | hr
        · omega
        · simp at hr
      · exact ih h

/-- `unicode.IsSpace`. -/
def isSpace (c : Nat) : Bool :=
  (9 ≤ c && c ≤ 13) || c == 0x20 || c == 0x85 || c == 0xA0 || c == 0x1680 ||
    (0x2000 ≤ c && c ≤ 0x200A) || c == 0x2028 || c == 0x2029 || c == 0x202F || c == 0x205F ||
    c == 0x3000

/-- `strings.TrimSpace`. -/
def trimSpace (s : GoString) : GoString :=
  (((runes s).dropWhile fun r => isSpace (runeValue r)).rdropWhile
    fun r => isSpace (runeValue r)).flatten

/-- `strings.FieldsFunc`: the non-empty stretches between the runes that satisfy `f`. -/
def fieldsFunc (f : Nat → Bool) (s : GoString) : List GoString :=
  (((runes s).splitOnP fun r => f (runeValue r)).filter (· ≠ [])).map List.flatten

/-- `strings.TrimRight` with the cutset of one NUL. -/
def trimRightNul (s : GoString) : GoString := s.rdropWhile (· == 0)

theorem trimRightNul_zeros (s : GoString) (n : Nat) :
    trimRightNul (s ++ List.replicate n 0) = trimRightNul s := by
  induction n with
  | zero => rw [List.replicate_zero, List.append_nil]
  | succ n ih =>
    rw [List.replicate_succ', ← List.append_assoc, trimRightNul,
      List.rdropWhile_concat_pos _ _ _ rfl]
    exact ih

/-- A non-empty string of decimal digits. -/
def parseDigits (s : GoString) : Option Nat :=
  if s.isEmpty then none
  else s.foldl (fun n b => n.bind fun n =>
    if 0x30 ≤ b && b ≤ 0x39 then some (10 * n + (b.toNat - 0x30)) else none) (some 0)

/-- `strconv.ParseInt` in base 10; `none` is either of its errors. -/
def parseInt (bits : Nat) : GoString → Option Int
  | [] => none
  | b :: s =>
    if b = 0x2D then
      (parseDigits s).bind fun n => if n ≤ 2 ^ (bits - 1) then some (-(n : Int)) else none
    else
      (parseDigits (if b = 0x2B then s else b :: s)).bind fun n =>
        if n < 2 ^ (bits - 1) then some (n : Int) else none

/-- `strconv.Atoi` on a 64-bit platform. -/
def atoi (s : GoString) : Option Int := parseInt 64 s

/-- `utf8.ValidString`. -/
def validString (s : GoString) : Bool := (runes s).all validRune

/-- What a string is after `json.Marshal` and `json.Unmarshal`: every byte that is not part of
valid UTF-8 has become the replacement rune. -/
def throughJson (s : GoString) : GoString :=
  ((runes s).map fun r => if validRune r then r else [0xEF, 0xBF, 0xBD]).flatten

theorem throughJson_of_valid {s : GoString} (h : validString s = true) : throughJson s = s := by
  have hmap : ((runes s).map fun r => if validRune r then r else [0xEF, 0xBF, 0xBD]) = runes s := by
    have hid : ∀ r ∈ runes s, (if validRune r then r else [0xEF, 0xBF, 0xBD]) = id r := by
      intro r hr
      simp [List.all_eq_true.mp h r hr]
    rw [List.map_congr_left hid, List.map_id]
  rw [throughJson, hmap, runes_flatten]

theorem throughJson_eq_nil_iff {s : GoString} : throughJson s = [] ↔ s = [] := by
  constructor
  · intro h
    have hr : runes s = [] := by
      by_contra hne
      obtain ⟨r, t, hrt⟩ := List.exists_cons_of_ne_nil hne
      have hr : r ≠ [] := runesFuel_ne_nil (show r ∈ runesFuel s.length s from by
        change r ∈ runes s
        simp [hrt])
      simp only [throughJson, hrt, List.map_cons, List.flatten_cons, List.append_eq_nil_iff] at h
      have h1 := h.1
      split at h1
      · exact hr h1
      · simp at h1
    simpa [hr] using (runes_flatten s).symm
  · rintro rfl
    rfl

end GoString
