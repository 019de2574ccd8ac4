import DiscoveryClient.GoIP
import Mathlib.Data.List.GetD

/-! Package `encoding/hex` and the parser of package `uuid`. Both read pairs of hexadecimal digits;
they differ in what they make of the bytes between and around them. -/

namespace GoHex

open GoString GoIP

/-- The byte that two digits stand for. -/
def hexByte (p q : UInt8) : UInt8 := .ofNat (16 * hexValue p + hexValue q)

inductive Error
  | invalidByte (b : UInt8)
  | length
deriving DecidableEq, Repr

/-- `hex.DecodeString`: with an error it returns what it has decoded before it. -/
def decodeString : GoString → List UInt8 × Option Error
  | [] => ([], none)
  | [p] => ([], some (if isHexDigit p then .length else .invalidByte p))
  | p :: q :: s =>
    if !isHexDigit p then ([], some (.invalidByte p))
    else if !isHexDigit q then ([], some (.invalidByte q))
    else (hexByte p q :: (decodeString s).1, (decodeString s).2)

/-- The digits spell the bytes, two for each. -/
inductive Spells : GoString → List UInt8 → Prop
  | nil : Spells [] []
  | cons {p q : UInt8} {digits : GoString} {bytes : List UInt8} (hp : isHexDigit p = true)
      (hq : isHexDigit q = true) (rest : Spells digits bytes) :
      Spells (p :: q :: digits) (hexByte p q :: bytes)

section Spells

variable {digits digits' : GoString} {bytes bytes' : List UInt8}

theorem Spells.append (h : Spells digits bytes) (h' : Spells digits' bytes') :
    Spells (digits ++ digits') (bytes ++ bytes') := by
  induction h with
  | nil => exact h'
  | cons hp hq rest ih => exact .cons hp hq ih

theorem Spells.length_eq (h : Spells digits bytes) : digits.length = 2 * bytes.length := by
  induction h with
  | nil => rfl
  | cons hp hq rest ih =>
    simp only [List.length_cons, ih]
    omega

theorem Spells.isHexDigit (h : Spells digits bytes) : ∀ b ∈ digits, GoIP.isHexDigit b = true := by
  induction h with
  | nil => exact fun b hb => absurd hb List.not_mem_nil
  | cons hp hq rest ih => exact List.forall_mem_cons.mpr ⟨hp, List.forall_mem_cons.mpr ⟨hq, ih⟩⟩

/-- Digits are decoded whatever follows them. -/
theorem Spells.decodeString_append (h : Spells digits bytes) (s : GoString) :
    (decodeString (digits ++ s)).1 = bytes ++ (decodeString s).1 := by
  induction h with
  | nil => rfl
  | cons hp hq rest ih => simp [decodeString, hp, hq, ih]

theorem decodeString_cons_of_not_digit {b : UInt8} (hb : isHexDigit b = false) (s : GoString) :
    (decodeString (b :: s)).1 = [] := by
  cases s with
  | nil => rfl
  | cons q s => simp [decodeString, hb]

theorem hexValue_lt {b : UInt8} (h : isHexDigit b = true) : hexValue b < 16 := by
  have hall : ∀ b, isHexDigit b = true → hexValue b < 16 := forall_byte (by decide +kernel)
  exact hall b h

theorem hexByte_inj {p q p' q' : UInt8} (hp : isHexDigit p = true) (hq : isHexDigit q = true)
    (hp' : isHexDigit p' = true) (hq' : isHexDigit q' = true) :
    hexByte p q = hexByte p' q' ↔ hexValue p = hexValue p' ∧ hexValue q = hexValue q' := by
  have h₁ := hexValue_lt hp
  have h₂ := hexValue_lt hq
  have h₃ := hexValue_lt hp'
  have h₄ := hexValue_lt hq'
  rw [← UInt8.toNat_inj, hexByte, hexByte, UInt8.toNat_ofNat', UInt8.toNat_ofNat']
  omega

/-- One digit too many in front moves every pair: the bytes stay the same only if all digits are
worth the same. -/
theorem Spells.decodeString_shifted (h : Spells digits bytes) {b : UInt8}
    (hb : GoIP.isHexDigit b = true) (s : GoString) :
    ∃ shifted last, GoIP.isHexDigit last = true ∧ shifted.length = bytes.length ∧
      (decodeString (b :: (digits ++ s))).1 = shifted ++ (decodeString (last :: s)).1 ∧
      (shifted = bytes ↔ bytes = List.replicate bytes.length (hexByte b b)) := by
  induction h generalizing b with
  | nil => exact ⟨[], b, hb, rfl, rfl, by simp⟩
  | cons hp hq rest ih =>
    rename_i p q digits bytes
    obtain ⟨shifted, last, hlast, hlen, hdecode, hsame⟩ := ih hq
    refine ⟨hexByte b p :: shifted, last, hlast, by simp [hlen], ?_, ?_⟩
    · simp only [List.cons_append, decodeString, hb, hp, Bool.not_true, Bool.false_eq_true, if_false]
      exact congrArg _ hdecode
    · rw [List.cons.injEq, hsame, List.length_cons, List.replicate_succ, List.cons.injEq,
        hexByte_inj hb hp hp hq, hexByte_inj hp hq hb hb]
      -- the digits of the first byte decide which byte is repeated
      constructor
      · rintro ⟨⟨hbp, hpq⟩, hbytes⟩
        refine ⟨⟨hbp.symm, (hbp.trans hpq).symm⟩, ?_⟩
        have hbyte : hexByte q q = hexByte b b := by rw [hexByte, hexByte, hbp, hpq]
        rwa [hbyte] at hbytes
      · rintro ⟨⟨hpb, hqb⟩, hbytes⟩
        refine ⟨⟨hpb.symm, hpb.trans hqb.symm⟩, ?_⟩
        have hbyte : hexByte q q = hexByte b b := by rw [hexByte, hexByte, hqb]
        rwa [hbyte]

end Spells

end GoHex

namespace GoUuid

open GoString GoIP GoHex

/-- `xtob`. -/
def xtob (x1 x2 : UInt8) : Option UInt8 :=
  if isHexDigit x1 && isHexDigit x2 then some (hexByte x1 x2) else none

inductive Error
  | length (len : Nat)
  | urn (s : GoString)
  | format
deriving DecidableEq, Repr

/-- The loop over the offsets at which pairs of digits are read. -/
def bytesAt (s : GoString) : List Nat → Except Error (List UInt8)
  | [] => .ok []
  | x :: offsets =>
    match xtob (s.getD x 0) (s.getD (x + 1) 0) with
    | none => .error .format
    | some v => (bytesAt s offsets).map (v :: ·)

/-- The end of `Parse`, for a text of 36 bytes or more. -/
def parseDashed (s : GoString) : Except Error (List UInt8) :=
  if s.getD 8 0 ≠ 0x2D ∨ s.getD 13 0 ≠ 0x2D ∨ s.getD 18 0 ≠ 0x2D ∨ s.getD 23 0 ≠ 0x2D then
    .error .format
  else bytesAt s [0, 2, 4, 6, 9, 11, 14, 16, 19, 21, 24, 26, 28, 30, 32, 34]

/-- `strings.ToLower` on bytes. A longer rune that lowers to a letter makes the text shorter, so for
nine bytes to become these nine, each of them must. -/
def toLower (b : UInt8) : UInt8 := if 0x41 ≤ b && b ≤ 0x5A then b + 0x20 else b

def urnPrefix : GoString := ascii "urn:uuid:"

/-- `uuid.Parse`. -/
def parse (s : GoString) : Except Error (List UInt8) :=
  if s.length = 36 then parseDashed s
  else if s.length = 36 + 9 then
    if (s.take 9).map toLower ≠ urnPrefix then .error (.urn (s.take 9)) else parseDashed (s.drop 9)
  -- neither of the braces is looked at
  else if s.length = 36 + 2 then parseDashed (s.drop 1)
  else if s.length = 32 then bytesAt s (List.range' 0 16 2)
  else .error (.length s.length)

/-- Digits that spell the bytes, in groups with a dash between them. -/
inductive Groups : List UInt8 → GoString → Prop
  | last {bytes : List UInt8} {digits : GoString} (h : Spells digits bytes) : Groups bytes digits
  | dash {bytes bytes' : List UInt8} {digits s : GoString} (h : Spells digits bytes)
      (rest : Groups bytes' s) : Groups (bytes ++ bytes') (digits ++ 0x2D :: s)

/-- The texts of a UUID that `Parse` takes. -/
inductive Accepted (bytes : List UInt8) : GoString → Prop
  | raw {s : GoString} (spells : Spells s bytes) : Accepted bytes s
  | dashed {s : GoString} (length_eq : s.length = 36) (h : Groups bytes s) : Accepted bytes s
  | urn {front s : GoString} (hfront : front.map toLower = urnPrefix) (length_eq : s.length = 36)
      (h : Groups bytes s) :
      Accepted bytes (front ++ s)
  | braced (first last : UInt8) {s : GoString} (length_eq : s.length = 36) (h : Groups bytes s) :
      Accepted bytes (first :: (s ++ [last]))

theorem bytesAt_append {s : GoString} {xs ys : List Nat} {bytes : List UInt8}
    (h : bytesAt s (xs ++ ys) = .ok bytes) :
    ∃ front back, bytesAt s xs = .ok front ∧ bytesAt s ys = .ok back ∧ bytes = front ++ back := by
  induction xs generalizing bytes with
  | nil => exact ⟨[], bytes, rfl, h, rfl⟩
  | cons x xs ih =>
    rw [List.cons_append, bytesAt] at h
    cases hv : xtob (s.getD x 0) (s.getD (x + 1) 0) with
    | none =>
      rw [hv] at h
      cases h
    | some v =>
      rw [hv] at h
      cases hrest : bytesAt s (xs ++ ys) with
      | error err =>
        simp only [hrest] at h
        cases h
      | ok rest =>
        simp only [hrest] at h
        cases Except.ok.inj h
        obtain ⟨front, back, hfront, hback, rfl⟩ := ih hrest
        exact ⟨v :: front, back, by simp only [bytesAt, hv, hfront]; rfl, hback, rfl⟩

/-- Offsets two apart read a stretch of digits. -/
theorem spells_of_bytesAt {s : GoString} {start count : Nat} {bytes : List UInt8}
    (hlen : start + 2 * count ≤ s.length) (h : bytesAt s (List.range' start count 2) = .ok bytes) :
    Spells ((s.drop start).take (2 * count)) bytes ∧ bytes.length = count := by
  induction count generalizing start bytes with
  | zero =>
    cases Except.ok.inj h
    exact ⟨.nil, rfl⟩
  | succ count ih =>
    rw [List.range'_succ, bytesAt] at h
    cases hv : xtob (s.getD start 0) (s.getD (start + 1) 0) with
    | none =>
      rw [hv] at h
      cases h
    | some v =>
      cases hrest : bytesAt s (List.range' (start + 2) count 2) with
      | error err =>
        simp only [hv, hrest] at h
        cases h
      | ok rest =>
        simp only [hv, hrest] at h
        cases Except.ok.inj h
        obtain ⟨hspells, hcount⟩ := ih (by omega) hrest
        have hsplit : (s.drop start).take (2 * (count + 1)) =
            s.getD start 0 :: s.getD (start + 1) 0 :: (s.drop (start + 2)).take (2 * count) := by
          have h₀ : start < s.length := by omega
          have h₁ : start + 1 < s.length := by omega
          rw [List.drop_eq_getElem_cons h₀, List.drop_eq_getElem_cons h₁,
            List.getD_eq_getElem _ _ h₀, List.getD_eq_getElem _ _ h₁]
          rfl
        rw [xtob] at hv
        split at hv
        next hdigits =>
          cases Option.some.inj hv
          rw [Bool.and_eq_true] at hdigits
          rw [hsplit]
          exact ⟨.cons hdigits.1 hdigits.2 hspells, by rw [List.length_cons, hcount]⟩
        next => cases hv

/-- A stretch of the text up to the next dash. -/
theorem drop_eq_take_dash {s : GoString} {start count : Nat} (hlen : start + count < s.length)
    (h : s.getD (start + count) 0 = 0x2D) :
    s.drop start = (s.drop start).take count ++ 0x2D :: s.drop (start + count + 1) := by
  rw [List.getD_eq_getElem _ _ hlen] at h
  rw [← h, ← List.drop_eq_getElem_cons hlen, ← List.drop_drop, List.take_append_drop]

theorem filter_dash_of_spells {digits : GoString} {bytes : List UInt8} (h : Spells digits bytes) :
    digits.filter (· != 0x2D) = digits := by
  apply List.filter_eq_self.mpr
  intro b hb
  have hdigit := h.isHexDigit b hb
  have hdash : isHexDigit 0x2D = false := rfl
  rw [bne_iff_ne]
  rintro rfl
  rw [hdash] at hdigit
  cases hdigit

theorem Groups.spells {bytes : List UInt8} {s : GoString} (h : Groups bytes s) :
    Spells (s.filter (· != 0x2D)) bytes := by
  induction h with
  | last h => rwa [filter_dash_of_spells h]
  | dash h rest ih =>
    rw [List.filter_append, filter_dash_of_spells h]
    exact h.append ih

theorem Groups.digit_or_dash {bytes : List UInt8} {s : GoString} (h : Groups bytes s) :
    ∀ b ∈ s, isHexDigit b = true ∨ b = 0x2D := by
  induction h with
  | last h => exact fun b hb => Or.inl (h.isHexDigit b hb)
  | dash h rest ih =>
    intro b hb
    rcases List.mem_append.mp hb with hb | hb
    · exact Or.inl (h.isHexDigit b hb)
    · rcases List.mem_cons.mp hb with hb | hb
      · exact Or.inr hb
      · exact ih b hb

/-- The first 36 bytes are what is parsed. -/
theorem groups_of_parseDashed {s : GoString} {bytes : List UInt8} (hlen : 36 ≤ s.length)
    (h : parseDashed s = .ok bytes) :
    ∃ parsed, s = parsed ++ s.drop 36 ∧ Groups bytes parsed ∧ bytes.length = 16 := by
  unfold parseDashed at h
  split at h
  next => cases h
  next hdashes =>
    simp only [not_or, ne_eq, not_not] at hdashes
    obtain ⟨h₈, h₁₃, h₁₈, h₂₃⟩ := hdashes
    have hoffsets : [0, 2, 4, 6, 9, 11, 14, 16, 19, 21, 24, 26, 28, 30, 32, 34] =
        List.range' 0 4 2 ++ (List.range' 9 2 2 ++ (List.range' 14 2 2 ++ (List.range' 19 2 2 ++
          List.range' 24 6 2))) := rfl
    rw [hoffsets] at h
    obtain ⟨b₁, r₁, e₁, h₁, rfl⟩ := bytesAt_append h
    obtain ⟨b₂, r₂, e₂, h₂, rfl⟩ := bytesAt_append h₁
    obtain ⟨b₃, r₃, e₃, h₃, rfl⟩ := bytesAt_append h₂
    obtain ⟨b₄, b₅, e₄, e₅, rfl⟩ := bytesAt_append h₃
    obtain ⟨s₁, l₁⟩ := spells_of_bytesAt (by omega) e₁
    obtain ⟨s₂, l₂⟩ := spells_of_bytesAt (by omega) e₂
    obtain ⟨s₃, l₃⟩ := spells_of_bytesAt (by omega) e₃
    obtain ⟨s₄, l₄⟩ := spells_of_bytesAt (by omega) e₄
    obtain ⟨s₅, l₅⟩ := spells_of_bytesAt (by omega) e₅
    have d₁ := @drop_eq_take_dash s 0 8 (by omega) h₈
    have d₂ := @drop_eq_take_dash s 9 4 (by omega) h₁₃
    have d₃ := @drop_eq_take_dash s 14 4 (by omega) h₁₈
    have d₄ := @drop_eq_take_dash s 19 4 (by omega) h₂₃
    have d₅ := (List.take_append_drop 12 (s.drop 24)).symm
    rw [List.drop_zero] at d₁ s₁
    rw [List.drop_drop] at d₅
    refine ⟨_, ?_, .dash s₁ (.dash s₂ (.dash s₃ (.dash s₄ (.last s₅)))), ?_⟩
    · simp only [List.append_assoc, List.cons_append]
      calc s = s.take 8 ++ 0x2D :: s.drop 9 := d₁
        _ = s.take 8 ++ 0x2D :: ((s.drop 9).take 4 ++ 0x2D :: s.drop 14) := by rw [← d₂]
        _ = s.take 8 ++ 0x2D :: ((s.drop 9).take 4 ++ 0x2D :: ((s.drop 14).take 4 ++
            0x2D :: s.drop 19)) := by rw [← d₃]
        _ = s.take 8 ++ 0x2D :: ((s.drop 9).take 4 ++ 0x2D :: ((s.drop 14).take 4 ++
            0x2D :: ((s.drop 19).take 4 ++ 0x2D :: s.drop 24))) := by rw [← d₄]
        _ = s.take 8 ++ 0x2D :: ((s.drop 9).take 4 ++ 0x2D :: ((s.drop 14).take 4 ++
            0x2D :: ((s.drop 19).take 4 ++ 0x2D :: ((s.drop 24).take 12 ++ s.drop 36)))) := by
          rw [← d₅]
    · simp only [List.length_append, l₁, l₂, l₃, l₄, l₅]

theorem accepted_of_parse {s : GoString} {bytes : List UInt8} (h : parse s = .ok bytes) :
    Accepted bytes s ∧ bytes.length = 16 := by
  unfold parse at h
  split_ifs at h with h₃₆ h₄₅ hurn h₃₈ h₃₂
  · obtain ⟨parsed, hs, hgroups, hlen⟩ := groups_of_parseDashed (by omega) h
    rw [List.drop_eq_nil_of_le h₃₆.le, List.append_nil] at hs
    exact ⟨.dashed h₃₆ (hs ▸ hgroups), hlen⟩
  · obtain ⟨parsed, hs, hgroups, hlen⟩ := groups_of_parseDashed (by rw [List.length_drop]; omega) h
    have hnil : (s.drop 9).drop 36 = [] := List.drop_eq_nil_of_le (by rw [List.length_drop]; omega)
    rw [hnil, List.append_nil] at hs
    have hparsed : parsed.length = 36 := by
      rw [← hs, List.length_drop]
      omega
    have haccepted := Accepted.urn (not_not.mp hurn) hparsed hgroups
    rw [← hs, List.take_append_drop] at haccepted
    exact ⟨haccepted, hlen⟩
  · obtain ⟨parsed, hs, hgroups, hlen⟩ := groups_of_parseDashed (by rw [List.length_drop]; omega) h
    cases s with
    | nil => cases h₃₈
    | cons first rest =>
      rw [List.drop_one, List.tail_cons] at hs
      have hlast : (rest.drop 36).length = 1 := by
        rw [List.length_drop]
        rw [List.length_cons] at h₃₈
        omega
      obtain ⟨last, hlast⟩ := List.length_eq_one_iff.mp hlast
      rw [hlast] at hs
      have hparsed : parsed.length = 36 := by
        have hcount := congrArg List.length hs
        rw [List.length_append, List.length_singleton] at hcount
        rw [List.length_cons] at h₃₈
        omega
      rw [hs]
      exact ⟨.braced first last hparsed hgroups, hlen⟩
  · obtain ⟨hspells, hlen⟩ := spells_of_bytesAt (by omega) h
    rw [List.drop_zero, List.take_of_length_le (by omega)] at hspells
    exact ⟨.raw hspells, hlen⟩

end GoUuid
