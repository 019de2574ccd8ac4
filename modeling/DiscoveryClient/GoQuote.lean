import DiscoveryClient.GoString

namespace GoString

/-- `lowerhex[n]`. -/
def hexDigit (n : Nat) : UInt8 := (ascii "0123456789abcdef").getD n 0

/-- The last `width` hexadecimal digits of a number. -/
def hexDigits : Nat → Nat → GoString
  | 0, _ => []
  | width + 1, n => hexDigits width (n / 16) ++ [hexDigit (n % 16)]

/-- `strconv.IsPrint`; `tables` decides beyond Latin-1. -/
def isPrint (tables : Nat → Bool) (c : Nat) : Bool :=
  if c ≤ 0xFF then (0x20 ≤ c && c < 0x7F) || (0xA1 ≤ c && c != 0xAD) else tables c

/-- What `strconv.Quote` writes for one rune: its bytes, a backslash with one letter, or a backslash
with a tag and that many digits. -/
inductive Escape
  | raw (r : GoString)
  | short (letter : UInt8)
  | hex (tag : UInt8) (width value : Nat)

def Escape.text : Escape → GoString
  | .raw r => r
  | .short letter => [0x5C, letter]
  | .hex tag width value => 0x5C :: tag :: hexDigits width value

def controlLetter : Nat → Option UInt8
  | 7 => some 0x61
  | 8 => some 0x62
  | 9 => some 0x74
  | 10 => some 0x6E
  | 11 => some 0x76
  | 12 => some 0x66
  | 13 => some 0x72
  | _ => none

/-- The body of the loop of `strconv.appendQuotedWith`, with `appendEscapedRune`, on a byte group of
`runes`. -/
def escape (tables : Nat → Bool) (r : GoString) : Escape :=
  if validRune r then
    if r = [0x22] ∨ r = [0x5C] then .short (r.headD 0)
    else if isPrint tables (runeValue r) then .raw r
    else
      match controlLetter (runeValue r) with
      | some letter => .short letter
      | none =>
        if runeValue r < 0x20 ∨ runeValue r = 0x7F then .hex 0x78 2 (runeValue r)
        else if runeValue r < 0x10000 then .hex 0x75 4 (runeValue r)
        else .hex 0x55 8 (runeValue r)
  else .hex 0x78 2 (r.headD 0).toNat

/-- A string printed with `%q`. -/
def quote (tables : Nat → Bool) (s : GoString) : GoString :=
  0x22 :: ((runes s).flatMap fun r => (escape tables r).text) ++ [0x22]

example : quote (fun _ => false) (ascii "a\"b\n") = ascii "\"a\\\"b\\n\"" := by decide

theorem isTail_iff {b : UInt8} : isTail b = true ↔ 128 ≤ b.toNat ∧ b.toNat ≤ 191 := by
  simp [isTail, UInt8.le_iff_toNat_le]

theorem isSecond_bounds {b0 b1 : UInt8} (h : isSecond b0 b1 = true) :
    128 ≤ b1.toNat ∧ b1.toNat ≤ 191 ∧ (b0.toNat = 0xE0 → 0xA0 ≤ b1.toNat) ∧
      (b0.toNat = 0xF0 → 0x90 ≤ b1.toNat) ∧ (b0.toNat = 0xF4 → b1.toNat ≤ 0x8F) := by
  simp only [isSecond, isTail, ← UInt8.toNat_inj, UInt8.le_iff_toNat_le] at h
  repeat' split at h
  all_goals
    simp only [Bool.and_eq_true, decide_eq_true_eq, UInt8.reduceToNat] at *
    omega

/-- The byte groups that `runes` yields. -/
inductive RuneGroup : GoString → Prop
  | one (b : UInt8) : RuneGroup [b]
  | two {b0 b1 : UInt8} : 0xC2 ≤ b0.toNat → b0.toNat ≤ 0xDF → isTail b1 = true → RuneGroup [b0, b1]
  | three {b0 b1 b2 : UInt8} : 0xE0 ≤ b0.toNat → b0.toNat ≤ 0xEF → isSecond b0 b1 = true →
      isTail b2 = true → RuneGroup [b0, b1, b2]
  | four {b0 b1 b2 b3 : UInt8} : 0xF0 ≤ b0.toNat → b0.toNat ≤ 0xF4 → isSecond b0 b1 = true →
      isTail b2 = true → isTail b3 = true → RuneGroup [b0, b1, b2, b3]

theorem take_runeLen (b : UInt8) (s : GoString) :
    RuneGroup ((b :: s).take (runeLen (b :: s))) := by
  have htail : isTail 0 = false := rfl
  simp only [runeLen, List.getD_cons_zero, List.getD_cons_succ]
  split
  next h =>
    simp only [Bool.and_eq_true, decide_eq_true_eq, UInt8.le_iff_toNat_le] at h
    obtain ⟨⟨hlo, hhi⟩, h1⟩ := h
    cases s with
    | nil => simp [htail] at h1
    | cons b1 s => exact .two hlo hhi h1
  next =>
    split
    next h =>
      simp only [Bool.and_eq_true, decide_eq_true_eq, UInt8.le_iff_toNat_le] at h
      obtain ⟨⟨⟨hlo, hhi⟩, h1⟩, h2⟩ := h
      rcases s with _ | ⟨b1, _ | ⟨b2, s⟩⟩
      · simp [htail] at h2
      · simp [htail] at h2
      · exact .three hlo hhi h1 h2
    next =>
      split
      next h =>
        simp only [Bool.and_eq_true, decide_eq_true_eq, UInt8.le_iff_toNat_le] at h
        obtain ⟨⟨⟨⟨hlo, hhi⟩, h1⟩, h2⟩, h3⟩ := h
        rcases s with _ | ⟨b1, _ | ⟨b2, _ | ⟨b3, s⟩⟩⟩
        · simp [htail] at h3
        · simp [htail] at h3
        · simp [htail] at h3
        · exact .four hlo hhi h1 h2 h3
      next => exact .one b

theorem runeGroup_of_mem {s r : GoString} (h : r ∈ runes s) : RuneGroup r := by
  suffices ∀ fuel s, ∀ r ∈ runesFuel fuel s, RuneGroup r from this _ _ r h
  intro fuel
  induction fuel with
  | zero => simp [runesFuel]
  | succ fuel ih =>
    intro s r hr
    cases s with
    | nil => simp [runesFuel] at hr
    | cons b s =>
      rcases List.mem_cons.mp hr with rfl | hr
      · exact take_runeLen b s
      · exact ih _ r hr

theorem runeValue_one {b : UInt8} (h : validRune [b] = true) :
    b.toNat < 0x80 ∧ runeValue [b] = b.toNat := by
  have hlt : b < 0x80 := of_decide_eq_true h
  exact ⟨UInt8.lt_iff_toNat_lt.mp hlt, if_pos hlt⟩

/-- The bounds of the values of the runes of each length. -/
theorem RuneGroup.value_bounds {r : GoString} (group : RuneGroup r) (valid : validRune r = true) :
    (r.length = 1 ∧ runeValue r < 0x80) ∨ (r.length = 2 ∧ 0x80 ≤ runeValue r ∧ runeValue r < 0x800) ∨
    (r.length = 3 ∧ 0x800 ≤ runeValue r ∧ runeValue r < 0x10000) ∨
    (r.length = 4 ∧ 0x10000 ≤ runeValue r ∧ runeValue r < 0x110000) := by
  cases group with
  | one b =>
    obtain ⟨hlt, hvalue⟩ := runeValue_one valid
    exact Or.inl ⟨rfl, by omega⟩
  | two hlo hhi h1 =>
    have := isTail_iff.mp h1
    refine Or.inr (Or.inl ⟨rfl, ?_⟩)
    simp only [runeValue]
    omega
  | three hlo hhi h1 h2 =>
    have := isSecond_bounds h1
    have := isTail_iff.mp h2
    refine Or.inr (Or.inr (Or.inl ⟨rfl, ?_⟩))
    simp only [runeValue]
    omega
  | four hlo hhi h1 h2 h3 =>
    have := isSecond_bounds h1
    have := isTail_iff.mp h2
    have := isTail_iff.mp h3
    refine Or.inr (Or.inr (Or.inr ⟨rfl, ?_⟩))
    simp only [runeValue]
    omega

/-- A continuation byte is the last digit of the value, to the base 64. -/
theorem tail_digit_inj {m n b c : Nat} (hb : 128 ≤ b ∧ b ≤ 191) (hc : 128 ≤ c ∧ c ≤ 191)
    (h : m * 64 + b % 64 = n * 64 + c % 64) : m = n ∧ b = c := by
  omega

theorem isSecond_tail {b0 b1 : UInt8} (h : isSecond b0 b1 = true) :
    128 ≤ b1.toNat ∧ b1.toNat ≤ 191 :=
  ⟨(isSecond_bounds h).1, (isSecond_bounds h).2.1⟩

/-- Runes of different lengths have different values, and a value determines the bytes. -/
theorem runeValue_inj {r r' : GoString} (group : RuneGroup r) (group' : RuneGroup r')
    (valid : validRune r = true) (valid' : validRune r' = true) (h : runeValue r = runeValue r') :
    r = r' := by
  have hlen : r.length = r'.length := by
    have := group.value_bounds valid
    have := group'.value_bounds valid'
    omega
  refine List.map_injective_iff.mpr (fun a b => UInt8.toNat_inj.mp) ?_
  cases group with
  | one b =>
    cases group' with
    | one b' =>
      rw [(runeValue_one valid).2, (runeValue_one valid').2] at h
      simp only [List.map_cons, List.map_nil, h]
    | _ => simp at hlen
  | two hlo hhi h1 =>
    cases group' with
    | two hlo' hhi' h1' =>
      obtain ⟨hlead, hb1⟩ := tail_digit_inj (isTail_iff.mp h1) (isTail_iff.mp h1') h
      simp only [List.map_cons, List.map_nil, List.cons.injEq, and_true, hb1]
      omega
    | _ => simp at hlen
  | three hlo hhi h1 h2 =>
    cases group' with
    | three hlo' hhi' h1' h2' =>
      obtain ⟨h, hb2⟩ := tail_digit_inj (isTail_iff.mp h2) (isTail_iff.mp h2') h
      obtain ⟨hlead, hb1⟩ := tail_digit_inj (isSecond_tail h1) (isSecond_tail h1') h
      simp only [List.map_cons, List.map_nil, List.cons.injEq, and_true, hb1, hb2]
      omega
    | _ => simp at hlen
  | four hlo hhi h1 h2 h3 =>
    cases group' with
    | four hlo' hhi' h1' h2' h3' =>
      obtain ⟨h, hb3⟩ := tail_digit_inj (isTail_iff.mp h3) (isTail_iff.mp h3') h
      obtain ⟨h, hb2⟩ := tail_digit_inj (isTail_iff.mp h2) (isTail_iff.mp h2') h
      obtain ⟨hlead, hb1⟩ := tail_digit_inj (isSecond_tail h1) (isSecond_tail h1') h
      simp only [List.map_cons, List.map_nil, List.cons.injEq, and_true, hb1, hb2, hb3]
      omega
    | _ => simp at hlen

theorem hexDigit_inj {m n : Nat} (hm : m < 16) (hn : n < 16) (h : hexDigit m = hexDigit n) :
    m = n := by
  have : ∀ i j : Fin 16, hexDigit i = hexDigit j → i = j := by decide
  exact congrArg Fin.val (this ⟨m, hm⟩ ⟨n, hn⟩ h)

theorem length_hexDigits (width n : Nat) : (hexDigits width n).length = width := by
  induction width generalizing n with
  | zero => rfl
  | succ width ih => rw [hexDigits, List.length_append, ih, List.length_singleton]

theorem hexDigits_inj {width m n : Nat} (hm : m < 16 ^ width) (hn : n < 16 ^ width)
    (h : hexDigits width m = hexDigits width n) : m = n := by
  induction width generalizing m n with
  | zero => omega
  | succ width ih =>
    rw [hexDigits, hexDigits] at h
    obtain ⟨hhigh, hlow⟩ := List.append_inj' h rfl
    rw [pow_succ] at hm hn
    have hdiv : m / 16 = n / 16 := ih (by omega) (by omega) hhigh
    have hmod : m % 16 = n % 16 := hexDigit_inj (by omega) (by omega) (List.singleton_inj.mp hlow)
    omega

/-- What `escape` yields. -/
def Escape.Ok : Escape → Prop
  | .raw r => RuneGroup r ∧ validRune r = true ∧ r ≠ [0x22] ∧ r ≠ [0x5C]
  | .short letter => letter ≠ 0x78 ∧ letter ≠ 0x75 ∧ letter ≠ 0x55
  | .hex tag width value =>
    (tag = 0x78 ∧ width = 2 ∨ tag = 0x75 ∧ width = 4 ∨ tag = 0x55 ∧ width = 8) ∧ value < 16 ^ width

theorem controlLetter_some {c : Nat} {letter : UInt8} (h : controlLetter c = some letter) :
    (c, letter) ∈ ([(7, 0x61), (8, 0x62), (9, 0x74), (10, 0x6E), (11, 0x76), (12, 0x66), (13, 0x72)] :
      List (Nat × UInt8)) := by
  unfold controlLetter at h
  split at h
  all_goals simp_all

theorem escape_ok {tables : Nat → Bool} {r : GoString} (group : RuneGroup r) :
    (escape tables r).Ok := by
  unfold escape
  split
  next valid =>
    have bounds := group.value_bounds valid
    split
    next h =>
      rcases h with rfl | rfl
      · exact ⟨by decide, by decide, by decide⟩
      · exact ⟨by decide, by decide, by decide⟩
    next hquote =>
      rw [not_or] at hquote
      split
      next => exact ⟨group, valid, hquote⟩
      next =>
        split
        next letter hletter =>
          have hmem := controlLetter_some hletter
          simp only [List.mem_cons, Prod.mk.injEq, List.not_mem_nil, or_false] at hmem
          rcases hmem with h | h | h | h | h | h | h
          all_goals
            rw [h.2]
            exact ⟨by decide, by decide, by decide⟩
        next =>
          split
          next => exact ⟨by simp, by omega⟩
          next =>
            split
            next => exact ⟨by simp, by omega⟩
            next => exact ⟨by simp, by omega⟩
  next => exact ⟨by simp, (r.headD 0).toNat_lt⟩

/-- The first byte of a valid rune tells its length. -/
theorem RuneGroup.length_eq {r : GoString} (group : RuneGroup r) (valid : validRune r = true) :
    ∃ b t, r = b :: t ∧ r.length =
      if b.toNat < 0x80 then 1 else if b.toNat < 0xE0 then 2 else if b.toNat < 0xF0 then 3 else 4 := by
  cases group with
  | one b => exact ⟨b, [], rfl, by rw [if_pos (runeValue_one valid).1]; rfl⟩
  | two hlo hhi h1 =>
    refine ⟨_, _, rfl, ?_⟩
    rw [if_neg (by omega), if_pos (by omega)]
    rfl
  | three hlo hhi h1 h2 =>
    refine ⟨_, _, rfl, ?_⟩
    rw [if_neg (by omega), if_neg (by omega), if_pos (by omega)]
    rfl
  | four hlo hhi h1 h2 h3 =>
    refine ⟨_, _, rfl, ?_⟩
    rw [if_neg (by omega), if_neg (by omega), if_neg (by omega)]
    rfl

theorem RuneGroup.append_inj {r r' x y : GoString} (group : RuneGroup r) (group' : RuneGroup r')
    (valid : validRune r = true) (valid' : validRune r' = true) (h : r ++ x = r' ++ y) :
    r = r' ∧ x = y := by
  obtain ⟨b, t, hr, hlen⟩ := group.length_eq valid
  obtain ⟨b', t', hr', hlen'⟩ := group'.length_eq valid'
  have hb : b = b' := by
    rw [hr, hr'] at h
    exact (List.cons.inj h).1
  exact List.append_inj h (by rw [hlen, hlen', hb])

theorem Escape.raw_head {r : GoString} (ok : (Escape.raw r).Ok) :
    ∃ b t, r = b :: t ∧ b ≠ 0x22 ∧ b ≠ 0x5C := by
  obtain ⟨group, valid, hquote, hslash⟩ := ok
  have hbyte : ∀ b : UInt8, 0xC2 ≤ b.toNat → b ≠ 0x22 ∧ b ≠ 0x5C := by
    intro b hb
    refine ⟨?_, ?_⟩
    all_goals
      rintro rfl
      simp at hb
  cases group with
  | one b => exact ⟨b, [], rfl, fun h => hquote (by rw [h]), fun h => hslash (by rw [h])⟩
  | two hlo hhi h1 => exact ⟨_, _, rfl, hbyte _ hlo⟩
  | three hlo hhi h1 h2 => exact ⟨_, _, rfl, hbyte _ (by omega)⟩
  | four hlo hhi h1 h2 h3 => exact ⟨_, _, rfl, hbyte _ (by omega)⟩

theorem Escape.text_head {e : Escape} (ok : e.Ok) : ∃ b t, e.text = b :: t ∧ b ≠ 0x22 := by
  cases e with
  | raw r =>
    obtain ⟨b, t, hr, hquote, -⟩ := Escape.raw_head ok
    exact ⟨b, t, hr, hquote⟩
  | short letter => exact ⟨0x5C, _, rfl, by decide⟩
  | hex tag width value => exact ⟨0x5C, _, rfl, by decide⟩

/-- No letter of a short escape announces digits. -/
theorem Escape.letter_ne_tag {letter tag : UInt8} {width value : Nat}
    (short : (Escape.short letter).Ok) (hex : (Escape.hex tag width value).Ok) : letter ≠ tag := by
  obtain ⟨hx, hu, hU⟩ := short
  rcases hex.1 with ht | ht | ht
  · exact ht.1 ▸ hx
  · exact ht.1 ▸ hu
  · exact ht.1 ▸ hU

/-- The tag fixes the number of digits. -/
theorem Escape.width_eq {tag : UInt8} {width width' value value' : Nat}
    (ok : (Escape.hex tag width value).Ok) (ok' : (Escape.hex tag width' value').Ok) :
    width = width' := by
  rcases ok.1 with ⟨rfl, rfl⟩ | ⟨rfl, rfl⟩ | ⟨rfl, rfl⟩
  all_goals
    have := ok'.1
    simp at this
    exact this.symm

theorem Escape.text_append_inj {e e' : Escape} (ok : e.Ok) (ok' : e'.Ok) {x y : GoString}
    (h : e.text ++ x = e'.text ++ y) : e = e' ∧ x = y := by
  cases e with
  | raw r =>
    cases e' with
    | raw r' =>
      obtain ⟨hr, hxy⟩ := ok.1.append_inj ok'.1 ok.2.1 ok'.2.1 h
      exact ⟨by rw [hr], hxy⟩
    | _ =>
      obtain ⟨b, t, rfl, -, hslash⟩ := Escape.raw_head ok
      exact absurd (List.cons.inj h).1 hslash
  | short letter =>
    cases e' with
    | raw r' =>
      obtain ⟨b, t, rfl, -, hslash⟩ := Escape.raw_head ok'
      exact absurd (List.cons.inj h).1.symm hslash
    | short letter' =>
      simp only [Escape.text, List.cons_append, List.nil_append, List.cons.injEq, true_and] at h
      exact ⟨by rw [h.1], h.2⟩
    | hex tag width value =>
      simp only [Escape.text, List.cons_append, List.nil_append, List.cons.injEq, true_and] at h
      exact absurd h.1 (Escape.letter_ne_tag ok ok')
  | hex tag width value =>
    cases e' with
    | raw r' =>
      obtain ⟨b, t, rfl, -, hslash⟩ := Escape.raw_head ok'
      exact absurd (List.cons.inj h).1.symm hslash
    | short letter =>
      simp only [Escape.text, List.cons_append, List.nil_append, List.cons.injEq, true_and] at h
      exact absurd h.1.symm (Escape.letter_ne_tag ok' ok)
    | hex tag' width' value' =>
      simp only [Escape.text, List.cons_append, List.cons.injEq, true_and] at h
      obtain ⟨rfl, hdigits⟩ := h
      obtain rfl := Escape.width_eq ok ok'
      have hlen : (hexDigits width value).length = (hexDigits width value').length := by
        rw [length_hexDigits, length_hexDigits]
      obtain ⟨hvalue, hxy⟩ := List.append_inj hdigits hlen
      exact ⟨by rw [hexDigits_inj ok.2 ok'.2 hvalue], hxy⟩

/-- Which runes an escape can stand for. -/
inductive Escapes : GoString → Escape → Prop
  | raw {r : GoString} : Escapes r (.raw r)
  | quote : Escapes [0x22] (.short 0x22)
  | slash : Escapes [0x5C] (.short 0x5C)
  | letter {r : GoString} {letter : UInt8} : validRune r = true →
      controlLetter (runeValue r) = some letter → Escapes r (.short letter)
  | value {r : GoString} {tag : UInt8} {width n : Nat} : validRune r = true → runeValue r = n →
      (tag = 0x78 → n < 0x80) → Escapes r (.hex tag width n)
  | byte {b : UInt8} {width n : Nat} : b.toNat = n → 0x80 ≤ n → Escapes [b] (.hex 0x78 width n)

theorem escapes_escape {tables : Nat → Bool} {r : GoString} (group : RuneGroup r) :
    Escapes r (escape tables r) := by
  unfold escape
  split
  next valid =>
    split
    next h =>
      rcases h with rfl | rfl
      · exact .quote
      · exact .slash
    next =>
      split
      next => exact .raw
      next =>
        split
        next letter hletter => exact .letter valid hletter
        next =>
          split
          next => exact .value valid rfl (fun _ => by omega)
          next =>
            split
            next => exact .value valid rfl (fun h => absurd h (by decide))
            next => exact .value valid rfl (fun h => absurd h (by decide))
  next invalid =>
    cases group with
    | one b =>
      refine .byte rfl (Nat.le_of_not_lt fun hlt => invalid ?_)
      exact decide_eq_true (UInt8.lt_iff_toNat_lt.mpr hlt)
    | _ => exact absurd rfl invalid

theorem controlLetter_inj {c c' : Nat} {letter : UInt8} (h : controlLetter c = some letter)
    (h' : controlLetter c' = some letter) : c = c' := by
  have hmem := controlLetter_some h
  have hmem' := controlLetter_some h'
  simp only [List.mem_cons, Prod.mk.injEq, List.not_mem_nil, or_false] at hmem hmem'
  rcases hmem with ⟨rfl, rfl⟩ | ⟨rfl, rfl⟩ | ⟨rfl, rfl⟩ | ⟨rfl, rfl⟩ | ⟨rfl, rfl⟩ | ⟨rfl, rfl⟩ | ⟨rfl, rfl⟩
  all_goals
    simp at hmem'
    exact hmem'.symm

theorem controlLetter_ne_quote {c : Nat} {letter : UInt8} (h : controlLetter c = some letter) :
    letter ≠ 0x22 ∧ letter ≠ 0x5C := by
  have hmem := controlLetter_some h
  simp only [List.mem_cons, Prod.mk.injEq, List.not_mem_nil, or_false] at hmem
  rcases hmem with h | h | h | h | h | h | h
  all_goals
    rw [h.2]
    decide

theorem Escapes.inj {r r' : GoString} {e : Escape} (group : RuneGroup r) (group' : RuneGroup r')
    (h : Escapes r e) (h' : Escapes r' e) : r = r' := by
  cases h with
  | raw =>
    cases h' with
    | raw => rfl
  | quote =>
    cases h' with
    | quote => rfl
    | letter valid hletter => exact absurd rfl (controlLetter_ne_quote hletter).1
  | slash =>
    cases h' with
    | slash => rfl
    | letter valid hletter => exact absurd rfl (controlLetter_ne_quote hletter).2
  | letter valid hletter =>
    cases h' with
    | quote => exact absurd rfl (controlLetter_ne_quote hletter).1
    | slash => exact absurd rfl (controlLetter_ne_quote hletter).2
    | letter valid' hletter' =>
      exact runeValue_inj group group' valid valid' (controlLetter_inj hletter hletter')
  | value valid hvalue htag =>
    cases h' with
    | value valid' hvalue' =>
      exact runeValue_inj group group' valid valid' (hvalue.trans hvalue'.symm)
    | byte hb hlo =>
      have := htag rfl
      omega
  | byte hb hlo =>
    cases h' with
    | value valid' hvalue' htag' =>
      have := htag' rfl
      omega
    | byte hb' => rw [UInt8.toNat_inj.mp (hb.trans hb'.symm)]

theorem escape_append_inj {tables : Nat → Bool} {r r' x y : GoString} (group : RuneGroup r)
    (group' : RuneGroup r') (h : (escape tables r).text ++ x = (escape tables r').text ++ y) :
    r = r' ∧ x = y := by
  obtain ⟨hescape, hxy⟩ := Escape.text_append_inj (escape_ok group) (escape_ok group') h
  have hr : Escapes r (escape tables r) := escapes_escape group
  rw [hescape] at hr
  exact ⟨hr.inj group group' (escapes_escape group'), hxy⟩

/-- No two strings are printed alike. -/
theorem quote_inj {tables : Nat → Bool} {s s' : GoString} (h : quote tables s = quote tables s') :
    s = s' := by
  have hrunes : ∀ rs rs' : List GoString, (∀ r ∈ rs, RuneGroup r) → (∀ r ∈ rs', RuneGroup r) →
      (rs.flatMap fun r => (escape tables r).text) ++ [0x22] =
        (rs'.flatMap fun r => (escape tables r).text) ++ [0x22] → rs = rs' := by
    intro rs
    induction rs with
    | nil =>
      intro rs' _ group' h
      cases rs' with
      | nil => rfl
      | cons r' rs' =>
        obtain ⟨b, t, htext, hb⟩ := Escape.text_head (@escape_ok tables r' (group' r' (by simp)))
        rw [List.flatMap_cons, htext] at h
        exact absurd (List.cons.inj h).1.symm hb
    | cons r rs ih =>
      intro rs' group group' h
      cases rs' with
      | nil =>
        obtain ⟨b, t, htext, hb⟩ := Escape.text_head (@escape_ok tables r (group r (by simp)))
        rw [List.flatMap_cons, htext] at h
        exact absurd (List.cons.inj h).1 hb
      | cons r' rs' =>
        rw [List.flatMap_cons, List.flatMap_cons, List.append_assoc, List.append_assoc] at h
        obtain ⟨rfl, hrest⟩ := escape_append_inj (group r (by simp)) (group' r' (by simp)) h
        rw [ih rs' (fun x hx => group x (by simp [hx])) (fun x hx => group' x (by simp [hx])) hrest]
  have heq := hrunes (runes s) (runes s') (fun r hr => runeGroup_of_mem hr)
    (fun r hr => runeGroup_of_mem hr) (List.cons.inj h).2
  rw [← runes_flatten s, heq, runes_flatten]

end GoString
