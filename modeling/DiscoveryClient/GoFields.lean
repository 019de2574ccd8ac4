import DiscoveryClient.RuneText

namespace GoString

section Lists

variable {α : Type*} {p : α → Bool} {l r w : List α}

/-- The non-empty stretches of a list between the elements that satisfy `p`. -/
def stretches (p : α → Bool) (l : List α) : List (List α) := (l.splitOnP p).filter (· ≠ [])

theorem stretches_append_cons {x : α} (hx : p x = true) :
    stretches p (l ++ x :: r) = stretches p l ++ stretches p r := by
  rw [stretches, List.splitOnP_append_cons l r hx, List.filter_append]
  rfl

theorem stretches_all_append (hw : ∀ x ∈ w, p x = true) :
    stretches p (w ++ r) = stretches p r := by
  induction w with
  | nil => rw [List.nil_append]
  | cons x w ih =>
    obtain ⟨hx, hw⟩ := List.forall_mem_cons.mp hw
    exact (@stretches_append_cons α p [] (w ++ r) x hx).trans (ih hw)

theorem stretches_append_gap (hw : ∀ x ∈ w, p x = true) (hne : w ≠ []) :
    stretches p (l ++ (w ++ r)) = stretches p l ++ stretches p r := by
  obtain ⟨x, w, rfl⟩ := List.exists_cons_of_ne_nil hne
  obtain ⟨hx, hw⟩ := List.forall_mem_cons.mp hw
  rw [List.cons_append, stretches_append_cons hx, stretches_all_append hw]

theorem stretches_of_none (hl : ∀ x ∈ l, p x = false) (hne : l ≠ []) : stretches p l = [l] := by
  rw [stretches, List.splitOnP_eq_singleton hl]
  simp [hne]

theorem mem_stretches {t : List α} (h : t ∈ stretches p l) :
    t ≠ [] ∧ (∀ x ∈ t, p x = false) ∧ t <:+: l := by
  induction hn : l.length using Nat.strong_induction_on generalizing l with
  | _ n ih =>
    by_cases hnone : ∀ x ∈ l, p x = false
    · by_cases hl : l = []
      · subst hl
        simp [stretches] at h
      · rw [stretches_of_none hnone hl, List.mem_singleton] at h
        subst h
        exact ⟨hl, hnone, List.infix_rfl⟩
    · push Not at hnone
      obtain ⟨x, hx, hp⟩ := hnone
      obtain ⟨a, b, rfl⟩ := List.append_of_mem hx
      rw [stretches_append_cons (by simpa using hp), List.mem_append] at h
      rw [List.length_append, List.length_cons] at hn
      rcases h with h | h
      · obtain ⟨hne, hnone, hin⟩ := ih a.length (by omega) h rfl
        exact ⟨hne, hnone, hin.trans (List.prefix_append a _).isInfix⟩
      · obtain ⟨hne, hnone, hin⟩ := ih b.length (by omega) h rfl
        refine ⟨hne, hnone, hin.trans ?_⟩
        exact ((List.suffix_cons x b).trans (List.suffix_append a _)).isInfix

end Lists

theorem fieldsFunc_eq (f : Nat → Bool) (s : GoString) :
    fieldsFunc f s = (stretches (fun r => f (runeValue r)) (runes s)).map List.flatten := rfl

/-- A string of runes that all satisfy `f`. -/
def Gap (f : Nat → Bool) (w : GoString) : Prop := ∀ r ∈ runes w, f (runeValue r) = true

instance (f : Nat → Bool) (w : GoString) : Decidable (Gap f w) := by
  unfold Gap
  infer_instance

/-- A non-empty string none of whose runes satisfies `f`. -/
def Word (f : Nat → Bool) (t : GoString) : Prop :=
  t ≠ [] ∧ ∀ r ∈ runes t, f (runeValue r) = false

instance (f : Nat → Bool) (t : GoString) : Decidable (Word f t) := by
  unfold Word
  infer_instance

section Fields

variable {f : Nat → Bool} {s t w : GoString}

theorem Gap.nil : Gap f [] := by
  intro r hr
  simp [runes, runesFuel] at hr

theorem Gap.mono {g : Nat → Bool} (hfg : ∀ c, f c = true → g c = true) (gap : Gap f w) :
    Gap g w := fun r hr => hfg _ (gap r hr)

/-- An invalid byte is read as the replacement rune. -/
theorem runeValue_of_invalid {r : GoString} (h : validRune r = false) : runeValue r = 0xFFFD := by
  unfold validRune at h
  split at h
  next b =>
    have hb : ¬b < 0x80 := by simpa using h
    simp [runeValue, hb]
  next => simp at h

theorem Gap.valid (gap : Gap f w) (hf : f 0xFFFD = false) : validString w = true := by
  rw [validString, List.all_eq_true]
  intro r hr
  by_contra hinvalid
  have hvalue := gap r hr
  rw [runeValue_of_invalid (by simpa using hinvalid), hf] at hvalue
  simp at hvalue

theorem runeLen_of_isTail {b : UInt8} (h : isTail b = true) : runeLen (b :: s) = 1 := by
  have hb := isTail_iff.mp h
  rw [runeLen_eq, List.getD_cons_zero]
  split_ifs <;> first | rfl | omega

theorem Gap.startsRune (gap : Gap f w) (hf : f 0xFFFD = false) : StartsRune w := by
  intro b hb
  cases w with
  | nil => simp at hb
  | cons b' w =>
    cases hb
    by_contra htail
    have htail : isTail b = true := by simpa using htail
    have hvalue := gap [b] (by
      rw [runes_cons, runeLen_of_isTail htail]
      simp)
    have hb := isTail_iff.mp htail
    have hlarge : ¬b < 0x80 := by
      rw [UInt8.lt_iff_toNat_lt]
      simp only [UInt8.reduceToNat]
      omega
    simp only [runeValue, hlarge, if_false] at hvalue
    simp [hf] at hvalue

theorem runes_append_gap (gap : Gap f w) (hf : f 0xFFFD = false) (s t : GoString) (hne : w ≠ []) :
    runes (s ++ (w ++ t)) = runes s ++ (runes w ++ runes t) := by
  have hstart : StartsRune (w ++ t) := by
    obtain ⟨b, w', rfl⟩ := List.exists_cons_of_ne_nil hne
    exact gap.startsRune hf
  rw [runes_append_of_start hstart, runes_append_of_valid (gap.valid hf)]

theorem fieldsFunc_append_gap (gap : Gap f w) (hf : f 0xFFFD = false) (hne : w ≠ [])
    (s t : GoString) :
    fieldsFunc f (s ++ (w ++ t)) = fieldsFunc f s ++ fieldsFunc f t := by
  have hruns : runes w ≠ [] := fun h => hne (runes_eq_nil_iff.mp h)
  rw [fieldsFunc_eq, runes_append_gap gap hf s t hne, stretches_append_gap gap hruns,
    List.map_append]
  rfl

theorem fieldsFunc_nil : fieldsFunc f [] = [] := rfl

theorem fieldsFunc_gap_left (gap : Gap f w) (hf : f 0xFFFD = false) (s : GoString) :
    fieldsFunc f (w ++ s) = fieldsFunc f s := by
  by_cases hne : w = []
  · rw [hne, List.nil_append]
  · have h := fieldsFunc_append_gap gap hf hne [] s
    rwa [List.nil_append, fieldsFunc_nil, List.nil_append] at h

theorem fieldsFunc_gap_right (gap : Gap f w) (hf : f 0xFFFD = false) (s : GoString) :
    fieldsFunc f (s ++ w) = fieldsFunc f s := by
  by_cases hne : w = []
  · rw [hne, List.append_nil]
  · have h := fieldsFunc_append_gap gap hf hne s []
    rwa [List.append_nil, fieldsFunc_nil, List.append_nil] at h

theorem fieldsFunc_word (word : Word f t) : fieldsFunc f t = [t] := by
  have hruns : runes t ≠ [] := fun h => word.1 (runes_eq_nil_iff.mp h)
  rw [fieldsFunc_eq, stretches_of_none word.2 hruns, List.map_singleton, runes_flatten]

/-- A stretch of whole runes is read as those runes again, so every field is a word. -/
theorem word_of_mem_fieldsFunc (h : t ∈ fieldsFunc f s) : Word f t ∧ ∀ b ∈ t, b ∈ s := by
  rw [fieldsFunc_eq, List.mem_map] at h
  obtain ⟨gs, hgs, rfl⟩ := h
  obtain ⟨hne, hnone, front, back, hsplit⟩ := mem_stretches hgs
  have hruns : runes gs.flatten = gs := by
    rw [List.append_assoc] at hsplit
    have hback := (runes_split hsplit.symm).2
    exact (runes_split hback).1
  refine ⟨⟨?_, ?_⟩, ?_⟩
  · intro hnil
    rw [hnil] at hruns
    exact hne hruns.symm
  · rw [hruns]
    exact hnone
  · intro b hb
    rw [← runes_flatten s, ← hsplit]
    simp [hb]

/-- Trimming cuts white space off at both ends. -/
theorem trimSpace_split (s : GoString) :
    ∃ front back, Gap isSpace front ∧ Gap isSpace back ∧ s = front ++ (trimSpace s ++ back) := by
  let p : GoString → Bool := fun r => isSpace (runeValue r)
  let kept := (runes s).dropWhile p
  have hkept : kept = kept.rdropWhile p ++ (kept.reverse.takeWhile p).reverse := by
    rw [List.rdropWhile, ← List.reverse_append, List.takeWhile_append_dropWhile,
      List.reverse_reverse]
  have hruns : runes s =
      (runes s).takeWhile p ++ (kept.rdropWhile p ++ (kept.reverse.takeWhile p).reverse) := by
    rw [← hkept, List.takeWhile_append_dropWhile]
  obtain ⟨hfront, hrest⟩ := runes_split hruns
  have hback := (runes_split hrest).2
  refine ⟨((runes s).takeWhile p).flatten, (kept.reverse.takeWhile p).reverse.flatten, ?_, ?_, ?_⟩
  · intro r hr
    rw [hfront] at hr
    have hspace := List.mem_takeWhile_imp hr
    exact hspace
  · intro r hr
    rw [hback, List.mem_reverse] at hr
    have hspace := List.mem_takeWhile_imp hr
    exact hspace
  · have hflat := congrArg List.flatten hruns
    rwa [runes_flatten, List.flatten_append, List.flatten_append] at hflat

theorem trimSpace_of_word (word : ∀ r ∈ runes t, isSpace (runeValue r) = false) :
    trimSpace t = t := by
  have hleft : (runes t).dropWhile (fun r => isSpace (runeValue r)) = runes t := by
    rw [List.dropWhile_eq_self_iff]
    intro hl
    simp [word _ (List.getElem_mem hl)]
  have hright : (runes t).rdropWhile (fun r => isSpace (runeValue r)) = runes t := by
    rw [List.rdropWhile_eq_self_iff]
    intro hne
    simp [word _ (List.getLast_mem hne)]
  rw [trimSpace, hleft, hright, runes_flatten]

/-- What is left by trimming begins and ends with something else than space. -/
theorem trimSpace_ends (s : GoString) :
    (∀ r ∈ (runes (trimSpace s)).head?, isSpace (runeValue r) = false) ∧
    ∀ r ∈ (runes (trimSpace s)).getLast?, isSpace (runeValue r) = false := by
  let p : GoString → Bool := fun r => isSpace (runeValue r)
  let kept := (runes s).dropWhile p
  obtain ⟨back, hback⟩ : kept.rdropWhile p <+: kept := List.rdropWhile_prefix p kept
  have hruns : runes s = (runes s).takeWhile p ++ (kept.rdropWhile p ++ back) := by
    rw [hback, List.takeWhile_append_dropWhile]
  have htrimmed : runes (trimSpace s) = kept.rdropWhile p :=
    (runes_split (runes_split hruns).2).1
  rw [htrimmed]
  constructor
  · intro r hr
    have hhead := List.head?_dropWhile_not p (runes s)
    rw [show (runes s).dropWhile p = kept from rfl, ← hback, List.head?_append,
      Option.mem_def.mp hr] at hhead
    exact hhead
  · intro r hr
    obtain ⟨hne, hlast⟩ := List.mem_getLast?_eq_getLast hr
    have hnot := List.rdropWhile_last_not p kept hne
    rw [← hlast] at hnot
    exact Bool.eq_false_iff.mpr hnot

theorem runes_singleton (b : UInt8) : runes [b] = [[b]] := by
  have hlen := one_le_runeLen [b]
  rw [runes_cons, List.take_of_length_le hlen, List.drop_eq_nil_of_le hlen]
  rfl

/-- Bytes below `0x80` are runes of their own, and so are the ones on either side of them. -/
theorem runes_around_ascii {mid : GoString} (hmid : ∀ b ∈ mid, b.toNat < 0x80) (hne : mid ≠ [])
    (front back : GoString) :
    runes (front ++ (mid ++ back)) = runes front ++ (mid.map ([·]) ++ runes back) := by
  have hstart : StartsRune (mid ++ back) := by
    obtain ⟨b, s, rfl⟩ := List.exists_cons_of_ne_nil hne
    intro b' hb'
    cases Option.some.inj hb'
    have hb := hmid b List.mem_cons_self
    simp only [isTail, UInt8.le_iff_toNat_le, Bool.and_eq_false_iff, decide_eq_false_iff_not]
    exact Or.inl (Nat.not_le.mpr hb)
  have hascii : ∀ g ∈ mid.map ([·]), RuneGroup g ∧ validRune g = true := by
    intro g hg
    obtain ⟨b, hb, rfl⟩ := List.mem_map.mp hg
    have hlt : b < 0x80 := UInt8.lt_iff_toNat_lt.mpr (hmid b hb)
    exact ⟨.one b, decide_eq_true hlt⟩
  have hgroups := runes_groups_append hascii back
  rw [← List.flatMap_def, List.flatMap_singleton'] at hgroups
  rw [runes_append_of_start hstart, hgroups]

/-- A byte below `0x80` is a rune of its own. -/
theorem mem_runes_of_ascii {b : UInt8} (hb : b.toNat < 0x80) (h : b ∈ s) : [b] ∈ runes s := by
  rw [← runes_flatten s, List.mem_flatten] at h
  obtain ⟨g, hg, h⟩ := h
  cases runeGroup_of_mem hg with
  | one b' =>
    rw [List.mem_singleton] at h
    rwa [h]
  | two hlo hhi h1 =>
    have h1 := isTail_iff.mp h1
    simp only [List.mem_cons, List.not_mem_nil, or_false] at h
    rcases h with rfl | rfl <;> omega
  | three hlo hhi h1 h2 =>
    have h1 := isSecond_tail h1
    have h2 := isTail_iff.mp h2
    simp only [List.mem_cons, List.not_mem_nil, or_false] at h
    rcases h with rfl | rfl | rfl <;> omega
  | four hlo hhi h1 h2 h3 =>
    have h1 := isSecond_tail h1
    have h2 := isTail_iff.mp h2
    have h3 := isTail_iff.mp h3
    simp only [List.mem_cons, List.not_mem_nil, or_false] at h
    rcases h with rfl | rfl | rfl | rfl <;> omega

theorem runeValue_ascii {b : UInt8} (hb : b.toNat < 0x80) : runeValue [b] = b.toNat := by
  have hlt : b < 0x80 := UInt8.lt_iff_toNat_lt.mpr hb
  simp [runeValue, hlt]

theorem word_of_ascii (hne : t ≠ []) (h : ∀ b ∈ t, b.toNat < 0x80 ∧ f b.toNat = false) :
    Word f t := by
  refine ⟨hne, ?_⟩
  intro r hr
  have hbytes : ∀ b ∈ r, b ∈ t := by
    intro b hb
    rw [← runes_flatten t]
    exact List.mem_flatten_of_mem hr hb
  have hfirst : ∀ b ∈ r, b.toNat < 0x80 := fun b hb => (h b (hbytes b hb)).1
  cases runeGroup_of_mem hr with
  | one b =>
    obtain ⟨hb, hf⟩ := h b (hbytes b List.mem_cons_self)
    rwa [runeValue_ascii hb]
  | two hlo | three hlo | four hlo =>
    have hb := hfirst _ List.mem_cons_self
    omega

theorem Gap.not_mem (gap : Gap f w) {b : UInt8} (hb : b.toNat < 0x80)
    (hf : f b.toNat = false) : b ∉ w := by
  intro h
  have hvalue := gap [b] (mem_runes_of_ascii hb h)
  rw [runeValue_ascii hb, hf] at hvalue
  simp at hvalue

theorem Word.not_mem (word : Word f t) {b : UInt8} (hb : b.toNat < 0x80)
    (hf : f b.toNat = true) : b ∉ t := by
  intro h
  have hvalue := word.2 [b] (mem_runes_of_ascii hb h)
  rw [runeValue_ascii hb, hf] at hvalue
  simp at hvalue

end Fields

end GoString
