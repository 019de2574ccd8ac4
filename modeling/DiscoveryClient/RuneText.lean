import DiscoveryClient.GoQuote

namespace GoString

theorem runesFuel_congr {fuel fuel' : Nat} {s : GoString} (h : s.length ≤ fuel)
    (h' : s.length ≤ fuel') : runesFuel fuel s = runesFuel fuel' s := by
  induction fuel generalizing s fuel' with
  | zero =>
    have hs : s = [] := List.length_eq_zero_iff.mp (by omega)
    subst hs
    cases fuel' <;> rfl
  | succ fuel ih =>
    cases s with
    | nil => cases fuel' <;> rfl
    | cons b s =>
      obtain ⟨n, rfl⟩ : ∃ n, fuel' = n + 1 := ⟨fuel' - 1, by simp at h'; omega⟩
      have hlen := one_le_runeLen (b :: s)
      have hdrop : ((b :: s).drop (runeLen (b :: s))).length ≤ s.length := by
        simp only [List.length_drop, List.length_cons]
        omega
      simp only [List.length_cons] at h h'
      rw [runesFuel, runesFuel, ih (by omega) (show _ ≤ n by omega)]

theorem runes_cons (b : UInt8) (s : GoString) :
    runes (b :: s) = (b :: s).take (runeLen (b :: s)) ::
      runes ((b :: s).drop (runeLen (b :: s))) := by
  have hlen := one_le_runeLen (b :: s)
  rw [runes, List.length_cons, runesFuel, runes]
  refine congrArg _ (runesFuel_congr ?_ le_rfl)
  simp only [List.length_drop, List.length_cons]
  omega

theorem runes_eq_nil_iff {s : GoString} : runes s = [] ↔ s = [] := by
  cases s with
  | nil => simp [runes, runesFuel]
  | cons b s => simp [runes_cons]

theorem isSecond_eq_false {b0 b1 : UInt8} (h : isTail b1 = false) : isSecond b0 b1 = false := by
  cases hsecond : isSecond b0 b1 with
  | false => rfl
  | true =>
    rw [isTail_iff.mpr (isSecond_tail hsecond)] at h
    cases h

theorem runeLen_eq (s : GoString) : runeLen s =
    if 0xC2 ≤ (s.getD 0 0).toNat ∧ (s.getD 0 0).toNat ≤ 0xDF ∧ isTail (s.getD 1 0) = true then 2
    else if 0xE0 ≤ (s.getD 0 0).toNat ∧ (s.getD 0 0).toNat ≤ 0xEF ∧
        isSecond (s.getD 0 0) (s.getD 1 0) = true ∧ isTail (s.getD 2 0) = true then 3
    else if 0xF0 ≤ (s.getD 0 0).toNat ∧ (s.getD 0 0).toNat ≤ 0xF4 ∧
        isSecond (s.getD 0 0) (s.getD 1 0) = true ∧ isTail (s.getD 2 0) = true ∧
          isTail (s.getD 3 0) = true then 4
    else 1 := by
  simp [runeLen, UInt8.le_iff_toNat_le, and_assoc]

/-- A rune that is complete and valid is decoded alike whatever follows it. -/
theorem runeLen_group {g : GoString} (group : RuneGroup g) (valid : validRune g = true)
    (t : GoString) : runeLen (g ++ t) = g.length := by
  rw [runeLen_eq]
  cases group with
  | one b =>
    have hlt := (runeValue_one valid).1
    simp only [List.cons_append, List.getD_cons_zero] at hlt ⊢
    rw [if_neg (by omega), if_neg (by omega), if_neg (by omega)]
    rfl
  | two hlo hhi h1 => exact if_pos ⟨hlo, hhi, h1⟩
  | three hlo hhi h1 h2 =>
    simp only [List.cons_append, List.getD_cons_zero, List.getD_cons_succ]
    rw [if_neg (by omega), if_pos ⟨hlo, hhi, h1, h2⟩]
    rfl
  | four hlo hhi h1 h2 h3 =>
    simp only [List.cons_append, List.getD_cons_zero, List.getD_cons_succ]
    rw [if_neg (by omega), if_neg (by omega), if_pos ⟨hlo, hhi, h1, h2, h3⟩]
    rfl

theorem RuneGroup.ne_nil {g : GoString} (group : RuneGroup g) : g ≠ [] := by
  cases group <;> simp

theorem runes_group_append {g : GoString} (group : RuneGroup g) (valid : validRune g = true)
    (t : GoString) : runes (g ++ t) = g :: runes t := by
  obtain ⟨b, s, rfl⟩ := List.exists_cons_of_ne_nil group.ne_nil
  have hlen := runeLen_group group valid t
  rw [List.cons_append] at hlen ⊢
  rw [runes_cons, hlen, ← List.cons_append, List.take_left, List.drop_left]

theorem runes_groups_append {gs : List GoString}
    (hgs : ∀ g ∈ gs, RuneGroup g ∧ validRune g = true) (t : GoString) :
    runes (gs.flatten ++ t) = gs ++ runes t := by
  induction gs with
  | nil => rfl
  | cons g gs ih =>
    have hg := hgs g (by simp)
    rw [List.flatten_cons, List.append_assoc, runes_group_append hg.1 hg.2,
      ih fun x hx => hgs x (by simp [hx])]
    rfl

theorem runes_append_of_valid {w : GoString} (valid : validString w = true) (t : GoString) :
    runes (w ++ t) = runes w ++ runes t := by
  have hgroups : ∀ g ∈ runes w, RuneGroup g ∧ validRune g = true := fun g hg =>
    ⟨runeGroup_of_mem hg, List.all_eq_true.mp valid g hg⟩
  rw [← runes_groups_append hgroups, runes_flatten]

/-- Where a byte that continues no rune follows, the runes before it end with it. -/
def StartsRune (t : GoString) : Prop := ∀ b ∈ t.head?, isTail b = false

theorem runeLen_append {b : UInt8} {s t : GoString} (start : StartsRune t) :
    runeLen (b :: (s ++ t)) = runeLen (b :: s) := by
  have hzero : isTail 0 = false := rfl
  cases t with
  | nil => rw [List.append_nil]
  | cons x t =>
    have hx : isTail x = false := start x rfl
    rw [runeLen_eq, runeLen_eq]
    rcases s with _ | ⟨b1, _ | ⟨b2, _ | ⟨b3, s⟩⟩⟩
    · simp [hx, hzero, isSecond_eq_false hx, isSecond_eq_false hzero]
    · simp [hx, hzero]
    · simp [hx, hzero]
    · rfl

theorem runeLen_le (b : UInt8) (s : GoString) : runeLen (b :: s) ≤ (b :: s).length := by
  have hzero : isTail 0 = false := rfl
  rw [runeLen_eq]
  rcases s with _ | ⟨b1, _ | ⟨b2, _ | ⟨b3, s⟩⟩⟩
  · simp [hzero]
  · simp only [List.getD_cons_zero, List.getD_cons_succ, List.getD_nil, hzero, Bool.false_eq_true,
      and_false, if_false]
    split <;> simp
  · simp only [List.getD_cons_zero, List.getD_cons_succ, List.getD_nil, hzero, Bool.false_eq_true,
      and_false, if_false]
    split_ifs <;> simp
  · split_ifs <;> simp

theorem runes_append_of_start {s t : GoString} (start : StartsRune t) :
    runes (s ++ t) = runes s ++ runes t := by
  induction hn : s.length using Nat.strong_induction_on generalizing s with
  | _ n ih =>
    cases s with
    | nil => rfl
    | cons b s =>
      have hlen := one_le_runeLen (b :: s)
      have hle := runeLen_le b s
      have hdrop : ((b :: s).drop (runeLen (b :: s))).length < n := by
        rw [List.length_drop, ← hn]
        rw [List.length_cons] at hle ⊢
        omega
      have hrest := ih _ hdrop rfl
      rw [List.cons_append, runes_cons, runes_cons, runeLen_append start, ← List.cons_append,
        List.take_append_of_le_length hle, List.drop_append_of_le_length hle, hrest,
        List.cons_append]

/-- Cut off behind a rune, the rune is decoded as before. -/
theorem runeLen_of_append {b : UInt8} {s t : GoString}
    (h : runeLen (b :: (s ++ t)) ≤ (b :: s).length) :
    runeLen (b :: s) = runeLen (b :: (s ++ t)) := by
  have hzero : isTail 0 = false := rfl
  rw [runeLen_eq] at h
  rw [runeLen_eq, runeLen_eq]
  rcases s with _ | ⟨b1, _ | ⟨b2, _ | ⟨b3, s⟩⟩⟩
  · simp only [List.getD_cons_zero, List.getD_cons_succ, List.getD_nil, hzero, Bool.false_eq_true,
      and_false, if_false, List.nil_append, List.length_singleton,
      isSecond_eq_false hzero] at h ⊢
    split_ifs at h ⊢ <;> first | rfl | omega
  · simp only [List.getD_cons_zero, List.getD_cons_succ, List.getD_nil, hzero, Bool.false_eq_true,
      and_false, if_false, List.cons_append, List.nil_append, List.length_cons,
      List.length_nil] at h ⊢
    split_ifs at h ⊢ <;> first | rfl | omega
  · simp only [List.getD_cons_zero, List.getD_cons_succ, List.getD_nil, hzero, Bool.false_eq_true,
      and_false, if_false, List.cons_append, List.nil_append, List.length_cons,
      List.length_nil] at h ⊢
    split_ifs at h ⊢ <;> first | rfl | omega
  · rfl

theorem runes_cons_group {s g : GoString} {gs : List GoString} (h : runes s = g :: gs) :
    s = g ++ gs.flatten ∧ runes gs.flatten = gs ∧ g.length = runeLen s := by
  cases s with
  | nil => simp [runes, runesFuel] at h
  | cons b s =>
    have hle := runeLen_le b s
    rw [runes_cons, List.cons.injEq] at h
    obtain ⟨rfl, rfl⟩ := h
    rw [runes_flatten, List.take_append_drop, List.length_take]
    exact ⟨rfl, rfl, by omega⟩

/-- The runes of a stretch of whole runes are the stretch. -/
theorem runes_split {s : GoString} {gs rest : List GoString} (h : runes s = gs ++ rest) :
    runes gs.flatten = gs ∧ runes rest.flatten = rest := by
  induction gs generalizing s with
  | nil =>
    refine ⟨rfl, ?_⟩
    rw [List.nil_append] at h
    rw [← h, runes_flatten]
  | cons g gs ih =>
    rw [List.cons_append] at h
    obtain ⟨hs, hgs, hlen⟩ := runes_cons_group h
    obtain ⟨hfirst, hrest⟩ := ih hgs
    refine ⟨?_, hrest⟩
    have hgroup : g ≠ [] := (runeGroup_of_mem (s := s) (by rw [h]; simp)).ne_nil
    obtain ⟨b, t, rfl⟩ := List.exists_cons_of_ne_nil hgroup
    rw [List.flatten_append, ← List.append_assoc, List.cons_append, List.cons_append] at hs
    rw [hs] at hlen
    have hcut := @runeLen_of_append b (t ++ gs.flatten) rest.flatten (by
      rw [← hlen, List.length_cons, List.length_cons, List.length_append]
      omega)
    rw [List.flatten_cons, List.cons_append, runes_cons, hcut, ← hlen, ← List.cons_append,
      List.take_left, List.drop_left, hfirst]

end GoString
