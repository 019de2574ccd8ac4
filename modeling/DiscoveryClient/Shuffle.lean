import Mathlib.Algebra.BigOperators.Ring.Finset
import Mathlib.Data.Fintype.Prod
import Mathlib.Data.Nat.Factorial.Basic

/-! The shuffle of Fisher and Yates, as a function of what is drawn for it. -/

namespace Shuffle

/-- What the shuffle of `n` elements draws: for every place from the last down to the second, one of
the places up to it. -/
def Draws : Nat → Type
  | 0 => Unit
  | 1 => Unit
  | n + 2 => Fin (n + 2) × Draws (n + 1)

instance instFintypeDraws : (n : Nat) → Fintype (Draws n)
  | 0 => inferInstanceAs (Fintype Unit)
  | 1 => inferInstanceAs (Fintype Unit)
  | n + 2 =>
    have := instFintypeDraws (n + 1)
    inferInstanceAs (Fintype (Fin (n + 2) × Draws (n + 1)))

theorem card_draws : (n : Nat) → Fintype.card (Draws n) = n.factorial
  | 0 => rfl
  | 1 => rfl
  | n + 2 => by
    have hrest := card_draws (n + 1)
    have hcard : Fintype.card (Draws (n + 2)) = (n + 2) * Fintype.card (Draws (n + 1)) := by
      rw [← Fintype.card_fin (n + 2), ← Fintype.card_prod, Fintype.card_fin]
      rfl
    rw [hcard, hrest, Nat.factorial_succ (n + 1)]

variable {α β : Type}

/-- The elements at two places change them. -/
def swapAt (l : List α) (i j : Nat) : List α :=
  match l[i]?, l[j]? with
  | some x, some y => (l.set i y).set j x
  | _, _ => l

def shuffle : {n : Nat} → Draws n → List α → List α
  | 0, _, l => l
  | 1, _, l => l
  | n + 2, (j, draws), l => shuffle draws (swapAt l (n + 1) j)

theorem shuffle_map (f : α → β) {l : List α} : {n : Nat} → (draws : Draws n) →
    shuffle draws (l.map f) = (shuffle draws l).map f
  | 0, _ => rfl
  | 1, _ => rfl
  | n + 2, (j, draws) => by
    have hswap : swapAt (l.map f) (n + 1) j = (swapAt l (n + 1) j).map f := by
      simp only [swapAt, List.getElem?_map]
      cases l[n + 1]? with
      | none => rfl
      | some x =>
        cases l[j.val]? with
        | none => rfl
        | some y => simp [List.map_set]
    rw [shuffle, shuffle, hswap]
    exact shuffle_map f draws

section Pick

variable (m : List α) (x : α) (j : Nat)

/-- The element that a draw brings to the last place of `m ++ [x]`. -/
def chosen : α := if h : j < m.length then m[j] else x

/-- The elements that are left before it. -/
def rest : List α := if j < m.length then m.set j x else m

variable {m x j}

theorem rest_length : (rest m x j).length = m.length := by
  unfold rest
  split
  next => rw [List.length_set]
  next => rfl

/-- A list around one of its places. -/
theorem exists_around (h : j < m.length) :
    ∃ front back, m = front ++ m[j] :: back ∧ m.set j x = front ++ x :: back := by
  refine ⟨m.take j, m.drop (j + 1), ?_, List.set_eq_take_append_cons_drop .. |>.trans (if_pos h)⟩
  rw [← List.drop_eq_getElem_cons h, List.take_append_drop]

theorem rest_chosen_perm (m : List α) (x : α) (j : Nat) :
    (rest m x j ++ [chosen m x j]).Perm (m ++ [x]) := by
  unfold rest chosen
  split
  next h =>
    obtain ⟨front, back, hm, hset⟩ := @exists_around α m x j h
    generalize m[j] = y at hm
    rw [hset, hm, List.append_assoc, List.append_assoc]
    refine List.Perm.append_left front ?_
    refine (List.perm_append_singleton y (x :: back)).trans ?_
    exact (List.Perm.swap x y back).trans (List.perm_append_singleton x (y :: back)).symm
  next => exact List.Perm.refl _

theorem swapAt_snoc (hj : j ≤ m.length) :
    swapAt (m ++ [x]) m.length j = rest m x j ++ [chosen m x j] := by
  have hlast : (m ++ [x])[m.length]? = some x := by simp
  by_cases h : j < m.length
  · have hget : (m ++ [x])[j]? = some m[j] := by simp [List.getElem?_append_left h]
    simp only [swapAt, hlast, hget, rest, chosen, h, if_true, dif_pos]
    simp [List.set_append_left _ _ h]
  · have hend : j = m.length := by omega
    subst hend
    simp only [swapAt, hlast, rest, chosen, h, if_false, dif_neg, not_false_eq_true]
    simp

theorem getElem?_chosen (hj : j ≤ m.length) : (m ++ [x])[j]? = some (chosen m x j) := by
  unfold chosen
  split
  next h => simp [List.getElem?_append_left h]
  next h =>
    have hend : j = m.length := by omega
    simp [hend]

/-- In a list without repetitions the draw is known from the element. -/
theorem chosen_inj {k : Nat} (nodup : (m ++ [x]).Nodup) (hj : j ≤ m.length) (hk : k ≤ m.length)
    (h : chosen m x j = chosen m x k) : j = k := by
  have hlt : j < (m ++ [x]).length := by
    rw [List.length_append, List.length_singleton]
    omega
  refine (List.getElem?_inj hlt nodup).mp ?_
  rw [getElem?_chosen hj, getElem?_chosen hk, h]

/-- Every element can be drawn. -/
theorem exists_chosen {y : α} (hy : y ∈ m ++ [x]) : ∃ j ≤ m.length, chosen m x j = y := by
  obtain ⟨j, hget⟩ := List.mem_iff_getElem?.mp hy
  have hj : j ≤ m.length := by
    obtain ⟨hlt, -⟩ := List.getElem?_eq_some_iff.mp hget
    simp at hlt
    omega
  refine ⟨j, hj, ?_⟩
  rw [getElem?_chosen hj] at hget
  exact Option.some.inj hget

end Pick

theorem swapAt_append {l t : List α} {i j : Nat} (hi : i < l.length) (hj : j < l.length) :
    swapAt (l ++ t) i j = swapAt l i j ++ t := by
  simp only [swapAt, List.getElem?_append_left hi, List.getElem?_append_left hj,
    List.getElem?_eq_getElem hi, List.getElem?_eq_getElem hj]
  rw [List.set_append_left _ _ hi, List.set_append_left _ _ (by rwa [List.length_set])]

theorem swapAt_length (l : List α) (i j : Nat) : (swapAt l i j).length = l.length := by
  unfold swapAt
  split
  next => rw [List.length_set, List.length_set]
  next => rfl

/-- A shuffle of the first `n` elements leaves those behind them. -/
theorem shuffle_append {l t : List α} : {n : Nat} → (draws : Draws n) → n ≤ l.length →
    shuffle draws (l ++ t) = shuffle draws l ++ t
  | 0, _, _ => rfl
  | 1, _, _ => rfl
  | n + 2, (j, draws), hn => by
    have hj := j.isLt
    rw [shuffle, shuffle, swapAt_append (by omega) (by omega)]
    exact shuffle_append draws (by rw [swapAt_length]; omega)

/-- The first draw settles the last place. -/
theorem shuffle_snoc {n : Nat} {m : List α} {x : α} (hm : m.length = n + 1) (j : Fin (n + 2))
    (draws : Draws (n + 1)) :
    @shuffle α (n + 2) (j, draws) (m ++ [x]) = shuffle draws (rest m x j) ++ [chosen m x j] := by
  have hj := j.isLt
  have hswap := @swapAt_snoc α m x j (by omega)
  rw [hm] at hswap
  rw [shuffle, hswap]
  exact shuffle_append draws (by rw [rest_length, hm])

theorem exists_snoc {l : List α} {n : Nat} (hl : l.length = n + 1) :
    ∃ m x, l = m ++ [x] ∧ m.length = n := by
  have hne : l ≠ [] := by
    rintro rfl
    cases hl
  refine ⟨l.dropLast, l.getLast hne, (List.dropLast_append_getLast hne).symm, ?_⟩
  rw [List.length_dropLast, hl, Nat.add_sub_cancel]

theorem shuffle_perm {l : List α} : {n : Nat} → (draws : Draws n) → l.length = n →
    (shuffle draws l).Perm l
  | 0, _, _ => List.Perm.refl l
  | 1, _, _ => List.Perm.refl l
  | n + 2, (j, draws), hn => by
    obtain ⟨m, x, rfl, hm⟩ := exists_snoc hn
    rw [shuffle_snoc hm]
    have hrest := @shuffle_perm (rest m x j) (n + 1) draws (rest_length.trans hm)
    exact (hrest.append_right _).trans (rest_chosen_perm m x j)

/-- Different draws give different orders. -/
theorem shuffle_injective {l : List α} (nodup : l.Nodup) : {n : Nat} → l.length = n →
    Function.Injective fun draws : Draws n => shuffle draws l
  | 0, _ => fun _ _ _ => rfl
  | 1, _ => fun _ _ _ => rfl
  | n + 2, hn => by
    obtain ⟨m, x, rfl, hm⟩ := exists_snoc hn
    rintro ⟨j, draws⟩ ⟨k, draws'⟩ heq
    have hj := j.isLt
    have hk := k.isLt
    simp only [shuffle_snoc hm] at heq
    obtain ⟨hrest, hlast⟩ := List.append_inj' heq rfl
    have hsame : j = k :=
      Fin.ext (chosen_inj nodup (by omega) (by omega) (List.singleton_inj.mp hlast))
    subst hsame
    have hnodup : (rest m x j).Nodup :=
      (List.nodup_append.mp ((rest_chosen_perm m x j).nodup_iff.mpr nodup)).1
    rw [shuffle_injective hnodup (rest_length.trans hm) hrest]

/-- Every order is one that can be drawn. -/
theorem shuffle_surjective {l l' : List α} (h : l'.Perm l) : {n : Nat} → l.length = n →
    ∃ draws : Draws n, shuffle draws l = l'
  | 0, hn => by
    rw [List.length_eq_zero_iff] at hn
    subst hn
    exact ⟨(), h.eq_nil.symm⟩
  | 1, hn => by
    obtain ⟨x, rfl⟩ := List.length_eq_one_iff.mp hn
    exact ⟨(), (List.perm_singleton.mp h).symm⟩
  | n + 2, hn => by
    obtain ⟨m, x, rfl, hm⟩ := exists_snoc hn
    obtain ⟨m', y, rfl, -⟩ := exists_snoc (h.length_eq.trans hn)
    obtain ⟨j, hj, hchosen⟩ := exists_chosen (h.mem_iff.mp (by simp : y ∈ m' ++ [y]))
    have hrest : m'.Perm (rest m x j) := by
      have hperm := h.trans (rest_chosen_perm m x j).symm
      rw [hchosen] at hperm
      exact (List.perm_append_right_iff [y]).mp hperm
    obtain ⟨draws, hdraws⟩ := shuffle_surjective hrest (rest_length.trans hm)
    refine ⟨(⟨j, by omega⟩, draws), ?_⟩
    rw [shuffle_snoc hm, hdraws, hchosen]

section Found

variable [DecidableEq α] {l : List α} {n : Nat} {p : α → Bool} {x y : α}

/-- The draws that bring `x` before all other elements with the property. -/
def findsFirst (n : Nat) (p : α → Bool) (l : List α) (x : α) : Finset (Draws n) :=
  Finset.univ.filter fun draws => (shuffle draws l).find? p = some x

theorem mem_findsFirst {draws : Draws n} :
    draws ∈ findsFirst n p l x ↔ (shuffle draws l).find? p = some x := by
  simp [findsFirst]

theorem swap_mem (hx : x ∈ l) (hy : y ∈ l) {z : α} (hz : z ∈ l) : Equiv.swap x y z ∈ l := by
  rcases eq_or_ne z x with rfl | hzx
  · rwa [Equiv.swap_apply_left]
  rcases eq_or_ne z y with rfl | hzy
  · rwa [Equiv.swap_apply_right]
  rwa [Equiv.swap_apply_of_ne_of_ne hzx hzy]

theorem map_swap_perm (nodup : l.Nodup) (hx : x ∈ l) (hy : y ∈ l) :
    (l.map (Equiv.swap x y)).Perm l := by
  refine (List.perm_ext_iff_of_nodup (nodup.map (Equiv.swap x y).injective) nodup).mpr fun z => ?_
  rw [List.mem_map]
  constructor
  · rintro ⟨w, hw, rfl⟩
    exact swap_mem hx hy hw
  · intro hz
    exact ⟨Equiv.swap x y z, swap_mem hx hy hz, Equiv.swap_apply_self x y z⟩

/-- Exchanging two elements with the property exchanges which of them is found. -/
theorem find?_map_swap (hpx : p x = true) (hpy : p y = true) (l : List α) :
    (l.map (Equiv.swap x y)).find? p = (l.find? p).map (Equiv.swap x y) := by
  have hsame : p ∘ Equiv.swap x y = p := by
    funext z
    rw [Function.comp_apply]
    rcases eq_or_ne z x with rfl | hzx
    · rw [Equiv.swap_apply_left, hpx, hpy]
    rcases eq_or_ne z y with rfl | hzy
    · rw [Equiv.swap_apply_right, hpx, hpy]
    rw [Equiv.swap_apply_of_ne_of_ne hzx hzy]
  rw [List.find?_map, hsame]

theorem card_findsFirst_eq (nodup : l.Nodup) (hn : l.length = n) (hx : x ∈ l) (hy : y ∈ l)
    (hpx : p x = true) (hpy : p y = true) :
    (findsFirst n p l x).card = (findsFirst n p l y).card := by
  -- the draws for an order go to those for the order with the two elements exchanged
  have hdraw : ∀ draws : Draws n, ∃ draws' : Draws n,
      shuffle draws' l = (shuffle draws l).map (Equiv.swap x y) := by
    intro draws
    have hperm := (shuffle_perm draws hn).map (Equiv.swap x y)
    exact shuffle_surjective (hperm.trans (map_swap_perm nodup hx hy)) hn
  choose exchange hexchange using hdraw
  have hback : ∀ draws, exchange (exchange draws) = draws := by
    intro draws
    refine shuffle_injective nodup hn ?_
    simp only [hexchange, List.map_map]
    rw [← Equiv.coe_trans, Equiv.swap_swap, Equiv.coe_refl, List.map_id]
  refine Finset.card_nbij' exchange exchange ?_ ?_ (fun _ _ => hback _) (fun _ _ => hback _)
  · intro draws hmem
    rw [Finset.mem_coe, mem_findsFirst] at hmem ⊢
    rw [hexchange, find?_map_swap hpx hpy, hmem, Option.map_some, Equiv.swap_apply_left]
  · intro draws hmem
    rw [Finset.mem_coe, mem_findsFirst] at hmem ⊢
    rw [hexchange, find?_map_swap hpx hpy, hmem, Option.map_some, Equiv.swap_apply_right]

/-- Each of the elements with the property comes first for the same share of the draws. -/
theorem card_findsFirst_mul (nodup : l.Nodup) (hn : l.length = n) (hx : x ∈ l) (hpx : p x = true) :
    (findsFirst n p l x).card * l.countP p = n.factorial := by
  have hmaps : ∀ draws ∈ (Finset.univ : Finset (Draws n)),
      (shuffle draws l).find? p ∈ ((l.filter p).toFinset.image some) := by
    intro draws _
    have hperm := shuffle_perm draws hn
    obtain ⟨z, hz⟩ : ∃ z, (shuffle draws l).find? p = some z := by
      rw [← Option.isSome_iff_exists, List.find?_isSome]
      exact ⟨x, hperm.mem_iff.mpr hx, hpx⟩
    rw [hz, Finset.mem_image]
    refine ⟨z, ?_, rfl⟩
    rw [List.mem_toFinset, List.mem_filter]
    exact ⟨hperm.mem_iff.mp (List.mem_of_find?_eq_some hz), List.find?_some hz⟩
  have hfibers := Finset.card_eq_sum_card_fiberwise hmaps
  rw [Finset.card_univ, card_draws, Finset.sum_image fun _ _ _ _ h => Option.some.inj h] at hfibers
  have hconst : ∀ z ∈ (l.filter p).toFinset,
      (Finset.univ.filter fun draws : Draws n => (shuffle draws l).find? p = some z).card =
        (findsFirst n p l x).card := by
    intro z hz
    rw [List.mem_toFinset, List.mem_filter] at hz
    exact card_findsFirst_eq nodup hn hz.1 hx hz.2 hpx
  rw [Finset.sum_const_nat hconst, List.toFinset_card_of_nodup (nodup.filter p),
    ← List.countP_eq_length_filter] at hfibers
  rw [Nat.mul_comm]
  exact hfibers.symm

/-- The same for a class of elements: its share of the draws is its share of the elements with the
property. -/
theorem card_finds_mul (nodup : l.Nodup) (hn : l.length = n) (p q : α → Bool) :
    (Finset.univ.filter fun draws : Draws n => ((shuffle draws l).find? p).any q = true).card *
      l.countP p = l.countP (fun x => p x && q x) * n.factorial := by
  obtain ⟨finds, hfinds⟩ : ∃ finds : Finset (Draws n), finds =
    Finset.univ.filter fun draws => ((shuffle draws l).find? p).any q = true := ⟨_, rfl⟩
  rw [← hfinds]
  have hmaps : ∀ draws ∈ finds, (shuffle draws l).find? p ∈
      ((l.filter fun x => p x && q x).toFinset.image some) := by
    intro draws hmem
    rw [hfinds, Finset.mem_filter] at hmem
    cases hz : (shuffle draws l).find? p with
    | none => simp [hz] at hmem
    | some z =>
      rw [Finset.mem_image]
      refine ⟨z, ?_, rfl⟩
      have hq : q z = true := by simpa [hz] using hmem.2
      rw [List.mem_toFinset, List.mem_filter, List.find?_some hz, hq]
      exact ⟨(shuffle_perm draws hn).mem_iff.mp (List.mem_of_find?_eq_some hz), rfl⟩
  have hfibers := Finset.card_eq_sum_card_fiberwise hmaps
  rw [Finset.sum_image fun _ _ _ _ h => Option.some.inj h] at hfibers
  have hshare : ∀ z ∈ (l.filter fun x => p x && q x).toFinset,
      (finds.filter fun draws => (shuffle draws l).find? p = some z).card * l.countP p =
        n.factorial := by
    intro z hz
    rw [List.mem_toFinset, List.mem_filter, Bool.and_eq_true] at hz
    have hfiber : (finds.filter fun draws => (shuffle draws l).find? p = some z) =
        findsFirst n p l z := by
      ext draws
      rw [Finset.mem_filter, mem_findsFirst, hfinds, Finset.mem_filter]
      constructor
      · exact fun h => h.2
      · intro h
        refine ⟨⟨Finset.mem_univ draws, ?_⟩, h⟩
        rw [h]
        exact hz.2.2
    rw [hfiber]
    exact card_findsFirst_mul nodup hn hz.1 hz.2.1
  rw [hfibers, Finset.sum_mul, Finset.sum_const_nat hshare,
    List.toFinset_card_of_nodup (nodup.filter _), ← List.countP_eq_length_filter]

end Found

end Shuffle
