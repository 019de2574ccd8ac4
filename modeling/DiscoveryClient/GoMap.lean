import Mathlib.Data.List.AList

/-- A Go map: finitely many keys, each with one value. -/
abbrev GoMap (κ ν : Type) := AList (fun _ : κ => ν)

/-- The order one `range` loop takes. The runtime picks it, so any permutation is possible. -/
structure RangeOrder (α : Type) where
  order : List α → List α
  perm : ∀ l, (order l).Perm l

namespace RangeOrder

variable {α : Type}

/-- The order in which the entries happen to be stored. -/
def stored : RangeOrder α := ⟨id, List.Perm.refl⟩

@[simp] theorem mem_order (r : RangeOrder α) {l : List α} {x : α} : x ∈ r.order l ↔ x ∈ l :=
  (r.perm l).mem_iff

theorem order_ne_nil (r : RangeOrder α) {l : List α} (h : l ≠ []) : r.order l ≠ [] := by
  intro hn
  exact h (List.Perm.eq_nil (hn ▸ (r.perm l).symm))

/-- The order that ranges over one list as given and over any other as it is stored. -/
def ofPerm [DecidableEq α] {l l' : List α} (h : l'.Perm l) : RangeOrder α where
  order x := if x = l then l' else x
  perm x := by
    split
    next hx =>
      subst hx
      exact h
    next => exact List.Perm.refl x

theorem order_ofPerm [DecidableEq α] {l l' : List α} (h : l'.Perm l) :
    (ofPerm h).order l = l' := if_pos rfl

end RangeOrder

namespace GoMap

variable {κ ν : Type} [DecidableEq κ]

theorem lookup_insert_eq {m : GoMap κ ν} {k k' : κ} {v : ν} :
    (m.insert k v).lookup k' = if k' = k then some v else m.lookup k' := by
  split
  next h => subst h; exact AList.lookup_insert m
  next h => exact AList.lookup_insert_ne h

theorem lookup_erase_eq {m : GoMap κ ν} {k k' : κ} :
    (m.erase k).lookup k' = if k' = k then none else m.lookup k' := by
  split
  next h => subst h; exact AList.lookup_erase k' m
  next h => exact AList.lookup_erase_ne h

theorem lookup_insert_some {m : GoMap κ ν} {k k' : κ} {v v' : ν}
    (h : (m.insert k v).lookup k' = some v') : k' = k ∧ v' = v ∨ k' ≠ k ∧ m.lookup k' = some v' := by
  rw [lookup_insert_eq] at h
  split at h
  next hk => exact Or.inl ⟨hk, (Option.some.inj h).symm⟩
  next hk => exact Or.inr ⟨hk, h⟩

theorem lookup_erase_some {m : GoMap κ ν} {k k' : κ} {v : ν}
    (h : (m.erase k).lookup k' = some v) : k' ≠ k ∧ m.lookup k' = some v := by
  rw [lookup_erase_eq] at h
  split at h
  next => simp at h
  next hk => exact ⟨hk, h⟩

theorem erase_insert_empty (k : κ) (v : ν) : ((∅ : GoMap κ ν).insert k v).erase k = ∅ := by
  refine AList.ext ?_
  change List.kerase k ((∅ : GoMap κ ν).insert k v).entries = []
  simp [List.kerase]

theorem mem_iff_lookup {m : GoMap κ ν} {k : κ} : k ∈ m ↔ ∃ v, m.lookup k = some v := by
  rw [← AList.lookup_isSome, Option.isSome_iff_exists]

theorem mem_entries {m : GoMap κ ν} {x : Sigma fun _ : κ => ν} :
    x ∈ m.entries ↔ m.lookup x.1 = some x.2 := by
  rw [← Option.mem_def, AList.mem_lookup_iff]

theorem mem_of_mem_entries {m : GoMap κ ν} {x : Sigma fun _ : κ => ν} (h : x ∈ m.entries) :
    x.1 ∈ m := mem_iff_lookup.mpr ⟨x.2, mem_entries.mp h⟩

end GoMap
