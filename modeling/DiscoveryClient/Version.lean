import Mathlib.Logic.Relation
import Mathlib.Order.Basic
import Mathlib.Order.Nat

namespace Version

open Relation

variable {State Counter : Type*} [Preorder Counter] {version : State → Counter}

/-- A change of a versioned state, to any state with a greater version. -/
def Advances (version : State → Counter) (s t : State) : Prop := version s < version t

/-- After any number of changes the state is the same, or its version is greater. -/
theorem eq_or_advances {s t : State} (h : ReflTransGen (Advances version) s t) :
    t = s ∨ Advances version s t := by
  have htrans : IsTrans State (Advances version) := ⟨fun _ _ _ => lt_trans⟩
  rwa [reflTransGen_iff_eq_or_transGen, transGen_eq_self] at h

/-- The states a reader sees: before each of them, there is any number of changes. -/
structure Observed (version : State → Counter) (states : Nat → State) : Prop where
  changes : ∀ k, ReflTransGen (Advances version) (states k) (states (k + 1))

namespace Observed

variable {states : Nat → State}

theorem between (h : Observed version states) {i j : Nat} (hij : i ≤ j) :
    ReflTransGen (Advances version) (states i) (states j) := by
  induction j, hij using Nat.le_induction with
  | base => exact .refl
  | succ j _ ih => exact ih.trans (h.changes j)

/-- A reader that sees the version it began with has seen one state only. -/
theorem unchanged (h : Observed version states) {n : Nat}
    (hversion : version (states n) = version (states 0)) {k : Nat} (hk : k ≤ n) :
    states k = states 0 := by
  rcases eq_or_advances (h.between (Nat.zero_le k)) with heq | hfirst
  · exact heq
  · have hlast : version (states 0) < version (states n) := by
      rcases eq_or_advances (h.between hk) with heq | hrest
      · rw [heq]
        exact hfirst
      · exact lt_trans hfirst hrest
    exact absurd hversion hlast.ne'

end Observed

end Version
