import DiscoveryClient.Machine

/-- What a goroutine that loops over a select may meet: a value in one of its cases, the end of its
context, the outcome of a send it is at, and that whoever ended the context takes away what the two
share. -/
inductive SelectEvent (ρ : Type)
  | received (value : ρ)
  | done
  | sent (ok : Bool)
  | stopped

structure SelectLoop where
  State : Type
  Received : Type
  start : State → Prop
  returned : State → Bool
  step : State → SelectEvent Received → Option State

namespace SelectLoop

def machine (l : SelectLoop) : Machine l.State (SelectEvent l.Received) where
  init := l.start
  step s e s' := l.step s e = some s'

/-- The loop's next move once its context is done and there is nothing to receive. -/
def cancelled (l : SelectLoop) (ok : Bool) (s : l.State) : l.State :=
  ((l.step s .done).or (l.step s (.sent ok))).getD s

def stopped (l : SelectLoop) (stop : Bool) (s : l.State) : l.State :=
  if stop then (l.step s .stopped).getD s else s

/-- Move after move, with the outcome of the send at each and whether what the loop shares is taken
away before it. -/
def cancelledRun (l : SelectLoop) (sends stops : Nat → Bool) (s : l.State) : Nat → l.State
  | 0 => s
  | n + 1 => l.cancelled (sends n) (l.stopped (stops n) (l.cancelledRun sends stops s n))

/-- The loop returns after finitely many moves. -/
def Ends (l : SelectLoop) (sends stops : Nat → Bool) (s : l.State) : Prop :=
  ∃ n, l.returned (l.cancelledRun sends stops s n) = true

/-- The sends that succeed among the first ones. -/
def successes (sends : Nat → Bool) : Nat → Nat
  | 0 => 0
  | n + 1 => successes sends n + (sends n).toNat

theorem successes_eq_zero {sends : Nat → Bool} (h : ∀ n, sends n = false) (n : Nat) :
    successes sends n = 0 := by
  induction n with
  | zero => rfl
  | succ n ih =>
    rw [successes, ih, h n]
    rfl

variable {l : SelectLoop}

theorem cancelledRun_add (sends stops : Nat → Bool) (s : l.State) (n d : Nat) :
    l.cancelledRun sends stops s (n + d) =
      l.cancelledRun (fun i => sends (n + i)) (fun i => stops (n + i))
        (l.cancelledRun sends stops s n) d := by
  induction d with
  | zero => rfl
  | succ d ih =>
    have hlast : n + (d + 1) = n + d + 1 := by omega
    rw [hlast, cancelledRun, ih, cancelledRun]

/-- The sends that must succeed before the loop returns, or none where it cannot: each success takes
one off, a failure changes nothing, and without any left to wait for the loop returns by itself.
Where the loop `shares` what it sends with, no send is left to succeed once that is taken away. -/
structure Countdown (l : SelectLoop) (shares : Bool) (needs : l.State → Option Nat) : Prop where
  returned : ∀ s, l.returned s = true → needs s = some 0
  cancelled : ∀ ok s, needs (l.cancelled ok s) = (needs s).map (· - ok.toNat)
  stopped : ∀ s, needs (l.stopped true s) = if shares then (needs s).filter (· = 0) else needs s
  free : ∀ s, needs s = some 0 →
    ∃ d, ∀ sends stops, l.returned (l.cancelledRun sends stops s d) = true

/-- Nothing the loop needs is taken away before the move. -/
def Unstopped (shares : Bool) (stops : Nat → Bool) (n : Nat) : Prop :=
  shares = true → ∀ i < n, stops i = false

theorem Unstopped.succ {shares : Bool} {stops : Nat → Bool} {n : Nat}
    (h : Unstopped shares stops n) (hlast : shares = true → stops n = false) :
    Unstopped shares stops (n + 1) := by
  intro hshares i hi
  rcases Nat.lt_succ_iff_lt_or_eq.mp hi with hlt | rfl
  · exact h hshares i hlt
  · exact hlast hshares

namespace Countdown

variable {shares : Bool} {needs : l.State → Option Nat}

theorem stopped_of (count : Countdown l shares needs) {stop : Bool}
    (h : shares = true → stop = false) (s : l.State) : needs (l.stopped stop s) = needs s := by
  cases stop with
  | false => rfl
  | true =>
    have hshares : shares = false := Bool.eq_false_iff.mpr fun hs => Bool.noConfusion (h hs)
    rw [count.stopped, hshares]
    rfl

theorem cancelledRun (count : Countdown l shares needs) (sends : Nat → Bool)
    {stops : Nat → Bool} (s : l.State) {n : Nat} (h : Unstopped shares stops n) :
    needs (l.cancelledRun sends stops s n) = (needs s).map (· - successes sends n) := by
  induction n with
  | zero => simp [SelectLoop.cancelledRun, successes]
  | succ n ih =>
    have hlast : shares = true → stops n = false := fun hshares => h hshares n (Nat.lt_succ_self n)
    have hbefore : Unstopped shares stops n :=
      fun hshares i hi => h hshares i (Nat.lt_succ_of_lt hi)
    rw [SelectLoop.cancelledRun, count.cancelled, count.stopped_of hlast, ih hbefore,
      Option.map_map]
    refine congrArg (fun f => (needs s).map f) ?_
    funext k
    simp only [Function.comp_apply, successes]
    omega

/-- As long as the loop can still return, either nothing was taken away or it was done sending. -/
theorem unstopped_or (count : Countdown l shares needs) {sends stops : Nat → Bool}
    {s : l.State} {n j : Nat} (h : needs (l.cancelledRun sends stops s n) = some j) :
    Unstopped shares stops n ∨
      ∃ k m, needs s = some k ∧ k ≤ successes sends m ∧ Unstopped shares stops m := by
  induction n generalizing j with
  | zero => exact Or.inl fun _ i hi => absurd hi (Nat.not_lt_zero i)
  | succ n ih =>
    rw [SelectLoop.cancelledRun, count.cancelled] at h
    obtain ⟨j', hj', _⟩ := Option.map_eq_some_iff.mp h
    by_cases hstop : shares = true ∧ stops n = true
    · rw [hstop.2, count.stopped, hstop.1, if_pos rfl] at hj'
      obtain ⟨hj', hzero⟩ := Option.filter_eq_some_iff.mp hj'
      rcases ih hj' with unstopped | done
      · rw [count.cancelledRun sends s unstopped] at hj'
        obtain ⟨k, hk, hsub⟩ := Option.map_eq_some_iff.mp hj'
        have hnone : j' = 0 := of_decide_eq_true hzero
        exact Or.inr ⟨k, n, hk, by omega, unstopped⟩
      · exact Or.inr done
    · have hlast : shares = true → stops n = false :=
        fun hshares => Bool.eq_false_iff.mpr fun hstops => hstop ⟨hshares, hstops⟩
      rw [count.stopped_of hlast] at hj'
      rcases ih hj' with unstopped | done
      · exact Or.inl (unstopped.succ hlast)
      · exact Or.inr done

theorem ends_iff (count : Countdown l shares needs) (sends stops : Nat → Bool) (s : l.State) :
    l.Ends sends stops s ↔
      ∃ k n, needs s = some k ∧ k ≤ successes sends n ∧ Unstopped shares stops n := by
  constructor
  · intro ends
    obtain ⟨n, hreturned⟩ := ends
    have hzero := count.returned _ hreturned
    rcases count.unstopped_or hzero with unstopped | done
    · rw [count.cancelledRun sends s unstopped] at hzero
      obtain ⟨k, hk, hsub⟩ := Option.map_eq_some_iff.mp hzero
      exact ⟨k, n, hk, by omega, unstopped⟩
    · exact done
  · intro h
    obtain ⟨k, n, hk, hn, unstopped⟩ := h
    have hzero : needs (l.cancelledRun sends stops s n) = some 0 := by
      rw [count.cancelledRun sends s unstopped, hk, Option.map_some]
      exact congrArg some (by omega)
    obtain ⟨d, hd⟩ := count.free _ hzero
    refine ⟨n + d, ?_⟩
    rw [SelectLoop.cancelledRun_add]
    exact hd _ _

end Countdown

end SelectLoop
