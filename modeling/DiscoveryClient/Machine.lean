import Mathlib.Data.List.Basic

/-- A labelled transition system: where a run may start, and what an event may do to a state. -/
structure Machine (σ ε : Type) where
  init : σ → Prop
  step : σ → ε → σ → Prop

namespace Machine

variable {σ ε : Type} {m : Machine σ ε}

/-- A finite run, recording beside every event the state it was taken in. -/
inductive Run (m : Machine σ ε) : List (σ × ε) → σ → Prop
  | start {s} : m.init s → Run m [] s
  | next {past s e s'} : Run m past s → m.step s e s' → Run m (past ++ [(s, e)]) s'

/-- Some run ends in the state. -/
def Reaches (m : Machine σ ε) (s : σ) : Prop := ∃ past, m.Run past s

theorem Reaches.next {s s' : σ} (h : m.Reaches s) (e : ε) (hstep : m.step s e s') :
    m.Reaches s' := by
  obtain ⟨past, run⟩ := h
  exact ⟨_, run.next hstep⟩

/-- Where the steps are those of a partial function, the events it accepts one after another make
up a run. -/
theorem Reaches.events {step : σ → ε → Option σ}
    (hm : ∀ s e s', step s e = some s' → m.step s e s') (events : List ε) {s s' : σ}
    (h : m.Reaches s) (hrun : events.foldlM step s = some s') : m.Reaches s' := by
  induction events generalizing s with
  | nil =>
    rw [← Option.some.inj hrun]
    exact h
  | cons e rest ih =>
    rw [List.foldlM_cons] at hrun
    obtain ⟨next, hstep, hrest⟩ := Option.bind_eq_some_iff.mp hrun
    exact ih (h.next e (hm s e next hstep)) hrest

/-- The property holds in every state of a run, the last one included. -/
def Always (P : σ → Prop) (past : List (σ × ε)) (last : σ) : Prop :=
  (∀ x ∈ past, P x.1) ∧ P last

/-- Every step of a run meets the condition in the state it was taken in. -/
def Each (C : σ → ε → Prop) (past : List (σ × ε)) : Prop :=
  ∀ x ∈ past, C x.1 x.2

theorem always_snoc {P : σ → Prop} {past : List (σ × ε)} {s s' : σ} {e : ε} :
    Always P (past ++ [(s, e)]) s' ↔ Always P past s ∧ P s' := by
  simp only [Always, List.forall_mem_append, List.forall_mem_singleton]

theorem each_snoc {C : σ → ε → Prop} {past : List (σ × ε)} {s : σ} {e : ε} :
    Each C (past ++ [(s, e)]) ↔ Each C past ∧ C s e := by
  simp only [Each, List.forall_mem_append, List.forall_mem_singleton]

/-- An inductive invariant holds in every state of a run. -/
theorem Run.always {I : σ → Prop} (init : ∀ s, m.init s → I s)
    (step : ∀ s e s', I s → m.step s e s' → I s')
    {past : List (σ × ε)} {s : σ} (run : m.Run past s) : Always I past s := by
  induction run with
  | start h => exact ⟨by simp, init _ h⟩
  | next _ h ih => exact always_snoc.mpr ⟨ih, step _ _ _ ih.2 h⟩

/-- Every event a run records was taken as a step. -/
theorem Run.each_step {past : List (σ × ε)} {s : σ} (run : m.Run past s) :
    Each (fun s e => ∃ s', m.step s e s') past := by
  induction run with
  | start => simp [Each]
  | next _ h ih => exact each_snoc.mpr ⟨ih, _, h⟩

/-- The machine with only those steps that meet the condition. -/
def constrained (m : Machine σ ε) (C : σ → ε → Prop) : Machine σ ε where
  init := m.init
  step s e s' := C s e ∧ m.step s e s'

theorem Run.constrained {C : σ → ε → Prop} {past : List (σ × ε)} {s : σ} (run : m.Run past s)
    (met : Each C past) : (m.constrained C).Run past s := by
  induction run with
  | start h => exact .start h
  | next _ h ih =>
    obtain ⟨hpast, hlast⟩ := each_snoc.mp met
    exact .next (ih hpast) ⟨hlast, h⟩

/-- An invariant that the steps meeting a condition keep holds along the runs that meet it. -/
theorem Run.always_of_each {I : σ → Prop} {C : σ → ε → Prop} (init : ∀ s, m.init s → I s)
    (step : ∀ s e s', I s → C s e → m.step s e s' → I s')
    {past : List (σ × ε)} {s : σ} (run : m.Run past s) (met : Each C past) : Always I past s :=
  Run.always (m := m.constrained C) init (fun s e s' inv h => step s e s' inv h.1 h.2)
    (run.constrained met)

/-- When a step out of a good state ends in a good one exactly if it meets the condition, the
runs that stay good are exactly those whose steps all meet it. `J` is what staying good adds. -/
theorem Run.always_iff_each {P J : σ → Prop} {C : σ → ε → Prop}
    (init : ∀ s, m.init s → P s ∧ J s)
    (step : ∀ s e s', P s → J s → m.step s e s' → (P s' ↔ C s e) ∧ (P s' → J s'))
    {past : List (σ × ε)} {s : σ} (run : m.Run past s) :
    Always P past s ↔ Each C past := by
  have strong : (Always P past s ↔ Each C past) ∧ (Always P past s → J s) := by
    induction run with
    | start h => exact ⟨by simp [Always, Each, (init _ h).1], fun _ => (init _ h).2⟩
    | next _ h ih =>
      rw [always_snoc, each_snoc]
      refine ⟨⟨fun good => ?_, fun met => ?_⟩, fun good => ?_⟩
      · exact ⟨ih.1.mp good.1, (step _ _ _ good.1.2 (ih.2 good.1) h).1.mp good.2⟩
      · have past := ih.1.mpr met.1
        exact ⟨past, (step _ _ _ past.2 (ih.2 past) h).1.mpr met.2⟩
      · exact (step _ _ _ good.1.2 (ih.2 good.1) h).2 good.2
  exact strong.1

/-- The same for a property of steps: `J` is what the steps taken so far ensure. -/
theorem Run.each_iff_each {J : σ → Prop} {P C : σ → ε → Prop} (init : ∀ s, m.init s → J s)
    (step : ∀ s e s', J s → m.step s e s' → (P s e ↔ C s e) ∧ (P s e → J s'))
    {past : List (σ × ε)} {s : σ} (run : m.Run past s) :
    (Each P past ↔ Each C past) ∧ (Each P past → Always J past s) := by
  induction run with
  | start h => exact ⟨by simp [Each], fun _ => by simp [Always, init _ h]⟩
  | next _ h ih =>
    rw [each_snoc, each_snoc]
    refine ⟨⟨fun good => ?_, fun met => ?_⟩, fun good => ?_⟩
    · have hJ := (ih.2 good.1).2
      exact ⟨ih.1.mp good.1, (step _ _ _ hJ h).1.mp good.2⟩
    · have past := ih.1.mpr met.1
      have hJ := (ih.2 past).2
      exact ⟨past, (step _ _ _ hJ h).1.mpr met.2⟩
    · have hJ := ih.2 good.1
      exact always_snoc.mpr ⟨hJ, (step _ _ _ hJ.2 h).2 good.2⟩

end Machine
