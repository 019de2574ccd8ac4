import Mathlib.Logic.Function.Basic
import DiscoveryClient.HostApi

namespace DiscoveryClient

/-- Where `tcpClient.Discover` is: between two steps with those still to do, waiting in a step, or
returned, with its success. -/
inductive DiscoverPosition
  | between (rest : List HandshakeStep)
  | inStep (rest : List HandshakeStep)
  | returned (ok : Bool)
deriving DecidableEq

/-- The two that may call `Stop`: the connect timer, and the host API, which does so after a
discovery without keep alives and in `Disconnect`. -/
inductive Stopper
  | timer
  | host
deriving DecidableEq

/-- A call of `Stop`: not made, before `tcpQ` is set to nil, after it, and past `close(aenCh)`. -/
inductive StopPhase
  | idle
  | entered
  | cleared
  | closed
deriving DecidableEq

/-- The timer goroutine in its select, or past it. -/
inductive TimerPosition
  | waiting
  | gone
deriving DecidableEq

/-- The goroutine that `Discover` starts for its receive loop, before and after it evaluates
`client.tcpQ.recvPdu`. -/
inductive ReceiverPosition
  | starting
  | receiving
deriving DecidableEq

/-- `handleChannel` of the client: before each select it evaluates `KAChan`. -/
inductive ChannelPosition
  | absent
  | entering
  | selecting
  | returned
deriving DecidableEq

/-- One client from the moment its queue and its timer exist. -/
structure ClientRun where
  kato : Int
  discover : DiscoverPosition := .between handshakeSteps
  receiver : ReceiverPosition := .starting
  timer : TimerPosition := .waiting
  timerCancelled : Bool := false
  stop : Stopper → StopPhase := fun _ => .idle
  forwarder : ChannelPosition := .absent
  tcpQNil : Bool := false
  closes : Nat := 0
  usedNil : Bool := false

inductive ClientEvent
  | beginStep
  | endStep (failed : Bool)
  | finish
  | startReceiver
  | timerFires
  | timerObserves
  | register
  | hostStops
  | clear (who : Stopper)
  | close (who : Stopper)
  | enterSelect
  | takeAEN
  | leave

namespace ClientRun

/-- A use of `client.tcpQ`, which panics when it is nil. -/
def use (s : ClientRun) : ClientRun :=
  if s.tcpQNil then { s with usedNil := true } else s

def setStop (s : ClientRun) (who : Stopper) (phase : StopPhase) : ClientRun :=
  { s with stop := Function.update s.stop who phase }

/-- The end of the step at hand: `Discover` cancels its timer whenever it returns. -/
def endStep (s : ClientRun) (rest : List HandshakeStep) (failed : Bool) : ClientRun :=
  if failed then { s with discover := .returned false, timerCancelled := true }
  else { s with discover := .between rest }

/-- The end of `Discover`, where only keep alives need the queue once more. -/
def finish (s : ClientRun) : ClientRun :=
  { (if 0 < s.kato then s.use else s) with discover := .returned true, timerCancelled := true }

/-- `Stop` on behalf of the host API: at once, or when the session is disconnected. -/
def mayStop (s : ClientRun) : Bool :=
  s.discover = .returned true ∧ s.stop .host = .idle ∧ (s.kato = 0 ∨ s.forwarder ≠ .absent)

def step (s : ClientRun) (e : ClientEvent) : Option ClientRun :=
  if s.usedNil ∨ 1 < s.closes then none
  else
    match e with
    | .beginStep =>
      match s.discover with
      | .between (_ :: rest) => some { s.use with discover := .inStep rest }
      | _ => none
    | .endStep failed =>
      match s.discover with
      | .inStep rest => some (s.endStep rest failed)
      | _ => none
    | .finish => if s.discover = .between [] then some s.finish else none
    | .startReceiver =>
      if s.receiver = .starting then some { s.use with receiver := .receiving } else none
    | .timerFires =>
      if s.timer = .waiting then some ({ s with timer := .gone }.setStop .timer .entered) else none
    | .timerObserves =>
      if s.timer = .waiting ∧ s.timerCancelled then some { s with timer := .gone } else none
    | .register =>
      if s.discover = .returned true ∧ s.kato ≠ 0 ∧ s.forwarder = .absent then
        some { s with forwarder := .entering }
      else none
    | .hostStops => if s.mayStop then some (s.setStop .host .entered) else none
    | .clear who =>
      if s.stop who = .entered then some ({ s with tcpQNil := true }.setStop who .cleared) else none
    | .close who =>
      if s.stop who = .cleared then
        some ({ s with closes := s.closes + 1 }.setStop who .closed)
      else none
    | .enterSelect =>
      if s.forwarder = .entering then some { s.use with forwarder := .selecting } else none
    | .takeAEN => if s.forwarder = .selecting then some { s with forwarder := .entering } else none
    | .leave => if s.forwarder = .selecting then some { s with forwarder := .returned } else none

end ClientRun

def clientRun : Machine ClientRun ClientEvent where
  init s := ∃ kato, s = { kato }
  step s e s' := s.step e = some s'

theorem clientRun_next {past : List (ClientRun × ClientEvent)} {s s' : ClientRun}
    (run : clientRun.Run past s) (e : ClientEvent) (hstep : s.step e = some s') :
    clientRun.Run (past ++ [(s, e)]) s' :=
  run.next hstep

/-- `Discover` uses the queue in its next move. -/
def DiscoverPosition.usesNext (kato : Int) : DiscoverPosition → Bool
  | .between [] => 0 < kato
  | .between (_ :: _) => true
  | _ => false

namespace ClientRun

/-- `Discover`, its receiver or `handleChannel` uses the queue in its next move, whatever the others
do. -/
def UsesNext (s : ClientRun) : Prop :=
  s.discover.usesNext s.kato ∨ s.receiver = .starting ∨ s.forwarder = .entering

/-- A call of `Stop` has been made. -/
def Stopping (s : ClientRun) : Prop := ∃ who, s.stop who ≠ .idle

end ClientRun

/-- One call of `Stop` at most closes the channel, and from the call on nothing is about to use the
queue, so that nothing finds it nil. -/
structure StoppedOnce (s : ClientRun) : Prop where
  closesOnce : s.closes ≤ 1
  neverNil : s.usedNil = false
  one : ∀ who who', s.stop who ≠ .idle → s.stop who' ≠ .idle → who = who'
  quiet : s.Stopping → ¬s.UsesNext

/-- `Stop` is called when it was not called before and nobody is about to use the queue; once it is,
no step of `Discover` ends well that another use follows, no session is registered and
`handleChannel` takes no further event. -/
def StopsQuietly (s : ClientRun) : ClientEvent → Prop
  | .timerFires | .hostStops => ¬s.Stopping ∧ ¬s.UsesNext
  | .endStep false => s.Stopping →
    ∀ rest, s.discover = .inStep rest → (DiscoverPosition.between rest).usesNext s.kato = false
  | .register | .takeAEN => ¬s.Stopping
  | _ => True

/-- A nil queue and a closed channel are the work of a call of `Stop`, and a timer that still waits
has made none. -/
structure StopInv (s : ClientRun) : Prop where
  cleared : s.tcpQNil → s.Stopping
  unclosed : (∀ who, s.stop who ≠ .closed) → s.closes = 0
  waiting : s.timer = .waiting → s.stop .timer = .idle

/-- A move that no call of `Stop` makes, and that uses no nil queue. -/
structure SameStops (s s' : ClientRun) : Prop where
  stop : s'.stop = s.stop
  closes : s'.closes = s.closes
  tcpQNil : s'.tcpQNil = s.tcpQNil
  usedNil : s'.usedNil = s.usedNil
  timer : s'.timer = .waiting → s.timer = .waiting

namespace StoppedOnce

variable {s s' : ClientRun}

theorem alive (once : StoppedOnce s) : ¬(s.usedNil = true ∨ 1 < s.closes) := by
  have hcloses := once.closesOnce
  simp only [once.neverNil, Bool.false_eq_true, false_or]
  omega

/-- Whoever is about to use the queue still finds it. -/
theorem use_eq (once : StoppedOnce s) (inv : StopInv s) (uses : s.UsesNext) : s.use = s := by
  have hnil : s.tcpQNil = false := by
    by_contra h
    have stopping := inv.cleared (Bool.not_eq_false _ ▸ h)
    exact once.quiet stopping uses
  simp only [ClientRun.use, hnil, Bool.false_eq_true, if_false]

theorem moved_iff (once : StoppedOnce s) (same : SameStops s s') :
    StoppedOnce s' ↔ (s.Stopping → ¬s'.UsesNext) := by
  have hstopping : s'.Stopping ↔ s.Stopping := by simp only [ClientRun.Stopping, same.stop]
  constructor
  · intro once' stopping
    exact once'.quiet (hstopping.mpr stopping)
  · intro quiet
    refine ⟨?_, ?_, ?_, ?_⟩
    · rw [same.closes]
      exact once.closesOnce
    · rw [same.usedNil]
      exact once.neverNil
    · rw [same.stop]
      exact once.one
    · intro stopping
      exact quiet (hstopping.mp stopping)

/-- A move that leads up to no use of the queue. -/
theorem moved (once : StoppedOnce s) (same : SameStops s s') (uses : s'.UsesNext → s.UsesNext) :
    StoppedOnce s' := by
  refine (once.moved_iff same).mpr ?_
  intro stopping uses'
  exact once.quiet stopping (uses uses')

/-- A new call of `Stop` must be the first, and must come when nobody is about to use the queue. -/
theorem entered_iff (once : StoppedOnce s) {who : Stopper} (hidle : s.stop who = .idle) :
    StoppedOnce (s.setStop who .entered) ↔ ¬s.Stopping ∧ ¬s.UsesNext := by
  have hnow : (s.setStop who .entered).stop who ≠ .idle := by
    simp [ClientRun.setStop]
  constructor
  · intro once'
    refine ⟨?_, once'.quiet ⟨who, hnow⟩⟩
    intro stopping
    obtain ⟨other, hother⟩ := stopping
    have hne : other ≠ who := by
      intro heq
      rw [heq] at hother
      exact hother hidle
    have hthen : (s.setStop who .entered).stop other ≠ .idle := by
      simpa only [ClientRun.setStop, Function.update_of_ne hne] using hother
    exact hne (once'.one other who hthen hnow)
  · intro h
    obtain ⟨first, quiet⟩ := h
    have honly : ∀ other, (s.setStop who .entered).stop other ≠ .idle → other = who := by
      intro other hother
      by_contra hne
      refine first ⟨other, ?_⟩
      simpa only [ClientRun.setStop, Function.update_of_ne hne] using hother
    refine ⟨once.closesOnce, once.neverNil, ?_, fun _ => quiet⟩
    intro a b ha hb
    rw [honly a ha, honly b hb]

/-- A call that was made goes on. -/
theorem setStop (once : StoppedOnce s) {who : Stopper} {phase : StopPhase}
    (hmade : s.stop who ≠ .idle) (hphase : phase ≠ .idle) : StoppedOnce (s.setStop who phase) := by
  have hiff : ∀ other, (s.setStop who phase).stop other ≠ .idle ↔ s.stop other ≠ .idle := by
    intro other
    by_cases heq : other = who
    · simp [ClientRun.setStop, heq, hmade, hphase]
    · simp [ClientRun.setStop, heq]
  refine ⟨once.closesOnce, once.neverNil, ?_, ?_⟩
  · intro a b ha hb
    exact once.one a b ((hiff a).mp ha) ((hiff b).mp hb)
  · intro stopping
    obtain ⟨other, hother⟩ := stopping
    exact once.quiet ⟨other, (hiff other).mp hother⟩

/-- The channel is still open when the one call of `Stop` comes to close it. -/
theorem close (once : StoppedOnce s) (inv : StopInv s) {who : Stopper}
    (hcleared : s.stop who = .cleared) :
    StoppedOnce ({ s with closes := s.closes + 1 }.setStop who .closed) := by
  have hmade : s.stop who ≠ .idle := by simp [hcleared]
  have hopen : s.closes = 0 := by
    refine inv.unclosed ?_
    intro other hclosed
    have heq := once.one other who (by simp [hclosed]) hmade
    rw [heq, hcleared] at hclosed
    simp at hclosed
  have hcloses : s.closes + 1 ≤ 1 := by omega
  have next : StoppedOnce { s with closes := s.closes + 1 } :=
    ⟨hcloses, once.neverNil, once.one, once.quiet⟩
  exact next.setStop hmade (by simp)

end StoppedOnce

namespace StopInv

variable {s s' : ClientRun}

theorem moved (inv : StopInv s) (same : SameStops s s') : StopInv s' := by
  refine ⟨?_, ?_, ?_⟩
  · intro h
    rw [same.tcpQNil] at h
    simpa only [ClientRun.Stopping, same.stop] using inv.cleared h
  · intro h
    rw [same.stop] at h
    rw [same.closes]
    exact inv.unclosed h
  · intro h
    rw [same.stop]
    exact inv.waiting (same.timer h)

/-- `Stop` makes its next move; `unclosed` says that this is not the last one, or that it was. -/
theorem setStop {who : Stopper} {phase : StopPhase} (hphase : phase ≠ .idle)
    (unclosed : phase ≠ .closed → (∀ other, s.stop other ≠ .closed) → s.closes = 0)
    (hopen : s.stop who ≠ .closed) (hwho : s.timer = .waiting → who ≠ .timer ∧ s.stop .timer = .idle) :
    StopInv (s.setStop who phase) := by
  refine ⟨fun _ => ⟨who, by simpa [ClientRun.setStop] using hphase⟩, ?_, ?_⟩
  · intro h
    have hnow : phase ≠ .closed := by simpa [ClientRun.setStop] using h who
    refine unclosed hnow ?_
    intro other
    by_cases heq : other = who
    · rw [heq]
      exact hopen
    · simpa only [ClientRun.setStop, Function.update_of_ne heq] using h other
  · intro h
    obtain ⟨hne, hidle⟩ := hwho h
    simpa only [ClientRun.setStop, Function.update_of_ne hne.symm] using hidle

/-- A timer that still waits is not the one whose `Stop` goes on. -/
theorem not_timer (inv : StopInv s) {who : Stopper} (hmade : s.stop who ≠ .idle)
    (h : s.timer = .waiting) : who ≠ .timer ∧ s.stop .timer = .idle := by
  have hidle := inv.waiting h
  refine ⟨?_, hidle⟩
  intro heq
  rw [heq] at hmade
  exact hmade hidle

end StopInv

theorem ClientRun.endStep_same {s : ClientRun} (rest : List HandshakeStep) (failed : Bool) :
    SameStops s (s.endStep rest failed) := by
  cases failed <;> exact ⟨rfl, rfl, rfl, rfl, id⟩

namespace StoppedOnce

variable {s : ClientRun}

theorem endStep_iff (once : StoppedOnce s) {rest : List HandshakeStep}
    (hd : s.discover = .inStep rest) (failed : Bool) :
    StoppedOnce (s.endStep rest failed) ↔ StopsQuietly s (.endStep failed) := by
  have same := s.endStep_same rest failed
  cases failed with
  | true =>
    refine iff_of_true (once.moved same ?_) trivial
    intro uses
    refine Or.inr ?_
    simpa [ClientRun.UsesNext, ClientRun.endStep, DiscoverPosition.usesNext] using uses
  | false =>
    refine (once.moved_iff same).trans ?_
    constructor
    · intro quiet stopping rest' hd'
      rw [hd, DiscoverPosition.inStep.injEq] at hd'
      subst hd'
      exact Bool.not_eq_true _ ▸ fun uses => quiet stopping (Or.inl uses)
    · intro quiet stopping uses
      rcases uses with uses | hothers
      · have hnot := quiet stopping rest hd
        exact Bool.false_ne_true (hnot.symm.trans uses)
      · exact once.quiet stopping (Or.inr hothers)

theorem finish_eq (once : StoppedOnce s) (inv : StopInv s) (hd : s.discover = .between []) :
    s.finish = { s with discover := .returned true, timerCancelled := true } := by
  by_cases hkato : 0 < s.kato
  · have uses : s.UsesNext := by simp [ClientRun.UsesNext, hd, DiscoverPosition.usesNext, hkato]
    simp only [ClientRun.finish, hkato, if_true, once.use_eq inv uses]
  · simp only [ClientRun.finish, hkato, if_false]

/-- `handleChannel` starts, or comes round to its next select. -/
theorem entering_iff (once : StoppedOnce s) :
    StoppedOnce { s with forwarder := .entering } ↔ ¬s.Stopping := by
  have same : SameStops s { s with forwarder := .entering } := ⟨rfl, rfl, rfl, rfl, id⟩
  refine (once.moved_iff same).trans ?_
  simp [ClientRun.UsesNext]

end StoppedOnce

theorem clientRun_step {s s' : ClientRun} {e : ClientEvent} (once : StoppedOnce s) (inv : StopInv s)
    (hstep : s.step e = some s') : (StoppedOnce s' ↔ StopsQuietly s e) ∧ StopInv s' := by
  simp only [ClientRun.step, once.alive, if_false] at hstep
  cases e with
  | beginStep =>
    simp only at hstep
    split at hstep
    next step rest hd =>
      have uses : s.UsesNext := by simp [ClientRun.UsesNext, hd, DiscoverPosition.usesNext]
      rw [once.use_eq inv uses, Option.some.injEq] at hstep
      subst hstep
      have same : SameStops s { s with discover := .inStep rest } := ⟨rfl, rfl, rfl, rfl, id⟩
      exact ⟨iff_of_true (once.moved same fun _ => uses) trivial, inv.moved same⟩
    next => simp at hstep
  | endStep failed =>
    simp only at hstep
    split at hstep
    next rest hd =>
      rw [← Option.some.inj hstep]
      exact ⟨once.endStep_iff hd failed, inv.moved (s.endStep_same rest failed)⟩
    next => simp at hstep
  | finish =>
    simp only [Option.ite_none_right_eq_some, Option.some.injEq] at hstep
    obtain ⟨hd, hstep⟩ := hstep
    rw [once.finish_eq inv hd] at hstep
    subst hstep
    have same : SameStops s { s with discover := .returned true, timerCancelled := true } :=
      ⟨rfl, rfl, rfl, rfl, id⟩
    refine ⟨iff_of_true (once.moved same ?_) trivial, inv.moved same⟩
    intro uses
    exact Or.inr (by simpa [ClientRun.UsesNext, DiscoverPosition.usesNext] using uses)
  | startReceiver =>
    simp only [Option.ite_none_right_eq_some] at hstep
    obtain ⟨hstarting, hstep⟩ := hstep
    have uses : s.UsesNext := Or.inr (Or.inl hstarting)
    rw [once.use_eq inv uses, Option.some.injEq] at hstep
    subst hstep
    have same : SameStops s { s with receiver := .receiving } := ⟨rfl, rfl, rfl, rfl, id⟩
    exact ⟨iff_of_true (once.moved same fun _ => uses) trivial, inv.moved same⟩
  | timerFires =>
    simp only [Option.ite_none_right_eq_some, Option.some.injEq] at hstep
    obtain ⟨ht, rfl⟩ := hstep
    have same : SameStops s { s with timer := .gone } := ⟨rfl, rfl, rfl, rfl, by simp⟩
    have hidle := inv.waiting ht
    refine ⟨(once.moved same id).entered_iff hidle, ?_⟩
    exact StopInv.setStop (by simp) (fun _ => inv.unclosed) (by simp [hidle]) (by simp)
  | timerObserves =>
    simp only [Option.ite_none_right_eq_some, Option.some.injEq] at hstep
    obtain ⟨_, rfl⟩ := hstep
    have same : SameStops s { s with timer := .gone } := ⟨rfl, rfl, rfl, rfl, by simp⟩
    exact ⟨iff_of_true (once.moved same id) trivial, inv.moved same⟩
  | register =>
    simp only [Option.ite_none_right_eq_some, Option.some.injEq] at hstep
    obtain ⟨_, rfl⟩ := hstep
    exact ⟨once.entering_iff, inv.moved ⟨rfl, rfl, rfl, rfl, id⟩⟩
  | hostStops =>
    simp only [Option.ite_none_right_eq_some, Option.some.injEq, ClientRun.mayStop,
      decide_eq_true_eq] at hstep
    obtain ⟨⟨_, hidle, _⟩, rfl⟩ := hstep
    refine ⟨once.entered_iff hidle, ?_⟩
    exact StopInv.setStop (by simp) (fun _ => inv.unclosed) (by simp [hidle])
      fun ht => ⟨by simp, inv.waiting ht⟩
  | clear who =>
    simp only [Option.ite_none_right_eq_some, Option.some.injEq] at hstep
    obtain ⟨hentered, rfl⟩ := hstep
    have hmade : s.stop who ≠ .idle := by simp [hentered]
    have next : StoppedOnce { s with tcpQNil := true } :=
      ⟨once.closesOnce, once.neverNil, once.one, once.quiet⟩
    refine ⟨iff_of_true (next.setStop hmade (by simp)) trivial, ?_⟩
    exact StopInv.setStop (by simp) (fun _ => inv.unclosed) (by simp [hentered])
      (inv.not_timer hmade)
  | close who =>
    simp only [Option.ite_none_right_eq_some, Option.some.injEq] at hstep
    obtain ⟨hcleared, rfl⟩ := hstep
    refine ⟨iff_of_true (once.close inv hcleared) trivial, ?_⟩
    exact StopInv.setStop (by simp) (by simp) (by simp [hcleared])
      (inv.not_timer (by simp [hcleared]))
  | enterSelect =>
    simp only [Option.ite_none_right_eq_some] at hstep
    obtain ⟨hentering, hstep⟩ := hstep
    have uses : s.UsesNext := Or.inr (Or.inr hentering)
    rw [once.use_eq inv uses, Option.some.injEq] at hstep
    subst hstep
    have same : SameStops s { s with forwarder := .selecting } := ⟨rfl, rfl, rfl, rfl, id⟩
    exact ⟨iff_of_true (once.moved same fun _ => uses) trivial, inv.moved same⟩
  | takeAEN =>
    simp only [Option.ite_none_right_eq_some, Option.some.injEq] at hstep
    obtain ⟨_, rfl⟩ := hstep
    exact ⟨once.entering_iff, inv.moved ⟨rfl, rfl, rfl, rfl, id⟩⟩
  | leave =>
    simp only [Option.ite_none_right_eq_some, Option.some.injEq] at hstep
    obtain ⟨_, rfl⟩ := hstep
    have same : SameStops s { s with forwarder := .returned } := ⟨rfl, rfl, rfl, rfl, id⟩
    refine ⟨iff_of_true (once.moved same ?_) trivial, inv.moved same⟩
    intro uses
    rcases uses with uses | uses | uses
    · exact Or.inl uses
    · exact Or.inr (Or.inl uses)
    · cases uses

/-- The runs in which the client is stopped at most once, and never under somebody about to use its
queue, are those whose steps all keep to `StopsQuietly`. -/
theorem stopped_once_iff {past : List (ClientRun × ClientEvent)} {s : ClientRun}
    (run : clientRun.Run past s) :
    Machine.Always StoppedOnce past s ↔ Machine.Each StopsQuietly past := by
  refine run.always_iff_each (J := StopInv) ?_ ?_
  · intro s init
    obtain ⟨kato, rfl⟩ := init
    have hidle : ¬({ kato } : ClientRun).Stopping := by simp [ClientRun.Stopping]
    refine ⟨⟨?_, rfl, ?_, fun stopping => absurd stopping hidle⟩, ⟨?_, fun _ => rfl, fun _ => rfl⟩⟩
    · simp
    · simp
    · simp
  · intro s e s' once inv hstep
    obtain ⟨hiff, inv'⟩ := clientRun_step once inv hstep
    exact ⟨hiff, fun _ => inv'⟩

/-- The server never answers: the timer stops the client in the first step, which then fails. -/
theorem stopped_once_iff_timeout :
    ∃ past s, clientRun.Run past s ∧ Machine.Each StopsQuietly past ∧
      Machine.Always StoppedOnce past s ∧ s.closes = 1 := by
  have run := Machine.Run.start (m := clientRun) (s := { kato := 30 }) ⟨30, rfl⟩
  have run := clientRun_next run .startReceiver rfl
  have run := clientRun_next run .beginStep rfl
  have run := clientRun_next run .timerFires rfl
  have run := clientRun_next run (.clear .timer) rfl
  have run := clientRun_next run (.endStep true) rfl
  have run := clientRun_next run (.close .timer) rfl
  have quietly := (stopped_once_iff run).mpr ?_
  · exact ⟨_, _, run, (stopped_once_iff run).mp quietly, quietly, rfl⟩
  refine Machine.each_snoc.mpr ⟨?_, trivial⟩
  refine Machine.each_snoc.mpr ⟨?_, trivial⟩
  refine Machine.each_snoc.mpr ⟨?_, trivial⟩
  refine Machine.each_snoc.mpr ⟨?_, ?_⟩
  · refine Machine.each_snoc.mpr ⟨?_, trivial⟩
    refine Machine.each_snoc.mpr ⟨?_, trivial⟩
    simp [Machine.Each]
  · simp [StopsQuietly, ClientRun.Stopping, ClientRun.UsesNext, DiscoverPosition.usesNext,
      ClientRun.use]

/-- A discovery without keep alives succeeds as its timer expires: the timer has not seen that it
is cancelled, both call `Stop` and both close the channel. -/
def expiringDiscovery : List ClientEvent :=
  .startReceiver :: (handshakeSteps.flatMap fun _ => [.beginStep, .endStep false]) ++
    [.finish, .timerFires, .hostStops, .clear .timer, .close .timer, .clear .host, .close .host]

theorem channel_closed_twice :
    ¬∀ past s, clientRun.Run past s → s.closes ≤ 1 ∧ s.usedNil = false := by
  intro h
  obtain ⟨s, hrun, hcloses⟩ : ∃ s, expiringDiscovery.foldlM ClientRun.step { kato := 0 } = some s ∧
      s.closes = 2 := ⟨_, rfl, rfl⟩
  have start : clientRun.Reaches { kato := 0 } := ⟨[], .start ⟨0, rfl⟩⟩
  obtain ⟨past, run⟩ := start.events (fun _ _ _ hstep => hstep) expiringDiscovery hrun
  have honce := (h past s run).1
  omega

end DiscoveryClient
