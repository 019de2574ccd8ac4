import Mathlib.Logic.Relation
import Mathlib.Tactic.MkIffOfInductiveProp
import DiscoveryClient.CapsuleReplies
import DiscoveryClient.Machine

/-! The end of a connection on the server: `destroy` takes the queue and its controller down while
their goroutines still run. -/

namespace DiscoveryClient

open Nvme

/-- How far `tcpQueue.destroy` has come, through `nvmeQueue.destroy` and `nvmeController.delete`. -/
inductive DestroyPosition
  | idle
  | connClosed
  | chanClosed
  | chanNil
  | watchStopped
  | locked
  | cancelled
  | returned
deriving DecidableEq

/-- How many steps are left until the goroutines have been told to end. -/
def DestroyPosition.left : DestroyPosition → Nat
  | .idle => 6
  | .connClosed => 5
  | .chanClosed => 4
  | .chanNil => 3
  | .watchStopped => 2
  | .locked => 1
  | .cancelled | .returned => 0

/-- The goroutine of `keepAliveHandler`; `expired` is its send on `keepAliveExpiredCh`. -/
inductive KatoTimerPosition
  | waiting
  | expired
  | returned
deriving DecidableEq

/-- The goroutine of `watchKeepAliveExpired`. -/
inductive WatcherPosition
  | watching
  | forwarding
  | returned
deriving DecidableEq

/-- The goroutine of `handleAENEvents`; it answers a request with the controller locked. -/
inductive AenPosition
  | selecting
  | locking
  | answering
  | returned
deriving DecidableEq

/-- The goroutine of `handleReceivePdu`: it answers a request, waits for the controller's lock to
register an asynchronous event request or to set the configuration, refuses a request with the
controller locked, or hands over an error. -/
inductive ReaderPosition
  | reading
  | answering
  | registering (request : AsyncEventRequest)
  | configuring (value : UInt32)
  | refusing
  | failing
  | returned
deriving DecidableEq

/-- The goroutine of `pollResponseChannel`. -/
inductive WriterPosition
  | receiving
  | writing
  | returned
deriving DecidableEq

structure Teardown where
  ctrl : NvmeController
  sqID : UInt16
  destroy : DestroyPosition := .idle
  timer : KatoTimerPosition := .waiting
  watcher : WatcherPosition := .watching
  aen : AenPosition := .selecting
  reader : ReaderPosition := .reading
  writer : WriterPosition := .receiving
  /-- `ioWork` is in its select. -/
  selecting : Bool := true
  panicked : Bool := false
deriving DecidableEq

inductive TeardownEvent
  | timerFires
  | timerAborts
  | expiredTaken
  | watchStops
  | forwarded
  | notified
  | aenLocks
  | aenAnswered
  | aenEnds
  | answers
  | setsFeatures (value : UInt32)
  | registers (request : AsyncEventRequest)
  | configures (value : UInt32)
  | readerLocks
  | readerAnswered
  | readFails
  | readerReturns
  | failureTaken
  | written
  | writeFails
  | writerEnds
  | destroys
deriving DecidableEq

namespace Teardown

/-- The conditions under which a goroutine other than `destroy` finds the shared objects. -/
def connOpen (s : Teardown) : Prop := s.destroy = .idle

def chanOpen (s : Teardown) : Prop := s.destroy = .idle ∨ s.destroy = .connClosed

def stopClosed (s : Teardown) : Prop :=
  s.destroy = .watchStopped ∨ s.destroy = .locked ∨ s.destroy = .cancelled ∨ s.destroy = .returned

def ctxDone (s : Teardown) : Prop := s.destroy = .cancelled ∨ s.destroy = .returned

def deleting (s : Teardown) : Prop := s.destroy = .locked ∨ s.destroy = .cancelled

/-- The controller's lock is held. -/
def lockHeld (s : Teardown) : Prop := s.aen = .answering ∨ s.reader = .refusing ∨ s.deleting

/-- A goroutine stands in the send of `queueResponse`. -/
def sending (s : Teardown) : Prop :=
  s.aen = .answering ∨ s.reader = .answering ∨ s.reader = .refusing

instance (s : Teardown) : Decidable s.connOpen := by unfold connOpen; infer_instance
instance (s : Teardown) : Decidable s.chanOpen := by unfold chanOpen; infer_instance
instance (s : Teardown) : Decidable s.stopClosed := by unfold stopClosed; infer_instance
instance (s : Teardown) : Decidable s.ctxDone := by unfold ctxDone; infer_instance
instance (s : Teardown) : Decidable s.deleting := by unfold deleting; infer_instance
instance (s : Teardown) : Decidable s.lockHeld := by unfold lockHeld; infer_instance
instance (s : Teardown) : Decidable s.sending := by unfold sending; infer_instance

/-- A send starts: it panics on a closed channel, and on a nil channel it stays there. -/
def queueResponse (s : Teardown) : Teardown :=
  { s with panicked := decide (s.destroy = .chanClosed) }

/-- The next step of `destroy`. Closing the channel makes the goroutines panic that send on it. -/
def destroyStep (s : Teardown) : Option Teardown :=
  match s.destroy with
  | .idle => some { s with destroy := .connClosed }
  | .connClosed => some { s with destroy := .chanClosed, panicked := decide s.sending }
  | .chanClosed => some { s with destroy := .chanNil }
  | .chanNil => some { s with destroy := .watchStopped }
  | .watchStopped => if s.lockHeld then none else some { s with destroy := .locked }
  | .locked => some { s with destroy := .cancelled }
  | .cancelled =>
    if s.timer = .returned ∧ s.aen = .returned then some { s with destroy := .returned } else none
  | .returned => none

/-- A goroutine's turn in its own code. -/
def turn (s : Teardown) : TeardownEvent → Option Teardown
  | .timerFires =>
    if s.timer = .waiting then
      some { s with
        timer := if s.ctrl.csts &&& cstsCfs = 0 then .expired else .returned
        ctrl := s.ctrl.keepAliveExpired }
    else none
  | .timerAborts =>
    if s.timer = .waiting ∧ s.ctxDone then some { s with timer := .returned } else none
  | .expiredTaken =>
    if s.timer = .expired ∧ s.watcher = .watching then
      some { s with timer := .returned, watcher := .forwarding }
    else none
  | .watchStops =>
    if s.watcher = .watching ∧ s.stopClosed then some { s with watcher := .returned } else none
  | .forwarded =>
    if s.watcher = .forwarding ∧ s.selecting then
      some { s with watcher := .returned, selecting := false }
    else none
  | .notified =>
    if s.aen = .selecting ∧ s.ctrl.aenBitEnabled then some { s with aen := .locking } else none
  | .aenLocks =>
    if s.aen = .locking ∧ ¬s.lockHeld then
      let (ctrl, answer) := s.ctrl.handleAENEvent s.sqID
      some (if answer.isSome then queueResponse { s with ctrl, aen := .answering }
        else { s with ctrl, aen := .selecting })
    else none
  | .aenAnswered =>
    if s.aen = .answering ∧ s.chanOpen ∧ s.writer = .receiving then
      some { s with aen := .selecting, writer := .writing }
    else none
  | .aenEnds => if s.aen = .selecting ∧ s.ctxDone then some { s with aen := .returned } else none
  | .answers =>
    if s.reader = .reading then some (queueResponse { s with reader := .answering }) else none
  | .setsFeatures value =>
    if s.reader = .reading then
      some (queueResponse { s with ctrl := s.ctrl.setAENValue value, reader := .answering })
    else none
  | .registers request =>
    if s.reader = .reading then some { s with reader := .registering request } else none
  | .configures value =>
    if s.reader = .reading then some { s with reader := .configuring value } else none
  | .readerLocks =>
    if s.lockHeld then none
    else
      match s.reader with
      | .registering request =>
        let (ctrl, refusal) := s.ctrl.registerAsyncEventRequest s.sqID request
        some (if refusal.isSome then queueResponse { s with ctrl, reader := .refusing }
          else { s with ctrl, reader := .reading })
      | .configuring value =>
        let ctrl := s.ctrl.updateControllerConfiguration value
        some (queueResponse { s with ctrl, reader := .answering })
      | _ => none
  | .readerAnswered =>
    if (s.reader = .answering ∨ s.reader = .refusing) ∧ s.chanOpen ∧ s.writer = .receiving then
      some { s with reader := .reading, writer := .writing }
    else none
  | .readFails => if s.reader = .reading then some { s with reader := .failing } else none
  | .readerReturns => if s.reader = .reading then some { s with reader := .returned } else none
  | .failureTaken =>
    if s.reader = .failing ∧ s.selecting then
      some { s with reader := .returned, selecting := false }
    else none
  | .written =>
    if s.writer = .writing ∧ s.connOpen then some { s with writer := .receiving } else none
  | .writeFails => if s.writer = .writing then some { s with writer := .returned } else none
  | .writerEnds =>
    if s.writer = .receiving ∧ ¬s.chanOpen then some { s with writer := .returned } else none
  | .destroys => s.destroyStep

/-- After a panic the process is gone. -/
def step (s : Teardown) (e : TeardownEvent) : Option Teardown :=
  if s.panicked then none else s.turn e

end Teardown

/-- A connection whose controller has been created. -/
def teardown : Machine Teardown TeardownEvent where
  init s := ∃ ctrl sqID, s = { ctrl, sqID }
  step s e s' := s.step e = some s'

namespace Teardown

variable {s s' : Teardown}

/-- Some order of the goroutines leads from one state to the other. -/
def Leads : Teardown → Teardown → Prop := Relation.ReflTransGen fun s s' => ∃ e, s.step e = some s'

/-- `destroy` can still return. -/
def CanReturn (s : Teardown) : Prop :=
  ∃ s', s.Leads s' ∧ s'.destroy = .returned ∧ s'.panicked = false

/-- The event handler answers a request, or is about to. -/
def owes (s : Teardown) : Prop :=
  s.aen = .answering ∨ s.aen = .locking ∧ s.ctrl.asyncEventPendingRequests ≠ []

instance (s : Teardown) : Decidable s.owes := by unfold owes; infer_instance

/-- How many answers have to be taken before the controller's lock and the channel are free. -/
def awaited (s : Teardown) : Nat :=
  (if s.owes then 1 else 0) + if s.reader = .answering ∨ s.reader = .refusing then 1 else 0

/-- How many the writer still takes, once the connection is closed. -/
def taken (s : Teardown) : Nat := if s.writer = .receiving then 1 else 0

/-- The ways in which `destroy` is blocked for good, or the process is gone. -/
@[mk_iff] inductive Jammed (s : Teardown) : Prop
  | panicked (h : s.panicked = true)
  /-- The timer has nobody left to tell. -/
  | timer (h : s.timer = .expired) (gone : s.watcher ≠ .watching) (unfinished : s.destroy ≠ .returned)
  /-- The writer has failed, and an answer waits for it. -/
  | writer (h : s.destroy = .idle) (gone : s.writer = .returned) (waits : s.awaited ≠ 0)
  /-- The writer fails after the next answer, and more than that wait. -/
  | answers (h : s.destroy = .connClosed) (waits : s.taken < s.awaited)
  /-- Nobody takes answers any more, and one is sent with the controller locked. -/
  | sender (h : s.destroy = .chanClosed ∨ s.destroy = .chanNil ∨ s.destroy = .watchStopped)
      (waits : s.owes ∨ s.reader = .refusing)
  /-- `delete` waits for a goroutine that waits for its lock. -/
  | lock (h : s.deleting) (waits : s.aen = .locking)

/-- While `delete` has the lock, no other goroutine has. -/
def Excluded (s : Teardown) : Prop := s.deleting → s.aen ≠ .answering ∧ s.reader ≠ .refusing

theorem handleAENEvent_isSome {ctrl : NvmeController} {sqID : UInt16} :
    (ctrl.handleAENEvent sqID).2.isSome = true ↔ ctrl.asyncEventPendingRequests ≠ [] := by
  unfold NvmeController.handleAENEvent
  cases ctrl.asyncEventPendingRequests <;> simp

theorem registerAsyncEventRequest_waits {ctrl : NvmeController} {sqID : UInt16}
    {request : AsyncEventRequest} (h : ctrl.asyncEventPendingRequests ≠ []) :
    (ctrl.registerAsyncEventRequest sqID request).1.asyncEventPendingRequests ≠ [] := by
  unfold NvmeController.registerAsyncEventRequest
  split
  · exact h
  · simp

theorem step_jammed {e : TeardownEvent} (h : s.step e = some s') (jammed : s.Jammed) : s'.Jammed := by
  unfold step at h
  split at h
  · cases h
  next hpanicked =>
  cases e with
  | readerLocks =>
    simp only [turn, queueResponse] at h
    split at h
    · cases h
    · split at h <;>
        grind [jammed_iff, deleting, lockHeld, owes, awaited, taken,
          NvmeController.updateControllerConfiguration_pending, registerAsyncEventRequest_waits]
  | _ =>
    simp only [turn, destroyStep, queueResponse] at h
    grind [jammed_iff, deleting, lockHeld, sending, owes, awaited, taken, chanOpen, connOpen,
      keepAliveExpired_pending, NvmeController.setAENValue, handleAENEvent_isSome]

theorem step_excluded {e : TeardownEvent} (h : s.step e = some s') (excluded : s.Excluded) :
    s'.Excluded := by
  unfold step at h
  split at h
  · cases h
  next =>
  cases e with
  | readerLocks =>
    simp only [turn, queueResponse] at h
    split at h
    · cases h
    · split at h <;> grind [Excluded, deleting, lockHeld]
  | _ =>
    simp only [turn, destroyStep, queueResponse] at h
    grind [Excluded, deleting, lockHeld]

/-- Nothing stands in the way of `destroy`, whose own steps are all that is left to do before the
goroutines are told to end. -/
structure Settled (s : Teardown) : Prop where
  alive : s.panicked = false
  timer : s.timer ≠ .expired
  aen : s.aen = .selecting ∨ s.aen = .returned
  lock : s.reader ≠ .refusing
  chan : s.chanOpen → s.reader ≠ .answering

/-- What goroutines have to get done before the state is settled. -/
def work (s : Teardown) : Nat :=
  (if s.timer = .expired then 1 else 0) +
    (if s.aen = .locking then 4 else if s.aen = .answering then 2 else 0) +
    (if s.reader = .answering ∨ s.reader = .refusing then 2 else 0) +
    if s.writer = .writing then 1 else 0

/-- The turn that brings a state closer to a settled one. -/
def settling (s : Teardown) : TeardownEvent :=
  if s.timer = .expired then .expiredTaken
  else if s.writer = .writing ∧ s.connOpen then .written
  else if (s.reader = .answering ∨ s.reader = .refusing) ∧ s.chanOpen then .readerAnswered
  else if s.aen = .answering then .aenAnswered
  else .aenLocks

theorem alive_of_free (free : ¬s.Jammed) : s.panicked = false := by
  by_contra h
  exact free (.panicked (by simpa using h))

/-- As long as the channel is open, an answer that waits finds the writer. -/
theorem receiving_of_free (free : ¬s.Jammed) (hopen : s.chanOpen) (waits : s.awaited ≠ 0)
    (unwritten : ¬(s.writer = .writing ∧ s.connOpen)) : s.writer = .receiving := by
  have hjam : s.writer ≠ .receiving → s.taken < s.awaited := by
    intro h
    rw [taken, if_neg h]
    omega
  cases hwriter : s.writer with
  | receiving => rfl
  | writing =>
    rcases hopen with hidle | hclosed
    · exact absurd ⟨hwriter, hidle⟩ unwritten
    · exact absurd (.answers hclosed (hjam (by simp [hwriter]))) free
  | returned =>
    rcases hopen with hidle | hclosed
    · exact absurd (.writer hidle hwriter waits) free
    · exact absurd (.answers hclosed (hjam (by simp [hwriter]))) free

/-- An answer that is sent with the controller locked is sent before the channel is closed. -/
theorem chanOpen_of_free (excluded : s.Excluded) (free : ¬s.Jammed)
    (unfinished : s.destroy ≠ .returned) (hsent : s.aen = .answering ∨ s.reader = .refusing) :
    s.chanOpen := by
  have hwaits : s.owes ∨ s.reader = .refusing := hsent.imp_left Or.inl
  have hdeleting : ¬s.deleting := fun h => by
    rcases hsent with haen | hreader
    · exact (excluded h).1 haen
    · exact (excluded h).2 hreader
  cases hdestroy : s.destroy with
  | idle => exact Or.inl hdestroy
  | connClosed => exact Or.inr hdestroy
  | chanClosed | chanNil | watchStopped => exact absurd (.sender (by simp [hdestroy]) hwaits) free
  | locked | cancelled => exact absurd (by simp [deleting, hdestroy]) hdeleting
  | returned => exact absurd hdestroy unfinished

theorem settling_step (excluded : s.Excluded) (free : ¬s.Jammed) (unfinished : s.destroy ≠ .returned)
    (unsettled : ¬s.Settled) :
    ∃ s', s.step s.settling = some s' ∧ ¬s'.Jammed ∧ s'.destroy = s.destroy ∧ s'.work < s.work := by
  have halive := alive_of_free free
  simp only [step, halive, Bool.false_eq_true, if_false, settling]
  split
  next hexpired =>
    have hwatching : s.watcher = .watching := by
      by_contra hgone
      exact free (.timer hexpired hgone unfinished)
    refine ⟨_, if_pos ⟨hexpired, hwatching⟩, ?_, rfl, ?_⟩
    · grind [jammed_iff, deleting, owes, awaited, taken]
    · simp [work, hexpired]
  next htimer =>
  split
  next hwriting =>
    refine ⟨_, if_pos hwriting, ?_, rfl, ?_⟩
    · grind [jammed_iff, deleting, owes, awaited, taken, connOpen]
    · simp [work, hwriting.1]
  next hwriter =>
  split
  next hreader =>
    have hwaits : s.awaited ≠ 0 := by simp [awaited, hreader.1]
    have hreceiving := receiving_of_free free hreader.2 hwaits hwriter
    refine ⟨_, if_pos ⟨hreader.1, hreader.2, hreceiving⟩, ?_, rfl, ?_⟩
    · grind [jammed_iff, deleting, owes, awaited, taken, chanOpen]
    · simp [work, hreader.1, hreceiving]
  next hreader =>
  split
  next haen =>
    have hopen := chanOpen_of_free excluded free unfinished (Or.inl haen)
    have hwaits : s.awaited ≠ 0 := by simp [awaited, owes, haen]
    have hreceiving := receiving_of_free free hopen hwaits hwriter
    refine ⟨_, if_pos ⟨haen, hopen, hreceiving⟩, ?_, rfl, ?_⟩
    · grind [jammed_iff, deleting, owes, awaited, taken, chanOpen]
    · simp only [work, haen, hreceiving, reduceCtorEq, if_true, if_false]
      omega
  next haen =>
    have hrefusing : s.reader ≠ .refusing := fun h =>
      hreader ⟨Or.inr h, chanOpen_of_free excluded free unfinished (Or.inr h)⟩
    have hlocking : s.aen = .locking := by
      by_contra hlocking
      refine unsettled ⟨halive, htimer, ?_, hrefusing, fun hopen h => hreader ⟨Or.inl h, hopen⟩⟩
      cases haen' : s.aen <;> simp_all
    have hfree : ¬s.lockHeld := by
      rintro (h | h | h)
      · exact haen h
      · exact hrefusing h
      · exact free (.lock h hlocking)
    have hnot : ¬(s.ctrl.asyncEventPendingRequests ≠ [] ∧ s.destroy = .chanClosed) := fun h =>
      free (.sender (Or.inl h.2) (Or.inl (Or.inr ⟨hlocking, h.1⟩)))
    refine ⟨_, if_pos ⟨hlocking, hfree⟩, ?_, ?_, ?_⟩
    · grind [jammed_iff, deleting, owes, awaited, taken, queueResponse, handleAENEvent_isSome]
    · grind [queueResponse]
    · grind [work, queueResponse]

/-- Whatever stands in the way of `destroy` can be got out of the way first. -/
theorem settles (excluded : s.Excluded) (free : ¬s.Jammed) (unfinished : s.destroy ≠ .returned) :
    ∃ s', s.Leads s' ∧ s'.Settled ∧ s'.destroy = s.destroy := by
  induction hwork : s.work using Nat.strongRecOn generalizing s with
  | ind n ih =>
    by_cases settled : s.Settled
    · exact ⟨s, .refl, settled, rfl⟩
    · obtain ⟨s', hstep, hfree, hdestroy, hless⟩ :=
        settling_step excluded free unfinished settled
      obtain ⟨s'', hleads, hsettled, hdestroy'⟩ := ih s'.work (hwork ▸ hless)
        (step_excluded hstep excluded) hfree (hdestroy ▸ unfinished) rfl
      exact ⟨s'', .head ⟨_, hstep⟩ hleads, hsettled, hdestroy'.trans hdestroy⟩

theorem Settled.move (settled : s.Settled) {next : DestroyPosition}
    (hopen : { s with destroy := next }.chanOpen → s.chanOpen) :
    Settled { s with destroy := next } :=
  ⟨settled.alive, settled.timer, settled.aen, settled.lock, fun h => settled.chan (hopen h)⟩

theorem Settled.not_answering (settled : s.Settled) : s.aen ≠ .answering := by
  intro h
  rcases settled.aen with haen | haen <;> rw [haen] at h <;> cases h

theorem Settled.not_sending (settled : s.Settled) (hopen : s.chanOpen) : ¬s.sending := by
  rintro (h | h | h)
  · exact settled.not_answering h
  · exact settled.chan hopen h
  · exact settled.lock h

/-- In a settled state every step of `destroy` is free to be taken. -/
theorem Settled.advance (settled : s.Settled) (hleft : s.destroy.left ≠ 0) :
    ∃ next, s.step .destroys = some { s with destroy := next } ∧
      Settled { s with destroy := next } ∧ next ≠ .returned ∧ s.destroy.left = next.left + 1 := by
  have hstep : s.step .destroys = s.destroyStep := by simp [step, settled.alive, turn]
  rw [hstep]
  unfold destroyStep
  cases hdestroy : s.destroy with
  | idle => exact ⟨.connClosed, rfl, settled.move fun _ => Or.inl hdestroy, by decide, rfl⟩
  | connClosed =>
    have hsent : decide s.sending = s.panicked := by
      rw [settled.alive, decide_eq_false (settled.not_sending (Or.inr hdestroy))]
    refine ⟨.chanClosed, by simp only [hsent], settled.move fun h => ?_, by decide, rfl⟩
    rcases h with h | h <;> cases h
  | chanClosed =>
    refine ⟨.chanNil, rfl, settled.move fun h => ?_, by decide, rfl⟩
    rcases h with h | h <;> cases h
  | chanNil =>
    refine ⟨.watchStopped, rfl, settled.move fun h => ?_, by decide, rfl⟩
    rcases h with h | h <;> cases h
  | watchStopped =>
    have hfree : ¬s.lockHeld := by
      rintro (h | h | h | h)
      · exact settled.not_answering h
      · exact settled.lock h
      · rw [hdestroy] at h
        cases h
      · rw [hdestroy] at h
        cases h
    refine ⟨.locked, if_neg hfree, settled.move fun h => ?_, by decide, rfl⟩
    rcases h with h | h <;> cases h
  | locked =>
    refine ⟨.cancelled, rfl, settled.move fun h => ?_, by decide, rfl⟩
    rcases h with h | h <;> cases h
  | cancelled | returned => simp [hdestroy, DestroyPosition.left] at hleft

/-- `destroy` gets to where it waits for the goroutines of the controller. -/
theorem Settled.cancels (settled : s.Settled) (unfinished : s.destroy ≠ .returned) :
    ∃ s', s.Leads s' ∧ s'.Settled ∧ s'.destroy = .cancelled := by
  induction hleft : s.destroy.left generalizing s with
  | zero =>
    refine ⟨s, .refl, settled, ?_⟩
    cases hdestroy : s.destroy <;> simp [hdestroy, DestroyPosition.left] at hleft unfinished ⊢
  | succ n ih =>
    obtain ⟨next, hstep, hnext, hunfinished, hn⟩ := settled.advance (by omega)
    obtain ⟨s', hleads, hs'⟩ := ih hnext hunfinished (by simpa using hn.symm.trans hleft)
    exact ⟨s', .head ⟨_, hstep⟩ hleads, hs'⟩

theorem Leads.canReturn (hleads : s.Leads s') (h : s'.CanReturn) : s.CanReturn := by
  obtain ⟨last, hlast, hreturned⟩ := h
  exact ⟨last, hleads.trans hlast, hreturned⟩

theorem canReturn_of_step {e : TeardownEvent} (hstep : s.step e = some s') (h : s'.CanReturn) :
    s.CanReturn := Leads.canReturn (.single ⟨e, hstep⟩) h

/-- Once both goroutines of the controller are gone, `delete` goes on. -/
theorem canReturn_of_waited (alive : s.panicked = false) (hcancelled : s.destroy = .cancelled)
    (htimer : s.timer = .returned) (haen : s.aen = .returned) : s.CanReturn := by
  have hstep : s.step .destroys = some { s with destroy := .returned } := by
    simp [step, turn, destroyStep, alive, hcancelled, htimer, haen]
  exact canReturn_of_step hstep ⟨_, .refl, rfl, alive⟩

theorem canReturn_of_timer (alive : s.panicked = false) (hcancelled : s.destroy = .cancelled)
    (htimer : s.timer = .returned) (haen : s.aen = .selecting ∨ s.aen = .returned) :
    s.CanReturn := by
  rcases haen with haen | haen
  · have hstep : s.step .aenEnds = some { s with aen := .returned } := by
      simp [step, turn, alive, haen, ctxDone, hcancelled]
    exact canReturn_of_step hstep (canReturn_of_waited alive hcancelled htimer rfl)
  · exact canReturn_of_waited alive hcancelled htimer haen

theorem Settled.canReturn (settled : s.Settled) (hcancelled : s.destroy = .cancelled) :
    s.CanReturn := by
  cases htimer : s.timer with
  | waiting =>
    have hstep : s.step .timerAborts = some { s with timer := .returned } := by
      simp [step, turn, settled.alive, htimer, ctxDone, hcancelled]
    exact canReturn_of_step hstep (canReturn_of_timer settled.alive hcancelled rfl settled.aen)
  | expired => exact absurd htimer settled.timer
  | returned => exact canReturn_of_timer settled.alive hcancelled htimer settled.aen

theorem Leads.jammed (hleads : s.Leads s') (jammed : s.Jammed) : s'.Jammed := by
  induction hleads with
  | refl => exact jammed
  | tail _ hstep ih =>
    obtain ⟨e, hstep⟩ := hstep
    exact step_jammed hstep ih

theorem Jammed.not_canReturn (jammed : s.Jammed) : ¬s.CanReturn := by
  rintro ⟨last, hleads, hreturned, halive⟩
  cases hleads.jammed jammed with
  | panicked h => rw [halive] at h; cases h
  | timer _ _ h => exact h hreturned
  | writer h => rw [hreturned] at h; cases h
  | answers h => rw [hreturned] at h; cases h
  | sender h => rw [hreturned] at h; simp at h
  | lock h => simp [deleting, hreturned] at h

end Teardown

/-- Whatever the other goroutines of a connection have done so far, `destroy` can still return
exactly if no goroutine has blocked it for good: the keep-alive timer with nobody to tell, an answer
that nobody takes, or the event handler at the lock that `delete` holds. -/
theorem destroy_returns_iff {s : Teardown} (reached : teardown.Reaches s) :
    s.CanReturn ↔ ¬s.Jammed := by
  have excluded : s.Excluded := by
    obtain ⟨past, run⟩ := reached
    refine (run.always (I := Teardown.Excluded) ?_ fun _ _ _ h hstep =>
      Teardown.step_excluded hstep h).2
    rintro _ ⟨ctrl, sqID, rfl⟩
    simp [Teardown.Excluded, Teardown.deleting]
  refine ⟨fun h jammed => jammed.not_canReturn h, fun free => ?_⟩
  by_cases hreturned : s.destroy = .returned
  · exact ⟨s, .refl, hreturned, Teardown.alive_of_free free⟩
  · obtain ⟨settled, hsettles, hsettled, hdestroy⟩ := Teardown.settles excluded free hreturned
    obtain ⟨last, hcancels, hlast, hcancelled⟩ := hsettled.cancels (hdestroy ▸ hreturned)
    exact Teardown.Leads.canReturn (hsettles.trans hcancels) (hlast.canReturn hcancelled)

/-- An event that comes after the watch has been stopped blocks `destroy`. -/
theorem destroy_never_returns :
    ∃ s, teardown.Reaches s ∧ s.destroy = .locked ∧ ¬s.CanReturn := by
  let ctrl : NvmeController := ⟨[], 1, 0, 0, 1000, true, []⟩
  let stopped : Teardown := { ctrl, sqID := 0, destroy := .locked, aen := .locking }
  have reached : teardown.Reaches stopped :=
    Machine.Reaches.events (fun s e s' (h : s.step e = some s') => h)
      [.destroys, .destroys, .destroys, .destroys, .notified, .destroys]
      ⟨[], .start ⟨ctrl, 0, rfl⟩⟩ (by decide)
  exact ⟨stopped, reached, rfl, fun h =>
    (destroy_returns_iff reached).mp h (.lock (Or.inl rfl) rfl)⟩

end DiscoveryClient
