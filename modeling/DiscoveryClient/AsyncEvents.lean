import DiscoveryClient.BackgroundLoops

namespace DiscoveryClient

def maxPendingAsyncEventsRequestsLimit : Nat := 4

def nvmeAENCfgDiscChange : UInt32 := 0x80000000

/-- The data of the set-feature command that the client sends in its handshake. -/
def asyncEventConfig : UInt32 := 0x80000000

inductive AsyncStatus
  | success
  | asyncLimit
deriving DecidableEq

structure AsyncCompletion where
  commandID : UInt16
  status : AsyncStatus
deriving DecidableEq

/-- `nvmeController` with the generation of the log it serves. `asyncEventsChan` counts the calls of
`NotifyAsyncEvent` whose event is not handled yet, `pendingRequests` are the IDs of
`asyncEventPendingRequests`. -/
structure Controller where
  generation : Nat
  aenBitEnabled : Bool := false
  asyncEventsChan : Nat := 0
  pendingRequests : List UInt16 := []

namespace Controller

def setAENValue (ctrl : Controller) (value : UInt32) : Controller :=
  { ctrl with aenBitEnabled := nvmeAENCfgDiscChange &&& value ≠ 0 }

def setFeaturesAsyncEvent (ctrl : Controller) (value : UInt32) : Controller :=
  if value &&& ~~~nvmeAENCfgDiscChange ≠ 0 then ctrl else ctrl.setAENValue value

def registerAsyncEventRequest (ctrl : Controller) (commandID : UInt16) :
    Controller × List AsyncCompletion :=
  if maxPendingAsyncEventsRequestsLimit ≤ ctrl.pendingRequests.length then
    (ctrl, [⟨commandID, .asyncLimit⟩])
  else ({ ctrl with pendingRequests := ctrl.pendingRequests ++ [commandID] }, [])

def notifyAsyncEvent (ctrl : Controller) : Controller :=
  if ctrl.aenBitEnabled then { ctrl with asyncEventsChan := ctrl.asyncEventsChan + 1 } else ctrl

/-- The log changes and every controller is notified. -/
def change (ctrl : Controller) : Controller :=
  { ctrl with generation := ctrl.generation + 1 }.notifyAsyncEvent

/-- The event `handleAENEvents` has taken answers the oldest request. -/
def handleAENEvent (ctrl : Controller) : Controller × List AsyncCompletion :=
  match ctrl.pendingRequests with
  | [] => (ctrl, [])
  | commandID :: rest => ({ ctrl with pendingRequests := rest }, [⟨commandID, .success⟩])

end Controller

/-- The controller and one client of it. `requests` and `completions` are on their way, `unread` are
the completions received and not yet followed by their log read, `lastRead` is the generation of the
latest read; `connectRead` tells that the read the service itself triggers after it has connected is
still to come. -/
structure AsyncEvents where
  ctrl : Controller
  commandID : UInt16
  poll : PollPosition := .sending
  requests : List UInt16 := []
  completions : List AsyncCompletion := []
  registered : Bool := false
  unread : Nat := 0
  lastRead : Nat
  connectRead : Bool := true

inductive AsyncEvent
  | change
  | handle
  | send
  | register
  | receive
  | push
  | read
  | readAfterConnect

namespace AsyncEvents

def handle (s : AsyncEvents) : AsyncEvents :=
  let (ctrl, completions) :=
    { s.ctrl with asyncEventsChan := s.ctrl.asyncEventsChan - 1 }.handleAENEvent
  { s with ctrl, completions := s.completions ++ completions }

def send (s : AsyncEvents) : AsyncEvents :=
  { s with
    commandID := s.commandID + 1
    poll := .waiting
    requests := s.requests ++ [s.commandID] }

def register (s : AsyncEvents) (commandID : UInt16) (rest : List UInt16) : AsyncEvents :=
  let (ctrl, completions) := s.ctrl.registerAsyncEventRequest commandID
  { s with ctrl, completions := s.completions ++ completions, requests := rest, registered := true }

def receive (s : AsyncEvents) (rest : List AsyncCompletion) : AsyncEvents :=
  { s with poll := .pushing, completions := rest, unread := s.unread + 1 }

/-- The completions `pollAEN` has handed on, each of which makes the service read the log. -/
def forwarded (s : AsyncEvents) : Nat :=
  if s.poll = .pushing then s.unread - 1 else s.unread

def read (s : AsyncEvents) : AsyncEvents :=
  { s with lastRead := s.ctrl.generation }

def step (s : AsyncEvents) : AsyncEvent → Option AsyncEvents
  | .change => some { s with ctrl := s.ctrl.change }
  | .handle => if 0 < s.ctrl.asyncEventsChan then some s.handle else none
  | .send => if s.poll = .sending then some s.send else none
  | .register =>
    match s.requests with
    | [] => none
    | commandID :: rest => some (s.register commandID rest)
  | .receive =>
    match s.completions with
    | [] => none
    | _ :: rest => if s.poll = .waiting then some (s.receive rest) else none
  | .push => if s.poll = .pushing then some { s with poll := .sending } else none
  | .read => if 0 < s.forwarded then some { s.read with unread := s.unread - 1 } else none
  | .readAfterConnect => if s.connectRead then some { s.read with connectRead := false } else none

/-- Right after the log read of `Discover`. -/
def discovered (generation : Nat) (commandID : UInt16) : AsyncEvents where
  ctrl := { generation : Controller }.setFeaturesAsyncEvent asyncEventConfig
  commandID
  lastRead := generation

/-- The client has read the latest log or will read again, with `queued` events not handled yet. -/
def CoveredBy (s : AsyncEvents) (queued : Nat) : Prop :=
  s.ctrl.generation ≤ s.lastRead ∨ 0 < queued ∨ s.completions ≠ [] ∨ 0 < s.unread

end AsyncEvents

def asyncEvents : Machine AsyncEvents AsyncEvent where
  init s := ∃ generation commandID, s = .discovered generation commandID
  step s e s' := s.step e = some s'

theorem asyncEvents_next {past : List (AsyncEvents × AsyncEvent)} {s s' : AsyncEvents}
    (run : asyncEvents.Run past s) (e : AsyncEvent) (hstep : s.step e = some s') :
    asyncEvents.Run (past ++ [(s, e)]) s' :=
  run.next hstep

/-- The step function as a relation, with what each event presupposes. -/
inductive AsyncEvents.Steps (s : AsyncEvents) : AsyncEvent → AsyncEvents → Prop
  | change : Steps s .change { s with ctrl := s.ctrl.change }
  | handle : 0 < s.ctrl.asyncEventsChan → Steps s .handle s.handle
  | send : s.poll = .sending → Steps s .send s.send
  | register {commandID : UInt16} {rest : List UInt16} : s.requests = commandID :: rest →
      Steps s .register (s.register commandID rest)
  | receive {c : AsyncCompletion} {rest : List AsyncCompletion} : s.completions = c :: rest →
      s.poll = .waiting → Steps s .receive (s.receive rest)
  | push : s.poll = .pushing → Steps s .push { s with poll := .sending }
  | read : 0 < s.forwarded → Steps s .read { s.read with unread := s.unread - 1 }
  | readAfterConnect : s.connectRead = true →
      Steps s .readAfterConnect { s.read with connectRead := false }

theorem AsyncEvents.steps_of_step {s s' : AsyncEvents} {e : AsyncEvent}
    (hstep : s.step e = some s') : s.Steps e s' := by
  cases e with
  | change =>
    rw [← Option.some.inj hstep]
    exact .change
  | handle =>
    simp only [step, Option.ite_none_right_eq_some, Option.some.injEq] at hstep
    obtain ⟨hqueued, rfl⟩ := hstep
    exact .handle hqueued
  | send =>
    simp only [step, Option.ite_none_right_eq_some, Option.some.injEq] at hstep
    obtain ⟨hpoll, rfl⟩ := hstep
    exact .send hpoll
  | register =>
    simp only [step] at hstep
    split at hstep
    next => simp at hstep
    next commandID rest hrequests =>
      rw [← Option.some.inj hstep]
      exact .register hrequests
  | receive =>
    simp only [step] at hstep
    split at hstep
    next => simp at hstep
    next c rest hcompletions =>
      simp only [Option.ite_none_right_eq_some, Option.some.injEq] at hstep
      obtain ⟨hpoll, rfl⟩ := hstep
      exact .receive hcompletions hpoll
  | push =>
    simp only [step, Option.ite_none_right_eq_some, Option.some.injEq] at hstep
    obtain ⟨hpoll, rfl⟩ := hstep
    exact .push hpoll
  | read =>
    simp only [step, Option.ite_none_right_eq_some, Option.some.injEq] at hstep
    obtain ⟨hforwarded, rfl⟩ := hstep
    exact .read hforwarded
  | readAfterConnect =>
    simp only [step, Option.ite_none_right_eq_some, Option.some.injEq] at hstep
    obtain ⟨hread, rfl⟩ := hstep
    exact .readAfterConnect hread

/-- From the first registered request on, when the log is newer than the latest read there is an
event queued, a completion in flight or one received whose log read is still to come. -/
def NoneLost (s : AsyncEvents) : Prop :=
  s.registered = true → s.CoveredBy s.ctrl.asyncEventsChan

/-- Every event handled from then on answers a request. -/
def AnswersEvents (s : AsyncEvents) : AsyncEvent → Prop
  | .handle => s.registered = true →
    ∃ commandID, s.handle.completions = s.completions ++ [⟨commandID, .success⟩]
  | _ => True

/-- The first request is registered before the log changes again, and from then on an event is taken
off the queue only while a request is pending. -/
def MeetsRequests (s : AsyncEvents) : AsyncEvent → Prop
  | .handle => s.registered = true → s.ctrl.pendingRequests ≠ []
  | .register => s.registered = false → s.ctrl.generation ≤ s.lastRead
  | _ => True

/-- Events are enabled, and the client has one request outstanding at most: while it waits. -/
structure OneOutstanding (s : AsyncEvents) : Prop where
  enabled : s.ctrl.aenBitEnabled = true
  one : s.requests.length + s.ctrl.pendingRequests.length + s.completions.length =
    if s.poll = .waiting then 1 else 0

theorem Controller.change_eq {ctrl : Controller} (enabled : ctrl.aenBitEnabled = true) :
    ctrl.change = { ctrl with
      generation := ctrl.generation + 1, asyncEventsChan := ctrl.asyncEventsChan + 1 } := by
  simp only [change, notifyAsyncEvent, enabled, if_true]

namespace AsyncEvents

variable {s : AsyncEvents}

theorem handle_eq_nil (hpending : s.ctrl.pendingRequests = []) :
    s.handle = { s with
      ctrl := { s.ctrl with asyncEventsChan := s.ctrl.asyncEventsChan - 1 } } := by
  simp only [handle, Controller.handleAENEvent, hpending, List.append_nil]

theorem handle_eq_cons {commandID : UInt16} {rest : List UInt16}
    (hpending : s.ctrl.pendingRequests = commandID :: rest) :
    s.handle = { s with
      ctrl := { s.ctrl with
        asyncEventsChan := s.ctrl.asyncEventsChan - 1, pendingRequests := rest }
      completions := s.completions ++ [⟨commandID, .success⟩] } := by
  simp only [handle, Controller.handleAENEvent, hpending]

/-- With one request at a time the limit is not reached. -/
theorem register_eq (one : OneOutstanding s) {commandID : UInt16} {rest : List UInt16}
    (hrequests : s.requests = commandID :: rest) :
    s.register commandID rest = { s with
      ctrl := { s.ctrl with pendingRequests := s.ctrl.pendingRequests ++ [commandID] }
      requests := rest
      registered := true } := by
  have hlimit : ¬maxPendingAsyncEventsRequestsLimit ≤ s.ctrl.pendingRequests.length := by
    have hone := one.one
    rw [hrequests, List.length_cons] at hone
    simp only [maxPendingAsyncEventsRequestsLimit]
    split at hone <;> omega
  simp only [register, Controller.registerAsyncEventRequest, hlimit, if_false, List.append_nil]

theorem handle_poll : s.handle.poll = s.poll := by
  cases hpending : s.ctrl.pendingRequests with
  | nil => rw [handle_eq_nil hpending]
  | cons commandID rest => rw [handle_eq_cons hpending]

/-- What the client does here are moves of the loop `pollAEN`. -/
theorem step_poll {s' : AsyncEvents} {e : AsyncEvent} (hstep : s.step e = some s') :
    s'.poll = s.poll ∨ ∃ event, pollAEN.step ⟨s.poll, true⟩ event = some ⟨s'.poll, true⟩ := by
  cases steps_of_step hstep with
  | change | register | read | readAfterConnect => exact Or.inl rfl
  | handle => exact Or.inl handle_poll
  | send hpoll | push hpoll =>
    rw [hpoll]
    exact Or.inr ⟨.sent true, rfl⟩
  | receive _ hpoll =>
    rw [hpoll]
    exact Or.inr ⟨.received (), rfl⟩

end AsyncEvents

/-- Along every run the client is in a state its loop reaches. -/
theorem asyncEvents_poll {past : List (AsyncEvents × AsyncEvent)} {s : AsyncEvents}
    (run : asyncEvents.Run past s) : pollAEN.machine.Reaches ⟨s.poll, true⟩ := by
  have always := run.always (I := fun s => pollAEN.machine.Reaches ⟨s.poll, true⟩) ?_ ?_
  · exact always.2
  · intro s init
    obtain ⟨generation, commandID, rfl⟩ := init
    exact ⟨[], .start rfl⟩
  · intro s e s' reaches hstep
    rcases AsyncEvents.step_poll hstep with hsame | ⟨event, hevent⟩
    · rw [hsame]
      exact reaches
    · exact reaches.next event hevent

namespace OneOutstanding

variable {s : AsyncEvents}

theorem handle (one : OneOutstanding s) : OneOutstanding s.handle := by
  cases hpending : s.ctrl.pendingRequests with
  | nil =>
    rw [AsyncEvents.handle_eq_nil hpending]
    exact ⟨one.enabled, one.one⟩
  | cons commandID rest =>
    rw [AsyncEvents.handle_eq_cons hpending]
    refine ⟨one.enabled, ?_⟩
    have hone := one.one
    rw [hpending, List.length_cons] at hone
    simp only [List.length_append, List.length_singleton]
    omega

theorem register (one : OneOutstanding s) {commandID : UInt16} {rest : List UInt16}
    (hrequests : s.requests = commandID :: rest) : OneOutstanding (s.register commandID rest) := by
  rw [AsyncEvents.register_eq one hrequests]
  refine ⟨one.enabled, ?_⟩
  have hone := one.one
  rw [hrequests, List.length_cons] at hone
  simp only [List.length_append, List.length_singleton]
  omega

theorem send (one : OneOutstanding s) (hpoll : s.poll = .sending) : OneOutstanding s.send := by
  refine ⟨one.enabled, ?_⟩
  have hnone : s.requests.length + s.ctrl.pendingRequests.length + s.completions.length = 0 := by
    rw [one.one, hpoll]
    rfl
  simp only [AsyncEvents.send, List.length_append, List.length_singleton, if_true]
  omega

theorem receive (one : OneOutstanding s) {c : AsyncCompletion} {rest : List AsyncCompletion}
    (hcompletions : s.completions = c :: rest) (hpoll : s.poll = .waiting) :
    OneOutstanding (s.receive rest) := by
  refine ⟨one.enabled, ?_⟩
  have hone := one.one
  rw [hcompletions, hpoll, if_pos rfl, List.length_cons] at hone
  have hpushing : ¬(s.receive rest).poll = .waiting := by simp [AsyncEvents.receive]
  rw [if_neg hpushing]
  change s.requests.length + s.ctrl.pendingRequests.length + rest.length = 0
  omega

end OneOutstanding

/-- A pending request is answered, so the event taken off the queue comes back as a completion. -/
theorem MeetsRequests.answers {s : AsyncEvents} {e : AsyncEvent} (meets : MeetsRequests s e) :
    AnswersEvents s e := by
  cases e with
  | handle =>
    intro registered
    obtain ⟨commandID, rest, hpending⟩ := List.exists_cons_of_ne_nil (meets registered)
    refine ⟨commandID, ?_⟩
    rw [AsyncEvents.handle_eq_cons hpending]
  | change | send | register | receive | push | read | readAfterConnect => exact trivial

theorem NoneLost.handle {s : AsyncEvents} (meets : MeetsRequests s .handle) :
    NoneLost s.handle := by
  have hregistered : s.handle.registered = s.registered := by
    cases hpending : s.ctrl.pendingRequests with
    | nil => rw [AsyncEvents.handle_eq_nil hpending]
    | cons commandID rest => rw [AsyncEvents.handle_eq_cons hpending]
  intro registered
  rw [hregistered] at registered
  obtain ⟨commandID, hcompletions⟩ := meets.answers registered
  refine Or.inr (Or.inr (Or.inl ?_))
  rw [hcompletions]
  simp

theorem NoneLost.register {s : AsyncEvents} (kept : NoneLost s) (one : OneOutstanding s)
    (meets : MeetsRequests s .register) {commandID : UInt16} {rest : List UInt16}
    (hrequests : s.requests = commandID :: rest) : NoneLost (s.register commandID rest) := by
  rw [AsyncEvents.register_eq one hrequests]
  intro _
  cases hregistered : s.registered with
  | false => exact Or.inl (meets hregistered)
  | true => exact kept hregistered

theorem asyncEvents_step {s s' : AsyncEvents} {e : AsyncEvent} (kept : NoneLost s)
    (one : OneOutstanding s) (meets : MeetsRequests s e) (hstep : s.step e = some s') :
    NoneLost s' ∧ OneOutstanding s' := by
  cases AsyncEvents.steps_of_step hstep with
  | change =>
    rw [Controller.change_eq one.enabled]
    refine ⟨?_, ⟨one.enabled, one.one⟩⟩
    intro _
    exact Or.inr (Or.inl (Nat.succ_pos _))
  | handle => exact ⟨.handle meets, one.handle⟩
  | send hpoll => exact ⟨kept, one.send hpoll⟩
  | register hrequests => exact ⟨kept.register one meets hrequests, one.register hrequests⟩
  | receive hcompletions hpoll =>
    refine ⟨?_, one.receive hcompletions hpoll⟩
    intro _
    exact Or.inr (Or.inr (Or.inr (Nat.succ_pos _)))
  | push hpoll =>
    refine ⟨kept, ⟨one.enabled, ?_⟩⟩
    have hone := one.one
    rw [hpoll] at hone
    exact hone
  | read | readAfterConnect =>
    refine ⟨?_, ⟨one.enabled, one.one⟩⟩
    intro _
    exact Or.inl (Nat.le_refl _)

/-- A run loses no change, and answers every event it handles once a request was registered, if the
log does not change between the latest read and the first registration and if no event is handled
between two requests. -/
theorem no_change_lost {past : List (AsyncEvents × AsyncEvent)} {s : AsyncEvents}
    (run : asyncEvents.Run past s) (meets : Machine.Each MeetsRequests past) :
    Machine.Always NoneLost past s ∧ Machine.Each AnswersEvents past := by
  have always := run.always_of_each (I := fun s => NoneLost s ∧ OneOutstanding s) ?_ ?_ meets
  · refine ⟨⟨fun x hx => (always.1 x hx).1, always.2.1⟩, fun x hx => (meets x hx).answers⟩
  · intro s init
    obtain ⟨generation, commandID, rfl⟩ := init
    exact ⟨fun _ => Or.inl (Nat.le_refl _), ⟨rfl, rfl⟩⟩
  · intro s e s' kept met hstep
    exact asyncEvents_step kept.1 kept.2 met hstep

/-- Of two changes the second comes between two requests, and its event is handled once the next one
is registered. -/
theorem no_change_lost_two_changes :
    ∃ past s, asyncEvents.Run past s ∧ Machine.Always NoneLost past s ∧
      s.ctrl.generation = 2 ∧ s.lastRead = 1 ∧ s.completions = [⟨13, .success⟩] := by
  have run := Machine.Run.start (m := asyncEvents) (s := .discovered 0 12) ⟨0, 12, rfl⟩
  have run := asyncEvents_next run .send rfl
  have run := asyncEvents_next run .register rfl
  have run := asyncEvents_next run .change rfl
  have run := asyncEvents_next run .handle rfl
  have run := asyncEvents_next run .receive rfl
  have run := asyncEvents_next run .push rfl
  have run := asyncEvents_next run .read rfl
  have run := asyncEvents_next run .change rfl
  have run := asyncEvents_next run .send rfl
  have run := asyncEvents_next run .register rfl
  have run := asyncEvents_next run .handle rfl
  refine ⟨_, _, run, (no_change_lost run ?_).1, rfl, rfl, rfl⟩
  refine Machine.each_snoc.mpr ⟨?_, fun _ hpending => by cases hpending⟩
  refine Machine.each_snoc.mpr ⟨?_, fun hfirst => by cases hfirst⟩
  refine Machine.each_snoc.mpr ⟨?_, trivial⟩
  refine Machine.each_snoc.mpr ⟨?_, trivial⟩
  refine Machine.each_snoc.mpr ⟨?_, trivial⟩
  refine Machine.each_snoc.mpr ⟨?_, trivial⟩
  refine Machine.each_snoc.mpr ⟨?_, trivial⟩
  refine Machine.each_snoc.mpr ⟨?_, fun _ hpending => by cases hpending⟩
  refine Machine.each_snoc.mpr ⟨?_, trivial⟩
  refine Machine.each_snoc.mpr ⟨?_, fun _ => Nat.le_refl _⟩
  refine Machine.each_snoc.mpr ⟨?_, trivial⟩
  simp [Machine.Each]

/-- The log changes again after the read, while the next request is on its way to the server. -/
def changeBetweenRequests : List AsyncEvent :=
  [.send, .register, .change, .handle, .receive, .push, .send, .read, .change, .handle, .register]

theorem change_lost : ¬∀ past s, asyncEvents.Run past s → NoneLost s := by
  intro h
  obtain ⟨s, hrun, hregistered, hgeneration, hread, hqueued, hcompletions, hunread⟩ :
      ∃ s, changeBetweenRequests.foldlM AsyncEvents.step (.discovered 0 12) = some s ∧
        s.registered = true ∧ s.ctrl.generation = 2 ∧ s.lastRead = 1 ∧
        s.ctrl.asyncEventsChan = 0 ∧ s.completions = [] ∧ s.unread = 0 :=
    ⟨_, rfl, rfl, rfl, rfl, rfl, rfl, rfl⟩
  have start : asyncEvents.Reaches (.discovered 0 12) := ⟨[], .start ⟨0, 12, rfl⟩⟩
  obtain ⟨past, run⟩ := start.events (fun _ _ _ hstep => hstep) changeBetweenRequests hrun
  have covered := h past s run hregistered
  simp [AsyncEvents.CoveredBy, hgeneration, hread, hqueued, hcompletions, hunread] at covered

end DiscoveryClient
