import DiscoveryClient.SelectLoop
import DiscoveryClient.ServiceLoop

namespace DiscoveryClient

open GoString

/-- An event of the file system: its name and the flags of its operation. -/
structure FsEvent where
  name : GoString
  create : Bool
  write : Bool
  remove : Bool
  rename : Bool
  chmod : Bool

/-- The first flag that is set in the order `Watch` looks at them; without any the operation stays
the empty string. -/
def FsEvent.op (event : FsEvent) : Option EventOp :=
  if event.create then some .create
  else if event.write then some .modify
  else if event.remove then some .remove
  else if event.rename then some .rename
  else if event.chmod then some .chmod
  else none

/-- `clientconfig.Event`. -/
structure FileEvent where
  name : GoString
  op : Option EventOp

inductive WatchPosition
  | selecting
  | pushing (e : FileEvent)
  | returned

/-- A closed channel yields `none`, or an error that is not `ok`. -/
inductive WatchReceived
  | event (event : Option FsEvent)
  | error (ok : Bool)

/-- The goroutine of `FileWatcher.Watch`. -/
def watch : SelectLoop where
  State := WatchPosition
  Received := WatchReceived
  start s := s = .selecting
  returned
    | .returned => true
    | _ => false
  step
    | .selecting, .received (.event none) => some .returned
    | .selecting, .received (.event (some event)) => some (.pushing ⟨event.name, event.op⟩)
    | .selecting, .received (.error ok) => some (if ok then .selecting else .returned)
    -- the `break` leaves the select, not the loop around it
    | .selecting, .done => some .selecting
    | .pushing e, .sent ok => some (if ok then .selecting else .pushing e)
    | _, _ => none

inductive CachePosition
  | selecting
  | notifying (pairs : List ClientClusterPair)
  | returned

structure CacheRun where
  cache : Cache
  position : CachePosition

/-- `file` is what `fileAdded` finds under the event's name, whose last element is `base`. -/
inductive CacheReceived
  | event (adjustTraddr : GoString → Bool) (order : RangeOrder Entry) (op : EventOp)
      (base : GoString) (file : UserFile)
  | unknownOp
  | clear

/-- The cache after a file event, and the notification `notifyChange` has to send. -/
def CacheRun.handled (o : Outcome) : CacheRun :=
  ⟨o.cache, if o.notified = [] then .selecting else .notifying o.notified⟩

/-- The goroutine of `cache.Run`. -/
def cacheRun : SelectLoop where
  State := CacheRun
  Received := CacheReceived
  start s := s.position = .selecting
  returned s :=
    match s.position with
    | .returned => true
    | _ => false
  step
    | ⟨c, .selecting⟩, .received (.event adjustTraddr order op base file) =>
      some (CacheRun.handled (onEvent adjustTraddr order c op base file))
    | ⟨c, .selecting⟩, .received .unknownOp => some ⟨c, .selecting⟩
    | ⟨c, .selecting⟩, .received .clear => some ⟨{ c with cacheEntries := [] }, .selecting⟩
    | ⟨c, .selecting⟩, .done => some ⟨c, .returned⟩
    | ⟨c, .notifying pairs⟩, .sent ok => some ⟨c, if ok then .selecting else .notifying pairs⟩
    | _, _ => none

/-- An iteration of `pollAEN` sends the request and waits in `handleAEN`, then hands the event
on. -/
inductive PollPosition
  | sending
  | waiting
  | pushing
  | returned
  | panicked
deriving DecidableEq

/-- `tcpQ` tells that the client's queue is not nil. -/
structure PollRun where
  position : PollPosition
  tcpQ : Bool
deriving DecidableEq

/-- The one value received is a completed request. -/
def pollAEN : SelectLoop where
  State := PollRun
  Received := Unit
  start s := s = ⟨.sending, true⟩
  returned s := s.position = .returned
  step
    -- an error of the send is answered by `continue`
    | ⟨.sending, true⟩, .sent ok => some ⟨if ok then .waiting else .sending, true⟩
    -- `client.tcpQ.handleAEN` of a nil queue; a call begun before has no connection left to send on
    | ⟨.sending, false⟩, .sent _ => some ⟨.panicked, false⟩
    | ⟨.waiting, tcpQ⟩, .received () => some ⟨.pushing, tcpQ⟩
    | ⟨.waiting, tcpQ⟩, .done => some ⟨.returned, tcpQ⟩
    | ⟨.pushing, tcpQ⟩, .sent ok => some ⟨if ok then .sending else .pushing, tcpQ⟩
    -- after it has ended the context, `Stop` destroys the queue and sets it to nil
    | ⟨position, _⟩, .stopped => some ⟨position, false⟩
    | _, _ => none

/-- `keepAlive` in its select, and in the two halves of `sendKeepAlive`. -/
inductive KeepAlivePosition
  | selecting
  | sending
  | waiting
  | returned

inductive KeepAliveReceived
  | tick
  | completed
  | timeout

def keepAlive : SelectLoop where
  State := KeepAlivePosition
  Received := KeepAliveReceived
  start s := s = .selecting
  returned
    | .returned => true
    | _ => false
  step
    | .selecting, .received .tick => some .sending
    | .selecting, .done => some .returned
    | .sending, .sent ok => some (if ok then .waiting else .returned)
    | .waiting, .received .completed => some .selecting
    | .waiting, .received .timeout => some .returned
    -- the context of the wait is derived from the loop's, so `sendKeepAlive` fails
    | .waiting, .done => some .returned
    | _, _ => none

/-- The main loop in its select, and in the select in which it pushes a first event to `conn`. -/
inductive ServicePosition
  | selecting
  | pushing (conn : Connection)
  | returned

structure ServiceRun where
  connections : ConnectionMap
  position : ServicePosition

inductive ServiceReceived
  | trigger (clusterMapId : ClientClusterPair) (order : RangeOrder ConnectionItem)
      (discoverOver : Connection → DiscoverResult)
  | connections (fromCache : ConnectionMap) (removeRanges addRanges : NotifyRanges)
  | aenAlert (conn : Connection) (serverChange : Bool) (result : DiscoverResult)
  | nilAlert

def ServiceRun.reconnected : ConnectionMap × Reconnected → ServiceRun
  | (connections, .live conn) => ⟨connections, .pushing conn⟩
  | (connections, _) => ⟨connections, .selecting⟩

/-- The goroutine of `service.Start`. -/
def serviceStart : SelectLoop where
  State := ServiceRun
  Received := ServiceReceived
  start s := s = ⟨∅, .selecting⟩
  returned s :=
    match s.position with
    | .returned => true
    | _ => false
  step
    | ⟨connections, .selecting⟩, .received (.trigger clusterMapId order discoverOver) =>
      some (ServiceRun.reconnected (reconnectToCluster order discoverOver connections clusterMapId))
    | ⟨connections, .selecting⟩, .received (.connections fromCache removeRanges addRanges) =>
      some ⟨(onNotification removeRanges addRanges connections fromCache).1, .selecting⟩
    | ⟨connections, .selecting⟩, .received (.aenAlert conn serverChange result) =>
      some ⟨if serverChange then connections else (getLogPageEntries connections conn result).1,
        .selecting⟩
    | ⟨connections, .selecting⟩, .received .nilAlert => some ⟨connections, .selecting⟩
    | ⟨connections, .selecting⟩, .done => some ⟨connections, .returned⟩
    -- the event is dropped after five seconds
    | ⟨connections, .pushing _⟩, .sent _ => some ⟨connections, .selecting⟩
    | _, _ => none

inductive BackgroundLoop
  | watch
  | cacheRun
  | pollAEN
  | keepAlive
  | serviceStart
deriving DecidableEq

def BackgroundLoop.loop : BackgroundLoop → SelectLoop
  | .watch => DiscoveryClient.watch
  | .cacheRun => DiscoveryClient.cacheRun
  | .pollAEN => DiscoveryClient.pollAEN
  | .keepAlive => DiscoveryClient.keepAlive
  | .serviceStart => DiscoveryClient.serviceStart

/-- The sends that still have to succeed before a loop can return; the watcher's never does. -/
def watchNeeds : WatchPosition → Option Nat
  | .returned => some 0
  | _ => none

def cacheNeeds (s : CacheRun) : Option Nat :=
  match s.position with
  | .notifying _ => some 1
  | _ => some 0

def pollNeeds : PollRun → Option Nat
  | ⟨.waiting, _⟩ => some 0
  | ⟨.returned, _⟩ => some 0
  | ⟨.sending, true⟩ => some 1
  | ⟨.pushing, true⟩ => some 2
  | _ => none

def BackgroundLoop.needs : (l : BackgroundLoop) → l.loop.State → Option Nat
  | .watch => watchNeeds
  | .cacheRun => cacheNeeds
  | .pollAEN => pollNeeds
  | .keepAlive => fun _ => some 0
  | .serviceStart => fun _ => some 0

/-- Only `pollAEN` works on the client's own queue, which `Stop` takes away; `keepAlive` was started
on the queue itself. -/
def BackgroundLoop.shares (l : BackgroundLoop) : Bool :=
  l = .pollAEN

open SelectLoop

theorem watch_countdown : Countdown watch false watchNeeds := by
  refine ⟨?_, ?_, fun s => by cases s <;> rfl, ?_⟩
  · intro s hreturned
    cases s with
    | returned => rfl
    | selecting | pushing => cases hreturned
  · intro ok s
    cases s with
    | selecting => rfl
    | pushing e => cases ok <;> rfl
    | returned => cases ok <;> rfl
  · intro s hneeds
    cases s with
    | returned => exact ⟨0, fun _ _ => rfl⟩
    | selecting | pushing => cases hneeds

theorem cacheRun_countdown : Countdown cacheRun false cacheNeeds := by
  refine ⟨?_, ?_, fun ⟨_, position⟩ => by cases position <;> rfl, ?_⟩
  · intro s hreturned
    obtain ⟨c, position⟩ := s
    cases position with
    | returned => rfl
    | selecting | notifying => cases hreturned
  · intro ok s
    obtain ⟨c, position⟩ := s
    cases position with
    | selecting | notifying | returned => cases ok <;> rfl
  · intro s hneeds
    obtain ⟨c, position⟩ := s
    cases position with
    | selecting =>
      refine ⟨1, ?_⟩
      intro sends stops
      simp only [cancelledRun]
      cases stops 0 <;> rfl
    | returned => exact ⟨0, fun _ _ => rfl⟩
    | notifying pairs => cases hneeds

theorem pollAEN_countdown : Countdown pollAEN true pollNeeds := by
  refine ⟨?_, ?_, ?_, ?_⟩
  · intro s hreturned
    obtain ⟨position, tcpQ⟩ := s
    cases of_decide_eq_true hreturned
    rfl
  · intro ok s
    obtain ⟨position, tcpQ⟩ := s
    cases position <;> cases tcpQ <;> cases ok <;> rfl
  · intro s
    obtain ⟨position, tcpQ⟩ := s
    cases position <;> cases tcpQ <;> rfl
  · intro s hneeds
    obtain ⟨position, tcpQ⟩ := s
    cases position with
    | waiting =>
      refine ⟨1, ?_⟩
      intro sends stops
      simp only [cancelledRun]
      cases stops 0 <;> rfl
    | returned => exact ⟨0, fun _ _ => rfl⟩
    | sending | pushing | panicked => cases tcpQ <;> cases hneeds

theorem keepAlive_countdown : Countdown keepAlive false fun _ => some 0 := by
  refine ⟨fun _ _ => rfl, fun ok _ => by simp, fun _ => rfl, ?_⟩
  intro s _
  cases s with
  | selecting | waiting =>
    refine ⟨1, ?_⟩
    intro sends stops
    simp only [cancelledRun]
    cases stops 0 <;> rfl
  | sending =>
    refine ⟨2, ?_⟩
    intro sends stops
    simp only [cancelledRun]
    cases stops 0 <;> cases sends 0 <;> cases stops 1 <;> rfl
  | returned => exact ⟨0, fun _ _ => rfl⟩

theorem serviceStart_countdown : Countdown serviceStart false fun _ => some 0 := by
  refine ⟨fun _ _ => rfl, fun ok _ => by simp, fun _ => rfl, ?_⟩
  intro s _
  obtain ⟨connections, position⟩ := s
  cases position with
  | selecting =>
    refine ⟨1, ?_⟩
    intro sends stops
    simp only [cancelledRun]
    cases stops 0 <;> rfl
  | pushing conn =>
    refine ⟨2, ?_⟩
    intro sends stops
    simp only [cancelledRun]
    cases stops 0 <;> cases stops 1 <;> rfl
  | returned => exact ⟨0, fun _ _ => rfl⟩

theorem BackgroundLoop.countdown (l : BackgroundLoop) : Countdown l.loop l.shares l.needs := by
  cases l with
  | watch => exact watch_countdown
  | cacheRun => exact cacheRun_countdown
  | pollAEN => exact pollAEN_countdown
  | keepAlive => exact keepAlive_countdown
  | serviceStart => exact serviceStart_countdown

theorem pollAEN_reaches_pushing : pollAEN.machine.Reaches ⟨.pushing, true⟩ := by
  have start : pollAEN.machine.Reaches ⟨.sending, true⟩ := ⟨[], .start rfl⟩
  have sent : pollAEN.machine.Reaches ⟨.waiting, true⟩ := start.next (.sent true) rfl
  exact sent.next (.received ()) rfl

end DiscoveryClient
