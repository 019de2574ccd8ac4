import DiscoveryClient.Machine
import DiscoveryClient.Service

namespace DiscoveryClient

/-- How far a retry goroutine has come. It reads the shared variable `stopCh` only when it reaches
its `select`, and may find it nil by then. -/
inductive TimerPhase
  | scheduled
  | selecting (stopCh : Option Nat)
deriving DecidableEq

structure Timer where
  pair : ClientClusterPair
  phase : TimerPhase
deriving DecidableEq

/-- The main loop of `Start` with the goroutines it started. `busy` is the pair whose trigger is
being served, `waiting` the goroutines that block on `triggerReconnectToClusterCh`. A connection
stays in `multiplexed` after it was stopped, since its notifications may be queued. -/
structure Loop where
  connections : ConnectionMap := ∅
  multiplexed : List Connection := []
  waiting : List ClientClusterPair := []
  busy : Option ClientClusterPair := none
  stopCh : Option Nat := none
  nextCh : Nat := 0
  timers : List Timer := []
  /-- History: the pairs whose latest attempt to reconnect returned an error. -/
  lastFailed : List ClientClusterPair := []
deriving DecidableEq

inductive LoopEvent
  | receive (clusterMapId : ClientClusterPair)
  | attempt (order : RangeOrder ConnectionItem) (discoverOver : Connection → DiscoverResult)
  | notification (fromCache : ConnectionMap) (removeRanges addRanges : NotifyRanges)
  | aen (conn : Connection) (serverChange : Bool) (result : DiscoverResult)
  | timerSelect (i : Nat)
  | timerFire (i : Nat)
  | timerStop (i : Nat)

namespace Loop

/-- The trigger is received, and the channel that stops the retries is closed. -/
def receive (s : Loop) (clusterMapId : ClientClusterPair) : Loop :=
  { s with
    waiting := s.waiting.erase clusterMapId
    busy := some clusterMapId
    stopCh := none
    lastFailed := s.lastFailed.filter (· ≠ clusterMapId) }

/-- The end of the trigger's case: a failure schedules a retry under a new channel. -/
def attempt (s : Loop) (clusterMapId : ClientClusterPair) :
    ConnectionMap × Reconnected → Loop
  | (connections, .noConnections) => { s with connections, busy := none }
  | (connections, .live conn) =>
    { s with connections, busy := none, multiplexed := s.multiplexed ++ [conn] }
  | (connections, .failed) =>
    { s with
      connections
      busy := none
      stopCh := some s.nextCh
      nextCh := s.nextCh + 1
      timers := s.timers ++ [⟨clusterMapId, .scheduled⟩]
      lastFailed := clusterMapId :: s.lastFailed }

def notification (s : Loop) (marked : Marked) : Loop :=
  { s with connections := marked.1, waiting := s.waiting ++ triggered marked }

/-- Without a result there is a trigger: the server changed, or the discovery failed. -/
def aen (s : Loop) (conn : Connection) : Option ConnectionMap → Loop
  | none => { s with waiting := s.waiting ++ [conn.pair] }
  | some connections => { s with connections }

def timerSelect (s : Loop) (i : Nat) (pair : ClientClusterPair) : Loop :=
  { s with timers := s.timers.set i ⟨pair, .selecting s.stopCh⟩ }

def timerFire (s : Loop) (i : Nat) (pair : ClientClusterPair) : Loop :=
  { s with timers := s.timers.eraseIdx i, waiting := s.waiting ++ [pair] }

def timerStop (s : Loop) (i : Nat) : Loop := { s with timers := s.timers.eraseIdx i }

/-- The connections after a notification on `conn`; `none` when the loop triggers a reconnect. -/
def onAen (s : Loop) (conn : Connection) (serverChange : Bool) (result : DiscoverResult) :
    Option ConnectionMap :=
  if serverChange then none
  else
    match getLogPageEntries s.connections conn result with
    | (_, none) => none
    | (connections, some _) => some connections

/-- One step of the loop or of a goroutine; `none` when the event cannot happen. Both branches of a
retry's `select` can be ready at once, so a stopped timer may still fire. -/
def step (s : Loop) : LoopEvent → Option Loop
  | .receive clusterMapId =>
    if s.busy = none ∧ clusterMapId ∈ s.waiting then some (s.receive clusterMapId) else none
  | .attempt order discoverOver =>
    match s.busy with
    | none => none
    | some clusterMapId =>
      some (s.attempt clusterMapId
        (reconnectToCluster order discoverOver s.connections clusterMapId))
  | .notification fromCache removeRanges addRanges =>
    if s.busy = none then
      some (s.notification (onNotification removeRanges addRanges s.connections fromCache))
    else none
  | .aen conn serverChange result =>
    if s.busy = none ∧ conn ∈ s.multiplexed then some (s.aen conn (s.onAen conn serverChange result))
    else none
  | .timerSelect i =>
    match s.timers[i]? with
    | some ⟨pair, .scheduled⟩ => some (s.timerSelect i pair)
    | _ => none
  | .timerFire i =>
    match s.timers[i]? with
    | some ⟨pair, .selecting _⟩ => some (s.timerFire i pair)
    | _ => none
  | .timerStop i =>
    match s.timers[i]? with
    | some ⟨_, .selecting (some ch)⟩ => if s.stopCh = some ch then none else some (s.timerStop i)
    | _ => none

end Loop

/-- Every connection is stored under its own key and pair. -/
def Keyed (cm : ConnectionMap) : Prop :=
  ∀ p k conn, (cm.cluster p).clusterConnectionsMap.lookup k = some conn →
    k.pair = p ∧ conn.key = k ∧ conn.hostnqn = k.hostnqn

/-- What a notification carries is part of a reachable cache. -/
def LoopEvent.FromCache : LoopEvent → Prop
  | .notification fromCache _ _ => Keyed fromCache
  | _ => True

def mainLoop : Machine Loop LoopEvent where
  init s := s = {}
  step s e s' := e.FromCache ∧ s.step e = some s'

end DiscoveryClient
