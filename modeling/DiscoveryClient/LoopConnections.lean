import DiscoveryClient.Notification

namespace DiscoveryClient

theorem getLiveConnection_eq {connections : ConnectionMap}
    {discoverOver : Connection → DiscoverResult} {conns : List Connection} :
    getLiveConnection connections discoverOver conns = (connections, none) ∨
    ∃ conn ∈ conns,
      getLiveConnection connections discoverOver conns = (connections.setActive conn, some conn) := by
  induction conns with
  | nil => exact Or.inl rfl
  | cons conn rest ih =>
    unfold getLiveConnection getLogPageEntries
    cases hd : discover (discoverOver conn) with
    | none =>
      rcases ih with h | ⟨conn', hmem, h⟩
      · exact Or.inl h
      · exact Or.inr ⟨conn', List.mem_cons_of_mem _ hmem, h⟩
    | some entries => exact Or.inr ⟨conn, by simp, rfl⟩

/-- A reconnect changes the connections only by making one of the pair's own the active one. -/
theorem reconnectToCluster_eq {order : RangeOrder ConnectionItem}
    {discoverOver : Connection → DiscoverResult} {connections : ConnectionMap}
    {p : ClientClusterPair} :
    reconnectToCluster order discoverOver connections p = (connections, .noConnections) ∨
    reconnectToCluster order discoverOver connections p = (connections, .failed) ∨
    ∃ k conn, connections.find p k = some conn ∧
      reconnectToCluster order discoverOver connections p =
        (connections.setActive conn, .live conn) := by
  unfold reconnectToCluster
  dsimp only
  split
  next => exact Or.inl rfl
  next =>
    right
    rcases @getLiveConnection_eq connections discoverOver
      ((order.order (connections.cluster p).clusterConnectionsMap.entries).map (·.2)) with
      h | ⟨conn, hmem, h⟩
    · exact Or.inl (by rw [h])
    · obtain ⟨x, hx, rfl⟩ := List.mem_map.mp hmem
      rw [RangeOrder.mem_order, GoMap.mem_entries] at hx
      exact Or.inr ⟨x.1, x.2, hx, by rw [h]⟩

theorem onAen_eq {s : Loop} {conn : Connection} {serverChange : Bool} {result : DiscoverResult} :
    s.onAen conn serverChange result =
      if serverChange = false ∧ (discover result).isSome = true
      then some (s.connections.setActive conn) else none := by
  unfold Loop.onAen getLogPageEntries
  cases serverChange with
  | true => simp
  | false =>
    cases hd : discover result with
    | none => simp
    | some entries => simp

/-- What an event requires and what it leaves behind. -/
def Loop.StepsTo (s s' : Loop) : LoopEvent → Prop
  | .receive p => s.busy = none ∧ p ∈ s.waiting ∧ s' = s.receive p
  | .attempt order discoverOver => ∃ p, s.busy = some p ∧
      s' = s.attempt p (reconnectToCluster order discoverOver s.connections p)
  | .notification fromCache removeRanges addRanges => s.busy = none ∧
      s' = s.notification (onNotification removeRanges addRanges s.connections fromCache)
  | .aen conn serverChange result => s.busy = none ∧ conn ∈ s.multiplexed ∧
      s' = s.aen conn (s.onAen conn serverChange result)
  | .timerSelect i => ∃ p, s.timers[i]? = some ⟨p, .scheduled⟩ ∧ s' = s.timerSelect i p
  | .timerFire i => ∃ p ch, s.timers[i]? = some ⟨p, .selecting ch⟩ ∧ s' = s.timerFire i p
  | .timerStop i => ∃ p ch, s.timers[i]? = some ⟨p, .selecting (some ch)⟩ ∧
      s.stopCh ≠ some ch ∧ s' = s.timerStop i

theorem step_stepsTo {s s' : Loop} {e : LoopEvent} (h : s.step e = some s') : s.StepsTo s' e := by
  cases e with
  | receive p =>
    simp only [Loop.step] at h
    split at h
    next hguard => exact ⟨hguard.1, hguard.2, (Option.some.inj h).symm⟩
    next => simp at h
  | attempt order discoverOver =>
    simp only [Loop.step] at h
    split at h
    next => simp at h
    next p hp => exact ⟨p, hp, (Option.some.inj h).symm⟩
  | notification fromCache removeRanges addRanges =>
    simp only [Loop.step] at h
    split at h
    next hguard => exact ⟨hguard, (Option.some.inj h).symm⟩
    next => simp at h
  | aen conn serverChange result =>
    simp only [Loop.step] at h
    split at h
    next hguard => exact ⟨hguard.1, hguard.2, (Option.some.inj h).symm⟩
    next => simp at h
  | timerSelect i =>
    simp only [Loop.step] at h
    split at h
    next p hp => exact ⟨p, hp, (Option.some.inj h).symm⟩
    next => simp at h
  | timerFire i =>
    simp only [Loop.step] at h
    split at h
    next p ch hp => exact ⟨p, ch, hp, (Option.some.inj h).symm⟩
    next => simp at h
  | timerStop i =>
    simp only [Loop.step] at h
    split at h
    next p ch hp =>
      split at h
      next => simp at h
      next hne => exact ⟨p, ch, hp, hne, (Option.some.inj h).symm⟩
    next => simp at h

@[simp] theorem Loop.attempt_connections (s : Loop) (p : ClientClusterPair)
    (r : ConnectionMap × Reconnected) : (s.attempt p r).connections = r.1 := by
  rcases r with ⟨cm, (_ | conn | _)⟩
  all_goals rfl

theorem Loop.aen_connections (s : Loop) (conn : Connection) (serverChange : Bool)
    (result : DiscoverResult) :
    (s.aen conn (s.onAen conn serverChange result)).connections =
      if serverChange = false ∧ (discover result).isSome = true
      then s.connections.setActive conn else s.connections := by
  rw [onAen_eq]
  split
  next => rfl
  next => rfl

theorem Keyed.setActive {cm : ConnectionMap} (keyed : Keyed cm) (conn : Connection) :
    Keyed (cm.setActive conn) := by
  intro p k c h
  change (cm.setActive conn).find p k = some c at h
  rw [ConnectionMap.find_setActive] at h
  exact keyed p k c h

theorem Keyed.addConnection {cm : ConnectionMap} (keyed : Keyed cm) {key : TKey}
    {conn : Connection} (hkey : conn.key = key) (hhost : conn.hostnqn = key.hostnqn) :
    Keyed (cm.addConnection key conn) := by
  intro p k c h
  change (cm.addConnection key conn).find p k = some c at h
  rw [ConnectionMap.find_addConnection] at h
  split at h
  next hk =>
    rw [← Option.some.inj h, hk.1, hk.2]
    exact ⟨rfl, hkey, hhost⟩
  next => exact keyed p k c h

theorem Keyed.pair_eq {cm : ConnectionMap} (keyed : Keyed cm) {p : ClientClusterPair} {k : TKey}
    {conn : Connection} (h : cm.find p k = some conn) : conn.pair = p := by
  obtain ⟨hp, hk, hn⟩ := keyed p k conn h
  rw [← hp, Connection.pair, hk, hn]
  rfl

theorem step_keyed {s s' : Loop} {e : LoopEvent} (keyed : Keyed s.connections)
    (h : mainLoop.step s e s') : Keyed s'.connections := by
  obtain ⟨hcache, hstep⟩ := h
  have hstep := step_stepsTo hstep
  cases e with
  | receive p =>
    obtain ⟨-, -, rfl⟩ := hstep
    exact keyed
  | attempt order discoverOver =>
    obtain ⟨p, -, rfl⟩ := hstep
    rw [Loop.attempt_connections]
    rcases @reconnectToCluster_eq order discoverOver s.connections p with
      h | h | ⟨k, conn, -, h⟩
    · rw [h]; exact keyed
    · rw [h]; exact keyed
    · rw [h]; exact keyed.setActive conn
  | notification fromCache removeRanges addRanges =>
    obtain ⟨-, rfl⟩ := hstep
    exact onNotification_keyed keyed hcache
  | aen conn serverChange result =>
    obtain ⟨-, -, rfl⟩ := hstep
    rw [Loop.aen_connections]
    split
    next => exact keyed.setActive conn
    next => exact keyed
  | timerSelect i =>
    obtain ⟨p, -, rfl⟩ := hstep
    exact keyed
  | timerFire i =>
    obtain ⟨p, ch, -, rfl⟩ := hstep
    exact keyed
  | timerStop i =>
    obtain ⟨p, ch, -, -, rfl⟩ := hstep
    exact keyed

/-- Only a notification changes which connections the service has. -/
theorem step_find {s s' : Loop} {e : LoopEvent} (h : s.step e = some s')
    (hnot : ∀ fromCache removeRanges addRanges, e ≠ .notification fromCache removeRanges addRanges)
    (p : ClientClusterPair) (k : TKey) : s'.connections.find p k = s.connections.find p k := by
  have hstep := step_stepsTo h
  cases e with
  | receive q =>
    obtain ⟨-, -, rfl⟩ := hstep
    rfl
  | attempt order discoverOver =>
    obtain ⟨q, -, rfl⟩ := hstep
    rw [Loop.attempt_connections]
    rcases @reconnectToCluster_eq order discoverOver s.connections q with
      h | h | ⟨k, conn, -, h⟩
    · rw [h]
    · rw [h]
    · rw [h, ConnectionMap.find_setActive]
  | notification fromCache removeRanges addRanges =>
    exact absurd rfl (hnot fromCache removeRanges addRanges)
  | aen conn serverChange result =>
    obtain ⟨-, -, rfl⟩ := hstep
    rw [Loop.aen_connections]
    split
    next => rw [ConnectionMap.find_setActive]
    next => rfl
  | timerSelect i =>
    obtain ⟨q, -, rfl⟩ := hstep
    rfl
  | timerFire i =>
    obtain ⟨q, ch, -, rfl⟩ := hstep
    rfl
  | timerStop i =>
    obtain ⟨q, ch, -, -, rfl⟩ := hstep
    rfl

/-- A connection whose notifications are forwarded was one of the service's when it connected. -/
theorem step_multiplexed {s s' : Loop} {e : LoopEvent} (h : s.step e = some s') {conn : Connection}
    (hconn : conn ∈ s'.multiplexed) :
    conn ∈ s.multiplexed ∨ ∃ p k, s.connections.find p k = some conn := by
  have hstep := step_stepsTo h
  cases e with
  | receive q =>
    obtain ⟨-, -, rfl⟩ := hstep
    exact Or.inl hconn
  | attempt order discoverOver =>
    obtain ⟨q, -, rfl⟩ := hstep
    rcases @reconnectToCluster_eq order discoverOver s.connections q with
      h | h | ⟨k, c, hk, h⟩
    · rw [h] at hconn
      exact Or.inl hconn
    · rw [h] at hconn
      exact Or.inl hconn
    · rw [h] at hconn
      rcases List.mem_append.mp hconn with hconn | hconn
      · exact Or.inl hconn
      · rw [List.mem_singleton.mp hconn]
        exact Or.inr ⟨q, k, hk⟩
  | notification fromCache removeRanges addRanges =>
    obtain ⟨-, rfl⟩ := hstep
    exact Or.inl hconn
  | aen c serverChange result =>
    obtain ⟨-, -, rfl⟩ := hstep
    cases hr : s.onAen c serverChange result with
    | none => rw [hr] at hconn; exact Or.inl hconn
    | some cm => rw [hr] at hconn; exact Or.inl hconn
  | timerSelect i =>
    obtain ⟨q, -, rfl⟩ := hstep
    exact Or.inl hconn
  | timerFire i =>
    obtain ⟨q, ch, -, rfl⟩ := hstep
    exact Or.inl hconn
  | timerStop i =>
    obtain ⟨q, ch, -, -, rfl⟩ := hstep
    exact Or.inl hconn

theorem mainLoop_next {past : List (Loop × LoopEvent)} {s s' : Loop} (run : mainLoop.Run past s)
    (e : LoopEvent) (hcache : e.FromCache) (h : s.step e = some s') :
    mainLoop.Run (past ++ [(s, e)]) s' := run.next ⟨hcache, h⟩

theorem keyed_empty : Keyed ({} : Loop).connections := by
  intro p k conn h
  change (AList.lookup k (∅ : GoMap TKey Connection)) = some conn at h
  simp at h

end DiscoveryClient
