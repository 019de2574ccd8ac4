import DiscoveryClient.ConnectionFind

namespace DiscoveryClient

theorem foldl_removeConnection {cached : ClusterConnections} {pair : ClientClusterPair}
    {items : List ConnectionItem} {r : Removal} {p : ClientClusterPair} :
    (items.foldl (removeConnection cached pair) r).connections.active p = r.connections.active p ∧
    ∀ k conn, (items.foldl (removeConnection cached pair) r).connections.find p k = some conn ↔
      r.connections.find p k = some conn ∧
        (p = pair → ∀ x ∈ items, x.1 = k → cached.exists x.2 = true) := by
  induction items generalizing r with
  | nil => simp
  | cons x items ih =>
    obtain ⟨hactive, hfind⟩ := @ih (removeConnection cached pair r x)
    rw [List.foldl_cons]
    by_cases hx : cached.exists x.2 = true
    · have hskip : removeConnection cached pair r x = r := if_pos hx
      rw [hskip] at hactive hfind ⊢
      refine ⟨hactive, ?_⟩
      intro k conn
      rw [hfind, List.forall_mem_cons]
      simp only [hx, implies_true, true_and]
    · have hdel : (removeConnection cached pair r x).connections =
          r.connections.deleteConnection pair x.1 := by
        rw [removeConnection, if_neg hx]
      rw [hdel] at hactive hfind
      refine ⟨by rw [hactive, ConnectionMap.active_deleteConnection], ?_⟩
      intro k conn
      rw [hfind, List.forall_mem_cons, ConnectionMap.find_deleteConnection]
      by_cases hk : p = pair ∧ k = x.1
      · simp [hk, hx]
      · rw [if_neg hk]
        refine and_congr_right fun _ => forall_congr' fun hp => ?_
        have hne : x.1 ≠ k := fun h => hk ⟨hp, h.symm⟩
        simp [hne]

theorem removeCluster_find {ranges : NotifyRanges} {r : Removal} {item : ClusterItem}
    {p : ClientClusterPair} :
    (removeCluster ranges r item).connections.active p = r.connections.active p ∧
    ∀ k conn, (removeCluster ranges r item).connections.find p k = some conn ↔
      r.connections.find p k = some conn ∧ (p = item.1 → item.2.exists conn = true) := by
  unfold removeCluster
  split
  next hnone =>
    have hfind : ∀ k conn, r.connections.find p k = some conn ↔
        r.connections.find p k = some conn ∧ (p = item.1 → item.2.exists conn = true) := by
      intro k conn
      refine ⟨fun h => ⟨h, fun hp => ?_⟩, fun h => h.1⟩
      rw [hp, ConnectionMap.find, ConnectionMap.cluster, hnone] at h
      simp at h
    split
    next => exact ⟨rfl, hfind⟩
    next => exact ⟨rfl, hfind⟩
  next cc hsome =>
    obtain ⟨hactive, hfind⟩ := @foldl_removeConnection item.2 item.1
      ((ranges.conns item.1).order cc.clusterConnectionsMap.entries)
      { r with active := cc.activeConnection } p
    refine ⟨hactive, ?_⟩
    intro k conn
    rw [hfind]
    refine and_congr_right fun hconn => forall_congr' fun hp => ?_
    -- the loop ranges over the pair's own map, so the item under the key is the connection itself
    have hcc : cc.clusterConnectionsMap.lookup k = some conn := by
      rw [hp, ConnectionMap.find, ConnectionMap.cluster, hsome] at hconn
      exact hconn
    constructor
    · intro h
      exact h ⟨k, conn⟩ (by simpa [GoMap.mem_entries] using hcc) rfl
    · intro h x hx hk
      rw [RangeOrder.mem_order, GoMap.mem_entries, hk, hcc] at hx
      rw [← Option.some.inj hx]
      exact h

theorem foldl_removeCluster {ranges : NotifyRanges} {items : List ClusterItem} {r : Removal}
    {p : ClientClusterPair} :
    (items.foldl (removeCluster ranges) r).connections.active p = r.connections.active p ∧
    ∀ k conn, (items.foldl (removeCluster ranges) r).connections.find p k = some conn ↔
      r.connections.find p k = some conn ∧ ∀ x ∈ items, p = x.1 → x.2.exists conn = true := by
  induction items generalizing r with
  | nil => simp
  | cons x items ih =>
    obtain ⟨hactive, hfind⟩ := @ih (removeCluster ranges r x)
    obtain ⟨hactive', hfind'⟩ := @removeCluster_find ranges r x p
    rw [List.foldl_cons]
    refine ⟨hactive.trans hactive', ?_⟩
    intro k conn
    rw [hfind, hfind', List.forall_mem_cons, and_assoc]

/-- An item of a pair's map that is stored where it belongs. -/
def KeyedItem (pair : ClientClusterPair) (item : ConnectionItem) : Prop :=
  item.1.pair = pair ∧ item.2.key = item.1 ∧ item.2.hostnqn = item.1.hostnqn

theorem addConnection_find {pair : ClientClusterPair} {s : Marked} {item : ConnectionItem}
    (keyed : Keyed s.1) (hitem : KeyedItem pair item) {p : ClientClusterPair} :
    (addConnection pair s item).1.active p = s.1.active p ∧
    ∀ k, (addConnection pair s item).1.find p k =
      if p = pair ∧ k = item.1 then some item.2 else s.1.find p k := by
  unfold addConnection
  split
  next h =>
    rw [keyed.exists_iff, hitem.2.1] at h
    refine ⟨rfl, ?_⟩
    intro k
    split
    next hk => rw [hk.1, hk.2, h]
    next => rfl
  next =>
    refine ⟨ConnectionMap.active_addConnection, ?_⟩
    intro k
    rw [ConnectionMap.find_addConnection, hitem.1]

theorem addConnection_keyed {pair : ClientClusterPair} {s : Marked} {item : ConnectionItem}
    (keyed : Keyed s.1) (hitem : KeyedItem pair item) : Keyed (addConnection pair s item).1 := by
  intro p k conn h
  change ConnectionMap.find _ p k = some conn at h
  rw [(addConnection_find keyed hitem).2 k] at h
  split at h
  next hk =>
    rw [← Option.some.inj h, hk.1, hk.2]
    exact hitem
  next => exact keyed p k conn h

theorem foldl_addConnection {pair : ClientClusterPair} {items : List ConnectionItem} {s : Marked}
    (keyed : Keyed s.1) (hitems : ∀ x ∈ items, KeyedItem pair x) (nodup : items.NodupKeys) :
    Keyed (items.foldl (addConnection pair) s).1 ∧ ∀ p,
    (items.foldl (addConnection pair) s).1.active p = s.1.active p ∧
    ∀ k conn, (items.foldl (addConnection pair) s).1.find p k = some conn ↔
      (p = pair ∧ ⟨k, conn⟩ ∈ items) ∨
        (s.1.find p k = some conn ∧ ¬(p = pair ∧ k ∈ items.keys)) := by
  induction items generalizing s with
  | nil => exact ⟨keyed, fun p => ⟨rfl, by simp⟩⟩
  | cons x items ih =>
    have hx := hitems x (by simp)
    have hnd := List.nodupKeys_cons.mp nodup
    obtain ⟨hkeyed, hrest⟩ := ih (addConnection_keyed keyed hx)
      (fun y hy => hitems y (by simp [hy])) hnd.2
    rw [List.foldl_cons]
    refine ⟨hkeyed, ?_⟩
    intro p
    obtain ⟨hactive, hfind⟩ := hrest p
    obtain ⟨hactive', hfind'⟩ := @addConnection_find pair s x keyed hx p
    refine ⟨hactive.trans hactive', ?_⟩
    intro k conn
    rw [hfind, hfind', List.keys_cons, List.mem_cons, List.mem_cons]
    by_cases hk : p = pair ∧ k = x.1
    · obtain ⟨rfl, rfl⟩ := hk
      have hnot : ⟨x.1, conn⟩ ∉ items := fun h => hnd.1 (List.mem_keys.mpr ⟨conn, h⟩)
      have heq : ((⟨x.1, conn⟩ : ConnectionItem) = x) ↔ x.2 = conn := by
        constructor
        · intro h
          rw [← h]
        · intro h
          rw [← h]
      simp [hnot, hnd.1, heq]
    · rw [if_neg hk]
      have hne : p = pair → (⟨k, conn⟩ : ConnectionItem) ≠ x := by
        intro hp h
        exact hk ⟨hp, by rw [← h]⟩
      have hkey : p = pair → k ≠ x.1 := fun hp h => hk ⟨hp, h⟩
      by_cases hp : p = pair
      · simp [hp, hne hp, hkey hp]
      · simp [hp]

theorem addCluster_find {ranges : NotifyRanges} {s : Marked} {item : ClusterItem}
    (keyed : Keyed s.1)
    (hitem : ∀ k conn, item.2.clusterConnectionsMap.lookup k = some conn →
      KeyedItem item.1 ⟨k, conn⟩) :
    Keyed (addCluster ranges s item).1 ∧ ∀ p,
    (addCluster ranges s item).1.active p = s.1.active p ∧
    ∀ k conn, (addCluster ranges s item).1.find p k = some conn ↔
      (p = item.1 ∧ item.2.clusterConnectionsMap.lookup k = some conn) ∨
        (s.1.find p k = some conn ∧ ¬(p = item.1 ∧ k ∈ item.2.clusterConnectionsMap)) := by
  have perm := (ranges.conns item.1).perm item.2.clusterConnectionsMap.entries
  have nodup : ((ranges.conns item.1).order item.2.clusterConnectionsMap.entries).NodupKeys :=
    (List.perm_nodupKeys perm).mpr item.2.clusterConnectionsMap.nodupKeys
  have hitems : ∀ x ∈ (ranges.conns item.1).order item.2.clusterConnectionsMap.entries,
      KeyedItem item.1 x := by
    intro x hx
    rw [RangeOrder.mem_order, GoMap.mem_entries] at hx
    exact hitem x.1 x.2 hx
  obtain ⟨hkeyed, hfind⟩ := @foldl_addConnection item.1 _
    (s.1, if item.1 ∈ s.2 then s.2 else s.2.insert item.1 false) keyed hitems nodup
  refine ⟨hkeyed, ?_⟩
  intro p
  obtain ⟨hactive, hfind⟩ := hfind p
  refine ⟨hactive, ?_⟩
  intro k conn
  unfold addCluster
  rw [hfind, RangeOrder.mem_order, GoMap.mem_entries]
  have hkeys : k ∈ ((ranges.conns item.1).order item.2.clusterConnectionsMap.entries).keys ↔
      k ∈ item.2.clusterConnectionsMap := (perm.map Sigma.fst).mem_iff
  rw [hkeys]

theorem foldl_addCluster {ranges : NotifyRanges} {items : List ClusterItem} {s : Marked}
    (keyed : Keyed s.1)
    (hitems : ∀ x ∈ items, ∀ k conn, x.2.clusterConnectionsMap.lookup k = some conn →
      KeyedItem x.1 ⟨k, conn⟩) (nodup : items.NodupKeys) :
    ∀ p, (items.foldl (addCluster ranges) s).1.active p = s.1.active p ∧
    ∀ k conn, (items.foldl (addCluster ranges) s).1.find p k = some conn ↔
      (∃ x ∈ items, p = x.1 ∧ x.2.clusterConnectionsMap.lookup k = some conn) ∨
        (s.1.find p k = some conn ∧
          ∀ x ∈ items, p = x.1 → k ∉ x.2.clusterConnectionsMap) := by
  induction items generalizing s with
  | nil => exact fun p => ⟨rfl, by simp⟩
  | cons x items ih =>
    intro p
    have hnd := List.nodupKeys_cons.mp nodup
    obtain ⟨hkeyed, hhead⟩ := @addCluster_find ranges s x keyed (hitems x (by simp))
    obtain ⟨hactive', hfind'⟩ := hhead p
    obtain ⟨hactive, hfind⟩ := ih hkeyed (fun y hy => hitems y (by simp [hy])) hnd.2 p
    rw [List.foldl_cons]
    refine ⟨hactive.trans hactive', ?_⟩
    intro k conn
    rw [hfind, hfind', List.exists_mem_cons_iff, List.forall_mem_cons]
    by_cases hp : p = x.1
    · have hrest : ∀ y ∈ items, p ≠ y.1 := by
        intro y hy hpy
        exact hnd.1 (List.mem_keys.mpr ⟨y.2, by rw [← hp, hpy]; exact hy⟩)
      have hnone : ¬∃ y ∈ items, p = y.1 ∧ y.2.clusterConnectionsMap.lookup k = some conn := by
        rintro ⟨y, hy, hpy, -⟩
        exact hrest y hy hpy
      have hall : ∀ y ∈ items, p = y.1 → k ∉ y.2.clusterConnectionsMap := by
        intro y hy hpy
        exact absurd hpy (hrest y hy)
      tauto
    · simp only [hp, false_and, false_or, not_false_eq_true, and_true, false_implies, true_and]

theorem removeConnections_find {ranges : NotifyRanges} {connections fromCache : ConnectionMap}
    (keyedCache : Keyed fromCache) (p : ClientClusterPair) :
    (removeConnections ranges connections fromCache).connections.active p =
      connections.active p ∧
    ∀ k conn, (removeConnections ranges connections fromCache).connections.find p k = some conn ↔
      connections.find p k = some conn ∧
        (p ∈ fromCache → fromCache.find p conn.key = some conn) := by
  obtain ⟨hactive, hfind⟩ := @foldl_removeCluster ranges (ranges.pairs.order fromCache.entries)
    ⟨none, connections, ∅, [], []⟩ p
  refine ⟨hactive, ?_⟩
  intro k conn
  unfold removeConnections
  rw [hfind]
  refine and_congr_right fun _ => ?_
  simp only [RangeOrder.mem_order]
  constructor
  · intro h hp
    obtain ⟨cached, hcached⟩ := GoMap.mem_iff_lookup.mp hp
    have hmem : ⟨p, cached⟩ ∈ fromCache.entries := GoMap.mem_entries.mpr hcached
    have hexists := h _ hmem rfl
    rwa [← ConnectionMap.cluster_of_mem_entries hmem, keyedCache.exists_iff] at hexists
  · intro h x hx hp
    rw [← ConnectionMap.cluster_of_mem_entries hx, keyedCache.exists_iff, ← hp]
    exact h (hp ▸ GoMap.mem_of_mem_entries hx)

theorem addConnections_find {ranges : NotifyRanges} {s : Marked} {fromCache : ConnectionMap}
    (keyed : Keyed s.1) (keyedCache : Keyed fromCache) (p : ClientClusterPair) :
    (addConnections ranges s fromCache).1.active p = s.1.active p ∧
    ∀ k conn, (addConnections ranges s fromCache).1.find p k = some conn ↔
      fromCache.find p k = some conn ∨
        (s.1.find p k = some conn ∧ fromCache.find p k = none) := by
  have hitems : ∀ x ∈ ranges.pairs.order fromCache.entries, ∀ k conn,
      x.2.clusterConnectionsMap.lookup k = some conn → KeyedItem x.1 ⟨k, conn⟩ := by
    intro x hx k conn h
    rw [RangeOrder.mem_order] at hx
    rw [← ConnectionMap.cluster_of_mem_entries hx] at h
    exact keyedCache x.1 k conn h
  have nodup : (ranges.pairs.order fromCache.entries).NodupKeys :=
    (List.perm_nodupKeys (ranges.pairs.perm _)).mpr fromCache.nodupKeys
  obtain ⟨hactive, hfind⟩ := @foldl_addCluster ranges _ s keyed hitems nodup p
  refine ⟨hactive, ?_⟩
  intro k conn
  have hnone : fromCache.find p k = none ↔
      ∀ x ∈ fromCache.entries, p = x.1 → k ∉ x.2.clusterConnectionsMap := by
    rw [Option.eq_none_iff_forall_ne_some]
    simp only [ne_eq, ConnectionMap.find_eq_some_iff, GoMap.mem_iff_lookup]
    constructor
    · intro h x hx hp hk
      obtain ⟨conn, hconn⟩ := hk
      exact h conn ⟨x, hx, hp, hconn⟩
    · intro h conn hconn
      obtain ⟨x, hx, hp, hlook⟩ := hconn
      exact h x hx hp ⟨conn, hlook⟩
  unfold addConnections
  rw [hfind, hnone, @ConnectionMap.find_eq_some_iff fromCache]
  simp only [RangeOrder.mem_order]

/-- After a notification the service holds, for every pair of it, exactly the cache's connections;
other pairs keep theirs, and no pair's active connection changes. -/
theorem onNotification_find {removeRanges addRanges : NotifyRanges}
    {connections fromCache : ConnectionMap} (keyed : Keyed connections)
    (keyedCache : Keyed fromCache) (p : ClientClusterPair) :
    (onNotification removeRanges addRanges connections fromCache).1.active p =
      connections.active p ∧
    ∀ k, (onNotification removeRanges addRanges connections fromCache).1.find p k =
      if p ∈ fromCache then fromCache.find p k else connections.find p k := by
  let removed := removeConnections removeRanges connections fromCache
  have hremoved := @removeConnections_find removeRanges connections fromCache keyedCache
  have hkeyed : Keyed removed.connections := by
    intro p k conn h
    exact keyed p k conn (((hremoved p).2 k conn).mp h).1
  obtain ⟨hactive, hfind⟩ := @addConnections_find addRanges (removed.connections, removed.modified)
    fromCache hkeyed keyedCache p
  refine ⟨hactive.trans (hremoved p).1, ?_⟩
  intro k
  apply Option.ext
  intro conn
  unfold onNotification
  rw [hfind, (hremoved p).2]
  split
  next hp =>
    constructor
    · rintro (h | ⟨⟨hold, hin⟩, hnone⟩)
      · exact h
      · have hcached := hin hp
        rw [(keyed p k conn hold).2.1, hnone] at hcached
        cases hcached
    · exact Or.inl
  next hp =>
    have hnone := ConnectionMap.find_of_not_mem hp k
    simp [hnone, hp]

theorem onNotification_keyed {removeRanges addRanges : NotifyRanges}
    {connections fromCache : ConnectionMap} (keyed : Keyed connections)
    (keyedCache : Keyed fromCache) :
    Keyed (onNotification removeRanges addRanges connections fromCache).1 := by
  intro p k conn h
  change ConnectionMap.find _ p k = some conn at h
  rw [(onNotification_find keyed keyedCache p).2 k] at h
  split at h
  next => exact keyedCache p k conn h
  next => exact keyed p k conn h

end DiscoveryClient
