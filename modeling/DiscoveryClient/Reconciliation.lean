import DiscoveryClient.ActiveConnection

namespace DiscoveryClient

open GoString

theorem ConnectionMap.lookup_addConnection_ne {cm : ConnectionMap} {key : TKey} {conn : Connection}
    {q : ClientClusterPair} (h : q ≠ key.pair) :
    (cm.addConnection key conn).lookup q = cm.lookup q := by
  rw [addConnection, GoMap.lookup_insert_eq, if_neg h]

theorem ConnectionMap.lookup_deleteConnection_ne {cm : ConnectionMap} {pair q : ClientClusterPair}
    {key : TKey} (h : q ≠ pair) : (cm.deleteConnection pair key).lookup q = cm.lookup q := by
  unfold deleteConnection
  split
  next => rfl
  next => rw [GoMap.lookup_insert_eq, if_neg h]

/-- What the removing loop stops of a list of connections. -/
def staleConnections (cached : ClusterConnections) (items : List ConnectionItem) :
    List Connection := (items.filter fun x => !cached.exists x.2).map (·.2)

theorem mem_staleConnections {cached : ClusterConnections} {items : List ConnectionItem}
    {conn : Connection} : conn ∈ staleConnections cached items ↔
      ∃ k, ⟨k, conn⟩ ∈ items ∧ cached.exists conn = false := by
  simp only [staleConnections, List.mem_map, List.mem_filter, Bool.not_eq_true']
  constructor
  · rintro ⟨x, ⟨hx, hstale⟩, rfl⟩
    exact ⟨x.1, hx, hstale⟩
  · rintro ⟨k, hx, hstale⟩
    exact ⟨⟨k, conn⟩, ⟨hx, hstale⟩, rfl⟩

theorem removeConnection_frame {cached : ClusterConnections} {pair q : ClientClusterPair}
    {r : Removal} {x : ConnectionItem} (hq : q ≠ pair) :
    (removeConnection cached pair r x).connections.lookup q = r.connections.lookup q ∧
    (removeConnection cached pair r x).modified.lookup q = r.modified.lookup q := by
  unfold removeConnection
  split
  next => exact ⟨rfl, rfl⟩
  next =>
    exact ⟨ConnectionMap.lookup_deleteConnection_ne hq, by rw [GoMap.lookup_insert_eq, if_neg hq]⟩

theorem foldl_removeConnection_frame {cached : ClusterConnections} {pair q : ClientClusterPair}
    {items : List ConnectionItem} {r : Removal} (hq : q ≠ pair) :
    (items.foldl (removeConnection cached pair) r).connections.lookup q = r.connections.lookup q ∧
    (items.foldl (removeConnection cached pair) r).modified.lookup q = r.modified.lookup q := by
  refine List.foldlRecOn items _ (motive := fun r' : Removal =>
    r'.connections.lookup q = r.connections.lookup q ∧
      r'.modified.lookup q = r.modified.lookup q) ⟨rfl, rfl⟩ ?_
  rintro r' ⟨hconns, hmod⟩ x -
  rw [← hconns, ← hmod]
  exact removeConnection_frame hq

theorem foldl_removeConnection_stopped {cached : ClusterConnections} {pair : ClientClusterPair}
    {items : List ConnectionItem} {r : Removal} :
    (items.foldl (removeConnection cached pair) r).stopped =
      r.stopped ++ staleConnections cached items ∧
    ((items.foldl (removeConnection cached pair) r).modified.lookup pair = some true ↔
      r.modified.lookup pair = some true ∨ staleConnections cached items ≠ []) := by
  induction items generalizing r with
  | nil => simp [staleConnections]
  | cons x items ih =>
    obtain ⟨hstop, hmod⟩ := @ih (removeConnection cached pair r x)
    rw [List.foldl_cons, hstop, hmod]
    by_cases hx : cached.exists x.2 = true
    · have hskip : removeConnection cached pair r x = r := if_pos hx
      have hstale : staleConnections cached (x :: items) = staleConnections cached items := by
        simp [staleConnections, hx]
      rw [hskip, hstale]
      exact ⟨rfl, Iff.rfl⟩
    · have hstale : staleConnections cached (x :: items) =
          x.2 :: staleConnections cached items := by simp [staleConnections, hx]
      have hr : (removeConnection cached pair r x).stopped = r.stopped ++ [x.2] ∧
          (removeConnection cached pair r x).modified = r.modified.insert pair true := by
        rw [removeConnection, if_neg hx]
        exact ⟨rfl, rfl⟩
      rw [hr.1, hr.2, hstale, List.append_assoc, List.singleton_append]
      refine ⟨rfl, ?_⟩
      simp

/-- The connections of a notified pair, as the removing loop ranges over them. -/
def NotifyRanges.serviceItems (ranges : NotifyRanges) (connections : ConnectionMap)
    (p : ClientClusterPair) : List ConnectionItem :=
  (ranges.conns p).order (connections.cluster p).clusterConnectionsMap.entries

theorem NotifyRanges.mem_serviceItems {ranges : NotifyRanges} {connections : ConnectionMap}
    {p : ClientClusterPair} {k : TKey} {conn : Connection} :
    ⟨k, conn⟩ ∈ ranges.serviceItems connections p ↔ connections.find p k = some conn := by
  rw [serviceItems, RangeOrder.mem_order, GoMap.mem_entries]
  rfl

theorem removeCluster_frame {ranges : NotifyRanges} {r : Removal} {item : ClusterItem}
    {q : ClientClusterPair} (hq : q ≠ item.1) :
    (removeCluster ranges r item).connections.lookup q = r.connections.lookup q ∧
    (removeCluster ranges r item).modified.lookup q = r.modified.lookup q := by
  unfold removeCluster
  split
  next =>
    split
    next => exact ⟨rfl, rfl⟩
    next => exact ⟨rfl, by rw [GoMap.lookup_insert_eq, if_neg hq]⟩
  next => exact foldl_removeConnection_frame hq

theorem removeCluster_stopped {ranges : NotifyRanges} {r : Removal} {item : ClusterItem} :
    (removeCluster ranges r item).stopped =
      r.stopped ++ staleConnections item.2 (ranges.serviceItems r.connections item.1) ∧
    ((removeCluster ranges r item).modified.lookup item.1 = some true ↔
      r.modified.lookup item.1 = some true ∨
        staleConnections item.2 (ranges.serviceItems r.connections item.1) ≠ []) := by
  unfold removeCluster
  split
  next hnone =>
    have hitems : ranges.serviceItems r.connections item.1 = [] := by
      rw [NotifyRanges.serviceItems, ConnectionMap.cluster, hnone]
      exact List.Perm.eq_nil ((ranges.conns item.1).perm [])
    have hstale : staleConnections item.2 [] = [] := rfl
    rw [hitems, hstale]
    split
    next => simp
    next hmem =>
      rw [GoMap.lookup_insert_eq, if_pos rfl, AList.lookup_eq_none.mpr hmem]
      simp
  next cc hsome =>
    have hitems : ranges.serviceItems r.connections item.1 =
        (ranges.conns item.1).order cc.clusterConnectionsMap.entries := by
      rw [NotifyRanges.serviceItems, ConnectionMap.cluster, hsome]
      rfl
    rw [hitems]
    exact foldl_removeConnection_stopped

theorem foldl_removeCluster_frame {ranges : NotifyRanges} {items : List ClusterItem} {r : Removal}
    {q : ClientClusterPair} (hq : q ∉ items.keys) :
    (items.foldl (removeCluster ranges) r).connections.lookup q = r.connections.lookup q ∧
    (items.foldl (removeCluster ranges) r).modified.lookup q = r.modified.lookup q := by
  refine List.foldlRecOn items _ (motive := fun r' : Removal =>
    r'.connections.lookup q = r.connections.lookup q ∧
      r'.modified.lookup q = r.modified.lookup q) ⟨rfl, rfl⟩ ?_
  rintro r' ⟨hconns, hmod⟩ x hx
  rw [← hconns, ← hmod]
  exact removeCluster_frame fun heq => hq (heq ▸ List.mem_keys.mpr ⟨x.2, hx⟩)

theorem NotifyRanges.serviceItems_congr {ranges : NotifyRanges} {cm cm' : ConnectionMap}
    {p : ClientClusterPair} (h : cm.lookup p = cm'.lookup p) :
    ranges.serviceItems cm p = ranges.serviceItems cm' p := by
  rw [serviceItems, serviceItems, ConnectionMap.cluster, ConnectionMap.cluster, h]

/-- Each pair is visited once, and no other pair's visit changes what its own finds. -/
theorem foldl_removeCluster_stopped {ranges : NotifyRanges} {items : List ClusterItem}
    {r : Removal} (nodup : items.NodupKeys) :
    (items.foldl (removeCluster ranges) r).stopped = r.stopped ++
      items.flatMap (fun x => staleConnections x.2 (ranges.serviceItems r.connections x.1)) ∧
    ∀ x ∈ items, ((items.foldl (removeCluster ranges) r).modified.lookup x.1 = some true ↔
      r.modified.lookup x.1 = some true ∨
        staleConnections x.2 (ranges.serviceItems r.connections x.1) ≠ []) := by
  induction items generalizing r with
  | nil => simp
  | cons x items ih =>
    have hnd := List.nodupKeys_cons.mp nodup
    obtain ⟨hstop, hmod⟩ := @ih (removeCluster ranges r x) hnd.2
    obtain ⟨hstop', hmod'⟩ := @removeCluster_stopped ranges r x
    have hother : ∀ y ∈ items, y.1 ≠ x.1 := by
      intro y hy heq
      exact hnd.1 (heq ▸ List.mem_keys.mpr ⟨y.2, hy⟩)
    have hsame : ∀ y ∈ items, ranges.serviceItems (removeCluster ranges r x).connections y.1 =
        ranges.serviceItems r.connections y.1 := by
      intro y hy
      exact NotifyRanges.serviceItems_congr (removeCluster_frame (hother y hy)).1
    rw [List.foldl_cons]
    refine ⟨?_, ?_⟩
    · rw [hstop, hstop', List.flatMap_cons, List.append_assoc]
      congr 2
      exact List.flatMap_congr fun y hy => by rw [hsame y hy]
    · intro y hy
      rcases List.mem_cons.mp hy with rfl | hy
      · rw [(foldl_removeCluster_frame hnd.1).2, hmod']
      · rw [hmod y hy, hsame y hy, (removeCluster_frame (hother y hy)).2]

theorem Keyed.staleConnections_nodup {cm : ConnectionMap} (keyed : Keyed cm)
    (ranges : NotifyRanges) (p : ClientClusterPair) (cached : ClusterConnections) :
    (staleConnections cached (ranges.serviceItems cm p)).Nodup := by
  have hperm := (ranges.conns p).perm (cm.cluster p).clusterConnectionsMap.entries
  have hnodup : (ranges.serviceItems cm p).NodupKeys :=
    (List.perm_nodupKeys hperm).mpr (cm.cluster p).clusterConnectionsMap.nodupKeys
  -- a connection is stored under its own key, so the keys tell the connections apart
  refine List.Nodup.of_map Connection.key ?_
  have hkeys : (staleConnections cached (ranges.serviceItems cm p)).map Connection.key =
      ((ranges.serviceItems cm p).filter fun x => !cached.exists x.2).map Sigma.fst := by
    rw [staleConnections, List.map_map]
    refine List.map_congr_left fun x hx => ?_
    have hfind := NotifyRanges.mem_serviceItems.mp (List.mem_of_mem_filter hx)
    exact (keyed p x.1 x.2 hfind).2.1
  rw [hkeys]
  exact List.NodupKeys.sublist List.filter_sublist hnodup

theorem Keyed.pair_of_stale {cm : ConnectionMap} (keyed : Keyed cm) {ranges : NotifyRanges}
    {p : ClientClusterPair} {cached : ClusterConnections} {conn : Connection}
    (h : conn ∈ staleConnections cached (ranges.serviceItems cm p)) : conn.key.pair = p := by
  obtain ⟨k, hk, _⟩ := mem_staleConnections.mp h
  have hconn := keyed p k conn (NotifyRanges.mem_serviceItems.mp hk)
  rw [hconn.2.1, hconn.1]

section

variable {ranges : NotifyRanges} {connections fromCache : ConnectionMap}

theorem nodupKeys_pairs : (ranges.pairs.order fromCache.entries).NodupKeys :=
  (List.perm_nodupKeys (ranges.pairs.perm _)).mpr fromCache.nodupKeys

theorem mem_keys_pairs {p : ClientClusterPair} :
    p ∈ (ranges.pairs.order fromCache.entries).keys ↔ p ∈ fromCache :=
  ((ranges.pairs.perm fromCache.entries).map Sigma.fst).mem_iff

theorem ConnectionMap.exists_eq_false_iff {p : ClientClusterPair} {conn : Connection} :
    (fromCache.cluster p).exists conn = false ↔ ∀ k, fromCache.find p k ≠ some conn := by
  rw [← Bool.not_eq_true, ClusterConnections.exists_iff, not_exists]
  rfl

theorem removeConnections_stopped_nodup (keyed : Keyed connections) :
    (removeConnections ranges connections fromCache).stopped.Nodup := by
  rw [removeConnections, (foldl_removeCluster_stopped nodupKeys_pairs).1, List.nil_append,
    List.nodup_flatMap]
  refine ⟨fun x _ => keyed.staleConnections_nodup ranges x.1 x.2, ?_⟩
  have hpairs := List.pairwise_map.mp (@nodupKeys_pairs ranges fromCache)
  refine hpairs.imp fun {x y} hne => ?_
  intro conn hx hy
  exact hne ((keyed.pair_of_stale hx).symm.trans (keyed.pair_of_stale hy))

theorem mem_removeConnections_stopped {conn : Connection} :
    conn ∈ (removeConnections ranges connections fromCache).stopped ↔
      ∃ p ∈ fromCache, (∃ k, connections.find p k = some conn) ∧
        ∀ k, fromCache.find p k ≠ some conn := by
  rw [removeConnections, (foldl_removeCluster_stopped nodupKeys_pairs).1, List.nil_append,
    List.mem_flatMap]
  simp only [mem_staleConnections, NotifyRanges.mem_serviceItems, RangeOrder.mem_order]
  constructor
  · rintro ⟨x, hx, k, hk, hstale⟩
    refine ⟨x.1, GoMap.mem_of_mem_entries hx, ⟨k, hk⟩, ?_⟩
    rwa [← ConnectionMap.cluster_of_mem_entries hx, ConnectionMap.exists_eq_false_iff] at hstale
  · rintro ⟨p, hp, ⟨k, hk⟩, hstale⟩
    obtain ⟨cc, hcc⟩ := GoMap.mem_iff_lookup.mp hp
    have hmem : ⟨p, cc⟩ ∈ fromCache.entries := GoMap.mem_entries.mpr hcc
    refine ⟨_, hmem, k, hk, ?_⟩
    rwa [← ConnectionMap.cluster_of_mem_entries hmem, ConnectionMap.exists_eq_false_iff]

theorem removeConnections_modified {p : ClientClusterPair} :
    (removeConnections ranges connections fromCache).modified.lookup p = some true ↔
      p ∈ fromCache ∧ ∃ k conn, connections.find p k = some conn ∧
        ∀ k', fromCache.find p k' ≠ some conn := by
  by_cases hp : p ∈ fromCache
  · obtain ⟨cc, hcc⟩ := GoMap.mem_iff_lookup.mp hp
    have hmem : ⟨p, cc⟩ ∈ fromCache.entries := GoMap.mem_entries.mpr hcc
    have hmod := (@foldl_removeCluster_stopped ranges _ ⟨none, connections, ∅, [], []⟩
      (@nodupKeys_pairs ranges fromCache)).2 ⟨p, cc⟩ (ranges.pairs.mem_order.mpr hmem)
    rw [removeConnections, hmod]
    simp only [AList.lookup_empty, reduceCtorEq, false_or, ne_eq,
      List.eq_nil_iff_forall_not_mem, not_forall, not_not, mem_staleConnections,
      NotifyRanges.mem_serviceItems, hp, true_and]
    have hstale : ∀ conn, cc.exists conn = false ↔ ∀ k, fromCache.find p k ≠ some conn := by
      intro conn
      rw [← ConnectionMap.exists_eq_false_iff, ConnectionMap.cluster_of_mem_entries hmem]
    simp only [hstale]
    exact exists_comm
  · have hframe := (@foldl_removeCluster_frame ranges (ranges.pairs.order fromCache.entries)
      ⟨none, connections, ∅, [], []⟩ p (mt mem_keys_pairs.mp hp)).2
    rw [removeConnections, hframe]
    simp [hp]

end

theorem addConnection_frame {pair q : ClientClusterPair} {s : Marked} {x : ConnectionItem}
    (hx : KeyedItem pair x) (hq : q ≠ pair) :
    (addConnection pair s x).1.lookup q = s.1.lookup q ∧
    (addConnection pair s x).2.lookup q = s.2.lookup q := by
  unfold addConnection
  split
  next => exact ⟨rfl, rfl⟩
  next =>
    have hne : q ≠ x.1.pair := hx.1 ▸ hq
    exact ⟨ConnectionMap.lookup_addConnection_ne hne, by rw [GoMap.lookup_insert_eq, if_neg hq]⟩

theorem foldl_addConnection_frame {pair q : ClientClusterPair} {items : List ConnectionItem}
    {s : Marked} (hitems : ∀ x ∈ items, KeyedItem pair x) (hq : q ≠ pair) :
    (items.foldl (addConnection pair) s).1.lookup q = s.1.lookup q ∧
    (items.foldl (addConnection pair) s).2.lookup q = s.2.lookup q := by
  refine List.foldlRecOn items _ (motive := fun s' : Marked =>
    s'.1.lookup q = s.1.lookup q ∧ s'.2.lookup q = s.2.lookup q) ⟨rfl, rfl⟩ ?_
  rintro s' ⟨hconns, hmod⟩ x hx
  rw [← hconns, ← hmod]
  exact addConnection_frame (hitems x hx) hq

/-- The loop marks the pair exactly if one of the connections was not the pair's already: what it
adds is never what a later round looks for. -/
theorem foldl_addConnection_modified {pair : ClientClusterPair} {items : List ConnectionItem}
    {s : Marked} (keyed : Keyed s.1) (hitems : ∀ x ∈ items, KeyedItem pair x)
    (nodup : items.NodupKeys) :
    (items.foldl (addConnection pair) s).2.lookup pair = some true ↔
      s.2.lookup pair = some true ∨ ∃ x ∈ items, s.1.find pair x.1 ≠ some x.2 := by
  induction items generalizing s with
  | nil => simp
  | cons x items ih =>
    have hx := hitems x (by simp)
    have hnd := List.nodupKeys_cons.mp nodup
    have hrest := ih (addConnection_keyed keyed hx) (fun y hy => hitems y (by simp [hy])) hnd.2
    have hsame : ∀ y ∈ items, (addConnection pair s x).1.find pair y.1 = s.1.find pair y.1 := by
      intro y hy
      have hne : y.1 ≠ x.1 := fun heq => hnd.1 (heq ▸ List.mem_keys.mpr ⟨y.2, hy⟩)
      rw [(addConnection_find keyed hx).2, if_neg fun h => hne h.2]
    have htail : (∃ y ∈ items, (addConnection pair s x).1.find pair y.1 ≠ some y.2) ↔
        ∃ y ∈ items, s.1.find pair y.1 ≠ some y.2 := by
      refine exists_congr fun y => and_congr_right fun hy => ?_
      rw [hsame y hy]
    have hhead : (addConnection pair s x).2.lookup pair = some true ↔
        s.2.lookup pair = some true ∨ s.1.find pair x.1 ≠ some x.2 := by
      unfold addConnection
      have hexists := @Keyed.exists_iff s.1 keyed pair x.2
      rw [hx.2.1] at hexists
      split
      next h => simp [hexists.mp h]
      next h =>
        rw [hexists] at h
        simp [h]
    rw [List.foldl_cons, hrest, htail, hhead, List.exists_mem_cons_iff, or_assoc]

/-- A notified pair with the connections of its map. -/
def KeyedCluster (item : ClusterItem) : Prop :=
  ∀ k conn, item.2.clusterConnectionsMap.lookup k = some conn → KeyedItem item.1 ⟨k, conn⟩

theorem KeyedCluster.items {item : ClusterItem} (h : KeyedCluster item)
    (range : RangeOrder ConnectionItem) :
    ∀ x ∈ range.order item.2.clusterConnectionsMap.entries, KeyedItem item.1 x := by
  intro x hx
  rw [RangeOrder.mem_order, GoMap.mem_entries] at hx
  exact h x.1 x.2 hx

section

variable {ranges : NotifyRanges} {s : Marked} {item : ClusterItem}

theorem addCluster_frame (hitem : KeyedCluster item) {q : ClientClusterPair} (hq : q ≠ item.1) :
    (addCluster ranges s item).1.lookup q = s.1.lookup q ∧
    (addCluster ranges s item).2.lookup q = s.2.lookup q := by
  obtain ⟨hconns, hmod⟩ := @foldl_addConnection_frame item.1 q _
    (s.1, if item.1 ∈ s.2 then s.2 else s.2.insert item.1 false)
    (hitem.items (ranges.conns item.1)) hq
  refine ⟨hconns, hmod.trans ?_⟩
  change (if item.1 ∈ s.2 then s.2 else s.2.insert item.1 false).lookup q = _
  split
  next => rfl
  next => rw [GoMap.lookup_insert_eq, if_neg hq]

theorem addCluster_modified (keyed : Keyed s.1) (hitem : KeyedCluster item) :
    (addCluster ranges s item).2.lookup item.1 = some true ↔ s.2.lookup item.1 = some true ∨
      ∃ k conn, item.2.clusterConnectionsMap.lookup k = some conn ∧
        s.1.find item.1 k ≠ some conn := by
  have hperm := (ranges.conns item.1).perm item.2.clusterConnectionsMap.entries
  have hnodup : ((ranges.conns item.1).order item.2.clusterConnectionsMap.entries).NodupKeys :=
    (List.perm_nodupKeys hperm).mpr item.2.clusterConnectionsMap.nodupKeys
  have hstart : (if item.1 ∈ s.2 then s.2 else s.2.insert item.1 false).lookup item.1 = some true ↔
      s.2.lookup item.1 = some true := by
    split
    next => exact Iff.rfl
    next hmem =>
      rw [GoMap.lookup_insert_eq, if_pos rfl, AList.lookup_eq_none.mpr hmem]
      simp
  have hloop := @foldl_addConnection_modified item.1 _
    (s.1, if item.1 ∈ s.2 then s.2 else s.2.insert item.1 false) keyed
    (hitem.items (ranges.conns item.1)) hnodup
  unfold addCluster
  rw [hloop, hstart]
  refine or_congr_right ⟨?_, ?_⟩
  · rintro ⟨x, hx, hnew⟩
    rw [RangeOrder.mem_order, GoMap.mem_entries] at hx
    exact ⟨x.1, x.2, hx, hnew⟩
  · rintro ⟨k, conn, hk, hnew⟩
    exact ⟨⟨k, conn⟩, by rwa [RangeOrder.mem_order, GoMap.mem_entries], hnew⟩

end

theorem foldl_addCluster_frame {ranges : NotifyRanges} {items : List ClusterItem} {s : Marked}
    (hitems : ∀ x ∈ items, KeyedCluster x) {q : ClientClusterPair} (hq : q ∉ items.keys) :
    (items.foldl (addCluster ranges) s).1.lookup q = s.1.lookup q ∧
    (items.foldl (addCluster ranges) s).2.lookup q = s.2.lookup q := by
  refine List.foldlRecOn items _ (motive := fun s' : Marked =>
    s'.1.lookup q = s.1.lookup q ∧ s'.2.lookup q = s.2.lookup q) ⟨rfl, rfl⟩ ?_
  rintro s' ⟨hconns, hmod⟩ x hx
  rw [← hconns, ← hmod]
  exact addCluster_frame (hitems x hx) fun heq => hq (heq ▸ List.mem_keys.mpr ⟨x.2, hx⟩)

theorem foldl_addCluster_modified {ranges : NotifyRanges} {items : List ClusterItem} {s : Marked}
    (keyed : Keyed s.1) (hitems : ∀ x ∈ items, KeyedCluster x) (nodup : items.NodupKeys) :
    ∀ x ∈ items, ((items.foldl (addCluster ranges) s).2.lookup x.1 = some true ↔
      s.2.lookup x.1 = some true ∨ ∃ k conn, x.2.clusterConnectionsMap.lookup k = some conn ∧
        s.1.find x.1 k ≠ some conn) := by
  induction items generalizing s with
  | nil => simp
  | cons x items ih =>
    have hx := hitems x (by simp)
    have hnd := List.nodupKeys_cons.mp nodup
    have hkeyed := (@addCluster_find ranges s x keyed hx).1
    intro y hy
    rw [List.foldl_cons]
    rcases List.mem_cons.mp hy with rfl | hy
    · have hrest := @foldl_addCluster_frame ranges items (addCluster ranges s y)
        (fun z hz => hitems z (by simp [hz])) y.1 hnd.1
      rw [hrest.2, addCluster_modified keyed hx]
    · have hne : y.1 ≠ x.1 := fun heq => hnd.1 (heq ▸ List.mem_keys.mpr ⟨y.2, hy⟩)
      obtain ⟨hconns, hmod⟩ := @addCluster_frame ranges s x hx y.1 hne
      have hfind : (addCluster ranges s x).1.find y.1 = s.1.find y.1 := by
        funext k
        rw [ConnectionMap.find, ConnectionMap.cluster, hconns]
        rfl
      rw [ih hkeyed (fun z hz => hitems z (by simp [hz])) hnd.2 y hy, hmod, hfind]

theorem Keyed.cluster {cm : ConnectionMap} (keyed : Keyed cm) {item : ClusterItem}
    (hitem : item ∈ cm.entries) : KeyedCluster item := by
  intro k conn h
  rw [← ConnectionMap.cluster_of_mem_entries hitem] at h
  exact keyed item.1 k conn h

section

variable {ranges : NotifyRanges} {s : Marked} {fromCache : ConnectionMap}

theorem addConnections_frame (keyedCache : Keyed fromCache) {q : ClientClusterPair}
    (hq : q ∉ fromCache) :
    (addConnections ranges s fromCache).1.lookup q = s.1.lookup q ∧
    (addConnections ranges s fromCache).2.lookup q = s.2.lookup q :=
  foldl_addCluster_frame (fun _ hx => keyedCache.cluster (ranges.pairs.mem_order.mp hx))
    (mt mem_keys_pairs.mp hq)

theorem addConnections_modified (keyed : Keyed s.1) (keyedCache : Keyed fromCache)
    {p : ClientClusterPair} (hp : p ∈ fromCache) :
    (addConnections ranges s fromCache).2.lookup p = some true ↔ s.2.lookup p = some true ∨
      ∃ k conn, fromCache.find p k = some conn ∧ s.1.find p k ≠ some conn := by
  obtain ⟨cc, hcc⟩ := GoMap.mem_iff_lookup.mp hp
  have hmem : ⟨p, cc⟩ ∈ fromCache.entries := GoMap.mem_entries.mpr hcc
  have hmod := @foldl_addCluster_modified ranges _ s keyed
    (fun x hx => keyedCache.cluster (ranges.pairs.mem_order.mp hx))
    (@nodupKeys_pairs ranges fromCache) ⟨p, cc⟩ (ranges.pairs.mem_order.mpr hmem)
  have hfind : fromCache.find p = fun k => cc.clusterConnectionsMap.lookup k := by
    funext k
    rw [ConnectionMap.find, ConnectionMap.cluster_of_mem_entries hmem]
  rw [addConnections, hmod, hfind]

end

section

variable {removeRanges addRanges : NotifyRanges} {connections fromCache : ConnectionMap}

/-- A pair is marked exactly if what the service holds for it is not what it held before. -/
theorem onNotification_modified (keyed : Keyed connections) (keyedCache : Keyed fromCache)
    (p : ClientClusterPair) :
    (onNotification removeRanges addRanges connections fromCache).2.lookup p = some true ↔
      ∃ k, (onNotification removeRanges addRanges connections fromCache).1.find p k ≠
        connections.find p k := by
  have hremoved := @removeConnections_find removeRanges connections fromCache keyedCache
  have hkeyed : Keyed (removeConnections removeRanges connections fromCache).connections := by
    intro p k conn h
    exact keyed p k conn (((hremoved p).2 k conn).mp h).1
  have hfinal := (@onNotification_find removeRanges addRanges _ _ keyed keyedCache p).2
  simp only [hfinal]
  unfold onNotification
  by_cases hp : p ∈ fromCache
  · rw [addConnections_modified hkeyed keyedCache hp, removeConnections_modified]
    simp only [hp, true_and, if_true]
    constructor
    · rintro (⟨k, conn, hold, hstale⟩ | ⟨k, conn, hnew, hadd⟩)
      · exact ⟨k, fun heq => hstale k (heq.trans hold)⟩
      · refine ⟨k, fun heq => hadd (((hremoved p).2 k conn).mpr ⟨heq ▸ hnew, fun _ => ?_⟩)⟩
        rw [(keyedCache p k conn hnew).2.1]
        exact hnew
    · rintro ⟨k, hk⟩
      by_contra hnone
      rw [not_or] at hnone
      refine hk (Option.ext fun conn => ⟨fun hnew => ?_, fun hold => ?_⟩)
      · by_contra hold
        refine hnone.2 ⟨k, conn, hnew, fun h => hold (((hremoved p).2 k conn).mp h).1⟩
      · by_contra hnew
        refine hnone.1 ⟨k, conn, hold, fun k' h => hnew ?_⟩
        have hk' : k' = k := (keyedCache p k' conn h).2.1.symm.trans (keyed p k conn hold).2.1
        rwa [hk'] at h
  · have hframe := (@addConnections_frame addRanges
      ((removeConnections removeRanges connections fromCache).connections,
        (removeConnections removeRanges connections fromCache).modified) fromCache keyedCache p hp).2
    rw [hframe, removeConnections_modified]
    simp [hp]

theorem onNotification_frame (keyedCache : Keyed fromCache) {p : ClientClusterPair}
    (hp : p ∉ fromCache) :
    (onNotification removeRanges addRanges connections fromCache).1.lookup p =
      connections.lookup p := by
  unfold onNotification
  rw [(addConnections_frame keyedCache hp).1, removeConnections]
  exact (foldl_removeCluster_frame (mt mem_keys_pairs.mp hp)).1

/-- One pass over a notification, in whatever orders the four loops run. -/
theorem reconciliation_exact (keyed : Keyed connections) (keyedCache : Keyed fromCache) :
    (∀ p ∈ fromCache, ∀ k,
      (onNotification removeRanges addRanges connections fromCache).1.find p k =
        fromCache.find p k) ∧
    (∀ p, p ∉ fromCache →
      (onNotification removeRanges addRanges connections fromCache).1.lookup p =
        connections.lookup p) ∧
    (removeConnections removeRanges connections fromCache).stopped.Nodup ∧
    (∀ conn, conn ∈ (removeConnections removeRanges connections fromCache).stopped ↔
      (∃ p ∈ fromCache, ∃ k, connections.find p k = some conn) ∧
        ∀ p k, fromCache.find p k ≠ some conn) ∧
    ∀ p, (onNotification removeRanges addRanges connections fromCache).2.lookup p = some true ↔
      ∃ k, (onNotification removeRanges addRanges connections fromCache).1.find p k ≠
        connections.find p k := by
  refine ⟨?_, fun p hp => onNotification_frame keyedCache hp,
    removeConnections_stopped_nodup keyed, ?_, onNotification_modified keyed keyedCache⟩
  · intro p hp k
    rw [(onNotification_find keyed keyedCache p).2 k, if_pos hp]
  · intro conn
    rw [mem_removeConnections_stopped]
    constructor
    · rintro ⟨p, hp, ⟨k, hk⟩, hstale⟩
      refine ⟨⟨p, hp, k, hk⟩, fun q k' hcached => hstale k' ?_⟩
      -- a connection names its pair, so it cannot be notified for another one
      have hq : q = p := by
        rw [← (keyedCache q k' conn hcached).1, ← (keyedCache q k' conn hcached).2.1,
          (keyed p k conn hk).2.1, (keyed p k conn hk).1]
      rwa [hq] at hcached
    · rintro ⟨⟨p, hp, k, hk⟩, hstale⟩
      exact ⟨p, hp, ⟨k, hk⟩, hstale p⟩

end

/-- The cache holds another object under the key of the service's only connection. -/
theorem reconciliation_exact_replaced :
    (onNotification .stored .stored (sampleNotification 0 "10.0.0.1")
        (sampleNotification 1 "10.0.0.1")).1.find ⟨ascii "nqn.c", ascii "nqn.h"⟩
          (sampleKey "nqn.c" "10.0.0.1") = some (sampleConnection 1 "nqn.c" "10.0.0.1") ∧
    sampleConnection 0 "nqn.c" "10.0.0.1" ∈ (removeConnections .stored
      (sampleNotification 0 "10.0.0.1") (sampleNotification 1 "10.0.0.1")).stopped ∧
    (onNotification .stored .stored (sampleNotification 0 "10.0.0.1")
      (sampleNotification 1 "10.0.0.1")).2.lookup ⟨ascii "nqn.c", ascii "nqn.h"⟩ = some true := by
  have hexact := @reconciliation_exact .stored .stored _ _
    (sampleNotification_keyed 0 "10.0.0.1") (sampleNotification_keyed 1 "10.0.0.1")
  obtain ⟨hfind, _, _, hstopped, hmodified⟩ := hexact
  have hmem : (⟨ascii "nqn.c", ascii "nqn.h"⟩ : ClientClusterPair) ∈
      sampleNotification 1 "10.0.0.1" := by decide
  have hservice := hfind _ hmem (sampleKey "nqn.c" "10.0.0.1")
  refine ⟨hservice.trans (by decide), ?_, ?_⟩
  · refine (hstopped _).mpr ⟨⟨_, hmem, sampleKey "nqn.c" "10.0.0.1", by decide⟩, ?_⟩
    intro p k h
    rw [sampleNotification, ConnectionMap.find_addConnection] at h
    split at h
    next => exact absurd (congrArg Connection.addr (Option.some.inj h)) (by decide)
    next => simp [ConnectionMap.find, ConnectionMap.cluster] at h
  · refine (hmodified _).mpr ⟨sampleKey "nqn.c" "10.0.0.1", ?_⟩
    rw [hservice]
    decide

end DiscoveryClient
