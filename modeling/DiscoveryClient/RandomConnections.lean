import DiscoveryClient.Service
import DiscoveryClient.Shuffle

/-! Which endpoint of a cluster a client connects to: the list that `GetRandomConnectionList` makes,
and the connection that `reconnectToCluster` takes from it. -/

namespace DiscoveryClient

open Shuffle

/-- The connections of a pair as the service's map holds them. -/
def clusterItems (connections : ConnectionMap) (clusterMapId : ClientClusterPair) :
    List ConnectionItem :=
  (connections.cluster clusterMapId).clusterConnectionsMap.entries

/-- The range over the map, then `rand.Shuffle` with what it draws. -/
def ClusterConnections.getRandomConnectionList (range : RangeOrder ConnectionItem)
    (cc : ClusterConnections) (draws : Draws cc.clusterConnectionsMap.entries.length) :
    List Connection :=
  shuffle draws ((range.order cc.clusterConnectionsMap.entries).map (·.2))

section Drawn

variable (range : RangeOrder ConnectionItem) (connections : ConnectionMap)
  (clusterMapId : ClientClusterPair) (draws : Draws (clusterItems connections clusterMapId).length)

theorem drawn_perm : (shuffle draws (range.order (clusterItems connections clusterMapId))).Perm
    (clusterItems connections clusterMapId) := by
  have hperm := range.perm (clusterItems connections clusterMapId)
  exact (shuffle_perm draws hperm.length_eq).trans hperm

/-- The order of the list as one of the orders of the cluster's connections. -/
def drawnOrder : RangeOrder ConnectionItem :=
  .ofPerm (drawn_perm range connections clusterMapId draws)

theorem drawnOrder_eq :
    ((drawnOrder range connections clusterMapId draws).order
      (clusterItems connections clusterMapId)).map (·.2) =
      (connections.cluster clusterMapId).getRandomConnectionList range draws := by
  rw [drawnOrder, RangeOrder.order_ofPerm]
  exact (shuffle_map _ draws).symm

end Drawn

/-- A discovery over the connection succeeds. -/
def answers (discoverOver : Connection → DiscoverResult) (conn : Connection) : Bool :=
  (discover (discoverOver conn)).isSome

/-- The connection that is taken is the first of the list that answers. -/
theorem getLiveConnection_eq_find? (discoverOver : Connection → DiscoverResult)
    (connections : ConnectionMap) (l : List Connection) :
    (getLiveConnection connections discoverOver l).2 = l.find? (answers discoverOver) := by
  induction l with
  | nil => rfl
  | cons conn rest ih =>
    simp only [getLiveConnection, getLogPageEntries, List.find?_cons, answers]
    cases discover (discoverOver conn) with
    | none => exact ih
    | some entries => rfl

section Reconnect

variable (range : RangeOrder ConnectionItem) (discoverOver : Connection → DiscoverResult)
  (connections : ConnectionMap) (clusterMapId : ClientClusterPair)

theorem reconnect_eq_live_iff (order : RangeOrder ConnectionItem) (conn : Connection) :
    (reconnectToCluster order discoverOver connections clusterMapId).2 = .live conn ↔
      ((order.order (clusterItems connections clusterMapId)).map (·.2)).find?
        (answers discoverOver) = some conn := by
  rw [← getLiveConnection_eq_find? discoverOver connections]
  have hitems : (connections.cluster clusterMapId).clusterConnectionsMap.entries =
      clusterItems connections clusterMapId := rfl
  simp only [reconnectToCluster, hitems]
  by_cases hnone : clusterItems connections clusterMapId = []
  · have hempty : order.order [] = [] := (order.perm []).eq_nil
    simp [hnone, hempty, getLiveConnection]
  · rw [if_neg hnone]
    generalize getLiveConnection connections discoverOver
      ((order.order (clusterItems connections clusterMapId)).map (·.2)) = result
    obtain ⟨connections', live⟩ := result
    cases live with
    | none => simp
    | some found => simp

theorem reconnect_live_iff (draws : Draws (clusterItems connections clusterMapId).length)
    (conn : Connection) :
    (reconnectToCluster (drawnOrder range connections clusterMapId draws) discoverOver connections
        clusterMapId).2 = .live conn ↔
      ((shuffle draws (range.order (clusterItems connections clusterMapId))).find?
        fun item => answers discoverOver item.2).any (·.2 = conn) = true := by
  rw [reconnect_eq_live_iff, drawnOrder, RangeOrder.order_ofPerm, List.find?_map]
  have hcomp : (answers discoverOver ∘ fun item : ConnectionItem => item.2) =
      fun item => answers discoverOver item.2 := rfl
  rw [hcomp]
  cases (shuffle draws (range.order (clusterItems connections clusterMapId))).find?
      fun item => answers discoverOver item.2 with
  | none => simp
  | some item => simp

/-- How many of all draws take the connection. -/
def takenDraws (conn : Connection) : Nat :=
  (Finset.univ.filter fun draws : Draws (clusterItems connections clusterMapId).length =>
    (reconnectToCluster (drawnOrder range connections clusterMapId draws) discoverOver connections
      clusterMapId).2 = .live conn).card

theorem takenDraws_mul (conn : Connection) :
    takenDraws range discoverOver connections clusterMapId conn *
      (clusterItems connections clusterMapId).countP (fun item => answers discoverOver item.2) =
    (clusterItems connections clusterMapId).countP
        (fun item => answers discoverOver item.2 && item.2 = conn) *
      (clusterItems connections clusterMapId).length.factorial := by
  have hperm := range.perm (clusterItems connections clusterMapId)
  have hdistinct : (range.order (clusterItems connections clusterMapId)).Nodup :=
    hperm.nodup_iff.mpr (connections.cluster clusterMapId).clusterConnectionsMap.nodupKeys.nodup
  simp only [takenDraws, reconnect_live_iff]
  rw [← hperm.countP_eq, ← hperm.countP_eq]
  exact card_finds_mul hdistinct hperm.length_eq _ _

/-- Only a connection over which a discovery succeeds is taken. -/
theorem answers_of_live {order : RangeOrder ConnectionItem} {conn : Connection}
    (h : (reconnectToCluster order discoverOver connections clusterMapId).2 = .live conn) :
    answers discoverOver conn = true := by
  rw [reconnect_eq_live_iff] at h
  exact List.find?_some h

/-- A connection that one endpoint has is there once. -/
theorem countP_conn {items : List ConnectionItem} {conn : Connection}
    (hdistinct : (items.map (·.2)).Nodup) (hmem : conn ∈ items.map (·.2))
    (hanswers : answers discoverOver conn = true) :
    items.countP (fun item => answers discoverOver item.2 && item.2 = conn) = 1 := by
  have hsame : items.countP (fun item => answers discoverOver item.2 && item.2 = conn) =
      (items.map (·.2)).count conn := by
    rw [List.count, List.countP_map]
    refine List.countP_congr fun item _ => ?_
    simp only [Function.comp_apply, Bool.and_eq_true, decide_eq_true_eq, beq_iff_eq,
      and_iff_right_iff_imp]
    rintro rfl
    exact hanswers
  rw [hsame, List.count_eq_one_of_mem hdistinct hmem]

/-- Whatever order the map is ranged over in and whichever endpoints answer, every connection that
answers is taken for the same share of what `rand.Shuffle` may draw: all draws over the number of
those that answer, where each endpoint has a connection of its own. The others are never taken. -/
theorem reconnect_balanced (conn : Connection) :
    takenDraws range discoverOver connections clusterMapId conn *
        (clusterItems connections clusterMapId).countP (fun item => answers discoverOver item.2) =
      (clusterItems connections clusterMapId).countP
          (fun item => answers discoverOver item.2 && item.2 = conn) *
        (clusterItems connections clusterMapId).length.factorial ∧
    (answers discoverOver conn = true → conn ∈ (clusterItems connections clusterMapId).map (·.2) →
      ((clusterItems connections clusterMapId).map (·.2)).Nodup →
      takenDraws range discoverOver connections clusterMapId conn *
          (clusterItems connections clusterMapId).countP (fun item => answers discoverOver item.2) =
        (clusterItems connections clusterMapId).length.factorial) ∧
    (answers discoverOver conn = false → ∀ draws,
      (reconnectToCluster (drawnOrder range connections clusterMapId draws) discoverOver connections
        clusterMapId).2 ≠ .live conn) := by
  have hmul := takenDraws_mul range discoverOver connections clusterMapId conn
  refine ⟨hmul, fun hanswers hmem hdistinct => ?_, fun hsilent draws hlive => ?_⟩
  · rw [hmul, countP_conn discoverOver hdistinct hmem hanswers, Nat.one_mul]
  · rw [answers_of_live discoverOver connections clusterMapId hlive] at hsilent
    cases hsilent

end Reconnect

end DiscoveryClient
