import DiscoveryClient.CacheInvariant
import DiscoveryClient.ServiceLoop

namespace DiscoveryClient

namespace ConnectionMap

/-- The connection under a key of a pair. -/
def find (cm : ConnectionMap) (p : ClientClusterPair) (k : TKey) : Option Connection :=
  (cm.cluster p).clusterConnectionsMap.lookup k

def active (cm : ConnectionMap) (p : ClientClusterPair) : Option Connection :=
  (cm.cluster p).activeConnection

theorem find_addConnection {cm : ConnectionMap} {key k : TKey} {conn : Connection}
    {p : ClientClusterPair} :
    (cm.addConnection key conn).find p k =
      if p = key.pair ∧ k = key then some conn else cm.find p k := by
  unfold find
  rw [cluster_addConnection]
  by_cases hp : p = key.pair
  · simp [hp, GoMap.lookup_insert_eq]
  · simp [hp]

theorem find_deleteConnection {cm : ConnectionMap} {pair p : ClientClusterPair} {key k : TKey} :
    (cm.deleteConnection pair key).find p k =
      if p = pair ∧ k = key then none else cm.find p k := by
  unfold find
  rw [cluster_deleteConnection]
  by_cases hp : p = pair
  · simp [hp, GoMap.lookup_erase_eq]
  · simp [hp]

@[simp] theorem active_addConnection {cm : ConnectionMap} {key : TKey} {conn : Connection}
    {p : ClientClusterPair} : (cm.addConnection key conn).active p = cm.active p := by
  unfold active
  rw [cluster_addConnection]
  split <;> rfl

@[simp] theorem active_deleteConnection {cm : ConnectionMap} {pair p : ClientClusterPair}
    {key : TKey} : (cm.deleteConnection pair key).active p = cm.active p := by
  unfold active
  rw [cluster_deleteConnection]
  split <;> rfl

theorem cluster_setActive {cm : ConnectionMap} {conn : Connection} {p : ClientClusterPair} :
    (cm.setActive conn).cluster p =
      if p = conn.pair then { cm.cluster p with activeConnection := some conn }
      else cm.cluster p := by
  unfold setActive
  conv_lhs => unfold cluster
  rw [GoMap.lookup_insert_eq]
  split
  next h => subst h; rfl
  next => rfl

@[simp] theorem find_setActive {cm : ConnectionMap} {conn : Connection} {p : ClientClusterPair}
    {k : TKey} : (cm.setActive conn).find p k = cm.find p k := by
  unfold find
  rw [cluster_setActive]
  split <;> rfl

theorem active_setActive {cm : ConnectionMap} {conn : Connection} {p : ClientClusterPair} :
    (cm.setActive conn).active p = if p = conn.pair then some conn else cm.active p := by
  unfold active
  rw [cluster_setActive]
  split <;> rfl

theorem cluster_of_mem_entries {cm : ConnectionMap} {x : ClusterItem} (hx : x ∈ cm.entries) :
    cm.cluster x.1 = x.2 := by
  rw [cluster, GoMap.mem_entries.mp hx]
  rfl

theorem find_of_not_mem {cm : ConnectionMap} {p : ClientClusterPair} (h : p ∉ cm) (k : TKey) :
    cm.find p k = none := by
  rw [find, cluster, AList.lookup_eq_none.mpr h]
  rfl

theorem find_eq_some_iff {cm : ConnectionMap} {p : ClientClusterPair} {k : TKey}
    {conn : Connection} : cm.find p k = some conn ↔
      ∃ x ∈ cm.entries, p = x.1 ∧ x.2.clusterConnectionsMap.lookup k = some conn := by
  constructor
  · intro h
    by_cases hp : p ∈ cm
    · obtain ⟨cc, hcc⟩ := GoMap.mem_iff_lookup.mp hp
      have hmem : ⟨p, cc⟩ ∈ cm.entries := GoMap.mem_entries.mpr hcc
      rw [find, cluster_of_mem_entries hmem] at h
      exact ⟨_, hmem, rfl, h⟩
    · rw [find_of_not_mem hp] at h
      cases h
  · intro h
    obtain ⟨x, hx, rfl, hlook⟩ := h
    rwa [find, cluster_of_mem_entries hx]

end ConnectionMap

theorem ClusterConnections.exists_iff {cc : ClusterConnections} {conn : Connection} :
    cc.exists conn = true ↔ ∃ k, cc.clusterConnectionsMap.lookup k = some conn := by
  simp only [ClusterConnections.exists, List.any_eq_true, decide_eq_true_eq]
  constructor
  · rintro ⟨x, hx, rfl⟩
    exact ⟨x.1, GoMap.mem_entries.mp hx⟩
  · rintro ⟨k, hk⟩
    exact ⟨⟨k, conn⟩, GoMap.mem_entries.mpr hk, rfl⟩

theorem Keyed.exists_iff {cm : ConnectionMap} (keyed : Keyed cm) {p : ClientClusterPair}
    {conn : Connection} :
    (cm.cluster p).exists conn = true ↔ cm.find p conn.key = some conn := by
  rw [ClusterConnections.exists_iff]
  constructor
  · rintro ⟨k, hk⟩
    have hkey := (keyed p k conn hk).2.1
    rw [hkey]
    exact hk
  · intro h
    exact ⟨conn.key, h⟩

end DiscoveryClient
