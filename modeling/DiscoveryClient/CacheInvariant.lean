import Mathlib.Data.List.Dedup
import DiscoveryClient.CacheSync

namespace DiscoveryClient

/-- The connections the cache holds for a pair. -/
def Cache.conns (c : Cache) (p : ClientClusterPair) : GoMap TKey Connection :=
  (c.connections.cluster p).clusterConnectionsMap

/-- A cached entry has the key. -/
def Cache.HasKey (c : Cache) (k : TKey) : Prop := ∃ e ∈ c.cacheEntries, e.entry.tkey = k

/-- The cache after `addEntry` has stored a new entry and connected it. -/
def Cache.push (c : Cache) (newEntry : Entry) : Cache :=
  (c.appendEntry (c.stored newEntry)).connectEntry (c.stored newEntry)

/-- The cache after `deleteEntry` has removed one of its entries. -/
def Cache.drop (c : Cache) (e : CachedEntry) : Cache :=
  { c with
    cacheEntries := c.cacheEntries.filter (·.addr ≠ e.addr)
    connections := c.connections.deleteConnection e.entry.pair e.entry.tkey }

theorem ConnectionMap.cluster_addConnection {cm : ConnectionMap} {key : TKey} {conn : Connection}
    {p : ClientClusterPair} :
    (cm.addConnection key conn).cluster p =
      if p = key.pair then
        { cm.cluster p with
          clusterConnectionsMap := (cm.cluster p).clusterConnectionsMap.insert key conn }
      else cm.cluster p := by
  unfold addConnection
  conv_lhs => unfold cluster
  rw [GoMap.lookup_insert_eq]
  split
  next h => subst h; rfl
  next => rfl

theorem ConnectionMap.cluster_deleteConnection {cm : ConnectionMap} {pair p : ClientClusterPair}
    {key : TKey} :
    (cm.deleteConnection pair key).cluster p =
      if p = pair then
        { cm.cluster p with
          clusterConnectionsMap := (cm.cluster p).clusterConnectionsMap.erase key }
      else cm.cluster p := by
  unfold deleteConnection
  split
  next h =>
    split
    next hp => subst hp; simp only [cluster, h]; rfl
    next => rfl
  next cc h =>
    conv_lhs => unfold cluster
    rw [GoMap.lookup_insert_eq]
    split
    next hp => subst hp; simp [cluster, h]
    next => rfl

theorem inheritTMO_frame (entries : List CachedEntry) (e : Entry) :
    ∃ tmo, inheritTMO entries e = { e with ctrlLossTMO := tmo } := by
  unfold inheritTMO
  repeat' split
  · exact ⟨_, rfl⟩
  · exact ⟨e.ctrlLossTMO, rfl⟩
  · exact ⟨e.ctrlLossTMO, rfl⟩

theorem maybeUpdateHostIDs_frame (hosts : GoMap GoString GoString) (e : Entry) :
    ∃ id, maybeUpdateHostIDs hosts e = { e with effectiveHostid := id } := by
  unfold maybeUpdateHostIDs
  split
  · exact ⟨_, rfl⟩
  · exact ⟨e.effectiveHostid, rfl⟩

/-- Storing an entry only fills in the fields that are computed when it is added. -/
theorem Cache.stored_frame (c : Cache) (e : Entry) :
    ∃ tmo id, c.stored e = { e with ctrlLossTMO := tmo, effectiveHostid := id } := by
  obtain ⟨tmo, ht⟩ := inheritTMO_frame c.cacheEntries e
  obtain ⟨id, hi⟩ := maybeUpdateHostIDs_frame c.nvmfHosts (inheritTMO c.cacheEntries e)
  exact ⟨tmo, id, by rw [Cache.stored, hi, ht]⟩

@[simp] theorem Cache.stored_tkey (c : Cache) (e : Entry) : (c.stored e).tkey = e.tkey := by
  obtain ⟨tmo, id, h⟩ := c.stored_frame e
  rw [h]; rfl

@[simp] theorem Cache.stored_pair (c : Cache) (e : Entry) : (c.stored e).pair = e.pair := by
  obtain ⟨tmo, id, h⟩ := c.stored_frame e
  rw [h]; rfl

@[simp] theorem Cache.stored_persistent (c : Cache) (e : Entry) :
    (c.stored e).persistent = e.persistent := by
  obtain ⟨tmo, id, h⟩ := c.stored_frame e
  rw [h]

/-- What holds of the entries and the connections of every reachable cache. That every entry is
persistent is what makes `compare` the comparison of keys. -/
structure CacheInv (c : Cache) : Prop where
  persistent : ∀ e ∈ c.cacheEntries, e.entry.persistent = true
  keysNodup : (c.cacheEntries.map fun e => e.entry.tkey).Nodup
  addrsNodup : (c.cacheEntries.map (·.addr)).Nodup
  addrLt : ∀ e ∈ c.cacheEntries, e.addr < c.next
  keys : ∀ p k, k ∈ c.conns p ↔ k.pair = p ∧ c.HasKey k
  conn : ∀ p k conn, (c.conns p).lookup k = some conn →
    ∃ e ∈ c.cacheEntries, e.entry.tkey = k ∧ conn = newConnection conn.addr e.entry

theorem newCache_inv (hosts : GoMap GoString GoString) : CacheInv (newCache hosts) := by
  refine ⟨by simp [newCache], by simp [newCache], by simp [newCache], by simp [newCache], ?_, ?_⟩
  · intro p k
    simp [newCache, Cache.conns, Cache.HasKey, ConnectionMap.cluster]
  · intro p k conn h
    simp [newCache, Cache.conns, ConnectionMap.cluster] at h

theorem existEntry_iff {c : Cache} {e : Entry} (inv : CacheInv c) (he : e.persistent = true) :
    existEntry e (c.cacheEntries.map (·.entry)) = true ↔ c.HasKey e.tkey := by
  simp only [existEntry, List.any_map, List.any_eq_true, Function.comp_apply, Entry.compare_iff]
  constructor
  · rintro ⟨x, hx, hk, -⟩
    exact ⟨x, hx, hk.symm⟩
  · rintro ⟨x, hx, hk⟩
    exact ⟨x, hx, hk.symm, by rw [he, inv.persistent x hx]⟩

/-- Under the invariant `addEntry` never reports a mismatch. -/
theorem addEntry_cases {c : Cache} {e : Entry} (inv : CacheInv c) (he : e.persistent = true) :
    (c.HasKey e.tkey ∧ addEntry c e = (c, .ok {})) ∨
      (¬c.HasKey e.tkey ∧ addEntry c e = (c.push e, .ok e.pair)) := by
  by_cases h : c.HasKey e.tkey
  · left
    exact ⟨h, by rw [addEntry, if_pos ((existEntry_iff inv he).mpr h)]⟩
  · right
    refine ⟨h, ?_⟩
    have hnone : (c.connections.cluster (c.stored e).pair).clusterConnectionsMap.lookup
        (c.stored e).tkey = none := by
      rw [AList.lookup_eq_none]
      intro hk
      exact h (by simpa using ((inv.keys _ _).mp hk).2)
    rw [addEntry, if_neg (fun hx => h ((existEntry_iff inv he).mp hx))]
    dsimp only
    rw [hnone, Cache.stored_pair]
    rfl

theorem Cache.push_entries (c : Cache) (e : Entry) :
    (c.push e).cacheEntries = c.cacheEntries ++ [⟨c.next, c.stored e⟩] := rfl

theorem Cache.push_hasKey {c : Cache} {e : Entry} {k : TKey} :
    (c.push e).HasKey k ↔ c.HasKey k ∨ e.tkey = k := by
  simp [HasKey, push, appendEntry, connectEntry, or_and_right, exists_or]

theorem Cache.push_conns {c : Cache} {e : Entry} {p : ClientClusterPair} :
    (c.push e).conns p =
      if p = e.pair then (c.conns p).insert e.tkey (newConnection (c.next + 1) (c.stored e))
      else c.conns p := by
  change ((c.connections.addConnection (c.stored e).tkey _).cluster p).clusterConnectionsMap = _
  rw [ConnectionMap.cluster_addConnection, Cache.stored_tkey, Entry.tkey_pair]
  split <;> rfl

theorem CacheInv.push_keys {c : Cache} (inv : CacheInv c) (e : Entry) (p : ClientClusterPair)
    (k : TKey) : k ∈ (c.push e).conns p ↔ k.pair = p ∧ (c.push e).HasKey k := by
  rw [Cache.push_conns, Cache.push_hasKey]
  split
  next hp =>
    rw [AList.mem_insert, inv.keys]
    constructor
    · rintro (rfl | ⟨hk, h⟩)
      · exact ⟨by simp [hp], Or.inr rfl⟩
      · exact ⟨hk, Or.inl h⟩
    · rintro ⟨hk, h | h⟩
      · exact Or.inr ⟨hk, h⟩
      · exact Or.inl h.symm
  next hp =>
    rw [inv.keys]
    constructor
    · rintro ⟨hk, h⟩
      exact ⟨hk, Or.inl h⟩
    · rintro ⟨hk, h | h⟩
      · exact ⟨hk, h⟩
      · exact absurd (by rw [← hk, ← h, Entry.tkey_pair]) hp

/-- The new connection is made from the entry as it is stored; the others keep theirs. -/
theorem CacheInv.push_conn {c : Cache} (inv : CacheInv c) {e : Entry} {p : ClientClusterPair}
    {k : TKey} {conn : Connection} (h : ((c.push e).conns p).lookup k = some conn) :
    ∃ x ∈ (c.push e).cacheEntries, x.entry.tkey = k ∧ conn = newConnection conn.addr x.entry := by
  have old : (c.conns p).lookup k = some conn → ∃ x ∈ (c.push e).cacheEntries,
      x.entry.tkey = k ∧ conn = newConnection conn.addr x.entry := by
    intro h
    obtain ⟨x, hx, hxk, hconn⟩ := inv.conn p k conn h
    exact ⟨x, by rw [Cache.push_entries]; simp [hx], hxk, hconn⟩
  rw [Cache.push_conns] at h
  split at h
  next =>
    rw [GoMap.lookup_insert_eq] at h
    split at h
    next hk =>
      cases Option.some.inj h
      exact ⟨⟨c.next, c.stored e⟩, by rw [Cache.push_entries]; simp, by simp [hk], rfl⟩
    next => exact old h
  next => exact old h

theorem CacheInv.push {c : Cache} {e : Entry} (inv : CacheInv c) (he : e.persistent = true)
    (fresh : ¬c.HasKey e.tkey) : CacheInv (c.push e) := by
  refine ⟨?_, ?_, ?_, ?_, inv.push_keys e, fun _ _ _ => inv.push_conn⟩
  · intro x hx
    rw [Cache.push_entries, List.mem_append, List.mem_singleton] at hx
    rcases hx with hx | rfl
    · exact inv.persistent x hx
    · simpa using he
  · rw [Cache.push_entries, List.map_append, List.map_singleton, List.nodup_append]
    refine ⟨inv.keysNodup, by simp, ?_⟩
    intro k hk k' hk' heq
    obtain ⟨x, hx, hxk⟩ := List.mem_map.mp hk
    rw [List.mem_singleton, Cache.stored_tkey] at hk'
    exact fresh ⟨x, hx, by rw [hxk, heq, hk']⟩
  · rw [Cache.push_entries, List.map_append, List.map_singleton, List.nodup_append]
    refine ⟨inv.addrsNodup, by simp, ?_⟩
    intro a ha b hb
    obtain ⟨x, hx, hxa⟩ := List.mem_map.mp ha
    have hlt := inv.addrLt x hx
    rw [List.mem_singleton] at hb
    simp only at hxa hb
    omega
  · intro x hx
    rw [Cache.push_entries, List.mem_append, List.mem_singleton] at hx
    change x.addr < c.next + 1 + 1
    rcases hx with hx | rfl
    · have := inv.addrLt x hx
      omega
    · simp only
      omega

theorem eraseP_addr {l : List CachedEntry} (h : (l.map (·.addr)).Nodup) (a : Nat) :
    l.eraseP (·.addr == a) = l.filter (·.addr ≠ a) := by
  induction l with
  | nil => rfl
  | cons x l ih =>
    rw [List.map_cons] at h
    have hx := List.nodup_cons.mp h
    by_cases hxa : x.addr = a
    · have hrest : l.filter (·.addr ≠ a) = l := by
        apply List.filter_eq_self.mpr
        intro y hy
        have : y.addr ≠ x.addr := fun he => hx.1 (by simpa using ⟨y, hy, he⟩)
        simpa [← hxa] using this
      simp only [List.eraseP_cons, hxa, beq_self_eq_true, cond_true, ne_eq, not_true_eq_false,
        decide_false, Bool.false_eq_true, not_false_eq_true, List.filter_cons_of_neg]
      exact hrest.symm
    · simp only [List.eraseP_cons, beq_eq_false_iff_ne.mpr hxa, cond_false, ne_eq, hxa,
        not_false_eq_true, decide_true, List.filter_cons_of_pos]
      rw [ih hx.2]

theorem deleteEntry_mem {c : Cache} {e : CachedEntry} (inv : CacheInv c) (he : e ∈ c.cacheEntries) :
    deleteEntry c e = (c.drop e, .ok e.entry.pair) := by
  have hany : c.cacheEntries.any (·.addr == e.addr) = true :=
    List.any_eq_true.mpr ⟨e, he, by simp⟩
  rw [deleteEntry, if_pos hany, eraseP_addr inv.addrsNodup]
  rfl

theorem CacheInv.eq_of_addr {c : Cache} {x y : CachedEntry} (inv : CacheInv c)
    (hx : x ∈ c.cacheEntries) (hy : y ∈ c.cacheEntries) (h : x.addr = y.addr) : x = y :=
  List.inj_on_of_nodup_map inv.addrsNodup hx hy h

theorem CacheInv.eq_of_tkey {c : Cache} {x y : CachedEntry} (inv : CacheInv c)
    (hx : x ∈ c.cacheEntries) (hy : y ∈ c.cacheEntries) (h : x.entry.tkey = y.entry.tkey) : x = y :=
  List.inj_on_of_nodup_map inv.keysNodup hx hy h

theorem Cache.mem_drop {c : Cache} {e x : CachedEntry} (inv : CacheInv c)
    (he : e ∈ c.cacheEntries) : x ∈ (c.drop e).cacheEntries ↔ x ∈ c.cacheEntries ∧ x ≠ e := by
  simp only [drop, List.mem_filter, ne_eq, decide_not, Bool.not_eq_eq_eq_not, Bool.not_true,
    decide_eq_false_iff_not]
  constructor
  · rintro ⟨hx, hne⟩
    exact ⟨hx, fun h => hne (by rw [h])⟩
  · rintro ⟨hx, hne⟩
    exact ⟨hx, fun h => hne (inv.eq_of_addr hx he h)⟩

theorem Cache.drop_hasKey {c : Cache} {e : CachedEntry} {k : TKey} (inv : CacheInv c)
    (he : e ∈ c.cacheEntries) : (c.drop e).HasKey k ↔ c.HasKey k ∧ k ≠ e.entry.tkey := by
  unfold HasKey
  constructor
  · rintro ⟨x, hx, rfl⟩
    obtain ⟨hx, hne⟩ := (Cache.mem_drop inv he).mp hx
    exact ⟨⟨x, hx, rfl⟩, fun h => hne (inv.eq_of_tkey hx he h)⟩
  · rintro ⟨⟨x, hx, rfl⟩, hne⟩
    exact ⟨x, (Cache.mem_drop inv he).mpr ⟨hx, fun h => hne (by rw [h])⟩, rfl⟩

theorem Cache.drop_conns {c : Cache} {e : CachedEntry} {p : ClientClusterPair} :
    (c.drop e).conns p =
      if p = e.entry.pair then (c.conns p).erase e.entry.tkey else c.conns p := by
  change ((c.connections.deleteConnection _ _).cluster p).clusterConnectionsMap = _
  rw [ConnectionMap.cluster_deleteConnection]
  split <;> rfl

theorem CacheInv.drop {c : Cache} {e : CachedEntry} (inv : CacheInv c) (he : e ∈ c.cacheEntries) :
    CacheInv (c.drop e) := by
  have hsub : List.Sublist (c.drop e).cacheEntries c.cacheEntries := List.filter_sublist
  refine ⟨fun x hx => inv.persistent x (hsub.subset hx), inv.keysNodup.sublist (hsub.map _),
    inv.addrsNodup.sublist (hsub.map _), fun x hx => inv.addrLt x (hsub.subset hx), ?_, ?_⟩
  · intro p k
    rw [Cache.drop_conns, Cache.drop_hasKey inv he]
    split
    next => rw [AList.mem_erase, inv.keys]; tauto
    next hp =>
      rw [inv.keys]
      constructor
      · rintro ⟨hk, h⟩
        exact ⟨hk, h, fun hke => hp (by rw [← hk, hke, Entry.tkey_pair])⟩
      · rintro ⟨hk, h, -⟩
        exact ⟨hk, h⟩
  · intro p k conn h
    have hne : k ≠ e.entry.tkey ∧ (c.conns p).lookup k = some conn := by
      rw [Cache.drop_conns] at h
      split at h
      next =>
        rw [GoMap.lookup_erase_eq] at h
        split at h
        next => simp at h
        next hk => exact ⟨hk, h⟩
      next hp =>
        have hk := ((inv.keys p k).mp (GoMap.mem_iff_lookup.mpr ⟨conn, h⟩)).1
        exact ⟨fun hke => hp (by rw [← hk, hke, Entry.tkey_pair]), h⟩
    obtain ⟨x, hx, hxk, hconn⟩ := inv.conn p k conn hne.2
    refine ⟨x, (Cache.mem_drop inv he).mpr ⟨hx, ?_⟩, hxk, hconn⟩
    rintro rfl
    exact hne.1 hxk.symm

theorem CacheInv.conn_key {c : Cache} {p : ClientClusterPair} {k : TKey} {conn : Connection}
    (inv : CacheInv c) (h : (c.conns p).lookup k = some conn) :
    conn.key = k ∧ conn.hostnqn = k.hostnqn := by
  obtain ⟨e, -, rfl, hconn⟩ := inv.conn p k conn h
  rw [hconn]
  exact ⟨rfl, rfl⟩

theorem mem_notifyChange {c : Cache} {pairs : List ClientClusterPair} {p : ClientClusterPair} :
    p ∈ notifyChange c pairs ↔
      p ∈ pairs ∧ p.isEmpty = false ∧ (c.connections.lookup p).isSome = true := by
  simp [notifyChange, List.mem_dedup]

theorem Cache.lookup_isSome_of_mem_conns {c : Cache} {p : ClientClusterPair} {k : TKey}
    (hk : k ∈ c.conns p) : (c.connections.lookup p).isSome = true := by
  by_contra hnone
  have hcluster : c.connections.cluster p = {} := by
    rw [ConnectionMap.cluster, Option.not_isSome_iff_eq_none.mp hnone]
    rfl
  rw [conns, hcluster] at hk
  exact AList.notMem_empty _ hk

end DiscoveryClient
