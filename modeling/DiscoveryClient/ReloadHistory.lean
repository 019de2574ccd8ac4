import DiscoveryClient.ReferralPasses

namespace DiscoveryClient

/-- What `internal.json` keeps of an entry whose strings are valid. -/
def Entry.persisted (e : Entry) : Entry := { e with effectiveHostid := [] }

/-- Added after the first entry, the second takes its timeout. -/
def Inherits (first second : Entry) : Prop :=
  (first.entrySource = .user ∧ first.ctrlLossTMO ≠ none) ∧
    second.entrySource = .referral ∧ second.ctrlLossTMO = none

/-- No entry of the list would inherit from one before it. -/
def History (es : List Entry) : Prop := es.Pairwise fun a b => ¬Inherits a b

/-- What the operations leave behind beside the invariant, and what a restart relies on. -/
structure Settled (c : Cache) : Prop where
  history : History (c.cacheEntries.map (·.entry))
  hostids : ∀ x ∈ c.cacheEntries, maybeUpdateHostIDs c.nvmfHosts x.entry.persisted = x.entry
  pairs : ∀ p ∈ c.connections, ∃ k, k.pair = p ∧ c.HasKey k

/-- A connection without its address. -/
def Connection.settings (conn : Connection) : TKey × GoString × GoString × Option Int :=
  (conn.key, conn.hostid, conn.hostnqn, conn.ctrlLossTMO)

/-- The two caches have the same pairs, and the same connections up to their addresses. -/
def SameConnections (c d : Cache) : Prop :=
  (∀ p, p ∈ c.connections ↔ p ∈ d.connections) ∧
  ∀ p k, ((c.conns p).lookup k).map Connection.settings = ((d.conns p).lookup k).map Connection.settings

theorem setsTMO_iff {x : CachedEntry} :
    setsTMO x = true ↔ x.entry.entrySource = .user ∧ x.entry.ctrlLossTMO ≠ none := by
  simp [setsTMO, Option.isSome_iff_ne_none]

theorem inheritTMO_eq_self {entries : List CachedEntry} {e : Entry}
    (h : ∀ x ∈ entries, ¬Inherits x.entry e) : inheritTMO entries e = e := by
  unfold inheritTMO
  split
  next hnone =>
    have hfind : entries.find? setsTMO = none := by
      rw [List.find?_eq_none]
      intro x hx hset
      exact h x hx ⟨setsTMO_iff.mp hset, hnone⟩
    rw [hfind]
  next => rfl

/-- Once an entry has inherited there is nothing left to inherit. -/
theorem inheritTMO_settles {entries : List CachedEntry} {e : Entry} {x : CachedEntry}
    (hx : x ∈ entries) : ¬Inherits x.entry (inheritTMO entries e) := by
  unfold inheritTMO
  split
  next =>
    split
    next y hy =>
      intro h
      exact (setsTMO_iff.mp (List.find?_some hy)).2 h.2.2
    next hnone =>
      intro h
      exact List.find?_eq_none.mp hnone x hx (setsTMO_iff.mpr h.1)
  next hnot => exact fun h => hnot h.2

theorem inherits_maybeUpdateHostIDs_left {hosts : GoMap GoString GoString} {a b : Entry} :
    Inherits (maybeUpdateHostIDs hosts a) b ↔ Inherits a b := by
  obtain ⟨id, h⟩ := maybeUpdateHostIDs_frame hosts a
  rw [h]
  rfl

theorem inherits_maybeUpdateHostIDs_right {hosts : GoMap GoString GoString} {a b : Entry} :
    Inherits a (maybeUpdateHostIDs hosts b) ↔ Inherits a b := by
  obtain ⟨id, h⟩ := maybeUpdateHostIDs_frame hosts b
  rw [h]
  rfl

theorem history_persisted {es : List Entry} : History (es.map Entry.persisted) ↔ History es := by
  unfold History
  rw [List.pairwise_map]
  rfl

@[simp] theorem Entry.persisted_persisted (e : Entry) : e.persisted.persisted = e.persisted := rfl

theorem persisted_of_noEffectiveHostid {e : Entry} (h : e.effectiveHostid = []) :
    e.persisted = e := by
  cases e
  simpa [Entry.persisted] using h.symm

theorem persisted_maybeUpdateHostIDs {hosts : GoMap GoString GoString} {e : Entry} :
    (maybeUpdateHostIDs hosts e).persisted = e.persisted := by
  obtain ⟨id, h⟩ := maybeUpdateHostIDs_frame hosts e
  rw [h]
  rfl

theorem Settled.empty (hosts : GoMap GoString GoString) : Settled (newCache hosts) :=
  ⟨List.Pairwise.nil, by simp [newCache], by simp [newCache]⟩

theorem Cache.mem_push_connections {c : Cache} {e : Entry} {p : ClientClusterPair} :
    p ∈ (c.push e).connections ↔ p = e.pair ∨ p ∈ c.connections := by
  change p ∈ ConnectionMap.addConnection _ _ _ ↔ _
  rw [ConnectionMap.addConnection, AList.mem_insert, Cache.stored_tkey, Entry.tkey_pair]
  rfl

theorem Cache.mem_drop_connections {c : Cache} {e : CachedEntry} {p : ClientClusterPair} :
    p ∈ (c.drop e).connections ↔ p ∈ c.connections := by
  change p ∈ ConnectionMap.deleteConnection _ _ _ ↔ _
  unfold ConnectionMap.deleteConnection
  split
  next => rfl
  next cc hcc =>
    rw [AList.mem_insert]
    constructor
    · rintro (rfl | h)
      · exact GoMap.mem_iff_lookup.mpr ⟨cc, hcc⟩
      · exact h
    · exact Or.inr

theorem Cache.mem_dropAll_connections {c : Cache} {es : List CachedEntry} {p : ClientClusterPair} :
    p ∈ (c.dropAll es).connections ↔ p ∈ c.connections := by
  induction es generalizing c with
  | nil => rfl
  | cons e es ih => rw [dropAll_cons, ih, mem_drop_connections]

theorem Settled.push {c : Cache} {e : Entry} (settled : Settled c) (he : e.effectiveHostid = []) :
    Settled (c.push e) := by
  refine ⟨?_, ?_, ?_⟩
  · rw [Cache.push_entries, List.map_append, List.map_singleton]
    refine List.pairwise_append.mpr ⟨settled.history, List.pairwise_singleton _ _, ?_⟩
    intro a ha b hb
    obtain ⟨x, hx, rfl⟩ := List.mem_map.mp ha
    rw [List.mem_singleton] at hb
    subst hb
    rw [Cache.stored, inherits_maybeUpdateHostIDs_right]
    exact inheritTMO_settles hx
  · intro x hx
    change maybeUpdateHostIDs c.nvmfHosts _ = _
    rw [Cache.push_entries, List.mem_append, List.mem_singleton] at hx
    rcases hx with hx | rfl
    · exact settled.hostids x hx
    · have hnone : (inheritTMO c.cacheEntries e).effectiveHostid = [] := by
        obtain ⟨tmo, h⟩ := inheritTMO_frame c.cacheEntries e
        rw [h]
        exact he
      rw [Cache.stored, persisted_maybeUpdateHostIDs, persisted_of_noEffectiveHostid hnone]
  · intro p hp
    rcases Cache.mem_push_connections.mp hp with rfl | hp
    · exact ⟨e.tkey, rfl, Cache.push_hasKey.mpr (Or.inr rfl)⟩
    · obtain ⟨k, hk, hkey⟩ := settled.pairs p hp
      exact ⟨k, hk, Cache.push_hasKey.mpr (Or.inl hkey)⟩

theorem Adds.settled {c c' : Cache} {es added : List Entry} (adds : Adds c es added c')
    (settled : Settled c) (hes : ∀ e ∈ es, e.effectiveHostid = []) : Settled c' :=
  adds.preserves settled fun _ e hd he _ => hd.push (hes e he)

theorem UserEntry.noEffectiveHostid {e : Entry} (h : UserEntry e) : e.effectiveHostid = [] := by
  obtain ⟨f, hf, rfl⟩ := h
  exact hf.noEffectiveHostid

theorem Passes.settled {c middle : Cache} {referrals : ReferralMap} {p : ClientClusterPair}
    {added : List Entry} {removed : List CachedEntry} {o : Outcome}
    (passes : Passes c referrals p added middle removed o) (inv : CacheInv c) (settled : Settled c)
    (one : OnePair referrals p) : Settled o.cache := by
  obtain ⟨rs, perm, adds⟩ := passes.adds
  have hmiddle : Settled middle := by
    apply adds.settled settled
    intro e he
    obtain ⟨r, -, rfl⟩ := List.mem_map.mp he
    rfl
  have hsub : o.cache.cacheEntries.Sublist middle.cacheEntries := by
    rw [passes.cache]
    exact Cache.dropAll_sublist
  have hhosts : o.cache.nvmfHosts = middle.nvmfHosts := by
    rw [passes.cache]
    exact Cache.dropAll_nvmfHosts
  refine ⟨hmiddle.history.sublist (hsub.map _), ?_, ?_⟩
  · intro x hx
    rw [hhosts]
    exact hmiddle.hostids x (hsub.subset hx)
  · intro q hq
    rw [passes.cache, Cache.mem_dropAll_connections] at hq
    by_cases hqp : q = p
    · subst hqp
      obtain ⟨r, hr⟩ := List.exists_mem_of_ne_nil _ one.nonempty
      exact ⟨Referral.tkey r, one.pair r hr, (passes.hasKey inv).mpr (Or.inr ⟨r, hr, rfl⟩)⟩
    · obtain ⟨k, hk, hkey⟩ := hmiddle.pairs q hq
      refine ⟨k, hk, (passes.hasKey inv).mpr ?_⟩
      rcases passes.middle_hasKey.mp hkey with h | h
      · exact Or.inl ⟨by rw [hk]; exact hqp, h⟩
      · exact Or.inr h

/-- Entries with new keys that have nothing to inherit are stored as they are, their host ids aside. -/
theorem Adds.reload {c c' : Cache} {es added : List Entry} (adds : Adds c es added c')
    (nodup : (es.map Entry.tkey).Nodup) (fresh : ∀ e ∈ es, ¬c.HasKey e.tkey)
    (history : History (c.cacheEntries.map (·.entry) ++ es)) :
    c'.cacheEntries.map (·.entry) =
      c.cacheEntries.map (·.entry) ++ es.map (maybeUpdateHostIDs c.nvmfHosts) := by
  induction adds with
  | nil => simp
  | skip hkey _ _ => exact absurd hkey (fresh _ (by simp))
  | @push c c' e es added _ _ ih =>
    obtain ⟨hnotin, nodup⟩ := List.nodup_cons.mp nodup
    have hstored : c.stored e = maybeUpdateHostIDs c.nvmfHosts e := by
      rw [Cache.stored, inheritTMO_eq_self]
      intro x hx
      exact (List.pairwise_append.mp history).2.2 _ (List.mem_map_of_mem hx) e (by simp)
    have hentries : (c.push e).cacheEntries.map (·.entry) =
        c.cacheEntries.map (·.entry) ++ [maybeUpdateHostIDs c.nvmfHosts e] := by
      rw [Cache.push_entries, List.map_append, List.map_singleton, hstored]
    rw [ih nodup, hentries]
    · simp only [List.append_assoc, List.singleton_append, List.map_cons]
      rfl
    · intro x hx hkey
      rcases Cache.push_hasKey.mp hkey with h | h
      · exact fresh x (by simp [hx]) h
      · exact hnotin (List.mem_map.mpr ⟨x, hx, h.symm⟩)
    · rw [hentries]
      unfold History at history ⊢
      simp only [List.append_assoc, List.singleton_append, List.pairwise_append,
        List.pairwise_cons, List.mem_cons, forall_eq_or_imp, inherits_maybeUpdateHostIDs_left,
        inherits_maybeUpdateHostIDs_right] at history ⊢
      exact history

theorem CacheInv.settings_lookup {c : Cache} {p : ClientClusterPair} {k : TKey}
    {v : TKey × GoString × GoString × Option Int} (inv : CacheInv c) :
    ((c.conns p).lookup k).map Connection.settings = some v ↔
      k.pair = p ∧ ∃ e ∈ c.cacheEntries.map (·.entry), e.tkey = k ∧
        v = (newConnection 0 e).settings := by
  constructor
  · intro h
    obtain ⟨conn, hconn, rfl⟩ := Option.map_eq_some_iff.mp h
    obtain ⟨x, hx, hk, hnew⟩ := inv.conn p k conn hconn
    refine ⟨((inv.keys p k).mp (GoMap.mem_iff_lookup.mpr ⟨conn, hconn⟩)).1, x.entry,
      List.mem_map_of_mem hx, hk, ?_⟩
    rw [hnew]
    rfl
  · rintro ⟨hp, e, he, hk, rfl⟩
    obtain ⟨x, hx, rfl⟩ := List.mem_map.mp he
    obtain ⟨conn, hconn⟩ := GoMap.mem_iff_lookup.mp ((inv.keys p k).mpr ⟨hp, x, hx, hk⟩)
    obtain ⟨y, hy, hyk, hnew⟩ := inv.conn p k conn hconn
    have heq : y = x := inv.eq_of_tkey hy hx (hyk.trans hk.symm)
    rw [hconn, hnew, heq]
    rfl

theorem Settled.mem_connections {c : Cache} {p : ClientClusterPair} (settled : Settled c)
    (inv : CacheInv c) : p ∈ c.connections ↔ ∃ e ∈ c.cacheEntries.map (·.entry), e.pair = p := by
  constructor
  · intro hp
    obtain ⟨k, rfl, x, hx, rfl⟩ := settled.pairs p hp
    exact ⟨x.entry, List.mem_map_of_mem hx, rfl⟩
  · rintro ⟨e, he, rfl⟩
    obtain ⟨x, hx, rfl⟩ := List.mem_map.mp he
    have hk := Cache.lookup_isSome_of_mem_conns
      ((inv.keys x.entry.pair x.entry.tkey).mpr ⟨rfl, x, hx, rfl⟩)
    exact AList.lookup_isSome.mp hk

/-- The entries determine the connections. -/
theorem sameConnections_of_entries {c d : Cache} (invc : CacheInv c) (invd : CacheInv d)
    (settledc : Settled c) (settledd : Settled d)
    (h : c.cacheEntries.map (·.entry) = d.cacheEntries.map (·.entry)) : SameConnections c d := by
  refine ⟨?_, ?_⟩
  · intro p
    rw [settledc.mem_connections invc, settledd.mem_connections invd, h]
  · intro p k
    apply Option.ext
    intro v
    rw [invc.settings_lookup, invd.settings_lookup, h]

end DiscoveryClient
