import DiscoveryClient.CacheReachable

namespace DiscoveryClient

open GoString

/-- A cached entry has the key and the `Persistent` flag of the new one. -/
def Cache.HasEntry (c : Cache) (e : Entry) : Prop :=
  ∃ x ∈ c.cacheEntries, x.entry.tkey = e.tkey ∧ x.entry.persistent = e.persistent

/-- There is a connection for the entry, though no entry like it. -/
def Cache.Conflicts (c : Cache) (e : Entry) : Prop := e.tkey ∈ c.conns e.pair ∧ ¬c.HasEntry e

/-- There is neither a connection for the entry nor an entry like it. -/
def Cache.Lacks (c : Cache) (e : Entry) : Prop := e.tkey ∉ c.conns e.pair ∧ ¬c.HasEntry e

section Add

variable {c : Cache} {e f : Entry}

theorem existEntry_iff_hasEntry :
    existEntry e (c.cacheEntries.map (·.entry)) = true ↔ c.HasEntry e := by
  simp only [existEntry, List.any_map, List.any_eq_true, Function.comp_apply, Entry.compare_iff,
    Cache.HasEntry]
  constructor
  · rintro ⟨x, hx, hkey, hflag⟩
    exact ⟨x, hx, hkey.symm, hflag.symm⟩
  · rintro ⟨x, hx, hkey, hflag⟩
    exact ⟨x, hx, hkey.symm, hflag.symm⟩

/-- What `addEntry` does in any cache. -/
theorem addEntry_any (c : Cache) (e : Entry) :
    (c.HasEntry e ∧ addEntry c e = (c, .ok {})) ∨
      (c.Lacks e ∧ addEntry c e = (c.push e, .ok e.pair)) ∨
      (c.Conflicts e ∧
        addEntry c e = (c.appendEntry (c.stored e), .error .connectionInCache)) := by
  by_cases hentry : c.HasEntry e
  · left
    exact ⟨hentry, by rw [addEntry, if_pos (existEntry_iff_hasEntry.mpr hentry)]⟩
  · right
    have hnot : ¬existEntry e (c.cacheEntries.map (·.entry)) = true :=
      fun h => hentry (existEntry_iff_hasEntry.mp h)
    rw [addEntry, if_neg hnot]
    have hmem : (c.stored e).tkey ∈ c.conns (c.stored e).pair ↔ e.tkey ∈ c.conns e.pair := by
      rw [Cache.stored_pair, Cache.stored_tkey]
    cases hconn : (c.connections.cluster (c.stored e).pair).clusterConnectionsMap.lookup
        (c.stored e).tkey with
    | none =>
      have hnone := AList.lookup_eq_none.mp hconn
      refine Or.inl ⟨⟨fun h => hnone (hmem.mpr h), hentry⟩, ?_⟩
      simp only [hconn]
      rw [Cache.stored_pair]
      rfl
    | some conn =>
      refine Or.inr ⟨⟨hmem.mp (GoMap.mem_iff_lookup.mpr ⟨conn, hconn⟩), hentry⟩, ?_⟩
      simp only [hconn]

theorem Cache.appendEntry_entries (c : Cache) (e : Entry) :
    (c.appendEntry e).cacheEntries = c.cacheEntries ++ [⟨c.next, e⟩] := rfl

/-- After an error the entry is in the cache, whatever the error says. -/
theorem addEntry_error_iff :
    (∃ err, (addEntry c e).2 = .error err) ↔ c.Conflicts e := by
  rcases addEntry_any c e with ⟨hentry, hadd⟩ | ⟨hlacks, hadd⟩ | ⟨hconflict, hadd⟩
  · rw [hadd]
    simp [Cache.Conflicts, hentry]
  · rw [hadd]
    simp [Cache.Conflicts, hlacks.1]
  · rw [hadd]
    simp [hconflict]

theorem Cache.hasEntry_push :
    (c.push e).HasEntry f ↔ c.HasEntry f ∨ (e.tkey = f.tkey ∧ e.persistent = f.persistent) := by
  simp only [Cache.HasEntry, Cache.push_entries, List.mem_append, List.mem_singleton]
  constructor
  · rintro ⟨x, hx | rfl, hkey, hflag⟩
    · exact Or.inl ⟨x, hx, hkey, hflag⟩
    · exact Or.inr ⟨by simpa using hkey, by simpa using hflag⟩
  · rintro (⟨x, hx, hkey, hflag⟩ | ⟨hkey, hflag⟩)
    · exact ⟨x, Or.inl hx, hkey, hflag⟩
    · exact ⟨⟨c.next, c.stored e⟩, Or.inr rfl, by simpa using hkey, by simpa using hflag⟩

theorem Cache.mem_push_conns {p : ClientClusterPair} {k : TKey} :
    k ∈ (c.push e).conns p ↔ k ∈ c.conns p ∨ (p = e.pair ∧ k = e.tkey) := by
  rw [Cache.push_conns]
  split
  next hp =>
    rw [AList.mem_insert]
    constructor
    · rintro (hk | hk)
      · exact Or.inr ⟨hp, hk⟩
      · exact Or.inl hk
    · rintro (hk | ⟨-, hk⟩)
      · exact Or.inr hk
      · exact Or.inl hk
  next hp => simp [hp]

/-- A conflict is not resolved by what else is added, and none is made. -/
theorem Cache.conflicts_push (hlacks : c.Lacks e) (hflag : e.persistent = f.persistent) :
    (c.push e).Conflicts f ↔ c.Conflicts f := by
  unfold Cache.Conflicts
  rw [Cache.mem_push_conns, Cache.hasEntry_push]
  by_cases hkey : e.tkey = f.tkey
  · have hpair : e.pair = f.pair := by rw [← Entry.tkey_pair, hkey, Entry.tkey_pair]
    have hnot : f.tkey ∉ c.conns f.pair := hkey ▸ hpair ▸ hlacks.1
    simp [hnot, hkey, hflag]
  · have hkey' : ¬f.tkey = e.tkey := fun h => hkey h.symm
    simp [hkey, hkey']

theorem addEntry_conns_mono {p : ClientClusterPair} {k : TKey} (hk : k ∈ c.conns p) :
    k ∈ (addEntry c e).1.conns p := by
  rcases addEntry_any c e with ⟨-, hadd⟩ | ⟨-, hadd⟩ | ⟨-, hadd⟩
  · rw [hadd]
    exact hk
  · rw [hadd]
    exact Cache.mem_push_conns.mpr (Or.inl hk)
  · rw [hadd]
    exact hk

end Add

section File

variable {c d : Cache} {e : Entry} {es : List Entry} {pairs : List ClientClusterPair}

theorem addFileEntries_ok {pair : ClientClusterPair} (h : addEntry c e.asPersistent = (d, .ok pair)) :
    addFileEntries c (e :: es) pairs =
      addFileEntries d es (if pair.isEmpty then pairs else pairs.insert pair) := by
  rw [Entry.asPersistent] at h
  rw [addFileEntries, h]

theorem addFileEntries_error {err : CacheError} (h : addEntry c e.asPersistent = (d, .error err)) :
    addFileEntries c (e :: es) pairs = (d, .error err) := by
  rw [Entry.asPersistent] at h
  rw [addFileEntries, h]

/-- The loop over a file's entries fails exactly when it comes to one that conflicts. -/
theorem addFileEntries_error_iff :
    (∃ err, (addFileEntries c es pairs).2 = .error err) ↔ ∃ e ∈ es, c.Conflicts e.asPersistent := by
  induction es generalizing c pairs with
  | nil => simp [addFileEntries]
  | cons e es ih =>
    rw [List.exists_mem_cons_iff]
    rcases addEntry_any c e.asPersistent with ⟨hentry, hadd⟩ | ⟨hlacks, hadd⟩ | ⟨hconflict, hadd⟩
    · have hnot : ¬c.Conflicts e.asPersistent := fun h => h.2 hentry
      rw [addFileEntries_ok hadd]
      simp only [ih, hnot, false_or]
    · have hnot : ¬c.Conflicts e.asPersistent := fun h => hlacks.1 h.1
      have hpush : ∀ f : Entry, (c.push e.asPersistent).Conflicts f.asPersistent ↔
          c.Conflicts f.asPersistent := fun f => Cache.conflicts_push hlacks rfl
      rw [addFileEntries_ok hadd]
      simp only [ih, hnot, false_or, hpush]
    · rw [addFileEntries_error hadd]
      simp [hconflict]

theorem addFileEntries_conns_mono {p : ClientClusterPair} {k : TKey} (hk : k ∈ c.conns p) :
    k ∈ (addFileEntries c es pairs).1.conns p := by
  induction es generalizing c pairs with
  | nil => exact hk
  | cons e es ih =>
    have hadd := addEntry_conns_mono (e := e.asPersistent) hk
    rcases hresult : addEntry c e.asPersistent with ⟨d, err | pair⟩
    · rw [hresult] at hadd
      rw [addFileEntries_error hresult]
      exact hadd
    · rw [hresult] at hadd
      rw [addFileEntries_ok hresult]
      exact ih hadd

theorem addFileEntries_connections (h : ∀ e ∈ es, ¬c.Lacks e.asPersistent) :
    (addFileEntries c es pairs).1.connections = c.connections := by
  induction es generalizing pairs with
  | nil => rfl
  | cons e es ih =>
    obtain ⟨he, hes⟩ := List.forall_mem_cons.mp h
    rcases addEntry_any c e.asPersistent with ⟨-, hadd⟩ | ⟨hlacks, -⟩ | ⟨-, hadd⟩
    · rw [addFileEntries_ok hadd]
      exact ih hes
    · exact absurd hlacks he
    · rw [addFileEntries_error hadd]
      rfl

/-- An entry that is added before the one that fails leaves its connection behind. -/
theorem fileAdded_leaves_connection {adjustTraddr : GoString → Bool} {file : UserFile}
    {newEntries : List Entry} (hparse : parse adjustTraddr file = .ok newEntries) {e f : Entry}
    (he : e ∈ newEntries) (hf : f ∈ newEntries) (hlacks : c.Lacks e.asPersistent)
    (hconflict : c.Conflicts f.asPersistent) :
    ∃ order err, (fileAdded adjustTraddr order c file).2 = .error err ∧
      e.asPersistent.tkey ∈ (fileAdded adjustTraddr order c file).1.conns e.asPersistent.pair := by
  have hperm : (e :: newEntries.erase e).Perm newEntries := (List.perm_cons_erase he).symm
  have hne : f ≠ e := by
    rintro rfl
    exact hlacks.1 hconflict.1
  have hrest : f ∈ newEntries.erase e := (List.mem_erase_of_ne hne).mpr hf
  have hadd : addEntry c e.asPersistent = (c.push e.asPersistent, .ok e.asPersistent.pair) := by
    rcases addEntry_any c e.asPersistent with ⟨hentry, -⟩ | ⟨-, hadd⟩ | ⟨hother, -⟩
    · exact absurd hentry hlacks.2
    · exact hadd
    · exact absurd hother.1 hlacks.1
  have hrun : fileAdded adjustTraddr (RangeOrder.ofPerm hperm) c file =
      addFileEntries (c.push e.asPersistent) (newEntries.erase e)
        (if e.asPersistent.pair.isEmpty then [] else [].insert e.asPersistent.pair) := by
    rw [fileAdded, hparse]
    simp only [RangeOrder.order_ofPerm]
    rw [addFileEntries_ok hadd]
  have hfails : ∃ x ∈ newEntries.erase e, (c.push e.asPersistent).Conflicts x.asPersistent :=
    ⟨f, hrest, (@Cache.conflicts_push c e.asPersistent f.asPersistent hlacks rfl).mpr hconflict⟩
  obtain ⟨err, herr⟩ := addFileEntries_error_iff.mpr hfails
  refine ⟨RangeOrder.ofPerm hperm, err, by rw [hrun, herr], ?_⟩
  rw [hrun]
  exact addFileEntries_conns_mono (Cache.mem_push_conns.mpr (Or.inr ⟨rfl, rfl⟩))

end File

/-- Adding an entry is atomic exactly where it does not conflict, and loading a file keeps the
connections of a failed load exactly when its entries are not part conflicting, part new. -/
theorem addEntry_atomic_iff (c : Cache) :
    (∀ e, (∀ err, (addEntry c e).2 = .error err →
        (addEntry c e).1.cacheEntries = c.cacheEntries ∧
          (addEntry c e).1.connections = c.connections) ↔ ¬c.Conflicts e) ∧
      ∀ (adjustTraddr : GoString → Bool) (file : UserFile),
        (∀ order err, (fileAdded adjustTraddr order c file).2 = .error err →
          ∀ p, (fileAdded adjustTraddr order c file).1.conns p = c.conns p) ↔
        ∀ newEntries, parse adjustTraddr file = .ok newEntries →
          (∀ e ∈ newEntries, ¬c.Conflicts e.asPersistent) ∨
            ∀ e ∈ newEntries, ¬c.Lacks e.asPersistent := by
  refine ⟨?_, ?_⟩
  · intro e
    constructor
    · intro hatomic hconflict
      rcases addEntry_any c e with ⟨hentry, -⟩ | ⟨hlacks, -⟩ | ⟨-, hadd⟩
      · exact hconflict.2 hentry
      · exact hlacks.1 hconflict.1
      · have hsame := (hatomic .connectionInCache (by rw [hadd])).1
        rw [hadd, Cache.appendEntry_entries] at hsame
        simp at hsame
    · intro hnot err herr
      exact absurd (addEntry_error_iff.mp ⟨err, herr⟩) hnot
  · intro adjustTraddr file
    constructor
    · intro hatomic newEntries hparse
      by_contra hboth
      push Not at hboth
      obtain ⟨⟨f, hf, hconflict⟩, e, he, hlacks⟩ := hboth
      obtain ⟨order, err, herr, hmem⟩ := fileAdded_leaves_connection hparse he hf hlacks hconflict
      rw [hatomic order err herr] at hmem
      exact hlacks.1 hmem
    · intro h order err herr p
      unfold fileAdded at herr ⊢
      cases hparse : parse adjustTraddr file with
      | error failure => rfl
      | ok newEntries =>
        simp only [hparse] at herr ⊢
        rcases h newEntries hparse with hnone | hnone
        · obtain ⟨e, he, hconflict⟩ := addFileEntries_error_iff.mp ⟨err, herr⟩
          exact absurd hconflict (hnone e (order.mem_order.mp he))
        · have hsame := @addFileEntries_connections c (order.order newEntries) []
            fun e he => hnone e (order.mem_order.mp he)
          rw [Cache.conns, hsame, ← Cache.conns]

/-- The caches that a start with any verified `internal.json`, and what follows it, can reach. -/
inductive Started : Cache → Prop
  | sync (nvmfHosts : GoMap GoString GoString) (adjustTraddr : GoString → Bool)
      (order : GoString → RangeOrder Entry) (internal : InternalFile) (userDir : UserDir) :
      (∀ es, useInternalJson internal userDir = .ok (some es) → ∀ e ∈ es, e.Verified) →
      Started (sync adjustTraddr order (newCache nvmfHosts) internal userDir).cache
  | fileAdded {c : Cache} (adjustTraddr : GoString → Bool) (order : RangeOrder Entry)
      (file : UserFile) : Started c → Started (fileAdded adjustTraddr order c file).1
  | handleReferrals {c : Cache} (addOrder removeOrder : RangeOrder Referral)
      (referrals : ReferralMap) :
      Started c → Started (handleReferrals addOrder removeOrder c referrals).cache

/-- An entry of a hand-written `internal.json` that is not persistent. -/
def transientEntry : Entry :=
  ⟨ascii "tcp", 8009, ascii "::1", ascii "h", [], ascii "c", false, [], .internal, none, []⟩

/-- The start that loads it. -/
def transientCache : Cache :=
  (sync (fun _ => true) (fun _ => .stored) (newCache ∅) (.referrals ⟨[transientEntry], 1⟩)
    ⟨some 0, some []⟩).cache

theorem transientCache_started : Started transientCache := by
  refine .sync ∅ _ _ _ _ ?_
  intro es hes e he
  have hentries : es = [transientEntry] :=
    (Option.some.inj (Except.ok.inj hes)).symm
  rw [hentries, List.mem_singleton] at he
  rw [he, ← Entry.verify_ok_iff]
  decide

/-- The same endpoint, now persistent as every entry of a user's file: the call fails and the
entry stays in the cache. -/
theorem addEntry_not_atomic :
    ¬∀ c, Started c → (∀ e err, (addEntry c e).2 = .error err →
        (addEntry c e).1.cacheEntries = c.cacheEntries ∧
          (addEntry c e).1.connections = c.connections) ∧
      ∀ adjustTraddr order file err, (fileAdded adjustTraddr order c file).2 = .error err →
        ∀ p, (fileAdded adjustTraddr order c file).1.conns p = c.conns p := by
  intro h
  have hfails : (addEntry transientCache transientEntry.asPersistent).2 =
      .error .connectionInCache := by decide +kernel
  have hsame := ((h _ transientCache_started).1 _ _ hfails).1
  have hlen := congrArg List.length hsame
  exact absurd hlen (by decide +kernel)

end DiscoveryClient
