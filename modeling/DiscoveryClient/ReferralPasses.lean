import DiscoveryClient.CacheReachable

namespace DiscoveryClient

/-- The keys the cache holds for a pair. -/
def Cache.keysOf (c : Cache) (p : ClientClusterPair) : Set TKey := { k | k.pair = p ∧ c.HasKey k }

/-- Each cached key with its controller loss timeout. -/
def Cache.timeouts (c : Cache) : Set (TKey × Option Int) :=
  { x | ∃ e ∈ c.cacheEntries, x = (e.entry.tkey, e.entry.ctrlLossTMO) }

/-- Each connected key with its controller loss timeout. -/
def Cache.connTimeouts (c : Cache) : Set (TKey × Option Int) :=
  { x | ∃ p conn, (c.conns p).lookup x.1 = some conn ∧ conn.ctrlLossTMO = x.2 }

/-- The timeout a referral inherits. -/
def inheritedTMO (entries : List CachedEntry) : Option Int :=
  (entries.find? setsTMO).bind fun x => x.entry.ctrlLossTMO

theorem CacheInv.connTimeouts_eq {c : Cache} (inv : CacheInv c) : c.connTimeouts = c.timeouts := by
  ext ⟨k, t⟩
  constructor
  · rintro ⟨p, conn, hconn, ht⟩
    obtain ⟨e, he, hk, hnew⟩ := inv.conn p k conn hconn
    rw [hnew] at ht
    exact ⟨e, he, Prod.ext hk.symm ht.symm⟩
  · rintro ⟨e, he, hx⟩
    obtain ⟨hk, ht⟩ := Prod.mk.inj hx
    obtain ⟨conn, hconn⟩ := GoMap.mem_iff_lookup.mp ((inv.keys k.pair k).mpr ⟨rfl, e, he, hk.symm⟩)
    obtain ⟨e', he', hk', hnew⟩ := inv.conn k.pair k conn hconn
    have heq : e' = e := inv.eq_of_tkey he' he (hk'.trans hk)
    refine ⟨k.pair, conn, hconn, ?_⟩
    rw [hnew, heq, ht]
    rfl

theorem inheritTMO_referral (entries : List CachedEntry) (r : Referral) :
    (inheritTMO entries (getEntryFromReferral r)).ctrlLossTMO = inheritedTMO entries := by
  unfold inheritTMO inheritedTMO
  rw [if_pos ⟨rfl, rfl⟩]
  cases h : entries.find? setsTMO with
  | none => rfl
  | some x => rfl

theorem stored_not_setsTMO (c : Cache) (r : Referral) (a : Nat) :
    setsTMO ⟨a, c.stored (getEntryFromReferral r)⟩ = false := by
  obtain ⟨tmo, id, h⟩ := c.stored_frame (getEntryFromReferral r)
  rw [h]
  rfl

/-- What a pass over referrals stores for a new one. -/
def referralEntry (tmo : Option Int) (hosts : GoMap GoString GoString) (r : Referral) : Entry :=
  { getEntryFromReferral r with
    ctrlLossTMO := tmo, effectiveHostid := getHostID hosts r.1.hostnqn }

theorem stored_referral (c : Cache) (r : Referral) :
    c.stored (getEntryFromReferral r) =
      referralEntry (inheritedTMO c.cacheEntries) c.nvmfHosts r := by
  have htmo : inheritTMO c.cacheEntries (getEntryFromReferral r) =
      { getEntryFromReferral r with ctrlLossTMO := inheritedTMO c.cacheEntries } := by
    obtain ⟨tmo, h⟩ := inheritTMO_frame c.cacheEntries (getEntryFromReferral r)
    rw [← inheritTMO_referral c.cacheEntries r, h]
  unfold Cache.stored maybeUpdateHostIDs
  rw [htmo]
  split
  next => rfl
  next hid =>
    -- a referral carries no host id of its own, so the host's id is empty here
    have hempty : getHostID c.nvmfHosts r.1.hostnqn = [] := by
      by_contra hne
      exact hid ⟨hne, hne⟩
    rw [referralEntry, hempty]
    rfl

/-- Referrals are no user entries, so each of them inherits from the entries the pass started with. -/
theorem Adds.referral_stored {c c' : Cache} {rs : List Referral} {added : List Entry}
    (adds : Adds c (rs.map getEntryFromReferral) added c') :
    (∀ x ∈ c.cacheEntries, x ∈ c'.cacheEntries) ∧
    ∀ x ∈ c'.cacheEntries, x ∈ c.cacheEntries ∨ (¬c.HasKey x.entry.tkey ∧
      ∃ r ∈ rs, x.entry = referralEntry (inheritedTMO c.cacheEntries) c.nvmfHosts r) := by
  have h := adds.preserves (I := fun d => inheritedTMO d.cacheEntries = inheritedTMO c.cacheEntries ∧
    d.nvmfHosts = c.nvmfHosts ∧ (∀ x ∈ c.cacheEntries, x ∈ d.cacheEntries) ∧
    ∀ x ∈ d.cacheEntries, x ∈ c.cacheEntries ∨ (¬c.HasKey x.entry.tkey ∧
      ∃ r ∈ rs, x.entry = referralEntry (inheritedTMO c.cacheEntries) c.nvmfHosts r)) ?_ ?_
  · exact h.2.2
  · exact ⟨rfl, rfl, fun _ h => h, fun _ h => Or.inl h⟩
  · rintro d e ⟨htmo, hhosts, hsub, hd⟩ he fresh
    obtain ⟨r, hr, rfl⟩ := List.mem_map.mp he
    rw [Cache.push_entries]
    refine ⟨?_, hhosts, ?_, ?_⟩
    · rw [← htmo]
      simp [inheritedTMO, List.find?_append, stored_not_setsTMO]
    · intro x hx
      exact List.mem_append_left _ (hsub x hx)
    · intro x hx
      rcases List.mem_append.mp hx with hx | hx
      · exact hd x hx
      · rw [List.mem_singleton] at hx
        subst hx
        refine Or.inr ⟨?_, r, hr, ?_⟩
        · rintro ⟨y, hy, hyk⟩
          exact fresh ⟨y, hsub y hy, by simpa using hyk⟩
        · rw [stored_referral, htmo, hhosts]

theorem Adds.referral_entries {c c' : Cache} {rs : List Referral} {added : List Entry}
    (adds : Adds c (rs.map getEntryFromReferral) added c') :
    (∀ x ∈ c.cacheEntries, x ∈ c'.cacheEntries) ∧
    ∀ x ∈ c'.cacheEntries, x ∈ c.cacheEntries ∨
      (¬c.HasKey x.entry.tkey ∧ x.entry.ctrlLossTMO = inheritedTMO c.cacheEntries) := by
  obtain ⟨hsub, hstored⟩ := adds.referral_stored
  refine ⟨hsub, fun x hx => ?_⟩
  rcases hstored x hx with hold | ⟨hfresh, r, -, hentry⟩
  · exact Or.inl hold
  · exact Or.inr ⟨hfresh, by rw [hentry]; rfl⟩

theorem Adds.other_pairs {c c' : Cache} {es added : List Entry} (adds : Adds c es added c')
    {p : ClientClusterPair} (hes : ∀ e ∈ es, e.pair = p) :
    c'.cacheEntries.filter (·.entry.pair ≠ p) = c.cacheEntries.filter (·.entry.pair ≠ p) := by
  apply adds.preserves (I := fun d =>
    d.cacheEntries.filter (·.entry.pair ≠ p) = c.cacheEntries.filter (·.entry.pair ≠ p)) rfl
  intro d e hd he _
  rw [Cache.push_entries, List.filter_append, hd]
  simp [hes e he]

theorem Adds.of_added_nil {c c' : Cache} {es : List Entry} (adds : Adds c es [] c') : c' = c := by
  generalize hnil : ([] : List Entry) = added at adds
  induction adds with
  | nil => rfl
  | skip _ _ ih => exact ih hnil
  | push => simp at hnil

theorem Adds.of_present {c c' : Cache} {es added : List Entry} (adds : Adds c es added c')
    (present : ∀ e ∈ es, c.HasKey e.tkey) : added = [] := by
  by_contra hne
  obtain ⟨e, he⟩ := List.exists_mem_of_ne_nil added hne
  obtain ⟨hmem, fresh⟩ := adds.of_mem_added he
  exact fresh (present e hmem)

theorem Cache.dropAll_other_pairs {c : Cache} {es : List CachedEntry} {p : ClientClusterPair}
    (inv : CacheInv c) (nodup : es.Nodup) (sub : es ⊆ c.cacheEntries)
    (hes : ∀ e ∈ es, e.entry.pair = p) :
    (c.dropAll es).cacheEntries.filter (·.entry.pair ≠ p) =
      c.cacheEntries.filter (·.entry.pair ≠ p) := by
  induction es generalizing c with
  | nil => rfl
  | cons e es ih =>
    have he := sub List.mem_cons_self
    rw [dropAll_cons, ih (inv.drop he) (List.nodup_cons.mp nodup).2 (subset_drop inv nodup sub)
      (fun x hx => hes x (by simp [hx]))]
    change (c.cacheEntries.filter _).filter _ = _
    rw [List.filter_filter]
    apply List.filter_congr
    intro x hx
    by_cases ha : x.addr = e.addr
    · have hxe : x = e := inv.eq_of_addr hx he ha
      simp [hxe, hes e (by simp)]
    · simp [ha]

section Passes

variable {c middle : Cache} {referrals : ReferralMap} {p : ClientClusterPair} {added : List Entry}
  {removed : List CachedEntry} {o : Outcome}

theorem Passes.offered_pair (one : OnePair referrals p) {rs : List Referral}
    (perm : rs.Perm referrals.entries) : ∀ e ∈ rs.map getEntryFromReferral, e.pair = p := by
  intro e he
  obtain ⟨r, hr, rfl⟩ := List.mem_map.mp he
  exact one.pair r (perm.mem_iff.mp hr)

theorem Passes.removed_subset (passes : Passes c referrals p added middle removed o) :
    removed ⊆ middle.cacheEntries := fun x hx => ((passes.mem_removed x).mp hx).1

theorem Passes.middle_hasKey (passes : Passes c referrals p added middle removed o) {k : TKey} :
    middle.HasKey k ↔ c.HasKey k ∨ ∃ r ∈ referrals.entries, Referral.tkey r = k := by
  obtain ⟨rs, perm, adds⟩ := passes.adds
  rw [adds.hasKey]
  simp only [List.mem_map, exists_exists_and_eq_and, perm.mem_iff]
  rfl

theorem Passes.mem_entries (passes : Passes c referrals p added middle removed o)
    (inv : CacheInv c) {x : CachedEntry} :
    x ∈ o.cache.cacheEntries ↔ x ∈ middle.cacheEntries ∧
      (x.entry.pair = p → ∃ r ∈ referrals.entries, Referral.tkey r = x.entry.tkey) := by
  rw [passes.cache, Cache.mem_dropAll (passes.inv inv).1 passes.removedNodup passes.removed_subset,
    passes.mem_removed]
  constructor
  · rintro ⟨hx, hnot⟩
    refine ⟨hx, fun hp => ?_⟩
    by_contra hnone
    push Not at hnone
    exact hnot ⟨hx, hp, hnone⟩
  · rintro ⟨hx, hkeep⟩
    refine ⟨hx, ?_⟩
    rintro ⟨-, hp, hnone⟩
    obtain ⟨r, hr, hk⟩ := hkeep hp
    exact hnone r hr hk

theorem Passes.hasKey (passes : Passes c referrals p added middle removed o) (inv : CacheInv c)
    {k : TKey} :
    o.cache.HasKey k ↔
      (k.pair ≠ p ∧ c.HasKey k) ∨ ∃ r ∈ referrals.entries, Referral.tkey r = k := by
  constructor
  · rintro ⟨x, hx, rfl⟩
    obtain ⟨hmid, hkeep⟩ := (passes.mem_entries inv).mp hx
    by_cases hp : x.entry.pair = p
    · exact Or.inr (hkeep hp)
    · rcases passes.middle_hasKey.mp ⟨x, hmid, rfl⟩ with h | h
      · exact Or.inl ⟨hp, h⟩
      · exact Or.inr h
  · intro h
    have hmid : middle.HasKey k := by
      rw [passes.middle_hasKey]
      rcases h with h | h
      · exact Or.inl h.2
      · exact Or.inr h
    obtain ⟨x, hx, rfl⟩ := hmid
    refine ⟨x, (passes.mem_entries inv).mpr ⟨hx, fun hp => ?_⟩, rfl⟩
    rcases h with h | h
    · exact absurd hp h.1
    · exact h

theorem Passes.mem_timeouts (passes : Passes c referrals p added middle removed o)
    (inv : CacheInv c) {k : TKey} {t : Option Int} :
    (k, t) ∈ o.cache.timeouts ↔
      (k.pair = p → ∃ r ∈ referrals.entries, Referral.tkey r = k) ∧
      ((k, t) ∈ c.timeouts ∨ (¬c.HasKey k ∧ (∃ r ∈ referrals.entries, Referral.tkey r = k) ∧
        t = inheritedTMO c.cacheEntries)) := by
  obtain ⟨rs, perm, adds⟩ := passes.adds
  obtain ⟨hsub, hmid⟩ := adds.referral_entries
  constructor
  · rintro ⟨x, hx, heq⟩
    obtain ⟨rfl, rfl⟩ := Prod.mk.inj heq
    obtain ⟨hx, hkeep⟩ := (passes.mem_entries inv).mp hx
    refine ⟨hkeep, ?_⟩
    rcases hmid x hx with hold | ⟨hfresh, htmo⟩
    · exact Or.inl ⟨x, hold, rfl⟩
    · refine Or.inr ⟨hfresh, ?_, htmo⟩
      exact (passes.middle_hasKey.mp ⟨x, hx, rfl⟩).resolve_left hfresh
  · rintro ⟨hkeep, ⟨x, hx, heq⟩ | ⟨hfresh, hr, rfl⟩⟩
    · obtain ⟨rfl, rfl⟩ := Prod.mk.inj heq
      exact ⟨x, (passes.mem_entries inv).mpr ⟨hsub x hx, hkeep⟩, rfl⟩
    · obtain ⟨x, hx, rfl⟩ := passes.middle_hasKey.mpr (Or.inr hr)
      refine ⟨x, (passes.mem_entries inv).mpr ⟨hx, hkeep⟩, ?_⟩
      rcases hmid x hx with hold | ⟨-, htmo⟩
      · exact absurd ⟨x, hold, rfl⟩ hfresh
      · rw [htmo]

theorem Passes.lookup (passes : Passes c referrals p added middle removed o) (inv : CacheInv c)
    {r : Referral} (hr : r ∈ referrals.entries) (hk : r.tkey ∈ c.conns p) :
    (o.cache.conns p).lookup r.tkey = (c.conns p).lookup r.tkey := by
  obtain ⟨rs, perm, adds⟩ := passes.adds
  rw [passes.cache, Cache.dropAll_lookup, adds.lookup inv (persistent_referrals rs) hk]
  intro x hx hxk
  exact ((passes.mem_removed x).mp hx).2.2 r hr hxk.symm

theorem Passes.frame (passes : Passes c referrals p added middle removed o)
    (one : OnePair referrals p) {q : ClientClusterPair} (hq : q ≠ p) :
    o.cache.connections.lookup q = c.connections.lookup q := by
  obtain ⟨rs, perm, adds⟩ := passes.adds
  rw [passes.cache, Cache.dropAll_frame, adds.frame]
  · intro e he hp
    exact hq (hp.symm.trans (Passes.offered_pair one perm e (adds.of_mem_added he).1))
  · intro x hx hp
    exact hq (hp.symm.trans ((passes.mem_removed x).mp hx).2.1)

theorem Passes.other_pairs (passes : Passes c referrals p added middle removed o)
    (inv : CacheInv c) (one : OnePair referrals p) :
    o.cache.cacheEntries.filter (·.entry.pair ≠ p) = c.cacheEntries.filter (·.entry.pair ≠ p) := by
  obtain ⟨rs, perm, adds⟩ := passes.adds
  rw [passes.cache, Cache.dropAll_other_pairs (passes.inv inv).1 passes.removedNodup
    passes.removed_subset (fun x hx => ((passes.mem_removed x).mp hx).2.1),
    adds.other_pairs (Passes.offered_pair one perm)]

end Passes

end DiscoveryClient
