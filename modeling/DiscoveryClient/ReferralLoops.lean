import DiscoveryClient.CacheLoops

namespace DiscoveryClient

/-- The key of the entry a referral stands for. -/
def Referral.tkey (r : Referral) : TKey := (getEntryFromReferral r).tkey

/-- All referrals come from one discovery: they carry one pair. -/
structure OnePair (referrals : ReferralMap) (p : ClientClusterPair) : Prop where
  nonempty : referrals.entries ≠ []
  pair : ∀ r ∈ referrals.entries, r.1.pair = p
  notEmpty : p.isEmpty = false

def Cache.dropAll (c : Cache) (es : List CachedEntry) : Cache := es.foldl Cache.drop c

theorem Cache.dropAll_cons {c : Cache} {e : CachedEntry} {es : List CachedEntry} :
    c.dropAll (e :: es) = (c.drop e).dropAll es := rfl

theorem subset_drop {c : Cache} {e : CachedEntry} {es : List CachedEntry} (inv : CacheInv c)
    (nodup : (e :: es).Nodup) (sub : e :: es ⊆ c.cacheEntries) : es ⊆ (c.drop e).cacheEntries := by
  intro x hx
  refine (Cache.mem_drop inv (sub (by simp))).mpr ⟨sub (by simp [hx]), ?_⟩
  rintro rfl
  exact (List.nodup_cons.mp nodup).1 hx

theorem CacheInv.dropAll {c : Cache} {es : List CachedEntry} (inv : CacheInv c) (nodup : es.Nodup)
    (sub : es ⊆ c.cacheEntries) : CacheInv (c.dropAll es) := by
  induction es generalizing c with
  | nil => exact inv
  | cons e es ih =>
    exact ih (inv.drop (sub (by simp))) (List.nodup_cons.mp nodup).2 (subset_drop inv nodup sub)

theorem Cache.mem_dropAll {c : Cache} {es : List CachedEntry} (inv : CacheInv c) (nodup : es.Nodup)
    (sub : es ⊆ c.cacheEntries) {x : CachedEntry} :
    x ∈ (c.dropAll es).cacheEntries ↔ x ∈ c.cacheEntries ∧ x ∉ es := by
  induction es generalizing c with
  | nil => simp [dropAll]
  | cons e es ih =>
    have he := sub (List.mem_cons_self)
    rw [dropAll_cons, ih (inv.drop he) (List.nodup_cons.mp nodup).2 (subset_drop inv nodup sub),
      Cache.mem_drop inv he, List.mem_cons]
    tauto

theorem Cache.dropAll_sublist {c : Cache} {es : List CachedEntry} :
    (c.dropAll es).cacheEntries.Sublist c.cacheEntries := by
  induction es generalizing c with
  | nil => exact List.Sublist.refl _
  | cons e es ih => exact ih.trans List.filter_sublist

theorem Cache.dropAll_nvmfHosts {c : Cache} {es : List CachedEntry} :
    (c.dropAll es).nvmfHosts = c.nvmfHosts := by
  induction es generalizing c with
  | nil => rfl
  | cons e es ih => exact ih

theorem Cache.dropAll_lookup {c : Cache} {es : List CachedEntry} {p : ClientClusterPair} {k : TKey}
    (hk : ∀ e ∈ es, e.entry.tkey ≠ k) :
    ((c.dropAll es).conns p).lookup k = (c.conns p).lookup k := by
  induction es generalizing c with
  | nil => rfl
  | cons e es ih =>
    rw [dropAll_cons, ih (fun x hx => hk x (by simp [hx])), drop_conns]
    split
    next => rw [GoMap.lookup_erase_eq, if_neg (fun h => hk e (by simp) h.symm)]
    next => rfl

theorem Cache.dropAll_frame {c : Cache} {es : List CachedEntry} {p : ClientClusterPair}
    (hp : ∀ e ∈ es, e.entry.pair ≠ p) :
    (c.dropAll es).connections.lookup p = c.connections.lookup p := by
  induction es generalizing c with
  | nil => rfl
  | cons e es ih =>
    rw [dropAll_cons, ih (fun x hx => hp x (by simp [hx]))]
    change AList.lookup p (ConnectionMap.deleteConnection _ _ _) = _
    unfold ConnectionMap.deleteConnection
    split
    next => rfl
    next => rw [GoMap.lookup_insert_eq, if_neg (fun h => hp e (by simp) h.symm)]

theorem deleteEntries_eq {c : Cache} {es : List CachedEntry} {pairs : List ClientClusterPair}
    (inv : CacheInv c) (nodup : es.Nodup) (sub : es ⊆ c.cacheEntries) :
    ∃ pairs', deleteEntries c es pairs = (c.dropAll es, pairs') ∧
      ∀ p, p ∈ pairs' ↔ p ∈ pairs ∨ Reports (es.map (·.entry)) p := by
  induction es generalizing c pairs with
  | nil => exact ⟨pairs, rfl, by simp [not_reports_nil]⟩
  | cons e es ih =>
    have he := sub (List.mem_cons_self)
    obtain ⟨pairs', hrun, hpairs⟩ :=
      @ih (c.drop e) (if e.entry.pair.isEmpty then pairs else pairs ++ [e.entry.pair])
        (inv.drop he) (List.nodup_cons.mp nodup).2 (subset_drop inv nodup sub)
    refine ⟨pairs', by simpa only [deleteEntries, deleteEntry_mem inv he, Cache.dropAll_cons] using hrun, ?_⟩
    intro p
    rw [hpairs, mem_append_pair, List.map_cons, reports_cons, or_assoc]

theorem currentPair_eq {p prev : ClientClusterPair} {rs : List Referral}
    (hpair : ∀ r ∈ rs, r.1.pair = p) (hprev : prev.isEmpty = true ∨ prev = p)
    (hlast : rs = [] → prev = p) : currentPair prev rs = .ok p := by
  induction rs generalizing prev with
  | nil => rw [currentPair, hlast rfl]
  | cons r rs ih =>
    have hr : r.1.pair = p := hpair r (by simp)
    rw [currentPair, if_neg, hr]
    · exact ih (fun x hx => hpair x (by simp [hx])) (Or.inr rfl) (fun _ => rfl)
    · rcases hprev with h | h
      · simp [h]
      · simp [h, hr]

/-- Against persistent entries `entriesToRemove` picks those of the pair whose key no referral has. -/
theorem mem_entriesToRemove {c : Cache} {rs : List Referral} {p : ClientClusterPair}
    (inv : CacheInv c) {x : CachedEntry} :
    x ∈ entriesToRemove c (rs.map getEntryFromReferral) p ↔
      x ∈ c.cacheEntries ∧ x.entry.pair = p ∧ ∀ r ∈ rs, r.tkey ≠ x.entry.tkey := by
  have hexists : x ∈ c.cacheEntries →
      (existEntry x.entry (rs.map getEntryFromReferral) = true ↔
        ∃ r ∈ rs, r.tkey = x.entry.tkey) := by
    intro hx
    simp only [existEntry, List.any_map, List.any_eq_true, Function.comp_apply, Entry.compare_iff,
      inv.persistent x hx]
    constructor
    · intro h
      obtain ⟨r, hr, hk, -⟩ := h
      exact ⟨r, hr, hk.symm⟩
    · intro h
      obtain ⟨r, hr, hk⟩ := h
      exact ⟨r, hr, hk.symm, rfl⟩
  have hpair : x.entry.pair = p ↔ x.entry.hostnqn = p.hostNqn ∧ x.entry.subsysnqn = p.clusterNqn := by
    cases p
    simp [Entry.pair, and_comm]
  simp only [entriesToRemove, List.mem_filter, Bool.and_eq_true, Bool.not_eq_true', beq_iff_eq,
    hpair]
  constructor
  · rintro ⟨hx, ⟨hne, hh⟩, hs⟩
    refine ⟨hx, ⟨hh, hs⟩, ?_⟩
    intro r hr hk
    rw [(hexists hx).mpr ⟨r, hr, hk⟩] at hne
    exact Bool.noConfusion hne
  · rintro ⟨hx, ⟨hh, hs⟩, hne⟩
    refine ⟨hx, ⟨?_, hh⟩, hs⟩
    rw [Bool.eq_false_iff]
    intro h
    obtain ⟨r, hr, hk⟩ := (hexists hx).mp h
    exact hne r hr hk

/-- The two passes of `handleReferrals`: `added` is stored, which leads to `middle`, and then
`removed` is deleted. -/
structure Passes (c : Cache) (referrals : ReferralMap) (p : ClientClusterPair) (added : List Entry)
    (middle : Cache) (removed : List CachedEntry) (o : Outcome) : Prop where
  adds : ∃ rs : List Referral, rs.Perm referrals.entries ∧
    Adds c (rs.map getEntryFromReferral) added middle
  removedNodup : removed.Nodup
  mem_removed : ∀ x, x ∈ removed ↔
    x ∈ middle.cacheEntries ∧ x.entry.pair = p ∧ ∀ r ∈ referrals.entries, Referral.tkey r ≠ x.entry.tkey
  cache : o.cache = middle.dropAll removed
  changed : ∀ q, q ∈ o.changed ↔ q = p ∧ (added ≠ [] ∨ removed ≠ [])
  writesJson : o.writesJson = decide (o.changed ≠ [])
  err : o.err = none

theorem reports_one_pair {es : List Entry} {p q : ClientClusterPair} (hp : p.isEmpty = false)
    (hes : ∀ e ∈ es, e.pair = p) : Reports es q ↔ q = p ∧ es ≠ [] := by
  constructor
  · rintro ⟨-, e, he, rfl⟩
    exact ⟨hes e he, List.ne_nil_of_mem he⟩
  · rintro ⟨rfl, hne⟩
    obtain ⟨e, he⟩ := List.exists_mem_of_ne_nil es hne
    exact ⟨hp, e, he, hes e he⟩

theorem persistent_referrals (rs : List Referral) : AllPersistent (rs.map getEntryFromReferral) := by
  intro e he
  obtain ⟨r, -, rfl⟩ := List.mem_map.mp he
  rfl

theorem handleReferrals_run {addOrder removeOrder : RangeOrder Referral} {c : Cache}
    {referrals : ReferralMap} {p : ClientClusterPair} (inv : CacheInv c)
    (nonempty : referrals.entries ≠ []) (hpair : ∀ r ∈ referrals.entries, r.1.pair = p) :
    ∃ added middle removed changed,
      Adds c ((addOrder.order referrals.entries).map getEntryFromReferral) added middle ∧
      removed.Nodup ∧
      (∀ x, x ∈ removed ↔ x ∈ middle.cacheEntries ∧ x.entry.pair = p ∧
        ∀ r ∈ referrals.entries, Referral.tkey r ≠ x.entry.tkey) ∧
      handleReferrals addOrder removeOrder c referrals =
        ⟨middle.dropAll removed, changed, changed ≠ [], none⟩ ∧
      ∀ q, q ∈ changed ↔ Reports added q ∨ Reports (removed.map (·.entry)) q := by
  obtain ⟨added, middle, newPairs, hadd, adds, hnew⟩ :=
    @addReferrals_adds c (addOrder.order referrals.entries) [] inv
  have inv' : CacheInv middle := adds.inv inv (persistent_referrals _)
  have hcur : currentPair {} (removeOrder.order referrals.entries) = .ok p := by
    apply currentPair_eq
    · intro r hr
      exact hpair r (by simpa using hr)
    · exact Or.inl rfl
    · intro h
      exact absurd h (removeOrder.order_ne_nil nonempty)
  let removed := entriesToRemove middle
    ((removeOrder.order referrals.entries).map getEntryFromReferral) p
  have nodup : removed.Nodup := (List.Nodup.of_map _ inv'.addrsNodup).filter _
  have hmem : ∀ x, x ∈ removed ↔ x ∈ middle.cacheEntries ∧ x.entry.pair = p ∧
      ∀ r ∈ referrals.entries, Referral.tkey r ≠ x.entry.tkey := by
    intro x
    rw [mem_entriesToRemove inv']
    simp only [RangeOrder.mem_order]
  obtain ⟨oldPairs, hdel, hold⟩ :=
    @deleteEntries_eq middle removed [] inv' nodup (fun x hx => ((hmem x).mp hx).1)
  refine ⟨added, middle, removed, newPairs ++ oldPairs, adds, nodup, hmem, ?_, ?_⟩
  · simp only [handleReferrals, if_neg nonempty, addConnectionsFromReferrals, hadd,
      removeConnectionsNotInReferrals, hcur, removed] at hdel ⊢
    simp only [hdel]
  · intro q
    rw [List.mem_append, hnew, hold]
    simp only [List.not_mem_nil, false_or]

theorem handleReferrals_passes {addOrder removeOrder : RangeOrder Referral} {c : Cache}
    {referrals : ReferralMap} {p : ClientClusterPair} (inv : CacheInv c)
    (one : OnePair referrals p) :
    ∃ added middle removed, Passes c referrals p added middle removed
      (handleReferrals addOrder removeOrder c referrals) := by
  obtain ⟨added, middle, removed, changed, adds, nodup, hmem, hrun, hchanged⟩ :=
    @handleReferrals_run addOrder removeOrder c referrals p inv one.nonempty one.pair
  have hadded : ∀ e ∈ added, e.pair = p := by
    intro e he
    obtain ⟨r, hr, rfl⟩ := List.mem_map.mp (adds.of_mem_added he).1
    exact one.pair r (by simpa using hr)
  have hremoved : ∀ e ∈ removed.map (·.entry), e.pair = p := by
    intro e he
    obtain ⟨x, hx, rfl⟩ := List.mem_map.mp he
    exact ((hmem x).mp hx).2.1
  refine ⟨added, middle, removed, ⟨_, addOrder.perm _, adds⟩, nodup, hmem, by rw [hrun], ?_,
    by rw [hrun], by rw [hrun]⟩
  intro q
  rw [hrun, hchanged, reports_one_pair one.notEmpty hadded, reports_one_pair one.notEmpty hremoved]
  simp only [ne_eq, List.map_eq_nil_iff]
  tauto

theorem Passes.inv {c middle : Cache} {referrals : ReferralMap} {p : ClientClusterPair}
    {added : List Entry} {removed : List CachedEntry} {o : Outcome}
    (passes : Passes c referrals p added middle removed o) (inv : CacheInv c) :
    CacheInv middle ∧ CacheInv o.cache := by
  obtain ⟨rs, -, adds⟩ := passes.adds
  have inv' : CacheInv middle := adds.inv inv (persistent_referrals rs)
  refine ⟨inv', ?_⟩
  rw [passes.cache]
  exact inv'.dropAll passes.removedNodup (fun x hx => ((passes.mem_removed x).mp hx).1)

end DiscoveryClient
