import DiscoveryClient.System
import DiscoveryClient.AenReferrals

namespace DiscoveryClient

/-- What holds between the cache and the service in every state of the two parties. The pairs on
which they differ are on their way in some notification. -/
structure Agrees (s : System) : Prop where
  inv : CacheInv s.cache
  cachePairs : ∀ k, s.cache.HasKey k → k.pair.isEmpty = false
  keyed : Keyed s.loop.connections
  servicePairs : ∀ p k conn, s.loop.connections.find p k = some conn → p.isEmpty = false
  multiplexed : ∀ conn ∈ s.loop.multiplexed, conn.pair.isEmpty = false
  inFlight : ∀ p k, s.loop.connections.find p k ≠ s.cache.connections.find p k →
    ∃ pairs ∈ s.inFlight, p ∈ pairs

theorem find_congr {cm cm' : ConnectionMap} {p : ClientClusterPair}
    (h : cm.lookup p = cm'.lookup p) (k : TKey) : cm.find p k = cm'.find p k := by
  rw [ConnectionMap.find, ConnectionMap.find, ConnectionMap.cluster, ConnectionMap.cluster, h]

theorem CacheInv.keyed {c : Cache} (inv : CacheInv c) : Keyed c.connections := by
  intro p k conn h
  refine ⟨((inv.keys p k).mp (GoMap.mem_iff_lookup.mpr ⟨conn, h⟩)).1, ?_⟩
  exact inv.conn_key h

theorem Adds.change_notified {c : Cache} {es added : List Entry} {o : Outcome}
    (adds : Adds c es added o.cache) (inv : CacheInv c) (persistent : AllPersistent es)
    (pairs : ∀ e ∈ es, e.pair.isEmpty = false)
    (changed : ∀ p, p ∈ o.changed ↔ Reports added p) {p : ClientClusterPair} {k : TKey}
    (h : o.cache.connections.find p k ≠ c.connections.find p k) : p ∈ o.notified := by
  have hadded : ∃ e ∈ added, e.pair = p := by
    by_contra hnone
    push Not at hnone
    exact h (find_congr (adds.frame hnone) k)
  obtain ⟨e, he, hp⟩ := hadded
  have hempty := pairs e (adds.of_mem_added he).1
  rw [hp] at hempty
  have hkey : e.tkey ∈ o.cache.conns p := by
    refine ((adds.inv inv persistent).keys p e.tkey).mpr ⟨hp, ?_⟩
    exact adds.hasKey_added.mpr (Or.inr ⟨e, he, rfl⟩)
  rw [Outcome.notified, mem_notifyChange]
  exact ⟨(changed p).mpr ⟨hempty, e, he, hp⟩, hempty, Cache.lookup_isSome_of_mem_conns hkey⟩

theorem Passes.change_notified {c middle : Cache} {referrals : ReferralMap} {p : ClientClusterPair}
    {added : List Entry} {removed : List CachedEntry} {o : Outcome}
    (passes : Passes c referrals p added middle removed o) (inv : CacheInv c)
    (one : OnePair referrals p) {q : ClientClusterPair} {k : TKey}
    (h : o.cache.connections.find q k ≠ c.connections.find q k) : q ∈ o.notified := by
  rw [passes.mem_notified inv one]
  have hq : q = p := by
    by_contra hq
    exact h (find_congr (passes.frame one hq) k)
  refine ⟨hq, ?_⟩
  by_contra hnone
  push Not at hnone
  obtain ⟨hadd, hrem⟩ := hnone
  obtain ⟨rs, -, adds⟩ := passes.adds
  subst hadd hrem
  rw [passes.cache, adds.of_added_nil] at h
  exact h rfl

theorem Agrees.cacheOp {s : System} {o : Outcome} (agrees : Agrees s) (inv : CacheInv o.cache)
    (pairs : ∀ k, o.cache.HasKey k → k.pair.isEmpty = false)
    (notified : ∀ p k, o.cache.connections.find p k ≠ s.cache.connections.find p k →
      p ∈ o.notified) : Agrees (s.cacheOp o) := by
  refine ⟨inv, pairs, agrees.keyed, agrees.servicePairs, agrees.multiplexed, ?_⟩
  intro p k hne
  by_cases hsame : o.cache.connections.find p k = s.cache.connections.find p k
  · have hold : s.loop.connections.find p k ≠ s.cache.connections.find p k := by
      rw [← hsame]
      exact hne
    obtain ⟨n, hn, hp⟩ := agrees.inFlight p k hold
    refine ⟨n, ?_, hp⟩
    change n ∈ if o.notified = [] then s.inFlight else s.inFlight ++ [o.notified]
    split
    next => exact hn
    next => exact List.mem_append_left _ hn
  · have hp := notified p k hsame
    refine ⟨o.notified, ?_, hp⟩
    change o.notified ∈ if o.notified = [] then s.inFlight else s.inFlight ++ [o.notified]
    rw [if_neg (List.ne_nil_of_mem hp)]
    exact List.mem_append_right _ (List.mem_singleton_self _)

theorem Adds.pairs {c c' : Cache} {es added : List Entry} (adds : Adds c es added c')
    (hc : ∀ k, c.HasKey k → k.pair.isEmpty = false) (hes : ∀ e ∈ es, e.pair.isEmpty = false) :
    ∀ k, c'.HasKey k → k.pair.isEmpty = false := by
  intro k hk
  rcases adds.hasKey.mp hk with h | ⟨e, he, rfl⟩
  · exact hc k h
  · exact hes e he

theorem Agrees.handleReferrals {s : System} {addOrder removeOrder : RangeOrder Referral}
    {referrals : ReferralMap} {p : ClientClusterPair} (agrees : Agrees s)
    (one : OnePair referrals p) :
    Agrees (s.cacheOp (handleReferrals addOrder removeOrder s.cache referrals)) := by
  obtain ⟨added, middle, removed, passes⟩ :=
    @handleReferrals_passes addOrder removeOrder s.cache referrals p agrees.inv one
  apply agrees.cacheOp (passes.inv agrees.inv).2
  · intro k hk
    rcases (passes.hasKey agrees.inv).mp hk with h | ⟨r, hr, rfl⟩
    · exact agrees.cachePairs k h.2
    · have hp : (Referral.tkey r).pair = p := one.pair r hr
      rw [hp]
      exact one.notEmpty
  · intro q k h
    exact passes.change_notified agrees.inv one h

theorem Agrees.sync {s : System} {adjustTraddr : GoString → Bool}
    {order : GoString → RangeOrder Entry} {internal : InternalFile} {userDir : UserDir}
    (agrees : Agrees s) (written : Written internal userDir)
    (herr : (sync adjustTraddr order s.cache internal userDir).err = none) :
    Agrees (s.cacheOp (sync adjustTraddr order s.cache internal userDir)) := by
  have hjson : ∀ es, useInternalJson internal userDir = .ok (some es) → AllPersistent es := by
    intro es h
    rcases written with hnone | ⟨c, now, reach, rfl⟩
    · exact absurd h (hnone es)
    · exact created_persistent reach.inv h
  obtain ⟨es, added, adds, hes, hpersistent, hchanged⟩ := sync_adds agrees.inv hjson
  have hpairs : ∀ e ∈ es, e.pair.isEmpty = false := fun e he => (hes e he).verified.pair_not_empty
  apply agrees.cacheOp (adds.inv agrees.inv hpersistent)
  · exact adds.pairs agrees.cachePairs hpairs
  · intro p k h
    exact adds.change_notified agrees.inv hpersistent hpairs (hchanged herr) h

theorem Agrees.onEvent {s : System} {adjustTraddr : GoString → Bool} {order : RangeOrder Entry}
    {op : EventOp} {base : GoString} {file : UserFile} (agrees : Agrees s) :
    Agrees (s.cacheOp (onEvent adjustTraddr order s.cache op base file)) := by
  obtain ⟨es, added, adds, hes, hchanged⟩ := onEvent_adds agrees.inv
  have hpersistent : AllPersistent es := fun e he => (hes e he).persistent
  have hpairs : ∀ e ∈ es, e.pair.isEmpty = false := fun e he => (hes e he).verified.pair_not_empty
  apply agrees.cacheOp (adds.inv agrees.inv hpersistent)
  · exact adds.pairs agrees.cachePairs hpairs
  · intro p k h
    exact adds.change_notified agrees.inv hpersistent hpairs hchanged h

end DiscoveryClient
