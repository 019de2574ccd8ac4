import DiscoveryClient.ReferralPasses

namespace DiscoveryClient

open GoString

section Passes

variable {c middle : Cache} {referrals : ReferralMap} {p : ClientClusterPair} {added : List Entry}
  {removed : List CachedEntry} {o : Outcome}

theorem Passes.keysOf (passes : Passes c referrals p added middle removed o) (inv : CacheInv c)
    (one : OnePair referrals p) :
    o.cache.keysOf p = { k | ∃ r ∈ referrals.entries, Referral.tkey r = k } := by
  ext k
  constructor
  · intro h
    obtain ⟨hp, hk⟩ := h
    rcases (passes.hasKey inv).mp hk with hother | hr
    · exact absurd hp hother.1
    · exact hr
  · intro h
    obtain ⟨r, hr, hk⟩ := h
    refine ⟨?_, (passes.hasKey inv).mpr (Or.inr ⟨r, hr, hk⟩)⟩
    rw [← hk]
    exact one.pair r hr

theorem Passes.changed_iff (passes : Passes c referrals p added middle removed o)
    (inv : CacheInv c) (one : OnePair referrals p) :
    (added ≠ [] ∨ removed ≠ []) ↔ c.keysOf p ≠ o.cache.keysOf p := by
  obtain ⟨rs, perm, adds⟩ := passes.adds
  constructor
  · intro h heq
    rcases h with h | h
    · obtain ⟨e, he⟩ := List.exists_mem_of_ne_nil added h
      obtain ⟨hmem, fresh⟩ := adds.of_mem_added he
      obtain ⟨r, hr, rfl⟩ := List.mem_map.mp hmem
      have hnew : r.tkey ∈ o.cache.keysOf p := by
        rw [passes.keysOf inv one]
        exact ⟨r, perm.mem_iff.mp hr, rfl⟩
      rw [← heq] at hnew
      exact fresh hnew.2
    · obtain ⟨x, hx⟩ := List.exists_mem_of_ne_nil removed h
      obtain ⟨hmid, hp, hnone⟩ := (passes.mem_removed x).mp hx
      have hno : ¬∃ r ∈ referrals.entries, Referral.tkey r = x.entry.tkey := by
        intro hr
        obtain ⟨r, hr, hk⟩ := hr
        exact hnone r hr hk
      have hold : x.entry.tkey ∈ c.keysOf p :=
        ⟨hp, (passes.middle_hasKey.mp ⟨x, hmid, rfl⟩).resolve_right hno⟩
      rw [heq, passes.keysOf inv one] at hold
      exact hno hold
  · intro hne
    by_contra hnone
    push Not at hnone
    obtain ⟨hadd, hrem⟩ := hnone
    subst hadd hrem
    apply hne
    rw [passes.cache, adds.of_added_nil]
    rfl

theorem Passes.mem_notified (passes : Passes c referrals p added middle removed o)
    (inv : CacheInv c) (one : OnePair referrals p) {q : ClientClusterPair} :
    q ∈ o.notified ↔ q = p ∧ (added ≠ [] ∨ removed ≠ []) := by
  have hstored : (o.cache.connections.lookup p).isSome = true := by
    obtain ⟨r, hr⟩ := List.exists_mem_of_ne_nil _ one.nonempty
    apply Cache.lookup_isSome_of_mem_conns
    exact ((passes.inv inv).2.keys p (Referral.tkey r)).mpr
      ⟨one.pair r hr, (passes.hasKey inv).mpr (Or.inr ⟨r, hr, rfl⟩)⟩
  rw [Outcome.notified, mem_notifyChange, passes.changed]
  constructor
  · intro h
    exact h.1
  · intro h
    refine ⟨h, ?_⟩
    rw [h.1]
    exact ⟨one.notEmpty, hstored⟩

/-- Handling the same referrals again finds every key in place and none to remove. -/
theorem Passes.again {middle' : Cache} {added' : List Entry} {removed' : List CachedEntry}
    {o' : Outcome} (passes : Passes c referrals p added middle removed o) (inv : CacheInv c)
    (second : Passes o.cache referrals p added' middle' removed' o') :
    added' = [] ∧ removed' = [] ∧ o'.cache = o.cache := by
  obtain ⟨rs, perm, adds⟩ := second.adds
  have hadd : added' = [] := by
    apply adds.of_present
    intro e he
    obtain ⟨r, hr, rfl⟩ := List.mem_map.mp he
    exact (passes.hasKey inv).mpr (Or.inr ⟨r, perm.mem_iff.mp hr, rfl⟩)
  subst hadd
  have hmid : middle' = o.cache := adds.of_added_nil
  have hrem : removed' = [] := by
    by_contra hne
    obtain ⟨x, hx⟩ := List.exists_mem_of_ne_nil removed' hne
    obtain ⟨hx, hp, hnone⟩ := (second.mem_removed x).mp hx
    rw [hmid] at hx
    obtain ⟨r, hr, hk⟩ := ((passes.mem_entries inv).mp hx).2 hp
    exact hnone r hr hk
  refine ⟨rfl, hrem, ?_⟩
  rw [second.cache, hrem, hmid]
  rfl

end Passes

/-- A discovery that no longer reports the endpoint of the sample file. -/
def sampleReferrals : ReferralMap :=
  (∅ : ReferralMap).insert ⟨ascii "10.0.0.1", 8009, ascii "nqn.c", ascii "nqn.h"⟩
    { trsvcID := 8009, subnqn := ascii "nqn.c", traddr := ascii "10.0.0.1", subType := 1 }

theorem sampleReferrals_onePair : OnePair sampleReferrals samplePair :=
  ⟨by decide, by decide, by decide⟩

end DiscoveryClient
