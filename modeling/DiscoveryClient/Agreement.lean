import DiscoveryClient.AgreementOps

namespace DiscoveryClient

open GoString

theorem find_liveConnections {c : Cache} {pairs : List ClientClusterPair} {p : ClientClusterPair} :
    (p ∈ liveConnections c pairs ↔ p ∈ pairs) ∧
    ∀ cc, (liveConnections c pairs).lookup p = some cc → cc = c.connections.cluster p := by
  have general : ∀ m : ConnectionMap,
      (p ∈ pairs.foldl (fun changed pair => changed.insert pair (c.connections.cluster pair)) m ↔
        p ∈ m ∨ p ∈ pairs) ∧
      ((∀ cc, m.lookup p = some cc → cc = c.connections.cluster p) → ∀ cc,
        (pairs.foldl (fun changed pair => changed.insert pair (c.connections.cluster pair)) m).lookup
          p = some cc → cc = c.connections.cluster p) := by
    induction pairs with
    | nil => simp
    | cons q pairs ih =>
      intro m
      obtain ⟨hmem, hlook⟩ := ih (m.insert q (c.connections.cluster q))
      rw [List.foldl_cons]
      refine ⟨by rw [hmem, AList.mem_insert, List.mem_cons]; tauto, ?_⟩
      intro hm
      apply hlook
      intro cc hcc
      rw [GoMap.lookup_insert_eq] at hcc
      split at hcc
      next hq => rw [← Option.some.inj hcc, hq]
      next => exact hm cc hcc
  obtain ⟨hmem, hlook⟩ := general ∅
  exact ⟨by simpa [liveConnections] using hmem, hlook (by simp)⟩

theorem find_liveConnections_eq {c : Cache} {pairs : List ClientClusterPair} {p : ClientClusterPair}
    (hp : p ∈ pairs) (k : TKey) :
    (liveConnections c pairs).find p k = c.connections.find p k := by
  obtain ⟨hmem, hlook⟩ := @find_liveConnections c pairs p
  obtain ⟨cc, hcc⟩ := GoMap.mem_iff_lookup.mp (hmem.mpr hp)
  rw [ConnectionMap.find, ConnectionMap.cluster, hcc, hlook cc hcc]
  rfl

theorem liveConnections_keyed {c : Cache} (inv : CacheInv c) (pairs : List ClientClusterPair) :
    Keyed (liveConnections c pairs) := by
  intro p k conn h
  have hp : p ∈ pairs := by
    by_contra hnot
    rw [← find_liveConnections.1] at hnot
    have hnone := ConnectionMap.find_of_not_mem hnot k
    rw [ConnectionMap.find, h] at hnone
    cases hnone
  have hfind : c.connections.find p k = some conn := by
    rw [← find_liveConnections_eq hp k]
    exact h
  exact inv.keyed p k conn hfind

/-- A step of the loop that is no notification keeps the agreement. -/
theorem Agrees.loopStep {s : System} {e : LoopEvent} {loop : Loop} (agrees : Agrees s)
    (h : s.loop.step e = some loop) (hcache : e.FromCache)
    (hnot : ∀ fromCache removeRanges addRanges, e ≠ .notification fromCache removeRanges addRanges) :
    Agrees { s with loop } := by
  have hfind := step_find h hnot
  refine ⟨agrees.inv, agrees.cachePairs, step_keyed agrees.keyed ⟨hcache, h⟩, ?_, ?_, ?_⟩
  · intro p k conn hk
    exact agrees.servicePairs p k conn ((hfind p k).symm.trans hk)
  · intro conn hconn
    rcases step_multiplexed h hconn with hold | ⟨p, k, hk⟩
    · exact agrees.multiplexed conn hold
    · rw [agrees.keyed.pair_eq hk]
      exact agrees.servicePairs p k conn hk
  · intro p k hne
    exact agrees.inFlight p k (by rw [← hfind p k]; exact hne)

theorem Agrees.deliver {s : System} {i : Nat} {pairs : List ClientClusterPair}
    {removeRanges addRanges : NotifyRanges} {loop : Loop} (agrees : Agrees s)
    (hi : s.inFlight[i]? = some pairs)
    (h : s.loop.step (.notification (liveConnections s.cache pairs) removeRanges addRanges) =
      some loop) :
    Agrees { s with loop, inFlight := s.inFlight.eraseIdx i } := by
  obtain ⟨-, hloop⟩ := step_stepsTo h
  have hlive := liveConnections_keyed agrees.inv pairs
  have hfind : ∀ p k, loop.connections.find p k =
      if p ∈ pairs then s.cache.connections.find p k else s.loop.connections.find p k := by
    intro p k
    rw [hloop]
    refine ((onNotification_find agrees.keyed hlive p).2 k).trans ?_
    by_cases hp : p ∈ pairs
    · rw [if_pos (find_liveConnections.1.mpr hp), if_pos hp, find_liveConnections_eq hp]
    · rw [if_neg (fun hm => hp (find_liveConnections.1.mp hm)), if_neg hp]
  have hkeyed : Keyed loop.connections := by
    rw [hloop]
    exact onNotification_keyed agrees.keyed hlive
  refine ⟨agrees.inv, agrees.cachePairs, hkeyed, ?_, ?_, ?_⟩
  · intro p k conn hk
    rw [hfind] at hk
    split at hk
    next =>
      have hkey := (agrees.inv.keys p k).mp (GoMap.mem_iff_lookup.mpr ⟨conn, hk⟩)
      rw [← hkey.1]
      exact agrees.cachePairs k hkey.2
    next => exact agrees.servicePairs p k conn hk
  · intro conn hconn
    rw [hloop] at hconn
    exact agrees.multiplexed conn hconn
  · intro p k hne
    rw [hfind] at hne
    by_cases hp : p ∈ pairs
    · rw [if_pos hp] at hne
      exact absurd rfl hne
    · rw [if_neg hp] at hne
      obtain ⟨n, hn, hpn⟩ := agrees.inFlight p k hne
      obtain ⟨j, hj⟩ := List.mem_iff_getElem?.mp hn
      have hij : j ≠ i := by
        rintro rfl
        rw [hi] at hj
        exact hp (by rw [Option.some.inj hj]; exact hpn)
      exact ⟨n, List.mem_eraseIdx_iff_getElem?.mpr ⟨j, hij, hj⟩, hpn⟩

theorem aenCache_eq {s : System} {conn : Connection} {serverChange : Bool} {result : DiscoverResult}
    {addOrder removeOrder : RangeOrder Referral} {o : Outcome}
    (h : s.aenCache conn serverChange result addOrder removeOrder = some o) :
    serverChange = false ∧ ∃ logPageEntries, discover result = some logPageEntries ∧
      o = handleReferrals addOrder removeOrder s.cache
        (referralMap conn (conn.referrals logPageEntries)) := by
  unfold System.aenCache getLogPageEntries at h
  cases serverChange with
  | true => simp at h
  | false =>
    refine ⟨rfl, ?_⟩
    cases hd : discover result with
    | none => simp [hd] at h
    | some logPageEntries =>
      simp only [hd, Bool.false_eq_true, if_false] at h
      exact ⟨logPageEntries, rfl, (Option.some.inj h).symm⟩

theorem Agrees.step {s s' : System} {e : SystemEvent} (agrees : Agrees s)
    (h : parties.step s e s') : Agrees s' := by
  obtain ⟨hallowed, hstep⟩ := h
  have hstep := System.step_stepsTo hstep
  cases e with
  | sync adjustTraddr order internal userDir =>
    obtain ⟨herr, rfl⟩ := hstep
    exact agrees.sync hallowed herr
  | file adjustTraddr order op base file =>
    rw [show s' = _ from hstep]
    exact agrees.onEvent
  | handleReferrals addOrder removeOrder referrals =>
    obtain ⟨p, one⟩ := hallowed
    rw [show s' = _ from hstep]
    exact agrees.handleReferrals one
  | aen conn serverChange result addOrder removeOrder =>
    obtain ⟨loop, hloop, hcache⟩ := hstep
    have hmux : conn ∈ s.loop.multiplexed := (step_stepsTo hloop).2.1
    have agrees' : Agrees { s with loop } :=
      agrees.loopStep hloop trivial (fun _ _ _ h => LoopEvent.noConfusion h)
    rcases hcache with ⟨-, rfl⟩ | ⟨o, ho, rfl⟩
    · exact agrees'
    · obtain ⟨-, logPageEntries, -, rfl⟩ := aenCache_eq ho
      exact agrees'.handleReferrals (referralMap_onePair (agrees.multiplexed conn hmux))
  | deliver i removeRanges addRanges =>
    obtain ⟨pairs, loop, hi, hloop, rfl⟩ := hstep
    exact agrees.deliver hi hloop
  | loop e =>
    obtain ⟨hinternal, loop, hloop, rfl⟩ := hstep
    cases e with
    | notification fromCache removeRanges addRanges => exact hinternal.elim
    | aen conn serverChange result => exact hinternal.elim
    | _ => exact agrees.loopStep hloop trivial (fun _ _ _ h => LoopEvent.noConfusion h)

theorem agrees_init {s : System} (h : parties.init s) : Agrees s := by
  obtain ⟨hosts, rfl⟩ := h
  have inv := newCache_inv hosts
  refine ⟨inv, ?_, keyed_empty, ?_, by simp, ?_⟩
  · intro k hk
    obtain ⟨e, he, -⟩ := hk
    simp [newCache] at he
  · intro p k conn hk
    simp [ConnectionMap.find, ConnectionMap.cluster] at hk
  · intro p k hne
    exact absurd rfl hne

theorem cache_service_agree {past : List (System × SystemEvent)} {s : System}
    (run : parties.Run past s) :
    (s.inFlight = [] →
      ∀ p k, s.loop.connections.find p k = s.cache.connections.find p k) ∧
    ∀ p, (∃ k, s.loop.connections.find p k ≠ s.cache.connections.find p k) →
      ∃ pairs ∈ s.inFlight, p ∈ pairs := by
  have agrees : Agrees s :=
    (run.always (fun s h => agrees_init h) (fun s e s' h => h.step)).2
  have hdiffer : ∀ p, (∃ k, s.loop.connections.find p k ≠ s.cache.connections.find p k) →
      ∃ pairs ∈ s.inFlight, p ∈ pairs := by
    intro p h
    obtain ⟨k, hne⟩ := h
    exact agrees.inFlight p k hne
  refine ⟨?_, hdiffer⟩
  intro hnil p k
  by_contra hne
  obtain ⟨pairs, hpairs, -⟩ := hdiffer p ⟨k, hne⟩
  rw [hnil] at hpairs
  simp at hpairs

theorem parties_next {past : List (System × SystemEvent)} {s s' : System} (run : parties.Run past s)
    (e : SystemEvent) (hallowed : e.Allowed) (h : s.step e = some s') :
    parties.Run (past ++ [(s, e)]) s' := run.next ⟨hallowed, h⟩

theorem cache_service_agree_delivered : ∃ past s, parties.Run past s ∧ past.length = 2 ∧
    s.inFlight = [] ∧ (s.cache.conns samplePair).keys =
      [⟨ascii "tcp", ascii "10.0.0.1", 8009, ascii "nqn.c", ascii "nqn.h"⟩] ∧
    ∀ p k, s.loop.connections.find p k = s.cache.connections.find p k := by
  have start : parties.Run [] { cache := newCache ∅ } := .start ⟨∅, rfl⟩
  have handled := parties_next start (.handleReferrals .stored .stored sampleReferrals)
    ⟨samplePair, sampleReferrals_onePair⟩ rfl
  have run := parties_next handled (.deliver 0 .stored .stored) trivial rfl
  exact ⟨_, _, run, rfl, rfl, by decide, (cache_service_agree run).1 rfl⟩

end DiscoveryClient
