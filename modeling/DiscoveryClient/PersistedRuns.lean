import DiscoveryClient.PersistedEntries

namespace DiscoveryClient

open GoString

/-- What a verified entry leaves in the key of its connection. -/
def KnownEndpoint (k : TKey) : Prop := k.ip ≠ [] ∧ k.nqn ≠ [] ∧ k.hostnqn ≠ []

/-- Beside the agreement: the service's connections were made from verified entries. -/
structure KnownEndpoints (s : System) : Prop where
  agrees : Agrees s
  service : ∀ p k conn, s.loop.connections.find p k = some conn → KnownEndpoint k
  multiplexed : ∀ conn ∈ s.loop.multiplexed,
    KnownEndpoint conn.key ∧ conn.hostnqn = conn.key.hostnqn

theorem AllVerified.known {c : Cache} (all : AllVerified c) {k : TKey} (hk : c.HasKey k) :
    KnownEndpoint k := by
  obtain ⟨e, he, rfl⟩ := hk
  obtain ⟨hsub, haddr, -, -, hhost, -⟩ := all e he
  exact ⟨haddr, hsub, hhost⟩

theorem KnownEndpoints.loopStep {s : System} {e : LoopEvent} {loop : Loop} (known : KnownEndpoints s)
    (h : s.loop.step e = some loop)
    (hnot : ∀ fromCache removeRanges addRanges, e ≠ .notification fromCache removeRanges addRanges) :
    (∀ p k conn, loop.connections.find p k = some conn → KnownEndpoint k) ∧
    ∀ conn ∈ loop.multiplexed, KnownEndpoint conn.key ∧ conn.hostnqn = conn.key.hostnqn := by
  refine ⟨?_, ?_⟩
  · intro p k conn hk
    rw [step_find h hnot] at hk
    exact known.service p k conn hk
  · intro conn hconn
    rcases step_multiplexed h hconn with hold | ⟨p, k, hk⟩
    · exact known.multiplexed conn hold
    · obtain ⟨-, hkey, hhost⟩ := known.agrees.keyed p k conn hk
      rw [hkey]
      exact ⟨known.service p k conn hk, hhost⟩

theorem KnownEndpoints.deliver {s : System} {pairs : List ClientClusterPair}
    {removeRanges addRanges : NotifyRanges} {loop : Loop} (known : KnownEndpoints s)
    (all : AllVerified s.cache)
    (h : s.loop.step (.notification (liveConnections s.cache pairs) removeRanges addRanges) =
      some loop) :
    (∀ p k conn, loop.connections.find p k = some conn → KnownEndpoint k) ∧
    ∀ conn ∈ loop.multiplexed, KnownEndpoint conn.key ∧ conn.hostnqn = conn.key.hostnqn := by
  obtain ⟨-, rfl⟩ := step_stepsTo h
  refine ⟨?_, known.multiplexed⟩
  intro p k conn hk
  have hfind := (@onNotification_find removeRanges addRanges _ _ known.agrees.keyed
    (liveConnections_keyed known.agrees.inv pairs) p).2 k
  have hk := hfind.symm.trans hk
  split at hk
  next hp =>
    rw [find_liveConnections_eq (find_liveConnections.1.mp hp)] at hk
    exact all.known ((known.agrees.inv.keys p k).mp (GoMap.mem_iff_lookup.mpr ⟨conn, hk⟩)).2
  next => exact known.service p k conn hk

theorem KnownEndpoints.step {s s' : System} {e : SystemEvent} (known : KnownEndpoints s)
    (all : AllVerified s.cache) (h : parties.step s e s') : KnownEndpoints s' := by
  have hagrees := known.agrees.step h
  have hstep := System.step_stepsTo h.2
  suffices hrest : (∀ p k conn, s'.loop.connections.find p k = some conn → KnownEndpoint k) ∧
      ∀ conn ∈ s'.loop.multiplexed, KnownEndpoint conn.key ∧ conn.hostnqn = conn.key.hostnqn from
    ⟨hagrees, hrest.1, hrest.2⟩
  cases e with
  | sync adjustTraddr order internal userDir =>
    obtain ⟨-, rfl⟩ := hstep
    exact ⟨known.service, known.multiplexed⟩
  | file adjustTraddr order op base file =>
    rw [show s' = _ from hstep]
    exact ⟨known.service, known.multiplexed⟩
  | handleReferrals addOrder removeOrder referrals =>
    rw [show s' = _ from hstep]
    exact ⟨known.service, known.multiplexed⟩
  | aen conn serverChange result addOrder removeOrder =>
    obtain ⟨loop, hloop, hcache⟩ := hstep
    have hrest := known.loopStep hloop (fun _ _ _ h => LoopEvent.noConfusion h)
    rcases hcache with ⟨-, rfl⟩ | ⟨o, -, rfl⟩
    · exact hrest
    · exact hrest
  | deliver i removeRanges addRanges =>
    obtain ⟨pairs, loop, -, hloop, rfl⟩ := hstep
    exact known.deliver all hloop
  | loop e =>
    obtain ⟨hinternal, loop, hloop, rfl⟩ := hstep
    apply known.loopStep hloop
    intro fromCache removeRanges addRanges heq
    subst heq
    exact hinternal

theorem referral_verified {r : Referral} (haddr : r.2.traddr ≠ []) (hport : r.2.trsvcID ≠ 0)
    (hsub : r.1.dpSubNqn ≠ []) (hhost : r.1.hostnqn ≠ []) : (getEntryFromReferral r).Verified := by
  refine ⟨hsub, haddr, ?_, by simp [getEntryFromReferral, ascii], hhost, ?_⟩
  · intro h
    apply hport
    have h : (r.2.trsvcID.toNat : Int) = 0 := h
    have hnat : r.2.trsvcID.toNat = 0 := by omega
    exact UInt16.toNat_inj.mp hnat
  · intro t ht
    simp [getEntryFromReferral] at ht

/-- After a discovery the cache is verified exactly when the log page named every endpoint. -/
theorem allVerified_referrals {s : System} {conn : Connection}
    {addOrder removeOrder : RangeOrder Referral} {logPageEntries : List NvmeDiscPageEntry}
    (known : KnownEndpoints s) (all : AllVerified s.cache) (hmux : conn ∈ s.loop.multiplexed) :
    AllVerified (handleReferrals addOrder removeOrder s.cache
        (referralMap conn (conn.referrals logPageEntries))).cache ↔
      ∀ d ∈ logPageEntries, d.subType = nvmeNqnDisc → d.traddr ≠ [] ∧ d.trsvcID ≠ 0 := by
  obtain ⟨⟨hip, hnqn, hkhost⟩, hhost⟩ := known.multiplexed conn hmux
  have inv := known.agrees.inv
  obtain ⟨added, middle, removed, passes⟩ := @handleReferrals_passes addOrder removeOrder s.cache
    (referralMap conn (conn.referrals logPageEntries)) conn.pair inv
    (referralMap_onePair (known.agrees.multiplexed conn hmux))
  constructor
  · intro hall d hd hdisc
    have hmem : d ∈ conn.referrals logPageEntries :=
      List.mem_append_left _ (List.mem_filter.mpr ⟨hd, by simpa using hdisc⟩)
    obtain ⟨x, hx, hk⟩ := (passes.hasKey inv).mpr
      (Or.inr (mem_referralMap_tkey.mpr ⟨d, hmem, rfl⟩))
    obtain ⟨-, haddr, hport, -⟩ := hall x hx
    simp only [Entry.tkey, TKey.mk.injEq] at hk
    refine ⟨by rw [← hk.2.1]; exact haddr, ?_⟩
    intro hzero
    rw [hk.2.2.1, hzero] at hport
    exact hport rfl
  · intro hnamed x hx
    obtain ⟨rs, perm, adds⟩ := passes.adds
    refine adds.allVerified all ?_ x ((passes.mem_entries inv).mp hx).1
    intro e he
    obtain ⟨r, hr, rfl⟩ := List.mem_map.mp he
    obtain ⟨hd, hkey⟩ := mem_referralMap (perm.mem_iff.mp hr)
    have hends : r.2.traddr ≠ [] ∧ r.2.trsvcID ≠ 0 := by
      rcases List.mem_append.mp hd with hd | hd
      · obtain ⟨hd, hdisc⟩ := List.mem_filter.mp hd
        exact hnamed r.2 hd (by simpa using hdisc)
      · rw [List.mem_singleton.mp hd]
        exact ⟨hip, show nvmeTCPDiscPort ≠ 0 by decide⟩
    apply referral_verified hends.1 hends.2
    · rw [hkey]
      exact hnqn
    · rw [hkey]
      change conn.hostnqn ≠ []
      rw [hhost]
      exact hkhost

theorem allVerified_step {s s' : System} {e : SystemEvent} (known : KnownEndpoints s)
    (all : AllVerified s.cache) (h : program.step s e s') :
    AllVerified s'.cache ↔ NamesEndpoints e := by
  obtain ⟨hprogram, hallowed, hstep⟩ := h
  have hstep := System.step_stepsTo hstep
  have inv := known.agrees.inv
  cases e with
  | sync adjustTraddr order internal userDir =>
    obtain ⟨-, rfl⟩ := hstep
    have hjson : ∀ es, useInternalJson internal userDir = .ok (some es) → AllPersistent es := by
      intro es h
      rcases hallowed with hnone | ⟨c, now, reach, rfl⟩
      · exact absurd h (hnone es)
      · exact created_persistent reach.inv h
    obtain ⟨es, added, adds, hes, -⟩ := @sync_adds adjustTraddr order _ _ _ inv hjson
    exact iff_of_true (adds.allVerified all fun e he => (hes e he).verified) trivial
  | file adjustTraddr order op base file =>
    rw [show s' = _ from hstep]
    obtain ⟨es, added, adds, hes, -⟩ := @onEvent_adds adjustTraddr order s.cache op base file inv
    exact iff_of_true (adds.allVerified all fun e he => (hes e he).verified) trivial
  | handleReferrals addOrder removeOrder referrals => exact hprogram.elim
  | aen conn serverChange result addOrder removeOrder =>
    obtain ⟨loop, hloop, hcache⟩ := hstep
    have hmux : conn ∈ s.loop.multiplexed := (step_stepsTo hloop).2.1
    rcases hcache with ⟨hnone, rfl⟩ | ⟨o, ho, rfl⟩
    · refine iff_of_true all ?_
      intro hchange logPageEntries hd
      simp [System.aenCache, getLogPageEntries, hchange, hd] at hnone
    · obtain ⟨hchange, logPageEntries, hd, rfl⟩ := aenCache_eq ho
      refine (allVerified_referrals known all hmux).trans ?_
      simp only [NamesEndpoints, hchange, hd, true_implies, Option.some.injEq, forall_eq']
  | deliver i removeRanges addRanges =>
    obtain ⟨pairs, loop, -, -, rfl⟩ := hstep
    exact iff_of_true all trivial
  | loop e =>
    obtain ⟨-, loop, -, rfl⟩ := hstep
    exact iff_of_true all trivial

theorem persisted_reloadable_iff {past : List (System × SystemEvent)} {s : System}
    (run : program.Run past s) :
    Machine.Always Reloadable past s ↔ Machine.Each (fun _ e => NamesEndpoints e) past := by
  refine Machine.Run.always_iff_each (J := KnownEndpoints) ?_ ?_ run
  · intro s h
    have agrees := agrees_init h
    obtain ⟨hosts, rfl⟩ := h
    refine ⟨(reloadable_iff agrees.inv).mpr (by simp [AllVerified, newCache]), agrees, ?_, by simp⟩
    intro p k conn hk
    simp [ConnectionMap.find, ConnectionMap.cluster] at hk
  · intro s e s' reload known h
    have all := (reloadable_iff known.agrees.inv).mp reload
    have known' := known.step all h.2
    rw [reloadable_iff known'.agrees.inv]
    exact ⟨allVerified_step known all h, fun _ => known'⟩

theorem program_next {past : List (System × SystemEvent)} {s s' : System} (run : program.Run past s)
    (e : SystemEvent) (hprogram : e.OfProgram) (hallowed : e.Allowed) (h : s.step e = some s') :
    program.Run (past ++ [(s, e)]) s' := run.next ⟨hprogram, hallowed, h⟩

/-- The service has loaded the sample file and connected. -/
theorem program_connected : ∃ past s, program.Run past s ∧
    Machine.Each (fun _ e => NamesEndpoints e) past ∧
    s.cache = sampleCache ∧ s.loop.busy = none ∧ fileConnection ∈ s.loop.multiplexed := by
  have start : program.Run [] { cache := newCache ∅ } := .start ⟨∅, rfl⟩
  have loaded := program_next start
    (.file (fun _ => true) .stored .create (ascii "a") sampleFile) trivial trivial rfl
  have delivered := program_next loaded (.deliver 0 .stored .stored) trivial trivial rfl
  have received := program_next delivered (.loop (.receive samplePair)) trivial trivial rfl
  have run := program_next received (.loop (.attempt .stored fun _ => .entries [])) trivial trivial rfl
  refine ⟨_, _, run, ?_, rfl, rfl, by decide +kernel⟩
  simp [Machine.Each, NamesEndpoints]

/-- A discovery over the sample connection is a step of the program. -/
theorem program_aen {past : List (System × SystemEvent)} {s : System} (run : program.Run past s)
    (hbusy : s.loop.busy = none) (hmux : fileConnection ∈ s.loop.multiplexed)
    (page : List NvmefDiscRspPageEntry) :
    ∃ s', program.Run (past ++ [(s, .aen fileConnection false (.entries (page.map discoverEntry))
      .stored .stored)]) s' ∧
    s'.cache = (handleReferrals .stored .stored s.cache (referralMap fileConnection
      (fileConnection.referrals (page.map discoverEntry)))).cache := by
  let result : DiscoverResult := .entries (page.map discoverEntry)
  let loop := s.loop.aen fileConnection (s.loop.onAen fileConnection false result)
  let o := handleReferrals .stored .stored s.cache
    (referralMap fileConnection (fileConnection.referrals (page.map discoverEntry)))
  have hloop : s.loop.step (.aen fileConnection false result) = some loop := by
    rw [Loop.step, if_pos ⟨hbusy, hmux⟩]
  have hstep : s.step (.aen fileConnection false result .stored .stored) =
      some ({ s with loop }.cacheOp o) := by
    rw [System.step, hloop]
    rfl
  exact ⟨_, program_next run _ ⟨page, rfl⟩ trivial hstep, rfl⟩

/-- A referral of a log page, its strings as they stand in their fields. -/
def pageReferral (traddr trsvcID : String) : NvmefDiscRspPageEntry :=
  { trType := 3, adrFam := 1, subType := nvmeNqnDisc, treq := 0, portID := 0, cntlID := 0, asqsz := 0
    resv8 := .replicate 22 0
    trsvcID := .ofFn fun i => (ascii trsvcID).getD i 0
    resv64 := .replicate 192 0
    subnqn := ascii "nqn.2014-08.org.nvmexpress.discovery"
    traddr := ascii traddr
    tsas := .replicate 256 0 }

theorem persisted_reloadable_iff_named : ∃ past s, program.Run past s ∧
    s.cache.HasKey ⟨ascii "tcp", ascii "10.0.0.3", 8009, ascii "nqn.c", ascii "nqn.h"⟩ ∧
    Machine.Always Reloadable past s := by
  obtain ⟨past, s, run, named, hcache, hbusy, hmux⟩ := program_connected
  obtain ⟨s', run', hcache'⟩ := program_aen run hbusy hmux [pageReferral "10.0.0.3" "8009"]
  refine ⟨_, s', run', ?_, (persisted_reloadable_iff run').mpr (Machine.each_snoc.mpr ⟨named, ?_⟩)⟩
  · rw [hcache', hcache, sampleCache_eq]
    unfold Cache.HasKey
    decide +kernel
  · intro _ logPageEntries hd
    rw [← Option.some.inj hd]
    decide +kernel

/-- The log page names a discovery service without its address. -/
theorem nameless_referral_persisted : ¬∀ past s, program.Run past s → Reloadable s := by
  intro h
  obtain ⟨past, s, run, named, hcache, hbusy, hmux⟩ := program_connected
  obtain ⟨s', run', hcache'⟩ := program_aen run hbusy hmux [pageReferral "" "8009"]
  have hreload := (h _ _ run').1
  rw [hcache', hcache, sampleCache_eq] at hreload
  revert hreload
  decide +kernel

end DiscoveryClient
