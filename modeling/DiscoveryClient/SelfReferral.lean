import DiscoveryClient.AenReferrals

namespace DiscoveryClient

open GoString

/-- An entry as the three routes into the cache make it. -/
def RoutedEntry (e : Entry) : Prop := e.transport = ascii "tcp" ∧ e.pair.isEmpty = false

theorem Adds.routed {c c' : Cache} {es added : List Entry} (adds : Adds c es added c')
    (hc : ∀ x ∈ c.cacheEntries, RoutedEntry x.entry) (hes : ∀ e ∈ es, RoutedEntry e) :
    ∀ x ∈ c'.cacheEntries, RoutedEntry x.entry := by
  refine adds.preserves (I := fun d => ∀ x ∈ d.cacheEntries, RoutedEntry x.entry) hc ?_
  intro d e hd he _ x hx
  rw [Cache.push_entries, List.mem_append, List.mem_singleton] at hx
  rcases hx with hx | rfl
  · exact hd x hx
  · obtain ⟨tmo, id, hstored⟩ := d.stored_frame e
    rw [hstored]
    exact hes e he

theorem UserEntry.routed {e : Entry} (h : UserEntry e) : RoutedEntry e := by
  have hpair := h.verified.pair_not_empty
  obtain ⟨f, hf, rfl⟩ := h
  exact ⟨hf.transport, hpair⟩

theorem RoutedEntry.throughJson {e : Entry} (h : RoutedEntry e) : RoutedEntry e.throughJson := by
  refine ⟨?_, ?_⟩
  · have htcp : GoString.throughJson (ascii "tcp") = ascii "tcp" := by decide
    rw [← htcp, ← h.1]
    rfl
  · have hpair := h.2
    simp only [Entry.pair, ClientClusterPair.isEmpty, Bool.and_eq_false_iff, List.isEmpty_eq_false_iff,
      Entry.throughJson, ne_eq, GoString.throughJson_eq_nil_iff] at hpair ⊢
    exact hpair

theorem SyncEntry.routed {written : Cache} {now : Int} {userDir : UserDir} {e : Entry}
    (hw : ∀ x ∈ written.cacheEntries, RoutedEntry x.entry)
    (h : SyncEntry (createReferralsFile written now) userDir e) : RoutedEntry e := by
  rcases h with h | ⟨-, es, hjson, he⟩
  · exact h.routed
  · rw [useInternalJson_created hjson] at he
    obtain ⟨x, hx, rfl⟩ := List.mem_map.mp he
    exact (hw x hx).throughJson

theorem Reachable.routed {c : Cache} (reach : Reachable c) :
    ∀ x ∈ c.cacheEntries, RoutedEntry x.entry := by
  induction reach with
  | empty hosts => simp [newCache]
  | syncInternal adjustTraddr order userDir hc hw ihc ihw =>
    obtain ⟨es, added, adds, hes, -⟩ :=
      sync_adds hc.inv (fun es h => created_persistent hw.inv h)
    exact adds.routed ihc (fun e he => (hes e he).routed ihw)
  | syncUser adjustTraddr order internal userDir hc hnot ih =>
    obtain ⟨es, added, adds, hes, -⟩ := sync_adds hc.inv (fun es h => absurd h (hnot es))
    refine adds.routed ih ?_
    intro e he
    rcases hes e he with h | ⟨-, js, hjs, -⟩
    · exact h.routed
    · exact absurd hjs (hnot js)
  | fileAdded adjustTraddr order file hc ih =>
    obtain ⟨es, added, adds, hes, -⟩ := fileAdded_adds hc.inv
    exact adds.routed ih (fun e he => (hes e he).routed)
  | handleReferrals addOrder removeOrder referrals p hc one ih =>
    obtain ⟨added, middle, removed, passes⟩ := handleReferrals_passes hc.inv one
    obtain ⟨rs, perm, adds⟩ := passes.adds
    have hmiddle := adds.routed ih (by
      intro e he
      obtain ⟨r, hr, rfl⟩ := List.mem_map.mp he
      have hp : (getEntryFromReferral r).pair = p := one.pair r (perm.mem_iff.mp hr)
      exact ⟨rfl, by rw [hp]; exact one.notEmpty⟩)
    intro x hx
    exact hmiddle x ((passes.mem_entries hc.inv).mp hx).1

/-- The cache still has an entry for the connection, and the connection itself. -/
def StillConnected (c : Cache) (conn : Connection) : Prop :=
  c.HasKey conn.key ∧ (c.conns conn.pair).lookup conn.key = some conn

theorem mem_referrals_endpoint {conn : Connection} {logPageEntries : List NvmeDiscPageEntry} :
    (∃ d ∈ conn.referrals logPageEntries, conn.key.ip = d.traddr ∧ conn.key.port = d.trsvcID.toNat) ↔
      conn.key.port = nvmeTCPDiscPort.toNat ∨ ∃ d ∈ logPageEntries, d.subType = nvmeNqnDisc ∧
        d.traddr = conn.key.ip ∧ d.trsvcID.toNat = conn.key.port := by
  constructor
  · intro h
    obtain ⟨d, hd, hip, hport⟩ := h
    rcases List.mem_append.mp hd with hd | hd
    · obtain ⟨hd, hdisc⟩ := List.mem_filter.mp hd
      exact Or.inr ⟨d, hd, by simpa using hdisc, hip.symm, hport.symm⟩
    · rw [List.mem_singleton.mp hd] at hport
      exact Or.inl hport
  · intro h
    rcases h with hport | ⟨d, hd, hdisc, hip, hport⟩
    · exact ⟨selfReferral conn, List.mem_append_right _ (List.mem_singleton_self _), rfl, hport⟩
    · exact ⟨d, List.mem_append_left _ (List.mem_filter.mpr ⟨hd, by simpa using hdisc⟩),
        hip.symm, hport.symm⟩

theorem self_endpoint_kept_iff {c : Cache} {conn : Connection} {connections : ConnectionMap}
    {result : DiscoverResult} {logPageEntries nvmeEntries discEntries : List NvmeDiscPageEntry}
    (reach : Reachable c) (hconn : (c.conns conn.pair).lookup conn.key = some conn)
    (hd : discover result = some logPageEntries)
    (hlog : (getLogPageEntries connections conn result).2 = some (nvmeEntries, discEntries))
    (addOrder removeOrder : RangeOrder Referral) :
    StillConnected (handleReferrals addOrder removeOrder c (referralMap conn discEntries)).cache
        conn ↔
      conn.key.port = nvmeTCPDiscPort.toNat ∨ ∃ d ∈ logPageEntries, d.subType = nvmeNqnDisc ∧
        d.traddr = conn.key.ip ∧ d.trsvcID.toNat = conn.key.port := by
  have hdisc : discEntries = conn.referrals logPageEntries := by
    simp only [getLogPageEntries, hd, Option.some.injEq, Prod.mk.injEq] at hlog
    exact hlog.2.symm
  have inv := reach.inv
  obtain ⟨hkeypair, x, hx, hxk⟩ :=
    (inv.keys conn.pair conn.key).mp (GoMap.mem_iff_lookup.mpr ⟨conn, hconn⟩)
  have hrouted := reach.routed x hx
  have htcp : conn.key.transport = ascii "tcp" := by
    rw [← hxk]
    exact hrouted.1
  have hhost : conn.hostnqn = conn.key.hostnqn := (inv.conn_key hconn).2
  have hpair : conn.pair.isEmpty = false := by
    rw [← hkeypair, ← hxk]
    exact hrouted.2
  subst hdisc
  obtain ⟨added, middle, removed, passes⟩ := @handleReferrals_passes addOrder removeOrder c
    (referralMap conn (conn.referrals logPageEntries)) conn.pair inv (referralMap_onePair hpair)
  have hreferred : (∃ r ∈ (referralMap conn (conn.referrals logPageEntries)).entries,
      Referral.tkey r = conn.key) ↔
      conn.key.port = nvmeTCPDiscPort.toNat ∨ ∃ d ∈ logPageEntries, d.subType = nvmeNqnDisc ∧
        d.traddr = conn.key.ip ∧ d.trsvcID.toNat = conn.key.port := by
    rw [mem_referralMap_tkey, ← mem_referrals_endpoint]
    refine exists_congr fun d => and_congr_right fun _ => ?_
    constructor
    · intro h
      exact ⟨congrArg TKey.ip h, congrArg TKey.port h⟩
    · intro h
      rw [hhost, ← htcp, ← h.1, ← h.2]
  rw [← hreferred]
  constructor
  · intro h
    rcases (passes.hasKey inv).mp h.1 with hother | hr
    · exact absurd hkeypair hother.1
    · exact hr
  · intro hr
    refine ⟨(passes.hasKey inv).mpr (Or.inr hr), ?_⟩
    obtain ⟨r, hr, hk⟩ := hr
    have hold : Referral.tkey r ∈ c.conns conn.pair := by
      rw [hk]
      exact GoMap.mem_iff_lookup.mpr ⟨conn, hconn⟩
    have hlook := passes.lookup inv hr hold
    rw [hk] at hlook
    rw [hlook, hconn]

theorem self_endpoint_kept_iff_sample :
    StillConnected (handleReferrals .stored .stored sampleCache
      (referralMap fileConnection [selfReferral fileConnection])).cache fileConnection := by
  have hd : discover (.entries []) = some [] := rfl
  have hlog : (getLogPageEntries ∅ fileConnection (.entries [])).2 =
      some ([], [selfReferral fileConnection]) := rfl
  refine (self_endpoint_kept_iff sampleCache_reachable ?_ hd hlog .stored .stored).mpr (Or.inl ?_)
  · rw [sampleCache_eq]
    decide +kernel
  · decide

/-- A discovery service that listens on a port of its own. -/
def portFile : UserFile :=
  .content (ascii "-t tcp -a 10.0.0.2 -s 4420 -q nqn.h -n nqn.c") false

def portCache : Cache := (fileAdded (fun _ => true) .stored (newCache ∅) portFile).1

def portConnection : Connection :=
  ⟨1, ⟨ascii "tcp", ascii "10.0.0.2", 4420, ascii "nqn.c", ascii "nqn.h"⟩, ascii "nqn.h", [], none⟩

theorem self_endpoint_removed :
    ¬∀ (c : Cache) (conn : Connection) (connections : ConnectionMap) (result : DiscoverResult)
      (nvmeEntries discEntries : List NvmeDiscPageEntry) (addOrder removeOrder : RangeOrder Referral),
      Reachable c → (c.conns conn.pair).lookup conn.key = some conn →
      (getLogPageEntries connections conn result).2 = some (nvmeEntries, discEntries) →
      StillConnected
        (handleReferrals addOrder removeOrder c (referralMap conn discEntries)).cache conn := by
  intro h
  have reach : Reachable portCache := .fileAdded _ _ _ (.empty ∅)
  have hconn : (portCache.conns portConnection.pair).lookup portConnection.key =
      some portConnection := by
    decide +kernel
  obtain ⟨-, hlook⟩ := h portCache portConnection ∅ (.entries []) _ _ .stored .stored reach hconn rfl
  revert hlook
  decide +kernel

end DiscoveryClient
