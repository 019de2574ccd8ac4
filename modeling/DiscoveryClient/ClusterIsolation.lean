import DiscoveryClient.ReferralPasses

namespace DiscoveryClient

open GoString

/-- The entries of a pair, in the order of the cache. -/
def Cache.entriesOf (c : Cache) (p : ClientClusterPair) : List Entry :=
  (c.cacheEntries.map (·.entry)).filter (·.pair = p)

/-- How the connection under a key of a pair is made: its host id and its timeout. -/
def Cache.settings (c : Cache) (p : ClientClusterPair) (k : TKey) :
    Option (GoString × Option Int) :=
  ((c.conns p).lookup k).map fun conn => (conn.hostid, conn.ctrlLossTMO)

/-- The caches agree on a pair. -/
def SamePair (p : ClientClusterPair) (c₁ c₂ : Cache) : Prop :=
  (c₁.entriesOf p).Perm (c₂.entriesOf p) ∧ ∀ k, c₁.settings p k = c₂.settings p k

theorem Cache.mem_entriesOf {c : Cache} {p : ClientClusterPair} {e : Entry} :
    e ∈ c.entriesOf p ↔ (∃ x ∈ c.cacheEntries, x.entry = e) ∧ e.pair = p := by
  simp only [entriesOf, List.mem_filter, List.mem_map, decide_eq_true_eq]

theorem Cache.hasKey_iff_entriesOf {c : Cache} {p : ClientClusterPair} {k : TKey} (hk : k.pair = p) :
    c.HasKey k ↔ ∃ e ∈ c.entriesOf p, e.tkey = k := by
  constructor
  · rintro ⟨x, hx, rfl⟩
    exact ⟨x.entry, Cache.mem_entriesOf.mpr ⟨⟨x, hx, rfl⟩, hk⟩, rfl⟩
  · rintro ⟨e, he, rfl⟩
    obtain ⟨⟨x, hx, rfl⟩, -⟩ := Cache.mem_entriesOf.mp he
    exact ⟨x, hx, rfl⟩

theorem Cache.hasKey_congr {c₁ c₂ : Cache} {p : ClientClusterPair}
    (same : c₁.entriesOf p = c₂.entriesOf p) {k : TKey} (hk : k.pair = p) :
    c₁.HasKey k ↔ c₂.HasKey k := by
  rw [Cache.hasKey_iff_entriesOf hk, Cache.hasKey_iff_entriesOf hk, same]

theorem CacheInv.entriesOf_nodup {c : Cache} (inv : CacheInv c) (p : ClientClusterPair) :
    (c.entriesOf p).Nodup := by
  refine List.Nodup.filter _ (List.Nodup.of_map Entry.tkey ?_)
  rw [List.map_map]
  exact inv.keysNodup

/-- A connection is made from the entry with its key. -/
theorem CacheInv.settings_eq_some_iff {c : Cache} (inv : CacheInv c) {p : ClientClusterPair}
    {k : TKey} {s : GoString × Option Int} : c.settings p k = some s ↔
      ∃ e ∈ c.entriesOf p, e.tkey = k ∧ s = (e.getEffectiveHostId, e.ctrlLossTMO) := by
  rw [Cache.settings, Option.map_eq_some_iff]
  constructor
  · rintro ⟨conn, hconn, rfl⟩
    have hp := ((inv.keys p k).mp (GoMap.mem_iff_lookup.mpr ⟨conn, hconn⟩)).1
    obtain ⟨x, hx, hk, hnew⟩ := inv.conn p k conn hconn
    refine ⟨x.entry, Cache.mem_entriesOf.mpr ⟨⟨x, hx, rfl⟩, ?_⟩, hk, by rw [hnew]; rfl⟩
    rw [← Entry.tkey_pair, hk, hp]
  · rintro ⟨e, he, rfl, rfl⟩
    obtain ⟨⟨x, hx, rfl⟩, hp⟩ := Cache.mem_entriesOf.mp he
    have hkey : x.entry.tkey ∈ c.conns p :=
      (inv.keys p _).mpr ⟨by rw [Entry.tkey_pair, hp], x, hx, rfl⟩
    obtain ⟨conn, hconn⟩ := GoMap.mem_iff_lookup.mp hkey
    obtain ⟨y, hy, hk, hnew⟩ := inv.conn p _ conn hconn
    refine ⟨conn, hconn, ?_⟩
    rw [hnew, inv.eq_of_tkey hy hx hk]
    rfl

theorem CacheInv.samePair_iff {c₁ c₂ : Cache} (inv₁ : CacheInv c₁) (inv₂ : CacheInv c₂)
    {p : ClientClusterPair} :
    SamePair p c₁ c₂ ↔ ∀ e, e ∈ c₁.entriesOf p ↔ e ∈ c₂.entriesOf p := by
  rw [← List.perm_ext_iff_of_nodup (inv₁.entriesOf_nodup p) (inv₂.entriesOf_nodup p)]
  refine ⟨fun h => h.1, fun h => ⟨h, fun k => Option.ext fun s => ?_⟩⟩
  rw [inv₁.settings_eq_some_iff, inv₂.settings_eq_some_iff]
  simp only [h.mem_iff]

/-- The referrals' keys tell their entries apart. -/
theorem referralEntry_congr {tmo : Option Int} {hosts : GoMap GoString GoString} {r r' : Referral}
    (h : r.tkey = r'.tkey) : referralEntry tmo hosts r = referralEntry tmo hosts r' := by
  simp only [Referral.tkey, getEntryFromReferral, Entry.tkey, TKey.mk.injEq] at h
  obtain ⟨-, haddr, hport, hnqn, hhost⟩ := h
  simp only [referralEntry, getEntryFromReferral, haddr, hport, hnqn, hhost]

/-- The entry is what a pass over the referrals stores under a key the cache does not have. -/
def Cache.AddsEntry (c : Cache) (referrals : ReferralMap) (e : Entry) : Prop :=
  ¬c.HasKey e.tkey ∧ ∃ r ∈ referrals.entries,
    e = referralEntry (inheritedTMO c.cacheEntries) c.nvmfHosts r

namespace Cache.AddsEntry

variable {c₁ c₂ : Cache} {p : ClientClusterPair} {referrals : ReferralMap} {e : Entry}

theorem of_same (hpair : ∀ r ∈ referrals.entries, r.1.pair = p)
    (same : c₁.entriesOf p = c₂.entriesOf p)
    (htmo : inheritedTMO c₁.cacheEntries = inheritedTMO c₂.cacheEntries)
    (hid : getHostID c₁.nvmfHosts p.hostNqn = getHostID c₂.nvmfHosts p.hostNqn)
    (h : c₁.AddsEntry referrals e) : c₂.AddsEntry referrals e := by
  obtain ⟨hfresh, r, hr, rfl⟩ := h
  have hhost : r.1.hostnqn = p.hostNqn := by
    rw [← hpair r hr]
    rfl
  have htkey : (Referral.tkey r).pair = p := hpair r hr
  refine ⟨(Cache.hasKey_congr same htkey).not.mp hfresh, r, hr, ?_⟩
  rw [referralEntry, referralEntry, htmo, hhost, hid]

/-- Two caches that add one entry give it the same timeout and the same host id. -/
theorem settings_eq (hpair : ∀ r ∈ referrals.entries, r.1.pair = p)
    (h₁ : c₁.AddsEntry referrals e) (h₂ : c₂.AddsEntry referrals e) :
    inheritedTMO c₁.cacheEntries = inheritedTMO c₂.cacheEntries ∧
      getHostID c₁.nvmfHosts p.hostNqn = getHostID c₂.nvmfHosts p.hostNqn := by
  obtain ⟨-, r, hr, rfl⟩ := h₁
  obtain ⟨-, r', hr', heq⟩ := h₂
  have hid := congrArg Entry.effectiveHostid heq
  have hhost : ∀ r ∈ referrals.entries, r.1.hostnqn = p.hostNqn := by
    intro r hr
    rw [← hpair r hr]
    rfl
  simp only [referralEntry, hhost r hr, hhost r' hr'] at hid
  exact ⟨congrArg Entry.ctrlLossTMO heq, hid⟩

end Cache.AddsEntry

theorem Cache.not_addsEntry {c : Cache} {referrals : ReferralMap}
    (hpresent : ∀ r ∈ referrals.entries, c.HasKey (Referral.tkey r)) (e : Entry) :
    ¬c.AddsEntry referrals e := by
  rintro ⟨hfresh, r, hr, rfl⟩
  exact hfresh (hpresent r hr)

section

variable {addOrder removeOrder : RangeOrder Referral} {c : Cache} {referrals : ReferralMap}
  {p : ClientClusterPair}

theorem handleReferrals_empty (h : referrals.entries = []) :
    (handleReferrals addOrder removeOrder c referrals).cache = c := by
  rw [handleReferrals, if_pos h]

theorem handleReferrals_inv (inv : CacheInv c) (hpair : ∀ r ∈ referrals.entries, r.1.pair = p) :
    CacheInv (handleReferrals addOrder removeOrder c referrals).cache := by
  by_cases nonempty : referrals.entries = []
  · rw [handleReferrals_empty nonempty]
    exact inv
  · obtain ⟨added, middle, removed, changed, adds, nodup, hmem, hrun, -⟩ :=
      @handleReferrals_run addOrder removeOrder c referrals p inv nonempty hpair
    rw [hrun]
    exact (adds.inv inv (persistent_referrals _)).dropAll nodup fun x hx => ((hmem x).mp hx).1

/-- A pair's entries after its referrals: those the cache had under a referral's key, and one for
each key it did not have. -/
theorem handleReferrals_mem_entriesOf (inv : CacheInv c) (nonempty : referrals.entries ≠ [])
    (hpair : ∀ r ∈ referrals.entries, r.1.pair = p) {e : Entry} :
    e ∈ (handleReferrals addOrder removeOrder c referrals).cache.entriesOf p ↔
      (e ∈ c.entriesOf p ∧ ∃ r ∈ referrals.entries, Referral.tkey r = e.tkey) ∨
      c.AddsEntry referrals e := by
  obtain ⟨added, middle, removed, changed, adds, nodup, hmem, hrun, -⟩ :=
    @handleReferrals_run addOrder removeOrder c referrals p inv nonempty hpair
  have inv' : CacheInv middle := adds.inv inv (persistent_referrals _)
  obtain ⟨hsub, hstored⟩ := adds.referral_stored
  have hkeep : ∀ x, x.entry.pair = p → (x ∈ (middle.dropAll removed).cacheEntries ↔
      x ∈ middle.cacheEntries ∧ ∃ r ∈ referrals.entries, Referral.tkey r = x.entry.tkey) := by
    intro x hx
    rw [Cache.mem_dropAll inv' nodup fun y hy => ((hmem y).mp hy).1, hmem]
    refine and_congr_right fun hmiddle => ?_
    simp only [hmiddle, hx, true_and, not_forall, exists_prop, not_not]
  rw [hrun, Cache.mem_entriesOf]
  constructor
  · rintro ⟨⟨x, hx, rfl⟩, hp⟩
    obtain ⟨hmiddle, hreferred⟩ := (hkeep x hp).mp hx
    rcases hstored x hmiddle with hold | ⟨hfresh, r, hr, hentry⟩
    · exact Or.inl ⟨Cache.mem_entriesOf.mpr ⟨⟨x, hold, rfl⟩, hp⟩, hreferred⟩
    · exact Or.inr ⟨hfresh, r, (addOrder.mem_order).mp hr, hentry⟩
  · rintro (⟨he, hreferred⟩ | ⟨hfresh, r, hr, rfl⟩)
    · obtain ⟨⟨x, hx, rfl⟩, hp⟩ := Cache.mem_entriesOf.mp he
      exact ⟨⟨x, (hkeep x hp).mpr ⟨hsub x hx, hreferred⟩, rfl⟩, hp⟩
    · have hkey : middle.HasKey (Referral.tkey r) := by
        refine adds.hasKey.mpr (Or.inr ⟨getEntryFromReferral r, ?_, rfl⟩)
        exact List.mem_map_of_mem (addOrder.mem_order.mpr hr)
      obtain ⟨x, hx, hk⟩ := hkey
      -- the entry under a new key is that of some referral with this key, hence of this one
      rcases hstored x hx with hold | ⟨-, r', -, hentry⟩
      · exact absurd ⟨x, hold, hk⟩ hfresh
      · have hsame : Referral.tkey r' = Referral.tkey r := by
          rw [← hk, hentry]
          rfl
        have heq := hentry.trans (referralEntry_congr hsame)
        have hp : x.entry.pair = p := by
          rw [heq]
          exact hpair r hr
        exact ⟨⟨x, (hkeep x hp).mpr ⟨hx, r, hr, hk.symm⟩, heq⟩, heq ▸ hp⟩

end

/-- Two caches that agree on a pair agree on it after its referrals exactly if no referral is new,
or if both caches give a new one the same timeout and the same host id. -/
theorem cluster_isolation_iff {c₁ c₂ : Cache} (reach₁ : Reachable c₁) (reach₂ : Reachable c₂)
    {p : ClientClusterPair} (same : c₁.entriesOf p = c₂.entriesOf p) {referrals : ReferralMap}
    (hpair : ∀ r ∈ referrals.entries, r.1.pair = p)
    {addOrder₁ removeOrder₁ addOrder₂ removeOrder₂ : RangeOrder Referral} :
    SamePair p (handleReferrals addOrder₁ removeOrder₁ c₁ referrals).cache
        (handleReferrals addOrder₂ removeOrder₂ c₂ referrals).cache ↔
      (∀ r ∈ referrals.entries, c₁.HasKey (Referral.tkey r)) ∨
      (inheritedTMO c₁.cacheEntries = inheritedTMO c₂.cacheEntries ∧
        getHostID c₁.nvmfHosts p.hostNqn = getHostID c₂.nvmfHosts p.hostNqn) := by
  have inv₁ := reach₁.inv
  have inv₂ := reach₂.inv
  by_cases nonempty : referrals.entries = []
  · rw [handleReferrals_empty nonempty, handleReferrals_empty nonempty, inv₁.samePair_iff inv₂, same]
    simp [nonempty]
  · rw [(handleReferrals_inv inv₁ hpair).samePair_iff (handleReferrals_inv inv₂ hpair)]
    simp only [handleReferrals_mem_entriesOf inv₁ nonempty hpair,
      handleReferrals_mem_entriesOf inv₂ nonempty hpair]
    have hkey : ∀ r ∈ referrals.entries,
        (c₁.HasKey (Referral.tkey r) ↔ c₂.HasKey (Referral.tkey r)) := by
      intro r hr
      exact Cache.hasKey_congr same (hpair r hr)
    constructor
    · intro h
      refine or_iff_not_imp_left.mpr fun hnew => ?_
      push Not at hnew
      obtain ⟨r, hr, hfresh⟩ := hnew
      have hadds : c₁.AddsEntry referrals
          (referralEntry (inheritedTMO c₁.cacheEntries) c₁.nvmfHosts r) := ⟨hfresh, r, hr, rfl⟩
      have htkey : (Referral.tkey r).pair = p := hpair r hr
      rcases (h _).mp (Or.inr hadds) with ⟨hold, -⟩ | hadds'
      · rw [← same] at hold
        exact absurd ((Cache.hasKey_iff_entriesOf htkey).mpr ⟨_, hold, rfl⟩) hfresh
      · exact hadds.settings_eq hpair hadds'
    · rintro (hpresent | ⟨htmo, hid⟩) e
      · have hpresent' : ∀ r ∈ referrals.entries, c₂.HasKey (Referral.tkey r) := by
          intro r hr
          exact (hkey r hr).mp (hpresent r hr)
        rw [same, or_iff_left (Cache.not_addsEntry hpresent e),
          or_iff_left (Cache.not_addsEntry hpresent' e)]
      · rw [same]
        exact or_congr_right ⟨.of_same hpair same htmo hid,
          .of_same hpair same.symm htmo.symm hid.symm⟩

def clusterFile (nqn ip tmo : String) : UserFile :=
  .content (ascii s!"-t tcp -a {ip} -s 8009 -q nqn.h -n {nqn} -l {tmo}") false

def loadFile (c : Cache) (file : UserFile) : Cache := (fileAdded (fun _ => true) .stored c file).1

/-- The cache of a host that uses one cluster. -/
def oneCluster : Cache := loadFile (newCache ∅) (clusterFile "nqn.c" "10.0.0.2" "30")

theorem oneCluster_reachable : Reachable oneCluster := .fileAdded _ _ _ (.empty ∅)

/-- The file of another cluster, loaded after that of the first. -/
def otherLast : Cache := loadFile oneCluster (clusterFile "nqn.b" "10.0.0.9" "60")

/-- The same two files, loaded in the other order. -/
def otherFirst : Cache :=
  loadFile (loadFile (newCache ∅) (clusterFile "nqn.b" "10.0.0.9" "60"))
    (clusterFile "nqn.c" "10.0.0.2" "30")

theorem otherLast_reachable : Reachable otherLast := .fileAdded _ _ _ oneCluster_reachable

theorem otherFirst_reachable : Reachable otherFirst :=
  .fileAdded _ _ _ (.fileAdded _ _ _ (.empty ∅))

def clusterEntry (nqn ip : String) (tmo : Int) : Entry :=
  { transport := ascii "tcp", trsvcid := 8009, traddr := ascii ip, hostnqn := ascii "nqn.h"
    subsysnqn := ascii nqn, entrySource := .user, ctrlLossTMO := some tmo }

theorem parse_clusterFile :
    parse (fun _ => true) (clusterFile "nqn.c" "10.0.0.2" "30") =
      .ok [clusterEntry "nqn.c" "10.0.0.2" 30] ∧
    parse (fun _ => true) (clusterFile "nqn.b" "10.0.0.9" "60") =
      .ok [clusterEntry "nqn.b" "10.0.0.9" 60] := by
  decide +kernel

theorem loadFile_of_parse {file : UserFile} {entries : List Entry}
    (h : parse (fun _ => true) file = .ok entries) (c : Cache) :
    loadFile c file = (addFileEntries c entries []).1 := by
  rw [loadFile, fileAdded, h]
  rfl

theorem oneCluster_eq :
    oneCluster = (addFileEntries (newCache ∅) [clusterEntry "nqn.c" "10.0.0.2" 30] []).1 :=
  loadFile_of_parse parse_clusterFile.1 _

theorem otherLast_eq :
    otherLast = (addFileEntries oneCluster [clusterEntry "nqn.b" "10.0.0.9" 60] []).1 :=
  loadFile_of_parse parse_clusterFile.2 _

theorem otherFirst_eq :
    otherFirst = (addFileEntries
      (addFileEntries (newCache ∅) [clusterEntry "nqn.b" "10.0.0.9" 60] []).1
      [clusterEntry "nqn.c" "10.0.0.2" 30] []).1 := by
  rw [otherFirst, loadFile_of_parse parse_clusterFile.1, loadFile_of_parse parse_clusterFile.2]

/-- One referral of the first cluster, to an endpoint the cache does not know. -/
def newEndpoint : ReferralMap :=
  (∅ : ReferralMap).insert ⟨ascii "10.0.0.3", 8009, ascii "nqn.c", ascii "nqn.h"⟩
    { trsvcID := 8009, subnqn := ascii "nqn.c", traddr := ascii "10.0.0.3", subType := 1 }

theorem cluster_isolation_iff_other_last :
    SamePair samplePair (handleReferrals .stored .stored oneCluster newEndpoint).cache
      (handleReferrals .stored .stored otherLast newEndpoint).cache := by
  refine (cluster_isolation_iff oneCluster_reachable otherLast_reachable ?_ ?_).mpr (Or.inr ?_)
  · rw [otherLast_eq, oneCluster_eq]
    decide +kernel
  · decide +kernel
  · rw [otherLast_eq, oneCluster_eq]
    decide +kernel

/-- The endpoint's timeout is the other cluster's if that cluster's file was loaded first. -/
theorem other_cluster_timeout :
    ¬∀ (c₁ c₂ : Cache) (p : ClientClusterPair) (referrals : ReferralMap)
      (addOrder₁ removeOrder₁ addOrder₂ removeOrder₂ : RangeOrder Referral),
      Reachable c₁ → Reachable c₂ → c₁.nvmfHosts = c₂.nvmfHosts → c₁.entriesOf p = c₂.entriesOf p →
      (∀ r ∈ referrals.entries, r.1.pair = p) →
      SamePair p (handleReferrals addOrder₁ removeOrder₁ c₁ referrals).cache
        (handleReferrals addOrder₂ removeOrder₂ c₂ referrals).cache := by
  intro h
  have hsame := h oneCluster otherFirst samplePair newEndpoint .stored .stored .stored .stored
    oneCluster_reachable otherFirst_reachable
    (by rw [oneCluster_eq, otherFirst_eq]; exact AList.ext (by decide +kernel))
    (by rw [oneCluster_eq, otherFirst_eq]; decide +kernel) (by decide +kernel)
  have hkey := hsame.2 ⟨ascii "tcp", ascii "10.0.0.3", 8009, ascii "nqn.c", ascii "nqn.h"⟩
  have hone : (handleReferrals .stored .stored oneCluster newEndpoint).cache.settings samplePair
      ⟨ascii "tcp", ascii "10.0.0.3", 8009, ascii "nqn.c", ascii "nqn.h"⟩ =
      some ([], some 30) := by
    rw [oneCluster_eq]
    decide +kernel
  have hother : (handleReferrals .stored .stored otherFirst newEndpoint).cache.settings samplePair
      ⟨ascii "tcp", ascii "10.0.0.3", 8009, ascii "nqn.c", ascii "nqn.h"⟩ =
      some ([], some 60) := by
    rw [otherFirst_eq]
    decide +kernel
  rw [hone, hother] at hkey
  exact absurd hkey (by decide)

end DiscoveryClient
