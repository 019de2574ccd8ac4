import DiscoveryClient.CacheMetrics

namespace DiscoveryClient

open GoString

namespace Metered

/-- The gauge of entries is their number. -/
def Counted (s : Metered) : Prop := s.gauges.entriesTotal = s.cache.cacheEntries.length

/-- A connection with these labels is in the cache. -/
def Connected (c : Cache) (labels : ConnectionLabels) : Prop :=
  ∃ k : TKey, k.labels = labels ∧ k ∈ c.conns k.pair

/-- The gauge of connections is one for those in the cache and zero otherwise. -/
def ConnectionsRight (s : Metered) : Prop :=
  ∀ labels, (Connected s.cache labels → s.gauges.connections labels = 1) ∧
    (¬Connected s.cache labels → s.gauges.connections labels = 0)

/-- Every entry has the connection of its key. -/
def EntriesConnected (s : Metered) : Prop :=
  ∀ x ∈ s.cache.cacheEntries, x.entry.tkey ∈ s.cache.conns x.entry.pair

section Invariants

variable {s s' : Metered} {e : Entry}

theorem connected_labels {c : Cache} {k : TKey} : Connected c k.labels ↔ k ∈ c.conns k.pair := by
  constructor
  · rintro ⟨k', hlabels, hk⟩
    rwa [← TKey.labels_inj hlabels]
  · intro hk
    exact ⟨k, rfl, hk⟩

theorem connected_push {c : Cache} {e : Entry} {labels : ConnectionLabels} :
    Connected (c.push e) labels ↔ Connected c labels ∨ labels = e.tkey.labels := by
  constructor
  · rintro ⟨k, rfl, hk⟩
    rcases Cache.mem_push_conns.mp hk with hk | ⟨-, rfl⟩
    · exact Or.inl ⟨k, rfl, hk⟩
    · exact Or.inr rfl
  · rintro (⟨k, hlabels, hk⟩ | rfl)
    · exact ⟨k, hlabels, Cache.mem_push_conns.mpr (Or.inl hk)⟩
    · exact ⟨e.tkey, rfl, Cache.mem_push_conns.mpr (Or.inr ⟨rfl, rfl⟩)⟩

theorem Counted.addEntry (h : Counted s) (e : Entry) : Counted (s.addEntry e).1 := by
  unfold Counted at h
  rcases addEntry_any s e with ⟨-, hadd⟩ | ⟨-, hadd⟩ | ⟨-, hadd⟩
  · rw [hadd]
    exact h
  · rw [hadd, Counted, Cache.push_entries, List.length_append]
    simp [Gauges.incConnections, Gauges.addEntriesTotal, h]
  · rw [hadd, Counted, Cache.appendEntry_entries, List.length_append]
    simp [Gauges.addEntriesTotal, h]

theorem Counted.deleteEntry (h : Counted s) (e : CachedEntry) : Counted (s.deleteEntry e) := by
  unfold Metered.deleteEntry
  split
  next hany =>
    obtain ⟨x, hx, haddr⟩ := List.any_eq_true.mp hany
    have hlen : (s.cache.cacheEntries.eraseP (·.addr == e.addr)).length =
        s.cache.cacheEntries.length - 1 := List.length_eraseP_of_mem hx haddr
    have hpos := List.length_pos_of_mem hx
    unfold Counted at h ⊢
    rw [DiscoveryClient.deleteEntry, if_pos hany]
    simp only [Gauges.addEntriesTotal, hlen, h]
    omega
  next => exact h

theorem ConnectionsRight.addEntry (h : ConnectionsRight s) (e : Entry) :
    ConnectionsRight (s.addEntry e).1 := by
  rcases addEntry_any s e with ⟨-, hadd⟩ | ⟨hlacks, hadd⟩ | ⟨-, hadd⟩
  · rw [hadd]
    exact h
  · rw [hadd]
    intro labels
    obtain ⟨hone, hzero⟩ := h labels
    have hnot : ¬Connected s.cache e.tkey.labels := fun hk => hlacks.1 (connected_labels.mp hk)
    simp only [connected_push, Gauges.incConnections, Gauges.addEntriesTotal]
    by_cases hlabels : labels = e.tkey.labels
    · subst hlabels
      simp [hzero hnot]
    · simpa [hlabels] using ⟨hone, hzero⟩
  · rw [hadd]
    exact h

theorem EntriesConnected.addEntry (h : EntriesConnected s) (e : Entry) :
    EntriesConnected (s.addEntry e).1 := by
  rcases addEntry_any s e with ⟨-, hadd⟩ | ⟨-, hadd⟩ | ⟨hconflict, hadd⟩
  · rw [hadd]
    exact h
  · rw [hadd]
    intro x hx
    rw [Cache.mem_push_conns]
    rw [Cache.push_entries, List.mem_append, List.mem_singleton] at hx
    rcases hx with hx | rfl
    · exact Or.inl (h x hx)
    · exact Or.inr ⟨Cache.stored_pair _ _, Cache.stored_tkey _ _⟩
  · rw [hadd]
    intro x hx
    rw [Cache.appendEntry_entries, List.mem_append, List.mem_singleton] at hx
    rcases hx with hx | rfl
    · exact h x hx
    · have hconn := hconflict.1
      rw [← Cache.stored_tkey s.cache, ← Cache.stored_pair s.cache] at hconn
      exact hconn

theorem deleteEntry_connections (s : Metered) (e : CachedEntry) :
    (s.deleteEntry e).gauges.connections = s.gauges.connections := by
  unfold Metered.deleteEntry
  split <;> rfl

theorem deleteEntries_connections (s : Metered) (es : List CachedEntry) :
    (s.deleteEntries es).gauges.connections = s.gauges.connections := by
  induction es generalizing s with
  | nil => rfl
  | cons e es ih =>
    rw [Metered.deleteEntries, List.foldl_cons, ← Metered.deleteEntries, ih, deleteEntry_connections]

theorem Counted.deleteEntries (h : Counted s) (es : List CachedEntry) :
    Counted (s.deleteEntries es) := by
  induction es generalizing s with
  | nil => exact h
  | cons e es ih => exact ih (h.deleteEntry e)

theorem deleteEntry_conns {e : CachedEntry} {p : ClientClusterPair} {k : TKey}
    (hk : k ∈ (s.deleteEntry e).cache.conns p) :
    k ∈ s.cache.conns p ∧ (e ∈ s.cache.cacheEntries → ¬(p = e.entry.pair ∧ k = e.entry.tkey)) := by
  unfold Metered.deleteEntry at hk
  split at hk
  next hany =>
    rw [DiscoveryClient.deleteEntry, if_pos hany, Cache.conns,
      ConnectionMap.cluster_deleteConnection] at hk
    split at hk
    next hp =>
      rw [AList.mem_erase] at hk
      exact ⟨hk.2, fun _ hboth => hk.1 hboth.2⟩
    next hp => exact ⟨hk, fun _ hboth => hp hboth.1⟩
  next hany =>
    refine ⟨hk, fun he => absurd ?_ hany⟩
    exact List.any_eq_true.mpr ⟨e, he, by simp⟩

theorem deleteEntries_conns {es : List CachedEntry} {p : ClientClusterPair} {k : TKey}
    (hk : k ∈ (s.deleteEntries es).cache.conns p) : k ∈ s.cache.conns p := by
  induction es generalizing s with
  | nil => exact hk
  | cons e es ih => exact (deleteEntry_conns (ih hk)).1

/-- A deleted connection is still counted. -/
theorem not_connectionsRight_delete (h : ConnectionsRight s) (hc : EntriesConnected s)
    {x : CachedEntry} {es : List CachedEntry} (hx : x ∈ s.cache.cacheEntries) :
    ¬ConnectionsRight (s.deleteEntries (x :: es)) := by
  intro hafter
  have hbefore := (h x.entry.tkey.labels).1 (connected_labels.mpr (hc x hx))
  have hgone : ¬Connected (s.deleteEntries (x :: es)).cache x.entry.tkey.labels := by
    rw [connected_labels]
    intro hk
    exact (deleteEntry_conns (deleteEntries_conns hk)).2 hx ⟨rfl, rfl⟩
  have hzero := (hafter _).2 hgone
  rw [deleteEntries_connections, hbefore] at hzero
  exact absurd hzero (by decide)

end Invariants

end Metered

/-- The operations of a running cache. -/
inductive MeteredOp
  | fileAdded (adjustTraddr : GoString → Bool) (order : RangeOrder Entry) (file : UserFile)
  | sync (adjustTraddr : GoString → Bool) (order : GoString → RangeOrder Entry)
      (internal : InternalFile) (userDir : UserDir)
  | handleReferrals (addOrder removeOrder : RangeOrder Referral) (referrals : ReferralMap)

def MeteredOp.run (s : Metered) : MeteredOp → Metered
  | .fileAdded adjustTraddr order file => s.fileAdded adjustTraddr order file
  | .sync adjustTraddr order internal userDir => s.sync adjustTraddr order internal userDir
  | .handleReferrals addOrder removeOrder referrals =>
    s.handleReferrals addOrder removeOrder referrals

/-- A process with its gauges, from the start on. -/
def meteredMachine : Machine Metered MeteredOp where
  init s := ∃ nvmfHosts, s = ⟨newCache nvmfHosts, {}⟩
  step s op s' := s' = op.run s

/-- A referral stands for the entry. -/
def NamedBy (rs : List Referral) (e : Entry) : Prop :=
  ∃ r ∈ rs, (getEntryFromReferral r).tkey = e.tkey ∧ e.persistent = true

/-- The referrals name every cached entry of the pair they are for. -/
def LeavesNoneOut (s : Metered) : MeteredOp → Prop
  | .handleReferrals _ removeOrder referrals =>
    referrals.entries ≠ [] → ∀ pair,
      currentPair {} (removeOrder.order referrals.entries) = .ok pair →
      ∀ x ∈ s.cache.cacheEntries, x.entry.pair = pair → NamedBy referrals.entries x.entry
  | .fileAdded .. | .sync .. => True

section Referrals

variable {s : Metered} {rs : List Referral} {x : CachedEntry}

theorem existEntry_referrals {e : Entry} :
    existEntry e (rs.map getEntryFromReferral) = true ↔ NamedBy rs e := by
  simp only [existEntry, List.any_map, List.any_eq_true, Function.comp_apply, Entry.compare_iff,
    NamedBy]
  constructor
  · rintro ⟨r, hr, hkey, hflag⟩
    exact ⟨r, hr, hkey.symm, hflag⟩
  · rintro ⟨r, hr, hkey, hflag⟩
    exact ⟨r, hr, hkey.symm, hflag⟩

theorem mem_entriesToRemove_any {c : Cache} {pair : ClientClusterPair} :
    x ∈ entriesToRemove c (rs.map getEntryFromReferral) pair ↔
      x ∈ c.cacheEntries ∧ x.entry.pair = pair ∧ ¬NamedBy rs x.entry := by
  have hpair : x.entry.pair = pair ↔
      x.entry.hostnqn = pair.hostNqn ∧ x.entry.subsysnqn = pair.clusterNqn := by
    cases pair
    simp [Entry.pair, and_comm]
  rw [entriesToRemove, List.mem_filter, hpair, ← existEntry_referrals]
  simp only [Bool.and_eq_true, Bool.not_eq_true', beq_iff_eq, Bool.not_eq_true]
  tauto

/-- The pass that adds keeps every entry and adds only entries that a referral stands for. -/
theorem mem_addReferrals (s : Metered) (rs : List Referral) :
    (∀ x ∈ s.cache.cacheEntries, x ∈ (s.addReferrals rs).cache.cacheEntries) ∧
      ∀ x ∈ (s.addReferrals rs).cache.cacheEntries,
        x ∈ s.cache.cacheEntries ∨ NamedBy rs x.entry := by
  induction rs generalizing s with
  | nil => exact ⟨fun x hx => hx, fun x hx => Or.inl hx⟩
  | cons r rs ih =>
    have hadd : ∀ x, x ∈ (s.addEntry (getEntryFromReferral r)).1.cache.cacheEntries →
        x ∈ s.cache.cacheEntries ∨ NamedBy (r :: rs) x.entry := by
      intro x hx
      have hnew : x ∈ s.cache.cacheEntries ++
          [⟨s.cache.next, s.cache.stored (getEntryFromReferral r)⟩] →
          x ∈ s.cache.cacheEntries ∨ NamedBy (r :: rs) x.entry := by
        intro hx
        rw [List.mem_append, List.mem_singleton] at hx
        rcases hx with hx | rfl
        · exact Or.inl hx
        · refine Or.inr ⟨r, List.mem_cons_self, ?_, ?_⟩
          · rw [Cache.stored_tkey]
          · rw [Cache.stored_persistent]
            rfl
      rcases s.addEntry_any (getEntryFromReferral r) with ⟨-, h⟩ | ⟨-, h⟩ | ⟨-, h⟩
      · rw [h] at hx
        exact Or.inl hx
      · rw [h] at hx
        exact hnew hx
      · rw [h] at hx
        exact hnew hx
    have hkeep : ∀ x ∈ s.cache.cacheEntries,
        x ∈ (s.addEntry (getEntryFromReferral r)).1.cache.cacheEntries := by
      intro x hx
      rcases s.addEntry_any (getEntryFromReferral r) with ⟨-, h⟩ | ⟨-, h⟩ | ⟨-, h⟩
      · rwa [h]
      · rw [h]
        exact List.mem_append_left _ hx
      · rw [h]
        exact List.mem_append_left _ hx
    obtain ⟨hold, hnew⟩ := ih (s.addEntry (getEntryFromReferral r)).1
    refine ⟨fun x hx => hold x (hkeep x hx), ?_⟩
    intro x hx
    rcases hnew x hx with hx | ⟨r', hr', hnamed⟩
    · exact hadd x hx
    · exact Or.inr ⟨r', List.mem_cons_of_mem r hr', hnamed⟩

open Metered in
/-- A pass over the referrals keeps the gauges right exactly when it deletes nothing. -/
theorem handleReferrals_right_iff (addOrder removeOrder : RangeOrder Referral)
    (referrals : ReferralMap) (h : ConnectionsRight s) (hc : EntriesConnected s) :
    (ConnectionsRight (s.handleReferrals addOrder removeOrder referrals) ↔
        LeavesNoneOut s (.handleReferrals addOrder removeOrder referrals)) ∧
      (ConnectionsRight (s.handleReferrals addOrder removeOrder referrals) →
        EntriesConnected (s.handleReferrals addOrder removeOrder referrals)) := by
  unfold Metered.handleReferrals
  split
  next hempty => exact ⟨by simp [LeavesNoneOut, hempty, h], fun _ => hc⟩
  next hne =>
    have hgrows := addReferrals_grows s (addOrder.order referrals.entries)
    have hmiddle := hgrows.preserves h fun _ e ht => ht.addEntry e
    have hcmiddle := hgrows.preserves hc fun _ e ht => ht.addEntry e
    obtain ⟨hold, hnew⟩ := mem_addReferrals s (addOrder.order referrals.entries)
    generalize s.addReferrals (addOrder.order referrals.entries) = m at *
    simp only
    cases hpair : currentPair {} (removeOrder.order referrals.entries) with
    | error err => exact ⟨by simp [LeavesNoneOut, hpair, hmiddle], fun _ => hcmiddle⟩
    | ok pair =>
      simp only
      have hremove : ∀ x, x ∈ entriesToRemove m.cache
          ((removeOrder.order referrals.entries).map getEntryFromReferral) pair ↔
          x ∈ m.cache.cacheEntries ∧ x.entry.pair = pair ∧
            ¬NamedBy referrals.entries x.entry := by
        intro x
        rw [mem_entriesToRemove_any]
        simp only [NamedBy, RangeOrder.mem_order]
      cases hes : entriesToRemove m.cache
          ((removeOrder.order referrals.entries).map getEntryFromReferral) pair with
      | nil =>
        rw [hes] at hremove
        refine ⟨iff_of_true hmiddle ?_, fun _ => hcmiddle⟩
        intro _ pair' hpair' x hx hxp
        rw [hpair] at hpair'
        cases Except.ok.inj hpair'
        by_contra hnot
        exact List.not_mem_nil ((hremove x).mpr ⟨hold x hx, hxp, hnot⟩)
      | cons x es =>
        rw [hes] at hremove
        obtain ⟨hx, hxp, hnot⟩ := (hremove x).mp List.mem_cons_self
        have hbad : ¬ConnectionsRight (m.deleteEntries (x :: es)) :=
          not_connectionsRight_delete hmiddle hcmiddle hx
        refine ⟨iff_of_false hbad ?_, fun hright => absurd hright hbad⟩
        intro hnone
        rcases hnew x hx with hx | ⟨r, hr, hnamed⟩
        · exact hnot (hnone hne pair hpair x hx hxp)
        · exact hnot ⟨r, addOrder.mem_order.mp hr, hnamed⟩

end Referrals

open Metered in
theorem MeteredOp.run_counted (op : MeteredOp) {s : Metered} (h : Counted s) : Counted (op.run s) := by
  cases op with
  | fileAdded adjustTraddr order file =>
    exact (fileAdded_grows adjustTraddr order s file).preserves h fun _ e ht => ht.addEntry e
  | sync adjustTraddr order internal userDir =>
    exact (sync_grows adjustTraddr order s internal userDir).preserves h
      fun _ e ht => ht.addEntry e
  | handleReferrals addOrder removeOrder referrals =>
    change Counted (s.handleReferrals addOrder removeOrder referrals)
    unfold Metered.handleReferrals
    split
    next => exact h
    next =>
      have hmiddle := (addReferrals_grows s (addOrder.order referrals.entries)).preserves h
        fun _ e ht => ht.addEntry e
      simp only
      cases currentPair {} (removeOrder.order referrals.entries) with
      | error err => exact hmiddle
      | ok pair => exact hmiddle.deleteEntries _

open Metered in
/-- In every run the gauge of entries is right; the gauge of connections stays right exactly as
long as no referrals leave out a cached entry of their pair. -/
theorem gauges_right_iff {past : List (Metered × MeteredOp)} {s : Metered}
    (run : meteredMachine.Run past s) :
    Machine.Always Counted past s ∧
      (Machine.Always ConnectionsRight past s ↔ Machine.Each LeavesNoneOut past) := by
  refine ⟨run.always ?_ ?_, run.always_iff_each (J := EntriesConnected) ?_ ?_⟩
  · rintro s ⟨nvmfHosts, rfl⟩
    rfl
  · rintro s op s' hs rfl
    exact op.run_counted hs
  · rintro s ⟨nvmfHosts, rfl⟩
    refine ⟨fun labels => ⟨?_, fun _ => rfl⟩, by simp [EntriesConnected, newCache]⟩
    rintro ⟨k, -, hk⟩
    simp [newCache, Cache.conns, ConnectionMap.cluster] at hk
  · rintro s op s' hs hc rfl
    cases op with
    | fileAdded adjustTraddr order file =>
      have hgrows := fileAdded_grows adjustTraddr order s file
      have hright := hgrows.preserves hs fun _ e ht => ht.addEntry e
      have hconn := hgrows.preserves hc fun _ e ht => ht.addEntry e
      exact ⟨iff_of_true hright trivial, fun _ => hconn⟩
    | sync adjustTraddr order internal userDir =>
      have hgrows := sync_grows adjustTraddr order s internal userDir
      have hright := hgrows.preserves hs fun _ e ht => ht.addEntry e
      have hconn := hgrows.preserves hc fun _ e ht => ht.addEntry e
      exact ⟨iff_of_true hright trivial, fun _ => hconn⟩
    | handleReferrals addOrder removeOrder referrals =>
      exact handleReferrals_right_iff addOrder removeOrder referrals hs hc

/-- A process that has just started. -/
def freshProcess : Metered := ⟨newCache ∅, {}⟩

/-- Loading the sample file. -/
def loadSample : MeteredOp := .fileAdded (fun _ => true) .stored sampleFile

theorem loadSample_eq :
    loadSample.run freshProcess = freshProcess.addFileEntries [fileEntry] := by
  change freshProcess.fileAdded (fun _ => true) .stored sampleFile = _
  rw [Metered.fileAdded, parse_sampleFile]
  rfl

theorem loadSample_run :
    meteredMachine.Run [(freshProcess, loadSample)] (loadSample.run freshProcess) := by
  have hinit : meteredMachine.init freshProcess := ⟨∅, rfl⟩
  exact .next (.start hinit) rfl

/-- Referrals that name the endpoint of the file beside another. -/
def moreReferrals : MeteredOp := .handleReferrals .stored .stored twoReferrals

theorem moreReferrals_leavesNoneOut :
    LeavesNoneOut (loadSample.run freshProcess) moreReferrals := by
  have hnamed : ∀ x ∈ (loadSample.run freshProcess).cache.cacheEntries,
      ∃ r ∈ twoReferrals.entries, (getEntryFromReferral r).tkey = x.entry.tkey ∧
        x.entry.persistent = true := by
    rw [loadSample_eq]
    decide +kernel
  exact fun _ _ _ x hx _ => hnamed x hx

theorem gauges_right_iff_loadSample :
    Metered.ConnectionsRight (moreReferrals.run (loadSample.run freshProcess)) ∧
      (moreReferrals.run (loadSample.run freshProcess)).cache.cacheEntries.length = 2 := by
  have hrun := loadSample_run.next (e := moreReferrals) rfl
  refine ⟨((gauges_right_iff hrun).2.mpr ?_).2, ?_⟩
  · refine Machine.each_snoc.mpr ⟨?_, moreReferrals_leavesNoneOut⟩
    simp [Machine.Each, LeavesNoneOut, loadSample]
  · rw [loadSample_eq]
    decide +kernel

/-- Referrals for the cluster of the sample file that do not name its endpoint. -/
def otherReferrals : MeteredOp :=
  .handleReferrals .stored .stored
    ((∅ : ReferralMap).insert ⟨ascii "10.0.0.3", 8009, ascii "nqn.c", ascii "nqn.h"⟩
      { trsvcID := 8009, subnqn := [], traddr := ascii "10.0.0.3", subType := 1 })

/-- The connection of the file is gone, and still counted. -/
theorem gauge_counts_deleted :
    ¬∀ past s, meteredMachine.Run past s → Metered.Counted s ∧ Metered.ConnectionsRight s := by
  intro h
  have hrun := loadSample_run.next (e := otherReferrals) rfl
  have hright := (h _ _ hrun).2
    (TKey.labels ⟨ascii "tcp", ascii "10.0.0.2", 8009, ascii "nqn.c", ascii "nqn.h"⟩)
  have hgone : ⟨ascii "tcp", ascii "10.0.0.2", 8009, ascii "nqn.c", ascii "nqn.h"⟩ ∉
      (otherReferrals.run (loadSample.run freshProcess)).cache.conns samplePair := by
    rw [loadSample_eq]
    decide +kernel
  have hzero := hright.2 fun hk => hgone (Metered.connected_labels.mp hk)
  have hone : (otherReferrals.run (loadSample.run freshProcess)).gauges.connections
      (TKey.labels ⟨ascii "tcp", ascii "10.0.0.2", 8009, ascii "nqn.c", ascii "nqn.h"⟩) = 1 := by
    rw [loadSample_eq]
    decide +kernel
  rw [hzero] at hone
  exact absurd hone (by decide)

end DiscoveryClient
