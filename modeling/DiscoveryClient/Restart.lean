import DiscoveryClient.PersistedEntries
import DiscoveryClient.ReferralConvergence
import DiscoveryClient.ReloadHistory

namespace DiscoveryClient

open GoString

/-- The cache and the `internal.json` it keeps. -/
structure Store where
  cache : Cache
  disk : InternalFile

inductive CacheOp
  | sync (adjustTraddr : GoString → Bool) (order : GoString → RangeOrder Entry) (userDir : UserDir)
  | event (adjustTraddr : GoString → Bool) (order : RangeOrder Entry) (op : EventOp)
      (base : GoString) (file : UserFile)
  | handleReferrals (addOrder removeOrder : RangeOrder Referral) (referrals : ReferralMap)

namespace CacheOp

def run (op : CacheOp) (c : Cache) (disk : InternalFile) : Outcome :=
  match op with
  | .sync adjustTraddr order userDir => DiscoveryClient.sync adjustTraddr order c disk userDir
  | .event adjustTraddr order op base file => onEvent adjustTraddr order c op base file
  | .handleReferrals addOrder removeOrder referrals =>
    DiscoveryClient.handleReferrals addOrder removeOrder c referrals

/-- A `sync` that did not fail, an event that adds a file, or the referrals of one pair. The events
of `Run` left out here change neither the cache nor the file. -/
def Completes (op : CacheOp) (c : Cache) (disk : InternalFile) : Prop :=
  match op with
  | .sync .. => (op.run c disk).err = none
  | .event _ _ op base _ =>
    (op = .create ∨ op = .rename) ∧ discoveryClientReservedPrefix.isPrefixOf base = false
  | .handleReferrals _ _ referrals => ∃ p, OnePair referrals p

end CacheOp

/-- The operation has ended, and the file it may have written is in place. -/
def Outcome.store (o : Outcome) (disk : InternalFile) (now : Int) : Store :=
  ⟨o.cache, if o.writesJson then createReferralsFile o.cache now else disk⟩

/-- There is a cache to operate on, or a new one is made first. -/
inductive StoreEvent
  | operate (op : CacheOp) (now : Int)
  | restart (nvmfHosts : GoMap GoString GoString) (op : CacheOp) (now : Int)

/-- Nothing to read stands at the path. -/
def InternalFile.Blank : InternalFile → Prop
  | .missing | .directory | .empty => True
  | .malformed | .referrals _ => False

/-- The runs of the cache with its file, whose writes all succeed. -/
def storeRuns : Machine Store StoreEvent where
  init s := s.disk.Blank ∧ ∃ nvmfHosts, s.cache = newCache nvmfHosts
  step s e s' :=
    match e with
    | .operate op now =>
      op.Completes s.cache s.disk ∧ s' = (op.run s.cache s.disk).store s.disk now
    | .restart nvmfHosts op now =>
      op.Completes (newCache nvmfHosts) s.disk ∧
        s' = (op.run (newCache nvmfHosts) s.disk).store s.disk now

/-- Every cached entry passes `verify` and has valid UTF-8 strings. -/
def SoundEntries (s : Store) : Prop :=
  ∀ e ∈ s.cache.cacheEntries, e.entry.verify = .ok () ∧ e.entry.ValidStrings

/-- The directory can be read, and no file that loads holds an entry. -/
def UserDir.NoEntries (userDir : UserDir) (adjustTraddr : GoString → Bool) : Prop :=
  ∃ files, userDir.files = some files ∧
    ∀ f ∈ files, f.isDir = false → ∀ es, parse adjustTraddr f.file = .ok es → es = []

/-- The file holds what the cache would write now; for an empty cache there may be none. -/
def Records (disk : InternalFile) (c : Cache) : Prop :=
  (disk.Blank ∧ c.cacheEntries = []) ∨
    ∃ now, disk = .referrals ⟨c.cacheEntries.map (·.entry.persisted), now⟩

structure Recorded (s : Store) : Prop where
  inv : CacheInv s.cache
  settled : Settled s.cache
  disk : Records s.disk s.cache

theorem createReferralsFile_records {c : Cache} {now : Int}
    (valid : ∀ e ∈ c.cacheEntries, e.entry.ValidStrings) :
    Records (createReferralsFile c now) c := by
  refine Or.inr ⟨now, ?_⟩
  have hmap : (c.cacheEntries.map fun e => e.entry.throughJson) =
      c.cacheEntries.map (·.entry.persisted) :=
    List.map_congr_left fun e he => Entry.throughJson_of_valid (valid e he)
  rw [createReferralsFile, hmap]

theorem Records.useInternalJson {disk : InternalFile} {c : Cache} {userDir : UserDir}
    {es : List Entry} (h : Records disk c)
    (hjson : useInternalJson disk userDir = .ok (some es)) :
    es = c.cacheEntries.map (·.entry.persisted) := by
  rcases h with ⟨hblank, -⟩ | ⟨now, rfl⟩
  · cases disk <;> simp [InternalFile.Blank, DiscoveryClient.useInternalJson] at hblank hjson
  · unfold DiscoveryClient.useInternalJson at hjson
    simp only at hjson
    repeat' split at hjson
    all_goals simp_all

theorem Records.not_used {disk : InternalFile} {c : Cache} {userDir : UserDir}
    (h : Records disk c) (hempty : c.cacheEntries = []) :
    DiscoveryClient.useInternalJson disk userDir = .ok none := by
  rcases h with ⟨hblank, -⟩ | ⟨now, rfl⟩
  · cases disk <;> simp [InternalFile.Blank, DiscoveryClient.useInternalJson] at hblank ⊢
  · simp [DiscoveryClient.useInternalJson, hempty]

theorem Records.used {disk : InternalFile} {c : Cache} {userDir : UserDir} (h : Records disk c)
    (hne : c.cacheEntries ≠ [])
    (older : ∀ refs, disk = .referrals refs →
      ∃ modTime, userDir.modTime = some modTime ∧ modTime ≤ refs.creationTime) :
    DiscoveryClient.useInternalJson disk userDir =
      .ok (some (c.cacheEntries.map (·.entry.persisted))) := by
  rcases h with ⟨-, hempty⟩ | ⟨now, rfl⟩
  · exact absurd hempty hne
  · obtain ⟨modTime, hmod, hle⟩ := older _ rfl
    have hnot : ¬now < modTime := Int.not_lt.mpr hle
    simp [DiscoveryClient.useInternalJson, hne, hmod, hnot]

theorem syncEntries_writesJson {c : Cache} {es : List Entry} {changed : List ClientClusterPair} :
    (syncEntries c es changed).writesJson = false := by
  fun_induction syncEntries c es changed with
  | case1 => rfl
  | case2 => rfl
  | case3 _ _ _ _ _ _ _ _ ih => exact ih
  | case4 _ _ _ _ _ _ _ _ ih => exact ih

theorem syncFiles_writesJson {adjustTraddr : GoString → Bool}
    {order : GoString → RangeOrder Entry} {c : Cache} {files : List DirEntry}
    {changed : List ClientClusterPair} :
    (syncFiles adjustTraddr order c files changed).writesJson = true := by
  fun_induction syncFiles adjustTraddr order c files changed with
  | case1 => rfl
  | case2 _ _ _ _ _ ih => exact ih
  | case3 _ _ _ _ _ _ _ _ ih => exact ih
  | case4 _ _ _ _ _ _ _ _ ih => exact ih

/-- A `sync` that completes has added the entries of `internal.json` and written nothing, or it has
added entries of the user's files and written the file. -/
theorem sync_completes {adjustTraddr : GoString → Bool} {order : GoString → RangeOrder Entry}
    {c : Cache} {disk : InternalFile} {userDir : UserDir} (inv : CacheInv c)
    (hjson : ∀ es, useInternalJson disk userDir = .ok (some es) → AllPersistent es)
    (h : (sync adjustTraddr order c disk userDir).err = none) :
    let o := sync adjustTraddr order c disk userDir
    (∃ es added, useInternalJson disk userDir = .ok (some es) ∧ Adds c es added o.cache ∧
      o.writesJson = false) ∨
    ∃ es added, Adds c es added o.cache ∧ (∀ e ∈ es, UserEntry e) ∧ o.writesJson = true := by
  unfold sync at h ⊢
  cases hint : useInternalJson disk userDir with
  | error err => simp [hint] at h
  | ok r =>
    cases r with
    | some es =>
      simp only [hint] at h ⊢
      obtain ⟨offered, added, adds, -, -, hok⟩ := @syncEntries_adds c es [] inv (hjson es hint)
      rw [(hok h).1] at adds
      exact Or.inl ⟨es, added, rfl, adds, syncEntries_writesJson⟩
    | none =>
      simp only [hint] at h ⊢
      cases hfiles : userDir.files with
      | none => simp [hfiles] at h
      | some files =>
        obtain ⟨es, added, adds, hes, -⟩ := @syncFiles_adds adjustTraddr order c files [] inv
        exact Or.inr ⟨es, added, adds, hes, syncFiles_writesJson⟩

theorem onEvent_writesJson {adjustTraddr : GoString → Bool} {order : RangeOrder Entry} {c : Cache}
    {op : EventOp} {base : GoString} {file : UserFile} (hop : op = .create ∨ op = .rename)
    (hbase : discoveryClientReservedPrefix.isPrefixOf base = false) :
    (onEvent adjustTraddr order c op base file).writesJson = true := by
  unfold onEvent
  rw [if_neg (by simp [hbase])]
  rcases hop with rfl | rfl
  all_goals
    rcases hf : fileAdded adjustTraddr order c file with ⟨c', (err | pairs)⟩
    all_goals simp

theorem Recorded.of_write {o : Outcome} {disk : InternalFile} {now : Int} (inv : CacheInv o.cache)
    (settled : Settled o.cache) (hwrite : o.writesJson = true)
    (sound : SoundEntries (o.store disk now)) : Recorded (o.store disk now) := by
  refine ⟨inv, settled, ?_⟩
  simp only [Outcome.store, hwrite, if_true]
  exact createReferralsFile_records fun e he => (sound e he).2

/-- A new cache takes the entries of the file as they are, up to the host ids. -/
theorem Recorded.reload {s : Store} {nvmfHosts : GoMap GoString GoString} {c : Cache}
    {added : List Entry} (recorded : Recorded s)
    (adds : Adds (newCache nvmfHosts) (s.cache.cacheEntries.map (·.entry.persisted)) added c) :
    c.cacheEntries.map (·.entry) =
      s.cache.cacheEntries.map fun x => maybeUpdateHostIDs nvmfHosts x.entry.persisted := by
  have hnodup : ((s.cache.cacheEntries.map (·.entry.persisted)).map Entry.tkey).Nodup := by
    rw [List.map_map]
    exact recorded.inv.keysNodup
  have hhistory : History (s.cache.cacheEntries.map (·.entry.persisted)) := by
    have h := history_persisted.mpr recorded.settled.history
    rwa [List.map_map] at h
  have h := adds.reload hnodup (by simp [Cache.HasKey, newCache]) hhistory
  rwa [List.map_map] at h

theorem Recorded.reload_settled {s : Store} {nvmfHosts : GoMap GoString GoString} {c : Cache}
    {added : List Entry}
    (adds : Adds (newCache nvmfHosts) (s.cache.cacheEntries.map (·.entry.persisted)) added c) :
    Settled c := by
  apply adds.settled (Settled.empty nvmfHosts)
  intro e he
  obtain ⟨x, -, rfl⟩ := List.mem_map.mp he
  rfl

/-- The entries of the file reach a cache that has them already, or a new one. -/
theorem Recorded.of_json {s : Store} {c c' : Cache} {added : List Entry} (recorded : Recorded s)
    (hc : c = s.cache ∨ ∃ nvmfHosts, c = newCache nvmfHosts)
    (adds : Adds c (s.cache.cacheEntries.map (·.entry.persisted)) added c') :
    Settled c' ∧ Records s.disk c' := by
  rcases hc with rfl | ⟨hosts, rfl⟩
  · have hadded : added = [] := by
      apply adds.of_present
      intro e he
      obtain ⟨x, hx, rfl⟩ := List.mem_map.mp he
      exact ⟨x, hx, rfl⟩
    subst hadded
    rw [adds.of_added_nil]
    exact ⟨recorded.settled, recorded.disk⟩
  · refine ⟨Recorded.reload_settled adds, ?_⟩
    have hpersisted : c'.cacheEntries.map (·.entry.persisted) =
        s.cache.cacheEntries.map (·.entry.persisted) := by
      have h := congrArg (List.map Entry.persisted) (recorded.reload adds)
      simpa [Function.comp_def, persisted_maybeUpdateHostIDs] using h
    rcases recorded.disk with ⟨hblank, hnil⟩ | ⟨now, hdisk⟩
    · rw [hnil] at hpersisted
      exact Or.inl ⟨hblank, by simpa using hpersisted⟩
    · exact Or.inr ⟨now, by rw [hpersisted, hdisk]⟩

theorem Passes.nothing_of_not_written {c middle : Cache} {referrals : ReferralMap}
    {p : ClientClusterPair} {added : List Entry} {removed : List CachedEntry} {o : Outcome}
    (passes : Passes c referrals p added middle removed o) (h : o.writesJson = false) :
    added = [] ∧ removed = [] := by
  have hnil : o.changed = [] := by simpa [passes.writesJson] using h
  have hp := passes.changed p
  rw [hnil] at hp
  simpa using hp

theorem Recorded.operation {s : Store} {c : Cache} {op : CacheOp} {now : Int} (recorded : Recorded s)
    (hc : c = s.cache ∨ ∃ nvmfHosts, c = newCache nvmfHosts) (done : op.Completes c s.disk)
    (sound : SoundEntries ((op.run c s.disk).store s.disk now)) :
    Recorded ((op.run c s.disk).store s.disk now) := by
  have inv : CacheInv c ∧ Settled c := by
    rcases hc with rfl | ⟨hosts, rfl⟩
    · exact ⟨recorded.inv, recorded.settled⟩
    · exact ⟨newCache_inv hosts, Settled.empty hosts⟩
  cases op with
  | sync adjustTraddr order userDir =>
    have hjson : ∀ es, useInternalJson s.disk userDir = .ok (some es) → AllPersistent es := by
      intro es h e he
      rw [recorded.disk.useInternalJson h] at he
      obtain ⟨x, hx, rfl⟩ := List.mem_map.mp he
      exact recorded.inv.persistent x hx
    rcases sync_completes inv.1 hjson done with ⟨es, added, hint, adds, hwrite⟩ |
        ⟨es, added, adds, hes, hwrite⟩
    · have hinv := adds.inv inv.1 (hjson es hint)
      rw [recorded.disk.useInternalJson hint] at adds
      obtain ⟨hsettled, hdisk⟩ := recorded.of_json hc adds
      refine ⟨hinv, hsettled, ?_⟩
      simpa only [Outcome.store, CacheOp.run, hwrite, Bool.false_eq_true, if_false] using hdisk
    · exact Recorded.of_write (adds.inv inv.1 fun e he => (hes e he).persistent)
        (adds.settled inv.2 fun e he => (hes e he).noEffectiveHostid) hwrite sound
  | event adjustTraddr order op base file =>
    obtain ⟨es, added, adds, hes, -⟩ := @onEvent_adds adjustTraddr order c op base file inv.1
    exact Recorded.of_write (adds.inv inv.1 fun e he => (hes e he).persistent)
      (adds.settled inv.2 fun e he => (hes e he).noEffectiveHostid)
      (onEvent_writesJson done.1 done.2) sound
  | handleReferrals addOrder removeOrder referrals =>
    obtain ⟨p, one⟩ := done
    obtain ⟨added, middle, removed, passes⟩ :=
      @handleReferrals_passes addOrder removeOrder c referrals p inv.1 one
    have hinv := (passes.inv inv.1).2
    have hsettled := passes.settled inv.1 inv.2 one
    cases hwrite : (handleReferrals addOrder removeOrder c referrals).writesJson with
    | true => exact Recorded.of_write hinv hsettled hwrite sound
    | false =>
      obtain ⟨hadded, hremoved⟩ := passes.nothing_of_not_written hwrite
      obtain ⟨rs, perm, adds⟩ := passes.adds
      subst hadded hremoved
      have hcache : (handleReferrals addOrder removeOrder c referrals).cache = c :=
        passes.cache.trans adds.of_added_nil
      refine ⟨hinv, hsettled, ?_⟩
      simp only [Outcome.store, CacheOp.run, hwrite, Bool.false_eq_true, if_false, hcache]
      rcases hc with rfl | ⟨hosts, rfl⟩
      · exact recorded.disk
      · obtain ⟨r, hr⟩ := List.exists_mem_of_ne_nil _ one.nonempty
        have hkey := (passes.hasKey inv.1).mpr (Or.inr ⟨r, hr, rfl⟩)
        rw [hcache] at hkey
        simp [Cache.HasKey, newCache] at hkey

theorem Recorded.of_run {past : List (Store × StoreEvent)} {s : Store}
    (run : storeRuns.Run past s) (sound : Machine.Always SoundEntries past s) : Recorded s := by
  induction run with
  | start h =>
    obtain ⟨hblank, hosts, hcache⟩ := h
    refine ⟨?_, ?_, Or.inl ⟨hblank, by rw [hcache]; rfl⟩⟩
    · rw [hcache]
      exact newCache_inv hosts
    · rw [hcache]
      exact Settled.empty hosts
  | @next past s e s' _ h ih =>
    obtain ⟨before, after⟩ := Machine.always_snoc.mp sound
    cases e with
    | operate op now =>
      obtain ⟨done, rfl⟩ := h
      exact Recorded.operation (ih before) (Or.inl rfl) done after
    | restart hosts op now =>
      obtain ⟨done, rfl⟩ := h
      exact Recorded.operation (ih before) (Or.inr ⟨hosts, rfl⟩) done after

theorem syncFiles_noEntries {adjustTraddr : GoString → Bool} {order : GoString → RangeOrder Entry}
    {c : Cache} {files : List DirEntry} {changed : List ClientClusterPair}
    (h : ∀ f ∈ files, f.isDir = false → ∀ es, parse adjustTraddr f.file = .ok es → es = []) :
    (syncFiles adjustTraddr order c files changed).cache = c := by
  induction files generalizing changed with
  | nil => rfl
  | cons f rest ih =>
    have hrest := fun changed => @ih changed (fun g hg => h g (by simp [hg]))
    by_cases hdir : f.isDir = true
    · rw [syncFiles, if_pos hdir]
      exact hrest changed
    · rw [syncFiles, if_neg hdir, fileAdded]
      cases hparse : parse adjustTraddr f.file with
      | error err => exact hrest changed
      | ok es =>
        rw [h f (by simp) (by simpa using hdir) es hparse]
        have hnil : (order f.name).order [] = [] := ((order f.name).perm []).eq_nil
        simp only [hnil, addFileEntries]
        exact hrest _

theorem restart_recovers {past : List (Store × StoreEvent)} {s : Store}
    (run : storeRuns.Run past s) (sound : Machine.Always SoundEntries past s)
    {adjustTraddr : GoString → Bool} {order : GoString → RangeOrder Entry} {userDir : UserDir}
    (older : ∀ refs, s.disk = .referrals refs →
      ∃ modTime, userDir.modTime = some modTime ∧ modTime ≤ refs.creationTime)
    (noEntries : s.cache.cacheEntries = [] → userDir.NoEntries adjustTraddr) :
    let o := sync adjustTraddr order (newCache s.cache.nvmfHosts) s.disk userDir
    o.err = none ∧
    o.cache.cacheEntries.map (·.entry) = s.cache.cacheEntries.map (·.entry) ∧
    SameConnections o.cache s.cache := by
  intro o
  have recorded := Recorded.of_run run sound
  by_cases hempty : s.cache.cacheEntries = []
  · obtain ⟨files, hfiles, hnone⟩ := noEntries hempty
    have hjson : useInternalJson s.disk userDir = .ok none := recorded.disk.not_used hempty
    have ho : o = syncFiles adjustTraddr order (newCache s.cache.nvmfHosts) files [] := by
      simp only [o, sync, hjson, hfiles]
    have hcache : o.cache = newCache s.cache.nvmfHosts := by
      rw [ho, syncFiles_noEntries hnone]
    have hentries : o.cache.cacheEntries.map (·.entry) = s.cache.cacheEntries.map (·.entry) := by
      rw [hcache, hempty]
      rfl
    refine ⟨by rw [ho, syncFiles_err], hentries, ?_⟩
    refine sameConnections_of_entries ?_ recorded.inv ?_ recorded.settled hentries
    · rw [hcache]
      exact newCache_inv _
    · rw [hcache]
      exact Settled.empty _
  · have hjson := recorded.disk.used hempty older
    have hpersistent : AllPersistent (s.cache.cacheEntries.map (·.entry.persisted)) := by
      intro e he
      obtain ⟨x, hx, rfl⟩ := List.mem_map.mp he
      exact recorded.inv.persistent x hx
    have ho : o = syncEntries (newCache s.cache.nvmfHosts)
        (s.cache.cacheEntries.map (·.entry.persisted)) [] := by
      simp only [o, sync, hjson]
    obtain ⟨offered, added, adds, -, herr, hok⟩ :=
      @syncEntries_adds (newCache s.cache.nvmfHosts) _ [] (newCache_inv _) hpersistent
    rw [← ho] at adds herr hok
    have hnone : o.err = none := by
      apply herr.mpr
      intro e he
      obtain ⟨x, hx, rfl⟩ := List.mem_map.mp he
      exact Entry.verify_ok_iff.mp (sound.2 x hx).1
    rw [(hok hnone).1] at adds
    have hentries : o.cache.cacheEntries.map (·.entry) = s.cache.cacheEntries.map (·.entry) := by
      rw [recorded.reload adds]
      exact List.map_congr_left recorded.settled.hostids
    exact ⟨hnone, hentries, sameConnections_of_entries (adds.inv (newCache_inv _) hpersistent)
      recorded.inv (Recorded.reload_settled adds) recorded.settled hentries⟩

theorem storeRuns_operate {past : List (Store × StoreEvent)} {s : Store}
    (run : storeRuns.Run past s) (op : CacheOp) (done : op.Completes s.cache s.disk) (now : Int) :
    storeRuns.Run (past ++ [(s, .operate op now)]) ((op.run s.cache s.disk).store s.disk now) :=
  run.next (show storeRuns.step s (.operate op now) _ from ⟨done, rfl⟩)

/-- The sample file is loaded, and then a discovery reports another endpoint instead. -/
def sampleStore : Store :=
  (handleReferrals .stored .stored sampleCache sampleReferrals).store
    (createReferralsFile sampleCache 5) 7

theorem sampleStore_run : ∃ past, storeRuns.Run past sampleStore ∧
    Machine.Always SoundEntries past sampleStore := by
  have start : storeRuns.Run [] ⟨newCache ∅, .missing⟩ := .start ⟨trivial, ∅, rfl⟩
  have loaded := storeRuns_operate start
    (.event (fun _ => true) .stored .create (ascii "a") sampleFile) ⟨Or.inl rfl, rfl⟩ 5
  have referred := storeRuns_operate loaded (.handleReferrals .stored .stored sampleReferrals)
    ⟨samplePair, sampleReferrals_onePair⟩ 7
  refine ⟨_, referred, ?_⟩
  simp only [Machine.always_snoc]
  refine ⟨⟨⟨by simp, ?_⟩, ?_⟩, ?_⟩
  · unfold SoundEntries Entry.ValidStrings
    decide +kernel
  · unfold SoundEntries Entry.ValidStrings
    decide +kernel
  · rw [sampleStore, sampleCache_eq]
    unfold SoundEntries Entry.ValidStrings
    decide +kernel

theorem restart_recovers_sample :
    sampleStore.cache.cacheEntries.map (fun x => (x.entry.traddr, x.entry.ctrlLossTMO)) =
      [(ascii "10.0.0.1", some 60)] ∧
    (sync (fun _ => true) (fun _ => .stored) (newCache ∅) sampleStore.disk
      ⟨some 6, none⟩).cache.cacheEntries.map (·.entry) =
        sampleStore.cache.cacheEntries.map (·.entry) := by
  obtain ⟨past, run, sound⟩ := sampleStore_run
  have hentries : sampleStore.cache.cacheEntries.map
      (fun x => (x.entry.traddr, x.entry.ctrlLossTMO)) = [(ascii "10.0.0.1", some 60)] := by
    rw [sampleStore, sampleCache_eq]
    decide +kernel
  refine ⟨hentries, (restart_recovers run sound ?_ ?_).2.1⟩
  · intro refs hrefs
    cases hrefs
    exact ⟨6, rfl, by decide⟩
  · intro h
    exact absurd h (by decide +kernel)

end DiscoveryClient
