import DiscoveryClient.AddEntryAtomic
import DiscoveryClient.GoDecimal

namespace DiscoveryClient

open GoString

/-- The label values of `metrics.Metrics.Connections`. -/
structure ConnectionLabels where
  trtype : GoString
  traddr : GoString
  trsvcid : GoString
  nqn : GoString
  hostnqn : GoString
deriving DecidableEq, Repr

/-- The labels a connection is counted under; its host NQN is the one of its key. -/
def TKey.labels (key : TKey) : ConnectionLabels :=
  ⟨key.transport, key.ip, formatInt key.port, key.nqn, key.hostnqn⟩

theorem TKey.labels_inj {k k' : TKey} (h : k.labels = k'.labels) : k = k' := by
  obtain ⟨htransport, hip, hport, hnqn, hhost⟩ := ConnectionLabels.mk.inj h
  have hport := formatInt_inj hport
  cases k
  cases k'
  simp_all

/-- The two gauges that the cache moves. -/
structure Gauges where
  entriesTotal : Int := 0
  connections : ConnectionLabels → Int := fun _ => 0

def Gauges.addEntriesTotal (g : Gauges) (n : Int) : Gauges :=
  { g with entriesTotal := g.entriesTotal + n }

def Gauges.incConnections (g : Gauges) (labels : ConnectionLabels) : Gauges :=
  { g with connections := fun l => if l = labels then g.connections l + 1 else g.connections l }

/-- A cache with the gauges of its process. -/
structure Metered where
  cache : Cache
  gauges : Gauges

namespace Metered

/-- `addEntry`: an entry is counted when it is appended, a connection when it is made. -/
def addEntry (s : Metered) (newEntry : Entry) : Metered × Except CacheError ClientClusterPair :=
  let (c, result) := DiscoveryClient.addEntry s.cache newEntry
  if existEntry newEntry (s.cache.cacheEntries.map (·.entry)) then (⟨c, s.gauges⟩, result)
  else
    match result with
    | .ok pair =>
      (⟨c, (s.gauges.addEntriesTotal 1).incConnections newEntry.tkey.labels⟩, .ok pair)
    | .error err => (⟨c, s.gauges.addEntriesTotal 1⟩, .error err)

def addFileEntries : Metered → List Entry → Metered
  | s, [] => s
  | s, newEntry :: rest =>
    match s.addEntry newEntry.asPersistent with
    | (s, .error _) => s
    | (s, .ok _) => addFileEntries s rest

def fileAdded (adjustTraddr : GoString → Bool) (order : RangeOrder Entry) (s : Metered)
    (file : UserFile) : Metered :=
  match parse adjustTraddr file with
  | .error _ => s
  | .ok newEntries => s.addFileEntries (order.order newEntries)

def addReferrals : Metered → List Referral → Metered
  | s, [] => s
  | s, r :: rest => addReferrals (s.addEntry (getEntryFromReferral r)).1 rest

/-- `deleteEntry`: the entry is no longer counted, its connection still is. -/
def deleteEntry (s : Metered) (e : CachedEntry) : Metered :=
  if s.cache.cacheEntries.any (·.addr == e.addr) then
    ⟨(DiscoveryClient.deleteEntry s.cache e).1, s.gauges.addEntriesTotal (-1)⟩
  else s

def deleteEntries (s : Metered) (es : List CachedEntry) : Metered := es.foldl deleteEntry s

def handleReferrals (addOrder removeOrder : RangeOrder Referral) (s : Metered)
    (referrals : ReferralMap) : Metered :=
  if referrals.entries = [] then s
  else
    let s := s.addReferrals (addOrder.order referrals.entries)
    let ranged := removeOrder.order referrals.entries
    match currentPair {} ranged with
    | .error _ => s
    | .ok pair =>
      s.deleteEntries (entriesToRemove s.cache (ranged.map getEntryFromReferral) pair)

def syncEntries : Metered → List Entry → Metered
  | s, [] => s
  | s, e :: rest =>
    match e.verify with
    | .error _ => s
    | .ok () => syncEntries (s.addEntry e).1 rest

def syncFiles (adjustTraddr : GoString → Bool) (order : GoString → RangeOrder Entry) :
    Metered → List DirEntry → Metered
  | s, [] => s
  | s, f :: rest =>
    if f.isDir then syncFiles adjustTraddr order s rest
    else syncFiles adjustTraddr order (s.fileAdded adjustTraddr (order f.name) f.file) rest

def sync (adjustTraddr : GoString → Bool) (order : GoString → RangeOrder Entry) (s : Metered)
    (internal : InternalFile) (userDir : UserDir) : Metered :=
  match useInternalJson internal userDir with
  | .error _ => s
  | .ok (some jsonEntries) => s.syncEntries jsonEntries
  | .ok none =>
    match userDir.files with
    | none => s
    | some userFiles => s.syncFiles adjustTraddr order userFiles

section Cache

variable {s : Metered} {e : Entry}

/-- What the metered `addEntry` does to the cache and to the gauges. -/
theorem addEntry_any (s : Metered) (e : Entry) :
    (s.cache.HasEntry e ∧ s.addEntry e = (s, .ok {})) ∨
      (s.cache.Lacks e ∧ s.addEntry e =
        (⟨s.cache.push e, (s.gauges.addEntriesTotal 1).incConnections e.tkey.labels⟩,
          .ok e.pair)) ∨
      (s.cache.Conflicts e ∧ s.addEntry e =
        (⟨s.cache.appendEntry (s.cache.stored e), s.gauges.addEntriesTotal 1⟩,
          .error .connectionInCache)) := by
  rcases DiscoveryClient.addEntry_any s.cache e with
    ⟨hentry, hadd⟩ | ⟨hlacks, hadd⟩ | ⟨hconflict, hadd⟩
  · refine Or.inl ⟨hentry, ?_⟩
    rw [Metered.addEntry, hadd]
    simp only [existEntry_iff_hasEntry.mpr hentry, if_true]
  · refine Or.inr (Or.inl ⟨hlacks, ?_⟩)
    rw [Metered.addEntry, hadd]
    simp only [existEntry_iff_hasEntry, hlacks.2, if_false]
  · refine Or.inr (Or.inr ⟨hconflict, ?_⟩)
    rw [Metered.addEntry, hadd]
    simp only [existEntry_iff_hasEntry, hconflict.2, if_false]

/-- Counting changes nothing in the cache. -/
theorem addEntry_eq (s : Metered) (e : Entry) :
    ((s.addEntry e).1.cache, (s.addEntry e).2) = DiscoveryClient.addEntry s.cache e := by
  unfold Metered.addEntry
  rcases DiscoveryClient.addEntry s.cache e with ⟨c, err | pair⟩
  · simp only
    split <;> rfl
  · simp only
    split <;> rfl

theorem cache_addFileEntries (s : Metered) (es : List Entry) (pairs : List ClientClusterPair) :
    (s.addFileEntries es).cache = (DiscoveryClient.addFileEntries s.cache es pairs).1 := by
  induction es generalizing s pairs with
  | nil => rfl
  | cons e es ih =>
    have heq := addEntry_eq s e.asPersistent
    rw [Metered.addFileEntries]
    rcases hadd : s.addEntry e.asPersistent with ⟨s', err | pair⟩
    · rw [hadd] at heq
      rw [addFileEntries_error heq.symm]
    · rw [hadd] at heq
      rw [addFileEntries_ok heq.symm]
      exact ih s' _

theorem cache_fileAdded (adjustTraddr : GoString → Bool) (order : RangeOrder Entry) (s : Metered)
    (file : UserFile) : (s.fileAdded adjustTraddr order file).cache =
      (DiscoveryClient.fileAdded adjustTraddr order s.cache file).1 := by
  unfold Metered.fileAdded DiscoveryClient.fileAdded
  cases parse adjustTraddr file with
  | error failure => rfl
  | ok newEntries => exact cache_addFileEntries s _ []

theorem cache_addReferrals (s : Metered) (rs : List Referral) (pairs : List ClientClusterPair) :
    (s.addReferrals rs).cache = (DiscoveryClient.addReferrals s.cache rs pairs).1 := by
  induction rs generalizing s pairs with
  | nil => rfl
  | cons r rs ih =>
    have heq := addEntry_eq s (getEntryFromReferral r)
    rw [Metered.addReferrals, DiscoveryClient.addReferrals, ← heq]
    rcases s.addEntry (getEntryFromReferral r) with ⟨s', err | pair⟩
    · exact ih s' _
    · exact ih s' _

theorem cache_deleteEntry (s : Metered) (e : CachedEntry) :
    (s.deleteEntry e).cache = (DiscoveryClient.deleteEntry s.cache e).1 := by
  unfold Metered.deleteEntry
  split
  next => rfl
  next h => rw [DiscoveryClient.deleteEntry, if_neg h]

theorem cache_deleteEntries (s : Metered) (es : List CachedEntry)
    (pairs : List ClientClusterPair) :
    (s.deleteEntries es).cache = (DiscoveryClient.deleteEntries s.cache es pairs).1 := by
  induction es generalizing s pairs with
  | nil => rfl
  | cons e es ih =>
    have heq := cache_deleteEntry s e
    rw [Metered.deleteEntries, List.foldl_cons, ← Metered.deleteEntries, DiscoveryClient.deleteEntries]
    rcases hdelete : DiscoveryClient.deleteEntry s.cache e with ⟨c, err | pair⟩
    · obtain rfl : (s.deleteEntry e).cache = c := by rw [heq, hdelete]
      exact ih _ _
    · obtain rfl : (s.deleteEntry e).cache = c := by rw [heq, hdelete]
      exact ih _ _

theorem cache_handleReferrals (addOrder removeOrder : RangeOrder Referral) (s : Metered)
    (referrals : ReferralMap) : (s.handleReferrals addOrder removeOrder referrals).cache =
      (DiscoveryClient.handleReferrals addOrder removeOrder s.cache referrals).cache := by
  unfold Metered.handleReferrals DiscoveryClient.handleReferrals
  split
  next => rfl
  next =>
    have hadd := cache_addReferrals s (addOrder.order referrals.entries) []
    simp only [addConnectionsFromReferrals, removeConnectionsNotInReferrals, ← hadd]
    cases currentPair {} (removeOrder.order referrals.entries) with
    | error err => rfl
    | ok pair => exact cache_deleteEntries _ _ []

theorem cache_syncEntries (s : Metered) (es : List Entry) (changed : List ClientClusterPair) :
    (s.syncEntries es).cache = (DiscoveryClient.syncEntries s.cache es changed).cache := by
  induction es generalizing s changed with
  | nil => rfl
  | cons e es ih =>
    have heq := addEntry_eq s e
    rw [Metered.syncEntries, DiscoveryClient.syncEntries]
    cases e.verify with
    | error msg => rfl
    | ok _ =>
      simp only [← heq]
      rcases s.addEntry e with ⟨s', err | pair⟩
      · exact ih s' _
      · exact ih s' _

theorem cache_syncFiles (adjustTraddr : GoString → Bool) (order : GoString → RangeOrder Entry)
    (s : Metered) (files : List DirEntry) (changed : List ClientClusterPair) :
    (s.syncFiles adjustTraddr order files).cache =
      (DiscoveryClient.syncFiles adjustTraddr order s.cache files changed).cache := by
  induction files generalizing s changed with
  | nil => rfl
  | cons f files ih =>
    have hload := cache_fileAdded adjustTraddr (order f.name) s f.file
    rw [Metered.syncFiles, DiscoveryClient.syncFiles]
    split
    next => exact ih s _
    next =>
      rcases hresult : DiscoveryClient.fileAdded adjustTraddr (order f.name) s.cache f.file with
        ⟨c, err | pairs⟩
      · obtain rfl : (s.fileAdded adjustTraddr (order f.name) f.file).cache = c := by
          rw [hload, hresult]
        exact ih _ _
      · obtain rfl : (s.fileAdded adjustTraddr (order f.name) f.file).cache = c := by
          rw [hload, hresult]
        exact ih _ _

theorem cache_sync (adjustTraddr : GoString → Bool) (order : GoString → RangeOrder Entry)
    (s : Metered) (internal : InternalFile) (userDir : UserDir) :
    (s.sync adjustTraddr order internal userDir).cache =
      (DiscoveryClient.sync adjustTraddr order s.cache internal userDir).cache := by
  unfold Metered.sync DiscoveryClient.sync
  rcases useInternalJson internal userDir with err | _ | jsonEntries
  · rfl
  · cases userDir.files with
    | none => rfl
    | some userFiles => exact cache_syncFiles adjustTraddr order s userFiles []
  · exact cache_syncEntries s jsonEntries []

end Cache

/-- The second state comes from the first by calls of `addEntry` alone. -/
inductive Grows : Metered → Metered → Prop
  | refl (s : Metered) : Grows s s
  | add {s s' : Metered} (e : Entry) : Grows s s' → Grows s (s'.addEntry e).1

section Grows

variable {s s' : Metered}

theorem Grows.trans {s'' : Metered} (first : Grows s s') (second : Grows s' s'') : Grows s s'' := by
  induction second with
  | refl => exact first
  | add e _ ih => exact .add e ih

theorem Grows.single (s : Metered) (e : Entry) : Grows s (s.addEntry e).1 := .add e (.refl s)

/-- What a call of `addEntry` keeps, all of them keep. -/
theorem Grows.preserves {I : Metered → Prop} (grows : Grows s s') (init : I s)
    (step : ∀ t e, I t → I (t.addEntry e).1) : I s' := by
  induction grows with
  | refl => exact init
  | add e _ ih => exact step _ e ih

theorem addFileEntries_grows (s : Metered) (es : List Entry) : Grows s (s.addFileEntries es) := by
  induction es generalizing s with
  | nil => exact .refl s
  | cons e es ih =>
    have hfirst := Grows.single s e.asPersistent
    rw [Metered.addFileEntries]
    rcases hadd : s.addEntry e.asPersistent with ⟨s', err | pair⟩
    · rw [hadd] at hfirst
      exact hfirst
    · rw [hadd] at hfirst
      exact hfirst.trans (ih s')

theorem fileAdded_grows (adjustTraddr : GoString → Bool) (order : RangeOrder Entry) (s : Metered)
    (file : UserFile) : Grows s (s.fileAdded adjustTraddr order file) := by
  unfold Metered.fileAdded
  cases parse adjustTraddr file with
  | error failure => exact .refl s
  | ok newEntries => exact addFileEntries_grows s _

theorem addReferrals_grows (s : Metered) (rs : List Referral) : Grows s (s.addReferrals rs) := by
  induction rs generalizing s with
  | nil => exact .refl s
  | cons r rs ih => exact (Grows.single s _).trans (ih _)

theorem syncEntries_grows (s : Metered) (es : List Entry) : Grows s (s.syncEntries es) := by
  induction es generalizing s with
  | nil => exact .refl s
  | cons e es ih =>
    rw [Metered.syncEntries]
    cases e.verify with
    | error msg => exact .refl s
    | ok _ => exact (Grows.single s e).trans (ih _)

theorem syncFiles_grows (adjustTraddr : GoString → Bool) (order : GoString → RangeOrder Entry)
    (s : Metered) (files : List DirEntry) : Grows s (s.syncFiles adjustTraddr order files) := by
  induction files generalizing s with
  | nil => exact .refl s
  | cons f files ih =>
    rw [Metered.syncFiles]
    split
    next => exact ih s
    next => exact (fileAdded_grows adjustTraddr (order f.name) s f.file).trans (ih _)

theorem sync_grows (adjustTraddr : GoString → Bool) (order : GoString → RangeOrder Entry)
    (s : Metered) (internal : InternalFile) (userDir : UserDir) :
    Grows s (s.sync adjustTraddr order internal userDir) := by
  unfold Metered.sync
  rcases useInternalJson internal userDir with err | _ | jsonEntries
  · exact .refl s
  · cases userDir.files with
    | none => exact .refl s
    | some userFiles => exact syncFiles_grows adjustTraddr order s userFiles
  · exact syncEntries_grows s jsonEntries

end Grows

end Metered

end DiscoveryClient
