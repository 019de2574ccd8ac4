import DiscoveryClient.ReferralLoops

namespace DiscoveryClient

open GoString

theorem syncEntries_adds {c : Cache} {es : List Entry} {changed : List ClientClusterPair}
    (inv : CacheInv c) (hes : AllPersistent es) :
    ∃ offered added, Adds c offered added (syncEntries c es changed).cache ∧
      (∀ e ∈ offered, e ∈ es ∧ e.Verified) ∧
      ((syncEntries c es changed).err = none ↔ ∀ e ∈ es, e.Verified) ∧
      ((syncEntries c es changed).err = none → offered = es ∧
        ∀ p, p ∈ (syncEntries c es changed).changed ↔ p ∈ changed ∨ Reports added p) := by
  induction es generalizing c changed with
  | nil => exact ⟨[], [], .nil c, by simp, by simp [syncEntries], by simp [syncEntries, not_reports_nil]⟩
  | cons e rest ih =>
    have hrest : AllPersistent rest := fun x hx => hes x (by simp [hx])
    rcases hv : e.verify with msg | u
    · have hnot : ¬e.Verified := by
        rw [← Entry.verify_ok_iff, hv]
        simp
      have hrun : syncEntries c (e :: rest) changed = ⟨c, [], false, some (.verify msg)⟩ := by
        simp only [syncEntries, hv]
      rw [hrun]
      exact ⟨[], [], .nil c, by simp, by simp [hnot], by simp⟩
    · have hver : e.Verified := Entry.verify_ok_iff.mp hv
      rcases addEntry_cases inv (hes e (by simp)) with ⟨h, hc⟩ | ⟨h, hc⟩
      · obtain ⟨offered, added, adds, hoff, herr, hok⟩ := @ih c changed inv hrest
        have hrun : syncEntries c (e :: rest) changed = syncEntries c rest changed := by
          simp [syncEntries, hv, hc]
        rw [hrun]
        refine ⟨e :: offered, added, .skip h adds, ?_, by simpa [hver] using herr, ?_⟩
        · intro x hx
          rcases List.mem_cons.mp hx with rfl | hx
          · exact ⟨by simp, hver⟩
          · exact ⟨List.mem_cons_of_mem _ (hoff x hx).1, (hoff x hx).2⟩
        · intro hnone
          exact ⟨by rw [(hok hnone).1], (hok hnone).2⟩
      · obtain ⟨offered, added, adds, hoff, herr, hok⟩ :=
          @ih (c.push e) (if e.pair.isEmpty then changed else changed ++ [e.pair])
            (inv.push (hes e (by simp)) h) hrest
        have hrun : syncEntries c (e :: rest) changed = syncEntries (c.push e) rest
            (if e.pair.isEmpty then changed else changed ++ [e.pair]) := by
          simp [syncEntries, hv, hc]
        rw [hrun]
        refine ⟨e :: offered, e :: added, .push h adds, ?_, by simpa [hver] using herr, ?_⟩
        · intro x hx
          rcases List.mem_cons.mp hx with rfl | hx
          · exact ⟨by simp, hver⟩
          · exact ⟨List.mem_cons_of_mem _ (hoff x hx).1, (hoff x hx).2⟩
        · intro hnone
          refine ⟨by rw [(hok hnone).1], ?_⟩
          intro p
          rw [(hok hnone).2, mem_append_pair, reports_cons, or_assoc]

theorem syncFiles_adds {adjustTraddr : GoString → Bool} {order : GoString → RangeOrder Entry}
    {c : Cache} {files : List DirEntry} {changed : List ClientClusterPair} (inv : CacheInv c) :
    ∃ es added, Adds c es added (syncFiles adjustTraddr order c files changed).cache ∧
      (∀ e ∈ es, UserEntry e) ∧
      ∀ p, p ∈ (syncFiles adjustTraddr order c files changed).changed ↔
        p ∈ changed ∨ Reports added p := by
  induction files generalizing c changed with
  | nil => exact ⟨[], [], .nil c, by simp, by simp [syncFiles, not_reports_nil]⟩
  | cons f rest ih =>
    by_cases hdir : f.isDir = true
    · rw [syncFiles, if_pos hdir]
      exact ih inv
    · obtain ⟨es, added, adds, hes, hpairs⟩ :=
        @fileAdded_adds adjustTraddr (order f.name) c f.file inv
      have inv' := adds.inv inv (fun e he => (hes e he).persistent)
      have hrun : syncFiles adjustTraddr order c (f :: rest) changed =
          syncFiles adjustTraddr order (fileAdded adjustTraddr (order f.name) c f.file).1 rest
            (changed ++ reported (fileAdded adjustTraddr (order f.name) c f.file).2) := by
        rw [syncFiles, if_neg hdir]
        rcases fileAdded adjustTraddr (order f.name) c f.file with ⟨c', (err | pairs)⟩
        · simp [reported]
        · simp [reported]
      obtain ⟨es', added', adds', hes', hpairs'⟩ := @ih _
        (changed ++ reported (fileAdded adjustTraddr (order f.name) c f.file).2) inv'
      rw [hrun]
      refine ⟨es ++ es', added ++ added', adds.append adds', ?_, ?_⟩
      · intro e he
        rcases List.mem_append.mp he with he | he
        · exact hes e he
        · exact hes' e he
      · intro p
        rw [hpairs', List.mem_append, hpairs, reports_append, or_assoc]

/-- What `sync` offers to the cache: entries of the user's files, or verified ones of
`internal.json`. -/
def SyncEntry (internal : InternalFile) (userDir : UserDir) (e : Entry) : Prop :=
  UserEntry e ∨ (e.Verified ∧ ∃ es, useInternalJson internal userDir = .ok (some es) ∧ e ∈ es)

theorem UserEntry.verified {e : Entry} (h : UserEntry e) : e.Verified := by
  obtain ⟨f, hf, rfl⟩ := h
  exact hf.verified

theorem SyncEntry.verified {internal : InternalFile} {userDir : UserDir} {e : Entry}
    (h : SyncEntry internal userDir e) : e.Verified := by
  rcases h with h | h
  · exact h.verified
  · exact h.1

theorem sync_adds {adjustTraddr : GoString → Bool} {order : GoString → RangeOrder Entry}
    {c : Cache} {internal : InternalFile} {userDir : UserDir} (inv : CacheInv c)
    (hjson : ∀ es, useInternalJson internal userDir = .ok (some es) → AllPersistent es) :
    ∃ es added, Adds c es added (sync adjustTraddr order c internal userDir).cache ∧
      (∀ e ∈ es, SyncEntry internal userDir e) ∧ AllPersistent es ∧
      ((sync adjustTraddr order c internal userDir).err = none →
        ∀ p, p ∈ (sync adjustTraddr order c internal userDir).changed ↔ Reports added p) := by
  unfold sync
  split
  next => exact ⟨[], [], .nil c, by simp, by simp [AllPersistent], by simp⟩
  next jsonEntries hint =>
    obtain ⟨offered, added, adds, hoff, -, hok⟩ := @syncEntries_adds c jsonEntries [] inv (hjson _ hint)
    refine ⟨offered, added, adds, ?_, fun e he => hjson _ hint e (hoff e he).1, ?_⟩
    · intro e he
      exact Or.inr ⟨(hoff e he).2, jsonEntries, hint, (hoff e he).1⟩
    · intro hnone
      simpa using (hok hnone).2
  next =>
    split
    next => exact ⟨[], [], .nil c, by simp, by simp [AllPersistent], by simp⟩
    next userFiles _ =>
      obtain ⟨es, added, adds, hes, hpairs⟩ := @syncFiles_adds adjustTraddr order c userFiles [] inv
      exact ⟨es, added, adds, fun e he => Or.inl (hes e he), fun e he => (hes e he).persistent,
        fun _ => by simpa using hpairs⟩

/-- The caches a run can reach. A `sync` reads the user's files, or an `internal.json` that
`createReferralsFile` wrote in such a run. -/
inductive Reachable : Cache → Prop
  | empty (nvmfHosts : GoMap GoString GoString) : Reachable (newCache nvmfHosts)
  | syncInternal {c written : Cache} {now : Int} (adjustTraddr : GoString → Bool)
      (order : GoString → RangeOrder Entry) (userDir : UserDir) :
      Reachable c → Reachable written →
      Reachable (sync adjustTraddr order c (createReferralsFile written now) userDir).cache
  | syncUser {c : Cache} (adjustTraddr : GoString → Bool) (order : GoString → RangeOrder Entry)
      (internal : InternalFile) (userDir : UserDir) :
      Reachable c → (∀ es, useInternalJson internal userDir ≠ .ok (some es)) →
      Reachable (sync adjustTraddr order c internal userDir).cache
  | fileAdded {c : Cache} (adjustTraddr : GoString → Bool) (order : RangeOrder Entry)
      (file : UserFile) : Reachable c → Reachable (fileAdded adjustTraddr order c file).1
  | handleReferrals {c : Cache} (addOrder removeOrder : RangeOrder Referral)
      (referrals : ReferralMap) (p : ClientClusterPair) :
      Reachable c → OnePair referrals p →
      Reachable (handleReferrals addOrder removeOrder c referrals).cache

theorem useInternalJson_created {c : Cache} {now : Int} {userDir : UserDir} {es : List Entry}
    (h : useInternalJson (createReferralsFile c now) userDir = .ok (some es)) :
    es = c.cacheEntries.map fun e => e.entry.throughJson := by
  unfold useInternalJson createReferralsFile at h
  simp only at h
  repeat' split at h
  all_goals simp_all

theorem created_persistent {c : Cache} {now : Int} {userDir : UserDir} {es : List Entry}
    (inv : CacheInv c)
    (h : useInternalJson (createReferralsFile c now) userDir = .ok (some es)) :
    AllPersistent es := by
  intro e he
  rw [useInternalJson_created h] at he
  obtain ⟨x, hx, rfl⟩ := List.mem_map.mp he
  exact inv.persistent x hx

theorem Reachable.inv {c : Cache} (reach : Reachable c) : CacheInv c := by
  induction reach with
  | empty hosts => exact newCache_inv hosts
  | syncInternal adjustTraddr order userDir _ _ ihc ihw =>
    obtain ⟨es, added, adds, -, hes, -⟩ := sync_adds ihc (fun es h => created_persistent ihw h)
    exact adds.inv ihc hes
  | syncUser adjustTraddr order internal userDir _ hnot ih =>
    obtain ⟨es, added, adds, -, hes, -⟩ := sync_adds ih (fun es h => absurd h (hnot es))
    exact adds.inv ih hes
  | fileAdded adjustTraddr order file _ ih =>
    obtain ⟨es, added, adds, hes, -⟩ := fileAdded_adds ih
    exact adds.inv ih (fun e he => (hes e he).persistent)
  | handleReferrals addOrder removeOrder referrals p _ one ih =>
    obtain ⟨added, middle, removed, passes⟩ := handleReferrals_passes ih one
    exact (passes.inv ih).2

def samplePair : ClientClusterPair := ⟨ascii "nqn.c", ascii "nqn.h"⟩

def sampleFile : UserFile :=
  .content (ascii "-t tcp -a 10.0.0.2 -s 8009 -q nqn.h -n nqn.c -l 60") false

/-- A cache that has loaded a file of one line. -/
def sampleCache : Cache := (fileAdded (fun _ => true) .stored (newCache ∅) sampleFile).1

/-- The entry on the line of the sample file. -/
def fileEntry : Entry :=
  { transport := ascii "tcp", trsvcid := 8009, traddr := ascii "10.0.0.2", hostnqn := ascii "nqn.h"
    subsysnqn := ascii "nqn.c", entrySource := .user, ctrlLossTMO := some 60 }

theorem parse_sampleFile : parse (fun _ => true) sampleFile = .ok [fileEntry] := by decide +kernel

theorem sampleCache_eq : sampleCache = (addFileEntries (newCache ∅) [fileEntry] []).1 := by
  rw [sampleCache, fileAdded, parse_sampleFile]
  rfl

/-- The connection the cache makes for the sample file. -/
def fileConnection : Connection :=
  ⟨1, ⟨ascii "tcp", ascii "10.0.0.2", 8009, ascii "nqn.c", ascii "nqn.h"⟩, ascii "nqn.h", [],
    some 60⟩

theorem sampleCache_reachable : Reachable sampleCache :=
  .fileAdded _ _ _ (.empty ∅)

theorem reachable_keys_agree {c : Cache} (reach : Reachable c) :
    (c.cacheEntries.map fun e => e.entry.tkey).Nodup ∧
    (∀ p k, k ∈ (c.connections.cluster p).clusterConnectionsMap ↔
      ∃ e ∈ c.cacheEntries, e.entry.pair = p ∧ e.entry.tkey = k) ∧
    ∀ p k conn, (c.connections.cluster p).clusterConnectionsMap.lookup k = some conn →
      conn.key = k ∧ conn.hostnqn = k.hostnqn := by
  have inv := reach.inv
  refine ⟨inv.keysNodup, ?_, fun p k conn h => inv.conn_key h⟩
  intro p k
  constructor
  · intro hk
    obtain ⟨hp, e, he, hek⟩ := (inv.keys p k).mp hk
    exact ⟨e, he, by rw [← hp, ← hek, Entry.tkey_pair], hek⟩
  · rintro ⟨e, he, hp, hk⟩
    exact (inv.keys p k).mpr ⟨by rw [← hk, Entry.tkey_pair, hp], e, he, hk⟩

/-- Referrals that name the endpoint of the sample file and a second one. -/
def twoReferrals : ReferralMap :=
  ((∅ : ReferralMap).insert ⟨ascii "10.0.0.2", 8009, ascii "nqn.c", ascii "nqn.h"⟩
    { trsvcID := 8009, subnqn := [], traddr := ascii "10.0.0.2", subType := 1 }).insert
      ⟨ascii "10.0.0.3", 8009, ascii "nqn.c", ascii "nqn.h"⟩
      { trsvcID := 8009, subnqn := [], traddr := ascii "10.0.0.3", subType := 1 }

/-- The sample cache after the two referrals. -/
def referredCache : Cache := (handleReferrals .stored .stored sampleCache twoReferrals).cache

theorem referredCache_reachable : Reachable referredCache :=
  .handleReferrals _ _ _ samplePair sampleCache_reachable ⟨by decide, by decide, by decide⟩

/-- The keys of the two endpoints. -/
def twoKeys : List TKey :=
  [⟨ascii "tcp", ascii "10.0.0.2", 8009, ascii "nqn.c", ascii "nqn.h"⟩,
    ⟨ascii "tcp", ascii "10.0.0.3", 8009, ascii "nqn.c", ascii "nqn.h"⟩]

theorem reachable_keys_agree_sample :
    referredCache.cacheEntries.length = 2 ∧ ∀ k ∈ twoKeys,
      k ∈ (referredCache.connections.cluster samplePair).clusterConnectionsMap := by
  have hentries : referredCache.cacheEntries.length = 2 ∧ ∀ k ∈ twoKeys,
      ∃ e ∈ referredCache.cacheEntries, e.entry.pair = samplePair ∧ e.entry.tkey = k := by
    rw [referredCache, sampleCache_eq]
    decide +kernel
  refine ⟨hentries.1, fun k hk => ?_⟩
  exact ((reachable_keys_agree referredCache_reachable).2.1 samplePair k).mpr (hentries.2 k hk)

end DiscoveryClient
