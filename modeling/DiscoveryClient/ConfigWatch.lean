import DiscoveryClient.BackgroundLoops
import DiscoveryClient.CacheSync
import DiscoveryClient.Machine

/-! The user's configuration directory and the cache that follows it: files come, change and go at
any time, the client starts, reads the directory or `internal.json`, watches, and stops. -/

namespace DiscoveryClient

open GoString

deriving instance DecidableEq for UserFile

/-- Where `cache.Run` stands: not running, in the loop of `sync` with the files still to read,
between `sync` and `Watch`, or in its own loop. -/
inductive ConfigPhase
  | stopped
  | reading (todo : List GoString)
  | synced
  | watching

structure ConfigState where
  files : GoMap GoString UserFile
  modTime : Int
  internal : InternalFile
  phase : ConfigPhase
  cache : Cache
  queue : List FileEvent
  /-- What `fileAdded` was given since the client started from the directory, across restarts from
  `internal.json`. -/
  loaded : List UserFile
  /-- What had been loaded when `internal.json` was written. -/
  saved : List UserFile

/-- In the first four, `room` is the number of notifications that the kernel's queue still takes. -/
inductive ConfigEvent
  /-- A new file under the name: created, linked or moved in. -/
  | put (name : GoString) (file : UserFile) (modTime : Int) (room : Nat)
  /-- The file under the name changes in place. -/
  | write (name : GoString) (file : UserFile) (room : Nat)
  | rename (old new : GoString) (modTime : Int) (room : Nat)
  | remove (name : GoString) (modTime : Int) (room : Nat)
  | start (nvmfHosts : GoMap GoString GoString) (listing : RangeOrder GoString)
  | read (order : RangeOrder Entry)
  /-- Here and below, `saving` is when `createReferralsFile` took its time, `none` if it failed. -/
  | endRead (saving : Option Int)
  | watch
  | handle (order : RangeOrder Entry) (saving : Option Int)
  | referrals (addOrder removeOrder : RangeOrder Referral) (referrals : ReferralMap)
      (saving : Option Int)
  | stop

def FsEvent.created (name : GoString) : FsEvent := ⟨name, true, false, false, false, false⟩
def FsEvent.written (name : GoString) : FsEvent := ⟨name, false, true, false, false, false⟩
def FsEvent.removed (name : GoString) : FsEvent := ⟨name, false, false, true, false, false⟩
def FsEvent.renamed (name : GoString) : FsEvent := ⟨name, false, false, false, true, false⟩

/-- What comes in the place of the events an overflow has cost; the error sent before it is
logged. -/
def FsEvent.overflow : FsEvent := ⟨[], false, false, false, false, false⟩

/-- The events that come through the kernel's queue and the watcher. -/
def notifications (events : List FsEvent) (room : Nat) : List FileEvent :=
  (events.take room ++ if room < events.length then [FsEvent.overflow] else []).map
    fun event => ⟨event.name, event.op⟩

def reserved (name : GoString) : Bool := discoveryClientReservedPrefix.isPrefixOf name

/-- The loop of `Run` hands the event's file to `fileAdded`. -/
def FileEvent.Loads (e : FileEvent) : Prop :=
  reserved e.name = false ∧ (e.op = some .create ∨ e.op = some .rename)

namespace ConfigState

variable (adjustTraddr : GoString → Bool)

def userDir (s : ConfigState) : UserDir :=
  ⟨some s.modTime, some (s.files.entries.map fun file => ⟨file.1, false, file.2⟩)⟩

/-- What `parse` finds under the name. -/
def fileAt (s : ConfigState) (name : GoString) : UserFile := (s.files.lookup name).getD .unopenable

/-- The directory changes; the watcher, where there is one, is told. -/
def change (s : ConfigState) (files : GoMap GoString UserFile) (modTime : Int)
    (events : List FsEvent) (room : Nat) : ConfigState :=
  { s with
    files, modTime
    queue := match s.phase with
      | .watching => s.queue ++ notifications events room
      | _ => s.queue }

def createReferralsFile (s : ConfigState) : Option Int → ConfigState
  | some now =>
    { s with internal := DiscoveryClient.createReferralsFile s.cache now, saved := s.loaded }
  | none => s

def fileAdded (s : ConfigState) (order : RangeOrder Entry) (name : GoString) : ConfigState :=
  { s with
    cache := (DiscoveryClient.fileAdded adjustTraddr order s.cache (s.fileAt name)).1
    loaded := s.fileAt name :: s.loaded }

/-- The start of `sync`, in a new process; an error ends it again. -/
def start (s : ConfigState) (nvmfHosts : GoMap GoString GoString)
    (listing : RangeOrder GoString) : ConfigState :=
  match useInternalJson s.internal s.userDir with
  | .error _ => s
  | .ok (some jsonEntries) =>
    let o := syncEntries (newCache nvmfHosts) jsonEntries []
    if o.err.isSome then s else { s with phase := .synced, cache := o.cache, loaded := s.saved }
  | .ok none =>
    { s with
      phase := .reading (listing.order s.files.keys), cache := newCache nvmfHosts, loaded := [] }

/-- One turn of the loop of `Run` with the event it received. -/
def handle (s : ConfigState) (order : RangeOrder Entry) (saving : Option Int) (e : FileEvent) :
    ConfigState :=
  match e.op with
  | none => s
  | some op =>
    let o := onEvent adjustTraddr order s.cache op e.name (s.fileAt e.name)
    if o.writesJson then
      { s with cache := o.cache, loaded := s.fileAt e.name :: s.loaded }.createReferralsFile saving
    else { s with cache := o.cache }

def handleReferrals (s : ConfigState) (addOrder removeOrder : RangeOrder Referral)
    (referrals : ReferralMap) (saving : Option Int) : ConfigState :=
  let o := DiscoveryClient.handleReferrals addOrder removeOrder s.cache referrals
  let s := { s with cache := o.cache }
  if o.writesJson then s.createReferralsFile saving else s

def step (s : ConfigState) : ConfigEvent → Option ConfigState
  | .put name file modTime room =>
    if s.modTime ≤ modTime then
      some (s.change (s.files.insert name file) modTime [.created name] room)
    else none
  | .write name file room =>
    if name ∈ s.files then
      some (s.change (s.files.insert name file) s.modTime [.written name] room)
    else none
  | .rename old new modTime room =>
    match s.files.lookup old with
    | some file =>
      if s.modTime ≤ modTime ∧ old ≠ new then
        some (s.change ((s.files.erase old).insert new file) modTime [.renamed old, .created new]
          room)
      else none
    | none => none
  | .remove name modTime room =>
    if s.modTime ≤ modTime then some (s.change (s.files.erase name) modTime [.removed name] room)
    else none
  | .start nvmfHosts listing =>
    match s.phase with
    | .stopped => some (s.start nvmfHosts listing)
    | _ => none
  | .read order =>
    match s.phase with
    | .reading (name :: todo) =>
      some { s.fileAdded adjustTraddr order name with phase := .reading todo }
    | _ => none
  | .endRead saving =>
    match s.phase with
    | .reading [] => some { s.createReferralsFile saving with phase := .synced }
    | _ => none
  | .watch =>
    match s.phase with
    | .synced => some { s with phase := .watching, queue := [] }
    | _ => none
  | .handle order saving =>
    match s.phase, s.queue with
    | .watching, e :: rest => some ({ s with queue := rest }.handle adjustTraddr order saving e)
    | _, _ => none
  | .referrals addOrder removeOrder referrals saving =>
    match s.phase with
    | .synced | .watching =>
      some (s.handleReferrals addOrder removeOrder referrals saving)
    | _ => none
  | .stop => some { s with phase := .stopped }

/-- A start now would read the directory. -/
def ReadsUserDir (s : ConfigState) : Prop := useInternalJson s.internal s.userDir = .ok none

/-- The content is loaded or going to be: by the next start, by the loop of `sync`, or for an event
that waits. -/
def Covered (s : ConfigState) (name : GoString) (file : UserFile) : Prop :=
  match s.phase with
  | .stopped => file ∈ s.saved ∨ s.ReadsUserDir
  | .reading todo => file ∈ s.loaded ∨ name ∈ todo
  | .synced => file ∈ s.loaded
  | .watching => file ∈ s.loaded ∨ ∃ e ∈ s.queue, e.name = name ∧ e.Loads

/-- No file of the user's is lost. -/
def NoneLost (s : ConfigState) : Prop :=
  ∀ name file, s.files.lookup name = some file → reserved name = false → s.Covered name file

/-- `internal.json` has entries, and is not older than a directory changed at the time. -/
def PrefersJson (s : ConfigState) (modTime : Int) : Prop :=
  ∃ refs, s.internal = .referrals refs ∧ refs.entries ≠ [] ∧ modTime ≤ refs.creationTime

/-- The event leaves the content under the name. A running watcher is `told` by the one event on
which the client would load it. -/
inductive Changes (s : ConfigState) : ConfigEvent → GoString → UserFile → Int → Bool → Prop
  | put (name : GoString) (file : UserFile) (modTime : Int) (room : Nat) :
      Changes s (.put name file modTime room) name file modTime (decide (0 < room))
  | write (name : GoString) (file : UserFile) (room : Nat) :
      Changes s (.write name file room) name file s.modTime false
  | rename {old : GoString} {file : UserFile} (new : GoString) (modTime : Int) (room : Nat)
      (hfile : s.files.lookup old = some file) :
      Changes s (.rename old new modTime room) new file modTime (decide (1 < room))

/-- How the client can miss a content it has not loaded. -/
inductive Misses (s : ConfigState) (name : GoString) (file : UserFile) (modTime : Int)
    (told : Bool) : Prop
  /-- The next start takes `internal.json`, which does not hold it. -/
  | stopped (hphase : s.phase = .stopped) (hjson : s.PrefersJson modTime) (hsaved : file ∉ s.saved)
  /-- The loop of `sync` has passed the name, or did not find it listed. -/
  | passed {todo : List GoString} (hphase : s.phase = .reading todo) (htodo : name ∉ todo)
      (hloaded : file ∉ s.loaded)
  /-- `sync` is over and nobody watches yet. -/
  | unwatched (hphase : s.phase = .synced) (hloaded : file ∉ s.loaded)
  /-- The watcher is not told, and no earlier event makes the client look at the name again. -/
  | untold (hphase : s.phase = .watching) (htold : told = false) (hloaded : file ∉ s.loaded)
      (hqueue : ∀ e ∈ s.queue, e.name = name → ¬e.Loads)

/-- The events that lose a file: a content that is missed, and a stop after which `internal.json` is
taken although it does not hold one. -/
inductive Loses (s : ConfigState) : ConfigEvent → Prop
  | change {e : ConfigEvent} {name : GoString} {file : UserFile} {modTime : Int} {told : Bool}
      (changes : s.Changes e name file modTime told) (ordinary : reserved name = false)
      (misses : s.Misses name file modTime told) : Loses s e
  | stop {name : GoString} {file : UserFile} (hfile : s.files.lookup name = some file)
      (ordinary : reserved name = false) (hjson : s.PrefersJson s.modTime)
      (hsaved : file ∉ s.saved) : Loses s .stop

end ConfigState

/-- A first start: nothing runs and there is no `internal.json` yet. -/
def configWatch (adjustTraddr : GoString → Bool) : Machine ConfigState ConfigEvent where
  init s := s.phase = .stopped ∧ s.internal = .missing
  step s e s' := s.step adjustTraddr e = some s'

namespace ConfigState

variable {adjustTraddr : GoString → Bool} {s : ConfigState}

/-- What a step can be. -/
inductive Takes (adjustTraddr : GoString → Bool) (s : ConfigState) :
    ConfigEvent → ConfigState → Prop
  | put {name file modTime room} (hle : s.modTime ≤ modTime) :
      Takes adjustTraddr s (.put name file modTime room)
        (s.change (s.files.insert name file) modTime [.created name] room)
  | write {name file room} :
      Takes adjustTraddr s (.write name file room)
        (s.change (s.files.insert name file) s.modTime [.written name] room)
  | rename {old new modTime room file} (hfile : s.files.lookup old = some file)
      (hle : s.modTime ≤ modTime) (hne : old ≠ new) :
      Takes adjustTraddr s (.rename old new modTime room)
        (s.change ((s.files.erase old).insert new file) modTime [.renamed old, .created new] room)
  | remove {name modTime room} (hle : s.modTime ≤ modTime) :
      Takes adjustTraddr s (.remove name modTime room)
        (s.change (s.files.erase name) modTime [.removed name] room)
  | start {nvmfHosts listing} (hphase : s.phase = .stopped) :
      Takes adjustTraddr s (.start nvmfHosts listing) (s.start nvmfHosts listing)
  | read {order name todo} (hphase : s.phase = .reading (name :: todo)) :
      Takes adjustTraddr s (.read order)
        { s.fileAdded adjustTraddr order name with phase := .reading todo }
  | endRead {saving} (hphase : s.phase = .reading []) :
      Takes adjustTraddr s (.endRead saving) { s.createReferralsFile saving with phase := .synced }
  | watch (hphase : s.phase = .synced) :
      Takes adjustTraddr s .watch { s with phase := .watching, queue := [] }
  | handle {order saving e rest} (hphase : s.phase = .watching) (hqueue : s.queue = e :: rest) :
      Takes adjustTraddr s (.handle order saving)
        ({ s with queue := rest }.handle adjustTraddr order saving e)
  | referrals {addOrder removeOrder referrals saving}
      (hphase : s.phase = .synced ∨ s.phase = .watching) :
      Takes adjustTraddr s (.referrals addOrder removeOrder referrals saving)
        (s.handleReferrals addOrder removeOrder referrals saving)
  | stop : Takes adjustTraddr s .stop { s with phase := .stopped }

theorem step_takes {e : ConfigEvent} {s' : ConfigState} (h : s.step adjustTraddr e = some s') :
    Takes adjustTraddr s e s' := by
  cases e with
  | put name file modTime room =>
    obtain ⟨hle, h⟩ := Option.ite_none_right_eq_some.mp h
    obtain rfl := Option.some.inj h
    exact .put hle
  | write name file room =>
    obtain ⟨-, h⟩ := Option.ite_none_right_eq_some.mp h
    obtain rfl := Option.some.inj h
    exact .write
  | rename old new modTime room =>
    cases hfile : s.files.lookup old with
    | none => simp [step, hfile] at h
    | some file =>
      simp only [step, hfile, Option.ite_none_right_eq_some] at h
      obtain rfl := Option.some.inj h.2
      exact .rename hfile h.1.1 h.1.2
  | remove name modTime room =>
    obtain ⟨hle, h⟩ := Option.ite_none_right_eq_some.mp h
    obtain rfl := Option.some.inj h
    exact .remove hle
  | start nvmfHosts listing =>
    cases hphase : s.phase <;> simp only [step, hphase, reduceCtorEq, Option.some.injEq] at h
    subst h
    exact .start hphase
  | read order =>
    simp only [step] at h
    split at h
    next hphase =>
      obtain rfl := Option.some.inj h
      exact .read hphase
    next => cases h
  | endRead saving =>
    simp only [step] at h
    split at h
    next hphase =>
      obtain rfl := Option.some.inj h
      exact .endRead hphase
    next => cases h
  | watch =>
    cases hphase : s.phase <;> simp only [step, hphase, reduceCtorEq, Option.some.injEq] at h
    subst h
    exact .watch hphase
  | handle order saving =>
    simp only [step] at h
    split at h
    next hphase hqueue =>
      obtain rfl := Option.some.inj h
      exact .handle hphase hqueue
    next => cases h
  | referrals addOrder removeOrder referrals saving =>
    cases hphase : s.phase <;> simp only [step, hphase, reduceCtorEq, Option.some.injEq] at h <;>
      subst h <;> exact .referrals (by simp [hphase])
  | stop =>
    obtain rfl := Option.some.inj h
    exact .stop

/-- `internal.json` is what `createReferralsFile` left, if anything. -/
def Known (s : ConfigState) : Prop := s.internal = .missing ∨ ∃ refs, s.internal = .referrals refs

/-- While `internal.json` stays, a start decides by the time of the directory. -/
theorem Known.reads_iff (known : s.Known) {s' : ConfigState} (hsame : s'.internal = s.internal) :
    s'.ReadsUserDir ↔ ¬s.PrefersJson s'.modTime := by
  rcases known with hinternal | ⟨refs, hinternal⟩
  · simp [ReadsUserDir, PrefersJson, useInternalJson, hsame, hinternal]
  · simp only [ReadsUserDir, PrefersJson, useInternalJson, userDir, hsame, hinternal,
      InternalFile.referrals.injEq, exists_eq_left', not_and]
    by_cases hempty : refs.entries = []
    · simp [hempty]
    · rw [if_neg hempty]
      by_cases holder : refs.creationTime < s'.modTime
      · simp only [if_pos holder, true_iff]
        intro _
        omega
      · simp [if_neg holder, hempty, Int.not_lt.mp holder]

theorem PrefersJson.earlier {modTime : Int} (h : s.PrefersJson modTime)
    (hle : s.modTime ≤ modTime) : s.PrefersJson s.modTime := by
  obtain ⟨refs, hinternal, hentries, htime⟩ := h
  exact ⟨refs, hinternal, hentries, by omega⟩

theorem change_phase (files : GoMap GoString UserFile) (modTime : Int) (events : List FsEvent)
    (room : Nat) : (s.change files modTime events room).phase = s.phase := rfl

theorem Known.change_reads_iff (known : s.Known) (files : GoMap GoString UserFile) (modTime : Int)
    (events : List FsEvent) (room : Nat) :
    (s.change files modTime events room).ReadsUserDir ↔ ¬s.PrefersJson modTime :=
  known.reads_iff rfl

/-- What is covered stays so while the directory changes. -/
theorem Covered.change {name : GoString} {file : UserFile} (h : s.Covered name file)
    (known : s.Known) {files : GoMap GoString UserFile} {modTime : Int} (hle : s.modTime ≤ modTime)
    {events : List FsEvent} {room : Nat} :
    (s.change files modTime events room).Covered name file := by
  unfold Covered at h ⊢
  rw [change_phase, known.change_reads_iff]
  unfold ConfigState.change
  cases hphase : s.phase with
  | stopped =>
    simp only [hphase] at h ⊢
    refine h.imp_right fun hreads hjson => ?_
    exact (known.reads_iff rfl).mp hreads (hjson.earlier hle)
  | reading todo => simpa only [hphase] using h
  | synced => simpa only [hphase] using h
  | watching =>
    simp only [hphase] at h ⊢
    refine h.imp_right fun ⟨e, he, hname⟩ => ⟨e, List.mem_append_left _ he, hname⟩

section Misses

variable {name : GoString} {file : UserFile} {modTime : Int} {told : Bool}

theorem misses_stopped_iff (hphase : s.phase = .stopped) :
    s.Misses name file modTime told ↔ s.PrefersJson modTime ∧ file ∉ s.saved := by
  constructor
  · intro misses
    cases misses with
    | stopped _ hjson hsaved => exact ⟨hjson, hsaved⟩
    | passed h | unwatched h | untold h => cases hphase.symm.trans h
  · rintro ⟨hjson, hsaved⟩
    exact .stopped hphase hjson hsaved

theorem misses_reading_iff {todo : List GoString} (hphase : s.phase = .reading todo) :
    s.Misses name file modTime told ↔ name ∉ todo ∧ file ∉ s.loaded := by
  constructor
  · intro misses
    cases misses with
    | passed h htodo hloaded =>
      obtain rfl := ConfigPhase.reading.inj (hphase.symm.trans h)
      exact ⟨htodo, hloaded⟩
    | stopped h | unwatched h | untold h => cases hphase.symm.trans h
  · rintro ⟨htodo, hloaded⟩
    exact .passed hphase htodo hloaded

theorem misses_synced_iff (hphase : s.phase = .synced) :
    s.Misses name file modTime told ↔ file ∉ s.loaded := by
  constructor
  · intro misses
    cases misses with
    | unwatched _ hloaded => exact hloaded
    | stopped h | passed h | untold h => cases hphase.symm.trans h
  · exact .unwatched hphase

theorem misses_watching_iff (hphase : s.phase = .watching) :
    s.Misses name file modTime told ↔
      told = false ∧ file ∉ s.loaded ∧ ∀ e ∈ s.queue, e.name = name → ¬e.Loads := by
  constructor
  · intro misses
    cases misses with
    | untold _ htold hloaded hqueue => exact ⟨htold, hloaded, hqueue⟩
    | stopped h | passed h | unwatched h => cases hphase.symm.trans h
  · rintro ⟨htold, hloaded, hqueue⟩
    exact .untold hphase htold hloaded hqueue

end Misses

/-- A content that comes under the name is covered exactly if the client does not miss it. -/
theorem change_covered_iff (known : s.Known) {name : GoString} {file : UserFile}
    {files : GoMap GoString UserFile} {modTime : Int} {events : List FsEvent} {room : Nat}
    {told : Bool}
    (htold : (∃ e ∈ notifications events room, e.name = name ∧ e.Loads) ↔ told = true) :
    (s.change files modTime events room).Covered name file ↔
      ¬s.Misses name file modTime told := by
  unfold Covered
  rw [change_phase, known.change_reads_iff]
  unfold ConfigState.change
  cases hphase : s.phase with
  | stopped =>
    rw [misses_stopped_iff hphase]
    tauto
  | reading todo =>
    rw [misses_reading_iff hphase]
    tauto
  | synced =>
    rw [misses_synced_iff hphase, not_not]
  | watching =>
    -- what was in the queue stays in front of what the watcher is told
    have hqueue : (∃ e ∈ s.queue ++ notifications events room, e.name = name ∧ e.Loads) ↔
        (∃ e ∈ s.queue, e.name = name ∧ e.Loads) ∨ told = true := by
      rw [← htold]
      simp only [List.mem_append, or_and_right, exists_or]
    have hnone : (∀ e ∈ s.queue, e.name = name → ¬e.Loads) ↔
        ¬∃ e ∈ s.queue, e.name = name ∧ e.Loads := by
      simp only [not_exists, not_and]
    rw [misses_watching_iff hphase, hnone, ← Bool.not_eq_true]
    change file ∈ s.loaded ∨ (∃ e ∈ s.queue ++ notifications events room, _) ↔ _
    rw [hqueue, not_and_or, not_and_or, not_not, not_not, not_not, ← or_assoc, or_comm]

/-- After a change that leaves one file anew, nothing is lost exactly if that file is not. -/
theorem noneLost_change_iff (known : s.Known) {files : GoMap GoString UserFile} {modTime : Int}
    {events : List FsEvent} {room : Nat} {name : GoString} {file : UserFile}
    (hle : s.modTime ≤ modTime) (hnew : files.lookup name = some file)
    (hold : ∀ other f, other ≠ name → files.lookup other = some f → s.files.lookup other = some f)
    (good : s.NoneLost) :
    (s.change files modTime events room).NoneLost ↔
      (reserved name = false → (s.change files modTime events room).Covered name file) := by
  constructor
  · intro h ordinary
    exact h name file hnew ordinary
  · intro h other f hf ordinary
    by_cases hother : other = name
    · subst hother
      obtain rfl : f = file := Option.some.inj (hf.symm.trans hnew)
      exact h ordinary
    · exact (good other f (hold other f hother hf) ordinary).change known hle

/-- An event that changes one file loses that one or none. -/
theorem Changes.loses_iff {e : ConfigEvent} {name : GoString} {file : UserFile} {modTime : Int}
    {told : Bool} (changes : s.Changes e name file modTime told) :
    s.Loses e ↔ reserved name = false ∧ s.Misses name file modTime told := by
  constructor
  · intro loses
    cases loses with
    | change changes' ordinary misses =>
      cases changes with
      | put | write =>
        cases changes'
        exact ⟨ordinary, misses⟩
      | rename new modTime room hfile =>
        cases changes' with
        | rename _ _ _ hfile' =>
          obtain rfl := Option.some.inj (hfile.symm.trans hfile')
          exact ⟨ordinary, misses⟩
    | stop => cases changes
  · rintro ⟨ordinary, misses⟩
    exact .change changes ordinary misses

theorem change_noneLost_iff (known : s.Known) (good : s.NoneLost) {e : ConfigEvent}
    {files : GoMap GoString UserFile} {modTime : Int} {events : List FsEvent} {room : Nat}
    {name : GoString} {file : UserFile} {told : Bool}
    (changes : s.Changes e name file modTime told) (hle : s.modTime ≤ modTime)
    (hnew : files.lookup name = some file)
    (hold : ∀ other f, other ≠ name → files.lookup other = some f → s.files.lookup other = some f)
    (htold : reserved name = false →
      ((∃ e ∈ notifications events room, e.name = name ∧ e.Loads) ↔ told = true)) :
    (s.change files modTime events room).NoneLost ↔ ¬s.Loses e := by
  rw [noneLost_change_iff known hle hnew hold good, changes.loses_iff, not_and]
  exact forall_congr' fun ordinary => change_covered_iff known (htold ordinary)

/-- A file that is put under an ordinary name is announced where there is room. -/
theorem notifications_put {name : GoString} (ordinary : reserved name = false) (room : Nat) :
    (∃ e ∈ notifications [.created name] room, e.name = name ∧ e.Loads) ↔
      decide (0 < room) = true := by
  cases room with
  | zero => simp [notifications, FsEvent.overflow, FsEvent.op, FileEvent.Loads]
  | succ room => simp [notifications, FsEvent.created, FsEvent.op, FileEvent.Loads, ordinary]

/-- The event of a write is not one that loads. -/
theorem notifications_write {name : GoString} (room : Nat) :
    (∃ e ∈ notifications [.written name] room, e.name = name ∧ e.Loads) ↔ false = true := by
  cases room with
  | zero => simp [notifications, FsEvent.overflow, FsEvent.op, FileEvent.Loads]
  | succ room => simp [notifications, FsEvent.written, FsEvent.op, FileEvent.Loads]

/-- The new name of a file comes second. -/
theorem notifications_rename {old new : GoString} (hne : old ≠ new)
    (ordinary : reserved new = false) (room : Nat) :
    (∃ e ∈ notifications [.renamed old, .created new] room, e.name = new ∧ e.Loads) ↔
      decide (1 < room) = true := by
  rcases room with _ | _ | room
  · simp [notifications, FsEvent.overflow, FsEvent.op, FileEvent.Loads]
  · simp [notifications, FsEvent.overflow, FsEvent.renamed, FsEvent.op, FileEvent.Loads, hne]
  · simp [notifications, FsEvent.created, FsEvent.op, FileEvent.Loads, ordinary]

theorem remove_noneLost (known : s.Known) (good : s.NoneLost) {name : GoString} {modTime : Int}
    (hle : s.modTime ≤ modTime) {events : List FsEvent} {room : Nat} :
    (s.change (s.files.erase name) modTime events room).NoneLost := by
  intro other file hfile ordinary
  exact (good other file (GoMap.lookup_erase_some hfile).2 ordinary).change known hle

theorem start_noneLost (hphase : s.phase = .stopped) (good : s.NoneLost)
    (nvmfHosts : GoMap GoString GoString) (listing : RangeOrder GoString) :
    (s.start nvmfHosts listing).NoneLost := by
  unfold start
  split
  next => exact good
  next jsonEntries hjson =>
    dsimp only
    split
    · exact good
    · intro name file hfile ordinary
      have hcovered := good name file hfile ordinary
      simp only [Covered, hphase, ReadsUserDir, hjson] at hcovered ⊢
      simpa using hcovered
  next =>
    intro name file hfile _
    have hkey : name ∈ s.files.keys := AList.mem_keys.mpr (GoMap.mem_iff_lookup.mpr ⟨file, hfile⟩)
    exact Or.inr (listing.mem_order.mpr hkey)

theorem fileAt_eq {name : GoString} {file : UserFile} (h : s.files.lookup name = some file) :
    s.fileAt name = file := by
  rw [fileAt, h, Option.getD_some]

theorem read_noneLost {current : GoString} {todo : List GoString}
    (hphase : s.phase = .reading (current :: todo)) (good : s.NoneLost)
    (order : RangeOrder Entry) :
    NoneLost { s.fileAdded adjustTraddr order current with phase := .reading todo } := by
  intro name file hfile ordinary
  have hcovered := good name file hfile ordinary
  simp only [Covered, hphase, fileAdded, List.mem_cons] at hcovered ⊢
  rcases hcovered with hloaded | rfl | htodo
  · exact Or.inl (Or.inr hloaded)
  · exact Or.inl (Or.inl (fileAt_eq hfile).symm)
  · exact Or.inr htodo

@[simp] theorem createReferralsFile_files (saving : Option Int) :
    (s.createReferralsFile saving).files = s.files := by cases saving <;> rfl

@[simp] theorem createReferralsFile_phase (saving : Option Int) :
    (s.createReferralsFile saving).phase = s.phase := by cases saving <;> rfl

@[simp] theorem createReferralsFile_loaded (saving : Option Int) :
    (s.createReferralsFile saving).loaded = s.loaded := by cases saving <;> rfl

@[simp] theorem createReferralsFile_queue (saving : Option Int) :
    (s.createReferralsFile saving).queue = s.queue := by cases saving <;> rfl

/-- Without a change in between, the loop loads what `sync` loads. -/
theorem reads_eq_syncFiles (order : GoString → RangeOrder Entry) (todo : List GoString)
    (changed : List ClientClusterPair) (hphase : s.phase = .reading todo) :
    ∃ s', (todo.map fun name => ConfigEvent.read (order name)).foldlM (step adjustTraddr) s = some s' ∧
      s'.phase = .reading [] ∧
      s'.cache = (syncFiles adjustTraddr order s.cache
        (todo.map fun name => ⟨name, false, s.fileAt name⟩) changed).cache := by
  induction todo generalizing s changed with
  | nil => exact ⟨s, rfl, hphase, rfl⟩
  | cons name todo ih =>
    let next : ConfigState :=
      { s.fileAdded adjustTraddr (order name) name with phase := .reading todo }
    have hstep : s.step adjustTraddr (.read (order name)) = some next := by
      simp only [step, hphase, next]
    simp only [List.map_cons, List.foldlM_cons, hstep, Option.bind_eq_bind, Option.bind_some,
      syncFiles, Bool.false_eq_true, if_false]
    cases hadded : DiscoveryClient.fileAdded adjustTraddr (order name) s.cache (s.fileAt name) with
    | mk c result =>
      have hcache : next.cache = c := congrArg Prod.fst hadded
      have hfiles : next.fileAt = s.fileAt := rfl
      cases result with
      | error err => simpa only [hcache, hfiles] using ih (s := next) changed rfl
      | ok pairs => simpa only [hcache, hfiles] using ih (s := next) (changed ++ pairs) rfl

theorem endRead_noneLost (hphase : s.phase = .reading []) (good : s.NoneLost)
    (saving : Option Int) : NoneLost { s.createReferralsFile saving with phase := .synced } := by
  intro name file hfile ordinary
  rw [createReferralsFile_files] at hfile
  simpa [Covered, hphase] using good name file hfile ordinary

theorem watch_noneLost (hphase : s.phase = .synced) (good : s.NoneLost) :
    NoneLost { s with phase := .watching, queue := [] } := by
  intro name file hfile ordinary
  have hcovered := good name file hfile ordinary
  simp only [Covered, hphase] at hcovered
  exact Or.inl hcovered

theorem onEvent_writesJson_iff {order : RangeOrder Entry} {c : Cache} {op : EventOp}
    {base : GoString} {file : UserFile} :
    (onEvent adjustTraddr order c op base file).writesJson = true ↔
      FileEvent.Loads ⟨base, some op⟩ := by
  unfold onEvent FileEvent.Loads reserved
  split
  next hreserved => simp [hreserved]
  next hreserved =>
    cases op <;> simp [hreserved] <;> split <;> rfl

/-- What one turn of the loop does, as far as the files are concerned. -/
structure Handled (s : ConfigState) (e : FileEvent) (s' : ConfigState) : Prop where
  files : s'.files = s.files
  phase : s'.phase = s.phase
  queue : s'.queue = s.queue
  keeps : ∀ file ∈ s.loaded, file ∈ s'.loaded
  loads : e.Loads → s.fileAt e.name ∈ s'.loaded
  only : ∀ file ∈ s'.loaded, file ∈ s.loaded ∨ e.Loads ∧ file = s.fileAt e.name
  saves : s'.saved = s.saved ∨ s'.saved = s'.loaded

theorem createReferralsFile_saved (saving : Option Int) :
    (s.createReferralsFile saving).saved = s.saved ∨
      (s.createReferralsFile saving).saved = (s.createReferralsFile saving).loaded := by
  cases saving with
  | none => exact Or.inl rfl
  | some now => exact Or.inr rfl

theorem handle_handled (order : RangeOrder Entry) (saving : Option Int) (e : FileEvent) :
    s.Handled e (s.handle adjustTraddr order saving e) := by
  obtain ⟨name, op⟩ := e
  unfold handle
  cases op with
  | none =>
    exact ⟨rfl, rfl, rfl, fun _ h => h, fun h => by simp [FileEvent.Loads] at h,
      fun _ h => Or.inl h, Or.inl rfl⟩
  | some op =>
    dsimp only
    split
    next hloads =>
      have hloads := onEvent_writesJson_iff.mp hloads
      refine ⟨by simp, by simp, by simp, fun file h => ?_, fun _ => ?_, fun file h => ?_,
        createReferralsFile_saved saving⟩
      · simpa using Or.inr h
      · simp
      · rw [createReferralsFile_loaded] at h
        exact (List.mem_cons.mp h).symm.imp_right fun hfile => ⟨hloads, hfile⟩
    next hquiet =>
      exact ⟨rfl, rfl, rfl, fun _ h => h, fun h => absurd (onEvent_writesJson_iff.mpr h) hquiet,
        fun _ h => Or.inl h, Or.inl rfl⟩

theorem Handled.noneLost {e : FileEvent} {rest : List FileEvent} {s' : ConfigState}
    (done : Handled { s with queue := rest } e s') (hphase : s.phase = .watching)
    (hqueue : s.queue = e :: rest) (good : s.NoneLost) : s'.NoneLost := by
  intro name file hfile ordinary
  rw [done.files] at hfile
  have hcovered := good name file hfile ordinary
  have hphase' : s'.phase = .watching := done.phase.trans hphase
  have hqueue' : s'.queue = rest := done.queue
  simp only [Covered, hphase, hqueue, hphase', hqueue', List.exists_mem_cons_iff] at hcovered ⊢
  rcases hcovered with hloaded | ⟨rfl, hloads⟩ | hwaits
  · exact Or.inl (done.keeps file hloaded)
  · have hread := done.loads hloads
    rw [fileAt_eq hfile] at hread
    exact Or.inl hread
  · exact Or.inr hwaits

theorem createReferralsFile_noneLost (hphase : s.phase = .synced ∨ s.phase = .watching)
    (good : s.NoneLost) (saving : Option Int) : (s.createReferralsFile saving).NoneLost := by
  intro name file hfile ordinary
  rw [createReferralsFile_files] at hfile
  have hcovered := good name file hfile ordinary
  rcases hphase with hphase | hphase <;> simpa [Covered, hphase] using hcovered

theorem handleReferrals_noneLost (hphase : s.phase = .synced ∨ s.phase = .watching)
    (good : s.NoneLost) (addOrder removeOrder : RangeOrder Referral) (referrals : ReferralMap)
    (saving : Option Int) : (s.handleReferrals addOrder removeOrder referrals saving).NoneLost := by
  unfold handleReferrals
  dsimp only
  split
  · refine createReferralsFile_noneLost ?_ ?_ saving
    · exact hphase
    · exact good
  · exact good

theorem stop_noneLost_iff (known : s.Known) :
    NoneLost { s with phase := .stopped } ↔ ¬s.Loses .stop := by
  have hreads : ReadsUserDir { s with phase := .stopped } ↔ ¬s.PrefersJson s.modTime :=
    known.reads_iff rfl
  constructor
  · intro h loses
    cases loses with
    | change changes => cases changes
    | stop hfile ordinary hjson hsaved =>
      rcases h _ _ hfile ordinary with h | h
      · exact hsaved h
      · exact hreads.mp h hjson
  · intro h name file hfile ordinary
    by_cases hsaved : file ∈ s.saved
    · exact Or.inl hsaved
    · exact Or.inr (hreads.mpr fun hjson => h (.stop hfile ordinary hjson hsaved))

theorem Known.createReferralsFile (known : s.Known) (saving : Option Int) :
    (s.createReferralsFile saving).Known := by
  cases saving with
  | none => exact known
  | some now => exact Or.inr ⟨_, rfl⟩

theorem Known.start (known : s.Known) (nvmfHosts : GoMap GoString GoString)
    (listing : RangeOrder GoString) : (s.start nvmfHosts listing).Known := by
  unfold ConfigState.start
  split
  next => exact known
  next =>
    dsimp only
    split
    · exact known
    · exact known
  next => exact known

theorem Known.handle (known : s.Known) (order : RangeOrder Entry) (saving : Option Int)
    (e : FileEvent) : (s.handle adjustTraddr order saving e).Known := by
  unfold ConfigState.handle
  cases e.op with
  | none => exact known
  | some op =>
    dsimp only
    split
    · refine Known.createReferralsFile ?_ saving
      exact known
    · exact known

theorem Known.step {e : ConfigEvent} {s' : ConfigState} (known : s.Known)
    (h : s.step adjustTraddr e = some s') : s'.Known := by
  cases step_takes h with
  | put | write | rename | remove | read | watch | stop => exact known
  | start => exact known.start _ _
  | @endRead saving => exact known.createReferralsFile saving
  | handle =>
    refine Known.handle ?_ _ _ _
    exact known
  | @referrals _ _ _ saving =>
    unfold handleReferrals
    dsimp only
    split
    · refine Known.createReferralsFile ?_ saving
      exact known
    · exact known

theorem not_loses_of_keeps {e : ConfigEvent}
    (hchanges : ∀ name file modTime told, ¬s.Changes e name file modTime told) (hstop : e ≠ .stop) :
    ¬s.Loses e := by
  intro loses
  cases loses with
  | change changes => exact hchanges _ _ _ _ changes
  | stop => exact hstop rfl

theorem step_noneLost_iff {e : ConfigEvent} {s' : ConfigState}
    (h : s.step adjustTraddr e = some s') (known : s.Known) (good : s.NoneLost) :
    s'.NoneLost ↔ ¬s.Loses e := by
  -- the client's own steps and a removal lose nothing
  have keeps (kept : s'.NoneLost)
      (hchanges : ∀ name file modTime told, ¬s.Changes e name file modTime told)
      (hstop : e ≠ .stop) : s'.NoneLost ↔ ¬s.Loses e :=
    iff_of_true kept (not_loses_of_keeps hchanges hstop)
  cases step_takes h with
  | put hle =>
    exact change_noneLost_iff known good (.put _ _ _ _) hle (AList.lookup_insert _)
      (fun other f hne hf => (AList.lookup_insert_ne hne).symm.trans hf)
      fun ordinary => notifications_put ordinary _
  | write =>
    exact change_noneLost_iff known good (.write _ _ _) (Int.le_refl _) (AList.lookup_insert _)
      (fun other f hne hf => (AList.lookup_insert_ne hne).symm.trans hf)
      fun _ => notifications_write _
  | rename hfile hle hne =>
    refine change_noneLost_iff known good (.rename _ _ _ hfile) hle (AList.lookup_insert _)
      (fun other f hother hf => ?_) fun ordinary => notifications_rename hne ordinary _
    rw [AList.lookup_insert_ne hother] at hf
    exact (GoMap.lookup_erase_some hf).2
  | remove hle => exact keeps (remove_noneLost known good hle) nofun nofun
  | start hphase => exact keeps (start_noneLost hphase good _ _) nofun nofun
  | read hphase => exact keeps (read_noneLost hphase good _) nofun nofun
  | endRead hphase => exact keeps (endRead_noneLost hphase good _) nofun nofun
  | watch hphase => exact keeps (watch_noneLost hphase good) nofun nofun
  | handle hphase hqueue =>
    exact keeps ((handle_handled _ _ _).noneLost hphase hqueue good) nofun nofun
  | referrals hphase => exact keeps (handleReferrals_noneLost hphase good _ _ _ _) nofun nofun
  | stop => exact stop_noneLost_iff known

end ConfigState

/-- A client that has started on a directory with one empty file and watches it. -/
def watchingEmptyFile : ConfigState where
  files := (∅ : GoMap GoString UserFile).insert (ascii "a.conf") (.content [] false)
  modTime := 1
  internal := .referrals ⟨[], 2⟩
  phase := .watching
  cache := newCache ∅
  queue := []
  loaded := [.content [] false]
  saved := [.content [] false]

theorem watchingEmptyFile_reached :
    (configWatch fun _ => true).Reaches watchingEmptyFile := by
  have stopped : (configWatch fun _ => true).Reaches
      ⟨∅, 0, .missing, .stopped, newCache ∅, [], [], []⟩ := ⟨[], .start ⟨rfl, rfl⟩⟩
  refine Machine.Reaches.events (fun s e s' (h : s.step (fun _ => true) e = some s') => h)
    [.put (ascii "a.conf") (.content [] false) 1 1, .start ∅ .stored, .read .stored,
      .endRead (some 2), .watch] stopped ?_
  rfl

end DiscoveryClient
