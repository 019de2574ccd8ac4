import DiscoveryClient.DetectedControllers
import DiscoveryClient.Machine
import DiscoveryClient.RestoredEntries
import DiscoveryClient.Restart

/-! A host whose configuration has been deleted. The first start of the client detects the
discovery services from the controllers that the kernel is still connected to, and stores them in a
file; this and all later starts are to work with them. -/

namespace DiscoveryClient

open GoString Commonstructs

/-- `model.AutoDetectEntries`. -/
structure AutoDetectEntries where
  enabled : Bool
  filename : GoString
  discoveryServicePort : UInt32

/-- Whether a directory with these names is empty; `none` stands for an error. -/
def isDirectoryEmpty (names : Option (List GoString)) : Option Bool := names.map List.isEmpty

def shouldGenerateAutoDetectedEntries (clientConfigDir internalDir : Option (List GoString)) :
    Bool :=
  (isDirectoryEmpty clientConfigDir).getD true && (isDirectoryEmpty internalDir).getD true

structure ClientDirs where
  user : UserDir
  internal : InternalFile
  /-- The other names in the directory of `internal.json`. -/
  others : Option (List GoString)

def ClientDirs.userNames (dirs : ClientDirs) : Option (List GoString) :=
  dirs.user.files.map fun files => files.map (·.name)

def ClientDirs.internalNames (dirs : ClientDirs) : Option (List GoString) :=
  dirs.others.map fun others =>
    if dirs.internal = .missing then others else ascii "internal.json" :: others

/-- The file that `StoreEntries` writes. -/
def storedFile (filename : GoString) (entries : List Commonstructs.Entry) : DirEntry :=
  ⟨filename, false, .content (entriesToString entries) false⟩

/-- `StoreEntries` at a time, or where it fails. A file of that name is replaced, and the names are
listed in their order. -/
def storeEntries (dir : UserDir) (filename : GoString) (entries : List Commonstructs.Entry) :
    Option Int → UserDir
  | none => dir
  | some modTime =>
    ⟨some modTime, dir.files.map fun files =>
      (storedFile filename entries :: files.filter (·.name ≠ filename)).mergeSort
        fun f g => f.name ≤ g.name⟩

/-- What a start meets. -/
structure ClientStart where
  lookupIP : GoString → Except GoString GoIP.IP
  controllers : List IOController
  nvmfHosts : GoMap GoString GoString
  order : GoString → RangeOrder Entry
  /-- When `StoreEntries` put its file in place, `none` if it failed. -/
  storing : Option Int
  /-- When `createReferralsFile` took its time, `none` if it failed. -/
  saving : Option Int

namespace ClientStart

def adjusts (start : ClientStart) (host : GoString) : Bool :=
  (adjustTraddr start.lookupIP host).isOk

def detects (start : ClientStart) (auto : AutoDetectEntries) : List Commonstructs.Entry :=
  detectEntriesByIOControllers start.lookupIP nvmeCtrlPath auto.discoveryServicePort.toNat
    start.controllers

end ClientStart

namespace ClientDirs

/-- The settings, where they ask for a detection and the directories call for one. -/
def generating (dirs : ClientDirs) (autoDetectEntries : Option AutoDetectEntries) :
    Option AutoDetectEntries :=
  autoDetectEntries.filter fun auto =>
    auto.enabled && shouldGenerateAutoDetectedEntries dirs.userNames dirs.internalNames

/-- `sync` in a new cache. -/
def sync (dirs : ClientDirs) (start : ClientStart) : Outcome :=
  DiscoveryClient.sync start.adjusts start.order (newCache start.nvmfHosts) dirs.internal dirs.user

/-- What `sync` leaves on the disk. -/
def written (dirs : ClientDirs) (o : Outcome) (saving : Option Int) : ClientDirs :=
  match saving with
  | some now =>
    if o.writesJson then { dirs with internal := createReferralsFile o.cache now } else dirs
  | none => dirs

def usesInternalJson (dirs : ClientDirs) : Bool :=
  match useInternalJson dirs.internal dirs.user with
  | .ok (some _) => true
  | _ => false

end ClientDirs

structure ClientState where
  dirs : ClientDirs
  /-- The cache of the running client, as its start has filled it. -/
  running : Option Cache
  /-- What the last detection found. -/
  detected : List Commonstructs.Entry

inductive StartStop
  | start (start : ClientStart)
  | stop

namespace ClientState

variable (autoDetectEntries : Option AutoDetectEntries)

/-- A client that `sync` returns an error to ends. -/
def started (dirs : ClientDirs) (input : ClientStart) (detected : List Commonstructs.Entry) :
    ClientState where
  dirs := dirs.written (dirs.sync input) input.saving
  running := if (dirs.sync input).err.isSome then none else some (dirs.sync input).cache
  detected := detected

/-- `Run` up to where it watches the directory. That `StoreEntries` fails is not noticed. -/
def start (s : ClientState) (input : ClientStart) : ClientState :=
  match s.dirs.generating autoDetectEntries with
  | some auto =>
    started
      { s.dirs with
        user := storeEntries s.dirs.user auto.filename (input.detects auto) input.storing }
      input (input.detects auto)
  | none => started s.dirs input s.detected

def step (s : ClientState) : StartStop → Option ClientState
  | .start input =>
    match s.running with
    | none => some (s.start autoDetectEntries input)
    | some _ => none
  | .stop => some { s with running := none }

/-- A running client has the services that were detected. -/
def Restored (s : ClientState) : Prop := ∀ c, s.running = some c → Restores s.detected c

/-- A start that detects stores entries that are fit to be restored. A later one reads valid strings
from `internal.json`, or it can look up the addresses in the file. -/
def Suits (s : ClientState) : StartStop → Prop
  | .start input =>
    match s.dirs.generating autoDetectEntries with
    | some auto =>
      Restorable (input.detects auto) ∧ (input.storing.isSome ∨ input.detects auto = [])
    | none =>
      if s.dirs.usesInternalJson then ∀ entry ∈ s.detected, entry.toConfig.ValidStrings
      else ∀ entry ∈ s.detected, input.adjusts entry.traddr = true
  | .stop => True

end ClientState

theorem detectEntries_created {lookupIP : GoString → Except GoString GoIP.IP} {port : Nat}
    {c : IOController} {entries : List Commonstructs.Entry}
    (h : detectEntries lookupIP port c = some entries) :
    ∀ entry ∈ entries, Created (fun host => (adjustTraddr lookupIP host).isOk) entry := by
  obtain ⟨nqn, -, h⟩ := Option.bind_eq_some_iff.mp h
  split at h
  next => cases h
  next =>
    obtain ⟨transport, -, h⟩ := Option.bind_eq_some_iff.mp h
    split at h
    next => cases h
    next =>
      obtain ⟨hostnqn, -, h⟩ := Option.bind_eq_some_iff.mp h
      obtain ⟨hostid, -, h⟩ := Option.bind_eq_some_iff.mp h
      obtain ⟨address, -, h⟩ := Option.bind_eq_some_iff.mp h
      obtain ⟨parsed, -, h⟩ := Option.bind_eq_some_iff.mp h
      exact createEntries_created (toOption_eq_some_iff.mp h)

theorem ClientStart.detects_created (start : ClientStart) (auto : AutoDetectEntries) :
    ∀ entry ∈ start.detects auto, Created start.adjusts entry := by
  intro entry hentry
  obtain ⟨c, -, hc⟩ := List.mem_flatMap.mp hentry
  cases hdetect : detectEntries start.lookupIP auto.discoveryServicePort.toNat c with
  | none =>
    rw [hdetect] at hc
    exact absurd hc List.not_mem_nil
  | some entries =>
    rw [hdetect] at hc
    exact detectEntries_created hdetect entry hc

theorem restores_newCache_iff {found : List Commonstructs.Entry}
    {nvmfHosts : GoMap GoString GoString} : Restores found (newCache nvmfHosts) ↔ found = [] := by
  constructor
  · intro restores
    refine List.eq_nil_iff_forall_not_mem.mpr fun entry hentry => ?_
    obtain ⟨x, hx, -⟩ := restores.all entry hentry
    exact absurd hx List.not_mem_nil
  · rintro rfl
    exact ⟨by simp, by simp [newCache]⟩

theorem restorable_nil : Restorable [] := ⟨by simp, by simp [HostIDsAgree]⟩

namespace ClientDirs

/-- The file of the entries stands in the user's directory, unless there was nothing to store. -/
def Holds (dirs : ClientDirs) (found : List Commonstructs.Entry) : Prop :=
  (∃ name, dirs.user.files = some [storedFile name found]) ∨
    dirs.user.files = some [] ∧ found = []

variable {dirs : ClientDirs} {found : List Commonstructs.Entry} {input : ClientStart}

/-- A start that reads the user's directory. -/
theorem sync_directory {files : List DirEntry} (hfiles : dirs.user.files = some files)
    (hread : useInternalJson dirs.internal dirs.user = .ok none) :
    dirs.sync input =
      syncFiles input.adjusts input.order (newCache input.nvmfHosts) files [] := by
  simp only [ClientDirs.sync, DiscoveryClient.sync, hread, hfiles]

theorem syncFiles_stored (adjustTraddr : GoString → Bool) (order : GoString → RangeOrder Entry)
    (c : Cache) (name : GoString) :
    (syncFiles adjustTraddr order c [storedFile name found] []).cache =
      (fileAdded adjustTraddr (order name) c (.content (entriesToString found) false)).1 := by
  rw [syncFiles, storedFile, if_neg Bool.false_ne_true]
  rcases fileAdded adjustTraddr (order name) c (.content (entriesToString found) false) with
    ⟨c', _ | pairs⟩
  · rfl
  · rfl

/-- What the directories hold once the entries are detected. -/
structure Prepared (dirs : ClientDirs) (found : List Commonstructs.Entry) : Prop where
  filled : ∀ entry ∈ found, Filled entry
  holds : dirs.Holds found
  modTime : ∃ modTime, dirs.user.modTime = some modTime
  others : dirs.others = some []
  internal : dirs.internal = .missing ∨
    ∃ c now, dirs.internal = createReferralsFile c now ∧ Saved found c

theorem Prepared.written (prepared : dirs.Prepared found) {o : Outcome}
    (hsaved : o.writesJson = true → Saved found o.cache) (saving : Option Int) :
    (dirs.written o saving).Prepared found := by
  unfold ClientDirs.written
  cases saving with
  | none => exact prepared
  | some now =>
    dsimp only
    split
    next hwrite =>
      exact ⟨prepared.filled, prepared.holds, prepared.modTime, prepared.others,
        Or.inr ⟨o.cache, now, rfl, hsaved hwrite⟩⟩
    next => exact prepared

/-- A start reads the user's directory, or the entries that were saved. -/
theorem Prepared.reads (prepared : dirs.Prepared found) :
    useInternalJson dirs.internal dirs.user = .ok none ∨
      ∃ c, Saved found c ∧ useInternalJson dirs.internal dirs.user =
        .ok (some (c.cacheEntries.map fun x => x.entry.throughJson)) := by
  obtain ⟨modTime, hmod⟩ := prepared.modTime
  rcases prepared.internal with hmissing | ⟨c, now, hjson, saved⟩
  · rw [hmissing]
    exact Or.inl rfl
  · rw [hjson, createReferralsFile, useInternalJson, hmod]
    dsimp only
    split
    next => exact Or.inl rfl
    next =>
      split
      next => exact Or.inl rfl
      next => exact Or.inr ⟨c, saved, rfl⟩

/-- From the file, the entries are restored if they are fit to be and their addresses are known. -/
theorem Prepared.restores_directory_iff (prepared : dirs.Prepared found)
    (hread : useInternalJson dirs.internal dirs.user = .ok none) :
    (dirs.sync input).err = none ∧
      (Restores found (dirs.sync input).cache ↔
        Restorable found ∧ ∀ entry ∈ found, input.adjusts entry.traddr = true) ∧
      (Restores found (dirs.sync input).cache → Saved found (dirs.sync input).cache) := by
  rcases prepared.holds with ⟨name, hfiles⟩ | ⟨hfiles, rfl⟩
  · rw [sync_directory hfiles hread, syncFiles_stored]
    exact ⟨syncFiles_err, restores_fileAdded_iff prepared.filled, saved_fileAdded⟩
  · rw [sync_directory hfiles hread]
    have hnew : Restores [] (newCache input.nvmfHosts) := restores_newCache_iff.mpr rfl
    refine ⟨rfl, iff_of_true hnew ⟨restorable_nil, by simp⟩, fun _ => ⟨hnew, ?_, ?_, ?_⟩⟩
    all_goals
      intro x hx
      exact absurd hx List.not_mem_nil

end ClientDirs

namespace ClientState

variable {autoDetectEntries : Option AutoDetectEntries} {s s' : ClientState} {input : ClientStart}

/-- What a run keeps: the detected entries are fit to be restored, and on the disk. -/
structure Remembers (s : ClientState) : Prop where
  restorable : Restorable s.detected
  dirs : s.dirs.Prepared s.detected

section Started

variable {dirs : ClientDirs} {found : List Commonstructs.Entry}

theorem started_restored_iff (herr : (dirs.sync input).err = none) :
    (started dirs input found).Restored ↔ Restores found (dirs.sync input).cache := by
  simp [Restored, started, herr]

theorem started_directory_iff (prepared : dirs.Prepared found)
    (hread : useInternalJson dirs.internal dirs.user = .ok none) :
    ((started dirs input found).Restored ↔
        Restorable found ∧ ∀ entry ∈ found, input.adjusts entry.traddr = true) ∧
      ((started dirs input found).Restored → (started dirs input found).Remembers) := by
  obtain ⟨herr, hiff, hsaved⟩ :=
    @ClientDirs.Prepared.restores_directory_iff dirs found input prepared hread
  rw [started_restored_iff herr]
  refine ⟨hiff, fun restores => ⟨(hiff.mp restores).1, ?_⟩⟩
  exact prepared.written (fun _ => hsaved restores) input.saving

theorem started_json_iff (prepared : dirs.Prepared found) (restorable : Restorable found)
    {c : Cache} (saved : Saved found c)
    (hread : useInternalJson dirs.internal dirs.user =
      .ok (some (c.cacheEntries.map fun x => x.entry.throughJson))) :
    ((started dirs input found).Restored ↔ ∀ entry ∈ found, entry.toConfig.ValidStrings) ∧
      (started dirs input found).Remembers := by
  have hsync : dirs.sync input = syncEntries (newCache input.nvmfHosts)
      (c.cacheEntries.map fun x => x.entry.throughJson) [] := by
    simp only [ClientDirs.sync, DiscoveryClient.sync, hread]
  obtain ⟨herr, hiff⟩ := restores_syncEntries_iff saved restorable.hostIDs input.nvmfHosts
  rw [← hsync] at herr hiff
  rw [started_restored_iff herr]
  refine ⟨hiff, restorable, prepared.written (fun hwrite => ?_) input.saving⟩
  -- what was saved stays as it is
  rw [hsync, syncEntries_writesJson] at hwrite
  cases hwrite

end Started

/-- A detection finds both directories empty. -/
theorem Remembers.of_generating (remembers : s.Remembers) {auto : AutoDetectEntries}
    (h : s.dirs.generating autoDetectEntries = some auto) :
    s.dirs.user.files = some [] ∧ s.dirs.internal = .missing := by
  have hshould := (Option.filter_eq_some_iff.mp h).2
  simp only [Bool.and_eq_true, shouldGenerateAutoDetectedEntries, ClientDirs.userNames,
    ClientDirs.internalNames, remembers.dirs.others] at hshould
  obtain ⟨-, huser, hinternal⟩ := hshould
  constructor
  · rcases remembers.dirs.holds with ⟨name, hfiles⟩ | ⟨hfiles, -⟩
    · simp [hfiles, isDirectoryEmpty] at huser
    · exact hfiles
  · by_contra hthere
    simp [hthere, isDirectoryEmpty] at hinternal

section Generating

variable {auto : AutoDetectEntries} (hgen : s.dirs.generating autoDetectEntries = some auto)
include hgen

/-- The directories with which a start goes on once it has detected and stored. -/
theorem Remembers.prepared (remembers : s.Remembers)
    (hstored : input.storing.isSome ∨ input.detects auto = []) :
    ClientDirs.Prepared { s.dirs with
      user := storeEntries s.dirs.user auto.filename (input.detects auto) input.storing }
      (input.detects auto) := by
  obtain ⟨hfiles, hmissing⟩ := remembers.of_generating hgen
  have hfilled : ∀ entry ∈ input.detects auto, Filled entry := fun entry hentry =>
    (input.detects_created auto entry hentry).filled
  cases hstoring : input.storing with
  | some modTime =>
    refine ⟨hfilled, Or.inl ⟨auto.filename, ?_⟩, ⟨modTime, rfl⟩, remembers.dirs.others,
      Or.inl hmissing⟩
    simp [storeEntries, hfiles]
  | none =>
    have hnone : input.detects auto = [] := by simpa [hstoring] using hstored
    exact ⟨hfilled, Or.inr ⟨hfiles, hnone⟩, remembers.dirs.modTime, remembers.dirs.others,
      Or.inl hmissing⟩

theorem Remembers.start_generating_iff (remembers : s.Remembers) :
    ((s.start autoDetectEntries input).Restored ↔ s.Suits autoDetectEntries (.start input)) ∧
      ((s.start autoDetectEntries input).Restored →
        (s.start autoDetectEntries input).Remembers) := by
  obtain ⟨hfiles, hmissing⟩ := remembers.of_generating hgen
  have hread : ∀ user, useInternalJson s.dirs.internal user = .ok none := by
    intro user
    rw [hmissing]
    rfl
  simp only [start, Suits, hgen]
  by_cases hstored : input.storing.isSome ∨ input.detects auto = []
  · obtain ⟨hiff, hkeeps⟩ := @started_directory_iff input _ _
      (remembers.prepared hgen hstored) (hread _)
    refine ⟨hiff.trans (and_congr_right fun _ => iff_of_true ?_ hstored), hkeeps⟩
    exact fun entry hentry => (input.detects_created auto entry hentry).adjusted
  · -- nothing is stored, and what was detected is not there
    obtain ⟨hstoring, hfound⟩ := not_or.mp hstored
    have hnone : input.storing = none := by simpa using hstoring
    have hsync := @ClientDirs.sync_directory s.dirs input _ hfiles (hread _)
    have hnot : ¬(started s.dirs input (input.detects auto)).Restored := by
      rw [started_restored_iff (by rw [hsync]; rfl), hsync]
      exact fun restores => hfound (restores_newCache_iff.mp restores)
    rw [hnone]
    exact ⟨iff_of_false hnot fun suits => hstored (by rw [hnone]; exact suits.2),
      fun restored => absurd restored hnot⟩

end Generating

theorem Remembers.start_iff (remembers : s.Remembers) :
    ((s.start autoDetectEntries input).Restored ↔ s.Suits autoDetectEntries (.start input)) ∧
      ((s.start autoDetectEntries input).Restored →
        (s.start autoDetectEntries input).Remembers) := by
  cases hgen : s.dirs.generating autoDetectEntries with
  | some auto => exact remembers.start_generating_iff hgen
  | none =>
    simp only [start, Suits, hgen, ClientDirs.usesInternalJson]
    rcases remembers.dirs.reads with hread | ⟨c, saved, hread⟩
    · obtain ⟨hiff, hkeeps⟩ := @started_directory_iff input _ _ remembers.dirs hread
      simp only [hread, Bool.false_eq_true, if_false]
      exact ⟨hiff.trans (and_iff_right remembers.restorable), hkeeps⟩
    · obtain ⟨hiff, hkeeps⟩ :=
        @started_json_iff input _ _ remembers.dirs remembers.restorable _ saved hread
      simp only [hread, if_true]
      exact ⟨hiff, fun _ => hkeeps⟩

end ClientState

/-- Both directories are there and empty, and no client runs. -/
def clientStarts (autoDetectEntries : Option AutoDetectEntries) :
    Machine ClientState StartStop where
  init s := (∃ modTime, s.dirs = ⟨⟨some modTime, some []⟩, .missing, some []⟩) ∧
    s.running = none ∧ s.detected = []
  step s e s' := s.step autoDetectEntries e = some s'

/-- A host with one controller, on which the file cannot be stored. -/
def unstoredStart : ClientStart where
  lookupIP := noLookup
  controllers := [sampleController 3 (ascii "traddr=10.0.0.1,trsvcid=4420")]
  nvmfHosts := ∅
  order _ := .stored
  storing := none
  saving := some 1

def detectingClient : AutoDetectEntries := ⟨true, ascii "detected-io-controllers", 8009⟩

theorem unstoredStart_detects : unstoredStart.detects detectingClient ≠ [] := by
  intro hnone
  have hperm := detectEntriesByIOControllers_perm noLookup 8009
    [sampleController 3 (ascii "traddr=10.0.0.1,trsvcid=4420")]
  have hempty : [sampleController 3 (ascii "traddr=10.0.0.1,trsvcid=4420")].flatMap
      (entriesFor noLookup 8009) = [] := (hperm.symm.trans (List.Perm.of_eq hnone)).eq_nil
  revert hempty
  decide +kernel

end DiscoveryClient
