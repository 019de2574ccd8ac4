import DiscoveryClient.ConfigWatch
import DiscoveryClient.ConfText

/-! Files that `CreateFile` writes under a temporary name and renames, while a client starts, reads,
watches and stops. -/

namespace DiscoveryClient

open GoString Commonstructs

/-- A call of `CreateFile` that has opened its temporary file. -/
structure FileWriter where
  filename : GoString
  entries : List Commonstructs.Entry
  ordinary : reserved filename = false

def FileWriter.content (w : FileWriter) : GoString := entriesToString w.entries

structure PublishState where
  config : ConfigState
  /-- The calls under way, by the name of the temporary file. -/
  writers : GoMap GoString FileWriter
  /-- The call that each file comes from, also when it is over or was cut short. -/
  made : GoMap GoString FileWriter

inductive PublishEvent
  | createTemp (tmpfile : GoString) (writer : FileWriter) (modTime : Int) (room : Nat)
  /-- So many bytes of the content are in the file. -/
  | write (tmpfile : GoString) (count room : Nat)
  | rename (tmpfile : GoString) (modTime : Int) (room : Nat)
  /-- The deferred `os.Remove` after an error. -/
  | cleanUp (tmpfile : GoString) (modTime : Int) (room : Nat)
  | crash (tmpfile : GoString)
  /-- The client's own steps, and files that the user removes. -/
  | other (e : ConfigEvent)

/-- The event makes or fills a file. -/
def ConfigEvent.fillsFile : ConfigEvent → Bool
  | .put .. | .write .. | .rename .. => true
  | _ => false

namespace PublishState

variable (adjustTraddr : GoString → Bool)

/-- A step that only concerns the directory and the client. -/
def configStep (s : PublishState) (e : ConfigEvent) : Option PublishState :=
  (s.config.step adjustTraddr e).map fun config => { s with config }

def step (s : PublishState) : PublishEvent → Option PublishState
  | .createTemp tmpfile writer modTime room =>
    -- `os.CreateTemp` takes a name that is not in use
    if reserved tmpfile = true ∧ tmpfile ∉ s.config.files ∧ tmpfile ∉ s.writers then
      configStep adjustTraddr
        { s with
          writers := s.writers.insert tmpfile writer
          made := s.made.insert tmpfile writer }
        (.put tmpfile (.content [] false) modTime room)
    else none
  | .write tmpfile count room => do
    let writer ← s.writers.lookup tmpfile
    configStep adjustTraddr s (.write tmpfile (.content (writer.content.take count) false) room)
  | .rename tmpfile modTime room => do
    let writer ← s.writers.lookup tmpfile
    -- the deferred `os.Remove` then finds nothing under the temporary name
    if s.config.files.lookup tmpfile = some (.content writer.content false) then
      configStep adjustTraddr
        { s with
          writers := s.writers.erase tmpfile
          made := s.made.insert writer.filename writer }
        (.rename tmpfile writer.filename modTime room)
    else none
  | .cleanUp tmpfile modTime room => do
    let _ ← s.writers.lookup tmpfile
    let s := { s with writers := s.writers.erase tmpfile }
    if tmpfile ∈ s.config.files then configStep adjustTraddr s (.remove tmpfile modTime room)
    else some s
  | .crash tmpfile => some { s with writers := s.writers.erase tmpfile }
  | .other e => if e.fillsFile then none else configStep adjustTraddr s e

end PublishState

namespace ConfigState

/-- The step gives the file of the name to `fileAdded`: in the loop of `sync`, or for an event. -/
inductive LoadsFile (s : ConfigState) (name : GoString) : ConfigEvent → Prop
  | read {todo : List GoString} (order : RangeOrder Entry)
      (hphase : s.phase = .reading (name :: todo)) : LoadsFile s name (.read order)
  | handle {e : FileEvent} {rest : List FileEvent} (order : RangeOrder Entry)
      (saving : Option Int) (hphase : s.phase = .watching) (hqueue : s.queue = e :: rest)
      (hname : e.name = name) (hloads : e.Loads) : LoadsFile s name (.handle order saving)

variable {s : ConfigState}

/-- The loop of `Run` skips temporary names. -/
theorem LoadsFile.read_of_reserved {name : GoString} {e : ConfigEvent} (loads : s.LoadsFile name e)
    (hreserved : reserved name = true) :
    ∃ order todo, e = .read order ∧ s.phase = .reading (name :: todo) := by
  cases loads with
  | @read todo order hphase => exact ⟨order, todo, rfl, hphase⟩
  | handle order saving hphase hqueue hname hloads =>
    subst hname
    rw [hloads.1] at hreserved
    cases hreserved

end ConfigState

namespace PublishState

variable {adjustTraddr : GoString → Bool} {s s' : PublishState}

/-- The file under the name has the whole content that its call of `CreateFile` writes. -/
def Finished (s : PublishState) (name : GoString) : Prop :=
  ∀ file, s.config.files.lookup name = some file →
    ∃ writer, s.made.lookup name = some writer ∧ file = .content writer.content false

/-- What the client loads in the step is whole. -/
def LoadsWhole (s : PublishState) : PublishEvent → Prop
  | .other e => ∀ name, s.config.LoadsFile name e → s.Finished name
  | _ => True

/-- A temporary file that the loop of `sync` comes to is finished. -/
def ReadsFinished (s : PublishState) : PublishEvent → Prop
  | .other (.read _) => ∀ name todo, s.config.phase = .reading (name :: todo) →
    reserved name = true → s.Finished name
  | _ => True

/-- Calls under way use reserved names, and under the other names there are only finished files. -/
structure Published (s : PublishState) : Prop where
  tmpfiles : ∀ tmpfile writer, s.writers.lookup tmpfile = some writer → reserved tmpfile = true
  finished : ∀ name, reserved name = false → s.Finished name

theorem Published.loadsWhole_iff (published : s.Published) (e : PublishEvent) :
    s.LoadsWhole e ↔ s.ReadsFinished e := by
  cases e with
  | other e =>
    constructor
    · intro whole
      cases e with
      | read order => exact fun name todo hphase _ => whole name (.read order hphase)
      | _ => trivial
    · intro reads name loads
      cases hreserved : reserved name with
      | false => exact published.finished name hreserved
      | true =>
        obtain ⟨order, todo, rfl, hphase⟩ := loads.read_of_reserved hreserved
        exact reads name todo hphase hreserved
  | _ => exact Iff.rfl

theorem Published.erase (published : s.Published) (tmpfile : GoString) :
    Published { s with writers := s.writers.erase tmpfile } :=
  ⟨fun other writer hother => published.tmpfiles other writer (GoMap.lookup_erase_some hother).2,
    published.finished⟩

/-- A step that leaves every ordinary file as it is, or removes it. -/
theorem Published.config (published : s.Published) {config : ConfigState}
    (hkeeps : ∀ name file, reserved name = false → config.files.lookup name = some file →
      s.config.files.lookup name = some file) : Published { s with config } :=
  ⟨published.tmpfiles, fun name ordinary file hfile =>
    published.finished name ordinary file (hkeeps name file ordinary hfile)⟩

/-- All steps but those that fill a file leave the files as they are, or remove one. -/
theorem lookup_of_step {config config' : ConfigState} {e : ConfigEvent}
    (h : config.step adjustTraddr e = some config') (hfills : e.fillsFile = false)
    {name : GoString} {file : UserFile} (hfile : config'.files.lookup name = some file) :
    config.files.lookup name = some file := by
  cases ConfigState.step_takes h with
  | put | write | rename => cases hfills
  | remove => exact (GoMap.lookup_erase_some hfile).2
  | start =>
    unfold ConfigState.start at hfile
    split at hfile
    next => exact hfile
    next =>
      dsimp only at hfile
      split at hfile <;> exact hfile
    next => exact hfile
  | read | watch | stop => exact hfile
  | endRead =>
    rw [ConfigState.createReferralsFile_files] at hfile
    exact hfile
  | handle =>
    rw [(ConfigState.handle_handled _ _ _).files] at hfile
    exact hfile
  | referrals =>
    unfold ConfigState.handleReferrals at hfile
    dsimp only at hfile
    split at hfile
    · rw [ConfigState.createReferralsFile_files] at hfile
      exact hfile
    · exact hfile

theorem ne_of_reserved {name tmpfile : GoString} (ordinary : reserved name = false)
    (hreserved : reserved tmpfile = true) : name ≠ tmpfile := by
  rintro rfl
  rw [ordinary] at hreserved
  cases hreserved

/-- A temporary file comes or grows. -/
theorem Published.insert (published : s.Published) {tmpfile : GoString}
    (hreserved : reserved tmpfile = true) (file : UserFile) (modTime : Int)
    (events : List FsEvent) (room : Nat) :
    Published { s with
      config := s.config.change (s.config.files.insert tmpfile file) modTime events room } := by
  refine published.config fun name other ordinary hother => ?_
  exact (AList.lookup_insert_ne (ne_of_reserved ordinary hreserved)).symm.trans hother

/-- The whole content is there before the name is. -/
theorem Published.rename (published : s.Published) {tmpfile : GoString} {writer : FileWriter}
    (modTime : Int) (events : List FsEvent) (room : Nat) :
    Published { s with
      config := s.config.change ((s.config.files.erase tmpfile).insert writer.filename
        (.content writer.content false)) modTime events room
      made := s.made.insert writer.filename writer } := by
  refine ⟨published.tmpfiles, fun name ordinary file hfile => ?_⟩
  rcases GoMap.lookup_insert_some hfile with ⟨rfl, rfl⟩ | ⟨hne, hfile⟩
  · exact ⟨writer, AList.lookup_insert _, rfl⟩
  · obtain ⟨other, hmade, hcontent⟩ :=
      published.finished name ordinary file (GoMap.lookup_erase_some hfile).2
    exact ⟨other, (AList.lookup_insert_ne hne).trans hmade, hcontent⟩

theorem Published.createTemp (published : s.Published) {tmpfile : GoString}
    (hreserved : reserved tmpfile = true) (writer : FileWriter) :
    Published { s with
      writers := s.writers.insert tmpfile writer
      made := s.made.insert tmpfile writer } := by
  refine ⟨fun other w hw => ?_, fun name ordinary file hfile => ?_⟩
  · rcases GoMap.lookup_insert_some hw with ⟨rfl, -⟩ | ⟨-, hw⟩
    · exact hreserved
    · exact published.tmpfiles other w hw
  · obtain ⟨w, hmade, hcontent⟩ := published.finished name ordinary file hfile
    have hne := ne_of_reserved ordinary hreserved
    exact ⟨w, (AList.lookup_insert_ne hne).trans hmade, hcontent⟩

theorem Published.step {e : PublishEvent} (published : s.Published)
    (h : s.step adjustTraddr e = some s') : s'.Published := by
  cases e with
  | createTemp tmpfile writer modTime room =>
    obtain ⟨⟨hreserved, -⟩, h⟩ := Option.ite_none_right_eq_some.mp h
    obtain ⟨config, hconfig, rfl⟩ := Option.map_eq_some_iff.mp h
    cases ConfigState.step_takes hconfig with
    | put => exact (published.createTemp hreserved writer).insert hreserved _ _ _ _
  | write tmpfile count room =>
    obtain ⟨writer, hwriter, h⟩ := Option.bind_eq_some_iff.mp h
    obtain ⟨config, hconfig, rfl⟩ := Option.map_eq_some_iff.mp h
    cases ConfigState.step_takes hconfig with
    | write => exact published.insert (published.tmpfiles tmpfile writer hwriter) _ _ _ _
  | rename tmpfile modTime room =>
    obtain ⟨writer, -, h⟩ := Option.bind_eq_some_iff.mp h
    obtain ⟨hcontent, h⟩ := Option.ite_none_right_eq_some.mp h
    obtain ⟨config, hconfig, rfl⟩ := Option.map_eq_some_iff.mp h
    cases ConfigState.step_takes hconfig with
    | rename hfile =>
      obtain rfl := Option.some.inj (hcontent.symm.trans hfile)
      exact (published.rename _ _ _).erase tmpfile
  | cleanUp tmpfile modTime room =>
    obtain ⟨_, -, h⟩ := Option.bind_eq_some_iff.mp h
    dsimp only at h
    split at h
    · obtain ⟨config, hconfig, rfl⟩ := Option.map_eq_some_iff.mp h
      exact (published.erase tmpfile).config fun _ _ _ => lookup_of_step hconfig rfl
    · obtain rfl := Option.some.inj h
      exact published.erase tmpfile
  | crash tmpfile =>
    obtain rfl := Option.some.inj h
    exact published.erase tmpfile
  | other e =>
    obtain ⟨hfills, h⟩ := Option.ite_none_left_eq_some.mp h
    obtain ⟨config, hconfig, rfl⟩ := Option.map_eq_some_iff.mp h
    exact published.config fun _ _ _ => lookup_of_step hconfig (Bool.eq_false_iff.mpr hfills)

end PublishState

/-- A first start in a directory without files. -/
def configPublication (adjustTraddr : GoString → Bool) : Machine PublishState PublishEvent where
  init s := s.config.phase = .stopped ∧ s.config.internal = .missing ∧ s.config.files = ∅ ∧
    s.config.loaded = [] ∧ s.config.saved = [] ∧ s.writers = ∅ ∧ s.made = ∅
  step s e s' := s.step adjustTraddr e = some s'

/-- Any number of `CreateFile` calls may write, fail and crash at any time: what the client loads is
always the whole content of the call, except where a start finds a temporary file that is not
finished. -/
theorem created_files_loaded_whole_iff {adjustTraddr : GoString → Bool}
    {past : List (PublishState × PublishEvent)} {s : PublishState}
    (run : (configPublication adjustTraddr).Run past s) :
    Machine.Each PublishState.LoadsWhole past ↔ Machine.Each PublishState.ReadsFinished past := by
  refine (run.each_iff_each (J := PublishState.Published) ?_ ?_).1
  · rintro s ⟨-, -, hfiles, -, -, hwriters, -⟩
    refine ⟨fun tmpfile writer h => ?_, fun name _ file h => ?_⟩
    · simp [hwriters] at h
    · simp [hfiles] at h
  · intro s e s' published h
    exact ⟨published.loadsWhole_iff e, fun _ => published.step h⟩

def firstEntry : Commonstructs.Entry :=
  ⟨ascii "tcp", ascii "10.0.0.2", 8009, ascii "nqn.h", ascii "nqn.c", []⟩

def twoEntriesWriter : FileWriter where
  filename := ascii "a.conf"
  entries := [firstEntry, { firstEntry with traddr := ascii "10.0.0.3" }]
  ordinary := by decide

/-- As much of the call's content as the first entry takes. -/
def firstEntryText : GoString := twoEntriesWriter.content.take (entriesToString [firstEntry]).length

/-- A client that is about to read the first of two entries, left by a call that crashed. -/
def readingFirstEntry : PublishState where
  config :=
    { files :=
        (∅ : GoMap GoString UserFile).insert (ascii "tmp.dc.1") (.content firstEntryText false)
      modTime := 1
      internal := .missing
      phase := .reading [ascii "tmp.dc.1"]
      cache := newCache ∅
      queue := []
      loaded := []
      saved := [] }
  writers := ∅
  made := (∅ : GoMap GoString FileWriter).insert (ascii "tmp.dc.1") twoEntriesWriter

theorem readingFirstEntry_reached :
    (configPublication fun _ => true).Reaches readingFirstEntry := by
  have stopped : (configPublication fun _ => true).Reaches
      ⟨⟨∅, 0, .missing, .stopped, newCache ∅, [], [], []⟩, ∅, ∅⟩ :=
    ⟨[], .start ⟨rfl, rfl, rfl, rfl, rfl, rfl, rfl⟩⟩
  refine Machine.Reaches.events (fun s e s' (h : s.step (fun _ => true) e = some s') => h)
    [.createTemp (ascii "tmp.dc.1") twoEntriesWriter 1 1,
      .write (ascii "tmp.dc.1") (entriesToString [firstEntry]).length 1,
      .crash (ascii "tmp.dc.1"), .other (.start ∅ .stored)] stopped ?_
  rfl

/-- A call that crashes between two entries leaves the text of the first, and the next start loads
it. -/
theorem created_files_not_loaded_whole :
    firstEntryText = entriesToString [firstEntry] ∧
    ∃ past s, (configPublication fun _ => true).Run past s ∧
      ¬Machine.Each PublishState.LoadsWhole past := by
  refine ⟨by decide +kernel, ?_⟩
  obtain ⟨past, run⟩ := readingFirstEntry_reached
  have step : readingFirstEntry.step (fun _ => true) (.other (.read .stored)) = some _ := rfl
  have read := run.next step
  refine ⟨_, _, read, fun whole => ?_⟩
  have reads := (Machine.each_snoc.mp ((created_files_loaded_whole_iff read).mp whole)).2
  obtain ⟨writer, hwriter, hcontent⟩ := reads (ascii "tmp.dc.1") [] rfl (by decide) _ rfl
  obtain rfl : twoEntriesWriter = writer := Option.some.inj hwriter
  have hlength := congrArg List.length (UserFile.content.inj hcontent).1
  revert hlength
  decide +kernel

end DiscoveryClient
