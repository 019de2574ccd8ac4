import DiscoveryClient.ConnInfo
import DiscoveryClient.HostIdentity
import DiscoveryClient.Machine

/-! Processes that call `GetOrCreateHostID` on one file. A call reads the file; if it cannot, or
there is nothing in it, the call makes up an id, opens the file, which empties it, and writes. Other
calls come between these steps, and a call can end in front of each of them. -/

namespace DiscoveryClient

open GoString GoIP Nvmeclient

/-- What `uuid.New().String()` returns. -/
structure NewUUID where
  text : GoString
  length : text.length = 36
  digits : ∀ b ∈ text, isHexDigit b = true ∨ b = 0x2D
deriving DecidableEq

/-- A call that has made up an id and has not returned. -/
structure Creation where
  uuid : NewUUID
  opened : Bool
deriving DecidableEq

structure HostIDs where
  file : Option GoString
  creating : List Creation
  returned : List GoString
deriving DecidableEq

inductive HostIDEvent
  /-- A file that is not `readable` is there, but `os.ReadFile` fails. -/
  | call (uuid : NewUUID) (readable : Bool)
  | opens (uuid : NewUUID)
  | writes (uuid : NewUUID)
  | ends (creation : Creation)

namespace NewUUID

def line (uuid : NewUUID) : GoString := uuid.text ++ ascii "\n"

/-- One digit all over. -/
def repeated (b : UInt8) (hb : isHexDigit b = true) : NewUUID where
  text := List.replicate 36 b
  length := List.length_replicate
  digits := fun _ hc => .inl (List.eq_of_mem_replicate hc ▸ hb)

end NewUUID

namespace HostIDs

/-- What `os.ReadFile` finds, where a file that is not there and an empty one are the same. -/
def content (s : HostIDs) : GoString := s.file.getD []

/-- The id in the file. -/
def stored (s : HostIDs) : List GoString := if s.content = [] then [] else [trimSpace s.content]

/-- The ids that have been returned, that calls are about to store, and that is stored. -/
def ids (s : HostIDs) : List GoString :=
  s.returned ++ s.creating.map (fun creation => creation.uuid.text) ++ s.stored

/-- A new UUID is not one of those there are. A write goes to the front of the file, whatever has
been written since it was opened. -/
def step (s : HostIDs) : HostIDEvent → Option HostIDs
  | .call uuid readable =>
    if readable = true ∧ s.content ≠ [] then
      some { s with returned := s.returned ++ [trimSpace s.content] }
    else if uuid.text ∈ s.ids then none
    else some { s with creating := s.creating ++ [⟨uuid, false⟩] }
  | .opens uuid =>
    if ⟨uuid, false⟩ ∈ s.creating then
      some { s with file := some [], creating := s.creating.erase ⟨uuid, false⟩ ++ [⟨uuid, true⟩] }
    else none
  | .writes uuid =>
    if ⟨uuid, true⟩ ∈ s.creating then
      some { s with
        file := some (uuid.line ++ s.content.drop uuid.line.length)
        creating := s.creating.erase ⟨uuid, true⟩
        returned := s.returned ++ [trimSpace uuid.line] }
    else none
  | .ends creation =>
    if creation ∈ s.creating then some { s with creating := s.creating.erase creation } else none

/-- There is one id. -/
def Agree (s : HostIDs) : Prop := ∀ id ∈ s.ids, ∀ id' ∈ s.ids, id = id'

/-- Two calls have returned different ids. -/
def ReturnedTwo (s : HostIDs) : Prop := ∃ id ∈ s.returned, ∃ id' ∈ s.returned, id ≠ id'

/-- A call finds an id, unless there is none at all. -/
def Finds (s : HostIDs) : HostIDEvent → Prop
  | .call _ readable => readable = true ∧ s.content ≠ [] ∨ s.ids = []
  | _ => True

/-- No call begins before those that make up an id have ended, and its read does not fail. -/
def Alone (s : HostIDs) : HostIDEvent → Prop
  | .call _ readable => readable = true ∧ s.creating = []
  | _ => True

end HostIDs

/-- The calls there are, and others, can come to this. -/
def HostIDs.Leads : HostIDs → HostIDs → Prop :=
  Relation.ReflTransGen fun s s' => ∃ e, s.step e = some s'

/-- Calls of `GetOrCreateHostID` in any order of their steps, over whatever the file holds at
first. -/
def hostIDs : Machine HostIDs HostIDEvent where
  init s := s.creating = [] ∧ s.returned = []
  step s e s' := s.step e = some s'

namespace NewUUID

variable (uuid : NewUUID)

theorem plain : Plain uuid.text := by
  intro b hb
  have hdigit := uuid.digits b hb
  simp only [isSpace, Bool.or_eq_false_iff, Bool.and_eq_false_iff, decide_eq_false_iff_not,
    beq_eq_false_iff_ne]
  simp [isHexDigit, isDigit, UInt8.le_iff_toNat_le, ← UInt8.toNat_inj] at hdigit
  omega

theorem text_ne_nil : uuid.text ≠ [] := by
  rw [← List.length_pos_iff, uuid.length]
  decide

theorem trimSpace_line : trimSpace uuid.line = uuid.text :=
  uuid.plain.trimSpace_line uuid.text_ne_nil

theorem line_length : uuid.line.length = 37 := by
  rw [line, List.length_append, uuid.length]
  rfl

theorem line_ne_nil : uuid.line ≠ [] := by
  rw [← List.length_pos_iff, line_length]
  decide

end NewUUID

/-- What a step can do. -/
inductive HostIDs.Takes (s : HostIDs) : HostIDEvent → HostIDs → Prop
  | found {uuid} : s.content ≠ [] →
      Takes s (.call uuid true) { s with returned := s.returned ++ [trimSpace s.content] }
  | begun {uuid readable} : ¬(readable = true ∧ s.content ≠ []) → uuid.text ∉ s.ids →
      Takes s (.call uuid readable) { s with creating := s.creating ++ [⟨uuid, false⟩] }
  | opened {uuid} : ⟨uuid, false⟩ ∈ s.creating →
      Takes s (.opens uuid) { s with
        file := some [], creating := s.creating.erase ⟨uuid, false⟩ ++ [⟨uuid, true⟩] }
  | written {uuid} : ⟨uuid, true⟩ ∈ s.creating →
      Takes s (.writes uuid) { s with
        file := some (uuid.line ++ s.content.drop uuid.line.length)
        creating := s.creating.erase ⟨uuid, true⟩
        returned := s.returned ++ [trimSpace uuid.line] }
  | ended {creation} : creation ∈ s.creating →
      Takes s (.ends creation) { s with creating := s.creating.erase creation }

section Steps

variable {s s' : HostIDs} {e : HostIDEvent}

theorem HostIDs.step_takes (h : s.step e = some s') : s.Takes e s' := by
  cases e with
  | call uuid readable =>
    rw [HostIDs.step] at h
    by_cases hfound : readable = true ∧ s.content ≠ []
    · rw [if_pos hfound] at h
      cases h
      obtain ⟨rfl, hcontent⟩ := hfound
      exact .found hcontent
    · rw [if_neg hfound] at h
      obtain ⟨hnew, h⟩ := Option.ite_none_left_eq_some.mp h
      cases h
      exact .begun hfound hnew
  | opens uuid =>
    obtain ⟨hcreating, h⟩ := Option.ite_none_right_eq_some.mp h
    cases h
    exact .opened hcreating
  | writes uuid =>
    obtain ⟨hcreating, h⟩ := Option.ite_none_right_eq_some.mp h
    cases h
    exact .written hcreating
  | ends creation =>
    obtain ⟨hcreating, h⟩ := Option.ite_none_right_eq_some.mp h
    cases h
    exact .ended hcreating

theorem HostIDs.mem_ids {id : GoString} :
    id ∈ s.ids ↔ id ∈ s.returned ∨ (∃ creation ∈ s.creating, creation.uuid.text = id) ∨
      (s.content ≠ [] ∧ id = trimSpace s.content) := by
  rw [HostIDs.ids, HostIDs.stored, List.mem_append, List.mem_append, List.mem_map, or_assoc]
  by_cases hcontent : s.content = [] <;> simp [hcontent]

theorem HostIDs.mem_ids_begun {uuid : NewUUID} {id : GoString} :
    id ∈ HostIDs.ids { s with creating := s.creating ++ [⟨uuid, false⟩] } ↔
      id ∈ s.ids ∨ id = uuid.text := by
  rw [HostIDs.mem_ids, HostIDs.mem_ids]
  simp only [HostIDs.content, List.mem_append, List.mem_singleton]
  grind

/-- A file that a call has opened holds at most one line. -/
def HostIDs.OneLine (s : HostIDs) : Prop :=
  ∀ creation ∈ s.creating, creation.opened = true → s.content.length ≤ 37

/-- What is written into such a file is all there is in it. -/
theorem HostIDs.OneLine.written (one : s.OneLine) {uuid : NewUUID} (h : ⟨uuid, true⟩ ∈ s.creating) :
    uuid.line ++ s.content.drop uuid.line.length = uuid.line := by
  rw [uuid.line_length, List.drop_eq_nil_of_le (one _ h rfl), List.append_nil]

theorem HostIDs.OneLine.takes (one : s.OneLine) (h : s.Takes e s') : s'.OneLine := by
  cases h with
  | found => exact one
  | begun =>
    intro creation hcreation hopened
    rcases List.mem_append.mp hcreation with hcreation | hcreation
    · exact one creation hcreation hopened
    · rw [List.mem_singleton.mp hcreation] at hopened
      cases hopened
  | opened =>
    intro creation _ _
    exact Nat.zero_le 37
  | @written uuid hcreating =>
    intro creation _ _
    change (uuid.line ++ s.content.drop uuid.line.length).length ≤ 37
    rw [one.written hcreating, uuid.line_length]
  | ended =>
    intro creation hcreation hopened
    exact one creation (List.mem_of_mem_erase hcreation) hopened

theorem HostIDs.Agree.of_subset (agree : s.Agree) (h : s'.ids ⊆ s.ids) : s'.Agree :=
  fun id hid id' hid' => agree id (h hid) id' (h hid')

theorem HostIDs.agree_iff_of_takes (one : s.OneLine) (agree : s.Agree) (h : s.Takes e s') :
    s'.Agree ↔ s.Finds e := by
  cases h with
  | found hcontent =>
    refine iff_of_true (agree.of_subset fun id hid => ?_) (.inl ⟨rfl, hcontent⟩)
    rcases HostIDs.mem_ids.mp hid with hid | hid
    · rcases List.mem_append.mp hid with hid | hid
      · exact HostIDs.mem_ids.mpr (.inl hid)
      · exact HostIDs.mem_ids.mpr (.inr (.inr ⟨hcontent, List.mem_singleton.mp hid⟩))
    · exact HostIDs.mem_ids.mpr (.inr hid)
  | @begun uuid readable hunfound hnew =>
    constructor
    · intro agree'
      refine .inr ?_
      rw [List.eq_nil_iff_forall_not_mem]
      intro id hid
      have heq := agree' id (HostIDs.mem_ids_begun.mpr (.inl hid)) uuid.text
        (HostIDs.mem_ids_begun.mpr (.inr rfl))
      exact hnew (heq ▸ hid)
    · intro finds id hid id' hid'
      rw [HostIDs.mem_ids_begun, finds.resolve_left hunfound] at hid hid'
      simp only [List.not_mem_nil, false_or] at hid hid'
      rw [hid, hid']
  | @opened uuid hcreating =>
    refine iff_of_true (agree.of_subset fun id hid => ?_) trivial
    rcases HostIDs.mem_ids.mp hid with hid | ⟨creation, hcreation, rfl⟩ | ⟨hne, -⟩
    · exact HostIDs.mem_ids.mpr (.inl hid)
    · rcases List.mem_append.mp hcreation with hcreation | hcreation
      · exact HostIDs.mem_ids.mpr (.inr (.inl ⟨creation, List.mem_of_mem_erase hcreation, rfl⟩))
      · rw [List.mem_singleton.mp hcreation]
        exact HostIDs.mem_ids.mpr (.inr (.inl ⟨_, hcreating, rfl⟩))
    · exact absurd rfl hne
  | @written uuid hcreating =>
    have huuid : uuid.text ∈ s.ids := HostIDs.mem_ids.mpr (.inr (.inl ⟨_, hcreating, rfl⟩))
    refine iff_of_true (agree.of_subset fun id hid => ?_) trivial
    rcases HostIDs.mem_ids.mp hid with hid | ⟨creation, hcreation, rfl⟩ | ⟨-, hid⟩
    · rcases List.mem_append.mp hid with hid | hid
      · exact HostIDs.mem_ids.mpr (.inl hid)
      · rwa [List.mem_singleton.mp hid, uuid.trimSpace_line]
    · exact HostIDs.mem_ids.mpr (.inr (.inl ⟨creation, List.mem_of_mem_erase hcreation, rfl⟩))
    · change id = trimSpace (uuid.line ++ s.content.drop uuid.line.length) at hid
      rwa [hid, one.written hcreating, uuid.trimSpace_line]
  | ended hcreating =>
    refine iff_of_true (agree.of_subset fun id hid => ?_) trivial
    rcases HostIDs.mem_ids.mp hid with hid | ⟨creation, hcreation, rfl⟩ | hid
    · exact HostIDs.mem_ids.mpr (.inl hid)
    · exact HostIDs.mem_ids.mpr (.inr (.inl ⟨creation, List.mem_of_mem_erase hcreation, rfl⟩))
    · exact HostIDs.mem_ids.mpr (.inr (.inr hid))

/-- What holds while calls that make up an id are alone: until one of them has stored its id nothing
is returned. -/
structure HostIDs.Quiet (s : HostIDs) : Prop where
  returned : s.content = [] → s.returned = []
  creating : s.creating = [] ∨ s.content = [] ∧ s.creating.length = 1

theorem HostIDs.Quiet.takes (quiet : s.Quiet) (alone : s.Alone e) (h : s.Takes e s') :
    s'.Quiet := by
  have herase {creation : Creation} (h : creation ∈ s.creating) :
      s.content = [] ∧ s.creating.erase creation = [] := by
    rcases quiet.creating with hnone | ⟨hcontent, hone⟩
    · rw [hnone] at h
      cases h
    · refine ⟨hcontent, ?_⟩
      rw [← List.length_eq_zero_iff, List.length_erase_of_mem h, hone]
  cases h with
  | found hcontent => exact ⟨fun hempty => absurd hempty hcontent, .inl alone.2⟩
  | begun hunfound =>
    obtain ⟨hreadable, hnone⟩ := alone
    have hcontent : s.content = [] := not_not.mp fun hne => hunfound ⟨hreadable, hne⟩
    refine ⟨quiet.returned, .inr ⟨hcontent, ?_⟩⟩
    rw [List.length_append, hnone]
    rfl
  | opened hcreating =>
    obtain ⟨hcontent, hnone⟩ := herase hcreating
    exact ⟨fun _ => quiet.returned hcontent, .inr ⟨rfl, by rw [hnone]; rfl⟩⟩
  | @written uuid hcreating =>
    refine ⟨fun hempty => ?_, .inl (herase hcreating).2⟩
    change uuid.line ++ s.content.drop uuid.line.length = [] at hempty
    exact absurd (List.append_eq_nil_iff.mp hempty).1 uuid.line_ne_nil
  | ended hcreating => exact ⟨quiet.returned, .inl (herase hcreating).2⟩

theorem HostIDs.Quiet.finds (quiet : s.Quiet) (alone : s.Alone e) : s.Finds e := by
  cases e with
  | call uuid readable =>
    obtain ⟨hreadable, hnone⟩ := alone
    by_cases hcontent : s.content = []
    · refine .inr ?_
      rw [HostIDs.ids, quiet.returned hcontent, hnone, HostIDs.stored, if_pos hcontent]
      rfl
    · exact .inl ⟨hreadable, hcontent⟩
  | opens uuid => trivial
  | writes uuid => trivial
  | ends creation => trivial

end Steps

section Returns

variable {s : HostIDs}

/-- What a call meets that nothing comes between. -/
def HostIDs.meets (s : HostIDs) (uuid : NewUUID) (readable : Bool) : HostIDFile where
  readFile :=
    if readable then s.file.elim (.error (ascii "no such file or directory")) .ok
    else .error (ascii "input/output error")
  newUUID := uuid.text

theorem HostIDs.getOrCreateHostID_meets (uuid : NewUUID) (readable : Bool) :
    (s.meets uuid readable).getOrCreateHostID =
      .ok (if readable = true ∧ s.content ≠ [] then trimSpace s.content
        else trimSpace uuid.line) := by
  cases readable with
  | false =>
    simp [HostIDFile.getOrCreateHostID, HostIDs.meets, HostIDFile.create, NewUUID.line]
  | true =>
    cases hfile : s.file with
    | none =>
      simp [HostIDFile.getOrCreateHostID, HostIDs.meets, HostIDs.content, hfile, HostIDFile.create,
        NewUUID.line]
    | some data =>
      by_cases hdata : data = [] <;>
        simp [HostIDFile.getOrCreateHostID, HostIDs.meets, HostIDs.content, hfile,
          HostIDFile.create, NewUUID.line, hdata]

/-- A call that has made up an id can store it and return. -/
theorem HostIDs.leads_written {creation : Creation} (h : creation ∈ s.creating) :
    ∃ s', s.Leads s' ∧ s'.returned = s.returned ++ [trimSpace creation.uuid.line] ∧
      ∀ other ∈ s.creating, other.uuid.text ≠ creation.uuid.text → other ∈ s'.creating := by
  have hwrites {s : HostIDs} {uuid : NewUUID} (h : ⟨uuid, true⟩ ∈ s.creating) :
      ∃ s', s.Leads s' ∧ s'.returned = s.returned ++ [trimSpace uuid.line] ∧
        ∀ other ∈ s.creating, other.uuid.text ≠ uuid.text → other ∈ s'.creating := by
    refine ⟨_, .single ⟨.writes uuid, if_pos h⟩, rfl, fun other hother hne => ?_⟩
    refine (List.mem_erase_of_ne ?_).mpr hother
    rintro rfl
    exact hne rfl
  obtain ⟨uuid, opened⟩ := creation
  cases opened with
  | true => exact hwrites h
  | false =>
    let open' : HostIDs := { s with
      file := some [], creating := s.creating.erase ⟨uuid, false⟩ ++ [⟨uuid, true⟩] }
    have hopens : s.step (.opens uuid) = some open' := if_pos h
    obtain ⟨s', hleads, hreturned, hothers⟩ :=
      @hwrites open' uuid (List.mem_append_right _ (List.mem_singleton_self _))
    refine ⟨s', .head ⟨_, hopens⟩ hleads, hreturned, fun other hother hne => ?_⟩
    refine hothers other (List.mem_append_left _ ((List.mem_erase_of_ne ?_).mpr hother)) hne
    rintro rfl
    exact hne rfl

/-- A call that nothing comes between returns what `getOrCreateHostID` says. -/
theorem HostIDs.leads_getOrCreateHostID {uuid : NewUUID} (readable : Bool)
    (hnew : uuid.text ∉ s.ids) :
    ∃ s' id, s.Leads s' ∧ (s.meets uuid readable).getOrCreateHostID = .ok id ∧
      s'.returned = s.returned ++ [id] := by
  rw [HostIDs.getOrCreateHostID_meets]
  by_cases hfound : readable = true ∧ s.content ≠ []
  · rw [if_pos hfound]
    exact ⟨_, _, .single ⟨.call uuid readable, if_pos hfound⟩, rfl, rfl⟩
  · let begun : HostIDs := { s with creating := s.creating ++ [⟨uuid, false⟩] }
    have hcall : s.step (.call uuid readable) = some begun := by
      rw [HostIDs.step, if_neg hfound, if_neg hnew]
    obtain ⟨s', hleads, hreturned, -⟩ :=
      @HostIDs.leads_written begun ⟨uuid, false⟩ (List.mem_append_right _ (List.mem_singleton_self _))
    rw [if_neg hfound]
    exact ⟨s', _, .head ⟨_, hcall⟩ hleads, rfl, hreturned⟩

/-- The id has been returned, or a call is about to store it. -/
def HostIDs.Held (s : HostIDs) (id : GoString) : Prop :=
  id ∈ s.returned ∨ ∃ creation ∈ s.creating, creation.uuid.text = id

/-- A call can return what is stored. -/
theorem HostIDs.leads_held (s : HostIDs) : ∃ s', s.Leads s' ∧ ∀ id ∈ s.ids, s'.Held id := by
  by_cases hcontent : s.content = []
  · refine ⟨s, .refl, fun id hid => ?_⟩
    rcases HostIDs.mem_ids.mp hid with hid | hid | ⟨hne, -⟩
    · exact .inl hid
    · exact .inr hid
    · exact absurd hcontent hne
  · refine ⟨_, .single ⟨.call (.repeated 0x30 rfl) true, if_pos ⟨rfl, hcontent⟩⟩, fun id hid => ?_⟩
    rcases HostIDs.mem_ids.mp hid with hid | hid | ⟨-, hid⟩
    · exact .inl (List.mem_append_left _ hid)
    · exact .inr hid
    · exact .inl (List.mem_append_right _ (List.mem_singleton.mpr hid))

/-- An id that is held can be returned, while the others stay held. -/
theorem HostIDs.Held.leads_returned {id : GoString} (held : s.Held id) :
    ∃ s', s.Leads s' ∧ id ∈ s'.returned ∧ s.returned ⊆ s'.returned ∧
      ∀ other, other ≠ id → s.Held other → s'.Held other := by
  rcases held with hid | ⟨creation, hcreation, rfl⟩
  · exact ⟨s, .refl, hid, List.Subset.refl _, fun _ _ h => h⟩
  · obtain ⟨s', hleads, hreturned, hothers⟩ := HostIDs.leads_written hcreation
    rw [creation.uuid.trimSpace_line] at hreturned
    have hkept : s.returned ⊆ s'.returned := hreturned ▸ List.subset_append_left _ _
    refine ⟨s', hleads, by simp [hreturned], hkept, fun other hne h => ?_⟩
    rcases h with h | ⟨c, hc, rfl⟩
    · exact .inl (hkept h)
    · exact .inr ⟨c, hothers c hc hne, rfl⟩

theorem HostIDs.leads_returnedTwo (h : ¬s.Agree) : ∃ s', s.Leads s' ∧ s'.ReturnedTwo := by
  simp only [HostIDs.Agree, not_forall] at h
  obtain ⟨a, ha, b, hb, hne⟩ := h
  obtain ⟨s₁, h₁, held⟩ := s.leads_held
  obtain ⟨s₂, h₂, ha₂, -, held₂⟩ := (held a ha).leads_returned
  obtain ⟨s₃, h₃, hb₃, hkept, -⟩ := (held₂ b (Ne.symm hne) (held b hb)).leads_returned
  exact ⟨s₃, (h₁.trans h₂).trans h₃, a, hkept ha₂, b, hb₃, hne⟩

end Returns

section Runs

variable {past : List (HostIDs × HostIDEvent)} {s : HostIDs}

theorem agree_of_init (h : hostIDs.init s) : s.Agree ∧ s.OneLine := by
  obtain ⟨hcreating, hreturned⟩ := h
  refine ⟨fun id hid id' hid' => ?_, fun creation hcreation => ?_⟩
  · rw [HostIDs.mem_ids] at hid hid'
    simp only [hcreating, hreturned, List.not_mem_nil, false_and, exists_false, false_or] at hid hid'
    rw [hid.2, hid'.2]
  · rw [hcreating] at hcreation
    cases hcreation

theorem always_quiet (run : hostIDs.Run past s) (alone : Machine.Each HostIDs.Alone past) :
    Machine.Always HostIDs.Quiet past s :=
  run.always_of_each (fun _ h => ⟨fun _ => h.2, .inl h.1⟩)
    (fun _ _ _ quiet alone hstep => quiet.takes alone (HostIDs.step_takes hstep)) alone

/-- However the steps of the calls are ordered, there is one id in use at all times exactly if every
call finds it once there is one, so that a read that fails is enough for a second id. If ever there
are two, two calls can return them. Calls that can read the file and are not begun while another
makes up an id all agree, also if calls end in front of a step. -/
theorem host_ids_agree_iff (run : hostIDs.Run past s) :
    (Machine.Always HostIDs.Agree past s ↔ Machine.Each HostIDs.Finds past) ∧
      (¬s.Agree → ∃ s', s.Leads s' ∧ s'.ReturnedTwo) ∧
      (Machine.Each HostIDs.Alone past → Machine.Always HostIDs.Agree past s) := by
  have hiff : Machine.Always HostIDs.Agree past s ↔ Machine.Each HostIDs.Finds past :=
    run.always_iff_each (fun _ h => agree_of_init h) fun _ _ _ agree one hstep =>
      ⟨HostIDs.agree_iff_of_takes one agree (HostIDs.step_takes hstep),
        fun _ => one.takes (HostIDs.step_takes hstep)⟩
  refine ⟨hiff, HostIDs.leads_returnedTwo, fun alone => hiff.mpr fun x hx => ?_⟩
  exact ((always_quiet run alone).1 x hx).finds (alone x hx)

end Runs

def firstUUID : NewUUID := .repeated 0x31 rfl

def secondUUID : NewUUID := .repeated 0x32 rfl

/-- Two programs that start on a host without an id; and one that starts on a host with an id and
cannot read it. -/
theorem host_ids_agree_not_started_together :
    (∃ past s, hostIDs.Run past s ∧ ∃ s', s.Leads s' ∧ s'.ReturnedTwo) ∧
    ∃ past s, hostIDs.Run past s ∧ ¬Machine.Always HostIDs.Agree past s := by
  refine ⟨?_, ?_⟩
  · have start : hostIDs.Run [] ⟨none, [], []⟩ := .start ⟨rfl, rfl⟩
    have first : hostIDs.Run _ ⟨none, [⟨firstUUID, false⟩], []⟩ :=
      start.next (show HostIDs.step _ (.call firstUUID true) = _ by decide)
    have second : hostIDs.Run _ ⟨none, [⟨firstUUID, false⟩, ⟨secondUUID, false⟩], []⟩ :=
      first.next (show HostIDs.step _ (.call secondUUID true) = _ by decide)
    refine ⟨_, _, second, (host_ids_agree_iff second).2.1 fun agree => ?_⟩
    have heq := agree firstUUID.text (by decide) secondUUID.text (by decide)
    exact absurd heq (by decide)
  · have start : hostIDs.Run [] ⟨some firstUUID.line, [], []⟩ := .start ⟨rfl, rfl⟩
    have unread : hostIDs.Run _ ⟨some firstUUID.line, [⟨secondUUID, false⟩], []⟩ :=
      start.next (show HostIDs.step _ (.call secondUUID false) = _ by decide)
    refine ⟨_, _, unread, fun agree => ?_⟩
    have finds := (Machine.each_snoc.mp ((host_ids_agree_iff unread).1.mp agree)).2
    rcases finds with ⟨hreadable, -⟩ | hnone
    · cases hreadable
    · exact absurd hnone (by decide)

end DiscoveryClient
