import DiscoveryClient.ConnectCapsule
import DiscoveryClient.GoFields
import DiscoveryClient.GoUuid

/-! The host's id on its way from a file to the connect data. It is checked with the parser of UUIDs
and then decoded another way: without its dashes, as a string of hexadecimal digits. -/

namespace DiscoveryClient

open GoString GoIP GoHex

/-- What `GetOrCreateHostID` meets: the file's content, the text of a new UUID, and the errors of
storing it. -/
structure HostIDFile where
  readFile : Except GoString GoString
  newUUID : GoString
  mkdirAll : Option GoString := none
  writeFile : Option GoString := none

namespace HostIDFile

def create (file : HostIDFile) : Except GoString GoString :=
  match file.mkdirAll with
  | some err => .error err
  | none =>
    match file.writeFile with
    | some err => .error err
    | none => .ok (trimSpace (file.newUUID ++ ascii "\n"))

def getOrCreateHostID (file : HostIDFile) : Except GoString GoString :=
  match file.readFile with
  | .error _ => file.create
  | .ok data => if data = [] then file.create else .ok (trimSpace data)

theorem getOrCreateHostID_trimmed {file : HostIDFile} {hostID : GoString}
    (h : file.getOrCreateHostID = .ok hostID) : ∃ content, hostID = trimSpace content := by
  have hcreate : file.create = .ok hostID → ∃ content, hostID = trimSpace content := by
    intro h
    unfold create at h
    split at h
    next => cases h
    next =>
      split at h
      next => cases h
      next => exact ⟨_, (Except.ok.inj h).symm⟩
  unfold getOrCreateHostID at h
  split at h
  next => exact hcreate h
  next data _ =>
    split at h
    next => exact hcreate h
    next => exact ⟨data, (Except.ok.inj h).symm⟩

end HostIDFile

namespace Nvmehost

def removeDash (str : GoString) : GoString := trimSpace (str.filter (· != 0x2D))

/-- The bytes of the capsule; the error of the decoding is not looked at. -/
def sendConnectRequest (cmdID : UInt16) (hostnqn hostID : GoString) : Option (List UInt8) :=
  Nvme.connectCapsule cmdID hostnqn (decodeString hostID).1

inductive Started
  | failed (err : GoString)
  | panicked
  | sent (bytes : List UInt8)
deriving DecidableEq, Repr

/-- `Discover` up to its connect request, over a connection that takes it. -/
def discover (file : HostIDFile) (cmdID : UInt16) (hostnqn : GoString) : Started :=
  match file.getOrCreateHostID with
  | .error err => .failed err
  | .ok hostID =>
    match GoUuid.parse hostID with
    | .error _ => .panicked
    | .ok _ =>
      match sendConnectRequest cmdID hostnqn (removeDash hostID) with
      | none => .panicked
      | some bytes => .sent bytes

/-- The first field of the connect data, behind the header and the command. -/
def hostIDField (bytes : List UInt8) : List UInt8 := (bytes.drop 72).take 16

/-- The decoded bytes fill the field and are the UUID. -/
def Fills (decoded uuid : List UInt8) : Prop :=
  decoded.length ≤ 16 ∧ decoded ++ List.replicate (16 - decoded.length) 0 = uuid

theorem hostIDField_capsule {hostnqn hostID : GoString} (cmdID : UInt16)
    (hid : hostID.length ≤ 16) (hlen : hostnqn.length ≤ 256) :
    ∃ bytes, Nvme.connectCapsule cmdID hostnqn hostID = some bytes ∧
      hostIDField bytes = hostID ++ List.replicate (16 - hostID.length) 0 := by
  refine ⟨_, Nvme.connectCapsule_eq cmdID (Nvme.connectDataOf_fits hid hlen), ?_⟩
  have hfront : ((Nvme.createTCPHeader true).record ++
      (Nvme.connectCommand cmdID 0).pdu.bytes).length = 72 := by
    rw [List.length_append, TCPHeaderType.record_length, Nvme.Pdu.length_eq]
  have hfield : (hostID ++ List.replicate (16 - hostID.length) (0 : UInt8)).length = 16 := by
    rw [List.length_append, List.length_replicate]
    omega
  rw [hostIDField, List.drop_left' hfront, Nvme.ConnectData.record, Nvme.ConnectData.fields,
    List.flatMap_cons]
  exact List.take_left' hfield

theorem sent_iff {hostnqn decoded : GoString} {uuid : List UInt8} (cmdID : UInt16) :
    (∃ bytes, Nvme.connectCapsule cmdID hostnqn decoded = some bytes ∧ hostIDField bytes = uuid) ↔
      hostnqn.length ≤ 256 ∧ Fills decoded uuid := by
  constructor
  · rintro ⟨bytes, hbytes, hfield⟩
    have hfits := Nvme.fits_of_connectCapsule hbytes
    obtain ⟨bytes', hbytes', hfield'⟩ := hostIDField_capsule cmdID hfits.hostID hfits.hostNqn
    cases Option.some.inj (hbytes.symm.trans hbytes')
    exact ⟨hfits.hostNqn, hfits.hostID, hfield'.symm.trans hfield⟩
  · rintro ⟨hlen, hid, hfill⟩
    obtain ⟨bytes, hbytes, hfield⟩ := hostIDField_capsule cmdID hid hlen
    exact ⟨bytes, hbytes, hfield.trans hfill⟩

section Fills

variable {uuid : List UInt8}

theorem fills_self (h : uuid.length = 16) : Fills uuid uuid :=
  ⟨h.le, by rw [h, Nat.sub_self, List.replicate_zero, List.append_nil]⟩

theorem fills_nil_iff : Fills [] uuid ↔ uuid = List.replicate 16 0 :=
  ⟨fun h => h.2.symm, fun h => ⟨Nat.zero_le 16, h.symm⟩⟩

theorem fills_iff_of_length {decoded : List UInt8} (h : decoded.length = 16) :
    Fills decoded uuid ↔ decoded = uuid := by
  have hpad : decoded ++ List.replicate (16 - decoded.length) 0 = decoded := by
    rw [h, Nat.sub_self, List.replicate_zero, List.append_nil]
  rw [Fills, hpad]
  exact and_iff_right h.le

end Fills

/-- A digit or a dash is an ASCII character, and no space. -/
theorem ascii_of_digit_or_dash {b : UInt8} (h : isHexDigit b = true ∨ b = 0x2D) :
    b.toNat < 0x80 ∧ isSpace (runeValue [b]) = false := by
  have hall : ∀ b, isHexDigit b = true ∨ b = 0x2D →
      b.toNat < 0x80 ∧ isSpace (runeValue [b]) = false := forall_byte (by decide +kernel)
  exact hall b h

/-- Digits, and on either side what is not space, are left by `TrimSpace` as they are. -/
theorem trimSpace_digits {digits front back : GoString} {uuid : List UInt8}
    (h : Spells digits uuid) (hne : digits ≠ [])
    (hfront : ∀ r ∈ runes front, isSpace (runeValue r) = false)
    (hback : ∀ r ∈ runes back, isSpace (runeValue r) = false) :
    trimSpace (front ++ (digits ++ back)) = front ++ (digits ++ back) := by
  have hdigit := fun b hb => ascii_of_digit_or_dash (Or.inl (h.isHexDigit b hb))
  apply trimSpace_of_word
  rw [runes_around_ascii (fun b hb => (hdigit b hb).1) hne]
  intro r hr
  rcases List.mem_append.mp hr with hr | hr
  · exact hfront r hr
  · rcases List.mem_append.mp hr with hr | hr
    · obtain ⟨b, hb, rfl⟩ := List.mem_map.mp hr
      exact (hdigit b hb).2
    · exact hback r hr

/-- The texts that are decoded to what is parsed: with no byte in front of the digits but a dash, or
where the bytes that are decoded instead happen to be those of the UUID. -/
def DecodesAlike (hostID : GoString) (uuid : List UInt8) : Prop :=
  hostID.length = 32 ∨ hostID.length = 36 ∨
  (hostID.length = 38 ∧ hostID.head? = some 0x2D) ∨
  (uuid = List.replicate 16 0 ∧ ∃ first, hostID.head? = some first ∧ isHexDigit first = false) ∨
  (hostID.length = 38 ∧ ∃ first last, hostID.head? = some first ∧ hostID.getLast? = some last ∧
    isHexDigit first = true ∧ isHexDigit last = false ∧
    uuid = List.replicate 16 (hexByte first first))

section Forms

variable {uuid : List UInt8} {s : GoString}

theorem ne_nil_of_spells (h : Spells s uuid) (hlen : uuid.length = 16) : s ≠ [] := by
  rintro rfl
  have hcount := h.length_eq
  rw [hlen] at hcount
  cases hcount

theorem not_space_of_nil : ∀ r ∈ runes ([] : GoString), isSpace (runeValue r) = false :=
  fun _ hr => absurd hr List.not_mem_nil

/-- Digits without anything around them are decoded to the bytes they spell. -/
theorem decodeString_trimSpace (h : Spells s uuid) (hlen : uuid.length = 16) :
    (decodeString (trimSpace s)).1 = uuid := by
  have htrim := trimSpace_digits h (ne_nil_of_spells h hlen) not_space_of_nil not_space_of_nil
  have hdecode := h.decodeString_append []
  rw [List.nil_append, List.append_nil] at htrim
  rw [List.append_nil] at hdecode
  rw [htrim, hdecode]
  exact List.append_nil uuid

/-- The byte `u` in front of the digits is none, so nothing is decoded. -/
theorem decodeString_urn {front : GoString} (hfront : front.map GoUuid.toLower = GoUuid.urnPrefix)
    (h : GoUuid.Groups uuid s) (hlen : uuid.length = 16) :
    (decodeString (removeDash (front ++ s))).1 = [] ∧
      ∃ first rest, front = first :: rest ∧ isHexDigit first = false := by
  have hletter : ∀ b, GoUuid.toLower b ∈ GoUuid.urnPrefix → b.toNat < 0x80 ∧ b ≠ 0x2D ∧
      isSpace (runeValue [b]) = false ∧ (GoUuid.toLower b = 0x75 → isHexDigit b = false) :=
    forall_byte (by decide +kernel)
  have hbyte := fun b hb => hletter b (hfront ▸ List.mem_map_of_mem hb)
  obtain ⟨first, rest, rfl⟩ : ∃ first rest, front = first :: rest := by
    cases front with
    | nil => cases hfront
    | cons first rest => exact ⟨first, rest, rfl⟩
  have hfirst : isHexDigit first = false :=
    (hbyte first List.mem_cons_self).2.2.2 (List.cons.inj hfront).1
  refine ⟨?_, first, rest, rfl, hfirst⟩
  have hfilter : (first :: rest ++ s).filter (· != 0x2D) =
      first :: rest ++ s.filter (· != 0x2D) := by
    rw [List.filter_append]
    congr 1
    exact List.filter_eq_self.mpr fun b hb => bne_iff_ne.mpr (hbyte b hb).2.1
  have hspaces : ∀ r ∈ runes (first :: rest), isSpace (runeValue r) = false := by
    have hruns := @runes_around_ascii (first :: rest) (fun b hb => (hbyte b hb).1)
      (List.cons_ne_nil first rest) [] []
    rw [List.nil_append, List.append_nil] at hruns
    rw [hruns]
    intro r hr
    rcases List.mem_append.mp hr with hr | hr
    · exact absurd hr List.not_mem_nil
    · rcases List.mem_append.mp hr with hr | hr
      · obtain ⟨b, hb, rfl⟩ := List.mem_map.mp hr
        exact (hbyte b hb).2.2.1
      · exact absurd hr List.not_mem_nil
  have htrim := trimSpace_digits h.spells (ne_nil_of_spells h.spells hlen) hspaces not_space_of_nil
  rw [List.append_nil] at htrim
  rw [removeDash, hfilter, htrim]
  exact decodeString_cons_of_not_digit hfirst _

theorem filter_dash_singleton (b : UInt8) :
    [b].filter (· != 0x2D) = if b = 0x2D then [] else [b] := by
  by_cases hb : b = 0x2D
  · simp [hb]
  · simp [hb]

/-- In a trimmed text the bytes around the digits are no space, so removing the dashes leaves them. -/
theorem removeDash_braced {content : GoString} {first last : UInt8}
    (hcontent : first :: (s ++ [last]) = trimSpace content) (h : GoUuid.Groups uuid s)
    (hlen : uuid.length = 16) :
    removeDash (first :: (s ++ [last])) = [first].filter (· != 0x2D) ++
      (s.filter (· != 0x2D) ++ [last].filter (· != 0x2D)) := by
  have hne : s ≠ [] := by
    rintro rfl
    exact ne_nil_of_spells h.spells hlen rfl
  have hruns : runes (first :: (s ++ [last])) = [first] :: (s.map ([·]) ++ [[last]]) := by
    have hruns := runes_around_ascii
      (fun b hb => (ascii_of_digit_or_dash (h.digit_or_dash b hb)).1) hne [first] [last]
    rwa [runes_singleton, runes_singleton, List.singleton_append] at hruns
  obtain ⟨hhead, hlast⟩ := trimSpace_ends content
  rw [← hcontent, hruns] at hhead hlast
  have hfirst : isSpace (runeValue [first]) = false := hhead [first] rfl
  have hlast : isSpace (runeValue [last]) = false := by
    apply hlast [last]
    rw [← List.cons_append, List.getLast?_append]
    rfl
  have hkept : ∀ b, isSpace (runeValue [b]) = false →
      ∀ r ∈ runes ([b].filter (· != 0x2D)), isSpace (runeValue r) = false := by
    intro b hb r hr
    rw [filter_dash_singleton] at hr
    split at hr
    next => exact absurd hr List.not_mem_nil
    next =>
      rw [runes_singleton, List.mem_singleton] at hr
      exact hr ▸ hb
  have htrim := trimSpace_digits h.spells (ne_nil_of_spells h.spells hlen) (hkept first hfirst)
    (hkept last hlast)
  rw [← List.filter_append, ← List.filter_append, List.singleton_append] at htrim
  rw [removeDash, htrim, ← List.filter_append, ← List.filter_append, List.singleton_append]

theorem fills_braced_iff {content : GoString} {first last : UInt8}
    (hcontent : first :: (s ++ [last]) = trimSpace content) (h : GoUuid.Groups uuid s)
    (hlen : uuid.length = 16) :
    Fills (decodeString (removeDash (first :: (s ++ [last])))).1 uuid ↔ first = 0x2D ∨
      (uuid = List.replicate 16 0 ∧ isHexDigit first = false) ∨
      (isHexDigit first = true ∧ isHexDigit last = false ∧
        uuid = List.replicate 16 (hexByte first first)) := by
  have hdash : isHexDigit 0x2D = false := rfl
  rw [removeDash_braced hcontent h hlen, filter_dash_singleton]
  by_cases hfirst : first = 0x2D
  · -- the digits come first, and one byte behind them is not decoded
    have hrest : (decodeString ([last].filter (· != 0x2D))).1 = [] := by
      rw [filter_dash_singleton]
      split
      next => rfl
      next => rfl
    rw [if_pos hfirst, List.nil_append, h.spells.decodeString_append, hrest, List.append_nil]
    exact iff_of_true (fills_self hlen) (Or.inl hfirst)
  · rw [if_neg hfirst, List.singleton_append]
    cases hdigit : isHexDigit first with
    | false =>
      rw [decodeString_cons_of_not_digit hdigit, fills_nil_iff]
      simp [hfirst]
    | true =>
      obtain ⟨shifted, digit, hd, hcount, hdecode, hsame⟩ := h.spells.decodeString_shifted hdigit
        ([last].filter (· != 0x2D))
      rw [hdecode]
      rw [hlen] at hcount hsame
      cases hlast : isHexDigit last with
      | false =>
        have hrest : (decodeString (digit :: [last].filter (· != 0x2D))).1 = [] := by
          rw [filter_dash_singleton]
          split
          next => rfl
          next => simp [decodeString, hd, hlast]
        rw [hrest, List.append_nil, fills_iff_of_length hcount, hsame]
        simp [hfirst]
      | true =>
        have hne : last ≠ 0x2D := by
          rintro rfl
          rw [hdash] at hlast
          cases hlast
        have hrest : (decodeString (digit :: [last].filter (· != 0x2D))).1 =
            [hexByte digit last] := by
          rw [filter_dash_singleton, if_neg hne]
          simp [decodeString, hd, hlast]
        rw [hrest]
        refine iff_of_false ?_ (by simp [hfirst])
        rintro ⟨hle, -⟩
        rw [List.length_append, hcount, List.length_singleton] at hle
        exact absurd hle (by decide)

/-- Among the texts that are accepted, these are decoded to what was parsed. -/
theorem fills_iff {content hostID : GoString} (hcontent : hostID = trimSpace content)
    (h : GoUuid.Accepted uuid hostID) (hlen : uuid.length = 16) :
    Fills (decodeString (removeDash hostID)).1 uuid ↔ DecodesAlike hostID uuid := by
  cases h with
  | raw spells =>
    have hlength : hostID.length = 32 := by rw [spells.length_eq, hlen]
    rw [removeDash, GoUuid.filter_dash_of_spells spells, decodeString_trimSpace spells hlen]
    exact iff_of_true (fills_self hlen) (Or.inl hlength)
  | dashed length_eq groups =>
    rw [removeDash, decodeString_trimSpace groups.spells hlen]
    exact iff_of_true (fills_self hlen) (Or.inr (Or.inl length_eq))
  | urn hfront length_eq groups =>
    rename_i front s
    obtain ⟨hdecode, first, rest, rfl, hfirst⟩ := decodeString_urn hfront groups hlen
    have hlength : (first :: rest ++ s).length = 45 := by
      have hcount := congrArg List.length hfront
      rw [List.length_map] at hcount
      rw [List.length_append, hcount, length_eq]
      rfl
    rw [hdecode, fills_nil_iff, DecodesAlike, hlength]
    simp [hfirst]
  | braced first last length_eq groups =>
    rename_i s
    have hlength : (first :: (s ++ [last])).length = 38 := by simp [length_eq]
    have hend : (first :: (s ++ [last])).getLast? = some last := by
      rw [← List.cons_append, List.getLast?_append]
      rfl
    rw [fills_braced_iff hcontent groups hlen, DecodesAlike, hlength, hend]
    simp

end Forms

theorem discover_eq_sent_iff {file : HostIDFile} {hostID : GoString} {uuid : List UInt8}
    (hfile : file.getOrCreateHostID = .ok hostID) (hvalid : GoUuid.parse hostID = .ok uuid)
    (cmdID : UInt16) (hostnqn : GoString) (bytes : List UInt8) :
    discover file cmdID hostnqn = .sent bytes ↔
      Nvme.connectCapsule cmdID hostnqn (decodeString (removeDash hostID)).1 = some bytes := by
  simp only [discover, hfile, hvalid, sendConnectRequest]
  cases Nvme.connectCapsule cmdID hostnqn (decodeString (removeDash hostID)).1 with
  | none => simp
  | some sent => simp

/-- The host id that goes out is the one that was parsed exactly for these texts, and for a host name
that fits its field. -/
theorem host_id_on_wire_iff {file : HostIDFile} {hostID : GoString} {uuid : List UInt8}
    (hfile : file.getOrCreateHostID = .ok hostID) (hvalid : GoUuid.parse hostID = .ok uuid)
    (cmdID : UInt16) (hostnqn : GoString) :
    (∃ bytes, discover file cmdID hostnqn = .sent bytes ∧ hostIDField bytes = uuid) ↔
      hostnqn.length ≤ 256 ∧ DecodesAlike hostID uuid := by
  obtain ⟨content, hcontent⟩ := HostIDFile.getOrCreateHostID_trimmed hfile
  obtain ⟨haccepted, hlen⟩ := GoUuid.accepted_of_parse hvalid
  simp only [discover_eq_sent_iff hfile hvalid]
  rw [sent_iff, fills_iff hcontent haccepted hlen]

/-- A file with one line. -/
def fileWith (line : GoString) : HostIDFile := { readFile := .ok (line ++ ascii "\n"), newUUID := [] }

def sampleUUID : List UInt8 :=
  [0x6b, 0xa7, 0xb8, 0x10, 0x9d, 0xad, 0x11, 0xd1, 0x80, 0xb4, 0x00, 0xc0, 0x4f, 0xd4, 0x30, 0xc8]

def dashedText : GoString := ascii "6ba7b810-9dad-11d1-80b4-00c04fd430c8"

def bracedText : GoString := ascii "\x7b6ba7b810-9dad-11d1-80b4-00c04fd430c8\x7d"

theorem host_id_on_wire_iff_dashed :
    ∃ bytes, discover (fileWith dashedText) 0 (ascii "nqn.h") = .sent bytes ∧
      hostIDField bytes = sampleUUID := by
  have hread : (fileWith dashedText).getOrCreateHostID = .ok dashedText := by decide +kernel
  have hparse : GoUuid.parse dashedText = .ok sampleUUID := by decide +kernel
  have hlength : dashedText.length = 36 := by decide +kernel
  exact (host_id_on_wire_iff hread hparse 0 (ascii "nqn.h")).mpr
    ⟨by decide, Or.inr (Or.inl hlength)⟩

/-- In braces the same UUID is accepted, and the host goes by sixteen zeros. -/
theorem braced_host_id_lost :
    (fileWith bracedText).getOrCreateHostID = .ok bracedText ∧
    GoUuid.parse bracedText = .ok sampleUUID ∧
    ∃ bytes, discover (fileWith bracedText) 0 (ascii "nqn.h") = .sent bytes ∧
      hostIDField bytes = List.replicate 16 0 ∧ hostIDField bytes ≠ sampleUUID := by
  have hread : (fileWith bracedText).getOrCreateHostID = .ok bracedText := by decide +kernel
  have hparse : GoUuid.parse bracedText = .ok sampleUUID := by decide +kernel
  have hdecode : (decodeString (removeDash bracedText)).1 = [] := by decide +kernel
  have hne : List.replicate 16 0 ≠ sampleUUID := by decide
  obtain ⟨bytes, hbytes, hfield⟩ := @hostIDField_capsule (ascii "nqn.h") [] 0 (by decide) (by decide)
  rw [← hdecode] at hbytes
  refine ⟨hread, hparse, bytes, (discover_eq_sent_iff hread hparse 0 _ bytes).mpr hbytes, hfield, ?_⟩
  rw [hfield]
  exact hne

end Nvmehost

end DiscoveryClient
