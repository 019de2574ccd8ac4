import DiscoveryClient.LogPageWire

/-! What the two discovery clients make of the records of a log page. Both have the record laid out
alike; they differ in what they do with a service id that is not a number. -/

namespace GoString

/-- The number a string writes in decimal, of any size: digits, with or without a sign. -/
def writtenDecimal : GoString → Option Int
  | [] => none
  | b :: s =>
    if b = 0x2D then (parseDigits s).map fun (n : Nat) => -(n : Int)
    else (parseDigits (if b = 0x2B then s else b :: s)).map fun (n : Nat) => (n : Int)

/-- `strconv.ParseInt` reads the number that is written, if it is in its range. -/
theorem parseInt_eq_some_iff {bits : Nat} {s : GoString} {n : Int} :
    parseInt bits s = some n ↔
      writtenDecimal s = some n ∧ -((2 ^ (bits - 1) : Nat) : Int) ≤ n ∧
        n < ((2 ^ (bits - 1) : Nat) : Int) := by
  cases s with
  | nil => simp [parseInt, writtenDecimal]
  | cons b s =>
    rw [parseInt, writtenDecimal]
    split
    next =>
      have hpos : 0 < 2 ^ (bits - 1) := Nat.two_pow_pos _
      rw [Option.bind_eq_some_iff, Option.map_eq_some_iff]
      constructor
      · rintro ⟨m, hm, h⟩
        split at h
        next hle =>
          cases Option.some.inj h
          exact ⟨⟨m, hm, rfl⟩, by omega, by omega⟩
        next => cases h
      · rintro ⟨⟨m, hm, rfl⟩, hlow, -⟩
        exact ⟨m, hm, if_pos (by omega)⟩
    next =>
      rw [Option.bind_eq_some_iff, Option.map_eq_some_iff]
      constructor
      · rintro ⟨m, hm, h⟩
        split at h
        next hlt =>
          cases Option.some.inj h
          exact ⟨⟨m, hm, rfl⟩, by omega, by omega⟩
        next => cases h
      · rintro ⟨⟨m, hm, rfl⟩, -, hhigh⟩
        exact ⟨m, hm, if_pos (by omega)⟩

end GoString

namespace DiscoveryClient

open GoString

namespace NvmefDiscRspPageEntry

/-- The entry that a record of 1024 bytes is read as. -/
def ofRaw (raw : Vector UInt8 1024) : NvmefDiscRspPageEntry :=
  ((unpack raw.toList).get (by
    obtain ⟨e, he⟩ := @unpack_of_le raw.toList (by simp)
    rw [he]
    rfl)).1

/-- The record of an entry that fits. -/
def raw (e : NvmefDiscRspPageEntry) (fits : e.Fits) : Vector UInt8 1024 :=
  ⟨e.record.toArray, record_length fits⟩

theorem ofRaw_raw (e : NvmefDiscRspPageEntry) (fits : e.Fits) : ofRaw (e.raw fits) = e.onWire := by
  have hunpack : unpack (e.raw fits).toList = some (e.onWire, []) := by
    have h := unpack_record fits []
    rwa [List.append_nil] at h
  simp only [ofRaw, hunpack, Option.get_some]

/-- The service id without the NULs that fill its field. -/
def serviceID (e : NvmefDiscRspPageEntry) : GoString := trimRightNul e.trsvcID.toList

/-- The service id writes the port. -/
def WritesPort (e : NvmefDiscRspPageEntry) (port : UInt16) : Prop :=
  writtenDecimal e.serviceID = some (port.toNat : Int)

instance (e : NvmefDiscRspPageEntry) (port : UInt16) : Decidable (e.WritesPort port) :=
  inferInstanceAs (Decidable (_ = _))

end NvmefDiscRspPageEntry

namespace Nvmeclient

/-- The body of the loop in `Discover`: an entry whose service id does not parse is left out, and one
that does is truncated to 16 bits. -/
def discoverEntry (entry : NvmefDiscRspPageEntry) : Option NvmeDiscPageEntry :=
  match parseInt 64 (trimRightNul entry.trsvcID.toList) with
  | none => none
  | some port =>
    some { subType := entry.subType
           portID := entry.portID
           cntlID := entry.cntlID
           trsvcID := UInt16.ofInt port
           subnqn := trimRightNul entry.subnqn
           traddr := trimRightNul entry.traddr }

/-- The entries `Discover` returns for a log page. -/
def discoverEntries (logPageEntries : List NvmefDiscRspPageEntry) : List NvmeDiscPageEntry :=
  logPageEntries.filterMap discoverEntry

/-- An entry that is not left out is the one that the other client reports. -/
theorem discoverEntry_eq (entry : NvmefDiscRspPageEntry) :
    discoverEntry entry =
      (parseInt 64 entry.serviceID).map fun _ => DiscoveryClient.discoverEntry entry := by
  unfold discoverEntry NvmefDiscRspPageEntry.serviceID
  split
  next h => rw [h, Option.map_none]
  next port h =>
    rw [h, Option.map_some, DiscoveryClient.discoverEntry, atoi, h, Option.getD_some]

/-- The clients report the same entries when every service id is a number of 64 bits. -/
theorem discoverEntries_of_parse {page : List NvmefDiscRspPageEntry}
    (h : ∀ e ∈ page, ∃ n, parseInt 64 e.serviceID = some n) :
    discoverEntries page = page.map DiscoveryClient.discoverEntry := by
  rw [discoverEntries, ← List.filterMap_eq_map]
  apply List.filterMap_congr
  intro e he
  obtain ⟨n, hn⟩ := h e he
  rw [discoverEntry_eq, hn, Option.map_some, Function.comp_apply]

end Nvmeclient

open NvmefDiscRspPageEntry

/-- The two clients report the same entries, and every reported entry has the port that its service
id writes. -/
def DecodedAlike (raws : List (Vector UInt8 1024)) : Prop :=
  Nvmeclient.discoverEntries (raws.map ofRaw) = (raws.map ofRaw).map discoverEntry ∧
  ∀ raw ∈ raws, (ofRaw raw).WritesPort (discoverEntry (ofRaw raw)).trsvcID ∧
    ∀ entry, Nvmeclient.discoverEntry (ofRaw raw) = some entry →
      (ofRaw raw).WritesPort entry.trsvcID

theorem discoverEntry_trsvcID {e : NvmefDiscRspPageEntry} {port : UInt16} (h : e.WritesPort port) :
    (discoverEntry e).trsvcID = port ∧ parseInt 64 e.serviceID = some (port.toNat : Int) := by
  have hlt := port.toNat_lt
  have hparse : parseInt 64 e.serviceID = some (port.toNat : Int) :=
    parseInt_eq_some_iff.mpr ⟨h, by omega, by omega⟩
  refine ⟨?_, hparse⟩
  change UInt16.ofInt ((parseInt 64 e.serviceID).getD 0) = port
  have hmod : ((port.toNat : Int) % 2 ^ 16).toNat = port.toNat := by omega
  rw [hparse, Option.getD_some, UInt16.ofInt, hmod, UInt16.ofNat_toNat]

/-- The clients decode alike exactly when every service id writes a number of 16 bits. -/
theorem decodedAlike_iff (raws : List (Vector UInt8 1024)) :
    DecodedAlike raws ↔ ∀ raw ∈ raws, ∃ port : UInt16, (ofRaw raw).WritesPort port := by
  constructor
  · rintro ⟨-, hports⟩ raw hraw
    exact ⟨_, (hports raw hraw).1⟩
  · intro hports
    refine ⟨?_, ?_⟩
    · apply Nvmeclient.discoverEntries_of_parse
      intro e he
      obtain ⟨raw, hraw, rfl⟩ := List.mem_map.mp he
      obtain ⟨port, hport⟩ := hports raw hraw
      exact ⟨_, (discoverEntry_trsvcID hport).2⟩
    · intro raw hraw
      obtain ⟨port, hport⟩ := hports raw hraw
      obtain ⟨htrsvcid, hparse⟩ := discoverEntry_trsvcID hport
      have hwrites : (ofRaw raw).WritesPort (discoverEntry (ofRaw raw)).trsvcID := by
        rwa [htrsvcid]
      refine ⟨hwrites, ?_⟩
      intro entry hentry
      rw [Nvmeclient.discoverEntry_eq, hparse, Option.map_some] at hentry
      cases Option.some.inj hentry
      exact hwrites

/-- An entry with the given service id, and without strings. -/
def serviceEntry (serviceID : GoString) : NvmefDiscRspPageEntry :=
  { trType := 3, adrFam := 1, subType := 2, treq := 0, portID := 1, cntlID := 0xffff, asqsz := 128
    resv8 := .replicate 22 0, trsvcID := .ofFn fun i => serviceID.getD i 0
    resv64 := .replicate 192 0, subnqn := [], traddr := [], tsas := .replicate 256 0 }

theorem serviceEntry_fits (serviceID : GoString) : (serviceEntry serviceID).Fits := by
  constructor <;> simp [serviceEntry]

/-- Without a service id one client reports port zero, and the other nothing. With the service id
70000 both report port 4464. -/
theorem decoded_unlike :
    ¬ DecodedAlike [(serviceEntry []).raw (serviceEntry_fits _)] ∧
    ¬ DecodedAlike [(serviceEntry (ascii "70000")).raw (serviceEntry_fits _)] := by
  refine ⟨?_, ?_⟩
  · rintro ⟨hsame, -⟩
    rw [List.map_singleton, ofRaw_raw] at hsame
    revert hsame
    decide +kernel
  · rintro ⟨-, hports⟩
    have h := (hports _ (List.mem_singleton_self _)).1
    rw [ofRaw_raw] at h
    revert h
    decide +kernel

end DiscoveryClient
