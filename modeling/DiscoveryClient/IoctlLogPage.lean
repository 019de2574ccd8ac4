import DiscoveryClient.DiscoverDecoding
import DiscoveryClient.HostApi

/-! How `nvmeclient` retrieves a log page through the device of the discovery controller: the header,
the whole log in a buffer of the size the header asks for, and the header again. -/

namespace DiscoveryClient

open GoString

/-- A header takes 1024 bytes off the reader. -/
theorem DiscRspPageHdr.rest_of_unpack {r : List UInt8} {x : DiscRspPageHdr × List UInt8}
    (h : unpack r = some x) : x.2 = r.drop 1024 := by
  obtain ⟨hdr, hunpack⟩ := unpack_of_le (le_of_unpack h)
  rw [hunpack] at h
  cases Option.some.inj h
  rfl

namespace NvmefDiscRspPageEntry

/-- An entry takes 1024 bytes off the reader. -/
theorem rest_of_unpack {r : List UInt8} {x : NvmefDiscRspPageEntry × List UInt8}
    (h : unpack r = some x) : x.2 = r.drop 1024 := by
  obtain ⟨x₁, h₁, h⟩ := Option.bind_eq_some_iff.mp h
  obtain ⟨x₂, h₂, h⟩ := Option.bind_eq_some_iff.mp h
  obtain ⟨x₃, h₃, h⟩ := Option.bind_eq_some_iff.mp h
  obtain ⟨x₄, h₄, h⟩ := Option.bind_eq_some_iff.mp h
  obtain ⟨x₅, h₅, h⟩ := Option.bind_eq_some_iff.mp h
  obtain ⟨x₆, h₆, h⟩ := Option.bind_eq_some_iff.mp h
  obtain ⟨x₇, h₇, h⟩ := Option.bind_eq_some_iff.mp h
  obtain ⟨x₈, h₈, h⟩ := Option.bind_eq_some_iff.mp h
  obtain ⟨x₉, h₉, h⟩ := Option.bind_eq_some_iff.mp h
  obtain ⟨x₁₀, h₁₀, h⟩ := Option.bind_eq_some_iff.mp h
  obtain ⟨x₁₁, h₁₁, h⟩ := Option.bind_eq_some_iff.mp h
  obtain ⟨x₁₂, h₁₂, h⟩ := Option.bind_eq_some_iff.mp h
  obtain ⟨x₁₃, h₁₃, h⟩ := Option.bind_eq_some_iff.mp h
  cases Option.some.inj h
  change x₁₃.2 = r.drop 1024
  obtain ⟨-, rfl⟩ := Struc.readUint_some h₁
  obtain ⟨-, rfl⟩ := Struc.readUint_some h₂
  obtain ⟨-, rfl⟩ := Struc.readUint_some h₃
  obtain ⟨-, rfl⟩ := Struc.readUint_some h₄
  obtain ⟨-, rfl⟩ := Struc.readUint_some h₅
  obtain ⟨-, rfl⟩ := Struc.readUint_some h₆
  obtain ⟨-, rfl⟩ := Struc.readUint_some h₇
  obtain ⟨-, hrest₈⟩ := Struc.readArray_some h₈
  obtain ⟨-, hrest₉⟩ := Struc.readArray_some h₉
  obtain ⟨-, hrest₁₀⟩ := Struc.readArray_some h₁₀
  obtain ⟨-, rfl⟩ := Struc.readFull_some h₁₁
  obtain ⟨-, rfl⟩ := Struc.readFull_some h₁₂
  obtain ⟨-, hrest₁₃⟩ := Struc.readArray_some h₁₃
  simp only [hrest₁₃, hrest₁₀, hrest₉, hrest₈, List.drop_drop, Nat.reduceAdd]

end NvmefDiscRspPageEntry

namespace Nvmeclient

/-- How a call ends that returns no value. -/
inductive Failure (ε : Type)
  | panic
  | error (err : ε)
deriving DecidableEq, Repr

def Failure.map {ε ε' : Type} (f : ε → ε') : Failure ε → Failure ε'
  | .panic => .panic
  | .error err => .error (f err)

/-- An error of the system or of `fmt.Errorf` with its text, or of `struc.Unpack`, which has run out
of bytes. -/
inductive ReadError
  | text (msg : GoString)
  | unpack
deriving DecidableEq, Repr

/-- An `NvmeClientError`, or an error that is returned as it is. -/
inductive GetLogPageError
  | client (status : Nat) (msg : GoString) (err : Option ReadError)
  | read (err : ReadError)
deriving DecidableEq, Repr

def discNoLog : Nat := 2

def discGetLog : Nat := 4

def discRetryExhausted : Nat := 5

def discNotEqual : Nat := 6

def discFailed : Nat := 7

/-- The fields of the command that `nvmeGetLog` sets, without the address of the buffer. -/
structure NvmeAdminCmd where
  opcode : UInt8
  nsid : UInt32
  dataLen : UInt32
  cdw10 : UInt32
  cdw11 : UInt32
  cdw12 : UInt32
  cdw13 : UInt32
  cdw14 : UInt32
deriving DecidableEq, Repr

/-- The device and the memory of the host. Nothing is said about what a command leaves in the
buffer, and the commands of a retrieval are numbered: no two answers need agree. -/
structure Device where
  openFile : Option GoString := none
  ioctl : Nat → NvmeAdminCmd → (size : Nat) → Except GoString (Vector UInt8 size)
  /-- The largest buffer that can be made. -/
  maxAlloc : Nat

/-- The command of `nvmeGetLog` for a buffer of this size. -/
def getLogCmd (nsid logID : UInt32) (lsp : UInt8) (lpo : UInt64) (lsi : UInt16) (rae : Bool)
    (size : Nat) : NvmeAdminCmd :=
  let numd : UInt32 := .ofNat (size >>> 2) - 1
  let numdu : UInt16 := (numd >>> 16).toUInt16
  let numdl : UInt16 := (numd &&& 0xffff).toUInt16
  { opcode := 0x02
    nsid := nsid
    dataLen := .ofNat size
    cdw10 :=
      if rae then logID ||| numdl.toUInt32 <<< 16 ||| (1 : UInt32) <<< 15 ||| lsp.toUInt32 <<< 8
      else logID ||| numdl.toUInt32 <<< 16 ||| lsp.toUInt32 <<< 8
    cdw11 := numdu.toUInt32 ||| lsi.toUInt32 <<< 16
    cdw12 := lpo.toUInt32 &&& 0xffffffff
    cdw13 := (lpo >>> 32).toUInt32
    cdw14 := 0 }

/-- The buffer after the command with number `n`. The address of an empty one cannot be taken. -/
def nvmeGetLog (f : Device) (n : Nat) (nsid logID : UInt32) (lsp : UInt8) (lpo : UInt64)
    (lsi : UInt16) (rae : Bool) (size : Nat) : Except (Failure ReadError) (Vector UInt8 size) :=
  if size = 0 then .error .panic
  else
    match f.ioctl n (getLogCmd nsid logID lsp lpo lsi rae size) size with
    | .error err => .error (.error (.text err))
    | .ok data => .ok data

def nvmeDiscoveryLog (f : Device) (n size : Nat) : Except (Failure ReadError) (Vector UInt8 size) :=
  nvmeGetLog f n 0 0x70 0 0 0 false size

def discoveryHeaderSize : UInt64 := 1024

def nvmefDiscRspPageEntrySize : UInt64 := 1024

def readDiscoveryResponseHeader (f : Device) (n : Nat) :
    Except (Failure ReadError) DiscRspPageHdr :=
  match nvmeDiscoveryLog f n (discoveryHeaderSize + 8).toNat with
  | .error err => .error err
  | .ok buf =>
    match DiscRspPageHdr.unpack buf.toList with
    | none => .error (.error .unpack)
    | some (discoveryResponseHdr, _) => .ok discoveryResponseHdr

/-- The size of the buffer for the whole log, in 64 bits. -/
def logSize (discoveryResponseHdr : DiscRspPageHdr) : UInt64 :=
  discoveryHeaderSize + nvmefDiscRspPageEntrySize * discoveryResponseHdr.numRec

/-- The loop over the records, when `num` of them are left to be unpacked. -/
def unpackEntries : Nat → List UInt8 → Option (List NvmefDiscRspPageEntry)
  | 0, _ => some []
  | num + 1, reader =>
    match NvmefDiscRspPageEntry.unpack reader with
    | none => none
    | some (entry, reader) => (unpackEntries num reader).map (entry :: ·)

/-- The generation and the record count of the log are compared with those of the last header. -/
def compareHeaders (res : List NvmefDiscRspPageEntry) (log current : DiscRspPageHdr) :
    Except (Failure GetLogPageError) (List NvmefDiscRspPageEntry) :=
  if log.genCtr ≠ current.genCtr then
    .error (.error (.client discRetryExhausted (ascii "exhausted all retries")
      (some (.text (ascii "exhausted all retries")))))
  else if log.numRec ≠ current.numRec then
    .error (.error (.client discNotEqual
      (ascii "got different record count: " ++ decimal log.numRec.toNat ++ ascii " != " ++
        decimal current.numRec.toNat)
      (some (.text (ascii "exhausted all retries")))))
  else .ok res

/-- The whole log and the second header, for the buffer size that the first header gave. -/
def getLog (f : Device) (size : Nat) :
    Except (Failure GetLogPageError) (List NvmefDiscRspPageEntry) :=
  if f.maxAlloc < size then .error .panic
  else
    match nvmeDiscoveryLog f 1 size with
    | .error err => .error (err.map (.client discGetLog (ascii "get discovery log failed") ∘ some))
    | .ok log =>
      match DiscRspPageHdr.unpack log.toList with
      | none =>
        .error (.error (.client discGetLog (ascii "unpack discovery response header failed")
          (some .unpack)))
      | some (discoveryResponseHdr, reader) =>
        match unpackEntries discoveryResponseHdr.numRec.toNat reader with
        | none => .error (.error (.read .unpack))
        | some res =>
          match readDiscoveryResponseHeader f 2 with
          | .error err =>
            .error (err.map (.client discGetLog (ascii "get discovery log failed") ∘ some))
          | .ok currentDiscoveryResponseHdr =>
            compareHeaders res discoveryResponseHdr currentDiscoveryResponseHdr

def nvmfDiscoveryGetLogPage (f : Device) :
    Except (Failure GetLogPageError) (List NvmefDiscRspPageEntry) :=
  match f.openFile with
  | some err =>
    .error (.error (.client discFailed (ascii "failed to open file") (some (.text err))))
  | none =>
    match readDiscoveryResponseHeader f 0 with
    | .error err => .error (err.map (.client discGetLog (ascii "get discovery log failed") ∘ some))
    | .ok discoveryResponseHdr =>
      if discoveryResponseHdr.numRec = 0 then
        .error (.error (.client discNoLog (ascii "no log entries") none))
      else getLog f (logSize discoveryResponseHdr).toNat

theorem drop_record (r : List UInt8) (n : Nat) :
    (r.drop 1024).drop (1024 * n) = r.drop (1024 * (n + 1)) := by
  rw [List.drop_drop]
  congr 1
  omega

theorem unpackEntries_eq_some_iff {num : Nat} {r : List UInt8}
    {entries : List NvmefDiscRspPageEntry} :
    unpackEntries num r = some entries ↔ entries.length = num ∧
      ∀ i (hi : i < entries.length), NvmefDiscRspPageEntry.unpack (r.drop (1024 * i)) =
        some (entries[i], r.drop (1024 * (i + 1))) := by
  induction num generalizing r entries with
  | zero =>
    constructor
    · intro h
      cases Option.some.inj h
      exact ⟨rfl, fun i hi => absurd hi (Nat.not_lt_zero i)⟩
    · rintro ⟨hlen, -⟩
      rw [List.length_eq_zero_iff.mp hlen, unpackEntries]
  | succ num ih =>
    constructor
    · intro h
      rw [unpackEntries] at h
      split at h
      next => cases h
      next entry reader hunpack =>
        have hreader : reader = r.drop 1024 := NvmefDiscRspPageEntry.rest_of_unpack hunpack
        subst hreader
        obtain ⟨tail, htail, rfl⟩ := Option.map_eq_some_iff.mp h
        obtain ⟨hlen, hentries⟩ := ih.mp htail
        refine ⟨by rw [List.length_cons, hlen], ?_⟩
        intro i hi
        cases i with
        | zero => exact hunpack
        | succ i =>
          have hi' := hentries i (Nat.lt_of_succ_lt_succ hi)
          rwa [drop_record, drop_record] at hi'
    · rintro ⟨hlen, hentries⟩
      cases entries with
      | nil => cases hlen
      | cons entry tail =>
        have hhead : NvmefDiscRspPageEntry.unpack r = some (entry, r.drop 1024) :=
          hentries 0 (Nat.zero_lt_succ _)
        have htail : unpackEntries num (r.drop 1024) = some tail := by
          refine ih.mpr ⟨Nat.succ.inj hlen, ?_⟩
          intro i hi
          rw [drop_record, drop_record]
          exact hentries (i + 1) (Nat.succ_lt_succ hi)
        rw [unpackEntries, hhead]
        simp only [htail, Option.map_some]

theorem compareHeaders_eq_ok_iff {res entries : List NvmefDiscRspPageEntry}
    {log current : DiscRspPageHdr} :
    compareHeaders res log current = .ok entries ↔
      log.genCtr = current.genCtr ∧ log.numRec = current.numRec ∧ res = entries := by
  unfold compareHeaders
  split
  next hgen => simp [hgen]
  next hgen =>
    split
    next hnum => simp [hnum]
    next hnum => simp [not_not.mp hgen, not_not.mp hnum]

theorem getLog_eq_ok_iff {f : Device} {size : Nat} {entries : List NvmefDiscRspPageEntry} :
    getLog f size = .ok entries ↔ size ≤ f.maxAlloc ∧
      ∃ log hdr reader current, nvmeDiscoveryLog f 1 size = .ok log ∧
        DiscRspPageHdr.unpack log.toList = some (hdr, reader) ∧
        unpackEntries hdr.numRec.toNat reader = some entries ∧
        readDiscoveryResponseHeader f 2 = .ok current ∧
        hdr.genCtr = current.genCtr ∧ hdr.numRec = current.numRec := by
  constructor
  · intro h
    unfold getLog at h
    split at h
    next => cases h
    next hmake =>
      split at h
      next => cases h
      next log hlog =>
        split at h
        next => cases h
        next hdr reader hhdr =>
          split at h
          next => cases h
          next res hres =>
            split at h
            next => cases h
            next current hcurrent =>
              obtain ⟨hgen, hnum, rfl⟩ := compareHeaders_eq_ok_iff.mp h
              exact ⟨Nat.not_lt.mp hmake, log, hdr, reader, current, hlog, hhdr, hres, hcurrent,
                hgen, hnum⟩
  · rintro ⟨hmake, log, hdr, reader, current, hlog, hhdr, hres, hcurrent, hgen, hnum⟩
    rw [getLog, if_neg (Nat.not_lt.mpr hmake)]
    simp only [hlog, hhdr, hres, hcurrent]
    exact compareHeaders_eq_ok_iff.mpr ⟨hgen, hnum, rfl⟩

theorem nvmfDiscoveryGetLogPage_eq_ok_iff {f : Device} {entries : List NvmefDiscRspPageEntry} :
    nvmfDiscoveryGetLogPage f = .ok entries ↔ f.openFile = none ∧
      ∃ first, readDiscoveryResponseHeader f 0 = .ok first ∧ first.numRec ≠ 0 ∧
        getLog f (logSize first).toNat = .ok entries := by
  constructor
  · intro h
    unfold nvmfDiscoveryGetLogPage at h
    split at h
    next => cases h
    next hopen =>
      split at h
      next => cases h
      next first hfirst =>
        split at h
        next => cases h
        next hnum => exact ⟨hopen, first, hfirst, hnum, h⟩
  · rintro ⟨hopen, first, hfirst, hnum, h⟩
    unfold nvmfDiscoveryGetLogPage
    simp only [hopen, hfirst, if_neg hnum, h]

/-- The entries are those of the second read: as many as its header says, decoded in order from what
follows the header, and its header has the generation and the record count of the third read. The
first read gives no more than the size of the buffer. -/
def ConsistentLog (f : Device) (entries : List NvmefDiscRspPageEntry) : Prop :=
  ∃ (first second third : DiscRspPageHdr) (log : Vector UInt8 (logSize first).toNat),
    readDiscoveryResponseHeader f 0 = .ok first ∧
    nvmeDiscoveryLog f 1 (logSize first).toNat = .ok log ∧
    DiscRspPageHdr.unpack log.toList = some (second, log.toList.drop 1024) ∧
    readDiscoveryResponseHeader f 2 = .ok third ∧
    second.genCtr = third.genCtr ∧ second.numRec = third.numRec ∧
    entries.length = second.numRec.toNat ∧
    ∀ i (hi : i < entries.length),
      NvmefDiscRspPageEntry.unpack (log.toList.drop (1024 * (i + 1))) =
        some (entries[i], log.toList.drop (1024 * (i + 2)))

theorem nvmfDiscoveryGetLogPage_consistent {f : Device} {entries : List NvmefDiscRspPageEntry}
    (h : nvmfDiscoveryGetLogPage f = .ok entries) : ConsistentLog f entries := by
  obtain ⟨-, first, hfirst, -, h⟩ := nvmfDiscoveryGetLogPage_eq_ok_iff.mp h
  obtain ⟨-, log, second, reader, third, hlog, hsecond, hres, hthird, hgen, hnum⟩ :=
    getLog_eq_ok_iff.mp h
  have hreader : reader = log.toList.drop 1024 := DiscRspPageHdr.rest_of_unpack hsecond
  subst hreader
  obtain ⟨hlen, hentries⟩ := unpackEntries_eq_some_iff.mp hres
  refine ⟨first, second, third, log, hfirst, hlog, hsecond, hthird, hgen, hnum, hlen, ?_⟩
  intro i hi
  have hentry := hentries i hi
  rwa [drop_record, drop_record] at hentry

/-- The record count of the first read wraps around to a buffer for two entries; the log that is then
read has one. -/
def wrappedReads : Nat → List UInt8
  | 0 => DiscRspPageHdr.record { genCtr := 6, numRec := 0x40000000000002 } ++ List.replicate 8 0
  | 1 => DiscRspPageHdr.record { genCtr := 7, numRec := 1 } ++
      ((serviceEntry (ascii "4420")).record ++ List.replicate 1024 0)
  | _ => DiscRspPageHdr.record { genCtr := 7, numRec := 1 } ++ List.replicate 8 0

def wrappedDevice : Device where
  ioctl n _ size :=
    if h : (wrappedReads n).toArray.size = size then .ok ⟨(wrappedReads n).toArray, h⟩
    else .error (ascii "input/output error")
  maxAlloc := 4096

theorem wrappedDevice_read {n size : Nat} (h : (wrappedReads n).length = size) (hsize : size ≠ 0) :
    ∃ log, nvmeDiscoveryLog wrappedDevice n size = .ok log ∧ log.toList = wrappedReads n := by
  have hioctl : ∀ cmd, wrappedDevice.ioctl n cmd size = .ok ⟨(wrappedReads n).toArray, h⟩ :=
    fun _ => dif_pos h
  refine ⟨⟨(wrappedReads n).toArray, h⟩, ?_, rfl⟩
  rw [nvmeDiscoveryLog, nvmeGetLog]
  simp only [if_neg hsize, hioctl]

theorem wrappedDevice_header {n : Nat} {hdr : DiscRspPageHdr}
    (h : wrappedReads n = hdr.record ++ List.replicate 8 0) :
    readDiscoveryResponseHeader wrappedDevice n = .ok hdr := by
  have hlen : (wrappedReads n).length = (discoveryHeaderSize + 8).toNat := by
    rw [h, List.length_append, DiscRspPageHdr.record_length]
    rfl
  obtain ⟨log, hlog, hbytes⟩ := wrappedDevice_read hlen (by decide)
  rw [readDiscoveryResponseHeader, hlog]
  simp only [hbytes, h, DiscRspPageHdr.unpack_record]

theorem nvmfDiscoveryGetLogPage_consistent_wrapped :
    nvmfDiscoveryGetLogPage wrappedDevice = .ok [(serviceEntry (ascii "4420")).onWire] ∧
    ConsistentLog wrappedDevice [(serviceEntry (ascii "4420")).onWire] := by
  have hfits := serviceEntry_fits (ascii "4420")
  have hsize : (logSize { genCtr := 6, numRec := 0x40000000000002 }).toNat = 3072 := by decide
  have hlen : (wrappedReads 1).length =
      (logSize { genCtr := 6, numRec := 0x40000000000002 }).toNat := by
    simp only [hsize, wrappedReads, List.length_append, DiscRspPageHdr.record_length,
      NvmefDiscRspPageEntry.record_length hfits, List.length_replicate]
  obtain ⟨log, hlog, hbytes⟩ := wrappedDevice_read hlen (by decide)
  have hok : nvmfDiscoveryGetLogPage wrappedDevice = .ok [(serviceEntry (ascii "4420")).onWire] := by
    refine nvmfDiscoveryGetLogPage_eq_ok_iff.mpr
      ⟨rfl, _, wrappedDevice_header rfl, by decide, getLog_eq_ok_iff.mpr ⟨by decide, log, ?_⟩⟩
    refine ⟨_, _, _, hlog, by rw [hbytes]; exact DiscRspPageHdr.unpack_record _ _, ?_,
      wrappedDevice_header rfl, rfl, rfl⟩
    change unpackEntries 1 _ = _
    simp only [unpackEntries, NvmefDiscRspPageEntry.unpack_record hfits, Option.map_some]
  exact ⟨hok, nvmfDiscoveryGetLogPage_consistent hok⟩

end Nvmeclient

end DiscoveryClient
