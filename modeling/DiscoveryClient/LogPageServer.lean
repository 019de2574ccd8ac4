import DiscoveryClient.LogPageCommand
import DiscoveryClient.LogPageWire
import DiscoveryClient.ScatterList

namespace DiscoveryClient

/-- The log of the discovery subsystem as one host sees it. Its length is reported in 32 bits. -/
structure DiscoveryLog where
  entries : List NvmefDiscRspPageEntry
  genCtr : UInt64
  length_lt : entries.length < 2 ^ 32

/-- `FillDiscoveryLogPage` is an interface: this is what the server relies on. -/
def DiscoveryLog.fillDiscoveryLogPage (log : DiscoveryLog) (offset : UInt64) (maxEntries : UInt32) :
    List NvmefDiscRspPageEntry × UInt32 × UInt64 :=
  ((log.entries.drop (offset.toNat / 1024)).take maxEntries.toNat, .ofNat log.entries.length,
    log.genCtr)

inductive Status
  | success
  | internal
deriving DecidableEq, Repr

/-- What the server sends for a command: a completion, with data before it if there is any. -/
structure Reply where
  status : Status
  data : Option (List UInt8)
deriving DecidableEq

/-- The header is written as far as it fits: the error is ignored. -/
def writeHeader (w : ScatterListWriter) (header : DiscRspPageHdr) : Option ScatterListWriter := do
  let bytes ← Struc.pack header.fields
  return (w.write bytes).1

/-- The loop over the entries; `none` when packing one of them panics. -/
def writeEntries : ScatterListWriter → List NvmefDiscRspPageEntry →
    Option (Except SglError ScatterListWriter)
  | w, [] => some (.ok w)
  | w, entry :: rest =>
    match Struc.pack entry.fields with
    | none => none
    | some bytes =>
      match w.write bytes with
      | (_, _, some err) => some (.error err)
      | (w, _, none) => writeEntries w rest

def maxUint32 (x y : UInt32) : UInt32 := if y < x then x else y

/-- How many entries there is room for in a reply. -/
def numEntries (dataLen : UInt32) (offset : UInt64) : UInt32 :=
  if offset = 0 then
    if 1024 < dataLen then (dataLen - 1024) / 1024 else 0
  else dataLen / 1024

/-- The completion once the entries are written: the whole list is sent. -/
def completed : Except SglError ScatterListWriter → Reply
  | .error _ => ⟨.internal, none⟩
  | .ok w => ⟨.success, some w.sgl.copyOut⟩

/-- `NvmeGetDiscoveryLogPageRequest.execute`, with the list `mapData` has made for the command;
`none` when it panics, so that no completion is ever sent. -/
def execute (discoverySubsystem : Option DiscoveryLog) (cmd : GetLogPageCommand) : Option Reply :=
  match discoverySubsystem with
  | none => some ⟨.internal, none⟩
  | some log =>
    let dataLen := maxUint32 cmd.getLogPageLen 1024
    let offset := if 0 < cmd.getLogPageOffset then cmd.getLogPageOffset - 1024
      else cmd.getLogPageOffset
    let (entries, numRec, genCounter) :=
      log.fillDiscoveryLogPage offset (numEntries dataLen cmd.getLogPageOffset)
    let header : DiscRspPageHdr := { genCtr := genCounter, numRec := numRec.toUInt64, recFmt := 0 }
    -- for no data there is no list, and writing to it panics
    if cmd.getLogPageLen = 0 then
      if offset = 0 ∨ entries ≠ [] then none else some ⟨.success, none⟩
    else do
      let w : ScatterListWriter := { sgl := newScatterList cmd.getLogPageLen.toNat 8192 }
      let w ← if offset = 0 then writeHeader w header else some w
      let written ← writeEntries w entries
      return completed written

/-- The header the server writes for the log. -/
def DiscoveryLog.header (log : DiscoveryLog) : DiscRspPageHdr :=
  { genCtr := log.genCtr, numRec := (UInt32.ofNat log.entries.length).toUInt64 }

theorem DiscoveryLog.header_numRec (log : DiscoveryLog) :
    log.header.numRec.toNat = log.entries.length := by
  rw [DiscoveryLog.header, UInt32.toNat_toUInt64, UInt32.toNat_ofNat',
    Nat.mod_eq_of_lt log.length_lt]

/-- The records of the entries, one behind the other. -/
def records (es : List NvmefDiscRspPageEntry) : List UInt8 :=
  es.flatMap NvmefDiscRspPageEntry.record

theorem records_length {es : List NvmefDiscRspPageEntry} (fits : ∀ e ∈ es, e.Fits) :
    (records es).length = 1024 * es.length := by
  induction es with
  | nil => rfl
  | cons e es ih =>
    have hrest := ih (fun x hx => fits x (by simp [hx]))
    have hone := NvmefDiscRspPageEntry.record_length (fits e (by simp))
    simp only [records, List.flatMap_cons, List.length_append, List.length_cons] at hrest ⊢
    omega

theorem writeEntries_cons {w : ScatterListWriter} {e : NvmefDiscRspPageEntry}
    {es : List NvmefDiscRspPageEntry} {n : Nat} (he : e.Fits) (hret : (w.write e.record).2 = (n, none)) :
    writeEntries w (e :: es) = writeEntries (w.write e.record).1 es := by
  rw [writeEntries, NvmefDiscRspPageEntry.pack_eq he]
  rcases hw : w.write e.record with ⟨w', n', err⟩
  rw [hw] at hret
  cases (Prod.mk.inj hret).2
  simp only [hw]

theorem writeEntries_fit {w : ScatterListWriter} {done : List UInt8}
    {es : List NvmefDiscRspPageEntry} {room : Nat}
    (h : w.sgl.At w.index w.offset (done ++ List.replicate room 0) done.length)
    (fits : ∀ e ∈ es, e.Fits) (hroom : 1024 * es.length ≤ room) :
    ∃ w', writeEntries w es = some (.ok w') ∧
      w'.sgl.copyOut = done ++ records es ++ List.replicate (room - 1024 * es.length) 0 := by
  induction es generalizing w done room with
  | nil => exact ⟨w, rfl, by simpa [records] using h.copyOut⟩
  | cons e es ih =>
    have hlen := NvmefDiscRspPageEntry.record_length (fits e (by simp))
    rw [List.length_cons] at hroom
    obtain ⟨hat, hret⟩ := @ScatterListWriter.write_zeros w done e.record room h (by omega)
    obtain ⟨w', hrest, hout⟩ := @ih (w.write e.record).1 (done ++ e.record) (room - e.record.length)
      hat (fun x hx => fits x (by simp [hx])) (by omega)
    refine ⟨w', ?_, ?_⟩
    · rw [writeEntries_cons (fits e (by simp)) hret, hrest]
    · rw [hout, hlen, List.length_cons, records, records, List.flatMap_cons]
      have hsub : room - 1024 - 1024 * es.length = room - 1024 * (es.length + 1) := by omega
      rw [hsub]
      simp only [List.append_assoc]

/-- Packing panics at the first entry that does not fit, unless the list was full before it. -/
theorem writeEntries_eq_none_iff {w : ScatterListWriter} {done : List UInt8}
    {es : List NvmefDiscRspPageEntry} {room : Nat}
    (h : w.sgl.At w.index w.offset (done ++ List.replicate room 0) done.length)
    (hroom : 1024 * es.length ≤ room + 1024) : writeEntries w es = none ↔ ¬∀ e ∈ es, e.Fits := by
  induction es generalizing w done room with
  | nil => simp [writeEntries]
  | cons e es ih =>
    rw [List.length_cons] at hroom
    by_cases he : e.Fits
    · have hlen := NvmefDiscRspPageEntry.record_length he
      rw [List.forall_mem_cons, and_iff_right he]
      by_cases hfull : 1024 ≤ room
      · obtain ⟨hat, hret⟩ := @ScatterListWriter.write_zeros w done e.record room h (by omega)
        rw [writeEntries_cons he hret]
        exact ih hat (by omega)
      · -- the last entry is cut off, which is an error and no panic
        have hnil : es = [] := List.length_eq_zero_iff.mp (by omega)
        subst hnil
        obtain ⟨-, hret⟩ := w.write_spec h e.record
        have hcut : ¬min e.record.length
            ((done ++ List.replicate room (0 : UInt8)).length - done.length) = e.record.length := by
          rw [List.length_append, List.length_replicate]
          omega
        rw [if_neg hcut] at hret
        rcases hw : w.write e.record with ⟨w', n, err⟩
        rw [hw] at hret
        cases (Prod.mk.inj hret).2
        simp [writeEntries, NvmefDiscRspPageEntry.pack_eq he, hw]
    · have hnone : Struc.pack e.fields = none := by
        cases hpack : Struc.pack e.fields with
        | none => rfl
        | some bytes => exact absurd (NvmefDiscRspPageEntry.fits_of_pack hpack) he
      simp [writeEntries, hnone, he]

theorem writeEntries_unfit {w : ScatterListWriter} {done : List UInt8}
    {es : List NvmefDiscRspPageEntry} {room : Nat}
    (h : w.sgl.At w.index w.offset (done ++ List.replicate room 0) done.length)
    (unfit : ¬∀ e ∈ es, e.Fits) (hroom : 1024 * es.length ≤ room) : writeEntries w es = none :=
  (writeEntries_eq_none_iff h (by omega)).mpr unfit

theorem maxUint32_of_le {x y : UInt32} (h : y.toNat ≤ x.toNat) : maxUint32 x y = x := by
  unfold maxUint32
  split
  next => rfl
  next hnot =>
    have hle : x.toNat ≤ y.toNat := by
      rw [UInt32.lt_iff_toNat_lt] at hnot
      omega
    exact UInt32.toNat_inj.mp (by omega)

theorem numEntries_first {len : UInt32} {m : Nat} (hlen : len.toNat = 1024 * (m + 1)) :
    (numEntries len 0).toNat = m := by
  have hk : (1024 : UInt32).toNat = 1024 := rfl
  rw [numEntries, if_pos rfl]
  split
  next hlt =>
    have hle : (1024 : UInt32) ≤ len := by
      rw [UInt32.le_iff_toNat_le]
      omega
    rw [UInt32.toNat_div, UInt32.toNat_sub_of_le _ _ hle, hlen, hk]
    omega
  next hnot =>
    rw [UInt32.lt_iff_toNat_lt] at hnot
    have hzero : (0 : UInt32).toNat = 0 := rfl
    omega

theorem numEntries_later {len : UInt32} {offset : UInt64} {m : Nat} (hlen : len.toNat = 1024 * m)
    (hoffset : offset ≠ 0) : (numEntries len offset).toNat = m := by
  have hk : (1024 : UInt32).toNat = 1024 := rfl
  rw [numEntries, if_neg hoffset, UInt32.toNat_div, hlen, hk]
  omega

section Execute

variable {log : DiscoveryLog} {cmd : GetLogPageCommand} {m : Nat}

/-- The list of a command is one zeroed buffer, and the header fits into it. -/
theorem writeHeader_at (log : DiscoveryLog) (hlen : cmd.getLogPageLen.toNat = 1024 * (m + 1)) :
    ∃ w, writeHeader { sgl := newScatterList cmd.getLogPageLen.toNat 8192 } log.header = some w ∧
      w.sgl.At w.index w.offset (log.header.record ++ List.replicate (1024 * m) 0)
        log.header.record.length := by
  have hrecord := log.header.record_length
  have hnew : (newScatterList cmd.getLogPageLen.toNat 8192).At 0 0
      (([] : List UInt8) ++ List.replicate (1024 * (m + 1)) 0) ([] : List UInt8).length := by
    rw [hlen]
    exact ScatterList.at_new (by decide)
  obtain ⟨hat, -⟩ := @ScatterListWriter.write_zeros
    { sgl := newScatterList cmd.getLogPageLen.toNat 8192 } [] log.header.record (1024 * (m + 1))
    hnew (by omega)
  refine ⟨_, by rw [writeHeader, DiscRspPageHdr.pack_eq]; rfl, ?_⟩
  have hroom : 1024 * (m + 1) - log.header.record.length = 1024 * m := by omega
  rwa [hroom, List.nil_append] at hat

theorem getLogPageLen_ne (hlen : cmd.getLogPageLen.toNat = 1024 * (m + 1)) :
    cmd.getLogPageLen ≠ 0 ∧ maxUint32 cmd.getLogPageLen 1024 = cmd.getLogPageLen := by
  refine ⟨?_, maxUint32_of_le ?_⟩
  · intro h
    rw [h] at hlen
    simp at hlen
  · have hk : (1024 : UInt32).toNat = 1024 := rfl
    omega

theorem execute_first (log : DiscoveryLog) (hlen : cmd.getLogPageLen.toNat = 1024 * (m + 1))
    (hoffset : cmd.getLogPageOffset = 0) :
    ∃ w : ScatterListWriter,
      w.sgl.At w.index w.offset (log.header.record ++ List.replicate (1024 * m) 0)
        log.header.record.length ∧
      execute (some log) cmd = (writeEntries w (log.entries.take m)).map completed := by
  obtain ⟨w, hw, hat⟩ := writeHeader_at log hlen
  refine ⟨w, hat, ?_⟩
  obtain ⟨hne, hmax⟩ := getLogPageLen_ne hlen
  have hcount := numEntries_first hlen
  have hzero : ¬(0 : UInt64) < 0 := by decide
  have hdrop : (0 : UInt64).toNat / 1024 = 0 := rfl
  have hheader : writeHeader { sgl := newScatterList cmd.getLogPageLen.toNat 8192 }
      { genCtr := log.genCtr, numRec := (UInt32.ofNat log.entries.length).toUInt64 } = some w := hw
  simp only [execute, DiscoveryLog.fillDiscoveryLogPage, hoffset, hmax, hcount, if_neg hzero,
    if_neg hne, if_pos trivial, hheader, hdrop, List.drop_zero, Option.bind_eq_bind,
    Option.bind_some]
  cases writeEntries w (log.entries.take m) <;> rfl

theorem execute_later (log : DiscoveryLog) {j : Nat}
    (hlen : cmd.getLogPageLen.toNat = 1024 * (m + 1))
    (hoffset : cmd.getLogPageOffset.toNat = 1024 * (j + 1)) (hj : 0 < j) :
    ∃ w : ScatterListWriter,
      w.sgl.At w.index w.offset (([] : List UInt8) ++ List.replicate (1024 * (m + 1)) 0) 0 ∧
      execute (some log) cmd =
        (writeEntries w ((log.entries.drop j).take (m + 1))).map completed := by
  refine ⟨{ sgl := newScatterList cmd.getLogPageLen.toNat 8192 }, ?_, ?_⟩
  · rw [hlen]
    exact ScatterList.at_new (by decide)
  obtain ⟨hne, hmax⟩ := getLogPageLen_ne hlen
  have hk : (1024 : UInt64).toNat = 1024 := rfl
  have hzero : (0 : UInt64).toNat = 0 := rfl
  have hpos : 0 < cmd.getLogPageOffset := by
    rw [UInt64.lt_iff_toNat_lt]
    omega
  have hnot : cmd.getLogPageOffset ≠ 0 := by
    intro h
    rw [h] at hoffset
    omega
  have hsub : (cmd.getLogPageOffset - 1024).toNat = 1024 * j := by
    rw [UInt64.toNat_sub_of_le _ _ (by rw [UInt64.le_iff_toNat_le]; omega)]
    omega
  have hrest : cmd.getLogPageOffset - 1024 ≠ 0 := by
    intro h
    rw [h] at hsub
    omega
  have hdrop : 1024 * j / 1024 = j := by omega
  have hcount := numEntries_later hlen hnot
  simp only [execute, DiscoveryLog.fillDiscoveryLogPage, hmax, hcount, if_pos hpos, if_neg hne,
    if_neg hrest, hsub, hdrop, Option.bind_eq_bind, Option.bind_some]
  cases writeEntries _ ((log.entries.drop j).take (m + 1)) <;> rfl

/-- The command asks for no data: the server does not survive writing the header. -/
theorem execute_no_data (log : DiscoveryLog) (hlen : cmd.getLogPageLen = 0)
    (hoffset : cmd.getLogPageOffset = 0) : execute (some log) cmd = none := by
  have hzero : ¬(0 : UInt64) < 0 := by decide
  simp [execute, hlen, hoffset, hzero]

end Execute

/-- The offset a command asks for, without the header. -/
def GetLogPageCommand.entriesOffset (cmd : GetLogPageCommand) : UInt64 :=
  if 0 < cmd.getLogPageOffset then cmd.getLogPageOffset - 1024 else cmd.getLogPageOffset

/-- The entries that are written for a command. -/
def DiscoveryLog.page (log : DiscoveryLog) (cmd : GetLogPageCommand) : List NvmefDiscRspPageEntry :=
  (log.fillDiscoveryLogPage cmd.entriesOffset
    (numEntries (maxUint32 cmd.getLogPageLen 1024) cmd.getLogPageOffset)).1

theorem numEntries_le (dataLen : UInt32) (offset : UInt64) :
    1024 * (numEntries dataLen offset).toNat ≤ dataLen.toNat := by
  have hk : (1024 : UInt32).toNat = 1024 := rfl
  unfold numEntries
  split
  next =>
    split
    next hlt =>
      have hle : (1024 : UInt32) ≤ dataLen := by
        rw [UInt32.lt_iff_toNat_lt] at hlt
        rw [UInt32.le_iff_toNat_le]
        omega
      rw [UInt32.toNat_div, UInt32.toNat_sub_of_le _ _ hle, hk]
      omega
    next => simp
  next =>
    rw [UInt32.toNat_div, hk]
    omega

theorem DiscoveryLog.page_length_le (log : DiscoveryLog) (cmd : GetLogPageCommand) :
    1024 * (log.page cmd).length ≤ cmd.getLogPageLen.toNat - 1024 + 1024 := by
  have hcount := numEntries_le (maxUint32 cmd.getLogPageLen 1024) cmd.getLogPageOffset
  have hlen : (log.page cmd).length ≤
      (numEntries (maxUint32 cmd.getLogPageLen 1024) cmd.getLogPageOffset).toNat := by
    rw [DiscoveryLog.page, DiscoveryLog.fillDiscoveryLogPage, List.length_take]
    exact Nat.min_le_left _ _
  have hk : (1024 : UInt32).toNat = 1024 := rfl
  have hmax : (maxUint32 cmd.getLogPageLen 1024).toNat ≤ cmd.getLogPageLen.toNat - 1024 + 1024 := by
    unfold maxUint32
    split
    next => omega
    next => omega
  omega

/-- However short the list is, behind the header there is room for all but its 1024 bytes. -/
theorem writeHeader_room (header : DiscRspPageHdr) (len : Nat) :
    ∃ w done, writeHeader { sgl := newScatterList len 8192 } header = some w ∧
      w.sgl.At w.index w.offset (done ++ List.replicate (len - 1024) 0) done.length := by
  have hnew : (newScatterList len 8192).At 0 0 (List.replicate len 0) 0 :=
    ScatterList.at_new (by decide)
  obtain ⟨hat, -⟩ := @ScatterListWriter.write_spec { sgl := newScatterList len 8192 } _ _ hnew
    header.record
  refine ⟨_, header.record.take (min 1024 len), by rw [writeHeader, DiscRspPageHdr.pack_eq]; rfl, ?_⟩
  have hrecord := header.record_length
  have hk : min header.record.length ((List.replicate len (0 : UInt8)).length - 0) = min 1024 len := by
    rw [List.length_replicate, hrecord, Nat.sub_zero]
  have hdone : (header.record.take (min 1024 len)).length = min 1024 len := by
    rw [List.length_take]
    omega
  have hrest : len - min 1024 len = len - 1024 := by omega
  rw [hk, List.take_zero, List.nil_append, Nat.zero_add, List.drop_replicate, hrest] at hat
  rwa [hdone]

/-- When a log page request makes the server panic. -/
theorem execute_eq_none_iff (log : DiscoveryLog) (cmd : GetLogPageCommand) :
    execute (some log) cmd = none ↔
      if cmd.getLogPageLen = 0 then cmd.entriesOffset = 0 ∨ log.page cmd ≠ []
      else ¬∀ e ∈ log.page cmd, e.Fits := by
  have hpage := log.page_length_le cmd
  change (if cmd.getLogPageLen = 0 then
      if cmd.entriesOffset = 0 ∨ log.page cmd ≠ [] then none else some ⟨.success, none⟩
    else do
      let w : ScatterListWriter := { sgl := newScatterList cmd.getLogPageLen.toNat 8192 }
      let w ← if cmd.entriesOffset = 0 then writeHeader w log.header else some w
      let written ← writeEntries w (log.page cmd)
      return completed written) = none ↔ _
  split
  next =>
    split
    next hwrites => simpa using hwrites
    next hsilent => simpa using hsilent
  next hlen =>
    by_cases hoffset : cmd.entriesOffset = 0
    · obtain ⟨w, done, hw, hat⟩ := writeHeader_room log.header cmd.getLogPageLen.toNat
      rw [← writeEntries_eq_none_iff hat hpage]
      simp only [hoffset, if_true, hw, Struc.some_bind]
      cases writeEntries w (log.page cmd) <;> simp
    · have hnew : (newScatterList cmd.getLogPageLen.toNat 8192).At 0 0
          (([] : List UInt8) ++ List.replicate cmd.getLogPageLen.toNat 0) ([] : List UInt8).length :=
        ScatterList.at_new (by decide)
      rw [← @writeEntries_eq_none_iff { sgl := newScatterList cmd.getLogPageLen.toNat 8192 } [] _ _
        hnew (by omega)]
      simp only [hoffset, if_false, Struc.some_bind]
      cases writeEntries _ (log.page cmd) <;> simp

end DiscoveryClient
