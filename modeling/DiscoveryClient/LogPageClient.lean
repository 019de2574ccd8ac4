import DiscoveryClient.LogPageServer

namespace DiscoveryClient

/-- How a discovery ends without entries. With no data before the completion the client
dereferences a nil list, and panics. -/
inductive LogPageError
  | aborted
  | nilData
  | header
  | entry
  | numRec
  | genCtr
deriving DecidableEq, Repr

namespace TcpQueue

/-- The server answers the requests of a discovery, the first of which has number zero. -/
abbrev Server := Nat → GetLogPageCommand → Option Reply

/-- The list a data PDU is received into. -/
def recvData (payload : List UInt8) : ScatterList :=
  let sgl := newScatterList payload.length (min 1024 payload.length)
  (({ sgl } : ScatterListWriter).write payload).1.sgl

/-- The loop of `recvLogPageDataPdu`, when `num` entries are still wanted. -/
def recvLogPageDataPdu : Nat → List UInt8 → Except LogPageError (List NvmefDiscRspPageEntry)
  | 0, _ => .ok []
  | num + 1, pduReader =>
    if pduReader.length < 1024 then .ok []
    else
      match NvmefDiscRspPageEntry.unpack pduReader with
      | none => .error .entry
      | some (entry, pduReader) => (recvLogPageDataPdu num pduReader).map (entry :: ·)

/-- The record count and the generation of the header, and the entries behind it. -/
def sendDiscLogPageRequest (server : GetLogPageCommand → Option Reply) (size : UInt32)
    (offset num : UInt64) : Except LogPageError (UInt64 × UInt64 × List NvmefDiscRspPageEntry) :=
  match server (newNvmeGetDiscoveryLogPageRequest size offset) with
  | none => .error .aborted
  | some ⟨_, none⟩ => .error .nilData
  | some ⟨_, some payload⟩ =>
    let data := recvData payload
    if data.capacity = 0 then .ok (0, 0, [])
    else
      match DiscRspPageHdr.unpack data.copyOut with
      | none => .error .header
      | some (pageHeader, pduReader) =>
        (recvLogPageDataPdu (num.toNat - offset.toNat / 1024) pduReader).map fun entries =>
          (pageHeader.numRec, pageHeader.genCtr, entries)

/-- The loop with pagination, for at most `fuel` rounds; `n` numbers the next request. -/
def getPages (server : Server) (numRec : UInt64) :
    Nat → Nat → List NvmefDiscRspPageEntry →
      Option (Except LogPageError (List NvmefDiscRspPageEntry × Nat))
  | 0, _, _ => none
  | fuel + 1, n, res =>
    if res.length < numRec.toNat then
      match sendDiscLogPageRequest (server n) 4096 (.ofNat (res.length * 1024)) numRec with
      | .error err => some (.error err)
      | .ok (_, _, entries) => getPages server numRec fuel (n + 1) (res ++ entries)
    else some (.ok (res, n))

/-- The entries in both modes, with the number of the next request. -/
def getEntries (server : Server) (logPagePaginationEnabled : Bool) (fuel : Nat) (numRec : UInt64) :
    Option (Except LogPageError (List NvmefDiscRspPageEntry × Nat)) :=
  if logPagePaginationEnabled then getPages server numRec fuel 1 []
  else
    let requestSize := 1024 + numRec.toUInt32 * 1024
    some ((sendDiscLogPageRequest (server 1) requestSize 0 numRec).map fun r => (r.2.2, 2))

/-- `none` when the loop takes more than `fuel` rounds. -/
def getLogPageEntries (server : Server) (logPagePaginationEnabled : Bool) (fuel : Nat) :
    Option (Except LogPageError (List NvmefDiscRspPageEntry)) :=
  match sendDiscLogPageRequest (server 0) 1024 0 0 with
  | .error err => some (.error err)
  | .ok (numRec, genCtr, _) =>
    match getEntries server logPagePaginationEnabled fuel numRec with
    | none => none
    | some (.error err) => some (.error err)
    | some (.ok (res, n)) =>
      if res.length ≠ numRec.toNat then some (.error .numRec)
      else
        match sendDiscLogPageRequest (server n) 1024 0 0 with
        | .error err => some (.error err)
        | .ok (_, newGenCtr, _) =>
          if genCtr ≠ newGenCtr then some (.error .genCtr) else some (.ok res)

theorem recvData_eq (payload : List UInt8) :
    (recvData payload).copyOut = payload ∧ (recvData payload).capacity = payload.length := by
  by_cases hnil : payload = []
  · subst hnil
    exact ⟨rfl, rfl⟩
  have hpos := List.length_pos_iff.mpr hnil
  have hnew := @ScatterList.at_new payload.length (min 1024 payload.length) (by omega)
  obtain ⟨hat, -⟩ := @ScatterListWriter.write_zeros
    { sgl := newScatterList payload.length (min 1024 payload.length) } [] payload payload.length
    hnew (Nat.le_refl _)
  simp only [List.nil_append, Nat.sub_self, List.replicate_zero, List.append_nil] at hat
  exact ⟨hat.copyOut, hat.capacity⟩

theorem recvLogPageDataPdu_records {es : List NvmefDiscRspPageEntry} {num : Nat} {tail : List UInt8}
    (fits : ∀ e ∈ es, e.Fits)
    (hnum : es.length = num ∨ (es.length ≤ num ∧ tail.length < 1024)) :
    recvLogPageDataPdu num (records es ++ tail) = .ok (es.map NvmefDiscRspPageEntry.onWire) := by
  induction es generalizing num with
  | nil =>
    cases num with
    | zero => rfl
    | succ num =>
      have htail : tail.length < 1024 := by
        rcases hnum with h | h
        · simp at h
        · exact h.2
      change recvLogPageDataPdu (num + 1) tail = .ok []
      rw [recvLogPageDataPdu, if_pos htail]
  | cons e es ih =>
    have he := fits e (by simp)
    have hlen := NvmefDiscRspPageEntry.record_length he
    cases num with
    | zero => simp at hnum
    | succ num =>
      have hrest := @ih num (fun x hx => fits x (by simp [hx])) (by simpa using hnum)
      have hsplit : records (e :: es) ++ tail = e.record ++ (records es ++ tail) := by
        simp [records]
      have hge : ¬(e.record ++ (records es ++ tail)).length < 1024 := by
        rw [List.length_append]
        omega
      rw [hsplit, recvLogPageDataPdu, if_neg hge, NvmefDiscRspPageEntry.unpack_record he]
      simp only [hrest]
      rfl

/-- Entries of 1024 bytes are read whatever the bytes are. -/
theorem recvLogPageDataPdu_total (num : Nat) (pduReader : List UInt8) :
    ∃ entries, recvLogPageDataPdu num pduReader = .ok entries := by
  induction num generalizing pduReader with
  | zero => exact ⟨[], rfl⟩
  | succ num ih =>
    rw [recvLogPageDataPdu]
    split
    next => exact ⟨[], rfl⟩
    next hle =>
      obtain ⟨entry, hentry⟩ := NvmefDiscRspPageEntry.unpack_of_le (Nat.le_of_not_lt hle)
      obtain ⟨entries, hrest⟩ := ih (pduReader.drop 1024)
      exact ⟨entry :: entries, by simp only [hentry, hrest]; rfl⟩

section Send

variable {server : GetLogPageCommand → Option Reply} {size : UInt32} {offset num : UInt64}
  {status : Status} {payload : List UInt8} {entries : List NvmefDiscRspPageEntry}

/-- A reply with 1024 bytes or more is read, whatever its header says. -/
theorem send_of_payload
    (hreply : server (newNvmeGetDiscoveryLogPageRequest size offset) = some ⟨status, some payload⟩)
    (hlen : 1024 ≤ payload.length)
    (hentries : recvLogPageDataPdu (num.toNat - offset.toNat / 1024) (payload.drop 1024) =
      .ok entries) :
    ∃ numRec genCtr, sendDiscLogPageRequest server size offset num =
      .ok (numRec, genCtr, entries) := by
  obtain ⟨hcopy, hcapacity⟩ := recvData_eq payload
  obtain ⟨pageHeader, hheader⟩ := DiscRspPageHdr.unpack_of_le hlen
  have hne : ¬payload.length = 0 := by omega
  refine ⟨pageHeader.numRec, pageHeader.genCtr, ?_⟩
  simp only [sendDiscLogPageRequest, hreply, hcapacity, hne, if_false, hcopy, hheader, hentries]
  rfl

theorem send_of_header {pageHeader : DiscRspPageHdr} {pduReader : List UInt8}
    (hreply : server (newNvmeGetDiscoveryLogPageRequest size offset) =
      some ⟨status, some (pageHeader.record ++ pduReader)⟩)
    (hentries : recvLogPageDataPdu (num.toNat - offset.toNat / 1024) pduReader = .ok entries) :
    sendDiscLogPageRequest server size offset num =
      .ok (pageHeader.numRec, pageHeader.genCtr, entries) := by
  obtain ⟨hcopy, hcapacity⟩ := recvData_eq (pageHeader.record ++ pduReader)
  have hne : ¬(pageHeader.record ++ pduReader).length = 0 := by
    have := pageHeader.record_length
    rw [List.length_append]
    omega
  simp only [sendDiscLogPageRequest, hreply, hcapacity, hne, if_false, hcopy,
    DiscRspPageHdr.unpack_record, hentries]
  rfl

theorem send_of_empty
    (hreply : server (newNvmeGetDiscoveryLogPageRequest size offset) = some ⟨status, some []⟩) :
    sendDiscLogPageRequest server size offset num = .ok (0, 0, []) := by
  have hcapacity : (recvData []).capacity = 0 := (recvData_eq []).2
  simp only [sendDiscLogPageRequest, hreply, hcapacity, if_true]

theorem send_of_short
    (hreply : server (newNvmeGetDiscoveryLogPageRequest size offset) = some ⟨status, some payload⟩)
    (hpos : 0 < payload.length) (hshort : payload.length < 1024) :
    sendDiscLogPageRequest server size offset num = .error .header := by
  obtain ⟨hcopy, hcapacity⟩ := recvData_eq payload
  have hne : ¬payload.length = 0 := by omega
  have hunpack : DiscRspPageHdr.unpack payload = none := by
    cases hread : DiscRspPageHdr.unpack payload with
    | none => rfl
    | some x =>
      have hle := DiscRspPageHdr.le_of_unpack hread
      omega
  simp only [sendDiscLogPageRequest, hreply, hcapacity, hne, if_false, hcopy, hunpack]

theorem send_of_no_data
    (hreply : server (newNvmeGetDiscoveryLogPageRequest size offset) = some ⟨status, none⟩) :
    sendDiscLogPageRequest server size offset num = .error .nilData := by
  simp only [sendDiscLogPageRequest, hreply]

theorem send_of_none (hreply : server (newNvmeGetDiscoveryLogPageRequest size offset) = none) :
    sendDiscLogPageRequest server size offset num = .error .aborted := by
  simp only [sendDiscLogPageRequest, hreply]

end Send

/-- The first and the last request: only the header is asked for. -/
theorem send_header (log : DiscoveryLog) :
    sendDiscLogPageRequest (execute (some log)) 1024 0 0 =
      .ok (log.header.numRec, log.genCtr, []) := by
  have hlen : (newNvmeGetDiscoveryLogPageRequest 1024 0).getLogPageLen.toNat = 1024 * (0 + 1) := by
    rw [getLogPageLen_new]
    rfl
  obtain ⟨w, hat, hexec⟩ := execute_first log hlen (getLogPageOffset_new 1024 0)
  have hcopy := hat.copyOut
  rw [List.take_zero, writeEntries, Option.map_some, completed] at hexec
  simp only [Nat.mul_zero, List.replicate_zero] at hcopy
  rw [hcopy] at hexec
  exact send_of_header hexec rfl

end TcpQueue

end DiscoveryClient
