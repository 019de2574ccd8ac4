import DiscoveryClient.FailedCommands
import DiscoveryClient.HostCommands

/-! What the TX loop of the server writes for completed requests, and what the receive loop of the
client makes of it. -/

namespace DiscoveryClient

open TcpQueue (recvData recvData_eq)

namespace Nvme

/-- A request as the TX loop gets it. `data` is what its list holds when it is completed. -/
structure CompletedRequest where
  isWrite : Bool
  dataLen : UInt32
  data : List UInt8
  completion : Completion

namespace CompletedRequest

/-- The command ID of the request; its completion was made with it. -/
def commandID (request : CompletedRequest) : UInt16 := request.completion.commandID

def needsDataOut (request : CompletedRequest) : Bool :=
  !request.isWrite && 0 < request.dataLen && request.completion.status = success

def tcpDataLast : UInt8 := 0x4

/-- The length of the PDU is added up in 32 bits. -/
def sendDataPdu (request : CompletedRequest) : List UInt8 :=
  TCPHeaderType.record
    { type := nvmeTcpC2hData
      flags := tcpDataLast
      hlen := 24
      pdo := if 0 < request.dataLen then 24 else 0
      plen := 24 + request.dataLen } ++
  TCPDataPDU.record
    { commandID := request.commandID
      tTag := 0
      dataOffset := 0
      dataLength := request.dataLen
      reserved := .replicate 4 0 } ++
  request.data

/-- The TX loop writes the data of a request in front of its completion. -/
def sent (request : CompletedRequest) : List UInt8 :=
  (if request.needsDataOut then request.sendDataPdu else []) ++ rspPdu 0 request.completion

def pduCount (request : CompletedRequest) : Nat := if request.needsDataOut then 2 else 1

/-- What the client's request is when it is offered to its sender. -/
def deliver (request : CompletedRequest) (old : Request) : Request where
  command := old.command
  data := if request.needsDataOut then some (recvData request.data) else old.data
  completion := some request.completion

/-- A list that is sent has the length of the request's data, and a PDU has room for it. -/
structure Sendable (request : CompletedRequest) : Prop where
  length : request.needsDataOut = true → request.data.length = request.dataLen.toNat
  room : request.needsDataOut = true → request.dataLen.toNat + 24 < 2 ^ 32

end CompletedRequest

/-- The loop of `pollResponseChannel` while the connection takes what is written. -/
def pollResponseChannel (completedNvmeRequests : List CompletedRequest) : List UInt8 :=
  completedNvmeRequests.flatMap CompletedRequest.sent

end Nvme

open Nvme

/-- The loop of `recvPdu` for `n` PDUs: the requests that are offered to their senders, and what is
left outstanding and on the stream. -/
def recvLoop : Nat → Outstanding → List UInt8 →
    Option (Except RecvError (List Request × Outstanding × List UInt8))
  | 0, outstanding, stream => some (.ok ([], outstanding, stream))
  | n + 1, outstanding, stream =>
    match handleRecv outstanding stream with
    | none => none
    | some (_, .error err) => some (.error err)
    | some (outstanding, .ok (stream, offered)) =>
      (recvLoop n outstanding stream).map fun received =>
        received.map fun (requests, left) => (offered.toList ++ requests, left)

section Loop

variable {outstanding outstanding' : Outstanding} {stream stream' : List UInt8} {n : Nat}

theorem recvLoop_step {offered : Option Request}
    (h : handleRecv outstanding stream = some (outstanding', .ok (stream', offered)))
    {requests : List Request} {left : Outstanding × List UInt8}
    (hrest : recvLoop n outstanding' stream' = some (.ok (requests, left))) :
    recvLoop (n + 1) outstanding stream = some (.ok (offered.toList ++ requests, left)) := by
  rw [recvLoop, h]
  simp only [hrest]
  rfl

end Loop

theorem erase_insert (outstanding : Outstanding) (id : UInt16) (request : Request) :
    (outstanding.insert id request).erase id = outstanding.erase id := by
  apply AList.ext
  change List.kerase id (outstanding.insert id request).entries = List.kerase id outstanding.entries
  rw [AList.entries_insert]
  exact List.kerase_cons_eq rfl

section Sent

variable {request : CompletedRequest} {outstanding : Outstanding} {old : Request}

/-- The data PDU of the TX loop is one of those that the client knows. -/
theorem sendDataPdu_eq (sendable : request.Sendable) (hneeds : request.needsDataOut = true) :
    ∃ p : C2HData, p.data = request.data ∧ request.sendDataPdu = p.bytes request.commandID 0 := by
  have hlen := sendable.length hneeds
  have hroom := sendable.room hneeds
  have hpos : 0 < request.dataLen := by
    simp only [CompletedRequest.needsDataOut, Bool.and_eq_true, decide_eq_true_eq] at hneeds
    exact hneeds.1.2
  refine ⟨⟨CompletedRequest.tcpDataLast, 24, 0, .replicate 4 0, request.data, by omega⟩, rfl, ?_⟩
  have hplen : UInt32.ofNat (request.data.length + 24) = 24 + request.dataLen := by
    apply UInt32.toNat_inj.mp
    have h24 : (24 : UInt32).toNat = 24 := rfl
    rw [UInt32.toNat_ofNat', UInt32.toNat_add, hlen, h24]
    omega
  have hdataLength : UInt32.ofNat request.data.length = request.dataLen := by
    rw [hlen, UInt32.ofNat_toNat]
  simp only [CompletedRequest.sendDataPdu, C2HData.bytes, C2HData.header, C2HData.descriptor,
    if_pos hpos, hplen, hdataLength]
  rfl

/-- The PDUs of one request offer it to its sender, once, with its data. -/
theorem recvLoop_request (sendable : request.Sendable)
    (hold : outstanding.lookup request.commandID = some old) (hopen : old.completion = none)
    {n : Nat} {rest : List UInt8} {requests : List Request} {left : Outstanding × List UInt8}
    (hrest : recvLoop n (outstanding.erase request.commandID) rest = some (.ok (requests, left))) :
    recvLoop (request.pduCount + n) outstanding (request.sent ++ rest) =
      some (.ok (request.deliver old :: requests, left)) := by
  by_cases hneeds : request.needsDataOut = true
  · obtain ⟨p, hp, hbytes⟩ := sendDataPdu_eq sendable hneeds
    have hstored : (outstanding.insert request.commandID
        { old with data := some (recvData p.data) }).lookup request.completion.commandID =
        some { old with data := some (recvData p.data) } := AList.lookup_insert _
    have hcqe := @handleRecv_completion _ _ 0 _ rest hstored
    rw [← erase_insert outstanding request.commandID
      { old with data := some (recvData p.data) }] at hrest
    have hlast := recvLoop_step hcqe hrest
    have hdata := @handleRecv_data outstanding request.commandID old p 0
      (rspPdu 0 request.completion ++ rest) hold hopen
    have hboth := recvLoop_step hdata hlast
    have hcount : request.pduCount + n = n + 1 + 1 := by
      rw [CompletedRequest.pduCount, if_pos hneeds]
      omega
    rw [hcount, CompletedRequest.sent, if_pos hneeds, hbytes, List.append_assoc, hboth,
      CompletedRequest.deliver, if_pos hneeds, hp]
    rfl
  · have hcqe := @handleRecv_completion outstanding old 0 request.completion rest hold
    have hone := recvLoop_step hcqe hrest
    have hcount : request.pduCount + n = n + 1 := by
      rw [CompletedRequest.pduCount, if_neg hneeds]
      omega
    rw [hcount, CompletedRequest.sent, if_neg hneeds, List.nil_append, hone,
      CompletedRequest.deliver, if_neg hneeds]
    rfl

end Sent

/-- The replies to outstanding requests, each with its own command ID, in whatever order the server
completes them: every request is offered once, in that order and with its data, and the stream is
left where the next PDU starts. -/
theorem replies_delivered {requests : List CompletedRequest} {outstanding : Outstanding}
    (sendable : ∀ request ∈ requests, request.Sendable)
    (hids : (requests.map (·.commandID)).Nodup)
    (hopen : ∀ request ∈ requests, ∃ old, outstanding.lookup request.commandID = some old ∧
      old.completion = none) (rest : List UInt8) :
    ∃ (offered : List Request) (left : Outstanding),
      recvLoop (requests.map (·.pduCount)).sum outstanding
        (pollResponseChannel requests ++ rest) = some (.ok (offered, left, rest)) ∧
      List.Forall₂ (fun request offer => ∃ old,
        outstanding.lookup request.commandID = some old ∧ offer = request.deliver old)
        requests offered ∧
      ∀ id, left.lookup id =
        if id ∈ requests.map (·.commandID) then none else outstanding.lookup id := by
  induction requests generalizing outstanding with
  | nil => exact ⟨[], outstanding, rfl, .nil, fun id => rfl⟩
  | cons request requests ih =>
    rw [List.map_cons, List.nodup_cons] at hids
    obtain ⟨old, hold, holdOpen⟩ := hopen request (by simp)
    have hother : ∀ other ∈ requests, other.commandID ≠ request.commandID := by
      intro other hmem heq
      exact hids.1 (heq ▸ List.mem_map_of_mem hmem)
    have hkept : ∀ other ∈ requests,
        (outstanding.erase request.commandID).lookup other.commandID =
          outstanding.lookup other.commandID :=
      fun other hmem => AList.lookup_erase_ne (hother other hmem)
    obtain ⟨offered, left, hloop, hoffered, hleft⟩ := @ih (outstanding.erase request.commandID)
      (fun other hmem => sendable other (by simp [hmem])) hids.2
      (fun other hmem => by
        rw [hkept other hmem]
        exact hopen other (by simp [hmem]))
    refine ⟨request.deliver old :: offered, left, ?_, .cons ⟨old, hold, rfl⟩ ?_, ?_⟩
    · rw [List.map_cons, List.sum_cons, pollResponseChannel, List.flatMap_cons, List.append_assoc]
      exact recvLoop_request (sendable request (by simp)) hold holdOpen hloop
    · rw [List.forall₂_iff_get] at hoffered ⊢
      refine ⟨hoffered.1, fun i h₁ h₂ => ?_⟩
      obtain ⟨found, hfound, hoffer⟩ := hoffered.2 i h₁ h₂
      rw [hkept _ (List.get_mem requests ⟨i, h₁⟩)] at hfound
      exact ⟨found, hfound, hoffer⟩
    · intro id
      rw [hleft id, List.map_cons]
      by_cases hid : id = request.commandID
      · subst hid
        simp
      · simp [hid, AList.lookup_erase_ne hid]

/-- The reply of a command with this ID and these data, which is a success. -/
def sampleReply (commandID : UInt16) (data : List UInt8) : CompletedRequest :=
  ⟨false, .ofNat data.length, data, newCompletion commandID 0 success⟩

theorem replies_delivered_out_of_order :
    ∃ offered left, recvLoop 3 ((sampleOutstanding .identify).insert 2 ⟨.keepAlive, none, none⟩)
        (pollResponseChannel [sampleReply 2 [], sampleReply 1 [8, 9]] ++ [4]) =
      some (.ok (offered, left, [4])) := by
  have hopen : ∀ request ∈ [sampleReply 2 [], sampleReply 1 [8, 9]], ∃ old,
      ((sampleOutstanding .identify).insert 2 ⟨.keepAlive, none, none⟩).lookup request.commandID =
        some old ∧ old.completion = none := by
    intro request hmem
    simp only [List.mem_cons, List.not_mem_nil, or_false] at hmem
    rcases hmem with rfl | rfl
    · exact ⟨⟨.keepAlive, none, none⟩, rfl, rfl⟩
    · exact ⟨⟨.identify, none, none⟩, rfl, rfl⟩
  have sendable : ∀ request ∈ [sampleReply 2 [], sampleReply 1 [8, 9]], request.Sendable := by
    intro request hmem
    simp only [List.mem_cons, List.not_mem_nil, or_false] at hmem
    rcases hmem with rfl | rfl
    · exact ⟨by decide, by decide⟩
    · exact ⟨by decide, by decide⟩
  obtain ⟨offered, left, hloop, -⟩ := replies_delivered sendable (by decide) hopen [4]
  exact ⟨offered, left, hloop⟩

end DiscoveryClient
