import DiscoveryClient.DataReassembly

namespace DiscoveryClient

open GoString

/-- `nvme.IDCtrl`; of its fields only the name of the subsystem is looked at. -/
structure IDCtrl where
  subNqn : GoString
deriving DecidableEq, Repr

/-- The fields before the name take 768 bytes, those behind it 3072. -/
def IDCtrl.unpack (r : List UInt8) : Option (IDCtrl × List UInt8) := do
  let (_, r) ← Struc.readFull 768 r
  let (subNqn, r) ← Struc.readFull 256 r
  let (_, r) ← Struc.readFull 3072 r
  return (⟨subNqn⟩, r)

def nvmeDiscSubsysName : GoString := ascii "nqn.2014-08.org.nvmexpress.discovery"

/-- How a sender fails once its request was sent. -/
inductive SendError
  | nilData
  | unpack
  | subNqn
  | logPage (err : LogPageError)
deriving DecidableEq, Repr

def recvIdentifyDataPdu (pduReader : List UInt8) : Except SendError Unit :=
  match IDCtrl.unpack pduReader with
  | none => .error .unpack
  | some (id, _) =>
    if trimRightNul id.subNqn ≠ nvmeDiscSubsysName then .error .subNqn else .ok ()

/-- The functions that send a command and wait for its completion. -/
inductive Sender
  | connect
  | getProperty (registerOffset : UInt32)
  | setProperty (registerOffset : UInt32) (val : UInt64)
  | identify
  | setFeature
  | logPage (size : UInt32) (offset num : UInt64)
  | keepAlive

namespace Sender

/-- A sender that takes the completed request from `waitForResponse` and drops it; like all senders
here it is given the request that `recvPdu` offers, and `none` stands for a panic. -/
def ignoresResponse (_ : Request) : Option (Except SendError Unit) := some (.ok ())

def sendConnectRequest : Request → Option (Except SendError Unit) := ignoresResponse
def sendGetPropertyRequest : Request → Option (Except SendError Unit) := ignoresResponse
def sendSetPropertyRequest : Request → Option (Except SendError Unit) := ignoresResponse
def sendAsyncEventSetFeature : Request → Option (Except SendError Unit) := ignoresResponse
def sendKeepAlive : Request → Option (Except SendError Unit) := ignoresResponse

def sendIdentifyRequest (completedRequest : Request) : Option (Except SendError Unit) :=
  match completedRequest.data with
  | none => some (.error .nilData)
  | some data => some (recvIdentifyDataPdu data.copyOut)

def status (completedRequest : Request) : Status :=
  match completedRequest.completion with
  | some cqe => if cqe.status = 0 then .success else .internal
  | none => .success

/-- The completed request as the reply to a log page command: its data is all that is looked at. -/
def reply (completedRequest : Request) : Reply :=
  ⟨status completedRequest, completedRequest.data.map ScatterList.copyOut⟩

def sendDiscLogPageRequest (size : UInt32) (offset num : UInt64) (completedRequest : Request) :
    Option (Except SendError Unit) :=
  match TcpQueue.sendDiscLogPageRequest (fun _ => some (reply completedRequest)) size offset num with
  | .error .nilData => none
  | .error err => some (.error (.logPage err))
  | .ok _ => some (.ok ())

def command : Sender → QueueCommand
  | .connect => .connect
  | .getProperty registerOffset => .propertyGet registerOffset
  | .setProperty registerOffset val => .propertySet registerOffset val
  | .identify => .identify
  | .setFeature => .setFeature
  | .logPage .. => .logPage
  | .keepAlive => .keepAlive

/-- What the sender returns for the completed request. -/
def finish : Sender → Request → Option (Except SendError Unit)
  | .connect => sendConnectRequest
  | .getProperty _ => sendGetPropertyRequest
  | .setProperty .. => sendSetPropertyRequest
  | .identify => sendIdentifyRequest
  | .setFeature => sendAsyncEventSetFeature
  | .logPage size offset num => sendDiscLogPageRequest size offset num
  | .keepAlive => sendKeepAlive

/-- The command is stored and the server answers it, with a data PDU before the completion or
without: what the sender returns. -/
def exchange (sender : Sender) (outstanding : Outstanding) (commandID : UInt16)
    (data : Option C2HData) (flags : UInt8) (cqe : Completion) : Option (Except SendError Unit) :=
  match recvPdu (data.toList.length + 1) (outstanding.insert commandID ⟨sender.command, none, none⟩)
      (dataPdus commandID 0 data.toList ++ rspPdu flags cqe) with
  | some (.ok completedRequest) => sender.finish completedRequest
  | _ => none

/-- The data of the reply makes the sender return an error. -/
def Rejects (data : Option (List UInt8)) : Sender → Prop
  | .identify => ∀ bytes, data = some bytes →
      bytes.length < 4096 ∨ trimRightNul ((bytes.drop 768).take 256) ≠ nvmeDiscSubsysName
  | .logPage .. => ∃ bytes, data = some bytes ∧ 0 < bytes.length ∧ bytes.length < 1024
  | .connect | .getProperty _ | .setProperty .. | .setFeature | .keepAlive => False

end Sender

section Finish

variable {request : Request} {data : Option (List UInt8)}

theorem IDCtrl.unpack_of_le {r : List UInt8} (h : 4096 ≤ r.length) :
    unpack r = some (⟨(r.drop 768).take 256⟩, r.drop 4096) := by
  have h₁ := @Struc.readFull_of_le 768 r (by omega)
  have h₂ := @Struc.readFull_of_le 256 (r.drop 768) (by rw [List.length_drop]; omega)
  have h₃ := @Struc.readFull_of_le 3072 (r.drop 1024) (by rw [List.length_drop]; omega)
  simp only [List.drop_drop, Nat.reduceAdd] at h₂ h₃
  simp only [unpack, h₁, h₂, h₃, Struc.some_bind]
  rfl

theorem IDCtrl.le_of_unpack {r : List UInt8} {x : IDCtrl × List UInt8} (h : unpack r = some x) :
    4096 ≤ r.length := by
  obtain ⟨before, h₁, h⟩ := Option.bind_eq_some_iff.mp h
  obtain ⟨name, h₂, h⟩ := Option.bind_eq_some_iff.mp h
  obtain ⟨behind, h₃, -⟩ := Option.bind_eq_some_iff.mp h
  obtain ⟨l₁, rfl⟩ := Struc.readFull_some h₁
  obtain ⟨l₂, rfl⟩ := Struc.readFull_some h₂
  obtain ⟨l₃, -⟩ := Struc.readFull_some h₃
  simp only [List.length_drop] at l₂ l₃
  omega

theorem recvIdentifyDataPdu_error_iff {bytes : List UInt8} :
    (∃ err, recvIdentifyDataPdu bytes = .error err) ↔
      bytes.length < 4096 ∨ trimRightNul ((bytes.drop 768).take 256) ≠ nvmeDiscSubsysName := by
  unfold recvIdentifyDataPdu
  cases hunpack : IDCtrl.unpack bytes with
  | none =>
    have hshort : bytes.length < 4096 := by
      by_contra hlong
      rw [IDCtrl.unpack_of_le (by omega)] at hunpack
      simp at hunpack
    simp [hshort]
  | some x =>
    have hlong := IDCtrl.le_of_unpack hunpack
    rw [IDCtrl.unpack_of_le hlong] at hunpack
    cases Option.some.inj hunpack
    have hnot : ¬bytes.length < 4096 := by omega
    simp only [hnot, false_or]
    split
    next hne => simp [hne]
    next heq =>
      have hname := not_not.mp heq
      simp [hname]

theorem sendDiscLogPageRequest_error_iff {size : UInt32} {offset num : UInt64} :
    (∃ err, Sender.sendDiscLogPageRequest size offset num request = some (.error err)) ↔
      ∃ bytes, request.data.map ScatterList.copyOut = some bytes ∧ 0 < bytes.length ∧
        bytes.length < 1024 := by
  unfold Sender.sendDiscLogPageRequest Sender.reply
  generalize Sender.status request = status
  cases request.data.map ScatterList.copyOut with
  | none =>
    rw [TcpQueue.send_of_no_data rfl]
    simp
  | some bytes =>
    rcases Nat.eq_zero_or_pos bytes.length with hzero | hpos
    · cases List.length_eq_zero_iff.mp hzero
      rw [TcpQueue.send_of_empty rfl]
      simp
    by_cases hshort : bytes.length < 1024
    · rw [TcpQueue.send_of_short rfl hpos hshort]
      exact iff_of_true ⟨_, rfl⟩ ⟨bytes, rfl, hpos, hshort⟩
    · obtain ⟨entries, hentries⟩ :=
        TcpQueue.recvLogPageDataPdu_total (num.toNat - offset.toNat / 1024) (bytes.drop 1024)
      obtain ⟨numRec, genCtr, hsend⟩ := @TcpQueue.send_of_payload
        (fun _ => some ⟨status, some bytes⟩) size offset num status bytes entries rfl (by omega)
        hentries
      rw [hsend]
      simp [hshort]

theorem Sender.finish_error_iff (sender : Sender) :
    (∃ err, sender.finish request = some (.error err)) ↔
      sender.Rejects (request.data.map ScatterList.copyOut) := by
  cases sender with
  | identify =>
    cases hdata : request.data with
    | none => simp [finish, sendIdentifyRequest, Rejects, hdata]
    | some sgl =>
      simp only [finish, sendIdentifyRequest, Rejects, hdata, Option.some.injEq, Option.map_some,
        forall_eq']
      exact recvIdentifyDataPdu_error_iff
  | logPage size offset num => exact sendDiscLogPageRequest_error_iff
  | connect | getProperty | setProperty | setFeature | keepAlive =>
    refine iff_of_false ?_ id
    rintro ⟨err, herr⟩
    exact absurd (Option.some.inj herr) (by simp)

end Finish

/-- The sender gets its request with the data of the reply. -/
theorem Sender.exchange_eq (sender : Sender) (outstanding : Outstanding) (data : Option C2HData)
    (flags : UInt8) (cqe : Completion) :
    sender.exchange outstanding cqe.commandID data flags cqe =
      sender.finish ⟨sender.command, data.map fun p => TcpQueue.recvData p.data, some cqe⟩ := by
  have hstored : (outstanding.insert cqe.commandID ⟨sender.command, none, none⟩).lookup
      cqe.commandID = some ⟨sender.command, none, none⟩ := AList.lookup_insert _
  have hrecv := @recvPdu_data _ _ _ data.toList flags cqe 0 [] hstored rfl rfl
  rw [List.append_nil] at hrecv
  rw [exchange, hrecv]
  cases data <;> rfl

/-- A failed command is reported exactly when the data that came with its completion is what the
sender rejects: nobody looks at the status. -/
theorem failure_reported_iff (sender : Sender) (outstanding : Outstanding) (data : Option C2HData)
    (flags : UInt8) (cqe : Completion) :
    (∃ err, sender.exchange outstanding cqe.commandID data flags cqe = some (.error err)) ↔
      sender.Rejects (data.map (·.data)) := by
  have hdata : (data.map fun p => TcpQueue.recvData p.data).map ScatterList.copyOut =
      data.map (·.data) := by
    cases data with
    | none => rfl
    | some p => exact congrArg some (TcpQueue.recvData_eq p.data).1
  rw [sender.exchange_eq, sender.finish_error_iff, hdata]

/-- The server fails an identify command and sends no data. -/
theorem failure_reported_iff_identify :
    ∃ err, Sender.identify.exchange ∅ 1 none 0 (sampleCompletion 0x4002) = some (.error err) :=
  (failure_reported_iff .identify ∅ none 0 (sampleCompletion 0x4002)).mpr (by simp [Sender.Rejects])

/-- The server fails the connect command, and the client takes itself for connected. -/
theorem failure_not_reported :
    ¬∀ (sender : Sender) (outstanding : Outstanding) (data : Option C2HData) (flags : UInt8)
      (cqe : Completion), cqe.status ≠ 0 →
      ∃ err, sender.exchange outstanding cqe.commandID data flags cqe = some (.error err) := by
  intro h
  obtain ⟨err, herr⟩ := h .connect ∅ none 0 (sampleCompletion 0x4182) (by decide)
  rw [Sender.exchange_eq] at herr
  exact absurd (Option.some.inj herr) (by simp)

end DiscoveryClient
