import DiscoveryClient.Machine
import DiscoveryClient.NvmeCommands

namespace DiscoveryClient

open GoString

namespace Nvme

/-- The fields of `ConnectData` that are read. -/
structure ConnectData where
  hostID : GoString
  cntlID : UInt16
  subsysNqn : GoString
  hostNqn : GoString

def ConnectData.unpack (r : List UInt8) : Option ConnectData := do
  let (hostID, r) ← Struc.readFull 16 r
  let (cntlID, r) ← Struc.readUint 2 r
  let (_, r) ← Struc.readFull 238 r
  let (subsysNqn, r) ← Struc.readFull 256 r
  let (hostNqn, r) ← Struc.readFull 256 r
  let _ ← Struc.readFull 256 r
  return ⟨hostID, .ofNat cntlID, subsysNqn, hostNqn⟩

def discoverySubsysName : GoString := ascii "nqn.2014-08.org.nvmexpress.discovery"

def newController (controllerID : UInt16) (kato : UInt32) (hostNqn : GoString) : NvmeController where
  hostNqn
  controllerID
  kato := if kato = 0 then nvmetDiscoveryKatoMsec else kato.toNat

/-- `AdminConnectRequest.execute` with `createNvmeController`. -/
def NvmeQueue.connect (queue : NvmeQueue) (commandID recFmt qID sqSize : UInt16) (kato : UInt32)
    (data : List UInt8) : NvmeQueue × Completion :=
  let invalidParam := newCompletion commandID queue.qID (connectInvalidParam ||| dnr)
  match ConnectData.unpack data with
  | none => (queue, invalidParam.setResult 1)
  | some connectData =>
    if trimRightNul connectData.subsysNqn ≠ discoverySubsysName then
      (queue, invalidParam.setResult 1)
    -- `uuid.FromBytes` looks at the length only
    else if connectData.hostID.length ≠ 16 then (queue, invalidParam.setResult 1)
    else if recFmt ≠ 0 then (queue, newCompletion commandID queue.qID (connectFormat ||| dnr))
    else if connectData.cntlID ≠ 0xffff then (queue, invalidParam.setResult 1)
    else if sqSize = 0 then (queue, invalidParam)
    else
      ({ queue with
          qID, ctrl := some (newController queue.controllerID kato (trimRightNul connectData.hostNqn)) },
        (newCompletion commandID qID success).setResult queue.controllerID.toNat)

def regCap : UInt32 := 0x0

def regVs : UInt32 := 0x8

def regCc : UInt32 := 0x14

def regCsts : UInt32 := 0x1c

namespace NvmeController

def propertySet (ctrl : NvmeController) (attrib : UInt8) (offset : UInt32) (value : UInt64) :
    NvmeController × UInt16 :=
  if attrib &&& 1 = 0 then
    if offset = regCc then (ctrl.updateControllerConfiguration value.toUInt32, success)
    else (ctrl, invalidField)
  else (ctrl, invalidField)

/-- The version is 1.3.0. -/
def propertyGet (ctrl : NvmeController) (attrib : UInt8) (offset : UInt32) : UInt16 × UInt64 :=
  if attrib &&& 1 ≠ 0 then
    if offset = regCap then (success, cap) else (invalidField, 0)
  else if offset = regVs then (success, 0x10300)
  else if offset = regCc then (success, ctrl.cc.toUInt64)
  else if offset = regCsts then (success, ctrl.csts.toUInt64)
  else (invalidField, 0)

def featAsyncEvent : UInt32 := 0x0b

def featKato : UInt32 := 0x0f

/-- The status with the result: the timeout in seconds, or the value that was set. -/
def setFeatures (ctrl : NvmeController) (cdw10 cdw11 : UInt32) : NvmeController × UInt16 × Nat :=
  if cdw10 &&& 0xff = featKato then
    ({ ctrl with kato := cdw11.toNat }, success, cdw11.toNat / 1000)
  else if cdw10 &&& 0xff = featAsyncEvent then
    if cdw11 &&& ~~~nvmeAENCfgDiscChange ≠ 0 then (ctrl, invalidField ||| dnr, 0)
    else (ctrl.setAENValue cdw11, success, cdw11.toNat)
  else (ctrl, invalidField ||| dnr, 0)

def getFeatures (ctrl : NvmeController) (cdw10 : UInt32) : UInt16 × Nat :=
  if cdw10 &&& 0xff = featKato then (success, ctrl.kato)
  else if cdw10 &&& 0xff = featAsyncEvent then
    (success, if ctrl.aenBitEnabled then nvmeAENCfgDiscChange.toNat else 0)
  else (invalidField ||| dnr, 0)

end NvmeController

def logPageStatus : Status → UInt16
  | .success => success
  | .internal => internalError ||| dnr

/-- The `execute` methods of a controller's requests: the completion, unless it is sent later;
`none` when the method panics. The data of a reply are left to the requests' own models. -/
def AdminRequest.execute (log : DiscoveryLog) (qID : UInt16) (id : AsyncEventRequest)
    (ctrl : NvmeController) : AdminRequest → Option (NvmeController × Option Completion)
  | .propertySet attrib offset value =>
    let (ctrl, status) := ctrl.propertySet attrib offset value
    some (ctrl, some (newCompletion id.commandID qID status))
  | .propertyGet attrib offset =>
    let (status, value) := ctrl.propertyGet attrib offset
    some (ctrl, some ((newCompletion id.commandID qID status).setResult value.toNat))
  | .identify => some (ctrl, some (newCompletion id.commandID qID success))
  | .getLogPage cmd =>
    (DiscoveryClient.execute (some log) cmd).map fun reply =>
      (ctrl, some (newCompletion id.commandID qID (logPageStatus reply.status)))
  -- the timer is reset, which no command sees
  | .keepAlive => some (ctrl, some (newCompletion id.commandID qID success))
  | .setFeatures cdw10 cdw11 =>
    let (ctrl, status, result) := ctrl.setFeatures cdw10 cdw11
    some (ctrl, some ((newCompletion id.commandID qID status).setResult result))
  | .getFeatures cdw10 =>
    let (status, result) := ctrl.getFeatures cdw10
    some (ctrl, some ((newCompletion id.commandID qID status).setResult result))
  | .asyncEvent => some (ctrl.registerAsyncEventRequest qID id)

/-- A controller's request on a queue without controller would dereference a nil pointer. -/
def NvmeQueue.execute (queue : NvmeQueue) (log : DiscoveryLog) (id : AsyncEventRequest)
    (data : List UInt8) : NvmeRequest → Option (NvmeQueue × Option Completion)
  | .connect recFmt qID sqSize kato =>
    let (queue, completion) := queue.connect id.commandID recFmt qID sqSize kato data
    some (queue, some completion)
  | .admin request =>
    match queue.ctrl with
    | none => none
    | some ctrl =>
      (request.execute log queue.qID id ctrl).map fun x => ({ queue with ctrl := some x.1 }, x.2)

theorem execute_connect (queue : NvmeQueue) (log : DiscoveryLog) (id : AsyncEventRequest)
    (data : List UInt8) (recFmt qID sqSize : UInt16) (kato : UInt32) :
    queue.execute log id data (.connect recFmt qID sqSize kato) =
      some ((queue.connect id.commandID recFmt qID sqSize kato data).1,
        some (queue.connect id.commandID recFmt qID sqSize kato data).2) := rfl

theorem connect_commandID (queue : NvmeQueue) (commandID recFmt qID sqSize : UInt16) (kato : UInt32)
    (data : List UInt8) :
    (queue.connect commandID recFmt qID sqSize kato data).2.commandID = commandID := by
  unfold NvmeQueue.connect
  split
  next => rfl
  next => split_ifs <;> rfl

/-- The asynchronous event requests that wait for an event. -/
def NvmeQueue.pendingRequests (queue : NvmeQueue) : List AsyncEventRequest :=
  match queue.ctrl with
  | none => []
  | some ctrl => ctrl.asyncEventPendingRequests

theorem connect_pendingRequests {queue : NvmeQueue} (hctrl : queue.ctrl = none)
    (commandID recFmt qID sqSize : UInt16) (kato : UInt32) (data : List UInt8) :
    (queue.connect commandID recFmt qID sqSize kato data).1.pendingRequests = [] := by
  have hnone : queue.pendingRequests = [] := by simp [NvmeQueue.pendingRequests, hctrl]
  unfold NvmeQueue.connect
  split
  next => exact hnone
  next => split_ifs <;> first | exact hnone | rfl

namespace NvmeController

variable (ctrl : NvmeController)

theorem start_pending : ctrl.start.asyncEventPendingRequests = ctrl.asyncEventPendingRequests := by
  unfold start
  split <;> rfl

theorem updateControllerConfiguration_pending (value : UInt32) :
    (ctrl.updateControllerConfiguration value).asyncEventPendingRequests =
      ctrl.asyncEventPendingRequests := by
  unfold updateControllerConfiguration clear
  dsimp only
  split_ifs <;> simp only [start_pending]

theorem propertySet_pending (attrib : UInt8) (offset : UInt32) (value : UInt64) :
    (ctrl.propertySet attrib offset value).1.asyncEventPendingRequests =
      ctrl.asyncEventPendingRequests := by
  unfold propertySet
  split_ifs <;> simp only [updateControllerConfiguration_pending]

theorem setFeatures_pending (cdw10 cdw11 : UInt32) :
    (ctrl.setFeatures cdw10 cdw11).1.asyncEventPendingRequests =
      ctrl.asyncEventPendingRequests := by
  unfold setFeatures
  split_ifs <;> rfl

end NvmeController

/-- What executing the request `id` has done to the requests that wait: it was answered under its
command ID and they are as before, or it waits behind them. -/
inductive Executed (id : AsyncEventRequest) (before : List AsyncEventRequest) :
    List AsyncEventRequest → Option Completion → Prop
  | answered {completion : Completion} : completion.commandID = id.commandID →
      Executed id before before (some completion)
  | waits : Executed id before (before ++ [id]) none

namespace AdminRequest

variable {log : DiscoveryLog} {qID : UInt16} {id : AsyncEventRequest} {ctrl ctrl' : NvmeController}
  {request : AdminRequest} {completion : Option Completion}

theorem execute_eq_none_iff : request.execute log qID id ctrl = none ↔
    ∃ cmd, request = .getLogPage cmd ∧ DiscoveryClient.execute (some log) cmd = none := by
  cases request <;> simp [execute]

theorem executed (h : request.execute log qID id ctrl = some (ctrl', completion)) :
    Executed id ctrl.asyncEventPendingRequests ctrl'.asyncEventPendingRequests completion ∧
      (completion = none → request = .asyncEvent) := by
  cases request with
  | asyncEvent =>
    simp only [execute, NvmeController.registerAsyncEventRequest] at h
    split at h <;> cases h
    next => exact ⟨.answered rfl, by simp⟩
    next => exact ⟨.waits, by simp⟩
  | getLogPage cmd =>
    obtain ⟨reply, _, heq⟩ := Option.map_eq_some_iff.mp h
    cases heq
    exact ⟨.answered rfl, by simp⟩
  | propertySet attrib offset value =>
    simp only [execute, Option.some.injEq, Prod.mk.injEq] at h
    rw [← h.1, ← h.2, NvmeController.propertySet_pending]
    exact ⟨.answered rfl, by simp⟩
  | setFeatures cdw10 cdw11 =>
    simp only [execute, Option.some.injEq, Prod.mk.injEq] at h
    rw [← h.1, ← h.2, NvmeController.setFeatures_pending]
    exact ⟨.answered rfl, by simp⟩
  | propertyGet | identify | keepAlive | getFeatures =>
    cases h
    exact ⟨.answered rfl, by simp⟩

end AdminRequest

/-- What the goroutine of `handleReceivePdu` sends on its channel. -/
inductive ReceiveError
  | init (err : InitError)
  | mapWithInlineData
  | nonInlineData
deriving DecidableEq, Repr

/-- The goroutine of `handleReceivePdu`: in its loop; at its end with an error that `ioWork` receives;
at its end without one; or in a panic. -/
inductive Reader
  | reading
  | failed (err : ReceiveError)
  | stopped
  | panicked
deriving DecidableEq, Repr

/-- A command capsule behind its TCP header. The data are on the stream when the command is a write;
`connect`, with 1024 bytes, is the only one. -/
structure Capsule where
  pdu : Pdu
  inlineData : List UInt8
  length_eq : inlineData.length = 1024

/-- A completion given to the TX loop, with the place of its capsule in the order of arrival. -/
structure Answer where
  seq : Nat
  completion : Completion

/-- The connection of one host: its queue, its receive loop, and what came in and went out. -/
structure Server where
  queue : NvmeQueue
  reader : Reader := .reading
  received : List Pdu := []
  answers : List Answer := []

namespace Server

def takeIn (server : Server) (pdu : Pdu) : Server :=
  { server with received := server.received ++ [pdu] }

def completeRequest (server : Server) (seq : Nat) (completion : Completion) : Server :=
  { server with answers := server.answers ++ [⟨seq, completion⟩] }

def fail (server : Server) (err : ReceiveError) : Server := { server with reader := .failed err }

def execute (server : Server) (seq : Nat) (capsule : Capsule) (log : DiscoveryLog)
    (request : NvmeRequest) : Server :=
  match server.queue.execute log ⟨seq, capsule.pdu.commandID⟩ capsule.inlineData request with
  | none => { server with reader := .panicked }
  | some (queue, none) => { server with queue }
  | some (queue, some completion) => ({ server with queue } : Server).completeRequest seq completion

/-- The loop of `handleReceivePdu` from `mapData` on. The request has no completion yet, so it needs
its data in when it is a write, and is executed. -/
def handleRequest (server : Server) (seq : Nat) (capsule : Capsule) (log : DiscoveryLog)
    (request : NvmeRequest) : Server :=
  let (status, pduLen) := mapData request capsule.pdu.sglType
  if status ≠ success then
    if hasInlineData request pduLen then server.fail .mapWithInlineData
    -- the goroutine returns here, with nothing sent on `errChan`
    else
      { server.completeRequest seq (newCompletion capsule.pdu.commandID server.queue.qID status) with
        reader := .stopped }
  else if request.isWrite && !hasInlineData request pduLen then server.fail .nonInlineData
  else server.execute seq capsule log request

/-- One capsule in the loop of `handleReceivePdu`; `log` is what the subsystem's log is when it is
executed. -/
def receive (server : Server) (capsule : Capsule) (log : DiscoveryLog) : Server :=
  let seq := server.received.length
  let server := server.takeIn capsule.pdu
  match server.queue.nvmetRequestInit capsule.pdu with
  | .error err =>
    let completion := newCompletion capsule.pdu.commandID server.queue.qID err.status
    let server := server.completeRequest seq completion
    -- the status is shifted back; the queue of an unsupported log page is not closed
    if (completion.status >>> 1) &&& invalidLogPage = invalidLogPage then server
    else server.fail (.init err)
  | .ok request => server.handleRequest seq capsule log request

theorem receive_error {server : Server} {capsule : Capsule} {err : InitError}
    (hinit : server.queue.nvmetRequestInit capsule.pdu = .error err) (log : DiscoveryLog) :
    ∃ completion : Completion, completion.commandID = capsule.pdu.commandID ∧
      (server.receive capsule log =
          (server.takeIn capsule.pdu).completeRequest server.received.length completion ∨
        server.receive capsule log =
          ((server.takeIn capsule.pdu).completeRequest server.received.length completion).fail
            (.init err)) := by
  refine ⟨newCompletion capsule.pdu.commandID server.queue.qID err.status, rfl, ?_⟩
  unfold receive
  simp only [takeIn, hinit]
  exact ite_eq_or_eq ..

theorem receive_ok {server : Server} {capsule : Capsule} {request : NvmeRequest}
    (hinit : server.queue.nvmetRequestInit capsule.pdu = .ok request) (log : DiscoveryLog) :
    server.receive capsule log = (server.takeIn capsule.pdu).handleRequest server.received.length
      capsule log request := by
  unfold receive
  simp only [takeIn, hinit]

/-- One event in the loop of `handleAENEvents` of the controller. -/
def handleAENEvent (server : Server) (ctrl : NvmeController) : Server :=
  let queue := { server.queue with ctrl := some (ctrl.handleAENEvent server.queue.qID).1 }
  match (ctrl.handleAENEvent server.queue.qID).2 with
  | none => { server with queue }
  | some (request, completion) =>
    ({ server with queue } : Server).completeRequest request.seq completion

end Server

/-- A capsule comes in, an event comes to the controller, or its keep-alive timer fires. -/
inductive ServerEvent
  | capsule (capsule : Capsule) (log : DiscoveryLog)
  | asyncEvent
  | keepAliveExpired

def Server.step (server : Server) : ServerEvent → Option Server
  | .capsule capsule log =>
    if server.reader = .reading then some (server.receive capsule log) else none
  | .asyncEvent =>
    if server.reader = .panicked then none else server.queue.ctrl.map server.handleAENEvent
  | .keepAliveExpired =>
    if server.reader = .panicked then none
    else
      server.queue.ctrl.map fun ctrl =>
        { server with queue := { server.queue with ctrl := some ctrl.keepAliveExpired } }

/-- A connection from its accepted TCP handshake on. Events may come whether or not the host has
enabled them: the flag is read when one is sent, not when it is handled. -/
def nvmeServer : Machine Server ServerEvent where
  init server := ∃ controllerID, server = { queue := { controllerID } }
  step server event server' := server.step event = some server'

end Nvme

end DiscoveryClient
