import DiscoveryClient.LogPageServer
import DiscoveryClient.NvmeController

namespace DiscoveryClient

open GoString

namespace Nvme

/-- The 64 bytes of a command. Every command structure has this size, so unpacking one cannot fail. -/
structure Pdu where
  bytes : List UInt8
  length_eq : bytes.length = 64

namespace Pdu

def byte (pdu : Pdu) (offset : Nat) : UInt8 := pdu.bytes.getD offset 0

/-- A field of a command in little endian. -/
def uint (pdu : Pdu) (offset size : Nat) : Nat := Struc.getUint ((pdu.bytes.drop offset).take size)

def opcode (pdu : Pdu) : UInt8 := pdu.byte 0

def flags (pdu : Pdu) : UInt8 := pdu.byte 1

def commandID (pdu : Pdu) : UInt16 := .ofNat (pdu.uint 2 2)

def fcType (pdu : Pdu) : UInt8 := pdu.byte 4

/-- The type of the descriptor `Dptr.sgl()`. -/
def sglType (pdu : Pdu) : UInt8 := pdu.byte 39

/-- The log page a get-log-page command is for. -/
def lid (pdu : Pdu) : UInt8 := pdu.byte 40

def getLogPageCommand (pdu : Pdu) : GetLogPageCommand where
  numDl := .ofNat (pdu.uint 42 2)
  numDu := .ofNat (pdu.uint 44 2)
  lpol := .ofNat (pdu.uint 48 4)
  lpou := .ofNat (pdu.uint 52 4)

end Pdu

def adminGetLogPage : UInt8 := 0x02

def adminIdentify : UInt8 := 0x06

def adminSetFeatures : UInt8 := 0x09

def adminGetFeatures : UInt8 := 0x0a

def adminAsyncEvent : UInt8 := 0x0c

def adminKeepAlive : UInt8 := 0x18

def fabricsCommand : UInt8 := 0x7f

def typePropertySet : UInt8 := 0x00

def typeConnect : UInt8 := 0x01

def typePropertyGet : UInt8 := 0x04

def logDisc : UInt8 := 0x70

/-- `NVME_SGL_FMT_DATA_DESC << 4 | NVME_SGL_FMT_OFFSET`: the data follows the command. -/
def sglInline : UInt8 := 0x01

/-- The commands that a controller executes, with the fields it reads. -/
inductive AdminRequest
  | propertySet (attrib : UInt8) (offset : UInt32) (value : UInt64)
  | propertyGet (attrib : UInt8) (offset : UInt32)
  | identify
  | getLogPage (cmd : GetLogPageCommand)
  | keepAlive
  | setFeatures (cdw10 cdw11 : UInt32)
  | getFeatures (cdw10 : UInt32)
  | asyncEvent
deriving DecidableEq, Repr

/-- A request that was parsed. `connect` is the only write. -/
inductive NvmeRequest
  | connect (recFmt qID sqSize : UInt16) (kato : UInt32)
  | admin (request : AdminRequest)
deriving DecidableEq, Repr

namespace NvmeRequest

def isWrite : NvmeRequest → Bool
  | .connect .. => true
  | .admin _ => false

def dataLen : NvmeRequest → UInt32
  | .connect .. => 1024
  | .admin .identify => 4096
  | .admin (.getLogPage cmd) => cmd.getLogPageLen
  | .admin _ => 0

end NvmeRequest

/-- `ParserError`. -/
inductive ParserError
  | unconnectedQueue
  | unknownCapsule (fctype : UInt8)
  | notReady (opcode : UInt8) (qID : UInt16)
  | unsupportedLogPage (lid : UInt8)
  | opcode (opcode : UInt8)
deriving DecidableEq, Repr

def ParserError.status : ParserError → UInt16
  | .unconnectedQueue => invalidOpcode ||| dnr
  | .unknownCapsule _ => invalidOpcode ||| dnr
  | .notReady .. => invalidOpcode ||| dnr
  | .unsupportedLogPage _ => invalidLogPage ||| dnr
  | .opcode _ => invalidOpcode

/-- What the connection's `nvmeQueue` keeps; `controllerID` is the one it gives its controller. -/
structure NvmeQueue where
  controllerID : UInt16
  qID : UInt16 := 0
  ctrl : Option NvmeController := none
deriving DecidableEq, Repr

def nvmetParseConnectCmd (pdu : Pdu) : Except ParserError NvmeRequest :=
  if pdu.opcode ≠ fabricsCommand then .error .unconnectedQueue
  else if pdu.fcType ≠ typeConnect then .error .unconnectedQueue
  else
    .ok (.connect (.ofNat (pdu.uint 40 2)) (.ofNat (pdu.uint 42 2)) (.ofNat (pdu.uint 44 2))
      (.ofNat (pdu.uint 48 4)))

def nvmetParseFabricsCommand (pdu : Pdu) : Except ParserError AdminRequest :=
  if pdu.fcType = typePropertySet then
    .ok (.propertySet (pdu.byte 40) (.ofNat (pdu.uint 44 4)) (.ofNat (pdu.uint 48 8)))
  else if pdu.fcType = typePropertyGet then
    .ok (.propertyGet (pdu.byte 40) (.ofNat (pdu.uint 44 4)))
  else .error (.unknownCapsule pdu.fcType)

def nvmetParseDiscoveryCommand (qID : UInt16) (ctrl : NvmeController) (pdu : Pdu) :
    Except ParserError AdminRequest :=
  if ctrl.csts &&& cstsRdy = 0 then .error (.notReady pdu.opcode qID)
  else if pdu.opcode = adminIdentify then .ok .identify
  else if pdu.opcode = adminGetLogPage then
    if pdu.lid ≠ logDisc then .error (.unsupportedLogPage pdu.lid)
    else .ok (.getLogPage pdu.getLogPageCommand)
  else if pdu.opcode = adminKeepAlive then .ok .keepAlive
  else if pdu.opcode = adminSetFeatures then
    .ok (.setFeatures (.ofNat (pdu.uint 40 4)) (.ofNat (pdu.uint 44 4)))
  else if pdu.opcode = adminGetFeatures then .ok (.getFeatures (.ofNat (pdu.uint 40 4)))
  else if pdu.opcode = adminAsyncEvent then .ok .asyncEvent
  else .error (.opcode pdu.opcode)

/-- Why `nvmetRequestInit` completes a command itself and returns an error. -/
inductive InitError
  | fused
  | sglFlags (opcode flags : UInt8)
  | parser (err : ParserError)
deriving DecidableEq, Repr

def InitError.status : InitError → UInt16
  | .fused => invalidField ||| dnr
  | .sglFlags .. => invalidField ||| dnr
  | .parser err => err.status

/-- The parser that the state of the queue selects. -/
def NvmeQueue.parse (queue : NvmeQueue) (pdu : Pdu) : Except ParserError NvmeRequest :=
  match queue.ctrl with
  | none => nvmetParseConnectCmd pdu
  | some ctrl =>
    if pdu.opcode = fabricsCommand then (nvmetParseFabricsCommand pdu).map .admin
    else (nvmetParseDiscoveryCommand queue.qID ctrl pdu).map .admin

def NvmeQueue.nvmetRequestInit (queue : NvmeQueue) (pdu : Pdu) : Except InitError NvmeRequest :=
  if pdu.flags &&& 0x3 ≠ 0 then .error .fused
  else if pdu.flags &&& 0xc0 ≠ 0x40 then .error (.sglFlags pdu.opcode pdu.flags)
  else
    match queue.parse pdu with
    | .error err => .error (.parser err)
    | .ok request => .ok request

/-- The flags that `nvmetRequestInit` takes: no fused command, and a descriptor of the data. -/
def Pdu.PlainFlags (pdu : Pdu) : Prop := pdu.flags &&& 0x3 = 0 ∧ pdu.flags &&& 0xc0 = 0x40

section Parsing

variable {queue : NvmeQueue} {pdu : Pdu}

theorem nvmetRequestInit_eq_ok_iff {request : NvmeRequest} :
    queue.nvmetRequestInit pdu = .ok request ↔ pdu.PlainFlags ∧ queue.parse pdu = .ok request := by
  unfold NvmeQueue.nvmetRequestInit Pdu.PlainFlags
  split
  next hfused => simp [hfused]
  next hfused =>
    split
    next hflags => simp [hflags]
    next hflags =>
      rw [not_not] at hfused hflags
      cases queue.parse pdu <;> simp [hfused, hflags]

theorem map_eq_ok_iff {ε α β : Type} {f : α → β} {e : Except ε α} {y : β} :
    e.map f = .ok y ↔ ∃ x, e = .ok x ∧ f x = y := by
  cases e <;> simp [Except.map]

theorem nvmetParseConnectCmd_eq_ok_iff {request : NvmeRequest} :
    nvmetParseConnectCmd pdu = .ok request ↔ pdu.opcode = fabricsCommand ∧
      pdu.fcType = typeConnect ∧ .connect (.ofNat (pdu.uint 40 2)) (.ofNat (pdu.uint 42 2))
        (.ofNat (pdu.uint 44 2)) (.ofNat (pdu.uint 48 4)) = request := by
  unfold nvmetParseConnectCmd
  split_ifs <;> simp_all

theorem parse_connect_iff {recFmt qID sqSize : UInt16} {kato : UInt32} :
    queue.parse pdu = .ok (.connect recFmt qID sqSize kato) ↔
      queue.ctrl = none ∧ nvmetParseConnectCmd pdu = .ok (.connect recFmt qID sqSize kato) := by
  unfold NvmeQueue.parse
  cases hctrl : queue.ctrl with
  | none => simp
  | some ctrl =>
    dsimp only
    split_ifs <;> simp [map_eq_ok_iff]

theorem parse_admin_iff {request : AdminRequest} :
    queue.parse pdu = .ok (.admin request) ↔ ∃ ctrl, queue.ctrl = some ctrl ∧
      (if pdu.opcode = fabricsCommand then nvmetParseFabricsCommand pdu
        else nvmetParseDiscoveryCommand queue.qID ctrl pdu) = .ok request := by
  unfold NvmeQueue.parse
  cases hctrl : queue.ctrl with
  | none => simp [nvmetParseConnectCmd_eq_ok_iff]
  | some ctrl =>
    simp only [Option.some.injEq, exists_eq_left']
    split_ifs <;> simp [map_eq_ok_iff]

/-- The commands that the parser of fabrics commands does not make. -/
theorem parse_discovery_iff {request : AdminRequest}
    (hset : ∀ attrib offset value, request ≠ .propertySet attrib offset value)
    (hget : ∀ attrib offset, request ≠ .propertyGet attrib offset) :
    queue.parse pdu = .ok (.admin request) ↔ ∃ ctrl, queue.ctrl = some ctrl ∧
      pdu.opcode ≠ fabricsCommand ∧ nvmetParseDiscoveryCommand queue.qID ctrl pdu = .ok request := by
  rw [parse_admin_iff]
  refine exists_congr fun ctrl => and_congr_right fun _ => ?_
  by_cases hopcode : pdu.opcode = fabricsCommand
  · rw [if_pos hopcode]
    unfold nvmetParseFabricsCommand
    refine iff_of_false ?_ (by simp [hopcode])
    split_ifs
    · exact fun h => hset _ _ _ (Except.ok.inj h).symm
    · exact fun h => hget _ _ (Except.ok.inj h).symm
    · simp
  · rw [if_neg hopcode, and_iff_right hopcode]

theorem parse_identify_iff :
    queue.parse pdu = .ok (.admin .identify) ↔ ∃ ctrl, queue.ctrl = some ctrl ∧
      ctrl.csts &&& cstsRdy ≠ 0 ∧ pdu.opcode = adminIdentify := by
  rw [parse_discovery_iff (by simp) (by simp)]
  refine exists_congr fun ctrl => and_congr_right fun _ => ?_
  unfold nvmetParseDiscoveryCommand
  split_ifs <;> simp_all [fabricsCommand, adminIdentify]

theorem parse_getLogPage_iff {cmd : GetLogPageCommand} :
    queue.parse pdu = .ok (.admin (.getLogPage cmd)) ↔ ∃ ctrl, queue.ctrl = some ctrl ∧
      ctrl.csts &&& cstsRdy ≠ 0 ∧ pdu.opcode = adminGetLogPage ∧ pdu.lid = logDisc ∧
        pdu.getLogPageCommand = cmd := by
  rw [parse_discovery_iff (by simp) (by simp)]
  refine exists_congr fun ctrl => and_congr_right fun _ => ?_
  unfold nvmetParseDiscoveryCommand
  split_ifs <;> simp_all [fabricsCommand, adminIdentify, adminGetLogPage]

theorem parse_asyncEvent_iff :
    queue.parse pdu = .ok (.admin .asyncEvent) ↔ ∃ ctrl, queue.ctrl = some ctrl ∧
      ctrl.csts &&& cstsRdy ≠ 0 ∧ pdu.opcode = adminAsyncEvent := by
  rw [parse_discovery_iff (by simp) (by simp)]
  refine exists_congr fun ctrl => and_congr_right fun _ => ?_
  unfold nvmetParseDiscoveryCommand
  split_ifs <;> simp_all [fabricsCommand, adminIdentify, adminGetLogPage, adminKeepAlive,
    adminSetFeatures, adminGetFeatures, adminAsyncEvent]

end Parsing

def inlineSize : UInt32 := 16 * 4096

/-- The status of `mapData`, and the length of the data it expects behind the command. -/
def mapData (request : NvmeRequest) (sglType : UInt8) : UInt16 × UInt32 :=
  if request.dataLen = 0 then (success, 0)
  else if sglType = sglInline then
    if !request.isWrite then (invalidField ||| dnr, 0)
    else if inlineSize < request.dataLen then (sglInvalidOffset ||| dnr, 0)
    else (success, request.dataLen)
  else (success, 0)

theorem mapData_connect (recFmt qID sqSize : UInt16) (kato : UInt32) (sglType : UInt8) :
    mapData (.connect recFmt qID sqSize kato) sglType =
      (success, if sglType = sglInline then 1024 else 0) := by
  have hlen : NvmeRequest.dataLen (.connect recFmt qID sqSize kato) = 1024 := rfl
  have hroom : ¬inlineSize < 1024 := by decide
  simp only [mapData, hlen, hroom, NvmeRequest.isWrite]
  by_cases hsgl : sglType = sglInline <;> simp [hsgl]

theorem mapData_admin (request : AdminRequest) (sglType : UInt8) :
    mapData (.admin request) sglType =
      (if NvmeRequest.dataLen (.admin request) ≠ 0 ∧ sglType = sglInline then invalidField ||| dnr
        else success, 0) := by
  unfold mapData
  split
  next hlen => simp [hlen]
  next hlen => split <;> simp_all [NvmeRequest.isWrite]

def hasInlineData (request : NvmeRequest) (pduLen : UInt32) : Bool := request.isWrite && 0 < pduLen

end Nvme

end DiscoveryClient
