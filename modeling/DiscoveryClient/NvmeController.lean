import DiscoveryClient.AsyncEvents
import DiscoveryClient.TcpPdu

namespace DiscoveryClient

open GoString

/-- `setU16Result`, `setU32Result` and `setU64Result`. -/
def Completion.setResult (c : Completion) (n : Nat) : Completion :=
  { c with result := Vector.ofFn fun i => (Struc.putUint 8 n).getD i 0 }

namespace Nvme

def success : UInt16 := 0

def invalidOpcode : UInt16 := 0x1

def invalidField : UInt16 := 0x2

def internalError : UInt16 := 0x6

def sglInvalidOffset : UInt16 := 0x16

def asyncLimit : UInt16 := 0x105

def invalidLogPage : UInt16 := 0x109

def connectFormat : UInt16 := 0x180

def connectInvalidParam : UInt16 := 0x182

def dnr : UInt16 := 0x4000

/-- The status of a completion is shifted past the phase bit. -/
def newCompletion (commandID sqID status : UInt16) : Completion :=
  { result := .replicate 8 0, sqHead := 0, sqID, commandID, status := status <<< 1 }

/-- A request on the server: `seq` is its place in the order of arrival, which tells it from another
one with its command ID. -/
structure AsyncEventRequest where
  seq : Nat
  commandID : UInt16
deriving DecidableEq, Repr

def nvmetDiscoveryKatoMsec : Nat := 120000

def cstsRdy : UInt32 := 0x1

def cstsCfs : UInt32 := 0x2

def cstsShstCmplt : UInt32 := 0x8

/-- `nvmeController`; `kato` is in milliseconds. -/
structure NvmeController where
  hostNqn : GoString
  controllerID : UInt16
  cc : UInt32 := 0
  csts : UInt32 := 0
  kato : Nat
  aenBitEnabled : Bool := false
  asyncEventPendingRequests : List AsyncEventRequest := []
deriving DecidableEq, Repr

namespace NvmeController

/-- What `initCap` makes of the capabilities. -/
def cap : UInt64 := (1 : UInt64) <<< 37 ||| (15 : UInt64) <<< 24 ||| 1023

def ccEn (cc : UInt32) : Bool := cc &&& 0x1 ≠ 0

def ccShn (cc : UInt32) : Bool := (cc >>> 14) &&& 0x3 ≠ 0

def ccIOSqes (cc : UInt32) : UInt8 := (cc >>> 16).toUInt8 &&& 0xf

def ccIOCqes (cc : UInt32) : UInt8 := (cc >>> 20).toUInt8 &&& 0xf

def ccMps (cc : UInt32) : UInt8 := (cc >>> 7).toUInt8 &&& 0xf

def ccCss (cc : UInt32) : UInt8 := (cc >>> 4).toUInt8 &&& 0x7

def ccAms (cc : UInt32) : UInt8 := (cc >>> 11).toUInt8 &&& 0x7

def clear (ctrl : NvmeController) : NvmeController :=
  { ctrl with csts := ctrl.csts &&& ~~~cstsRdy, cc := 0 }

def start (ctrl : NvmeController) : NvmeController :=
  if ccIOSqes ctrl.cc ≠ 6 ∨ ccIOCqes ctrl.cc ≠ 4 ∨ ccMps ctrl.cc ≠ 0 ∨ ccAms ctrl.cc ≠ 0 ∨
      ccCss ctrl.cc ≠ 0 then
    { ctrl with csts := cstsCfs }
  else { ctrl with csts := cstsRdy }

/-- The four conditions are looked at one after the other, each on what the one before has left. -/
def updateControllerConfiguration (ctrl : NvmeController) (value : UInt32) : NvmeController :=
  let old := ctrl.cc
  let ctrl := { ctrl with cc := value }
  let ctrl := if ccEn ctrl.cc && !ccEn old then ctrl.start else ctrl
  let ctrl := if !ccEn ctrl.cc && ccEn old then ctrl.clear else ctrl
  let ctrl := if ccShn ctrl.cc && !ccShn old then
      { ctrl.clear with csts := ctrl.clear.csts ||| cstsShstCmplt }
    else ctrl
  if !ccShn ctrl.cc && ccShn old then { ctrl with csts := ctrl.csts &&& ~~~cstsShstCmplt } else ctrl

/-- The timer of `keepAliveHandler` fires. -/
def keepAliveExpired (ctrl : NvmeController) : NvmeController :=
  if ctrl.csts &&& cstsCfs = 0 then { ctrl with csts := ctrl.csts ||| cstsCfs } else ctrl

def setAENValue (ctrl : NvmeController) (value : UInt32) : NvmeController :=
  { ctrl with aenBitEnabled := nvmeAENCfgDiscChange &&& value ≠ 0 }

/-- The request is kept, or answered at once when too many are. -/
def registerAsyncEventRequest (ctrl : NvmeController) (sqID : UInt16) (request : AsyncEventRequest) :
    NvmeController × Option Completion :=
  if maxPendingAsyncEventsRequestsLimit ≤ ctrl.asyncEventPendingRequests.length then
    (ctrl, some (newCompletion request.commandID sqID (asyncLimit ||| dnr)))
  else
    ({ ctrl with asyncEventPendingRequests := ctrl.asyncEventPendingRequests ++ [request] }, none)

/-- `NvmetAsyncEvent.result` of a change of the discovery log: a notice with its log page. -/
def discChangedResult : Nat := 0x2 + 0xf0 * 2 ^ 8 + 0x70 * 2 ^ 16

/-- One event in the loop of `handleAENEvents`: the oldest request is answered. -/
def handleAENEvent (ctrl : NvmeController) (sqID : UInt16) :
    NvmeController × Option (AsyncEventRequest × Completion) :=
  match ctrl.asyncEventPendingRequests with
  | [] => (ctrl, none)
  | request :: rest =>
    ({ ctrl with asyncEventPendingRequests := rest },
      some (request, (newCompletion request.commandID sqID success).setResult discChangedResult))

/-- The controller as its client sees it, by the IDs of its requests. -/
def seen (ctrl : NvmeController) (generation events : Nat) : Controller where
  generation
  aenBitEnabled := ctrl.aenBitEnabled
  asyncEventsChan := events
  pendingRequests := ctrl.asyncEventPendingRequests.map (·.commandID)

theorem seen_registerAsyncEventRequest (ctrl : NvmeController) (sqID : UInt16)
    (request : AsyncEventRequest) (generation events : Nat) :
    ((ctrl.registerAsyncEventRequest sqID request).1.seen generation events) =
        ((ctrl.seen generation events).registerAsyncEventRequest request.commandID).1 ∧
    (ctrl.registerAsyncEventRequest sqID request).2.toList.map (·.commandID) =
        ((ctrl.seen generation events).registerAsyncEventRequest request.commandID).2.map
          (·.commandID) := by
  unfold registerAsyncEventRequest Controller.registerAsyncEventRequest
  simp only [seen, List.length_map]
  split
  next => exact ⟨rfl, rfl⟩
  next => exact ⟨by rw [List.map_append]; rfl, rfl⟩

theorem seen_handleAENEvent (ctrl : NvmeController) (sqID : UInt16) (generation events : Nat) :
    (ctrl.handleAENEvent sqID).1.seen generation events =
        (ctrl.seen generation events).handleAENEvent.1 ∧
    (ctrl.handleAENEvent sqID).2.toList.map (·.2.commandID) =
        (ctrl.seen generation events).handleAENEvent.2.map (·.commandID) := by
  unfold handleAENEvent Controller.handleAENEvent
  cases h : ctrl.asyncEventPendingRequests with
  | nil => simp [seen, h]
  | cons request rest => exact ⟨by simp [seen, h], by simp [seen, h]; rfl⟩

end NvmeController

end Nvme

end DiscoveryClient
