import DiscoveryClient.CommandQueue
import DiscoveryClient.ConnectCapsule

/-! The commands that the client sends once it is connected: as it packs them, and as the server
parses them. -/

namespace DiscoveryClient

namespace Nvme

/-- Fields of 64 bytes in all make a command. -/
def Pdu.ofFields (fields : List Struc.Field) (fits : ∀ f ∈ fields, f.Fits)
    (size : Struc.sizeof fields = 64) : Pdu :=
  ⟨fields.flatMap Struc.Field.bytes, (Struc.flatMap_bytes_length fits).trans size⟩

/-- The last one of the bytes in `rsvd2` is where other commands have the type of their data. -/
structure PropertySetCommand where
  opcode : UInt8
  resv1 : UInt8
  commandID : UInt16
  fcType : UInt8
  rsvd2 : Vector UInt8 35
  attrib : UInt8
  offset : UInt32
  value : UInt64

def PropertySetCommand.fields (cmd : PropertySetCommand) : List Struc.Field :=
  [.uint 1 cmd.opcode.toNat, .uint 1 cmd.resv1.toNat, .uint 2 cmd.commandID.toNat,
    .uint 1 cmd.fcType.toNat, .array cmd.rsvd2.toList, .uint 1 cmd.attrib.toNat,
    .array (List.replicate 3 0), .uint 4 cmd.offset.toNat, .uint 8 cmd.value.toNat,
    .array (List.replicate 8 0)]

structure PropertyGetCommand where
  opcode : UInt8
  resv1 : UInt8
  commandID : UInt16
  fcType : UInt8
  rsvd2 : Vector UInt8 35
  attrib : UInt8
  offset : UInt32

def PropertyGetCommand.fields (cmd : PropertyGetCommand) : List Struc.Field :=
  [.uint 1 cmd.opcode.toNat, .uint 1 cmd.resv1.toNat, .uint 2 cmd.commandID.toNat,
    .uint 1 cmd.fcType.toNat, .array cmd.rsvd2.toList, .uint 1 cmd.attrib.toNat,
    .array (List.replicate 3 0), .uint 4 cmd.offset.toNat, .array (List.replicate 16 0)]

/-- The reserved fields are zero. -/
structure IdentifyCommand where
  opcode : UInt8
  flags : UInt8
  commandID : UInt16
  nsId : UInt32 := 0
  dptr : DataPtr := ⟨0, .replicate 8 0⟩
  cns : UInt8
  ctrlID : UInt16 := 0

/-- The last field is an array of five numbers of 16 bits which are written in 32. -/
def IdentifyCommand.fields (cmd : IdentifyCommand) : List Struc.Field :=
  [.uint 1 cmd.opcode.toNat, .uint 1 cmd.flags.toNat, .uint 2 cmd.commandID.toNat,
    .uint 4 cmd.nsId.toNat, .array (List.replicate 16 0)] ++ cmd.dptr.fields ++
  [.uint 1 cmd.cns.toNat, .uint 1 0, .uint 2 cmd.ctrlID.toNat, .array (List.replicate 20 0)]

def CommonCommand.fields (cmd : CommonCommand) : List Struc.Field :=
  [.uint 1 cmd.opcode.toNat, .uint 1 cmd.flags.toNat, .uint 2 cmd.commandID.toNat,
    .uint 4 cmd.nsId.toNat, .uint 4 cmd.cdw2.1.toNat, .uint 4 cmd.cdw2.2.toNat,
    .uint 8 cmd.metadata.toNat] ++ cmd.dptr.fields ++
  [.uint 4 cmd.cdw10.toNat, .uint 4 cmd.cdw11.toNat, .uint 4 cmd.cdw12.toNat,
    .uint 4 cmd.cdw13.toNat, .uint 4 cmd.cdw14.toNat, .uint 4 cmd.cdw15.toNat]

/-- The sizes up to the fields behind the place of the pointer to the data. -/
theorem PropertySetCommand.sizeof_take (cmd : PropertySetCommand) (k : Nat) :
    Struc.sizeof (cmd.fields.take (5 + k)) = 40 + Struc.sizeof ((cmd.fields.drop 5).take k) := by
  rw [List.take_add, Struc.sizeof_append]
  congr 1
  simp [fields, Struc.sizeof, Struc.Field.size]

theorem PropertyGetCommand.sizeof_take (cmd : PropertyGetCommand) (k : Nat) :
    Struc.sizeof (cmd.fields.take (5 + k)) = 40 + Struc.sizeof ((cmd.fields.drop 5).take k) := by
  rw [List.take_add, Struc.sizeof_append]
  congr 1
  simp [fields, Struc.sizeof, Struc.Field.size]

theorem CommonCommand.sizeof_take (cmd : CommonCommand) (k : Nat) :
    Struc.sizeof (cmd.fields.take (9 + k)) = 40 + Struc.sizeof ((cmd.fields.drop 9).take k) := by
  rw [List.take_add, Struc.sizeof_append]
  congr 1
  simp [fields, DataPtr.fields, Struc.sizeof, Struc.Field.size]

theorem DiscoveryLogPageCommand.sizeof_take (cmd : DiscoveryLogPageCommand) (k : Nat) :
    Struc.sizeof (cmd.fields.take (7 + k)) = 40 + Struc.sizeof ((cmd.fields.drop 7).take k) := by
  rw [List.take_add, Struc.sizeof_append]
  congr 1
  simp [fields, DataPtr.fields, Struc.sizeof, Struc.Field.size]

/-- `REQ_FAILFAST_DRIVER`. -/
def reqFailfastDriver : UInt8 := 0x40

/-- What the property commands have in `Rsvd2`: 90 in its last byte. -/
def propertyRsvd2 : Vector UInt8 35 := (Vector.replicate 35 0).set 34 90

def newPropertySetRequest (cmdID : UInt16) (off : UInt32) (val : UInt64) : PropertySetCommand where
  opcode := fabricsCommand
  resv1 := 0x40
  commandID := cmdID
  fcType := typePropertySet
  rsvd2 := propertyRsvd2
  attrib := 0
  offset := off
  value := val

/-- Only the capabilities are a property of 8 bytes. -/
def newPropertyGetRequest (cmdID : UInt16) (propOff : UInt32) : PropertyGetCommand where
  opcode := fabricsCommand
  resv1 := 0x40
  commandID := cmdID
  fcType := typePropertyGet
  rsvd2 := propertyRsvd2
  attrib := if propOff = regCap then 1 else 0
  offset := propOff

def newIdentifyRequest (cmdid : UInt16) : IdentifyCommand where
  opcode := adminIdentify
  flags := reqFailfastDriver
  commandID := cmdid
  cns := 0x01

/-- A command without data, of which two double words may be set. -/
def newCommonCommand (cmdID : UInt16) (opcode : UInt8) (cdw10 cdw11 : UInt32) : CommonCommand where
  opcode
  flags := reqFailfastDriver
  commandID := cmdID
  nsId := 0
  cdw2 := (0, 0)
  metadata := 0
  dptr := ⟨0, .replicate 8 0⟩
  cdw10
  cdw11
  cdw12 := 0
  cdw13 := 0
  cdw14 := 0
  cdw15 := 0

def newSetFeatureAsyncEventRequest (cmdID : UInt16) : CommonCommand :=
  newCommonCommand cmdID adminSetFeatures NvmeController.featAsyncEvent 0x80000000

/-- The timeout is given in nanoseconds and cut to whole milliseconds. -/
def newSetFeatureKatoRequest (cmdID : UInt16) (kato : Int) : CommonCommand :=
  newCommonCommand cmdID adminSetFeatures NvmeController.featKato
    (.ofNat (kato.tdiv 1000000 % 4294967296).toNat)

def newAsyncEventRequest (cmdID : UInt16) : CommonCommand :=
  newCommonCommand cmdID adminAsyncEvent 0 0

def newKeepAliveRequest (cmdID : UInt16) : CommonCommand :=
  newCommonCommand cmdID adminKeepAlive 0 0

/-- What the client can ask of a controller, with what it sets in the command. -/
inductive HostCommand
  | propertySet (off : UInt32) (val : UInt64)
  | propertyGet (propOff : UInt32)
  | identify
  | setFeatureAsyncEvent
  | setFeatureKato (kato : Int)
  | getLogPage (size : UInt32) (offset : UInt64) (nsid : UInt32)
  | asyncEvent
  | keepAlive
deriving DecidableEq

namespace HostCommand

/-- The fields of the command that `PackCmd` writes. -/
def fields (cmdID : UInt16) : HostCommand → List Struc.Field
  | .propertySet off val => (newPropertySetRequest cmdID off val).fields
  | .propertyGet propOff => (newPropertyGetRequest cmdID propOff).fields
  | .identify => (newIdentifyRequest cmdID).fields
  | .setFeatureAsyncEvent => (newSetFeatureAsyncEventRequest cmdID).fields
  | .setFeatureKato kato => (newSetFeatureKatoRequest cmdID kato).fields
  | .getLogPage size offset nsid => (discoveryLogPageCommand cmdID size offset nsid).fields
  | .asyncEvent => (newAsyncEventRequest cmdID).fields
  | .keepAlive => (newKeepAliveRequest cmdID).fields

theorem fits (cmdID : UInt16) (cmd : HostCommand) : ∀ f ∈ cmd.fields cmdID, f.Fits := by
  cases cmd <;> simp [fields, PropertySetCommand.fields, PropertyGetCommand.fields,
    IdentifyCommand.fields, CommonCommand.fields, DiscoveryLogPageCommand.fields, DataPtr.fields,
    Struc.Field.Fits]

theorem sizeof_fields (cmdID : UInt16) (cmd : HostCommand) :
    Struc.sizeof (cmd.fields cmdID) = 64 := by
  cases cmd <;> simp [fields, PropertySetCommand.fields, PropertyGetCommand.fields,
    IdentifyCommand.fields, CommonCommand.fields, DiscoveryLogPageCommand.fields, DataPtr.fields,
    Struc.sizeof, Struc.Field.size]

def pdu (cmdID : UInt16) (cmd : HostCommand) : Pdu :=
  .ofFields (cmd.fields cmdID) (cmd.fits cmdID) (cmd.sizeof_fields cmdID)

/-- What `sendRequest` writes. -/
def sendRequest (cmdID : UInt16) (cmd : HostCommand) : Option (List UInt8) := do
  let header ← Struc.pack (createTCPHeader false).fields
  let bytes ← Struc.pack (cmd.fields cmdID)
  return header ++ bytes

/-- The request that the server is to make of it. -/
def request : HostCommand → AdminRequest
  | .propertySet off val => .propertySet 0 off val
  | .propertyGet propOff => .propertyGet (if propOff = regCap then 1 else 0) propOff
  | .identify => .identify
  | .setFeatureAsyncEvent => .setFeatures NvmeController.featAsyncEvent 0x80000000
  | .setFeatureKato kato =>
    .setFeatures NvmeController.featKato (.ofNat (kato.tdiv 1000000 % 4294967296).toNat)
  | .getLogPage size offset _ => .getLogPage (newNvmeGetDiscoveryLogPageRequest size offset)
  | .asyncEvent => .asyncEvent
  | .keepAlive => .keepAlive

def opcode : HostCommand → UInt8
  | .propertySet .. | .propertyGet _ => fabricsCommand
  | .identify => adminIdentify
  | .setFeatureAsyncEvent | .setFeatureKato _ => adminSetFeatures
  | .getLogPage .. => adminGetLogPage
  | .asyncEvent => adminAsyncEvent
  | .keepAlive => adminKeepAlive

/-- The command by the kind that the client's queue keeps. -/
def command : HostCommand → QueueCommand
  | .propertySet off val => .propertySet off val
  | .propertyGet propOff => .propertyGet propOff
  | .identify => .identify
  | .setFeatureAsyncEvent | .setFeatureKato _ => .setFeature
  | .getLogPage .. => .logPage
  | .asyncEvent => .asyncEvent
  | .keepAlive => .keepAlive

section Pdu

variable (cmdID : UInt16) (cmd : HostCommand)

theorem pdu_opcode : (cmd.pdu cmdID).opcode = cmd.opcode := by
  cases cmd <;> exact Pdu.byte_of_fields rfl (fits cmdID _) (i := 0) rfl rfl

theorem pdu_flags : (cmd.pdu cmdID).flags = 0x40 := by
  cases cmd <;> exact Pdu.byte_of_fields rfl (fits cmdID _) (i := 1) rfl rfl

theorem pdu_commandID : (cmd.pdu cmdID).commandID = cmdID := by
  have huint : (cmd.pdu cmdID).uint 2 2 = cmdID.toNat := by
    cases cmd <;> exact Pdu.uint_of_fields rfl (fits cmdID _) (i := 2) rfl rfl cmdID.toNat_lt
  rw [Pdu.commandID, huint, UInt16.ofNat_toNat]

theorem pdu_plainFlags : (cmd.pdu cmdID).PlainFlags := by
  rw [Pdu.PlainFlags, pdu_flags]
  decide

end Pdu

/-- The commands of this opcode are the two for properties. -/
theorem property_of_opcode {cmd : HostCommand} (h : cmd.opcode = fabricsCommand) :
    (∃ off val, cmd = .propertySet off val) ∨ ∃ propOff, cmd = .propertyGet propOff := by
  cases cmd with
  | propertySet off val => exact .inl ⟨off, val, rfl⟩
  | propertyGet propOff => exact .inr ⟨propOff, rfl⟩
  | identify | setFeatureAsyncEvent | setFeatureKato _ | getLogPage _ _ _ | asyncEvent
  | keepAlive => cases h

section Parsed

variable (cmdID : UInt16)

theorem parsed_propertySet (off : UInt32) (val : UInt64) :
    nvmetParseFabricsCommand ((propertySet off val).pdu cmdID) = .ok (.propertySet 0 off val) := by
  have hfits := fits cmdID (propertySet off val)
  have hsize := (newPropertySetRequest cmdID off val).sizeof_take
  have hfcType : ((propertySet off val).pdu cmdID).fcType = typePropertySet :=
    Pdu.byte_of_fields rfl hfits (i := 3) rfl rfl
  have hattrib : ((propertySet off val).pdu cmdID).byte 40 = 0 :=
    Pdu.byte_of_fields rfl hfits (i := 5) rfl (hsize 0)
  have hoffset : ((propertySet off val).pdu cmdID).uint 44 4 = off.toNat :=
    Pdu.uint_of_fields rfl hfits (i := 7) rfl (hsize 2) off.toNat_lt
  have hvalue : ((propertySet off val).pdu cmdID).uint 48 8 = val.toNat :=
    Pdu.uint_of_fields rfl hfits (i := 8) rfl (hsize 3) val.toNat_lt
  rw [nvmetParseFabricsCommand, if_pos hfcType, hattrib, hoffset, hvalue, UInt32.ofNat_toNat,
    UInt64.ofNat_toNat]

theorem parsed_propertyGet (propOff : UInt32) :
    nvmetParseFabricsCommand ((propertyGet propOff).pdu cmdID) =
      .ok (.propertyGet (if propOff = regCap then 1 else 0) propOff) := by
  have hfits := fits cmdID (propertyGet propOff)
  have hsize := (newPropertyGetRequest cmdID propOff).sizeof_take
  have hfcType : ((propertyGet propOff).pdu cmdID).fcType = typePropertyGet :=
    Pdu.byte_of_fields rfl hfits (i := 3) rfl rfl
  have hattrib : ((propertyGet propOff).pdu cmdID).byte 40 = if propOff = regCap then 1 else 0 :=
    Pdu.byte_of_fields rfl hfits (i := 5) rfl (hsize 0)
  have hoffset : ((propertyGet propOff).pdu cmdID).uint 44 4 = propOff.toNat :=
    Pdu.uint_of_fields rfl hfits (i := 7) rfl (hsize 2) propOff.toNat_lt
  have hne : typePropertyGet ≠ typePropertySet := by decide
  rw [nvmetParseFabricsCommand, hfcType, if_neg hne, if_pos rfl, hattrib, hoffset,
    UInt32.ofNat_toNat]

/-- The double words of a command that the server reads for features. -/
theorem common_dwords {cmd : CommonCommand} {pdu : Pdu}
    (hpdu : pdu.bytes = cmd.fields.flatMap Struc.Field.bytes) :
    UInt32.ofNat (pdu.uint 40 4) = cmd.cdw10 ∧ UInt32.ofNat (pdu.uint 44 4) = cmd.cdw11 := by
  have hfits : ∀ f ∈ cmd.fields, f.Fits := by
    simp [CommonCommand.fields, DataPtr.fields, Struc.Field.Fits]
  have hcdw10 : pdu.uint 40 4 = cmd.cdw10.toNat :=
    Pdu.uint_of_fields hpdu hfits (i := 9) rfl (cmd.sizeof_take 0) cmd.cdw10.toNat_lt
  have hcdw11 : pdu.uint 44 4 = cmd.cdw11.toNat :=
    Pdu.uint_of_fields hpdu hfits (i := 10) rfl (cmd.sizeof_take 1) cmd.cdw11.toNat_lt
  rw [hcdw10, hcdw11, UInt32.ofNat_toNat, UInt32.ofNat_toNat]
  exact ⟨rfl, rfl⟩

theorem pdu_getLogPageCommand (size : UInt32) (offset : UInt64) (nsid : UInt32) :
    ((getLogPage size offset nsid).pdu cmdID).lid = logDisc ∧
      ((getLogPage size offset nsid).pdu cmdID).getLogPageCommand =
        newNvmeGetDiscoveryLogPageRequest size offset := by
  have hfits := fits cmdID (getLogPage size offset nsid)
  have hsize := (discoveryLogPageCommand cmdID size offset nsid).sizeof_take
  obtain ⟨cmd, hcmd⟩ : ∃ cmd, cmd = newNvmeGetDiscoveryLogPageRequest size offset := ⟨_, rfl⟩
  have hlid : ((getLogPage size offset nsid).pdu cmdID).lid = logDisc :=
    Pdu.byte_of_fields rfl hfits (i := 7) rfl (hsize 0)
  have hnumDl : ((getLogPage size offset nsid).pdu cmdID).uint 42 2 = cmd.numDl.toNat :=
    Pdu.uint_of_fields rfl hfits (i := 9) (by rw [hcmd]; rfl) (hsize 2) cmd.numDl.toNat_lt
  have hnumDu : ((getLogPage size offset nsid).pdu cmdID).uint 44 2 = cmd.numDu.toNat :=
    Pdu.uint_of_fields rfl hfits (i := 10) (by rw [hcmd]; rfl) (hsize 3) cmd.numDu.toNat_lt
  have hlpol : ((getLogPage size offset nsid).pdu cmdID).uint 48 4 = cmd.lpol.toNat :=
    Pdu.uint_of_fields rfl hfits (i := 12) (by rw [hcmd]; rfl) (hsize 5) cmd.lpol.toNat_lt
  have hlpou : ((getLogPage size offset nsid).pdu cmdID).uint 52 4 = cmd.lpou.toNat :=
    Pdu.uint_of_fields rfl hfits (i := 13) (by rw [hcmd]; rfl) (hsize 6) cmd.lpou.toNat_lt
  refine ⟨hlid, ?_⟩
  rw [Pdu.getLogPageCommand, hnumDl, hnumDu, hlpol, hlpou, UInt16.ofNat_toNat, UInt16.ofNat_toNat,
    UInt32.ofNat_toNat, UInt32.ofNat_toNat, hcmd]

/-- On a controller that is ready every command is parsed to the request it was made for. -/
theorem parsed_discovery {cmd : HostCommand} (hopcode : cmd.opcode ≠ fabricsCommand)
    {ctrl : NvmeController} (hready : ctrl.csts &&& cstsRdy ≠ 0) (qID : UInt16) :
    nvmetParseDiscoveryCommand qID ctrl (cmd.pdu cmdID) = .ok cmd.request := by
  rw [nvmetParseDiscoveryCommand, if_neg hready, pdu_opcode]
  cases cmd with
  | propertySet off val => exact absurd rfl hopcode
  | propertyGet propOff => exact absurd rfl hopcode
  | identify => rfl
  | keepAlive => rfl
  | asyncEvent => rfl
  | getLogPage size offset nsid =>
    obtain ⟨hlid, hcmd⟩ := pdu_getLogPageCommand cmdID size offset nsid
    rw [hlid, hcmd]
    rfl
  | setFeatureAsyncEvent =>
    obtain ⟨hcdw10, hcdw11⟩ := @common_dwords (newSetFeatureAsyncEventRequest cmdID)
      (setFeatureAsyncEvent.pdu cmdID) rfl
    rw [hcdw10, hcdw11]
    rfl
  | setFeatureKato kato =>
    obtain ⟨hcdw10, hcdw11⟩ := @common_dwords (newSetFeatureKatoRequest cmdID kato)
      ((setFeatureKato kato).pdu cmdID) rfl
    rw [hcdw10, hcdw11]
    rfl

end Parsed

section Init

variable (cmdID : UInt16) (cmd : HostCommand) {queue : NvmeQueue}

theorem init_unconnected (hctrl : queue.ctrl = none) :
    queue.nvmetRequestInit (cmd.pdu cmdID) = .error (.parser .unconnectedQueue) := by
  obtain ⟨hfused, hflags⟩ := cmd.pdu_plainFlags cmdID
  have hparse : nvmetParseConnectCmd (cmd.pdu cmdID) = .error .unconnectedQueue := by
    have hfcType : cmd.opcode = fabricsCommand → (cmd.pdu cmdID).fcType ≠ typeConnect := by
      intro hopcode
      rcases property_of_opcode hopcode with ⟨off, val, rfl⟩ | ⟨propOff, rfl⟩
      · have hset : ((propertySet off val).pdu cmdID).fcType = typePropertySet :=
          Pdu.byte_of_fields rfl (fits cmdID _) (i := 3) rfl rfl
        rw [hset]
        decide
      · have hget : ((propertyGet propOff).pdu cmdID).fcType = typePropertyGet :=
          Pdu.byte_of_fields rfl (fits cmdID _) (i := 3) rfl rfl
        rw [hget]
        decide
    rw [nvmetParseConnectCmd, pdu_opcode]
    split
    next => rfl
    next hopcode => rw [if_pos (hfcType (not_not.mp hopcode))]
  simp [NvmeQueue.nvmetRequestInit, NvmeQueue.parse, hfused, hflags, hctrl, hparse]

/-- The property commands are taken from the start, the others once the controller is ready. -/
theorem init_connected {ctrl : NvmeController} (hctrl : queue.ctrl = some ctrl) :
    queue.nvmetRequestInit (cmd.pdu cmdID) =
      if cmd.opcode = fabricsCommand ∨ ctrl.csts &&& cstsRdy ≠ 0 then .ok (.admin cmd.request)
      else .error (.parser (.notReady cmd.opcode queue.qID)) := by
  have hplain := cmd.pdu_plainFlags cmdID
  have hparse : ∀ request, (if (cmd.pdu cmdID).opcode = fabricsCommand then
      nvmetParseFabricsCommand (cmd.pdu cmdID)
      else nvmetParseDiscoveryCommand queue.qID ctrl (cmd.pdu cmdID)) = .ok request →
      queue.nvmetRequestInit (cmd.pdu cmdID) = .ok (.admin request) :=
    fun request h => nvmetRequestInit_eq_ok_iff.mpr ⟨hplain, parse_admin_iff.mpr ⟨ctrl, hctrl, h⟩⟩
  rw [pdu_opcode] at hparse
  by_cases hopcode : cmd.opcode = fabricsCommand
  · rw [if_pos (Or.inl hopcode)]
    refine hparse cmd.request ?_
    rw [if_pos hopcode]
    rcases property_of_opcode hopcode with ⟨off, val, rfl⟩ | ⟨propOff, rfl⟩
    · exact parsed_propertySet cmdID off val
    · exact parsed_propertyGet cmdID propOff
  · by_cases hready : ctrl.csts &&& cstsRdy = 0
    · rw [if_neg (by simp [hopcode, hready])]
      obtain ⟨hfused, hflags⟩ := hplain
      simp [NvmeQueue.nvmetRequestInit, NvmeQueue.parse, hfused, hflags, hctrl, pdu_opcode, hopcode,
        nvmetParseDiscoveryCommand, hready, Except.map]
    · rw [if_pos (Or.inr hready)]
      refine hparse cmd.request ?_
      rw [if_neg hopcode, parsed_discovery cmdID hopcode hready]

/-- A command that asks for data does not say that they are behind it. -/
theorem pdu_sglType (hlen : NvmeRequest.dataLen (.admin cmd.request) ≠ 0) :
    (cmd.pdu cmdID).sglType ≠ sglInline := by
  cases cmd with
  | identify =>
    have hbyte := @Pdu.byte_of_array (identify.pdu cmdID) _ 6 32 rfl (fits cmdID identify)
      (List.replicate 8 0) rfl rfl 7 (by decide)
    have hsgl : (identify.pdu cmdID).sglType = 0 := hbyte
    rw [hsgl]
    decide
  | getLogPage size offset nsid =>
    have hbyte := @Pdu.byte_of_array ((getLogPage size offset nsid).pdu cmdID) _ 6 32 rfl
      (fits cmdID (getLogPage size offset nsid)) [16, 0, 0, 0, 0, 0, 0, 90] rfl rfl 7 (by decide)
    have hsgl : ((getLogPage size offset nsid).pdu cmdID).sglType = 90 := hbyte
    rw [hsgl]
    decide
  | propertySet _ _ | propertyGet _ | setFeatureAsyncEvent | setFeatureKato _ | asyncEvent
  | keepAlive => exact absurd rfl hlen

/-- None of the commands brings data along. -/
theorem dataIn_pdu : queue.dataIn (cmd.pdu cmdID) = none := by
  unfold NvmeQueue.dataIn
  cases hctrl : queue.ctrl with
  | none => rw [init_unconnected cmdID cmd hctrl]
  | some ctrl =>
    rw [init_connected cmdID cmd hctrl]
    split
    next => rfl
    next request hok =>
      split at hok
      next =>
        cases hok
        simp [mapData_admin, hasInlineData, NvmeRequest.isWrite]
      next => cases hok

theorem sendRequest_eq : cmd.sendRequest cmdID =
    some ((createTCPHeader false).record ++ (cmd.pdu cmdID).bytes) := by
  have hhdr : Struc.pack (createTCPHeader false).fields = some (createTCPHeader false).record :=
    Struc.pack_of_fits (by simp [TCPHeaderType.fields, Struc.Field.Fits])
  have hcmd : Struc.pack (cmd.fields cmdID) = some (cmd.pdu cmdID).bytes :=
    Struc.pack_of_fits (cmd.fits cmdID)
  rw [sendRequest, hhdr, Struc.some_bind, hcmd, Struc.some_bind]
  rfl

theorem turn_pdu (server : Server) (read : Nat → Nat) (log : DiscoveryLog) (next : List UInt8) :
    server.turn read log ((createTCPHeader false).record ++ (cmd.pdu cmdID).bytes ++ next) =
      .ok (server.receive (.ofData (cmd.pdu cmdID) []) log, next) := by
  have hsent := @turn_sent read server log _ (createTCPHeader_cmd false)
    (.ofData (cmd.pdu cmdID) []) next
  have hnone : server.queue.dataIn (Capsule.ofData (cmd.pdu cmdID) []).pdu = none :=
    dataIn_pdu cmdID cmd
  rw [Capsule.sent, hnone] at hsent
  simp only [Option.isSome_none, Bool.false_eq_true, if_false, List.append_nil] at hsent
  exact hsent

end Init

/-- Whatever command the client makes, the server takes its bytes and no more, and makes the same
command of it under the same ID: unless there is no controller yet, or it is not ready. -/
theorem host_command_understood (cmd : HostCommand) (cmdID : UInt16) (server : Server)
    (read : Nat → Nat) (log : DiscoveryLog) (next : List UInt8) :
    ∃ bytes, cmd.sendRequest cmdID = some bytes ∧
      bytes.length = (createTCPHeader false).plen.toNat ∧
      server.turn read log (bytes ++ next) =
        .ok (server.receive (.ofData (cmd.pdu cmdID) []) log, next) ∧
      (cmd.pdu cmdID).commandID = cmdID ∧
      server.queue.nvmetRequestInit (cmd.pdu cmdID) =
        server.queue.ctrl.elim (.error (.parser .unconnectedQueue)) fun ctrl =>
          if cmd.opcode = fabricsCommand ∨ ctrl.csts &&& cstsRdy ≠ 0 then .ok (.admin cmd.request)
          else .error (.parser (.notReady cmd.opcode server.queue.qID)) := by
  refine ⟨_, cmd.sendRequest_eq cmdID, ?_, cmd.turn_pdu cmdID server read log next,
    cmd.pdu_commandID cmdID, ?_⟩
  · rw [List.length_append, TCPHeaderType.record_length, (cmd.pdu cmdID).length_eq]
    rfl
  · cases hctrl : server.queue.ctrl with
    | none => exact cmd.init_unconnected cmdID hctrl
    | some ctrl => exact cmd.init_connected cmdID hctrl

end HostCommand

end Nvme

end DiscoveryClient
