import DiscoveryClient.CapsuleStream
import DiscoveryClient.CommandLayout

/-! The connect command from the client's packing of it to the server's controller. -/

namespace DiscoveryClient

open GoString

namespace Nvme

/-- The reserved fields are zero. -/
structure ConnectCommand where
  opcode : UInt8
  resv1 : UInt8
  commandID : UInt16
  fcType : UInt8
  dptr : DataPtr
  recFmt : UInt16
  qID : UInt16
  sqSize : UInt16
  catTr : UInt8
  kato : UInt32
deriving DecidableEq, Repr

namespace ConnectCommand

def fields (cmd : ConnectCommand) : List Struc.Field :=
  [.uint 1 cmd.opcode.toNat, .uint 1 cmd.resv1.toNat, .uint 2 cmd.commandID.toNat,
    .uint 1 cmd.fcType.toNat, .array (List.replicate 19 0)] ++ cmd.dptr.fields ++
  [.uint 2 cmd.recFmt.toNat, .uint 2 cmd.qID.toNat, .uint 2 cmd.sqSize.toNat,
    .uint 1 cmd.catTr.toNat, .uint 1 0, .uint 4 cmd.kato.toNat, .array (List.replicate 12 0)]

theorem fits (cmd : ConnectCommand) : ∀ f ∈ cmd.fields, f.Fits := by
  simp [fields, DataPtr.fields, Struc.Field.Fits]

theorem sizeof_fields (cmd : ConnectCommand) : Struc.sizeof cmd.fields = 64 := by
  simp [fields, DataPtr.fields, Struc.sizeof, Struc.Field.size]

/-- The command as it is on the stream. -/
def pdu (cmd : ConnectCommand) : Pdu :=
  ⟨cmd.fields.flatMap Struc.Field.bytes,
    (Struc.flatMap_bytes_length cmd.fits).trans cmd.sizeof_fields⟩

end ConnectCommand

/-- The fields of the data; the two reserved ones are zero. -/
def ConnectData.fields (connectData : ConnectData) : List Struc.Field :=
  [.string 16 connectData.hostID, .uint 2 connectData.cntlID.toNat, .array (List.replicate 238 0),
    .string 256 connectData.subsysNqn, .string 256 connectData.hostNqn,
    .array (List.replicate 256 0)]

def aqDepth : UInt16 := 32

/-- The command of `NewAdminConnectRequest`. -/
def connectCommand (cmdID : UInt16) (kato : UInt32) : ConnectCommand where
  opcode := fabricsCommand
  resv1 := 0x40
  commandID := cmdID
  fcType := typeConnect
  dptr := { part1 := 0, part2 := .replicate 8 0 : DataPtr }.setSgInline 1024
  recFmt := 0
  qID := 0
  sqSize := aqDepth - 1
  catTr := 0
  kato

/-- A connect request of the client: its command, and the list with its data. -/
structure AdminConnectRequest where
  cmd : ConnectCommand
  sgl : ScatterList

/-- The error of `Pack` is not looked at; a panic of it is `none`. -/
def newAdminConnectRequest (cmdID : UInt16) (kato : UInt32) (connectData : ConnectData) :
    Option AdminConnectRequest := do
  let buf ← Struc.pack connectData.fields
  let sglWriter : ScatterListWriter := { sgl := newScatterList 1024 1024 }
  return { cmd := connectCommand cmdID kato, sgl := (sglWriter.write buf).1.sgl }

def createTCPHeader (isConnect : Bool) : TCPHeaderType where
  type := tcpCmd
  flags := 0
  hlen := 72
  pdo := 0
  plen := 72 + if isConnect then 1024 else 0

/-- The data that `sendConnectRequest` fills in. -/
def connectDataOf (hostnqn hostID : GoString) : ConnectData where
  hostID
  cntlID := 0xffff
  subsysNqn := discoverySubsysName
  hostNqn := hostnqn

/-- What `sendConnectRequest` writes for the decoded host id: the header, the command, and the list
as `io.Copy` reads it. -/
def connectCapsule (cmdID : UInt16) (hostnqn hostID : GoString) : Option (List UInt8) := do
  let request ← newAdminConnectRequest cmdID 0 (connectDataOf hostnqn hostID)
  let hdr ← Struc.pack (createTCPHeader true).fields
  let cmd ← Struc.pack request.cmd.fields
  return hdr ++ cmd ++ request.sgl.copyOut

/-- What `execute` goes on with: the names without the zeros behind them. -/
def ConnectData.trimmed (connectData : ConnectData) : ConnectData :=
  { connectData with
    subsysNqn := trimRightNul connectData.subsysNqn
    hostNqn := trimRightNul connectData.hostNqn }

namespace Pdu

variable {pdu : Pdu} {fields : List Struc.Field} {i offset : Nat}

theorem uint_of_fields (h : pdu.bytes = fields.flatMap Struc.Field.bytes)
    (fits : ∀ f ∈ fields, f.Fits) {size n : Nat} (hfield : fields[i]? = some (.uint size n))
    (hoffset : Struc.sizeof (fields.take i) = offset) (hn : n < 256 ^ size) :
    pdu.uint offset size = n := by
  rw [uint, h, ← hoffset, Struc.drop_sizeof fits hfield, Struc.Field.bytes,
    List.take_left' (Struc.putUint_length size n), Struc.getUint_putUint, Nat.mod_eq_of_lt hn]

theorem byte_of_fields (h : pdu.bytes = fields.flatMap Struc.Field.bytes)
    (fits : ∀ f ∈ fields, f.Fits) {b : UInt8} (hfield : fields[i]? = some (.uint 1 b.toNat))
    (hoffset : Struc.sizeof (fields.take i) = offset) : pdu.byte offset = b := by
  have hdrop := Struc.drop_sizeof fits hfield
  rw [← h, hoffset] at hdrop
  rw [byte, List.getD_eq_getElem?_getD, ← Nat.add_zero offset, ← List.getElem?_drop, hdrop]
  exact UInt8.ofNat_toNat

theorem byte_of_array (h : pdu.bytes = fields.flatMap Struc.Field.bytes)
    (fits : ∀ f ∈ fields, f.Fits) {bytes : List UInt8} (hfield : fields[i]? = some (.array bytes))
    (hoffset : Struc.sizeof (fields.take i) = offset) {k : Nat} (hk : k < bytes.length) :
    pdu.byte (offset + k) = bytes.getD k 0 := by
  have hdrop := Struc.drop_sizeof fits hfield
  rw [← h, hoffset] at hdrop
  rw [byte, List.getD_eq_getElem?_getD, ← List.getElem?_drop, hdrop, Struc.Field.bytes,
    List.getElem?_append_left hk, List.getD_eq_getElem?_getD]

end Pdu

namespace ConnectCommand

variable (cmd : ConnectCommand)

theorem pdu_opcode : cmd.pdu.opcode = cmd.opcode :=
  Pdu.byte_of_fields rfl cmd.fits (i := 0) rfl rfl

theorem pdu_flags : cmd.pdu.flags = cmd.resv1 :=
  Pdu.byte_of_fields rfl cmd.fits (i := 1) rfl rfl

theorem pdu_fcType : cmd.pdu.fcType = cmd.fcType :=
  Pdu.byte_of_fields rfl cmd.fits (i := 3) rfl rfl

theorem pdu_commandID : cmd.pdu.commandID = cmd.commandID := by
  have huint : cmd.pdu.uint 2 2 = cmd.commandID.toNat :=
    Pdu.uint_of_fields rfl cmd.fits (i := 2) rfl rfl cmd.commandID.toNat_lt
  rw [Pdu.commandID, huint, UInt16.ofNat_toNat]

/-- The sizes up to the fields behind the pointer to the data. -/
theorem sizeof_take (k : Nat) : Struc.sizeof (cmd.fields.take (7 + k)) = 40 + Struc.sizeof
    ((cmd.fields.drop 7).take k) := by
  rw [List.take_add, Struc.sizeof_append]
  congr 1
  simp [fields, DataPtr.fields, Struc.sizeof, Struc.Field.size]

theorem pdu_sglType : cmd.pdu.sglType = cmd.dptr.part2.toList.getD 7 0 :=
  Pdu.byte_of_array rfl cmd.fits (i := 6) rfl rfl (k := 7) (by simp)

/-- The server's reading of the command. -/
theorem nvmetParseConnectCmd_pdu (hopcode : cmd.opcode = fabricsCommand)
    (hfcType : cmd.fcType = typeConnect) :
    nvmetParseConnectCmd cmd.pdu = .ok (.connect cmd.recFmt cmd.qID cmd.sqSize cmd.kato) := by
  have hrecFmt : cmd.pdu.uint 40 2 = cmd.recFmt.toNat :=
    Pdu.uint_of_fields rfl cmd.fits (i := 7) rfl (cmd.sizeof_take 0) cmd.recFmt.toNat_lt
  have hqID : cmd.pdu.uint 42 2 = cmd.qID.toNat :=
    Pdu.uint_of_fields rfl cmd.fits (i := 8) rfl (cmd.sizeof_take 1) cmd.qID.toNat_lt
  have hsqSize : cmd.pdu.uint 44 2 = cmd.sqSize.toNat :=
    Pdu.uint_of_fields rfl cmd.fits (i := 9) rfl (cmd.sizeof_take 2) cmd.sqSize.toNat_lt
  have hkato : cmd.pdu.uint 48 4 = cmd.kato.toNat :=
    Pdu.uint_of_fields rfl cmd.fits (i := 12) rfl (cmd.sizeof_take 5) cmd.kato.toNat_lt
  refine nvmetParseConnectCmd_eq_ok_iff.mpr
    ⟨cmd.pdu_opcode.trans hopcode, cmd.pdu_fcType.trans hfcType, ?_⟩
  rw [hrecFmt, hqID, hsqSize, hkato, UInt16.ofNat_toNat, UInt16.ofNat_toNat, UInt16.ofNat_toNat,
    UInt32.ofNat_toNat]

end ConnectCommand

section Connect

variable (cmdID : UInt16) (kato : UInt32) {queue : NvmeQueue}

theorem nvmetRequestInit_connectCommand (hctrl : queue.ctrl = none) :
    queue.nvmetRequestInit (connectCommand cmdID kato).pdu = .ok (.connect 0 0 (aqDepth - 1) kato) := by
  have hplain : (connectCommand cmdID kato).pdu.PlainFlags := by
    rw [Pdu.PlainFlags, ConnectCommand.pdu_flags]
    change (0x40 : UInt8) &&& 0x3 = 0 ∧ (0x40 : UInt8) &&& 0xc0 = 0x40
    decide
  exact nvmetRequestInit_eq_ok_iff.mpr ⟨hplain, parse_connect_iff.mpr
    ⟨hctrl, ConnectCommand.nvmetParseConnectCmd_pdu (connectCommand cmdID kato) rfl rfl⟩⟩

theorem sglType_connectCommand : (connectCommand cmdID kato).pdu.sglType = sglInline := by
  rw [ConnectCommand.pdu_sglType]
  rfl

/-- The descriptor of the command makes the server take the data that follow it. -/
theorem dataIn_connectCommand (hctrl : queue.ctrl = none) :
    queue.dataIn (connectCommand cmdID kato).pdu = some (newScatterList 1024 8192, 1024) := by
  simp only [NvmeQueue.dataIn, nvmetRequestInit_connectCommand cmdID kato hctrl, mapData_connect,
    if_pos (sglType_connectCommand cmdID kato)]
  rfl

end Connect

namespace ConnectData

variable {connectData : ConnectData}

/-- The strings are no longer than their fields. -/
structure Fits (connectData : ConnectData) : Prop where
  hostID : connectData.hostID.length ≤ 16
  subsysNqn : connectData.subsysNqn.length ≤ 256
  hostNqn : connectData.hostNqn.length ≤ 256

theorem Fits.fields (h : connectData.Fits) : ∀ f ∈ connectData.fields, f.Fits := by
  simp only [ConnectData.fields, List.forall_mem_cons]
  exact ⟨h.hostID, trivial, trivial, h.subsysNqn, h.hostNqn, trivial,
    fun f hf => absurd hf List.not_mem_nil⟩

def record (connectData : ConnectData) : List UInt8 := connectData.fields.flatMap Struc.Field.bytes

theorem Fits.record_length (h : connectData.Fits) : connectData.record.length = 1024 := by
  rw [record, Struc.flatMap_bytes_length h.fields]
  simp [ConnectData.fields, Struc.sizeof, Struc.Field.size, -List.reduceReplicate]

/-- The parts of the data, each of its own length. -/
theorem unpack_parts {hostID rsv4 subsysNqn hostNqn rsv5 : List UInt8} {cntlID : UInt16}
    (h₁ : hostID.length = 16) (h₂ : rsv4.length = 238) (h₃ : subsysNqn.length = 256)
    (h₄ : hostNqn.length = 256) (h₅ : rsv5.length = 256) :
    unpack (hostID ++ (Struc.putUint 2 cntlID.toNat ++ (rsv4 ++ (subsysNqn ++ (hostNqn ++ rsv5))))) =
      some ⟨hostID, cntlID, subsysNqn, hostNqn⟩ := by
  have hread : ∀ {size : Nat} {bytes : List UInt8}, bytes.length = size → ∀ r,
      Struc.readFull size (bytes ++ r) = some (bytes, r) :=
    fun hlen r => hlen ▸ Struc.readFull_append _ r
  have hlast : Struc.readFull 256 rsv5 = some (rsv5, []) := by
    have hnil := hread h₅ []
    rwa [List.append_nil] at hnil
  have hcntlID : cntlID.toNat % 256 ^ 2 = cntlID.toNat := Nat.mod_eq_of_lt cntlID.toNat_lt
  simp only [unpack, hread h₁, hread h₂, hread h₃, hread h₄, Struc.readUint_append, Struc.some_bind]
  rw [hlast, Struc.some_bind, hcntlID, UInt16.ofNat_toNat]
  rfl

theorem Fits.unpack_record (h : connectData.Fits) :
    unpack connectData.record = some
      { hostID := connectData.hostID ++ List.replicate (16 - connectData.hostID.length) 0
        cntlID := connectData.cntlID
        subsysNqn := connectData.subsysNqn ++
          List.replicate (256 - connectData.subsysNqn.length) 0
        hostNqn := connectData.hostNqn ++
          List.replicate (256 - connectData.hostNqn.length) 0 } := by
  have hlen : ∀ {size : Nat} {s : List UInt8}, s.length ≤ size →
      (s ++ List.replicate (size - s.length) 0).length = size := by
    intro size s hs
    rw [List.length_append, List.length_replicate]
    omega
  rw [record, ConnectData.fields, List.flatMap_cons, List.flatMap_cons, List.flatMap_cons,
    List.flatMap_cons, List.flatMap_cons, List.flatMap_cons, List.flatMap_nil, List.append_nil]
  exact unpack_parts (hlen h.hostID) List.length_replicate (hlen h.subsysNqn) (hlen h.hostNqn)
    List.length_replicate

end ConnectData

/-- The client's list has room for the data, and no more. -/
theorem newAdminConnectRequest_eq (cmdID : UInt16) (kato : UInt32) {connectData : ConnectData}
    (h : connectData.Fits) :
    ∃ sgl, newAdminConnectRequest cmdID kato connectData = some ⟨connectCommand cmdID kato, sgl⟩ ∧
      sgl.copyOut = connectData.record := by
  have hpack : Struc.pack connectData.fields = some connectData.record :=
    Struc.pack_of_fits h.fields
  have hwrite := @ScatterListWriter.write_zeros { sgl := newScatterList 1024 1024 } []
    connectData.record 1024 (ScatterList.at_new (by decide)) h.record_length.le
  have hcopy := hwrite.1.copyOut
  rw [h.record_length, Nat.sub_self, List.replicate_zero, List.append_nil, List.nil_append] at hcopy
  exact ⟨_, by rw [newAdminConnectRequest, hpack]; rfl, hcopy⟩

theorem connectCapsule_eq (cmdID : UInt16) {hostnqn hostID : GoString}
    (h : (connectDataOf hostnqn hostID).Fits) :
    connectCapsule cmdID hostnqn hostID = some ((createTCPHeader true).record ++
      (connectCommand cmdID 0).pdu.bytes ++ (connectDataOf hostnqn hostID).record) := by
  have hhdr : Struc.pack (createTCPHeader true).fields = some (createTCPHeader true).record :=
    Struc.pack_of_fits (by simp [TCPHeaderType.fields, Struc.Field.Fits])
  have hcmd : Struc.pack (connectCommand cmdID 0).fields = some (connectCommand cmdID 0).pdu.bytes :=
    Struc.pack_of_fits (connectCommand cmdID 0).fits
  obtain ⟨sgl, hrequest, hcopy⟩ := newAdminConnectRequest_eq cmdID 0 h
  rw [connectCapsule, hrequest, Struc.some_bind, hhdr, Struc.some_bind, hcmd, Struc.some_bind, hcopy]
  rfl

/-- A longer string than its field leaves no room for what is reserved at the end: packing panics. -/
theorem fits_of_connectCapsule {cmdID : UInt16} {hostnqn hostID : GoString} {bytes : List UInt8}
    (h : connectCapsule cmdID hostnqn hostID = some bytes) : (connectDataOf hostnqn hostID).Fits := by
  obtain ⟨request, hrequest, -⟩ := Option.bind_eq_some_iff.mp h
  obtain ⟨buf, hpack, -⟩ := Option.bind_eq_some_iff.mp hrequest
  have hfits := @Struc.fits_of_pack ((connectDataOf hostnqn hostID).fields.take 5)
    (List.replicate 256 0) buf hpack
  have hstring : ∀ {size : Nat} {s : GoString},
      .string size s ∈ (connectDataOf hostnqn hostID).fields.take 5 → s.length ≤ size :=
    fun hmem => hfits _ hmem
  exact
    { hostID := hstring (List.mem_of_getElem? (i := 0) rfl)
      subsysNqn := hstring (List.mem_of_getElem? (i := 3) rfl)
      hostNqn := hstring (List.mem_of_getElem? (i := 4) rfl) }

theorem createTCPHeader_cmd (isConnect : Bool) : CmdHeader (createTCPHeader isConnect) := ⟨rfl, rfl⟩

section Accepted

variable {hostnqn hostID : GoString}

theorem connectDataOf_fits (hid : hostID.length ≤ 16) (hlen : hostnqn.length ≤ 256) :
    (connectDataOf hostnqn hostID).Fits := by
  have hname : discoverySubsysName.length ≤ 256 := by decide +kernel
  exact ⟨hid, hname, hlen⟩

theorem trimRightNul_of_last {s : GoString} (h : s.getLast? ≠ some 0) : trimRightNul s = s := by
  rw [trimRightNul, List.rdropWhile_eq_self_iff]
  intro hne hzero
  rw [List.getLast?_eq_some_getLast hne] at h
  exact h (congrArg some (eq_of_beq hzero))

/-- The names come out of their fields as they went in. -/
theorem trimmed_unpack_record (hid : hostID.length = 16) (hlen : hostnqn.length ≤ 256)
    (hnul : hostnqn.getLast? ≠ some 0) :
    (ConnectData.unpack (connectDataOf hostnqn hostID).record).map ConnectData.trimmed =
      some (connectDataOf hostnqn hostID) := by
  have hname : discoverySubsysName.getLast? ≠ some 0 := by decide +kernel
  rw [(connectDataOf_fits hid.le hlen).unpack_record, Option.map_some, ConnectData.trimmed]
  simp only [connectDataOf, trimRightNul_zeros, trimRightNul_of_last hnul,
    trimRightNul_of_last hname, hid, Nat.sub_self, List.replicate_zero, List.append_nil]

/-- A connect with such data is accepted, and its controller is the host's. -/
theorem connect_accepted {queue : NvmeQueue} {data : List UInt8} {sqSize : UInt16}
    (hdata : (ConnectData.unpack data).map ConnectData.trimmed = some (connectDataOf hostnqn hostID))
    (hid : hostID.length = 16) (hsqSize : sqSize ≠ 0) (commandID qID : UInt16) (kato : UInt32) :
    queue.connect commandID 0 qID sqSize kato data =
      ({ queue with qID, ctrl := some (newController queue.controllerID kato hostnqn) },
        (newCompletion commandID qID success).setResult queue.controllerID.toNat) := by
  obtain ⟨connectData, hunpack, htrimmed⟩ := Option.map_eq_some_iff.mp hdata
  have hhostID : connectData.hostID = hostID := congrArg ConnectData.hostID htrimmed
  have hcntlID : connectData.cntlID = 0xffff := congrArg ConnectData.cntlID htrimmed
  have hsubsys : trimRightNul connectData.subsysNqn = discoverySubsysName :=
    congrArg ConnectData.subsysNqn htrimmed
  have hhost : trimRightNul connectData.hostNqn = hostnqn := congrArg ConnectData.hostNqn htrimmed
  simp only [NvmeQueue.connect, hunpack, hsubsys, hhostID, hcntlID, hhost, hid, ne_eq,
    not_true_eq_false, if_false, hsqSize]

end Accepted

theorem receive_connect {server : Server} {capsule : Capsule} {recFmt qID sqSize : UInt16}
    {kato : UInt32} (hinit : server.queue.nvmetRequestInit capsule.pdu =
      .ok (.connect recFmt qID sqSize kato)) (hsgl : capsule.pdu.sglType = sglInline)
    (log : DiscoveryLog) :
    let connected := server.queue.connect capsule.pdu.commandID recFmt qID sqSize kato
      capsule.inlineData
    server.receive capsule log = { server with
      queue := connected.1
      received := server.received ++ [capsule.pdu]
      answers := server.answers ++ [⟨server.received.length, connected.2⟩] } := by
  intro connected
  rw [Server.receive_ok hinit, handleRequest_connect, if_pos hsgl]
  exact execute_eq (execute_connect ..)

/-- What the server has done when it has accepted the connect. -/
structure Accepts (server : Server) (cmdID : UInt16) (hostnqn : GoString) (server' : Server) :
    Prop where
  queue : server'.queue = { server.queue with
    qID := 0, ctrl := some (newController server.queue.controllerID 0 hostnqn) }
  answers : server'.answers = server.answers ++ [⟨server.received.length,
    (newCompletion cmdID 0 success).setResult server.queue.controllerID.toNat⟩]
  reader : server'.reader = server.reader

/-- What the client writes for a connect, and what the server makes of it on an unconnected queue: it
takes these bytes and no more, decodes the data as they were given, and accepts. -/
theorem connect_capsule_round_trip {hostnqn hostID : GoString} (hid : hostID.length = 16)
    (hlen : hostnqn.length ≤ 256) (hnul : hostnqn.getLast? ≠ some 0) {server : Server}
    (hctrl : server.queue.ctrl = none) (cmdID : UInt16) (read : Nat → Nat) (log : DiscoveryLog)
    (next : List UInt8) :
    ∃ (bytes : List UInt8) (pdu : Pdu) (data : List UInt8) (sgl filled : ScatterList)
      (pduLen : UInt32) (server' : Server),
      connectCapsule cmdID hostnqn hostID = some bytes ∧
      bytes = (createTCPHeader true).record ++ pdu.bytes ++ data ∧
      ((createTCPHeader true).record ++ pdu.bytes).length = (createTCPHeader true).hlen.toNat ∧
      bytes.length = (createTCPHeader true).plen.toNat ∧
      pdu.commandID = cmdID ∧
      server.queue.nvmetRequestInit pdu =
        .ok (.connect 0 0 (connectCommand cmdID 0).sqSize (connectCommand cmdID 0).kato) ∧
      server.queue.dataIn pdu = some (sgl, pduLen) ∧
      copyN read pduLen.toNat sgl (data ++ next) = .ok (filled, next) ∧
      (ConnectData.unpackSgl { sgl := filled }).map ConnectData.trimmed =
        some ⟨hostID, 0xffff, discoverySubsysName, hostnqn⟩ ∧
      server.turn read log (bytes ++ next) = .ok (server', next) ∧
      Accepts server cmdID hostnqn server' := by
  have hfits := connectDataOf_fits hid.le hlen
  have hdata := trimmed_unpack_record hid hlen hnul
  obtain ⟨capsule, hpdu, hinline⟩ : ∃ capsule : Capsule,
      capsule.pdu = (connectCommand cmdID 0).pdu ∧
      capsule.inlineData = (connectDataOf hostnqn hostID).record :=
    ⟨⟨_, _, hfits.record_length⟩, rfl, rfl⟩
  have hbytes := connectCapsule_eq cmdID hfits
  have hcommandID := ConnectCommand.pdu_commandID (connectCommand cmdID 0)
  have hsgl := sglType_connectCommand cmdID 0
  have hinit := nvmetRequestInit_connectCommand cmdID 0 hctrl
  have hdataIn := dataIn_connectCommand cmdID 0 hctrl
  rw [← hpdu] at hcommandID hsgl hinit hdataIn
  rw [← hpdu, ← hinline] at hbytes
  rw [← hinline] at hdata
  obtain ⟨filled, hcopy, hat⟩ := @copyN_eq read 8192 capsule.inlineData (by decide) next
  rw [capsule.length_eq] at hcopy
  have hturn := @turn_sent read server log _ (createTCPHeader_cmd true) capsule next
  rw [Capsule.sent, hdataIn] at hturn
  refine ⟨_, capsule.pdu, capsule.inlineData, _, filled, _, _, hbytes, rfl, ?_, ?_, hcommandID,
    hinit, hdataIn, hcopy, ?_, hturn, ?_⟩
  · rw [List.length_append, TCPHeaderType.record_length, capsule.pdu.length_eq]
    rfl
  · rw [List.length_append, List.length_append, TCPHeaderType.record_length, capsule.pdu.length_eq,
      capsule.length_eq]
    rfl
  · rw [ConnectData.unpackSgl_eq ⟨_, 0, hat, rfl⟩]
    exact hdata
  · rw [receive_connect hinit hsgl, hcommandID, connect_accepted hdata hid (by decide)]
    exact ⟨rfl, rfl, rfl⟩

/-- A new connection. -/
def unconnected : Server := { queue := { controllerID := 7 } }

def emptyLog : DiscoveryLog := ⟨[], 0, Nat.two_pow_pos 32⟩

/-- The data come in parts of a hundred bytes, and another header is behind them. -/
theorem connect_capsule_round_trip_parts :
    ∃ bytes server', connectCapsule 3 (ascii "nqn.h") (List.replicate 16 0xab) = some bytes ∧
      unconnected.turn (fun _ => 100) emptyLog (bytes ++ [4, 0, 72]) = .ok (server', [4, 0, 72]) ∧
      Accepts unconnected 3 (ascii "nqn.h") server' := by
  obtain ⟨bytes, -, -, -, -, -, server', hbytes, -, -, -, -, -, -, -, -, hturn, haccepts⟩ :=
    @connect_capsule_round_trip (ascii "nqn.h") (List.replicate 16 0xab) (by decide) (by decide)
      (by decide) unconnected rfl 3 (fun _ => 100) emptyLog [4, 0, 72]
  exact ⟨bytes, server', hbytes, hturn, haccepts⟩

end Nvme

end DiscoveryClient
