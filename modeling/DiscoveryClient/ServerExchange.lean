import DiscoveryClient.ServerReplies

/-! One command on the server: what is taken from the stream, and what the TX loop is given for it. -/

namespace DiscoveryClient

open GoString

/-- The writer stands in a list that has this many bytes. -/
def ScatterListWriter.Within (w : ScatterListWriter) (size : Nat) : Prop :=
  ∃ flat pos, w.sgl.At w.index w.offset flat pos ∧ flat.length = size

theorem ScatterListWriter.within_new {size bufferLen : Nat} (h : 0 < bufferLen) :
    ScatterListWriter.Within { sgl := newScatterList size bufferLen } size :=
  ⟨_, _, ScatterList.at_new h, List.length_replicate⟩

theorem ScatterListWriter.Within.write {w : ScatterListWriter} {size : Nat} (h : w.Within size)
    (p : List UInt8) : (w.write p).1.Within size := by
  obtain ⟨flat, pos, hat, hlen⟩ := h
  have hwritten := (w.write_spec hat p).1
  refine ⟨_, _, hwritten, ?_⟩
  rw [← hwritten.capacity]
  exact hat.capacity.trans hlen

theorem ScatterListWriter.Within.copyOut_length {w : ScatterListWriter} {size : Nat}
    (h : w.Within size) : w.sgl.copyOut.length = size := by
  obtain ⟨flat, pos, hat, hlen⟩ := h
  rw [hat.copyOut, hlen]

theorem writeEntries_within {entries : List NvmefDiscRspPageEntry} {w w' : ScatterListWriter}
    {size : Nat} (h : w.Within size) (hwrite : writeEntries w entries = some (.ok w')) :
    w'.Within size := by
  induction entries generalizing w with
  | nil =>
    cases hwrite
    exact h
  | cons entry entries ih =>
    rw [writeEntries] at hwrite
    split at hwrite
    next => cases hwrite
    next bytes _ =>
      have hwithin := h.write bytes
      split at hwrite
      next => simp at hwrite
      next w₁ _ hw =>
        rw [hw] at hwithin
        exact ih hwithin hwrite

theorem completed_within {entries : List NvmefDiscRspPageEntry} {w : ScatterListWriter} {size : Nat}
    (h : w.Within size) {reply : Reply} (hreply : (writeEntries w entries).map completed = some reply) :
    (∃ data, reply = ⟨.success, some data⟩ ∧ data.length = size) ∨ reply = ⟨.internal, none⟩ := by
  obtain ⟨written, hentries, rfl⟩ := Option.map_eq_some_iff.mp hreply
  cases written with
  | error err => exact .inr rfl
  | ok w' => exact .inl ⟨_, rfl, (writeEntries_within h hentries).copyOut_length⟩

/-- A log page is answered with data of the length that was asked for, or with an error, or, when no
data was asked for, with none. -/
theorem execute_some {log : DiscoveryLog} {cmd : GetLogPageCommand} {reply : Reply}
    (h : execute (some log) cmd = some reply) :
    (cmd.getLogPageLen ≠ 0 ∧ ((∃ data, reply = ⟨.success, some data⟩ ∧
        data.length = cmd.getLogPageLen.toNat) ∨ reply = ⟨.internal, none⟩)) ∨
      (cmd.getLogPageLen = 0 ∧ reply = ⟨.success, none⟩) := by
  have hnew := @ScatterListWriter.within_new cmd.getLogPageLen.toNat 8192 (by decide)
  have hmap : ∀ written : Option (Except SglError ScatterListWriter),
      (written >>= fun w => pure (completed w)) = written.map completed := by
    intro written
    cases written <;> rfl
  simp only [execute] at h
  generalize (if 0 < cmd.getLogPageOffset then cmd.getLogPageOffset - 1024
    else cmd.getLogPageOffset) = offset at h
  split at h
  next hlen =>
    split at h
    next => cases h
    next =>
      cases h
      exact .inr ⟨hlen, rfl⟩
  next hlen =>
    refine .inl ⟨hlen, ?_⟩
    split at h
    next =>
      obtain ⟨w, hheader, h⟩ := Option.bind_eq_some_iff.mp h
      have hw : w.Within cmd.getLogPageLen.toNat := by
        rw [writeHeader, DiscRspPageHdr.pack_eq, Struc.some_bind] at hheader
        cases Option.some.inj hheader
        exact hnew.write _
      rw [hmap] at h
      exact completed_within hw h
    next =>
      rw [Struc.some_bind, hmap] at h
      exact completed_within hnew h

namespace Nvme

def nvmetMaxCmd : Nat := 1024

/-- The fields of `IDCtrl` as `execute` of an identify request sets them; `SubNqn` is an array that
the name is copied to. -/
def idCtrl (cntlID : UInt16) : List Struc.Field :=
  -- VID, SSVID, Sn, Mn, Fr
  [.uint 2 0, .uint 2 0, .array (List.replicate 20 0), .array (List.replicate 40 0),
    .string 8 (ascii "12345678"),
    -- Rab, Ieee, Cmic, Mdts, CntlID, Ver, Rtd3r, Rtd3e, Oaes, CtrAtt, Rsvd100
    .uint 1 0, .array (List.replicate 3 0), .uint 1 0, .uint 1 0, .uint 2 cntlID.toNat,
    .uint 4 0x10300, .uint 4 0, .uint 4 0, .uint 4 nvmeAENCfgDiscChange.toNat, .uint 4 0,
    .array (List.replicate 156 0),
    -- Oacs, ACL, Arel, Frmw, Lpa, Elpe, Npss, Avscc, Apsta, Wctemp, Cctemp, Mtfa, Hmpre, Hmmin
    .uint 2 0, .uint 1 0, .uint 1 0, .uint 1 0, .uint 1 4, .uint 1 0, .uint 1 0, .uint 1 0,
    .uint 1 0, .uint 2 0, .uint 2 0, .uint 2 0, .uint 4 0, .uint 4 0,
    -- Tnvmcap, Unvmcap, Rpmbs, Edstt, Dsto, FwUg, Kas, Hctma, MntMt, MxtMt, Sancap, Hmminds, Hmmaxd
    .array (List.replicate 16 0), .array (List.replicate 16 0), .uint 4 0, .uint 2 0, .uint 1 0,
    .uint 1 0, .uint 2 0, .uint 2 0, .uint 2 0, .uint 2 0, .uint 4 0, .uint 4 0, .uint 2 0,
    -- Rsvd338, Anatt, AnaCap, AnaGrpMax, AnaGrpID, Rsvd352
    .array (List.replicate 4 0), .uint 1 0, .uint 1 0, .uint 4 0, .uint 4 0,
    .array (List.replicate 160 0),
    -- Sqes, Cqes, Maxcmd, Nn, Oncs, Fuses, Fna, Vwc, Awun, AwUpf, Nvscc, Nwpc, Acwu, Rsvd534
    .uint 1 0, .uint 1 0, .uint 2 nvmetMaxCmd, .uint 4 0, .uint 2 0, .uint 2 0, .uint 1 0, .uint 1 0,
    .uint 2 0, .uint 2 0, .uint 1 0, .uint 1 0, .uint 2 0, .array (List.replicate 2 0),
    -- Sgls, Mnan, Rsvd544
    .uint 4 (1 ||| 1 <<< 20), .uint 4 0, .array (List.replicate 224 0),
    .array (discoverySubsysName ++ List.replicate (256 - discoverySubsysName.length) 0),
    -- Rsvd1024, Ioccsz, Iorcsz, IodOff, CtrlAttr, Msdbd, Rsvd1804, Psd, VS
    .array (List.replicate 768 0), .uint 4 0, .uint 4 0, .uint 2 0, .uint 1 0, .uint 1 0,
    .array (List.replicate 244 0), .array (List.replicate 1024 0), .array (List.replicate 1024 0)]

/-- What the list of an identify request holds after `execute`; `none` when packing panics. -/
def identifyData (ctrl : NvmeController) : Option (List UInt8) := do
  let bytes ← Struc.pack (idCtrl ctrl.controllerID)
  let w : ScatterListWriter := { sgl := newScatterList 4096 8192 }
  return (w.write bytes).1.sgl.copyOut

/-- What the list of a request holds when it is completed with success. -/
def AdminRequest.dataOut (log : DiscoveryLog) (ctrl : NvmeController) : AdminRequest → List UInt8
  | .identify => (identifyData ctrl).getD []
  | .getLogPage cmd => ((DiscoveryClient.execute (some log) cmd).bind (·.data)).getD []
  | _ => []

/-- `CommonRequest.isWrite`, of a command that was not parsed. -/
def Pdu.isWrite (pdu : Pdu) : Bool :=
  if pdu.opcode = fabricsCommand then pdu.fcType &&& 1 ≠ 0 else pdu.opcode &&& 1 ≠ 0

/-- A command with its completion as the TX loop gets it. What a write has in its list came from the
client, and is not sent back. -/
def NvmeQueue.completed (queue : NvmeQueue) (log : DiscoveryLog) (pdu : Pdu)
    (completion : Completion) : CompletedRequest :=
  match queue.nvmetRequestInit pdu, queue.ctrl with
  | .error _, _ => { isWrite := pdu.isWrite, dataLen := 0, data := [], completion }
  | .ok (.admin request), some ctrl =>
    { isWrite := false
      dataLen := NvmeRequest.dataLen (.admin request)
      data := request.dataOut log ctrl
      completion }
  | .ok request, _ =>
    { isWrite := request.isWrite, dataLen := request.dataLen, data := [], completion }

/-- One turn of the receive loop, with the requests that the TX loop is given in it. -/
def Server.serve (read : Nat → Nat) (log : DiscoveryLog) (server : Server) (stream : List UInt8) :
    Except StreamError (Server × List UInt8 × List CompletedRequest) :=
  (server.turn read log stream).map fun (server', rest) =>
    (server', rest, (server'.answers.drop server.answers.length).filterMap fun answer =>
      server'.received[answer.seq]?.map fun pdu => server.queue.completed log pdu answer.completion)

section Identify

variable (cntlID : UInt16)

theorem idCtrl_fits : ∀ f ∈ idCtrl cntlID, f.Fits := by
  have hall : (idCtrl cntlID).all (fun f => decide f.Fits) = true := rfl
  simpa only [List.all_eq_true, decide_eq_true_eq] using hall

/-- The fields before the name of the subsystem. -/
theorem idCtrl_sizeof_take : Struc.sizeof ((idCtrl cntlID).take 66) = 768 := by
  simp [idCtrl, Struc.sizeof, Struc.Field.size, -List.reduceReplicate]

theorem idCtrl_length : ((idCtrl cntlID).flatMap Struc.Field.bytes).length = 4096 := by
  have hname : discoverySubsysName.length ≤ 256 := by decide +kernel
  have hrest : Struc.sizeof ((idCtrl cntlID).drop 66) = 3328 := by
    simp [idCtrl, Struc.sizeof, Struc.Field.size, -List.reduceReplicate]
    omega
  rw [Struc.flatMap_bytes_length (idCtrl_fits cntlID), ← List.take_append_drop 66 (idCtrl cntlID),
    Struc.sizeof_append, idCtrl_sizeof_take, hrest]

theorem identifyData_eq (ctrl : NvmeController) :
    identifyData ctrl = some ((idCtrl ctrl.controllerID).flatMap Struc.Field.bytes) := by
  have hlen := idCtrl_length ctrl.controllerID
  obtain ⟨bytes, hbytes⟩ : ∃ bytes, bytes = (idCtrl ctrl.controllerID).flatMap Struc.Field.bytes :=
    ⟨_, rfl⟩
  rw [← hbytes] at hlen ⊢
  have hpack : Struc.pack (idCtrl ctrl.controllerID) = some bytes := by
    rw [hbytes]
    exact Struc.pack_of_fits (idCtrl_fits ctrl.controllerID)
  have hwrite := @ScatterListWriter.write_zeros { sgl := newScatterList 4096 8192 } [] bytes 4096
    (ScatterList.at_new (by decide)) hlen.le
  have hcopy := hwrite.1.copyOut
  rw [hlen, Nat.sub_self, List.replicate_zero, List.append_nil, List.nil_append] at hcopy
  rw [identifyData, hpack, Struc.some_bind]
  exact congrArg some hcopy

/-- The client finds the name of the discovery subsystem where it looks for it. -/
theorem recvIdentifyDataPdu_idCtrl :
    recvIdentifyDataPdu ((idCtrl cntlID).flatMap Struc.Field.bytes) = .ok () := by
  have hlen := idCtrl_length cntlID
  have hdrop := @Struc.drop_sizeof (idCtrl cntlID) (idCtrl_fits cntlID) 66 _ rfl
  rw [idCtrl_sizeof_take] at hdrop
  have hname : discoverySubsysName.length ≤ 256 := by decide +kernel
  have hlast : discoverySubsysName.getLast? ≠ some 0 := by decide +kernel
  have hfield : (Struc.Field.array (discoverySubsysName ++
      List.replicate (256 - discoverySubsysName.length) 0)).bytes.length = 256 := by
    rw [Struc.Field.bytes, List.length_append, List.length_replicate]
    omega
  rw [recvIdentifyDataPdu, IDCtrl.unpack_of_le hlen.ge]
  simp only [hdrop]
  have hsame : discoverySubsysName = nvmeDiscSubsysName := rfl
  rw [List.take_left' hfield, Struc.Field.bytes, trimRightNul_zeros, trimRightNul_of_last hlast,
    if_neg (not_not.mpr hsame)]

end Identify

section Serve

variable {server : Server} {ctrl ctrl' : NvmeController} {log : DiscoveryLog} {read : Nat → Nat}
  {cmdID : UInt16} {cmd : HostCommand}

/-- The request of a command that is parsed is executed. -/
theorem receive_command {capsule : Capsule} (hpdu : capsule.pdu = cmd.pdu cmdID)
    (hctrl : server.queue.ctrl = some ctrl)
    (hready : cmd.opcode = fabricsCommand ∨ ctrl.csts &&& cstsRdy ≠ 0) :
    server.receive capsule log = (server.takeIn capsule.pdu).execute server.received.length capsule
      log (.admin cmd.request) := by
  have hinit := cmd.init_connected cmdID hctrl
  rw [if_pos hready, ← hpdu] at hinit
  have hsgl : ¬(NvmeRequest.dataLen (.admin cmd.request) ≠ 0 ∧ capsule.pdu.sglType = sglInline) := by
    rw [hpdu]
    exact fun h => cmd.pdu_sglType cmdID h.1 h.2
  rw [Server.receive_ok hinit, handleRequest_admin, if_neg hsgl]

/-- A request of the client as the TX loop gets it. -/
def HostCommand.completed (cmd : HostCommand) (log : DiscoveryLog) (ctrl : NvmeController)
    (completion : Completion) : CompletedRequest where
  isWrite := false
  dataLen := NvmeRequest.dataLen (.admin cmd.request)
  data := cmd.request.dataOut log ctrl
  completion

/-- The server once it has executed the command. -/
def Server.executed (server : Server) (pdu : Pdu) (ctrl : NvmeController)
    (completion : Option Completion) : Server :=
  { server with
    queue := { server.queue with ctrl := some ctrl }
    received := server.received ++ [pdu]
    answers := server.answers ++ completion.toList.map (Answer.mk server.received.length) }

theorem receive_executed {capsule : Capsule} (hpdu : capsule.pdu = cmd.pdu cmdID)
    (hctrl : server.queue.ctrl = some ctrl)
    (hready : cmd.opcode = fabricsCommand ∨ ctrl.csts &&& cstsRdy ≠ 0)
    {completion : Option Completion}
    (hexec : cmd.request.execute log server.queue.qID ⟨server.received.length, cmdID⟩ ctrl =
      some (ctrl', completion)) :
    server.receive capsule log = server.executed capsule.pdu ctrl' completion := by
  have hid : capsule.pdu.commandID = cmdID := by rw [hpdu, cmd.pdu_commandID]
  have hqueue : (server.takeIn capsule.pdu).queue.execute log
      ⟨server.received.length, capsule.pdu.commandID⟩ capsule.inlineData (.admin cmd.request) =
      some ({ server.queue with ctrl := some ctrl' }, completion) := by
    rw [hid]
    simp only [NvmeQueue.execute, Server.takeIn, hctrl, hexec]
    rfl
  rw [receive_command hpdu hctrl hready, execute_eq hqueue]
  rfl

theorem serve_command (hctrl : server.queue.ctrl = some ctrl)
    (hready : cmd.opcode = fabricsCommand ∨ ctrl.csts &&& cstsRdy ≠ 0)
    {completion : Option Completion}
    (hexec : cmd.request.execute log server.queue.qID ⟨server.received.length, cmdID⟩ ctrl =
      some (ctrl', completion)) (next : List UInt8) :
    server.serve read log ((createTCPHeader false).record ++ (cmd.pdu cmdID).bytes ++ next) =
      .ok (server.executed (cmd.pdu cmdID) ctrl' completion, next,
        completion.toList.map (cmd.completed log ctrl)) := by
  obtain ⟨capsule, hcapsule, hpdu⟩ : ∃ capsule : Capsule,
      capsule = .ofData (cmd.pdu cmdID) [] ∧ capsule.pdu = cmd.pdu cmdID := ⟨_, rfl, rfl⟩
  have hinit := cmd.init_connected cmdID hctrl
  rw [if_pos hready] at hinit
  rw [Server.serve, cmd.turn_pdu, ← hcapsule, receive_executed hpdu hctrl hready hexec, hpdu]
  simp only [Except.map, Server.executed, List.drop_left]
  cases completion with
  | none => rfl
  | some completion => simp [NvmeQueue.completed, hinit, hctrl, HostCommand.completed]

/-- A request whose execution panics is not answered. -/
theorem serve_panic (hctrl : server.queue.ctrl = some ctrl)
    (hready : cmd.opcode = fabricsCommand ∨ ctrl.csts &&& cstsRdy ≠ 0)
    (hexec : cmd.request.execute log server.queue.qID ⟨server.received.length, cmdID⟩ ctrl = none)
    (next : List UInt8) :
    server.serve read log ((createTCPHeader false).record ++ (cmd.pdu cmdID).bytes ++ next) =
      .ok ({ server.takeIn (cmd.pdu cmdID) with reader := .panicked }, next, []) := by
  obtain ⟨capsule, hcapsule, hpdu⟩ : ∃ capsule : Capsule,
      capsule = .ofData (cmd.pdu cmdID) [] ∧ capsule.pdu = cmd.pdu cmdID := ⟨_, rfl, rfl⟩
  have hid : capsule.pdu.commandID = cmdID := by rw [hpdu, cmd.pdu_commandID]
  have hqueue : (server.takeIn capsule.pdu).queue.execute log
      ⟨server.received.length, capsule.pdu.commandID⟩ capsule.inlineData (.admin cmd.request) =
      none := by
    rw [hid]
    simp only [NvmeQueue.execute, Server.takeIn, hctrl, hexec, Option.map_none]
  rw [Server.serve, cmd.turn_pdu, ← hcapsule, receive_command hpdu hctrl hready, Server.execute,
    hqueue, hpdu]
  simp [Except.map, Server.takeIn]

end Serve

section Connect

variable {server : Server} {hostnqn hostID : GoString}

/-- The completion of a connect that is accepted. -/
def acceptedCompletion (cmdID controllerID : UInt16) : Completion :=
  (newCompletion cmdID 0 success).setResult controllerID.toNat

/-- The server once it has accepted a connect: the controller is the host's. -/
def Server.connected (server : Server) (pdu : Pdu) (cmdID : UInt16) (hostnqn : GoString) : Server :=
  { server with
    queue := { server.queue with
      qID := 0, ctrl := some (newController server.queue.controllerID 0 hostnqn) }
    received := server.received ++ [pdu]
    answers := server.answers ++
      [⟨server.received.length, acceptedCompletion cmdID server.queue.controllerID⟩] }

theorem serve_connect (hid : hostID.length = 16) (hlen : hostnqn.length ≤ 256)
    (hnul : hostnqn.getLast? ≠ some 0) (hctrl : server.queue.ctrl = none) (cmdID : UInt16)
    (read : Nat → Nat) (log : DiscoveryLog) :
    ∃ bytes, connectCapsule cmdID hostnqn hostID = some bytes ∧
      server.serve read log bytes =
        .ok (server.connected (connectCommand cmdID 0).pdu cmdID hostnqn, [],
          [⟨true, 1024, [], acceptedCompletion cmdID server.queue.controllerID⟩]) := by
  have hfits := connectDataOf_fits hid.le hlen
  have hdata := trimmed_unpack_record hid hlen hnul
  obtain ⟨capsule, hpdu, hinline⟩ : ∃ capsule : Capsule,
      capsule.pdu = (connectCommand cmdID 0).pdu ∧
      capsule.inlineData = (connectDataOf hostnqn hostID).record :=
    ⟨⟨_, _, hfits.record_length⟩, rfl, rfl⟩
  have hcommandID := ConnectCommand.pdu_commandID (connectCommand cmdID 0)
  have hsgl := sglType_connectCommand cmdID 0
  have hinit := nvmetRequestInit_connectCommand cmdID 0 hctrl
  have hdataIn := dataIn_connectCommand cmdID 0 hctrl
  rw [← hpdu] at hcommandID hsgl hinit hdataIn
  have hturn := @turn_sent read server log _ (createTCPHeader_cmd true) capsule []
  rw [Capsule.sent, hdataIn, List.append_nil, receive_connect hinit hsgl log, hinline,
    connect_accepted hdata hid (by decide), hcommandID, hpdu] at hturn
  rw [hpdu] at hinit
  have hcommand : (connectCommand cmdID 0).commandID = cmdID := rfl
  rw [hcommand] at hturn
  simp only [Option.isSome_some, if_true, ← hpdu] at hturn
  refine ⟨_, connectCapsule_eq cmdID hfits, ?_⟩
  rw [Server.serve, ← hpdu, hturn]
  simp [Except.map, Server.connected, NvmeQueue.completed, hinit, hctrl, hpdu, NvmeRequest.isWrite,
    NvmeRequest.dataLen, acceptedCompletion]

end Connect

/-- The PDU that the command asks for has a length of 32 bits. -/
def HostCommand.Small : HostCommand → Prop
  | .getLogPage size _ _ => size.toNat + 24 < 2 ^ 32
  | _ => True

theorem internal_status : logPageStatus .internal <<< 1 ≠ success := by decide

section Completed

variable {ctrl ctrl' : NvmeController} {log : DiscoveryLog} {cmd : HostCommand} {qID : UInt16}
  {id : AsyncEventRequest} {completion : Completion}

theorem completed_sendable (hsmall : cmd.Small)
    (hexec : cmd.request.execute log qID id ctrl = some (ctrl', some completion)) :
    (cmd.completed log ctrl completion).Sendable := by
  cases cmd with
  | identify =>
    have hlen : (HostCommand.identify.completed log ctrl completion).data.length = 4096 := by
      simp only [HostCommand.completed, HostCommand.request, AdminRequest.dataOut, identifyData_eq,
        Option.getD_some, idCtrl_length]
    have hdataLen : (HostCommand.identify.completed log ctrl completion).dataLen.toNat = 4096 := rfl
    exact ⟨fun _ => hlen.trans hdataLen.symm, fun _ => by rw [hdataLen]; decide⟩
  | getLogPage size offset nsid =>
    have hpage := getLogPageLen_new size offset
    have hsize : size.toNat + 24 < 2 ^ 32 := hsmall
    obtain ⟨reply, hreply, hcompletion⟩ := Option.map_eq_some_iff.mp hexec
    cases hcompletion
    refine ⟨fun hneeds => ?_, fun _ => ?_⟩
    · change (((DiscoveryClient.execute (some log)
        (newNvmeGetDiscoveryLogPageRequest size offset)).bind (·.data)).getD []).length =
          (newNvmeGetDiscoveryLogPageRequest size offset).getLogPageLen.toNat
      rw [hreply]
      rcases execute_some hreply with ⟨-, ⟨data, rfl, hlen⟩ | rfl⟩ | ⟨hzero, rfl⟩
      · exact hlen
      · simp only [CompletedRequest.needsDataOut, Bool.and_eq_true, decide_eq_true_eq] at hneeds
        exact absurd hneeds.2 internal_status
      · rw [hzero]
        rfl
    · change (newNvmeGetDiscoveryLogPageRequest size offset).getLogPageLen.toNat + 24 < 2 ^ 32
      omega
  | propertySet | propertyGet | setFeatureAsyncEvent | setFeatureKato | asyncEvent | keepAlive =>
    have hno : ∀ completion, ¬CompletedRequest.needsDataOut ⟨false, 0, [], completion⟩ = true := by
      simp [CompletedRequest.needsDataOut]
    exact ⟨fun h => absurd h (hno completion), fun h => absurd h (hno completion)⟩

end Completed

end Nvme

end DiscoveryClient
