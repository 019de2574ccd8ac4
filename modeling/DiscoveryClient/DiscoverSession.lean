import DiscoveryClient.LogPageRetrieval
import DiscoveryClient.ServerExchange

/-! The client and the server on one connection: every command of `Discover` as bytes from the one to
the other, and every reply back. -/

namespace DiscoveryClient

open GoString

open Nvme

/-- What both sides do not decide: how a read cuts the stream, and what the log of the subsystem is
when the command of a number is executed. -/
structure Link where
  read : Nat → Nat
  logs : Nat → DiscoveryLog

/-- The server as the log page requests of one discovery see it, the first of them at time `base`. -/
def Link.server (link : Link) (base : Nat) : TcpQueue.Server :=
  fun n => execute (some (link.logs (base + n)))

/-- The two ends of a connection. -/
structure Session where
  server : Server
  commandID : UInt16 := 1
  outstanding : Outstanding := ∅

namespace Session

/-- The client reads what the TX loop writes. -/
def receive (s : Session) (completed : List CompletedRequest) : Session × List Request :=
  match recvLoop (completed.map (·.pduCount)).sum s.outstanding (pollResponseChannel completed) with
  | some (.ok (requests, outstanding, _)) => ({ s with outstanding }, requests)
  | _ => (s, [])

/-- The bytes of a command are sent after it was stored; the request that is then offered to its
sender. -/
def exchange (link : Link) (s : Session) (cmdID : UInt16) (command : QueueCommand)
    (bytes : List UInt8) : Session × Option Request :=
  let s := { s with outstanding := s.outstanding.insert cmdID ⟨command, none, none⟩ }
  if s.server.reader ≠ .reading then (s, none)
  else
    match s.server.serve link.read (link.logs s.server.received.length) bytes with
    | .error _ => (s, none)
    | .ok (server, _, completed) =>
      let (s, requests) := { s with server }.receive completed
      (s, requests.head?)

/-- Keep alive has an ID of its own. -/
def idFor (s : Session) (cmd : HostCommand) : UInt16 := if cmd = .keepAlive then 0 else s.commandID

def made (s : Session) (cmd : HostCommand) : Session :=
  { s with commandID := if cmd = .keepAlive then s.commandID else s.commandID + 1 }

@[irreducible] def request (link : Link) (s : Session) (cmd : HostCommand) :
    Session × Option Request :=
  match cmd.sendRequest (s.idFor cmd) with
  | none => (s.made cmd, none)
  | some bytes => (s.made cmd).exchange link (s.idFor cmd) cmd.command bytes

def sendConnectRequest (link : Link) (s : Session) (hostnqn hostID : GoString) :
    Session × Option Request :=
  match connectCapsule s.commandID hostnqn hostID with
  | none => (s, none)
  | some bytes => { s with commandID := s.commandID + 1 }.exchange link s.commandID .connect bytes

/-- Commands whose responses are dropped, one after the other; whether all of them were answered. -/
def sendAll (link : Link) : Session → List HostCommand → Session × Bool
  | s, [] => (s, true)
  | s, cmd :: cmds =>
    match s.request link cmd with
    | (s, none) => (s, false)
    | (s, some _) => sendAll link s cmds

def setControllerConfiguration (controllerConfigValue : UInt64) : List HostCommand :=
  [.propertySet regCc controllerConfigValue, .propertyGet regCsts]

def setProperties : List HostCommand :=
  .propertyGet regCap :: setControllerConfiguration 0x460001 ++
    [.propertyGet regVs, .propertyGet regCap]

def sendDiscLogPageRequest (link : Link) (s : Session) (size : UInt32) (offset : UInt64)
    (nsid : UInt32) (num : UInt64) :
    Session × Except LogPageError (UInt64 × UInt64 × List NvmefDiscRspPageEntry) :=
  let (s, response) := s.request link (.getLogPage size offset nsid)
  (s, TcpQueue.sendDiscLogPageRequest (fun _ => response.map Sender.reply) size offset num)

/-- The loop with pagination, for at most `fuel` rounds. -/
def getPages (link : Link) (numRec : UInt64) :
    Nat → Session → List NvmefDiscRspPageEntry →
      Session × Option (Except LogPageError (List NvmefDiscRspPageEntry))
  | 0, s, _ => (s, none)
  | fuel + 1, s, res =>
    if res.length < numRec.toNat then
      match s.sendDiscLogPageRequest link 4096 (.ofNat (res.length * 1024)) 0 numRec with
      | (s, .error err) => (s, some (.error err))
      | (s, .ok (_, _, entries)) => getPages link numRec fuel s (res ++ entries)
    else (s, some (.ok res))

def getEntries (link : Link) (logPagePaginationEnabled : Bool) (fuel : Nat) (s : Session)
    (numRec : UInt64) : Session × Option (Except LogPageError (List NvmefDiscRspPageEntry)) :=
  if logPagePaginationEnabled then s.getPages link numRec fuel []
  else
    let requestSize := 1024 + numRec.toUInt32 * 1024
    let (s, r) := s.sendDiscLogPageRequest link requestSize 0 0 numRec
    (s, some (r.map fun r => r.2.2))

def getLogPageEntries (link : Link) (logPagePaginationEnabled : Bool) (fuel : Nat) (s : Session) :
    Session × Option (Except LogPageError (List NvmefDiscRspPageEntry)) :=
  match s.sendDiscLogPageRequest link 1024 0 0xffffffff 0 with
  | (s, .error err) => (s, some (.error err))
  | (s, .ok (numRec, genCtr, _)) =>
    match s.getEntries link logPagePaginationEnabled fuel numRec with
    | (s, none) => (s, none)
    | (s, some (.error err)) => (s, some (.error err))
    | (s, some (.ok res)) =>
      if res.length ≠ numRec.toNat then (s, some (.error .numRec))
      else
        match s.sendDiscLogPageRequest link 1024 0 0 0 with
        | (s, .error err) => (s, some (.error err))
        | (s, .ok (_, newGenCtr, _)) =>
          if genCtr ≠ newGenCtr then (s, some (.error .genCtr)) else (s, some (.ok res))

end Session

/-- How `Discover` ends without entries once it is connected. -/
inductive DiscoverError
  | noReply
  | send (err : SendError)
  | logPage (err : LogPageError)
deriving DecidableEq

namespace Session

def sendIdentifyRequest (link : Link) (s : Session) : Session × Except DiscoverError Unit :=
  match s.request link .identify with
  | (s, none) => (s, .error .noReply)
  | (s, some completedRequest) =>
    match Sender.sendIdentifyRequest completedRequest with
    | some (.ok ()) => (s, .ok ())
    | some (.error err) => (s, .error (.send err))
    | none => (s, .error .noReply)

/-- `tcpClient.Discover` from the connect request to the log page. -/
def handshake (link : Link) (hostnqn hostID : GoString) (s : Session) :
    Session × Except DiscoverError Unit :=
  match s.sendConnectRequest link hostnqn hostID with
  | (s, none) => (s, .error .noReply)
  | (s, some _) =>
    match s.sendAll link setProperties with
    | (s, false) => (s, .error .noReply)
    | (s, true) =>
      match s.sendIdentifyRequest link with
      | (s, .error err) => (s, .error err)
      | (s, .ok ()) =>
        match s.sendAll link [.setFeatureAsyncEvent] with
        | (s, false) => (s, .error .noReply)
        | (s, true) => (s, .ok ())

/-- `tcpClient.Discover` on a new connection; `none` when the loop takes more than `fuel` rounds. -/
def discover (link : Link) (logPagePaginationEnabled : Bool) (fuel : Nat)
    (hostnqn hostID : GoString) (s : Session) :
    Session × Option (Except DiscoverError (List NvmeDiscPageEntry)) :=
  match s.handshake link hostnqn hostID with
  | (s, .error err) => (s, some (.error err))
  | (s, .ok ()) =>
    match s.getLogPageEntries link logPagePaginationEnabled fuel with
    | (s, none) => (s, none)
    | (s, some (.error err)) => (s, some (.error (.logPage err)))
    | (s, some (.ok entries)) => (s, some (.ok (entries.map discoverEntry)))

section Exchange

variable {s : Session} {link : Link} {c : CompletedRequest} {cmdID : UInt16} {command : QueueCommand}
  {bytes rest : List UInt8} {server : Server}

theorem receive_nil (s : Session) : s.receive [] = (s, []) := rfl

theorem receive_one {old : Request} (sendable : c.Sendable)
    (hold : s.outstanding.lookup c.commandID = some old) (hopen : old.completion = none) :
    s.receive [c] =
      ({ s with outstanding := s.outstanding.erase c.commandID }, [c.deliver old]) := by
  have hloop := @recvLoop_request c s.outstanding old sendable hold hopen 0 [] []
    (s.outstanding.erase c.commandID, []) rfl
  rw [receive, List.map_singleton, List.sum_singleton, pollResponseChannel, List.flatMap_singleton]
  rw [List.append_nil, Nat.add_zero] at hloop
  rw [hloop]

theorem exchange_answered (hreading : s.server.reader = .reading)
    (hserve : s.server.serve link.read (link.logs s.server.received.length) bytes =
      .ok (server, rest, [c])) (hid : c.commandID = cmdID) (sendable : c.Sendable) :
    s.exchange link cmdID command bytes =
      ({ s with server, outstanding := s.outstanding.erase cmdID },
        some (c.deliver ⟨command, none, none⟩)) := by
  subst hid
  have hone := @receive_one
    { s with server, outstanding := s.outstanding.insert c.commandID ⟨command, none, none⟩ } c
    ⟨command, none, none⟩ sendable (AList.lookup_insert _) rfl
  simp only [erase_insert] at hone
  simp only [exchange, hreading, ne_eq, not_true_eq_false, if_false, hserve, hone]
  rfl

theorem exchange_unanswered (hreading : s.server.reader = .reading)
    (hserve : s.server.serve link.read (link.logs s.server.received.length) bytes =
      .ok (server, rest, [])) :
    s.exchange link cmdID command bytes =
      ({ s with server, outstanding := s.outstanding.insert cmdID ⟨command, none, none⟩ }, none) := by
  simp only [exchange, hreading, ne_eq, not_true_eq_false, if_false, hserve, receive_nil]
  rfl

end Exchange

section Request

variable {s : Session} {link : Link} {ctrl ctrl' : NvmeController} {cmd : HostCommand}

/-- The log at the time of the session's next command. -/
def log (link : Link) (s : Session) : DiscoveryLog := link.logs s.server.received.length

/-- What a command that is executed gives the session. -/
theorem request_executed (hreading : s.server.reader = .reading)
    (hctrl : s.server.queue.ctrl = some ctrl)
    (hready : cmd.opcode = fabricsCommand ∨ ctrl.csts &&& cstsRdy ≠ 0) (hsmall : cmd.Small)
    {completion : Completion}
    (hexec : cmd.request.execute (s.log link) s.server.queue.qID
      ⟨s.server.received.length, s.idFor cmd⟩ ctrl = some (ctrl', some completion)) :
    s.request link cmd =
      ({ s.made cmd with
          server := s.server.executed (cmd.pdu (s.idFor cmd)) ctrl' (some completion)
          outstanding := s.outstanding.erase (s.idFor cmd) },
        some ((cmd.completed (s.log link) ctrl completion).deliver ⟨cmd.command, none, none⟩)) := by
  have hserve := @serve_command s.server ctrl ctrl' (s.log link) link.read (s.idFor cmd) cmd hctrl
    hready (some completion) hexec []
  rw [List.append_nil] at hserve
  have hid : (cmd.completed (s.log link) ctrl completion).commandID = s.idFor cmd := by
    obtain ⟨executed, -⟩ := AdminRequest.executed hexec
    generalize ctrl'.asyncEventPendingRequests = pending at executed
    cases executed with
    | answered hid => exact hid
  rw [request, cmd.sendRequest_eq]
  exact exchange_answered hreading hserve hid (completed_sendable hsmall hexec)

/-- A request that waits for an event is outstanding on both sides. -/
theorem request_waits (hreading : s.server.reader = .reading)
    (hctrl : s.server.queue.ctrl = some ctrl)
    (hready : cmd.opcode = fabricsCommand ∨ ctrl.csts &&& cstsRdy ≠ 0)
    (hexec : cmd.request.execute (s.log link) s.server.queue.qID
      ⟨s.server.received.length, s.idFor cmd⟩ ctrl = some (ctrl', none)) :
    s.request link cmd =
      ({ s.made cmd with
          server := s.server.executed (cmd.pdu (s.idFor cmd)) ctrl' none
          outstanding := s.outstanding.insert (s.idFor cmd) ⟨cmd.command, none, none⟩ }, none) := by
  have hserve := @serve_command s.server ctrl ctrl' (s.log link) link.read (s.idFor cmd) cmd hctrl
    hready none hexec []
  rw [List.append_nil] at hserve
  rw [request, cmd.sendRequest_eq]
  exact exchange_unanswered hreading hserve

/-- A request whose execution panics is never answered. -/
theorem request_panic (hreading : s.server.reader = .reading)
    (hctrl : s.server.queue.ctrl = some ctrl)
    (hready : cmd.opcode = fabricsCommand ∨ ctrl.csts &&& cstsRdy ≠ 0)
    (hexec : cmd.request.execute (s.log link) s.server.queue.qID
      ⟨s.server.received.length, s.idFor cmd⟩ ctrl = none) :
    (s.request link cmd).2 = none := by
  have hserve := @serve_panic s.server ctrl (s.log link) link.read (s.idFor cmd) cmd hctrl hready
    hexec []
  rw [List.append_nil] at hserve
  rw [request, cmd.sendRequest_eq]
  exact congrArg Prod.snd (@exchange_unanswered (s.made cmd) link (s.idFor cmd) cmd.command _ _ _
    hreading hserve)

end Request

/-- The client has nothing outstanding, and the server has a controller for it. -/
structure Connected (s : Session) (ctrl : NvmeController) : Prop where
  reading : s.server.reader = .reading
  ctrl : s.server.queue.ctrl = some ctrl
  idle : s.outstanding = ∅

section Connected

variable {s : Session} {link : Link} {ctrl ctrl' : NvmeController} {cmd : HostCommand}

theorem Connected.request (h : Connected s ctrl)
    (hready : cmd.opcode = fabricsCommand ∨ ctrl.csts &&& cstsRdy ≠ 0) (hsmall : cmd.Small)
    {completion : Completion}
    (hexec : cmd.request.execute (s.log link) s.server.queue.qID
      ⟨s.server.received.length, s.idFor cmd⟩ ctrl = some (ctrl', some completion)) :
    ∃ s', s.request link cmd =
        (s', some ((cmd.completed (s.log link) ctrl completion).deliver ⟨cmd.command, none, none⟩)) ∧
      Connected s' ctrl' ∧ s'.server.received.length = s.server.received.length + 1 := by
  have hidle : s.outstanding.erase (s.idFor cmd) = ∅ := by
    rw [h.idle]
    rfl
  refine ⟨_, request_executed h.reading h.ctrl hready hsmall hexec, ⟨h.reading, rfl, hidle⟩, ?_⟩
  simp [Server.executed]

theorem reply_deliver_data {c : CompletedRequest} (hneeds : c.needsDataOut = true) (old : Request) :
    Sender.reply (c.deliver old) = ⟨.success, some c.data⟩ := by
  have hstatus : c.completion.status = 0 := by
    simp only [CompletedRequest.needsDataOut, Bool.and_eq_true, decide_eq_true_eq] at hneeds
    exact hneeds.2
  simp [Sender.reply, Sender.status, CompletedRequest.deliver, hneeds, hstatus,
    (TcpQueue.recvData_eq c.data).1]

theorem reply_deliver_none {c : CompletedRequest} (hneeds : c.needsDataOut = false) {old : Request}
    (hdata : old.data = none) :
    Sender.reply (c.deliver old) =
      ⟨if c.completion.status = 0 then .success else .internal, none⟩ := by
  simp [Sender.reply, Sender.status, CompletedRequest.deliver, hneeds, hdata]

/-- The reply to a log page command as the client's reader sees it. -/
theorem reply_completed {size : UInt32} {offset : UInt64} {nsid : UInt32} {log : DiscoveryLog}
    {reply : Reply} {qID cmdID : UInt16} (command : QueueCommand)
    (hreply : execute (some log) (newNvmeGetDiscoveryLogPageRequest size offset) = some reply) :
    Sender.reply (((HostCommand.getLogPage size offset nsid).completed log ctrl
      (newCompletion cmdID qID (logPageStatus reply.status))).deliver ⟨command, none, none⟩) =
        reply := by
  obtain ⟨c, hc⟩ : ∃ c, c = (HostCommand.getLogPage size offset nsid).completed log ctrl
    (newCompletion cmdID qID (logPageStatus reply.status)) := ⟨_, rfl⟩
  have hlen : c.dataLen = (newNvmeGetDiscoveryLogPageRequest size offset).getLogPageLen := by
    rw [hc]
    rfl
  have hout : c.data = reply.data.getD [] := by
    simp only [hc, HostCommand.completed, HostCommand.request, AdminRequest.dataOut, hreply,
      Option.bind_some]
  have hwrite : c.isWrite = false := by
    rw [hc]
    rfl
  have hstatus : c.completion.status = logPageStatus reply.status <<< 1 := by
    rw [hc]
    rfl
  rw [← hc]
  clear hc
  rcases execute_some hreply with ⟨hne, ⟨data, rfl, -⟩ | rfl⟩ | ⟨hnone, rfl⟩
  · have hpos : 0 < c.dataLen := by
      rw [UInt32.lt_iff_toNat_lt, hlen]
      exact Nat.pos_of_ne_zero fun hnat => hne (UInt32.toNat_inj.mp hnat)
    have hneeds : c.needsDataOut = true := by
      simp [CompletedRequest.needsDataOut, hwrite, hpos, hstatus, logPageStatus, success]
    rw [reply_deliver_data hneeds, hout]
    rfl
  · have hfailed : ¬c.completion.status = 0 := by
      rw [hstatus]
      exact internal_status
    have hneeds : c.needsDataOut = false := by
      simp [CompletedRequest.needsDataOut, hfailed, success]
    rw [reply_deliver_none hneeds rfl, if_neg hfailed]
  · have hneeds : c.needsDataOut = false := by
      simp [CompletedRequest.needsDataOut, hlen, hnone]
    rw [reply_deliver_none hneeds rfl, if_pos (by rw [hstatus]; rfl)]

/-- A log page over the connection is the server's reply to the command, whatever the reply is. -/
theorem Connected.sendDiscLogPageRequest (h : Connected s ctrl) (hready : ctrl.csts &&& cstsRdy ≠ 0)
    {size : UInt32} (hsize : size.toNat + 24 < 2 ^ 32) (offset : UInt64) (nsid : UInt32)
    (num : UInt64) :
    ∃ s', s.sendDiscLogPageRequest link size offset nsid num =
        (s', TcpQueue.sendDiscLogPageRequest (execute (some (s.log link))) size offset num) ∧
      ∀ r, TcpQueue.sendDiscLogPageRequest (execute (some (s.log link))) size offset num = .ok r →
        Connected s' ctrl ∧ s'.server.received.length = s.server.received.length + 1 := by
  cases hreply : execute (some (s.log link)) (newNvmeGetDiscoveryLogPageRequest size offset) with
  | none =>
    have hpanic : (s.request link (.getLogPage size offset nsid)).2 = none :=
      request_panic h.reading h.ctrl (Or.inr hready)
        (AdminRequest.execute_eq_none_iff.mpr ⟨_, rfl, hreply⟩)
    have haborted := @TcpQueue.send_of_none (execute (some (s.log link))) size offset num hreply
    rcases hrequest : s.request link (.getLogPage size offset nsid) with ⟨s', response⟩
    rw [hrequest] at hpanic
    refine ⟨s', ?_, ?_⟩
    · simp only [Session.sendDiscLogPageRequest, hrequest, hpanic, haborted]
      rfl
    · intro r hr
      rw [haborted] at hr
      cases hr
  | some reply =>
    have hexec : (HostCommand.getLogPage size offset nsid).request.execute (s.log link)
        s.server.queue.qID ⟨s.server.received.length, s.idFor (.getLogPage size offset nsid)⟩ ctrl =
        some (ctrl, some (newCompletion (s.idFor (.getLogPage size offset nsid)) s.server.queue.qID
          (logPageStatus reply.status))) := by
      simp only [HostCommand.request, AdminRequest.execute, hreply, Option.map_some]
    have hsmall : (HostCommand.getLogPage size offset nsid).Small := hsize
    obtain ⟨s', hrequest, hconnected, hreceived⟩ := h.request (Or.inr hready) hsmall hexec
    refine ⟨s', ?_, fun _ _ => ⟨hconnected, hreceived⟩⟩
    simp only [Session.sendDiscLogPageRequest, hrequest, Option.map_some,
      TcpQueue.sendDiscLogPageRequest, hreply, reply_completed _ hreply]

theorem pageSize_room : (4096 : UInt32).toNat + 24 < 2 ^ 32 := by
  have h4096 : (4096 : UInt32).toNat = 4096 := rfl
  omega

theorem headerSize_room : (1024 : UInt32).toNat + 24 < 2 ^ 32 := by
  have h1024 : (1024 : UInt32).toNat = 1024 := rfl
  omega

/-- The pages over the connection are the pages that are asked of the server directly. -/
theorem Connected.getPages (hready : ctrl.csts &&& cstsRdy ≠ 0) {numRec : UInt64} {base n fuel : Nat}
    {res : List NvmefDiscRspPageEntry} (h : Connected s ctrl)
    (hn : s.server.received.length = base + n) :
    ∃ s', s.getPages link numRec fuel res =
        (s', (TcpQueue.getPages (link.server base) numRec fuel n res).map (·.map Prod.fst)) ∧
      ∀ res' n', TcpQueue.getPages (link.server base) numRec fuel n res = some (.ok (res', n')) →
        Connected s' ctrl ∧ s'.server.received.length = base + n' := by
  induction fuel generalizing s n res with
  | zero => exact ⟨s, rfl, fun res' n' heq => by cases heq⟩
  | succ fuel ih =>
    rw [Session.getPages, TcpQueue.getPages]
    by_cases hlt : res.length < numRec.toNat
    · rw [if_pos hlt, if_pos hlt]
      have hserver : execute (some (s.log link)) = link.server base n := by
        rw [Session.log, hn]
        rfl
      obtain ⟨s₁, hsend, hconnected⟩ := @Connected.sendDiscLogPageRequest s link ctrl h hready 4096
        pageSize_room (.ofNat (res.length * 1024)) 0 numRec
      rw [hserver] at hsend hconnected
      rw [hsend]
      cases hreply : TcpQueue.sendDiscLogPageRequest (link.server base n) 4096
          (.ofNat (res.length * 1024)) numRec with
      | error err => exact ⟨s₁, rfl, fun res' n' heq => by cases heq⟩
      | ok r =>
        obtain ⟨hnext, hlen⟩ := hconnected r hreply
        exact ih hnext (by omega)
    · rw [if_neg hlt, if_neg hlt]
      refine ⟨s, rfl, fun res' n' heq => ?_⟩
      cases heq
      exact ⟨h, hn⟩

theorem requestSize_room (numRec : UInt64) :
    (1024 + numRec.toUInt32 * 1024).toNat + 24 < 2 ^ 32 := by
  have h1024 : (1024 : UInt32).toNat = 1024 := rfl
  rw [UInt32.toNat_add, UInt32.toNat_mul, h1024]
  omega

theorem Connected.getEntries (h : Connected s ctrl) (hready : ctrl.csts &&& cstsRdy ≠ 0) {base : Nat}
    (hn : s.server.received.length = base + 1) (paginated : Bool) (fuel : Nat) (numRec : UInt64) :
    ∃ s', s.getEntries link paginated fuel numRec =
        (s', (TcpQueue.getEntries (link.server base) paginated fuel numRec).map (·.map Prod.fst)) ∧
      ∀ res' n', TcpQueue.getEntries (link.server base) paginated fuel numRec =
          some (.ok (res', n')) →
        Connected s' ctrl ∧ s'.server.received.length = base + n' := by
  cases paginated with
  | true => exact Connected.getPages hready h hn
  | false =>
    have hserver : execute (some (s.log link)) = link.server base 1 := by
      rw [Session.log, hn]
      rfl
    obtain ⟨s₁, hsend, hconnected⟩ := @Connected.sendDiscLogPageRequest s link ctrl h hready
      (1024 + numRec.toUInt32 * 1024) (requestSize_room numRec) 0 0 numRec
    rw [hserver] at hsend hconnected
    simp only [Session.getEntries, TcpQueue.getEntries, Bool.false_eq_true, if_false, hsend]
    cases hreply : TcpQueue.sendDiscLogPageRequest (link.server base 1)
        (1024 + numRec.toUInt32 * 1024) 0 numRec with
    | error err => exact ⟨s₁, rfl, fun res' n' heq => by cases heq⟩
    | ok r =>
      obtain ⟨hnext, hlen⟩ := hconnected r hreply
      refine ⟨s₁, rfl, fun res' n' heq => ?_⟩
      cases heq
      exact ⟨hnext, by omega⟩

/-- Reading the log over the connection is reading it from the server directly. -/
theorem Connected.getLogPageEntries (h : Connected s ctrl) (hready : ctrl.csts &&& cstsRdy ≠ 0)
    (paginated : Bool) (fuel : Nat) :
    ∃ s', s.getLogPageEntries link paginated fuel =
        (s', TcpQueue.getLogPageEntries (link.server s.server.received.length) paginated fuel) ∧
      ∀ entries, TcpQueue.getLogPageEntries (link.server s.server.received.length) paginated fuel =
        some (.ok entries) → Connected s' ctrl := by
  obtain ⟨base, hbase⟩ : ∃ base, base = s.server.received.length := ⟨_, rfl⟩
  have hserver : execute (some (s.log link)) = link.server base 0 := by
    rw [Session.log, ← hbase]
    rfl
  obtain ⟨s₁, hsend, hconnected⟩ := @Connected.sendDiscLogPageRequest s link ctrl h hready 1024
    headerSize_room 0 0xffffffff 0
  rw [hserver] at hsend hconnected
  rw [← hbase, Session.getLogPageEntries, TcpQueue.getLogPageEntries, hsend]
  cases hfirst : TcpQueue.sendDiscLogPageRequest (link.server base 0) 1024 0 0 with
  | error err => exact ⟨s₁, rfl, fun entries heq => by cases heq⟩
  | ok r =>
    obtain ⟨h₁, hlen₁⟩ := hconnected r hfirst
    obtain ⟨numRec, genCtr, headerEntries⟩ := r
    obtain ⟨s₂, hentries, hconnected₂⟩ := @Connected.getEntries s₁ link ctrl h₁ hready base (by omega)
      paginated fuel numRec
    simp only [hentries]
    cases hres : TcpQueue.getEntries (link.server base) paginated fuel numRec with
    | none => exact ⟨s₂, rfl, fun entries heq => by cases heq⟩
    | some found =>
      cases found with
      | error err => exact ⟨s₂, rfl, fun entries heq => by cases heq⟩
      | ok found =>
        obtain ⟨res, n⟩ := found
        obtain ⟨h₂, hlen₂⟩ := hconnected₂ res n hres
        simp only [Option.map_some, Except.map]
        by_cases hcount : res.length ≠ numRec.toNat
        · rw [if_pos hcount, if_pos hcount]
          exact ⟨s₂, rfl, fun entries heq => by cases heq⟩
        · rw [if_neg hcount, if_neg hcount]
          have hlast : execute (some (s₂.log link)) = link.server base n := by
            rw [Session.log, hlen₂]
            rfl
          obtain ⟨s₃, hsend₃, hconnected₃⟩ := @Connected.sendDiscLogPageRequest s₂ link ctrl h₂
            hready 1024 headerSize_room 0 0 0
          rw [hlast] at hsend₃ hconnected₃
          rw [hsend₃]
          cases hreply : TcpQueue.sendDiscLogPageRequest (link.server base n) 1024 0 0 with
          | error err => exact ⟨s₃, rfl, fun entries heq => by cases heq⟩
          | ok r =>
            have h₃ := (hconnected₃ r hreply).1
            by_cases hgen : genCtr ≠ r.2.1
            · exact ⟨s₃, by simp only [if_pos hgen], fun entries heq => by
                simp only [if_pos hgen] at heq
                cases heq⟩
            · exact ⟨s₃, by simp only [if_neg hgen], fun _ _ => h₃⟩

end Connected

/-- What a property command does to the controller. -/
def effect (ctrl : NvmeController) : HostCommand → NvmeController
  | .propertySet off val => (ctrl.propertySet 0 off val).1
  | _ => ctrl

theorem effect_propertySet_cc (ctrl : NvmeController) (value : UInt64) :
    effect ctrl (.propertySet regCc value) = ctrl.updateControllerConfiguration value.toUInt32 := by
  have hattrib : (0 : UInt8) &&& 1 = 0 := by decide
  simp only [effect, NvmeController.propertySet, hattrib, if_true]

/-- The client's configuration enables a controller that was disabled. -/
theorem effect_setProperties {ctrl : NvmeController} (hcc : ctrl.cc = 0) :
    setProperties.foldl effect ctrl = { ctrl with cc := 0x460001, csts := cstsRdy } := by
  have hvalue : (0x460001 : UInt64).toUInt32 = 0x460001 := by decide
  have hen : NvmeController.ccEn 0x460001 = true := by decide
  have hshn : NvmeController.ccShn 0x460001 = false := by decide
  have hen₀ : NvmeController.ccEn 0 = false := by decide
  have hshn₀ : NvmeController.ccShn 0 = false := by decide
  have hstart : ¬(NvmeController.ccIOSqes 0x460001 ≠ 6 ∨ NvmeController.ccIOCqes 0x460001 ≠ 4 ∨
      NvmeController.ccMps 0x460001 ≠ 0 ∨ NvmeController.ccAms 0x460001 ≠ 0 ∨
      NvmeController.ccCss 0x460001 ≠ 0) := by decide
  have hupdate : ctrl.updateControllerConfiguration 0x460001 =
      { ctrl with cc := 0x460001, csts := cstsRdy } := by
    simp [NvmeController.updateControllerConfiguration, NvmeController.start, hcc, hen, hshn, hen₀,
      hshn₀, hstart]
  calc setProperties.foldl effect ctrl
      = effect ctrl (.propertySet regCc 0x460001) := rfl
    _ = { ctrl with cc := 0x460001, csts := cstsRdy } := by
      rw [effect_propertySet_cc, hvalue, hupdate]

/-- The controller of a client that has set its properties and turned its events on. -/
def enabledController (controllerID : UInt16) (hostnqn : GoString) : NvmeController :=
  { newController controllerID 0 hostnqn with
    cc := 0x460001, csts := cstsRdy, aenBitEnabled := true }

section Handshake

variable {s : Session} {link : Link} {ctrl : NvmeController}

/-- Property commands are answered whether or not the controller is ready. -/
theorem Connected.sendAll {cmds : List HostCommand}
    (hcmds : ∀ cmd ∈ cmds, cmd.opcode = fabricsCommand) (h : Connected s ctrl) :
    ∃ s', s.sendAll link cmds = (s', true) ∧ Connected s' (cmds.foldl effect ctrl) ∧
      s'.server.received.length = s.server.received.length + cmds.length := by
  induction cmds generalizing s ctrl with
  | nil => exact ⟨s, rfl, h, rfl⟩
  | cons cmd cmds ih =>
    have hopcode := hcmds cmd (by simp)
    have hexec : ∃ completion, cmd.request.execute (s.log link) s.server.queue.qID
        ⟨s.server.received.length, s.idFor cmd⟩ ctrl = some (effect ctrl cmd, some completion) := by
      rcases HostCommand.property_of_opcode hopcode with ⟨off, val, rfl⟩ | ⟨propOff, rfl⟩
      · exact ⟨_, rfl⟩
      · exact ⟨_, rfl⟩
    have hsmall : cmd.Small := by
      rcases HostCommand.property_of_opcode hopcode with ⟨off, val, rfl⟩ | ⟨propOff, rfl⟩
      · trivial
      · trivial
    obtain ⟨completion, hexec⟩ := hexec
    obtain ⟨s₁, hrequest, h₁, hlen₁⟩ := h.request (Or.inl hopcode) hsmall hexec
    obtain ⟨s', hall, h', hlen'⟩ := @ih s₁ (effect ctrl cmd)
      (fun cmd hmem => hcmds cmd (by simp [hmem])) h₁
    refine ⟨s', ?_, h', ?_⟩
    · rw [Session.sendAll, hrequest]
      exact hall
    · rw [List.length_cons]
      omega

theorem Connected.sendIdentifyRequest (h : Connected s ctrl) (hready : ctrl.csts &&& cstsRdy ≠ 0) :
    ∃ s', s.sendIdentifyRequest link = (s', .ok ()) ∧ Connected s' ctrl ∧
      s'.server.received.length = s.server.received.length + 1 := by
  have hexec : HostCommand.identify.request.execute (s.log link) s.server.queue.qID
      ⟨s.server.received.length, s.idFor .identify⟩ ctrl =
      some (ctrl, some (newCompletion (s.idFor .identify) s.server.queue.qID success)) := rfl
  have hsmall : HostCommand.identify.Small := trivial
  obtain ⟨s', hrequest, hconnected, hlen⟩ := h.request (Or.inr hready) hsmall hexec
  obtain ⟨c, hc⟩ : ∃ c, c = HostCommand.identify.completed (s.log link) ctrl
    (newCompletion (s.idFor .identify) s.server.queue.qID success) := ⟨_, rfl⟩
  have hneeds : c.needsDataOut = true := by
    rw [hc]
    rfl
  have hdata : c.data = (idCtrl ctrl.controllerID).flatMap Struc.Field.bytes := by
    simp only [hc, HostCommand.completed, HostCommand.request, AdminRequest.dataOut,
      identifyData_eq, Option.getD_some]
  refine ⟨s', ?_, hconnected, hlen⟩
  rw [Session.sendIdentifyRequest, hrequest, ← hc]
  simp only [Sender.sendIdentifyRequest, CompletedRequest.deliver, hneeds, if_true]
  rw [(TcpQueue.recvData_eq c.data).1, hdata, recvIdentifyDataPdu_idCtrl]

theorem Connected.setFeature (h : Connected s ctrl) (hready : ctrl.csts &&& cstsRdy ≠ 0) :
    ∃ s', s.sendAll link [.setFeatureAsyncEvent] = (s', true) ∧
      Connected s' { ctrl with aenBitEnabled := true } ∧
      s'.server.received.length = s.server.received.length + 1 := by
  have hexec : ∃ completion, HostCommand.setFeatureAsyncEvent.request.execute (s.log link)
      s.server.queue.qID ⟨s.server.received.length, s.idFor .setFeatureAsyncEvent⟩ ctrl =
      some ({ ctrl with aenBitEnabled := true }, some completion) := ⟨_, rfl⟩
  obtain ⟨completion, hexec⟩ := hexec
  have hsmall : HostCommand.setFeatureAsyncEvent.Small := trivial
  obtain ⟨s', hrequest, hconnected, hlen⟩ := h.request (Or.inr hready) hsmall hexec
  refine ⟨s', ?_, hconnected, hlen⟩
  rw [Session.sendAll, hrequest]
  rfl

/-- What `Discover` makes of the entries. -/
def discovered (r : Except LogPageError (List NvmefDiscRspPageEntry)) :
    Except DiscoverError (List NvmeDiscPageEntry) :=
  (r.map (·.map discoverEntry)).mapError .logPage

theorem discover_of_handshake {s₁ s' : Session} {hostnqn hostID : GoString} {paginated : Bool}
    {fuel : Nat} {r : Option (Except LogPageError (List NvmefDiscRspPageEntry))}
    (hhandshake : s.handshake link hostnqn hostID = (s₁, .ok ()))
    (hlog : s₁.getLogPageEntries link paginated fuel = (s', r)) :
    s.discover link paginated fuel hostnqn hostID = (s', r.map discovered) := by
  rw [discover, hhandshake]
  simp only [hlog]
  cases r with
  | none => rfl
  | some r =>
    cases r with
    | error err => rfl
    | ok entries => rfl

section Fresh

variable {hostnqn hostID : GoString} (hid : hostID.length = 16) (hlen : hostnqn.length ≤ 256)
  (hnul : hostnqn.getLast? ≠ some 0) (hreading : s.server.reader = .reading)
  (hctrl : s.server.queue.ctrl = none) (hidle : s.outstanding = ∅)

include hid hlen hnul hreading hctrl hidle

theorem connect_connected :
    ∃ s' request, s.sendConnectRequest link hostnqn hostID = (s', some request) ∧
      Connected s' (newController s.server.queue.controllerID 0 hostnqn) ∧
      s'.server.received.length = s.server.received.length + 1 := by
  obtain ⟨bytes, hbytes, hserve⟩ := serve_connect hid hlen hnul hctrl s.commandID link.read
    (link.logs s.server.received.length)
  have sendable : CompletedRequest.Sendable
      ⟨true, 1024, [], acceptedCompletion s.commandID s.server.queue.controllerID⟩ :=
    ⟨(fun hneeds => by cases hneeds), (fun hneeds => by cases hneeds)⟩
  have hexchange := @exchange_answered { s with commandID := s.commandID + 1 } link _ s.commandID
    .connect bytes [] _ hreading hserve rfl sendable
  have hclear : s.outstanding.erase s.commandID = ∅ := by
    rw [hidle]
    rfl
  rw [sendConnectRequest, hbytes]
  refine ⟨_, _, hexchange, ⟨hreading, rfl, hclear⟩, ?_⟩
  simp [Server.connected]

/-- Every step of the handshake is answered, and the controller of the server is then enabled. -/
theorem handshake_enabled :
    ∃ s', s.handshake link hostnqn hostID = (s', .ok ()) ∧
      Connected s' (enabledController s.server.queue.controllerID hostnqn) ∧
      s'.server.received.length = s.server.received.length + 8 := by
  obtain ⟨s₁, request, hconnect, h₁, hlen₁⟩ := @connect_connected s link hostnqn hostID hid hlen
    hnul hreading hctrl hidle
  obtain ⟨s₂, hproperties, h₂, hlen₂⟩ := @Connected.sendAll s₁ link _ setProperties (by decide) h₁
  rw [effect_setProperties rfl] at h₂
  have hready : cstsRdy &&& cstsRdy ≠ 0 := by decide
  obtain ⟨s₃, hidentify, h₃, hlen₃⟩ := @Connected.sendIdentifyRequest s₂ link _ h₂ hready
  obtain ⟨s₄, hfeature, h₄, hlen₄⟩ := @Connected.setFeature s₃ link _ h₃ hready
  refine ⟨s₄, ?_, h₄, ?_⟩
  · simp only [handshake, hconnect, hproperties, hidentify, hfeature]
  · have hfive : setProperties.length = 5 := rfl
    omega

/-- A discovery over the byte stream is the request-level one: whatever the log is at each of its
commands, the eight commands of the handshake are answered and the ninth reads the first header. -/
theorem discover_over_stream (paginated : Bool) (fuel : Nat) :
    ∃ s', s.discover link paginated fuel hostnqn hostID =
        (s', (TcpQueue.getLogPageEntries (link.server (s.server.received.length + 8)) paginated
          fuel).map discovered) ∧
      ∀ entries, TcpQueue.getLogPageEntries (link.server (s.server.received.length + 8)) paginated
          fuel = some (.ok entries) →
        Connected s' (enabledController s.server.queue.controllerID hostnqn) := by
  obtain ⟨s₁, hhandshake, h₁, hlen₁⟩ := @handshake_enabled s link hostnqn hostID hid hlen hnul
    hreading hctrl hidle
  have hready : cstsRdy &&& cstsRdy ≠ 0 := by decide
  obtain ⟨s', hlog, hconnected⟩ := @Connected.getLogPageEntries s₁ link _ h₁ hready paginated fuel
  rw [hlen₁] at hlog hconnected
  exact ⟨s', discover_of_handshake hhandshake hlog, hconnected⟩

/-- While the log stays as it is, a discovery returns its entries, in order and in both modes. -/
theorem discover_returns_log {log : DiscoveryLog} (hlogs : link.logs = fun _ => log)
    (hN : log.entries.length + 1 < 2 ^ 22) (fits : ∀ e ∈ log.entries, e.Fits) (paginated : Bool)
    {fuel : Nat} (hfuel : log.entries.length < fuel) :
    ∃ s', s.discover link paginated fuel hostnqn hostID =
        (s', some (.ok (log.entries.map discoverEntry))) ∧
      Connected s' (enabledController s.server.queue.controllerID hostnqn) := by
  obtain ⟨s₁, hhandshake, h₁, hlen₁⟩ := @handshake_enabled s link hostnqn hostID hid hlen hnul
    hreading hctrl hidle
  have hready : cstsRdy &&& cstsRdy ≠ 0 := by decide
  obtain ⟨s', hlog, hconnected⟩ := @Connected.getLogPageEntries s₁ link _ h₁ hready paginated fuel
  have hserver : link.server s₁.server.received.length = fun _ => execute (some log) := by
    unfold Link.server
    rw [hlogs]
  have hfit := TcpQueue.getLogPageEntries_fit paginated hN hfuel fits
  rw [hserver, hfit] at hlog hconnected
  refine ⟨s', ?_, hconnected _ rfl⟩
  rw [discover_of_handshake hhandshake hlog]
  simp [discovered, Except.map, Except.mapError, NvmefDiscRspPageEntry.discoverEntry_onWire]

end Fresh

end Handshake

/-- A connection on which nothing was sent yet. -/
def fresh : Session := { server := unconnected }

theorem discover_over_stream_changing :
    ∃ s', fresh.discover ⟨fun _ => 100, fun n => if n < 10 then TcpQueue.sampleLog else emptyLog⟩ true 5
        (ascii "nqn.h") (List.replicate 16 7) =
      (s', (TcpQueue.getLogPageEntries
        (Link.server ⟨fun _ => 100, fun n => if n < 10 then TcpQueue.sampleLog else emptyLog⟩ 8) true 5).map
          discovered) :=
  (discover_over_stream (by decide) (by decide) (by decide) rfl rfl rfl true 5).imp fun _ h => h.1

end Session

end DiscoveryClient
