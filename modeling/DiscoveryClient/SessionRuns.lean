import DiscoveryClient.DiscoverSession

/-! A connection from its handshake on: the commands of the client in any order, and the events of
the server between them. -/

namespace DiscoveryClient

open GoString

open Nvme

section Refused

variable {server : Server} {ctrl : NvmeController} {log : DiscoveryLog} {read : Nat → Nat}
  {cmdID : UInt16} {cmd : HostCommand}

/-- A command that needs a ready controller ends the receive loop when it finds another. -/
theorem Nvme.serve_refused (hctrl : server.queue.ctrl = some ctrl)
    (hready : ¬(cmd.opcode = fabricsCommand ∨ ctrl.csts &&& cstsRdy ≠ 0)) (next : List UInt8) :
    ∃ server' completed,
      server.serve read log ((createTCPHeader false).record ++ (cmd.pdu cmdID).bytes ++ next) =
        .ok (server', next, completed) ∧ server'.reader ≠ .reading := by
  obtain ⟨capsule, hcapsule, hpdu⟩ : ∃ capsule : Capsule,
      capsule = .ofData (cmd.pdu cmdID) [] ∧ capsule.pdu = cmd.pdu cmdID := ⟨_, rfl, rfl⟩
  have hinit := cmd.init_connected cmdID hctrl
  rw [if_neg hready, ← hpdu] at hinit
  have hclosed : (server.receive capsule log).reader ≠ .reading := by
    have hstatus : ∀ id sqID, (newCompletion id sqID (InitError.parser
        (.notReady cmd.opcode server.queue.qID)).status).status = (invalidOpcode ||| dnr) <<< 1 :=
      fun _ _ => rfl
    have hpage : ¬((invalidOpcode ||| dnr) <<< 1) >>> 1 &&& invalidLogPage = invalidLogPage := by decide
    simp only [Server.receive, Server.takeIn, hinit, hstatus, if_neg hpage]
    exact fun h => by cases h
  rw [Server.serve, cmd.turn_pdu, ← hcapsule]
  exact ⟨_, _, rfl, hclosed⟩

end Refused

namespace Session

/-- `NotifyAsyncEvent` after a change of the log, with the turn of `handleAENEvents` that takes the
event and what the client then reads. -/
def notifyAsyncEvent (s : Session) (ctrl : NvmeController) : Session × List Request :=
  if ctrl.aenBitEnabled then
    let completed := (ctrl.handleAENEvent s.server.queue.qID).2.toList.map fun answered =>
      CompletedRequest.mk false 0 [] answered.2
    { s with server := s.server.handleAENEvent ctrl }.receive completed
  else (s, [])

theorem receive_server (s : Session) (completed : List CompletedRequest) :
    (s.receive completed).1.server = s.server := by
  unfold receive
  split
  next => rfl
  next => rfl

theorem request_server {s : Session} {link : Link} {cmd : HostCommand} {server' : Server}
    {completed : List CompletedRequest} (hreading : s.server.reader = .reading)
    (hserve : s.server.serve link.read (s.log link)
      ((createTCPHeader false).record ++ (cmd.pdu (s.idFor cmd)).bytes ++ []) =
        .ok (server', [], completed)) :
    (s.request link cmd).1.server = server' := by
  rw [List.append_nil] at hserve
  have hmade : s.made cmd = { s with commandID := (s.made cmd).commandID } := rfl
  rw [request, cmd.sendRequest_eq, hmade]
  simp only [exchange, hreading, ne_eq, not_true_eq_false, if_false]
  rw [Session.log] at hserve
  simp only [hserve]
  exact receive_server _ _

/-- The oldest request that waits is answered, and offered to its sender. -/
theorem notify_answered {s : Session} {ctrl : NvmeController} {request : AsyncEventRequest}
    {rest : List AsyncEventRequest} {old : Request} (henabled : ctrl.aenBitEnabled = true)
    (hrequests : ctrl.asyncEventPendingRequests = request :: rest)
    (hold : s.outstanding.lookup request.commandID = some old) (hopen : old.completion = none) :
    ∃ s' completion, completion.commandID = request.commandID ∧
      s.notifyAsyncEvent ctrl = (s', [⟨old.command, old.data, some completion⟩]) ∧
      s'.server.reader = s.server.reader ∧
      s'.server.queue.ctrl = some { ctrl with asyncEventPendingRequests := rest } ∧
      s'.outstanding = s.outstanding.erase request.commandID := by
  obtain ⟨completion, hcompletion⟩ : ∃ completion, completion =
    (newCompletion request.commandID s.server.queue.qID success).setResult
      NvmeController.discChangedResult := ⟨_, rfl⟩
  have hid : completion.commandID = request.commandID := by
    rw [hcompletion]
    rfl
  have hevent : ctrl.handleAENEvent s.server.queue.qID =
      ({ ctrl with asyncEventPendingRequests := rest }, some (request, completion)) := by
    rw [NvmeController.handleAENEvent, hrequests, hcompletion]
  have sendable : (CompletedRequest.mk false 0 [] completion).Sendable :=
    ⟨(fun hneeds => by cases hneeds), (fun hneeds => by cases hneeds)⟩
  have hold' : s.outstanding.lookup (CompletedRequest.mk false 0 [] completion).commandID =
      some old := by
    rw [CompletedRequest.commandID, hid]
    exact hold
  have hreceive := @receive_one { s with server := s.server.handleAENEvent ctrl } _ old sendable
    hold' hopen
  have hnotify : s.notifyAsyncEvent ctrl =
      { s with server := s.server.handleAENEvent ctrl }.receive [.mk false 0 [] completion] := by
    rw [notifyAsyncEvent, if_pos henabled, hevent]
    rfl
  rw [hnotify, hreceive]
  refine ⟨_, completion, hid, rfl, ?_, ?_, congrArg (s.outstanding.erase ·) hid⟩
  · simp only [Server.handleAENEvent, hevent, Server.completeRequest]
  · simp only [Server.handleAENEvent, hevent, Server.completeRequest]

end Session

instance (cmd : HostCommand) : Decidable cmd.Small :=
  match cmd with
  | .getLogPage size _ _ => inferInstanceAs (Decidable (size.toNat + 24 < 2 ^ 32))
  | .propertySet .. | .propertyGet _ | .identify | .setFeatureAsyncEvent | .setFeatureKato _
  | .asyncEvent | .keepAlive => .isTrue trivial

/-- A connection, the commands that were issued on it with their IDs, and the requests that were
offered to their senders. -/
structure Conversation where
  session : Session
  issued : List (UInt16 × QueueCommand) := []
  offered : List Request := []

inductive ConversationEvent
  | command (cmd : HostCommand)
  | logChanged

namespace Conversation

/-- One command with what comes back for it, or one change of the log; nothing more happens on a
connection whose receive loop has ended. -/
def step (link : Link) (c : Conversation) : ConversationEvent → Option Conversation
  | .command cmd =>
    if c.session.server.reader = .reading ∧ cmd.Small then
      some
        { session := (c.session.request link cmd).1
          issued := c.issued ++ [(c.session.idFor cmd, cmd.command)]
          offered := c.offered ++ (c.session.request link cmd).2.toList }
    else none
  | .logChanged =>
    if c.session.server.reader = .reading then
      c.session.server.queue.ctrl.map fun ctrl =>
        { c with
          session := (c.session.notifyAsyncEvent ctrl).1
          offered := c.offered ++ (c.session.notifyAsyncEvent ctrl).2 }
    else none

/-- The command IDs of the requests that wait on the server. -/
def pending (c : Conversation) : List UInt16 :=
  c.session.server.queue.pendingRequests.map (·.commandID)

/-- What both sides know of each other: the client waits for the requests that the server keeps and
for no others, and every other command was answered once and to its own sender. -/
structure Agree (c : Conversation) : Prop where
  reading : c.session.server.reader = .reading
  distinct : c.pending.Nodup
  outstanding : ∀ id, c.session.outstanding.lookup id =
    if id ∈ c.pending then some ⟨.asyncEvent, none, none⟩ else none
  accounted : c.issued.Perm
    (c.offered.filterMap (fun r => r.completion.map (·.commandID, r.command)) ++
      c.pending.map (·, .asyncEvent))

/-- The command has an ID that no request on the server waits under, the controller is ready for it,
and its execution does not panic. -/
def Allowed (link : Link) (c : Conversation) : ConversationEvent → Prop
  | .command cmd => c.session.idFor cmd ∉ c.pending ∧
    ∀ ctrl, c.session.server.queue.ctrl = some ctrl →
      (cmd.opcode = fabricsCommand ∨ ctrl.csts &&& cstsRdy ≠ 0) ∧
      cmd.request.execute (c.session.log link) c.session.server.queue.qID
        ⟨c.session.server.received.length, c.session.idFor cmd⟩ ctrl ≠ none
  | .logChanged => True

end Conversation

/-- The connection of a client whose handshake is over. -/
def conversation (link : Link) : Machine Conversation ConversationEvent where
  init c := c.issued = [] ∧ c.offered = [] ∧
    ∃ ctrl, Session.Connected c.session ctrl ∧ ctrl.asyncEventPendingRequests = []
  step c event c' := c.step link event = some c'

namespace Conversation

section Step

variable {link : Link} {c c' : Conversation} {ctrl ctrl' : NvmeController} {cmd : HostCommand}

theorem pending_eq (hctrl : c.session.server.queue.ctrl = some ctrl) :
    c.pending = ctrl.asyncEventPendingRequests.map (·.commandID) := by
  rw [pending, NvmeQueue.pendingRequests, hctrl]

/-- Only an asynchronous event request waits. -/
theorem command_of_request (h : cmd.request = .asyncEvent) : cmd.command = .asyncEvent := by
  cases cmd with
  | asyncEvent => rfl
  | propertySet | propertyGet | identify | setFeatureAsyncEvent | setFeatureKato | getLogPage
  | keepAlive => cases h

theorem agree_answered {id : UInt16} {session : Session} {request : Request}
    {completion : Completion} (agree : c.Agree)
    (hpending : Conversation.pending ⟨session, [], []⟩ = c.pending)
    (hreading : session.server.reader = .reading)
    (houtstanding : session.outstanding = c.session.outstanding.erase id)
    (hcompletion : request.completion = some completion) (hid : completion.commandID = id) :
    Agree ⟨session, c.issued ++ [(id, request.command)], c.offered ++ [request]⟩ ↔
      id ∉ c.pending := by
  have hpending' : Conversation.pending
      ⟨session, c.issued ++ [(id, request.command)], c.offered ++ [request]⟩ = c.pending := hpending
  constructor
  · intro agree' hmem
    have hlost := agree'.outstanding id
    rw [hpending', if_pos hmem, houtstanding, AList.lookup_erase] at hlost
    cases hlost
  · intro hfree
    refine ⟨hreading, by rw [hpending']; exact agree.distinct, fun id' => ?_, ?_⟩
    · rw [hpending', houtstanding]
      by_cases heq : id' = id
      · rw [heq, AList.lookup_erase, if_neg hfree]
      · rw [AList.lookup_erase_ne heq, agree.outstanding]
    · rw [hpending', List.filterMap_append]
      have hanswer : [request].filterMap (fun r => r.completion.map (·.commandID, r.command)) =
          [(id, request.command)] := by
        simp [hcompletion, hid]
      rw [hanswer, List.append_assoc]
      have hmoved := agree.accounted.append_right [(id, request.command)]
      rw [List.append_assoc] at hmoved
      exact hmoved.trans (List.perm_append_comm.append_left _)

theorem agree_waits {id : UInt16} {session : Session} (agree : c.Agree)
    (hpending : Conversation.pending ⟨session, [], []⟩ = c.pending ++ [id])
    (hreading : session.server.reader = .reading)
    (houtstanding : session.outstanding =
      c.session.outstanding.insert id ⟨.asyncEvent, none, none⟩) :
    Agree ⟨session, c.issued ++ [(id, .asyncEvent)], c.offered⟩ ↔ id ∉ c.pending := by
  have hpending' : Conversation.pending ⟨session, c.issued ++ [(id, .asyncEvent)], c.offered⟩ =
      c.pending ++ [id] := hpending
  constructor
  · intro agree' hmem
    have hdistinct := agree'.distinct
    rw [hpending', List.nodup_append] at hdistinct
    exact hdistinct.2.2 id hmem id (by simp) rfl
  · intro hfree
    refine ⟨hreading, ?_, fun id' => ?_, ?_⟩
    · rw [hpending', List.nodup_append]
      refine ⟨agree.distinct, by simp, fun id' hmem id'' hmem' => ?_⟩
      rw [List.mem_singleton] at hmem'
      exact fun heq => hfree (hmem' ▸ heq ▸ hmem)
    · rw [hpending', houtstanding]
      by_cases heq : id' = id
      · rw [heq, AList.lookup_insert, if_pos (by simp)]
      · rw [AList.lookup_insert_ne heq, agree.outstanding]
        simp [heq]
    · rw [hpending', List.map_append, ← List.append_assoc]
      exact agree.accounted.append_right _

theorem idFor_commandID {completion : Completion} {id : AsyncEventRequest} {log : DiscoveryLog}
    {qID : UInt16} (hexec : cmd.request.execute log qID id ctrl = some (ctrl', some completion)) :
    completion.commandID = id.commandID ∧
      ctrl'.asyncEventPendingRequests = ctrl.asyncEventPendingRequests := by
  obtain ⟨executed, -⟩ := AdminRequest.executed hexec
  generalize ctrl'.asyncEventPendingRequests = pending at executed
  cases executed with
  | answered hid => exact ⟨hid, rfl⟩

theorem command_agree (agree : c.Agree) (hctrl : c.session.server.queue.ctrl = some ctrl)
    (hsmall : cmd.Small) (hnext : c' = ⟨(c.session.request link cmd).1,
      c.issued ++ [(c.session.idFor cmd, cmd.command)],
      c.offered ++ (c.session.request link cmd).2.toList⟩) :
    (c'.Agree ↔ c.Allowed link (.command cmd)) ∧
      (c'.Agree → ∃ ctrl', c'.session.server.queue.ctrl = some ctrl') := by
  have hallowed : c.Allowed link (.command cmd) ↔ c.session.idFor cmd ∉ c.pending ∧
      (cmd.opcode = fabricsCommand ∨ ctrl.csts &&& cstsRdy ≠ 0) ∧
      cmd.request.execute (c.session.log link) c.session.server.queue.qID
        ⟨c.session.server.received.length, c.session.idFor cmd⟩ ctrl ≠ none := by
    simp only [Allowed, hctrl, Option.some.injEq, forall_eq']
  rw [hallowed, hnext]
  by_cases hready : cmd.opcode = fabricsCommand ∨ ctrl.csts &&& cstsRdy ≠ 0
  case neg =>
    obtain ⟨server', completed, hserve, hclosed⟩ := @serve_refused c.session.server ctrl
      (c.session.log link) link.read (c.session.idFor cmd) cmd hctrl hready []
    rw [← Session.request_server agree.reading hserve] at hclosed
    exact ⟨iff_of_false (fun agree' => hclosed agree'.reading) fun allowed => hready allowed.2.1,
      fun agree' => absurd agree'.reading hclosed⟩
  cases hexec : cmd.request.execute (c.session.log link) c.session.server.queue.qID
      ⟨c.session.server.received.length, c.session.idFor cmd⟩ ctrl with
  | none =>
    have hserve := @serve_panic c.session.server ctrl (c.session.log link) link.read
      (c.session.idFor cmd) cmd hctrl hready hexec []
    have hserver := Session.request_server agree.reading hserve
    have hclosed : (c.session.request link cmd).1.server.reader ≠ .reading := by
      rw [hserver]
      exact fun h => by cases h
    exact ⟨iff_of_false (fun agree' => hclosed agree'.reading) fun allowed => allowed.2.2 rfl,
      fun agree' => absurd agree'.reading hclosed⟩
  | some result =>
    obtain ⟨ctrl', completion⟩ := result
    cases completion with
    | some completion =>
      obtain ⟨hid, hsame⟩ := idFor_commandID hexec
      rw [Session.request_executed agree.reading hctrl hready hsmall hexec]
      have hpending : Conversation.pending ⟨{ c.session.made cmd with
          server := c.session.server.executed (cmd.pdu (c.session.idFor cmd)) ctrl' (some completion)
          outstanding := c.session.outstanding.erase (c.session.idFor cmd) }, [], []⟩ =
          c.pending := by
        rw [pending_eq hctrl, @pending_eq _ ctrl' rfl, hsame]
      have hagree := @agree_answered c (c.session.idFor cmd) _
        ((cmd.completed (c.session.log link) ctrl completion).deliver ⟨cmd.command, none, none⟩)
        completion agree hpending agree.reading rfl rfl hid
      exact ⟨hagree.trans (by simp [hready]), fun _ => ⟨ctrl', rfl⟩⟩
    | none =>
      obtain ⟨executed, hasync⟩ := AdminRequest.executed hexec
      have hcommand := command_of_request (hasync rfl)
      rw [Session.request_waits agree.reading hctrl hready hexec, hcommand]
      have hkept : ctrl'.asyncEventPendingRequests = ctrl.asyncEventPendingRequests ++
          [⟨c.session.server.received.length, c.session.idFor cmd⟩] := by
        generalize ctrl'.asyncEventPendingRequests = pending at executed
        cases executed with
        | waits => rfl
      have hpending : Conversation.pending ⟨{ c.session.made cmd with
          server := c.session.server.executed (cmd.pdu (c.session.idFor cmd)) ctrl' none
          outstanding := c.session.outstanding.insert (c.session.idFor cmd)
            ⟨.asyncEvent, none, none⟩ }, [], []⟩ = c.pending ++ [c.session.idFor cmd] := by
        rw [pending_eq hctrl, @pending_eq _ ctrl' rfl, hkept, List.map_append]
        rfl
      have hagree := agree_waits agree hpending agree.reading rfl
      rw [Option.toList_none, List.append_nil]
      exact ⟨hagree.trans (by simp [hready]), fun _ => ⟨ctrl', rfl⟩⟩

/-- An event is answered to the oldest request, which the client waits for. -/
theorem logChanged_agree (agree : c.Agree) (hctrl : c.session.server.queue.ctrl = some ctrl) :
    Agree { c with
      session := (c.session.notifyAsyncEvent ctrl).1
      offered := c.offered ++ (c.session.notifyAsyncEvent ctrl).2 } ∧
    ∃ ctrl', (c.session.notifyAsyncEvent ctrl).1.server.queue.ctrl = some ctrl' := by
  have hpending := pending_eq hctrl
  by_cases henabled : ctrl.aenBitEnabled = true
  case neg =>
    rw [Session.notifyAsyncEvent, if_neg henabled, List.append_nil]
    exact ⟨agree, ctrl, hctrl⟩
  cases hrequests : ctrl.asyncEventPendingRequests with
  | nil =>
    have hsame : c.session.server.handleAENEvent ctrl = c.session.server := by
      simp only [Server.handleAENEvent, NvmeController.handleAENEvent, hrequests, ← hctrl]
    simp only [Session.notifyAsyncEvent, if_pos henabled, NvmeController.handleAENEvent, hrequests,
      Option.toList_none, List.map_nil, hsame, Session.receive_nil, List.append_nil]
    exact ⟨agree, ctrl, hctrl⟩
  | cons request rest =>
    rw [hrequests, List.map_cons] at hpending
    have hdistinct := agree.distinct
    rw [hpending, List.nodup_cons] at hdistinct
    have hold := agree.outstanding request.commandID
    rw [hpending, if_pos (by simp)] at hold
    obtain ⟨s', completion, hid, hnotify, hreader, hctrl', houtstanding⟩ :=
      @Session.notify_answered c.session ctrl request rest _ henabled hrequests hold rfl
    rw [hnotify]
    have hpending' : Conversation.pending ⟨s', c.issued,
        c.offered ++ [⟨.asyncEvent, none, some completion⟩]⟩ = rest.map (·.commandID) := by
      rw [pending_eq hctrl']
    refine ⟨⟨hreader.trans agree.reading, ?_, fun id => ?_, ?_⟩, _, hctrl'⟩
    · rw [hpending']
      exact hdistinct.2
    · rw [hpending', houtstanding]
      by_cases heq : id = request.commandID
      · rw [heq, AList.lookup_erase, if_neg hdistinct.1]
      · rw [AList.lookup_erase_ne heq, agree.outstanding, hpending]
        simp [heq]
    · have haccounted := agree.accounted
      rw [hpending, List.map_cons] at haccounted
      rw [hpending', List.filterMap_append]
      simpa [hid] using haccounted

theorem step_agree {event : ConversationEvent} (agree : c.Agree)
    (hctrl : ∃ ctrl, c.session.server.queue.ctrl = some ctrl) (hstep : c.step link event = some c') :
    (c'.Agree ↔ c.Allowed link event) ∧
      (c'.Agree → ∃ ctrl, c'.session.server.queue.ctrl = some ctrl) := by
  obtain ⟨ctrl, hctrl⟩ := hctrl
  cases event with
  | command cmd =>
    simp only [step, Option.ite_none_right_eq_some, Option.some.injEq] at hstep
    obtain ⟨⟨-, hsmall⟩, hnext⟩ := hstep
    exact command_agree agree hctrl hsmall hnext.symm
  | logChanged =>
    simp only [step, hctrl, Option.map_some, Option.ite_none_right_eq_some, Option.some.injEq]
      at hstep
    obtain ⟨-, rfl⟩ := hstep
    obtain ⟨agree', hctrl'⟩ := logChanged_agree agree hctrl
    exact ⟨iff_of_true agree' trivial, fun _ => hctrl'⟩

end Step

theorem init_agree {link : Link} {c : Conversation} (hinit : (conversation link).init c) :
    c.Agree ∧ ∃ ctrl, c.session.server.queue.ctrl = some ctrl := by
  obtain ⟨hissued, hoffered, ctrl, connected, hnone⟩ := hinit
  have hpending : c.pending = [] := by rw [pending_eq connected.ctrl, hnone, List.map_nil]
  refine ⟨⟨connected.reading, ?_, fun id => ?_, ?_⟩, ctrl, connected.ctrl⟩
  · rw [hpending]
    exact List.nodup_nil
  · rw [hpending, connected.idle, if_neg List.not_mem_nil]
    rfl
  · rw [hissued, hoffered, hpending]
    exact List.Perm.nil

/-- Whatever order the commands and the events come in, the two sides agree throughout exactly when
each command is issued under an ID that no request waits under, to a controller that is ready for it
and with an execution that does not panic. -/
theorem sides_agree_iff {link : Link} {past : List (Conversation × ConversationEvent)}
    {c : Conversation} (run : (conversation link).Run past c) :
    Machine.Always Agree past c ↔ Machine.Each (Allowed link) past :=
  run.always_iff_each (fun _ => init_agree) fun _ _ _ agree hctrl hstep =>
    step_agree agree hctrl hstep

/-- A connection after the handshake. -/
def enabled : Conversation where
  session :=
    { server := { queue :=
      { controllerID := 7, ctrl := some (Session.enabledController 7 (ascii "nqn.h")) } } }

theorem enabled_connected :
    Session.Connected enabled.session (Session.enabledController 7 (ascii "nqn.h")) :=
  ⟨rfl, rfl, rfl⟩

def quietLink : Link := ⟨fun _ => 100, fun _ => emptyLog⟩

/-- The controller that keeps the client's first request. -/
def keepsFirst : NvmeController :=
  { Session.enabledController 7 (ascii "nqn.h") with asyncEventPendingRequests := [⟨0, 1⟩] }

/-- The first asynchronous event request waits on both sides. -/
theorem first_request_waits :
    ∃ c, enabled.step quietLink (.command .asyncEvent) = some c ∧
      c.session.server.reader = .reading ∧ c.session.server.queue.ctrl = some keepsFirst ∧
      c.session.outstanding.lookup 1 = some ⟨.asyncEvent, none, none⟩ := by
  have hwaits := @Session.request_waits enabled.session quietLink _ keepsFirst .asyncEvent rfl
    enabled_connected.ctrl (.inr (by decide)) rfl
  rw [step, if_pos ⟨rfl, trivial⟩, hwaits]
  exact ⟨_, rfl, rfl, rfl, AList.lookup_insert _⟩

/-- A request that waits is answered when the log changes, and a keep-alive goes through after
it. -/
theorem sides_agree_first_request :
    ∃ past c, (conversation quietLink).Run past c ∧ c.Agree ∧
      past.map Prod.snd = [.command .asyncEvent, .logChanged, .command .keepAlive] := by
  have start : (conversation quietLink).Run [] enabled :=
    .start ⟨rfl, rfl, _, enabled_connected, rfl⟩
  obtain ⟨c₁, hsent, hreading₁, hctrl₁, hwaits⟩ := first_request_waits
  obtain ⟨s₂, completion, -, hnotify, hreading₂, hctrl₂, -⟩ := @Session.notify_answered c₁.session
    keepsFirst ⟨0, 1⟩ [] _ rfl rfl hwaits rfl
  rw [hreading₁] at hreading₂
  have hchanged : c₁.step quietLink .logChanged = some { c₁ with
      session := s₂, offered := c₁.offered ++ [⟨.asyncEvent, none, some completion⟩] } := by
    rw [step, if_pos hreading₁, hctrl₁, Option.map_some, hnotify]
  obtain ⟨c₂, hc₂, hsession⟩ : ∃ c₂, c₁.step quietLink .logChanged = some c₂ ∧ c₂.session = s₂ :=
    ⟨_, hchanged, rfl⟩
  rw [← hsession] at hreading₂ hctrl₂
  obtain ⟨c₃, hc₃⟩ : ∃ c₃, c₂.step quietLink (.command .keepAlive) = some c₃ :=
    ⟨_, if_pos ⟨hreading₂, trivial⟩⟩
  have run := ((start.next hsent).next hc₂).next hc₃
  refine ⟨_, c₃, run, ((sides_agree_iff run).mpr ?_).2, rfl⟩
  refine Machine.each_snoc.mpr ⟨Machine.each_snoc.mpr ⟨Machine.each_snoc.mpr
    ⟨by simp [Machine.Each], ?_⟩, trivial⟩, ?_⟩
  · have hpending : enabled.pending = [] := pending_eq enabled_connected.ctrl
    refine ⟨by simp [hpending], fun ctrl hctrl => ?_⟩
    cases hctrl
    exact ⟨.inr (by decide), fun h => by cases h⟩
  · refine ⟨by simp [pending_eq hctrl₂], fun ctrl hctrl => ?_⟩
    rw [hctrl₂] at hctrl
    cases hctrl
    exact ⟨.inr (by decide), fun h => by cases h⟩

end Conversation

end DiscoveryClient
