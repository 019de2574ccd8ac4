import DiscoveryClient.NvmeServer

namespace DiscoveryClient

namespace Nvme

/-- The goroutine reads the next capsule or has reported an error. -/
def Reader.Live (reader : Reader) : Prop := reader ≠ .stopped ∧ reader ≠ .panicked

/-- The discovery log page that a command asks for is written without a panic, and not asked for
behind the command. -/
def PageHandled (pdu : Pdu) (log : DiscoveryLog) (cmd : GetLogPageCommand) : Prop :=
  if cmd.getLogPageLen = 0 then cmd.entriesOffset ≠ 0 ∧ log.page cmd = []
  else pdu.sglType ≠ sglInline ∧ ∀ entry ∈ log.page cmd, entry.Fits

/-- Where the flags are taken: a connect has inline data; with a controller that is ready, an
identify does not say that its data are inline, and a discovery log page can be written. -/
structure Handles (queue : NvmeQueue) (pdu : Pdu) (log : DiscoveryLog) : Prop where
  connect : pdu.PlainFlags → queue.ctrl = none → pdu.opcode = fabricsCommand →
    pdu.fcType = typeConnect → pdu.sglType = sglInline
  identify : pdu.PlainFlags → ∀ ctrl, queue.ctrl = some ctrl → ctrl.csts &&& cstsRdy ≠ 0 →
    pdu.opcode = adminIdentify → pdu.sglType ≠ sglInline
  getLogPage : pdu.PlainFlags → ∀ ctrl, queue.ctrl = some ctrl → ctrl.csts &&& cstsRdy ≠ 0 →
    pdu.opcode = adminGetLogPage → pdu.lid = logDisc → PageHandled pdu log pdu.getLogPageCommand

/-- The same by the request that was parsed. -/
def AdminRequest.Handled (pdu : Pdu) (log : DiscoveryLog) : AdminRequest → Prop
  | .identify => pdu.sglType ≠ sglInline
  | .getLogPage cmd => PageHandled pdu log cmd
  | _ => True

def NvmeRequest.Handled (pdu : Pdu) (log : DiscoveryLog) : NvmeRequest → Prop
  | .connect .. => pdu.sglType = sglInline
  | .admin request => request.Handled pdu log

theorem handles_iff {queue : NvmeQueue} {pdu : Pdu} {log : DiscoveryLog} :
    Handles queue pdu log ↔
      ∀ request, queue.nvmetRequestInit pdu = .ok request → request.Handled pdu log := by
  constructor
  · intro handles request h
    obtain ⟨hflags, hparse⟩ := nvmetRequestInit_eq_ok_iff.mp h
    match request with
    | .connect .. =>
      obtain ⟨hctrl, hcmd⟩ := parse_connect_iff.mp hparse
      obtain ⟨hopcode, htype, -⟩ := nvmetParseConnectCmd_eq_ok_iff.mp hcmd
      exact handles.connect hflags hctrl hopcode htype
    | .admin .identify =>
      obtain ⟨ctrl, hctrl, hready, hopcode⟩ := parse_identify_iff.mp hparse
      exact handles.identify hflags ctrl hctrl hready hopcode
    | .admin (.getLogPage cmd) =>
      obtain ⟨ctrl, hctrl, hready, hopcode, hlid, rfl⟩ := parse_getLogPage_iff.mp hparse
      exact handles.getLogPage hflags ctrl hctrl hready hopcode hlid
    | .admin (.propertySet ..) | .admin (.propertyGet ..) | .admin .keepAlive
    | .admin (.setFeatures ..) | .admin (.getFeatures _) | .admin .asyncEvent => trivial
  · intro handled
    refine ⟨?_, ?_, ?_⟩
    · intro hflags hctrl hopcode htype
      have hcmd := nvmetParseConnectCmd_eq_ok_iff.mpr ⟨hopcode, htype, rfl⟩
      exact handled _ (nvmetRequestInit_eq_ok_iff.mpr
        ⟨hflags, parse_connect_iff.mpr ⟨hctrl, hcmd⟩⟩)
    · intro hflags ctrl hctrl hready hopcode
      exact handled _ (nvmetRequestInit_eq_ok_iff.mpr
        ⟨hflags, parse_identify_iff.mpr ⟨ctrl, hctrl, hready, hopcode⟩⟩)
    · intro hflags ctrl hctrl hready hopcode hlid
      exact handled _ (nvmetRequestInit_eq_ok_iff.mpr
        ⟨hflags, parse_getLogPage_iff.mpr ⟨ctrl, hctrl, hready, hopcode, hlid, rfl⟩⟩)

/-- A controller's request is handled when `mapData` takes it and it can be executed. -/
theorem AdminRequest.handled_iff {pdu : Pdu} {log : DiscoveryLog} (request : AdminRequest)
    (qID : UInt16) (id : AsyncEventRequest) (ctrl : NvmeController) :
    request.Handled pdu log ↔
      ¬(NvmeRequest.dataLen (.admin request) ≠ 0 ∧ pdu.sglType = sglInline) ∧
        request.execute log qID id ctrl ≠ none := by
  simp only [ne_eq, execute_eq_none_iff]
  cases request with
  | identify => simp [Handled, NvmeRequest.dataLen]
  | getLogPage cmd =>
    simp only [Handled, PageHandled, NvmeRequest.dataLen, AdminRequest.getLogPage.injEq,
      exists_eq_left', DiscoveryClient.execute_eq_none_iff]
    split
    next hlen => simp [hlen]
    next hlen => simp [hlen]
  | propertySet | propertyGet | keepAlive | setFeatures | getFeatures | asyncEvent =>
    simp [Handled, NvmeRequest.dataLen]

section Request

variable {server : Server} {seq : Nat} {capsule : Capsule} {log : DiscoveryLog}

/-- The request was executed. -/
def Server.Executes (server : Server) (seq : Nat) (pdu : Pdu) (server' : Server) : Prop :=
  ∃ (queue : NvmeQueue) (completion : Option Completion),
    Executed ⟨seq, pdu.commandID⟩ server.queue.pendingRequests queue.pendingRequests completion ∧
    (completion = none → pdu.opcode = adminAsyncEvent) ∧
    server' =
      { server with queue, answers := server.answers ++ completion.toList.map (Answer.mk seq) }

theorem execute_eq {queue : NvmeQueue} {completion : Option Completion} {request : NvmeRequest}
    (h : server.queue.execute log ⟨seq, capsule.pdu.commandID⟩ capsule.inlineData request =
      some (queue, completion)) :
    server.execute seq capsule log request =
      { server with
        queue, answers := server.answers ++ completion.toList.map (Answer.mk seq) } := by
  unfold Server.execute
  rw [h]
  cases completion with
  | none => simp
  | some completion => rfl

theorem handleRequest_connect {recFmt qID sqSize : UInt16} {kato : UInt32} :
    server.handleRequest seq capsule log (.connect recFmt qID sqSize kato) =
      if capsule.pdu.sglType = sglInline then
        server.execute seq capsule log (.connect recFmt qID sqSize kato)
      else server.fail .nonInlineData := by
  unfold Server.handleRequest
  rw [mapData_connect]
  by_cases hsgl : capsule.pdu.sglType = sglInline <;>
    simp [hsgl, hasInlineData, NvmeRequest.isWrite]

theorem handleRequest_admin {request : AdminRequest} :
    server.handleRequest seq capsule log (.admin request) =
      if NvmeRequest.dataLen (.admin request) ≠ 0 ∧ capsule.pdu.sglType = sglInline then
        { server.completeRequest seq
            (newCompletion capsule.pdu.commandID server.queue.qID (invalidField ||| dnr)) with
          reader := .stopped }
      else server.execute seq capsule log (.admin request) := by
  have hfield : invalidField ||| dnr ≠ success := by decide
  unfold Server.handleRequest
  rw [mapData_admin]
  by_cases hmap : NvmeRequest.dataLen (.admin request) ≠ 0 ∧ capsule.pdu.sglType = sglInline
  · simp only [if_pos hmap, if_pos hfield, hasInlineData, NvmeRequest.isWrite, Bool.false_and,
      Bool.false_eq_true, if_false]
  · simp only [if_neg hmap, ne_eq, not_true_eq_false, NvmeRequest.isWrite, Bool.false_and,
      Bool.false_eq_true, if_false]

theorem handleRequest_handled {request : NvmeRequest}
    (hparse : server.queue.parse capsule.pdu = .ok request) (handled : request.Handled capsule.pdu log) :
    server.Executes seq capsule.pdu (server.handleRequest seq capsule log request) := by
  cases request with
  | connect recFmt qID sqSize kato =>
    have hctrl := (parse_connect_iff.mp hparse).1
    have hsgl : capsule.pdu.sglType = sglInline := handled
    rw [handleRequest_connect, if_pos hsgl, execute_eq (execute_connect ..)]
    refine ⟨_, _, ?_, by simp, rfl⟩
    rw [connect_pendingRequests hctrl, NvmeQueue.pendingRequests, hctrl]
    exact .answered (connect_commandID ..)
  | admin request =>
    obtain ⟨ctrl, hctrl, -⟩ := parse_admin_iff.mp hparse
    obtain ⟨hmap, hexecute⟩ := (request.handled_iff server.queue.qID
      ⟨seq, capsule.pdu.commandID⟩ ctrl).mp handled
    obtain ⟨⟨ctrl', completion⟩, hrequest⟩ := Option.ne_none_iff_exists'.mp hexecute
    obtain ⟨executed, hasync⟩ := AdminRequest.executed hrequest
    rw [handleRequest_admin, if_neg hmap,
      execute_eq (by simp only [NvmeQueue.execute, hctrl, hrequest]; rfl)]
    refine ⟨_, _, ?_, ?_, rfl⟩
    · simpa only [NvmeQueue.pendingRequests, hctrl] using executed
    · intro hnone
      have hparse : server.queue.parse capsule.pdu = .ok (.admin .asyncEvent) := by
        rw [hparse, hasync hnone]
      obtain ⟨-, -, -, hopcode⟩ := parse_asyncEvent_iff.mp hparse
      exact hopcode

/-- The reading stops, the process panics, or the capsule has no completion. -/
theorem handleRequest_not_handled {request : NvmeRequest}
    (hparse : server.queue.parse capsule.pdu = .ok request)
    (handled : ¬request.Handled capsule.pdu log) :
    ¬(server.handleRequest seq capsule log request).reader.Live ∨
      server.handleRequest seq capsule log request = server.fail .nonInlineData := by
  cases request with
  | connect recFmt qID sqSize kato =>
    have hsgl : capsule.pdu.sglType ≠ sglInline := handled
    rw [handleRequest_connect, if_neg hsgl]
    exact .inr rfl
  | admin request =>
    obtain ⟨ctrl, hctrl, -⟩ := parse_admin_iff.mp hparse
    rw [NvmeRequest.Handled, request.handled_iff server.queue.qID
      ⟨seq, capsule.pdu.commandID⟩ ctrl, not_and_or, not_not, not_not] at handled
    rw [handleRequest_admin]
    refine .inl ?_
    split
    next => simp [Reader.Live]
    next hmap =>
      have hnone := handled.resolve_left hmap
      simp [Reader.Live, Server.execute, NvmeQueue.execute, hctrl, hnone]

end Request

/-- The capsule came in, these completions were given for it, and these requests wait since. -/
structure TakesIn (server : Server) (pdu : Pdu) (server' : Server) (completions : List Completion)
    (waiting : List AsyncEventRequest) : Prop where
  received : server'.received = server.received ++ [pdu]
  answers : server'.answers = server.answers ++ completions.map (Answer.mk server.received.length)
  pending : server'.queue.pendingRequests = server.queue.pendingRequests ++ waiting

inductive Replies (server : Server) (pdu : Pdu) (server' : Server) : Prop
  | answered {completion : Completion} : completion.commandID = pdu.commandID →
      TakesIn server pdu server' [completion] [] → Replies server pdu server'
  | waits : pdu.opcode = adminAsyncEvent →
      TakesIn server pdu server' [] [⟨server.received.length, pdu.commandID⟩] →
      Replies server pdu server'

section Receive

variable {server : Server} {capsule : Capsule} {log : DiscoveryLog}

theorem Server.Executes.replies {pdu : Pdu} {server' : Server}
    (executes : (server.takeIn pdu).Executes server.received.length pdu server') :
    Replies server pdu server' ∧ server'.reader = server.reader := by
  obtain ⟨queue, completion, executed, hasync, rfl⟩ := executes
  refine ⟨?_, rfl⟩
  generalize hpending : queue.pendingRequests = pending at executed
  cases executed with
  | answered hid => exact .answered hid ⟨rfl, rfl, by rw [hpending, List.append_nil]; rfl⟩
  | waits => exact .waits (hasync rfl) ⟨rfl, by simp [takeIn], hpending⟩

theorem receive_handled (hreader : server.reader = .reading)
    (handles : Handles server.queue capsule.pdu log) :
    Replies server capsule.pdu (server.receive capsule log) ∧
      (server.receive capsule log).reader.Live := by
  cases hinit : server.queue.nvmetRequestInit capsule.pdu with
  | error err =>
    obtain ⟨completion, hid, heq | heq⟩ := Server.receive_error hinit log <;> rw [heq]
    · refine ⟨.answered hid ⟨rfl, rfl, (List.append_nil _).symm⟩, ?_⟩
      simp [Server.completeRequest, Server.takeIn, Reader.Live, hreader]
    · refine ⟨.answered hid ⟨rfl, rfl, (List.append_nil _).symm⟩, ?_⟩
      simp [Server.fail, Reader.Live]
  | ok request =>
    have hparse := (nvmetRequestInit_eq_ok_iff.mp hinit).2
    have handled := handles_iff.mp handles request hinit
    have executes : (server.takeIn capsule.pdu).Executes server.received.length capsule.pdu _ :=
      handleRequest_handled hparse handled
    rw [Server.receive_ok hinit]
    refine ⟨executes.replies.1, ?_⟩
    rw [executes.replies.2, hreader]
    simp [Reader.Live]

theorem receive_not_handled (handles : ¬Handles server.queue capsule.pdu log) :
    ¬(server.receive capsule log).reader.Live ∨
      TakesIn server capsule.pdu (server.receive capsule log) [] [] := by
  rw [handles_iff] at handles
  push Not at handles
  obtain ⟨request, hinit, handled⟩ := handles
  have hparse : (server.takeIn capsule.pdu).queue.parse capsule.pdu = .ok request :=
    (nvmetRequestInit_eq_ok_iff.mp hinit).2
  rw [Server.receive_ok hinit]
  refine (handleRequest_not_handled hparse handled).imp_right fun heq => ?_
  rw [heq]
  exact ⟨rfl, (List.append_nil _).symm, (List.append_nil _).symm⟩

end Receive

end Nvme

end DiscoveryClient
