import DiscoveryClient.CapsuleHandling
import DiscoveryClient.LogPageRetrieval

namespace DiscoveryClient

namespace Nvme

/-- The completions given for the capsule that came in at the place `seq`. -/
def Server.answersTo (server : Server) (seq : Nat) : List Completion :=
  (server.answers.filter (·.seq = seq)).map (·.completion)

/-- The capsule has exactly one completion, which carries its command ID; or it is an asynchronous
event request that has none and waits for an event. -/
def Server.AnsweredOrWaits (server : Server) (seq : Nat) (pdu : Pdu) : Prop :=
  (∃ completion, server.answersTo seq = [completion] ∧ completion.commandID = pdu.commandID) ∨
    pdu.opcode = adminAsyncEvent ∧ server.answersTo seq = [] ∧
      ⟨seq, pdu.commandID⟩ ∈ server.queue.pendingRequests

structure AnswersEvery (server : Server) : Prop where
  answered : ∀ seq pdu, server.received[seq]? = some pdu → server.AnsweredOrWaits seq pdu
  live : server.reader.Live

def HandlesEvent (server : Server) : ServerEvent → Prop
  | .capsule capsule log => Handles server.queue capsule.pdu log
  | .asyncEvent => True
  | .keepAliveExpired => True

/-- Besides, every completion is for a capsule that came in, and every request that waits is one of
them, without a completion, and waits once. -/
structure Ledger (server : Server) : Prop where
  answered : ∀ answer ∈ server.answers, answer.seq < server.received.length
  unanswered : ∀ request ∈ server.queue.pendingRequests, server.answersTo request.seq = []
  received : ∀ request ∈ server.queue.pendingRequests, ∃ pdu,
    server.received[request.seq]? = some pdu ∧ pdu.commandID = request.commandID
  nodup : (server.queue.pendingRequests.map (·.seq)).Nodup

theorem Server.answersTo_append {server server' : Server} {answers : List Answer}
    (h : server'.answers = server.answers ++ answers) (seq : Nat) :
    server'.answersTo seq =
      server.answersTo seq ++ (answers.filter (·.seq = seq)).map (·.completion) := by
  rw [answersTo, h, List.filter_append, List.map_append]
  rfl

theorem getElem?_snoc_eq_some_iff {α : Type} {l : List α} {x y : α} {i : Nat} :
    (l ++ [x])[i]? = some y ↔ l[i]? = some y ∨ i = l.length ∧ x = y := by
  rw [List.getElem?_append]
  grind

section TakesIn

variable {server server' : Server} {pdu : Pdu} {completions : List Completion}
  {waiting : List AsyncEventRequest}

namespace TakesIn

theorem answersTo_of_ne (takes : TakesIn server pdu server' completions waiting) {seq : Nat}
    (hseq : seq ≠ server.received.length) : server'.answersTo seq = server.answersTo seq := by
  rw [Server.answersTo_append takes.answers, List.filter_eq_nil_iff.mpr, List.map_nil,
    List.append_nil]
  intro answer hanswer
  obtain ⟨completion, -, rfl⟩ := List.mem_map.mp hanswer
  simpa using hseq.symm

theorem answersTo_new (takes : TakesIn server pdu server' completions waiting)
    (ledger : Ledger server) : server'.answersTo server.received.length = completions := by
  have hold : server.answersTo server.received.length = [] := by
    rw [Server.answersTo, List.filter_eq_nil_iff.mpr, List.map_nil]
    intro answer hanswer
    simpa using (ledger.answered answer hanswer).ne
  rw [Server.answersTo_append takes.answers, hold, List.nil_append, List.filter_eq_self.mpr,
    List.map_map]
  · exact List.map_id _
  · intro answer hanswer
    obtain ⟨completion, -, rfl⟩ := List.mem_map.mp hanswer
    simp

/-- The capsules before this one stay as they were. -/
theorem answeredOrWaits (takes : TakesIn server pdu server' completions waiting) {seq : Nat}
    {old : Pdu} (hseq : seq ≠ server.received.length) (h : server.AnsweredOrWaits seq old) :
    server'.AnsweredOrWaits seq old := by
  unfold Server.AnsweredOrWaits
  rw [takes.answersTo_of_ne hseq, takes.pending, List.mem_append]
  rcases h with hanswer | ⟨hopcode, hnone, hwaits⟩
  · exact .inl hanswer
  · exact .inr ⟨hopcode, hnone, .inl hwaits⟩

theorem answersEvery_iff (takes : TakesIn server pdu server' completions waiting)
    (good : AnswersEvery server) :
    AnswersEvery server' ↔
      server'.AnsweredOrWaits server.received.length pdu ∧ server'.reader.Live := by
  have hnew : server'.received[server.received.length]? = some pdu := by
    rw [takes.received, List.getElem?_concat_length]
  refine ⟨fun good' => ⟨good'.answered _ _ hnew, good'.live⟩, fun h => ⟨?_, h.2⟩⟩
  intro seq other hother
  rw [takes.received] at hother
  rcases getElem?_snoc_eq_some_iff.mp hother with hold | ⟨rfl, rfl⟩
  · have hseq := (List.getElem?_eq_some_iff.mp hold).1
    exact takes.answeredOrWaits hseq.ne (good.answered seq other hold)
  · exact h.1

end TakesIn

theorem Ledger.seq_lt (ledger : Ledger server) {request : AsyncEventRequest}
    (h : request ∈ server.queue.pendingRequests) : request.seq < server.received.length := by
  obtain ⟨pdu, hpdu, -⟩ := ledger.received request h
  exact (List.getElem?_eq_some_iff.mp hpdu).1

/-- A capsule that was dropped has neither a completion nor a request that waits. -/
theorem TakesIn.not_answeredOrWaits (takes : TakesIn server pdu server' [] [])
    (ledger : Ledger server) : ¬server'.AnsweredOrWaits server.received.length pdu := by
  rintro (⟨completion, hanswer, -⟩ | ⟨-, -, hwaits⟩)
  · simp [takes.answersTo_new ledger] at hanswer
  · rw [takes.pending, List.append_nil] at hwaits
    exact (ledger.seq_lt hwaits).ne rfl

theorem Replies.answeredOrWaits (replies : Replies server pdu server') (ledger : Ledger server) :
    server'.AnsweredOrWaits server.received.length pdu := by
  cases replies with
  | answered hid takes => exact .inl ⟨_, takes.answersTo_new ledger, hid⟩
  | waits hopcode takes =>
    exact .inr ⟨hopcode, takes.answersTo_new ledger, by rw [takes.pending]; simp⟩

/-- What one capsule adds to the ledger: completions of its own, and itself when it waits. -/
theorem TakesIn.ledger (takes : TakesIn server pdu server' completions waiting)
    (ledger : Ledger server)
    (hwaiting : waiting = [] ∨
      waiting = [⟨server.received.length, pdu.commandID⟩] ∧ completions = []) :
    Ledger server' := by
  have hlen : server'.received.length = server.received.length + 1 := by
    rw [takes.received, List.length_append, List.length_singleton]
  have hnew : ∀ request ∈ waiting,
      request = ⟨server.received.length, pdu.commandID⟩ ∧ completions = [] := by
    rcases hwaiting with rfl | ⟨rfl, rfl⟩ <;> simp
  refine ⟨?_, ?_, ?_, ?_⟩
  · rw [takes.answers, hlen]
    intro answer hanswer
    rcases List.mem_append.mp hanswer with hold | hadded
    · exact Nat.lt_succ_of_lt (ledger.answered answer hold)
    · obtain ⟨completion, -, rfl⟩ := List.mem_map.mp hadded
      exact Nat.lt_succ_self _
  · rw [takes.pending]
    intro request hrequest
    rcases List.mem_append.mp hrequest with hold | hadded
    · rw [takes.answersTo_of_ne (ledger.seq_lt hold).ne]
      exact ledger.unanswered request hold
    · obtain ⟨rfl, hnone⟩ := hnew request hadded
      exact (takes.answersTo_new ledger).trans hnone
  · rw [takes.pending, takes.received]
    intro request hrequest
    rcases List.mem_append.mp hrequest with hold | hadded
    · obtain ⟨other, hother, hid⟩ := ledger.received request hold
      exact ⟨other, getElem?_snoc_eq_some_iff.mpr (.inl hother), hid⟩
    · obtain ⟨rfl, -⟩ := hnew request hadded
      exact ⟨pdu, List.getElem?_concat_length, rfl⟩
  · rw [takes.pending, List.map_append]
    refine ledger.nodup.append ?_ ?_
    · rcases hwaiting with rfl | ⟨rfl, -⟩ <;> simp
    · intro seq hold hadded
      obtain ⟨request, hrequest, rfl⟩ := List.mem_map.mp hold
      obtain ⟨other, hother, hseq⟩ := List.mem_map.mp hadded
      rw [(hnew other hother).1] at hseq
      exact (ledger.seq_lt hrequest).ne hseq.symm

theorem Replies.ledger (replies : Replies server pdu server') (ledger : Ledger server) :
    Ledger server' := by
  cases replies with
  | answered _ takes => exact takes.ledger ledger (.inl rfl)
  | waits _ takes => exact takes.ledger ledger (.inr ⟨rfl, rfl⟩)

theorem receive_answersEvery {capsule : Capsule} {log : DiscoveryLog}
    (hreader : server.reader = .reading) (good : AnswersEvery server) (ledger : Ledger server) :
    (AnswersEvery (server.receive capsule log) ↔ Handles server.queue capsule.pdu log) ∧
      (AnswersEvery (server.receive capsule log) → Ledger (server.receive capsule log)) := by
  by_cases handles : Handles server.queue capsule.pdu log
  · obtain ⟨replies, hlive⟩ := receive_handled hreader handles
    have hnew := replies.answeredOrWaits ledger
    have good' : AnswersEvery (server.receive capsule log) := by
      cases replies with
      | answered _ takes => exact (takes.answersEvery_iff good).mpr ⟨hnew, hlive⟩
      | waits _ takes => exact (takes.answersEvery_iff good).mpr ⟨hnew, hlive⟩
    exact ⟨iff_of_true good' handles, fun _ => replies.ledger ledger⟩
  · have bad : ¬AnswersEvery (server.receive capsule log) := by
      intro good'
      rcases receive_not_handled handles with hlive | takes
      · exact hlive good'.live
      · exact takes.not_answeredOrWaits ledger ((takes.answersEvery_iff good).mp good').1
    exact ⟨iff_of_false bad handles, fun good' => absurd good' bad⟩

end TakesIn

section Event

variable {server : Server} {queue : NvmeQueue}

/-- The requests that wait are all that the property needs to know of the queue. -/
theorem setQueue_answersEvery (good : AnswersEvery server) (ledger : Ledger server)
    (hpending : queue.pendingRequests = server.queue.pendingRequests) :
    AnswersEvery { server with queue } ∧ Ledger { server with queue } := by
  refine ⟨⟨?_, good.live⟩, ⟨ledger.answered, ?_, ?_, ?_⟩⟩
  · intro seq pdu hpdu
    unfold Server.AnsweredOrWaits
    rw [hpending]
    exact good.answered seq pdu hpdu
  · rw [hpending]
    exact ledger.unanswered
  · rw [hpending]
    exact ledger.received
  · rw [hpending]
    exact ledger.nodup

theorem completeRequest_answersTo (seq other : Nat) (completion : Completion) :
    (server.completeRequest seq completion).answersTo other =
      server.answersTo other ++ if seq = other then [completion] else [] := by
  rw [Server.answersTo_append rfl]
  by_cases h : seq = other <;> simp [h]

section Oldest

variable {request : AsyncEventRequest} {rest : List AsyncEventRequest} {completion : Completion}

theorem Ledger.seq_ne (ledger : Ledger server)
    (hpending : server.queue.pendingRequests = request :: rest) {other : AsyncEventRequest}
    (hother : other ∈ rest) : request.seq ≠ other.seq := by
  have hnodup := ledger.nodup
  rw [hpending, List.map_cons, List.nodup_cons] at hnodup
  intro heq
  exact hnodup.1 (heq ▸ List.mem_map_of_mem hother)

/-- The oldest request that waits is answered, and it was not before. -/
theorem completeRequest_answersEvery (good : AnswersEvery server) (ledger : Ledger server)
    (hpending : server.queue.pendingRequests = request :: rest) (hrest : queue.pendingRequests = rest)
    (hid : completion.commandID = request.commandID) :
    AnswersEvery (({ server with queue } : Server).completeRequest request.seq completion) := by
  have hfirst : request ∈ server.queue.pendingRequests := by
    rw [hpending]
    exact List.mem_cons_self ..
  obtain ⟨own, hown, hownID⟩ := ledger.received request hfirst
  refine ⟨?_, good.live⟩
  intro seq pdu hpdu
  unfold Server.AnsweredOrWaits
  rw [completeRequest_answersTo]
  by_cases hseq : request.seq = seq
  · subst hseq
    cases hown.symm.trans hpdu
    have hone : server.answersTo request.seq ++ [completion] = [completion] := by
      rw [ledger.unanswered request hfirst, List.nil_append]
    rw [if_pos rfl]
    exact .inl ⟨completion, hone, hid.trans hownID.symm⟩
  · rw [if_neg hseq, List.append_nil]
    refine (good.answered seq pdu hpdu).imp_right fun h => ⟨h.1, h.2.1, ?_⟩
    have hwaits := h.2.2
    rw [hpending] at hwaits
    rcases List.mem_cons.mp hwaits with rfl | hlater
    · exact absurd rfl hseq
    · exact hrest ▸ hlater

theorem completeRequest_ledger (ledger : Ledger server)
    (hpending : server.queue.pendingRequests = request :: rest)
    (hrest : queue.pendingRequests = rest) :
    Ledger (({ server with queue } : Server).completeRequest request.seq completion) := by
  have hold : ∀ other ∈ request :: rest, other ∈ server.queue.pendingRequests := by
    intro other hother
    rw [hpending]
    exact hother
  have hnodup := ledger.nodup
  rw [hpending, List.map_cons, List.nodup_cons] at hnodup
  refine ⟨?_, ?_, ?_, ?_⟩
  · intro answer hanswer
    rcases List.mem_append.mp hanswer with hprevious | hadded
    · exact ledger.answered answer hprevious
    · rw [List.mem_singleton.mp hadded]
      exact ledger.seq_lt (hold request (List.mem_cons_self ..))
  · intro other hother
    have hlater : other ∈ rest := hrest ▸ hother
    rw [completeRequest_answersTo, if_neg (ledger.seq_ne hpending hlater), List.append_nil]
    exact ledger.unanswered other (hold other (List.mem_cons_of_mem _ hlater))
  · intro other hother
    exact ledger.received other (hold other (List.mem_cons_of_mem _ (hrest ▸ hother)))
  · change (queue.pendingRequests.map _).Nodup
    rw [hrest]
    exact hnodup.2

end Oldest

theorem handleAENEvent_answersEvery {ctrl : NvmeController} (good : AnswersEvery server)
    (ledger : Ledger server) (hctrl : server.queue.ctrl = some ctrl) :
    AnswersEvery (server.handleAENEvent ctrl) ∧ Ledger (server.handleAENEvent ctrl) := by
  have hpending : server.queue.pendingRequests = ctrl.asyncEventPendingRequests := by
    simp only [NvmeQueue.pendingRequests, hctrl]
  unfold Server.handleAENEvent NvmeController.handleAENEvent
  cases hrequests : ctrl.asyncEventPendingRequests with
  | nil => exact setQueue_answersEvery good ledger hpending.symm
  | cons request rest =>
    exact ⟨completeRequest_answersEvery good ledger (hpending.trans hrequests) rfl rfl,
      completeRequest_ledger ledger (hpending.trans hrequests) rfl⟩

theorem keepAliveExpired_pending (ctrl : NvmeController) :
    ctrl.keepAliveExpired.asyncEventPendingRequests = ctrl.asyncEventPendingRequests := by
  unfold NvmeController.keepAliveExpired
  split <;> rfl

end Event

/-- One step out of a good state. -/
theorem step_answersEvery {server server' : Server} {event : ServerEvent}
    (good : AnswersEvery server) (ledger : Ledger server) (hstep : server.step event = some server') :
    (AnswersEvery server' ↔ HandlesEvent server event) ∧ (AnswersEvery server' → Ledger server') := by
  cases event with
  | capsule capsule log =>
    simp only [Server.step, Option.ite_none_right_eq_some, Option.some.injEq] at hstep
    obtain ⟨hreader, rfl⟩ := hstep
    exact receive_answersEvery hreader good ledger
  | asyncEvent =>
    simp only [Server.step, Option.ite_none_left_eq_some, Option.map_eq_some_iff] at hstep
    obtain ⟨-, ctrl, hctrl, rfl⟩ := hstep
    obtain ⟨good', ledger'⟩ := handleAENEvent_answersEvery good ledger hctrl
    exact ⟨iff_of_true good' trivial, fun _ => ledger'⟩
  | keepAliveExpired =>
    simp only [Server.step, Option.ite_none_left_eq_some, Option.map_eq_some_iff] at hstep
    obtain ⟨-, ctrl, hctrl, rfl⟩ := hstep
    obtain ⟨good', ledger'⟩ := @setQueue_answersEvery server
      { server.queue with ctrl := some ctrl.keepAliveExpired } good ledger (by
        simp only [NvmeQueue.pendingRequests, hctrl, keepAliveExpired_pending])
    exact ⟨iff_of_true good' trivial, fun _ => ledger'⟩

theorem init_answersEvery {server : Server} (h : nvmeServer.init server) :
    AnswersEvery server ∧ Ledger server := by
  obtain ⟨controllerID, rfl⟩ := h
  refine ⟨⟨by simp, by simp [Reader.Live]⟩, ⟨by simp, ?_, ?_, ?_⟩⟩ <;>
    simp [NvmeQueue.pendingRequests]

/-- Every capsule of a run is answered, and the reading never stops silently, exactly when each
capsule is one that the server handles in the state it comes in. -/
theorem every_capsule_answered_iff {past : List (Server × ServerEvent)} {server : Server}
    (run : nvmeServer.Run past server) :
    Machine.Always AnswersEvery past server ↔ Machine.Each HandlesEvent past :=
  run.always_iff_each (fun _ => init_answersEvery)
    fun _ _ _ good ledger hstep => step_answersEvery good ledger hstep

/-- A command with this opcode, command ID, fabrics type, descriptor type and last words. -/
def samplePdu (opcode commandID fcType sglType : UInt8) (words : Vector UInt8 24) : Pdu where
  bytes := opcode :: 0x40 :: commandID :: 0 :: fcType :: List.replicate 34 0 ++ sglType :: words.toList
  length_eq := by simp

def sampleConnect : Capsule where
  pdu := samplePdu fabricsCommand 7 typeConnect sglInline
    #v[0, 0, 0, 0, 31, 0, 0, 0, 0, 0, 0, 0, 0, 0, 0, 0, 0, 0, 0, 0, 0, 0, 0, 0]
  inlineData := List.replicate 16 0 ++ [0xff, 0xff] ++ List.replicate 238 0 ++
    (discoverySubsysName ++ List.replicate 220 0) ++ List.replicate 512 0
  length_eq := by decide +kernel

/-- Enables the controller with queue entries of the sizes it asks for. -/
def sampleEnable : Capsule where
  pdu := samplePdu fabricsCommand 8 typePropertySet 0
    #v[0, 0, 0, 0, 0x14, 0, 0, 0, 1, 0, 0x46, 0, 0, 0, 0, 0, 0, 0, 0, 0, 0, 0, 0, 0]
  inlineData := List.replicate 1024 0
  length_eq := List.length_replicate

def sampleIdentify : Capsule where
  pdu := samplePdu adminIdentify 9 0 sglInline (Vector.replicate 24 0)
  inlineData := List.replicate 1024 0
  length_eq := List.length_replicate

theorem every_capsule_answered_iff_connect :
    ∃ past server, nvmeServer.Run past server ∧ server.answers.length = 1 ∧
      Machine.Always AnswersEvery past server := by
  have run := Machine.Run.next (m := nvmeServer) (e := .capsule sampleConnect TcpQueue.sampleLog)
    (.start ⟨1, rfl⟩) rfl
  refine ⟨_, _, run, by decide +kernel, (every_capsule_answered_iff run).mpr ?_⟩
  refine Machine.each_snoc.mpr ⟨by simp [Machine.Each], ?_, ?_, ?_⟩
  · exact fun _ _ _ _ => rfl
  · intro _ _ hctrl
    cases hctrl
  · intro _ _ hctrl
    cases hctrl

/-- The identify command is completed, and the goroutine returns without an error. -/
theorem inline_identify_unreported :
    ¬∀ past server, nvmeServer.Run past server → Machine.Always AnswersEvery past server := by
  intro h
  have hreader : (([sampleConnect, sampleEnable, sampleIdentify].map
      (ServerEvent.capsule · TcpQueue.sampleLog)).foldlM Server.step
        { queue := { controllerID := 1 } }).map (·.reader) = some .stopped := by
    decide +kernel
  obtain ⟨server, hevents, hstopped⟩ := Option.map_eq_some_iff.mp hreader
  obtain ⟨past, run⟩ := Machine.Reaches.events (m := nvmeServer) (fun _ _ _ hstep => hstep) _
    ⟨[], .start ⟨1, rfl⟩⟩ hevents
  exact (h past server run).2.live.1 hstopped

end Nvme

end DiscoveryClient
