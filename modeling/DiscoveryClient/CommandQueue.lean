import DiscoveryClient.GoMap
import DiscoveryClient.Machine

namespace DiscoveryClient

/-- The commands of the client, with what tells the property commands apart. -/
inductive QueueCommand
  | connect
  | propertyGet (registerOffset : UInt32)
  | propertySet (registerOffset : UInt32) (val : UInt64)
  | identify
  | setFeature
  | logPage
  | asyncEvent
  | keepAlive
deriving DecidableEq

def nvmeRegCap : UInt32 := 0x00
def nvmeRegVs : UInt32 := 0x08
def nvmeRegCc : UInt32 := 0x14
def nvmeRegCsts : UInt32 := 0x1c

def setControllerConfiguration (controllerConfigValue : UInt64) : List QueueCommand :=
  [.propertySet nvmeRegCc controllerConfigValue, .propertyGet nvmeRegCsts]

def setProperties : List QueueCommand :=
  .propertyGet nvmeRegCap :: setControllerConfiguration 0x460001 ++
    [.propertyGet nvmeRegVs, .propertyGet nvmeRegCap]

/-- What `Discover` sends before the log page is read. -/
def handshakeCommands : List QueueCommand :=
  .connect :: setProperties ++ [.identify, .setFeature]

/-- A request object; `addr` tells it from every other one. -/
structure QueueRequest where
  addr : Nat
  cmdID : UInt16
  command : QueueCommand
deriving DecidableEq

/-- `tcpQueue`. A write error stays with the buffered writer: once `broken`, every later send fails
before it stores anything. `requests` counts the objects made, `issued` the calls of `nextCmdID`, and
`unanswered` are the requests the server has and has not answered. -/
structure CommandQueue where
  commandID : UInt16 := 1
  outstandingRequests : GoMap UInt16 QueueRequest := ∅
  broken : Bool := false
  requests : Nat := 0
  issued : Nat := 0
  unanswered : List QueueRequest := []

namespace CommandQueue

/-- The ID a command gets: the counter's, except that keep alive always uses 0. -/
def idFor (q : CommandQueue) (command : QueueCommand) : UInt16 :=
  if command = .keepAlive then 0 else q.commandID

/-- The queue once the request for the command was made. -/
def made (q : CommandQueue) (command : QueueCommand) : CommandQueue :=
  if command = .keepAlive then { q with requests := q.requests + 1 }
  else
    { q with
      commandID := q.commandID + 1
      issued := q.issued + 1
      requests := q.requests + 1 }

def newRequest (q : CommandQueue) (command : QueueCommand) : QueueRequest :=
  ⟨q.requests, q.idFor command, command⟩

/-- The queue after `sendRequest`, and whether it returned an error. `flushed` is what the network
makes of the last step. -/
def sendRequest (q : CommandQueue) (request : QueueRequest) (flushed : Bool) : CommandQueue × Bool :=
  if q.broken then (q, true)
  else
    let stored := q.outstandingRequests.insert request.cmdID request
    if flushed then
      ({ q with outstandingRequests := stored, unanswered := request :: q.unanswered }, false)
    else ({ q with outstandingRequests := stored, broken := true }, true)

/-- The case `nvme_tcp_rsp`: the completed request, unless no request has this ID. -/
def parseResponse (q : CommandQueue) (commandID : UInt16) : CommandQueue × Option QueueRequest :=
  match q.outstandingRequests.lookup commandID with
  | none => (q, none)
  | some request =>
    ({ q with outstandingRequests := q.outstandingRequests.erase commandID }, some request)

end CommandQueue

/-- The goroutines that send commands. -/
inductive Issuer
  | discover
  | pollAEN
  | keepAlive
  | stop
deriving DecidableEq

/-- Where `Discover` is. Once it has `returned`, `pollAEN` and `keepAlive` run. -/
inductive DiscoverStage
  | handshake (rest : List QueueCommand)
  | logPages
  | returned
  | failed
deriving DecidableEq

/-- The stage after a command of `Discover` was answered. -/
def DiscoverStage.next : DiscoverStage → DiscoverStage
  | .handshake (_ :: command :: rest) => .handshake (command :: rest)
  | .handshake _ => .logPages
  | stage => stage

/-- The queue with the goroutines on it. `received` is the completed request that `handleRecv`
offers on one of the two channels, `stopCommands` what `Stop` has yet to send. -/
structure QueueClient where
  queue : CommandQueue := {}
  received : Option QueueRequest := none
  waiting : GoMap Issuer QueueRequest := ∅
  stage : DiscoverStage := .handshake handshakeCommands
  polling : Bool := true
  keepAlive : Bool := true
  stopCommands : List QueueCommand := setControllerConfiguration 0x464001

/-- `respond` is a completion that the server sends and `handleRecv` reads, `fail` the end of a wait
without a response: a timeout, or the context is done. -/
inductive QueueEvent
  | issue (who : Issuer) (command : QueueCommand) (flushed : Bool)
  | respond (request : QueueRequest)
  | deliver (who : Issuer)
  | fail (who : Issuer)
  | discovered

namespace QueueClient

/-- The program of each goroutine: whether this is the command it sends next. -/
def offers (s : QueueClient) : Issuer → QueueCommand → Bool
  | .discover, command =>
    match s.stage with
    | .handshake (next :: _) => command = next
    | .logPages => command = .logPage
    | _ => false
  | .pollAEN, command => s.stage = .returned && s.polling && command = .asyncEvent
  | .keepAlive, command => s.stage = .returned && s.keepAlive && command = .keepAlive
  | .stop, command => s.stopCommands.head? = some command

/-- The goroutine after its command succeeded. -/
def advance (s : QueueClient) (who : Issuer) : QueueClient :=
  { s with
    stage := if who = .discover then s.stage.next else s.stage
    stopCommands := if who = .stop then s.stopCommands.tail else s.stopCommands }

/-- The goroutine after its command failed. `pollAEN` goes on unless its context is done. -/
def abort (s : QueueClient) (who : Issuer) : QueueClient :=
  { s with
    stage := if who = .discover then .failed else s.stage
    keepAlive := if who = .keepAlive then false else s.keepAlive
    stopCommands := if who = .stop then [] else s.stopCommands }

def issue (s : QueueClient) (who : Issuer) (command : QueueCommand) (flushed : Bool) : QueueClient :=
  let request := s.queue.newRequest command
  let sent := (s.queue.made command).sendRequest request flushed
  if sent.2 then { s with queue := sent.1 }.abort who
  else { s with queue := sent.1, waiting := s.waiting.insert who request }

def respond (s : QueueClient) (request : QueueRequest) : QueueClient :=
  let (queue, received) := s.queue.parseResponse request.cmdID
  { s with queue := { queue with unanswered := queue.unanswered.erase request }, received }

/-- The channel on which `handleRecv` offers the request has this receiver. -/
def receives (request : QueueRequest) (who : Issuer) : Bool :=
  (request.command = .asyncEvent) = (who = .pollAEN)

def step (s : QueueClient) : QueueEvent → Option QueueClient
  | .issue who command flushed =>
    if s.waiting.lookup who = none ∧ s.offers who command then some (s.issue who command flushed)
    else none
  | .respond request =>
    if s.received = none ∧ request ∈ s.queue.unanswered then some (s.respond request) else none
  | .deliver who =>
    match s.received, s.waiting.lookup who with
    | some request, some _ =>
      if receives request who then
        some ({ s with received := none, waiting := s.waiting.erase who }.advance who)
      else none
    | _, _ => none
  | .fail who =>
    match s.waiting.lookup who with
    | none => none
    | some _ =>
      some
        ({ s with
          waiting := s.waiting.erase who
          polling := if who = Issuer.pollAEN then false else s.polling }.abort who)
  | .discovered =>
    if s.stage = .logPages ∧ s.waiting.lookup .discover = none then some { s with stage := .returned }
    else none

end QueueClient

def queueClient : Machine QueueClient QueueEvent where
  init s := s = {}
  step s e s' := s.step e = some s'

theorem queueClient_next {past : List (QueueClient × QueueEvent)} {s s' : QueueClient}
    (run : queueClient.Run past s) (e : QueueEvent) (hstep : s.step e = some s') :
    queueClient.Run (past ++ [(s, e)]) s' :=
  run.next hstep

/-- The step function as a relation, with what each event presupposes. -/
inductive QueueClient.Steps (s : QueueClient) : QueueEvent → QueueClient → Prop
  | issue {who : Issuer} {command : QueueCommand} {flushed : Bool} :
      s.waiting.lookup who = none → s.offers who command = true →
      Steps s (.issue who command flushed) (s.issue who command flushed)
  | respond {request : QueueRequest} : s.received = none → request ∈ s.queue.unanswered →
      Steps s (.respond request) (s.respond request)
  | deliver {who : Issuer} {request mine : QueueRequest} : s.received = some request →
      s.waiting.lookup who = some mine → receives request who = true →
      Steps s (.deliver who)
        ({ s with received := none, waiting := s.waiting.erase who }.advance who)
  | fail {who : Issuer} {mine : QueueRequest} : s.waiting.lookup who = some mine →
      Steps s (.fail who)
        ({ s with
          waiting := s.waiting.erase who
          polling := if who = Issuer.pollAEN then false else s.polling }.abort who)
  | discovered : s.stage = .logPages → s.waiting.lookup .discover = none →
      Steps s .discovered { s with stage := .returned }

theorem QueueClient.steps_of_step {s s' : QueueClient} {e : QueueEvent}
    (hstep : s.step e = some s') : s.Steps e s' := by
  cases e with
  | issue who command flushed =>
    simp only [step, Option.ite_none_right_eq_some, Option.some.injEq] at hstep
    obtain ⟨⟨hfree, hoffers⟩, rfl⟩ := hstep
    exact .issue hfree hoffers
  | respond request =>
    simp only [step, Option.ite_none_right_eq_some, Option.some.injEq] at hstep
    obtain ⟨⟨hreceived, hmem⟩, rfl⟩ := hstep
    exact .respond hreceived hmem
  | deliver who =>
    simp only [step] at hstep
    split at hstep
    next request mine hreceived hmine =>
      simp only [Option.ite_none_right_eq_some, Option.some.injEq] at hstep
      obtain ⟨hreceives, rfl⟩ := hstep
      exact .deliver hreceived hmine hreceives
    next => simp at hstep
  | fail who =>
    simp only [step] at hstep
    split at hstep
    next => simp at hstep
    next mine hmine =>
      rw [← Option.some.inj hstep]
      exact .fail hmine
  | discovered =>
    simp only [step, Option.ite_none_right_eq_some, Option.some.injEq] at hstep
    obtain ⟨⟨hstage, hnone⟩, rfl⟩ := hstep
    exact .discovered hstage hnone

theorem CommandQueue.made_frame (q : CommandQueue) (command : QueueCommand) :
    (q.made command).outstandingRequests = q.outstandingRequests ∧
      (q.made command).unanswered = q.unanswered ∧ (q.made command).broken = q.broken ∧
      (q.made command).requests = q.requests + 1 := by
  unfold CommandQueue.made
  split <;> exact ⟨rfl, rfl, rfl, rfl⟩

/-- A send fails before it stores the request, fails after it, or leaves its sender waiting. -/
theorem QueueClient.issue_cases (s : QueueClient) (who : Issuer) (command : QueueCommand)
    (flushed : Bool) :
    s.queue.broken = true ∧
        s.issue who command flushed = { s with queue := s.queue.made command }.abort who ∨
      s.queue.broken = false ∧ flushed = false ∧
        s.issue who command flushed =
          { s with
            queue :=
              { s.queue.made command with
                outstandingRequests := s.queue.outstandingRequests.insert (s.queue.idFor command)
                  (s.queue.newRequest command)
                broken := true } }.abort who ∨
      s.queue.broken = false ∧ flushed = true ∧
        s.issue who command flushed =
          { s with
            queue :=
              { s.queue.made command with
                outstandingRequests := s.queue.outstandingRequests.insert (s.queue.idFor command)
                  (s.queue.newRequest command)
                unanswered := s.queue.newRequest command :: s.queue.unanswered }
            waiting := s.waiting.insert who (s.queue.newRequest command) } := by
  obtain ⟨hout, hun, hbroken, _⟩ := s.queue.made_frame command
  cases hsound : s.queue.broken with
  | true =>
    refine Or.inl ⟨rfl, ?_⟩
    simp only [issue, CommandQueue.sendRequest, hbroken, hsound, if_true]
  | false =>
    cases flushed with
    | false =>
      refine Or.inr (Or.inl ⟨rfl, rfl, ?_⟩)
      simp only [issue, CommandQueue.sendRequest, hbroken, hsound, hout, Bool.false_eq_true, if_false,
        if_true]
      rfl
    | true =>
      refine Or.inr (Or.inr ⟨rfl, rfl, ?_⟩)
      simp only [issue, CommandQueue.sendRequest, hbroken, hsound, hout, hun, Bool.false_eq_true,
        if_false, if_true]
      rfl

/-- Nothing is under way on the connection. -/
structure QueueClient.Quiescent (s : QueueClient) : Prop where
  outstanding : s.queue.outstandingRequests = ∅
  unanswered : s.queue.unanswered = []
  sound : s.queue.broken = false
  received : s.received = none
  waiting : s.waiting = ∅

/-- The answer to the only outstanding command. -/
theorem QueueClient.respond_sent (s : QueueClient) {q : CommandQueue}
    (houtstanding : q.outstandingRequests = ∅) (hunanswered : q.unanswered = [])
    (request : QueueRequest) :
    QueueClient.respond
      { s with
        queue :=
          { q with
            outstandingRequests := (∅ : GoMap UInt16 QueueRequest).insert request.cmdID request
            unanswered := [request] } } request =
      { s with queue := q, received := some request } := by
  have hlookup : ((∅ : GoMap UInt16 QueueRequest).insert request.cmdID request).lookup
      request.cmdID = some request := AList.lookup_insert _
  obtain ⟨commandID, outstanding, broken, requests, issued, unanswered⟩ := q
  simp only at houtstanding hunanswered
  subst houtstanding hunanswered
  simp only [respond, CommandQueue.parseResponse, hlookup, GoMap.erase_insert_empty,
    List.erase_cons_head]

/-- A command is sent, answered, and its completion handed to the goroutine that sent it. -/
theorem queueClient_round {s : QueueClient} (reach : queueClient.Reaches s) (quiet : s.Quiescent)
    (who : Issuer) (command : QueueCommand) (hoffers : s.offers who command = true)
    (hreceives : (command = .asyncEvent) = (who = .pollAEN)) :
    queueClient.Reaches ({ s with queue := s.queue.made command }.advance who) := by
  obtain ⟨hout, hun, hbroken, _⟩ := s.queue.made_frame command
  have houtstanding := hout.trans quiet.outstanding
  have hunanswered := hun.trans quiet.unanswered
  have hsound := hbroken.trans quiet.sound
  have issued : queueClient.Reaches
      { s with
        queue :=
          { s.queue.made command with
            outstandingRequests := (∅ : GoMap UInt16 QueueRequest).insert
              (s.queue.newRequest command).cmdID (s.queue.newRequest command)
            unanswered := [s.queue.newRequest command] }
        waiting := (∅ : GoMap Issuer QueueRequest).insert who (s.queue.newRequest command) } := by
    refine reach.next (.issue who command true) ?_
    simp only [queueClient, QueueClient.step, quiet.waiting, AList.lookup_empty, hoffers, and_self,
      if_true, QueueClient.issue, CommandQueue.sendRequest, hsound, houtstanding, hunanswered,
      Bool.false_eq_true, if_false]
  have responded : queueClient.Reaches
      { s with
        queue := s.queue.made command
        received := some (s.queue.newRequest command)
        waiting := (∅ : GoMap Issuer QueueRequest).insert who (s.queue.newRequest command) } := by
    refine issued.next (.respond (s.queue.newRequest command)) ?_
    refine (if_pos ⟨quiet.received, List.mem_singleton_self _⟩).trans ?_
    exact congrArg some (QueueClient.respond_sent
      { s with waiting := (∅ : GoMap Issuer QueueRequest).insert who (s.queue.newRequest command) }
      houtstanding hunanswered _)
  refine responded.next (.deliver who) ?_
  simp only [queueClient, QueueClient.step, AList.lookup_insert, QueueClient.receives,
    CommandQueue.newRequest, hreceives, decide_true, if_true, GoMap.erase_insert_empty,
    quiet.received, quiet.waiting]

/-- The client after `n` commands, each answered before the next. -/
def QueueClient.idleAt (n : Nat) (stage : DiscoverStage) : QueueClient where
  queue := { commandID := UInt16.ofNat (n + 1), requests := n, issued := n }
  stage := stage

theorem QueueClient.idleAt_quiescent (n : Nat) (stage : DiscoverStage) :
    (idleAt n stage).Quiescent :=
  ⟨rfl, rfl, rfl, rfl, rfl⟩

theorem queueClient_idleAt_next {n : Nat} {stage : DiscoverStage}
    (reach : queueClient.Reaches (.idleAt n stage)) (who : Issuer) (command : QueueCommand)
    (hoffers : (QueueClient.idleAt n stage).offers who command = true)
    (hreceives : (command = .asyncEvent) = (who = .pollAEN)) (hkeep : command ≠ .keepAlive)
    (hstop : who ≠ .stop) :
    queueClient.Reaches (.idleAt (n + 1) (if who = .discover then stage.next else stage)) := by
  have hround := queueClient_round reach (QueueClient.idleAt_quiescent n stage) who command hoffers hreceives
  have hcounter : UInt16.ofNat (n + 1) + 1 = UInt16.ofNat (n + 1 + 1) := by
    rw [UInt16.ofNat_add (n + 1) 1]
    rfl
  simpa only [QueueClient.idleAt, QueueClient.advance, CommandQueue.made, hkeep, hstop, if_false,
    hcounter] using hround

theorem queueClient_handshake_next {n : Nat} {command : QueueCommand} {rest : List QueueCommand}
    (reach : queueClient.Reaches (.idleAt n (.handshake (command :: rest))))
    (hcommand : command ≠ .keepAlive ∧ command ≠ .asyncEvent) :
    queueClient.Reaches (.idleAt (n + 1) (DiscoverStage.handshake (command :: rest)).next) :=
  queueClient_idleAt_next reach .discover command (by simp [QueueClient.offers, QueueClient.idleAt])
    (by simp [hcommand.2]) hcommand.1 (by simp)

/-- The handshake with a server that answers every command. -/
theorem queueClient_handshake {n : Nat} {command : QueueCommand} {rest : List QueueCommand}
    (reach : queueClient.Reaches (.idleAt n (.handshake (command :: rest))))
    (hrest : ∀ c ∈ command :: rest, c ≠ .keepAlive ∧ c ≠ .asyncEvent) :
    queueClient.Reaches (.idleAt (n + rest.length + 1) .logPages) := by
  induction rest generalizing n command with
  | nil => exact queueClient_handshake_next reach (hrest command (List.mem_cons_self ..))
  | cons next rest ih =>
    have hnext := queueClient_handshake_next reach (hrest command (List.mem_cons_self ..))
    have hcount : n + (next :: rest).length + 1 = n + 1 + rest.length + 1 := by
      simp only [List.length_cons]
      omega
    rw [hcount]
    exact ih hnext fun c hc => hrest c (List.mem_cons_of_mem _ hc)

/-- `Discover` returns after the handshake and the three requests of a log page that is read at
once. -/
theorem queueClient_connected : queueClient.Reaches (.idleAt 11 .returned) := by
  have start : queueClient.Reaches (.idleAt 0 (.handshake handshakeCommands)) := ⟨[], .start rfl⟩
  have handshaken : queueClient.Reaches (.idleAt 8 .logPages) :=
    queueClient_handshake start (by decide)
  have logPage : ∀ n, queueClient.Reaches (.idleAt n .logPages) →
      queueClient.Reaches (.idleAt (n + 1) .logPages) := by
    intro n reach
    exact queueClient_idleAt_next reach .discover .logPage rfl (by simp) (by simp) (by simp)
  exact (logPage 10 (logPage 9 (logPage 8 handshaken))).next .discovered rfl

/-- Any number of asynchronous events, each answered before the next request. -/
theorem queueClient_events (n : Nat) : queueClient.Reaches (.idleAt (11 + n) .returned) := by
  induction n with
  | zero => exact queueClient_connected
  | succ n ih =>
    exact queueClient_idleAt_next ih .pollAEN .asyncEvent rfl (by simp) (by simp) (by simp)

end DiscoveryClient
