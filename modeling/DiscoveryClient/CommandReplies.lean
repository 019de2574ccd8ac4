import DiscoveryClient.CommandQueue

namespace DiscoveryClient

/-- A completed request that a waiting function receives is the one it sent. -/
def DeliversOwn (s : QueueClient) : QueueEvent → Prop
  | .deliver who => who ≠ .pollAEN → s.received = s.waiting.lookup who
  | _ => True

/-- The completed requests that may come over `completedRequestsChan`, now or later, are the
waiting function's own. -/
def OnlyOwn (s : QueueClient) : Prop :=
  ∀ who own, s.waiting.lookup who = some own → who ≠ .pollAEN → ∀ request,
    (s.received = some request ∨ ∃ id, s.queue.outstandingRequests.lookup id = some request) →
      request.command ≠ .asyncEvent → request = own

/-- A command is sent only when no function waits; and one whose sender will wait, only when no
other command is outstanding or received, except for asynchronous event requests and for a command
whose ID it takes over. -/
def Serialised (s : QueueClient) : QueueEvent → Prop
  | .issue _ command flushed => command ≠ .asyncEvent → s.queue.broken = false →
    (∀ who, who ≠ .pollAEN → s.waiting.lookup who = none) ∧
      (flushed = true → (∀ request, s.received = some request → request.command = .asyncEvent) ∧
        ∀ id request, s.queue.outstandingRequests.lookup id = some request →
          request.command ≠ .asyncEvent → id = s.queue.idFor command)
  | _ => True

/-- Every request in the client was made, and only `pollAEN` sends asynchronous event requests. -/
structure RequestsMade (s : QueueClient) : Prop where
  outstanding : ∀ id request, s.queue.outstandingRequests.lookup id = some request →
    request.addr < s.queue.requests
  received : ∀ request, s.received = some request → request.addr < s.queue.requests
  waiting : ∀ who request, s.waiting.lookup who = some request → request.addr < s.queue.requests
  handshake : ∀ rest, s.stage = .handshake rest → .asyncEvent ∉ rest
  stopping : .asyncEvent ∉ s.stopCommands

namespace RequestsMade

variable {s : QueueClient}

theorem offers_asyncEvent_iff (made : RequestsMade s) {who : Issuer} {command : QueueCommand}
    (hoffers : s.offers who command = true) : command = .asyncEvent ↔ who = .pollAEN := by
  cases who with
  | discover =>
    simp only [QueueClient.offers] at hoffers
    split at hoffers
    next next rest hstage =>
      have hmem : command ∈ next :: rest := by
        rw [of_decide_eq_true hoffers]
        exact List.mem_cons_self ..
      refine iff_of_false ?_ (by simp)
      intro heq
      exact made.handshake _ hstage (heq ▸ hmem)
    next => simp [of_decide_eq_true hoffers]
    next => simp at hoffers
  | pollAEN =>
    simp only [QueueClient.offers, Bool.and_eq_true, decide_eq_true_eq] at hoffers
    simp [hoffers.2]
  | keepAlive =>
    simp only [QueueClient.offers, Bool.and_eq_true, decide_eq_true_eq] at hoffers
    simp [hoffers.2]
  | stop =>
    simp only [QueueClient.offers, decide_eq_true_eq] at hoffers
    refine iff_of_false ?_ (by simp)
    intro heq
    exact made.stopping (heq ▸ List.mem_of_head? hoffers)

/-- The goroutine of `who` goes on or ends; the requests are the same or fewer. -/
theorem setProgram (made : RequestsMade s) {s' : QueueClient} (hqueue : s'.queue = s.queue)
    (hreceived : ∀ request, s'.received = some request → s.received = some request)
    (hwaiting : ∀ who request, s'.waiting.lookup who = some request →
      s.waiting.lookup who = some request)
    (hstage : ∀ rest, s'.stage = .handshake rest → ∃ rest', s.stage = .handshake rest' ∧
      ∀ c ∈ rest, c ∈ rest')
    (hstop : ∀ c ∈ s'.stopCommands, c ∈ s.stopCommands) : RequestsMade s' := by
  refine ⟨?_, ?_, ?_, ?_, ?_⟩
  · rw [hqueue]
    exact made.outstanding
  · intro request h
    rw [hqueue]
    exact made.received request (hreceived request h)
  · intro who request h
    rw [hqueue]
    exact made.waiting who request (hwaiting who request h)
  · intro rest hrest hmem
    obtain ⟨rest', hstage', hsub⟩ := hstage rest hrest
    exact made.handshake rest' hstage' (hsub _ hmem)
  · intro hmem
    exact made.stopping (hstop _ hmem)

/-- Both ends of `sendRequest` store one new request. -/
theorem outstanding_insert (made : RequestsMade s) (command : QueueCommand) {id : UInt16}
    {request : QueueRequest}
    (hrequest : (s.queue.outstandingRequests.insert (s.queue.idFor command)
      (s.queue.newRequest command)).lookup id = some request) :
    request.addr < (s.queue.made command).requests := by
  obtain ⟨_, _, _, hrequests⟩ := s.queue.made_frame command
  rcases GoMap.lookup_insert_some hrequest with ⟨_, rfl⟩ | ⟨_, hold⟩
  · change s.queue.requests < _
    omega
  · have := made.outstanding id request hold
    omega

theorem making (made : RequestsMade s) (command : QueueCommand) :
    RequestsMade { s with queue := s.queue.made command } := by
  obtain ⟨hout, _, _, hrequests⟩ := s.queue.made_frame command
  refine ⟨?_, ?_, ?_, made.handshake, made.stopping⟩
  · intro id request hrequest
    have hold := made.outstanding id request (hout ▸ hrequest)
    change _ < (s.queue.made command).requests
    omega
  · intro request hrequest
    have hold := made.received request hrequest
    change _ < (s.queue.made command).requests
    omega
  · intro who request hrequest
    have hold := made.waiting who request hrequest
    change _ < (s.queue.made command).requests
    omega

theorem abort (made : RequestsMade s) (who : Issuer) : RequestsMade (s.abort who) := by
  refine made.setProgram rfl (fun _ h => h) (fun _ _ h => h) ?_ ?_
  · intro rest hrest
    simp only [QueueClient.abort] at hrest
    split at hrest
    next => simp at hrest
    next => exact ⟨rest, hrest, fun _ h => h⟩
  · intro c hc
    simp only [QueueClient.abort] at hc
    split at hc
    next => simp at hc
    next => exact hc

theorem advance (made : RequestsMade s) (who : Issuer) : RequestsMade (s.advance who) := by
  refine made.setProgram rfl (fun _ h => h) (fun _ _ h => h) ?_ ?_
  · intro rest hrest
    simp only [QueueClient.advance] at hrest
    split at hrest
    next =>
      unfold DiscoverStage.next at hrest
      split at hrest
      next first command later hstage =>
        rw [← DiscoverStage.handshake.inj hrest]
        exact ⟨_, hstage, fun _ h => List.mem_cons_of_mem _ h⟩
      next => simp at hrest
      next hnot => exact absurd hrest (hnot rest)
    next => exact ⟨rest, hrest, fun _ h => h⟩
  · intro c hc
    simp only [QueueClient.advance] at hc
    split at hc
    next => exact List.mem_of_mem_tail hc
    next => exact hc

theorem issue (made : RequestsMade s) (who : Issuer) (command : QueueCommand) (flushed : Bool) :
    RequestsMade (s.issue who command flushed) := by
  have hmade := made.making command
  rcases s.issue_cases who command flushed with ⟨_, heq⟩ | ⟨_, _, heq⟩ | ⟨_, _, heq⟩
  · rw [heq]
    exact hmade.abort who
  · rw [heq]
    refine RequestsMade.abort ?_ who
    refine ⟨?_, hmade.received, hmade.waiting, made.handshake, made.stopping⟩
    exact fun id request hrequest => made.outstanding_insert command hrequest
  · rw [heq]
    refine ⟨?_, hmade.received, ?_, made.handshake, made.stopping⟩
    · exact fun id request hrequest => made.outstanding_insert command hrequest
    · intro who' request hrequest
      obtain ⟨_, _, _, hrequests⟩ := s.queue.made_frame command
      rcases GoMap.lookup_insert_some hrequest with ⟨_, rfl⟩ | ⟨_, hold⟩
      · change s.queue.requests < (s.queue.made command).requests
        omega
      · exact hmade.waiting who' request hold

theorem respond (made : RequestsMade s) (request : QueueRequest) :
    RequestsMade (s.respond request) := by
  simp only [QueueClient.respond, CommandQueue.parseResponse]
  split
  next => exact ⟨made.outstanding, by simp, made.waiting, made.handshake, made.stopping⟩
  next found hfound =>
    refine ⟨?_, ?_, made.waiting, made.handshake, made.stopping⟩
    · intro id r hr
      exact made.outstanding id r (GoMap.lookup_erase_some hr).2
    · intro r hr
      rw [← Option.some.inj hr]
      exact made.outstanding _ found hfound

theorem step {s' : QueueClient} {e : QueueEvent} (made : RequestsMade s)
    (hstep : s.step e = some s') : RequestsMade s' := by
  cases QueueClient.steps_of_step hstep with
  | @issue who command flushed => exact made.issue who command flushed
  | @respond request => exact made.respond request
  | @deliver who =>
    refine RequestsMade.advance ?_ who
    refine made.setProgram rfl (by simp) ?_ ?_ (fun _ h => h)
    · exact fun _ _ h => (GoMap.lookup_erase_some h).2
    · exact fun rest h => ⟨rest, h, fun _ h => h⟩
  | @fail who =>
    refine RequestsMade.abort ?_ who
    refine made.setProgram rfl (fun _ h => h) ?_ ?_ (fun _ h => h)
    · exact fun _ _ h => (GoMap.lookup_erase_some h).2
    · exact fun rest h => ⟨rest, h, fun _ h => h⟩
  | discovered =>
    exact made.setProgram rfl (fun _ h => h) (fun _ _ h => h) (by simp) (fun _ h => h)

end RequestsMade

/-- With fewer who wait and fewer completions to come, each is still the waiting function's own. -/
theorem OnlyOwn.mono {s s' : QueueClient} (own : OnlyOwn s)
    (hwaiting : ∀ who request, who ≠ .pollAEN → s'.waiting.lookup who = some request →
      s.waiting.lookup who = some request)
    (hrequests : ∀ request, (s'.received = some request ∨
      ∃ id, s'.queue.outstandingRequests.lookup id = some request) → request.command ≠ .asyncEvent →
      s.received = some request ∨ ∃ id, s.queue.outstandingRequests.lookup id = some request) :
    OnlyOwn s' := by
  intro who mine hmine hwho request hrequest hcommand
  exact own who mine (hwaiting who mine hwho hmine) hwho request (hrequests request hrequest hcommand)
    hcommand

/-- A request that was made before is not the new one. -/
theorem RequestsMade.ne_newRequest {s : QueueClient} {request : QueueRequest}
    (haddr : request.addr < s.queue.requests) (command : QueueCommand) :
    request ≠ s.queue.newRequest command := by
  intro heq
  rw [heq] at haddr
  exact Nat.lt_irrefl _ haddr

/-- A command is stored and its sender does not wait. -/
theorem OnlyOwn.stored_iff {s s' : QueueClient} (made : RequestsMade s)
    {command : QueueCommand} (hcommand : command ≠ .asyncEvent)
    (houtstanding : s'.queue.outstandingRequests =
      s.queue.outstandingRequests.insert (s.queue.idFor command) (s.queue.newRequest command))
    (hwaiting : s'.waiting = s.waiting) :
    OnlyOwn s' ↔ ∀ who, who ≠ .pollAEN → s.waiting.lookup who = none := by
  constructor
  · intro own' who hwho
    rw [Option.eq_none_iff_forall_ne_some]
    intro mine hmine
    have hstored : s'.queue.outstandingRequests.lookup (s.queue.idFor command) =
        some (s.queue.newRequest command) := by
      rw [houtstanding]
      exact AList.lookup_insert _
    have hnew := own' who mine (hwaiting ▸ hmine) hwho (s.queue.newRequest command)
      (Or.inr ⟨_, hstored⟩) hcommand
    exact RequestsMade.ne_newRequest (made.waiting who mine hmine) command hnew.symm
  · intro hnone who mine hmine hwho
    rw [hwaiting, hnone who hwho] at hmine
    simp at hmine

/-- A command is stored and its sender waits. -/
theorem OnlyOwn.sent_iff {s s' : QueueClient} (made : RequestsMade s) {who : Issuer}
    {command : QueueCommand} (hwho : who ≠ .pollAEN) (hcommand : command ≠ .asyncEvent)
    (hfree : s.waiting.lookup who = none)
    (houtstanding : s'.queue.outstandingRequests =
      s.queue.outstandingRequests.insert (s.queue.idFor command) (s.queue.newRequest command))
    (hreceived : s'.received = s.received)
    (hwaiting : s'.waiting = s.waiting.insert who (s.queue.newRequest command)) :
    OnlyOwn s' ↔ (∀ who, who ≠ .pollAEN → s.waiting.lookup who = none) ∧
      (∀ request, s.received = some request → request.command = .asyncEvent) ∧
      ∀ id request, s.queue.outstandingRequests.lookup id = some request →
        request.command ≠ .asyncEvent → id = s.queue.idFor command := by
  have hself : s'.waiting.lookup who = some (s.queue.newRequest command) := by
    rw [hwaiting]
    exact AList.lookup_insert _
  have hstored : s'.queue.outstandingRequests.lookup (s.queue.idFor command) =
      some (s.queue.newRequest command) := by
    rw [houtstanding]
    exact AList.lookup_insert _
  constructor
  · intro own'
    refine ⟨?_, ?_, ?_⟩
    · intro other hother
      rw [Option.eq_none_iff_forall_ne_some]
      intro mine hmine
      have hne : other ≠ who := by
        intro heq
        rw [heq, hfree] at hmine
        simp at hmine
      have hmine' : s'.waiting.lookup other = some mine := by
        rw [hwaiting, GoMap.lookup_insert_eq, if_neg hne]
        exact hmine
      have hnew := own' other mine hmine' hother _ (Or.inr ⟨_, hstored⟩) hcommand
      exact RequestsMade.ne_newRequest (made.waiting other mine hmine) command hnew.symm
    · intro request hrequest
      by_contra hne
      have hnew := own' who _ hself hwho request (Or.inl (hreceived.trans hrequest)) hne
      exact RequestsMade.ne_newRequest (made.received request hrequest) command hnew
    · intro id request hrequest hne
      by_contra hid
      have hstill : s'.queue.outstandingRequests.lookup id = some request := by
        rw [houtstanding, GoMap.lookup_insert_eq, if_neg hid]
        exact hrequest
      have hnew := own' who _ hself hwho request (Or.inr ⟨id, hstill⟩) hne
      exact RequestsMade.ne_newRequest (made.outstanding id request hrequest) command hnew
  · intro hserial other mine hmine hother request hrequest hne
    obtain ⟨hnone, hasync, htaken⟩ := hserial
    rw [hwaiting] at hmine
    rcases GoMap.lookup_insert_some hmine with ⟨_, rfl⟩ | ⟨_, hold⟩
    · rcases hrequest with hrequest | ⟨id, hrequest⟩
      · exact absurd (hasync request (hreceived.symm.trans hrequest)) hne
      · rw [houtstanding] at hrequest
        rcases GoMap.lookup_insert_some hrequest with ⟨_, heq⟩ | ⟨hid, hold⟩
        · exact heq
        · exact absurd (htaken id request hold hne) hid
    · rw [hnone other hother] at hold
      simp at hold

/-- An asynchronous event request is stored: nobody waits for it on the shared channel. -/
theorem OnlyOwn.asyncEvent {s s' : QueueClient} (own : OnlyOwn s)
    (houtstanding : s'.queue.outstandingRequests = s.queue.outstandingRequests.insert
      (s.queue.idFor .asyncEvent) (s.queue.newRequest .asyncEvent))
    (hreceived : s'.received = s.received)
    (hwaiting : ∀ who request, who ≠ .pollAEN → s'.waiting.lookup who = some request →
      s.waiting.lookup who = some request) : OnlyOwn s' := by
  refine own.mono hwaiting ?_
  intro request hrequest hcommand
  rcases hrequest with hrequest | ⟨id, hrequest⟩
  · exact Or.inl (hreceived.symm.trans hrequest)
  · rw [houtstanding] at hrequest
    rcases GoMap.lookup_insert_some hrequest with ⟨_, rfl⟩ | ⟨_, hold⟩
    · exact absurd rfl hcommand
    · exact Or.inr ⟨id, hold⟩

theorem onlyOwn_issue {s : QueueClient} (own : OnlyOwn s) (made : RequestsMade s) {who : Issuer}
    {command : QueueCommand} (hfree : s.waiting.lookup who = none)
    (hoffers : s.offers who command = true) (flushed : Bool) :
    OnlyOwn (s.issue who command flushed) ↔ Serialised s (.issue who command flushed) := by
  have hasync := made.offers_asyncEvent_iff hoffers
  by_cases hcommand : command = .asyncEvent
  · refine iff_of_true ?_ fun hne => absurd hcommand hne
    have hwho := hasync.mp hcommand
    subst hcommand hwho
    rcases s.issue_cases .pollAEN .asyncEvent flushed with ⟨_, heq⟩ | ⟨_, _, heq⟩ | ⟨_, _, heq⟩
    · rw [heq]
      refine own.mono (fun _ _ _ h => h) ?_
      intro request hrequest _
      change s.received = some request ∨
        ∃ id, (s.queue.made .asyncEvent).outstandingRequests.lookup id = some request at hrequest
      rwa [(s.queue.made_frame .asyncEvent).1] at hrequest
    · rw [heq]
      exact own.asyncEvent rfl rfl fun _ _ _ h => h
    · rw [heq]
      refine own.asyncEvent rfl rfl ?_
      intro who request hwho hrequest
      exact (AList.lookup_insert_ne hwho).symm.trans hrequest
  · have hwho : who ≠ .pollAEN := fun h => hcommand (hasync.mpr h)
    rcases s.issue_cases who command flushed with ⟨hbroken, heq⟩ | ⟨hsound, rfl, heq⟩ |
      ⟨hsound, rfl, heq⟩
    · rw [heq]
      refine iff_of_true ?_ fun _ hsound => absurd (hbroken.symm.trans hsound) (by simp)
      refine own.mono (fun _ _ _ h => h) ?_
      intro request hrequest _
      change s.received = some request ∨
        ∃ id, (s.queue.made command).outstandingRequests.lookup id = some request at hrequest
      rwa [(s.queue.made_frame command).1] at hrequest
    · rw [heq]
      refine Iff.trans (OnlyOwn.stored_iff made hcommand ?_ ?_) ?_
      · rfl
      · rfl
      · simp [Serialised, hcommand, hsound]
    · rw [heq]
      refine Iff.trans (OnlyOwn.sent_iff made hwho hcommand hfree ?_ ?_ ?_) ?_
      · rfl
      · rfl
      · rfl
      · simp [Serialised, hcommand, hsound]

/-- What the receive loop takes off the wire was outstanding. -/
theorem OnlyOwn.respond {s : QueueClient} (own : OnlyOwn s) (request : QueueRequest) :
    OnlyOwn (s.respond request) := by
  refine own.mono ?_ ?_
  · simp only [QueueClient.respond]
    exact fun _ _ _ h => h
  · intro r hr _
    simp only [QueueClient.respond, CommandQueue.parseResponse] at hr
    split at hr
    next =>
      rcases hr with hr | hr
      · simp at hr
      · exact Or.inr hr
    next found hfound =>
      rcases hr with hr | ⟨id, hr⟩
      · rw [← Option.some.inj hr]
        exact Or.inr ⟨_, hfound⟩
      · exact Or.inr ⟨id, (GoMap.lookup_erase_some hr).2⟩

theorem onlyOwn_step {s s' : QueueClient} {e : QueueEvent} (own : OnlyOwn s) (made : RequestsMade s)
    (hstep : s.step e = some s') : OnlyOwn s' ↔ Serialised s e := by
  cases QueueClient.steps_of_step hstep with
  | issue hfree hoffers => exact onlyOwn_issue own made hfree hoffers _
  | respond => exact iff_of_true (own.respond _) trivial
  | deliver =>
    refine iff_of_true (own.mono ?_ ?_) trivial
    · exact fun _ _ _ h => (GoMap.lookup_erase_some h).2
    · intro r hr _
      rcases hr with hr | hr
      · simp [QueueClient.advance] at hr
      · exact Or.inr hr
  | fail =>
    refine iff_of_true (own.mono ?_ ?_) trivial
    · exact fun _ _ _ h => (GoMap.lookup_erase_some h).2
    · exact fun _ hr _ => hr
  | discovered => exact iff_of_true (own.mono (fun _ _ _ h => h) (fun _ hr _ => hr)) trivial

theorem OnlyOwn.delivers {s s' : QueueClient} {e : QueueEvent} (own : OnlyOwn s)
    (hstep : s.step e = some s') : DeliversOwn s e := by
  cases QueueClient.steps_of_step hstep with
  | @deliver who request mine hreceived hmine hreceives =>
    intro hwho
    have hcommand : request.command ≠ .asyncEvent := by
      intro heq
      simp [QueueClient.receives, heq, hwho] at hreceives
    rw [hreceived, hmine, own who mine hmine hwho request (Or.inl hreceived) hcommand]
  | issue | respond | fail | discovered => trivial

/-- The runs in which no completed request can reach a function that did not send it are those in
which commands are serialised. -/
theorem replies_delivered_iff {past : List (QueueClient × QueueEvent)} {s : QueueClient}
    (run : queueClient.Run past s) :
    Machine.Always OnlyOwn past s ∧ Machine.Each DeliversOwn past ↔
      Machine.Each Serialised past := by
  have hruns : Machine.Always OnlyOwn past s ↔ Machine.Each Serialised past := by
    refine Machine.Run.always_iff_each (J := RequestsMade) ?_ ?_ run
    · intro s hinit
      rw [hinit]
      refine ⟨by simp [OnlyOwn], by simp, by simp, by simp, ?_, by decide⟩
      intro rest hrest
      rw [← DiscoverStage.handshake.inj hrest]
      decide
    · intro s e s' own made hstep
      exact ⟨onlyOwn_step own made hstep, fun _ => made.step hstep⟩
  rw [← hruns]
  refine and_iff_left_of_imp ?_
  intro own x hx
  obtain ⟨s', hstep⟩ := run.each_step x hx
  exact (own.1 x hx).delivers hstep

theorem replies_delivered_iff_connect : ∃ past s, queueClient.Run past s ∧ s.queue.issued = 2 ∧
    Machine.Always OnlyOwn past s ∧ Machine.Each DeliversOwn past := by
  have sent := queueClient_next (.start rfl) (.issue .discover .connect true) rfl
  have answered := queueClient_next sent (.respond ⟨0, 1, .connect⟩) rfl
  have connected := queueClient_next answered (.deliver .discover) rfl
  have run := queueClient_next connected (.issue .discover (.propertyGet nvmeRegCap) true) rfl
  refine ⟨_, _, run, rfl, (replies_delivered_iff run).mpr ?_⟩
  refine Machine.each_snoc.mpr ⟨?_, fun _ _ => ⟨?_, fun _ => ⟨?_, ?_⟩⟩⟩
  · refine Machine.each_snoc.mpr ⟨?_, trivial⟩
    refine Machine.each_snoc.mpr ⟨?_, trivial⟩
    refine Machine.each_snoc.mpr ⟨?_, by simp [Serialised]⟩
    simp [Machine.Each]
  · intro who _
    cases who <;> rfl
  · intro request hrequest
    simp [QueueClient.advance] at hrequest
  · intro id request hrequest
    have hempty : (∅ : GoMap UInt16 QueueRequest).lookup id = some request := by
      rw [← GoMap.erase_insert_empty (1 : UInt16) ⟨0, 1, .connect⟩]
      exact hrequest
    simp at hempty

/-- `Stop` sends its command while the keep alive waits: the completion of the keep alive is handed
to `Stop`. -/
theorem reply_misdelivered :
    ¬∀ past s, queueClient.Run past s → Machine.Each DeliversOwn past := by
  intro h
  obtain ⟨past, run⟩ := queueClient_connected
  have kept := queueClient_next run (.issue .keepAlive .keepAlive true) rfl
  have stopping := queueClient_next kept
    (.issue .stop (.propertySet nvmeRegCc 0x464001) true) rfl
  have answered := queueClient_next stopping (.respond ⟨11, 0, .keepAlive⟩) rfl
  have delivered := queueClient_next answered (.deliver .stop) rfl
  have hown := (Machine.each_snoc.mp (h _ _ delivered)).2 (by decide)
  revert hown
  decide

end DiscoveryClient
