import DiscoveryClient.CommandQueue

namespace DiscoveryClient

/-- A request is stored under an ID that is not outstanding, and the counter does not yield the ID
of the keep alive. -/
def StoresFresh (s : QueueClient) : QueueEvent → Prop
  | .issue _ command _ =>
    (command ≠ .keepAlive → s.queue.commandID ≠ 0) ∧
      (s.queue.broken = false → s.queue.idFor command ∉ s.queue.outstandingRequests)
  | _ => True

/-- Every command the server may still answer is found by the ID of its answer. -/
def AnswersMatched (s : QueueClient) : Prop :=
  ∀ request ∈ s.queue.unanswered, (s.queue.parseResponse request.cmdID).2 = some request

/-- Fewer than 65535 commands took their ID from the counter before, and no earlier keep alive is
outstanding when one is stored. -/
def WithinCounter (s : QueueClient) : QueueEvent → Prop
  | .issue _ command _ =>
    if command = .keepAlive then
      s.queue.broken = false →
        ∀ id request, s.queue.outstandingRequests.lookup id = some request →
          request.command ≠ .keepAlive
    else s.queue.issued < 65535
  | _ => True

/-- What is outstanding while the counter has not wrapped. -/
structure CounterInv (q : CommandQueue) : Prop where
  counter : q.commandID.toNat = (q.issued + 1) % 65536
  bound : q.issued ≤ 65535
  keys : ∀ id request, q.outstandingRequests.lookup id = some request → request.cmdID = id ∧
    (request.command = .keepAlive ∧ id = 0 ∨
      request.command ≠ .keepAlive ∧ 1 ≤ id.toNat ∧ id.toNat ≤ q.issued)
  matched : ∀ request ∈ q.unanswered, q.outstandingRequests.lookup request.cmdID = some request
  made : ∀ request ∈ q.unanswered, request.addr < q.requests
  nodup : q.unanswered.Nodup

namespace CounterInv

variable {q : CommandQueue}

theorem commandID_ne_zero_iff (inv : CounterInv q) : q.commandID ≠ 0 ↔ q.issued < 65535 := by
  have hcounter := inv.counter
  have hbound := inv.bound
  constructor
  · intro hne
    have hpos : q.commandID.toNat ≠ 0 := by
      intro hzero
      exact hne (UInt16.toNat_inj.mp hzero)
    omega
  · intro hlt hzero
    rw [hzero] at hcounter
    have : (0 : UInt16).toNat = 0 := rfl
    omega

theorem counter_free (inv : CounterInv q) (hlt : q.issued < 65535) :
    q.commandID ∉ q.outstandingRequests := by
  intro hmem
  obtain ⟨request, hrequest⟩ := GoMap.mem_iff_lookup.mp hmem
  have hcounter := inv.counter
  obtain ⟨_, ⟨_, hzero⟩ | ⟨_, _, hle⟩⟩ := inv.keys _ request hrequest
  · exact inv.commandID_ne_zero_iff.mpr hlt hzero
  · omega

theorem zero_free_iff (inv : CounterInv q) : (0 : UInt16) ∉ q.outstandingRequests ↔
    ∀ id request, q.outstandingRequests.lookup id = some request → request.command ≠ .keepAlive := by
  constructor
  · intro hfree id request hrequest hcommand
    obtain ⟨_, ⟨_, rfl⟩ | ⟨hne, _⟩⟩ := inv.keys id request hrequest
    · exact hfree (GoMap.mem_iff_lookup.mpr ⟨request, hrequest⟩)
    · exact hne hcommand
  · intro hnone hmem
    obtain ⟨request, hrequest⟩ := GoMap.mem_iff_lookup.mp hmem
    obtain ⟨_, ⟨hcommand, _⟩ | ⟨_, hone, _⟩⟩ := inv.keys _ request hrequest
    · exact hnone _ request hrequest hcommand
    · exact absurd hone (by decide)

theorem storesFresh_iff {s : QueueClient} (inv : CounterInv s.queue) (e : QueueEvent) :
    StoresFresh s e ↔ WithinCounter s e := by
  cases e with
  | issue who command flushed =>
    simp only [StoresFresh, WithinCounter]
    split
    next hkeep =>
      subst hkeep
      rw [show s.queue.idFor .keepAlive = 0 from rfl, inv.zero_free_iff]
      simp
    next hkeep =>
      have hid : s.queue.idFor command = s.queue.commandID := if_neg hkeep
      rw [hid, inv.commandID_ne_zero_iff]
      constructor
      · intro h
        exact h.1 hkeep
      · intro hlt
        exact ⟨fun _ => hlt, fun _ => inv.counter_free hlt⟩
  | respond request => exact Iff.rfl
  | deliver who => exact Iff.rfl
  | fail who => exact Iff.rfl
  | discovered => exact Iff.rfl

theorem making (inv : CounterInv q) {command : QueueCommand}
    (hlt : command ≠ .keepAlive → q.issued < 65535) : CounterInv (q.made command) := by
  unfold CommandQueue.made
  split
  next =>
    refine ⟨inv.counter, inv.bound, inv.keys, inv.matched, ?_, inv.nodup⟩
    intro request hmem
    exact Nat.lt_succ_of_lt (inv.made request hmem)
  next hkeep =>
    have hissued := hlt hkeep
    refine ⟨?_, Nat.succ_le_of_lt hissued, ?_, inv.matched, ?_, inv.nodup⟩
    · have hcounter := inv.counter
      have hone : (1 : UInt16).toNat = 1 := rfl
      simp only [UInt16.toNat_add, hone]
      omega
    · intro id request hrequest
      obtain ⟨hid, hzero | ⟨hne, hone, hle⟩⟩ := inv.keys id request hrequest
      · exact ⟨hid, Or.inl hzero⟩
      · exact ⟨hid, Or.inr ⟨hne, hone, Nat.le_succ_of_le hle⟩⟩
    · intro request hmem
      exact Nat.lt_succ_of_lt (inv.made request hmem)

/-- The key of a new request once the counter has moved. -/
theorem newRequest_key (inv : CounterInv q) {command : QueueCommand}
    (hlt : command ≠ .keepAlive → q.issued < 65535) :
    command = .keepAlive ∧ q.idFor command = 0 ∨
      command ≠ .keepAlive ∧ 1 ≤ (q.idFor command).toNat ∧
        (q.idFor command).toNat ≤ (q.made command).issued := by
  have hcounter := inv.counter
  unfold CommandQueue.idFor CommandQueue.made
  split
  next hkeep => exact Or.inl ⟨hkeep, rfl⟩
  next hkeep =>
    have hissued := hlt hkeep
    exact Or.inr ⟨hkeep, by omega, by change _ ≤ q.issued + 1; omega⟩

theorem send (inv : CounterInv q) {command : QueueCommand}
    (hlt : command ≠ .keepAlive → q.issued < 65535)
    (hfree : q.broken = false → q.idFor command ∉ q.outstandingRequests) (flushed : Bool) :
    CounterInv ((q.made command).sendRequest (q.newRequest command) flushed).1 := by
  have hmade := inv.making hlt
  obtain ⟨houtstanding, hunanswered, hbroken, hrequests⟩ := q.made_frame command
  unfold CommandQueue.sendRequest
  split
  next => exact hmade
  next hok =>
    have hid : q.idFor command ∉ q.outstandingRequests := by
      refine hfree ?_
      rw [← hbroken]
      simpa using hok
    have hkeys : ∀ id request, ((q.made command).outstandingRequests.insert
        (q.newRequest command).cmdID (q.newRequest command)).lookup id = some request →
        request.cmdID = id ∧ (request.command = .keepAlive ∧ id = 0 ∨
          request.command ≠ .keepAlive ∧ 1 ≤ id.toNat ∧ id.toNat ≤ (q.made command).issued) := by
      intro id request hrequest
      rcases GoMap.lookup_insert_some hrequest with ⟨rfl, rfl⟩ | ⟨_, hold⟩
      · exact ⟨rfl, inv.newRequest_key hlt⟩
      · exact hmade.keys id request hold
    have hold : ∀ request ∈ (q.made command).unanswered,
        ((q.made command).outstandingRequests.insert (q.newRequest command).cmdID
          (q.newRequest command)).lookup request.cmdID = some request := by
      intro request hmem
      have hlookup := hmade.matched request hmem
      have hne : request.cmdID ≠ (q.newRequest command).cmdID := by
        intro heq
        rw [houtstanding, heq] at hlookup
        exact hid (GoMap.mem_iff_lookup.mpr ⟨request, hlookup⟩)
      rw [GoMap.lookup_insert_eq, if_neg hne]
      exact hlookup
    split
    next =>
      refine ⟨hmade.counter, hmade.bound, hkeys, ?_, ?_, ?_⟩
      · intro request hmem
        rcases List.mem_cons.mp hmem with rfl | hmem
        · exact AList.lookup_insert _
        · exact hold request hmem
      · intro request hmem
        rcases List.mem_cons.mp hmem with rfl | hmem
        · change q.requests < (q.made command).requests
          omega
        · exact hmade.made request hmem
      · refine List.nodup_cons.mpr ⟨?_, hmade.nodup⟩
        intro hmem
        rw [hunanswered] at hmem
        exact Nat.lt_irrefl _ (inv.made _ hmem)
    next => exact ⟨hmade.counter, hmade.bound, hkeys, hold, hmade.made, hmade.nodup⟩

theorem respond (inv : CounterInv q) {request : QueueRequest} (hmem : request ∈ q.unanswered) :
    CounterInv { (q.parseResponse request.cmdID).1 with
      unanswered := (q.parseResponse request.cmdID).1.unanswered.erase request } := by
  simp only [CommandQueue.parseResponse, inv.matched request hmem]
  refine ⟨inv.counter, inv.bound, ?_, ?_, ?_, inv.nodup.erase request⟩
  · intro id r hr
    exact inv.keys id r (GoMap.lookup_erase_some hr).2
  · intro r hr
    obtain ⟨hne, hr⟩ := inv.nodup.mem_erase_iff.mp hr
    have hid : r.cmdID ≠ request.cmdID := by
      intro heq
      have hsame := (inv.matched r hr).symm.trans (heq ▸ inv.matched request hmem)
      exact hne (Option.some.inj hsame)
    rw [GoMap.lookup_erase_eq, if_neg hid]
    exact inv.matched r hr
  · intro r hr
    exact inv.made r (List.mem_of_mem_erase hr)

end CounterInv

theorem QueueClient.queue_issue (s : QueueClient) (who : Issuer) (command : QueueCommand)
    (flushed : Bool) : (s.issue who command flushed).queue =
      ((s.queue.made command).sendRequest (s.queue.newRequest command) flushed).1 := by
  unfold issue
  dsimp only
  split <;> rfl

/-- Only sends and responses change the queue. -/
theorem CounterInv.step {s s' : QueueClient} {e : QueueEvent} (inv : CounterInv s.queue)
    (hstep : s.step e = some s') (fresh : StoresFresh s e) : CounterInv s'.queue := by
  cases QueueClient.steps_of_step hstep with
  | issue _ _ =>
    rw [QueueClient.queue_issue]
    exact inv.send (fun hkeep => inv.commandID_ne_zero_iff.mp (fresh.1 hkeep)) fresh.2 _
  | respond _ hmem => exact inv.respond hmem
  | deliver | fail | discovered => exact inv

/-- The runs in which no outstanding command is overwritten, and every answer finds its command, are
those in which the counter yields fewer than 65536 IDs and no keep alive is sent while an earlier one
is outstanding. -/
theorem command_ids_iff {past : List (QueueClient × QueueEvent)} {s : QueueClient}
    (run : queueClient.Run past s) :
    Machine.Each StoresFresh past ∧ Machine.Always AnswersMatched past s ↔
      Machine.Each WithinCounter past := by
  have hruns := run.each_iff_each (J := fun s => CounterInv s.queue) (P := StoresFresh)
    (C := WithinCounter) ?_ ?_
  · constructor
    · intro h
      exact hruns.1.mp h.1
    · intro h
      have hfresh := hruns.1.mpr h
      have hinv := hruns.2 hfresh
      have hmatched : ∀ {s : QueueClient}, CounterInv s.queue → AnswersMatched s := by
        intro s inv request hmem
        simp only [CommandQueue.parseResponse, inv.matched request hmem]
      exact ⟨hfresh, fun x hx => hmatched (hinv.1 x hx), hmatched hinv.2⟩
  · intro s hinit
    rw [hinit]
    exact ⟨rfl, by decide, by simp, by simp, by simp, List.nodup_nil⟩
  · intro s e s' inv hstep
    exact ⟨inv.storesFresh_iff e, inv.step hstep⟩

theorem command_ids_iff_connect : ∃ past s, queueClient.Run past s ∧ s.queue.commandID = 2 ∧
    Machine.Each StoresFresh past ∧ Machine.Always AnswersMatched past s := by
  have sent := queueClient_next (.start rfl) (.issue .discover .connect true) rfl
  have answered := queueClient_next sent (.respond ⟨0, 1, .connect⟩) rfl
  have run := queueClient_next answered (.deliver .discover) rfl
  refine ⟨_, _, run, rfl, (command_ids_iff run).mpr ?_⟩
  refine Machine.each_snoc.mpr ⟨Machine.each_snoc.mpr ⟨Machine.each_snoc.mpr ⟨?_, ?_⟩, trivial⟩, trivial⟩
  · simp [Machine.Each]
  · simp [WithinCounter]

/-- The counter wraps after 65535 commands: an asynchronous event request takes the ID 0, and the
next keep alive overwrites it. -/
theorem outstanding_overwritten :
    ¬∀ past s, queueClient.Run past s → Machine.Each StoresFresh past := by
  intro h
  obtain ⟨past, run⟩ := queueClient_events 65524
  have requested := queueClient_next run (.issue .pollAEN .asyncEvent true) rfl
  have kept := queueClient_next requested (.issue .keepAlive .keepAlive true) rfl
  have fresh := (Machine.each_snoc.mp (h _ _ kept)).2
  exact fresh.2 rfl ((AList.mem_insert _).mpr (Or.inl rfl))

end DiscoveryClient
