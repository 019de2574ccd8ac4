import DiscoveryClient.GoSlice
import DiscoveryClient.Machine
import DiscoveryClient.NvmeController

/-! The asynchronous event requests of one controller. They are registered by the goroutine that
receives capsules and answered by the one of `handleAENEvents`; both hold the controller's lock while
they look at the slice of pending requests, change it and complete a request. -/

namespace DiscoveryClient

open GoString

namespace Nvme

structure NvmetAsyncEvent where
  hostNqn : GoString
  eventType : UInt8
  eventInfo : UInt8
  logPage : UInt8

def NvmetAsyncEvent.result (aen : NvmetAsyncEvent) : UInt32 :=
  aen.eventType.toUInt32 ||| aen.eventInfo.toUInt32 <<< 8 ||| aen.logPage.toUInt32 <<< 16

/-- The event of `NotifyAsyncEvent`. -/
def discChanged (hostNqn : GoString) : NvmetAsyncEvent where
  hostNqn
  eventType := 0x2
  eventInfo := 0xf0
  logPage := 0x70

/-- The slice of the controller, the requests in the order they were registered, and what was given
to `completeRequest`: for an event, or at once because of the limit. -/
structure AsyncRequests where
  asyncEventPendingRequests : GoSlice AsyncEventRequest := .empty
  registered : List AsyncEventRequest := []
  completed : List (AsyncEventRequest × Completion) := []
  rejected : List (AsyncEventRequest × Completion) := []

/-- A request is registered, or an event is handled. When the slice has to grow, nothing is said
about the cells behind its elements. -/
inductive AsyncRequestEvent
  | register (commandID : UInt16) (spare : List AsyncEventRequest)
  | event (event : NvmetAsyncEvent)

def eventCompletion (qID : UInt16) (event : NvmetAsyncEvent) (request : AsyncEventRequest) :
    Completion :=
  (newCompletion request.commandID qID success).setResult event.result.toNat

def limitCompletion (qID : UInt16) (request : AsyncEventRequest) : Completion :=
  newCompletion request.commandID qID (asyncLimit ||| dnr)

namespace AsyncRequests

/-- The request that is registered next is none of those before it. -/
def fresh (s : AsyncRequests) (commandID : UInt16) : AsyncEventRequest :=
  ⟨s.registered.length, commandID⟩

def registerAsyncEventRequest (qID : UInt16) (s : AsyncRequests) (commandID : UInt16)
    (spare : List AsyncEventRequest) : AsyncRequests :=
  let request := s.fresh commandID
  let s := { s with registered := s.registered ++ [request] }
  if maxPendingAsyncEventsRequestsLimit ≤ s.asyncEventPendingRequests.len then
    { s with rejected := s.rejected ++ [(request, limitCompletion qID request)] }
  else
    { s with asyncEventPendingRequests := s.asyncEventPendingRequests.append [request] spare }

/-- One event in the loop of `handleAENEvents`. -/
def handleAENEvent (qID : UInt16) (s : AsyncRequests) (event : NvmetAsyncEvent) : AsyncRequests :=
  match s.asyncEventPendingRequests.elems with
  | [] => s
  | request :: _ =>
    { s with
      asyncEventPendingRequests := s.asyncEventPendingRequests.shift
      completed := s.completed ++ [(request, eventCompletion qID event request)] }

def next (qID : UInt16) (s : AsyncRequests) : AsyncRequestEvent → AsyncRequests
  | .register commandID spare => s.registerAsyncEventRequest qID commandID spare
  | .event event => s.handleAENEvent qID event

end AsyncRequests

/-- The controller of the queue with this ID, from its creation on. -/
def asyncRequests (qID : UInt16) : Machine AsyncRequests AsyncRequestEvent where
  init s := s = {}
  step s event s' := s.next qID event = s'

namespace AsyncRequests

variable {qID : UInt16} {s : AsyncRequests}

/-- The controller with the requests that the slice holds. -/
def seenIn (s : AsyncRequests) (ctrl : NvmeController) : NvmeController :=
  { ctrl with asyncEventPendingRequests := s.asyncEventPendingRequests.elems }

/-- To the controller, the slice is the list of its elements. -/
theorem seenIn_register (ctrl : NvmeController) (commandID : UInt16)
    (spare : List AsyncEventRequest) :
    let s' := s.registerAsyncEventRequest qID commandID spare
    (s.seenIn ctrl).registerAsyncEventRequest qID (s.fresh commandID) =
      (s'.seenIn ctrl, (s'.rejected.drop s.rejected.length).head?.map Prod.snd) := by
  intro s'
  simp only [s', registerAsyncEventRequest, NvmeController.registerAsyncEventRequest, seenIn,
    GoSlice.elems_length]
  split
  next => simp [limitCompletion]
  next => simp

theorem seenIn_handle (ctrl : NvmeController) (hostNqn : GoString) :
    let s' := s.handleAENEvent qID (discChanged hostNqn)
    (s.seenIn ctrl).handleAENEvent qID =
      (s'.seenIn ctrl, (s'.completed.drop s.completed.length).head?) := by
  intro s'
  simp only [s', handleAENEvent, NvmeController.handleAENEvent, seenIn]
  cases helems : s.asyncEventPendingRequests.elems with
  | nil => simp [helems]
  | cons request rest =>
    have hresult : (discChanged hostNqn).result.toNat = NvmeController.discChangedResult := by
      simp only [NvmetAsyncEvent.result, discChanged]
      decide
    simp [helems, eventCompletion, hresult]

/-- Every request that was registered is in one place, and has been answered once at most. -/
structure AnsweredOnce (qID : UInt16) (s : AsyncRequests) : Prop where
  limit : s.asyncEventPendingRequests.elems.length ≤ 4
  distinct : s.registered.Nodup
  onePlace : ∀ request ∈ s.registered,
    s.asyncEventPendingRequests.elems.count request + (s.completed.map Prod.fst).count request +
      (s.rejected.map Prod.fst).count request = 1
  known : ∀ request, request ∈ s.asyncEventPendingRequests.elems ∨
    request ∈ s.completed.map Prod.fst ∨ request ∈ s.rejected.map Prod.fst → request ∈ s.registered
  completions : ∀ x ∈ s.completed, ∃ event, x.2 = eventCompletion qID event x.1
  rejections : ∀ x ∈ s.rejected, x.2 = limitCompletion qID x.1
  order : (s.completed.map Prod.fst ++ s.asyncEventPendingRequests.elems).Sublist s.registered

/-- The event completes the request that has been pending for the longest time, and no other; it
completes none when none is pending. -/
def AnswersOldest (qID : UInt16) (s : AsyncRequests) (event : NvmetAsyncEvent) : Prop :=
  let s' := s.handleAENEvent qID event
  s'.registered = s.registered ∧ s'.rejected = s.rejected ∧
  match s.asyncEventPendingRequests.elems with
  | [] => s'.completed = s.completed ∧ s'.asyncEventPendingRequests.elems = []
  | request :: rest =>
    s'.completed = s.completed ++ [(request, eventCompletion qID event request)] ∧
      s'.asyncEventPendingRequests.elems = rest

/-- The requests are numbered as they come, and those of the three places make up all of them. -/
structure Accounted (qID : UInt16) (s : AsyncRequests) : Prop where
  limit : s.asyncEventPendingRequests.elems.length ≤ 4
  seqs : ∀ request ∈ s.registered, request.seq < s.registered.length
  distinct : s.registered.Nodup
  places : (s.completed.map Prod.fst ++ s.asyncEventPendingRequests.elems ++
    s.rejected.map Prod.fst).Perm s.registered
  completions : ∀ x ∈ s.completed, ∃ event, x.2 = eventCompletion qID event x.1
  rejections : ∀ x ∈ s.rejected, x.2 = limitCompletion qID x.1
  order : (s.completed.map Prod.fst ++ s.asyncEventPendingRequests.elems).Sublist s.registered

theorem Accounted.answeredOnce (h : Accounted qID s) : AnsweredOnce qID s where
  limit := h.limit
  distinct := h.distinct
  onePlace request hmem := by
    have hcount := h.places.count_eq request
    rw [List.count_eq_one_of_mem h.distinct hmem, List.count_append, List.count_append] at hcount
    omega
  known request hplace := by
    refine h.places.subset ?_
    simp only [List.mem_append]
    rcases hplace with hpending | hcompleted | hrejected
    · exact Or.inl (Or.inr hpending)
    · exact Or.inl (Or.inl hcompleted)
    · exact Or.inr hrejected
  completions := h.completions
  rejections := h.rejections
  order := h.order

theorem fresh_notMem (h : Accounted qID s) (commandID : UInt16) :
    s.fresh commandID ∉ s.registered :=
  fun hmem => Nat.lt_irrefl _ (h.seqs _ hmem)

theorem Accounted.seqs_snoc (h : Accounted qID s) (commandID : UInt16) :
    ∀ request ∈ s.registered ++ [s.fresh commandID],
      request.seq < (s.registered ++ [s.fresh commandID]).length := by
  intro request hmem
  rw [List.length_append, List.length_singleton]
  rcases List.mem_append.mp hmem with hmem | hmem
  · exact Nat.lt_succ_of_lt (h.seqs request hmem)
  · rw [List.mem_singleton.mp hmem]
    exact Nat.lt_succ_self _

theorem Accounted.distinct_snoc (h : Accounted qID s) (commandID : UInt16) :
    (s.registered ++ [s.fresh commandID]).Nodup := by
  rw [List.nodup_append]
  refine ⟨h.distinct, List.nodup_singleton _, ?_⟩
  intro request hmem other hother heq
  rw [List.mem_singleton.mp hother] at heq
  exact fresh_notMem h commandID (heq ▸ hmem)

theorem Accounted.register (h : Accounted qID s) (commandID : UInt16)
    (spare : List AsyncEventRequest) :
    Accounted qID (s.registerAsyncEventRequest qID commandID spare) := by
  unfold registerAsyncEventRequest
  dsimp only
  split
  next =>
    refine ⟨h.limit, h.seqs_snoc commandID, h.distinct_snoc commandID, ?_, h.completions, ?_, ?_⟩
    · simp only [List.map_append, List.map_cons, List.map_nil, ← List.append_assoc]
      exact h.places.append_right _
    · intro x hx
      rcases List.mem_append.mp hx with hx | hx
      · exact h.rejections x hx
      · rw [List.mem_singleton.mp hx]
    · exact h.order.trans (List.sublist_append_left _ _)
  next hroom =>
    rw [← GoSlice.elems_length, maxPendingAsyncEventsRequestsLimit] at hroom
    refine ⟨?_, h.seqs_snoc commandID, h.distinct_snoc commandID, ?_, h.completions, h.rejections,
      ?_⟩
    · rw [GoSlice.elems_append, List.length_append, List.length_singleton]
      omega
    · -- the new request comes before those that were rejected
      rw [GoSlice.elems_append, ← List.append_assoc, List.append_assoc _ [_]]
      refine (List.perm_append_comm.append_left _).trans ?_
      rw [← List.append_assoc]
      exact h.places.append_right _
    · rw [GoSlice.elems_append, ← List.append_assoc]
      exact h.order.append (List.Sublist.refl _)

theorem answersOldest (qID : UInt16) (s : AsyncRequests) (event : NvmetAsyncEvent) :
    AnswersOldest qID s event := by
  unfold AnswersOldest handleAENEvent
  cases helems : s.asyncEventPendingRequests.elems with
  | nil => exact ⟨rfl, rfl, rfl, helems⟩
  | cons request rest =>
    refine ⟨rfl, rfl, rfl, ?_⟩
    rw [GoSlice.elems_shift, helems, List.tail_cons]

theorem Accounted.handle (h : Accounted qID s) (event : NvmetAsyncEvent) :
    Accounted qID (s.handleAENEvent qID event) := by
  obtain ⟨hregistered, hrejected, hplaces⟩ := answersOldest qID s event
  cases helems : s.asyncEventPendingRequests.elems with
  | nil =>
    have hsame : s.handleAENEvent qID event = s := by simp only [handleAENEvent, helems]
    rw [hsame]
    exact h
  | cons request rest =>
    rw [helems] at hplaces
    obtain ⟨hcompleted, hpending⟩ := hplaces
    -- the request moves from the front of one list to the end of the other
    have hmoved : (s.handleAENEvent qID event).completed.map Prod.fst ++
        (s.handleAENEvent qID event).asyncEventPendingRequests.elems =
          s.completed.map Prod.fst ++ s.asyncEventPendingRequests.elems := by
      rw [hcompleted, hpending, helems, List.map_append, List.map_cons, List.map_nil,
        List.append_assoc, List.singleton_append]
    refine ⟨?_, ?_, ?_, ?_, ?_, ?_, ?_⟩
    · have hlimit := h.limit
      rw [helems, List.length_cons] at hlimit
      rw [hpending]
      omega
    · rw [hregistered]
      exact h.seqs
    · rw [hregistered]
      exact h.distinct
    · rw [hmoved, hrejected, hregistered]
      exact h.places
    · rw [hcompleted]
      intro x hx
      rcases List.mem_append.mp hx with hx | hx
      · exact h.completions x hx
      · rw [List.mem_singleton.mp hx]
        exact ⟨event, rfl⟩
    · rw [hrejected]
      exact h.rejections
    · rw [hmoved, hregistered]
      exact h.order

end AsyncRequests

/-- In every state of every interleaving the requests are accounted for, and every event that is
handled completes the oldest pending one. -/
theorem async_requests_answered_once {qID : UInt16} {past : List (AsyncRequests × AsyncRequestEvent)}
    {s : AsyncRequests} (run : (asyncRequests qID).Run past s) :
    Machine.Always (AsyncRequests.AnsweredOnce qID) past s ∧
      ∀ event, s.AnswersOldest qID event := by
  have always := run.always (I := AsyncRequests.Accounted qID) ?_ ?_
  · exact ⟨⟨fun x hx => (always.1 x hx).answeredOnce, always.2.answeredOnce⟩,
      AsyncRequests.answersOldest qID s⟩
  · rintro s rfl
    refine ⟨Nat.zero_le 4, ?_, List.nodup_nil, List.Perm.nil, ?_, ?_, List.Sublist.refl _⟩
    · exact List.forall_mem_nil _
    · exact List.forall_mem_nil _
    · exact List.forall_mem_nil _
  · rintro s event _ accounted rfl
    cases event with
    | register commandID spare => exact accounted.register commandID spare
    | event event => exact accounted.handle event

/-- Five requests before the first event: the fifth is one too many. -/
def fiveRequests : List AsyncRequestEvent :=
  [.register 11 [], .register 12 [], .register 13 [], .register 14 [], .register 15 [],
    .event (discChanged [])]

theorem async_requests_answered_once_five : ∃ past s, (asyncRequests 0).Run past s ∧
    s.AnsweredOnce 0 ∧ s.completed.map (·.1.seq) = [0] ∧ s.rejected.map (·.1.seq) = [4] ∧
      s.asyncEventPendingRequests.elems.map (·.seq) = [1, 2, 3] := by
  obtain ⟨s, hrun, hcompleted, hrejected, hpending⟩ : ∃ s : AsyncRequests,
      fiveRequests.foldlM (fun s event => some (AsyncRequests.next 0 s event)) {} = some s ∧
        s.completed.map (·.1.seq) = [0] ∧ s.rejected.map (·.1.seq) = [4] ∧
        s.asyncEventPendingRequests.elems.map (·.seq) = [1, 2, 3] :=
    ⟨_, rfl, rfl, rfl, rfl⟩
  have start : (asyncRequests 0).Reaches {} := ⟨[], .start rfl⟩
  obtain ⟨past, run⟩ := start.events (fun _ _ _ hstep => Option.some.inj hstep) fiveRequests hrun
  exact ⟨past, s, run, (async_requests_answered_once run).1.2, hcompleted, hrejected, hpending⟩

end Nvme

end DiscoveryClient
