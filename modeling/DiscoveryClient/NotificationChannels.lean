import DiscoveryClient.SessionIDs

namespace DiscoveryClient

open GoString

/-- A forwarder of the host API: before its lookup, in its `select`, and at its send on `AENChan`.
After a lost keep alive it returns once the notification is sent. -/
inductive ForwardPhase
  | starting (connectionID : ConnectionID)
  | selecting (aenChan : Nat)
  | sending (aenChan : Nat) (last : Bool)
deriving DecidableEq

/-- The channel on which the forwarder may still send, once it knows it. -/
def ForwardPhase.target : ForwardPhase → Option Nat
  | .starting _ => none
  | .selecting aenChan => some aenChan
  | .sending aenChan _ => some aenChan

/-- A goroutine of `multiplexNewConnection`: in its `select`, and at its send on `aggregateChan`. -/
inductive MuxPhase
  | reading
  | sending (last : Bool)
deriving DecidableEq

structure Mux where
  aenChan : Nat
  phase : MuxPhase
deriving DecidableEq

/-- The service and the host API with their goroutines. A channel is named by the connection that
made it, a forwarder by its client. `trying` is the connection of a persistent discovery in
progress, `pushing` the channel on which the main loop offers the notification that starts a new
connection. -/
structure Channels where
  sessions : Sessions := {}
  trying : Option Connection := none
  pushing : Option Nat := none
  forwarders : GoMap Nat ForwardPhase := ∅
  muxes : GoMap Nat Mux := ∅
  nextMux : Nat := 0
  closed : List Nat := []
  aggregateClosed : Bool := false

inductive ChannelEvent
  | add (conn : Connection)
  | tries (key : TKey)
  | discovers (order : RangeOrder ConnItem) (outcomes : Outcomes)
  | pushed (mux : Nat)
  | pushTimeout
  | reread (conn : Connection) (order : RangeOrder ConnItem) (outcomes : Outcomes)
  | disconnect (key : TKey)
  | remove (key : TKey)
  | lookup (client : Nat)
  | take (client : Nat) (last : Bool)
  | forward (client mux : Nat)
  | forwarderReturns (client : Nat)
  | aggregated (mux : Nat)
  | muxReturns (mux : Nat)
  | closeAggregate

/-- The end of a persistent discovery. `Stop` may have removed the connection since it began. -/
def Sessions.assign (s : Sessions) (conn : Connection) (host : HostApi)
    (connectionID : ConnectionID) (failed : Bool) : Sessions where
  host := host.reply connectionID (conn.getDiscoveryRequest persistentKato)
  held :=
    match s.held.lookup conn.key with
    | none => s.held
    | some h =>
      if h.conn ≠ conn then s.held
      else if failed then s.held.insert conn.key { h with connected := false }
      else s.held.insert conn.key { h with connectionID := connectionID, connected := true }

namespace Channels

/-- A persistent discovery that succeeds starts a forwarder and a multiplexer, and the main loop
pushes a notification. -/
def discovered (s : Channels) (conn : Connection) (host : HostApi) (connectionID : ConnectionID)
    (failed : Bool) : Channels :=
  if failed then { s with sessions := s.sessions.assign conn host connectionID true, trying := none }
  else
    { s with
      sessions := s.sessions.assign conn host connectionID false
      trying := none
      pushing := some conn.addr
      forwarders := s.forwarders.insert s.sessions.host.clients (.starting connectionID)
      muxes := s.muxes.insert s.nextMux ⟨conn.addr, .reading⟩
      nextMux := s.nextMux + 1 }

/-- The main loop is in its `select`. -/
def idle (s : Channels) : Bool := s.trying.isNone && s.pushing.isNone

def withSessions (s : Channels) : Option Sessions → Option Channels
  | none => none
  | some sessions => some { s with sessions }

def setForwarder (s : Channels) (client : Nat) (phase : ForwardPhase) : Channels :=
  { s with forwarders := s.forwarders.insert client phase }

def dropForwarder (s : Channels) (client : Nat) : Channels :=
  { s with forwarders := s.forwarders.erase client }

def setMux (s : Channels) (mux : Nat) (m : Mux) : Channels :=
  { s with muxes := s.muxes.insert mux m }

def dropMux (s : Channels) (mux : Nat) : Channels :=
  { s with muxes := s.muxes.erase mux }

/-- The connection leaves the service and its channel is closed. -/
def remove (s : Channels) (key : TKey) (h : Held) : Channels :=
  { s with
    sessions := { s.sessions with held := s.sessions.held.erase key }
    closed := h.conn.addr :: s.closed }

/-- The main loop adds, tries and reads only when it is idle; connections are disconnected and
removed by it or by `Stop`. `AENChan` is unbuffered, so a send and its receive are one step. -/
def step (s : Channels) : ChannelEvent → Option Channels
  | .add conn => if s.idle then s.withSessions (s.sessions.step (.add conn)) else none
  | .tries key =>
    match s.sessions.held.lookup key with
    | none => none
    | some h => if s.idle then some { s with trying := some h.conn } else none
  | .discovers order outcomes =>
    match s.trying with
    | none => none
    | some conn =>
      match s.sessions.host.discover order (conn.getDiscoveryRequest persistentKato) outcomes with
      | none => none
      | some (host, connectionID, failed) => some (s.discovered conn host connectionID failed)
  | .reread conn order outcomes =>
    if s.idle then s.withSessions (s.sessions.step (.reread conn order outcomes)) else none
  | .disconnect key => s.withSessions (s.sessions.step (.disconnect key))
  | .remove key =>
    match s.sessions.held.lookup key with
    | none => none
    | some h => some (s.remove key h)
  | .pushed mux =>
    match s.pushing, s.muxes.lookup mux with
    | some aenChan, some ⟨aenChan', .reading⟩ =>
      if aenChan = aenChan' ∧ aenChan ∉ s.closed then
        some { s.setMux mux ⟨aenChan, .sending false⟩ with pushing := none }
      else none
    | _, _ => none
  | .pushTimeout => some { s with pushing := none }
  | .lookup client =>
    match s.forwarders.lookup client with
    | some (.starting connectionID) =>
      match s.sessions.host.connTbl.lookup connectionID with
      | none => none
      | some info => some (s.setForwarder client (.selecting info.request.aenChan))
    | _ => none
  | .take client last =>
    match s.forwarders.lookup client with
    | some (.selecting aenChan) => some (s.setForwarder client (.sending aenChan last))
    | _ => none
  | .forward client mux =>
    match s.forwarders.lookup client, s.muxes.lookup mux with
    | some (.sending aenChan last), some ⟨aenChan', .reading⟩ =>
      if aenChan = aenChan' ∧ aenChan ∉ s.closed then
        if last then some ((s.setMux mux ⟨aenChan, .sending true⟩).dropForwarder client)
        else
          some ((s.setMux mux ⟨aenChan, .sending false⟩).setForwarder client (.selecting aenChan))
      else none
    | _, _ => none
  | .forwarderReturns client =>
    match s.forwarders.lookup client with
    | some (.selecting _) => some (s.dropForwarder client)
    | _ => none
  | .aggregated mux =>
    match s.muxes.lookup mux with
    | some ⟨aenChan, .sending last⟩ =>
      if s.aggregateClosed then none
      else if last then some (s.dropMux mux)
      else some (s.setMux mux ⟨aenChan, .reading⟩)
    | _ => none
  | .muxReturns mux =>
    match s.muxes.lookup mux with
    | some ⟨_, .reading⟩ => some (s.dropMux mux)
    | _ => none
  | .closeAggregate =>
    if s.sessions.held.entries.isEmpty then some { s with aggregateClosed := true } else none

end Channels

def channels : Machine Channels ChannelEvent where
  init s := s = {}
  step s e s' := s.step e = some s'

theorem channels_next {past : List (Channels × ChannelEvent)} {s s' : Channels}
    (run : channels.Run past s) (e : ChannelEvent) (hstep : s.step e = some s') :
    channels.Run (past ++ [(s, e)]) s' :=
  run.next hstep

/-- No channel is closed on which something may still send: a session of the table once it is looked
up, a forwarder, the main loop or a multiplexer. -/
structure SendersOpen (s : Channels) : Prop where
  sessions : ∀ id info, s.sessions.host.connTbl.lookup id = some info →
    info.request.aenChan ∉ s.closed
  forwarders : ∀ client phase, s.forwarders.lookup client = some phase →
    ∀ aenChan, phase.target = some aenChan → aenChan ∉ s.closed
  pushing : ∀ aenChan, s.pushing = some aenChan → aenChan ∉ s.closed
  muxes : ∀ mux ∈ s.muxes, s.aggregateClosed = false

/-- Nothing is left that may send on the channel of this connection. -/
structure Quiet (s : Channels) (aenChan : Nat) : Prop where
  sessions : ∀ id info, s.sessions.host.connTbl.lookup id = some info →
    info.request.aenChan ≠ aenChan
  forwarders : ∀ client phase, s.forwarders.lookup client = some phase →
    phase.target ≠ some aenChan
  pushing : s.pushing ≠ some aenChan

/-- A channel is closed only when it is quiet, `aggregateChan` only when every multiplexer has
returned, and a persistent discovery succeeds only while the channel of its connection and
`aggregateChan` are open. -/
def ClosesQuiet (s : Channels) : ChannelEvent → Prop
  | .discovers _ outcomes => (∃ stopped, tcpClientDiscover outcomes = .response stopped) →
    ∀ conn, s.trying = some conn → conn.addr ∉ s.closed ∧ s.aggregateClosed = false
  | .remove key => ∀ h, s.sessions.held.lookup key = some h → Quiet s h.conn.addr
  | .closeAggregate => ∀ mux, mux ∉ s.muxes
  | _ => True

/-- Only a persistent discovery adds a session to the table. -/
theorem Sessions.step_table {s s' : Sessions} {e : SessionEvent} (hstep : s.step e = some s')
    (he : ∀ key order outcomes, e ≠ .discover key order outcomes) {id : ConnectionID}
    {info : ConnInfo} (hinfo : s'.host.connTbl.lookup id = some info) :
    s.host.connTbl.lookup id = some info := by
  cases e with
  | add conn =>
    simp only [Sessions.step] at hstep
    split at hstep
    next => simp at hstep
    next =>
      rw [← Option.some.inj hstep] at hinfo
      exact hinfo
  | discover key order outcomes => exact absurd rfl (he key order outcomes)
  | reread conn order outcomes =>
    simp only [Sessions.step, HostApi.call] at hstep
    cases hdiscover : s.host.discover order (conn.getDiscoveryRequest 0) outcomes with
    | none => simp [hdiscover] at hstep
    | some result =>
      simp only [hdiscover, Option.some.injEq] at hstep
      obtain ⟨effects, _, ⟨hhost, _⟩ | ⟨hkato, _⟩⟩ := HostApi.discover_cases hdiscover
      · rw [← hstep, hhost] at hinfo
        exact hinfo
      · exact absurd rfl hkato
  | disconnect key =>
    simp only [Sessions.step] at hstep
    split at hstep
    next => simp at hstep
    next =>
      rw [← Option.some.inj hstep] at hinfo
      exact HostApi.lookup_disconnect_some hinfo
  | remove key =>
    rw [← Option.some.inj hstep] at hinfo
    exact hinfo

namespace SendersOpen

variable {s : Channels}

theorem withSessions (senders : SendersOpen s) {sessions : Sessions}
    (htable : ∀ id info, sessions.host.connTbl.lookup id = some info →
      s.sessions.host.connTbl.lookup id = some info) :
    SendersOpen { s with sessions } := by
  refine ⟨?_, senders.forwarders, senders.pushing, senders.muxes⟩
  intro id info hinfo
  exact senders.sessions id info (htable id info hinfo)

theorem withStep (senders : SendersOpen s) {e : SessionEvent} {s' : Channels}
    (he : ∀ key order outcomes, e ≠ .discover key order outcomes)
    (hstep : s.withSessions (s.sessions.step e) = some s') : SendersOpen s' := by
  cases hsessions : s.sessions.step e with
  | none => simp [hsessions, Channels.withSessions] at hstep
  | some sessions =>
    rw [hsessions] at hstep
    rw [← Option.some.inj hstep]
    exact senders.withSessions fun _ _ hinfo => Sessions.step_table hsessions he hinfo

theorem setForwarder (senders : SendersOpen s) (client : Nat) {phase : ForwardPhase}
    (hopen : ∀ aenChan, phase.target = some aenChan → aenChan ∉ s.closed) :
    SendersOpen (s.setForwarder client phase) := by
  refine ⟨senders.sessions, ?_, senders.pushing, senders.muxes⟩
  intro client' phase' hf
  rcases GoMap.lookup_insert_some hf with ⟨_, rfl⟩ | ⟨_, hf⟩
  · exact hopen
  · exact senders.forwarders client' phase' hf

theorem dropForwarder (senders : SendersOpen s) (client : Nat) :
    SendersOpen (s.dropForwarder client) := by
  refine ⟨senders.sessions, ?_, senders.pushing, senders.muxes⟩
  intro client' phase hf
  exact senders.forwarders client' phase (GoMap.lookup_erase_some hf).2

theorem setMux (senders : SendersOpen s) {mux : Nat} {m m' : Mux}
    (hmux : s.muxes.lookup mux = some m) : SendersOpen (s.setMux mux m') := by
  refine ⟨senders.sessions, senders.forwarders, senders.pushing, ?_⟩
  intro _ _
  exact senders.muxes mux (GoMap.mem_iff_lookup.mpr ⟨m, hmux⟩)

theorem dropMux (senders : SendersOpen s) (mux : Nat) : SendersOpen (s.dropMux mux) := by
  refine ⟨senders.sessions, senders.forwarders, senders.pushing, ?_⟩
  intro mux' hmem
  exact senders.muxes mux' (AList.mem_erase.mp hmem).2

theorem stopPushing (senders : SendersOpen s) : SendersOpen { s with pushing := none } :=
  ⟨senders.sessions, senders.forwarders, by simp, senders.muxes⟩

theorem remove_iff (senders : SendersOpen s) (key : TKey) (h : Held) :
    SendersOpen (s.remove key h) ↔ Quiet s h.conn.addr := by
  constructor
  · intro senders'
    refine ⟨?_, ?_, ?_⟩
    · intro id info hinfo heq
      exact senders'.sessions id info hinfo (heq ▸ List.mem_cons_self ..)
    · intro client phase hf heq
      exact senders'.forwarders client phase hf _ heq (List.mem_cons_self ..)
    · intro heq
      exact senders'.pushing _ heq (List.mem_cons_self ..)
  · intro quiet
    refine ⟨?_, ?_, ?_, senders.muxes⟩
    · intro id info hinfo hmem
      rcases List.mem_cons.mp hmem with heq | hmem
      · exact quiet.sessions id info hinfo heq
      · exact senders.sessions id info hinfo hmem
    · intro client phase hf aenChan htarget hmem
      rcases List.mem_cons.mp hmem with heq | hmem
      · exact quiet.forwarders client phase hf (heq ▸ htarget)
      · exact senders.forwarders client phase hf aenChan htarget hmem
    · intro aenChan hpush hmem
      rcases List.mem_cons.mp hmem with heq | hmem
      · exact quiet.pushing (heq ▸ hpush)
      · exact senders.pushing aenChan hpush hmem

/-- A discovery that succeeds adds senders for the channel of its connection and for
`aggregateChan`. -/
theorem discovered_iff (senders : SendersOpen s) {conn : Connection} {order : RangeOrder ConnItem}
    {outcomes : Outcomes} {host : HostApi} {id : ConnectionID} {failed : Bool}
    (hdiscover : s.sessions.host.discover order (conn.getDiscoveryRequest persistentKato) outcomes =
      some (host, id, failed)) :
    SendersOpen (s.discovered conn host id failed) ↔
      (failed = false → conn.addr ∉ s.closed ∧ s.aggregateClosed = false) := by
  obtain ⟨effects, _, ⟨hhost, _, hkato⟩ | ⟨_, hfailed, hpersist⟩⟩ := HostApi.discover_cases hdiscover
  · have hfailed : failed = true := by
      cases failed with
      | true => rfl
      | false => exact absurd (hkato rfl) (by simp [Connection.getDiscoveryRequest, persistentKato])
    subst hhost hfailed
    exact iff_of_true ⟨senders.sessions, senders.forwarders, senders.pushing, senders.muxes⟩ (by simp)
  · subst hfailed
    obtain ⟨rfl, rfl⟩ := Prod.mk.inj hpersist
    constructor
    · intro senders' _
      refine ⟨?_, senders'.muxes s.nextMux ((AList.mem_insert _).mpr (Or.inl rfl))⟩
      exact senders'.pushing conn.addr rfl
    · intro hopen
      obtain ⟨hchan, hagg⟩ := hopen rfl
      refine ⟨?_, ?_, ?_, fun _ _ => hagg⟩
      · intro id' info hinfo
        rcases HostApi.lookup_persist_some hinfo with rfl | hold
        · exact hchan
        · exact senders.sessions id' info hold
      · intro client phase hf aenChan htarget
        rcases GoMap.lookup_insert_some hf with ⟨_, rfl⟩ | ⟨_, hf⟩
        · simp [ForwardPhase.target] at htarget
        · exact senders.forwarders client phase hf aenChan htarget
      · intro aenChan hpush
        rw [← Option.some.inj hpush]
        exact hchan

/-! The goroutines' own moves close nothing and give no channel a new sender. -/

theorem pushed {mux : Nat} {s' : Channels} (senders : SendersOpen s)
    (hstep : s.step (.pushed mux) = some s') : SendersOpen s' := by
  simp only [Channels.step] at hstep
  split at hstep
  next aenChan _ _ hmux =>
    simp only [Option.ite_none_right_eq_some, Option.some.injEq] at hstep
    obtain ⟨_, rfl⟩ := hstep
    exact (senders.setMux hmux).stopPushing
  next => simp at hstep

theorem lookup {client : Nat} {s' : Channels} (senders : SendersOpen s)
    (hstep : s.step (.lookup client) = some s') : SendersOpen s' := by
  simp only [Channels.step] at hstep
  split at hstep
  next connectionID _ =>
    split at hstep
    next => simp at hstep
    next info hinfo =>
      rw [← Option.some.inj hstep]
      refine senders.setForwarder client ?_
      intro aenChan htarget
      rw [← Option.some.inj htarget]
      exact senders.sessions connectionID info hinfo
  next => simp at hstep

theorem take {client : Nat} {last : Bool} {s' : Channels} (senders : SendersOpen s)
    (hstep : s.step (.take client last) = some s') : SendersOpen s' := by
  simp only [Channels.step] at hstep
  split at hstep
  next aenChan hf =>
    rw [← Option.some.inj hstep]
    have hopen := senders.forwarders client _ hf
    exact senders.setForwarder client hopen
  next => simp at hstep

theorem forward {client mux : Nat} {s' : Channels} (senders : SendersOpen s)
    (hstep : s.step (.forward client mux) = some s') : SendersOpen s' := by
  simp only [Channels.step] at hstep
  split at hstep
  next aenChan last _ hf hmux =>
    split at hstep
    next =>
      split at hstep
      next =>
        rw [← Option.some.inj hstep]
        exact (senders.setMux hmux).dropForwarder client
      next =>
        rw [← Option.some.inj hstep]
        have hopen := senders.forwarders client _ hf
        exact (senders.setMux hmux).setForwarder client hopen
    next => simp at hstep
  next => simp at hstep

theorem aggregated {mux : Nat} {s' : Channels} (senders : SendersOpen s)
    (hstep : s.step (.aggregated mux) = some s') : SendersOpen s' := by
  simp only [Channels.step] at hstep
  split at hstep
  next aenChan last hmux =>
    split at hstep
    next => simp at hstep
    next =>
      split at hstep
      next =>
        rw [← Option.some.inj hstep]
        exact senders.dropMux mux
      next =>
        rw [← Option.some.inj hstep]
        exact senders.setMux hmux
  next => simp at hstep

theorem closeAggregate_iff {s' : Channels} (senders : SendersOpen s)
    (hstep : s.step .closeAggregate = some s') : SendersOpen s' ↔ ∀ mux, mux ∉ s.muxes := by
  simp only [Channels.step] at hstep
  split at hstep
  next =>
    rw [← Option.some.inj hstep]
    constructor
    · intro senders' mux hmem
      exact absurd (senders'.muxes mux hmem) (by simp)
    · intro hnone
      exact ⟨senders.sessions, senders.forwarders, senders.pushing,
        fun mux hmem => absurd hmem (hnone mux)⟩
  next => simp at hstep

end SendersOpen

theorem channels_step {s s' : Channels} {e : ChannelEvent} (senders : SendersOpen s)
    (hstep : s.step e = some s') : SendersOpen s' ↔ ClosesQuiet s e := by
  cases e with
  | add conn =>
    simp only [Channels.step, Option.ite_none_right_eq_some] at hstep
    exact iff_of_true (senders.withStep (by simp) hstep.2) trivial
  | tries key =>
    simp only [Channels.step] at hstep
    split at hstep
    next => simp at hstep
    next =>
      simp only [Option.ite_none_right_eq_some, Option.some.injEq] at hstep
      obtain ⟨_, rfl⟩ := hstep
      exact iff_of_true ⟨senders.sessions, senders.forwarders, senders.pushing, senders.muxes⟩ trivial
  | discovers order outcomes =>
    simp only [Channels.step] at hstep
    split at hstep
    next => simp at hstep
    next conn htrying =>
      split at hstep
      next => simp at hstep
      next host id failed hdiscover =>
        rw [← Option.some.inj hstep, senders.discovered_iff hdiscover,
          HostApi.discover_succeeds_iff hdiscover]
        simp only [ClosesQuiet, htrying, Option.some.injEq, forall_eq']
  | pushed mux => exact iff_of_true (senders.pushed hstep) trivial
  | pushTimeout =>
    rw [← Option.some.inj hstep]
    exact iff_of_true senders.stopPushing trivial
  | reread conn order outcomes =>
    simp only [Channels.step, Option.ite_none_right_eq_some] at hstep
    exact iff_of_true (senders.withStep (by simp) hstep.2) trivial
  | disconnect key => exact iff_of_true (senders.withStep (by simp) hstep) trivial
  | remove key =>
    simp only [Channels.step] at hstep
    split at hstep
    next => simp at hstep
    next h hk =>
      rw [← Option.some.inj hstep, senders.remove_iff key h]
      simp only [ClosesQuiet, hk, Option.some.injEq, forall_eq']
  | lookup client => exact iff_of_true (senders.lookup hstep) trivial
  | take client last => exact iff_of_true (senders.take hstep) trivial
  | forward client mux => exact iff_of_true (senders.forward hstep) trivial
  | forwarderReturns client =>
    simp only [Channels.step] at hstep
    split at hstep
    next =>
      rw [← Option.some.inj hstep]
      exact iff_of_true (senders.dropForwarder client) trivial
    next => simp at hstep
  | aggregated mux => exact iff_of_true (senders.aggregated hstep) trivial
  | muxReturns mux =>
    simp only [Channels.step] at hstep
    split at hstep
    next =>
      rw [← Option.some.inj hstep]
      exact iff_of_true (senders.dropMux mux) trivial
    next => simp at hstep
  | closeAggregate => exact senders.closeAggregate_iff hstep

/-- The runs in which nothing can send on a closed channel are those in which a channel is closed
only after everything that sends on it has returned. -/
theorem senders_open_iff {past : List (Channels × ChannelEvent)} {s : Channels}
    (run : channels.Run past s) :
    Machine.Always SendersOpen past s ↔ Machine.Each ClosesQuiet past := by
  refine Machine.Run.always_iff_each (J := fun _ => True) ?_ ?_ run
  · intro s hinit
    rw [hinit]
    exact ⟨⟨by simp, by simp, by simp, by simp⟩, trivial⟩
  · intro s e s' senders _ hstep
    exact ⟨channels_step senders hstep, fun _ => trivial⟩

theorem Quiet.of_entries {s : Channels} {aenChan : Nat}
    (sessions : ∀ x ∈ s.sessions.host.connTbl.entries, x.2.request.aenChan ≠ aenChan)
    (forwarders : ∀ x ∈ s.forwarders.entries, x.2.target ≠ some aenChan)
    (pushing : s.pushing ≠ some aenChan) : Quiet s aenChan :=
  ⟨fun id info hinfo => sessions ⟨id, info⟩ (GoMap.mem_entries.mpr hinfo),
    fun client phase hf => forwarders ⟨client, phase⟩ (GoMap.mem_entries.mpr hf), pushing⟩

theorem senders_open_iff_stopped : ∃ past s, channels.Run past s ∧ s.closed = [0] ∧
    s.aggregateClosed = true ∧ Machine.Always SendersOpen past s := by
  have added := channels_next (.start rfl) (.add (subsystemConnection 0 "nqn.c" "10.0.0.1")) rfl
  have trying := channels_next added (.tries (subsystemKey "nqn.c" "10.0.0.1")) rfl
  have connected := channels_next trying (.discovers .stored allWell) rfl
  have pushed := channels_next connected .pushTimeout rfl
  have found := channels_next pushed (.lookup 0) rfl
  have disconnected := channels_next found (.disconnect (subsystemKey "nqn.c" "10.0.0.1")) rfl
  have returned := channels_next disconnected (.forwarderReturns 0) rfl
  have removed := channels_next returned (.remove (subsystemKey "nqn.c" "10.0.0.1")) rfl
  have quiet := channels_next removed (.muxReturns 0) rfl
  have run := channels_next quiet .closeAggregate rfl
  refine ⟨_, _, run, rfl, rfl, (senders_open_iff run).mpr ?_⟩
  have hmuxes : ∀ mux, mux ∉ (((∅ : GoMap Nat Mux).insert 0 ⟨0, .reading⟩).erase 0) := by
    intro mux hmem
    obtain ⟨hne, hmem⟩ := AList.mem_erase.mp hmem
    rcases (AList.mem_insert _).mp hmem with heq | hmem
    · exact hne heq
    · simp at hmem
  refine Machine.each_snoc.mpr ⟨?_, hmuxes⟩
  refine Machine.each_snoc.mpr ⟨?_, trivial⟩
  refine Machine.each_snoc.mpr ⟨?_, fun h hh => .of_entries ?_ ?_ ?_⟩
  · refine Machine.each_snoc.mpr ⟨?_, trivial⟩
    refine Machine.each_snoc.mpr ⟨?_, trivial⟩
    refine Machine.each_snoc.mpr ⟨?_, trivial⟩
    refine Machine.each_snoc.mpr ⟨?_, trivial⟩
    refine Machine.each_snoc.mpr ⟨?_, fun _ conn _ => ⟨List.not_mem_nil, rfl⟩⟩
    refine Machine.each_snoc.mpr ⟨?_, trivial⟩
    refine Machine.each_snoc.mpr ⟨?_, trivial⟩
    simp [Machine.Each]
  · exact fun x hx => absurd hx List.not_mem_nil
  · exact fun x hx => absurd hx List.not_mem_nil
  · simp [Channels.dropForwarder, Channels.setForwarder]

/-- The active connection moves from 10.0.0.1 to 10.0.0.2, then 10.0.0.1 is removed. It is not the
active one, so its session stays, and the next event of the session is sent on a closed channel. -/
theorem send_on_closed : ¬∀ past s, channels.Run past s → ∀ client aenChan last,
    s.forwarders.lookup client = some (.sending aenChan last) → aenChan ∉ s.closed := by
  intro h
  have one := channels_next (.start rfl) (.add (subsystemConnection 0 "nqn.c" "10.0.0.1")) rfl
  have two := channels_next one (.add (subsystemConnection 1 "nqn.c" "10.0.0.2")) rfl
  have trying := channels_next two (.tries (subsystemKey "nqn.c" "10.0.0.1")) rfl
  have connected := channels_next trying (.discovers .stored allWell) rfl
  have pushed := channels_next connected .pushTimeout rfl
  have found := channels_next pushed (.lookup 0) rfl
  have retrying := channels_next found (.tries (subsystemKey "nqn.c" "10.0.0.2")) rfl
  have moved := channels_next retrying (.discovers .stored allWell) rfl
  have pushedAgain := channels_next moved .pushTimeout rfl
  have removed := channels_next pushedAgain (.remove (subsystemKey "nqn.c" "10.0.0.1")) rfl
  have run := channels_next removed (.take 0 false) rfl
  exact h _ _ run 0 0 false rfl (List.mem_cons_self ..)

end DiscoveryClient
