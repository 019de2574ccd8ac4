import DiscoveryClient.SessionLeak

namespace DiscoveryClient

open GoString

/-- A call of `Discover` that has disconnected the session it replaces and has not yet registered
its own. -/
structure DiscoverCall where
  connectionID : ConnectionID
  found : Bool
  request : DiscoverRequest
deriving DecidableEq

/-- A `handleChannel` goroutine before its lookup, and in its loop with the client it has found. -/
inductive ForwarderPhase
  | starting
  | serving (client : Nat)
deriving DecidableEq

structure Forwarder where
  connectionID : ConnectionID
  phase : ForwarderPhase
deriving DecidableEq

/-- The host API with the calls in progress and the goroutines, both under the client they were
started for. -/
structure Forwarding where
  host : HostApi := {}
  calls : GoMap Nat DiscoverCall := ∅
  forwarders : GoMap Nat Forwarder := ∅
  crashed : Bool := false

/-- `discover` is the first half of a persistent discovery, once its client has the log page. -/
inductive ForwardingEvent
  | discover (order : RangeOrder ConnItem) (discoveryRequest : DiscoverRequest)
  | register (client : Nat)
  | disconnect (connectionID : ConnectionID)
  | lookup (client : Nat)
  | exit (client : Nat)

namespace Forwarding

def discover (s : Forwarding) (order : RangeOrder ConnItem) (discoveryRequest : DiscoverRequest) :
    Forwarding :=
  let client := s.host.clients
  let host := s.host.newClient [.opened client]
  let (connectionID, found) := host.findClient order discoveryRequest
  { s with
    host := (host.disconnect connectionID).1
    calls := s.calls.insert client ⟨connectionID, found, discoveryRequest⟩ }

def register (s : Forwarding) (client : Nat) (c : DiscoverCall) : Forwarding :=
  { s with
    host := s.host.register c.connectionID c.found c.request client
    calls := s.calls.erase client
    forwarders := s.forwarders.insert client ⟨c.connectionID, .starting⟩ }

def disconnect (s : Forwarding) (connectionID : ConnectionID) : Forwarding :=
  { s with host := (s.host.disconnect connectionID).1 }

/-- The lookup of `handleChannel`, which panics when there is no such session. -/
def lookup (s : Forwarding) (client : Nat) (connectionID : ConnectionID) : Forwarding :=
  match s.host.connTbl.lookup connectionID with
  | none => { s with crashed := true }
  | some info =>
    { s with forwarders := s.forwarders.insert client ⟨connectionID, .serving info.client⟩ }

def exit (s : Forwarding) (client : Nat) : Forwarding :=
  { s with forwarders := s.forwarders.erase client }

def step (s : Forwarding) (e : ForwardingEvent) : Option Forwarding :=
  if s.crashed then none
  else
    match e with
    | .discover order discoveryRequest => some (s.discover order discoveryRequest)
    | .register client =>
      match s.calls.lookup client with
      | none => none
      | some c => some (s.register client c)
    | .disconnect connectionID => some (s.disconnect connectionID)
    | .lookup client =>
      match s.forwarders.lookup client with
      | some ⟨connectionID, .starting⟩ => some (s.lookup client connectionID)
      | _ => none
    | .exit client =>
      match s.forwarders.lookup client with
      | some ⟨_, .serving _⟩ => some (s.exit client)
      | _ => none

end Forwarding

def forwarding : Machine Forwarding ForwardingEvent where
  init s := s = {}
  step s e s' := s.step e = some s'

theorem forwarding_next {past : List (Forwarding × ForwardingEvent)} {s s' : Forwarding}
    (run : forwarding.Run past s) (e : ForwardingEvent) (hstep : s.step e = some s') :
    forwarding.Run (past ++ [(s, e)]) s' :=
  run.next hstep

/-- The two halves of a call with nothing between them are the persistent branch of `Discover`. -/
theorem Forwarding.persist_eq (s : Forwarding) (order : RangeOrder ConnItem) (r : DiscoverRequest) :
    (((s.discover order r).calls.lookup s.host.clients).map fun c =>
      ((s.discover order r).register s.host.clients c).host) =
      some ((s.host.newClient [.opened s.host.clients]).persist order r s.host.clients).1 := by
  have hcall : (s.discover order r).calls.lookup s.host.clients =
      some ⟨((s.host.newClient [.opened s.host.clients]).findClient order r).1,
        ((s.host.newClient [.opened s.host.clients]).findClient order r).2, r⟩ :=
    AList.lookup_insert _
  rw [hcall]
  rfl

/-- Every goroutine that looks its session up now finds the one it was started for, those in their
loop have found theirs, and no two of them forward from one client. -/
structure ServesOwn (s : Forwarding) : Prop where
  alive : s.crashed = false
  starting : ∀ client connectionID, s.forwarders.lookup client = some ⟨connectionID, .starting⟩ →
    ∃ info, s.host.connTbl.lookup connectionID = some info ∧ info.client = client
  serving : ∀ client connectionID client',
    s.forwarders.lookup client = some ⟨connectionID, .serving client'⟩ → client' = client
  apart : ∀ c c' f f', s.forwarders.lookup c = some f → s.forwarders.lookup c' = some f' → c ≠ c' →
    ∀ client, f.phase = .serving client → f'.phase ≠ .serving client

/-- The ID whose entry the event deletes or overwrites. -/
def Forwarding.touched (s : Forwarding) : ForwardingEvent → Option ConnectionID
  | .discover order discoveryRequest =>
    some ((s.host.newClient [.opened s.host.clients]).findClient order discoveryRequest).1
  | .register client => (s.calls.lookup client).map (·.connectionID)
  | .disconnect connectionID => some connectionID
  | _ => none

/-- No entry is deleted or overwritten that a goroutine has yet to look up. -/
def SparesStarting (s : Forwarding) (e : ForwardingEvent) : Prop :=
  ∀ connectionID, s.touched e = some connectionID →
    ∀ client, s.forwarders.lookup client ≠ some ⟨connectionID, .starting⟩

/-- The clients of calls and goroutines were created, and a client has one or the other. -/
structure ForwarderClients (s : Forwarding) : Prop where
  calls : ∀ client ∈ s.calls, client < s.host.clients ∧ client ∉ s.forwarders
  forwarders : ∀ client ∈ s.forwarders, client < s.host.clients

/-- The goroutines serve different clients when each serves its own. -/
theorem ServesOwn.of_own {s : Forwarding} (alive : s.crashed = false)
    (starting : ∀ client connectionID, s.forwarders.lookup client = some ⟨connectionID, .starting⟩ →
      ∃ info, s.host.connTbl.lookup connectionID = some info ∧ info.client = client)
    (serving : ∀ client connectionID client',
      s.forwarders.lookup client = some ⟨connectionID, .serving client'⟩ → client' = client) :
    ServesOwn s := by
  refine ⟨alive, starting, serving, ?_⟩
  intro c c' f f' hc hc' hne client hf hf'
  have hserves : ∀ {d : Nat} {g : Forwarder}, s.forwarders.lookup d = some g →
      g.phase = .serving client → client = d := by
    intro d g hd hg
    refine serving d g.connectionID client ?_
    rw [hd, ← hg]
  exact hne ((hserves hc hf).symm.trans (hserves hc' hf'))

theorem ServesOwn.disconnect_iff {s : Forwarding} (own : ServesOwn s) (host : HostApi)
    (htable : host.connTbl = s.host.connTbl) (connectionID : ConnectionID)
    (calls : GoMap Nat DiscoverCall) :
    ServesOwn { s with host := (host.disconnect connectionID).1, calls } ↔
      ∀ client, s.forwarders.lookup client ≠ some ⟨connectionID, .starting⟩ := by
  constructor
  · intro own' client hf
    obtain ⟨info, hinfo, _⟩ := own'.starting client connectionID hf
    exact host.notMem_disconnect connectionID (GoMap.mem_iff_lookup.mpr ⟨info, hinfo⟩)
  · intro spares
    refine .of_own own.alive ?_ own.serving
    intro client id hf
    have hne : id ≠ connectionID := by
      intro heq
      subst heq
      exact spares client hf
    obtain ⟨info, hinfo, hclient⟩ := own.starting client id hf
    refine ⟨info, ?_, hclient⟩
    change (host.disconnect connectionID).1.connTbl.lookup id = some info
    rw [host.lookup_disconnect_ne hne, htable]
    exact hinfo

theorem ServesOwn.register_iff {s : Forwarding} (own : ServesOwn s) (clients : ForwarderClients s)
    {client : Nat} {c : DiscoverCall} (hc : s.calls.lookup client = some c) :
    ServesOwn (s.register client c) ↔
      ∀ client', s.forwarders.lookup client' ≠ some ⟨c.connectionID, .starting⟩ := by
  have hnew := (clients.calls client (GoMap.mem_iff_lookup.mpr ⟨c, hc⟩)).2
  constructor
  · intro own' client' hf
    have hne : client' ≠ client := by
      intro heq
      subst heq
      exact hnew (GoMap.mem_iff_lookup.mpr ⟨_, hf⟩)
    have hf' : (s.register client c).forwarders.lookup client' = some ⟨c.connectionID, .starting⟩ :=
      (AList.lookup_insert_ne hne).trans hf
    obtain ⟨info, hinfo, hclient⟩ := own'.starting client' _ hf'
    have hregistered : (s.register client c).host.connTbl.lookup c.connectionID =
        some ⟨c.request, client⟩ := AList.lookup_insert _
    rw [hregistered, Option.some.injEq] at hinfo
    rw [← hclient, ← hinfo] at hne
    exact hne rfl
  · intro spares
    refine .of_own own.alive ?_ ?_
    · intro client' id hf
      rcases GoMap.lookup_insert_some hf with ⟨rfl, hfwd⟩ | ⟨_, hf⟩
      · obtain ⟨rfl, _⟩ := Forwarder.mk.inj hfwd
        exact ⟨⟨c.request, client'⟩, AList.lookup_insert _, rfl⟩
      · have hne : id ≠ c.connectionID := by
          intro heq
          subst heq
          exact spares client' hf
        obtain ⟨info, hinfo, hclient⟩ := own.starting client' id hf
        exact ⟨info, (AList.lookup_insert_ne hne).trans hinfo, hclient⟩
    · intro client' id served hf
      rcases GoMap.lookup_insert_some hf with ⟨_, hfwd⟩ | ⟨_, hf⟩
      · simp at hfwd
      · exact own.serving client' id served hf

theorem ServesOwn.lookup {s : Forwarding} (own : ServesOwn s) {client : Nat}
    {connectionID : ConnectionID}
    (hf : s.forwarders.lookup client = some ⟨connectionID, .starting⟩) :
    ServesOwn (s.lookup client connectionID) := by
  obtain ⟨info, hinfo, hclient⟩ := own.starting client connectionID hf
  simp only [Forwarding.lookup, hinfo, hclient]
  refine .of_own own.alive ?_ ?_
  · intro client' id hf'
    rcases GoMap.lookup_insert_some hf' with ⟨_, hfwd⟩ | ⟨_, hf'⟩
    · simp at hfwd
    · exact own.starting client' id hf'
  · intro client' id served hf'
    rcases GoMap.lookup_insert_some hf' with ⟨rfl, hfwd⟩ | ⟨_, hf'⟩
    · simpa using congrArg Forwarder.phase hfwd
    · exact own.serving client' id served hf'

theorem ServesOwn.exit {s : Forwarding} (own : ServesOwn s) (client : Nat) :
    ServesOwn (s.exit client) := by
  refine .of_own own.alive ?_ ?_
  · intro client' id hf
    exact own.starting client' id (GoMap.lookup_erase_some hf).2
  · intro client' id served hf
    exact own.serving client' id served (GoMap.lookup_erase_some hf).2

namespace ForwarderClients

variable {s : Forwarding}

theorem discover (clients : ForwarderClients s) (order : RangeOrder ConnItem)
    (r : DiscoverRequest) : ForwarderClients (s.discover order r) := by
  have hnext : (s.discover order r).host.clients = s.host.clients + 1 :=
    HostApi.clients_disconnect _ _
  refine ⟨?_, ?_⟩
  · intro client hmem
    rw [hnext]
    rcases (AList.mem_insert _).mp hmem with rfl | hmem
    · refine ⟨Nat.lt_succ_self _, ?_⟩
      intro hfwd
      exact Nat.lt_irrefl _ (clients.forwarders _ hfwd)
    · exact ⟨Nat.lt_succ_of_lt (clients.calls client hmem).1, (clients.calls client hmem).2⟩
  · intro client hmem
    rw [hnext]
    exact Nat.lt_succ_of_lt (clients.forwarders client hmem)

theorem disconnect (clients : ForwarderClients s) (connectionID : ConnectionID) :
    ForwarderClients (s.disconnect connectionID) := by
  have hsame : (s.disconnect connectionID).host.clients = s.host.clients :=
    HostApi.clients_disconnect _ _
  refine ⟨?_, ?_⟩
  · intro client hmem
    rw [hsame]
    exact clients.calls client hmem
  · intro client hmem
    rw [hsame]
    exact clients.forwarders client hmem

theorem register (clients : ForwarderClients s) {client : Nat} {c : DiscoverCall}
    (hc : s.calls.lookup client = some c) : ForwarderClients (s.register client c) := by
  have hclient := clients.calls client (GoMap.mem_iff_lookup.mpr ⟨c, hc⟩)
  refine ⟨?_, ?_⟩
  · intro client' hmem
    obtain ⟨hne, hmem⟩ := AList.mem_erase.mp hmem
    refine ⟨(clients.calls client' hmem).1, ?_⟩
    intro hfwd
    rcases (AList.mem_insert _).mp hfwd with heq | hfwd
    · exact hne heq
    · exact (clients.calls client' hmem).2 hfwd
  · intro client' hmem
    rcases (AList.mem_insert _).mp hmem with rfl | hmem
    · exact hclient.1
    · exact clients.forwarders client' hmem

/-- The goroutines change but are the same or fewer. -/
theorem setForwarders (clients : ForwarderClients s) {forwarders : GoMap Nat Forwarder}
    (hsub : ∀ client ∈ forwarders, client ∈ s.forwarders) :
    ForwarderClients { s with forwarders } := by
  refine ⟨?_, ?_⟩
  · intro client hmem
    exact ⟨(clients.calls client hmem).1, fun hfwd => (clients.calls client hmem).2 (hsub _ hfwd)⟩
  · intro client hmem
    exact clients.forwarders client (hsub client hmem)

theorem lookup (clients : ForwarderClients s) {client : Nat} {connectionID : ConnectionID}
    (hf : client ∈ s.forwarders) : ForwarderClients (s.lookup client connectionID) := by
  unfold Forwarding.lookup
  split
  next => exact ⟨clients.calls, clients.forwarders⟩
  next =>
    refine clients.setForwarders ?_
    intro client' hmem
    rcases (AList.mem_insert _).mp hmem with rfl | hmem
    · exact hf
    · exact hmem

end ForwarderClients

theorem forwarding_step {s s' : Forwarding} {e : ForwardingEvent} (own : ServesOwn s)
    (clients : ForwarderClients s) (hstep : s.step e = some s') :
    (ServesOwn s' ↔ SparesStarting s e) ∧ ForwarderClients s' := by
  simp only [Forwarding.step, own.alive, Bool.false_eq_true, if_false] at hstep
  cases e with
  | discover order r =>
    rw [← Option.some.inj hstep]
    refine ⟨?_, clients.discover order r⟩
    have hiff := own.disconnect_iff (s.host.newClient [.opened s.host.clients]) rfl
      ((s.host.newClient [.opened s.host.clients]).findClient order r).1
    refine (hiff _).trans ?_
    simp only [SparesStarting, Forwarding.touched, Option.some.injEq, forall_eq']
  | register client =>
    simp only at hstep
    split at hstep
    next => simp at hstep
    next c hc =>
      rw [← Option.some.inj hstep]
      refine ⟨(own.register_iff clients hc).trans ?_, clients.register hc⟩
      simp only [SparesStarting, Forwarding.touched, hc, Option.map_some, Option.some.injEq,
        forall_eq']
  | disconnect connectionID =>
    rw [← Option.some.inj hstep]
    refine ⟨(own.disconnect_iff s.host rfl connectionID s.calls).trans ?_, clients.disconnect connectionID⟩
    simp only [SparesStarting, Forwarding.touched, Option.some.injEq, forall_eq']
  | lookup client =>
    simp only at hstep
    split at hstep
    next connectionID hf =>
      rw [← Option.some.inj hstep]
      refine ⟨iff_of_true (own.lookup hf) ?_, clients.lookup (GoMap.mem_iff_lookup.mpr ⟨_, hf⟩)⟩
      simp [SparesStarting, Forwarding.touched]
    next => simp at hstep
  | exit client =>
    simp only at hstep
    split at hstep
    next =>
      rw [← Option.some.inj hstep]
      refine ⟨iff_of_true (own.exit client) ?_, clients.setForwarders ?_⟩
      · simp [SparesStarting, Forwarding.touched]
      · intro client' hmem
        exact (AList.mem_erase.mp hmem).2
    next => simp at hstep

/-- The runs in which every goroutine serves the session it was started for are those in which no
entry is deleted or overwritten before its goroutine has looked it up. -/
theorem forwarders_serve_own_iff {past : List (Forwarding × ForwardingEvent)} {s : Forwarding}
    (run : forwarding.Run past s) :
    Machine.Always ServesOwn past s ↔ Machine.Each SparesStarting past := by
  refine Machine.Run.always_iff_each (J := ForwarderClients) ?_ ?_ run
  · intro s hinit
    rw [hinit]
    exact ⟨.of_own rfl (by simp) (by simp), by simp, by simp⟩
  · intro s e s' own clients hstep
    have hiff := forwarding_step own clients hstep
    exact ⟨hiff.1, fun _ => hiff.2⟩

/-- Nothing is at stake once every goroutine has made its lookup. -/
theorem SparesStarting.of_looked_up {s : Forwarding} {e : ForwardingEvent}
    (h : ∀ x ∈ s.forwarders.entries, x.2.phase ≠ .starting) : SparesStarting s e := by
  intro connectionID _ client hf
  exact h ⟨client, _⟩ (GoMap.mem_entries.mpr hf) rfl

theorem forwarders_serve_own_iff_replaced : ∃ past s, forwarding.Run past s ∧
    s.forwarders.lookup 0 = some ⟨ascii "1", .serving 0⟩ ∧
    s.forwarders.lookup 1 = some ⟨ascii "1", .serving 1⟩ ∧ Machine.Always ServesOwn past s := by
  have discovered := forwarding_next (.start rfl)
    (.discover .stored (sampleRequest "10.0.0.1" 30)) rfl
  have registered := forwarding_next discovered (.register 0) rfl
  have found := forwarding_next registered (.lookup 0) rfl
  have again := forwarding_next found (.discover .stored (sampleRequest "10.0.0.1" 30)) rfl
  have replaced := forwarding_next again (.register 1) rfl
  have run := forwarding_next replaced (.lookup 1) rfl
  refine ⟨_, _, run, rfl, rfl, (forwarders_serve_own_iff run).mpr ?_⟩
  refine Machine.each_snoc.mpr ⟨?_, by simp [SparesStarting, Forwarding.touched]⟩
  refine Machine.each_snoc.mpr ⟨?_, .of_looked_up (by decide)⟩
  refine Machine.each_snoc.mpr ⟨?_, .of_looked_up (by decide)⟩
  refine Machine.each_snoc.mpr ⟨?_, by simp [SparesStarting, Forwarding.touched]⟩
  refine Machine.each_snoc.mpr ⟨?_, .of_looked_up (by decide)⟩
  refine Machine.each_snoc.mpr ⟨?_, .of_looked_up (by decide)⟩
  simp [Machine.Each]

/-- The session is disconnected before its goroutine has looked it up: the lookup panics. -/
theorem forwarder_panics : ¬∀ past s, forwarding.Run past s → ServesOwn s := by
  intro h
  have discovered := forwarding_next (.start rfl)
    (.discover .stored (sampleRequest "10.0.0.1" 30)) rfl
  have registered := forwarding_next discovered (.register 0) rfl
  have disconnected := forwarding_next registered (.disconnect (ascii "1")) rfl
  have run := forwarding_next disconnected (.lookup 0) rfl
  have halive := (h _ _ run).alive
  revert halive
  decide

end DiscoveryClient
