import DiscoveryClient.Cache
import DiscoveryClient.SessionTable

namespace DiscoveryClient

open GoString

/-- The service's keep alive timeout for persistent connections, in nanoseconds. -/
def persistentKato : Int := 30000000000

/-- `Hostaddr` stays empty, and the subsystem NQN of the key is not part of the request. -/
def Connection.getDiscoveryRequest (c : Connection) (kato : Int) : DiscoverRequest where
  traddr := c.key.ip
  transport := c.key.transport
  trsvcid := c.key.port
  hostnqn := c.hostnqn
  hostaddr := []
  kato := kato
  aenChan := c.addr

def Connection.endpoint (c : Connection) : GoString × GoString × Int × GoString :=
  (c.key.transport, c.key.ip, c.key.port, c.hostnqn)

theorem Connection.session_eq_iff {c c' : Connection} {kato : Int} :
    (c.getDiscoveryRequest kato).session = (c'.getDiscoveryRequest kato).session ↔
      c.endpoint = c'.endpoint := by
  simp [getDiscoveryRequest, DiscoverRequest.session, endpoint]

/-- A connection of the service with its `ConnectionID`. `connected` is history: the last persistent
discovery succeeded, and there was no disconnect since. -/
structure Held where
  conn : Connection
  connectionID : ConnectionID := []
  connected : Bool := false

structure Sessions where
  host : HostApi := {}
  held : GoMap TKey Held := ∅

/-- `reread` is the discovery that follows a notification, which may still be about a connection
that was removed. -/
inductive SessionEvent
  | add (conn : Connection)
  | discover (key : TKey) (order : RangeOrder ConnItem) (outcomes : Outcomes)
  | reread (conn : Connection) (order : RangeOrder ConnItem) (outcomes : Outcomes)
  | disconnect (key : TKey)
  | remove (key : TKey)

namespace Sessions

/-- `getLogPageEntries` up to the host API: a persistent discovery that succeeds keeps the ID. -/
def discovered (s : Sessions) (key : TKey) (h : Held) :
    Option (HostApi × ConnectionID × Bool) → Option Sessions
  | none => none
  | some (host, connectionID, failed) =>
    some
      { host := host.reply connectionID (h.conn.getDiscoveryRequest persistentKato)
        held := s.held.insert key
          (if failed then { h with connected := false }
          else { h with connectionID := connectionID, connected := true }) }

def step (s : Sessions) : SessionEvent → Option Sessions
  | .add conn =>
    if conn.key ∈ s.held then none else some { s with held := s.held.insert conn.key { conn } }
  | .discover key order outcomes =>
    match s.held.lookup key with
    | none => none
    | some h =>
      s.discovered key h
        (s.host.discover order (h.conn.getDiscoveryRequest persistentKato) outcomes)
  | .reread conn order outcomes =>
    match s.host.call (.discover order (conn.getDiscoveryRequest 0) outcomes) with
    | none => none
    | some host => some { s with host }
  | .disconnect key =>
    match s.held.lookup key with
    | none => none
    | some h =>
      some
        { host := (s.host.disconnect h.connectionID).1
          held := s.held.insert key { h with connected := false } }
  | .remove key => some { s with held := s.held.erase key }

end Sessions

def sessions : Machine Sessions SessionEvent where
  init s := s = {}
  step s e s' := s.step e = some s'

theorem sessions_next {past : List (Sessions × SessionEvent)} {s s' : Sessions}
    (run : sessions.Run past s) (e : SessionEvent) (hstep : s.step e = some s') :
    sessions.Run (past ++ [(s, e)]) s' :=
  run.next hstep

/-- Connections that are connected hold different IDs, and to disconnect the ID of one connection
leaves the session of every other one that is connected. -/
structure Independent (s : Sessions) : Prop where
  distinct : ∀ k k' h h', s.held.lookup k = some h → s.held.lookup k' = some h' → k ≠ k' →
    h.connected = true → h'.connected = true → h.connectionID ≠ h'.connectionID
  undisturbed : ∀ k k' h h', s.held.lookup k = some h → s.held.lookup k' = some h' → k ≠ k' →
    h'.connected = true →
      (s.host.disconnect h.connectionID).1.connTbl.lookup h'.connectionID =
        s.host.connTbl.lookup h'.connectionID

/-- A persistent discovery succeeds only while no other connection with the same transport, address,
port and host NQN has a session in the table. -/
def NoOtherSession (s : Sessions) : SessionEvent → Prop
  | .discover key _ outcomes => (∃ stopped, tcpClientDiscover outcomes = .response stopped) →
    ∀ h k' h', s.held.lookup key = some h → k' ≠ key → s.held.lookup k' = some h' →
      h'.conn.endpoint = h.conn.endpoint → h'.connectionID ∉ s.host.connTbl
  | _ => True

/-- The ID of a connection that is connected is no other connection's ID. -/
def IDsApart (s : Sessions) : Prop :=
  ∀ k k' h h', s.held.lookup k = some h → s.held.lookup k' = some h' → k ≠ k' →
    h'.connected = true → h.connectionID ≠ h'.connectionID

/-- What the service knows of the sessions: an ID it holds was returned for this connection, and
the session of a connection that is connected is in the table. -/
structure SessionsInv (s : Sessions) : Prop where
  host : SessionInv s.host
  counter : 1 ≤ s.host.i
  known : ∀ k h, s.held.lookup k = some h → h.connectionID = [] ∨
    h.connectionID ≠ ascii "0" ∧
      (h.connectionID, h.conn.getDiscoveryRequest persistentKato) ∈ s.host.returned
  connected : ∀ k h, s.held.lookup k = some h → h.connected = true →
    h.connectionID ∈ s.host.connTbl

theorem SessionsInv.independent_iff {s : Sessions} (inv : SessionsInv s) :
    Independent s ↔ IDsApart s := by
  constructor
  · intro indep k k' h h' hk hk' hne hconn heq
    have hundisturbed := indep.undisturbed k k' h h' hk hk' hne hconn
    have hgone := s.host.notMem_disconnect h.connectionID
    have hthere := inv.connected k' h' hk' hconn
    rw [heq] at hundisturbed hgone
    rw [GoMap.mem_iff_lookup, hundisturbed] at hgone
    exact hgone (GoMap.mem_iff_lookup.mp hthere)
  · intro apart
    refine ⟨?_, ?_⟩
    · intro k k' h h' hk hk' hne _ hconn
      exact apart k k' h h' hk hk' hne hconn
    · intro k k' h h' hk hk' hne hconn
      exact s.host.lookup_disconnect_ne (apart k k' h h' hk hk' hne hconn).symm

namespace SessionsInv

variable {s : Sessions}

/-- The session under the ID that a connection holds has the connection's endpoint. -/
theorem session_eq (inv : SessionsInv s) {k : TKey} {h : Held} (hk : s.held.lookup k = some h)
    {info : ConnInfo} (hinfo : s.host.connTbl.lookup h.connectionID = some info) :
    info.request.session = (h.conn.getDiscoveryRequest persistentKato).session := by
  rcases inv.known k h hk with hnil | ⟨hne, hreturned⟩
  · obtain ⟨n, _, _, hdec⟩ := inv.host.table.keys _ (GoMap.mem_iff_lookup.mpr ⟨info, hinfo⟩)
    exact absurd (hdec.symm.trans hnil) (decimal_ne_nil n)
  · exact inv.host.table.returned _ _ _ (inv.host.history.owner _ info hinfo) hreturned hne

/-- The next ID of the counter is held by no connection. -/
theorem ne_next (inv : SessionsInv s) {k : TKey} {h : Held} (hk : s.held.lookup k = some h) :
    h.connectionID ≠ decimal s.host.i := by
  intro heq
  rcases inv.known k h hk with hnil | ⟨hne, hreturned⟩
  · exact decimal_ne_nil _ (heq.symm.trans hnil)
  · obtain ⟨n, _, hlt, hdec⟩ := inv.host.history.issued _ _ hreturned hne
    have := decimal_inj (hdec.symm.trans heq)
    omega

/-- The ID of a new session is held by another connection exactly if that one has a session with
the same endpoint. -/
theorem id_apart_iff (inv : SessionsInv s) {k : TKey} {h : Held} {effects : List ApiEffect}
    {order : RangeOrder ConnItem} {client : Nat} {g : HostApi} {id : ConnectionID}
    (hpersist : (s.host.newClient effects).persist order
      (h.conn.getDiscoveryRequest persistentKato) client = (g, id)) :
    (∀ k' h', k' ≠ k → s.held.lookup k' = some h' → h'.connectionID ≠ id) ↔
      ∀ k' h', k' ≠ k → s.held.lookup k' = some h' → h'.conn.endpoint = h.conn.endpoint →
        h'.connectionID ∉ s.host.connTbl := by
  rcases (s.host.newClient effects).persist_cases order (h.conn.getDiscoveryRequest persistentKato)
      client inv.host.fresh with found | ⟨hnew, heq⟩
  · obtain ⟨id', info, hinfo, hsame, heq⟩ := found
    obtain ⟨_, rfl⟩ := Prod.mk.inj (heq.symm.trans hpersist)
    have hinfo : s.host.connTbl.lookup id' = some info := hinfo
    constructor
    · intro apart k' h' hne hk' hend hmem
      obtain ⟨info', hinfo'⟩ := GoMap.mem_iff_lookup.mp hmem
      have hsession := (inv.session_eq hk' hinfo').trans
        ((Connection.session_eq_iff.mpr hend).trans hsame.symm)
      exact apart k' h' hne hk' (inv.host.table.distinct _ _ info' info hinfo' hinfo hsession)
    · intro alone k' h' hne hk' hid
      subst hid
      have hsession := (inv.session_eq hk' hinfo).symm.trans hsame
      exact alone k' h' hne hk' (Connection.session_eq_iff.mp hsession)
        (GoMap.mem_iff_lookup.mpr ⟨info, hinfo⟩)
  · obtain ⟨_, rfl⟩ := Prod.mk.inj (heq.symm.trans hpersist)
    refine iff_of_true ?_ ?_
    · intro k' h' _ hk'
      exact inv.ne_next hk'
    · intro k' h' _ hk' hend hmem
      obtain ⟨info', hinfo'⟩ := GoMap.mem_iff_lookup.mp hmem
      exact hnew _ info' hinfo' ((inv.session_eq hk' hinfo').trans (Connection.session_eq_iff.mpr hend))

theorem setHost (inv : SessionsInv s) {host : HostApi} (hhost : SessionInv host) (hi : 1 ≤ host.i)
    (hreturned : ∀ x ∈ s.host.returned, x ∈ host.returned)
    (hconnected : ∀ k h, s.held.lookup k = some h → h.connected = true →
      h.connectionID ∈ host.connTbl) :
    SessionsInv { s with host } := by
  refine ⟨hhost, hi, ?_, hconnected⟩
  intro k h hk
  rcases inv.known k h hk with hnil | ⟨hne, hmem⟩
  · exact Or.inl hnil
  · exact Or.inr ⟨hne, hreturned _ hmem⟩

theorem setHeld (inv : SessionsInv s) {k : TKey} {h : Held}
    (hknown : h.connectionID = [] ∨ h.connectionID ≠ ascii "0" ∧
      (h.connectionID, h.conn.getDiscoveryRequest persistentKato) ∈ s.host.returned)
    (hconnected : h.connected = true → h.connectionID ∈ s.host.connTbl) :
    SessionsInv { s with held := s.held.insert k h } := by
  refine ⟨inv.host, inv.counter, ?_, ?_⟩
  · intro k' h' hk'
    rcases GoMap.lookup_insert_some hk' with ⟨_, rfl⟩ | ⟨_, hk'⟩
    · exact hknown
    · exact inv.known k' h' hk'
  · intro k' h' hk'
    rcases GoMap.lookup_insert_some hk' with ⟨_, rfl⟩ | ⟨_, hk'⟩
    · exact hconnected
    · exact inv.connected k' h' hk'

theorem add (inv : SessionsInv s) (conn : Connection) :
    SessionsInv { s with held := s.held.insert conn.key { conn } } :=
  inv.setHeld (Or.inl rfl) (by simp)

/-- The connection of the key is no longer connected. -/
theorem lower (inv : SessionsInv s) {k : TKey} {h : Held} (hk : s.held.lookup k = some h) :
    SessionsInv { s with held := s.held.insert k { h with connected := false } } :=
  inv.setHeld (inv.known k h hk) (by simp)

theorem remove (inv : SessionsInv s) (k : TKey) :
    SessionsInv { s with held := s.held.erase k } := by
  refine ⟨inv.host, inv.counter, ?_, ?_⟩
  · intro k' h' hk'
    exact inv.known k' h' (GoMap.lookup_erase_some hk').2
  · intro k' h' hk'
    exact inv.connected k' h' (GoMap.lookup_erase_some hk').2

theorem call (inv : SessionsInv s) {order : RangeOrder ConnItem} {r : DiscoverRequest}
    {outcomes : Outcomes} {host : HostApi}
    (hcall : s.host.call (.discover order r outcomes) = some host) :
    SessionsInv { s with host } := by
  have hhost := inv.host.step inv.counter hcall
  have hi := Nat.le_trans inv.counter (HostApi.i_call hcall)
  refine inv.setHost hhost hi ?_ ?_
  · obtain ⟨effects, _, rfl | ⟨g, id, hpersist, rfl⟩⟩ := HostApi.call_discover_cases hcall
    · exact fun x hx => List.mem_cons_of_mem _ hx
    · have hreturned := (s.host.newClient effects).returned_persist order r s.host.clients
      rw [hpersist] at hreturned
      intro x hx
      refine List.mem_cons_of_mem _ ?_
      rw [hreturned]
      exact hx
  · intro k h hk hconn
    have hmem := inv.connected k h hk hconn
    obtain ⟨effects, _, rfl | ⟨g, id, hpersist, rfl⟩⟩ := HostApi.call_discover_cases hcall
    · exact hmem
    · have hpersists := @HostApi.mem_persist (s.host.newClient effects) order r s.host.clients
        h.connectionID
      rw [hpersist] at hpersists
      exact hpersists.mpr (Or.inr hmem)

theorem disconnect (inv : SessionsInv s) {k : TKey} {h : Held} (apart : IDsApart s)
    (hk : s.held.lookup k = some h) :
    SessionsInv
      { host := (s.host.disconnect h.connectionID).1
        held := s.held.insert k { h with connected := false } } := by
  have hi : 1 ≤ (s.host.disconnect h.connectionID).1.i := by
    rw [s.host.i_disconnect]
    exact inv.counter
  refine (inv.lower hk).setHost (inv.host.disconnect _) hi ?_ ?_
  · intro x hx
    unfold HostApi.disconnect
    split <;> exact hx
  · intro k' h' hk' hconn
    rcases GoMap.lookup_insert_some hk' with ⟨_, rfl⟩ | ⟨hne, hk'⟩
    · simp at hconn
    · have hids := apart k k' h h' hk hk' hne.symm hconn
      have hmem := inv.connected k' h' hk' hconn
      rw [GoMap.mem_iff_lookup] at hmem ⊢
      rw [s.host.lookup_disconnect_ne hids.symm]
      exact hmem

end SessionsInv

namespace IDsApart

variable {s : Sessions}

/-- IDs stay apart when one connection takes an ID that none of the others holds. -/
theorem setHeld (apart : IDsApart s) {k : TKey} {h : Held} {host : HostApi}
    (hnew : ∀ k' h', k' ≠ k → s.held.lookup k' = some h' → h'.connected = true ∨ h.connected = true →
      h'.connectionID ≠ h.connectionID) :
    IDsApart { host, held := s.held.insert k h } := by
  intro k₁ k₂ h₁ h₂ hk₁ hk₂ hne hconn
  rcases GoMap.lookup_insert_some hk₁ with ⟨hk, hh⟩ | ⟨hne₁, hold₁⟩
  · rcases GoMap.lookup_insert_some hk₂ with ⟨hk', _⟩ | ⟨hne₂, hold₂⟩
    · exact absurd (hk.trans hk'.symm) hne
    · rw [hh]
      exact (hnew k₂ h₂ hne₂ hold₂ (Or.inl hconn)).symm
  · rcases GoMap.lookup_insert_some hk₂ with ⟨_, hh⟩ | ⟨_, hold₂⟩
    · rw [hh] at hconn ⊢
      exact hnew k₁ h₁ hne₁ hold₁ (Or.inr hconn)
    · exact apart k₁ k₂ h₁ h₂ hold₁ hold₂ hne hconn

theorem lower (apart : IDsApart s) {k : TKey} {h : Held} (hk : s.held.lookup k = some h)
    {host : HostApi} : IDsApart { host, held := s.held.insert k { h with connected := false } } := by
  refine apart.setHeld ?_
  intro k' h' hne hk' hconn
  have hconn : h'.connected = true := by simpa using hconn
  exact (apart k k' h h' hk hk' hne.symm hconn).symm

theorem add (apart : IDsApart s) (inv : SessionsInv s) (conn : Connection) :
    IDsApart { s with held := s.held.insert conn.key { conn } } := by
  refine apart.setHeld ?_
  intro k' h' _ hk' hconn
  have hconn : h'.connected = true := by simpa using hconn
  obtain ⟨n, _, _, hdec⟩ := inv.host.table.keys _ (inv.connected k' h' hk' hconn)
  rw [hdec]
  exact decimal_ne_nil n

theorem remove (apart : IDsApart s) (k : TKey) : IDsApart { s with held := s.held.erase k } := by
  intro k₁ k₂ h₁ h₂ hk₁ hk₂
  exact apart k₁ k₂ h₁ h₂ (GoMap.lookup_erase_some hk₁).2 (GoMap.lookup_erase_some hk₂).2

end IDsApart

/-- A persistent discovery that succeeds gives its connection an ID that is apart from the others
exactly if no other connection has a session with the same endpoint. -/
theorem sessions_discover {s : Sessions} (apart : IDsApart s) (inv : SessionsInv s) {key : TKey}
    {h : Held} (hk : s.held.lookup key = some h) {order : RangeOrder ConnItem} {outcomes : Outcomes}
    {host : HostApi} {id : ConnectionID} {failed : Bool}
    (hdiscover : s.host.discover order (h.conn.getDiscoveryRequest persistentKato) outcomes =
      some (host, id, failed)) {s' : Sessions}
    (hs' : s.discovered key h (some (host, id, failed)) = some s') :
    SessionsInv s' ∧ (IDsApart s' ↔ NoOtherSession s (.discover key order outcomes)) := by
  have hcall : s.host.call (.discover order (h.conn.getDiscoveryRequest persistentKato) outcomes) =
      some (host.reply id (h.conn.getDiscoveryRequest persistentKato)) := by
    simp only [HostApi.call, hdiscover]
  have hinv := inv.call hcall
  have hsucceeds := HostApi.discover_succeeds_iff hdiscover
  rw [← Option.some.inj hs']
  obtain ⟨effects, _, ⟨_, _, hkato⟩ | ⟨_, hfailed, hpersist⟩⟩ := HostApi.discover_cases hdiscover
  · have hfailed : failed = true := by
      cases failed with
      | true => rfl
      | false => exact absurd (hkato rfl) (by simp [Connection.getDiscoveryRequest, persistentKato])
    subst hfailed
    refine ⟨hinv.lower hk, iff_of_true (apart.lower hk) ?_⟩
    intro hresponse
    exact absurd (hsucceeds.mpr hresponse) (by simp)
  · subst hfailed
    have hresponse := hsucceeds.mp rfl
    have hid : id ∈ host.connTbl := by
      have hmem := @HostApi.mem_persist (s.host.newClient effects) order
        (h.conn.getDiscoveryRequest persistentKato) s.host.clients id
      rw [hpersist] at hmem
      exact hmem.mpr (Or.inl rfl)
    obtain ⟨n, hn, _, hdec⟩ := hinv.host.table.keys id hid
    have hzero : id ≠ ascii "0" := hdec ▸ decimal_ne_zero hn
    have hapart := inv.id_apart_iff hpersist (k := key)
    refine ⟨hinv.setHeld (Or.inr ⟨hzero, List.mem_cons_self ..⟩) fun _ => hid, ?_⟩
    constructor
    · intro apart' _ h₀ k' h' hk₀ hne hk'
      rw [hk, Option.some.injEq] at hk₀
      subst hk₀
      refine hapart.mp ?_ k' h' hne hk'
      intro k₁ h₁ hne₁ hk₁
      refine apart' k₁ key h₁ _ ?_ (AList.lookup_insert _) hne₁ rfl
      exact (AList.lookup_insert_ne hne₁).trans hk₁
    · intro alone
      refine apart.setHeld ?_
      intro k' h' hne hk' _
      exact hapart.mpr (fun k₁ h₁ hne₁ hk₁ => alone hresponse h k₁ h₁ hk hne₁ hk₁) k' h' hne hk'

theorem sessions_step {s s' : Sessions} {e : SessionEvent} (apart : IDsApart s)
    (inv : SessionsInv s) (hstep : s.step e = some s') :
    SessionsInv s' ∧ (IDsApart s' ↔ NoOtherSession s e) := by
  cases e with
  | add conn =>
    simp only [Sessions.step] at hstep
    split at hstep
    next => simp at hstep
    next =>
      rw [← Option.some.inj hstep]
      exact ⟨inv.add conn, iff_of_true (apart.add inv conn) trivial⟩
  | discover key order outcomes =>
    simp only [Sessions.step] at hstep
    split at hstep
    next => simp at hstep
    next h hk =>
      cases hdiscover : s.host.discover order (h.conn.getDiscoveryRequest persistentKato) outcomes with
      | none => simp [hdiscover, Sessions.discovered] at hstep
      | some result =>
        rw [hdiscover] at hstep
        exact sessions_discover apart inv hk hdiscover hstep
  | reread conn order outcomes =>
    simp only [Sessions.step] at hstep
    split at hstep
    next => simp at hstep
    next host hcall =>
      rw [← Option.some.inj hstep]
      exact ⟨inv.call hcall, iff_of_true apart trivial⟩
  | disconnect key =>
    simp only [Sessions.step] at hstep
    split at hstep
    next => simp at hstep
    next h hk =>
      rw [← Option.some.inj hstep]
      exact ⟨inv.disconnect apart hk, iff_of_true (apart.lower hk) trivial⟩
  | remove key =>
    rw [← Option.some.inj hstep]
    exact ⟨inv.remove key, iff_of_true (apart.remove key) trivial⟩

/-- The runs in which sessions are independent are those in which no persistent discovery succeeds
while another connection with the same endpoint has a session. -/
theorem sessions_independent_iff {past : List (Sessions × SessionEvent)} {s : Sessions}
    (run : sessions.Run past s) :
    Machine.Always Independent past s ↔ Machine.Each NoOtherSession past := by
  refine Machine.Run.always_iff_each (J := SessionsInv) ?_ ?_ run
  · intro s hinit
    rw [hinit]
    have hhost := hostApi_inv (.start rfl)
    exact ⟨⟨by simp, by simp⟩, ⟨hhost.1, hhost.2, by simp, by simp⟩⟩
  · intro s e s' indep inv hstep
    obtain ⟨inv', hiff⟩ := sessions_step (inv.independent_iff.mp indep) inv hstep
    exact ⟨inv'.independent_iff.trans hiff, fun _ => inv'⟩

/-- Connections of one host to discovery servers on the usual port. -/
def subsystemKey (nqn ip : String) : TKey := ⟨ascii "tcp", ascii ip, 8009, ascii nqn, ascii "nqn.h"⟩

def subsystemConnection (addr : Nat) (nqn ip : String) : Connection :=
  ⟨addr, subsystemKey nqn ip, ascii "nqn.h", [], none⟩

theorem sessions_independent_iff_two_servers : ∃ past s, sessions.Run past s ∧
    s.held.entries.map (fun c => (c.2.connectionID, c.2.connected)) =
      [(ascii "2", true), (ascii "1", true)] ∧
    Machine.Always Independent past s := by
  have one := sessions_next (.start rfl) (.add (subsystemConnection 0 "nqn.c" "10.0.0.1")) rfl
  have two := sessions_next one (.add (subsystemConnection 1 "nqn.d" "10.0.0.2")) rfl
  have first := sessions_next two (.discover (subsystemKey "nqn.c" "10.0.0.1") .stored allWell) rfl
  have run := sessions_next first (.discover (subsystemKey "nqn.d" "10.0.0.2") .stored allWell) rfl
  refine ⟨_, _, run, by decide, (sessions_independent_iff run).mpr ?_⟩
  refine Machine.each_snoc.mpr ⟨Machine.each_snoc.mpr ⟨Machine.each_snoc.mpr ⟨Machine.each_snoc.mpr
    ⟨?_, trivial⟩, trivial⟩, ?_⟩, ?_⟩
  · simp [Machine.Each]
  · intro _ h k' h' _ _ _ _ hmem
    have hmem : h'.connectionID ∈ (∅ : GoMap ConnectionID ConnInfo) := hmem
    simp at hmem
  · intro _ h k' h' hk hne hk' hend
    have hh : some (Held.mk (subsystemConnection 1 "nqn.d" "10.0.0.2") [] false) = some h := hk
    rw [← Option.some.inj hh] at hend
    rcases GoMap.lookup_insert_some hk' with ⟨_, rfl⟩ | ⟨_, hk'⟩
    · exact absurd hend (by decide)
    · rcases GoMap.lookup_insert_some hk' with ⟨heq, _⟩ | ⟨_, hk'⟩
      · exact absurd heq hne
      · rcases GoMap.lookup_insert_some hk' with ⟨_, rfl⟩ | ⟨_, hk'⟩
        · exact absurd hend (by decide)
        · simp at hk'

/-- Two subsystems behind one discovery server: the second discovery replaces the session of the
first connection, and both hold the ID `"1"`. -/
theorem sessions_share_id : ¬∀ past s, sessions.Run past s → Independent s := by
  intro h
  have one := sessions_next (.start rfl) (.add (subsystemConnection 0 "nqn.c" "10.0.0.1")) rfl
  have two := sessions_next one (.add (subsystemConnection 1 "nqn.d" "10.0.0.1")) rfl
  have first := sessions_next two (.discover (subsystemKey "nqn.c" "10.0.0.1") .stored allWell) rfl
  have run := sessions_next first (.discover (subsystemKey "nqn.d" "10.0.0.1") .stored allWell) rfl
  exact (h _ _ run).distinct (subsystemKey "nqn.c" "10.0.0.1") (subsystemKey "nqn.d" "10.0.0.1") _ _
    rfl rfl (by decide) rfl rfl rfl

end DiscoveryClient
