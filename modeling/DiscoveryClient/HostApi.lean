import DiscoveryClient.GoMap
import DiscoveryClient.GoString
import DiscoveryClient.Machine

namespace DiscoveryClient

open GoString

abbrev ConnectionID := GoString

/-- `fmt.Sprintf("%d", n)` of a number that is not negative. -/
def decimal (n : Nat) : ConnectionID := (Nat.toDigits 10 n).map fun c => c.toNat.toUInt8

theorem decimal_zero : decimal 0 = ascii "0" := by decide

theorem decimal_ne_nil (n : Nat) : decimal n ≠ [] := by
  intro h
  exact Nat.toDigits_ne_nil (List.map_eq_nil_iff.mp h)

theorem chars_decimal (n : Nat) :
    (decimal n).map (fun b => Char.ofNat b.toNat) = Nat.toDigits 10 n := by
  rw [decimal, List.map_map]
  refine (List.map_congr_left ?_).trans (List.map_id _)
  intro c hc
  have hdigit := Char.isDigit_iff_toNat.mp (Nat.isDigit_of_mem_toDigits (by omega) (by omega) hc)
  have hbyte : c.toNat.toUInt8.toNat = c.toNat := by
    have hnine : c.toNat ≤ 57 := hdigit.2
    simp only [Nat.toUInt8, UInt8.toNat_ofNat']
    omega
  simp only [Function.comp_apply, hbyte, Char.ofNat_toNat, id]

theorem decimal_inj {m n : Nat} (h : decimal m = decimal n) : m = n := by
  have hdigits : Nat.toDigits 10 m = Nat.toDigits 10 n := by
    rw [← chars_decimal, ← chars_decimal, h]
  rw [← @Nat.ofDigitChars_ten_toDigits m, hdigits, Nat.ofDigitChars_ten_toDigits]

/-- `aenChan` names the channel the forwarder of the session sends on. -/
structure DiscoverRequest where
  transport : GoString
  traddr : GoString
  trsvcid : Int
  hostnqn : GoString
  hostaddr : GoString
  kato : Int
  aenChan : Nat
deriving DecidableEq

/-- The comparison of `findClient`: the fields without `Kato`, then `Kato`. -/
def DiscoverRequest.sameSession (s r : DiscoverRequest) : Bool :=
  (s.transport = r.transport && s.traddr = r.traddr && s.trsvcid = r.trsvcid &&
    s.hostnqn = r.hostnqn && s.hostaddr = r.hostaddr) && s.kato = r.kato

/-- The six fields that name a session. -/
def DiscoverRequest.session (r : DiscoverRequest) :
    GoString × GoString × Int × GoString × GoString × Int :=
  (r.transport, r.traddr, r.trsvcid, r.hostnqn, r.hostaddr, r.kato)

theorem DiscoverRequest.sameSession_iff {s r : DiscoverRequest} :
    s.sameSession r = true ↔ s.session = r.session := by
  simp [sameSession, session, and_assoc]

/-- The steps of `tcpClient.Discover` once the socket is open. -/
inductive HandshakeStep
  | initConnection
  | connect
  | setProperties
  | identify
  | setFeature
  | getLogPage
deriving DecidableEq

def handshakeSteps : List HandshakeStep :=
  [.initConnection, .connect, .setProperties, .identify, .setFeature, .getLogPage]

/-- What a step met: an error or none, and whether the `Stop` of the connect timer has closed the
socket by the step's end. -/
structure StepOutcome where
  failed : Bool
  expired : Bool
deriving DecidableEq

/-- All that is outside the client: the host ID file, the network, the server and the timer. -/
structure Outcomes where
  hostIDFailed : Bool
  dialFailed : Bool
  step : HandshakeStep → StepOutcome

/-- How `tcpClient.Discover` ends. `stopped` says that the timer has stopped the client. -/
inductive ClientResult
  | notOpened
  | error (stopped : Bool)
  | response (stopped : Bool)
  | panicked
deriving DecidableEq

/-- The remaining steps. After the timer's `Stop` the queue is nil and the next step panics. -/
def handshake (outcome : HandshakeStep → StepOutcome) : List HandshakeStep → Bool → ClientResult
  | [], stopped => .response stopped
  | _ :: _, true => .panicked
  | step :: rest, false =>
    if (outcome step).failed then .error (outcome step).expired
    else handshake outcome rest (outcome step).expired

def tcpClientDiscover (outcomes : Outcomes) : ClientResult :=
  if outcomes.hostIDFailed || outcomes.dialFailed then .notOpened
  else handshake outcomes.step handshakeSteps false

structure ConnInfo where
  request : DiscoverRequest
  client : Nat
deriving DecidableEq

inductive ApiEffect
  | opened (client : Nat)
  | stopped (client : Nat)
  | registered (connectionID : ConnectionID) (client : Nat)
deriving DecidableEq

/-- The host API. The last three fields are history: how many clients were created, which is also
the name of the next one; what was done to them, the latest first; and which ID was returned for
which request. -/
structure HostApi where
  connTbl : GoMap ConnectionID ConnInfo := ∅
  i : Nat := 1
  clients : Nat := 0
  effects : List ApiEffect := []
  returned : List (ConnectionID × DiscoverRequest) := []

abbrev ConnItem := Sigma fun _ : ConnectionID => ConnInfo

namespace HostApi

def nextConnectionID (h : HostApi) : ConnectionID := decimal h.i

def findClient (h : HostApi) (order : RangeOrder ConnItem) (r : DiscoverRequest) :
    ConnectionID × Bool :=
  match (order.order h.connTbl.entries).find? fun c => c.2.request.sameSession r with
  | some c => (c.1, true)
  | none => (h.nextConnectionID, false)

/-- The host API after `Disconnect`, and the error it returns. -/
def disconnect (h : HostApi) (connectionID : ConnectionID) : HostApi × Option GoString :=
  match h.connTbl.lookup connectionID with
  | none => (h, some (ascii "connection with id " ++ connectionID ++ ascii " not found"))
  | some info =>
    ({ h with
      connTbl := h.connTbl.erase connectionID
      effects := .stopped info.client :: h.effects }, none)

def register (h : HostApi) (connectionID : ConnectionID) (found : Bool)
    (discoveryRequest : DiscoverRequest) (client : Nat) : HostApi :=
  { h with
    i := if found then h.i else h.i + 1
    connTbl := h.connTbl.insert connectionID ⟨discoveryRequest, client⟩
    effects := .registered connectionID client :: h.effects }

/-- A client was created and did this. -/
def newClient (h : HostApi) (effects : List ApiEffect) : HostApi :=
  { h with clients := h.clients + 1, effects := effects ++ h.effects }

def reply (h : HostApi) (connectionID : ConnectionID) (discoveryRequest : DiscoverRequest) :
    HostApi :=
  { h with returned := (connectionID, discoveryRequest) :: h.returned }

/-- The branch of a persistent discovery: the session with this request is replaced, or a new one
is registered. -/
def persist (h : HostApi) (order : RangeOrder ConnItem) (discoveryRequest : DiscoverRequest)
    (client : Nat) : HostApi × ConnectionID :=
  let (connectionID, found) := h.findClient order discoveryRequest
  ((h.disconnect connectionID).1.register connectionID found discoveryRequest client, connectionID)

/-- The host API after `Discover`, the ID it returns and whether it returns an error; `none` when it
panics. -/
def discover (h : HostApi) (order : RangeOrder ConnItem) (discoveryRequest : DiscoverRequest)
    (outcomes : Outcomes) : Option (HostApi × ConnectionID × Bool) :=
  let client := h.clients
  match tcpClientDiscover outcomes with
  | .notOpened => some (h.newClient [], ascii "0", true)
  | .error false => some (h.newClient [.opened client], ascii "0", true)
  | .error true => some (h.newClient [.stopped client, .opened client], ascii "0", true)
  | .response stopped =>
    if discoveryRequest.kato = 0 then
      -- The second `Stop` would close the client's channel again.
      if stopped then none
      else some (h.newClient [.stopped client, .opened client], ascii "0", false)
    else
      let opened := if stopped then [.stopped client, .opened client] else [.opened client]
      let (h, connectionID) := (h.newClient opened).persist order discoveryRequest client
      some (h, connectionID, false)
  | .panicked => none

end HostApi

inductive ApiCall
  | discover (order : RangeOrder ConnItem) (discoveryRequest : DiscoverRequest) (outcomes : Outcomes)
  | disconnect (connectionID : ConnectionID)

namespace HostApi

/-- One call from outside, which records the ID that `Discover` returns. -/
def call (h : HostApi) : ApiCall → Option HostApi
  | .discover order discoveryRequest outcomes =>
    match h.discover order discoveryRequest outcomes with
    | none => none
    | some (h, connectionID, _) => some (h.reply connectionID discoveryRequest)
  | .disconnect connectionID => some (h.disconnect connectionID).1

end HostApi

def hostApi : Machine HostApi ApiCall where
  init h := h = {}
  step h c h' := h.call c = some h'

theorem hostApi_next {past : List (HostApi × ApiCall)} {h h' : HostApi} (run : hostApi.Run past h)
    (c : ApiCall) (hcall : h.call c = some h') : hostApi.Run (past ++ [(h, c)]) h' :=
  run.next hcall

namespace HostApi

theorem disconnect_of_mem {h : HostApi} {connectionID : ConnectionID} {info : ConnInfo}
    (hinfo : h.connTbl.lookup connectionID = some info) :
    h.disconnect connectionID =
      ({ h with
        connTbl := h.connTbl.erase connectionID
        effects := .stopped info.client :: h.effects }, none) := by
  simp only [disconnect, hinfo]

theorem disconnect_of_notMem {h : HostApi} {connectionID : ConnectionID}
    (hinfo : h.connTbl.lookup connectionID = none) : (h.disconnect connectionID).1 = h := by
  simp only [disconnect, hinfo]

theorem clients_disconnect (h : HostApi) (connectionID : ConnectionID) :
    (h.disconnect connectionID).1.clients = h.clients := by
  unfold disconnect
  split <;> rfl

theorem notMem_disconnect (h : HostApi) (connectionID : ConnectionID) :
    connectionID ∉ (h.disconnect connectionID).1.connTbl := by
  cases hlookup : h.connTbl.lookup connectionID with
  | none =>
    rw [disconnect_of_notMem hlookup]
    exact AList.lookup_eq_none.mp hlookup
  | some info =>
    rw [disconnect_of_mem hlookup]
    exact fun hmem => (AList.mem_erase.mp hmem).1 rfl

theorem lookup_disconnect_ne (h : HostApi) {connectionID id : ConnectionID} (hne : id ≠ connectionID) :
    (h.disconnect connectionID).1.connTbl.lookup id = h.connTbl.lookup id := by
  cases hlookup : h.connTbl.lookup connectionID with
  | none => rw [disconnect_of_notMem hlookup]
  | some info =>
    rw [disconnect_of_mem hlookup]
    exact AList.lookup_erase_ne hne

theorem lookup_disconnect_some {h : HostApi} {connectionID id : ConnectionID} {info : ConnInfo}
    (hinfo : (h.disconnect connectionID).1.connTbl.lookup id = some info) :
    h.connTbl.lookup id = some info := by
  have hne : id ≠ connectionID := by
    intro heq
    subst heq
    exact h.notMem_disconnect id (GoMap.mem_iff_lookup.mpr ⟨info, hinfo⟩)
  rwa [lookup_disconnect_ne h hne] at hinfo

/-- Whatever the order of the range loop, `findClient` finds a session with these fields if there
is one. -/
theorem findClient_cases (h : HostApi) (order : RangeOrder ConnItem) (r : DiscoverRequest) :
    (∃ connectionID info, h.findClient order r = (connectionID, true) ∧
      h.connTbl.lookup connectionID = some info ∧ info.request.session = r.session) ∨
    (h.findClient order r = (decimal h.i, false) ∧
      ∀ connectionID info, h.connTbl.lookup connectionID = some info →
        info.request.session ≠ r.session) := by
  unfold findClient
  split
  next c hc =>
    have hmem := (order.mem_order).mp (List.mem_of_find?_eq_some hc)
    have hsame := List.find?_some hc
    exact Or.inl ⟨c.1, c.2, rfl, GoMap.mem_entries.mp hmem, DiscoverRequest.sameSession_iff.mp hsame⟩
  next hnone =>
    refine Or.inr ⟨rfl, ?_⟩
    intro connectionID info hinfo hsame
    have hmem : ⟨connectionID, info⟩ ∈ order.order h.connTbl.entries :=
      (order.mem_order).mpr (GoMap.mem_entries.mpr hinfo)
    exact List.find?_eq_none.mp hnone _ hmem (DiscoverRequest.sameSession_iff.mpr hsame)

/-- A persistent discovery replaces the session found, or registers one under the next ID. -/
theorem persist_cases (h : HostApi) (order : RangeOrder ConnItem) (r : DiscoverRequest)
    (client : Nat) (fresh : decimal h.i ∉ h.connTbl) :
    (∃ connectionID info, h.connTbl.lookup connectionID = some info ∧
      info.request.session = r.session ∧
      h.persist order r client =
        ((h.disconnect connectionID).1.register connectionID true r client, connectionID)) ∨
    ((∀ connectionID info, h.connTbl.lookup connectionID = some info →
        info.request.session ≠ r.session) ∧
      h.persist order r client = (h.register (decimal h.i) false r client, decimal h.i)) := by
  rcases h.findClient_cases order r with found | ⟨hfind, hnone⟩
  · obtain ⟨connectionID, info, hfind, hinfo, hsame⟩ := found
    refine Or.inl ⟨connectionID, info, hinfo, hsame, ?_⟩
    simp only [persist, hfind]
  · refine Or.inr ⟨hnone, ?_⟩
    have hinfo : h.connTbl.lookup (decimal h.i) = none := AList.lookup_eq_none.mpr fresh
    simp only [persist, hfind, disconnect_of_notMem hinfo]

theorem returned_persist (h : HostApi) (order : RangeOrder ConnItem) (r : DiscoverRequest)
    (client : Nat) : (h.persist order r client).1.returned = h.returned := by
  simp only [persist, register, disconnect]
  split <;> rfl

theorem lookup_persist_some {h : HostApi} {order : RangeOrder ConnItem} {r : DiscoverRequest}
    {client : Nat} {id : ConnectionID} {info : ConnInfo}
    (hinfo : (h.persist order r client).1.connTbl.lookup id = some info) :
    info = ⟨r, client⟩ ∨ h.connTbl.lookup id = some info := by
  rcases GoMap.lookup_insert_some hinfo with ⟨_, hnew⟩ | ⟨_, hold⟩
  · exact Or.inl hnew
  · exact Or.inr (lookup_disconnect_some hold)

/-- A persistent discovery takes no ID from the table. -/
theorem mem_persist {h : HostApi} {order : RangeOrder ConnItem} {r : DiscoverRequest}
    {client : Nat} {id : ConnectionID} :
    id ∈ (h.persist order r client).1.connTbl ↔
      id = (h.persist order r client).2 ∨ id ∈ h.connTbl := by
  change id ∈ AList.insert (h.findClient order r).1 _ (h.disconnect (h.findClient order r).1).1.connTbl ↔
    id = (h.findClient order r).1 ∨ id ∈ h.connTbl
  rw [AList.mem_insert]
  by_cases heq : id = (h.findClient order r).1
  · simp [heq]
  · rw [GoMap.mem_iff_lookup, GoMap.mem_iff_lookup, lookup_disconnect_ne h heq]

/-- What a call of `Discover` that returns has done: its client was created, and was registered
only by a persistent discovery that succeeded. -/
theorem discover_cases {h h' : HostApi} {order : RangeOrder ConnItem} {r : DiscoverRequest}
    {outcomes : Outcomes} {connectionID : ConnectionID} {failed : Bool}
    (hdiscover : h.discover order r outcomes = some (h', connectionID, failed)) :
    ∃ effects, (∀ id client, ApiEffect.registered id client ∉ effects) ∧
      (h' = h.newClient effects ∧ connectionID = ascii "0" ∧ (failed = false → r.kato = 0) ∨
        r.kato ≠ 0 ∧ failed = false ∧
          (h.newClient effects).persist order r h.clients = (h', connectionID)) := by
  simp only [discover] at hdiscover
  cases hresult : tcpClientDiscover outcomes with
  | notOpened =>
    simp only [hresult, Option.some.injEq, Prod.mk.injEq] at hdiscover
    obtain ⟨rfl, rfl, rfl⟩ := hdiscover
    exact ⟨[], by simp, Or.inl ⟨rfl, rfl, by simp⟩⟩
  | error stopped =>
    cases stopped
    · simp only [hresult, Option.some.injEq, Prod.mk.injEq] at hdiscover
      obtain ⟨rfl, rfl, rfl⟩ := hdiscover
      exact ⟨_, by simp, Or.inl ⟨rfl, rfl, by simp⟩⟩
    · simp only [hresult, Option.some.injEq, Prod.mk.injEq] at hdiscover
      obtain ⟨rfl, rfl, rfl⟩ := hdiscover
      exact ⟨_, by simp, Or.inl ⟨rfl, rfl, by simp⟩⟩
  | response stopped =>
    simp only [hresult] at hdiscover
    by_cases hkato : r.kato = 0
    · cases stopped
      · simp only [hkato, if_true, Bool.false_eq_true, if_false, Option.some.injEq,
          Prod.mk.injEq] at hdiscover
        obtain ⟨rfl, rfl, rfl⟩ := hdiscover
        exact ⟨_, by simp, Or.inl ⟨rfl, rfl, fun _ => hkato⟩⟩
      · simp [hkato] at hdiscover
    · simp only [hkato, if_false, Option.some.injEq, Prod.mk.injEq] at hdiscover
      obtain ⟨rfl, rfl, rfl⟩ := hdiscover
      refine ⟨_, ?_, Or.inr ⟨hkato, rfl, rfl⟩⟩
      cases stopped <;> simp
  | panicked => simp [hresult] at hdiscover

theorem discover_succeeds_iff {h h' : HostApi} {order : RangeOrder ConnItem} {r : DiscoverRequest}
    {outcomes : Outcomes} {connectionID : ConnectionID} {failed : Bool}
    (hdiscover : h.discover order r outcomes = some (h', connectionID, failed)) :
    failed = false ↔ ∃ stopped, tcpClientDiscover outcomes = .response stopped := by
  simp only [discover] at hdiscover
  cases hresult : tcpClientDiscover outcomes with
  | notOpened =>
    simp only [hresult, Option.some.injEq, Prod.mk.injEq] at hdiscover
    simp [← hdiscover.2.2]
  | error stopped =>
    cases stopped <;>
    · simp only [hresult, Option.some.injEq, Prod.mk.injEq] at hdiscover
      simp [← hdiscover.2.2]
  | response stopped =>
    simp only [hresult] at hdiscover
    refine iff_of_true ?_ ⟨stopped, rfl⟩
    split at hdiscover
    next =>
      split at hdiscover
      next => simp at hdiscover
      next => simp only [Option.some.injEq, Prod.mk.injEq] at hdiscover; exact hdiscover.2.2.symm
    next => simp only [Option.some.injEq, Prod.mk.injEq] at hdiscover; exact hdiscover.2.2.symm
  | panicked => simp [hresult] at hdiscover

theorem call_discover_cases {h h' : HostApi} {order : RangeOrder ConnItem} {r : DiscoverRequest}
    {outcomes : Outcomes} (hcall : h.call (.discover order r outcomes) = some h') :
    ∃ effects, (∀ id client, ApiEffect.registered id client ∉ effects) ∧
      (h' = (h.newClient effects).reply (ascii "0") r ∨
        ∃ g id, (h.newClient effects).persist order r h.clients = (g, id) ∧ h' = g.reply id r) := by
  cases hdiscover : h.discover order r outcomes with
  | none => simp [call, hdiscover] at hcall
  | some result =>
    simp only [call, hdiscover, Option.some.injEq] at hcall
    obtain ⟨effects, heffects, ⟨hh, hid, _⟩ | ⟨_, _, hpersist⟩⟩ := discover_cases hdiscover
    · rw [hh, hid] at hcall
      exact ⟨effects, heffects, Or.inl hcall.symm⟩
    · exact ⟨effects, heffects, Or.inr ⟨_, _, hpersist, hcall.symm⟩⟩

end HostApi

end DiscoveryClient
