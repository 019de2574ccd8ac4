import DiscoveryClient.HostApi

namespace DiscoveryClient

open GoString

/-- No ID is registered again before every client that had it was stopped. -/
def StoppedBeforeReuse : List ApiEffect → Prop
  | [] => True
  | .registered connectionID _ :: past =>
    (∀ client, .registered connectionID client ∈ past → .stopped client ∈ past) ∧
      StoppedBeforeReuse past
  | _ :: past => StoppedBeforeReuse past

def HostApi.registrations (h : HostApi) : Nat :=
  h.effects.countP fun e => e matches .registered _ _

structure SessionTable (h : HostApi) : Prop where
  keys : ∀ connectionID ∈ h.connTbl, ∃ n, 1 ≤ n ∧ n < h.i ∧ connectionID = decimal n
  zero : ascii "0" ∉ h.connTbl
  distinct : ∀ id id' info info', h.connTbl.lookup id = some info →
    h.connTbl.lookup id' = some info' → info.request.session = info'.request.session → id = id'
  reused : StoppedBeforeReuse h.effects
  returned : ∀ id r r', (id, r) ∈ h.returned → (id, r') ∈ h.returned → id ≠ ascii "0" →
    r.session = r'.session

/-- The table against the history: the registered clients that were not stopped are those in the
table, and every other ID that was returned belongs to the counter's past. -/
structure SessionHistory (h : HostApi) : Prop where
  registered : ∀ id client, .registered id client ∈ h.effects →
    (∃ info, h.connTbl.lookup id = some info ∧ info.client = client) ∨ .stopped client ∈ h.effects
  owner : ∀ id info, h.connTbl.lookup id = some info → (id, info.request) ∈ h.returned
  issued : ∀ id r, (id, r) ∈ h.returned → id ≠ ascii "0" → ∃ n, 1 ≤ n ∧ n < h.i ∧ id = decimal n

namespace StoppedBeforeReuse

theorem append {new past : List ApiEffect} (h : StoppedBeforeReuse past)
    (hnew : ∀ id client, .registered id client ∉ new) : StoppedBeforeReuse (new ++ past) := by
  induction new with
  | nil => exact h
  | cons e new ih =>
    have ih := ih fun id client hmem => hnew id client (List.mem_cons_of_mem _ hmem)
    cases e with
    | opened client => exact ih
    | stopped client => exact ih
    | registered id client => exact absurd (List.mem_cons_self ..) (hnew id client)

end StoppedBeforeReuse

theorem decimal_ne_zero {n : Nat} (h : 1 ≤ n) : decimal n ≠ ascii "0" := by
  intro heq
  have := decimal_inj (heq.trans decimal_zero.symm)
  omega

theorem not_zero_of_keys {h : HostApi}
    (keys : ∀ connectionID ∈ h.connTbl, ∃ n, 1 ≤ n ∧ n < h.i ∧ connectionID = decimal n) :
    ascii "0" ∉ h.connTbl := by
  intro hmem
  obtain ⟨n, hn, _, heq⟩ := keys _ hmem
  exact decimal_ne_zero hn heq.symm

namespace HostApi

theorem i_disconnect (h : HostApi) (connectionID : ConnectionID) :
    (h.disconnect connectionID).1.i = h.i := by
  unfold disconnect
  split <;> rfl

theorem i_register (h : HostApi) (connectionID : ConnectionID) (found : Bool) (r : DiscoverRequest)
    (client : Nat) : h.i ≤ (h.register connectionID found r client).i := by
  simp only [register]
  split <;> omega

theorem i_persist (h : HostApi) (order : RangeOrder ConnItem) (r : DiscoverRequest) (client : Nat) :
    h.i ≤ (h.persist order r client).1.i := by
  have hi := h.i_disconnect (h.findClient order r).1
  rw [← hi]
  exact i_register ..

theorem i_call {h h' : HostApi} {c : ApiCall} (hcall : h.call c = some h') : h.i ≤ h'.i := by
  cases c with
  | discover order r outcomes =>
    obtain ⟨effects, _, rfl | ⟨g, id, hpersist, rfl⟩⟩ := call_discover_cases hcall
    · exact Nat.le_refl _
    · have hi := (h.newClient effects).i_persist order r h.clients
      rw [hpersist] at hi
      exact hi
  | disconnect connectionID =>
    rw [← Option.some.inj hcall, i_disconnect]

end HostApi

/-- The invariant of the host API. -/
structure SessionInv (h : HostApi) : Prop where
  table : SessionTable h
  history : SessionHistory h

namespace SessionInv

variable {h : HostApi}

theorem fresh (inv : SessionInv h) : decimal h.i ∉ h.connTbl := by
  intro hmem
  obtain ⟨n, _, hn, heq⟩ := inv.table.keys _ hmem
  have := decimal_inj heq
  omega

theorem newClient (inv : SessionInv h) {effects : List ApiEffect}
    (heffects : ∀ id client, .registered id client ∉ effects) :
    SessionInv (h.newClient effects) := by
  refine ⟨⟨inv.table.keys, inv.table.zero, inv.table.distinct, ?_, inv.table.returned⟩,
    ⟨?_, inv.history.owner, inv.history.issued⟩⟩
  · exact inv.table.reused.append heffects
  · intro id client hmem
    rcases List.mem_append.mp hmem with hmem | hmem
    · exact absurd hmem (heffects id client)
    · rcases inv.history.registered id client hmem with hinfo | hstopped
      · exact Or.inl hinfo
      · exact Or.inr (List.mem_append_right _ hstopped)

theorem reply_zero (inv : SessionInv h) (r : DiscoverRequest) :
    SessionInv (h.reply (ascii "0") r) := by
  refine ⟨⟨inv.table.keys, inv.table.zero, inv.table.distinct, inv.table.reused, ?_⟩,
    ⟨inv.history.registered, ?_, ?_⟩⟩
  · intro id r₁ r₂ h₁ h₂ hne
    rcases List.mem_cons.mp h₁ with h₁ | h₁
    · exact absurd (congrArg Prod.fst h₁) hne
    · rcases List.mem_cons.mp h₂ with h₂ | h₂
      · exact absurd (congrArg Prod.fst h₂) hne
      · exact inv.table.returned id r₁ r₂ h₁ h₂ hne
  · intro id info hinfo
    exact List.mem_cons_of_mem _ (inv.history.owner id info hinfo)
  · intro id r₁ h₁ hne
    rcases List.mem_cons.mp h₁ with h₁ | h₁
    · exact absurd (congrArg Prod.fst h₁) hne
    · exact inv.history.issued id r₁ h₁ hne

theorem disconnect (inv : SessionInv h) (connectionID : ConnectionID) :
    SessionInv (h.disconnect connectionID).1 := by
  cases hinfo : h.connTbl.lookup connectionID with
  | none => rwa [HostApi.disconnect_of_notMem hinfo]
  | some info =>
    rw [HostApi.disconnect_of_mem hinfo]
    have hkeys : ∀ id ∈ h.connTbl.erase connectionID, ∃ n, 1 ≤ n ∧ n < h.i ∧ id = decimal n := by
      intro id hid
      exact inv.table.keys id (AList.mem_erase.mp hid).2
    refine ⟨⟨hkeys, not_zero_of_keys (h := { h with connTbl := _ }) hkeys, ?_, inv.table.reused,
      inv.table.returned⟩, ⟨?_, ?_, inv.history.issued⟩⟩
    · intro id id' info₁ info₂ h₁ h₂ hsame
      exact inv.table.distinct id id' info₁ info₂ (GoMap.lookup_erase_some h₁).2
        (GoMap.lookup_erase_some h₂).2 hsame
    · intro id client hmem
      have hmem : .registered id client ∈ h.effects := by simpa using hmem
      rcases inv.history.registered id client hmem with ⟨info', hid, rfl⟩ | hstopped
      · by_cases heq : id = connectionID
        · subst heq
          rw [hinfo, Option.some.injEq] at hid
          subst hid
          exact Or.inr (List.mem_cons_self ..)
        · refine Or.inl ⟨info', ?_, rfl⟩
          rw [GoMap.lookup_erase_eq, if_neg heq]
          exact hid
      · exact Or.inr (List.mem_cons_of_mem _ hstopped)
    · intro id info' hid
      exact inv.history.owner id info' (GoMap.lookup_erase_some hid).2

/-- A session is registered under an ID that is free, for fields that no session has. -/
theorem register_table (inv : SessionInv h) {id : ConnectionID} {found : Bool}
    {r : DiscoverRequest} {client : Nat} (hid : id ∉ h.connTbl)
    (hnew : ∀ id' info, h.connTbl.lookup id' = some info → info.request.session ≠ r.session)
    (hkey : ∃ n, 1 ≤ n ∧ n < (h.register id found r client).i ∧ id = decimal n)
    (hreturned : ∀ r', (id, r') ∈ h.returned → r'.session = r.session) :
    SessionTable ((h.register id found r client).reply id r) := by
  have hi := h.i_register id found r client
  have hkeys : ∀ id' ∈ h.connTbl.insert id ⟨r, client⟩,
      ∃ n, 1 ≤ n ∧ n < (h.register id found r client).i ∧ id' = decimal n := by
    intro id' hmem
    rcases (AList.mem_insert _).mp hmem with rfl | hmem
    · exact hkey
    · obtain ⟨n, hn, hlt, heq⟩ := inv.table.keys id' hmem
      exact ⟨n, hn, by omega, heq⟩
  have hstopped : ∀ client', .registered id client' ∈ h.effects → .stopped client' ∈ h.effects := by
    intro client' hmem
    rcases inv.history.registered id client' hmem with ⟨info, hinfo, _⟩ | hstopped
    · exact absurd (GoMap.mem_iff_lookup.mpr ⟨info, hinfo⟩) hid
    · exact hstopped
  refine ⟨hkeys, not_zero_of_keys (h := (h.register id found r client).reply id r) hkeys, ?_,
    ⟨hstopped, inv.table.reused⟩, ?_⟩
  · intro id₁ id₂ info₁ info₂ h₁ h₂ hsame
    rcases GoMap.lookup_insert_some h₁ with ⟨hid₁, hr₁⟩ | ⟨_, hold₁⟩
    · rcases GoMap.lookup_insert_some h₂ with ⟨hid₂, _⟩ | ⟨_, hold₂⟩
      · rw [hid₁, hid₂]
      · exact absurd (hsame.symm.trans (by rw [hr₁])) (hnew id₂ info₂ hold₂)
    · rcases GoMap.lookup_insert_some h₂ with ⟨_, hr₂⟩ | ⟨_, hold₂⟩
      · exact absurd (hsame.trans (by rw [hr₂])) (hnew id₁ info₁ hold₁)
      · exact inv.table.distinct id₁ id₂ info₁ info₂ hold₁ hold₂ hsame
  · intro id' r₁ r₂ h₁ h₂ hne
    rcases List.mem_cons.mp h₁ with h₁ | h₁
    · obtain ⟨rfl, rfl⟩ := Prod.mk.inj h₁
      rcases List.mem_cons.mp h₂ with h₂ | h₂
      · rw [(Prod.mk.inj h₂).2]
      · exact (hreturned r₂ h₂).symm
    · rcases List.mem_cons.mp h₂ with h₂ | h₂
      · obtain ⟨rfl, rfl⟩ := Prod.mk.inj h₂
        exact hreturned r₁ h₁
      · exact inv.table.returned id' r₁ r₂ h₁ h₂ hne

theorem register_history (inv : SessionInv h) {id : ConnectionID} {found : Bool}
    {r : DiscoverRequest} {client : Nat} (hid : id ∉ h.connTbl)
    (hkey : ∃ n, 1 ≤ n ∧ n < (h.register id found r client).i ∧ id = decimal n) :
    SessionHistory ((h.register id found r client).reply id r) := by
  have hi := h.i_register id found r client
  refine ⟨?_, ?_, ?_⟩
  · intro id' client' hmem
    have hlook := @GoMap.lookup_insert_eq _ _ _ h.connTbl id id' ⟨r, client⟩
    rcases List.mem_cons.mp hmem with hmem | hmem
    · obtain ⟨rfl, rfl⟩ := ApiEffect.registered.inj hmem
      exact Or.inl ⟨⟨r, client'⟩, hlook.trans (if_pos rfl), rfl⟩
    · rcases inv.history.registered id' client' hmem with ⟨info, hinfo, hclient⟩ | hstop
      · have hne : id' ≠ id := by
          intro heq
          subst heq
          exact hid (GoMap.mem_iff_lookup.mpr ⟨info, hinfo⟩)
        rw [if_neg hne] at hlook
        exact Or.inl ⟨info, hlook.trans hinfo, hclient⟩
      · exact Or.inr (List.mem_cons_of_mem _ hstop)
  · intro id' info hinfo
    rcases GoMap.lookup_insert_some hinfo with ⟨rfl, rfl⟩ | ⟨_, hinfo⟩
    · exact List.mem_cons_self ..
    · exact List.mem_cons_of_mem _ (inv.history.owner id' info hinfo)
  · intro id' r' hmem hne
    rcases List.mem_cons.mp hmem with hmem | hmem
    · rw [(Prod.mk.inj hmem).1]
      exact hkey
    · obtain ⟨n, hn, hlt, heq⟩ := inv.history.issued id' r' hmem hne
      exact ⟨n, hn, Nat.lt_of_lt_of_le hlt hi, heq⟩

theorem register_reply (inv : SessionInv h) {id : ConnectionID} {found : Bool}
    {r : DiscoverRequest} {client : Nat} (hid : id ∉ h.connTbl)
    (hnew : ∀ id' info, h.connTbl.lookup id' = some info → info.request.session ≠ r.session)
    (hkey : ∃ n, 1 ≤ n ∧ n < (h.register id found r client).i ∧ id = decimal n)
    (hreturned : ∀ r', (id, r') ∈ h.returned → r'.session = r.session) :
    SessionInv ((h.register id found r client).reply id r) :=
  ⟨inv.register_table hid hnew hkey hreturned, inv.register_history hid hkey⟩

theorem persist_reply (inv : SessionInv h) (hi : 1 ≤ h.i) {order : RangeOrder ConnItem}
    {r : DiscoverRequest} {client : Nat} {g : HostApi} {id : ConnectionID}
    (hpersist : h.persist order r client = (g, id)) : SessionInv (g.reply id r) := by
  rcases h.persist_cases order r client inv.fresh with found | ⟨hnew, heq⟩
  · obtain ⟨id', info, hinfo, hsame, heq⟩ := found
    obtain ⟨rfl, rfl⟩ := Prod.mk.inj (heq.symm.trans hpersist)
    have hid : id' ∈ h.connTbl := GoMap.mem_iff_lookup.mpr ⟨info, hinfo⟩
    have hdisc := HostApi.disconnect_of_mem hinfo
    refine (inv.disconnect id').register_reply ?_ ?_ ?_ ?_
    · rw [hdisc]
      exact fun hmem => (AList.mem_erase.mp hmem).1 rfl
    · intro id₁ info₁ h₁ hsame₁
      rw [hdisc] at h₁
      obtain ⟨hne, h₁⟩ := GoMap.lookup_erase_some h₁
      exact hne (inv.table.distinct id₁ id' info₁ info h₁ hinfo (hsame₁.trans hsame.symm))
    · rw [hdisc]
      exact inv.table.keys id' hid
    · intro r' hr'
      rw [hdisc] at hr'
      obtain ⟨n, hn, _, hdec⟩ := inv.table.keys id' hid
      have hne : id' ≠ ascii "0" := hdec ▸ decimal_ne_zero hn
      exact (inv.table.returned id' r' info.request hr' (inv.history.owner id' info hinfo) hne).trans
        hsame
  · obtain ⟨rfl, rfl⟩ := Prod.mk.inj (heq.symm.trans hpersist)
    refine inv.register_reply inv.fresh hnew ⟨h.i, hi, by simp [HostApi.register], rfl⟩ ?_
    intro r' hr'
    obtain ⟨n, _, hlt, heq⟩ := inv.history.issued _ r' hr' (decimal_ne_zero hi)
    have := decimal_inj heq
    omega

theorem step {h' : HostApi} {c : ApiCall} (inv : SessionInv h) (hi : 1 ≤ h.i)
    (hcall : h.call c = some h') : SessionInv h' := by
  cases c with
  | discover order r outcomes =>
    obtain ⟨effects, heffects, rfl | ⟨g, id, hpersist, rfl⟩⟩ := HostApi.call_discover_cases hcall
    · exact (inv.newClient heffects).reply_zero r
    · exact (inv.newClient heffects).persist_reply hi hpersist
  | disconnect connectionID =>
    rw [← Option.some.inj hcall]
    exact inv.disconnect connectionID

end SessionInv

namespace HostApi

theorem registrations_disconnect (h : HostApi) (connectionID : ConnectionID) :
    (h.disconnect connectionID).1.registrations = h.registrations := by
  unfold disconnect
  split
  · rfl
  · simp [registrations]

theorem registrations_newClient {h : HostApi} {effects : List ApiEffect}
    (heffects : ∀ id client, .registered id client ∉ effects) :
    (h.newClient effects).registrations = h.registrations := by
  have hnone : effects.countP (fun e => e matches .registered _ _) = 0 := by
    refine List.countP_eq_zero.mpr ?_
    intro e he
    cases e with
    | registered id client => exact absurd he (heffects id client)
    | opened client => simp
    | stopped client => simp
  simp only [newClient, registrations, List.countP_append, hnone, Nat.zero_add]

theorem registrations_persist (h : HostApi) (order : RangeOrder ConnItem) (r : DiscoverRequest)
    (client : Nat) : (h.persist order r client).1.registrations = h.registrations + 1 := by
  have hdisc := h.registrations_disconnect (h.findClient order r).1
  simp only [registrations] at hdisc
  simp only [persist, register, registrations, List.countP_cons, hdisc, if_true]

theorem registrations_call {h h' : HostApi} {c : ApiCall} (hcall : h.call c = some h') :
    h'.registrations ≤ h.registrations + 1 := by
  cases c with
  | discover order r outcomes =>
    obtain ⟨effects, heffects, rfl | ⟨g, id, hpersist, rfl⟩⟩ := call_discover_cases hcall
    · exact Nat.le_succ_of_le (Nat.le_of_eq (registrations_newClient heffects))
    · have hreg := (h.newClient effects).registrations_persist order r h.clients
      rw [hpersist, registrations_newClient heffects] at hreg
      exact Nat.le_of_eq hreg
  | disconnect connectionID =>
    rw [← Option.some.inj hcall, registrations_disconnect]
    exact Nat.le_succ _

end HostApi

theorem hostApi_inv {past : List (HostApi × ApiCall)} {h : HostApi} (run : hostApi.Run past h) :
    SessionInv h ∧ 1 ≤ h.i := by
  refine (run.always (I := fun h => SessionInv h ∧ 1 ≤ h.i) ?_ ?_).2
  · intro h hinit
    rw [hinit]
    refine ⟨⟨⟨?_, ?_, ?_, trivial, ?_⟩, ⟨?_, ?_, ?_⟩⟩, Nat.le_refl 1⟩ <;> simp
  · intro h c h' inv hcall
    exact ⟨inv.1.step inv.2 hcall, Nat.le_trans inv.2 (HostApi.i_call hcall)⟩

/-- The session table in every state of a run, and what the next call may register. -/
theorem session_table {past : List (HostApi × ApiCall)} {h : HostApi} (run : hostApi.Run past h) :
    SessionTable h ∧ ∀ c h', hostApi.step h c h' → h'.registrations ≤ h.registrations + 1 :=
  ⟨(hostApi_inv run).1.table, fun _ _ hcall => HostApi.registrations_call hcall⟩

/-- Everything outside the client works. -/
def allWell : Outcomes := ⟨false, false, fun _ => ⟨false, false⟩⟩

def noServer : Outcomes := ⟨false, true, fun _ => ⟨false, false⟩⟩

def sampleRequest (ip : String) (kato : Int) : DiscoverRequest :=
  ⟨ascii "tcp", ascii ip, 8009, ascii "nqn.h", [], kato, 0⟩

theorem session_table_replaced : ∃ past h, hostApi.Run past h ∧
    h.connTbl.keys = [ascii "2", ascii "1"] ∧ h.registrations = 3 ∧ SessionTable h := by
  have first := hostApi_next (.start rfl)
    (.discover .stored (sampleRequest "10.0.0.1" 30) allWell) rfl
  have second := hostApi_next first (.discover .stored (sampleRequest "10.0.0.2" 30) allWell) rfl
  have run := hostApi_next second (.discover .stored (sampleRequest "10.0.0.2" 30) allWell) rfl
  exact ⟨_, _, run, by decide, by decide, (session_table run).1⟩

/-- Two servers that cannot be reached: both calls return the ID `"0"`. -/
theorem zero_returned_twice : ¬∀ past h, hostApi.Run past h →
    ∀ id r r', (id, r) ∈ h.returned → (id, r') ∈ h.returned → r.session = r'.session := by
  intro h
  have first := hostApi_next (.start rfl)
    (.discover .stored (sampleRequest "10.0.0.1" 30) noServer) rfl
  have run := hostApi_next first (.discover .stored (sampleRequest "10.0.0.2" 30) noServer) rfl
  have hsame := h _ _ run (ascii "0") (sampleRequest "10.0.0.1" 30) (sampleRequest "10.0.0.2" 30)
    (by decide) (by decide)
  revert hsame
  decide

end DiscoveryClient
