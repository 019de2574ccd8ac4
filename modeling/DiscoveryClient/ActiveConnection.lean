import DiscoveryClient.LoopConnections

namespace DiscoveryClient

open GoString

/-- The active connection of every pair is one of its connections. -/
def ActiveOk (s : Loop) : Prop :=
  ∀ p conn, s.connections.active p = some conn → ∃ k, s.connections.find p k = some conn

/-- A notification that removes the active connection of a pair, and leaves it some other
connection, triggers a reconnect. -/
def Reconnects (s : Loop) : LoopEvent → Prop
  | .notification fromCache removeRanges addRanges =>
    let marked := onNotification removeRanges addRanges s.connections fromCache
    ∀ p conn, s.connections.active p = some conn → (∃ k, s.connections.find p k = some conn) →
      (¬∃ k, marked.1.find p k = some conn) → (∃ k other, marked.1.find p k = some other) →
      p ∈ triggered marked
  | _ => True

/-- A notification still holds the active connection of each of its pairs, and a discovery succeeds
only over a connection its pair has. -/
def KeepsActive (s : Loop) : LoopEvent → Prop
  | .notification fromCache _ _ => ∀ p ∈ fromCache, ∀ conn,
      s.connections.active p = some conn → ∃ k, fromCache.find p k = some conn
  | .aen conn serverChange result => serverChange = false → (discover result).isSome = true →
      ∃ k, s.connections.find conn.pair k = some conn
  | _ => True

theorem activeOk_setActive {s : Loop} {conn : Connection} (ok : ActiveOk s) :
    ActiveOk { s with connections := s.connections.setActive conn } ↔
      ∃ k, s.connections.find conn.pair k = some conn := by
  constructor
  · intro h
    obtain ⟨k, hk⟩ := h conn.pair conn (by rw [ConnectionMap.active_setActive, if_pos rfl])
    rw [ConnectionMap.find_setActive] at hk
    exact ⟨k, hk⟩
  · intro h p c hc
    simp only [ConnectionMap.find_setActive]
    rw [ConnectionMap.active_setActive] at hc
    split at hc
    next hp =>
      rw [hp, ← Option.some.inj hc]
      exact h
    next => exact ok p c hc

theorem activeOk_notification {s : Loop} {fromCache : ConnectionMap}
    {removeRanges addRanges : NotifyRanges} (ok : ActiveOk s) (keyed : Keyed s.connections)
    (keyedCache : Keyed fromCache) :
    ActiveOk (s.notification (onNotification removeRanges addRanges s.connections fromCache)) ↔
      KeepsActive s (.notification fromCache removeRanges addRanges) := by
  have hfind := fun p => @onNotification_find removeRanges addRanges _ _ keyed keyedCache p
  constructor
  · intro h p hp conn hactive
    obtain ⟨k, hk⟩ := h p conn ((hfind p).1.trans hactive)
    refine ⟨k, ?_⟩
    have hk' := (hfind p).2 k
    rw [if_pos hp] at hk'
    exact hk'.symm.trans hk
  · intro h p conn hactive
    have hactive : s.connections.active p = some conn := (hfind p).1.symm.trans hactive
    by_cases hp : p ∈ fromCache
    · obtain ⟨k, hk⟩ := h p hp conn hactive
      exact ⟨k, ((hfind p).2 k).trans (by rw [if_pos hp, hk])⟩
    · obtain ⟨k, hk⟩ := ok p conn hactive
      exact ⟨k, ((hfind p).2 k).trans (by rw [if_neg hp, hk])⟩

theorem activeOk_step {s s' : Loop} {e : LoopEvent} (ok : ActiveOk s) (keyed : Keyed s.connections)
    (h : mainLoop.step s e s') : ActiveOk s' ↔ KeepsActive s e := by
  obtain ⟨hcache, hstep⟩ := h
  have hstep := step_stepsTo hstep
  cases e with
  | receive p =>
    obtain ⟨-, -, rfl⟩ := hstep
    exact iff_of_true ok trivial
  | attempt order discoverOver =>
    obtain ⟨p, -, rfl⟩ := hstep
    refine iff_of_true ?_ trivial
    rcases @reconnectToCluster_eq order discoverOver s.connections p with
      h | h | ⟨k, conn, hk, h⟩
    · rw [h]; exact ok
    · rw [h]; exact ok
    · rw [h]
      apply (activeOk_setActive ok).mpr
      exact ⟨k, by rw [keyed.pair_eq hk, hk]⟩
  | notification fromCache removeRanges addRanges =>
    obtain ⟨-, rfl⟩ := hstep
    exact activeOk_notification ok keyed hcache
  | aen conn serverChange result =>
    obtain ⟨-, -, rfl⟩ := hstep
    have hconn := s.aen_connections conn serverChange result
    unfold ActiveOk KeepsActive
    rw [hconn]
    split
    next hd =>
      simp only [hd, true_implies]
      exact activeOk_setActive ok
    next hd =>
      refine iff_of_true ok ?_
      intro h₁ h₂
      exact absurd ⟨h₁, h₂⟩ hd
  | timerSelect i =>
    obtain ⟨p, -, rfl⟩ := hstep
    exact iff_of_true ok trivial
  | timerFire i =>
    obtain ⟨p, ch, -, rfl⟩ := hstep
    exact iff_of_true ok trivial
  | timerStop i =>
    obtain ⟨p, ch, -, -, rfl⟩ := hstep
    exact iff_of_true ok trivial

theorem reconnects_of_keepsActive {s s' : Loop} {e : LoopEvent} (keyed : Keyed s.connections)
    (h : mainLoop.step s e s') (keeps : KeepsActive s e) : Reconnects s e := by
  cases e with
  | notification fromCache removeRanges addRanges =>
    intro p conn hactive hold hgone hother
    refine absurd ?_ hgone
    have hfind := (@onNotification_find removeRanges addRanges _ _ keyed h.1 p).2
    by_cases hp : p ∈ fromCache
    · obtain ⟨k, hk⟩ := keeps p hp conn hactive
      exact ⟨k, by rw [hfind, if_pos hp, hk]⟩
    · obtain ⟨k, hk⟩ := hold
      exact ⟨k, by rw [hfind, if_neg hp, hk]⟩
  | _ => trivial

/-- The runs in which the active connection is always one of the pair's, and its removal triggers a
reconnect, are those that never remove it and never discover over a removed connection. -/
theorem active_connection_iff {past : List (Loop × LoopEvent)} {s : Loop}
    (run : mainLoop.Run past s) :
    (Machine.Always ActiveOk past s ∧ Machine.Each Reconnects past) ↔
      Machine.Each KeepsActive past := by
  have hkeyed : Machine.Always (fun s => Keyed s.connections) past s :=
    run.always (fun s h => by rw [h]; exact keyed_empty) (fun s e s' h => step_keyed h)
  have hiff : Machine.Always ActiveOk past s ↔ Machine.Each KeepsActive past := by
    refine Machine.Run.always_iff_each (J := fun s => Keyed s.connections) ?_ ?_ run
    · intro s h
      rw [h]
      refine ⟨?_, keyed_empty⟩
      intro p conn hactive
      simp [ConnectionMap.active, ConnectionMap.cluster] at hactive
    · intro s e s' ok keyed h
      exact ⟨activeOk_step ok keyed h, fun _ => step_keyed keyed h⟩
  constructor
  · intro h
    exact hiff.mp h.1
  · intro h
    refine ⟨hiff.mpr h, ?_⟩
    intro x hx
    obtain ⟨s', hstep⟩ := run.each_step x hx
    exact reconnects_of_keepsActive (hkeyed.1 x hx) hstep (h x hx)

def sampleKey (nqn ip : String) : TKey := ⟨ascii "tcp", ascii ip, 8009, ascii nqn, ascii "nqn.h"⟩

def sampleConnection (addr : Nat) (nqn ip : String) : Connection :=
  ⟨addr, sampleKey nqn ip, ascii "nqn.h", [], none⟩

/-- The cache's connections when they are one connection. -/
def sampleNotification (addr : Nat) (ip : String) : ConnectionMap :=
  (∅ : ConnectionMap).addConnection (sampleKey "nqn.c" ip) (sampleConnection addr "nqn.c" ip)

theorem sampleNotification_keyed (addr : Nat) (ip : String) :
    Keyed (sampleNotification addr ip) := keyed_empty.addConnection rfl rfl

theorem active_connection_iff_connected : ∃ past s, mainLoop.Run past s ∧ past.length = 3 ∧
    s.connections.active ⟨ascii "nqn.c", ascii "nqn.h"⟩ =
      some (sampleConnection 0 "nqn.c" "10.0.0.1") ∧
    Machine.Always ActiveOk past s ∧ Machine.Each Reconnects past := by
  have notified := mainLoop_next (.start rfl)
    (.notification (sampleNotification 0 "10.0.0.1") .stored .stored)
    (sampleNotification_keyed 0 "10.0.0.1") rfl
  have received := mainLoop_next notified (.receive ⟨ascii "nqn.c", ascii "nqn.h"⟩) trivial rfl
  have run := mainLoop_next received (.attempt .stored fun _ => .entries []) trivial rfl
  refine ⟨_, _, run, rfl, by decide, (active_connection_iff run).mpr ?_⟩
  refine Machine.each_snoc.mpr ⟨Machine.each_snoc.mpr ⟨Machine.each_snoc.mpr ⟨?_, ?_⟩, ?_⟩, ?_⟩
  · simp [Machine.Each]
  · intro p _ conn h
    simp [ConnectionMap.active, ConnectionMap.cluster] at h
  · trivial
  · trivial

/-- The loop connects to the pair's only endpoint, and a discovery then replaces the endpoint. -/
theorem active_connection_removed :
    ¬∀ past s, mainLoop.Run past s →
      Machine.Always ActiveOk past s ∧ Machine.Each Reconnects past := by
  intro h
  have notified := mainLoop_next (.start rfl)
    (.notification (sampleNotification 0 "10.0.0.1") .stored .stored)
    (sampleNotification_keyed 0 "10.0.0.1") rfl
  have received := mainLoop_next notified (.receive ⟨ascii "nqn.c", ascii "nqn.h"⟩) trivial rfl
  have connected := mainLoop_next received (.attempt .stored fun _ => .entries []) trivial rfl
  have replaced := mainLoop_next connected
    (.notification (sampleNotification 1 "10.0.0.2") .stored .stored)
    (sampleNotification_keyed 1 "10.0.0.2") rfl
  obtain ⟨k, hk⟩ := (h _ _ replaced).1.2 ⟨ascii "nqn.c", ascii "nqn.h"⟩
    (sampleConnection 0 "nqn.c" "10.0.0.1") (by decide)
  have hexists := ClusterConnections.exists_iff.mpr ⟨k, hk⟩
  revert hexists
  decide

end DiscoveryClient
