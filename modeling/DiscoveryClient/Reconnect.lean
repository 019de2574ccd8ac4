import DiscoveryClient.ActiveConnection

namespace DiscoveryClient

open GoString

/-- The retry has not been stopped: it waits on no channel, or on one that is still open. Only the
channel the variable holds can be open. -/
def Timer.Running (stopCh : Option Nat) (t : Timer) : Prop :=
  ∀ ch, t.phase = .selecting (some ch) → stopCh = some ch

/-- The pair has a trigger waiting, or a retry that will send one. -/
def HasRetry (s : Loop) (p : ClientClusterPair) : Prop :=
  p ∈ s.waiting ∨ ∃ t ∈ s.timers, t.pair = p ∧ t.Running s.stopCh

def RetryPending (s : Loop) : Prop := ∀ p ∈ s.lastFailed, HasRetry s p

/-- All that would bring the pair back are retries that wait on a stop channel. -/
def OnlyGuarded (s : Loop) (p : ClientClusterPair) : Prop :=
  p ∉ s.waiting ∧ ∀ t ∈ s.timers, t.pair = p → ∃ ch, t.phase = .selecting (some ch)

/-- A trigger is received only when no other pair depends on a guarded retry. -/
def SparesRetries (s : Loop) : LoopEvent → Prop
  | .receive q => ∀ p ∈ s.lastFailed, p ≠ q → ¬OnlyGuarded s p
  | _ => True

/-- The stop channels are those made so far, and none is open during an attempt. -/
structure StopChannels (s : Loop) : Prop where
  timers : ∀ t ∈ s.timers, ∀ ch, t.phase = .selecting (some ch) → ch < s.nextCh
  stopCh : ∀ ch, s.stopCh = some ch → ch < s.nextCh
  busy : s.busy ≠ none → s.stopCh = none

theorem Timer.running_none {t : Timer} :
    t.Running none ↔ ¬∃ ch, t.phase = .selecting (some ch) := by
  constructor
  · intro h hch
    obtain ⟨ch, hch⟩ := hch
    simpa using h ch hch
  · intro h ch hch
    exact absurd ⟨ch, hch⟩ h

theorem hasRetry_mono {s s' : Loop} {p : ClientClusterPair} (h : HasRetry s p)
    (hwait : p ∈ s.waiting → p ∈ s'.waiting)
    (htimer : ∀ t ∈ s.timers, t.pair = p → t.Running s.stopCh → HasRetry s' p) : HasRetry s' p := by
  rcases h with h | h
  · exact Or.inl (hwait h)
  · obtain ⟨t, ht, hp, hrun⟩ := h
    exact htimer t ht hp hrun

theorem retryPending_receive {s : Loop} {q : ClientClusterPair} :
    RetryPending (s.receive q) ↔ SparesRetries s (.receive q) := by
  have hiff : ∀ p, p ≠ q → (HasRetry (s.receive q) p ↔ ¬OnlyGuarded s p) := by
    intro p hne
    have hwait : p ∈ (s.receive q).waiting ↔ p ∈ s.waiting := List.mem_erase_of_ne hne
    have htimer : (∃ t ∈ (s.receive q).timers, t.pair = p ∧ t.Running (s.receive q).stopCh) ↔
        ¬∀ t ∈ s.timers, t.pair = p → ∃ ch, t.phase = .selecting (some ch) := by
      change (∃ t ∈ s.timers, t.pair = p ∧ t.Running none) ↔ _
      push Not
      simp only [Timer.running_none, not_exists]
    unfold HasRetry OnlyGuarded
    rw [hwait, htimer]
    tauto
  constructor
  · intro h p hp hne
    exact (hiff p hne).mp (h p (List.mem_filter.mpr ⟨hp, by simpa using hne⟩))
  · intro h p hp
    obtain ⟨hp, hne⟩ := List.mem_filter.mp hp
    have hne : p ≠ q := by simpa using hne
    exact (hiff p hne).mpr (h p hp hne)

theorem retryPending_attempt {s : Loop} {q : ClientClusterPair} {r : ConnectionMap × Reconnected}
    (pending : RetryPending s) (chans : StopChannels s) (hbusy : s.busy = some q) :
    RetryPending (s.attempt q r) := by
  rcases r with ⟨cm, (_ | conn | _)⟩
  · exact pending
  · exact pending
  · have hstop : s.stopCh = none := chans.busy (by simp [hbusy])
    intro p hp
    rcases List.mem_cons.mp hp with rfl | hp
    · exact Or.inr ⟨⟨p, .scheduled⟩, List.mem_append_right _ (by simp), rfl, by simp [Timer.Running]⟩
    · refine hasRetry_mono (pending p hp) id ?_
      intro t ht htp hrun
      refine Or.inr ⟨t, List.mem_append_left _ ht, htp, ?_⟩
      intro ch hch
      rw [hstop] at hrun
      simpa using hrun ch hch

theorem retryPending_timerSelect {s : Loop} {i : Nat} {q : ClientClusterPair}
    (pending : RetryPending s) (hi : s.timers[i]? = some ⟨q, .scheduled⟩) :
    RetryPending (s.timerSelect i q) := by
  intro p hp
  refine hasRetry_mono (pending p hp) id ?_
  intro t ht htp hrun
  obtain ⟨j, hj⟩ := List.mem_iff_getElem?.mp ht
  have hlen : i < s.timers.length := (List.getElem?_eq_some_iff.mp hi).1
  by_cases hij : i = j
  · subst hij
    have hq : q = p := by
      rw [hi] at hj
      rw [← htp, ← Option.some.inj hj]
    refine Or.inr ⟨⟨q, .selecting s.stopCh⟩, List.mem_set hlen _, hq, ?_⟩
    intro ch hch
    have hch : s.stopCh = some ch := by simpa using hch
    exact hch
  · refine Or.inr ⟨t, ?_, htp, hrun⟩
    apply List.mem_iff_getElem?.mpr
    exact ⟨j, by rw [Loop.timerSelect, List.getElem?_set_ne hij, hj]⟩

theorem retryPending_timerFire {s : Loop} {i : Nat} {q : ClientClusterPair} {ch : Option Nat}
    (pending : RetryPending s) (hi : s.timers[i]? = some ⟨q, .selecting ch⟩) :
    RetryPending (s.timerFire i q) := by
  intro p hp
  refine hasRetry_mono (pending p hp) (fun h => List.mem_append_left _ h) ?_
  intro t ht htp hrun
  obtain ⟨j, hj⟩ := List.mem_iff_getElem?.mp ht
  by_cases hij : j = i
  · subst hij
    rw [hi] at hj
    refine Or.inl (List.mem_append_right _ ?_)
    rw [← htp, ← Option.some.inj hj]
    exact List.mem_singleton_self _
  · exact Or.inr ⟨t, List.mem_eraseIdx_iff_getElem?.mpr ⟨j, hij, hj⟩, htp, hrun⟩

theorem retryPending_timerStop {s : Loop} {i ch : Nat} {q : ClientClusterPair}
    (pending : RetryPending s) (hi : s.timers[i]? = some ⟨q, .selecting (some ch)⟩)
    (hch : s.stopCh ≠ some ch) : RetryPending (s.timerStop i) := by
  intro p hp
  refine hasRetry_mono (pending p hp) id ?_
  intro t ht htp hrun
  obtain ⟨j, hj⟩ := List.mem_iff_getElem?.mp ht
  by_cases hij : j = i
  · subst hij
    rw [hi] at hj
    exact absurd (hrun ch (by rw [← Option.some.inj hj])) hch
  · exact Or.inr ⟨t, List.mem_eraseIdx_iff_getElem?.mpr ⟨j, hij, hj⟩, htp, hrun⟩

theorem retryPending_waiting {s s' : Loop} (pending : RetryPending s)
    (hfailed : s'.lastFailed = s.lastFailed) (hwait : s.waiting ⊆ s'.waiting)
    (htimers : s'.timers = s.timers) (hstop : s'.stopCh = s.stopCh) : RetryPending s' := by
  intro p hp
  rw [hfailed] at hp
  refine hasRetry_mono (pending p hp) (fun h => hwait h) ?_
  intro t ht htp hrun
  exact Or.inr ⟨t, by rw [htimers]; exact ht, htp, by rw [hstop]; exact hrun⟩

theorem retryPending_aen {s : Loop} {conn : Connection} {r : Option ConnectionMap}
    (pending : RetryPending s) : RetryPending (s.aen conn r) := by
  cases r with
  | none => exact retryPending_waiting pending rfl (List.subset_append_left _ _) rfl rfl
  | some cm => exact pending

theorem StopChannels.attempt {s : Loop} {q : ClientClusterPair} {r : ConnectionMap × Reconnected}
    (chans : StopChannels s) (hbusy : s.busy = some q) : StopChannels (s.attempt q r) := by
  have hstop : s.stopCh = none := chans.busy (by simp [hbusy])
  rcases r with ⟨cm, (_ | conn | _)⟩
  · exact ⟨chans.timers, chans.stopCh, fun h => absurd rfl h⟩
  · exact ⟨chans.timers, chans.stopCh, fun h => absurd rfl h⟩
  · refine ⟨?_, ?_, fun h => absurd rfl h⟩
    · intro t ht ch hch
      change ch < s.nextCh + 1
      rcases List.mem_append.mp ht with ht | ht
      · have := chans.timers t ht ch hch
        omega
      · rw [List.mem_singleton.mp ht] at hch
        simp at hch
    · intro ch hch
      have hch : s.nextCh = ch := Option.some.inj hch
      change ch < s.nextCh + 1
      omega

theorem StopChannels.step {s s' : Loop} {e : LoopEvent} (chans : StopChannels s)
    (h : mainLoop.step s e s') : StopChannels s' := by
  have hstep := step_stepsTo h.2
  cases e with
  | receive q =>
    obtain ⟨-, -, rfl⟩ := hstep
    refine ⟨chans.timers, ?_, fun _ => rfl⟩
    intro ch hch
    simp [Loop.receive] at hch
  | attempt order discoverOver =>
    obtain ⟨q, hbusy, rfl⟩ := hstep
    exact chans.attempt hbusy
  | notification fromCache removeRanges addRanges =>
    obtain ⟨-, rfl⟩ := hstep
    exact ⟨chans.timers, chans.stopCh, chans.busy⟩
  | aen conn serverChange result =>
    obtain ⟨-, -, rfl⟩ := hstep
    cases s.onAen conn serverChange result with
    | none => exact ⟨chans.timers, chans.stopCh, chans.busy⟩
    | some cm => exact ⟨chans.timers, chans.stopCh, chans.busy⟩
  | timerSelect i =>
    obtain ⟨q, -, rfl⟩ := hstep
    refine ⟨?_, chans.stopCh, chans.busy⟩
    intro t ht ch hch
    rcases List.mem_or_eq_of_mem_set ht with ht | rfl
    · exact chans.timers t ht ch hch
    · exact chans.stopCh ch (by simpa using hch)
  | timerFire i =>
    obtain ⟨q, ch, -, rfl⟩ := hstep
    exact ⟨fun t ht => chans.timers t (List.mem_of_mem_eraseIdx ht), chans.stopCh, chans.busy⟩
  | timerStop i =>
    obtain ⟨q, ch, -, -, rfl⟩ := hstep
    exact ⟨fun t ht => chans.timers t (List.mem_of_mem_eraseIdx ht), chans.stopCh, chans.busy⟩

theorem retryPending_step {s s' : Loop} {e : LoopEvent} (pending : RetryPending s)
    (chans : StopChannels s) (h : mainLoop.step s e s') : RetryPending s' ↔ SparesRetries s e := by
  have hstep := step_stepsTo h.2
  cases e with
  | receive q =>
    obtain ⟨-, -, rfl⟩ := hstep
    exact retryPending_receive
  | attempt order discoverOver =>
    obtain ⟨q, hbusy, rfl⟩ := hstep
    exact iff_of_true (retryPending_attempt pending chans hbusy) trivial
  | notification fromCache removeRanges addRanges =>
    obtain ⟨-, rfl⟩ := hstep
    exact iff_of_true
      (retryPending_waiting pending rfl (List.subset_append_left _ _) rfl rfl) trivial
  | aen conn serverChange result =>
    obtain ⟨-, -, rfl⟩ := hstep
    exact iff_of_true (retryPending_aen pending) trivial
  | timerSelect i =>
    obtain ⟨q, hi, rfl⟩ := hstep
    exact iff_of_true (retryPending_timerSelect pending hi) trivial
  | timerFire i =>
    obtain ⟨q, ch, hi, rfl⟩ := hstep
    exact iff_of_true (retryPending_timerFire pending hi) trivial
  | timerStop i =>
    obtain ⟨q, ch, hi, hne, rfl⟩ := hstep
    exact iff_of_true (retryPending_timerStop pending hi hne) trivial

/-- The runs that never lose a reconnect are those in which no trigger is received while another
pair depends on a retry that waits on a stop channel. -/
theorem reconnect_pending_iff {past : List (Loop × LoopEvent)} {s : Loop}
    (run : mainLoop.Run past s) :
    Machine.Always RetryPending past s ↔ Machine.Each SparesRetries past := by
  refine Machine.Run.always_iff_each (J := StopChannels) ?_ ?_ run
  · intro s h
    rw [h]
    exact ⟨by simp [RetryPending], by simp, by simp, by simp⟩
  · intro s e s' pending chans h
    exact ⟨retryPending_step pending chans h, fun _ => chans.step h⟩

/-- The cache's connections when two clusters have one each. -/
def twoClusters : ConnectionMap :=
  (sampleNotification 0 "10.0.0.1").addConnection (sampleKey "nqn.d" "10.0.0.2")
    (sampleConnection 1 "nqn.d" "10.0.0.2")

theorem twoClusters_keyed : Keyed twoClusters :=
  (sampleNotification_keyed 0 "10.0.0.1").addConnection rfl rfl

theorem reconnect_pending_iff_one_cluster : ∃ past s, mainLoop.Run past s ∧
    s.lastFailed = [⟨ascii "nqn.c", ascii "nqn.h"⟩] ∧ s.waiting = [] ∧
    Machine.Always RetryPending past s := by
  have notified := mainLoop_next (.start rfl)
    (.notification (sampleNotification 0 "10.0.0.1") .stored .stored)
    (sampleNotification_keyed 0 "10.0.0.1") rfl
  have received := mainLoop_next notified (.receive ⟨ascii "nqn.c", ascii "nqn.h"⟩) trivial rfl
  have failed := mainLoop_next received (.attempt .stored fun _ => .otherError) trivial rfl
  have run := mainLoop_next failed (.timerSelect 0) trivial rfl
  refine ⟨_, _, run, by decide, by decide, (reconnect_pending_iff run).mpr ?_⟩
  refine Machine.each_snoc.mpr ⟨Machine.each_snoc.mpr ⟨Machine.each_snoc.mpr
    ⟨Machine.each_snoc.mpr ⟨?_, trivial⟩, ?_⟩, trivial⟩, trivial⟩
  · simp [Machine.Each]
  · intro p hp
    simp [Loop.notification] at hp

/-- Both clusters fail: serving the second stops the retry of the first. -/
theorem reconnect_lost : ¬∀ past s, mainLoop.Run past s → RetryPending s := by
  intro h
  have notified := mainLoop_next (.start rfl)
    (.notification twoClusters .stored .stored) twoClusters_keyed rfl
  have first := mainLoop_next notified (.receive ⟨ascii "nqn.c", ascii "nqn.h"⟩) trivial rfl
  have failed := mainLoop_next first (.attempt .stored fun _ => .otherError) trivial rfl
  have selecting := mainLoop_next failed (.timerSelect 0) trivial rfl
  have second := mainLoop_next selecting (.receive ⟨ascii "nqn.d", ascii "nqn.h"⟩) trivial rfl
  have run := mainLoop_next second (.attempt .stored fun _ => .otherError) trivial rfl
  rcases h _ _ run ⟨ascii "nqn.c", ascii "nqn.h"⟩ (by decide) with hwait | ⟨t, ht, hp, hrun⟩
  · revert hwait
    decide
  · have htimers : t ∈ [Timer.mk ⟨ascii "nqn.c", ascii "nqn.h"⟩ (.selecting (some 0)),
        Timer.mk ⟨ascii "nqn.d", ascii "nqn.h"⟩ .scheduled] := ht
    simp only [List.mem_cons, List.not_mem_nil, or_false] at htimers
    rcases htimers with rfl | rfl
    · have hopen := hrun 0 rfl
      revert hopen
      decide
    · revert hp
      decide

end DiscoveryClient
