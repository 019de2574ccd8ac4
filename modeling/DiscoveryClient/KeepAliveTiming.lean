import DiscoveryClient.Machine
import DiscoveryClient.NvmeServer

/-! The keep-alives of a client against the timer of the controller they are for. Times are in
nanoseconds and start when the controller is created. -/

namespace DiscoveryClient

open Nvme

def second : Nat := 1000000000

/-- What `Discover` gives `startStopTimer`: a handshake that takes longer is stopped. -/
def connectTimeout : Nat := 10 * second

def waitForReplyTimeout : Nat := 5 * second

/-- How long one keep-alive takes to the server, and its answer back. -/
structure KeepAliveRound where
  request : Nat
  response : Nat
deriving DecidableEq

structure KeepAlives where
  /-- When `keepAlive` makes its ticker. -/
  started : Nat
  /-- When it sends the next request. -/
  sends : Nat
  /-- When the timer of `keepAliveHandler` fires. -/
  expires : Nat
deriving DecidableEq

namespace KeepAlives

/-- The first tick after the time. -/
def nextTick (started period time : Nat) : Nat := started + period * ((time - started) / period + 1)

/-- One turn of `keepAlive` and what the server does with it. A tick that comes while the answer is
awaited stays in the ticker's channel, further ones are dropped. -/
def round (kato : Nat) (ctrl : NvmeController) (s : KeepAlives) (r : KeepAliveRound) : KeepAlives where
  started := s.started
  sends := max (s.sends + r.request + r.response) (nextTick s.started (kato / 2) s.sends)
  expires := s.sends + r.request + ctrl.kato * 1000000

/-- The request is executed before the timer fires. -/
def InTime (s : KeepAlives) (r : KeepAliveRound) : Prop := s.sends + r.request < s.expires

end KeepAlives

/-- The keep-alives of a session for as long as the client does not give it up. -/
def keepAlives (kato : Nat) (ctrl : NvmeController) : Machine KeepAlives KeepAliveRound where
  init s := 0 < kato / 2 ∧ s.started ≤ connectTimeout ∧ s.sends = s.started + kato / 2 ∧
    s.expires = ctrl.kato * 1000000
  step s r s' := r.request + r.response ≤ waitForReplyTimeout ∧ s' = s.round kato ctrl r

namespace KeepAlives

theorem nextTick_le {started period time : Nat} (h : started ≤ time) :
    nextTick started period time ≤ time + period := by
  have hdiv := Nat.mul_div_le (time - started) period
  rw [nextTick, Nat.mul_add, Nat.mul_one]
  omega

/-- Whatever the next request takes, as long as the client waits for it, it comes in time. -/
structure Ahead (s : KeepAlives) : Prop where
  started : s.started ≤ s.sends
  ahead : s.sends + waitForReplyTimeout < s.expires

theorem Ahead.inTime {s : KeepAlives} (ahead : s.Ahead) {r : KeepAliveRound}
    (answered : r.request + r.response ≤ waitForReplyTimeout) : s.InTime r := by
  have := ahead.ahead
  unfold InTime
  omega

theorem Ahead.round {kato : Nat} {ctrl : NvmeController} {s : KeepAlives} (ahead : s.Ahead)
    {r : KeepAliveRound} (answered : r.request + r.response ≤ waitForReplyTimeout)
    (hticks : kato / 2 + waitForReplyTimeout < ctrl.kato * 1000000)
    (hanswers : 2 * waitForReplyTimeout < ctrl.kato * 1000000) : (s.round kato ctrl r).Ahead := by
  have hstarted := ahead.started
  have htick := @nextTick_le s.started (kato / 2) s.sends hstarted
  constructor
  · simp only [KeepAlives.round]
    omega
  · simp only [KeepAlives.round]
    omega

end KeepAlives

/-- A controller that was created by the client's connect request hears from the client in time,
however long the messages take within the client's own limits, exactly if the client was configured
with a timeout whose half leaves room for the handshake and for one answer. -/
theorem keep_alives_in_time_iff (kato : Nat) (controllerID : UInt16) (hostNqn : GoString) :
    (∀ past s, (keepAlives kato (newController controllerID 0 hostNqn)).Run past s →
      Machine.Each KeepAlives.InTime past) ↔ kato / 2 < 105 * second := by
  have hkato : (newController controllerID 0 hostNqn).kato * 1000000 = 120 * second := by
    simp [newController, nvmetDiscoveryKatoMsec, second]
  constructor
  · intro h
    by_contra hlong
    have hinit : (keepAlives kato (newController controllerID 0 hostNqn)).init
        ⟨connectTimeout, connectTimeout + kato / 2, 120 * second⟩ :=
      ⟨by simp only [second] at hlong; omega, Nat.le_refl _, rfl, hkato.symm⟩
    have hrun := (Machine.Run.start hinit).next (e := ⟨waitForReplyTimeout, 0⟩) ⟨Nat.le_refl _, rfl⟩
    have hfirst : connectTimeout + kato / 2 + waitForReplyTimeout < 120 * second :=
      h _ _ hrun _ (List.mem_singleton.mpr rfl)
    simp only [connectTimeout, waitForReplyTimeout, second] at hfirst hlong
    omega
  · intro hshort past s run
    have hahead : Machine.Always KeepAlives.Ahead past s := by
      refine run.always ?_ ?_
      · rintro s ⟨-, hstarted, hsends, hexpires⟩
        refine ⟨by omega, ?_⟩
        rw [hexpires, hkato]
        simp only [connectTimeout, waitForReplyTimeout, second] at *
        omega
      · rintro s r s' ahead ⟨answered, rfl⟩
        refine ahead.round answered ?_ ?_ <;> rw [hkato] <;>
          simp only [waitForReplyTimeout, second] at * <;> omega
    intro x hx
    obtain ⟨s', answered, -⟩ := run.each_step x hx
    exact (hahead.1 x hx).inTime answered

end DiscoveryClient
