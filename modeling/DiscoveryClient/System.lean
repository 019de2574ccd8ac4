import DiscoveryClient.CacheReachable
import DiscoveryClient.LoopConnections

namespace DiscoveryClient

/-- The cache, the service's main loop, and the notifications sent and not yet handled. A
notification is the list of its pairs: it refers to the cache's maps, which stay live. -/
structure System where
  cache : Cache
  loop : Loop := {}
  inFlight : List (List ClientClusterPair) := []

inductive SystemEvent
  | sync (adjustTraddr : GoString → Bool) (order : GoString → RangeOrder Entry)
      (internal : InternalFile) (userDir : UserDir)
  | file (adjustTraddr : GoString → Bool) (order : RangeOrder Entry) (op : EventOp)
      (base : GoString) (file : UserFile)
  | handleReferrals (addOrder removeOrder : RangeOrder Referral) (referrals : ReferralMap)
  | aen (conn : Connection) (serverChange : Bool) (result : DiscoverResult)
      (addOrder removeOrder : RangeOrder Referral)
  | deliver (i : Nat) (removeRanges addRanges : NotifyRanges)
  | loop (e : LoopEvent)

/-- The maps a notification refers to, as they are when it is handled. -/
def liveConnections (c : Cache) (pairs : List ClientClusterPair) : ConnectionMap :=
  pairs.foldl (fun changedPairs pair => changedPairs.insert pair (c.connections.cluster pair)) ∅

namespace System

/-- The cache has changed; when there is a pair to notify, a notification is on its way. -/
def cacheOp (s : System) (o : Outcome) : System :=
  { s with
    cache := o.cache
    inFlight := if o.notified = [] then s.inFlight else s.inFlight ++ [o.notified] }

/-- What a successful discovery after a notification does to the cache. -/
def aenCache (s : System) (conn : Connection) (serverChange : Bool) (result : DiscoverResult)
    (addOrder removeOrder : RangeOrder Referral) : Option Outcome :=
  if serverChange then none
  else
    match (getLogPageEntries s.loop.connections conn result).2 with
    | none => none
    | some (_, discLogPageEntries) =>
      some (handleReferrals addOrder removeOrder s.cache (referralMap conn discLogPageEntries))

/-- A `sync` that fails makes `Start` return before there is a loop, so it is no step. -/
def step (s : System) : SystemEvent → Option System
  | .sync adjustTraddr order internal userDir =>
    let o := DiscoveryClient.sync adjustTraddr order s.cache internal userDir
    if o.err = none then some (s.cacheOp o) else none
  | .file adjustTraddr order op base file =>
    some (s.cacheOp (onEvent adjustTraddr order s.cache op base file))
  | .handleReferrals addOrder removeOrder referrals =>
    some (s.cacheOp (DiscoveryClient.handleReferrals addOrder removeOrder s.cache referrals))
  | .aen conn serverChange result addOrder removeOrder =>
    match s.loop.step (.aen conn serverChange result) with
    | none => none
    | some loop =>
      match s.aenCache conn serverChange result addOrder removeOrder with
      | none => some { s with loop }
      | some o => some ({ s with loop }.cacheOp o)
  | .deliver i removeRanges addRanges =>
    match s.inFlight[i]? with
    | none => none
    | some pairs =>
      match s.loop.step (.notification (liveConnections s.cache pairs) removeRanges addRanges) with
      | none => none
      | some loop => some { s with loop, inFlight := s.inFlight.eraseIdx i }
  | .loop (.notification ..) => none
  | .loop (.aen ..) => none
  | .loop e =>
    match s.loop.step e with
    | none => none
    | some loop => some { s with loop }

end System

/-- `sync` reads the user's files, or what `createReferralsFile` wrote for a reachable cache. -/
def Written (internal : InternalFile) (userDir : UserDir) : Prop :=
  (∀ es, useInternalJson internal userDir ≠ .ok (some es)) ∨
    ∃ written now, Reachable written ∧ internal = createReferralsFile written now

def SystemEvent.Allowed : SystemEvent → Prop
  | .sync _ _ internal userDir => Written internal userDir
  | .handleReferrals _ _ referrals => ∃ p, OnePair referrals p
  | _ => True

def parties : Machine System SystemEvent where
  init s := ∃ nvmfHosts, s = { cache := newCache nvmfHosts }
  step s e s' := e.Allowed ∧ s.step e = some s'

/-- The loop takes the step without the cache. -/
def LoopEvent.Internal : LoopEvent → Prop
  | .notification .. => False
  | .aen .. => False
  | _ => True

namespace System

/-- What an event requires and what it leaves behind. -/
def StepsTo (s s' : System) : SystemEvent → Prop
  | .sync adjustTraddr order internal userDir =>
    let o := DiscoveryClient.sync adjustTraddr order s.cache internal userDir
    o.err = none ∧ s' = s.cacheOp o
  | .file adjustTraddr order op base file =>
    s' = s.cacheOp (onEvent adjustTraddr order s.cache op base file)
  | .handleReferrals addOrder removeOrder referrals =>
    s' = s.cacheOp (DiscoveryClient.handleReferrals addOrder removeOrder s.cache referrals)
  | .aen conn serverChange result addOrder removeOrder =>
    ∃ loop, s.loop.step (.aen conn serverChange result) = some loop ∧
      ((s.aenCache conn serverChange result addOrder removeOrder = none ∧ s' = { s with loop }) ∨
        ∃ o, s.aenCache conn serverChange result addOrder removeOrder = some o ∧
          s' = { s with loop }.cacheOp o)
  | .deliver i removeRanges addRanges =>
    ∃ pairs loop, s.inFlight[i]? = some pairs ∧
      s.loop.step (.notification (liveConnections s.cache pairs) removeRanges addRanges) =
        some loop ∧ s' = { s with loop, inFlight := s.inFlight.eraseIdx i }
  | .loop e => e.Internal ∧ ∃ loop, s.loop.step e = some loop ∧ s' = { s with loop }

theorem step_stepsTo {s s' : System} {e : SystemEvent} (h : s.step e = some s') :
    s.StepsTo s' e := by
  cases e with
  | sync adjustTraddr order internal userDir =>
    simp only [step] at h
    split at h
    next herr => exact ⟨herr, (Option.some.inj h).symm⟩
    next => simp at h
  | file adjustTraddr order op base file => exact (Option.some.inj h).symm
  | handleReferrals addOrder removeOrder referrals => exact (Option.some.inj h).symm
  | aen conn serverChange result addOrder removeOrder =>
    simp only [step] at h
    split at h
    next => simp at h
    next loop hloop =>
      refine ⟨loop, hloop, ?_⟩
      split at h
      next hnone => exact Or.inl ⟨hnone, (Option.some.inj h).symm⟩
      next o ho => exact Or.inr ⟨o, ho, (Option.some.inj h).symm⟩
  | deliver i removeRanges addRanges =>
    simp only [step] at h
    split at h
    next => simp at h
    next pairs hpairs =>
      split at h
      next => simp at h
      next loop hloop => exact ⟨pairs, loop, hpairs, hloop, (Option.some.inj h).symm⟩
  | loop e =>
    cases e with
    | notification fromCache removeRanges addRanges => simp [step] at h
    | aen conn serverChange result => simp [step] at h
    | _ =>
      simp only [step] at h
      split at h
      next => simp at h
      next loop hloop => exact ⟨trivial, loop, hloop, (Option.some.inj h).symm⟩

end System

end DiscoveryClient
