import DiscoveryClient.ConnectAll
import DiscoveryClient.ConnInfo
import DiscoveryClient.ConnectCapsule
import DiscoveryClient.IoctlLogPage
import DiscoveryClient.Machine

/-! A discovery through the kernel: `nvmeclient.Discover` makes a controller for it, reads the log
page from that and removes it again. Discoveries overlap with each other and with other programs,
which connect and disconnect controllers. What the kernel does is not part of the model: it is a
parameter of each step, and what is assumed of it is stated in `KernelKeeps`. -/

namespace DiscoveryClient.Nvmeclient

open GoString ConnectRequest

def discoverySubsysName : GoString := ascii "nqn.2014-08.org.nvmexpress.discovery"

/-- `hostapi.DiscoverRequest`. -/
structure DiscoverRequest where
  transport : GoString
  traddr : GoString
  trsvcid : Int
  hostnqn : GoString
  hostaddr : GoString := []
  kato : Int
  hostid : GoString
deriving DecidableEq, Repr

def DiscoverRequest.toOptions (c : DiscoverRequest) : GoString :=
  ascii "nqn=" ++ discoverySubsysName ++
    stringOption ",transport=" c.transport ++
    stringOption ",traddr=" c.traddr ++
    intOption ",trsvcid=" (0 < c.trsvcid) c.trsvcid ++
    stringOption ",hostnqn=" c.hostnqn ++
    stringOption ",host_traddr=" c.hostaddr ++
    intOption ",keep_alive_tmo=" (0 < c.kato) c.kato ++
    stringOption ",hostid=" c.hostid

/-- What one call of `Discover` meets: the host, what the file of the kernel comes to, and the
number of the controller that the kernel makes for the call, if any. -/
structure DiscoverCall where
  host : Host
  kernel : Kernel
  created : Option Nat
  order : RangeOrder (GoString × GoString)

inductive DiscoverFailure
  | client (status : Nat) (msg : GoString) (err : GoError)
  | log (failure : Failure GetLogPageError)

/-- A call of `Discover` that has a controller. `id` tells the calls apart and `created` is the
number that the kernel has given to the controller; the code knows only what `addCtrl` has
returned. -/
structure OpenDiscovery where
  id : Nat
  created : Option Nat
  ctrlID : CtrlIdentifier
  request : DiscoverRequest
deriving DecidableEq, Repr

namespace DiscoverCall

/-- The request as `Discover` has changed it when it calls `addCtrl`. -/
def prepared (call : DiscoverCall) (request : DiscoverRequest) :
    Except DiscoverFailure DiscoverRequest :=
  match call.host.adjustTraddr request.traddr with
  | .error err =>
    .error (.client connFailed (ascii "invalid traddr " ++ request.traddr) (.text err))
  | .ok traddr =>
    match if request.hostid = [] then call.host.getOrCreateHostID else .ok request.hostid with
    | .error err => .error (.client connFailed (ascii "failed to get hostid") (.text err))
    | .ok hostid => .ok { request with traddr, hostid }

/-- `Discover` up to its deferred call. -/
def start (call : DiscoverCall) (id : Nat) (request : DiscoverRequest) :
    Except DiscoverFailure OpenDiscovery :=
  match call.prepared request with
  | .error failure => .error failure
  | .ok request =>
    match addCtrl call.host.printable call.kernel request.toOptions with
    | .error err => .error (.client discFailed (ascii "discover failed") err)
    | .ok conn => .ok ⟨id, call.created, parseConnInfo call.order conn, request⟩

end DiscoverCall

/-- The controller that the deferred call gives to `RemoveCtrl`. -/
def OpenDiscovery.removes (discovery : OpenDiscovery) : Option Int :=
  if discovery.request.kato = 0 then some discovery.ctrlID.instanceID else none

/-- What `Discover` returns, and the controller that it asks the kernel to remove. A panic of
`nvmfDiscoveryGetLogPage` does not skip the deferred call. -/
def discover (id : Nat) (call : DiscoverCall) (request : DiscoverRequest) (device : Device) :
    Except DiscoverFailure (List NvmeDiscPageEntry) × Option Int :=
  match call.start id request with
  | .error failure => (.error failure, none)
  | .ok discovery =>
    (match nvmfDiscoveryGetLogPage device with
      | .error failure => .error (.log failure)
      | .ok logPageEntries => .ok (discoverEntries logPageEntries),
      discovery.removes)

/-- A controller of the host: its number, and the discovery it was made for unless another program
has made it. -/
structure HostController where
  instanceID : Nat
  madeFor : Option Nat
deriving DecidableEq, Repr

/-- What `RemoveCtrl` comes to: the text of its error, which `Discover` does not look at, and the
numbers of the controllers that are gone. -/
structure Removal where
  err : Option GoString
  gone : List Nat

/-- The controllers of a host and the calls of `Discover` that have got one; `calls` counts those
that have begun. -/
structure HostControllers where
  controllers : List HostController
  running : List OpenDiscovery
  calls : Nat

inductive ControllerEvent
  | start (call : DiscoverCall) (request : DiscoverRequest)
  | finish (discovery : OpenDiscovery) (removal : Removal)
  | connect (instanceID : Nat)
  /-- Another program disconnects the controller of the number, whosever it is. -/
  | disconnect (instanceID : Nat)

def DiscoverCall.made (call : DiscoverCall) (id : Nat) : List HostController :=
  call.created.toList.map (⟨·, some id⟩)

def Removal.apply (removal : Removal) (removes : Option Int)
    (controllers : List HostController) : List HostController :=
  match removes with
  | some _ => controllers.filter fun c => c.instanceID ∉ removal.gone
  | none => controllers

namespace HostControllers

def step (s : HostControllers) : ControllerEvent → Option HostControllers
  | .start call request =>
    let controllers := s.controllers ++ call.made s.calls
    match call.start s.calls request with
    | .error _ => some { s with controllers, calls := s.calls + 1 }
    | .ok discovery =>
      some { controllers, running := s.running ++ [discovery], calls := s.calls + 1 }
  | .finish discovery removal =>
    if discovery ∈ s.running then
      some { s with
        controllers := removal.apply discovery.removes s.controllers
        running := s.running.erase discovery }
    else none
  | .connect instanceID => some { s with controllers := s.controllers ++ [⟨instanceID, none⟩] }
  | .disconnect instanceID =>
    some { s with controllers := s.controllers.filter fun c => c.instanceID ≠ instanceID }

end HostControllers

/-- Discoveries beside other programs. -/
def hostControllers : Machine HostControllers ControllerEvent where
  init s := (∀ c ∈ s.controllers, c.madeFor = none) ∧
    (s.controllers.map HostController.instanceID).Nodup ∧ s.running = []
  step s e s' := s.step e = some s'

/-- The call gets as far as writing the options. -/
def DiscoverCall.Creates (call : DiscoverCall) (request : DiscoverRequest) : Prop :=
  (∃ request', call.prepared request = .ok request') ∧
    call.kernel.openFile = none ∧ call.kernel.write = none

/-- No controller has the number. -/
def Fresh (instanceID : Nat) (controllers : List HostController) : Prop :=
  ∀ c ∈ controllers, c.instanceID ≠ instanceID

/-- The kernel makes a controller exactly if the options could be written, under a fresh number, and
what is read back then is a line with the number, in a buffer that was filled with zeros. -/
structure DiscoverCall.Answered (call : DiscoverCall) (request : DiscoverRequest)
    (controllers : List HostController) : Prop where
  created : (∃ instanceID, call.created = some instanceID) ↔ call.Creates request
  fresh : ∀ instanceID, call.created = some instanceID → Fresh instanceID controllers
  line : ∀ instanceID buf, call.created = some instanceID → call.kernel.read = .ok buf →
    ∃ cntlid zeros, buf = connText instanceID cntlid ++ ascii "\n" ++ List.replicate zeros 0 ∧
      instanceID < 2147483648 ∧ cntlid < 65536

/-- What is assumed of the kernel: it answers calls as `Answered` says, `RemoveCtrl` removes the
controller of its number or fails and removes none, and numbers in use are not given out. -/
def HostControllers.KernelKeeps (s : HostControllers) : ControllerEvent → Prop
  | .start call request => call.Answered request s.controllers
  | .finish discovery removal => ∀ c ∈ s.controllers,
    c.instanceID ∈ removal.gone ↔
      removal.err = none ∧ (c.instanceID : Int) = discovery.ctrlID.instanceID
  | .connect instanceID => Fresh instanceID s.controllers
  | .disconnect _ => True

/-- The discovery goes by the name of the controller that was made for it. -/
def OpenDiscovery.Named (discovery : OpenDiscovery) : Prop :=
  ∃ instanceID : Nat, discovery.created = some instanceID ∧
    discovery.ctrlID.instanceID = instanceID ∧
    discovery.ctrlID.device = ascii "/dev/nvme" ++ formatInt instanceID

namespace HostControllers

def AllNamed (s : HostControllers) : Prop := ∀ discovery ∈ s.running, discovery.Named

/-- A discovery that returns removes no controller but its own. -/
def Spares (s : HostControllers) : ControllerEvent → Prop
  | .finish discovery removal => ∀ c ∈ s.controllers,
    c ∉ removal.apply discovery.removes s.controllers → c.madeFor = some discovery.id
  | _ => True

/-- No other program disconnects the controller of a discovery that has not returned. -/
def Undisturbed (s : HostControllers) : ControllerEvent → Prop
  | .disconnect instanceID => ∀ c ∈ s.controllers, c.instanceID = instanceID →
    ∀ discovery ∈ s.running, c.madeFor ≠ some discovery.id
  | _ => True

/-- Another program can get the number that the discovery knows, and then the discovery removes the
controller of that program. -/
def Endangers (s : HostControllers) (discovery : OpenDiscovery) : Prop :=
  ∃ instanceID removal s', s.KernelKeeps (.connect instanceID) ∧
    s.step (.connect instanceID) = some s' ∧ s'.KernelKeeps (.finish discovery removal) ∧
    ¬s'.Spares (.finish discovery removal)

/-- No controller is left of a discovery that has returned. -/
def NoneLeft (s : HostControllers) : Prop :=
  ∀ c ∈ s.controllers, ∀ id, c.madeFor = some id → ∃ discovery ∈ s.running, discovery.id = id

/-- The discovery leaves nothing behind: once its options are written it has to read what they
came to, and it removes its controller unless that is gone. -/
def Tidy (s : HostControllers) : ControllerEvent → Prop
  | .start call request => call.Creates request → ∃ buf, call.kernel.read = .ok buf
  | .finish discovery removal => (∃ c ∈ s.controllers, c.madeFor = some discovery.id) →
    discovery.request.kato = 0 ∧ removal.err = none
  | .connect _ | .disconnect _ => True

end HostControllers

section Start

variable {call : DiscoverCall} {request : DiscoverRequest} {controllers : List HostController}

/-- `addCtrl` gets the line of the new controller, without its end and the rest of the buffer. -/
theorem addCtrl_line (printable : Nat → Bool) {kernel : Kernel} (options : GoString)
    (hopen : kernel.openFile = none) (hwrite : kernel.write = none) {m n zeros : Nat}
    (hread : kernel.read = .ok (connText m n ++ ascii "\n" ++ List.replicate zeros 0)) :
    addCtrl printable kernel options = .ok (connText m n) := by
  have hline : (connText m n ++ ascii "\n").getLast? ≠ some 0 := by
    have hend : ascii "\n" = [0x0A] := rfl
    rw [hend, List.getLast?_concat]
    decide
  simp only [addCtrl, hopen, hwrite, hread, trimRightNul_zeros, Nvme.trimRightNul_of_last hline,
    (plain_connText _ _).trimSpace_line (connText_ne_nil _ _)]

theorem start_of_not_creates (h : ¬call.Creates request) (id : Nat) :
    ∃ failure, call.start id request = .error failure := by
  cases hprepared : call.prepared request with
  | error failure => exact ⟨failure, by simp only [DiscoverCall.start, hprepared]⟩
  | ok request' =>
    cases hopen : call.kernel.openFile with
    | some err =>
      simp only [DiscoverCall.start, hprepared, addCtrl, hopen]
      exact ⟨_, rfl⟩
    | none =>
      cases hwrite : call.kernel.write with
      | some err =>
        simp only [DiscoverCall.start, hprepared, addCtrl, hopen, hwrite]
        exact ⟨_, rfl⟩
      | none => exact absurd ⟨⟨request', hprepared⟩, hopen, hwrite⟩ h

theorem start_of_not_read (h : call.Creates request) {err : GoString}
    (hread : call.kernel.read = .error err) (id : Nat) :
    ∃ failure, call.start id request = .error failure := by
  obtain ⟨⟨request', hprepared⟩, hopen, hwrite⟩ := h
  simp only [DiscoverCall.start, hprepared, addCtrl, hopen, hwrite, hread]
  exact ⟨_, rfl⟩

theorem start_of_read (answered : call.Answered request controllers) {instanceID : Nat}
    (hcreated : call.created = some instanceID) {buf : GoString}
    (hread : call.kernel.read = .ok buf) (id : Nat) :
    ∃ discovery, call.start id request = .ok discovery ∧ discovery.id = id ∧
      discovery.created = some instanceID ∧ discovery.Named := by
  obtain ⟨⟨request', hprepared⟩, hopen, hwrite⟩ := answered.created.mp ⟨instanceID, hcreated⟩
  obtain ⟨cntlid, zeros, rfl, hinstance, hcntlid⟩ := answered.line instanceID buf hcreated hread
  have hctrl := addCtrl_line call.host.printable request'.toOptions hopen hwrite hread
  have hparsed := parseConnInfo_connText call.order hinstance hcntlid
  simp only [DiscoverCall.start, hprepared, hctrl, hparsed]
  exact ⟨_, rfl, rfl, hcreated, instanceID, hcreated, rfl, rfl⟩

end Start

/-- What a step can do while the kernel keeps to its part. -/
inductive Takes (s : HostControllers) : ControllerEvent → HostControllers → Prop
  | refused {call request} : ¬call.Creates request →
      Takes s (.start call request) { s with calls := s.calls + 1 }
  | left {call request instanceID} : call.Creates request → (∀ buf, call.kernel.read ≠ .ok buf) →
      Fresh instanceID s.controllers →
      Takes s (.start call request) { s with
        controllers := s.controllers ++ [⟨instanceID, some s.calls⟩], calls := s.calls + 1 }
  | opened {call request discovery instanceID buf} : call.kernel.read = .ok buf →
      Fresh instanceID s.controllers → discovery.id = s.calls →
      discovery.created = some instanceID → discovery.Named →
      Takes s (.start call request) {
        controllers := s.controllers ++ [⟨instanceID, some s.calls⟩]
        running := s.running ++ [discovery]
        calls := s.calls + 1 }
  | removed {discovery removal} : discovery ∈ s.running → discovery.request.kato = 0 →
      removal.err = none →
      Takes s (.finish discovery removal) { s with
        controllers := s.controllers.filter fun c =>
          (c.instanceID : Int) ≠ discovery.ctrlID.instanceID
        running := s.running.erase discovery }
  | kept {discovery removal} : discovery ∈ s.running →
      ¬(discovery.request.kato = 0 ∧ removal.err = none) →
      Takes s (.finish discovery removal) { s with running := s.running.erase discovery }
  | connected {instanceID} : Fresh instanceID s.controllers →
      Takes s (.connect instanceID) { s with
        controllers := s.controllers ++ [⟨instanceID, none⟩] }
  | disconnected {instanceID} :
      Takes s (.disconnect instanceID) { s with
        controllers := s.controllers.filter fun c => c.instanceID ≠ instanceID }

section Steps

variable {s s' : HostControllers} {e : ControllerEvent}

/-- A removal that fails, or is not asked for, takes nothing away. -/
theorem Removal.apply_of_not {discovery : OpenDiscovery} {removal : Removal}
    (kernel : s.KernelKeeps (.finish discovery removal))
    (h : ¬(discovery.request.kato = 0 ∧ removal.err = none)) :
    removal.apply discovery.removes s.controllers = s.controllers := by
  by_cases hkato : discovery.request.kato = 0
  · rw [OpenDiscovery.removes, if_pos hkato]
    refine List.filter_eq_self.mpr fun c hc => decide_eq_true fun hgone => ?_
    exact h ⟨hkato, ((kernel c hc).mp hgone).1⟩
  · rw [OpenDiscovery.removes, if_neg hkato]
    rfl

theorem Removal.apply_of_removed {discovery : OpenDiscovery} {removal : Removal}
    (kernel : s.KernelKeeps (.finish discovery removal)) (hkato : discovery.request.kato = 0)
    (herr : removal.err = none) :
    removal.apply discovery.removes s.controllers =
      s.controllers.filter fun c => (c.instanceID : Int) ≠ discovery.ctrlID.instanceID := by
  rw [OpenDiscovery.removes, if_pos hkato]
  refine List.filter_congr fun c hc => decide_eq_decide.mpr (not_congr ?_)
  rw [kernel c hc, and_iff_right herr]

theorem step_takes (kernel : s.KernelKeeps e) (h : s.step e = some s') : Takes s e s' := by
  cases e with
  | start call request =>
    have answered : call.Answered request s.controllers := kernel
    cases hcreated : call.created with
    | none =>
      have hcreates : ¬call.Creates request := by
        intro creates
        obtain ⟨instanceID, h⟩ := answered.created.mpr creates
        rw [hcreated] at h
        cases h
      obtain ⟨failure, hstart⟩ := start_of_not_creates hcreates s.calls
      simp only [HostControllers.step, hstart, DiscoverCall.made, hcreated, Option.toList_none,
        List.map_nil, List.append_nil, Option.some.injEq] at h
      rw [← h]
      exact .refused hcreates
    | some instanceID =>
      have creates := answered.created.mp ⟨instanceID, hcreated⟩
      have hfresh := answered.fresh instanceID hcreated
      cases hread : call.kernel.read with
      | error err =>
        obtain ⟨failure, hstart⟩ := start_of_not_read creates hread s.calls
        simp only [HostControllers.step, hstart, DiscoverCall.made, hcreated, Option.toList_some,
          List.map_singleton, Option.some.injEq] at h
        rw [← h]
        exact .left creates (by simp [hread]) hfresh
      | ok buf =>
        obtain ⟨discovery, hstart, hid, hnumber, named⟩ :=
          start_of_read answered hcreated hread s.calls
        simp only [HostControllers.step, hstart, DiscoverCall.made, hcreated, Option.toList_some,
          List.map_singleton, Option.some.injEq] at h
        rw [← h]
        exact .opened hread hfresh hid hnumber named
  | finish discovery removal =>
    obtain ⟨hrunning, h⟩ := Option.ite_none_right_eq_some.mp h
    cases h
    by_cases tidy : discovery.request.kato = 0 ∧ removal.err = none
    · rw [Removal.apply_of_removed kernel tidy.1 tidy.2]
      exact .removed hrunning tidy.1 tidy.2
    · rw [Removal.apply_of_not kernel tidy]
      exact .kept hrunning tidy
  | connect instanceID =>
    cases h
    exact .connected kernel
  | disconnect instanceID =>
    cases h
    exact .disconnected

/-- What the calls know of their controllers. -/
structure HostControllers.Known (s : HostControllers) : Prop where
  named : s.AllNamed
  begun : ∀ discovery ∈ s.running, discovery.id < s.calls
  ids : (s.running.map OpenDiscovery.id).Nodup
  made : ∀ c ∈ s.controllers, ∀ id, c.madeFor = some id → id < s.calls
  own : ∀ c ∈ s.controllers, ∀ discovery ∈ s.running, c.madeFor = some discovery.id →
    discovery.created = some c.instanceID
  numbers : (s.controllers.map HostController.instanceID).Nodup

namespace HostControllers.Known

variable (known : s.Known)

include known

/-- No other discovery has the controller of one of them. -/
theorem id_ne_of_mem_erase {discovery other : OpenDiscovery}
    (h : other ∈ s.running.erase discovery) (hrunning : discovery ∈ s.running) :
    other.id ≠ discovery.id := by
  intro heq
  have hnodup : s.running.Nodup := known.ids.of_map
  obtain ⟨hne, hother⟩ := hnodup.mem_erase_iff.mp h
  exact hne (List.inj_on_of_nodup_map known.ids hother hrunning heq)

/-- What a discovery removes under the number it knows. -/
theorem own_number {discovery : OpenDiscovery} (hrunning : discovery ∈ s.running)
    {c : HostController} (hc : c ∈ s.controllers) (hown : c.madeFor = some discovery.id) :
    (c.instanceID : Int) = discovery.ctrlID.instanceID := by
  obtain ⟨instanceID, hcreated, hnumber, -⟩ := known.named discovery hrunning
  have hsame := hcreated.symm.trans (known.own c hc discovery hrunning hown)
  rw [hnumber, Option.some.inj hsame]

/-- Some controllers are gone, and some calls have returned. -/
theorem sublist {controllers : List HostController} {running : List OpenDiscovery}
    (hcontrollers : controllers.Sublist s.controllers) (hrunning : running.Sublist s.running) :
    Known { s with controllers, running } where
  named := fun discovery h => known.named discovery (hrunning.subset h)
  begun := fun discovery h => known.begun discovery (hrunning.subset h)
  ids := known.ids.sublist (hrunning.map _)
  made := fun c hc => known.made c (hcontrollers.subset hc)
  own := fun c hc discovery h =>
    known.own c (hcontrollers.subset hc) discovery (hrunning.subset h)
  numbers := known.numbers.sublist (hcontrollers.map _)

theorem numbers_append {instanceID : Nat} (hfresh : Fresh instanceID s.controllers)
    (madeFor : Option Nat) :
    ((s.controllers ++ [HostController.mk instanceID madeFor]).map
      HostController.instanceID).Nodup := by
  rw [List.map_append, List.map_singleton, List.nodup_append]
  refine ⟨known.numbers, List.nodup_singleton _, fun a ha b hb => ?_⟩
  obtain ⟨c, hc, rfl⟩ := List.mem_map.mp ha
  rw [List.mem_singleton.mp hb]
  exact hfresh c hc

/-- A call makes a controller that no running one knows. -/
theorem left {instanceID : Nat} (hfresh : Fresh instanceID s.controllers) :
    Known { s with
      controllers := s.controllers ++ [⟨instanceID, some s.calls⟩], calls := s.calls + 1 } where
  named := known.named
  begun := fun discovery h => Nat.lt_succ_of_lt (known.begun discovery h)
  ids := known.ids
  made := by
    intro c hc id hid
    rcases List.mem_append.mp hc with hc | hc
    · exact Nat.lt_succ_of_lt (known.made c hc id hid)
    · rw [List.mem_singleton.mp hc] at hid
      exact Option.some.inj hid ▸ Nat.lt_succ_self _
  own := by
    intro c hc discovery h hown
    rcases List.mem_append.mp hc with hc | hc
    · exact known.own c hc discovery h hown
    · rw [List.mem_singleton.mp hc] at hown
      have hbegun := known.begun discovery h
      rw [← Option.some.inj hown] at hbegun
      exact absurd hbegun (Nat.lt_irrefl _)
  numbers := known.numbers_append hfresh _

theorem opened {discovery : OpenDiscovery} {instanceID : Nat}
    (hfresh : Fresh instanceID s.controllers) (hid : discovery.id = s.calls)
    (hcreated : discovery.created = some instanceID) (named : discovery.Named) :
    Known {
      controllers := s.controllers ++ [⟨instanceID, some s.calls⟩]
      running := s.running ++ [discovery]
      calls := s.calls + 1 } where
  named := by
    intro d hd
    rcases List.mem_append.mp hd with hd | hd
    · exact known.named d hd
    · rwa [List.mem_singleton.mp hd]
  begun := by
    intro d hd
    rcases List.mem_append.mp hd with hd | hd
    · exact Nat.lt_succ_of_lt (known.begun d hd)
    · rw [List.mem_singleton.mp hd, hid]
      exact Nat.lt_succ_self _
  ids := by
    rw [List.map_append, List.map_singleton, List.nodup_append]
    refine ⟨known.ids, List.nodup_singleton _, fun a ha b hb => ?_⟩
    obtain ⟨d, hd, rfl⟩ := List.mem_map.mp ha
    rw [List.mem_singleton.mp hb, hid]
    exact Nat.ne_of_lt (known.begun d hd)
  made := (known.left hfresh).made
  own := by
    intro c hc d hd hown
    rcases List.mem_append.mp hd with hd | hd
    · exact (known.left hfresh).own c hc d hd hown
    · rw [List.mem_singleton.mp hd] at hown ⊢
      rcases List.mem_append.mp hc with hc | hc
      · have hmade := known.made c hc _ hown
        rw [hid] at hmade
        exact absurd hmade (Nat.lt_irrefl _)
      · rw [List.mem_singleton.mp hc, hcreated]
  numbers := known.numbers_append hfresh _

theorem takes (h : Takes s e s') : s'.Known := by
  cases h with
  | refused =>
    exact ⟨known.named, fun d hd => Nat.lt_succ_of_lt (known.begun d hd), known.ids,
      fun c hc id hid => Nat.lt_succ_of_lt (known.made c hc id hid), known.own, known.numbers⟩
  | left _ _ hfresh => exact known.left hfresh
  | opened _ hfresh hid hcreated named => exact known.opened hfresh hid hcreated named
  | removed => exact known.sublist List.filter_sublist List.erase_sublist
  | kept => exact known.sublist (List.Sublist.refl _) List.erase_sublist
  | connected hfresh =>
    refine ⟨known.named, known.begun, known.ids, ?_, ?_, known.numbers_append hfresh _⟩
    · intro c hc id hid
      rcases List.mem_append.mp hc with hc | hc
      · exact known.made c hc id hid
      · rw [List.mem_singleton.mp hc] at hid
        cases hid
    · intro c hc d hd hown
      rcases List.mem_append.mp hc with hc | hc
      · exact known.own c hc d hd hown
      · rw [List.mem_singleton.mp hc] at hown
        cases hown
  | disconnected => exact known.sublist List.filter_sublist (List.Sublist.refl _)

theorem noneLeft_iff_of_takes (none : s.NoneLeft) (h : Takes s e s') :
    s'.NoneLeft ↔ s.Tidy e := by
  cases h with
  | refused hcreates => exact iff_of_true none fun creates => absurd creates hcreates
  | left creates hread =>
    refine iff_of_false (fun none' => ?_) fun tidy => ?_
    · obtain ⟨d, hd, hid⟩ := none' _ (List.mem_append_right _ (List.mem_singleton_self _)) _ rfl
      exact absurd (known.begun d hd) (hid ▸ Nat.lt_irrefl _)
    · obtain ⟨buf, hbuf⟩ := tidy creates
      exact hread buf hbuf
  | @opened call request discovery instanceID buf hread _ hid =>
    refine iff_of_true (fun c hc id hmade => ?_) fun _ => ⟨buf, hread⟩
    rcases List.mem_append.mp hc with hc | hc
    · obtain ⟨d, hd, hsame⟩ := none c hc id hmade
      exact ⟨d, List.mem_append_left _ hd, hsame⟩
    · rw [List.mem_singleton.mp hc] at hmade
      exact ⟨discovery, List.mem_append_right _ (List.mem_singleton_self _),
        hid.trans (Option.some.inj hmade)⟩
  | @removed discovery removal hrunning hkato herr =>
    refine iff_of_true (fun c hc id hmade => ?_) fun _ => ⟨hkato, herr⟩
    obtain ⟨hmem, hother⟩ := List.mem_filter.mp hc
    obtain ⟨d, hd, rfl⟩ := none c hmem id hmade
    refine ⟨d, (List.mem_erase_of_ne ?_).mpr hd, rfl⟩
    rintro rfl
    exact of_decide_eq_true hother (known.own_number hrunning hmem hmade)
  | @kept discovery removal hrunning huntidy =>
    constructor
    · rintro none' ⟨c, hc, hown⟩
      -- the controller of the discovery that has returned is nobody's
      obtain ⟨d, hd, hid⟩ := none' c hc discovery.id hown
      exact absurd hid (known.id_ne_of_mem_erase hd hrunning)
    · intro tidy c hc id hmade
      obtain ⟨d, hd, rfl⟩ := none c hc id hmade
      refine ⟨d, (List.mem_erase_of_ne ?_).mpr hd, rfl⟩
      rintro rfl
      exact huntidy (tidy ⟨c, hc, hmade⟩)
  | connected =>
    refine iff_of_true (fun c hc id hmade => ?_) trivial
    rcases List.mem_append.mp hc with hc | hc
    · exact none c hc id hmade
    · rw [List.mem_singleton.mp hc] at hmade
      cases hmade
  | disconnected =>
    exact iff_of_true (fun c hc => none c (List.mem_filter.mp hc).1) trivial

/-- A discovery that has lost its controller while nobody has its number yet. -/
theorem endangers {discovery : OpenDiscovery} (hrunning : discovery ∈ s.running)
    (hkato : discovery.request.kato = 0)
    (hlost : ∀ c ∈ s.controllers, (c.instanceID : Int) ≠ discovery.ctrlID.instanceID) :
    s.Endangers discovery := by
  obtain ⟨instanceID, -, hnumber, -⟩ := known.named discovery hrunning
  rw [hnumber] at hlost
  refine ⟨instanceID, ⟨.none, [instanceID]⟩, _, fun c hc h => hlost c hc (congrArg _ h), rfl, ?_,
    ?_⟩
  · intro c _
    simp only [List.mem_singleton, hnumber, true_and, Int.natCast_inj]
  · intro spares
    have hforeign := spares ⟨instanceID, .none⟩ (by simp) (by simp [Removal.apply,
      OpenDiscovery.removes, hkato])
    cases hforeign

end HostControllers.Known

/-- Every discovery still has its controller. -/
def HostControllers.Held (s : HostControllers) : Prop :=
  ∀ discovery ∈ s.running, ∃ c ∈ s.controllers, c.madeFor = some discovery.id

/-- The controller of a running discovery has a number that no other has. -/
theorem HostControllers.Held.madeFor_of_number (held : s.Held) (known : s.Known)
    {discovery : OpenDiscovery} (hrunning : discovery ∈ s.running) {c : HostController}
    (hc : c ∈ s.controllers) (hnumber : (c.instanceID : Int) = discovery.ctrlID.instanceID) :
    c.madeFor = some discovery.id := by
  obtain ⟨own, hown, hmade⟩ := held discovery hrunning
  have hsame : c.instanceID = own.instanceID := by
    rw [← Int.natCast_inj, hnumber, known.own_number hrunning hown hmade]
  rw [List.inj_on_of_nodup_map known.numbers hc hown hsame, hmade]

theorem HostControllers.Held.takes (held : s.Held) (known : s.Known) (undisturbed : s.Undisturbed e)
    (h : Takes s e s') : s'.Held := by
  have append {discovery : OpenDiscovery} (h : discovery ∈ s.running) (c : HostController) :
      ∃ c' ∈ s.controllers ++ [c], c'.madeFor = some discovery.id := by
    obtain ⟨own, hown, hmade⟩ := held discovery h
    exact ⟨own, List.mem_append_left _ hown, hmade⟩
  cases h with
  | refused => exact held
  | left => exact fun d hd => append hd _
  | opened _ _ hid =>
    intro d hd
    rcases List.mem_append.mp hd with hd | hd
    · exact append hd _
    · rw [List.mem_singleton.mp hd]
      exact ⟨_, List.mem_append_right _ (List.mem_singleton_self _), congrArg some hid.symm⟩
  | @removed discovery removal hrunning =>
    intro d hd
    obtain ⟨own, hown, hmade⟩ := held d (List.mem_of_mem_erase hd)
    refine ⟨own, List.mem_filter.mpr ⟨hown, decide_eq_true fun hnumber => ?_⟩, hmade⟩
    have hother := held.madeFor_of_number known hrunning hown hnumber
    exact known.id_ne_of_mem_erase hd hrunning (Option.some.inj (hmade.symm.trans hother))
  | kept => exact fun d hd => held d (List.mem_of_mem_erase hd)
  | connected => exact fun d hd => append hd _
  | disconnected =>
    intro d hd
    obtain ⟨own, hown, hmade⟩ := held d hd
    refine ⟨own, List.mem_filter.mpr ⟨hown, decide_eq_true fun hnumber => ?_⟩, hmade⟩
    exact undisturbed own hown hnumber d hd hmade

theorem HostControllers.Held.spares (held : s.Held) (known : s.Known) (kernel : s.KernelKeeps e)
    (h : s.step e = some s') : s.Spares e := by
  cases e with
  | finish discovery removal =>
    obtain ⟨hrunning, -⟩ := Option.ite_none_right_eq_some.mp h
    intro c hc hgone
    by_cases tidy : discovery.request.kato = 0 ∧ removal.err = none
    · rw [Removal.apply_of_removed kernel tidy.1 tidy.2, List.mem_filter, not_and] at hgone
      have hnumber := of_not_not fun hne => hgone hc (decide_eq_true hne)
      exact held.madeFor_of_number known hrunning hc hnumber
    · rw [Removal.apply_of_not kernel tidy] at hgone
      exact absurd hc hgone
  | start | connect | disconnect => trivial

theorem known_of_init (h : hostControllers.init s) : s.Known ∧ s.NoneLeft ∧ s.Held := by
  obtain ⟨hothers, hnumbers, hrunning⟩ := h
  refine ⟨⟨?_, ?_, ?_, ?_, ?_, hnumbers⟩, ?_, ?_⟩
  · simp [HostControllers.AllNamed, hrunning]
  · simp [hrunning]
  · simp [hrunning]
  · intro c hc id hid
    simp [hothers c hc] at hid
  · simp [hrunning]
  · intro c hc id hid
    simp [hothers c hc] at hid
  · simp [HostControllers.Held, hrunning]

section Runs

variable {past : List (HostControllers × ControllerEvent)} (run : hostControllers.Run past s)
  (kernel : Machine.Each HostControllers.KernelKeeps past)

include run kernel

theorem known_of_run : Machine.Always HostControllers.Known past s :=
  run.always_of_each (fun _ h => (known_of_init h).1)
    (fun _ _ _ known kernel h => known.takes (step_takes kernel h)) kernel

theorem spares_of_undisturbed (undisturbed : Machine.Each HostControllers.Undisturbed past) :
    Machine.Each HostControllers.Spares past := by
  have always := run.always_of_each (I := fun s => s.Known ∧ s.Held)
    (C := fun s e => s.KernelKeeps e ∧ s.Undisturbed e)
    (fun _ h => ⟨(known_of_init h).1, (known_of_init h).2.2⟩)
    (fun _ _ _ good met h => ⟨good.1.takes (step_takes met.1 h),
      good.2.takes good.1 met.2 (step_takes met.1 h)⟩)
    fun x hx => ⟨kernel x hx, undisturbed x hx⟩
  intro x hx
  obtain ⟨known, held⟩ := always.1 x hx
  obtain ⟨s', hstep⟩ := run.each_step x hx
  exact held.spares known (kernel x hx) hstep

theorem noneLeft_iff : Machine.Always HostControllers.NoneLeft past s ↔
    Machine.Each HostControllers.Tidy past :=
  Machine.Run.always_iff_each (m := hostControllers.constrained HostControllers.KernelKeeps)
    (fun _ h => ⟨(known_of_init h).2.1, (known_of_init h).1⟩)
    (fun _ _ _ none known h => ⟨known.noneLeft_iff_of_takes none (step_takes h.1 h.2),
      fun _ => known.takes (step_takes h.1 h.2)⟩)
    (run.constrained kernel)

end Runs

/-- However discoveries overlap with each other and with other programs, over a kernel that does
what `KernelKeeps` says, each goes by the name of its own controller. None removes a controller but
its own as long as no other program disconnects that of a running discovery; if one does, the number
may pass on and a controller of another program go. Nothing is left of those that have returned
exactly if every discovery that got a controller was told its name and, unless the controller was
gone, asked for no keep alives and could remove it. -/
theorem discoveries_clean_up_iff {past : List (HostControllers × ControllerEvent)}
    (run : hostControllers.Run past s) (kernel : Machine.Each HostControllers.KernelKeeps past) :
    Machine.Always HostControllers.AllNamed past s ∧
    (Machine.Each HostControllers.Undisturbed past → Machine.Each HostControllers.Spares past) ∧
    (∀ discovery ∈ s.running, discovery.request.kato = 0 →
      (∀ c ∈ s.controllers, (c.instanceID : Int) ≠ discovery.ctrlID.instanceID) →
      s.Endangers discovery) ∧
    (Machine.Always HostControllers.NoneLeft past s ↔ Machine.Each HostControllers.Tidy past) := by
  have known := known_of_run run kernel
  refine ⟨⟨fun x hx => (known.1 x hx).named, known.2.named⟩, spares_of_undisturbed run kernel, ?_,
    noneLeft_iff run kernel⟩
  intro discovery hrunning hkato hlost
  exact known.2.endangers hrunning hkato hlost

theorem start_id {call : DiscoverCall} {request : DiscoverRequest} {id : Nat}
    {discovery : OpenDiscovery} (h : call.start id request = .ok discovery) :
    discovery.id = id := by
  unfold DiscoverCall.start at h
  split at h
  next => cases h
  next =>
    split at h
    next => cases h
    next => rw [← Except.ok.inj h]

/-- Calls are told apart by their number, whatever the kernel does. -/
theorem begun_of_run {past : List (HostControllers × ControllerEvent)}
    (run : hostControllers.Run past s) : ∀ discovery ∈ s.running, discovery.id < s.calls := by
  refine (run.always (I := fun s => ∀ d ∈ s.running, d.id < s.calls) ?_ ?_).2
  · rintro s ⟨-, -, hrunning⟩
    simp [hrunning]
  · intro s e s' begun h d hd
    cases e with
    | start call request =>
      cases hstart : call.start s.calls request with
      | error failure =>
        simp only [hostControllers, HostControllers.step, hstart, Option.some.injEq] at h
        subst h
        exact Nat.lt_succ_of_lt (begun d hd)
      | ok discovery =>
        simp only [hostControllers, HostControllers.step, hstart, Option.some.injEq] at h
        subst h
        rcases List.mem_append.mp hd with hd | hd
        · exact Nat.lt_succ_of_lt (begun d hd)
        · rw [List.mem_singleton.mp hd, start_id hstart]
          exact Nat.lt_succ_self _
    | finish discovery removal =>
      obtain ⟨-, h⟩ := Option.ite_none_right_eq_some.mp h
      cases h
      exact begun d (List.mem_of_mem_erase hd)
    | connect | disconnect =>
      cases h
      exact begun d hd

/-- A whole call of `Discover` is one or two steps, in which the kernel is asked to remove what
`discover` says. -/
theorem reaches_discover (h : hostControllers.Reaches s) (call : DiscoverCall)
    (request : DiscoverRequest) (device : Device) (removal : Removal) :
    hostControllers.Reaches { s with
      controllers := removal.apply (discover s.calls call request device).2
        (s.controllers ++ call.made s.calls)
      calls := s.calls + 1 } := by
  cases hstart : call.start s.calls request with
  | error failure =>
    refine h.next (.start call request) ?_
    simp [hostControllers, HostControllers.step, hstart, discover, Removal.apply]
  | ok discovery =>
    have hnew : discovery ∉ s.running := by
      intro hd
      obtain ⟨past, run⟩ := h
      exact absurd (begun_of_run run discovery hd) (start_id hstart ▸ Nat.lt_irrefl _)
    have hrunning : (s.running ++ [discovery]).erase discovery = s.running := by
      rw [List.erase_append_right _ hnew, List.erase_cons_head, List.append_nil]
    have opened : hostControllers.Reaches {
        controllers := s.controllers ++ call.made s.calls
        running := s.running ++ [discovery]
        calls := s.calls + 1 } := by
      refine h.next (.start call request) ?_
      simp [hostControllers, HostControllers.step, hstart]
    simp only [discover, hstart]
    refine opened.next (.finish discovery removal) ?_
    simp [hostControllers, HostControllers.step, hrunning]

end Steps

section Witness

def sampleRequest : DiscoverRequest :=
  ⟨ascii "tcp", ascii "192.168.16.7", 8009, ascii "nqn", [], 0, ascii "host"⟩

/-- A call that gets the controller with the number 1. -/
def callWith (read : Except GoString GoString) : DiscoverCall where
  host := { adjustTraddr := .ok, getOrCreateHostID := .ok (ascii "host") }
  kernel := { read }
  created := some 1
  order := .stored

def namedBuf : GoString := connText 1 1 ++ ascii "\n" ++ List.replicate 0 0

theorem callWith_answered {read : Except GoString GoString}
    (h : ∀ buf, read = .ok buf → buf = namedBuf) : (callWith read).Answered sampleRequest [] where
  created := iff_of_true ⟨1, rfl⟩ ⟨⟨sampleRequest, rfl⟩, rfl, rfl⟩
  fresh := fun _ _ _ hc => absurd hc List.not_mem_nil
  line := by
    intro instanceID buf hcreated hread
    obtain rfl : 1 = instanceID := Option.some.inj hcreated
    exact ⟨1, 0, h buf hread, by decide, by decide⟩

def sampleDiscovery : OpenDiscovery := ⟨0, some 1, ⟨1, 1, ascii "/dev/nvme1"⟩, sampleRequest⟩

theorem callWith_start :
    (callWith (.ok namedBuf)).start 0 sampleRequest = .ok sampleDiscovery := rfl

/-- A run over a kernel that keeps to its part. -/
def RunsOverKernel (past : List (HostControllers × ControllerEvent)) (s : HostControllers) : Prop :=
  hostControllers.Run past s ∧ Machine.Each HostControllers.KernelKeeps past

theorem RunsOverKernel.next {past : List (HostControllers × ControllerEvent)} {s : HostControllers}
    (runs : RunsOverKernel past s) (e : ControllerEvent) (s' : HostControllers)
    (kernel : s.KernelKeeps e) (hstep : s.step e = some s') :
    RunsOverKernel (past ++ [(s, e)]) s' :=
  ⟨runs.1.next hstep, Machine.each_snoc.mpr ⟨runs.2, kernel⟩⟩

/-- A program disconnects all controllers while a discovery runs, and the next connection gets the
number that is free again: the discovery then removes it. And a discovery that is interrupted before
it can read the number of its controller leaves it behind. -/
theorem discoveries_clean_up_not_disturbed :
    (∃ past s, RunsOverKernel past s ∧ ¬Machine.Each HostControllers.Spares past ∧
      ¬Machine.Each HostControllers.Undisturbed past) ∧
    ∃ past s, RunsOverKernel past s ∧ ¬Machine.Always HostControllers.NoneLeft past s := by
  have start : RunsOverKernel [] ⟨[], [], 0⟩ :=
    ⟨.start ⟨by simp, by simp, rfl⟩, by simp [Machine.Each]⟩
  refine ⟨?_, ?_⟩
  · have runs := start.next (.start (callWith (.ok namedBuf)) sampleRequest)
      ⟨[⟨1, some 0⟩], [sampleDiscovery], 1⟩ (callWith_answered fun _ h => (Except.ok.inj h).symm)
      (by simp only [HostControllers.step, callWith_start]; rfl)
    have runs := runs.next (.disconnect 1) ⟨[], [sampleDiscovery], 1⟩ trivial rfl
    have runs := runs.next (.connect 1) ⟨[⟨1, none⟩], [sampleDiscovery], 1⟩
      (fun _ hc => absurd hc List.not_mem_nil) rfl
    have runs := runs.next (.finish sampleDiscovery ⟨none, [1]⟩) ⟨[], [], 1⟩
      (fun _ _ => by simp [sampleDiscovery])
      (by simp [HostControllers.step, Removal.apply, OpenDiscovery.removes, sampleDiscovery,
        sampleRequest])
    have hforeign : ¬HostControllers.Spares ⟨[⟨1, none⟩], [sampleDiscovery], 1⟩
        (.finish sampleDiscovery ⟨none, [1]⟩) := by
      intro spares
      cases spares ⟨1, none⟩ (List.mem_singleton_self _) (by decide)
    refine ⟨_, _, runs, fun spares => hforeign (Machine.each_snoc.mp spares).2, ?_⟩
    intro undisturbed
    have spares := (discoveries_clean_up_iff runs.1 runs.2).2.1 undisturbed
    exact hforeign (Machine.each_snoc.mp spares).2
  · have runs := start.next
      (.start (callWith (.error (ascii "interrupted system call"))) sampleRequest)
      ⟨[⟨1, some 0⟩], [], 1⟩ (callWith_answered fun _ h => absurd h (by simp)) rfl
    refine ⟨_, _, runs, fun left => ?_⟩
    have tidy := (Machine.each_snoc.mp
      ((discoveries_clean_up_iff runs.1 runs.2).2.2.2.mp left)).2
    obtain ⟨buf, hbuf⟩ := tidy ⟨⟨sampleRequest, rfl⟩, rfl, rfl⟩
    cases hbuf

end Witness

end DiscoveryClient.Nvmeclient
