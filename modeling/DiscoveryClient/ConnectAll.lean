import DiscoveryClient.ConnectOptions
import DiscoveryClient.Service

/-! `ConnectAllNVMEDevices` connects to the controllers that a discovery service reports. What it
hands to the kernel is written from the entries of the log page and from the host's own settings. -/

namespace DiscoveryClient

open GoString

/-- The settings of `model.AppConfig` that go into a connection. -/
structure ConnectConfig where
  ctrlLossTMO : Int
  dhChapSecret : GoString
  dhChapCtrlSecret : GoString

/-- The arguments of `ConnectAllNVMEDevices` besides the entries, and `AuxSuffix`. -/
structure ConnectSettings where
  hostnqn : GoString
  hostid : GoString
  transport : GoString
  maxIOQueues : Int
  kato : Int
  ctrlLossTMO : Option Int
  cfg : Option ConnectConfig
  auxSuffix : GoString
  printable : Nat → Bool := fun _ => false

/-- What one call of `Connect` meets. -/
structure Surroundings where
  lookupIP : GoString → Except GoString GoIP.IP
  getOrCreateHostID : Except GoString GoString
  kernel : Kernel

namespace ConnectSettings

def host (s : ConnectSettings) (around : Surroundings) : Host where
  adjustTraddr := adjustTraddr around.lookupIP
  getOrCreateHostID := around.getOrCreateHostID
  auxSuffix := s.auxSuffix
  printable := s.printable

def ctrlLossTMOValue (s : ConnectSettings) : Int :=
  match s.ctrlLossTMO, s.cfg with
  | some ctrlLossTMO, _ => ctrlLossTMO
  | none, some cfg => cfg.ctrlLossTMO
  | none, none => -1

/-- The request for an entry of the log page. -/
def request (s : ConnectSettings) (logPageEntry : NvmeDiscPageEntry) : ConnectRequest where
  traddr := logPageEntry.traddr
  trsvcid := logPageEntry.trsvcID.toNat
  subsysnqn := logPageEntry.subnqn
  hostnqn := s.hostnqn
  hostid := s.hostid
  transport := s.transport
  ctrlLossTMO := s.ctrlLossTMOValue
  maxIOQueues := s.maxIOQueues
  kato := s.kato
  dhChapSecret := (s.cfg.map ConnectConfig.dhChapSecret).getD []
  dhChapControllerSecret := (s.cfg.map ConnectConfig.dhChapCtrlSecret).getD []

end ConnectSettings

/-- What `Connect` hands to `addCtrl`, when it gets that far. -/
def handedOptions (host : Host) (request : ConnectRequest) : Option GoString :=
  match host.adjustTraddr request.traddr with
  | .error _ => none
  | .ok traddr =>
    match host.hostid request with
    | .error _ => none
    | .ok hostid => some (request.prepared host.auxSuffix traddr hostid).toOptions

theorem connect_of_handedOptions {host : Host} {request : ConnectRequest} {options : GoString}
    (h : handedOptions host request = some options) (kernel : Kernel) :
    (connect host kernel request).result = wrapCtrl (addCtrl host.printable kernel options) := by
  rw [handedOptions] at h
  cases htraddr : host.adjustTraddr request.traddr with
  | error err =>
    rw [htraddr] at h
    cases h
  | ok traddr =>
    cases hhostid : host.hostid request with
    | error err =>
      rw [htraddr, hhostid] at h
      cases h
    | ok hostid =>
      rw [htraddr, hhostid] at h
      cases Option.some.inj h
      simp only [connect, htraddr, hhostid]

/-- Where nothing is handed over, the kernel has no part in what happens. -/
theorem connect_of_not_handed {host : Host} {request : ConnectRequest}
    (h : handedOptions host request = none) (kernel kernel' : Kernel) :
    connect host kernel request = connect host kernel' request := by
  rw [handedOptions] at h
  cases htraddr : host.adjustTraddr request.traddr with
  | error err => simp only [connect, htraddr]
  | ok traddr =>
    cases hhostid : host.hostid request with
    | error err => simp only [connect, htraddr, hhostid]
    | ok hostid =>
      rw [htraddr, hhostid] at h
      cases h

/-- Calls of `Connect` for one entry: how many have been made when they end, what was handed to
`addCtrl`, and what the last of them returned. -/
structure Retried where
  calls : Nat
  handed : List GoString
  result : Except GoError (Option GoString)

/-- The calls of `Connect` are numbered; the request stays as the last of them has left it. -/
def connectNVMEDevicesWithRetry (s : ConnectSettings) (around : Nat → Surroundings) :
    Nat → Nat → ConnectRequest → Retried
  | 0, calls, _ => ⟨calls, [], .ok none⟩
  | attempts + 1, calls, request =>
    let connected := connect (s.host (around calls)) (around calls).kernel request
    let handed := (handedOptions (s.host (around calls)) request).toList
    match connected.result with
    | .ok ctrlID => ⟨calls + 1, handed, .ok ctrlID⟩
    | .error err =>
      if attempts = 0 then ⟨calls + 1, handed, .error err⟩
      else
        let rest := connectNVMEDevicesWithRetry s around attempts (calls + 1) connected.request
        ⟨rest.calls, handed ++ rest.handed, rest.result⟩

/-- The calls for one entry, and the controller that is added to the result. -/
structure ConnectedEntry where
  calls : Nat
  handed : List GoString
  ctrl : Option (Option GoString)

/-- The body of the loop, for an entry that is not skipped. -/
def connectEntry (s : ConnectSettings) (around : Nat → Surroundings) (calls : Nat)
    (logPageEntry : NvmeDiscPageEntry) : ConnectedEntry :=
  let request := s.request logPageEntry
  let connected := connect (s.host (around calls)) (around calls).kernel request
  let handed := (handedOptions (s.host (around calls)) request).toList
  match connected.result with
  | .ok ctrlID => ⟨calls + 1, handed, some ctrlID⟩
  | .error (.text _) => ⟨calls + 1, handed, none⟩
  | .error (.client _ status _) =>
    if status = connAlreadyConnected then ⟨calls + 1, handed, none⟩
    else
      let retried := connectNVMEDevicesWithRetry s around 5 (calls + 1) connected.request
      match retried.result with
      | .error (.client ..) => ⟨retried.calls, handed ++ retried.handed, none⟩
      | .error (.text _) => ⟨retried.calls, handed ++ retried.handed, some none⟩
      | .ok ctrlID => ⟨retried.calls, handed ++ retried.handed, some ctrlID⟩

/-- A call of `ConnectAllNVMEDevices`: the controllers it returns, and what it has handed to
`addCtrl` for which entry. -/
structure ConnectedAll where
  handed : List (NvmeDiscPageEntry × GoString)
  ctrls : List (Option GoString)

def connectAllNVMEDevices (s : ConnectSettings) (around : Nat → Surroundings) :
    Nat → List NvmeDiscPageEntry → ConnectedAll
  | _, [] => ⟨[], []⟩
  | calls, logPageEntry :: logPageEntries =>
    if logPageEntry.subType ≠ nvmeNqnNvme then
      connectAllNVMEDevices s around calls logPageEntries
    else
      let one := connectEntry s around calls logPageEntry
      let rest := connectAllNVMEDevices s around one.calls logPageEntries
      ⟨one.handed.map (logPageEntry, ·) ++ rest.handed, one.ctrl.toList ++ rest.ctrls⟩

/-- The options are those of one connection to the entry's subsystem: no name twice, no name that
`ToOptions` does not write, and the subsystem under its name. -/
def OptionsAsMeant (auxSuffix : GoString) (logPageEntry : NvmeDiscPageEntry) (options : GoString) :
    Prop :=
  ((splitOptions options).map Prod.fst).Nodup ∧
  (∀ option ∈ splitOptions options, option.1 ∈ ConnectRequest.optionNames.map ascii) ∧
  (ascii "nqn", withAuxSuffix auxSuffix logPageEntry.subnqn) ∈ splitOptions options

instance (auxSuffix : GoString) (logPageEntry : NvmeDiscPageEntry) (options : GoString) :
    Decidable (OptionsAsMeant auxSuffix logPageEntry options) :=
  inferInstanceAs (Decidable (_ ∧ _ ∧ _))

/-- The host's own settings have no commas. -/
structure ConnectSettings.CommaFree (s : ConnectSettings) : Prop where
  hostnqn : 0x2C ∉ s.hostnqn
  hostid : 0x2C ∉ s.hostid
  transport : 0x2C ∉ s.transport
  auxSuffix : 0x2C ∉ s.auxSuffix
  cfg : ∀ cfg, s.cfg = some cfg → 0x2C ∉ cfg.dhChapSecret ∧ 0x2C ∉ cfg.dhChapCtrlSecret

/-- Nor has the host id that is read from its file. -/
def HostIDsCommaFree (around : Nat → Surroundings) : Prop :=
  ∀ n hostid, (around n).getOrCreateHostID = .ok hostid → 0x2C ∉ hostid

theorem withAuxSuffix_idem (auxSuffix subsysnqn : GoString) :
    withAuxSuffix auxSuffix (withAuxSuffix auxSuffix subsysnqn) =
      withAuxSuffix auxSuffix subsysnqn := by
  unfold withAuxSuffix
  split
  next =>
    have hsuffix : ascii "." ++ auxSuffix <:+ subsysnqn ++ ascii "." ++ auxSuffix :=
      ⟨subsysnqn, by rw [List.append_assoc]⟩
    rw [if_neg (fun h => h.2 hsuffix)]
  next => rfl

theorem comma_mem_withAuxSuffix {auxSuffix : GoString} (h : 0x2C ∉ auxSuffix)
    (subsysnqn : GoString) : 0x2C ∈ withAuxSuffix auxSuffix subsysnqn ↔ 0x2C ∈ subsysnqn := by
  unfold withAuxSuffix
  split
  next =>
    have hdot : 0x2C ∉ ascii "." := by decide
    simp [h, hdot]
  next => exact Iff.rfl

namespace ConnectRequest

theorem mem_given {shown : Bool} {name : String} {value : GoString} {option : String × GoString} :
    option ∈ given shown name value ↔ shown = true ∧ option = (name, value) := by
  cases shown with
  | false => simp [given]
  | true => simp [given]

theorem comma_not_mem_formatInt (n : Int) : 0x2C ∉ formatInt n :=
  fun h => absurd (mem_formatInt h) (by decide)

/-- A request for the entry, as it is before or after a call of `Connect`. -/
structure For (s : ConnectSettings) (logPageEntry : NvmeDiscPageEntry) (request : ConnectRequest) :
    Prop where
  nqn : withAuxSuffix s.auxSuffix request.subsysnqn = withAuxSuffix s.auxSuffix logPageEntry.subnqn
  transport : 0x2C ∉ request.transport
  hostnqn : 0x2C ∉ request.hostnqn
  hostaddr : 0x2C ∉ request.hostaddr
  hostid : 0x2C ∉ request.hostid
  dhChapSecret : 0x2C ∉ request.dhChapSecret
  dhChapControllerSecret : 0x2C ∉ request.dhChapControllerSecret

variable {s : ConnectSettings} {logPageEntry : NvmeDiscPageEntry} {request : ConnectRequest}

theorem for_request (hs : s.CommaFree) (logPageEntry : NvmeDiscPageEntry) :
    For s logPageEntry (s.request logPageEntry) := by
  have hcfg : 0x2C ∉ (s.request logPageEntry).dhChapSecret ∧
      0x2C ∉ (s.request logPageEntry).dhChapControllerSecret := by
    simp only [ConnectSettings.request]
    cases hcfg : s.cfg with
    | none => exact ⟨List.not_mem_nil, List.not_mem_nil⟩
    | some cfg => exact hs.cfg cfg hcfg
  exact
    { nqn := rfl
      transport := hs.transport
      hostnqn := hs.hostnqn
      hostaddr := List.not_mem_nil
      hostid := hs.hostid
      dhChapSecret := hcfg.1
      dhChapControllerSecret := hcfg.2 }

theorem For.prepared (h : For s logPageEntry request) (traddr : GoString) {hostid : GoString}
    (hhostid : 0x2C ∉ hostid) :
    For s logPageEntry (request.prepared s.auxSuffix traddr hostid) where
  nqn := (withAuxSuffix_idem s.auxSuffix request.subsysnqn).trans h.nqn
  transport := h.transport
  hostnqn := h.hostnqn
  hostaddr := h.hostaddr
  hostid := hhostid
  dhChapSecret := h.dhChapSecret
  dhChapControllerSecret := h.dhChapControllerSecret

theorem For.hostid_ok (h : For s logPageEntry request) {around : Surroundings}
    (haround : ∀ hostid, around.getOrCreateHostID = .ok hostid → 0x2C ∉ hostid) {hostid : GoString}
    (hhostid : (s.host around).hostid request = .ok hostid) : 0x2C ∉ hostid := by
  unfold Host.hostid at hhostid
  split at hhostid
  next => exact haround hostid hhostid
  next =>
    cases Except.ok.inj hhostid
    exact h.hostid

theorem For.connect (h : For s logPageEntry request) {around : Surroundings}
    (haround : ∀ hostid, around.getOrCreateHostID = .ok hostid → 0x2C ∉ hostid) (kernel : Kernel) :
    For s logPageEntry (connect (s.host around) kernel request).request := by
  unfold DiscoveryClient.connect
  split
  next => exact h
  next traddr _ =>
    split
    next =>
      exact ⟨h.nqn, h.transport, h.hostnqn, h.hostaddr, h.hostid, h.dhChapSecret,
        h.dhChapControllerSecret⟩
    next hostid hhostid => exact h.prepared traddr (h.hostid_ok haround hhostid)

theorem For.commaFree (h : For s logPageEntry request) (hnqn : 0x2C ∉ request.subsysnqn)
    (htraddr : 0x2C ∉ request.traddr) : request.CommaFree := by
  intro option hoption
  simp only [written, List.mem_cons, List.mem_append, mem_given, or_assoc] at hoption
  rcases hoption with rfl | h' | h' | h' | h' | h' | h' | h' | h' | h' | h' | h'
  · exact hnqn
  · exact h'.2 ▸ h.transport
  · exact h'.2 ▸ htraddr
  · exact h'.2 ▸ comma_not_mem_formatInt _
  · exact h'.2 ▸ h.hostnqn
  · exact h'.2 ▸ h.hostaddr
  · exact h'.2 ▸ comma_not_mem_formatInt _
  · exact h'.2 ▸ comma_not_mem_formatInt _
  · exact h'.2 ▸ h.hostid
  · exact h'.2 ▸ comma_not_mem_formatInt _
  · exact h'.2 ▸ h.dhChapSecret
  · exact h'.2 ▸ h.dhChapControllerSecret

end ConnectRequest

section Options

variable {s : ConnectSettings} {around : Nat → Surroundings} {logPageEntry : NvmeDiscPageEntry}

/-- A request without commas is taken apart as it was meant. -/
theorem optionsAsMeant_toOptions {request : ConnectRequest} (hfree : request.CommaFree)
    (hnqn : request.subsysnqn = withAuxSuffix s.auxSuffix logPageEntry.subnqn) :
    OptionsAsMeant s.auxSuffix logPageEntry request.toOptions := by
  have hsub : ((request.written.map Prod.fst).map ascii).Sublist
      (ConnectRequest.optionNames.map ascii) := request.map_fst_written.map ascii
  have hfst : (splitOptions request.toOptions).map Prod.fst =
      (request.written.map Prod.fst).map ascii := by
    rw [ConnectRequest.splitOptions_toOptions hfree, List.map_map, List.map_map]
    rfl
  have hnodup : (ConnectRequest.optionNames.map ascii).Nodup := by decide
  refine ⟨?_, ?_, ?_⟩
  · rw [hfst]
    exact hnodup.sublist hsub
  · intro option hoption
    have hmem := List.mem_map_of_mem (f := Prod.fst) hoption
    rw [hfst] at hmem
    exact hsub.subset hmem
  · rw [ConnectRequest.splitOptions_toOptions hfree, ← hnqn]
    exact List.mem_cons_self

theorem optionsAsMeant_iff_of_handed (hs : s.CommaFree) {request : ConnectRequest}
    (h : request.For s logPageEntry) {n : Nat} (haround : HostIDsCommaFree around)
    {options : GoString} (hhanded : handedOptions (s.host (around n)) request = some options) :
    OptionsAsMeant s.auxSuffix logPageEntry options ↔ 0x2C ∉ logPageEntry.subnqn := by
  rw [← not_congr (comma_mem_withAuxSuffix hs.auxSuffix logPageEntry.subnqn)]
  constructor
  · rintro ⟨-, -, hnqn⟩
    exact comma_not_mem_of_mem_splitOptions hnqn
  · intro hnqn
    unfold handedOptions at hhanded
    split at hhanded
    next => cases hhanded
    next traddr htraddr =>
      split at hhanded
      next => cases hhanded
      next hostid hhostid =>
        cases Option.some.inj hhanded
        have hprepared := h.prepared traddr (h.hostid_ok (haround n) hhostid)
        refine optionsAsMeant_toOptions (hprepared.commaFree ?_ ?_) h.nqn
        · rw [← h.nqn] at hnqn
          exact hnqn
        · exact comma_not_mem_adjustTraddr htraddr

theorem optionsAsMeant_iff_of_retry (hs : s.CommaFree) (haround : HostIDsCommaFree around)
    (attempts calls : Nat) {request : ConnectRequest} (h : request.For s logPageEntry) :
    ∀ options ∈ (connectNVMEDevicesWithRetry s around attempts calls request).handed,
      (OptionsAsMeant s.auxSuffix logPageEntry options ↔ 0x2C ∉ logPageEntry.subnqn) := by
  induction attempts generalizing calls request with
  | zero => simp [connectNVMEDevicesWithRetry]
  | succ attempts ih =>
    have hfirst : ∀ options ∈ (handedOptions (s.host (around calls)) request).toList,
        (OptionsAsMeant s.auxSuffix logPageEntry options ↔ 0x2C ∉ logPageEntry.subnqn) :=
      fun options hmem => optionsAsMeant_iff_of_handed hs h haround (Option.mem_toList.mp hmem)
    rw [connectNVMEDevicesWithRetry]
    split
    next => exact hfirst
    next =>
      split
      next => exact hfirst
      next =>
        intro options hmem
        rcases List.mem_append.mp hmem with hmem | hmem
        · exact hfirst options hmem
        · exact ih (calls + 1) (h.connect (haround calls) _) options hmem

theorem optionsAsMeant_iff_of_entry (hs : s.CommaFree) (haround : HostIDsCommaFree around)
    (calls : Nat) (logPageEntry : NvmeDiscPageEntry) :
    ∀ options ∈ (connectEntry s around calls logPageEntry).handed,
      (OptionsAsMeant s.auxSuffix logPageEntry options ↔ 0x2C ∉ logPageEntry.subnqn) := by
  have hrequest := ConnectRequest.for_request hs logPageEntry
  have hfirst : ∀ options ∈
      (handedOptions (s.host (around calls)) (s.request logPageEntry)).toList,
      (OptionsAsMeant s.auxSuffix logPageEntry options ↔ 0x2C ∉ logPageEntry.subnqn) :=
    fun options hmem => optionsAsMeant_iff_of_handed hs hrequest haround (Option.mem_toList.mp hmem)
  have hall := fun (calls' : Nat) => optionsAsMeant_iff_of_retry hs haround 5 calls'
    (hrequest.connect (haround calls) (around calls).kernel)
  dsimp only [connectEntry]
  split
  next => exact hfirst
  next => exact hfirst
  next =>
    split
    next => exact hfirst
    next =>
      have hboth : ∀ options ∈ (handedOptions (s.host (around calls))
          (s.request logPageEntry)).toList ++ (connectNVMEDevicesWithRetry s around 5 (calls + 1)
            (connect (s.host (around calls)) (around calls).kernel
              (s.request logPageEntry)).request).handed,
          (OptionsAsMeant s.auxSuffix logPageEntry options ↔ 0x2C ∉ logPageEntry.subnqn) := by
        intro options hmem
        rcases List.mem_append.mp hmem with hmem | hmem
        · exact hfirst options hmem
        · exact hall (calls + 1) options hmem
      split
      next => exact hboth
      next => exact hboth
      next => exact hboth

/-- Whatever the servers, the resolver and the kernel do: an option string that is handed over for an
entry says what was meant exactly when the entry's subsystem has no comma in its name. -/
theorem connectAllNVMEDevices_options_iff (hs : s.CommaFree) (haround : HostIDsCommaFree around)
    (calls : Nat) (logPageEntries : List NvmeDiscPageEntry) :
    ∀ handed ∈ (connectAllNVMEDevices s around calls logPageEntries).handed,
      handed.1 ∈ logPageEntries ∧
      (OptionsAsMeant s.auxSuffix handed.1 handed.2 ↔ 0x2C ∉ handed.1.subnqn) := by
  induction logPageEntries generalizing calls with
  | nil => simp [connectAllNVMEDevices]
  | cons logPageEntry logPageEntries ih =>
    intro handed hmem
    rw [connectAllNVMEDevices] at hmem
    split at hmem
    next =>
      obtain ⟨hin, hiff⟩ := ih calls handed hmem
      exact ⟨List.mem_cons_of_mem _ hin, hiff⟩
    next =>
      rcases List.mem_append.mp hmem with hmem | hmem
      · obtain ⟨options, hoptions, rfl⟩ := List.mem_map.mp hmem
        exact ⟨List.mem_cons_self, optionsAsMeant_iff_of_entry hs haround calls _ options hoptions⟩
      · obtain ⟨hin, hiff⟩ := ih _ handed hmem
        exact ⟨List.mem_cons_of_mem _ hin, hiff⟩

end Options

/-- A host that sets little more than its names. -/
def sampleSettings : ConnectSettings where
  hostnqn := ascii "nqn.h"
  hostid := ascii "id"
  transport := []
  maxIOQueues := 0
  kato := 0
  ctrlLossTMO := some (-2)
  cfg := none
  auxSuffix := ascii "aux"

theorem sampleSettings_commaFree : sampleSettings.CommaFree where
  hostnqn := by decide
  hostid := by decide
  transport := by decide
  auxSuffix := by decide
  cfg := by
    intro cfg hcfg
    cases hcfg

/-- The kernel accepts every connection, and no name is resolved. -/
def sampleSurroundings : Surroundings where
  lookupIP := fun _ => .error (ascii "no such host")
  getOrCreateHostID := .error (ascii "permission denied")
  kernel := { read := .ok (ascii "instance=0,cntlid=1") }

theorem sampleSurroundings_commaFree : HostIDsCommaFree fun _ => sampleSurroundings := by
  intro n hostid hhostid
  cases hhostid

/-- An entry for an I/O controller of the given subsystem. -/
def ioEntry (subnqn : GoString) : NvmeDiscPageEntry :=
  { portID := 1, cntlID := 0xffff, trsvcID := 4420, subnqn, traddr := ascii "10.0.0.1", subType := 2 }

/-- What is handed over when one such entry is reported. -/
def sampleHanded (subnqn : GoString) : List (NvmeDiscPageEntry × GoString) :=
  (connectAllNVMEDevices sampleSettings (fun _ => sampleSurroundings) 0 [ioEntry subnqn]).handed

theorem connectAllNVMEDevices_options_iff_plain :
    (ioEntry (ascii "nqn.s"),
      ascii "nqn=nqn.s.aux,traddr=10.0.0.1,trsvcid=4420,hostnqn=nqn.h,hostid=id") ∈
        sampleHanded (ascii "nqn.s") ∧
    OptionsAsMeant (ascii "aux") (ioEntry (ascii "nqn.s"))
      (ascii "nqn=nqn.s.aux,traddr=10.0.0.1,trsvcid=4420,hostnqn=nqn.h,hostid=id") := by
  have hmem : (ioEntry (ascii "nqn.s"),
      ascii "nqn=nqn.s.aux,traddr=10.0.0.1,trsvcid=4420,hostnqn=nqn.h,hostid=id") ∈
        sampleHanded (ascii "nqn.s") := by
    decide +kernel
  have hnqn : 0x2C ∉ (ioEntry (ascii "nqn.s")).subnqn := by decide
  exact ⟨hmem, (connectAllNVMEDevices_options_iff sampleSettings_commaFree
    sampleSurroundings_commaFree 0 _ _ hmem).2.mpr hnqn⟩

/-- A subsystem name with a comma in it brings an option of the server's own: the host name is given
twice, and the subsystem is not the one that was reported. -/
theorem connectAllNVMEDevices_injected :
    (ioEntry (ascii "s,hostnqn=x"),
      ascii "nqn=s,hostnqn=x.aux,traddr=10.0.0.1,trsvcid=4420,hostnqn=nqn.h,hostid=id") ∈
        sampleHanded (ascii "s,hostnqn=x") ∧
    ¬ OptionsAsMeant (ascii "aux") (ioEntry (ascii "s,hostnqn=x"))
      (ascii "nqn=s,hostnqn=x.aux,traddr=10.0.0.1,trsvcid=4420,hostnqn=nqn.h,hostid=id") := by
  constructor
  · decide +kernel
  · decide +kernel

end DiscoveryClient
