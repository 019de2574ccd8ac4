import Mathlib.Data.List.Infix
import DiscoveryClient.GoQuote
import DiscoveryClient.HostApi

namespace DiscoveryClient

open GoString

/-- An integer printed with `%d`. -/
def formatInt (n : Int) : GoString :=
  if n < 0 then ascii "-" ++ decimal n.natAbs else decimal n.natAbs

structure ConnectRequest where
  transport : GoString
  traddr : GoString
  trsvcid : Int
  hostnqn : GoString
  hostaddr : GoString := []
  subsysnqn : GoString
  ctrlLossTMO : Int
  maxIOQueues : Int
  hostid : GoString
  kato : Int
  dhChapSecret : GoString := []
  dhChapControllerSecret : GoString := []
deriving DecidableEq, Repr

namespace ConnectRequest

def stringOption (name : String) (value : GoString) : GoString :=
  if value = [] then [] else ascii name ++ value

def intOption (name : String) (shown : Bool) (value : Int) : GoString :=
  if shown then ascii name ++ formatInt value else []

/-- What `ToOptions` and `String` write alike. -/
def publicOptions (c : ConnectRequest) : GoString :=
  ascii "nqn=" ++ c.subsysnqn ++
    stringOption ",transport=" c.transport ++
    stringOption ",traddr=" c.traddr ++
    intOption ",trsvcid=" (0 < c.trsvcid) c.trsvcid ++
    stringOption ",hostnqn=" c.hostnqn ++
    stringOption ",host_traddr=" c.hostaddr ++
    intOption ",ctrl_loss_tmo=" (-1 ≤ c.ctrlLossTMO) c.ctrlLossTMO ++
    intOption ",nr_io_queues=" (0 < c.maxIOQueues) c.maxIOQueues ++
    stringOption ",hostid=" c.hostid ++
    intOption ",keep_alive_tmo=" (0 < c.kato) c.kato

/-- The last two options, with the given texts for the two secrets. -/
def secretOptions (c : ConnectRequest) (secret ctrlSecret : GoString) : GoString :=
  (if c.dhChapSecret ≠ [] then ascii ",dhchap_secret=" ++ secret else []) ++
    if c.dhChapSecret ≠ [] ∧ c.dhChapControllerSecret ≠ [] then
      ascii ",dhchap_ctrl_secret=" ++ ctrlSecret
    else []

/-- The options that carry the secrets themselves. -/
def shownSecrets (c : ConnectRequest) : GoString :=
  c.secretOptions c.dhChapSecret c.dhChapControllerSecret

def toOptions (c : ConnectRequest) : GoString := c.publicOptions ++ c.shownSecrets

/-- `String`. -/
def string (c : ConnectRequest) : GoString :=
  c.publicOptions ++ c.secretOptions (ascii "redacted") (ascii "redacted")

end ConnectRequest

/-- An `error`: one of another package with its text, or an `NvmeClientError` around an error. -/
inductive GoError
  | text (msg : GoString)
  | client (msg : GoString) (status : Nat) (err : GoError)
deriving DecidableEq, Repr

/-- `Error`. -/
def GoError.error : GoError → GoString
  | .text msg => msg
  | .client msg _ err => msg ++ ascii ". err: " ++ err.error

/-- The text of the error, if one is returned. -/
def errorText {α : Type} : Except GoError α → Option GoString
  | .error err => some err.error
  | .ok _ => none

def connFailed : Nat := 8

def connAlreadyConnected : Nat := 9

def addCtrlFailed : Nat := 10

def pathNvmeFabrics : GoString := ascii "/dev/nvme-fabrics"

/-- What opening, writing and reading `/dev/nvme-fabrics` come to: the error's text, if any, and
what was read. -/
structure Kernel where
  openFile : Option GoString := none
  write : Option GoString := none
  read : Except GoString GoString

/-- What `Connect` depends on besides the kernel: name resolution and the host id file, with the
texts of their errors, the configured suffix, and the tables of `strconv.IsPrint`. -/
structure Host where
  adjustTraddr : GoString → Except GoString GoString
  getOrCreateHostID : Except GoString GoString
  auxSuffix : GoString := []
  printable : Nat → Bool := fun _ => false

/-- The text of a success is what `parseConnInfo` is given. -/
def addCtrl (printable : Nat → Bool) (kernel : Kernel) (options : GoString) :
    Except GoError GoString :=
  match kernel.openFile with
  | some err =>
    .error (.client (ascii "something wrong happened. failed to open file: " ++
      quote printable pathNvmeFabrics) addCtrlFailed (.text err))
  | none =>
    match kernel.write with
    | some err =>
      .error (.client (ascii "write failed: " ++ quote printable options) addCtrlFailed (.text err))
    | none =>
      match kernel.read with
      | .error err =>
        .error (.client (ascii "read failed: " ++ quote printable options) addCtrlFailed (.text err))
      | .ok buf => .ok (trimSpace (trimRightNul buf))

/-- A call of `Connect`: the request as it leaves it, the lines it logs and what it returns, where
no controller is a nil pointer. -/
structure Connected where
  request : ConnectRequest
  logged : List GoString
  result : Except GoError (Option GoString)

/-- What `Connect` returns for the outcome of `addCtrl`. -/
def wrapCtrl : Except GoError GoString → Except GoError (Option GoString)
  | .error (.client msg status err) =>
    if ascii "operation already in progress" <:+: err.error then
      .error (.client (ascii "controller already connected") connAlreadyConnected
        (.client msg status err))
    else .error (.client (ascii "add controller failed") connFailed (.client msg status err))
  | .error (.text _) => .ok none
  | .ok ctrlID => .ok (some ctrlID)

def withAuxSuffix (auxSuffix subsysnqn : GoString) : GoString :=
  if auxSuffix ≠ [] ∧ ¬(ascii "." ++ auxSuffix <:+ subsysnqn) then
    subsysnqn ++ ascii "." ++ auxSuffix
  else subsysnqn

/-- The request as `Connect` has changed it when it calls `addCtrl`. -/
def ConnectRequest.prepared (request : ConnectRequest) (auxSuffix traddr hostid : GoString) :
    ConnectRequest :=
  { request with
    traddr := traddr, hostid := hostid, subsysnqn := withAuxSuffix auxSuffix request.subsysnqn }

def Host.hostid (host : Host) (request : ConnectRequest) : Except GoString GoString :=
  if request.hostid = [] then host.getOrCreateHostID else .ok request.hostid

def connect (host : Host) (kernel : Kernel) (request : ConnectRequest) : Connected :=
  match host.adjustTraddr request.traddr with
  | .error err =>
    ⟨request, [], .error (.client (ascii "invalid traddr " ++ request.traddr) connFailed (.text err))⟩
  | .ok traddr =>
    match host.hostid request with
    | .error err =>
      ⟨{ request with traddr := traddr }, [],
        .error (.client (ascii "failed to get hostid") connFailed (.text err))⟩
    | .ok hostid =>
      let request := request.prepared host.auxSuffix traddr hostid
      ⟨request, [ascii "calling nvme connect with options: '" ++ request.string ++ ascii "'"],
        wrapCtrl (addCtrl host.printable kernel request.toOptions)⟩

end DiscoveryClient
