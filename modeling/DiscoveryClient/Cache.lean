import DiscoveryClient.GoMap
import DiscoveryClient.ConfParser

namespace DiscoveryClient

open GoString

/-- `clientconfig.Connection`, without what the service writes into it. `addr` is the object: each
one owns the channel it was made with, so `reflect.DeepEqual` of two pointers is their identity. -/
structure Connection where
  addr : Nat
  key : TKey
  hostnqn : GoString
  hostid : GoString
  ctrlLossTMO : Option Int
deriving DecidableEq, Repr

structure ClusterConnections where
  clusterConnectionsMap : GoMap TKey Connection := ∅
  activeConnection : Option Connection := none
deriving DecidableEq

abbrev ConnectionMap := GoMap ClientClusterPair ClusterConnections

/-- The connection, wherever it is stored in the map of its cluster. -/
def ClusterConnections.exists (cc : ClusterConnections) (c : Connection) : Bool :=
  cc.clusterConnectionsMap.entries.any fun x => x.2 = c

namespace ConnectionMap

/-- `cm[pair]`, the zero value when the pair is absent. -/
def cluster (cm : ConnectionMap) (pair : ClientClusterPair) : ClusterConnections :=
  (cm.lookup pair).getD {}

def addConnection (cm : ConnectionMap) (key : TKey) (conn : Connection) : ConnectionMap :=
  cm.insert key.pair
    { cm.cluster key.pair with
      clusterConnectionsMap := (cm.cluster key.pair).clusterConnectionsMap.insert key conn }

def deleteConnection (cm : ConnectionMap) (pair : ClientClusterPair) (key : TKey) : ConnectionMap :=
  match cm.lookup pair with
  | none => cm
  | some cc =>
    cm.insert pair { cc with clusterConnectionsMap := cc.clusterConnectionsMap.erase key }

end ConnectionMap

/-- An element of `cacheEntries`, which holds pointers: `addr` is the address. -/
structure CachedEntry where
  addr : Nat
  entry : Entry
deriving DecidableEq, Repr

/-- `clientconfig.cache`. `next` is the next address the allocator hands out. -/
structure Cache where
  nvmfHosts : GoMap GoString GoString
  cacheEntries : List CachedEntry
  connections : ConnectionMap
  next : Nat
deriving DecidableEq

/-- `NewCache`, with the host ids `GetNvmfHosts` found. -/
def newCache (nvmfHosts : GoMap GoString GoString) : Cache := ⟨nvmfHosts, [], ∅, 0⟩

inductive CacheError
  | parse (failure : ParseFailure)
  | connectionInCache
  | entryNotInCache
  | emptyReferrals
  | differentPairs (prev current : ClientClusterPair)
  | internalJson
  | statUserDir
  | readUserDir
  | verify (msg : String)
deriving DecidableEq, Repr

def existEntry (newEntry : Entry) (entriesList : List Entry) : Bool :=
  entriesList.any fun inListEntry => newEntry.compare inListEntry

def getHostID (hosts : GoMap GoString GoString) (hostnqn : GoString) : GoString :=
  (hosts.lookup hostnqn).getD []

def maybeUpdateHostIDs (hosts : GoMap GoString GoString) (e : Entry) : Entry :=
  if getHostID hosts e.hostnqn ≠ [] ∧ getHostID hosts e.hostnqn ≠ e.hostid then
    { e with effectiveHostid := getHostID hosts e.hostnqn }
  else e

/-- A user's entry that sets a controller loss timeout. -/
def setsTMO (x : CachedEntry) : Bool := x.entry.entrySource = .user && x.entry.ctrlLossTMO.isSome

/-- A referral without a timeout takes the one of the first user entry that sets one. -/
def inheritTMO (entries : List CachedEntry) (e : Entry) : Entry :=
  if e.entrySource = .referral ∧ e.ctrlLossTMO = none then
    match entries.find? setsTMO with
    | some x => { e with ctrlLossTMO := x.entry.ctrlLossTMO }
    | none => e
  else e

def newConnection (addr : Nat) (e : Entry) : Connection :=
  ⟨addr, e.tkey, e.hostnqn, e.getEffectiveHostId, e.ctrlLossTMO⟩

namespace Cache

/-- What `addEntry` stores for a new entry. -/
def stored (c : Cache) (newEntry : Entry) : Entry :=
  maybeUpdateHostIDs c.nvmfHosts (inheritTMO c.cacheEntries newEntry)

def appendEntry (c : Cache) (e : Entry) : Cache :=
  { c with cacheEntries := c.cacheEntries ++ [⟨c.next, e⟩], next := c.next + 1 }

def connectEntry (c : Cache) (e : Entry) : Cache :=
  { c with
    connections := c.connections.addConnection e.tkey (newConnection c.next e), next := c.next + 1 }

end Cache

/-- On a mismatch the entry has already been appended when the error is returned. -/
def addEntry (c : Cache) (newEntry : Entry) : Cache × Except CacheError ClientClusterPair :=
  if existEntry newEntry (c.cacheEntries.map (·.entry)) then (c, .ok {})
  else
    let e := c.stored newEntry
    match (c.connections.cluster e.pair).clusterConnectionsMap.lookup e.tkey with
    | none => ((c.appendEntry e).connectEntry e, .ok e.pair)
    | some _ => (c.appendEntry e, .error .connectionInCache)

/-- The loop of `fileAdded`; `pairs` is the set of pairs that got a connection. -/
def addFileEntries : Cache → List Entry → List ClientClusterPair →
    Cache × Except CacheError (List ClientClusterPair)
  | c, [], pairs => (c, .ok pairs)
  | c, newEntry :: rest, pairs =>
    match addEntry c { newEntry with persistent := true } with
    | (c, .error err) => (c, .error err)
    | (c, .ok pair) => addFileEntries c rest (if pair.isEmpty then pairs else pairs.insert pair)

/-- `order` is the order in which `removeDupEntries` ranges over its set. -/
def fileAdded (adjustTraddr : GoString → Bool) (order : RangeOrder Entry) (c : Cache)
    (file : UserFile) : Cache × Except CacheError (List ClientClusterPair) :=
  match parse adjustTraddr file with
  | .error failure => (c, .error (.parse failure))
  | .ok newEntries => addFileEntries c (order.order newEntries) []

structure ReferralKey where
  ip : GoString
  port : UInt16
  dpSubNqn : GoString
  hostnqn : GoString
deriving DecidableEq, Repr

def ReferralKey.pair (refKey : ReferralKey) : ClientClusterPair := ⟨refKey.dpSubNqn, refKey.hostnqn⟩

/-- `hostapi.NvmeDiscPageEntry`. -/
structure NvmeDiscPageEntry where
  portID : UInt16 := 0
  cntlID : UInt16 := 0
  trsvcID : UInt16
  subnqn : GoString
  traddr : GoString
  subType : UInt8
deriving DecidableEq, Repr

abbrev ReferralMap := GoMap ReferralKey NvmeDiscPageEntry

/-- One key of a referral map with its value, as a `range` over the map yields it. -/
abbrev Referral := Sigma fun _ : ReferralKey => NvmeDiscPageEntry

def getEntryFromReferral (r : Referral) : Entry :=
  { transport := ascii "tcp"
    trsvcid := r.2.trsvcID.toNat
    traddr := r.2.traddr
    hostnqn := r.1.hostnqn
    subsysnqn := r.1.dpSubNqn
    persistent := true
    entrySource := .referral
    ctrlLossTMO := none }

/-- The loop of `addConnectionsFromReferrals`; an entry that fails to be added is skipped. -/
def addReferrals : Cache → List Referral → List ClientClusterPair → Cache × List ClientClusterPair
  | c, [], pairs => (c, pairs)
  | c, r :: rest, pairs =>
    match addEntry c (getEntryFromReferral r) with
    | (c, .error _) => addReferrals c rest pairs
    | (c, .ok pair) => addReferrals c rest (if pair.isEmpty then pairs else pairs ++ [pair])

def addConnectionsFromReferrals (order : RangeOrder Referral) (c : Cache) (referrals : ReferralMap) :
    Cache × List ClientClusterPair :=
  addReferrals c (order.order referrals.entries) []

/-- The pair of the last referral, once no two neighbours were found to differ. -/
def currentPair : ClientClusterPair → List Referral → Except CacheError ClientClusterPair
  | prevPair, [] => .ok prevPair
  | prevPair, r :: rest =>
    if !prevPair.isEmpty && prevPair ≠ r.1.pair then .error (.differentPairs prevPair r.1.pair)
    else currentPair r.1.pair rest

def deleteEntry (c : Cache) (e : CachedEntry) : Cache × Except CacheError ClientClusterPair :=
  if c.cacheEntries.any (·.addr == e.addr) then
    ({ c with
        cacheEntries := c.cacheEntries.eraseP (·.addr == e.addr)
        connections := c.connections.deleteConnection e.entry.pair e.entry.tkey },
      .ok e.entry.pair)
  else (c, .error .entryNotInCache)

def deleteEntries : Cache → List CachedEntry → List ClientClusterPair → Cache × List ClientClusterPair
  | c, [], pairs => (c, pairs)
  | c, e :: rest, pairs =>
    match deleteEntry c e with
    | (c, .error _) => deleteEntries c rest pairs
    | (c, .ok pair) => deleteEntries c rest (if pair.isEmpty then pairs else pairs ++ [pair])

/-- The cached entries of the referrals' pair that no referral stands for. -/
def entriesToRemove (c : Cache) (referralEntries : List Entry) (pair : ClientClusterPair) :
    List CachedEntry :=
  c.cacheEntries.filter fun cachedEntry =>
    !existEntry cachedEntry.entry referralEntries && cachedEntry.entry.hostnqn == pair.hostNqn &&
      cachedEntry.entry.subsysnqn == pair.clusterNqn

def removeConnectionsNotInReferrals (order : RangeOrder Referral) (c : Cache)
    (referrals : ReferralMap) : Cache × Except CacheError (List ClientClusterPair) :=
  let ranged := order.order referrals.entries
  match currentPair {} ranged with
  | .error err => (c, .error err)
  | .ok pair =>
    let (c, pairs) := deleteEntries c (entriesToRemove c (ranged.map getEntryFromReferral) pair) []
    (c, .ok pairs)

/-- What a completed operation of the cache leaves behind: the pairs it hands to `notifyChange`,
and whether it called `createReferralsFile`. -/
structure Outcome where
  cache : Cache
  changed : List ClientClusterPair
  writesJson : Bool
  err : Option CacheError

/-- The two passes range over the map separately, each in an order of its own. -/
def handleReferrals (addOrder removeOrder : RangeOrder Referral) (c : Cache)
    (referrals : ReferralMap) : Outcome :=
  if referrals.entries = [] then ⟨c, [], false, some .emptyReferrals⟩
  else
    let (c, newPairs) := addConnectionsFromReferrals addOrder c referrals
    match removeConnectionsNotInReferrals removeOrder c referrals with
    | (c, .error err) => ⟨c, newPairs, newPairs ≠ [], some err⟩
    | (c, .ok removedPairs) => ⟨c, newPairs ++ removedPairs, newPairs ++ removedPairs ≠ [], none⟩

/-- The pairs of the notification `notifyChange` sends; none is sent when there are none. The
connections it carries are the cache's own maps, read when the notification is handled. -/
def notifyChange (c : Cache) (changedClientClusterPairs : List ClientClusterPair) :
    List ClientClusterPair :=
  (changedClientClusterPairs.filter fun pair =>
    !pair.isEmpty && (c.connections.lookup pair).isSome).dedup

def Outcome.notified (o : Outcome) : List ClientClusterPair := notifyChange o.cache o.changed

inductive EventOp
  | create
  | remove
  | modify
  | rename
  | chmod
deriving DecidableEq, Repr

def discoveryClientReservedPrefix : GoString := ascii "tmp.dc."

/-- A file event in the loop of `Run`; `base` is the last element of the file's path. -/
def onEvent (adjustTraddr : GoString → Bool) (order : RangeOrder Entry) (c : Cache) (op : EventOp)
    (base : GoString) (file : UserFile) : Outcome :=
  if discoveryClientReservedPrefix.isPrefixOf base then ⟨c, [], false, none⟩
  else
    match op with
    | .create | .rename =>
      match fileAdded adjustTraddr order c file with
      | (c, .ok pairs) => ⟨c, pairs, true, none⟩
      | (c, .error err) => ⟨c, [], true, some err⟩
    | .remove | .modify | .chmod => ⟨c, [], false, none⟩

end DiscoveryClient
