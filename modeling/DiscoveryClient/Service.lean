import DiscoveryClient.Cache

namespace DiscoveryClient

/-- What `hostAPI.Discover` returns; a client error carries its status beside the entries. -/
inductive DiscoverResult
  | entries (logPageEntries : List NvmeDiscPageEntry)
  | clientError (status : Nat) (logPageEntries : List NvmeDiscPageEntry)
  | otherError

def discNoLog : Nat := 2

/-- `service.Discover`: a log page without entries is no error. -/
def discover : DiscoverResult → Option (List NvmeDiscPageEntry)
  | .entries logPageEntries => some logPageEntries
  | .clientError status logPageEntries => if status = discNoLog then some logPageEntries else none
  | .otherError => none

def nvmeNqnDisc : UInt8 := 1

def nvmeNqnNvme : UInt8 := 2

def nvmeTCPDiscPort : UInt16 := 8009

def Connection.pair (conn : Connection) : ClientClusterPair := ⟨conn.key.nqn, conn.hostnqn⟩

def ConnectionMap.setActive (cm : ConnectionMap) (conn : Connection) : ConnectionMap :=
  cm.insert conn.pair { cm.cluster conn.pair with activeConnection := some conn }

/-- The referral to the sending server itself, which the server does not return. -/
def selfReferral (conn : Connection) : NvmeDiscPageEntry :=
  { trsvcID := nvmeTCPDiscPort, subnqn := conn.key.nqn, traddr := conn.key.ip,
    subType := nvmeNqnDisc }

/-- A successful discovery makes its connection the active one of its pair, and returns the entries
of the two kinds. -/
def getLogPageEntries (connections : ConnectionMap) (conn : Connection) (result : DiscoverResult) :
    ConnectionMap × Option (List NvmeDiscPageEntry × List NvmeDiscPageEntry) :=
  match discover result with
  | none => (connections, none)
  | some logPageEntries =>
    (connections.setActive conn,
      some (logPageEntries.filter (·.subType = nvmeNqnNvme),
        logPageEntries.filter (·.subType = nvmeNqnDisc) ++ [selfReferral conn]))

/-- The map the handler of a notification builds for `HandleReferrals`. -/
def referralMap (conn : Connection) (discLogPageEntries : List NvmeDiscPageEntry) : ReferralMap :=
  discLogPageEntries.foldl (fun refMap referral =>
    refMap.insert ⟨referral.traddr, referral.trsvcID, conn.key.nqn, conn.hostnqn⟩ referral) ∅

/-- Each connection is tried once, in turn, until one answers. -/
def getLiveConnection (connections : ConnectionMap) (discoverOver : Connection → DiscoverResult) :
    List Connection → ConnectionMap × Option Connection
  | [] => (connections, none)
  | conn :: rest =>
    match getLogPageEntries connections conn (discoverOver conn) with
    | (connections, some _) => (connections, some conn)
    | (connections, none) => getLiveConnection connections discoverOver rest

abbrev ConnectionItem := Sigma fun _ : TKey => Connection

inductive Reconnected
  | noConnections
  | live (conn : Connection)
  | failed
deriving DecidableEq

/-- `order` is the order of `GetRandomConnectionList`. -/
def reconnectToCluster (order : RangeOrder ConnectionItem)
    (discoverOver : Connection → DiscoverResult) (connections : ConnectionMap)
    (clusterMapId : ClientClusterPair) : ConnectionMap × Reconnected :=
  let items := (connections.cluster clusterMapId).clusterConnectionsMap.entries
  if items = [] then (connections, .noConnections)
  else
    match getLiveConnection connections discoverOver ((order.order items).map (·.2)) with
    | (connections, some conn) => (connections, .live conn)
    | (connections, none) => (connections, .failed)

abbrev ClusterItem := Sigma fun _ : ClientClusterPair => ClusterConnections

/-- The orders of one nest of loops over a notification and over the connections of its pairs. -/
structure NotifyRanges where
  pairs : RangeOrder ClusterItem
  conns : ClientClusterPair → RangeOrder ConnectionItem

def NotifyRanges.stored : NotifyRanges := ⟨.stored, fun _ => .stored⟩

/-- The state of the inner loop of `removeConnections`. `active` is a field of a local copy of the
cluster's struct: what the loop assigns to it never reaches the service's map. -/
structure Removal where
  active : Option Connection
  connections : ConnectionMap
  modified : GoMap ClientClusterPair Bool
  disconnected : List Connection
  /-- The connections whose `Stop` was called. -/
  stopped : List Connection

def removeConnection (cached : ClusterConnections) (clusterMapId : ClientClusterPair) (r : Removal)
    (item : ConnectionItem) : Removal :=
  if cached.exists item.2 then r
  else
    { active := if r.active = some item.2 then none else r.active
      connections := r.connections.deleteConnection clusterMapId item.1
      modified := r.modified.insert clusterMapId true
      disconnected := if r.active = some item.2 then r.disconnected ++ [item.2] else r.disconnected
      stopped := r.stopped ++ [item.2] }

def removeCluster (ranges : NotifyRanges) (r : Removal) (item : ClusterItem) : Removal :=
  match r.connections.lookup item.1 with
  | none =>
    if item.1 ∈ r.modified then r else { r with modified := r.modified.insert item.1 false }
  | some serviceClusterConnections =>
    ((ranges.conns item.1).order serviceClusterConnections.clusterConnectionsMap.entries).foldl
      (removeConnection item.2 item.1)
      { r with active := serviceClusterConnections.activeConnection }

def removeConnections (ranges : NotifyRanges) (connections fromCache : ConnectionMap) : Removal :=
  (ranges.pairs.order fromCache.entries).foldl (removeCluster ranges) ⟨none, connections, ∅, [], []⟩

/-- The service's connections and the flags of the pairs that were modified. -/
abbrev Marked := ConnectionMap × GoMap ClientClusterPair Bool

def addConnection (clusterMapId : ClientClusterPair) (s : Marked) (item : ConnectionItem) : Marked :=
  if (s.1.cluster clusterMapId).exists item.2 then s
  else (s.1.addConnection item.1 item.2, s.2.insert clusterMapId true)

def addCluster (ranges : NotifyRanges) (s : Marked) (item : ClusterItem) : Marked :=
  ((ranges.conns item.1).order item.2.clusterConnectionsMap.entries).foldl (addConnection item.1)
    (s.1, if item.1 ∈ s.2 then s.2 else s.2.insert item.1 false)

def addConnections (ranges : NotifyRanges) (s : Marked) (fromCache : ConnectionMap) : Marked :=
  (ranges.pairs.order fromCache.entries).foldl (addCluster ranges) s

/-- The cache case of the main loop, up to the goroutines it starts. -/
def onNotification (removeRanges addRanges : NotifyRanges) (connections fromCache : ConnectionMap) :
    Marked :=
  let removed := removeConnections removeRanges connections fromCache
  addConnections addRanges (removed.connections, removed.modified) fromCache

/-- The pairs the cache case triggers a reconnect for. -/
def triggered (s : Marked) : List ClientClusterPair :=
  s.1.keys.filter fun clusterMapId =>
    s.2.lookup clusterMapId = some true && (s.1.cluster clusterMapId).activeConnection = none

end DiscoveryClient
