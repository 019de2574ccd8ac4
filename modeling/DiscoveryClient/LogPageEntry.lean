import DiscoveryClient.Service

namespace DiscoveryClient

open GoString

/-- An entry of the discovery log page as it is decoded from the wire. -/
structure NvmefDiscRspPageEntry where
  trType : UInt8
  adrFam : UInt8
  subType : UInt8
  treq : UInt8
  portID : UInt16
  cntlID : UInt16
  asqsz : UInt16
  resv8 : Vector UInt8 22
  trsvcID : Vector UInt8 32
  resv64 : Vector UInt8 192
  subnqn : GoString
  traddr : GoString
  tsas : Vector UInt8 256
deriving DecidableEq

/-- The conversion in `tcpClient.Discover`: a service id that does not parse becomes zero, and one
that does is truncated to 16 bits. -/
def discoverEntry (entry : NvmefDiscRspPageEntry) : NvmeDiscPageEntry :=
  { portID := entry.portID
    cntlID := entry.cntlID
    subType := entry.subType
    trsvcID := UInt16.ofInt ((atoi (trimRightNul entry.trsvcID.toList)).getD 0)
    subnqn := trimRightNul entry.subnqn
    traddr := trimRightNul entry.traddr }

/-- The result comes from `nvmehost`: a log page that was read, or an error without entries. -/
def DiscoverResult.FromLogPage : DiscoverResult → Prop
  | .entries logPageEntries => ∃ page : List NvmefDiscRspPageEntry,
      logPageEntries = page.map discoverEntry
  | .clientError _ logPageEntries => logPageEntries = []
  | .otherError => True

end DiscoveryClient
