import DiscoveryClient.DiscoverDecoding
import DiscoveryClient.DiscoverSession
import DiscoveryClient.GoDecimal

/-! From the ports that a discovery service publishes to the entries that `Discover` returns. -/

namespace DiscoveryClient

open GoString

open Nvme

/-- `nvme.Port`. -/
structure Port where
  trAddr : GoString
  trsvcID : GoString
  trType : UInt8
  adrFam : UInt8
  treq : UInt8
  id : UInt16
  tsas : Vector UInt8 256

def cntlidDynamic : UInt16 := 0xffff

def aqDepth : UInt16 := 32

/-- The service id is copied as far as its field goes. -/
def newDiscoveryRspPageEntry (port : Port) (subsysNqn : GoString) (subType : UInt8) :
    NvmefDiscRspPageEntry where
  trType := port.trType
  adrFam := port.adrFam
  treq := port.treq
  portID := port.id
  cntlID := cntlidDynamic
  asqsz := aqDepth
  subType
  traddr := port.trAddr
  tsas := port.tsas
  subnqn := subsysNqn
  trsvcID := .ofFn fun i => port.trsvcID.getD i 0
  resv8 := .replicate 22 0
  resv64 := .replicate 192 0

/-- A subsystem behind a port. -/
structure Target where
  port : Port
  subsysNqn : GoString
  subType : UInt8

namespace Target

def pageEntry (t : Target) : NvmefDiscRspPageEntry :=
  newDiscoveryRspPageEntry t.port t.subsysNqn t.subType

/-- The service listens on the number that the port names, and the two names fit their fields. -/
structure ListensOn (t : Target) (number : UInt16) : Prop where
  trsvcID : t.port.trsvcID = decimal number.toNat
  trAddr_length : t.port.trAddr.length ≤ 256
  trAddr_last : t.port.trAddr.getLast? ≠ some 0
  subsysNqn_length : t.subsysNqn.length ≤ 256
  subsysNqn_last : t.subsysNqn.getLast? ≠ some 0

/-- What a client is to learn about the target. -/
def seenAs (t : Target) (number : UInt16) : NvmeDiscPageEntry where
  portID := t.port.id
  cntlID := cntlidDynamic
  trsvcID := number
  subnqn := t.subsysNqn
  traddr := t.port.trAddr
  subType := t.subType

end Target

/-- What is copied into a field, with the zeros that are left behind it. -/
theorem toList_ofFn_getD {n : Nat} {s : List UInt8} (h : s.length ≤ n) :
    (Vector.ofFn fun i : Fin n => s.getD i 0).toList = s ++ List.replicate (n - s.length) 0 := by
  refine List.ext_getElem (by simp [h]) fun i h₁ h₂ => ?_
  by_cases hi : i < s.length
  · simp [hi, List.getElem_append_left]
  · simp [hi, List.getElem_append_right (Nat.le_of_not_lt hi)]

theorem decimal_length_le {k n : Nat} (h : n < 10 ^ (k + 1)) : (decimal n).length ≤ k + 1 := by
  induction k generalizing n with
  | zero =>
    rw [decimal_of_lt (by omega)]
    rfl
  | succ k ih =>
    by_cases hlt : n < 10
    · rw [decimal_of_lt hlt, List.length_singleton]
      omega
    · have hrest := @ih (n / 10) (Nat.div_lt_of_lt_mul (by rwa [← Nat.pow_succ']))
      rw [decimal_of_le (by omega), List.length_append, List.length_singleton]
      omega

section Decoded

variable {t : Target} {number : UInt16} (h : t.ListensOn number)

include h

theorem Target.ListensOn.fits : t.pageEntry.Fits := ⟨h.subsysNqn_length, h.trAddr_length⟩

theorem Target.ListensOn.serviceID : t.pageEntry.serviceID = decimal number.toNat := by
  have hlast : (decimal number.toNat).getLast? ≠ some 0 := by
    intro hzero
    have hdigit := mem_decimal (List.mem_of_getLast? hzero)
    have hnul : (0 : UInt8).toNat = 0 := rfl
    omega
  have hlt := number.toNat_lt
  have hshort := @decimal_length_le 4 number.toNat (by omega)
  have hlen : (decimal number.toNat).length ≤ 32 := by omega
  simp only [NvmefDiscRspPageEntry.serviceID, Target.pageEntry, newDiscoveryRspPageEntry, h.trsvcID,
    toList_ofFn_getD hlen, trimRightNul_zeros, trimRightNul_of_last hlast]

theorem Target.ListensOn.decoded : discoverEntry t.pageEntry = t.seenAs number := by
  have hlt := number.toNat_lt
  have hparse : parseInt 64 t.pageEntry.serviceID = some (number.toNat : Int) := by
    rw [h.serviceID]
    exact parseInt_decimal (by omega)
  have hport := (discoverEntry_trsvcID (parseInt_eq_some_iff.mp hparse).1).1
  have hentry : discoverEntry t.pageEntry =
      { t.seenAs (discoverEntry t.pageEntry).trsvcID with
        subnqn := trimRightNul t.subsysNqn
        traddr := trimRightNul t.port.trAddr } := rfl
  rw [hentry, hport, trimRightNul_of_last h.subsysNqn_last, trimRightNul_of_last h.trAddr_last]
  rfl

end Decoded

namespace Session

section Ports

variable {s : Session} {link : Link} {hostnqn hostID : GoString} (hid : hostID.length = 16)
  (hlen : hostnqn.length ≤ 256) (hnul : hostnqn.getLast? ≠ some 0)
  (hreading : s.server.reader = .reading) (hctrl : s.server.queue.ctrl = none)
  (hidle : s.outstanding = ∅)

include hid hlen hnul hreading hctrl hidle

/-- While a service publishes the same targets, a client that discovers it learns exactly them: over
the wire, in both modes and in the order of the log. -/
theorem published_ports_discovered {targets : List (Target × UInt16)}
    (listens : ∀ x ∈ targets, x.1.ListensOn x.2) {log : DiscoveryLog}
    (hentries : log.entries = targets.map (·.1.pageEntry)) (hlogs : link.logs = fun _ => log)
    (hN : targets.length + 1 < 2 ^ 22) (paginated : Bool) {fuel : Nat}
    (hfuel : targets.length < fuel) :
    ∃ s', s.discover link paginated fuel hostnqn hostID =
        (s', some (.ok (targets.map fun x => x.1.seenAs x.2))) ∧
      Connected s' (enabledController s.server.queue.controllerID hostnqn) := by
  have hcount : log.entries.length = targets.length := by rw [hentries, List.length_map]
  have fits : ∀ e ∈ log.entries, e.Fits := by
    intro e hmem
    rw [hentries, List.mem_map] at hmem
    obtain ⟨x, hx, rfl⟩ := hmem
    exact (listens x hx).fits
  have hdecoded : log.entries.map discoverEntry = targets.map fun x => x.1.seenAs x.2 := by
    rw [hentries, List.map_map]
    exact List.map_congr_left fun x hx => (listens x hx).decoded
  rw [← hdecoded]
  exact discover_returns_log hid hlen hnul hreading hctrl hidle hlogs (by rwa [hcount]) fits
    paginated (by rwa [hcount])

end Ports

/-- A target at an IPv4 address, listening on the usual port. -/
def sampleTarget (id : UInt16) : Target where
  port := { trAddr := ascii "10.0.0.1", trsvcID := ascii "4420", trType := 3, adrFam := 1, treq := 0
            id, tsas := .replicate 256 0 }
  subsysNqn := ascii "nqn.s"
  subType := 2

theorem sampleTarget_listens (id : UInt16) : (sampleTarget id).ListensOn 4420 := by
  have hport : ascii "4420" = decimal (4420 : UInt16).toNat := by decide
  have haddr : (ascii "10.0.0.1").length ≤ 256 ∧ (ascii "10.0.0.1").getLast? ≠ some 0 := by decide
  have hnqn : (ascii "nqn.s").length ≤ 256 ∧ (ascii "nqn.s").getLast? ≠ some 0 := by decide
  exact ⟨hport, haddr.1, haddr.2, hnqn.1, hnqn.2⟩

end Session

end DiscoveryClient
