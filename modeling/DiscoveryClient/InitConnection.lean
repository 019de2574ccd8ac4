import DiscoveryClient.CapsuleStream
import DiscoveryClient.ReceivePath

/-! The exchange that opens a connection: the client's initialize request, the server's response to
it, and the client's reading of that. -/

namespace DiscoveryClient

/-- `nvme.TCPIcReqPduType`; the sign of `maxr2t` plays no part. -/
structure TCPIcReqPduType where
  pfv : UInt16
  maxr2t : UInt32
  hpda : UInt8
  digest : UInt8
  reserved : Vector UInt8 112
deriving DecidableEq

namespace TCPIcReqPduType

def fields (p : TCPIcReqPduType) : List Struc.Field :=
  [.uint 2 p.pfv.toNat, .uint 4 p.maxr2t.toNat, .uint 1 p.hpda.toNat, .uint 1 p.digest.toNat,
    .array p.reserved.toList]

def unpack (r : List UInt8) : Option (TCPIcReqPduType × List UInt8) := do
  let (pfv, r) ← Struc.readUint 2 r
  let (maxr2t, r) ← Struc.readUint 4 r
  let (hpda, r) ← Struc.readUint 1 r
  let (digest, r) ← Struc.readUint 1 r
  let (reserved, r) ← Struc.readArray 112 r
  return (⟨.ofNat pfv, .ofNat maxr2t, .ofNat hpda, .ofNat digest, reserved⟩, r)

def record (p : TCPIcReqPduType) : List UInt8 := p.fields.flatMap Struc.Field.bytes

theorem unpack_record (p : TCPIcReqPduType) (r : List UInt8) :
    unpack (p.record ++ r) = some (p, r) := by
  have h₁ : p.pfv.toNat % 256 ^ 2 = p.pfv.toNat := Nat.mod_eq_of_lt p.pfv.toNat_lt
  have h₂ : p.maxr2t.toNat % 256 ^ 4 = p.maxr2t.toNat := Nat.mod_eq_of_lt p.maxr2t.toNat_lt
  have h₃ : p.hpda.toNat % 256 ^ 1 = p.hpda.toNat := Nat.mod_eq_of_lt p.hpda.toNat_lt
  have h₄ : p.digest.toNat % 256 ^ 1 = p.digest.toNat := Nat.mod_eq_of_lt p.digest.toNat_lt
  simp only [unpack, record, fields, Struc.Field.bytes, List.flatMap_cons, List.flatMap_nil,
    List.append_assoc, List.nil_append, Struc.readUint_append, Struc.readArray_append,
    Struc.some_bind, h₁, h₂, h₃, h₄, UInt8.ofNat_toNat, UInt16.ofNat_toNat, UInt32.ofNat_toNat]
  rfl

theorem unpack_eq_some_iff {r : List UInt8} {p : TCPIcReqPduType} {rest : List UInt8} :
    unpack r = some (p, rest) ↔ r = p.record ++ rest := by
  constructor
  · intro hunpack
    obtain ⟨pfv, hpfv, hunpack⟩ := Option.bind_eq_some_iff.mp hunpack
    obtain ⟨maxr2t, hmaxr2t, hunpack⟩ := Option.bind_eq_some_iff.mp hunpack
    obtain ⟨hpda, hhpda, hunpack⟩ := Option.bind_eq_some_iff.mp hunpack
    obtain ⟨digest, hdigest, hunpack⟩ := Option.bind_eq_some_iff.mp hunpack
    obtain ⟨reserved, hreserved, hunpack⟩ := Option.bind_eq_some_iff.mp hunpack
    obtain ⟨e₁, l₁⟩ := Struc.readUint_split hpfv
    obtain ⟨e₂, l₂⟩ := Struc.readUint_split hmaxr2t
    obtain ⟨e₃, l₃⟩ := Struc.readUint_split hhpda
    obtain ⟨e₄, l₄⟩ := Struc.readUint_split hdigest
    have e₅ := Struc.readArray_split hreserved
    cases Option.some.inj hunpack
    have n₁ : (UInt16.ofNat pfv.1).toNat = pfv.1 := UInt16.toNat_ofNat_of_lt l₁
    have n₂ : (UInt32.ofNat maxr2t.1).toNat = maxr2t.1 := UInt32.toNat_ofNat_of_lt l₂
    have n₃ : (UInt8.ofNat hpda.1).toNat = hpda.1 := UInt8.toNat_ofNat_of_lt l₃
    have n₄ : (UInt8.ofNat digest.1).toNat = digest.1 := UInt8.toNat_ofNat_of_lt l₄
    simp only [record, fields, Struc.Field.bytes, List.flatMap_cons, List.flatMap_nil,
      List.append_assoc, List.nil_append, n₁, n₂, n₃, n₄]
    rw [← e₅, ← e₄, ← e₃, ← e₂, ← e₁]
  · rintro rfl
    exact unpack_record p rest

end TCPIcReqPduType

/-- The request of the client: no alignment constraint, no digests. -/
def sendNvmeInitConnection : List UInt8 :=
  TCPHeaderType.record { type := Nvme.tcpIcreq, flags := 0, hlen := 128, pdo := 0, plen := 128 } ++
  TCPIcReqPduType.record
    { pfv := 0, maxr2t := 0, hpda := 0, digest := 0, reserved := .replicate 112 0 }

namespace Nvme

/-- How `nvmeConnect` ends without a response. -/
inductive InitConnectionError
  | stream (err : StreamError)
  | pduType (type : UInt8)
  | unpack
  | pduLength (hlen : UInt8)
  | pfv (pfv : UInt16)
  | hpda (hpda : UInt8)
deriving DecidableEq, Repr

/-- The bytes of the header and of `TCPIcrespPdu`: `Pfv`, `Cpda`, `Digest`, `Maxdata`, `Reserved`. -/
def connectResp : List UInt8 :=
  TCPHeaderType.record { type := nvmeTcpIcresp, flags := 0, hlen := 128, pdo := 0, plen := 128 } ++
  [Struc.Field.uint 2 0, .uint 1 0, .uint 1 0, .uint 4 0x10000,
    .array (List.replicate 112 0)].flatMap Struc.Field.bytes

/-- `tcpQueue.nvmeConnect`: the response and what is left of the stream. The error about a wrong
length tells the length of the header. -/
def nvmeConnect (stream : List UInt8) :
    Except InitConnectionError (List UInt8 × List UInt8) :=
  match recvTCPHeader stream with
  | .error err => .error (.stream err)
  | .ok (hdr, stream) =>
    if hdr.type ≠ tcpIcreq then .error (.pduType hdr.type)
    else
      match TCPIcReqPduType.unpack stream with
      | none => .error .unpack
      | some (icReq, stream) =>
        if hdr.plen ≠ 128 then .error (.pduLength hdr.hlen)
        else if icReq.pfv ≠ 0 then .error (.pfv icReq.pfv)
        else if icReq.hpda ≠ 0 then .error (.hpda icReq.hpda)
        else .ok (connectResp, stream)

/-- The header of an initialize request; its flags and its data offset are not looked at. -/
structure IcReqHeader (hdr : TCPHeaderType) : Prop where
  type : hdr.type = tcpIcreq
  hlen : hdr.hlen = 128
  plen : hdr.plen = 128

/-- The version and alignment that the server supports; the digests the host asks for and its R2T
limit are not looked at. -/
structure Supported (icReq : TCPIcReqPduType) : Prop where
  pfv : icReq.pfv = 0
  hpda : icReq.hpda = 0

theorem recvTCPHeader_icreq_iff {stream rest : List UInt8} {hdr : TCPHeaderType}
    (htype : hdr.type = tcpIcreq) :
    recvTCPHeader stream = .ok (hdr, rest) ↔ stream = hdr.record ++ rest ∧ hdr.hlen = 128 := by
  have hsize : pduSize tcpIcreq = some 128 := rfl
  have hhlen : hdr.hlen.toNat ≠ 128 ↔ hdr.hlen ≠ 128 := by
    rw [ne_eq, ne_eq, not_iff_not]
    exact ⟨fun h => UInt8.toNat_inj.mp h, fun h => by rw [h]; rfl⟩
  constructor
  · intro h
    unfold recvTCPHeader at h
    split at h
    next => cases h
    next hdr' stream' hunpack =>
      split at h
      next => cases h
      next size hpdu =>
        split at h
        next => cases h
        next hlen =>
          cases h
          rw [htype, hsize, Option.some.injEq] at hpdu
          rw [← hpdu, hhlen, not_not] at hlen
          exact ⟨TCPHeaderType.unpack_eq_some_iff.mp hunpack, hlen⟩
  · rintro ⟨rfl, hlen⟩
    have hok : ¬hdr.hlen.toNat ≠ 128 := by
      rw [hhlen, not_not]
      exact hlen
    simp only [recvTCPHeader, TCPHeaderType.unpack_record, htype, hsize, if_neg hok]

/-- A stream is accepted exactly when it starts with a request that the server supports. -/
theorem nvmeConnect_eq_ok_iff {stream reply rest : List UInt8} :
    nvmeConnect stream = .ok (reply, rest) ↔ reply = connectResp ∧
      ∃ hdr icReq, IcReqHeader hdr ∧ Supported icReq ∧
        stream = hdr.record ++ TCPIcReqPduType.record icReq ++ rest := by
  constructor
  · intro h
    unfold nvmeConnect at h
    split at h
    next => cases h
    next hdr stream' hheader =>
      by_cases htype : hdr.type = tcpIcreq
      case neg =>
        rw [if_pos htype] at h
        cases h
      rw [if_neg (not_not.mpr htype)] at h
      obtain ⟨rfl, hlen⟩ := (recvTCPHeader_icreq_iff htype).mp hheader
      cases hunpack : TCPIcReqPduType.unpack stream' with
      | none => simp [hunpack] at h
      | some x =>
        obtain ⟨icReq, rest'⟩ := x
        simp only [hunpack] at h
        split_ifs at h with hplen hpfv hhpda
        rw [not_not] at hplen hpfv hhpda
        cases h
        rw [TCPIcReqPduType.unpack_eq_some_iff] at hunpack
        refine ⟨rfl, hdr, icReq, ⟨htype, hlen, hplen⟩, ⟨hpfv, hhpda⟩, ?_⟩
        rw [hunpack, List.append_assoc]
  · rintro ⟨rfl, hdr, icReq, header, supported, rfl⟩
    have hheader := (recvTCPHeader_icreq_iff header.type).mpr
      ⟨List.append_assoc hdr.record icReq.record rest, header.hlen⟩
    simp only [nvmeConnect, hheader, header.type, TCPIcReqPduType.unpack_record, header.plen,
      supported.pfv, supported.hpda, ne_eq, not_true_eq_false, if_false]

/-- The client takes the response, whatever is outstanding and whatever follows. -/
theorem handleRecv_connectResp (outstanding : Outstanding) (rest : List UInt8) :
    handleRecv outstanding (connectResp ++ rest) = some (outstanding, .ok (rest, none)) := by
  obtain ⟨hdr, hhdr⟩ : ∃ hdr : TCPHeaderType, hdr = ⟨nvmeTcpIcresp, 0, 128, 0, 128⟩ := ⟨_, rfl⟩
  obtain ⟨pdu, hpdu⟩ : ∃ pdu : List UInt8, pdu = [Struc.Field.uint 2 0, .uint 1 0, .uint 1 0,
    .uint 4 0x10000, .array (List.replicate 112 0)].flatMap Struc.Field.bytes := ⟨_, rfl⟩
  have hlen : pdu.length = 120 := by
    simp [hpdu, Struc.Field.bytes, -List.reduceReplicate]
  have hresp : connectResp = hdr.record ++ pdu := by
    rw [hhdr, hpdu]
    rfl
  have hread := Struc.readFull_append pdu rest
  have hreserved := Struc.readFull_append (List.replicate 112 0) []
  rw [List.length_replicate] at hreserved
  have hunpack : TCPIcrespPdu.unpack pdu = some (⟨0, 0⟩, []) := by
    simp only [hpdu, TCPIcrespPdu.unpack, Struc.Field.bytes, List.flatMap_cons, List.flatMap_nil,
      Struc.readUint_append, Struc.some_bind, hreserved]
    rfl
  have hparse : parseResponse outstanding nvmeTcpIcresp pdu = some (outstanding, .ok none) := by
    simp [parseResponse, recvNvmeInitConnResponse, hunpack]
  have hheader : DiscoveryClient.recvTCPHeader (hdr.record ++ (pdu ++ rest)) =
      some (.ok (hdr, pdu ++ rest)) := by
    rw [DiscoveryClient.recvTCPHeader, TCPHeaderType.unpack_record, hhdr]
    rfl
  have hleft : rcvLeft hdr = 120 := by
    rw [hhdr]
    rfl
  have hnonneg : ¬(120 : Int) < 0 := by decide
  rw [hlen] at hread
  rw [hresp, List.append_assoc, handleRecv]
  have hcount : (120 : Int).toNat = 120 := rfl
  simp only [hheader, hleft, if_neg hnonneg, hcount, hread]
  rw [hhdr]
  simp only [hparse]

/-- The exchange that opens a connection: which streams the server accepts, that the client takes the
response to any of them, and that what the client sends is one of them. -/
theorem init_connection_iff (stream reply rest next : List UInt8) (outstanding : Outstanding) :
    (nvmeConnect stream = .ok (reply, rest) ↔ reply = connectResp ∧
      ∃ hdr icReq, IcReqHeader hdr ∧ Supported icReq ∧
        stream = hdr.record ++ TCPIcReqPduType.record icReq ++ rest) ∧
    (nvmeConnect stream = .ok (reply, rest) →
      handleRecv outstanding (reply ++ next) = some (outstanding, .ok (next, none))) ∧
    nvmeConnect (sendNvmeInitConnection ++ next) = .ok (connectResp, next) := by
  refine ⟨nvmeConnect_eq_ok_iff, fun haccepted => ?_, ?_⟩
  · rw [(nvmeConnect_eq_ok_iff.mp haccepted).1]
    exact handleRecv_connectResp outstanding next
  · exact nvmeConnect_eq_ok_iff.mpr ⟨rfl, _, _, ⟨rfl, rfl, rfl⟩, ⟨rfl, rfl⟩, rfl⟩

end Nvme

end DiscoveryClient
