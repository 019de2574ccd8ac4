import DiscoveryClient.CommandQueue
import DiscoveryClient.LogPageClient
import DiscoveryClient.TcpPdu

namespace DiscoveryClient

inductive RecvError
  | read
  | pduType (type : UInt8)
  | hlen (type hlen : UInt8)
  | unpack
  | pfv (pfv : UInt16)
  | cpda (cpda : UInt8)
  | status (commandID status : UInt16)
  | shortBuffer
deriving DecidableEq, Repr

/-- A request of the client, with what has arrived for it. -/
structure Request where
  command : QueueCommand
  data : Option ScatterList := none
  completion : Option Completion := none
deriving DecidableEq

/-- `outstandingRequests`, by command ID. -/
abbrev Outstanding := GoMap UInt16 Request

def nvmeTcpIcresp : UInt8 := 0x1
def nvmeTcpRsp : UInt8 := 0x5
def nvmeTcpC2hData : UInt8 := 0x7

/-- The length of the header of a PDU; `none` when it panics. -/
def pduSize (pduType : UInt8) : Option Nat :=
  if pduType = nvmeTcpIcresp then some 128
  else if pduType = nvmeTcpRsp then some 24
  else if pduType = nvmeTcpC2hData then some 24
  else none

def pduValid (pduType : UInt8) : Bool :=
  pduType = nvmeTcpIcresp || pduType = nvmeTcpRsp || pduType = nvmeTcpC2hData

/-- The header and what follows it in the stream; `none` when it panics. -/
def recvTCPHeader (stream : List UInt8) : Option (Except RecvError (TCPHeaderType × List UInt8)) :=
  match TCPHeaderType.unpack stream with
  | none => some (.error .read)
  | some (hdr, stream) =>
    if pduValid hdr.type then
      match pduSize hdr.type with
      | none => none
      | some size =>
        if hdr.hlen.toNat ≠ size then some (.error (.hlen hdr.type hdr.hlen))
        else some (.ok (hdr, stream))
    else some (.error (.pduType hdr.type))

def recvNvmeInitConnResponse (pduReader : List UInt8) : Except RecvError TCPIcrespPdu :=
  match TCPIcrespPdu.unpack pduReader with
  | none => .error .unpack
  | some (icresp, _) =>
    if icresp.pfv ≠ 0 then .error (.pfv icresp.pfv)
    else if icresp.cpda ≠ 0 then .error (.cpda icresp.cpda)
    else .ok icresp

/-- A completion with a status other than success is returned together with an error. -/
def recvCqe (pduReader : List UInt8) : Option Completion × Option RecvError :=
  match Completion.unpack pduReader with
  | none => (none, some .unpack)
  | some (cqe, _) =>
    if cqe.status ≠ 0 then (some cqe, some (.status cqe.commandID cqe.status)) else (some cqe, none)

/-- The descriptor of a data PDU, and the reader with the data behind it. -/
def recvTCPDataPdu (pduReader : List UInt8) : Except RecvError (TCPDataPDU × List UInt8) :=
  match TCPDataPDU.unpack pduReader with
  | none => .error .unpack
  | some c2hData => .ok c2hData

/-- The request with the data of a PDU in a new list, and whether all of it fitted in. -/
def Request.receive (request : Request) (c2hData : TCPDataPDU) (pduReader : List UInt8) :
    Request × Option SglError :=
  let length := c2hData.dataLength.toNat
  let w : ScatterListWriter := { sgl := newScatterList length (min 1024 length) }
  ({ request with data := some (w.write pduReader).1.sgl }, (w.write pduReader).2.2)

/-- The outstanding requests after a PDU, and the request it is for; `none` when it panics. -/
def parseResponse (outstanding : Outstanding) (pduType : UInt8) (pdu : List UInt8) :
    Option (Outstanding × Except RecvError (Option Request)) :=
  if pduType = nvmeTcpIcresp then
    match recvNvmeInitConnResponse pdu with
    | .error err => some (outstanding, .error err)
    | .ok _ => some (outstanding, .ok none)
  else if pduType = nvmeTcpRsp then
    match recvCqe pdu with
    | (none, some err) => some (outstanding, .error err)
    | (none, none) => none
    | (some cqe, err) =>
      match outstanding.lookup cqe.commandID with
      | none =>
        match err with
        | some err => some (outstanding, .error err)
        | none => some (outstanding, .ok none)
      | some request =>
        some (outstanding.erase cqe.commandID, .ok (some { request with completion := some cqe }))
  else if pduType = nvmeTcpC2hData then
    match recvTCPDataPdu pdu with
    | .error err => some (outstanding, .error err)
    | .ok (c2hData, pduReader) =>
      match outstanding.lookup c2hData.commandID with
      | none => some (outstanding, .ok none)
      | some request =>
        let (request, err) := request.receive c2hData pduReader
        let outstanding := outstanding.insert c2hData.commandID request
        match err with
        | some _ => some (outstanding, .error .shortBuffer)
        | none => some (outstanding, .ok (some request))
  else none

/-- How many bytes of the PDU follow its header. -/
def rcvLeft (hdr : TCPHeaderType) : Int := hdr.plen.toNat - 8

/-- The outstanding requests, and either an error or the rest of the stream with the completed
request that is offered to its sender; `none` when it panics, as `make` does for a negative length. -/
def handleRecv (outstanding : Outstanding) (stream : List UInt8) :
    Option (Outstanding × Except RecvError (List UInt8 × Option Request)) :=
  match recvTCPHeader stream with
  | none => none
  | some (.error err) => some (outstanding, .error err)
  | some (.ok (hdr, stream)) =>
    if rcvLeft hdr < 0 then none
    else
      match Struc.readFull (rcvLeft hdr).toNat stream with
      | none => some (outstanding, .error .read)
      | some (pdu, stream) =>
        match parseResponse outstanding hdr.type pdu with
        | none => none
        | some (outstanding, .error err) => some (outstanding, .error err)
        | some (outstanding, .ok none) => some (outstanding, .ok (stream, none))
        | some (outstanding, .ok (some request)) =>
          some (outstanding,
            .ok (stream, if request.completion.isSome then some request else none))

/-- One step is safe: it returns, what it offers is a request that was outstanding, and the length it
reads is not negative. -/
structure RecvSafe (outstanding : Outstanding) (stream : List UInt8) : Prop where
  returns : handleRecv outstanding stream ≠ none
  matched : ∀ outstanding' rest request,
    handleRecv outstanding stream = some (outstanding', .ok (rest, some request)) →
      ∃ id old, outstanding.lookup id = some old ∧ request.command = old.command
  length : ∀ hdr rest, recvTCPHeader stream = some (.ok (hdr, rest)) → 0 ≤ rcvLeft hdr

section Safe

variable {outstanding outstanding' : Outstanding} {stream pdu rest : List UInt8}
  {hdr : TCPHeaderType} {request : Request} {type : UInt8}

theorem pduSize_of_valid (h : pduValid type = true) : ∃ size, pduSize type = some size := by
  simp only [pduValid, Bool.or_eq_true, decide_eq_true_eq] at h
  rcases h with (rfl | rfl) | rfl
  · exact ⟨128, rfl⟩
  · exact ⟨24, rfl⟩
  · exact ⟨24, rfl⟩

theorem recvTCPHeader_ne_none (stream : List UInt8) : recvTCPHeader stream ≠ none := by
  unfold recvTCPHeader
  split
  next => simp
  next hdr stream _ =>
    split
    next hvalid =>
      obtain ⟨size, hsize⟩ := pduSize_of_valid hvalid
      simp only [hsize]
      split <;> simp
    next => simp

theorem recvTCPHeader_ok_iff :
    recvTCPHeader stream = some (.ok (hdr, rest)) ↔ stream = hdr.record ++ rest ∧
      pduValid hdr.type = true ∧ pduSize hdr.type = some hdr.hlen.toNat := by
  rw [← TCPHeaderType.unpack_eq_some_iff, recvTCPHeader]
  cases TCPHeaderType.unpack stream with
  | none => simp
  | some x =>
    obtain ⟨found, left⟩ := x
    simp only [Option.some.injEq, Prod.mk.injEq]
    constructor
    · intro h
      split at h
      next hvalid =>
        split at h
        next => simp at h
        next size hsize =>
          split at h
          next => simp at h
          next hhlen =>
            simp only [Option.some.injEq, Except.ok.injEq, Prod.mk.injEq] at h
            obtain ⟨rfl, rfl⟩ := h
            have heq : found.hlen.toNat = size := not_not.mp hhlen
            exact ⟨⟨rfl, rfl⟩, hvalid, by rw [hsize, heq]⟩
      next => simp at h
    · rintro ⟨⟨rfl, rfl⟩, hvalid, hsize⟩
      simp [hvalid, hsize]

theorem recvCqe_cases (pduReader : List UInt8) :
    recvCqe pduReader = (none, some .unpack) ∨ ∃ cqe err, recvCqe pduReader = (some cqe, err) := by
  unfold recvCqe
  split
  next => exact Or.inl rfl
  next cqe _ _ =>
    right
    split
    next => exact ⟨cqe, _, rfl⟩
    next => exact ⟨cqe, none, rfl⟩

/-- What a PDU can do to the outstanding requests, and what it yields. -/
inductive Response (outstanding : Outstanding) :
    Outstanding → Except RecvError (Option Request) → Prop
  | fails (err : RecvError) : Response outstanding outstanding (.error err)
  | nothing : Response outstanding outstanding (.ok none)
  | completes {cqe : Completion} {old : Request} : outstanding.lookup cqe.commandID = some old →
      Response outstanding (outstanding.erase cqe.commandID)
        (.ok (some { old with completion := some cqe }))
  | stores {c2hData : TCPDataPDU} {old : Request} {pduReader : List UInt8} :
      outstanding.lookup c2hData.commandID = some old →
      Response outstanding
        (outstanding.insert c2hData.commandID (old.receive c2hData pduReader).1)
        (.ok (some (old.receive c2hData pduReader).1))
  | overflows {c2hData : TCPDataPDU} {old : Request} {pduReader : List UInt8} :
      outstanding.lookup c2hData.commandID = some old →
      Response outstanding
        (outstanding.insert c2hData.commandID (old.receive c2hData pduReader).1)
        (.error .shortBuffer)

theorem parseResponse_response (h : pduValid type = true) :
    ∃ outstanding' result, parseResponse outstanding type pdu = some (outstanding', result) ∧
      Response outstanding outstanding' result := by
  simp only [pduValid, Bool.or_eq_true, decide_eq_true_eq] at h
  rcases h with (rfl | rfl) | rfl
  · rw [parseResponse, if_pos rfl]
    cases recvNvmeInitConnResponse pdu with
    | error err => exact ⟨_, _, rfl, .fails err⟩
    | ok icresp => exact ⟨_, _, rfl, .nothing⟩
  · rw [parseResponse, if_neg (by decide), if_pos rfl]
    rcases recvCqe_cases pdu with hcqe | ⟨cqe, err, hcqe⟩
    · simp only [hcqe]
      exact ⟨_, _, rfl, .fails .unpack⟩
    simp only [hcqe]
    cases hold : outstanding.lookup cqe.commandID with
    | none =>
      cases err with
      | none => exact ⟨_, _, rfl, .nothing⟩
      | some err => exact ⟨_, _, rfl, .fails err⟩
    | some old => exact ⟨_, _, rfl, .completes hold⟩
  · rw [parseResponse, if_neg (by decide), if_neg (by decide), if_pos rfl]
    cases recvTCPDataPdu pdu with
    | error err => exact ⟨_, _, rfl, .fails err⟩
    | ok x =>
      obtain ⟨c2hData, pduReader⟩ := x
      simp only
      cases hold : outstanding.lookup c2hData.commandID with
      | none => exact ⟨_, _, rfl, .nothing⟩
      | some old =>
        cases herr : (old.receive c2hData pduReader).2 with
        | none => exact ⟨_, _, by simp only [herr]; rfl, .stores hold⟩
        | some err => exact ⟨_, _, by simp only [herr]; rfl, .overflows hold⟩

theorem Response.matched (h : Response outstanding outstanding' (.ok (some request))) :
    ∃ id old, outstanding.lookup id = some old ∧ request.command = old.command := by
  cases h with
  | completes hold => exact ⟨_, _, hold, rfl⟩
  | stores hold => exact ⟨_, _, hold, rfl⟩

/-- The only panic is the allocation of a negative length. -/
theorem handleRecv_eq_none_iff :
    handleRecv outstanding stream = none ↔
      ∃ hdr rest, recvTCPHeader stream = some (.ok (hdr, rest)) ∧ rcvLeft hdr < 0 := by
  unfold handleRecv
  rcases hheader : recvTCPHeader stream with _ | (err | ⟨hdr, rest⟩)
  · exact absurd hheader (recvTCPHeader_ne_none stream)
  · simp
  · have hvalid := (recvTCPHeader_ok_iff.mp hheader).2.1
    simp only [Option.some.injEq, Except.ok.injEq, Prod.mk.injEq]
    by_cases hneg : rcvLeft hdr < 0
    · simp only [if_pos hneg, true_iff]
      exact ⟨hdr, rest, ⟨rfl, rfl⟩, hneg⟩
    rw [if_neg hneg]
    refine iff_of_false ?_ ?_
    · cases Struc.readFull (rcvLeft hdr).toNat rest with
      | none => simp
      | some x =>
        obtain ⟨pdu, rest⟩ := x
        obtain ⟨outstanding', result, hparse, -⟩ :=
          @parseResponse_response outstanding pdu hdr.type hvalid
        simp only [hparse]
        rcases result with err | (_ | request) <;> simp
    · rintro ⟨hdr', rest', ⟨rfl, rfl⟩, hlt⟩
      exact hneg hlt

theorem handleRecv_matched
    (h : handleRecv outstanding stream = some (outstanding', .ok (rest, some request))) :
    ∃ id old, outstanding.lookup id = some old ∧ request.command = old.command := by
  unfold handleRecv at h
  rcases hheader : recvTCPHeader stream with _ | (err | ⟨hdr, left⟩)
  · simp [hheader] at h
  · simp [hheader] at h
  have hvalid := (recvTCPHeader_ok_iff.mp hheader).2.1
  simp only [hheader] at h
  split at h
  next => simp at h
  split at h
  next => simp at h
  next pdu left' _ =>
    obtain ⟨o, result, hparse, hresponse⟩ := @parseResponse_response outstanding pdu hdr.type hvalid
    simp only [hparse] at h
    rcases result with err | (_ | found)
    · simp at h
    · simp at h
    · simp only [Option.some.injEq, Prod.mk.injEq, Except.ok.injEq] at h
      obtain ⟨-, -, hoffered⟩ := h
      split at hoffered
      next =>
        cases Option.some.inj hoffered
        exact hresponse.matched
      next => simp at hoffered

end Safe

/-- A step is safe exactly when no header that passes the checks announces a length that is less
than its own. -/
theorem handleRecv_safe_iff (outstanding : Outstanding) (stream : List UInt8) :
    RecvSafe outstanding stream ↔
      ∀ hdr rest, stream = TCPHeaderType.record hdr ++ rest → pduValid hdr.type = true →
        pduSize hdr.type = some hdr.hlen.toNat → 8 ≤ hdr.plen.toNat := by
  constructor
  · intro safe hdr rest hstream hvalid hsize
    have hlen := safe.length hdr rest (recvTCPHeader_ok_iff.mpr ⟨hstream, hvalid, hsize⟩)
    unfold rcvLeft at hlen
    omega
  · intro h
    have hlength : ∀ hdr rest, recvTCPHeader stream = some (.ok (hdr, rest)) → 0 ≤ rcvLeft hdr := by
      intro hdr rest hheader
      obtain ⟨hstream, hvalid, hsize⟩ := recvTCPHeader_ok_iff.mp hheader
      have hplen := h hdr rest hstream hvalid hsize
      unfold rcvLeft
      omega
    refine ⟨?_, fun _ _ _ => handleRecv_matched, hlength⟩
    intro hnone
    obtain ⟨hdr, rest, hheader, hneg⟩ := handleRecv_eq_none_iff.mp hnone
    have hle := hlength hdr rest hheader
    omega

/-- The completion of an outstanding keep alive. -/
theorem handleRecv_safe_iff_completion :
    RecvSafe (AList.singleton 0 ⟨.keepAlive, none, none⟩)
      (TCPHeaderType.record ⟨nvmeTcpRsp, 0, 24, 0, 24⟩ ++
        Completion.record ⟨.replicate 8 0, 0, 0, 0, 0⟩) := by
  refine (handleRecv_safe_iff _ _).mpr fun hdr rest hstream _ _ => ?_
  have hread := TCPHeaderType.unpack_record ⟨nvmeTcpRsp, 0, 24, 0, 24⟩
    (Completion.record ⟨.replicate 8 0, 0, 0, 0, 0⟩)
  rw [TCPHeaderType.unpack_eq_some_iff.mpr hstream] at hread
  cases Option.some.inj hread
  decide

/-- A completion whose header announces a length of 0. -/
theorem handleRecv_panics : ¬∀ outstanding stream, RecvSafe outstanding stream := by
  intro h
  exact (h ∅ (TCPHeaderType.record ⟨nvmeTcpRsp, 0, 24, 0, 0⟩)).returns (by decide)

end DiscoveryClient
