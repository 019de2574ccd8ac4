import DiscoveryClient.ReceivePath

namespace DiscoveryClient

open TcpQueue (recvData recvData_eq)

/-- A data PDU of the server: its data, and those of its fields that are free. -/
structure C2HData where
  flags : UInt8
  pdo : UInt8
  tTag : UInt16
  reserved : Vector UInt8 4
  data : List UInt8
  length_lt : data.length + 24 < 2 ^ 32

namespace C2HData

def header (p : C2HData) : TCPHeaderType :=
  ⟨nvmeTcpC2hData, p.flags, 24, p.pdo, .ofNat (p.data.length + 24)⟩

def descriptor (p : C2HData) (commandID : UInt16) (offset : Nat) : TCPDataPDU :=
  ⟨commandID, p.tTag, .ofNat offset, .ofNat p.data.length, p.reserved⟩

/-- The PDU as it is sent for a command, with its data at the offset in the payload. -/
def bytes (p : C2HData) (commandID : UInt16) (offset : Nat) : List UInt8 :=
  p.header.record ++ (p.descriptor commandID offset).record ++ p.data

end C2HData

/-- The PDUs of a payload one after the other, from the offset on. -/
def dataPdus (commandID : UInt16) : Nat → List C2HData → List UInt8
  | _, [] => []
  | offset, p :: ps => p.bytes commandID offset ++ dataPdus commandID (offset + p.data.length) ps

def payload (ps : List C2HData) : List UInt8 := ps.flatMap (·.data)

/-- A completion as it is sent. -/
def rspPdu (flags : UInt8) (cqe : Completion) : List UInt8 :=
  TCPHeaderType.record ⟨nvmeTcpRsp, flags, 24, 0, 24⟩ ++ cqe.record

/-- The loop of `recvPdu` up to the first request that is offered to its sender, for at most `fuel`
PDUs; `none` when it panics or none is offered. -/
def recvPdu : Nat → Outstanding → List UInt8 → Option (Except RecvError Request)
  | 0, _, _ => none
  | fuel + 1, outstanding, stream =>
    match handleRecv outstanding stream with
    | none => none
    | some (_, .error err) => some (.error err)
    | some (outstanding, .ok (stream, none)) => recvPdu fuel outstanding stream
    | some (_, .ok (_, some request)) => some (.ok request)

section Receive

variable {outstanding : Outstanding} {commandID : UInt16} {old : Request} {p : C2HData}
  {ps : List C2HData} {flags : UInt8} {cqe : Completion} {offset fuel : Nat} {rest : List UInt8}

/-- Data of the announced length fills the new list. -/
theorem Request.receive_exact {c2hData : TCPDataPDU} {data : List UInt8} (request : Request)
    (h : c2hData.dataLength.toNat = data.length) :
    request.receive c2hData data = ({ request with data := some (recvData data) }, none) := by
  rw [Request.receive, h]
  refine Prod.ext rfl ?_
  by_cases hnil : data = []
  · subst hnil
    rfl
  have hpos := List.length_pos_iff.mpr hnil
  have hnew := @ScatterList.at_new data.length (min 1024 data.length) (by omega)
  obtain ⟨-, hret⟩ := @ScatterListWriter.write_zeros
    { sgl := newScatterList data.length (min 1024 data.length) } [] data data.length hnew
    (Nat.le_refl _)
  have herr := congrArg Prod.snd hret
  exact herr

theorem C2HData.rcvLeft_header (p : C2HData) : rcvLeft p.header = (p.data.length + 16 : Nat) := by
  have hplen : p.header.plen.toNat = p.data.length + 24 := by
    rw [header, UInt32.toNat_ofNat', Nat.mod_eq_of_lt p.length_lt]
  rw [rcvLeft, hplen]
  omega

theorem parseResponse_data (hold : outstanding.lookup commandID = some old) :
    parseResponse outstanding nvmeTcpC2hData ((p.descriptor commandID offset).record ++ p.data) =
      some (outstanding.insert commandID { old with data := some (recvData p.data) },
        .ok (some { old with data := some (recvData p.data) })) := by
  have hdata : recvTCPDataPdu ((p.descriptor commandID offset).record ++ p.data) =
      .ok (p.descriptor commandID offset, p.data) := by
    rw [recvTCPDataPdu, TCPDataPDU.unpack_record]
  have hlength : (p.descriptor commandID offset).dataLength.toNat = p.data.length := by
    have hlt := p.length_lt
    rw [C2HData.descriptor, UInt32.toNat_ofNat', Nat.mod_eq_of_lt (by omega)]
  have hlookup : outstanding.lookup (p.descriptor commandID offset).commandID = some old := hold
  rw [parseResponse, if_neg (by decide), if_neg (by decide), if_pos rfl]
  simp only [hdata, hlookup, old.receive_exact hlength]
  rfl

/-- A data PDU replaces the data of its request, whatever its offset says. -/
theorem handleRecv_data (hold : outstanding.lookup commandID = some old)
    (hopen : old.completion = none) :
    handleRecv outstanding (p.bytes commandID offset ++ rest) =
      some (outstanding.insert commandID { old with data := some (recvData p.data) },
        .ok (rest, none)) := by
  have hheader : recvTCPHeader (p.bytes commandID offset ++ rest) =
      some (.ok (p.header, (p.descriptor commandID offset).record ++ p.data ++ rest)) := by
    refine recvTCPHeader_ok_iff.mpr ⟨?_, rfl, rfl⟩
    simp only [C2HData.bytes, List.append_assoc]
  have hpdu : ((p.descriptor commandID offset).record ++ p.data).length = p.data.length + 16 := by
    rw [List.length_append, TCPDataPDU.record_length]
    omega
  have hread := Struc.readFull_append ((p.descriptor commandID offset).record ++ p.data) rest
  rw [hpdu] at hread
  have hparse := @parseResponse_data outstanding commandID old p offset hold
  have htype : p.header.type = nvmeTcpC2hData := rfl
  rw [handleRecv, hheader]
  simp only [p.rcvLeft_header, Int.toNat_natCast, hread, htype, hparse, hopen]
  rw [if_neg (by omega)]
  rfl

theorem handleRecv_completion (hold : outstanding.lookup cqe.commandID = some old) :
    handleRecv outstanding (rspPdu flags cqe ++ rest) =
      some (outstanding.erase cqe.commandID,
        .ok (rest, some { old with completion := some cqe })) := by
  have hheader : recvTCPHeader (rspPdu flags cqe ++ rest) =
      some (.ok (⟨nvmeTcpRsp, flags, 24, 0, 24⟩, cqe.record ++ rest)) := by
    refine recvTCPHeader_ok_iff.mpr ⟨?_, rfl, rfl⟩
    simp only [rspPdu, List.append_assoc]
  have hread := Struc.readFull_append cqe.record rest
  rw [cqe.record_length] at hread
  have hunpack := cqe.unpack_record []
  rw [List.append_nil] at hunpack
  have hparse : parseResponse outstanding nvmeTcpRsp cqe.record =
      some (outstanding.erase cqe.commandID, .ok (some { old with completion := some cqe })) := by
    rw [parseResponse, if_neg (by decide), if_pos rfl, recvCqe, hunpack]
    by_cases hstatus : cqe.status = 0 <;> simp [hstatus, hold]
  have hleft : rcvLeft ⟨nvmeTcpRsp, flags, 24, 0, 24⟩ = (16 : Nat) := rfl
  rw [handleRecv, hheader]
  simp only [hleft, Int.toNat_natCast, hread, hparse]
  rw [if_neg (by omega)]
  rfl

/-- Of consecutive data PDUs the last one is left when the completion comes. -/
theorem recvPdu_data (hold : outstanding.lookup commandID = some old) (hopen : old.completion = none)
    (hid : cqe.commandID = commandID) :
    recvPdu (ps.length + 1) outstanding (dataPdus commandID offset ps ++ rspPdu flags cqe ++ rest) =
      some (.ok
        { command := old.command
          data := (ps.getLast?.map fun p => some (recvData p.data)).getD old.data
          completion := some cqe }) := by
  subst hid
  induction ps generalizing outstanding old offset with
  | nil =>
    rw [dataPdus, List.nil_append, recvPdu, handleRecv_completion hold]
    rfl
  | cons p ps ih =>
    have hstored : (outstanding.insert cqe.commandID
        { old with data := some (recvData p.data) }).lookup cqe.commandID =
        some { old with data := some (recvData p.data) } := AList.lookup_insert _
    have hrest := @ih _ { old with data := some (recvData p.data) } (offset + p.data.length) hopen
      hstored
    rw [dataPdus, List.append_assoc, List.append_assoc, List.length_cons, recvPdu,
      handleRecv_data hold hopen]
    rw [List.append_assoc] at hrest
    simp only [hrest]
    cases ps with
    | nil => rfl
    | cons q qs => rw [List.getLast?_cons_cons, List.getLast?_cons]; rfl

end Receive

theorem payload_eq_last_iff {ps : List C2HData} {last : C2HData} (hlast : ps.getLast? = some last) :
    last.data = payload ps ↔ ∀ p ∈ ps.dropLast, p.data = [] := by
  obtain ⟨before, rfl⟩ := List.getLast?_eq_some_iff.mp hlast
  have hpayload : payload (before ++ [last]) = payload before ++ last.data := by
    simp [payload]
  rw [hpayload, List.dropLast_concat, eq_comm, List.append_left_eq_self, payload,
    List.flatMap_eq_nil_iff]

/-- The request has the payload when it is completed exactly when all of it came in the last PDU. -/
theorem data_reassembled_iff (outstanding : Outstanding) (commandID : UInt16) (old : Request)
    (hold : outstanding.lookup commandID = some old) (hopen : old.completion = none)
    (ps : List C2HData) (hps : ps ≠ []) (flags : UInt8) (cqe : Completion)
    (hid : cqe.commandID = commandID) (rest : List UInt8) :
    (∃ request sgl, recvPdu (ps.length + 1) outstanding
        (dataPdus commandID 0 ps ++ rspPdu flags cqe ++ rest) = some (.ok request) ∧
      request.completion = some cqe ∧ request.data = some sgl ∧ sgl.copyOut = payload ps) ↔
      ∀ p ∈ ps.dropLast, p.data = [] := by
  have hlast : ps.getLast? = some (ps.getLast hps) := List.getLast?_eq_some_getLast hps
  have hcopy := (recvData_eq (ps.getLast hps).data).1
  rw [← payload_eq_last_iff hlast, ← hcopy, recvPdu_data hold hopen hid, hlast]
  simp

/-- A PDU with one byte of data. -/
def sampleData (byte : UInt8) : C2HData :=
  ⟨0, 24, 0, .replicate 4 0, [byte], by rw [List.length_singleton]; decide⟩

/-- The completion of the command with ID 1. -/
def sampleCompletion (status : UInt16) : Completion := ⟨.replicate 8 0, 0, 0, 1, status⟩

/-- One command is outstanding, under ID 1. -/
def sampleOutstanding (command : QueueCommand) : Outstanding := AList.singleton 1 ⟨command, none, none⟩

theorem data_reassembled_iff_one_pdu :
    ∃ request sgl, recvPdu 2 (sampleOutstanding .identify)
        (dataPdus 1 0 [sampleData 7] ++ rspPdu 0 (sampleCompletion 0) ++ []) = some (.ok request) ∧
      request.completion = some (sampleCompletion 0) ∧ request.data = some sgl ∧
      sgl.copyOut = [7] :=
  (data_reassembled_iff (sampleOutstanding .identify) 1 ⟨.identify, none, none⟩ rfl rfl
    [sampleData 7] (by simp) 0 (sampleCompletion 0) rfl []).mpr (by simp)

/-- Of two PDUs the first one is lost. -/
theorem first_pdu_lost :
    ¬∀ (outstanding : Outstanding) (commandID : UInt16) (old : Request),
      outstanding.lookup commandID = some old → old.completion = none →
      ∀ ps : List C2HData, ps ≠ [] → ∀ (flags : UInt8) (cqe : Completion),
        cqe.commandID = commandID → cqe.status = 0 → ∀ rest : List UInt8,
          ∃ request sgl, recvPdu (ps.length + 1) outstanding
              (dataPdus commandID 0 ps ++ rspPdu flags cqe ++ rest) = some (.ok request) ∧
            request.completion = some cqe ∧ request.data = some sgl ∧
            sgl.copyOut = payload ps := by
  intro h
  obtain ⟨request, sgl, hrecv, -, hdata, hcopy⟩ := h (sampleOutstanding .identify) 1
    ⟨.identify, none, none⟩ rfl rfl [sampleData 7, sampleData 8] (by simp) 0 (sampleCompletion 0) rfl
    rfl []
  have hlost := @recvPdu_data (sampleOutstanding .identify) 1 ⟨.identify, none, none⟩
    [sampleData 7, sampleData 8] 0 (sampleCompletion 0) 0 [] rfl rfl rfl
  rw [hlost] at hrecv
  cases Except.ok.inj (Option.some.inj hrecv)
  cases Option.some.inj hdata
  have hlast : (recvData [8]).copyOut = [8] := (recvData_eq [8]).1
  have hboth : [(8 : UInt8)] = [7, 8] := hlast.symm.trans hcopy
  simp at hboth

end DiscoveryClient
