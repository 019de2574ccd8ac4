import DiscoveryClient.CapsuleHandling

/-! The receive loop on the bytes of its connection: the header, the command behind it, and the data
that the command brings along. -/

namespace DiscoveryClient

open GoString

/-- `io.ReadFull` from the list: `Read` gives all that is asked for or reports EOF. -/
def ScatterListReader.readFull (reader : ScatterListReader) (size : Nat) :
    Option (List UInt8 × ScatterListReader) :=
  match reader.read size with
  | (bytes, reader, none) => some (bytes, reader)
  | (_, _, some _) => none

/-- What is left to read from the list. -/
def ScatterListReader.Reads (reader : ScatterListReader) (r : List UInt8) : Prop :=
  ∃ flat pos, reader.sgl.At reader.index reader.offset flat pos ∧ r = flat.drop pos

/-- A field is read from the list as it is from flat bytes. -/
theorem ScatterListReader.Reads.bind {reader : ScatterListReader} {r : List UInt8}
    (h : reader.Reads r) (size : Nat) {β : Type} {f : List UInt8 × ScatterListReader → Option β}
    {g : List UInt8 × List UInt8 → Option β}
    (hfg : ∀ bytes reader' r', reader'.Reads r' → f (bytes, reader') = g (bytes, r')) :
    (reader.readFull size).bind f = (Struc.readFull size r).bind g := by
  obtain ⟨flat, pos, hat, rfl⟩ := h
  obtain ⟨hbytes, hat', herr⟩ := reader.read_spec hat size
  rcases hread : reader.read size with ⟨bytes, reader', err⟩
  rw [hread] at hbytes hat' herr
  simp only at hbytes hat' herr
  by_cases hfull : min size (flat.length - pos) = size
  · rw [if_pos hfull] at herr
    rw [hfull] at hat'
    have hle : size ≤ (flat.drop pos).length := by
      rw [List.length_drop]
      omega
    rw [readFull, hread, herr, Struc.readFull_of_le hle, hbytes]
    exact hfg _ reader' _ ⟨flat, pos + size, hat', List.drop_drop⟩
  · rw [if_neg hfull] at herr
    have hlt : ¬size ≤ (flat.drop pos).length := by
      rw [List.length_drop]
      omega
    rw [readFull, hread, herr, Struc.readFull, if_neg hlt]
    rfl

namespace Nvme

/-- The unpacking of the data in `AdminConnectRequest.execute`. -/
def ConnectData.unpackSgl (reader : ScatterListReader) : Option ConnectData :=
  (reader.readFull 16).bind fun (hostID, reader) =>
  (reader.readFull 2).bind fun (cntlID, reader) =>
  (reader.readFull 238).bind fun (_, reader) =>
  (reader.readFull 256).bind fun (subsysNqn, reader) =>
  (reader.readFull 256).bind fun (hostNqn, reader) =>
  (reader.readFull 256).bind fun _ =>
  some ⟨hostID, .ofNat (Struc.getUint cntlID), subsysNqn, hostNqn⟩

theorem ConnectData.unpackSgl_eq {reader : ScatterListReader} {r : List UInt8}
    (h : reader.Reads r) : unpackSgl reader = unpack r := by
  unfold unpackSgl unpack
  refine h.bind 16 fun hostID reader r h => ?_
  dsimp only
  rw [Struc.readUint, Option.bind_eq_bind, Option.bind_map]
  refine h.bind 2 fun cntlID reader r h => ?_
  refine h.bind 238 fun _ reader r h => ?_
  refine h.bind 256 fun subsysNqn reader r h => ?_
  refine h.bind 256 fun hostNqn reader r h => ?_
  exact h.bind 256 fun _ _ _ _ => rfl

/-- What ends the goroutine of `handleReceivePdu` while it reads. -/
inductive StreamError
  | eof
  | unexpectedType (type : UInt8)
  | badHlen (type hlen : UInt8)
  | shortBuffer
deriving DecidableEq, Repr

def tcpIcreq : UInt8 := 0

def tcpCmd : UInt8 := 4

/-- The types that `pduValid` accepts have a size. -/
def pduSize (pduType : UInt8) : Option Nat :=
  if pduType = tcpIcreq then some 128 else if pduType = tcpCmd then some 72 else none

def recvTCPHeader (stream : List UInt8) : Except StreamError (TCPHeaderType × List UInt8) :=
  match TCPHeaderType.unpack stream with
  | none => .error .eof
  | some (hdr, stream) =>
    match pduSize hdr.type with
    | none => .error (.unexpectedType hdr.type)
    | some size =>
      if hdr.hlen.toNat ≠ size then .error (.badHlen hdr.type hdr.hlen) else .ok (hdr, stream)

/-- `io.ReadFull` of the rest of the header. The command is in its first 64 bytes; the sizes of
`pduSize` leave room for them. -/
def readPdu (rcvLeft : Nat) (stream : List UInt8) : Option (Pdu × List UInt8) :=
  if h : 64 ≤ rcvLeft ∧ rcvLeft ≤ stream.length then
    some (⟨stream.take 64, List.length_take_of_le (h.1.trans h.2)⟩, stream.drop rcvLeft)
  else none

/-- The loop of `io.CopyN` into a scatter list, for `n` bytes and at most `fuel` reads. A read gives
one byte or more; how many is up to `read`. -/
def copyLoop (read : Nat → Nat) : Nat → Nat → ScatterListWriter → List UInt8 →
    Except StreamError (ScatterListWriter × List UInt8)
  | 0, _, sglWriter, stream => .ok (sglWriter, stream)
  | fuel + 1, n, sglWriter, stream =>
    if n = 0 then .ok (sglWriter, stream)
    else if stream = [] then .error .eof
    else
      let p := stream.take (min n (max 1 (read n)))
      match sglWriter.write p with
      | (sglWriter, _, none) => copyLoop read fuel (n - p.length) sglWriter (stream.drop p.length)
      | (_, _, some _) => .error .shortBuffer

def copyN (read : Nat → Nat) (n : Nat) (sgl : ScatterList) (stream : List UInt8) :
    Except StreamError (ScatterList × List UInt8) :=
  (copyLoop read n n { sgl } stream).map fun x => (x.1.sgl, x.2)

/-- The list that `mapData` sets up and the number of bytes copied into it, for a request that needs
its data in and has it behind the command. -/
def NvmeQueue.dataIn (queue : NvmeQueue) (pdu : Pdu) : Option (ScatterList × UInt32) :=
  match queue.nvmetRequestInit pdu with
  | .error _ => none
  | .ok request =>
    let (status, pduLen) := mapData request pdu.sglType
    if status = success && hasInlineData request pduLen then
      some (newScatterList request.dataLen.toNat 8192, pduLen)
    else none

/-- A capsule with these data; it has 1024 bytes whether or not they are looked at. -/
def Capsule.ofData (pdu : Pdu) (data : List UInt8) : Capsule :=
  ⟨pdu, (data ++ List.replicate 1024 0).take 1024,
    List.length_take_of_le (by rw [List.length_append, List.length_replicate]; omega)⟩

theorem Capsule.ofData_inlineData (capsule : Capsule) :
    ofData capsule.pdu capsule.inlineData = capsule := by
  cases capsule with
  | mk pdu inlineData hinline => simp only [ofData, List.take_left' hinline]

/-- One turn of the loop of `handleReceivePdu`, with what is then left on the stream. -/
def Server.turn (read : Nat → Nat) (log : DiscoveryLog) (server : Server) (stream : List UInt8) :
    Except StreamError (Server × List UInt8) :=
  match recvTCPHeader stream with
  | .error err => .error err
  | .ok (hdr, stream) =>
    match readPdu (hdr.hlen.toNat - 8) stream with
    | none => .error .eof
    | some (pdu, stream) =>
      match server.queue.dataIn pdu with
      | none => .ok (server.receive (.ofData pdu []) log, stream)
      | some (sgl, pduLen) =>
        match copyN read pduLen.toNat sgl stream with
        | .error err => .error err
        | .ok (sgl, stream) => .ok (server.receive (.ofData pdu sgl.copyOut) log, stream)

/-- The loop over the turns, each with the log of its time, until an error ends it. -/
def Server.handleReceivePdu (read : Nat → Nat) : List DiscoveryLog → Server → List UInt8 →
    Except StreamError (Server × List UInt8)
  | [], server, stream => .ok (server, stream)
  | log :: logs, server, stream =>
    if server.reader ≠ .reading then .ok (server, stream)
    else
      match server.turn read log stream with
      | .error err => .error err
      | .ok (server, stream) => handleReceivePdu read logs server stream

/-- The bytes of a capsule on the stream. The data are there when the server looks for them. -/
def Capsule.sent (capsule : Capsule) (queue : NvmeQueue) (hdr : TCPHeaderType) : List UInt8 :=
  hdr.record ++ capsule.pdu.bytes ++
    (if (queue.dataIn capsule.pdu).isSome then capsule.inlineData else [])

/-- A header of a command, of the length of one. -/
structure CmdHeader (hdr : TCPHeaderType) : Prop where
  type : hdr.type = tcpCmd
  hlen : hdr.hlen = 72

theorem recvTCPHeader_record {hdr : TCPHeaderType} (h : CmdHeader hdr) (stream : List UInt8) :
    recvTCPHeader (hdr.record ++ stream) = .ok (hdr, stream) := by
  have hsize : pduSize hdr.type = some 72 := by
    rw [h.type]
    rfl
  have hhlen : hdr.hlen.toNat = 72 := by
    rw [h.hlen]
    rfl
  simp only [recvTCPHeader, TCPHeaderType.unpack_record, hsize, hhlen, ne_eq, not_true_eq_false,
    if_false]

theorem readPdu_bytes (pdu : Pdu) (stream : List UInt8) :
    readPdu 64 (pdu.bytes ++ stream) = some (pdu, stream) := by
  have hlen := pdu.length_eq
  rw [readPdu, dif_pos ⟨le_rfl, by rw [List.length_append]; omega⟩]
  congr 1
  refine Prod.ext ?_ (List.drop_left' hlen)
  cases pdu with
  | mk bytes hbytes => simp only [List.take_left' hbytes]

section Copy

variable {read : Nat → Nat}

/-- Into room that is still zero, all that is asked for is copied, in whatever parts it comes. -/
theorem copyLoop_eq {fuel n room : Nat} {w : ScatterListWriter} {done stream : List UInt8}
    (hat : w.sgl.At w.index w.offset (done ++ List.replicate room 0) done.length)
    (hroom : n ≤ room) (hstream : n ≤ stream.length) (hfuel : n ≤ fuel) :
    ∃ w', copyLoop read fuel n w stream = .ok (w', stream.drop n) ∧
      w'.sgl.At w'.index w'.offset ((done ++ stream.take n) ++ List.replicate (room - n) 0)
        (done ++ stream.take n).length := by
  induction fuel generalizing n room w done stream with
  | zero =>
    have hn : n = 0 := by omega
    subst hn
    exact ⟨w, rfl, by simpa using hat⟩
  | succ fuel ih =>
    rw [copyLoop]
    by_cases hn : n = 0
    · subst hn
      exact ⟨w, rfl, by simpa using hat⟩
    · have hne : stream ≠ [] := by
        rintro rfl
        rw [List.length_nil] at hstream
        omega
      rw [if_neg hn, if_neg hne]
      have hlen : (stream.take (min n (max 1 (read n)))).length = min n (max 1 (read n)) :=
        List.length_take_of_le (by omega)
      generalize hp : stream.take (min n (max 1 (read n))) = p at hlen
      obtain ⟨hat', hret⟩ := w.write_zeros hat (show p.length ≤ room by omega)
      rcases hwrite : w.write p with ⟨w', k, err⟩
      rw [hwrite] at hat' hret
      simp only [Prod.mk.injEq] at hat' hret
      obtain ⟨w'', hloop, hat''⟩ := @ih (n - p.length) (room - p.length) w' (done ++ p)
        (stream.drop p.length) hat' (by omega) (by rw [List.length_drop]; omega) (by omega)
      have hjoin : done ++ p ++ (stream.drop p.length).take (n - p.length) =
          done ++ stream.take n := by
        have htake : stream.take n = stream.take (p.length + (n - p.length)) := by
          congr 1
          omega
        rw [htake, List.take_add, hlen, hp, List.append_assoc]
      have hrest : (stream.drop p.length).drop (n - p.length) = stream.drop n := by
        rw [List.drop_drop]
        congr 1
        omega
      have hleft : room - p.length - (n - p.length) = room - n := by omega
      rw [hrest] at hloop
      rw [hjoin, hleft] at hat''
      refine ⟨w'', ?_, hat''⟩
      simp only [hwrite, hret.2]
      exact hloop

/-- The data of a list's own length fill it. -/
theorem copyN_eq {bufferLen : Nat} {data : List UInt8} (h : 0 < bufferLen) (stream : List UInt8) :
    ∃ sgl, copyN read data.length (newScatterList data.length bufferLen) (data ++ stream) =
        .ok (sgl, stream) ∧ sgl.At 0 0 data 0 := by
  obtain ⟨w, hloop, hat⟩ := @copyLoop_eq read data.length data.length data.length
    { sgl := newScatterList data.length bufferLen } [] (data ++ stream) (ScatterList.at_new h)
    le_rfl (by rw [List.length_append]; omega) le_rfl
  rw [List.drop_left] at hloop
  rw [List.nil_append, List.take_left, Nat.sub_self, List.replicate_zero, List.append_nil] at hat
  exact ⟨w.sgl, by rw [copyN, hloop]; rfl, hat.rewind⟩

end Copy

section Turn

variable {read : Nat → Nat} {server : Server} {log : DiscoveryLog}

/-- Only a connect brings data along, and they are 1024 bytes. -/
theorem dataIn_eq_some {queue : NvmeQueue} {pdu : Pdu} {sgl : ScatterList} {pduLen : UInt32}
    (h : queue.dataIn pdu = some (sgl, pduLen)) :
    sgl = newScatterList 1024 8192 ∧ pduLen = 1024 := by
  unfold NvmeQueue.dataIn at h
  split at h
  next => cases h
  next request _ =>
    cases request with
    | connect recFmt qID sqSize kato =>
      rw [mapData_connect] at h
      by_cases hsgl : pdu.sglType = sglInline
      · rw [if_pos hsgl] at h
        cases Option.some.inj h
        exact ⟨rfl, rfl⟩
      · rw [if_neg hsgl] at h
        cases h
    | admin request => simp [mapData_admin, hasInlineData, NvmeRequest.isWrite] at h

/-- Where no data are copied, none are looked at. -/
theorem receive_of_dataIn_none {capsule capsule' : Capsule} (hpdu : capsule'.pdu = capsule.pdu)
    (h : server.queue.dataIn capsule.pdu = none) :
    server.receive capsule log = server.receive capsule' log := by
  cases hinit : server.queue.nvmetRequestInit capsule.pdu with
  | error err =>
    simp only [Server.receive, Server.takeIn, hpdu, hinit]
    rfl
  | ok request =>
    have hinit' := hinit
    rw [← hpdu] at hinit'
    rw [Server.receive_ok hinit, Server.receive_ok hinit', hpdu]
    cases request with
    | connect recFmt qID sqSize kato =>
      have hsgl : capsule.pdu.sglType ≠ sglInline := by
        intro hsgl
        rw [NvmeQueue.dataIn, hinit] at h
        dsimp only at h
        rw [mapData_connect, if_pos hsgl] at h
        cases h
      rw [handleRequest_connect, handleRequest_connect, hpdu, if_neg hsgl, if_neg hsgl]
    | admin request =>
      simp only [Server.handleRequest, Server.execute, NvmeQueue.execute, hpdu]

/-- A turn takes from the stream exactly what the capsule has put there. -/
theorem turn_sent {hdr : TCPHeaderType} (hhdr : CmdHeader hdr) (capsule : Capsule)
    (stream : List UInt8) :
    server.turn read log (capsule.sent server.queue hdr ++ stream) =
      .ok (server.receive capsule log, stream) := by
  have hlen : hdr.hlen.toNat - 8 = 64 := by
    rw [hhdr.hlen]
    rfl
  rw [Capsule.sent, List.append_assoc, List.append_assoc, Server.turn, recvTCPHeader_record hhdr]
  simp only [hlen, readPdu_bytes]
  cases hdata : server.queue.dataIn capsule.pdu with
  | none =>
    rw [@receive_of_dataIn_none server log capsule (.ofData capsule.pdu []) rfl hdata]
    simp only [Option.isSome_none, Bool.false_eq_true, if_false, List.nil_append]
  | some needed =>
    obtain ⟨sgl, pduLen⟩ := needed
    obtain ⟨rfl, rfl⟩ := dataIn_eq_some hdata
    obtain ⟨filled, hcopy, hat⟩ := @copyN_eq read 8192 capsule.inlineData (by decide) stream
    rw [capsule.length_eq] at hcopy
    have hcapsule : Capsule.ofData capsule.pdu filled.copyOut = capsule := by
      rw [hat.copyOut, Capsule.ofData_inlineData]
    have hwanted : (1024 : UInt32).toNat = 1024 := rfl
    simp only [Option.isSome_some, if_true, hwanted, hcopy, hcapsule]

/-- Capsules one behind the other on the stream, each as the server's state asks for it. -/
inductive Sent : Server → List (Capsule × DiscoveryLog) → List UInt8 → Server → Prop
  | done (server : Server) : Sent server [] [] server
  | capsule {server server' : Server} {hdr : TCPHeaderType} {capsule : Capsule} {log : DiscoveryLog}
      {capsules : List (Capsule × DiscoveryLog)} {stream : List UInt8}
      (reading : server.reader = .reading) (cmd : CmdHeader hdr)
      (rest : Sent (server.receive capsule log) capsules stream server') :
      Sent server ((capsule, log) :: capsules) (capsule.sent server.queue hdr ++ stream) server'

/-- The loop never loses its place: it takes capsule for capsule and leaves what follows them. -/
theorem handleReceivePdu_sent {capsules : List (Capsule × DiscoveryLog)} {sent : List UInt8}
    {server' : Server} (h : Sent server capsules sent server') (stream : List UInt8) :
    server.handleReceivePdu read (capsules.map Prod.snd) (sent ++ stream) = .ok (server', stream) := by
  induction h with
  | done => rfl
  | capsule reading cmd rest ih =>
    rw [List.map_cons, Server.handleReceivePdu, if_neg (not_not.mpr reading), List.append_assoc,
      turn_sent cmd]
    exact ih

end Turn

end Nvme

end DiscoveryClient
