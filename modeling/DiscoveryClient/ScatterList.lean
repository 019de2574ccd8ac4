import Mathlib.Data.List.Basic

namespace DiscoveryClient

/-- `nvme.ScatterList`. -/
structure ScatterList where
  buffers : List (List UInt8)
  len : Nat
  capacity : Nat
deriving DecidableEq

/-- The loop of `NewScatterList`, for at most `fuel` buffers. -/
def newBuffers (bufferLen : Nat) : Nat → Nat → List (List UInt8)
  | 0, _ => []
  | fuel + 1, len =>
    if 0 < len then
      List.replicate (min len bufferLen) 0 :: newBuffers bufferLen fuel (len - min len bufferLen)
    else []

def newScatterList (datalen bufferLen : Nat) : ScatterList :=
  ⟨newBuffers bufferLen datalen datalen, 0, datalen⟩

inductive SglError
  | shortBuffer
  | eof
deriving DecidableEq, Repr

structure ScatterListWriter where
  sgl : ScatterList
  offset : Nat := 0
  index : Nat := 0

structure ScatterListReader where
  sgl : ScatterList
  offset : Nat := 0
  index : Nat := 0

/-- The loop of `Write` over the buffers from the index on: the buffers as it leaves them, how far
the index moves, the offset, and what is left of `p`. -/
def writeLoop : List (List UInt8) → Nat → List UInt8 → List (List UInt8) × Nat × Nat × List UInt8
  | [], offset, p => ([], 0, offset, p)
  | buffer :: rest, offset, p =>
    if p = [] then (buffer :: rest, 0, offset, p)
    else
      let leftToWrite := min (buffer.length - offset) p.length
      let written :=
        buffer.take offset ++ p.take leftToWrite ++ buffer.drop (offset + leftToWrite)
      -- the buffer is not full, so all of `p` is written and the loop ends
      if offset + leftToWrite < buffer.length then
        (written :: rest, 0, offset + leftToWrite, p.drop leftToWrite)
      else
        let r := writeLoop rest 0 (p.drop leftToWrite)
        (written :: r.1, r.2.1 + 1, r.2.2)

/-- The number of bytes written, and `io.ErrShortBuffer` when some did not fit. -/
def ScatterListWriter.write (w : ScatterListWriter) (p : List UInt8) :
    ScatterListWriter × Nat × Option SglError :=
  let r := writeLoop (w.sgl.buffers.drop w.index) w.offset p
  let n := p.length - r.2.2.2.length
  ({ sgl := { w.sgl with buffers := w.sgl.buffers.take w.index ++ r.1, len := w.sgl.len + n }
     offset := r.2.2.1
     index := w.index + r.2.1 },
    n, if r.2.2.2 = [] then none else some .shortBuffer)

/-- The loop of `Read`: the bytes read, how far the index moves, the offset, and how many bytes are
still wanted. -/
def readLoop : List (List UInt8) → Nat → Nat → List UInt8 × Nat × Nat × Nat
  | [], offset, readLen => ([], 0, offset, readLen)
  | buffer :: rest, offset, readLen =>
    if readLen = 0 then ([], 0, offset, 0)
    else
      let bytesToCopy := min (buffer.length - offset) readLen
      let src := (buffer.drop offset).take bytesToCopy
      if offset + bytesToCopy < buffer.length then
        (src, 0, offset + bytesToCopy, readLen - bytesToCopy)
      else
        let r := readLoop rest 0 (readLen - bytesToCopy)
        (src ++ r.1, r.2.1 + 1, r.2.2)

/-- The bytes read, and `io.EOF` when they are fewer than asked for. -/
def ScatterListReader.read (reader : ScatterListReader) (readLen : Nat) :
    List UInt8 × ScatterListReader × Option SglError :=
  let r := readLoop (reader.sgl.buffers.drop reader.index) reader.offset readLen
  (r.1, { reader with offset := r.2.2.1, index := reader.index + r.2.1 },
    if r.2.2.2 = 0 then none else some .eof)

/-- `io.Copy` out of the list: reads of `chunk` bytes, at most `fuel` of them, up to the one that
reports EOF. -/
def ScatterListReader.copy (chunk : Nat) : Nat → ScatterListReader → List UInt8
  | 0, _ => []
  | fuel + 1, reader =>
    match reader.read chunk with
    | (bytes, _, some _) => bytes
    | (bytes, reader, none) => bytes ++ reader.copy chunk fuel

/-- All bytes of the list, as `io.Copy` gets them. -/
def ScatterList.copyOut (sgl : ScatterList) : List UInt8 :=
  ScatterListReader.copy 512 (sgl.capacity + 1) { sgl }

/-- The offset is inside the first buffer, or there is none and it is zero. -/
def Cursor : List (List UInt8) → Nat → Prop
  | [], offset => offset = 0
  | buffer :: _, offset => offset < buffer.length

/-- The index and the offset stand for a position in the flat buffer. -/
structure Position (buffers : List (List UInt8)) (index offset pos : Nat) : Prop where
  index_le : index ≤ buffers.length
  cursor : Cursor (buffers.drop index) offset
  pos_eq : (buffers.take index).flatten.length + offset = pos

theorem Cursor.zero {buffers : List (List UInt8)} (ne : ∀ b ∈ buffers, b ≠ []) : Cursor buffers 0 := by
  cases buffers with
  | nil => rfl
  | cons b rest => exact List.length_pos_iff.mpr (ne b (by simp))

theorem Position.of_cursor {buffers : List (List UInt8)} {offset : Nat} (h : Cursor buffers offset) :
    Position buffers 0 offset offset :=
  ⟨by simp, h, by simp⟩

theorem Position.cons {buffers : List (List UInt8)} {index offset pos : Nat} (b : List UInt8)
    (h : Position buffers index offset pos) :
    Position (b :: buffers) (index + 1) offset (b.length + pos) := by
  obtain ⟨hle, hcursor, hpos⟩ := h
  refine ⟨by simpa using hle, hcursor, ?_⟩
  simp only [List.take_succ_cons, List.flatten_cons, List.length_append]
  omega

theorem Position.append {first buffers : List (List UInt8)} {index offset pos : Nat}
    (h : Position buffers index offset pos) :
    Position (first ++ buffers) (first.length + index) offset (first.flatten.length + pos) := by
  induction first with
  | nil => simpa using h
  | cons b first ih =>
    have hb := ih.cons b
    rwa [show first.length + index + 1 = (b :: first).length + index by simp; omega,
      show b.length + (first.flatten.length + pos) = (b :: first).flatten.length + pos by
        simp; omega] at hb

theorem Position.pos_le {buffers : List (List UInt8)} {index offset pos : Nat}
    (h : Position buffers index offset pos) : pos ≤ buffers.flatten.length := by
  obtain ⟨-, hcursor, hpos⟩ := h
  have hsplit : buffers.flatten.length =
      (buffers.take index).flatten.length + (buffers.drop index).flatten.length := by
    rw [← List.length_append, ← List.flatten_append, List.take_append_drop]
  cases hdrop : buffers.drop index with
  | nil =>
    rw [hdrop] at hcursor
    have hzero : offset = 0 := hcursor
    omega
  | cons b rest =>
    rw [hdrop] at hcursor hsplit
    have hlt : offset < b.length := hcursor
    simp only [List.flatten_cons, List.length_append] at hsplit
    omega

theorem newBuffers_ne {bufferLen fuel len : Nat} (h : 0 < bufferLen) :
    ∀ b ∈ newBuffers bufferLen fuel len, b ≠ [] := by
  induction fuel generalizing len with
  | zero => simp [newBuffers]
  | succ fuel ih =>
    rw [newBuffers]
    split
    next hlen =>
      intro b hb
      rcases List.mem_cons.mp hb with rfl | hb
      · rw [ne_eq, List.replicate_eq_nil_iff]
        omega
      · exact ih b hb
    next => simp

/-- The buffers are one zeroed array of the whole length. -/
theorem newBuffers_flatten {bufferLen fuel len : Nat} (h : 0 < bufferLen) (hfuel : len ≤ fuel) :
    (newBuffers bufferLen fuel len).flatten = List.replicate len 0 := by
  induction fuel generalizing len with
  | zero =>
    have hzero : len = 0 := by omega
    simp [newBuffers, hzero]
  | succ fuel ih =>
    rw [newBuffers]
    split
    next hlen =>
      rw [List.flatten_cons, ih (by omega), List.replicate_append_replicate]
      congr 1
      omega
    next hlen =>
      have hzero : len = 0 := by omega
      simp [hzero]

/-- Writing that ends in the first buffer. -/
theorem splice_within {buffer rest p : List UInt8} {offset k : Nat}
    (h : offset + k ≤ buffer.length) :
    (buffer.take offset ++ p.take k ++ buffer.drop (offset + k)) ++ rest =
      (buffer ++ rest).take offset ++ p.take k ++ (buffer ++ rest).drop (offset + k) := by
  rw [List.take_append_of_le_length (by omega), List.drop_append_of_le_length h]
  simp only [List.append_assoc]

/-- Writing that fills the first buffer up and goes on in those behind it. -/
theorem splice_across {buffer rest p : List UInt8} {offset m : Nat}
    (h : offset + m = buffer.length) (k : Nat) :
    (buffer.take offset ++ p.take m) ++ ((p.drop m).take k ++ rest.drop k) =
      (buffer ++ rest).take offset ++ p.take (m + k) ++
        (buffer ++ rest).drop (offset + (m + k)) := by
  have hrest : (buffer ++ rest).drop (offset + (m + k)) = rest.drop k := by
    rw [← Nat.add_assoc, h, List.drop_length_add_append]
  rw [hrest, List.take_append_of_le_length (by omega), List.take_add]
  simp only [List.append_assoc]

theorem writeLoop_spec {buffers : List (List UInt8)} {offset : Nat} {p : List UInt8}
    (ne : ∀ b ∈ buffers, b ≠ []) (cursor : Cursor buffers offset) :
    let r := writeLoop buffers offset p
    let k := min p.length (buffers.flatten.length - offset)
    (∀ b ∈ r.1, b ≠ []) ∧
    r.1.flatten = buffers.flatten.take offset ++ p.take k ++ buffers.flatten.drop (offset + k) ∧
    r.2.2.2 = p.drop k ∧ Position r.1 r.2.1 r.2.2.1 (offset + k) := by
  induction buffers generalizing offset p with
  | nil =>
    have hzero : offset = 0 := cursor
    simp only [writeLoop, hzero]
    exact ⟨ne, by simp, by simp, by simpa [hzero] using Position.of_cursor cursor⟩
  | cons buffer rest ih =>
    have hlt : offset < buffer.length := cursor
    have hlen : (buffer :: rest).flatten.length = buffer.length + rest.flatten.length := by simp
    have hrest : ∀ b ∈ rest, b ≠ [] := (List.forall_mem_cons.mp ne).2
    by_cases hp : p = []
    · simp only [writeLoop, hp, if_true]
      exact ⟨ne, by simp, by simp, Position.of_cursor cursor⟩
    simp only [writeLoop, hp, if_false]
    let leftToWrite := min (buffer.length - offset) p.length
    have hpos : 0 < leftToWrite := by
      have := List.length_pos_iff.mpr hp
      simp only [leftToWrite]
      omega
    let written := buffer.take offset ++ p.take leftToWrite ++ buffer.drop (offset + leftToWrite)
    have hwritten : written.length = buffer.length := by
      simp only [written, leftToWrite, List.length_append, List.length_take, List.length_drop]
      omega
    have hne : written ≠ [] := by
      rw [← List.length_pos_iff]
      omega
    by_cases hroom : offset + leftToWrite < buffer.length
    · -- all of `p` goes into this buffer
      have hk : min p.length ((buffer :: rest).flatten.length - offset) = leftToWrite := by
        simp only [leftToWrite] at hroom ⊢
        omega
      rw [if_pos hroom, hk]
      refine ⟨?_, ?_, rfl, Position.of_cursor ?_⟩
      · exact List.forall_mem_cons.mpr ⟨hne, hrest⟩
      · rw [List.flatten_cons, List.flatten_cons]
        exact splice_within (Nat.le_of_lt hroom)
      · show offset + leftToWrite < written.length
        omega
    · -- the buffer is full, and the loop goes on with the next one
      have hfull : offset + leftToWrite = buffer.length := by
        simp only [leftToWrite] at hroom ⊢
        omega
      rw [if_neg hroom]
      obtain ⟨hne', hflat, hleft, hposition⟩ := @ih 0 (p.drop leftToWrite)
        hrest (Cursor.zero hrest)
      have hk : min p.length ((buffer :: rest).flatten.length - offset) =
          leftToWrite + min (p.drop leftToWrite).length (rest.flatten.length - 0) := by
        rw [List.length_drop]
        simp only [leftToWrite] at hfull ⊢
        omega
      rw [hk]
      refine ⟨?_, ?_, ?_, ?_⟩
      · exact List.forall_mem_cons.mpr ⟨hne, hne'⟩
      · have hdone : written = buffer.take offset ++ p.take leftToWrite := by
          simp only [written, hfull, List.drop_length, List.append_nil]
        change written ++ (writeLoop rest 0 (p.drop leftToWrite)).1.flatten = _
        rw [hflat, hdone, List.flatten_cons, List.take_zero, List.nil_append, Nat.zero_add]
        exact splice_across hfull _
      · rw [hleft, List.drop_drop]
      · have hcons := hposition.cons written
        rwa [hwritten, ← hfull, Nat.zero_add, Nat.add_assoc] at hcons

theorem readLoop_spec {buffers : List (List UInt8)} {offset readLen : Nat}
    (ne : ∀ b ∈ buffers, b ≠ []) (cursor : Cursor buffers offset) :
    let r := readLoop buffers offset readLen
    let k := min readLen (buffers.flatten.length - offset)
    r.1 = (buffers.flatten.drop offset).take readLen ∧ r.2.2.2 = readLen - k ∧
      Position buffers r.2.1 r.2.2.1 (offset + k) := by
  induction buffers generalizing offset readLen with
  | nil =>
    have hzero : offset = 0 := cursor
    simp only [readLoop, hzero]
    exact ⟨by simp, by simp, by simpa [hzero] using Position.of_cursor cursor⟩
  | cons buffer rest ih =>
    have hlt : offset < buffer.length := cursor
    have hlen : (buffer :: rest).flatten.length = buffer.length + rest.flatten.length := by simp
    have hrest : ∀ b ∈ rest, b ≠ [] := (List.forall_mem_cons.mp ne).2
    by_cases hn : readLen = 0
    · simp only [readLoop, hn, if_true]
      exact ⟨by simp, by simp, by simpa using Position.of_cursor cursor⟩
    simp only [readLoop, hn, if_false]
    let bytesToCopy := min (buffer.length - offset) readLen
    by_cases hroom : offset + bytesToCopy < buffer.length
    · have hk : bytesToCopy = readLen := by
        simp only [bytesToCopy] at hroom ⊢
        omega
      have hmin : min readLen ((buffer :: rest).flatten.length - offset) = bytesToCopy := by
        simp only [bytesToCopy] at hroom ⊢
        omega
      rw [if_pos hroom, hmin]
      refine ⟨?_, rfl, Position.of_cursor hroom⟩
      change (buffer.drop offset).take bytesToCopy = _
      rw [List.flatten_cons, List.drop_append_of_le_length (by omega), hk,
        List.take_append_of_le_length (by rw [List.length_drop]; omega)]
    · have hfull : offset + bytesToCopy = buffer.length := by
        simp only [bytesToCopy] at hroom ⊢
        omega
      rw [if_neg hroom]
      obtain ⟨hbytes, hleft, hposition⟩ := @ih 0 (readLen - bytesToCopy)
        hrest (Cursor.zero hrest)
      have hk : min readLen ((buffer :: rest).flatten.length - offset) =
          bytesToCopy + min (readLen - bytesToCopy) (rest.flatten.length - 0) := by
        simp only [bytesToCopy] at hfull ⊢
        omega
      rw [hk]
      refine ⟨?_, ?_, ?_⟩
      · change (buffer.drop offset).take bytesToCopy ++ _ = _
        rw [hbytes, List.drop_zero, List.flatten_cons, List.drop_append_of_le_length (by omega),
          List.take_append, List.length_drop,
          List.take_of_length_le (show (buffer.drop offset).length ≤ bytesToCopy by
            rw [List.length_drop]; omega),
          List.take_of_length_le (show (buffer.drop offset).length ≤ readLen by
            rw [List.length_drop]; simp only [bytesToCopy] at hfull; omega)]
        congr 2
        omega
      · rw [hleft]
        omega
      · have hcons := hposition.cons buffer
        rwa [← hfull, Nat.zero_add, Nat.add_assoc] at hcons

/-- The list holds the bytes of one flat buffer, and the index and offset stand at a position in it. -/
structure ScatterList.At (sgl : ScatterList) (index offset : Nat) (flat : List UInt8) (pos : Nat) :
    Prop where
  nonempty : ∀ b ∈ sgl.buffers, b ≠ []
  flatten : sgl.buffers.flatten = flat
  position : Position sgl.buffers index offset pos
  capacity : sgl.capacity = flat.length

theorem ScatterList.at_new {datalen bufferLen : Nat} (h : 0 < bufferLen) :
    (newScatterList datalen bufferLen).At 0 0 (List.replicate datalen 0) 0 :=
  ⟨newBuffers_ne h, newBuffers_flatten h (Nat.le_refl datalen),
    Position.of_cursor (Cursor.zero (newBuffers_ne h)), List.length_replicate.symm⟩

theorem ScatterList.At.rewind {sgl : ScatterList} {index offset pos : Nat} {flat : List UInt8}
    (h : sgl.At index offset flat pos) : sgl.At 0 0 flat 0 :=
  ⟨h.nonempty, h.flatten, Position.of_cursor (Cursor.zero h.nonempty), h.capacity⟩

theorem ScatterList.At.split {sgl : ScatterList} {index offset pos : Nat} {flat : List UInt8}
    (h : sgl.At index offset flat pos) :
    flat = (sgl.buffers.take index).flatten ++ (sgl.buffers.drop index).flatten := by
  rw [← h.flatten, ← List.flatten_append, List.take_append_drop]

/-- Writing into the list is writing into the flat buffer. -/
theorem ScatterListWriter.write_spec {w : ScatterListWriter} {flat : List UInt8} {pos : Nat}
    (h : w.sgl.At w.index w.offset flat pos) (p : List UInt8) :
    let k := min p.length (flat.length - pos)
    let w' := (w.write p).1
    w'.sgl.At w'.index w'.offset (flat.take pos ++ p.take k ++ flat.drop (pos + k)) (pos + k) ∧
      (w.write p).2 = (k, if k = p.length then none else some .shortBuffer) := by
  intro k w'
  have hsplit := h.split
  have hpos := h.position.pos_eq
  have hindex : (w.sgl.buffers.take w.index).length = w.index := by
    rw [List.length_take]
    exact Nat.min_eq_left h.position.index_le
  obtain ⟨hne, hflat, hleft, hposition⟩ := @writeLoop_spec (w.sgl.buffers.drop w.index) w.offset p
    (fun b hb => h.nonempty b (List.mem_of_mem_drop hb)) h.position.cursor
  have hk : min p.length ((w.sgl.buffers.drop w.index).flatten.length - w.offset) = k := by
    have hlen := congrArg List.length hsplit
    rw [List.length_append] at hlen
    simp only [k]
    omega
  rw [hk] at hflat hleft hposition
  have hkle : k ≤ p.length := Nat.min_le_left _ _
  refine ⟨⟨?_, ?_, ?_, ?_⟩, ?_⟩
  · intro b hb
    rcases List.mem_append.mp hb with hb | hb
    · exact h.nonempty b (List.mem_of_mem_take hb)
    · exact hne b hb
  · change (w.sgl.buffers.take w.index ++ _).flatten = _
    rw [List.flatten_append, hflat, hsplit, ← hpos, List.take_length_add_append, Nat.add_assoc,
      List.drop_length_add_append]
    simp only [List.append_assoc]
  · have happend := @Position.append (w.sgl.buffers.take w.index) _ _ _ _ hposition
    rwa [hindex, ← Nat.add_assoc, hpos] at happend
  · have hle := h.position.pos_le
    rw [h.flatten] at hle
    change w.sgl.capacity = _
    rw [h.capacity]
    simp only [List.length_append, List.length_take, List.length_drop]
    omega
  · simp only [write, hleft, List.length_drop, List.drop_eq_nil_iff]
    congr 1
    · omega
    · split
      next => rw [if_pos (by omega)]
      next => rw [if_neg (by omega)]

/-- Behind what is written the buffer is still zero, and what fits is appended. -/
theorem ScatterListWriter.write_zeros {w : ScatterListWriter} {done p : List UInt8} {room : Nat}
    (h : w.sgl.At w.index w.offset (done ++ List.replicate room 0) done.length)
    (hle : p.length ≤ room) :
    let w' := (w.write p).1
    w'.sgl.At w'.index w'.offset ((done ++ p) ++ List.replicate (room - p.length) 0)
      (done ++ p).length ∧ (w.write p).2 = (p.length, none) := by
  intro w'
  have hk : min p.length ((done ++ List.replicate room (0 : UInt8)).length - done.length) =
      p.length := by
    rw [List.length_append, List.length_replicate]
    omega
  obtain ⟨hat, hret⟩ := w.write_spec h p
  rw [hk] at hat hret
  rw [if_pos rfl] at hret
  rw [List.take_left, List.take_length, List.drop_length_add_append, List.drop_replicate] at hat
  rw [List.length_append]
  exact ⟨hat, hret⟩

theorem ScatterListReader.read_spec {reader : ScatterListReader} {flat : List UInt8} {pos : Nat}
    (h : reader.sgl.At reader.index reader.offset flat pos) (readLen : Nat) :
    let r := reader.read readLen
    let k := min readLen (flat.length - pos)
    r.1 = (flat.drop pos).take readLen ∧
      r.2.1.sgl.At r.2.1.index r.2.1.offset flat (pos + k) ∧
      r.2.2 = if k = readLen then none else some .eof := by
  intro r k
  have hsplit := h.split
  have hpos := h.position.pos_eq
  have hindex : (reader.sgl.buffers.take reader.index).length = reader.index := by
    rw [List.length_take]
    exact Nat.min_eq_left h.position.index_le
  obtain ⟨hbytes, hleft, hposition⟩ :=
    @readLoop_spec (reader.sgl.buffers.drop reader.index) reader.offset readLen
      (fun b hb => h.nonempty b (List.mem_of_mem_drop hb)) h.position.cursor
  have hk : min readLen ((reader.sgl.buffers.drop reader.index).flatten.length - reader.offset) =
      k := by
    have hlen := congrArg List.length hsplit
    rw [List.length_append] at hlen
    simp only [k]
    omega
  rw [hk] at hleft hposition
  have hkle : k ≤ readLen := Nat.min_le_left _ _
  refine ⟨?_, ⟨h.nonempty, h.flatten, ?_, h.capacity⟩, ?_⟩
  · change (readLoop _ _ _).1 = _
    rw [hbytes, hsplit, ← hpos, List.drop_length_add_append]
  · have happend := @Position.append (reader.sgl.buffers.take reader.index) _ _ _ _ hposition
    rwa [List.take_append_drop, hindex, ← Nat.add_assoc, hpos] at happend
  · simp only [r, read, hleft]
    split
    next => rw [if_pos (by omega)]
    next => rw [if_neg (by omega)]

theorem ScatterListReader.copy_eq {chunk fuel : Nat} {reader : ScatterListReader}
    {flat : List UInt8} {pos : Nat} (h : reader.sgl.At reader.index reader.offset flat pos)
    (hchunk : 0 < chunk) (hfuel : flat.length - pos < fuel) :
    reader.copy chunk fuel = flat.drop pos := by
  induction fuel generalizing reader pos with
  | zero => omega
  | succ fuel ih =>
    obtain ⟨hbytes, hat, herr⟩ := reader.read_spec h chunk
    rw [copy]
    by_cases hfull : min chunk (flat.length - pos) = chunk
    · rw [if_pos hfull] at herr
      rw [hfull] at hat
      rcases hr : reader.read chunk with ⟨bytes, reader', err⟩
      rw [hr] at hbytes hat herr
      simp only at hbytes hat herr
      subst herr
      simp only
      rw [ih hat (by omega), hbytes, ← List.drop_drop, List.take_append_drop]
    · rw [if_neg hfull] at herr
      rcases hr : reader.read chunk with ⟨bytes, reader', err⟩
      rw [hr] at hbytes herr
      simp only at hbytes herr
      subst herr
      simp only
      rw [hbytes, List.take_of_length_le]
      rw [List.length_drop]
      omega

theorem ScatterList.At.copyOut {sgl : ScatterList} {index offset pos : Nat} {flat : List UInt8}
    (h : sgl.At index offset flat pos) : sgl.copyOut = flat := by
  have hcopy := @ScatterListReader.copy_eq 512 (sgl.capacity + 1) { sgl } flat 0 h.rewind
    (by decide) (by rw [h.capacity]; omega)
  rwa [List.drop_zero] at hcopy

end DiscoveryClient
