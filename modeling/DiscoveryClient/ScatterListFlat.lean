import Mathlib.Algebra.Ring.Nat
import DiscoveryClient.FlatBuffer
import DiscoveryClient.ScatterList

namespace DiscoveryClient

/-- `scatterListWriter.Len`. -/
def ScatterListWriter.len (w : ScatterListWriter) : Int :=
  w.sgl.capacity - (((w.sgl.buffers.take w.index).map List.length).sum + w.offset : Nat)

/-- `scatterListReader.Len`. -/
def ScatterListReader.len (reader : ScatterListReader) : Int :=
  reader.sgl.capacity - (((reader.sgl.buffers.take reader.index).map List.length).sum +
    reader.offset : Nat)

/-- The writer after a sequence of calls of `Write`. -/
def ScatterListWriter.writes (w : ScatterListWriter) (ps : List (List UInt8)) : ScatterListWriter :=
  ps.foldl (fun w p => (w.write p).1) w

/-- The reader after a sequence of calls of `Read`, with slices of these lengths. -/
def ScatterListReader.reads (reader : ScatterListReader) (ns : List Nat) : ScatterListReader :=
  ns.foldl (fun reader n => (reader.read n).2.1) reader

/-- The offset is inside the buffer at the index, or the index is past the last buffer. -/
def CursorInside (sgl : ScatterList) (index offset : Nat) : Prop :=
  (∃ buffer, sgl.buffers[index]? = some buffer ∧ offset < buffer.length) ∨
    index = sgl.buffers.length ∧ offset = 0

/-- The writer has written all of the flat array up to its position. -/
structure ScatterListWriter.Tracks (w : ScatterListWriter) (flat : FlatBuffer UInt8) : Prop where
  cells : w.sgl.buffers.flatten = flat.cells
  written : w.sgl.len = flat.pos
  left : w.len = flat.cells.length - flat.pos
  cursor : CursorInside w.sgl w.index w.offset

/-- The reader has read the flat array up to its position. -/
structure ScatterListReader.Tracks (reader : ScatterListReader) (flat : FlatBuffer UInt8) :
    Prop where
  cells : reader.sgl.buffers.flatten = flat.cells
  left : reader.len = flat.cells.length - flat.pos
  cursor : CursorInside reader.sgl reader.index reader.offset

theorem Position.cursorInside {sgl : ScatterList} {index offset pos : Nat}
    (h : Position sgl.buffers index offset pos) : CursorInside sgl index offset := by
  obtain ⟨hle, hcursor, -⟩ := h
  cases hdrop : sgl.buffers.drop index with
  | nil =>
    rw [hdrop] at hcursor
    exact Or.inr ⟨Nat.le_antisymm hle (List.drop_eq_nil_iff.mp hdrop), hcursor⟩
  | cons buffer rest =>
    rw [hdrop] at hcursor
    have hbuffer : sgl.buffers[index]? = some buffer := by
      rw [← List.head?_drop, hdrop, List.head?_cons]
    exact Or.inl ⟨buffer, hbuffer, hcursor⟩

/-- The buffers before the index and the offset add up to the position. -/
theorem Position.sum_eq {buffers : List (List UInt8)} {index offset pos : Nat}
    (h : Position buffers index offset pos) :
    ((buffers.take index).map List.length).sum + offset = pos := by
  rw [← List.length_flatten]
  exact h.pos_eq

section Tracks

variable {w : ScatterListWriter} {reader : ScatterListReader} {flat : FlatBuffer UInt8}

/-- Where the writer stands in the flat array, and that its list counts the bytes. -/
structure ScatterListWriter.Stands (w : ScatterListWriter) (flat : FlatBuffer UInt8) : Prop where
  here : w.sgl.At w.index w.offset flat.cells flat.pos
  written : w.sgl.len = flat.pos

theorem ScatterListWriter.Stands.tracks (h : w.Stands flat) : w.Tracks flat where
  cells := h.here.flatten
  written := h.written
  left := by rw [len, h.here.position.sum_eq, h.here.capacity]
  cursor := h.here.position.cursorInside

theorem ScatterList.At.tracks (h : reader.sgl.At reader.index reader.offset flat.cells flat.pos) :
    reader.Tracks flat where
  cells := h.flatten
  left := by rw [ScatterListReader.len, h.position.sum_eq, h.capacity]
  cursor := h.position.cursorInside

theorem ScatterListWriter.Stands.write (h : w.Stands flat) (p : List UInt8) :
    (w.write p).1.Stands (flat.write p) ∧
      (w.write p).2 =
        (flat.fits p, if flat.fits p = p.length then none else some .shortBuffer) := by
  obtain ⟨hat, hret⟩ := w.write_spec h.here p
  refine ⟨⟨hat, ?_⟩, hret⟩
  have hlen : (w.write p).1.sgl.len = w.sgl.len + (w.write p).2.1 := rfl
  rw [hlen, hret, h.written]
  rfl

theorem ScatterListWriter.Stands.writes (h : w.Stands flat) (ps : List (List UInt8)) :
    (w.writes ps).Stands (ps.foldl FlatBuffer.write flat) := by
  induction ps generalizing w flat with
  | nil => exact h
  | cons p ps ih => exact ih (h.write p).1

theorem ScatterListReader.read_flat
    (h : reader.sgl.At reader.index reader.offset flat.cells flat.pos) (n : Nat) :
    let r := reader.read n
    r.1 = flat.next n ∧
      r.2.1.sgl.At r.2.1.index r.2.1.offset (flat.skip n).cells (flat.skip n).pos ∧
      r.2.2 = if (flat.next n).length = n then none else some .eof := by
  obtain ⟨hbytes, hat, herr⟩ := reader.read_spec h n
  refine ⟨hbytes, ?_, ?_⟩
  · change ScatterList.At _ _ _ flat.cells (flat.pos + (flat.next n).length)
    rw [FlatBuffer.next_length]
    exact hat
  · rw [FlatBuffer.next_length]
    exact herr

theorem ScatterListReader.reads_flat
    (h : reader.sgl.At reader.index reader.offset flat.cells flat.pos) (ns : List Nat) :
    (reader.reads ns).sgl = reader.sgl ∧
      (reader.reads ns).sgl.At (reader.reads ns).index (reader.reads ns).offset
        (ns.foldl FlatBuffer.skip flat).cells (ns.foldl FlatBuffer.skip flat).pos := by
  induction ns generalizing reader flat with
  | nil => exact ⟨rfl, h⟩
  | cons n ns ih => exact ih (reader.read_flat h n).2.1

end Tracks

/-- The loop ends by itself: more rounds do not make more buffers. -/
theorem newBuffers_of_le {bufferLen datalen fuel : Nat} (h : 1 ≤ bufferLen) (hfuel : datalen ≤ fuel) :
    newBuffers bufferLen fuel datalen = newBuffers bufferLen datalen datalen := by
  induction datalen using Nat.strongRecOn generalizing fuel with
  | ind datalen ih =>
    cases datalen with
    | zero => cases fuel <;> simp [newBuffers]
    | succ m =>
      cases fuel with
      | zero => omega
      | succ fuel =>
        rw [newBuffers, newBuffers, if_pos (Nat.succ_pos m), if_pos (Nat.succ_pos m)]
        have hlt : m + 1 - min (m + 1) bufferLen < m + 1 := by omega
        rw [ih _ hlt (show _ ≤ fuel by omega), ih _ hlt (show _ ≤ m by omega)]

/-- A list of buffers, written through one writer and then read through one reader, is one zeroed
array: the calls return what they would for the array, and the list, the writer and the reader count
what has been written and read. -/
theorem scatterList_is_flat {bufferLen : Nat} (h : 1 ≤ bufferLen) (datalen : Nat)
    (ps : List (List UInt8)) (ns : List Nat) :
    (∀ fuel, datalen ≤ fuel →
      newBuffers bufferLen fuel datalen = (newScatterList datalen bufferLen).buffers) ∧
    ((newScatterList datalen bufferLen).buffers.map List.length).sum = datalen ∧
    let w := ({ sgl := newScatterList datalen bufferLen } : ScatterListWriter).writes ps
    let flat := ps.foldl FlatBuffer.write (.blank datalen 0)
    let reader := ({ sgl := w.sgl } : ScatterListReader).reads ns
    let source := ns.foldl FlatBuffer.skip flat.rewind
    flat.cells.length = datalen ∧ source.cells = flat.cells ∧
    w.Tracks flat ∧
    (∀ p, (w.write p).2 =
        (flat.fits p, if flat.fits p = p.length then none else some .shortBuffer) ∧
      (w.write p).1.sgl.buffers.flatten.take flat.pos = flat.cells.take flat.pos) ∧
    reader.Tracks source ∧ reader.sgl = w.sgl ∧
    ∀ n, (reader.read n).1 = source.next n ∧
      (reader.read n).2.2 = if (source.next n).length = n then none else some .eof := by
  have hnew : ({ sgl := newScatterList datalen bufferLen } : ScatterListWriter).Stands
      (.blank datalen 0) := ⟨ScatterList.at_new h, rfl⟩
  have htotal : ((newScatterList datalen bufferLen).buffers.map List.length).sum = datalen := by
    rw [← List.length_flatten, hnew.here.flatten]
    exact List.length_replicate
  refine ⟨fun fuel hfuel => newBuffers_of_le h hfuel, htotal, ?_⟩
  intro w flat reader source
  have hwriter : w.Stands flat := hnew.writes ps
  have hrewound : w.sgl.At 0 0 flat.rewind.cells flat.rewind.pos := hwriter.here.rewind
  obtain ⟨hsgl, hreader⟩ :=
    @ScatterListReader.reads_flat { sgl := w.sgl } flat.rewind hrewound ns
  refine ⟨?_, FlatBuffer.foldl_skip_cells flat.rewind ns, hwriter.tracks, ?_, hreader.tracks, hsgl, ?_⟩
  · rw [FlatBuffer.foldl_write_cells_length]
    exact List.length_replicate
  · intro p
    obtain ⟨hstands, hret⟩ := hwriter.write p
    refine ⟨hret, ?_⟩
    rw [hstands.here.flatten]
    exact flat.take_write p
  · intro n
    obtain ⟨hbytes, -, herr⟩ := reader.read_flat hreader n
    exact ⟨hbytes, herr⟩

/-- Buffers of two bytes; the second write does not fit, and the second read comes to the end. -/
theorem scatterList_is_flat_straddling :
    let w := ({ sgl := newScatterList 5 2 } : ScatterListWriter).writes [[1, 2, 3]]
    let full := ({ sgl := newScatterList 5 2 } : ScatterListWriter).writes [[1, 2, 3], [4, 5, 6]]
    let reader := ({ sgl := full.sgl } : ScatterListReader).reads [4]
    (w.write [4, 5, 6]).2 = (2, some .shortBuffer) ∧ full.len = 0 ∧
      (reader.read 4).1 = [5] ∧ (reader.read 4).2.2 = some .eof := by
  have hb : 1 ≤ 2 := by decide
  obtain ⟨-, -, -, -, -, hwrite, -⟩ := scatterList_is_flat hb 5 [[1, 2, 3]] []
  obtain ⟨-, -, -, -, hfull, -, -, -, hread⟩ :=
    scatterList_is_flat hb 5 [[1, 2, 3], [4, 5, 6]] [4]
  exact ⟨(hwrite [4, 5, 6]).1, hfull.left, (hread 4).1, (hread 4).2⟩

end DiscoveryClient
