import Mathlib.Data.List.Basic

/-! One array that is written, or read, from its front to its back. What does not fit is not
written, and what is not there is not read. -/

/-- The array and the position that the next access starts at. -/
structure FlatBuffer (α : Type) where
  cells : List α
  pos : Nat
  pos_le : pos ≤ cells.length

namespace FlatBuffer

variable {α : Type}

def blank (n : Nat) (x : α) : FlatBuffer α where
  cells := List.replicate n x
  pos := 0
  pos_le := Nat.zero_le _

def rewind (f : FlatBuffer α) : FlatBuffer α where
  cells := f.cells
  pos := 0
  pos_le := Nat.zero_le _

def room (f : FlatBuffer α) : Nat := f.cells.length - f.pos

/-- How many elements of `p` can be written. -/
def fits (f : FlatBuffer α) (p : List α) : Nat := min p.length f.room

theorem splice_length {l p : List α} {i k : Nat} (hk : k ≤ p.length) (h : i + k ≤ l.length) :
    (l.take i ++ p.take k ++ l.drop (i + k)).length = l.length := by
  simp only [List.length_append, List.length_take, List.length_drop]
  omega

theorem pos_add_fits_le (f : FlatBuffer α) (p : List α) : f.pos + f.fits p ≤ f.cells.length := by
  have hpos := f.pos_le
  unfold fits room
  omega

theorem fits_le (f : FlatBuffer α) (p : List α) : f.fits p ≤ p.length := Nat.min_le_left _ _

def write (f : FlatBuffer α) (p : List α) : FlatBuffer α where
  cells := f.cells.take f.pos ++ p.take (f.fits p) ++ f.cells.drop (f.pos + f.fits p)
  pos := f.pos + f.fits p
  pos_le := by
    rw [splice_length (f.fits_le p) (f.pos_add_fits_le p)]
    exact f.pos_add_fits_le p

/-- The elements behind the position, `n` of them at most. -/
def next (f : FlatBuffer α) (n : Nat) : List α := (f.cells.drop f.pos).take n

theorem next_length (f : FlatBuffer α) (n : Nat) : (f.next n).length = min n f.room := by
  rw [next, List.length_take, List.length_drop, room]

/-- The position after `n` elements have been read, or as many as there are. -/
def skip (f : FlatBuffer α) (n : Nat) : FlatBuffer α where
  cells := f.cells
  pos := f.pos + (f.next n).length
  pos_le := by
    have hpos := f.pos_le
    rw [next_length, room]
    omega

theorem write_cells_length (f : FlatBuffer α) (p : List α) :
    (f.write p).cells.length = f.cells.length :=
  splice_length (f.fits_le p) (f.pos_add_fits_le p)

/-- What was written before stays as it is. -/
theorem take_write (f : FlatBuffer α) (p : List α) :
    (f.write p).cells.take f.pos = f.cells.take f.pos := by
  have hlen : (f.cells.take f.pos).length = f.pos := by
    rw [List.length_take]
    exact Nat.min_eq_left f.pos_le
  change (f.cells.take f.pos ++ p.take (f.fits p) ++ _).take f.pos = _
  rw [List.append_assoc, List.take_left' hlen]

theorem foldl_write_cells_length (f : FlatBuffer α) (ps : List (List α)) :
    (ps.foldl write f).cells.length = f.cells.length := by
  induction ps generalizing f with
  | nil => rfl
  | cons p ps ih => rw [List.foldl_cons, ih, write_cells_length]

theorem foldl_skip_cells (f : FlatBuffer α) (ns : List Nat) :
    (ns.foldl skip f).cells = f.cells := by
  induction ns generalizing f with
  | nil => rfl
  | cons n ns ih => rw [List.foldl_cons, ih, skip]

end FlatBuffer
