import Mathlib.Data.List.Basic

/-! Slices of Go: the elements of a slice are the first cells of an array. Appending overwrites the
cells behind them while there are any, and moves to a larger array when there are not. -/

/-- The array from the slice's first element to the end of its capacity. -/
structure GoSlice (α : Type) where
  array : List α
  len : Nat
  len_le : len ≤ array.length

namespace GoSlice

variable {α : Type}

def empty : GoSlice α where
  array := []
  len := 0
  len_le := Nat.le_refl 0

def elems (s : GoSlice α) : List α := s.array.take s.len

theorem elems_length (s : GoSlice α) : s.elems.length = s.len := by
  rw [elems, List.length_take]
  exact Nat.min_eq_left s.len_le

/-- The slice `s[:0]`, which still has the array. -/
def reset (s : GoSlice α) : GoSlice α where
  array := s.array
  len := 0
  len_le := Nat.zero_le _

/-- What `append` leaves in the array; the cells of a larger one behind the elements are `spare`. -/
def appendArray (s : GoSlice α) (xs spare : List α) : List α :=
  if s.len + xs.length ≤ s.array.length then
    s.elems ++ xs ++ s.array.drop (s.len + xs.length)
  else s.elems ++ xs ++ spare

theorem take_appendArray (s : GoSlice α) (xs spare : List α) :
    (s.appendArray xs spare).take (s.len + xs.length) = s.elems ++ xs := by
  have hlen : (s.elems ++ xs).length = s.len + xs.length := by
    rw [List.length_append, elems_length]
  unfold appendArray
  split
  next => exact List.take_left' hlen
  next => exact List.take_left' hlen

/-- `append(s, xs...)`. The elements to be appended are read before a cell is overwritten, so they
may be those of a slice of the same array. -/
def append (s : GoSlice α) (xs spare : List α) : GoSlice α where
  array := s.appendArray xs spare
  len := s.len + xs.length
  len_le := by
    have hlen := congrArg List.length (s.take_appendArray xs spare)
    rw [List.length_take, List.length_append, elems_length] at hlen
    omega

@[simp] theorem elems_append (s : GoSlice α) (xs spare : List α) :
    (s.append xs spare).elems = s.elems ++ xs := s.take_appendArray xs spare

/-- `append(s[:0], s[1:]...)`, which removes the first element in place. -/
def shift (s : GoSlice α) : GoSlice α := s.reset.append s.elems.tail []

@[simp] theorem elems_shift (s : GoSlice α) : s.shift.elems = s.elems.tail := by
  rw [shift, elems_append]
  rfl

end GoSlice
