import Mathlib.Algebra.Ring.Nat
import Mathlib.Data.List.Basic

/-! The part of the `struc` package that lays out structures of fixed-size fields: packing writes
the fields into one buffer, unpacking reads them from a reader one after the other. -/

namespace Struc

/-- The little-endian bytes of a number, what does not fit cut off. -/
def putUint : Nat → Nat → List UInt8
  | 0, _ => []
  | size + 1, n => UInt8.ofNat n :: putUint size (n / 256)

def getUint : List UInt8 → Nat
  | [] => 0
  | b :: bs => b.toNat + 256 * getUint bs

/-- A field with its value. The size of a `string` is fixed by its tag, not by the string. -/
inductive Field
  | uint (size n : Nat)
  | array (bytes : List UInt8)
  | string (size : Nat) (s : List UInt8)

namespace Field

/-- What `Sizeof` counts for the field. -/
def size : Field → Nat
  | .uint size _ => size
  | .array bytes => bytes.length
  | .string size _ => size

/-- Writing bytes one by one panics when one of them is out of range. -/
def put (buf : List UInt8) (pos : Nat) (bytes : List UInt8) : Option (List UInt8) :=
  if pos + bytes.length ≤ buf.length then
    some (buf.take pos ++ bytes ++ buf.drop (pos + bytes.length))
  else none

/-- `copy(buf[pos:], bytes)`, which panics only when the slice does, and copies what fits. -/
def copy (buf : List UInt8) (pos : Nat) (bytes : List UInt8) : Option (List UInt8) :=
  if pos ≤ buf.length then
    some (buf.take pos ++ bytes.take (buf.length - pos) ++ buf.drop (pos + bytes.length))
  else none

/-- The buffer after the field is packed at `pos`, and the next position. A string is copied as long
as it is: a longer one than its field moves all that follows. -/
def pack (buf : List UInt8) (pos : Nat) : Field → Option (List UInt8 × Nat)
  | .uint size n => do
    let buf ← put buf pos (putUint size n)
    return (buf, pos + size)
  | .array bytes => do
    let buf ← put buf pos bytes
    return (buf, pos + bytes.length)
  | .string size s => do
    let buf ← copy buf pos s
    if s.length < size then
      let buf ← copy buf (pos + s.length) (List.replicate (size - s.length) 0)
      return (buf, pos + size)
    else return (buf, pos + s.length)

/-- The bytes of a field that fits. -/
def bytes : Field → List UInt8
  | .uint size n => putUint size n
  | .array bytes => bytes
  | .string size s => s ++ List.replicate (size - s.length) 0

def Fits : Field → Prop
  | .string size s => s.length ≤ size
  | _ => True

instance : DecidablePred Fits
  | .uint .. => isTrue trivial
  | .array .. => isTrue trivial
  | .string size s => inferInstanceAs (Decidable (s.length ≤ size))

end Field

def sizeof (fields : List Field) : Nat := (fields.map Field.size).sum

def packFrom : List Field → List UInt8 → Nat → Option (List UInt8)
  | [], buf, _ => some buf
  | f :: fields, buf, pos =>
    match f.pack buf pos with
    | none => none
    | some (buf, pos) => packFrom fields buf pos

/-- The buffer `Pack` hands to its writer; `none` when packing panics. -/
def pack (fields : List Field) : Option (List UInt8) :=
  packFrom fields (List.replicate (sizeof fields) 0) 0

/-- `io.ReadFull` of `size` bytes. -/
def readFull (size : Nat) (r : List UInt8) : Option (List UInt8 × List UInt8) :=
  if size ≤ r.length then some (r.take size, r.drop size) else none

def readUint (size : Nat) (r : List UInt8) : Option (Nat × List UInt8) :=
  (readFull size r).map fun x => (getUint x.1, x.2)

def readArray (size : Nat) (r : List UInt8) : Option (Vector UInt8 size × List UInt8) :=
  (readFull size r).map fun x => (Vector.ofFn fun i => x.1.getD i 0, x.2)

@[simp] theorem putUint_length (size n : Nat) : (putUint size n).length = size := by
  induction size generalizing n with
  | zero => rfl
  | succ size ih => rw [putUint, List.length_cons, ih]

theorem getUint_putUint (size n : Nat) : getUint (putUint size n) = n % 256 ^ size := by
  induction size generalizing n with
  | zero => simp [putUint, getUint, Nat.mod_one]
  | succ size ih =>
    have hbyte : (UInt8.ofNat n).toNat = n % 256 := UInt8.toNat_ofNat'
    rw [putUint, getUint, ih, hbyte, Nat.pow_succ, Nat.mul_comm (256 ^ size) 256, Nat.mod_mul]

theorem putUint_getUint (bs : List UInt8) : putUint bs.length (getUint bs) = bs := by
  induction bs with
  | nil => rfl
  | cons b bs ih =>
    have hlt := b.toNat_lt
    have hdiv : (b.toNat + 256 * getUint bs) / 256 = getUint bs := by omega
    have hbyte : UInt8.ofNat (b.toNat + 256 * getUint bs) = b := by
      apply UInt8.toNat_inj.mp
      rw [UInt8.toNat_ofNat']
      omega
    rw [List.length_cons, putUint, getUint, hdiv, hbyte, ih]

theorem getUint_lt (bs : List UInt8) : getUint bs < 256 ^ bs.length := by
  induction bs with
  | nil => simp [getUint]
  | cons b bs ih =>
    have hlt := b.toNat_lt
    rw [getUint, List.length_cons, Nat.pow_succ]
    omega

theorem getUint_append (as bs : List UInt8) :
    getUint (as ++ bs) = getUint as + 256 ^ as.length * getUint bs := by
  induction as with
  | nil => simp [getUint]
  | cons a as ih =>
    rw [List.cons_append, getUint, getUint, ih, List.length_cons, Nat.pow_succ, Nat.mul_add,
      Nat.mul_comm (256 ^ as.length) 256, Nat.mul_assoc, Nat.add_assoc]

theorem sizeof_append (fs gs : List Field) : sizeof (fs ++ gs) = sizeof fs + sizeof gs := by
  simp [sizeof]

theorem put_zeros {done bytes : List UInt8} {room : Nat} (h : bytes.length ≤ room) :
    Field.put (done ++ List.replicate room 0) done.length bytes =
      some ((done ++ bytes) ++ List.replicate (room - bytes.length) 0) := by
  rw [Field.put, if_pos (by simp; omega)]
  simp [List.drop_append]

theorem copy_zeros {done bytes : List UInt8} {room : Nat} (h : bytes.length ≤ room) :
    Field.copy (done ++ List.replicate room 0) done.length bytes =
      some ((done ++ bytes) ++ List.replicate (room - bytes.length) 0) := by
  rw [Field.copy, if_pos (by simp)]
  have htake : bytes.take room = bytes := List.take_of_length_le h
  simp [List.drop_append, htake]

theorem Field.pack_zeros {f : Field} {done : List UInt8} {room : Nat} (fits : f.Fits)
    (h : f.size ≤ room) :
    f.pack (done ++ List.replicate room 0) done.length =
      some ((done ++ f.bytes) ++ List.replicate (room - f.size) 0, (done ++ f.bytes).length) := by
  cases f with
  | uint size n =>
    have hle : (putUint size n).length ≤ room := by simpa [Field.size] using h
    simp [Field.pack, put_zeros hle, Field.bytes, Field.size]
  | array bytes =>
    have hle : bytes.length ≤ room := h
    simp [Field.pack, put_zeros hle, Field.bytes, Field.size]
  | string size s =>
    have hfits : s.length ≤ size := fits
    have hsize : size ≤ room := h
    have hcopy := @copy_zeros done s room (by omega)
    by_cases hlt : s.length < size
    · have hroom : room - s.length - (size - s.length) = room - size := by omega
      have hpad := @copy_zeros (done ++ s) (List.replicate (size - s.length) 0) (room - s.length)
        (by simp; omega)
      rw [List.length_append, List.length_replicate, hroom] at hpad
      simp only [Field.pack, hcopy, Option.bind_eq_bind, Option.bind_some, if_pos hlt, hpad]
      simp only [Field.bytes, Field.size, List.append_assoc, List.length_append,
        List.length_replicate, Nat.add_sub_cancel' hfits]
      rfl
    · have heq : s.length = size := by omega
      simp [Field.pack, hcopy, Field.bytes, Field.size, heq]

theorem packFrom_zeros {fields : List Field} {done : List UInt8}
    (fits : ∀ f ∈ fields, f.Fits) :
    packFrom fields (done ++ List.replicate (sizeof fields) 0) done.length =
      some (done ++ fields.flatMap Field.bytes) := by
  induction fields generalizing done with
  | nil => simp [packFrom, sizeof]
  | cons f fields ih =>
    have hsize : sizeof (f :: fields) = f.size + sizeof fields := by simp [sizeof]
    have hpack := @Field.pack_zeros f done (sizeof (f :: fields)) (fits f (by simp)) (by omega)
    rw [packFrom, hpack]
    have hroom : sizeof (f :: fields) - f.size = sizeof fields := by omega
    simp only [hroom]
    rw [ih (fun g hg => fits g (by simp [hg])), List.flatMap_cons, List.append_assoc]

/-- Fields that fit are laid out one after the other. -/
theorem pack_of_fits {fields : List Field} (fits : ∀ f ∈ fields, f.Fits) :
    pack fields = some (fields.flatMap Field.bytes) :=
  @packFrom_zeros fields [] fits

theorem Field.bytes_length {f : Field} (fits : f.Fits) : f.bytes.length = f.size := by
  cases f with
  | uint size n => exact putUint_length size n
  | array bytes => rfl
  | string size s =>
    have hle : s.length ≤ size := fits
    simp only [Field.bytes, Field.size, List.length_append, List.length_replicate]
    omega

theorem flatMap_bytes_length {fields : List Field} (fits : ∀ f ∈ fields, f.Fits) :
    (fields.flatMap Field.bytes).length = sizeof fields := by
  rw [List.length_flatMap, sizeof]
  congr 1
  exact List.map_congr_left fun f hf => Field.bytes_length (fits f hf)

/-- A field stands behind the sizes of those before it. -/
theorem drop_sizeof {fields : List Field} (fits : ∀ f ∈ fields, f.Fits) {i : Nat} {f : Field}
    (h : fields[i]? = some f) :
    (fields.flatMap Field.bytes).drop (sizeof (fields.take i)) =
      f.bytes ++ (fields.drop (i + 1)).flatMap Field.bytes := by
  obtain ⟨hi, hf⟩ := List.getElem?_eq_some_iff.mp h
  have hsplit : fields.flatMap Field.bytes = (fields.take i).flatMap Field.bytes ++
      (f.bytes ++ (fields.drop (i + 1)).flatMap Field.bytes) := by
    rw [← List.flatMap_cons, ← hf, ← List.drop_eq_getElem_cons hi, ← List.flatMap_append,
      List.take_append_drop]
  rw [hsplit, List.drop_left' (flatMap_bytes_length fun f hf => fits f (List.mem_of_mem_take hf))]

theorem put_length {buf bytes buf' : List UInt8} {pos : Nat}
    (h : Field.put buf pos bytes = some buf') :
    buf'.length = buf.length ∧ pos + bytes.length ≤ buf.length := by
  unfold Field.put at h
  split at h
  next hle =>
    cases Option.some.inj h
    refine ⟨?_, hle⟩
    simp only [List.length_append, List.length_take, List.length_drop]
    omega
  next => simp at h

theorem copy_length {buf bytes buf' : List UInt8} {pos : Nat}
    (h : Field.copy buf pos bytes = some buf') : buf'.length = buf.length := by
  unfold Field.copy at h
  split at h
  next hle =>
    cases Option.some.inj h
    simp only [List.length_append, List.length_take, List.length_drop]
    omega
  next => simp at h

theorem Field.pack_pos {f : Field} {buf buf' : List UInt8} {pos pos' : Nat}
    (h : f.pack buf pos = some (buf', pos')) :
    buf'.length = buf.length ∧ pos + f.size ≤ pos' ∧ (pos' ≤ pos + f.size → f.Fits) := by
  cases f with
  | uint size n =>
    obtain ⟨out, hput, heq⟩ := Option.bind_eq_some_iff.mp h
    cases Option.some.inj heq
    exact ⟨(put_length hput).1, le_rfl, fun _ => trivial⟩
  | array bytes =>
    obtain ⟨out, hput, heq⟩ := Option.bind_eq_some_iff.mp h
    cases Option.some.inj heq
    exact ⟨(put_length hput).1, le_rfl, fun _ => trivial⟩
  | string size s =>
    obtain ⟨out, hcopy, heq⟩ := Option.bind_eq_some_iff.mp h
    split at heq
    next hlt =>
      obtain ⟨out', hpad, heq⟩ := Option.bind_eq_some_iff.mp heq
      cases Option.some.inj heq
      exact ⟨(copy_length hpad).trans (copy_length hcopy), le_rfl, fun _ => Nat.le_of_lt hlt⟩
    next hge =>
      cases Option.some.inj heq
      refine ⟨copy_length hcopy, ?_, ?_⟩
      · simp only [Field.size]
        omega
      · intro hle
        simp only [Field.size] at hle
        show s.length ≤ size
        omega

/-- An array at the end has to find room behind all that was packed before it. -/
theorem packFrom_bound {fields : List Field} {bytes buf out : List UInt8} {pos : Nat}
    (h : packFrom (fields ++ [.array bytes]) buf pos = some out) :
    pos + sizeof fields + bytes.length ≤ buf.length := by
  induction fields generalizing buf pos with
  | nil =>
    simp only [List.nil_append, packFrom] at h
    split at h
    next => simp at h
    next buf' pos' hpack =>
      obtain ⟨out', hput, -⟩ := Option.bind_eq_some_iff.mp hpack
      exact (put_length hput).2
  | cons f fields ih =>
    simp only [List.cons_append, packFrom] at h
    split at h
    next => simp at h
    next buf' pos' hpack =>
      obtain ⟨hlen, hpos, -⟩ := Field.pack_pos hpack
      have hbound := ih h
      have hsize : sizeof (f :: fields) = f.size + sizeof fields := by simp [sizeof]
      omega

theorem packFrom_fits {fields : List Field} {bytes buf out : List UInt8} {pos : Nat}
    (h : packFrom (fields ++ [.array bytes]) buf pos = some out)
    (hbuf : buf.length ≤ pos + sizeof fields + bytes.length) : ∀ f ∈ fields, f.Fits := by
  induction fields generalizing buf pos with
  | nil => simp
  | cons f fields ih =>
    simp only [List.cons_append, packFrom] at h
    split at h
    next => simp at h
    next buf' pos' hpack =>
      obtain ⟨hlen, hpos, hfits⟩ := Field.pack_pos hpack
      have hbound := packFrom_bound h
      have hsize : sizeof (f :: fields) = f.size + sizeof fields := by simp [sizeof]
      intro g hg
      rcases List.mem_cons.mp hg with rfl | hg
      · exact hfits (by omega)
      · exact ih h (by omega) g hg

/-- A string that is longer than its field leaves no room for an array behind it: packing panics. -/
theorem fits_of_pack {fields : List Field} {bytes out : List UInt8}
    (h : pack (fields ++ [.array bytes]) = some out) : ∀ f ∈ fields, f.Fits := by
  apply packFrom_fits h
  rw [List.length_replicate, sizeof_append]
  simp [sizeof, Field.size]

/-- A field that has been read; it keeps `simp` out of what is read after it. -/
theorem some_bind {α β : Type} (a : α) (f : α → Option β) : (some a >>= f) = f a := rfl

theorem readFull_append (bytes r : List UInt8) :
    readFull bytes.length (bytes ++ r) = some (bytes, r) := by
  simp [readFull]

theorem readFull_of_le {size : Nat} {r : List UInt8} (h : size ≤ r.length) :
    readFull size r = some (r.take size, r.drop size) := if_pos h

@[simp] theorem readUint_append (size n : Nat) (r : List UInt8) :
    readUint size (putUint size n ++ r) = some (n % 256 ^ size, r) := by
  have h := readFull_append (putUint size n) r
  rw [putUint_length] at h
  rw [readUint, h, Option.map_some, getUint_putUint]

@[simp] theorem readArray_append {size : Nat} (v : Vector UInt8 size) (r : List UInt8) :
    readArray size (v.toList ++ r) = some (v, r) := by
  have h := readFull_append v.toList r
  rw [Vector.length_toList] at h
  rw [readArray, h, Option.map_some]
  congr 2
  ext i hi
  simp

/-- The bytes of a string field, read back. -/
theorem readFull_string {size : Nat} {s : List UInt8} (h : s.length ≤ size) (r : List UInt8) :
    readFull size (s ++ (List.replicate (size - s.length) 0 ++ r)) =
      some (s ++ List.replicate (size - s.length) 0, r) := by
  have hread := readFull_append (s ++ List.replicate (size - s.length) 0) r
  rwa [List.length_append, List.length_replicate, Nat.add_sub_cancel' h, List.append_assoc] at hread

theorem readUint_of_le {size : Nat} {r : List UInt8} (h : size ≤ r.length) :
    ∃ n, readUint size r = some (n, r.drop size) :=
  ⟨getUint (r.take size), by rw [readUint, readFull_of_le h, Option.map_some]⟩

theorem readFull_some {size : Nat} {r : List UInt8} {x : List UInt8 × List UInt8}
    (h : readFull size r = some x) : size ≤ r.length ∧ x = (r.take size, r.drop size) := by
  unfold readFull at h
  split at h
  next hle => exact ⟨hle, (Option.some.inj h).symm⟩
  next => simp at h

theorem readUint_some {size : Nat} {r : List UInt8} {x : Nat × List UInt8}
    (h : readUint size r = some x) : size ≤ r.length ∧ x = (getUint (r.take size), r.drop size) := by
  obtain ⟨y, hread, rfl⟩ := Option.map_eq_some_iff.mp h
  obtain ⟨hle, rfl⟩ := readFull_some hread
  exact ⟨hle, rfl⟩

/-- What is read is the number's bytes and what follows them. -/
theorem readUint_split {size : Nat} {r : List UInt8} {x : Nat × List UInt8}
    (h : readUint size r = some x) : r = putUint size x.1 ++ x.2 ∧ x.1 < 256 ^ size := by
  obtain ⟨hle, rfl⟩ := readUint_some h
  have hlen : (r.take size).length = size := by
    rw [List.length_take]
    omega
  have hput := putUint_getUint (r.take size)
  have hlt := getUint_lt (r.take size)
  rw [hlen] at hput hlt
  exact ⟨by rw [hput, List.take_append_drop], hlt⟩

theorem readArray_some {size : Nat} {r : List UInt8} {x : Vector UInt8 size × List UInt8}
    (h : readArray size r = some x) : size ≤ r.length ∧ x.2 = r.drop size := by
  obtain ⟨y, hread, rfl⟩ := Option.map_eq_some_iff.mp h
  obtain ⟨hle, rfl⟩ := readFull_some hread
  exact ⟨hle, rfl⟩

theorem readArray_split {size : Nat} {r : List UInt8} {x : Vector UInt8 size × List UInt8}
    (h : readArray size r = some x) : r = x.1.toList ++ x.2 := by
  obtain ⟨y, hread, rfl⟩ := Option.map_eq_some_iff.mp h
  obtain ⟨hle, rfl⟩ := readFull_some hread
  have htake : (Vector.ofFn fun i : Fin size => (r.take size).getD i 0).toList = r.take size := by
    refine List.ext_getElem (by simp [hle]) fun i h₁ h₂ => ?_
    have hi : i < r.length := by
      rw [List.length_take] at h₂
      omega
    simp [List.getElem?_eq_getElem hi]
  rw [htake, List.take_append_drop]

theorem readArray_of_le {size : Nat} {r : List UInt8} (h : size ≤ r.length) :
    ∃ v, readArray size r = some (v, r.drop size) :=
  ⟨_, by rw [readArray, readFull_of_le h, Option.map_some]⟩

end Struc
