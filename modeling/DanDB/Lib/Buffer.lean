import Mathlib

/-!
# Flat buffers

A buffer is a list of cells.  Two operations read and write a stretch of it:
`slice` copies cells out and `splice` overwrites them in place.  Everything a
program does to a block of memory by `memcpy` and `memmove` is a combination of
the two, so the laws below are the whole theory: each read of a spliced buffer
either falls inside the new data or does not see it.

`getElem?_slice` and `getElem?_splice` say what the two operations do cell by
cell.  The laws on slices of splices follow from them by extensionality.
-/

namespace Buffer

variable {α : Type*}

/-- The `len` cells of `buf` from `off` on. -/
def slice (buf : List α) (off len : Nat) : List α := (buf.drop off).take len

/-- The buffer with its cells from `off` on overwritten by `data`. -/
def splice (buf : List α) (off : Nat) (data : List α) : List α :=
  buf.take off ++ data ++ buf.drop (off + data.length)

/-! ## Cell by cell -/

theorem getElem?_slice (buf : List α) (off len i : Nat) :
    (slice buf off len)[i]? = if i < len then buf[off + i]? else none := by
  unfold slice
  rw [List.getElem?_take]
  split
  · rw [List.getElem?_drop]
  · rfl

theorem getElem?_splice {buf : List α} {off : Nat} {data : List α}
    (h : off + data.length ≤ buf.length) (i : Nat) :
    (splice buf off data)[i]? =
      if i < off then buf[i]?
      else if i < off + data.length then data[i - off]? else buf[i]? := by
  have hoff : (buf.take off).length = off := by
    rw [List.length_take]; omega
  unfold splice
  rw [List.append_assoc]
  by_cases h1 : i < off
  · rw [if_pos h1, List.getElem?_append_left (by omega), List.getElem?_take, if_pos h1]
  · rw [if_neg h1, List.getElem?_append_right (by omega), hoff]
    by_cases h2 : i < off + data.length
    · rw [if_pos h2, List.getElem?_append_left (by omega)]
    · rw [if_neg h2, List.getElem?_append_right (by omega), List.getElem?_drop]
      congr 1
      omega

/-! ## Lengths -/

theorem length_slice {buf : List α} {off len : Nat} (h : off + len ≤ buf.length) :
    (slice buf off len).length = len := by
  unfold slice
  rw [List.length_take, List.length_drop]
  omega

theorem length_slice_le (buf : List α) (off len : Nat) : (slice buf off len).length ≤ len := by
  unfold slice
  rw [List.length_take]
  omega

theorem length_splice {buf : List α} {off : Nat} {data : List α}
    (h : off + data.length ≤ buf.length) : (splice buf off data).length = buf.length := by
  unfold splice
  simp only [List.length_append, List.length_take, List.length_drop]
  omega

/-! ## Slices of splices -/

theorem slice_splice_same {buf : List α} {off : Nat} {data : List α}
    (h : off + data.length ≤ buf.length) : slice (splice buf off data) off data.length = data := by
  apply List.ext_getElem?
  intro i
  rw [getElem?_slice, getElem?_splice h]
  by_cases hi : i < data.length
  · rw [if_pos hi, if_neg (by omega), if_pos (by omega)]
    congr 1
    omega
  · rw [if_neg hi, List.getElem?_eq_none (by omega)]

/-- A read that ends before the new data does not see it. -/
theorem slice_splice_before {buf : List α} {off : Nat} {data : List α} {off' len : Nat}
    (h : off + data.length ≤ buf.length) (hb : off' + len ≤ off) :
    slice (splice buf off data) off' len = slice buf off' len := by
  apply List.ext_getElem?
  intro i
  rw [getElem?_slice, getElem?_slice]
  split
  · rw [getElem?_splice h, if_pos (by omega)]
  · rfl

/-- A read that starts after the new data does not see it. -/
theorem slice_splice_after {buf : List α} {off : Nat} {data : List α} {off' len : Nat}
    (h : off + data.length ≤ buf.length) (ha : off + data.length ≤ off') :
    slice (splice buf off data) off' len = slice buf off' len := by
  apply List.ext_getElem?
  intro i
  rw [getElem?_slice, getElem?_slice]
  split
  · rw [getElem?_splice h, if_neg (by omega), if_neg (by omega)]
  · rfl

/-! ## Slices of slices and appends -/

theorem slice_slice {buf : List α} {off len off' len' : Nat} (h : off' + len' ≤ len) :
    slice (slice buf off len) off' len' = slice buf (off + off') len' := by
  apply List.ext_getElem?
  intro i
  rw [getElem?_slice, getElem?_slice]
  split
  · rename_i hi
    rw [getElem?_slice, if_pos (by omega), if_pos hi, Nat.add_assoc]
  · rename_i hi
    rw [getElem?_slice, if_neg hi]

/-- Two adjacent slices make one. -/
theorem slice_append_slice (buf : List α) (off m n : Nat) :
    slice buf off m ++ slice buf (off + m) n = slice buf off (m + n) := by
  unfold slice
  rw [← List.drop_drop, ← List.take_add]

theorem slice_zero_length (buf : List α) : slice buf 0 buf.length = buf := by
  simp [slice]

theorem slice_append_left {xs ys : List α} {off len : Nat} (h : off + len ≤ xs.length) :
    slice (xs ++ ys) off len = slice xs off len := by
  apply List.ext_getElem?
  intro i
  rw [getElem?_slice, getElem?_slice]
  split
  · rw [List.getElem?_append_left (by omega)]
  · rfl

theorem slice_append_right {xs ys : List α} {off len : Nat} (h : xs.length ≤ off) :
    slice (xs ++ ys) off len = slice ys (off - xs.length) len := by
  apply List.ext_getElem?
  intro i
  rw [getElem?_slice, getElem?_slice]
  split
  · rw [List.getElem?_append_right (by omega)]
    congr 1
    omega
  · rfl

/-- Splicing back what a slice read changes nothing. -/
theorem splice_slice_self {buf : List α} {off len : Nat} (h : off + len ≤ buf.length) :
    splice buf off (slice buf off len) = buf := by
  have hl := length_slice h
  apply List.ext_getElem?
  intro i
  rw [getElem?_splice (by omega), getElem?_slice, hl]
  split
  · rfl
  · split
    · rw [if_pos (by omega)]
      congr 1
      omega
    · rfl

/-! ## Writes with a bounds check -/

/-- `splice` where the data fits, and no change where it does not.  The length
of the buffer never changes. -/
def put (buf : List α) (off : Nat) (data : List α) : List α :=
  if off + data.length ≤ buf.length then splice buf off data else buf

theorem put_of_le {buf : List α} {off : Nat} {data : List α}
    (h : off + data.length ≤ buf.length) : put buf off data = splice buf off data := by
  unfold put
  rw [if_pos h]

@[simp] theorem length_put (buf : List α) (off : Nat) (data : List α) :
    (put buf off data).length = buf.length := by
  unfold put
  split
  · exact length_splice ‹_›
  · rfl

theorem slice_put_same {buf : List α} {off : Nat} {data : List α} {len : Nat}
    (h : off + data.length ≤ buf.length) (hl : len = data.length) :
    slice (put buf off data) off len = data := by
  rw [put_of_le h, hl, slice_splice_same h]

theorem slice_put_before {buf : List α} {off : Nat} {data : List α} {off' len : Nat}
    (hb : off' + len ≤ off) : slice (put buf off data) off' len = slice buf off' len := by
  unfold put
  split
  · exact slice_splice_before ‹_› hb
  · rfl

theorem slice_put_after {buf : List α} {off : Nat} {data : List α} {off' len : Nat}
    (ha : off + data.length ≤ off') : slice (put buf off data) off' len = slice buf off' len := by
  unfold put
  split
  · exact slice_splice_after ‹_› ha
  · rfl

theorem getElem?_put {buf : List α} {off : Nat} {data : List α}
    (h : off + data.length ≤ buf.length) (i : Nat) :
    (put buf off data)[i]? =
      if i < off then buf[i]?
      else if i < off + data.length then data[i - off]? else buf[i]? := by
  rw [put_of_le h, getElem?_splice h]

/-- Writing at the start of a cleared buffer pads with what it was cleared to. -/
theorem put_replicate {n : Nat} {a : α} {data : List α} (h : data.length ≤ n) :
    put (List.replicate n a) 0 data = data ++ List.replicate (n - data.length) a := by
  rw [put_of_le (by rwa [List.length_replicate, Nat.zero_add]), splice]
  simp

theorem slice_replicate (n off len : Nat) (a : α) (h : off + len ≤ n) :
    slice (List.replicate n a) off len = List.replicate len a := by
  simp only [slice, List.drop_replicate, List.take_replicate]
  congr 1
  omega

/-! ## Buffers that grow -/

/-- `splice` on a buffer that grows as needed, with `fill` in the gap between
its old end and the new data. -/
def extend (fill : α) (buf : List α) (off : Nat) (data : List α) : List α :=
  buf.take off ++ List.replicate (off - buf.length) fill ++ data ++ buf.drop (off + data.length)

/-- Writing at the end is appending. -/
theorem extend_length (fill : α) (buf data : List α) :
    extend fill buf buf.length data = buf ++ data := by
  simp [extend]

theorem extend_of_le (fill : α) {buf : List α} {off : Nat} {data : List α}
    (h : off + data.length ≤ buf.length) : extend fill buf off data = splice buf off data := by
  have hgap : off - buf.length = 0 := by omega
  simp [extend, splice, hgap]

/-- The buffer cut or filled up to a length. -/
def resize (fill : α) (buf : List α) (len : Nat) : List α :=
  buf.take len ++ List.replicate (len - buf.length) fill

@[simp] theorem length_resize (fill : α) (buf : List α) (len : Nat) :
    (resize fill buf len).length = len := by
  simp only [resize, List.length_append, List.length_take, List.length_replicate]
  omega

theorem resize_of_le (fill : α) {buf : List α} {len : Nat} (h : len ≤ buf.length) :
    resize fill buf len = buf.take len := by
  simp [resize, Nat.sub_eq_zero_of_le h]

/-- Growing a buffer keeps every slice of it. -/
theorem slice_resize (fill : α) {buf : List α} {len off n : Nat} (h : off + n ≤ buf.length)
    (hlen : off + n ≤ len) : slice (resize fill buf len) off n = slice buf off n := by
  rw [resize, slice_append_left (by rw [List.length_take]; omega)]
  apply List.ext_getElem?
  intro i
  rw [getElem?_slice, getElem?_slice]
  split
  · rw [List.getElem?_take, if_pos (by omega)]
  · rfl

/-! ## Blocks

A buffer read as a sequence of blocks of one size. -/

/-- Block `i` of the buffer. -/
def block (size : Nat) (buf : List α) (i : Nat) : List α := slice buf (i * size) size

/-- Data written at the start of block `i` and not longer than a block leaves
the other blocks as they are. -/
theorem block_splice_ne {size : Nat} {buf : List α} {i j : Nat} {data : List α}
    (hdata : data.length ≤ size) (h : (i + 1) * size ≤ buf.length) (hij : j ≠ i) :
    block size (splice buf (i * size) data) j = block size buf j := by
  rw [Nat.succ_mul] at h
  unfold block
  rcases Nat.lt_or_gt_of_ne hij with hlt | hgt
  · have hstep := Nat.mul_le_mul_right size (Nat.succ_le_of_lt hlt)
    rw [Nat.succ_mul] at hstep
    exact slice_splice_before (by omega) hstep
  · have hstep := Nat.mul_le_mul_right size (Nat.succ_le_of_lt hgt)
    rw [Nat.succ_mul] at hstep
    exact slice_splice_after (by omega) (by omega)

theorem block_splice_same {size : Nat} {buf : List α} {i : Nat} {data : List α}
    (hdata : data.length = size) (h : (i + 1) * size ≤ buf.length) :
    block size (splice buf (i * size) data) i = data := by
  rw [Nat.succ_mul] at h
  subst hdata
  exact slice_splice_same h

theorem block_resize (fill : α) {size : Nat} {buf : List α} {len i : Nat}
    (h : (i + 1) * size ≤ buf.length) (hlen : (i + 1) * size ≤ len) :
    block size (resize fill buf len) i = block size buf i := by
  rw [Nat.succ_mul] at h hlen
  exact slice_resize fill h hlen

end Buffer
