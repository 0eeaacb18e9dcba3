import Mathlib.Data.List.Basic

/-! # Ring buffers

A fixed number of cells, of which a run of cells, wrapping at the end, is occupied. Data is
appended and taken in at most two pieces. The contents are a list, to which data is appended
at the back and from which it is taken at the front.
-/

namespace WendyLite

open List

/-- Data written over the cells from a place on. -/
def overwrite {α : Type} (cells : List α) (start : Nat) (data : List α) : List α :=
  cells.take start ++ data ++ cells.drop (start + data.length)

lemma length_overwrite {α : Type} {cells data : List α} {start : Nat}
    (fits : start + data.length ≤ cells.length) :
    (overwrite cells start data).length = cells.length := by
  simp only [overwrite, length_append, length_take, length_drop]
  omega

lemma getElem?_overwrite {α : Type} {cells data : List α} {start : Nat}
    (fits : start + data.length ≤ cells.length) (index : Nat) :
    (overwrite cells start data)[index]? =
      if start ≤ index ∧ index < start + data.length then data[index - start]?
      else cells[index]? := by
  have begins : (cells.take start).length = start := by
    rw [length_take]
    omega
  unfold overwrite
  by_cases before : index < start
  · rw [if_neg (by omega), append_assoc, getElem?_append_left (by omega),
      getElem?_take_of_lt before]
  by_cases within : index < start + data.length
  · rw [if_pos (by omega), append_assoc, getElem?_append_right (by omega),
      getElem?_append_left (by omega), begins]
  have reaches : (cells.take start ++ data).length = start + data.length := by
    rw [length_append, begins]
  rw [if_neg (by omega), getElem?_append_right (by omega), getElem?_drop, reaches]
  congr 1
  omega

/-- A ring of a number of cells. -/
structure Ring (α : Type) (size : Nat) where
  cells : List α
  head : Nat
  length : Nat
  length_cells : cells.length = size
  head_le : head ≤ size
  length_le : length ≤ size

namespace Ring

variable {α : Type} {size : Nat}

def contents (ring : Ring α size) : List α :=
  (ring.cells.drop ring.head ++ ring.cells).take ring.length

def free (ring : Ring α size) : Nat := size - ring.length

def clear (ring : Ring α size) : Ring α size :=
  { ring with head := 0, length := 0, head_le := Nat.zero_le _, length_le := Nat.zero_le _ }

def tail (ring : Ring α size) : Nat := (ring.head + ring.length) % size

/-- The cells with the data written from the tail on, the part that does not fit before the
end from the first cell on. -/
def written (ring : Ring α size) (data : List α) : List α :=
  let first := min (size - ring.tail) data.length
  overwrite (overwrite ring.cells ring.tail (data.take first)) 0 (data.drop first)

/-- The first so many elements of the contents, in two pieces. -/
def front (ring : Ring α size) (count : Nat) : List α :=
  let first := min (size - ring.head) count
  (ring.cells.drop ring.head).take first ++ ring.cells.take (count - first)

@[simp] lemma length_contents (ring : Ring α size) : ring.contents.length = ring.length := by
  have cells := ring.length_cells
  have bounded := ring.length_le
  simp only [contents, length_take, length_append, length_drop]
  omega

@[simp] lemma free_clear (ring : Ring α size) : ring.clear.free = size := rfl

lemma add_mod_size {place index : Nat} (begins : place ≤ size) (inside : index < size) :
    (place + index) % size = if place + index < size then place + index else place + index - size := by
  by_cases wraps : place + index < size
  · rw [if_pos wraps, Nat.mod_eq_of_lt wraps]
  rw [if_neg wraps, Nat.mod_eq_sub_mod (by omega), Nat.mod_eq_of_lt (by omega)]

lemma add_mod_le {place count : Nat} (begins : place ≤ size) (bounded : count ≤ size) :
    (place + count) % size ≤ size := by
  obtain none_ | positive := Nat.eq_zero_or_pos size
  · subst none_
    omega
  exact Nat.le_of_lt (Nat.mod_lt _ positive)

lemma getElem?_contents (ring : Ring α size) (index : Nat) : ring.contents[index]? =
      if index < ring.length then ring.cells[(ring.head + index) % size]? else none := by
  have cells := ring.length_cells
  have bounded := ring.length_le
  have begins := ring.head_le
  by_cases inside : index < ring.length
  · have remaining : (ring.cells.drop ring.head).length = size - ring.head := by
      rw [length_drop, cells]
    rw [if_pos inside, contents, getElem?_take_of_lt inside, add_mod_size begins (by omega)]
    by_cases wraps : ring.head + index < size
    · rw [if_pos wraps, getElem?_append_left (by omega), getElem?_drop]
    rw [if_neg wraps, getElem?_append_right (by omega), remaining]
    congr 1
    omega
  rw [if_neg inside]
  exact getElem?_eq_none (by rw [length_contents]; omega)

lemma tail_le (ring : Ring α size) : ring.tail ≤ size := add_mod_le ring.head_le ring.length_le

section Append

variable (ring : Ring α size) (data : List α)

lemma first_fits :
    ring.tail + (data.take (min (size - ring.tail) data.length)).length ≤ ring.cells.length := by
  have tail := ring.tail_le
  rw [length_take, ring.length_cells]
  omega

lemma second_fits (fits : data.length ≤ ring.free) :
    0 + (data.drop (min (size - ring.tail) data.length)).length ≤ (overwrite ring.cells ring.tail
        (data.take (min (size - ring.tail) data.length))).length := by
  unfold free at fits
  rw [length_overwrite (ring.first_fits data), length_drop, ring.length_cells]
  omega

lemma length_written (fits : data.length ≤ ring.free) : (ring.written data).length = size := by
  rw [written, length_overwrite (ring.second_fits data fits),
    length_overwrite (ring.first_fits data), ring.length_cells]

end Append

/-- Append the data if there is room for all of it. -/
def append (ring : Ring α size) (data : List α) : Ring α size :=
  if fits : data.length ≤ ring.free then
    { ring with
      cells := ring.written data
      length := ring.length + data.length
      length_cells := ring.length_written data fits
      length_le := by
        have bounded := ring.length_le
        unfold free at fits
        omega }
  else ring

/-- Take at most so many elements from the front. -/
def take (ring : Ring α size) (count : Nat) : List α × Ring α size :=
  let taken := min ring.length count
  (ring.front taken,
    { ring with
      head := (ring.head + taken) % size
      length := ring.length - taken
      head_le := add_mod_le ring.head_le (Nat.le_trans (Nat.min_le_left _ _) ring.length_le)
      length_le := Nat.le_trans (Nat.sub_le _ _) ring.length_le })

section

variable (ring : Ring α size)
include ring

/-- The cell of an element of the data is the one that follows the contents by its place. -/
lemma getElem?_written (data : List α) (fits : data.length ≤ ring.free)
    (index : Nat) (inside : index < ring.length + data.length) :
    (ring.written data)[(ring.head + index) % size]? =
      if index < ring.length then ring.cells[(ring.head + index) % size]?
      else data[index - ring.length]? := by
  have bounded := ring.length_le
  have begins := ring.head_le
  unfold free at fits
  rw [written, getElem?_overwrite (ring.second_fits data fits),
    getElem?_overwrite (ring.first_fits data), length_drop, length_take,
    add_mod_size begins (by omega)]
  have tail := ring.tail_le
  obtain empty | some_ := Nat.eq_zero_or_pos data.length
  · -- nothing is written
    rw [if_neg (by omega), if_neg (by omega), if_pos (show index < ring.length by omega)]
  have ends : ring.head + ring.length < size ∧ ring.tail = ring.head + ring.length ∨
      size ≤ ring.head + ring.length ∧ ring.tail = ring.head + ring.length - size := by
    rw [Ring.tail, add_mod_size begins (by omega)]
    by_cases wraps : ring.head + ring.length < size
    · rw [if_pos wraps]
      exact .inl ⟨wraps, rfl⟩
    rw [if_neg wraps]
    exact .inr ⟨Nat.le_of_not_lt wraps, rfl⟩
  by_cases old : index < ring.length
  · rw [if_pos old]
    by_cases wraps : ring.head + index < size
    · rw [if_pos wraps, if_neg (by omega), if_neg (by omega)]
    rw [if_neg wraps, if_neg (by omega), if_neg (by omega)]
  rw [if_neg old]
  by_cases wraps : ring.head + index < size
  · rw [if_pos wraps, if_neg (by omega), if_pos (by omega), getElem?_take_of_lt (by omega)]
    congr 1
    omega
  rw [if_neg wraps]
  obtain ⟨before, ends⟩ | ⟨after, ends⟩ := ends
  · rw [if_pos (by omega), getElem?_drop]
    congr 1
    omega
  rw [if_neg (by omega), if_pos (by omega), getElem?_take_of_lt (by omega)]
  congr 1
  omega

lemma contents_append (data : List α) (fits : data.length ≤ ring.free) :
    (ring.append data).contents = ring.contents ++ data := by
  apply ext_getElem?
  intro index
  rw [getElem?_contents, append, dif_pos fits]
  dsimp only
  by_cases inside : index < ring.length + data.length
  · rw [if_pos inside, ring.getElem?_written data fits index inside]
    by_cases old : index < ring.length
    · rw [if_pos old, getElem?_append_left (by rwa [length_contents]), getElem?_contents,
        if_pos old]
    rw [if_neg old, getElem?_append_right (by rw [length_contents]; omega), length_contents]
  rw [if_neg inside, getElem?_eq_none]
  rw [length_append, length_contents]
  omega

section

variable (count : Nat)
include count

lemma take_fst : (ring.take count).1 = ring.contents.take count := by
  have cells := ring.length_cells
  have bounded := ring.length_le
  dsimp only [take, front]
  rw [contents, take_take, Nat.min_comm count, List.take_append, length_drop, cells]
  congr 1
  · rw [take_eq_take_iff, length_drop, cells]
    omega
  rw [take_eq_take_iff, cells]
  omega

lemma take_head : (ring.take count).2.head = (ring.head + min ring.length count) % size := rfl

lemma take_length : (ring.take count).2.length = ring.length - min ring.length count := rfl

lemma take_snd : (ring.take count).2.contents = ring.contents.drop count := by
  have bounded := ring.length_le
  apply ext_getElem?
  intro index
  rw [getElem?_contents, getElem?_drop, getElem?_contents, take_head, take_length]
  by_cases inside : count + index < ring.length
  · rw [if_pos (by omega), if_pos inside, Nat.min_eq_right (by omega), Nat.mod_add_mod,
      Nat.add_assoc]
    rfl
  rw [if_neg (by omega), if_neg inside]

lemma take_append_contents :
    (ring.take count).1 ++ (ring.take count).2.contents = ring.contents := by
  rw [take_fst, take_snd, take_append_drop]

lemma free_le_free_take : ring.free ≤ (ring.take count).2.free := by
  rw [free, free, take_length]
  omega

end

end

end Ring

end WendyLite
