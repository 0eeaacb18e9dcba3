import Mathlib.Data.List.Basic

/-! # Readers

A reader takes something from the front of a list and returns what is left. It is
local when what it takes does not depend on what follows. Local readers compose,
and a list that a local reader takes apart completely is taken apart the same way
in front of any other list.
-/

namespace WendyLite

open List

/-- A reader returns what it read and what is left, or fails. -/
abbrev Reader (σ α : Type) := List σ → Option (α × List σ)

namespace Reader

variable {σ α β : Type}

variable (reader : Reader σ α)

/-- What is read is an initial part of the input, and reads the same before anything. -/
def Local : Prop :=
  ∀ input value rest, reader input = some (value, rest) →
    ∃ used, input = used ++ rest ∧ ∀ more, reader (used ++ more) = some (value, more)

/-- Something is used up. -/
def Progressing : Prop :=
  ∀ input value rest, reader input = some (value, rest) → rest.length < input.length

/-- One reader after another, which may depend on what the first one read. -/
def andThen (next : α → Reader σ β) : Reader σ β := fun input =>
  (reader input).bind fun read => next read.1 read.2

def mapped (change : α → β) : Reader σ β := fun input =>
  (reader input).map fun read => (change read.1, read.2)

def skip (count : Nat) : Reader σ Unit := fun input =>
  if input.length < count then none else some ((), input.drop count)

/-- Items `reader` takes from all of the input, each with what it was read from. -/
def all (reader : Reader σ α) : Nat → List σ → Option (List (α × List σ))
  | _, [] => some []
  | 0, _ => none
  | fuel + 1, input =>
    (reader input).bind fun read =>
      (all reader fuel read.2).map fun items =>
        (read.1, input.take (input.length - read.2.length)) :: items

lemma skip_local (count : Nat) : (skip count : Reader σ Unit).Local := by
  intro input value rest read
  unfold skip at read
  split at read
  · simp at read
  rename_i enough
  simp only [Option.some.injEq, Prod.mk.injEq, true_and] at read
  refine ⟨input.take count, by rw [← read, take_append_drop], fun more => ?_⟩
  have exactly : (input.take count).length = count := by rw [length_take]; omega
  unfold skip
  rw [if_neg (by rw [length_append]; omega), drop_append_of_le_length (by omega),
    drop_eq_nil_of_le (by omega), nil_append]

lemma Local.mapped {reader : Reader σ α} (isLocal : reader.Local) (change : α → β) :
    (reader.mapped change).Local := by
  intro input value rest read
  obtain ⟨⟨first, left⟩, taken, same⟩ := Option.map_eq_some_iff.mp read
  simp only [Prod.mk.injEq] at same
  obtain ⟨used, split_, anywhere⟩ := isLocal _ _ _ taken
  refine ⟨used, by rw [split_, same.2], fun more => ?_⟩
  unfold Reader.mapped
  rw [anywhere, Option.map_some, same.1]

lemma Local.andThen {reader : Reader σ α} {next : α → Reader σ β} (isLocal : reader.Local)
    (nextLocal : ∀ value, (next value).Local) : (reader.andThen next).Local := by
  intro input value rest read
  obtain ⟨⟨first, middle⟩, taken, followed⟩ := Option.bind_eq_some_iff.mp read
  dsimp only at followed
  obtain ⟨used, split_, anywhere⟩ := isLocal _ _ _ taken
  obtain ⟨usedNext, splitNext, anywhereNext⟩ := nextLocal first _ _ _ followed
  refine ⟨used ++ usedNext, by rw [split_, splitNext, append_assoc], fun more => ?_⟩
  unfold Reader.andThen
  rw [append_assoc, anywhere, Option.bind_some, anywhereNext]

lemma Progressing.andThen {reader : Reader σ α} {next : α → Reader σ β}
    (progressing : reader.Progressing) (nextLocal : ∀ value, (next value).Local) :
    (reader.andThen next).Progressing := by
  intro input value rest read
  obtain ⟨⟨first, middle⟩, taken, followed⟩ := Option.bind_eq_some_iff.mp read
  dsimp only at followed
  obtain ⟨used, split_, -⟩ := nextLocal first _ _ _ followed
  have smaller := progressing _ _ _ taken
  rw [split_, length_append] at smaller
  omega

lemma Progressing.mapped {reader : Reader σ α} (progressing : reader.Progressing)
    (change : α → β) : (reader.mapped change).Progressing := by
  intro input value rest read
  obtain ⟨⟨first, left⟩, taken, same⟩ := Option.map_eq_some_iff.mp read
  simp only [Prod.mk.injEq] at same
  rw [← same.2]
  exact progressing _ _ _ taken

/-! ## Reading everything -/

@[simp] lemma all_nil (fuel : Nat) : all reader fuel [] = some [] := by
  cases fuel <;> rfl

section Whole

variable {reader : Reader σ α}

variable {fuel : Nat}

lemma all_cons (isLocal : reader.Local) {used : List σ} {value : α}
    (nonempty : used ≠ []) (reads : reader used = some (value, [])) (more : List σ) :
    all reader (fuel + 1) (used ++ more) =
      (all reader fuel more).map fun items => (value, used) :: items := by
  obtain ⟨taken, split_, anywhere⟩ := isLocal _ _ _ reads
  rw [append_nil] at split_
  subst split_
  cases whole : used ++ more with
  | nil => exact absurd (append_eq_nil_iff.mp whole).1 nonempty
  | cons head tail =>
    have raw : (used ++ more).take ((used ++ more).length - more.length) = used := by
      rw [length_append, Nat.add_sub_cancel, take_left']
      rfl
    rw [whole] at raw
    simp only [all, ← whole, anywhere, Option.bind_some]
    rw [whole, raw]

variable {items : List (α × List σ)}

/-- A list that is read completely is the concatenation of pieces each of which the
reader takes as a whole. -/
lemma all_eq_some (isLocal : reader.Local) (progressing : reader.Progressing)
    {input : List σ} (read : all reader fuel input = some items) :
    input = (items.map Prod.snd).flatten ∧
      ∀ item ∈ items, item.2 ≠ [] ∧ reader item.2 = some (item.1, []) := by
  induction fuel generalizing input items with
  | zero =>
    cases input with
    | nil => simp_all
    | cons head tail => simp [all] at read
  | succ fuel ih =>
    cases input with
    | nil => simp_all
    | cons head tail =>
      obtain ⟨⟨value, rest⟩, taken, followed⟩ := Option.bind_eq_some_iff.mp read
      obtain ⟨others, restRead, rfl⟩ := Option.map_eq_some_iff.mp followed
      obtain ⟨used, split_, anywhere⟩ := isLocal _ _ _ taken
      obtain ⟨pieces, whole⟩ := ih restRead
      have smaller := progressing _ _ _ taken
      have raw : (head :: tail).take ((head :: tail).length - rest.length) = used := by
        rw [split_, length_append, Nat.add_sub_cancel, take_left']
        rfl
      refine ⟨by rw [map_cons, flatten_cons, raw, ← pieces, split_], ?_⟩
      intro item mem
      rw [raw] at mem
      obtain rfl | later := mem_cons.mp mem
      · refine ⟨?_, by simpa using anywhere []⟩
        rintro rfl
        rw [split_] at smaller
        simp at smaller
      exact whole item later

/-- Pieces that the reader takes as wholes are found again in their concatenation. -/
lemma all_flatten (isLocal : reader.Local) (enough : items.length ≤ fuel)
    (whole : ∀ item ∈ items, item.2 ≠ [] ∧ reader item.2 = some (item.1, [])) :
    all reader fuel (items.map Prod.snd).flatten = some items := by
  induction items generalizing fuel with
  | nil => simp
  | cons item items ih =>
    obtain ⟨fuel, rfl⟩ : ∃ less, fuel = less + 1 := ⟨fuel - 1, by simp at enough; omega⟩
    obtain ⟨nonempty, reads⟩ := whole item (by simp)
    rw [map_cons, flatten_cons, all_cons isLocal nonempty reads,
      ih (by simpa using enough) fun other mem => whole other (by simp [mem])]
    rfl

lemma length_le_flatten (nonempty : ∀ item ∈ items, item.2 ≠ []) :
    items.length ≤ (items.map Prod.snd).flatten.length := by
  induction items with
  | nil => simp
  | cons item items ih =>
    have rest := ih fun other mem => nonempty other (by simp [mem])
    have first := length_pos_iff.mpr (nonempty item (by simp))
    rw [map_cons, flatten_cons, length_append, length_cons]
    omega

end Whole

end Reader

end WendyLite
