import WendyLite.Foundation.Octets

/-! # NOR flash

Flash memory is a byte for every address. Erasing sets the bytes of a range to
`0xFF`. Programming can only clear bits, so it leaves the conjunction of old and
new bytes. An operation that fails leaves its range in any state. No operation
touches a byte outside its range.
-/

namespace WendyLite

open List

abbrev Flash := Nat → UInt8

namespace Flash

variable (flash : Flash)

def read (start length : Nat) : List UInt8 :=
  (range length).map fun index => flash (start + index)

def program (start : Nat) (bytes : List UInt8) : Flash := fun address =>
  if start ≤ address ∧ address < start + bytes.length then
    flash address &&& bytes.getD (address - start) 0
  else flash address

def erase (start length : Nat) : Flash := fun address =>
  if start ≤ address ∧ address < start + length then 0xFF else flash address

/-- A failed operation leaves the bytes of `left` in its range. -/
def spoil (start length : Nat) (left : Flash) : Flash := fun address =>
  if start ≤ address ∧ address < start + length then left address else flash address

/-- The word at `start`, least significant byte first. -/
def word (start width : Nat) : Nat := beNat (flash.read start width).reverse

variable {start : Nat}

lemma program_outside (outside : address < start ∨ start + bytes.length ≤ address) :
    flash.program start bytes address = flash address := by
  unfold program
  rw [if_neg (by omega)]

lemma spoil_outside (flash left : Flash) {length address : Nat}
    (outside : address < start ∨ start + length ≤ address) :
    flash.spoil start length left address = flash address := by
  unfold spoil
  rw [if_neg (by omega)]

variable {flash : Flash}

lemma read_congr {other : Flash} {length : Nat}
    (same : ∀ address, start ≤ address → address < start + length → flash address = other address) :
    flash.read start length = other.read start length := by
  refine map_congr_left fun index mem => same _ (by omega) ?_
  have bound := mem_range.mp mem
  omega

lemma word_congr {other : Flash} {width : Nat}
    (same : ∀ address, start ≤ address → address < start + width → flash address = other address) :
    flash.word start width = other.word start width := by
  rw [word, word, read_congr same]

lemma read_program_erased (flash : Flash) (start : Nat) (bytes : List UInt8)
    (erased : ∀ address, start ≤ address → address < start + bytes.length → flash address = 0xFF) :
    (flash.program start bytes).read start bytes.length = bytes := by
  refine ext_getElem (by simp [read]) ?_
  intro index bound _
  have small : index < bytes.length := by simpa [read] using bound
  have ones : ∀ byte : UInt8, 0xFF &&& byte = byte := fun byte => UInt8.neg_one_and (a := byte)
  simp [read, program, small, erased (start + index) (by omega) (by omega), ones]

lemma beNat_replicate_zero (width : Nat) : beNat (replicate width 0) = 0 := by
  induction width with
  | zero => rfl
  | succ width ih => simp [replicate_succ, beNat_cons, ih]

lemma word_program_zeros (flash : Flash) (start width : Nat) :
    (flash.program start (replicate width 0)).word start width = 0 := by
  have cleared : (flash.program start (replicate width 0)).read start width =
      replicate width 0 := by
    refine ext_getElem (by simp [read]) ?_
    intro index bound _
    have small : index < width := by simpa [read] using bound
    simp [read, program, small]
  rw [word, cleared, reverse_replicate, beNat_replicate_zero]

lemma word_program_erased (flash : Flash) (start width : Nat) (value : Nat)
    (erased : ∀ address, start ≤ address → address < start + width → flash address = 0xFF) :
    (flash.program start (beBytes width value).reverse).word start width = value % 256 ^ width := by
  have written := read_program_erased flash start (beBytes width value).reverse (by simpa)
  rw [length_reverse, length_beBytes] at written
  rw [word, written, reverse_reverse, beNat_beBytes]

lemma read_append (flash : Flash) (start first second : Nat) : flash.read start (first + second) =
      flash.read start first ++ flash.read (start + first) second := by
  simp only [read, range_add, map_append, map_map]
  congr 1
  apply map_congr_left
  intro index _
  simp [Nat.add_assoc]

@[simp] lemma length_read (flash : Flash) (start length : Nat) :
    (flash.read start length).length = length := by
  simp [read]

lemma read_slice (whole : flash.read start bytes.length = bytes) (first middle : Nat)
    (inside : first + middle ≤ bytes.length) :
    flash.read (start + first) middle = (bytes.drop first).take middle := by
  obtain ⟨last, sum⟩ : ∃ last, bytes.length = first + middle + last :=
    ⟨bytes.length - (first + middle), by omega⟩
  rw [sum, read_append, read_append] at whole
  rw [← whole, append_assoc, drop_left' (length_read _ _ _),
    take_left' (length_read _ _ _)]

/-! ## Operations that can fail -/

inductive Operation where
  | erase (start length : Nat)
  | program (start : Nat) (bytes : List UInt8)

namespace Operation

def apply : Operation → Flash → Flash
  | .erase start length, flash => flash.erase start length
  | .program start bytes, flash => flash.program start bytes

/-- The operation stopped on the way. -/
def spoil : Operation → Flash → Flash → Flash
  | .erase start length, flash, left => flash.spoil start length left
  | .program start bytes, flash, left => flash.spoil start bytes.length left

end Operation

/-- How an operation goes: it is done, it reports a failure, or the power is lost while it
runs. -/
inductive Outcome where
  | done
  | failed (left : Flash)
  | interrupted (left : Flash)

inductive Ended where
  | done
  | failed
  | interrupted
  deriving DecidableEq, Repr

/-- One operation after another, up to the first that is not done. -/
def perform : List Operation → (Nat → Outcome) → Flash → Flash × Ended
  | [], _, flash => (flash, .done)
  | operation :: operations, outcomes, flash =>
    match outcomes 0 with
    | .done => perform operations (fun index => outcomes (index + 1)) (operation.apply flash)
    | .failed left => (operation.spoil flash left, .failed)
    | .interrupted left => (operation.spoil flash left, .interrupted)

lemma perform_done (ended : (perform operations outcomes flash).2 = .done) :
    (perform operations outcomes flash).1 =
      operations.foldl (fun flash operation => operation.apply flash) flash := by
  induction operations generalizing outcomes flash with
  | nil => rfl
  | cons operation operations ih =>
    rw [perform] at ended ⊢
    cases first : outcomes 0 with
    | done =>
      rw [first] at ended
      exact ih ended
    | failed | interrupted => simp [first] at ended

lemma perform_reliable (reliable : ∀ index, outcomes index = .done) (operations : List Operation)
    (flash : Flash) :
    (perform operations outcomes flash).2 = .done := by
  induction operations generalizing outcomes flash with
  | nil => rfl
  | cons operation operations ih =>
    rw [perform, reliable 0]
    exact ih (fun index => reliable (index + 1)) _

/-! ## Filling erased memory -/

/-- The memory starts with `content`, and is erased from there up to `limit`. -/
structure Filled (flash : Flash) (content : List UInt8) (limit : Nat) : Prop where
  read : flash.read 0 content.length = content
  erased : ∀ address, content.length ≤ address → address < limit → flash address = 0xFF

lemma filled_erase (flash : Flash) (limit : Nat) : (flash.erase 0 limit).Filled [] limit where
  read := rfl
  erased address _ inside := by
    rw [erase, if_pos ⟨Nat.zero_le _, by omega⟩]

lemma Filled.program {content : List UInt8} {limit : Nat} (filled : flash.Filled content limit)
    (bytes : List UInt8) (fits : content.length + bytes.length ≤ limit) :
    (flash.program content.length bytes).Filled (content ++ bytes) limit where
  read := by
    have before : (flash.program content.length bytes).read 0 content.length = content := by
      refine (read_congr fun address _ inside => ?_).trans filled.read
      exact program_outside _ (.inl (by omega))
    have behind := read_program_erased flash content.length bytes fun address first last =>
      filled.erased address first (by omega)
    rw [length_append, read_append, before, Nat.zero_add, behind]
  erased address behind inside := by
    rw [length_append] at behind
    rw [program_outside _ (.inr behind), filled.erased address (by omega) inside]

lemma Filled.programUnlessEmpty (filled : flash.Filled content limit) (bytes : List UInt8)
    (fits : content.length + bytes.length ≤ limit) :
    ((if bytes = [] then [] else [Operation.program content.length bytes]).foldl
      (fun flash operation => operation.apply flash) flash).Filled (content ++ bytes) limit := by
  split
  next none_ => rwa [none_, append_nil]
  exact filled.program bytes fits

end Flash

/-- Clearing the low bits of a number leaves the multiple of their power below it. -/
lemma and_high_mask (small : value < 2 ^ width) (low : shift ≤ width) :
    value &&& (2 ^ width - 1 - (2 ^ shift - 1)) = value - value % 2 ^ shift := by
  have below : 2 ^ shift - 1 < 2 ^ width :=
    lt_of_lt_of_le (Nat.sub_lt (Nat.two_pow_pos shift) (by decide))
      (Nat.pow_le_pow_right (by decide) low)
  have multiple : value - value % 2 ^ shift = (value >>> shift) <<< shift := by
    rw [Nat.shiftRight_eq_div_pow, Nat.shiftLeft_eq]
    have split := Nat.div_add_mod' value (2 ^ shift)
    omega
  have mask : 2 ^ width - 1 - (2 ^ shift - 1) = 2 ^ width - (2 ^ shift - 1 + 1) := by omega
  rw [multiple, mask]
  refine Nat.eq_of_testBit_eq fun bit => ?_
  rw [Nat.testBit_and, Nat.testBit_two_pow_sub_succ below, Nat.testBit_two_pow_sub_one,
    Nat.testBit_shiftLeft, Nat.testBit_shiftRight]
  by_cases high : shift ≤ bit
  · by_cases inside : bit < width
    · simp [high, inside]
    have zero : value.testBit bit = false :=
      Nat.testBit_lt_two_pow (lt_of_lt_of_le small (Nat.pow_le_pow_right (by decide) (by omega)))
    simp [high, zero]
  have inside : bit < shift := by omega
  simp [high, inside]

end WendyLite
