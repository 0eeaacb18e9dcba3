import Mathlib.Data.List.Basic
import Mathlib.Tactic.Ring

/-! # Fixed-length byte strings and big-endian words

Byte strings are lists of `UInt8`. A C array of known size is a list together
with the proof of its length, so a shorter or longer address cannot be built.
-/

namespace WendyLite

/-- A C array of exactly `size` bytes. -/
abbrev Octets (size : Nat) := { bytes : List UInt8 // bytes.length = size }

namespace Octets

def zero (size : Nat) : Octets size :=
  ⟨List.replicate size 0, List.length_replicate⟩

instance : Inhabited (Octets size) := ⟨zero size⟩

/-- Copy bytes into a cleared array, ignoring those that do not fit. -/
def ofList (size : Nat) (bytes : List UInt8) : Octets size :=
  ⟨(bytes ++ List.replicate size 0).take size, by simp⟩

lemma ofList_of_length (bytes : List UInt8) (exact : bytes.length = size) :
    (ofList size bytes).val = bytes := by
  subst exact
  simp [ofList]

/-- Copy `bytes` over an array from position `start` on. -/
def overlay (array : Octets size) (start : Nat) (bytes : List UInt8) : Octets size :=
  ofList size (array.val.take start ++ bytes ++ array.val.drop (start + bytes.length))

end Octets

def allZero (bytes : List UInt8) : Bool := bytes.all (· == 0)

/-- The `width` low-order bytes of `value`, most significant byte first. -/
def beBytes : (width : Nat) → Nat → List UInt8
  | 0, _ => []
  | width + 1, value => UInt8.ofNat (value / 256 ^ width) :: beBytes width value

/-- The number written by a string of bytes, most significant byte first. -/
def beNat (bytes : List UInt8) : Nat :=
  bytes.foldl (fun value byte => value * 256 + byte.toNat) 0

@[simp] lemma length_beBytes (width value : Nat) : (beBytes width value).length = width := by
  induction width with
  | zero => rfl
  | succ width ih => simp [beBytes, ih]

private lemma foldl_beNat (bytes : List UInt8) (start : Nat) :
    bytes.foldl (fun value byte => value * 256 + byte.toNat) start =
      start * 256 ^ bytes.length + beNat bytes := by
  induction bytes generalizing start with
  | nil => simp [beNat]
  | cons byte rest ih =>
    have first := ih (start * 256 + byte.toNat)
    have second := ih byte.toNat
    simp only [List.foldl_cons, List.length_cons, beNat, Nat.zero_mul,
      Nat.zero_add] at first second ⊢
    rw [first, second, Nat.pow_succ]
    ring

lemma beNat_cons (byte : UInt8) (rest : List UInt8) :
    beNat (byte :: rest) = byte.toNat * 256 ^ rest.length + beNat rest := by
  have equation := foldl_beNat rest byte.toNat
  simpa [beNat] using equation

lemma beNat_beBytes (width value : Nat) : beNat (beBytes width value) = value % 256 ^ width := by
  induction width with
  | zero => simp [beBytes, beNat, Nat.mod_one]
  | succ width ih =>
    rw [beBytes, beNat_cons, length_beBytes, ih]
    have high : (UInt8.ofNat (value / 256 ^ width)).toNat =
        value / 256 ^ width % 256 := by
      simp
    rw [high, Nat.mod_pow_succ]
    ring

lemma beNat_beBytes_of_lt (small : value < 256 ^ width) :
    beNat (beBytes width value) = value := by
  rw [beNat_beBytes, Nat.mod_eq_of_lt small]

example : beNat (beBytes 2 1099) = 1099 := by decide

end WendyLite
