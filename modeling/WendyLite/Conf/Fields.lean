import WendyLite.Foundation.Reader
import Mathlib.Data.UInt

/-! # Root fields of a configuration

A configuration is a protobuf message. The store takes it apart without knowing its
schema: a tag gives a field's number and wire type, and the wire type says how many
bytes to skip. A field is kept or dropped as the raw bytes from its tag to its end.
-/

namespace WendyLite.Conf

open List

/-! ## Tags and field contents -/

/-- The value so far with one more byte of a varint. Past the last bit of the value only
zeros or a sign extension may follow. -/
def accumulate (bitpos : Nat) (result : UInt32) (byte : UInt8) : Option UInt32 :=
  if 32 ≤ bitpos then
    let signExtension : UInt8 := if bitpos < 63 then 0xFF else 0x01
    let validExtension := byte &&& 0x7F = 0 ∨ (result >>> 31 ≠ 0 ∧ byte = signExtension)
    if 64 ≤ bitpos ∨ ¬ validExtension then none else some result
  else if bitpos = 28 then
    if byte &&& 0x70 ≠ 0 ∧ byte &&& 0x78 ≠ 0x78 then none
    else some (result ||| (byte &&& 0x0F).toUInt32 <<< 28)
  else some (result ||| (byte &&& 0x7F).toUInt32 <<< bitpos.toUInt32)

def decodeVarint32Rest : Nat → UInt32 → Reader UInt8 UInt32
  | _, _, [] => none
  | bitpos, result, byte :: rest =>
    (accumulate bitpos result byte).bind fun result =>
      if byte &&& 0x80 ≠ 0 then decodeVarint32Rest (bitpos + 7) result rest
      else some (result, rest)

/-- `pb_decode_varint32`. -/
def decodeVarint32 : Reader UInt8 UInt32
  | [] => none
  | byte :: rest =>
    if byte &&& 0x80 = 0 then some (byte.toUInt32, rest)
    else decodeVarint32Rest 7 (byte &&& 0x7F).toUInt32 rest

structure Tag where
  number : UInt32
  wireType : UInt32
  deriving DecidableEq, Repr

/-- `pb_decode_tag`. -/
def decodeTag : Reader UInt8 Tag :=
  decodeVarint32.mapped fun value => { number := value >>> 3, wireType := value &&& 7 }

/-- `pb_skip_varint`. -/
def skipVarint : Reader UInt8 Unit
  | [] => none
  | byte :: rest => if byte &&& 0x80 ≠ 0 then skipVarint rest else some ((), rest)

/-- `pb_skip_string`. -/
def skipString : Reader UInt8 Unit :=
  decodeVarint32.andThen fun length => Reader.skip length.toNat

/-- `pb_skip_field`. -/
def skipField (wireType : UInt32) : Reader UInt8 Unit :=
  if wireType = 0 then skipVarint
  else if wireType = 1 then Reader.skip 8
  else if wireType = 2 then skipString
  else if wireType = 5 then Reader.skip 4
  else fun _ => none

def readField : Reader UInt8 Tag :=
  decodeTag.andThen fun tag => (skipField tag.wireType).mapped fun _ => tag

/-! ## What is read does not depend on what follows -/

lemma decodeVarint32Rest_local (bitpos : Nat) (result : UInt32) :
    (decodeVarint32Rest bitpos result).Local := by
  intro input
  induction input generalizing bitpos result with
  | nil =>
    intro value rest read
    simp [decodeVarint32Rest] at read
  | cons byte input ih =>
    intro value rest read
    obtain ⟨accumulated, step, continued⟩ := Option.bind_eq_some_iff.mp read
    by_cases high : byte &&& 0x80 ≠ 0
    · rw [if_pos high] at continued
      obtain ⟨used, rfl, anywhere⟩ := ih _ _ _ _ continued
      refine ⟨byte :: used, rfl, fun more => ?_⟩
      rw [cons_append, decodeVarint32Rest, step, Option.bind_some, if_pos high, anywhere]
    rw [if_neg high] at continued
    simp only [Option.some.injEq, Prod.mk.injEq] at continued
    obtain ⟨rfl, rfl⟩ := continued
    refine ⟨[byte], rfl, fun more => ?_⟩
    rw [cons_append, decodeVarint32Rest, step, Option.bind_some, if_neg high, nil_append]

lemma decodeVarint32_local : decodeVarint32.Local := by
  intro input value rest read
  cases input with
  | nil => simp [decodeVarint32] at read
  | cons byte input =>
    rw [decodeVarint32] at read
    by_cases low : byte &&& 0x80 = 0
    · rw [if_pos low] at read
      simp only [Option.some.injEq, Prod.mk.injEq] at read
      obtain ⟨rfl, rfl⟩ := read
      refine ⟨[byte], rfl, fun more => ?_⟩
      rw [cons_append, decodeVarint32, if_pos low, nil_append]
    rw [if_neg low] at read
    obtain ⟨used, rfl, anywhere⟩ := decodeVarint32Rest_local _ _ _ _ _ read
    refine ⟨byte :: used, rfl, fun more => ?_⟩
    rw [cons_append, decodeVarint32, if_neg low, anywhere]

lemma decodeVarint32_progressing : decodeVarint32.Progressing := by
  intro input value rest read
  cases input with
  | nil => simp [decodeVarint32] at read
  | cons byte input =>
    rw [decodeVarint32] at read
    by_cases low : byte &&& 0x80 = 0
    · rw [if_pos low] at read
      simp only [Option.some.injEq, Prod.mk.injEq] at read
      rw [← read.2, length_cons]
      omega
    rw [if_neg low] at read
    obtain ⟨used, rfl, -⟩ := decodeVarint32Rest_local _ _ _ _ _ read
    rw [length_cons, length_append]
    omega

lemma skipVarint_local : skipVarint.Local := by
  intro input
  induction input with
  | nil =>
    intro value rest read
    simp [skipVarint] at read
  | cons byte input ih =>
    intro value rest read
    unfold skipVarint at read
    by_cases high : byte &&& 0x80 ≠ 0
    · rw [if_pos high] at read
      obtain ⟨used, rfl, anywhere⟩ := ih _ _ read
      refine ⟨byte :: used, rfl, fun more => ?_⟩
      rw [cons_append, skipVarint, if_pos high, anywhere]
    rw [if_neg high] at read
    simp only [Option.some.injEq, Prod.mk.injEq, true_and] at read
    subst read
    refine ⟨[byte], rfl, fun more => ?_⟩
    rw [cons_append, skipVarint, if_neg high, nil_append]

lemma skipField_local (wireType : UInt32) : (skipField wireType).Local := by
  unfold skipField
  split
  · exact skipVarint_local
  split
  · exact Reader.skip_local 8
  split
  · exact decodeVarint32_local.andThen fun length => Reader.skip_local length.toNat
  split
  · exact Reader.skip_local 4
  intro input value rest read
  simp at read

lemma readField_local : readField.Local :=
  (decodeVarint32_local.mapped _).andThen fun tag => (skipField_local tag.wireType).mapped _

lemma readField_progressing : readField.Progressing :=
  (decodeVarint32_progressing.mapped _).andThen fun tag =>
    (skipField_local tag.wireType).mapped _

/-! ## The root fields -/

abbrev Field := Tag × List UInt8

namespace Field

def number (field : Field) : UInt32 := field.1.number

def wireType (field : Field) : UInt32 := field.1.wireType

def raw (field : Field) : List UInt8 := field.2

end Field

variable (data : List UInt8)

/-- The fields that every walk over a message meets, or none when the walk fails. -/
def rootFields : Option (List Field) := readField.all data.length data

variable (fields : List Field)

def encodeFields : List UInt8 := (fields.map Field.raw).flatten

def scanRootFields : Option (BitVec 32) :=
  (rootFields data).map fun fields => fields.foldl (fun (mask : BitVec 32) (field : Field) =>
    if field.number < 32 then mask ||| 1#32 <<< field.number.toNat else mask) 0

variable (mask : BitVec 32)

def keptBy (keepUnknown : Bool) (field : Field) : Bool :=
  if field.number < 32 then mask &&& 1#32 <<< field.number.toNat != 0 else keepUnknown

def copyKeptFields (keepUnknown : Bool) :
    Option (List UInt8) :=
  (rootFields data).map fun fields => encodeFields (fields.filter (keptBy mask keepUnknown))

/-! ## What the masks mean -/

def Mentions (number : UInt32) : Prop :=
  ∃ field ∈ fields, field.number = number

instance (fields : List Field) (number : UInt32) : Decidable (Mentions fields number) :=
  inferInstanceAs (Decidable (∃ field ∈ fields, field.number = number))

lemma getLsbD_one_shiftLeft (shift index : Nat) (inside : index < 32) :
    (1#32 <<< shift).getLsbD index = decide (index = shift) := by
  rw [BitVec.getLsbD_shiftLeft, BitVec.getLsbD_one]
  by_cases same : index = shift
  · simp [same]
    omega
  simp [same]
  omega

lemma mask_and_ne_zero {index : Nat} (inside : index < 32) :
    (mask &&& 1#32 <<< index ≠ 0) ↔ mask.getLsbD index = true := by
  constructor
  · intro nonzero
    by_contra unset
    apply nonzero
    apply BitVec.eq_of_getLsbD_eq
    intro bit bitInside
    rw [BitVec.getLsbD_and, getLsbD_one_shiftLeft _ _ bitInside]
    by_cases same : bit = index
    · subst same
      simpa using unset
    simp [same]
  intro set zero
  have bit : (mask &&& 1#32 <<< index).getLsbD index = true := by
    rw [BitVec.getLsbD_and, getLsbD_one_shiftLeft _ _ inside, set]
    simp
  rw [zero] at bit
  simp at bit

lemma lt_thirty_two_iff (number : UInt32) : number < 32 ↔ number.toNat < 32 :=
  UInt32.lt_iff_toNat_lt

lemma getLsbD_foldl_mask {number : UInt32} (known : number < 32) :
    (fields.foldl (fun (mask : BitVec 32) (field : Field) =>
      if field.number < 32 then mask ||| 1#32 <<< field.number.toNat else mask) mask).getLsbD
        number.toNat = (mask.getLsbD number.toNat || decide (Mentions fields number)) := by
  induction fields generalizing mask with
  | nil => simp [Mentions]
  | cons field fields ih =>
    have inside := (lt_thirty_two_iff number).mp known
    rw [foldl_cons, ih]
    have mentions : Mentions (field :: fields) number ↔
        field.number = number ∨ Mentions fields number := by
      simp [Mentions]
    by_cases same : field.number = number
    · rw [same, if_pos known, BitVec.getLsbD_or, getLsbD_one_shiftLeft _ _ inside]
      simp [mentions, same]
    have unaffected : (if field.number < 32 then mask ||| 1#32 <<< field.number.toNat
        else mask).getLsbD number.toNat = mask.getLsbD number.toNat := by
      split
      · have other : number.toNat ≠ field.number.toNat := fun equal =>
          same (UInt32.toNat_inj.mp equal.symm)
        rw [BitVec.getLsbD_or, getLsbD_one_shiftLeft _ _ inside]
        simp [other]
      rfl
    rw [unaffected]
    simp [mentions, same]

variable {fields : List Field} {data : List UInt8}

/-- `_scan_root_fields` succeeds where the walk does, and its mask says which of the
numbers below 32 occur. -/
lemma scanRootFields_of_rootFields (walked : rootFields data = some fields) :
    ∃ mask, scanRootFields data = some mask ∧ ∀ number : UInt32, number < 32 →
        mask.getLsbD number.toNat = decide (Mentions fields number) := by
  refine ⟨_, by rw [scanRootFields, walked, Option.map_some], fun number known => ?_⟩
  rw [getLsbD_foldl_mask _ _ known]
  simp

lemma scanRootFields_eq_none (failed : rootFields data = none) : scanRootFields data = none := by
  rw [scanRootFields, failed, Option.map_none]

lemma keptBy_known {mask : BitVec 32} {keepUnknown : Bool} {field : Field}
    (known : field.number < 32) :
    keptBy mask keepUnknown field = mask.getLsbD field.number.toNat := by
  have inside := (lt_thirty_two_iff _).mp known
  rw [keptBy, if_pos known, Bool.eq_iff_iff, bne_iff_ne, mask_and_ne_zero mask inside]

lemma keptBy_unknown {mask : BitVec 32} {keepUnknown : Bool} {field : Field}
    (unknown : ¬ field.number < 32) : keptBy mask keepUnknown field = keepUnknown := by
  rw [keptBy, if_neg unknown]

/-! ## Taking a message apart and putting fields together -/

def Field.Whole (field : Field) : Prop :=
  field.raw ≠ [] ∧ readField field.raw = some (field.1, [])

lemma rootFields_eq_some (walked : rootFields data = some fields) :
    data = encodeFields fields ∧ ∀ field ∈ fields, field.Whole :=
  Reader.all_eq_some readField_local readField_progressing walked

lemma rootFields_encodeFields (whole : ∀ field ∈ fields, field.Whole) :
    rootFields (encodeFields fields) = some fields :=
  Reader.all_flatten readField_local
    (Reader.length_le_flatten fun field mem => (whole field mem).1) whole

@[simp] lemma encodeFields_append (first second : List Field) :
    encodeFields (first ++ second) = encodeFields first ++ encodeFields second := by
  simp [encodeFields]

lemma rootFields_filter_append {old new : List UInt8} {oldFields newFields : List Field}
    (oldWalked : rootFields old = some oldFields) (newWalked : rootFields new = some newFields)
    (keep : Field → Bool) : rootFields (encodeFields (oldFields.filter keep) ++ new) =
      some (oldFields.filter keep ++ newFields) := by
  obtain ⟨-, oldWhole⟩ := rootFields_eq_some oldWalked
  obtain ⟨same, newWhole⟩ := rootFields_eq_some newWalked
  rw [same, ← encodeFields_append]
  apply rootFields_encodeFields
  intro field mem
  obtain kept | added := mem_append.mp mem
  · exact oldWhole field (mem_of_mem_filter kept)
  exact newWhole field added

lemma rootFields_filter (walked : rootFields data = some fields) (keep : Field → Bool) :
    rootFields (encodeFields (fields.filter keep)) = some (fields.filter keep) := by
  obtain ⟨-, whole⟩ := rootFields_eq_some walked
  exact rootFields_encodeFields fun field mem => whole field (mem_of_mem_filter mem)

lemma length_encodeFields_filter_le (fields : List Field) (keep : Field → Bool) :
    (encodeFields (fields.filter keep)).length ≤ (encodeFields fields).length := by
  induction fields with
  | nil => simp
  | cons field fields ih =>
    rw [filter_cons]
    split <;> simp only [encodeFields, map_cons, flatten_cons, length_append]
      at ih ⊢ <;> omega

lemma filter_eq_of_length (whole : ∀ field ∈ fields, field.Whole) {keep : Field → Bool}
    (same : (encodeFields (fields.filter keep)).length = (encodeFields fields).length) :
    fields.filter keep = fields := by
  induction fields with
  | nil => rfl
  | cons field fields ih =>
    have shorter := length_encodeFields_filter_le fields keep
    have positive := length_pos_iff.mpr (whole field (by simp)).1
    rw [filter_cons] at same ⊢
    split at same
    next kept =>
      simp only [encodeFields, map_cons, flatten_cons, length_append] at same
      rw [if_pos kept, ih (fun other mem => whole other (by simp [mem]))
        (by simpa [encodeFields] using same)]
    simp only [encodeFields, map_cons, flatten_cons, length_append]
      at same shorter
    omega

end WendyLite.Conf
