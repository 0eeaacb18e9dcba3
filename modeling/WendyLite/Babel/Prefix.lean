import WendyLite.Babel.Types

/-! # Prefixes

Masking and validation from `wire.c`; ordering and the routability test from
`engine.c`. `wb_prefix_equal` compares family, length and all sixteen bytes,
which is equality of `Prefix`.
-/

namespace WendyLite.Babel

def maskBytes : Nat → List UInt8 → List UInt8
  | _, [] => []
  | bits, byte :: rest =>
    if bits ≥ 8 then byte :: maskBytes (bits - 8) rest
    else (byte &&& (if bits = 0 then 0 else UInt8.ofNat (255 <<< (8 - bits)))) ::
      maskBytes 0 rest

@[simp] lemma length_maskBytes (bits : Nat) (bytes : List UInt8) :
    (maskBytes bits bytes).length = bytes.length := by
  induction bytes generalizing bits with
  | nil => rfl
  | cons byte rest ih =>
    rw [maskBytes]
    split <;> simp [ih]

namespace Prefix

variable (p : Prefix)

def mask : Prefix :=
  { p with bytes := ⟨maskBytes p.bits.toNat p.bytes.val, by simp [p.bytes.property]⟩ }

def valid : Bool :=
  (p.family == 4 || p.family == 6) &&
    p.bits ≤ (if p.family == 4 then 32 else 128) && p.bytes == p.mask.bytes

def byte (index : Nat) : UInt8 := p.bytes.val.getD index 0

/-- `prefix_cmp`: family, then the bytes as `memcmp` orders them, then length. -/
def cmp (a b : Prefix) : Ordering :=
  (compare a.family b.family).then
    ((compare a.bytes.val b.bytes.val).then (compare a.bits b.bits))

/-- `routable`: a valid prefix outside the link-local, multicast, loopback and
IPv4-mapped ranges that is not the all-zero host address. -/
def routable : Bool :=
  p.valid &&
    (if p.family == 6 then
      !((p.byte 0 == 0xfe && p.byte 1 &&& 0xc0 == 0x80) || p.byte 0 == 0xff) &&
        !(allZero (p.bytes.val.take 15) && p.byte 15 == 1) &&
        !(allZero (p.bytes.val.take 10) && p.byte 10 == 0xff && p.byte 11 == 0xff)
    else
      !(p.byte 0 == 127 || (p.byte 0 == 169 && p.byte 1 == 254) ||
        p.byte 0 &&& 0xf0 == 0xe0)) &&
    !(allZero p.bytes.val && p.bits == (if p.family == 4 then 32 else 128))

lemma valid_of_routable {p : Prefix} (routable : p.routable = true) : p.valid = true := by
  simp only [Prefix.routable, Bool.and_eq_true] at routable
  exact routable.1.1

/-! ## The order of prefixes -/

private lemma cmp_eq_compareLex : cmp = compareLex (compareOn family)
      (compareLex (compareOn fun p => p.bytes.val) (compareOn bits)) := rfl

instance : Std.TransCmp cmp := by
  rw [cmp_eq_compareLex]
  infer_instance

lemma eq_of_cmp_eq (equal : cmp a b = .eq) : a = b := by
  simp only [cmp, Ordering.then_eq_eq, Std.LawfulEqOrd.compare_eq_iff_eq] at equal
  obtain ⟨aBytes, aBits, aFamily⟩ := a
  obtain ⟨bBytes, bBits, bFamily⟩ := b
  obtain ⟨sameFamily, sameBytes, sameBits⟩ := equal
  simp only at sameFamily sameBytes sameBits
  subst sameFamily sameBits
  rw [Subtype.ext sameBytes]

instance : Std.LawfulEqCmp cmp where
  eq_of_compare := eq_of_cmp_eq

end Prefix

end WendyLite.Babel
