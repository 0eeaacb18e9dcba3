import Mathlib.Data.List.MinMax
import WendyLite.Babel.Checkpoint
import WendyLite.Babel.Feasibility

/-! # Longest-prefix match

What `wb_prefix_mask` does to the single bits of a prefix, and from it what
`wb_lookup` finds: of the entries that contain the host, bit by bit, the longest.
-/

namespace WendyLite.Babel

open SlotTable List

/-! ## Bits -/

/-- Bit `index` of a byte string, counted from the most significant bit of its first
byte. -/
def bitAt (bytes : List UInt8) (index : Nat) : Bool :=
  (bytes.getD (index / 8) 0).toNat.testBit (7 - index % 8)

def Prefix.bit (p : Prefix) (index : Nat) : Bool := bitAt p.bytes.val index

lemma bitAt_nil (index : Nat) : bitAt [] index = false := by simp [bitAt]

lemma bitAt_cons (byte : UInt8) (rest : List UInt8) (index : Nat) : bitAt (byte :: rest) index =
      if index < 8 then byte.toNat.testBit (7 - index) else bitAt rest (index - 8) := by
  unfold bitAt
  split
  next first => rw [Nat.div_eq_of_lt first, Nat.mod_eq_of_lt first, getD_cons_zero]
  rename_i later
  have quotient : index / 8 = (index - 8) / 8 + 1 := by omega
  have remainder : index % 8 = (index - 8) % 8 := by omega
  rw [quotient, remainder, getD_cons_succ]

/-- The bits of the mask that `wb_prefix_mask` applies to the last byte it keeps. -/
lemma testBit_byteMask : ∀ bits < 8, ∀ index < 8,
    (if bits = 0 then 0 else UInt8.ofNat (255 <<< (8 - bits))).toNat.testBit (7 - index) =
      decide (index < bits) := by
  decide

lemma bitAt_maskBytes (bits : Nat) (bytes : List UInt8) (index : Nat) :
    bitAt (maskBytes bits bytes) index = (decide (index < bits) && bitAt bytes index) := by
  induction bytes generalizing bits index with
  | nil => simp [maskBytes, bitAt_nil]
  | cons byte rest ih =>
    rw [maskBytes, bitAt_cons]
    split
    next whole =>
      rw [bitAt_cons]
      split
      · simp [show index < bits by omega]
      rw [ih]
      congr 2
      exact propext (by omega)
    rename_i part
    rw [bitAt_cons]
    split
    next first =>
      rw [UInt8.toNat_and, Nat.testBit_and, testBit_byteMask bits (by omega) index first,
        Bool.and_comm]
    rw [ih]
    simp [show ¬index < bits by omega]

lemma UInt8.eq_of_bits {a b : UInt8}
    (same : ∀ index < 8, a.toNat.testBit (7 - index) = b.toNat.testBit (7 - index)) : a = b := by
  refine UInt8.toNat_inj.mp (Nat.eq_of_testBit_eq fun position => ?_)
  by_cases low : position < 8
  · have bit := same (7 - position) (by omega)
    rwa [show 7 - (7 - position) = position by omega] at bit
  have high : 2 ^ 8 ≤ 2 ^ position := Nat.pow_le_pow_right (by decide) (by omega)
  rw [Nat.testBit_lt_two_pow (a.toNat_lt.trans_le high),
    Nat.testBit_lt_two_pow (b.toNat_lt.trans_le high)]

lemma eq_of_bitAt {a b : List UInt8} (length : a.length = b.length)
    (same : ∀ index, bitAt a index = bitAt b index) : a = b := by
  induction a generalizing b with
  | nil => exact (eq_nil_of_length_eq_zero length.symm).symm
  | cons byte rest ih =>
    cases b with
    | nil => cases length
    | cons byte' rest' =>
      have head : byte = byte' := by
        refine UInt8.eq_of_bits fun index first => ?_
        simpa [bitAt_cons, first] using same index
      have tail : rest = rest' := by
        refine ih (by simpa using length) fun index => ?_
        simpa [bitAt_cons] using same (index + 8)
      rw [head, tail]

/-! ## Containment -/

/-- `p` is a prefix of `host`: of its family, no longer, and with its leading bits. -/
structure Prefix.Contains (p host : Prefix) : Prop where
  family : p.family = host.family
  bits : p.bits ≤ host.bits
  same : ∀ index < p.bits.toNat, p.bit index = host.bit index

def Prefix.cut (host : Prefix) (bits : UInt8) : Prefix := ({ host with bits := bits }).mask

lemma Prefix.bit_cut (host : Prefix) (bits : UInt8) (index : Nat) :
    (host.cut bits).bit index = (decide (index < bits.toNat) && host.bit index) :=
  bitAt_maskBytes bits.toNat host.bytes.val index

lemma Prefix.bit_of_valid {p : Prefix} (valid : p.valid = true) (index : Nat) :
    p.bit index = (decide (index < p.bits.toNat) && p.bit index) := by
  simp only [Prefix.valid, Bool.and_eq_true, beq_iff_eq] at valid
  have bytes : p.bytes.val = maskBytes p.bits.toNat p.bytes.val := congrArg Subtype.val valid.2
  have bit := bitAt_maskBytes p.bits.toNat p.bytes.val index
  rwa [← bytes] at bit

/-- The comparison `wb_lookup` makes is containment. -/
lemma covers_iff {p : Prefix} (valid : p.valid = true) (host : Prefix) :
    covers p host = true ↔ p.Contains host := by
  simp only [covers, Bool.and_eq_true, beq_iff_eq, decide_eq_true_eq]
  constructor
  · rintro ⟨⟨family, bits⟩, masked⟩
    refine ⟨family, bits, fun index kept => ?_⟩
    have cut := host.bit_cut p.bits index
    rwa [Prefix.cut, masked, decide_eq_true kept, Bool.true_and] at cut
  rintro ⟨family, bits, same⟩
  refine ⟨⟨family, bits⟩, ?_⟩
  have bytes : (host.cut p.bits).bytes = p.bytes := by
    refine Subtype.ext (eq_of_bitAt ?_ fun index => ?_)
    · rw [(host.cut p.bits).bytes.property, p.bytes.property]
    have left := host.bit_cut p.bits index
    have right := Prefix.bit_of_valid valid index
    rw [Prefix.bit] at left right
    rw [left, right]
    by_cases kept : index < p.bits.toNat
    · rw [decide_eq_true kept, Bool.true_and, Bool.true_and]
      exact (same index kept).symm
    simp [kept]
  obtain ⟨pBytes, pBits, pFamily⟩ := p
  simp only [Prefix.mk.injEq, Prefix.mask] at bytes ⊢
  exact ⟨bytes, trivial, family.symm⟩

/-- Entries of one length that contain a host have one prefix. -/
lemma Prefix.Contains.unique {p q host : Prefix} (pValid : p.valid = true)
    (qValid : q.valid = true) (left : p.Contains host) (right : q.Contains host)
    (bits : p.bits = q.bits) : p = q := by
  have pMasked := (covers_iff pValid host).mpr left
  have qMasked := (covers_iff qValid host).mpr right
  simp only [covers, Bool.and_eq_true, beq_iff_eq] at pMasked qMasked
  rw [← pMasked.2, ← qMasked.2, bits]

/-! ## The loop -/

/-- The loop of `wb_lookup` takes the first of the longest entries that cover the host. -/
lemma wbLookup_eq_argmax (e : Engine) (valid : host.valid = true) :
    wbLookup e host = (e.routes.filter fun route => covers route.pfx host).argmax fun route =>
        route.pfx.bits.toNat := by
  rw [wbLookup, if_neg (by simp [valid]), argmax, foldl_filter]
  congr 1
  funext best route
  cases best <;> simp [argAux, UInt8.lt_iff_toNat_lt]

/-- In every reachable state and for every valid host: nothing is found exactly when
no entry contains the host, and an entry is found exactly when it is the one with the
most bits among those that contain it. Whether it is unreachable plays no part. -/
theorem lookup_longest_match {env : Env} {e : Engine} (reachable : Reachable env e)
    (host : Prefix) (valid : host.valid = true) :
    (wbLookup e host = none ↔ ∀ route ∈ e.routes, ¬route.pfx.Contains host) ∧
      ∀ route, wbLookup e host = some route ↔
        route ∈ e.routes ∧ route.pfx.Contains host ∧ route.pfx = host.cut route.pfx.bits ∧
          ∀ other ∈ e.routes, other.pfx.Contains host → other ≠ route →
            other.pfx.bits < route.pfx.bits := by
  have proper := reachable.sound.routes
  have stored : ∀ route ∈ e.routes, route.pfx.valid = true := fun route member =>
    (proper.each route member rfl).valid
  have listed : ∀ route, route ∈ (e.routes.filter fun route => covers route.pfx host) ↔
      route ∈ e.routes ∧ route.pfx.Contains host := by
    intro route
    rw [mem_filter]
    exact and_congr_right fun member => covers_iff (stored route member) host
  have injective : ∀ a ∈ e.routes, ∀ b ∈ e.routes, a.pfx = b.pfx → a = b := by
    have distinct := proper.distinct
    simp only [SlotTable.keys, filter_true] at distinct
    exact fun a inA b inB => inj_on_of_nodup_map distinct inA inB
  rw [wbLookup_eq_argmax e valid]
  constructor
  · rw [argmax_eq_none, eq_nil_iff_forall_not_mem]
    simp only [listed, not_and]
  intro route
  constructor
  · intro found
    obtain ⟨member, greatest, _⟩ := argmax_eq_some_iff.mp found
    obtain ⟨inRoutes, contains⟩ := (listed route).mp member
    have masked := (covers_iff (stored route inRoutes) host).mpr contains
    simp only [covers, Bool.and_eq_true, beq_iff_eq] at masked
    refine ⟨inRoutes, contains, masked.2.symm, fun other inOther covered apart => ?_⟩
    have le := greatest other ((listed other).mpr ⟨inOther, covered⟩)
    refine UInt8.lt_iff_toNat_lt.mpr (lt_of_le_of_ne le fun bits => apart ?_)
    exact injective other inOther route inRoutes (covered.unique (stored other inOther)
      (stored route inRoutes) contains (UInt8.toNat_inj.mp bits))
  rintro ⟨inRoutes, contains, _, greatest⟩
  have member := (listed route).mpr ⟨inRoutes, contains⟩
  refine argmax_eq_some_iff.mpr ⟨member, fun other inOther => ?_, fun other inOther le => ?_⟩
  · obtain ⟨inList, covered⟩ := (listed other).mp inOther
    by_cases same : other = route
    · rw [same]
    exact (UInt8.lt_iff_toNat_lt.mp (greatest other inList covered same)).le
  obtain ⟨inList, covered⟩ := (listed other).mp inOther
  by_cases same : other = route
  · rw [same]
  have less := UInt8.lt_iff_toNat_lt.mp (greatest other inList covered same)
  exact absurd le (not_le.mpr less)

def guest : Prefix where
  bytes := Octets.ofList 16 [0xfd, 0, 0, 0, 0, 0, 0, 0, 0, 0, 0, 0, 0, 0, 0, 1]
  bits := 128
  family := 6

theorem lookup_longest_match_learned :
    (wbLookup learned guest).map Route.pfx = some block ∧
      (wbLookup learned guest = none ↔ ∀ route ∈ learned.routes, ¬route.pfx.Contains guest) :=
  ⟨by decide +kernel, (lookup_longest_match learned_reachable guest (by decide +kernel)).1⟩

/-! ## Live routes -/

lemma live_of_cost (finite : addCost advertised (cost e link) ≠ infinity) :
    ∃ state, link = some state ∧ e.now < state.ihuExpires ∧
      (e.now < state.multicast.expires ∨ e.now < state.unicast.expires) := by
  have sum := toNat_addCost finite
  have small : cost e link ≠ infinity := by
    intro infinite
    rw [infinite] at finite sum
    have bound := (addCost advertised infinity).toNat_lt
    have above : infinity.toNat = 65535 := rfl
    have other : (addCost advertised infinity).toNat ≠ 65535 := fun equal =>
      finite (UInt16.toNat_inj.mp (equal.trans above.symm))
    omega
  cases link with
  | none => exact absurd rfl small
  | some state =>
    rw [cost, costAt] at small
    split at small
    · exact absurd rfl small
    rename_i live
    simp only [not_or, not_and_or, UInt64.not_le] at live
    exact ⟨state, rfl, live.1, live.2.2⟩

/-- A learned route that `wb_lookup` returns leads over a link that is attached and whose
neighbour was heard and heard this router of late, and comes from a candidate that is
strictly better than the source entry. -/
theorem lookup_is_live (reachable : Reachable env e) (running : e.stopped = false)
    (found : wbLookup e host = some route) (usable : route.unreachable = false)
    (foreign : route.isLocal = false) : Justified e route ∧
      ∃ link ∈ e.links, link.config.id = route.link ∧ e.now < link.ihuExpires ∧
        (e.now < link.multicast.expires ∨ e.now < link.unicast.expires) := by
  have mem : route ∈ e.routes := by
    have valid : host.valid = true := by
      by_contra invalid
      simp [wbLookup, invalid] at found
    rw [wbLookup_eq_argmax e valid] at found
    exact mem_of_mem_filter (argmax_mem found)
  refine ⟨(reachable.grounded running).justified mem usable foreign, ?_⟩
  rcases reachable.settled running with settled | empty
  · rcases settled.each route mem with own | ⟨candidate, _, comes⟩ | ⟨drop, _, _, rfl⟩
    · obtain ⟨_, _, _, rfl⟩ := mem_localRoutes.mp own
      cases foreign
    · -- A finite metric needs a finite cost of the link.
      have finite := comes.finite
      rw [comes.metric] at finite
      obtain ⟨link, attached, live⟩ := live_of_cost finite
      obtain ⟨inTable, id⟩ := linkFor_some attached
      refine ⟨link, inTable, id.trans ?_, live⟩
      rw [comes.chosen]
    cases usable
  rw [empty] at mem
  cases mem

theorem lookup_is_live_learned : ∃ route, wbLookup learned guest = some route ∧
    Justified learned route := by
  have found : ∃ route, wbLookup learned guest = some route ∧ route.unreachable = false ∧
    route.isLocal = false := by decide +kernel
  obtain ⟨route, found, usable, foreign⟩ := found
  exact ⟨route, found,
    (lookup_is_live learned_reachable (by decide +kernel) found usable foreign).1⟩

end WendyLite.Babel
