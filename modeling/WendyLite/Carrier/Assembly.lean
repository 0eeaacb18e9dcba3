import WendyLite.Foundation.Octets
import Mathlib.Data.List.Induction
import Mathlib.Data.List.Nodup
import Mathlib.Tactic.Linarith

/-! # Packets in datagrams

`packet.c`. An IPv6 packet travels in one datagram, or in two when it is longer than a
datagram holds. The assembler keeps one packet at a time, for two seconds.
-/

namespace WendyLite.Carrier

open List

/-- `WN_DATAGRAM_MAX`, `WN_MTU` and the bytes of a packet that a datagram holds. -/
def datagramMax : Nat := 1100

def mtu : Nat := 1320

def span : Nat := 1091

variable (p : List UInt8)

/-- An IPv6 packet whose header tells its length. -/
def isPacket : Bool :=
  40 ≤ p.length && p.length ≤ mtu && (p.getD 0 0).toNat / 16 == 6 &&
    beNat ((p.drop 4).take 2) == p.length - 40

/-- `wn_fragment`; `none` is the result 0. -/
def wnFragment (id : UInt32) (offset : Nat) : Option (List UInt8) :=
  if isPacket p = false ∨ (offset ≠ 0 ∧ offset ≠ span) ∨ p.length ≤ offset then none
  else
    some (1 :: beBytes 4 id.toNat ++ beBytes 2 p.length ++ beBytes 2 offset ++
      (p.drop offset).take span)

structure Assembler where
  packet : Octets 1320 := Octets.zero 1320
  id : Nat := 0
  total : Nat := 0
  received : Nat := 0
  parts : Nat := 0
  deadline : Int := 0

def fragmentId : Nat := beNat ((p.drop 1).take 4)

def fragmentTotal : Nat := beNat ((p.drop 5).take 2)

def fragmentOffset : Nat := beNat ((p.drop 7).take 2)

def fragmentBytes : List UInt8 := p.drop 9

def fragmentOk : Bool :=
  10 ≤ p.length && 40 ≤ fragmentTotal p && fragmentTotal p ≤ mtu &&
    (fragmentOffset p == 0 || fragmentOffset p == span) && fragmentOffset p < fragmentTotal p &&
    p.length - 9 == min (fragmentTotal p - fragmentOffset p) span

variable (s : Assembler)

/-- The assembler that takes the fragment: the one there is, or one started over. -/
def Assembler.current (p : List UInt8) (now : Int) : Assembler :=
  if s.parts = 0 ∨ s.deadline ≤ now ∨ s.id ≠ fragmentId p then
    { id := fragmentId p, total := fragmentTotal p, deadline := now + 2000000 }
  else s

/-- Part 1 starts the packet, part 2 ends it. -/
def fragmentPart : Nat := if fragmentOffset p ≠ 0 then 2 else 1

def Assembler.take (p : List UInt8) : Assembler :=
  { s with
    packet := s.packet.overlay (fragmentOffset p) (fragmentBytes p)
    received := s.received + (fragmentBytes p).length
    parts := s.parts ||| fragmentPart p }

def wnAssemble (p : List UInt8) (now : Int) : Int × Assembler :=
  if p = [] ∨ datagramMax < p.length then (-1, s)
  else if p.getD 0 0 ≠ 1 then (0, s)
  else if fragmentOk p = false then (-1, s)
  else
    let s := s.current p now
    if s.total ≠ fragmentTotal p ∨ s.parts &&& fragmentPart p ≠ 0 then (-1, { s with parts := 0 })
    else
      let s := s.take p
      if s.received ≠ fragmentTotal p then (0, s)
      else
        (if (s.packet.val.getD 0 0).toNat / 16 = 6 ∧
            beNat ((s.packet.val.drop 4).take 2) = fragmentTotal p - 40 then fragmentTotal p
          else -1, { s with parts := 0 })

abbrev Feed := List (List UInt8 × Int)

def Assembler.run (feed : Feed) : Assembler :=
  feed.foldl (fun s input => (wnAssemble s input.1 input.2).2) s

/-! ## What a partial packet holds -/

structure Piece (p : List UInt8) (id total offset : Nat) : Prop where
  kind : p.getD 0 0 = 1
  ok : fragmentOk p = true
  id : fragmentId p = id
  total : fragmentTotal p = total
  offset : fragmentOffset p = offset

lemma Piece.facts {p : List UInt8} {id total offset : Nat} (piece : Piece p id total offset) :
    40 ≤ total ∧ total ≤ mtu ∧ (offset = 0 ∨ offset = span) ∧ offset < total ∧
      (fragmentBytes p).length = min (total - offset) span := by
  have ok := piece.ok
  simp only [fragmentOk, Bool.and_eq_true, decide_eq_true_eq, beq_iff_eq, Bool.or_eq_true,
    piece.total, piece.offset] at ok
  refine ⟨ok.1.1.1.1.2, ok.1.1.1.2, ok.1.1.2, ok.1.2, ?_⟩
  rw [fragmentBytes, length_drop]
  exact ok.2

/-- What an assembler in the middle of a packet has: one part of two, fed at most two
seconds before its deadline. -/
def Halfway (feed : Feed) : Prop :=
  s.parts = 0 ∨ ∃ input ∈ feed, ∃ offset, Piece input.1 s.id s.total offset ∧ span < s.total ∧
    s.parts = fragmentPart input.1 ∧ s.received = (fragmentBytes input.1).length ∧
    s.deadline = input.2 + 2000000 ∧
    (s.packet.val.drop offset).take (fragmentBytes input.1).length = fragmentBytes input.1

section Overlay

variable {size start : Nat} (array : Octets size) (bytes : List UInt8)
  (fits : start + bytes.length ≤ size)

include fits

lemma overlay_val : (array.overlay start bytes).val =
    array.val.take start ++ (bytes ++ array.val.drop (start + bytes.length)) ∧
      (array.val.take start).length = start := by
  have length := array.property
  rw [Octets.overlay, Octets.ofList_of_length, append_assoc, length_take]
  · exact ⟨rfl, by omega⟩
  simp only [length_append, length_take, length_drop]
  omega

lemma overlay_here : ((array.overlay start bytes).val.drop start).take bytes.length = bytes := by
  obtain ⟨val, length⟩ := overlay_val array bytes fits
  rw [val, drop_left' length, take_left']
  rfl

lemma overlay_before : (array.overlay start bytes).val.take start = array.val.take start := by
  obtain ⟨val, length⟩ := overlay_val array bytes fits
  rw [val, take_left' length]

lemma overlay_after : (array.overlay start bytes).val.drop (start + bytes.length) =
    array.val.drop (start + bytes.length) := by
  obtain ⟨val, length⟩ := overlay_val array bytes fits
  rw [val, ← append_assoc, drop_left']
  rw [length_append, length]

end Overlay

/-- How a packet came together: from one fragment, or from two of one id and length, the
second within two seconds of the first. -/
inductive Assembled (feed : Feed) (p : List UInt8) (now : Int) : List UInt8 → Prop
  | whole {id total : Nat} (piece : Piece p id total 0) (short : total ≤ span) :
      Assembled feed p now (fragmentBytes p)
  | inOrder {id total : Nat} {input : List UInt8 × Int} (member : input ∈ feed)
      (first : Piece input.1 id total 0) (second : Piece p id total span)
      (timely : now < input.2 + 2000000) :
      Assembled feed p now (fragmentBytes input.1 ++ fragmentBytes p)
  | reversed {id total : Nat} {input : List UInt8 × Int} (member : input ∈ feed)
      (first : Piece input.1 id total span) (second : Piece p id total 0)
      (timely : now < input.2 + 2000000) :
      Assembled feed p now (fragmentBytes p ++ fragmentBytes input.1)

section Step

variable {s : Assembler} {feed : Feed} {p : List UInt8} {now : Int}

lemma fragmentPart_cases (p : List UInt8) : fragmentPart p = 1 ∨ fragmentPart p = 2 := by
  rw [fragmentPart]
  split <;> simp

variable {offset total : Nat}

lemma Piece.part {id : Nat} (piece : Piece p id total offset) :
    fragmentPart p = if offset ≠ 0 then 2 else 1 := by
  rw [fragmentPart, piece.offset]

lemma take_two_parts {packet first second : List UInt8}
    (head : packet.take span = first) (tail : (packet.drop span).take second.length = second)
    (sum : total = span + second.length) : packet.take total = first ++ second := by
  rw [sum, take_add, head, tail]

/-- What the assembler has after the fragment of a packet it starts over with. -/
lemma restarted_step (feed : Feed) (now : Int) {id : Nat} (piece : Piece p id total offset) :
    let s := Assembler.take { id := id, total := total, deadline := now + 2000000 } p
    (s.received ≠ total → Halfway s (feed ++ [(p, now)])) ∧
      (s.received = total → Assembled feed p now (fragmentBytes p) ∧
        (fragmentBytes p).length = total ∧ s.packet.val.take total = fragmentBytes p) := by
  obtain ⟨low, high, offsets, inside, length⟩ := piece.facts
  have copied := overlay_here (Octets.zero 1320) (fragmentBytes p)
    (show offset + (fragmentBytes p).length ≤ 1320 by simp only [mtu, span] at *; omega)
  intro s
  have received : s.received = (fragmentBytes p).length := Nat.zero_add _
  have packet : s.packet = (Octets.zero 1320).overlay offset (fragmentBytes p) := by
    rw [← piece.offset]
    rfl
  refine ⟨fun more => .inr ⟨(p, now), by simp, offset, piece, ?_, ?_, received, rfl, ?_⟩,
    fun done => ?_⟩
  · show span < total
    rw [received, length] at more
    simp only [span] at *
    omega
  · exact Nat.zero_or _
  · rw [packet]
    exact copied
  rw [received, length] at done
  have start : offset = 0 ∧ total ≤ span := by
    simp only [span] at *
    omega
  obtain ⟨rfl, short⟩ := start
  refine ⟨.whole piece short, length.trans done, ?_⟩
  rw [packet]
  rwa [drop_zero, length, done] at copied

lemma continued_step {input : List UInt8 × Int} {offset' : Nat} (mem : input ∈ feed)
    (earlier : Piece input.1 s.id s.total offset') (piece : Piece p s.id s.total offset)
    (received : s.received = (fragmentBytes input.1).length)
    (deadline : s.deadline = input.2 + 2000000) (timely : now < s.deadline)
    (kept : (s.packet.val.drop offset').take (fragmentBytes input.1).length = fragmentBytes input.1)
    (other : fragmentPart p ≠ fragmentPart input.1) :
    (s.take p).received = s.total ∧ ∃ bytes, Assembled feed p now bytes ∧
      bytes.length = s.total ∧ (s.take p).packet.val.take s.total = bytes := by
  obtain ⟨low, high, offsets, inside, length⟩ := piece.facts
  obtain ⟨_, _, offsets', inside', length'⟩ := earlier.facts
  have sum : (s.take p).received = (fragmentBytes input.1).length + (fragmentBytes p).length := by
    rw [← received]
    rfl
  have fits : offset + (fragmentBytes p).length ≤ 1320 := by
    simp only [mtu, span] at *
    omega
  have copied := overlay_here s.packet (fragmentBytes p) fits
  have before := overlay_before s.packet (fragmentBytes p) fits
  have after := overlay_after s.packet (fragmentBytes p) fits
  have packet : (s.take p).packet = s.packet.overlay offset (fragmentBytes p) := by
    rw [← piece.offset]
    rfl
  rw [piece.part, earlier.part] at other
  rw [deadline] at timely
  rw [sum, packet]
  rcases offsets' with rfl | rfl <;> rcases offsets with rfl | rfl
  · exact absurd rfl other
  · have first : (fragmentBytes input.1).length = span := by
      simp only [span] at *
      omega
    have total : s.total = span + (fragmentBytes p).length := by
      simp only [mtu, span] at *
      omega
    refine ⟨by omega, _, .inOrder mem earlier piece timely, ?_, ?_⟩
    · rw [length_append, first, total]
    refine take_two_parts ?_ copied total
    rw [before, ← first]
    simpa using kept
  · have second : (fragmentBytes p).length = span := by
      simp only [span] at *
      omega
    have total : s.total = span + (fragmentBytes input.1).length := by
      simp only [mtu, span] at *
      omega
    refine ⟨by omega, _, .reversed mem earlier piece timely, ?_, ?_⟩
    · rw [length_append, second, total]
    refine take_two_parts ?_ ?_ total
    · rw [drop_zero, second] at copied
      exact copied
    rw [Nat.zero_add, second] at after
    rw [after]
    exact kept
  exact absurd rfl other

/-- One datagram: a partial packet stays what it is, and a packet that is returned was
put together from fragments. -/
lemma wnAssemble_step (halfway : Halfway s feed) (p : List UInt8) (now : Int) :
    Halfway (wnAssemble s p now).2 (feed ++ [(p, now)]) ∧
      (0 < (wnAssemble s p now).1 → ∃ bytes, Assembled feed p now bytes ∧
        (wnAssemble s p now).1 = bytes.length ∧
        (wnAssemble s p now).2.packet.val.take bytes.length = bytes) := by
  have still : Halfway s (feed ++ [(p, now)]) := by
    obtain idle | ⟨input, mem, rest⟩ := halfway
    · exact .inl idle
    exact .inr ⟨input, mem_append_left _ mem, rest⟩
  -- A complete packet is returned if its header is right.
  have complete : ∀ (s' : Assembler) (total : Nat) {check : Prop} [Decidable check],
      (∃ bytes, Assembled feed p now bytes ∧ bytes.length = total ∧
        s'.packet.val.take total = bytes) →
      0 < (if check then (total : Int) else -1) → ∃ bytes, Assembled feed p now bytes ∧
        (if check then (total : Int) else -1) = bytes.length ∧
        s'.packet.val.take bytes.length = bytes := by
    intro s' total check _ found positive
    obtain ⟨bytes, assembled, length, packet⟩ := found
    split at positive
    next right =>
      exact ⟨bytes, assembled, by rw [if_pos right, length], by rw [length]; exact packet⟩
    cases positive
  rw [wnAssemble]
  split
  · exact ⟨still, fun positive => by cases positive⟩
  split
  · exact ⟨still, fun positive => absurd positive (lt_irrefl _)⟩
  rename_i kind
  rw [not_not] at kind
  split
  · exact ⟨still, fun positive => by cases positive⟩
  rename_i ok
  rw [Bool.not_eq_false] at ok
  dsimp only
  by_cases fresh : s.parts = 0 ∨ s.deadline ≤ now ∨ s.id ≠ fragmentId p
  · have piece : Piece p (fragmentId p) (fragmentTotal p) (fragmentOffset p) :=
      ⟨kind, ok, rfl, rfl, rfl⟩
    have step := restarted_step feed now piece
    rw [Assembler.current, if_pos fresh, if_neg (by simp)]
    split
    next more => exact ⟨step.1 more, fun positive => absurd positive (lt_irrefl _)⟩
    rename_i done
    rw [not_not] at done
    exact ⟨.inl rfl, complete _ _ ⟨_, step.2 done⟩⟩
  rw [Assembler.current, if_neg fresh]
  rw [not_or, not_or, not_le, not_not] at fresh
  split
  · exact ⟨.inl rfl, fun positive => by cases positive⟩
  rename_i fits
  rw [not_or, not_not, not_not] at fits
  obtain idle | ⟨input, mem, offset, earlier, long, parts, received, deadline, kept⟩ := halfway
  · exact absurd idle fresh.1
  have piece : Piece p s.id s.total (fragmentOffset p) :=
    ⟨kind, ok, fresh.2.2.symm, fits.1.symm, rfl⟩
  have other : fragmentPart p ≠ fragmentPart input.1 := by
    intro same
    rw [parts, ← same, Nat.and_self] at fits
    obtain part | part := fragmentPart_cases p
    · rw [part] at fits
      cases fits.2
    rw [part] at fits
    cases fits.2
  have step := continued_step mem earlier piece received deadline fresh.2.1 kept other
  rw [if_neg (by rw [step.1, fits.1]; simp)]
  refine ⟨.inl rfl, complete _ _ ?_⟩
  rw [← fits.1]
  exact step.2

lemma run_halfway (feed : Feed) : Halfway (Assembler.run {} feed) feed := by
  induction feed using reverseRecOn with
  | nil => exact .inl rfl
  | append_singleton feed input ih =>
    rw [Assembler.run, foldl_append]
    exact (wnAssemble_step ih input.1 input.2).1

end Step

/-! ## Fragments of sent packets -/

lemma wnFragment_some {packet p : List UInt8} {id : UInt32} {offset : Nat}
    (made : wnFragment packet id offset = some p) :
    fragmentId p = id.toNat ∧ fragmentTotal p = packet.length ∧ fragmentOffset p = offset ∧
      fragmentBytes p = (packet.drop offset).take span := by
  rw [wnFragment] at made
  split at made
  · cases made
  rename_i accepted
  simp only [not_or, Bool.not_eq_false, not_and, not_not] at accepted
  obtain ⟨valid, offsets, _⟩ := accepted
  simp only [isPacket, Bool.and_eq_true, decide_eq_true_eq] at valid
  have long : packet.length < 256 ^ 2 := lt_of_le_of_lt valid.1.1.2 (by decide)
  have far : offset < 256 ^ 2 := by
    by_cases zero : offset = 0
    · omega
    rw [offsets zero]
    decide
  have word : id.toNat < 256 ^ 4 := id.toNat_lt
  obtain rfl := Option.some.inj made
  have lengths := And.intro (length_beBytes 4 id.toNat)
    (And.intro (length_beBytes 2 packet.length) (length_beBytes 2 offset))
  have idBytes := beNat_beBytes_of_lt word
  have totalBytes := beNat_beBytes_of_lt long
  have offsetBytes := beNat_beBytes_of_lt far
  generalize beBytes 4 id.toNat = ids at *
  generalize beBytes 2 packet.length = totals at *
  generalize beBytes 2 offset = offsets' at *
  obtain ⟨idLength, totalLength, offsetLength⟩ := lengths
  match ids, totals, offsets', idLength, totalLength, offsetLength with
  | [a, b, c, d], [e, f], [g, h], _, _, _ => exact ⟨idBytes, totalBytes, offsetBytes, rfl⟩

/-- If packets that are sent have ids of their own, what is put together from their
fragments is one of them. -/
lemma Assembled.sent {feed : Feed} {p bytes : List UInt8} {now : Int}
    {sent : List (UInt32 × List UInt8)} (assembled : Assembled feed p now bytes)
    (distinct : (sent.map Prod.fst).Nodup)
    (fragments : ∀ input ∈ feed ++ [(p, now)], input.1.getD 0 0 = 1 →
      ∃ packet ∈ sent, ∃ offset, wnFragment packet.2 packet.1 offset = some input.1) :
    ∃ packet ∈ sent, packet.2 = bytes := by
  have origin : ∀ {input : List UInt8 × Int} {id total offset : Nat},
      input ∈ feed ++ [(p, now)] → Piece input.1 id total offset → ∃ packet ∈ sent,
        packet.1.toNat = id ∧ packet.2.length = total ∧
          fragmentBytes input.1 = (packet.2.drop offset).take span := by
    intro input id total offset mem piece
    obtain ⟨packet, inSent, offset', made⟩ := fragments input mem piece.kind
    obtain ⟨sameId, sameTotal, sameOffset, data⟩ := wnFragment_some made
    refine ⟨packet, inSent, sameId.symm.trans piece.id, sameTotal.symm.trans piece.total, ?_⟩
    rw [data, ← sameOffset, piece.offset]
  have same : ∀ {a b : UInt32 × List UInt8}, a ∈ sent → b ∈ sent → a.1.toNat = b.1.toNat → a = b :=
    fun inA inB ids => inj_on_of_nodup_map distinct inA inB (UInt32.toNat_inj.mp ids)
  have last : (p, now) ∈ feed ++ [(p, now)] := by simp
  -- Both parts are of the packet with their id, and are all of it.
  have whole : ∀ {first second : List UInt8 × Int} {id total : Nat},
      first ∈ feed ++ [(p, now)] → second ∈ feed ++ [(p, now)] → Piece first.1 id total 0 →
      Piece second.1 id total span →
      ∃ packet ∈ sent, packet.2 = fragmentBytes first.1 ++ fragmentBytes second.1 := by
    intro first second id total inFeed inFeed' piece piece'
    obtain ⟨packet, inSent, same₁, length, data⟩ := origin inFeed piece
    obtain ⟨packet', inSent', same₂, _, data'⟩ := origin inFeed' piece'
    obtain rfl := same inSent inSent' (same₁.trans same₂.symm)
    refine ⟨packet, inSent, ?_⟩
    have high := piece.facts.2.1
    rw [data, data', drop_zero, take_of_length_le (l := packet.2.drop span)]
    · exact (take_append_drop ..).symm
    rw [length_drop]
    simp only [mtu, span] at *
    omega
  cases assembled with
  | whole piece short =>
    obtain ⟨packet, inSent, _, total, data⟩ := origin last piece
    refine ⟨packet, inSent, ?_⟩
    rw [data, drop_zero, take_of_length_le (total.trans_le short)]
  | inOrder mem first second => exact whole (mem_append_left _ mem) last first second
  | reversed mem first second => exact whole last (mem_append_left _ mem) second first

end WendyLite.Carrier
