import WendyLite.Babel.Wire

/-! # Round trip of messages

The messages an engine queues are of few forms. Each is encoded as at most
three TLVs, and the decoder visits exactly one message for them, whatever the
TLVs before them left in its context.
-/

namespace WendyLite.Babel

open List

/-! ## Reading past written words -/

@[simp] lemma drop_put16 (count : Nat) (value : UInt16) (rest : List UInt8) :
    (put16 value ++ rest).drop (count + 2) = rest.drop count := by
  rw [drop_append]
  simp

@[simp] lemma drop_put64 (count : Nat) (value : UInt64) (rest : List UInt8) :
    (put64 value ++ rest).drop (count + 8) = rest.drop count := by
  rw [drop_append]
  simp

@[simp] lemma u16_put16 (value : UInt16) : u16 (put16 value) = value := by
  simpa using u16_put16_append value []

@[simp] lemma u64_put64 (value : UInt64) : u64 (put64 value) = value := by
  simpa using u64_put64_append value []

/-! ## Prefixes -/

lemma maskBytes_zero (bytes : List UInt8) :
    maskBytes 0 bytes = List.replicate bytes.length 0 := by
  induction bytes with
  | nil => rfl
  | cons byte rest ih => simp [maskBytes, ih, replicate_succ]

lemma maskBytes_take (bits : Nat) (bytes : List UInt8) :
    maskBytes bits (bytes.take ((bits + 7) / 8) ++
      List.replicate (bytes.length - (bits + 7) / 8) 0) = maskBytes bits bytes := by
  induction bytes generalizing bits with
  | nil => simp [maskBytes]
  | cons byte rest ih =>
    by_cases whole : bits ≥ 8
    · have size : (bits + 7) / 8 = (bits - 8 + 7) / 8 + 1 := by omega
      rw [size, take_succ_cons, cons_append, maskBytes, if_pos whole, maskBytes,
        if_pos whole, length_cons, Nat.add_sub_add_right, ih]
    by_cases none : bits = 0
    · subst none
      simp [maskBytes_zero]
    have size : (bits + 7) / 8 = 1 := by omega
    rw [size]
    simp [maskBytes, whole, maskBytes_zero]

lemma maskBytes_idem (bits : Nat) (bytes : List UInt8) :
    maskBytes bits (maskBytes bits bytes) = maskBytes bits bytes := by
  induction bytes generalizing bits with
  | nil => rfl
  | cons byte rest ih =>
    by_cases whole : bits ≥ 8
    · simp [maskBytes, whole, ih]
    simp only [maskBytes, if_neg whole, maskBytes_zero, length_replicate]
    rw [UInt8.and_assoc, UInt8.and_self]

namespace Prefix

lemma mask_mask (p : Prefix) : p.mask.mask = p.mask := by
  simp [mask, maskBytes_idem]

lemma valid_iff (p : Prefix) : p.valid = true ↔
      (p.family = 4 ∨ p.family = 6) ∧ p.bits ≤ (if p.family = 4 then 32 else 128) ∧ p.mask = p := by
  simp only [valid, Bool.and_eq_true, Bool.or_eq_true, beq_iff_eq, decide_eq_true_eq]
  constructor
  · rintro ⟨⟨family, bits⟩, bytes⟩
    refine ⟨family, bits, ?_⟩
    obtain ⟨value, count, kind⟩ := p
    simp only [mask] at bytes ⊢
    rw [← bytes]
  rintro ⟨family, bits, masked⟩
  exact ⟨⟨family, bits⟩, by rw [masked]⟩

variable {p : Prefix}

lemma mask_congr {q : Prefix} (bits : q.bits = p.bits) (family : q.family = p.family)
    (bytes : maskBytes p.bits.toNat q.bytes.val = maskBytes p.bits.toNat p.bytes.val) :
    q.mask = p.mask := by
  obtain ⟨value, count, kind⟩ := p
  obtain ⟨value', count', kind'⟩ := q
  simp only at bits family bytes
  subst bits family
  simp only [mask, bytes]

lemma valid_mask (family : p.family = 4 ∨ p.family = 6)
    (bits : p.bits ≤ (if p.family = 4 then 32 else 128)) : p.mask.valid = true :=
  (valid_iff _).mpr ⟨family, bits, mask_mask p⟩

lemma encodedSize_le (valid : p.valid = true) :
    p.encodedSize ≤ 16 ∧ (p.family = 4 → p.encodedSize ≤ 4) := by
  have bits := ((valid_iff p).mp valid).2.1
  rw [UInt8.le_iff_toNat_le] at bits
  simp only [encodedSize]
  by_cases ipv4 : p.family = 4
  · rw [if_pos ipv4] at bits
    have literal : (32 : UInt8).toNat = 32 := rfl
    omega
  rw [if_neg ipv4] at bits
  have literal : (128 : UInt8).toNat = 128 := rfl
  exact ⟨by omega, fun equal => absurd equal ipv4⟩

lemma encoded_sizes (valid : p.valid = true) :
    (p.bytes.val.take p.encodedSize).length = p.encodedSize ∧ p.encodedSize ≤ 16 := by
  have size := (encodedSize_le valid).1
  have whole := p.bytes.property
  rw [length_take]
  omega

end Prefix

/-- A written prefix is read back, in any of the encodings of its family. -/
lemma decodePrefix_encoded {p : Prefix} (valid : p.valid = true) {ae : UInt8}
    (encoding : (p.family = 4 ∧ (ae = 1 ∨ ae = 4)) ∨ (p.family = 6 ∧ ae = 2)) (previous : Prefix) :
    decodePrefix ae p.bits 0 (p.bytes.val.take p.encodedSize) previous =
      some (p, p.encodedSize) := by
  have facts := (Prefix.valid_iff p).mp valid
  obtain ⟨length, size⟩ := Prefix.encoded_sizes valid
  have family : familyOf ae = p.family := by
    rcases encoding with ⟨family, rfl | rfl⟩ | ⟨family, rfl⟩ <;> rw [family] <;> decide
  have bits : ¬(ae < 1 ∨ ae > 4 ∨ p.bits > maximumBits ae) := by
    have bound := facts.2.1
    rcases encoding with ⟨isIpv4, rfl | rfl⟩ | ⟨isIpv6, rfl⟩ <;> simp_all [maximumBits]
  have normal : ae ≠ 3 := by
    rcases encoding with ⟨_, rfl | rfl⟩ | ⟨_, rfl⟩ <;> decide
  have overlaid : ((Octets.zero 16).overlay 0 (p.bytes.val.take p.encodedSize)).val =
      p.bytes.val.take p.encodedSize ++ replicate (16 - p.encodedSize) 0 := by
    simp only [Octets.overlay, Octets.zero, take_zero, nil_append, Nat.zero_add,
      length, drop_replicate]
    apply Octets.ofList_of_length
    rw [length_append, length, length_replicate]
    omega
  have masked : ({ bytes := (Octets.zero 16).overlay 0 (p.bytes.val.take p.encodedSize)
                   bits := p.bits, family := p.family } : Prefix).mask = p := by
    have equation := maskBytes_take p.bits.toNat p.bytes.val
    rw [p.bytes.property] at equation
    refine Eq.trans (b := p.mask) ?_ facts.2.2
    apply Prefix.mask_congr
    · rfl
    · rfl
    rw [overlaid]
    exact equation
  have start : (0 : Nat) + UInt8.toNat 0 = 0 := rfl
  have enough : ¬(p.encodedSize < 0 ∨
      p.encodedSize - 0 > (p.bytes.val.take p.encodedSize).length ∨
      ((0 : UInt8) ≠ 0 ∧ previous.family = 0)) := by
    rw [length]
    simp
  have written : (p.bits.toNat + 7) / 8 = p.encodedSize := rfl
  rw [decodePrefix, if_neg bits]
  simp only [normal, false_and, if_false, start, written]
  rw [if_neg enough]
  simp only [prefixBase, normal, if_false, ne_eq, not_true, Nat.sub_zero, take_take,
    Nat.min_self, family]
  exact congrArg (fun out => some (out, p.encodedSize)) masked

/-! ## Framing -/

variable (entry : UInt8 × List UInt8)

def tlv : List UInt8 :=
  entry.1 :: UInt8.ofNat entry.2.length :: entry.2

def Framed : Prop := entry.1 ≠ 0 ∧ entry.2.length ≤ 255

lemma splitTlvs_fuel (bytes : List UInt8) (fuel fuel' : Nat) (enough : bytes.length ≤ fuel)
    (enough' : bytes.length ≤ fuel') : splitTlvs fuel bytes = splitTlvs fuel' bytes := by
  induction fuel generalizing bytes fuel' with
  | zero =>
    rw [length_eq_zero_iff.mp (Nat.le_zero.mp enough), splitTlvs, splitTlvs]
  | succ fuel ih =>
    cases bytes with
    | nil => rw [splitTlvs, splitTlvs]
    | cons type rest =>
      cases fuel' with
      | zero => simp at enough'
      | succ fuel' =>
        simp only [length_cons, Nat.add_le_add_iff_right] at enough enough'
        have skipped := ih rest fuel' enough enough'
        cases rest with
        | nil => simp only [splitTlvs]
        | cons length body =>
          have shorter := length_drop (i := length.toNat) (l := body)
          simp only [length_cons] at enough enough'
          have taken := ih (body.drop length.toNat) fuel' (by omega) (by omega)
          rw [splitTlvs, splitTlvs, skipped, taken]

lemma splitTlvs_tlv {entry : UInt8 × List UInt8} (framed : Framed entry) (rest : List UInt8) :
    splitTlvs (tlv entry ++ rest).length (tlv entry ++ rest) =
      (splitTlvs rest.length rest).map (entry :: ·) := by
  obtain ⟨type, payload⟩ := entry
  have length : (UInt8.ofNat payload.length).toNat = payload.length := by
    have short : payload.length ≤ 255 := framed.2
    simp only [UInt8.toNat_ofNat']
    omega
  have nonzero : type ≠ 0 := framed.1
  simp only [tlv, cons_append, length_cons]
  rw [splitTlvs, if_neg nonzero]
  simp only [length, length_append, take_left', drop_left']
  rw [if_neg (by omega), splitTlvs_fuel rest _ rest.length (by omega) (le_refl _)]

/-- The first walk of the decoder recovers the TLVs that were written. -/
lemma splitTlvs_flatMap {entries : List (UInt8 × List UInt8)}
    (framed : ∀ entry ∈ entries, Framed entry) :
    splitTlvs (entries.flatMap tlv).length (entries.flatMap tlv) = some entries := by
  induction entries with
  | nil => rfl
  | cons entry rest ih =>
    rw [flatMap_cons, splitTlvs_tlv (framed entry (.head _)),
      ih fun entry mem => framed entry (.tail _ mem)]
    rfl

variable {payload : List UInt8}

variable {type : UInt8}

lemma decodeTlvs_cons {context context' : DecodeContext}
    {visited : List Message} (decoded : decodeTlv context type payload = (context', visited))
    (rest : List (UInt8 × List UInt8)) :
    decodeTlvs context ((type, payload) :: rest) = visited ++ decodeTlvs context' rest := by
  rw [decodeTlvs, decoded]

/-! ## The messages an engine sends -/

def RouterOk (router : UInt64) : Prop := router ≠ 0 ∧ router ≠ 0xffffffffffffffff

instance (router : UInt64) : Decidable (RouterOk router) :=
  inferInstanceAs (Decidable (_ ∧ _))

/-- How an Update states its next hop: not at all, by the IPv4-via-IPv6
encoding, or by an IPv4 address. -/
def NextHopOk (m : Message) : Prop :=
  (m.pfx.family = 6 ∧ m.via6 = false ∧ m.addressFamily = 0) ∨
    (m.pfx.family = 4 ∧ m.via6 = true ∧ m.addressFamily = 0) ∨
    (m.pfx.family = 4 ∧ m.via6 = false ∧ m.addressFamily = 4 ∧
      ∃ ipv4 : Octets 4, m.address = Octets.ofList 16 ipv4.val)

/-- The forms of the messages an engine queues. -/
inductive Sendable : Message → Prop
  | hello (seqno interval : UInt16) :
      Sendable { type := .hello, seqno := seqno, interval := interval }
  | ihu (metric interval : UInt16) (lasting : interval ≠ 0) :
      Sendable { type := .ihu, metric := metric, interval := interval }
  | ack (value : UInt16) : Sendable { type := .ack, opaqueValue := value }
  | requestAll : Sendable { type := .request, wildcard := true }
  | request (p : Prefix) (valid : p.valid = true) : Sendable { type := .request, pfx := p }
  | seqRequest (p : Prefix) (router : UInt64) (seqno : UInt16) (hops : UInt8)
      (valid : p.valid = true) (routerOk : RouterOk router) (alive : hops ≠ 0) :
      Sendable
        { type := .seqRequest, pfx := p, router := router, seqno := seqno, hops := hops }
  | retraction (p : Prefix) (interval : UInt16) (valid : p.valid = true)
      (lasting : interval ≠ 0) :
      Sendable { type := .update, pfx := p, metric := infinity, interval := interval }
  | update (m : Message) (type : m.type = .update) (valid : m.pfx.valid = true)
      (routerOk : RouterOk m.router) (finite : m.metric ≠ infinity)
      (lasting : m.interval ≠ 0) (single : m.wildcard = false) (noHops : m.hops = 0)
      (nextHop : NextHopOk m) : Sendable m

def Message.announces (m : Message) : Prop := m.type = .update ∧ m.metric ≠ infinity

/-- The neighbour at the address `source` receives what was sent. -/
structure Delivered (source : Octets 16) (sent received : Message) : Prop where
  type : received.type = sent.type
  pfx : received.pfx = sent.pfx
  wildcard : received.wildcard = sent.wildcard
  via6 : received.via6 = sent.via6
  seqno : received.seqno = sent.seqno
  metric : received.metric = sent.metric
  interval : received.interval = sent.interval
  hops : received.hops = sent.hops
  ack : sent.type = .ack → received.opaqueValue = sent.opaqueValue
  router : sent.announces ∨ sent.type = .seqRequest → received.router = sent.router
  nextHop : sent.announces →
    if sent.addressFamily = 4 then
      received.address = sent.address ∧ received.addressFamily = 4
    else received.address = source ∧ received.addressFamily = 6

/-- The decoder still has the packet's source as its IPv6 next hop. -/
def HopsFrom (source : Octets 16) (context : DecodeContext) : Prop :=
  context.ipv6Hop = source ∧ context.ipv6HopFamily = 6

/-- These TLVs carry the message, in any context an engine's messages leave. -/
structure Carries (m : Message) (entries : List (UInt8 × List UInt8)) : Prop where
  encoded : wbEncode m 64 = some (entries.flatMap tlv)
  framed : ∀ entry ∈ entries, Framed entry
  visited : ∀ source context, HopsFrom source context →
    ∃ context' received, HopsFrom source context' ∧ Delivered source m received ∧
      ∀ rest, decodeTlvs context (entries ++ rest) = received :: decodeTlvs context' rest

variable {m : Message}

lemma Carries.of_tlv (encoded : wbEncode m 64 = some (tlv (type, payload)))
    (framed : Framed (type, payload)) (decoded : ∀ source context, HopsFrom source context →
      ∃ received, Delivered source m received ∧
        decodeTlv context type payload = (context, [received])) : Carries m [(type, payload)] where
  encoded := by simpa using encoded
  framed := by simpa using framed
  visited source context hops := by
    obtain ⟨received, delivered, equation⟩ := decoded source context hops
    exact ⟨context, received, hops, delivered, fun rest => decodeTlvs_cons equation rest⟩

lemma decodeTlv_of_body {context context' : DecodeContext}
    (decoded : decodeBody context type payload = (context', some (m, payload.length)))
    (visible : m.type ≠ .router ∧ m.type ≠ .nextHop) :
    decodeTlv context type payload = (context', [m]) := by
  simp [decodeTlv, decoded, visible.1, visible.2, subs]

section Forms

-- One lemma for each form: what is written, and what the decoder makes of it.

private lemma carries_hello (seqno interval : UInt16) :
    Carries { type := .hello, seqno := seqno, interval := interval }
      [(4, [0, 0] ++ put16 seqno ++ put16 interval)] := by
  apply Carries.of_tlv
  · simp [wbEncode, encodeBody, encodeHello, tlv, MessageType.code]
  · simp [Framed]
  intro source context _
  refine ⟨{ type := .hello, seqno := seqno, opaqueValue := seqno, interval := interval },
    ?_, decodeTlv_of_body ?_ (by simp)⟩
  · constructor <;> simp [Message.announces]
  simp [decodeBody]

private lemma carries_ihu (metric interval : UInt16) (lasting : interval ≠ 0) :
    Carries { type := .ihu, metric := metric, interval := interval }
      [(5, [0, 0] ++ put16 metric ++ put16 interval)] := by
  apply Carries.of_tlv
  · simp [wbEncode, encodeBody, encodeIhu, tlv, MessageType.code]
  · simp [Framed]
  intro source context _
  refine ⟨{ type := .ihu, metric := metric, interval := interval }, ?_,
    decodeTlv_of_body ?_ (by simp)⟩
  · constructor <;> simp [Message.announces]
  simp [decodeBody, decodeAddress, lasting, default]

private lemma carries_ack (value : UInt16) :
    Carries { type := .ack, opaqueValue := value } [(3, put16 value)] := by
  apply Carries.of_tlv
  · simp [wbEncode, encodeBody, tlv, MessageType.code]
  · simp [Framed]
  intro source context _
  refine ⟨{ type := .ack, opaqueValue := value }, ?_, decodeTlv_of_body ?_ (by simp)⟩
  · constructor <;> simp [Message.announces]
  simp [decodeBody]

private lemma carries_requestAll :
    Carries { type := .request, wildcard := true } [(9, [0, 0])] := by
  apply Carries.of_tlv
  · simp [wbEncode, encodeBody, encodeRequest, tlv, MessageType.code]
  · simp [Framed]
  intro source context _
  refine ⟨{ type := .request, wildcard := true }, ?_, decodeTlv_of_body ?_ (by simp)⟩
  · constructor <;> simp [Message.announces]
  simp [decodeBody, decodeRequest]

private def plainEncoding (p : Prefix) : UInt8 := if p.family = 4 then 1 else 2

private lemma plainEncoding_ne_zero (p : Prefix) : plainEncoding p ≠ 0 := by
  rw [plainEncoding]
  split <;> decide

private lemma plainEncoding_matches {p : Prefix} (valid : p.valid = true) :
    (p.family = 4 ∧ (plainEncoding p = 1 ∨ plainEncoding p = 4)) ∨
      (p.family = 6 ∧ plainEncoding p = 2) := by
  rcases ((Prefix.valid_iff p).mp valid).1 with family | family <;>
    simp [plainEncoding, family]

private lemma carries_request (p : Prefix) (valid : p.valid = true) :
    Carries { type := .request, pfx := p }
      [(9, [plainEncoding p, p.bits] ++ p.bytes.val.take p.encodedSize)] := by
  obtain ⟨length, size⟩ := Prefix.encoded_sizes valid
  apply Carries.of_tlv
  · simp [wbEncode, encodeBody, encodeRequest, tlv, MessageType.code, valid, length,
      plainEncoding]
    exact ⟨by omega, by grind⟩
  · simp [Framed, length]
    omega
  intro source context _
  refine ⟨{ type := .request, pfx := p }, ?_, decodeTlv_of_body ?_ (by simp)⟩
  · constructor <;> simp [Message.announces]
  have read := decodePrefix_encoded valid (plainEncoding_matches valid) {}
  simp [decodeBody, decodeRequest, read, plainEncoding_ne_zero, length]
  omega

private lemma carries_seqRequest (p : Prefix) (router : UInt64) (seqno : UInt16)
    (hops : UInt8) (valid : p.valid = true) (routerOk : RouterOk router) (alive : hops ≠ 0) :
    Carries { type := .seqRequest, pfx := p, router := router, seqno := seqno, hops := hops }
      [(10, [plainEncoding p, p.bits] ++ put16 seqno ++ [hops, 0] ++ put64 router ++
        p.bytes.val.take p.encodedSize)] := by
  obtain ⟨length, size⟩ := Prefix.encoded_sizes valid
  apply Carries.of_tlv
  · simp [wbEncode, encodeBody, encodeRequest, tlv, MessageType.code, valid, length,
      plainEncoding]
    exact ⟨by omega, by grind⟩
  · simp [Framed, length]
    omega
  intro source context _
  refine ⟨{ type := .seqRequest, pfx := p, router := router, seqno := seqno, hops := hops },
    ?_, decodeTlv_of_body ?_ (by simp)⟩
  · constructor <;> simp [Message.announces]
  have read := decodePrefix_encoded valid (plainEncoding_matches valid) {}
  simp [decodeBody, decodeRequest, read, plainEncoding_ne_zero, length, alive,
    routerOk.1, routerOk.2]
  omega

private def updatePayload (ae : UInt8) (m : Message) : List UInt8 :=
  [ae, 0, m.pfx.bits, 0] ++ put16 m.interval ++ put16 m.seqno ++ put16 m.metric ++
    m.pfx.bytes.val.take m.pfx.encodedSize

/-- The Update visited for that payload: its router and its next hop come from
the context. -/
private def receivedUpdate (context : DecodeContext) (ae : UInt8) (m : Message) : Message :=
  { type := .update, pfx := m.pfx, interval := m.interval, seqno := m.seqno
    metric := m.metric, via6 := ae == 4, router := context.router
    address := contextHop context ae, addressFamily := contextHopFamily context ae }

private lemma decodeTlv_update {m : Message} (valid : m.pfx.valid = true)
    (lasting : m.interval ≠ 0) {ae : UInt8}
    (encoding : (m.pfx.family = 4 ∧ (ae = 1 ∨ ae = 4)) ∨ (m.pfx.family = 6 ∧ ae = 2))
    (context : DecodeContext) (usable : m.metric = infinity ∨
      (RouterOk context.router ∧ contextHopFamily context ae ≠ 0)) :
    decodeTlv context 8 (updatePayload ae m) = (context, [receivedUpdate context ae m]) := by
  have length := (Prefix.encoded_sizes valid).1
  have read := decodePrefix_encoded valid encoding (context.previous.getD ae.toNat {})
  have nonzero : ae ≠ 0 := by
    rcases encoding with ⟨_, rfl | rfl⟩ | ⟨_, rfl⟩ <;> decide
  have accepted : ¬(m.metric ≠ infinity ∧
      (context.router = 0 ∨ context.router = 0xffffffffffffffff ∨
        contextHopFamily context ae = 0)) := by
    obtain infinite | ⟨router, family⟩ := usable
    · simp [infinite]
    simp [router.1, router.2, family]
  rw [getD_eq_getElem?_getD] at read
  apply decodeTlv_of_body
  · have total : 2 + (2 + (2 + m.pfx.encodedSize)) + 1 + 1 + 1 + 1 = 10 + m.pfx.encodedSize := by
      omega
    simp [decodeBody, decodeUpdate, updateContext, updatePayload, receivedUpdate, nonzero,
      lasting, length, read, accepted, total]
  simp [receivedUpdate]

private lemma carries_retraction (p : Prefix) (interval : UInt16) (valid : p.valid = true)
    (lasting : interval ≠ 0) :
    Carries { type := .update, pfx := p, metric := infinity, interval := interval }
      [(8, updatePayload (plainEncoding p)
        { type := .update, pfx := p, metric := infinity, interval := interval })] := by
  obtain ⟨length, size⟩ := Prefix.encoded_sizes valid
  apply Carries.of_tlv
  · simp [wbEncode, encodeBody, encodeUpdate, encodeUpdateContext, updatePayload, tlv,
      MessageType.code, valid, length, plainEncoding]
    exact ⟨by omega, by grind⟩
  · simp [Framed, updatePayload, length]
    omega
  intro source context _
  refine ⟨_, ?_, decodeTlv_update valid lasting (plainEncoding_matches valid) context
    (.inl rfl)⟩
  have notVia6 : (plainEncoding p == 4) = false := by
    rw [plainEncoding]
    split <;> decide
  constructor <;> simp [Message.announces, receivedUpdate, notVia6]

private lemma decodeTlv_router (context : DecodeContext) (router : UInt64) :
    decodeTlv context 6 ([0, 0] ++ put64 router) = ({ context with router := router }, []) := by
  simp [decodeTlv, decodeBody]

private lemma decodeTlv_nextHop (context : DecodeContext) (ipv4 : Octets 4) :
    decodeTlv context 7 ([1, 0] ++ ipv4.val) =
      ({ context with ipv4Hop := Octets.ofList 16 ipv4.val, ipv4HopFamily := 4 }, []) := by
  have length := ipv4.property
  have whole : ipv4.val.take 4 = ipv4.val := take_of_length_le (by omega)
  have rest : ipv4.val.drop 4 = [] := drop_of_length_le (by omega)
  simp [decodeTlv, decodeBody, decodeAddress, length, whole, rest, subs]

private lemma take_ofList (ipv4 : Octets 4) :
    (Octets.ofList 16 ipv4.val).val.take 4 = ipv4.val := by
  rw [Octets.ofList, take_take]
  simp [ipv4.property]

private lemma carries_update_ipv4 {m : Message} (type : m.type = .update)
    (valid : m.pfx.valid = true) (routerOk : RouterOk m.router) (finite : m.metric ≠ infinity)
    (lasting : m.interval ≠ 0) (single : m.wildcard = false) (noHops : m.hops = 0)
    (family : m.pfx.family = 4) (direct : m.via6 = false) (addressFamily : m.addressFamily = 4)
    (ipv4 : Octets 4) (address : m.address = Octets.ofList 16 ipv4.val) :
    Carries m [(6, [0, 0] ++ put64 m.router), (7, [1, 0] ++ ipv4.val), (8, updatePayload 1 m)] where
  encoded := by
    obtain ⟨length, size⟩ := Prefix.encoded_sizes valid
    have octets := ipv4.property
    simp [wbEncode, encodeBody, encodeUpdate, encodeUpdateContext, encodeAddress,
      updatePayload, tlv, MessageType.code, type, valid, finite, single, family, direct,
      addressFamily, address, take_ofList, length, octets]
    exact ⟨by omega, by grind⟩
  framed := by
    obtain ⟨length, size⟩ := Prefix.encoded_sizes valid
    simp [Framed, updatePayload, length, ipv4.property]
    omega
  visited source context hops := by
    let context' : DecodeContext :=
      { context with
        router := m.router, ipv4Hop := Octets.ofList 16 ipv4.val, ipv4HopFamily := 4 }
    refine ⟨context', receivedUpdate context' 1 m, hops, ?_, ?_⟩
    · constructor <;>
        simp [receivedUpdate, contextHop, contextHopFamily, type, single, direct, noHops,
          addressFamily, address, context']
    intro rest
    have last := decodeTlv_update valid lasting (.inl ⟨family, .inl rfl⟩) context'
      (.inr ⟨routerOk, by simp [contextHopFamily, context']⟩)
    exact (decodeTlvs_cons (decodeTlv_router context m.router) _).trans
      ((decodeTlvs_cons (decodeTlv_nextHop _ ipv4) _).trans (decodeTlvs_cons last rest))

private lemma carries_update_source {m : Message} (type : m.type = .update)
    (valid : m.pfx.valid = true) (routerOk : RouterOk m.router) (finite : m.metric ≠ infinity)
    (lasting : m.interval ≠ 0) (single : m.wildcard = false) (noHops : m.hops = 0)
    (addressFamily : m.addressFamily = 0) {ae : UInt8}
    (encoding : (m.pfx.family = 4 ∧ m.via6 = true ∧ ae = 4) ∨
      (m.pfx.family = 6 ∧ m.via6 = false ∧ ae = 2)) :
    Carries m [(6, [0, 0] ++ put64 m.router), (8, updatePayload ae m)] where
  encoded := by
    obtain ⟨length, size⟩ := Prefix.encoded_sizes valid
    have form : (if m.pfx.family = 4 then (if m.via6 = true then (4 : UInt8) else 1) else 2) =
        ae := by
      rcases encoding with ⟨family, via6, rfl⟩ | ⟨family, via6, rfl⟩ <;> simp [family, via6]
    simp [wbEncode, encodeBody, encodeUpdate, encodeUpdateContext, updatePayload, tlv,
      MessageType.code, type, valid, finite, single, addressFamily, length, form]
    exact ⟨by omega, by grind⟩
  framed := by
    obtain ⟨length, size⟩ := Prefix.encoded_sizes valid
    simp [Framed, updatePayload, length]
    omega
  visited source context hops := by
    let context' : DecodeContext := { context with router := m.router }
    have matching : (m.pfx.family = 4 ∧ (ae = 1 ∨ ae = 4)) ∨ (m.pfx.family = 6 ∧ ae = 2) := by
      tauto
    have form : ae ≠ 1 ∧ (ae == 4) = m.via6 := by
      rcases encoding with ⟨family, via6, rfl⟩ | ⟨family, via6, rfl⟩ <;> simp [via6]
    refine ⟨context', receivedUpdate context' ae m, hops, ?_, ?_⟩
    · constructor <;>
        simp [receivedUpdate, contextHop, contextHopFamily, type, single, noHops,
          addressFamily, form.1, form.2, context', hops.1, hops.2]
    intro rest
    have last := decodeTlv_update valid lasting matching context'
      (.inr ⟨routerOk, by simp [contextHopFamily, form.1, context', hops.2]⟩)
    exact (decodeTlvs_cons (decodeTlv_router context m.router) _).trans
      (decodeTlvs_cons last rest)

end Forms

/-- Every message an engine queues is carried by some TLVs. -/
lemma Sendable.carries (sendable : Sendable m) : ∃ entries, Carries m entries := by
  cases sendable with
  | hello seqno interval => exact ⟨_, carries_hello seqno interval⟩
  | ihu metric interval lasting => exact ⟨_, carries_ihu metric interval lasting⟩
  | ack value => exact ⟨_, carries_ack value⟩
  | requestAll => exact ⟨_, carries_requestAll⟩
  | request p valid => exact ⟨_, carries_request p valid⟩
  | seqRequest p router seqno hops valid routerOk alive =>
    exact ⟨_, carries_seqRequest p router seqno hops valid routerOk alive⟩
  | retraction p interval valid lasting => exact ⟨_, carries_retraction p interval valid lasting⟩
  | update _ type valid routerOk finite lasting single noHops nextHop =>
    rcases nextHop with ⟨family, via6, none⟩ | ⟨family, via6, none⟩ |
      ⟨family, direct, ipv4, address, value⟩
    · exact ⟨_, carries_update_source type valid routerOk finite lasting single noHops none
        (.inr ⟨family, via6, rfl⟩)⟩
    · exact ⟨_, carries_update_source type valid routerOk finite lasting single noHops none
        (.inl ⟨family, via6, rfl⟩)⟩
    exact ⟨_, carries_update_ipv4 type valid routerOk finite lasting single noHops family
      direct ipv4 address value⟩

/-! ## Packets -/

def encoded (m : Message) : List UInt8 := (wbEncode m 64).getD []

lemma Sendable.wbEncode_eq (sendable : Sendable m) : wbEncode m 64 = some (encoded m) := by
  obtain ⟨entries, carries⟩ := sendable.carries
  rw [encoded, carries.encoded, Option.getD_some]

lemma Sendable.length_encoded (sendable : Sendable m) : (encoded m).length ≤ 64 := by
  have equation := sendable.wbEncode_eq
  rw [wbEncode] at equation
  split at equation
  · cases equation
  split at equation
  · cases equation
  split at equation
  · cases equation
  cases equation
  omega

private lemma carries_all {messages : List Message} (sendable : ∀ m ∈ messages, Sendable m) :
    ∃ entries : List (UInt8 × List UInt8), (∀ entry ∈ entries, Framed entry) ∧
      messages.flatMap encoded = entries.flatMap tlv ∧ ∀ source context, HopsFrom source context →
        List.Forall₂ (Delivered source) messages (decodeTlvs context entries) := by
  induction messages with
  | nil => exact ⟨[], by simp, rfl, fun _ _ _ => List.Forall₂.nil⟩
  | cons m rest ih =>
    rcases ih fun other mem => sendable other (.tail _ mem) with
      ⟨entries, framed, bytes, visited⟩
    have first := sendable m (.head _)
    obtain ⟨own, carries⟩ := first.carries
    refine ⟨own ++ entries, ?_, ?_, ?_⟩
    · intro entry mem
      obtain inOwn | inRest := mem_append.mp mem
      · exact carries.framed entry inOwn
      exact framed entry inRest
    · rw [flatMap_cons, flatMap_append, bytes, encoded, carries.encoded, Option.getD_some]
    intro source context hops
    rcases carries.visited source context hops with
      ⟨context', received, hops', delivered, equation⟩
    rw [equation entries]
    exact List.Forall₂.cons delivered (visited source context' hops')

def packetOf (body : List UInt8) : List UInt8 :=
  [42, 2] ++ put16 (UInt16.ofNat body.length) ++ body

private lemma wbDecode_of_split {body : List UInt8} {entries : List (UInt8 × List UInt8)}
    (short : body.length < 65536) (walk : splitTlvs body.length body = some entries)
    (source : Octets 16) :
    wbDecode (packetOf body) source = some (decodeTlvs { ipv6Hop := source } entries) := by
  have size : body.length % 65536 = body.length := Nat.mod_eq_of_lt short
  simp [wbDecode, packetOf, size, walk]

/-- Decoding a packet of messages visits exactly these messages, in order. -/
lemma wbDecode_packetOf {messages : List Message} (sendable : ∀ m ∈ messages, Sendable m)
    (short : (messages.flatMap encoded).length < 65536) (source : Octets 16) :
    ∃ received, wbDecode (packetOf (messages.flatMap encoded)) source = some received ∧
      List.Forall₂ (Delivered source) messages received := by
  obtain ⟨entries, framed, bytes, visited⟩ := carries_all sendable
  have walk := splitTlvs_flatMap framed
  rw [← bytes] at walk
  exact ⟨_, wbDecode_of_split short walk source, visited source _ ⟨rfl, rfl⟩⟩

end WendyLite.Babel
