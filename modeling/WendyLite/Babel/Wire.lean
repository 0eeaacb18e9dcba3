import WendyLite.Babel.Prefix

/-! # The Babel packet codec

`wb_decode` and `wb_encode` of `wire.c`. The C decoder walks the outer TLVs
twice, first to check their lengths and then to interpret them; here the first
walk returns the list of TLVs that the second one folds over. Calls of the
visitor become the list of visited messages.
-/

namespace WendyLite.Babel

variable (bytes : List UInt8)

def u16 : UInt16 := UInt16.ofNat (beNat (bytes.take 2))

def u64 : UInt64 := UInt64.ofNat (beNat (bytes.take 8))

variable (value : UInt16)

def put16 : List UInt8 := beBytes 2 value.toNat

def put64 (value : UInt64) : List UInt8 := beBytes 8 value.toNat

@[simp] lemma length_put16 : (put16 value).length = 2 := by
  simp [put16]

@[simp] lemma length_put64 (value : UInt64) : (put64 value).length = 8 := by
  simp [put64]

@[simp] lemma u16_put16_append (rest : List UInt8) : u16 (put16 value ++ rest) = value := by
  have bound : value.toNat < 256 ^ 2 := value.toNat_lt
  simp only [u16, put16]
  rw [List.take_append_of_le_length (by simp), List.take_of_length_le (by simp),
    beNat_beBytes_of_lt bound, UInt16.ofNat_toNat]

@[simp] lemma u64_put64_append (value : UInt64) (rest : List UInt8) :
    u64 (put64 value ++ rest) = value := by
  have bound : value.toNat < 256 ^ 8 := value.toNat_lt
  simp only [u64, put64]
  rw [List.take_append_of_le_length (by simp), List.take_of_length_le (by simp),
    beNat_beBytes_of_lt bound, UInt64.ofNat_toNat]

/-! ## Decoding -/

/-- `subs`: the sub-TLVs are well framed and none of them is mandatory. The
first argument bounds the number of sub-TLVs. -/
def subs : Nat → List UInt8 → Bool
  | _, [] => true
  | 0, _ :: _ => false
  | fuel + 1, type :: rest =>
    if type = 0 then subs fuel rest
    else
      match rest with
      | [] => false
      | length :: body =>
        if length.toNat > body.length || type &&& 128 != 0 then false
        else subs fuel (body.drop length.toNat)

variable (ae : UInt8)

def decodeAddress (ae : UInt8) (bytes : List UInt8) : Option (Octets 16 × UInt8 × Nat) :=
  if ae = 0 then some (Octets.zero 16, 0, 0)
  else if ae = 1 ∧ bytes.length ≥ 4 then some (Octets.ofList 16 (bytes.take 4), 4, 4)
  else if ae = 2 ∧ bytes.length ≥ 16 then some (Octets.ofList 16 (bytes.take 16), 6, 16)
  else if ae = 3 ∧ bytes.length ≥ 8 then
    some (Octets.ofList 16 ([0xfe, 0x80, 0, 0, 0, 0, 0, 0] ++ bytes.take 8), 6, 8)
  else none

def familyOf : UInt8 := if ae = 1 ∨ ae = 4 then 4 else 6

def maximumBits : UInt8 := if ae = 1 ∨ ae = 4 then 32 else 128

def prefixBase (ae omitted : UInt8) (previous : Prefix) : Octets 16 :=
  let cleared := if omitted ≠ 0 then previous.bytes else Octets.zero 16
  if ae = 3 then cleared.overlay 0 [0xfe, 0x80] else cleared

/-- `prefix`: a prefix of encoding `ae` whose first `omitted` bytes come from
`previous`, and its encoded size. -/
def decodePrefix (ae bits omitted : UInt8) (bytes : List UInt8) (previous : Prefix) :
    Option (Prefix × Nat) :=
  if ae < 1 ∨ ae > 4 ∨ bits > maximumBits ae then none
  else
    let start := (if ae = 3 then 8 else 0) + omitted.toNat
    let size := (bits.toNat + 7) / 8
    if ae = 3 ∧ (omitted ≠ 0 ∨ bits < 64) then none
    else if size < start ∨ size - start > bytes.length ∨
        (omitted ≠ 0 ∧ previous.family = 0) then none
    else
      let out : Prefix :=
        { bytes := (prefixBase ae omitted previous).overlay start (bytes.take (size - start))
          bits := bits
          family := familyOf ae }
      some (out.mask, size - start)

/-- The packet-local state of the second walk: `previous`, `hops`,
`hop_family` and `router`. Index 0 of the hop arrays is IPv4, index 1 IPv6. -/
structure DecodeContext where
  previous : List Prefix := List.replicate 5 {}
  ipv4Hop : Octets 16 := default
  ipv4HopFamily : UInt8 := 0
  ipv6Hop : Octets 16
  ipv6HopFamily : UInt8 := 6
  router : UInt64 := 0

variable (context : DecodeContext)

def updateContext (ae flags : UInt8) (p : Prefix) : DecodeContext :=
  let context :=
    if flags &&& 128 ≠ 0 ∧ ae ≠ 3 then
      { context with previous := context.previous.set ae.toNat p }
    else context
  if flags &&& 64 ≠ 0 then
    { context with
      router :=
        if p.family = 4 then UInt64.ofNat (beNat (p.bytes.val.take 4))
        else u64 (p.bytes.val.drop 8) }
  else context

def contextHop (context : DecodeContext) (ae : UInt8) : Octets 16 :=
  if ae = 1 then context.ipv4Hop else context.ipv6Hop

def contextHopFamily (context : DecodeContext) (ae : UInt8) : UInt8 :=
  if ae = 1 then context.ipv4HopFamily else context.ipv6HopFamily

/-- The body of an Update. The context keeps what the TLV sets even when the
Update itself is skipped. -/
def decodeUpdate (payload : List UInt8) :
    DecodeContext × Option (Message × Nat) :=
  let byte := fun index => payload.getD index 0
  if payload.length < 10 then (context, none)
  else
    let ae := byte 0
    let m : Message :=
      { type := .update, interval := u16 (payload.drop 4), seqno := u16 (payload.drop 6)
        metric := u16 (payload.drop 8), via6 := ae == 4 }
    if ae = 0 then
      if byte 2 ≠ 0 ∨ byte 3 ≠ 0 ∨ m.metric ≠ infinity ∨ m.interval = 0 then (context, none)
      else (context, some ({ m with wildcard := true }, 10))
    else
      match decodePrefix ae (byte 2) (byte 3) (payload.drop 10)
          (context.previous.getD ae.toNat {}) with
      | none => (context, none)
      | some (p, size) =>
        let context := updateContext context ae (byte 1) p
        let family := contextHopFamily context ae
        if m.metric ≠ infinity ∧
            (context.router = 0 ∨ context.router = 0xffffffffffffffff ∨ family = 0) then
          (context, none)
        else if m.interval = 0 then (context, none)
        else
          (context,
            some
              ({ m with
                  pfx := p, router := context.router, address := contextHop context ae
                  addressFamily := family },
                10 + size))

def decodeRequest (type : MessageType) (payload : List UInt8) : Option (Message × Nat) :=
  let byte := fun index => payload.getD index 0
  let base := if type = .request then 2 else 14
  if payload.length < base then none
  else
    let body : Option (Message × Nat) :=
      if byte 0 = 0 then
        if type ≠ .request ∨ byte 1 ≠ 0 then none
        else some ({ type := type, wildcard := true }, base)
      else
        match decodePrefix (byte 0) (byte 1) 0 (payload.drop base) {} with
        | none => none
        | some (pfx, size) => some ({ type := type, pfx := pfx }, base + size)
    match body with
    | none => none
    | some (m, used) =>
      if type = .seqRequest then
        let m :=
          { m with
            seqno := u16 (payload.drop 2), hops := byte 4, router := u64 (payload.drop 6) }
        if m.hops = 0 ∨ m.router = 0 ∨ m.router = 0xffffffffffffffff then none
        else some (m, used)
      else some (m, used)

/-- One TLV of the second walk up to its sub-TLVs: the context it leaves, and
the message with the number of bytes it used unless the TLV is skipped. -/
def decodeBody (type : UInt8) (payload : List UInt8) :
    DecodeContext × Option (Message × Nat) :=
  let byte := fun index => payload.getD index 0
  if type = 4 ∨ type = 2 then
    if payload.length < 6 then (context, none)
    else
      let m : Message :=
        { type := if type = 4 then .hello else .ackRequest
          seqno := u16 (payload.drop 2), opaqueValue := u16 (payload.drop 2)
          interval := u16 (payload.drop 4), unicast := byte 0 &&& 128 != 0 }
      if type = 2 ∧ m.interval = 0 then (context, none) else (context, some (m, 6))
  else if type = 3 then
    if payload.length < 2 then (context, none)
    else (context, some ({ type := .ack, opaqueValue := u16 payload }, 2))
  else if type = 5 then
    if payload.length < 6 then (context, none)
    else
      match decodeAddress (byte 0) (payload.drop 6) with
      | none => (context, none)
      | some (address, family, size) =>
        let m : Message :=
          { type := .ihu, address := address, addressFamily := family
            metric := u16 (payload.drop 2), interval := u16 (payload.drop 4) }
        if m.interval = 0 then (context, none) else (context, some (m, 6 + size))
  else if type = 7 then
    if payload.length < 2 then (context, none)
    else
      match decodeAddress (byte 0) (payload.drop 2) with
      | none => (context, none)
      | some (address, family, size) =>
        if byte 0 = 0 then (context, none)
        else
          let context :=
            if family = 4 then { context with ipv4Hop := address, ipv4HopFamily := family }
            else { context with ipv6Hop := address, ipv6HopFamily := family }
          (context,
            some ({ type := .nextHop, address := address, addressFamily := family }, 2 + size))
  else if type = 6 then
    if payload.length < 10 then (context, none)
    else
      let router := u64 (payload.drop 2)
      ({ context with router := router }, some ({ type := .router, router := router }, 10))
  else if type = 8 then decodeUpdate context payload
  else if type = 9 then (context, decodeRequest .request payload)
  else if type = 10 then (context, decodeRequest .seqRequest payload)
  else (context, none)

/-- One TLV: the context it leaves and the message visited for it, if any. -/
def decodeTlv (type : UInt8) (payload : List UInt8) :
    DecodeContext × List Message :=
  match decodeBody context type payload with
  | (context, none) => (context, [])
  | (context, some (m, used)) =>
    let rest := payload.drop used
    if !subs rest.length rest then (context, [])
    else if m.type = .router ∨ m.type = .nextHop then (context, [])
    else (context, [m])

def decodeTlvs (context : DecodeContext) : List (UInt8 × List UInt8) → List Message
  | [] => []
  | (type, payload) :: rest =>
    let (context, visited) := decodeTlv context type payload
    visited ++ decodeTlvs context rest

/-- The first walk: the types and payloads of the outer TLVs, padding skipped,
or `none` when a length leaves the body. -/
def splitTlvs : Nat → List UInt8 → Option (List (UInt8 × List UInt8))
  | _, [] => some []
  | 0, _ :: _ => none
  | fuel + 1, type :: rest =>
    if type = 0 then splitTlvs fuel rest
    else
      match rest with
      | [] => none
      | length :: body =>
        if length.toNat > body.length then none
        else
          (splitTlvs fuel (body.drop length.toNat)).map
            ((type, body.take length.toNat) :: ·)

/-- `wb_decode`: the visited messages, or `none` for `WB_INVALID`. -/
def wbDecode (packet : List UInt8) (source : Octets 16) : Option (List Message) :=
  let size := (u16 (packet.drop 2)).toNat
  if packet.length < 4 ∨ packet.getD 0 0 ≠ 42 ∨ packet.getD 1 0 ≠ 2 ∨
      size > packet.length - 4 then none
  else
    let body := (packet.drop 4).take size
    (splitTlvs body.length body).map (decodeTlvs { ipv6Hop := source })

/-! ## Encoding -/

def Prefix.encodedSize (p : Prefix) : Nat := (p.bits.toNat + 7) / 8

variable (m : Message)

/-- The address bytes of a message and their encoding, `none` for family 0. -/
def encodeAddress : UInt8 × List UInt8 :=
  if m.addressFamily = 4 then (1, m.address.val.take 4) else (2, m.address.val)

def encodeHello : List UInt8 :=
  [m.type.code, 6, if m.unicast ∧ m.type = .hello then 128 else 0, 0] ++
    put16 (if m.type = .ackRequest then m.opaqueValue else m.seqno) ++ put16 m.interval

def encodeIhu : List UInt8 :=
  if m.addressFamily = 0 then
    [MessageType.ihu.code, 6, 0, 0] ++ put16 m.metric ++ put16 m.interval
  else
    let (ae, bytes) := encodeAddress m
    [MessageType.ihu.code, UInt8.ofNat (6 + bytes.length), ae, 0] ++
      put16 m.metric ++ put16 m.interval ++ bytes

/-- The Router-Id and Next Hop TLVs that precede a finite Update. -/
def encodeUpdateContext : List UInt8 :=
  if m.metric = infinity then []
  else
    [MessageType.router.code, 10, 0, 0] ++ put64 m.router ++
      (if m.addressFamily = 0 then []
      else
        let (ae, bytes) := encodeAddress m
        [MessageType.nextHop.code, UInt8.ofNat (bytes.length + 2), ae, 0] ++ bytes)

def encodeUpdate : List UInt8 :=
  let bytes := if m.wildcard then [] else m.pfx.bytes.val.take m.pfx.encodedSize
  let ae : UInt8 :=
    if m.wildcard then 0 else if m.pfx.family = 4 then (if m.via6 then 4 else 1) else 2
  encodeUpdateContext m ++
    [MessageType.update.code, UInt8.ofNat (10 + bytes.length), ae, 0,
      if m.wildcard then 0 else m.pfx.bits, 0] ++
    put16 m.interval ++ put16 m.seqno ++ put16 m.metric ++ bytes

def encodeRequest : List UInt8 :=
  let bytes := if m.wildcard then [] else m.pfx.bytes.val.take m.pfx.encodedSize
  let ae : UInt8 := if m.wildcard then 0 else if m.pfx.family = 4 then 1 else 2
  let bits : UInt8 := if m.wildcard then 0 else m.pfx.bits
  if m.type = .request then
    [MessageType.request.code, UInt8.ofNat (2 + bytes.length), ae, bits] ++ bytes
  else
    [MessageType.seqRequest.code, UInt8.ofNat (14 + bytes.length), ae, bits] ++
      put16 m.seqno ++ [m.hops, 0] ++ put64 m.router ++ bytes

def encodeBody : Option (List UInt8) :=
  match m.type with
  | .hello | .ackRequest => some (encodeHello m)
  | .ack => some ([MessageType.ack.code, 2] ++ put16 m.opaqueValue)
  | .ihu => some (encodeIhu m)
  | .update => some (encodeUpdate m)
  | .request | .seqRequest => some (encodeRequest m)
  | .router | .nextHop => none

/-- `wb_encode`: the encoded message, or `none` where the C function returns 0. -/
def wbEncode (capacity : Nat) : Option (List UInt8) :=
  if ((m.type = .update ∨ m.type = .request ∨ m.type = .seqRequest) ∧
        ¬m.wildcard ∧ ¬m.pfx.valid) ∨
      (m.addressFamily ≠ 0 ∧ m.addressFamily ≠ 4 ∧ m.addressFamily ≠ 6) then none
  else
    match encodeBody m with
    | none => none
    | some bytes => if bytes.length > capacity then none else some bytes

end WendyLite.Babel
