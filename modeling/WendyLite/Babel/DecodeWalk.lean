import WendyLite.Babel.Decoded

/-! # The two walks of the decoder

`wb_decode` with its positions: the first walk checks the outer lengths, the second
reads on what the first has established. A read outside the packet is a fault, and
calls of the visitor change a state of the caller. The walks never fault, and do what
`wbDecode` says.
-/

namespace WendyLite.Babel

open List

variable {State : Type}

/-! ## The walks -/

/-- The first walk from position `pos`; `none` is a read outside the packet. -/
def checkOuter (packet : List UInt8) (stop : Nat) : Nat → Nat → Option Bool
  | 0, _ => some true
  | fuel + 1, pos =>
    if pos < stop then do
      let type ← packet[pos]?
      if type = 0 then checkOuter packet stop fuel (pos + 1)
      else if pos + 1 ≥ stop then some false
      else
        let length ← packet[pos + 1]?
        if length.toNat > stop - (pos + 1) - 1 then some false
        else checkOuter packet stop fuel (pos + 1 + (1 + length.toNat))
    else some true

variable (packet : List UInt8)

def slice (pos length : Nat) : Option (List UInt8) :=
  if pos + length ≤ packet.length then some ((packet.drop pos).take length) else none

def visitOuter (packet : List UInt8) (stop : Nat) (visit : State → Message → State) :
    Nat → Nat → DecodeContext → State → Option State
  | 0, _, _, state => some state
  | fuel + 1, pos, context, state =>
    if pos < stop then do
      let type ← packet[pos]?
      if type = 0 then visitOuter packet stop visit fuel (pos + 1) context state
      else
        let length ← packet[pos + 1]?
        let payload ← slice packet (pos + 2) length.toNat
        let (context, visited) := decodeTlv context type payload
        visitOuter packet stop visit fuel (pos + 2 + length.toNat) context
          (visited.foldl visit state)
    else some state

variable (source : Octets 16)

variable (visit : State → Message → State)

def decodePacket
    (state : State) : Option (Status × State) :=
  if packet.length < 4 then some (.invalid, state)
  else do
    let magic ← packet[0]?
    let version ← packet[1]?
    let header ← slice packet 2 2
    let body := (u16 header).toNat
    if magic ≠ 42 ∨ version ≠ 2 ∨ body > packet.length - 4 then some (.invalid, state)
    else if ← checkOuter packet (4 + body) body 4 then
      let state ← visitOuter packet (4 + body) visit body 4 { ipv6Hop := source } state
      some (.ok, state)
    else some (.invalid, state)

/-! ## The walks and the lists -/

lemma splitTlvs_pad (fuel : Nat) (rest : List UInt8) :
    splitTlvs (fuel + 1) (0 :: rest) = splitTlvs fuel rest := by
  simp [splitTlvs]

variable {type : UInt8}

lemma splitTlvs_cut (real : type ≠ 0) (fuel : Nat) : splitTlvs (fuel + 1) [type] = none := by
  simp [splitTlvs, real]

lemma splitTlvs_real (real : type ≠ 0) (fuel : Nat) (length : UInt8) (body : List UInt8) :
    splitTlvs (fuel + 1) (type :: length :: body) = if length.toNat > body.length then none
      else (splitTlvs fuel (body.drop length.toNat)).map ((type, body.take length.toNat) :: ·) := by
  simp [splitTlvs, real]

def region (stop pos : Nat) : List UInt8 := (packet.take stop).drop pos

section Region

variable {packet : List UInt8} {stop pos : Nat}

lemma region_eq_nil (ended : stop ≤ pos) : region packet stop pos = [] := by
  rw [region, drop_eq_nil_iff, length_take]
  omega

lemma length_region (bounded : stop ≤ packet.length) :
    (region packet stop pos).length = stop - pos := by
  rw [region, length_drop, length_take]
  omega

lemma region_cons (bounded : stop ≤ packet.length) (inside : pos < stop) :
    ∃ byte, packet[pos]? = some byte ∧
      region packet stop pos = byte :: region packet stop (pos + 1) := by
  have within : pos < packet.length := by omega
  refine ⟨packet[pos], getElem?_eq_getElem within, ?_⟩
  have taken : pos < (packet.take stop).length := by
    rw [length_take]
    omega
  rw [region, region, drop_eq_getElem_cons taken, getElem_take]

lemma drop_region (size : Nat) :
    (region packet stop pos).drop size = region packet stop (pos + size) := by
  rw [region, region, drop_drop]

section

variable (bounded : stop ≤ packet.length)
include bounded

lemma slice_region {size : Nat} (fits : pos + size ≤ stop) :
    slice packet pos size = some ((region packet stop pos).take size) := by
  rw [slice, if_pos (by omega), region, drop_take, take_take, Nat.min_eq_left (by omega)]

lemma checkOuter_eq (fuel : Nat) : ∀ pos, stop - pos ≤ fuel →
      checkOuter packet stop fuel pos = some (splitTlvs fuel (region packet stop pos)).isSome := by
  induction fuel with
  | zero =>
    intro pos enough
    rw [region_eq_nil (by omega), checkOuter, splitTlvs, Option.isSome_some]
  | succ fuel ih =>
    intro pos enough
    rw [checkOuter]
    by_cases inside : pos < stop
    · obtain ⟨type, read, here⟩ := region_cons bounded inside
      rw [if_pos inside, read, here]
      by_cases pad : type = 0
      · rw [pad, splitTlvs_pad]
        exact ih (pos + 1) (by omega)
      by_cases last : pos + 1 ≥ stop
      · rw [region_eq_nil last, splitTlvs_cut pad]
        simp [pad, last]
      obtain ⟨length, read', next⟩ := region_cons bounded (not_le.mp last)
      have remaining : (region packet stop (pos + 1 + 1)).length = stop - (pos + 1) - 1 := by
        rw [length_region bounded]
        omega
      rw [next, splitTlvs_real pad, remaining]
      simp only [pad, if_false, last, read', Option.bind_eq_bind, Option.bind_some]
      by_cases long : length.toNat > stop - (pos + 1) - 1
      · simp [long]
      rw [if_neg long, if_neg long, drop_region, Option.isSome_map,
        ih _ (by omega), Nat.add_assoc (pos + 1)]
    rw [if_neg inside, region_eq_nil (by omega), splitTlvs, Option.isSome_some]

lemma visitOuter_eq (visit : State → Message → State)
    (fuel : Nat) : ∀ pos context state entries, stop - pos ≤ fuel →
      splitTlvs fuel (region packet stop pos) = some entries →
      visitOuter packet stop visit fuel pos context state =
        some ((decodeTlvs context entries).foldl visit state) := by
  induction fuel with
  | zero =>
    intro pos context state entries enough split_
    rw [region_eq_nil (by omega), splitTlvs, Option.some.injEq] at split_
    rw [visitOuter, ← split_, decodeTlvs, foldl_nil]
  | succ fuel ih =>
    intro pos context state entries enough split_
    rw [visitOuter]
    by_cases inside : pos < stop
    · obtain ⟨type, read, here⟩ := region_cons bounded inside
      rw [here] at split_
      rw [if_pos inside, read]
      by_cases pad : type = 0
      · rw [pad, splitTlvs_pad] at split_
        simpa [pad] using ih (pos + 1) context state entries (by omega) split_
      by_cases last : pos + 1 ≥ stop
      · rw [region_eq_nil last, splitTlvs_cut pad] at split_
        cases split_
      obtain ⟨length, read', next⟩ := region_cons bounded (not_le.mp last)
      have remaining : (region packet stop (pos + 1 + 1)).length = stop - (pos + 1 + 1) :=
        length_region bounded
      rw [next, splitTlvs_real pad] at split_
      split at split_
      · cases split_
      rename_i fits
      obtain ⟨later, split', rfl⟩ := Option.map_eq_some_iff.mp split_
      rw [drop_region] at split'
      have payload : slice packet (pos + 2) length.toNat =
          some ((region packet stop (pos + 2)).take length.toNat) :=
        slice_region bounded (by omega)
      simp only [pad, if_false, read', payload, Option.bind_eq_bind, Option.bind_some]
      rw [ih _ _ _ later (by omega) split', decodeTlvs, foldl_append]
    rw [region_eq_nil (by omega), splitTlvs, Option.some.injEq] at split_
    rw [if_neg inside, ← split_, decodeTlvs, foldl_nil]

end

end Region

/-- The walks do what `wbDecode` says, and never leave the packet. -/
lemma decodePacket_eq (state : State) :
    decodePacket packet source visit state = some (match wbDecode packet source with
      | none => (.invalid, state)
      | some messages => (.ok, messages.foldl visit state)) := by
  unfold decodePacket wbDecode
  by_cases short : packet.length < 4
  · simp [short]
  have at_ : ∀ index, index < 4 → packet[index]? = some (packet.getD index 0) := by
    intro index low
    rw [getD_eq_getElem?_getD, getElem?_eq_getElem (by omega), Option.getD_some]
  have header : slice packet 2 2 = some ((packet.drop 2).take 2) := by
    rw [slice, if_pos (by omega)]
  have size : u16 ((packet.drop 2).take 2) = u16 (packet.drop 2) := by
    rw [u16, u16, take_take, Nat.min_self]
  simp only [short, if_false, at_ 0 (by omega), at_ 1 (by omega), header, size,
    Option.bind_eq_bind, Option.bind_some, false_or]
  by_cases bad : packet.getD 0 0 ≠ 42 ∨ packet.getD 1 0 ≠ 2 ∨
      (u16 (packet.drop 2)).toNat > packet.length - 4
  · simp only [bad, if_true]
  simp only [bad, if_false]
  have bounded : 4 + (u16 (packet.drop 2)).toNat ≤ packet.length := by
    simp only [not_or, not_lt] at bad
    omega
  generalize (u16 (packet.drop 2)).toNat = body at bounded ⊢
  have whole : (packet.drop 4).take body = region packet (4 + body) 4 := by
    rw [region, drop_take, Nat.add_sub_cancel_left]
  have length : (region packet (4 + body) 4).length = body := by
    rw [length_region bounded, Nat.add_sub_cancel_left]
  rw [whole, length, checkOuter_eq bounded body 4 (by omega)]
  cases entries : splitTlvs body (region packet (4 + body) 4) with
  | none => rfl
  | some entries =>
    simp only [Option.isSome_some, Option.bind_some, if_true, Option.map_some]
    rw [visitOuter_eq bounded visit body 4 _ state _ (by omega) entries]
    rfl

/-! ## Consistent packets -/

/-- The body is a sequence of pad bytes and TLVs, none of which leaves it. -/
inductive WellFramed : List UInt8 → Prop
  | nil : WellFramed []
  | pad {rest : List UInt8} (framed : WellFramed rest) : WellFramed (0 :: rest)
  | tlv {type length : UInt8} {payload rest : List UInt8} (real : type ≠ 0)
      (size : payload.length = length.toNat) (framed : WellFramed rest) :
      WellFramed (type :: length :: (payload ++ rest))

lemma isSome_splitTlvs_iff (fuel : Nat) : ∀ bytes : List UInt8, bytes.length ≤ fuel →
      ((splitTlvs fuel bytes).isSome = true ↔ WellFramed bytes) := by
  induction fuel with
  | zero =>
    intro bytes short
    obtain rfl : bytes = [] := length_eq_zero_iff.mp (by omega)
    simp [splitTlvs, WellFramed.nil]
  | succ fuel ih =>
    intro bytes short
    constructor
    · intro accepted
      cases bytes with
      | nil => exact .nil
      | cons type rest =>
        rw [length_cons] at short
        by_cases pad : type = 0
        · subst pad
          rw [splitTlvs_pad] at accepted
          exact .pad ((ih rest (by omega)).mp accepted)
        cases rest with
        | nil =>
          rw [splitTlvs_cut pad] at accepted
          cases accepted
        | cons length body =>
          rw [splitTlvs_real pad] at accepted
          split at accepted
          · cases accepted
          rename_i fits
          rw [Option.isSome_map] at accepted
          rw [length_cons] at short
          have framed := (ih (body.drop length.toNat)
            (by rw [length_drop]; omega)).mp accepted
          have size : (body.take length.toNat).length = length.toNat := by
            rw [length_take]
            omega
          simpa using WellFramed.tlv pad size framed
    intro framed
    cases framed with
    | nil => rfl
    | pad framed =>
      rw [length_cons] at short
      rw [splitTlvs_pad]
      exact (ih _ (by omega)).mpr framed
    | @tlv type length payload rest real size framed =>
      simp only [length_cons, length_append] at short
      rw [splitTlvs_real real, if_neg (by rw [length_append]; omega), Option.isSome_map,
        drop_left' size]
      exact (ih rest (by omega)).mpr framed

/-- The header is one of a packet this long, and the outer lengths fit. -/
def Consistent : Prop :=
  4 ≤ packet.length ∧ packet.getD 0 0 = 42 ∧ packet.getD 1 0 = 2 ∧
    (u16 (packet.drop 2)).toNat ≤ packet.length - 4 ∧
    WellFramed ((packet.drop 4).take (u16 (packet.drop 2)).toNat)

lemma isSome_wbDecode_iff : (wbDecode packet source).isSome = true ↔ Consistent packet := by
  unfold wbDecode Consistent
  dsimp only
  split
  next bad =>
    simp only [Option.isSome_none, Bool.false_eq_true, false_iff]
    rintro ⟨long, magic, version, size, _⟩
    obtain short | wrong | wrong | over_ := bad
    · omega
    · exact wrong magic
    · exact wrong version
    omega
  rename_i good
  simp only [not_or, not_not, not_lt] at good
  rw [Option.isSome_map, isSome_splitTlvs_iff _ _ (le_refl _)]
  exact ⟨fun framed => ⟨good.1, good.2.1, good.2.2.1, good.2.2.2, framed⟩,
    fun consistent => consistent.2.2.2.2⟩

/-! ## Well-formed messages -/

/-- A message as the visitor may rely on it. -/
structure Message.WellFormed (m : Message) : Prop where
  pfx : m.type = .update ∨ m.type = .request ∨ m.type = .seqRequest → m.wildcard = false →
    m.pfx.valid = true
  interval : m.type = .update ∨ m.type = .ihu ∨ m.type = .ackRequest → m.interval ≠ 0
  announced : m.type = .update → m.metric ≠ infinity →
    RouterOk m.router ∧ (m.addressFamily = 4 ∨ m.addressFamily = 6)
  retracts : m.type = .update → m.wildcard = true → m.metric = infinity
  request : m.type = .seqRequest → 1 ≤ m.hops.toNat ∧ RouterOk m.router

structure HopsOk (context : DecodeContext) : Prop where
  ipv4 : context.ipv4HopFamily = 0 ∨ context.ipv4HopFamily = 4
  ipv6 : context.ipv6HopFamily = 6

variable {context : DecodeContext}

lemma HopsOk.updateContext (hops : HopsOk context) (ae flags : UInt8)
    (p : Prefix) : HopsOk (updateContext context ae flags p) := by
  unfold Babel.updateContext
  dsimp only
  split <;> split <;> exact ⟨hops.ipv4, hops.ipv6⟩

variable {payload : List UInt8} {context' : DecodeContext}

lemma decodeUpdate_hops {body : Option (Message × Nat)} (hops : HopsOk context)
    (decoded : decodeUpdate context payload = (context', body)) : HopsOk context' := by
  simp only [decodeUpdate] at decoded
  repeat' split at decoded
  all_goals
    cases decoded
    first
      | exact hops
      | exact hops.updateContext _ _ _

variable {m : Message} {used : Nat}

lemma decodeUpdate_family (hops : HopsOk context)
    (decoded : decodeUpdate context payload = (context', some (m, used)))
    (finite : m.metric ≠ infinity) : m.addressFamily = 4 ∨ m.addressFamily = 6 := by
  simp only [decodeUpdate] at decoded
  split at decoded
  · cases decoded
  split at decoded
  · split at decoded
    · cases decoded
    rename_i accepted
    simp only [not_or, not_not] at accepted
    cases decoded
    exact absurd accepted.2.2.1 finite
  split at decoded
  · cases decoded
  split at decoded
  · cases decoded
  rename_i usable
  split at decoded
  · cases decoded
  cases decoded
  simp only [not_and, not_or] at usable
  have known := (usable finite).2.2
  have kept := hops.updateContext (payload.getD 0 0) (payload.getD 1 0)
  simp only [contextHopFamily] at known ⊢
  split at known
  next ipv4 =>
    rw [if_pos ipv4]
    exact .inl ((kept _).ipv4.resolve_left known)
  rename_i ipv4
  rw [if_neg ipv4]
  exact .inr (kept _).ipv6

lemma decodeAddress_family {ae family : UInt8} {bytes : List UInt8} {address : Octets 16}
    {size : Nat} (present : ae ≠ 0) (decoded : decodeAddress ae bytes = some (address, family, size)) :
    family = 4 ∨ family = 6 := by
  simp only [decodeAddress, if_neg present] at decoded
  split at decoded
  · cases decoded
    exact .inl rfl
  split at decoded
  · cases decoded
    exact .inr rfl
  split at decoded
  · cases decoded
    exact .inr rfl
  cases decoded

lemma decodeBody_hops {body : Option (Message × Nat)} (hops : HopsOk context)
    (decoded : decodeBody context type payload = (context', body)) : HopsOk context' := by
  simp only [decodeBody] at decoded
  repeat' split at decoded
  all_goals first
    | exact decodeUpdate_hops hops decoded
    | (cases decoded; exact hops)
    | skip
  · cases decoded
    exact ⟨.inr ‹_›, hops.ipv6⟩
  next address family size read present other =>
    cases decoded
    exact ⟨hops.ipv4, (decodeAddress_family present read).resolve_left other⟩
  cases decoded
  exact ⟨hops.ipv4, hops.ipv6⟩

lemma decodeUpdate_type (decoded : decodeUpdate context payload = (context', some (m, used))) :
    m.type = .update := by
  simp only [decodeUpdate] at decoded
  repeat' split at decoded
  all_goals
    cases decoded
    try rfl

lemma decodeRequest_type {type : MessageType}
    (decoded : decodeRequest type payload = some (m, used)) :
    m.type = type ∧ (type = .seqRequest → m.hops ≠ 0) := by
  simp only [decodeRequest] at decoded
  generalize (if type = .request then 2 else 14) = base at decoded
  split at decoded
  · cases decoded
  split at decoded
  · cases decoded
  rename_i message size body
  have kept : message.type = type := by
    repeat' split at body
    all_goals
      cases body
      try rfl
  split at decoded
  · split at decoded
    · cases decoded
    rename_i accepted
    simp only [not_or] at accepted
    cases decoded
    exact ⟨kept, fun _ => accepted.1⟩
  rename_i other
  cases decoded
  exact ⟨kept, fun seqRequest => absurd seqRequest other⟩

/-- What a TLV says beyond the facts of `Received`. -/
lemma decodeBody_lasting (hops : HopsOk context)
    (decoded : decodeBody context type payload = (context', some (m, used))) :
    (m.type = .ihu ∨ m.type = .ackRequest → m.interval ≠ 0) ∧
      (m.type = .update → m.metric ≠ infinity → m.addressFamily = 4 ∨ m.addressFamily = 6) ∧
      (m.type = .seqRequest → m.hops ≠ 0) := by
  simp only [decodeBody] at decoded
  split at decoded
  · split at decoded
    · cases decoded
    split at decoded
    · cases decoded
    rename_i tlv _ lasting
    cases decoded
    simp only [not_and] at lasting
    refine ⟨?_, ?_, ?_⟩ <;> rcases tlv with rfl | rfl <;> simp at lasting ⊢
    exact lasting
  split at decoded
  · split at decoded
    · cases decoded
    cases decoded
    simp
  split at decoded
  · split at decoded
    · cases decoded
    split at decoded
    · cases decoded
    split at decoded
    · cases decoded
    rename_i lasting
    cases decoded
    exact ⟨fun _ => lasting, by simp, by simp⟩
  split at decoded
  · split at decoded
    · cases decoded
    split at decoded
    · cases decoded
    split at decoded
    · cases decoded
    cases decoded
    simp
  split at decoded
  · split at decoded
    · cases decoded
    cases decoded
    simp
  split at decoded
  · have update := decodeUpdate_type decoded
    exact ⟨by simp [update], fun _ => decodeUpdate_family hops decoded, by simp [update]⟩
  split at decoded
  · have request := decodeRequest_type (Prod.ext_iff.mp decoded).2
    simp [request.1]
  split at decoded
  · have request := decodeRequest_type (Prod.ext_iff.mp decoded).2
    exact ⟨by simp [request.1], by simp [request.1], fun _ => request.2 rfl⟩
  cases decoded

lemma wellFormed_of_decodeBody (hops : HopsOk context)
    (decoded : decodeBody context type payload = (context', some (m, used))) : m.WellFormed := by
  have received := received_of_decodeBody decoded
  obtain ⟨interval, family, several⟩ := decodeBody_lasting hops decoded
  refine ⟨received.valid, ?_, ?_, received.retracts, ?_⟩
  · rintro (update | other)
    · exact received.lasting update
    exact interval other
  · intro update finite
    exact ⟨received.router (.inl ⟨update, finite⟩), family update finite⟩
  intro seqRequest
  refine ⟨?_, received.router (.inr seqRequest)⟩
  have positive := several seqRequest
  rw [Ne, ← UInt8.toNat_inj] at positive
  simp only [UInt8.toNat_zero] at positive
  omega

lemma wellFormed_of_decodeTlvs {entries : List (UInt8 × List UInt8)} :
    ∀ {context : DecodeContext}, HopsOk context → m ∈ decodeTlvs context entries → m.WellFormed := by
  induction entries with
  | nil =>
    intro context _ visited
    simp [decodeTlvs] at visited
  | cons entry rest ih =>
    obtain ⟨type, payload⟩ := entry
    intro context hops visited
    rw [decodeTlvs] at visited
    cases decoded : decodeBody context type payload with
    | mk next body =>
      have kept := decodeBody_hops hops decoded
      obtain first | later := mem_append.mp visited
      · cases body with
        | none => simp [decoded] at first
        | some body =>
          have wellFormed := wellFormed_of_decodeBody hops decoded
          simp only [decoded] at first
          repeat' split at first
          all_goals simp only [not_mem_nil, mem_singleton] at first
          exact first ▸ wellFormed
      have same : (decodeTlv context type payload).1 = next := by
        simp only [decodeTlv, decoded]
        repeat' split
        all_goals simp_all
      exact ih (same ▸ kept) later

lemma wellFormed_of_wbDecode {packet : List UInt8} {source : Octets 16}
    {messages : List Message} (decoded : wbDecode packet source = some messages) :
    ∀ m ∈ messages, m.WellFormed := by
  intro m mem
  simp only [wbDecode] at decoded
  split at decoded
  · cases decoded
  obtain ⟨entries, _, rfl⟩ := Option.map_eq_some_iff.mp decoded
  exact wellFormed_of_decodeTlvs ⟨.inl rfl, rfl⟩ mem

/-- Decoding never leaves the packet. It returns `WB_INVALID` with the visitor
uncalled when the header or an outer length is inconsistent, and otherwise
visits well-formed messages only. -/
theorem decode_visits_well_formed (packet : List UInt8) (source : Octets 16)
    (visit : State → Message → State) (state : State) :
    (¬ Consistent packet → decodePacket packet source visit state = some (.invalid, state)) ∧
      (Consistent packet → ∃ messages : List Message, (∀ m ∈ messages, m.WellFormed) ∧
        decodePacket packet source visit state = some (.ok, messages.foldl visit state)) := by
  rw [decodePacket_eq]
  have accepted := isSome_wbDecode_iff packet source
  constructor
  · intro inconsistent
    rw [← accepted, Bool.not_eq_true, Option.isSome_eq_false_iff, Option.isNone_iff_eq_none]
      at inconsistent
    rw [inconsistent]
  intro consistent
  obtain ⟨messages, decoded⟩ := Option.isSome_iff_exists.mp (accepted.mpr consistent)
  rw [decoded]
  exact ⟨messages, wellFormed_of_wbDecode decoded, rfl⟩

end WendyLite.Babel
