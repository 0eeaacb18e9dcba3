import WendyLite.Babel.Reachable

/-! # Export

Draining the output of an engine with `wb_next_packet`: every call packs the
longest run of messages to one link that fits, so the packets of a link carry
the messages queued for it, in order and each of them once.
-/

namespace WendyLite.Babel

open List

variable {env : Env} {provenance : Provenance} {e : Engine}

/-! ## One packet -/

def bodyOf (sent : List Queued) : List UInt8 :=
  (sent.map (·.message)).flatMap encoded

variable {output : List Queued}

/-- The loop of `wb_next_packet` takes messages to the link as long as they fit. -/
lemma fillPacket_spec (link : UInt64) {maximum : Nat} (room : 68 ≤ maximum)
    (sendable : ∀ queued ∈ output, Sendable queued.message) (fits : 4 + body.length ≤ maximum)
    (taken : Nat) :
    ∃ sent rest, output = sent ++ rest ∧ (∀ queued ∈ sent, queued.link = link) ∧
      fillPacket maximum link body taken output =
        (body ++ bodyOf sent, taken + sent.length, false) ∧
      4 + (body ++ bodyOf sent).length ≤ maximum := by
  induction output generalizing body taken with
  | nil => exact ⟨[], [], rfl, by simp, by simp [fillPacket, bodyOf], by simpa [bodyOf]⟩
  | cons queued output ih =>
    -- A message of another link, or one that does not fit, is left for the next packet.
    have stay : ∃ sent rest, queued :: output = sent ++ rest ∧
        (∀ other ∈ sent, other.link = link) ∧
        (body, taken, false) = (body ++ bodyOf sent, taken + sent.length, false) ∧
        4 + (body ++ bodyOf sent).length ≤ maximum :=
      ⟨[], queued :: output, rfl, by simp, by simp [bodyOf], by simpa [bodyOf]⟩
    have first := sendable queued (by simp)
    have size := first.length_encoded
    rw [fillPacket, first.wbEncode_eq]
    simp only
    split
    · exact stay
    rename_i here
    rw [if_neg (by omega)]
    split
    · exact stay
    rename_i fitsToo
    have fits' : 4 + (body ++ encoded queued.message).length ≤ maximum := by
      rw [length_append]
      omega
    rcases ih (fun other mem => sendable other (by simp [mem])) fits'
        (taken + 1) with ⟨sent, rest, split, links, filled, bound⟩
    refine ⟨queued :: sent, rest, by rw [split, cons_append], ?_, ?_, ?_⟩
    · intro other mem
      obtain rfl | later := mem_cons.mp mem
      · exact not_not.mp here
      exact links other later
    · rw [filled]
      simp only [bodyOf, map_cons, flatMap_cons, append_assoc,
        length_cons, Prod.mk.injEq, true_and, and_true]
      omega
    simpa [bodyOf] using bound

lemma fillPacket_first {maximum : Nat} (room : 68 ≤ maximum)
    (sendable : ∀ queued ∈ first :: output, Sendable queued.message) :
    ∃ sent rest, first :: output = sent ++ rest ∧ sent ≠ [] ∧
      (∀ queued ∈ sent, queued.link = first.link) ∧
      fillPacket maximum first.link [] 0 (first :: output) = (bodyOf sent, sent.length, false) ∧
      4 + (bodyOf sent).length ≤ maximum := by
  have encodes := sendable first (by simp)
  have size := encodes.length_encoded
  rcases fillPacket_spec first.link room
      (fun other mem => sendable other (.tail _ mem))
      (show 4 + (encoded first.message).length ≤ maximum by omega) 1 with
    ⟨sent, rest, split, links, filled, bound⟩
  refine ⟨first :: sent, rest, by rw [split, cons_append], by simp, ?_, ?_, ?_⟩
  · simpa using links
  · rw [fillPacket, encodes.wbEncode_eq]
    simp only [ne_eq, not_true_eq_false, if_false, length_nil, nil_append]
    rw [if_neg (by omega), if_neg (by omega), filled]
    simp [bodyOf, Nat.add_comm]
  simpa [bodyOf] using bound

def remaining (e : Engine) : List Queued := e.messages.drop e.messageCursor

structure Exporting (e : Engine) : Prop where
  running : e.stopped = false
  committed : e.pending = 0
  ready : e.ready = true

lemma Sound.linkFor_queued (sound : Sound env provenance e) (mem : queued ∈ e.messages) :
    ∃ link, linkFor e queued.link = some link ∧ LinkOk e.lastLink link := by
  obtain ⟨named, link, present, id⟩ := (sound.messages queued mem).link
  have some : (linkFor e queued.link).isSome := find?_isSome.mpr ⟨link, present, by simp [id]⟩
  obtain ⟨found, lookup⟩ := Option.isSome_iff_exists.mp some
  have facts := linkFor_some lookup
  have used : found.used = true := by simp [LinkState.used, facts.2, named]
  exact ⟨found, lookup, sound.links.each found facts.1 used⟩

/-- One call of `wb_next_packet`: it finds the link of the next message and sends
a run of the messages that are left. -/
structure Exported (e : Engine) (link : LinkState) (sent rest : List Queued) (e' : Engine) :
    Prop where
  split : remaining e = sent ++ rest
  nonempty : sent ≠ []
  found : ∀ queued ∈ sent, linkFor e queued.link = some link
  size : (packetOf (bodyOf sent)).length ≤ link.config.maxPacket.toNat
  exporting : Exporting e'
  links : e'.links = e.links
  left : remaining e' = rest

lemma wbNextPacket_exported (sound : Sound env provenance e) (exporting : Exporting e)
    (roomy : ∀ link ∈ e.links, link.config.maxPacket.toNat ≤ capacity) (more : remaining e ≠ []) :
    ∃ link sent rest e', wbNextPacket e capacity =
        (.packet link.config.id (packetOf (bodyOf sent)), e') ∧ Exported e link sent rest e' := by
  obtain ⟨first, output, head⟩ := exists_cons_of_ne_nil more
  have queued : ∀ other ∈ first :: output, other ∈ e.messages := fun other mem =>
    mem_of_mem_drop (head ▸ mem)
  obtain ⟨link, found, linkOk⟩ := sound.linkFor_queued (queued first (by simp))
  have linkFacts := linkFor_some found
  have room := linkOk.packetMin
  rcases fillPacket_first (show 68 ≤ link.config.maxPacket.toNat by omega)
      (fun other mem => (sound.messages other (queued other mem)).sendable) with
    ⟨sent, rest, split, nonempty, links, filled, bound⟩
  have left : e.messages.drop (e.messageCursor + sent.length) = rest := by
    rw [← drop_drop, show e.messages.drop e.messageCursor = sent ++ rest from
      head.trans split, drop_left]
  have size : (packetOf (bodyOf sent)).length ≤ link.config.maxPacket.toNat := by
    simp only [packetOf, length_append, length_cons, length_nil, length_put16]
    omega
  simp only [wbNextPacket, exporting.running, exporting.committed, exporting.ready]
  rw [show e.messages.drop e.messageCursor = first :: output from head]
  simp only [found, filled]
  rw [if_neg (by simp), if_neg (by simp), if_neg (Nat.not_lt.mpr (roomy link linkFacts.1))]
  refine ⟨link, sent, rest, _, by rw [linkFacts.2, packetOf], ?_, nonempty, ?_, size, ?_, ?_, ?_⟩
  · exact head.trans split
  · intro other mem
    rw [links other mem, found]
  · split <;> exact ⟨rfl, rfl, rfl⟩
  · split <;> rfl
  split
  next done =>
    rw [drop_of_length_le (Nat.le_of_eq done.symm)] at left
    exact left
  exact left

/-- Every queued message encodes, so an export never stops the engine. -/
lemma wbNextPacket_stopped (sound : Sound env provenance e) (capacity : Nat) :
    (wbNextPacket e capacity).2.stopped = e.stopped := by
  rw [wbNextPacket]
  split
  · rfl
  split
  · rfl
  split
  · rfl
  rename_i first output head
  have queued : ∀ other ∈ first :: output, other ∈ e.messages := fun other mem =>
    mem_of_mem_drop (head ▸ mem)
  obtain ⟨link, found, linkOk⟩ := sound.linkFor_queued (queued first (by simp))
  have room := linkOk.packetMin
  rcases fillPacket_first (show 68 ≤ link.config.maxPacket.toNat by omega)
      (fun other mem => (sound.messages other (queued other mem)).sendable) with
    ⟨sent, rest, _, _, _, filled, _⟩
  simp only [found, filled]
  split
  · rfl
  split <;> rfl

/-! ## The whole output -/

/-- Call `wb_next_packet` until nothing is left, at most `fuel` times: the packets
with their links. `none` when a call fails or the fuel runs out. -/
def drain (capacity : Nat) : Nat → Engine → Option (List (UInt64 × List UInt8))
  | 0, _ => none
  | fuel + 1, e =>
    match wbNextPacket e capacity with
    | (.status _, _) => none
    | (.drained, _) => some []
    | (.packet link bytes, e) => (drain capacity fuel e).map ((link, bytes) :: ·)

def packetsFor (id : UInt64) (packets : List (UInt64 × List UInt8)) : List (List UInt8) :=
  (packets.filter (·.1 == id)).map (·.2)

def messagesFor (id : UInt64) (output : List Queued) : List Message :=
  (output.filter (·.link == id)).map (·.message)

def decodeAll (source : Octets 16) (packets : List (List UInt8)) : Option (List Message) :=
  (packets.mapM (wbDecode · source)).map List.flatten

lemma wbNextPacket_drained (exporting : Exporting e) (done : remaining e = [])
    (capacity : Nat) : wbNextPacket e capacity = (.drained, e) := by
  rw [wbNextPacket, exporting.running, exporting.committed, exporting.ready,
    show e.messages.drop e.messageCursor = [] from done]
  rfl

/-- The packets carry the messages: each fits its link, and each link's packets
decode to what was queued for it. -/
structure Conveys (e : Engine) (output : List Queued) (packets : List (UInt64 × List UInt8)) :
    Prop where
  fits : ∀ packet ∈ packets, ∃ link, linkFor e packet.1 = some link ∧
    packet.2.length ≤ link.config.maxPacket.toNat
  decoded : ∀ id link, linkFor e id = some link →
    ∃ received, decodeAll link.config.localAddress (packetsFor id packets) = some received ∧
      List.Forall₂ (Delivered link.config.localAddress) (messagesFor id output) received

lemma Conveys.nil (e : Engine) : Conveys e [] [] where
  fits := by simp
  decoded id link _ := ⟨[], rfl, List.Forall₂.nil⟩

lemma decodeAll_cons {source : Octets 16} {packet : List UInt8} {packets : List (List UInt8)}
    {first rest : List Message} (head : wbDecode packet source = some first)
    (tail : decodeAll source packets = some rest) :
    decodeAll source (packet :: packets) = some (first ++ rest) := by
  simp only [decodeAll, Option.map_eq_some_iff] at tail ⊢
  obtain ⟨parts, decoded, rfl⟩ := tail
  exact ⟨first :: parts, by simp [head, decoded], rfl⟩

lemma Conveys.of_links_eq (conveys : Conveys e' output packets) (links : e'.links = e.links) :
    Conveys e output packets := by
  have lookups : linkFor e = linkFor e' := by
    funext id
    rw [linkFor, linkFor, links]
  exact ⟨lookups ▸ conveys.fits, lookups ▸ conveys.decoded⟩

/-- Put a packet in front of those that carry the rest. -/
lemma Conveys.cons (conveys : Conveys e rest packets)
    (sendable : ∀ queued ∈ sent, Sendable queued.message)
    (found : linkFor e link.config.id = some link)
    (links : ∀ queued ∈ sent, queued.link = link.config.id)
    (size : (packetOf (bodyOf sent)).length ≤ link.config.maxPacket.toNat) :
    Conveys e (sent ++ rest) ((link.config.id, packetOf (bodyOf sent)) :: packets) where
  fits := by
    intro packet mem
    obtain rfl | later := mem_cons.mp mem
    · exact ⟨link, found, size⟩
    exact conveys.fits packet later
  decoded := by
    intro id other lookup
    obtain ⟨received, decoded, delivered⟩ := conveys.decoded id other lookup
    by_cases here : link.config.id = id
    · subst here
      cases found.symm.trans lookup
      have short : ((sent.map (·.message)).flatMap encoded).length < 65536 := by
        have bound := link.config.maxPacket.toNat_lt
        simp only [packetOf, bodyOf, length_append] at size
        omega
      have sendables : ∀ m ∈ sent.map (·.message), Sendable m := by simpa using sendable
      rcases wbDecode_packetOf sendables short link.config.localAddress with
        ⟨first, decodedFirst, deliveredFirst⟩
      have mine : sent.filter (·.link == link.config.id) = sent :=
        filter_eq_self.mpr fun queued mem => by simp [links queued mem]
      refine ⟨first ++ received, ?_, ?_⟩
      · simpa [packetsFor, bodyOf] using decodeAll_cons decodedFirst decoded
      rw [messagesFor, filter_append, mine, map_append]
      exact rel_append deliveredFirst delivered
    have none : sent.filter (·.link == id) = [] :=
      filter_eq_nil_iff.mpr fun queued mem => by simp [links queued mem, here]
    refine ⟨received, ?_, ?_⟩
    · simpa [packetsFor, here] using decoded
    simpa [messagesFor, filter_append, none] using delivered

lemma drain_conveys (sound : Sound env provenance e) (exporting : Exporting e)
    (roomy : ∀ link ∈ e.links, link.config.maxPacket.toNat ≤ capacity)
    (enough : (remaining e).length < fuel) :
    ∃ packets, drain capacity fuel e = some packets ∧ Conveys e (remaining e) packets := by
  induction fuel generalizing e with
  | zero => omega
  | succ fuel ih =>
    by_cases done : remaining e = []
    · refine ⟨[], ?_, done ▸ Conveys.nil e⟩
      rw [drain, wbNextPacket_drained exporting done]
    rcases wbNextPacket_exported sound exporting roomy done with
      ⟨link, sent, rest, e', call, exported⟩
    have sound' := (wbNextPacket_spec sound capacity).1
    rw [call] at sound'
    have shorter : (remaining e').length < fuel := by
      have progress := length_pos_of_ne_nil exported.nonempty
      rw [exported.split, length_append] at enough
      rw [exported.left]
      omega
    rcases ih sound' exported.exporting (exported.links ▸ roomy) shorter with
      ⟨packets, drained, conveys⟩
    refine ⟨(link.config.id, packetOf (bodyOf sent)) :: packets, ?_, ?_⟩
    · rw [drain, call]
      simp only [drained, Option.map_some]
    have listed : ∀ queued ∈ sent, queued ∈ e.messages := fun queued mem =>
      mem_of_mem_drop (show queued ∈ remaining e from by
        rw [exported.split]
        exact mem_append_left _ mem)
    have links : ∀ queued ∈ sent, queued.link = link.config.id := fun queued mem =>
      (linkFor_some (exported.found queued mem)).2.symm
    obtain ⟨first, mem⟩ := exists_mem_of_ne_nil sent exported.nonempty
    rw [exported.split, ← exported.left]
    refine (conveys.of_links_eq exported.links).cons
      (fun queued mem => (sound.messages queued (listed queued mem)).sendable)
      ?_ links exported.size
    rw [← links first mem]
    exact exported.found first mem

/-- Draining the output of an engine terminates without an error. Every packet
fits its link, and the packets of a link, decoded in order at the neighbour,
give exactly the messages queued for it. -/
theorem drain_round_trip (reachable : Reachable env e) (exporting : Exporting e)
    {capacity fuel : Nat} (roomy : ∀ link ∈ e.links, link.config.maxPacket.toNat ≤ capacity)
    (enough : (remaining e).length < fuel) : ∃ packets, drain capacity fuel e = some packets ∧
      (∀ packet ∈ packets, ∃ link, linkFor e packet.1 = some link ∧
        packet.2.length ≤ link.config.maxPacket.toNat) ∧ ∀ id link, linkFor e id = some link →
        ∃ received, decodeAll link.config.localAddress (packetsFor id packets) = some received ∧
          List.Forall₂ (Delivered link.config.localAddress) (messagesFor id (remaining e))
            received := by
  obtain ⟨packets, drained, conveys⟩ := drain_conveys reachable.sound exporting roomy enough
  exact ⟨packets, drained, conveys.fits, conveys.decoded⟩

def greeting : Engine := run willing (fresh 1) [.addLink 0 (wire 1)]

theorem drain_round_trip_greeting : (remaining greeting).length = 3 ∧
      ∃ packets, drain 1099 4 greeting = some packets ∧
        (∀ packet ∈ packets, ∃ link, linkFor greeting packet.1 = some link ∧
          packet.2.length ≤ link.config.maxPacket.toNat) ∧
        ∀ id link, linkFor greeting id = some link → ∃ received,
            decodeAll link.config.localAddress (packetsFor id packets) = some received ∧
            List.Forall₂ (Delivered link.config.localAddress)
              (messagesFor id (remaining greeting)) received :=
  ⟨by decide,
    drain_round_trip (Reachable.of_fresh (by decide) _)
      ⟨by decide, by decide, by decide⟩ (by decide) (by decide)⟩

end WendyLite.Babel
