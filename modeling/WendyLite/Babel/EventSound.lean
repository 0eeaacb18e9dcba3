import WendyLite.Babel.TimerSound

/-! # Every event keeps an engine sound

The calls of the public interface, each of them a step of a run, and the
states a run can reach.
-/

namespace WendyLite.Babel

open SlotTable List

variable {env : Env} {provenance : Provenance} {e e' : Engine}

/-! ## Packets -/

/-- A received packet: its messages are credible, and the sequence number stays
among the allowed ones while they are handled. -/
structure PacketOk (env : Env) (provenance : Provenance) (e : Engine) (id : UInt64)
    (messages : List Message) : Prop where
  credible : ∀ m ∈ messages, Credible provenance id m
  own : ∀ taken, taken <+: messages → provenance.own (taken.foldl (receiveMessage env id) e).seqno

variable {id : UInt64}

lemma receiveMessages_keeps (nonzero : id ≠ 0) (sound : Sound env provenance e)
    (ok : PacketOk env provenance e id messages) :
    Keeps env provenance e (messages.foldl (receiveMessage env id) e) := by
  induction messages generalizing e with
  | nil => exact Keeps.refl sound
  | cons m rest ih =>
    have first := receiveMessage_keeps sound nonzero (ok.credible m (.head _))
      (ok.own [m] (by simp))
    refine first.trans (ih first.sound ⟨?_, ?_⟩)
    · exact fun other mem => ok.credible other (.tail _ mem)
    intro taken part
    exact ok.own (m :: taken) (cons_prefix_cons.mpr ⟨rfl, part⟩)

def packetMessages (e : Engine) (id : UInt64) (data : List UInt8) : List Message :=
  match linkFor e id with
  | none => []
  | some link =>
    if data.length > link.config.maxPacket.toNat then []
    else (wbDecode data link.config.peer).getD []

lemma length_of_wbDecode {packet : List UInt8}
    (decoded : wbDecode packet source = some messages) : 4 ≤ packet.length := by
  simp only [wbDecode] at decoded
  split at decoded
  · cases decoded
  rename_i accepted
  simp only [not_or, not_lt] at accepted
  exact accepted.1

/-- Receiving a packet is handling its messages, up to the traffic counters. -/
lemma receivePacket_eq (env : Env) (id : UInt64) (data : List UInt8) (e : Engine) :
    ∃ counters, receivePacket env id data e =
      (packetMessages e id data).foldl (receiveMessage env id) { e with counters := counters } := by
  rw [receivePacket, packetMessages]
  cases linkFor e id with
  | none => exact ⟨e.counters, rfl⟩
  | some link =>
    by_cases long : data.length > link.config.maxPacket.toNat
    · simp only [if_pos long]
      exact ⟨_, rfl⟩
    simp only [if_neg long]
    cases wbDecode data link.config.peer with
    | none | some => exact ⟨_, rfl⟩

variable {data : List UInt8}

lemma packetMessages_nonzero (sound : Sound env provenance e)
    (some : packetMessages e id data ≠ []) : id ≠ 0 := by
  intro zero
  apply some
  rw [packetMessages]
  split
  · rfl
  rename_i link found
  have ⟨mem, linkId⟩ := linkFor_some found
  have unused : link.used = false := by simp [LinkState.used, linkId, zero]
  rw [sound.freeLinks link mem unused]
  split
  · rfl
  rename_i short
  cases decoded : wbDecode data link.config.peer with
  | none => rfl
  | some messages =>
    have long := length_of_wbDecode decoded
    simp only [UInt16.toNat_zero, gt_iff_lt, not_lt] at short
    omega

lemma received_of_packetMessages (mem : m ∈ packetMessages e id data) : Received m := by
  rw [packetMessages] at mem
  split at mem
  · simp at mem
  split at mem
  · simp at mem
  rename_i link _ _
  cases decoded : wbDecode data link.config.peer with
  | none => simp [decoded] at mem
  | some messages =>
    rw [decoded] at mem
    exact received_of_wbDecode decoded m mem

lemma receivePacket_of_step (invariant : Engine → Prop) (sound : Sound env Provenance.any e)
    (counted : ∀ counters, invariant { e with counters := counters })
    (step : ∀ state m, id ≠ 0 → Received m → Keeps env Provenance.any e state →
      invariant state → invariant (receiveMessage env id state m)) :
    invariant (receivePacket env id data e) := by
  obtain ⟨counters, equation⟩ := receivePacket_eq env id data e
  have start : Keeps env Provenance.any e { e with counters := counters } :=
    ⟨{ sound with }, .of_same rfl⟩
  rw [equation]
  by_cases none : packetMessages e id data = []
  · rw [none]
    exact counted counters
  have nonzero := packetMessages_nonzero sound none
  have both := foldlRecOn (packetMessages e id data) (receiveMessage env id)
    (motive := fun state => Keeps env Provenance.any e state ∧ invariant state)
    ⟨start, counted counters⟩ fun state holds m mem => by
      have received := received_of_packetMessages mem
      exact ⟨holds.1.trans (receiveMessage_keeps holds.1.sound nonzero
        ⟨received, fun _ => trivial⟩ trivial),
        step state m nonzero received holds.1 holds.2⟩
  exact both.2

/-! ## Accepted events -/

/-- What an event does between `begin` and `finish`. -/
structure Changed (env : Env) (provenance : Provenance) (e e' : Engine) : Prop where
  sound : Sound env provenance e'
  config : e'.config = e.config
  now : e'.now = e.now
  heap : e.heap.requests ≤ e'.heap.requests
  sources : SourcesEvolve (provenance.records e.config.router) e.sources e'.sources

lemma Keeps.changed (keeps : Keeps env provenance e e') : Changed env provenance e e' :=
  ⟨keeps.sound, keeps.evolves.config, keeps.evolves.now, keeps.evolves.heap, keeps.evolves.sources⟩

/-- A change that leaves the clock, the configuration and the sources alone. -/
lemma Changed.of_sound (sound : Sound env provenance e') (config : e'.config = e.config)
    (now : e'.now = e.now) (heap : e.heap.requests ≤ e'.heap.requests)
    (sources : e'.sources = e.sources) : Changed env provenance e e' :=
  ⟨sound, config, now, heap, sources ▸ SourcesEvolve.refl _ _⟩

/-- What an event does to the clock and to the source entries: an entry that has
not expired by then is kept, improved, and lives longer. -/
structure Advances (provenance : Provenance) (e e' : Engine) : Prop where
  config : e'.config = e.config
  now : e.now ≤ e'.now
  heap : e.heap.requests ≤ e'.heap.requests
  sources : ∀ source ∈ e.sources, source.used = true → e'.now < source.expires →
    ∃ source' ∈ e'.sources, Renewed (provenance.records e.config.router) source source'

lemma Advances.of_evolves (config : e'.config = e.config) (now : e'.now = e.now)
    (heap : e.heap.requests ≤ e'.heap.requests)
    (sources : SourcesEvolve (provenance.records e.config.router) e.sources e'.sources) :
    Advances provenance e e' :=
  ⟨config, now ▸ UInt64.le_refl _, heap, fun source mem used _ => sources source mem used⟩

lemma Advances.refl (provenance : Provenance) (e : Engine) : Advances provenance e e :=
  Advances.of_evolves rfl rfl le_rfl (SourcesEvolve.refl _ _)

lemma Advances.trans (first : Advances provenance e e') (second : Advances provenance e' e'') :
    Advances provenance e e'' where
  config := second.config.trans first.config
  now := UInt64.le_trans first.now second.now
  heap := first.heap.trans second.heap
  sources source mem used alive := by
    rcases first.sources source mem used (UInt64.lt_of_le_of_lt second.now alive) with
      ⟨source', member', renewed⟩
    rcases second.sources source' member' renewed.used
        (UInt64.lt_of_lt_of_le alive renewed.expires) with ⟨source'', member'', renewed'⟩
    rw [first.config] at renewed'
    exact ⟨source'', member'', renewed.trans renewed'⟩

lemma Begun.advances (begun : Begun e e' now) : Advances provenance e e' := by
  obtain ⟨heap, capacity, rfl, asked⟩ := begun.result
  refine ⟨rfl, begun.later, asked, ?_⟩
  intro source mem used alive
  have kept := expireSource_of_lt alive
  refine ⟨source, ?_, Renewed.refl used⟩
  exact mem_map.mpr ⟨source, mem, kept⟩

/-! ## The events one by one -/

lemma Begun.tables (begun : Begun e e' now) :
    e'.links = e.links ∧ e'.locals = e.locals ∧ e'.drops = e.drops ∧ e'.routes = e.routes ∧
      e'.before = e.routes ∧ e'.messages = [] ∧ e'.messageCursor = 0 ∧ e'.lastLink = e.lastLink ∧
      e'.config = e.config ∧ e'.now = now ∧ e'.seqno = e.seqno ∧ e'.stopped = false := by
  obtain ⟨heap, capacity, rfl, _⟩ := begun.result
  exact ⟨rfl, rfl, rfl, rfl, rfl, rfl, rfl, rfl, rfl, rfl, rfl, begun.running⟩

/-- The configuration of a link that `wb_add_link` accepts. -/
lemma linkOk_of_accepted (accepted : linkRefused e config = false) :
    config.id ≠ 0 ∧ e.lastLink < config.id ∧
      LinkOk config.id { config := config, tx := infinity } := by
  simp only [linkRefused, decide_eq_false_iff_not, not_or, not_and, not_not, UInt64.not_le,
    UInt16.not_lt, gt_iff_lt, not_lt, UInt32.not_lt] at accepted
  obtain ⟨nonzero, later, cost, packetMin, packetMax, hello, _⟩ := accepted
  refine ⟨nonzero, later, UInt64.le_refl _, cost, ?_, packetMax, ?_⟩
  · exact UInt16.le_iff_toNat_le.mp packetMin
  by_cases zero : config.helloMs = 0
  · exact .inl zero
  exact .inr ⟨(hello zero).1, (hello zero).2.1⟩

section

variable (sound : Sound env provenance e)
include sound

variable {slot : Nat}

lemma attachLink_changed (located : e.links[slot]? = some old) (free : old.used = false)
    (nonzero : config.id ≠ 0) (later : e.lastLink < config.id)
    (ok : LinkOk config.id { config := config, tx := infinity }) :
    Changed env provenance e (attachLink env slot config e) := by
  have unknown : ∀ link ∈ e.links, link.used = true → link.config.id ≠ config.id := by
    intro link mem used equal
    have known := (sound.links.each link mem used).known
    rw [equal] at known
    exact UInt64.not_le.mpr later known
  have written : Sound env provenance
      { e with
        links := e.links.set slot { config := config, tx := infinity }, lastLink := config.id } := by
    refine { sound with links := ?_, freeLinks := ?_, messages := ?_ }
    · have renewed : Proper LinkState.used (·.config.id) env.limits.links (LinkOk config.id)
          e.links :=
        sound.links.imp fun link _ ok =>
          { ok with known := UInt64.le_trans ok.known (UInt64.le_of_lt later) }
      refine renewed.set located (fun _ => ok) fun _ => .inl fun present => ?_
      obtain ⟨link, mem, used, key⟩ := mem_keys.mp present
      exact unknown link mem used key
    · intro link mem unused
      obtain before | rfl := mem_or_eq_of_mem_set mem
      · exact sound.freeLinks link before unused
      simp [LinkState.used, nonzero] at unused
    intro queued mem
    refine (sound.messages queued mem).mono ?_ (SourcesEvolve.refl _ _)
    intro link inTable linkNonzero
    refine ⟨link, mem_set_of_ne located inTable fun equal => ?_, rfl⟩
    rw [← equal] at free
    simp [LinkState.used, linkNonzero] at free
  have asked := queue_plain_keeps written nonzero Sendable.requestAll (by simp [Message.announces])
  exact ⟨asked.sound, asked.evolves.config, asked.evolves.now, asked.evolves.heap,
    asked.evolves.sources⟩

lemma growLinks_sound (acquired : acquire env e.heap env.limits.links LinkState.used {} e.links =
      (some (slot, links), heap)) :
    Sound env provenance { e with heap := heap, links := links } := by
  obtain ⟨_, same, short⟩ := acquire_some rfl acquired
  have counted : Sound env provenance { e with heap := heap } := { sound with }
  refine (counted.links_keeps (sound.links.of_filter_eq same (short sound.links.length_le))
    ?_ ?_).sound
  · intro link mem unused
    obtain before | rfl := mem_acquire acquired mem
    · exact sound.freeLinks link before unused
    rfl
  intro link mem linkNonzero
  have used : link.used = true := by simpa [LinkState.used] using linkNonzero
  exact ⟨link, (mem_live_of_filter_eq same used).mpr mem, rfl⟩

lemma detachLink_changed (empty : e.messages = [])
    (id : UInt64) : Changed env provenance e (detachLink id e) := by
  have cleared : Sound env provenance (modifyLink e id fun _ => {}) ∧
      (modifyLink e id fun _ => {}).sources = e.sources ∧
      (modifyLink e id fun _ => {}).now = e.now ∧
      (modifyLink e id fun _ => {}).config = e.config ∧
      (modifyLink e id fun _ => {}).heap = e.heap := by
    rw [modifyLink]
    split
    · exact ⟨sound, rfl, rfl, rfl, rfl⟩
    rename_i slot _
    refine ⟨{ sound with links := ?_, freeLinks := ?_, messages := ?_ }, rfl, rfl, rfl, rfl⟩
    · exact sound.links.modify slot _ fun _ used => by cases used
    · intro link mem unused
      obtain same | ⟨old, _, written⟩ := modify_cases e.links slot fun _ => {}
      · exact sound.freeLinks link (same ▸ mem) unused
      simp only at mem
      rw [written] at mem
      obtain before | rfl := mem_or_eq_of_mem_set mem
      · exact sound.freeLinks link before unused
      rfl
    simp [empty]
  obtain ⟨sound1, sources, now, config, heap⟩ := cleared
  simp only [detachLink]
  generalize (modifyLink e id fun _ => {}) = e1 at sound1 sources now config heap ⊢
  refine Changed.of_sound { sound1 with candidates := ?_ } config now (heap ▸ le_rfl) sources
  apply sound1.candidates.map
  intro candidate used
  split at used
  next matched =>
    rw [if_pos matched]
    exact ⟨used, rfl, fun ok => { ok with heard := fun finite => absurd rfl finite }⟩
  rename_i other
  rw [if_neg other]
  exact ⟨used, rfl, fun ok => ok⟩

lemma changeCost_changed (id : UInt64) {cost : UInt16}
    (positive : cost ≠ 0) : Changed env provenance e (changeCost id cost e) := by
  rw [changeCost, modifyLink]
  split
  · exact (Keeps.refl sound).changed
  rename_i slot _
  rcases modify_cases e.links slot
    (fun link => { link with config := { link.config with cost := cost } }) with
    same | ⟨old, located, written⟩
  · rw [same]
    exact (Keeps.refl sound).changed
  rw [written]
  refine (sound.links_keeps ?_ ?_ ?_).changed
  · exact sound.links.set_same located fun used =>
      ⟨used, rfl, fun ok => ⟨ok.known, positive, ok.packetMin, ok.packetMax, ok.hello⟩⟩
  · intro link mem unused
    obtain before | rfl := mem_or_eq_of_mem_set mem
    · exact sound.freeLinks link before unused
    exact sound.freeLinks old (mem_of_getElem? located) unused
  intro link mem _
  by_cases overwritten : link = old
  · exact ⟨_, mem_set_self located, by rw [overwritten]⟩
  exact ⟨link, mem_set_of_ne located mem overwritten, rfl⟩

/-- What `wb_originate` finds before its event: a slot that is free, or that
holds the prefix already, in a table with the live entries it had. -/
lemma originSlot_spec (p : Prefix) :
    ∃ heap locals, (originSlot env e p).2 = { e with heap := heap, locals := locals } ∧
      e.heap.requests ≤ heap.requests ∧
      locals.filter LocalPrefix.used = e.locals.filter LocalPrefix.used ∧
      locals.length ≤ env.limits.routes ∧
      ∀ slot, (originSlot env e p).1 = some slot → ∃ old, locals[slot]? = some old ∧
        ((old.used = false ∧ p ∉ keys LocalPrefix.used (·.pfx) e.locals ∧
            admissionFull env e p = false) ∨
          (old.used = true ∧ old.pfx = p)) := by
  have asked := requests_le_acquire env e.heap env.limits.routes LocalPrefix.used {} e.locals
  have short := sound.locals.length_le
  rw [originSlot]
  split
  next slot found =>
    obtain ⟨old, located, accepted⟩ := located_of_findIdx? found
    simp only [Bool.and_eq_true, beq_iff_eq] at accepted
    refine ⟨e.heap, e.locals, rfl, le_rfl, rfl, short, ?_⟩
    rintro _ ⟨rfl⟩
    exact ⟨old, located, .inr accepted⟩
  rename_i absent
  split
  · exact ⟨e.heap, e.locals, rfl, le_rfl, rfl, short, by simp⟩
  rename_i admitted
  rw [Bool.not_eq_true] at admitted
  split
  next heap refused =>
    rw [refused] at asked
    exact ⟨heap, e.locals, rfl, asked, rfl, short, by simp⟩
  rename_i slot locals heap acquired
  rw [acquired] at asked
  obtain ⟨⟨old, located, free⟩, same, grown⟩ := acquire_some rfl acquired
  refine ⟨heap, locals, rfl, asked, same, grown short, ?_⟩
  rintro _ ⟨rfl⟩
  refine ⟨old, located, .inl ⟨free, ?_, admitted⟩⟩
  intro present
  obtain ⟨entry, mem, used, key⟩ := mem_keys.mp present
  have rejected := findIdx?_eq_none_iff.mp absent entry mem
  simp [used, key] at rejected

lemma writeLocal_changed {old : LocalPrefix}
    (located : e.locals[slot]? = some old) {p : Prefix} {metric : UInt16}
    (routable : p.routable = true) (finite : metric ≠ infinity)
    (place : (old.used = false ∧ p ∉ keys LocalPrefix.used (·.pfx) e.locals) ∨
      (old.used = true ∧ old.pfx = p)) : Changed env provenance e (writeLocal slot p metric e) := by
  refine Changed.of_sound { sound with locals := ?_, drops := ?_ } rfl rfl le_rfl rfl
  · refine sound.locals.set located (fun _ => ⟨routable, finite⟩) fun _ => ?_
    obtain ⟨_, fresh⟩ | same := place
    · exact .inl fresh
    exact .inr same
  apply sound.drops.map
  intro drop used
  split at used
  · cases used
  rename_i other
  rw [if_neg other]
  exact ⟨used, rfl, id⟩

lemma clearLocal_changed (p : Prefix) : Changed env provenance e (clearLocal p e) := by
  rw [clearLocal]
  split
  · exact (Keeps.refl sound).changed
  rename_i slot _
  refine Changed.of_sound { sound with locals := ?_ } rfl rfl le_rfl rfl
  exact sound.locals.modify slot _ fun _ used => by cases used

lemma receivePacket_changed
    (ok : ∀ counters, PacketOk env provenance { e with counters := counters } id
      (packetMessages e id data)) :
    Changed env provenance e (receivePacket env id data e) := by
  obtain ⟨counters, equation⟩ := receivePacket_eq env id data e
  have counted : Keeps env provenance e { e with counters := counters } :=
    ⟨{ sound with }, .of_same rfl⟩
  rw [equation]
  by_cases none : packetMessages e id data = []
  · rw [none]
    exact counted.changed
  exact (counted.trans (receiveMessages_keeps (packetMessages_nonzero sound none)
    counted.sound (ok counters))).changed

lemma wbRequestPrefix_spec (p : Prefix) : Sound env provenance (wbRequestPrefix env e p).2 ∧
      Advances provenance e (wbRequestPrefix env e p).2 := by
  have advanced : ∀ {e' : Engine}, Keeps env provenance e e' → Sound env provenance e' ∧
      Advances provenance e e' := fun keeps =>
    ⟨keeps.sound, Advances.of_evolves keeps.evolves.config keeps.evolves.now keeps.evolves.heap
      keeps.evolves.sources⟩
  rw [wbRequestPrefix]
  split
  · exact ⟨sound, Advances.refl provenance e⟩
  rename_i routable
  have valid := Prefix.valid_of_routable (show p.routable = true by simpa using routable)
  split
  · exact ⟨sound, Advances.refl provenance e⟩
  split
  · exact ⟨sound, Advances.refl provenance e⟩
  have cleared : Keeps env provenance e
      (if e.messageCursor = e.messages.length then clearMessages e else e) := by
    split
    · exact ⟨{ sound with messages := by simp [clearMessages], cursor := le_rfl },
        .of_same rfl⟩
    exact Keeps.refl sound
  simp only
  generalize (if e.messageCursor = e.messages.length then clearMessages e else e) = e1
    at cleared ⊢
  have asked := requests_le_reserve env e1.heap env.limits.messages e1.messagesCapacity
    (e1.messages.length + (e1.links.filter LinkState.used).length)
  split
  · exact advanced cleared
  split
  · exact advanced cleared
  split
  next heap refused =>
    rw [refused] at asked
    have sound1 := cleared.sound
    exact advanced (cleared.trans ⟨{ sound1 with }, .of_sources_eq rfl rfl rfl asked rfl⟩)
  rename_i capacity heap reserved
  rw [reserved] at asked
  have sound1 := cleared.sound
  have reservedOk : Keeps env provenance e1
      { e1 with heap := heap, messagesCapacity := capacity } :=
    ⟨{ sound1 with }, .of_sources_eq rfl rfl rfl asked rfl⟩
  refine advanced (cleared.trans (reservedOk.trans
    (Keeps.foldl _ _ reservedOk.sound fun state link mem sound' _ => ?_)))
  have used := (mem_filter.mp mem).2
  exact queue_plain_keeps sound' (by simpa [LinkState.used] using used)
    (Sendable.request p valid) (by simp [Message.announces])

lemma wbCommit_spec (revision : UInt64) (success : Bool) :
    Sound env provenance (wbCommit e revision success).2 ∧
      Advances provenance e (wbCommit e revision success).2 := by
  rw [wbCommit]
  split
  · exact ⟨sound, Advances.refl provenance e⟩
  split
  · exact ⟨sound, Advances.refl provenance e⟩
  split
  · exact ⟨{ sound with messages := by simp [clearMessages], cursor := le_rfl },
      Advances.of_evolves rfl rfl le_rfl (SourcesEvolve.refl _ _)⟩
  exact ⟨{ sound with }, Advances.of_evolves rfl rfl le_rfl (SourcesEvolve.refl _ _)⟩

end

lemma fillPacket_taken (maximum : Nat) (link : UInt64) (body : List UInt8) (taken : Nat)
    (messages : List Queued) :
    (fillPacket maximum link body taken messages).2.1 ≤ taken + messages.length := by
  induction messages generalizing body taken with
  | nil => exact le_rfl
  | cons queued rest ih =>
    rw [fillPacket, length_cons]
    split
    · exact Nat.le_add_right _ _
    split
    · exact Nat.le_add_right _ _
    split
    · exact Nat.le_add_right _ _
    split
    · exact Nat.le_add_right _ _
    refine (ih _ _).trans ?_
    omega

lemma wbNextPacket_spec (sound : Sound env provenance e) (capacity : Nat) :
    Sound env provenance (wbNextPacket e capacity).2 ∧
      Advances provenance e (wbNextPacket e capacity).2 := by
  have unchanged : Sound env provenance e ∧ Advances provenance e e :=
    ⟨sound, Advances.refl provenance e⟩
  rw [wbNextPacket]
  split
  · exact unchanged
  split
  · exact unchanged
  split
  · exact unchanged
  rename_i first rest remaining
  split
  · exact unchanged
  rename_i link _
  simp only
  split
  · exact unchanged
  have bound := fillPacket_taken link.config.maxPacket.toNat first.link [] 0
    (first :: rest)
  rw [← remaining, length_drop] at bound
  have cursor := sound.cursor
  split
  next taken filled =>
    rw [remaining, filled] at bound
    refine ⟨{ sound with cursor := ?_ },
      Advances.of_evolves rfl rfl le_rfl (SourcesEvolve.refl _ _)⟩
    simp only at bound ⊢
    omega
  rename_i body taken filled
  rw [remaining, filled] at bound
  split
  · exact ⟨{ sound with messages := by simp [clearMessages], cursor := le_rfl },
      Advances.of_evolves rfl rfl le_rfl (SourcesEvolve.refl _ _)⟩
  refine ⟨{ sound with cursor := ?_ },
    Advances.of_evolves rfl rfl le_rfl (SourcesEvolve.refl _ _)⟩
  simp only at bound ⊢
  omega

end WendyLite.Babel
