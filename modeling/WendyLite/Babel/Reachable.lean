import WendyLite.Babel.Steps
import WendyLite.Babel.History

/-! # Reachable states

A run starts with `wb_init`, or with `wb_restore` of an accepted checkpoint, and
takes any events in any order.
-/

namespace WendyLite.Babel

open SlotTable List

variable {env : Env} {provenance : Provenance} {e e' : Engine}

/-! ## The start of a run -/

variable {config : Config}

lemma wbInit_spec (started : wbInit config = some e) : ConfigOk (withDefaults config) ∧ ∃ rng, e =
      { config := withDefaults config, seqno := config.seqno, rng := rng, ready := true } := by
  simp only [wbInit] at started
  split at started
  · cases started
  rename_i accepted
  split at started
  · cases started
  rename_i ranges
  cases started
  simp only [not_or, UInt32.not_lt, UInt64.not_lt, gt_iff_lt] at accepted ranges
  refine ⟨?_, _, rfl⟩
  exact ⟨⟨accepted.1, accepted.2.1⟩, ranges.1, ranges.2.1, ranges.2.2.2.1,
    ranges.2.2.2.2.1, ranges.2.2.2.2.2.2.1, ranges.2.2.2.2.2.2.2.1,
    ranges.2.2.2.2.2.2.2.2⟩

lemma wbInit_sound (started : wbInit config = some e)
    (own : provenance.own config.seqno) : Sound env provenance e := by
  obtain ⟨ok, rng, rfl⟩ := wbInit_spec started
  refine ⟨ok, by simp [UInt64.le_iff_toNat_le], own, Proper.nil, by simp, Proper.nil,
    Proper.nil, Proper.nil, Proper.nil, Proper.nil, Proper.nil, by simp, le_rfl⟩

variable {data : List UInt8}

lemma valid_of_getPrefix (read : getPrefix data = some p) : p.valid = true := by
  simp only [getPrefix] at read
  split at read
  next valid =>
    cases read
    exact valid
  cases read

lemma restoreSources_spec (maximum : Nat) (router : UInt64) {lifetime : UInt64}
    {count : Nat} {read sources : List Source}
    (proper : Proper Source.used (fun source => (source.pfx, source.router)) maximum
      (SourceOk Provenance.any router lifetime.toNat) read)
    (used : ∀ source ∈ read, source.used = true) (fits : read.length + count ≤ maximum)
    (restored : restoreSources lifetime data count read = some sources) :
    Proper Source.used (fun source => (source.pfx, source.router)) maximum
        (SourceOk Provenance.any router lifetime.toNat) sources ∧
      (∀ source ∈ sources, source.used = true) ∧ sources.length = read.length + count := by
  induction count generalizing data read with
  | zero =>
    cases restored
    exact ⟨proper, used, rfl⟩
  | succ count ih =>
    rw [restoreSources] at restored
    split at restored
    · cases restored
    rename_i p prefixRead
    simp only at restored
    split at restored
    · cases restored
    rename_i accepted
    split at restored
    · cases restored
    rename_i unique
    simp only [not_or] at accepted
    have next := ih ?_ ?_ ?_ restored
    · refine ⟨next.1, next.2.1, ?_⟩
      rw [next.2.2, length_append, length_singleton]
      omega
    · refine proper.concat (fun _ => ?_) ?_ (by omega)
      · exact ⟨valid_of_getPrefix prefixRead, ⟨accepted.1, accepted.2.1⟩,
          accepted.2.2, le_rfl, Provenance.records_any ..⟩
      intro present
      obtain ⟨other, mem, _, key⟩ := SlotTable.mem_keys.mp present
      simp only [Prod.mk.injEq] at key
      apply unique
      rw [any_eq_true]
      exact ⟨other, mem, by simp [key.1, key.2]⟩
    · exact forall_mem_append.mpr ⟨used, forall_mem_singleton.mpr rfl⟩
    rw [length_append, length_singleton]
    omega

lemma restoreDrops_spec (maximum : Nat) {lifetime : UInt64} {count : Nat} {read drops : List Drop}
    (proper : Proper Drop.used (·.pfx) maximum (DropOk lifetime.toNat) read)
    (used : ∀ drop ∈ read, drop.used = true) (fits : read.length + count ≤ maximum)
    (restored : restoreDrops lifetime data count read = some drops) :
    Proper Drop.used (·.pfx) maximum (DropOk lifetime.toNat) drops ∧
      (∀ drop ∈ drops, drop.used = true) ∧ drops.length = read.length + count := by
  induction count generalizing data read with
  | zero =>
    cases restored
    exact ⟨proper, used, rfl⟩
  | succ count ih =>
    rw [restoreDrops] at restored
    split at restored
    · cases restored
    rename_i p prefixRead
    split at restored
    · cases restored
    rename_i unique
    have next := ih ?_ ?_ ?_ restored
    · refine ⟨next.1, next.2.1, ?_⟩
      rw [next.2.2, length_append, length_singleton]
      omega
    · refine proper.concat (fun _ => ⟨valid_of_getPrefix prefixRead, le_rfl⟩) ?_
        (by omega)
      intro present
      obtain ⟨other, mem, _, key⟩ := SlotTable.mem_keys.mp present
      apply unique
      rw [any_eq_true]
      exact ⟨other, mem, by simpa using key⟩
    · exact forall_mem_append.mpr ⟨used, forall_mem_singleton.mpr rfl⟩
    rw [length_append, length_singleton]
    omega

/-- The slots a restored table was grown by are empty, and within its ceiling. -/
lemma reserveTable_nil {maximum count : Nat} {empty : Slot} {grown : List Slot}
    {heap heap' : Heap}
    (reserved : reserveTable env heap maximum count empty [] = (some grown, heap')) :
    (∀ slot ∈ grown, slot = empty) ∧ count ≤ grown.length ∧ grown.length ≤ maximum := by
  rw [reserveTable] at reserved
  split at reserved
  · cases reserved
  rename_i capacity _ success
  cases reserved
  have sizes := le_of_reserve success
  refine ⟨fun slot mem => eq_of_mem_replicate (by simpa [grow] using mem), ?_, ?_⟩
  · simpa using sizes.1
  simpa using sizes.2.2 (Nat.zero_le _)

structure Restored (env : Env) (config : Config) (data : List UInt8) (e : Engine) : Prop where
  header : headerRefused env config data = false
  accepted : ConfigOk (withDefaults (restoredConfig config data))
  result : ∃ rng heap sources drops freeSources freeDrops,
    e = { config := withDefaults (restoredConfig config data), seqno := u16 (data.drop 12)
          rng := rng, ready := true, heap := heap, lastLink := u64 (data.drop 14)
          sources := sources ++ freeSources, drops := drops ++ freeDrops } ∧
      restoreSources e.config.sourceMs.toUInt64 (data.drop 40) (u16 (data.drop 22)).toNat [] =
        some sources ∧
      restoreDrops (restoredDropMs e.config data).toUInt64
        ((data.drop 40).drop ((u16 (data.drop 22)).toNat * sourceSize))
        (u16 (data.drop 24)).toNat [] = some drops ∧
      (∀ slot ∈ freeSources, slot = {}) ∧ (∀ slot ∈ freeDrops, slot = {}) ∧
      (u16 (data.drop 22)).toNat + freeSources.length ≤ env.limits.sources ∧
      (u16 (data.drop 24)).toNat + freeDrops.length ≤ env.limits.routes

lemma wbRestore_ok
    (restored : wbRestore env config data = (.ok, some e)) : Restored env config data e := by
  rw [wbRestore] at restored
  split at restored
  · cases restored
  rename_i header
  rw [Bool.not_eq_true] at header
  split at restored
  · cases restored
  rename_i start started
  obtain ⟨ok, rng, rfl⟩ := wbInit_spec started
  simp only at restored
  split at restored
  · cases restored
  rename_i sourceSlots _ reservedSources
  split at restored
  · cases restored
  rename_i dropSlots heap reservedDrops
  split at restored
  · cases restored
  rename_i sources readSources
  split at restored
  · cases restored
  rename_i drops readDrops
  cases restored
  have sourceFacts := reserveTable_nil reservedSources
  have dropFacts := reserveTable_nil reservedDrops
  refine ⟨header, ok, rng, heap, sources, drops, _, _, rfl, readSources, readDrops,
    fun slot mem => sourceFacts.1 slot (mem_of_mem_drop mem),
    fun slot mem => dropFacts.1 slot (mem_of_mem_drop mem), ?_, ?_⟩
  · rw [length_drop]
    omega
  rw [length_drop]
  omega

lemma headerRefused_lifetimes (accepted : headerRefused env config data = false) :
    getU32 (data.drop 30) ≤ 86400000 := by
  simp only [headerRefused, decide_eq_false_iff_not, not_or, gt_iff_lt, UInt32.not_lt]
    at accepted
  exact accepted.2.2.2.2.2.2.2.2.2.2

lemma restoredDropMs_le (ok : ConfigOk config) (bounded : getU32 (data.drop 30) ≤ 86400000) :
    (restoredDropMs config data).toUInt64.toNat ≤ 86400000 := by
  have stored := UInt32.le_iff_toNat_le.mp bounded
  have upper := UInt32.le_iff_toNat_le.mp ok.updateMax
  have literals : (86400000 : UInt32).toNat = 86400000 ∧ (655340 : UInt32).toNat = 655340 ∧
      (7 : UInt32).toNat = 7 ∧ (2 : UInt32).toNat = 2 := ⟨rfl, rfl, rfl, rfl⟩
  rw [UInt32.toNat_toUInt64, restoredDropMs]
  split
  · omega
  rw [UInt32.toNat_div, UInt32.toNat_mul, literals.2.2.1, literals.2.2.2,
    Nat.mod_eq_of_lt (by omega)]
  omega

lemma Restored.sound (restored : Restored env config data e) : Sound env Provenance.any e := by
  have ok := restored.accepted
  have bounded := headerRefused_lifetimes restored.header
  rcases restored.result with ⟨rng, heap, sources, drops, freeSources, freeDrops, rfl,
    readSources, readDrops, emptySources, emptyDrops, sourceRoom, dropRoom⟩
  have sourceFacts := restoreSources_spec env.limits.sources
    (withDefaults (restoredConfig config data)).router Proper.nil (by simp)
    (by simpa using by omega) readSources
  have dropFacts := restoreDrops_spec env.limits.routes Proper.nil (by simp)
    (by simpa using by omega) readDrops
  simp only [length_nil, Nat.zero_add] at sourceFacts dropFacts
  refine ⟨ok, by simp [UInt64.le_iff_toNat_le], trivial, Proper.nil, by simp, Proper.nil, ?_,
    Proper.nil, ?_, Proper.nil, Proper.nil, by simp, le_rfl⟩
  · refine (sourceFacts.1.append_empty rfl emptySources ?_).imp fun source _ ok => ?_
    · rw [length_append]
      omega
    refine { ok with expires := ok.expires.trans ?_ }
    rw [UInt32.toNat_toUInt64]
    exact Nat.le_add_left _ _
  refine (dropFacts.1.append_empty rfl emptyDrops ?_).imp fun drop _ ok' => ?_
  · rw [length_append]
    omega
  refine { ok' with expires := ok'.expires.trans ?_ }
  exact (restoredDropMs_le ok bounded).trans (Nat.le_add_left _ _)

/-! ## Runs -/

def Start (env : Env) (e : Engine) : Prop :=
  (∃ config, wbInit config = some e) ∨ ∃ config data, wbRestore env config data = (.ok, some e)

def Reachable (env : Env) (e : Engine) : Prop :=
  ∃ start events, Start env start ∧ run env start events = e

lemma Start.sound (start : Start env e) : Sound env Provenance.any e := by
  obtain ⟨config, started⟩ | ⟨config, data, restored⟩ := start
  · exact wbInit_sound started trivial
  exact (wbRestore_ok restored).sound

/-- At the start the tables are empty, but for a checkpoint's sources and drops. -/
structure Empty (e : Engine) : Prop where
  links : e.links = []
  candidates : e.candidates = []
  locals : e.locals = []
  requests : e.requests = []
  routes : e.routes = []
  messages : e.messages = []
  stopped : e.stopped = false
  pending : e.pending = 0
  now : e.now = 0
  trigger : e.trigger = false

lemma Start.empty (start : Start env e) : Empty e := by
  obtain ⟨config, started⟩ | ⟨config, data, restored⟩ := start
  · obtain ⟨_, _, rfl⟩ := wbInit_spec started
    exact ⟨rfl, rfl, rfl, rfl, rfl, rfl, rfl, rfl, rfl, rfl⟩
  obtain ⟨_, _, _, _, _, _, rfl, _⟩ := (wbRestore_ok restored).result
  exact ⟨rfl, rfl, rfl, rfl, rfl, rfl, rfl, rfl, rfl, rfl⟩

lemma run_append (env : Env) (e : Engine) (first second : List Event) :
    run env e (first ++ second) = run env (run env e first) second :=
  foldl_append

/-- A property of all starts that every event keeps holds in every reachable
state. -/
lemma Reachable.induct (reachable : Reachable env e) (invariant : Engine → Prop)
    (start : ∀ e, Start env e → invariant e)
    (next : ∀ e event, Sound env Provenance.any e → invariant e →
      invariant (step env e event).2) : invariant e := by
  obtain ⟨first, events, started, rfl⟩ := reachable
  have both : Sound env Provenance.any (run env first events) ∧
      invariant (run env first events) :=
    foldlRecOn
      (motive := fun state => Sound env Provenance.any state ∧ invariant state) events _
      ⟨started.sound, start first started⟩ fun state holds event _ =>
        ⟨(step_spec holds.1 (eventOk_any env state event)).1, next state event holds.1 holds.2⟩
  exact both.2

lemma Reachable.sound (reachable : Reachable env e) : Sound env Provenance.any e :=
  reachable.induct (Sound env Provenance.any) (fun _ started => started.sound)
    fun state event sound _ => (step_spec sound (eventOk_any env state event)).1

lemma run_advances (sound : Sound env Provenance.any e) (events : List Event) :
    Sound env Provenance.any (run env e events) ∧ Advances Provenance.any e (run env e events) :=
  foldlRecOn
    (motive := fun state => Sound env Provenance.any state ∧ Advances Provenance.any e state)
    events _ ⟨sound, Advances.refl _ e⟩ fun state holds event _ => by
      have next := step_spec holds.1 (eventOk_any env state event)
      exact ⟨next.1, holds.2.trans next.2⟩

lemma Reachable.step (reachable : Reachable env e) (event : Event) :
    Reachable env (step env e event).2 := by
  obtain ⟨start, events, started, rfl⟩ := reachable
  exact ⟨start, events ++ [event], started, run_append env start events [event]⟩

/-! ## A small engine

The concrete runs of this development are those of a router with one or two
links, whose allocator and callback never refuse. -/

def willing : Env where
  limits := Limits.standard 2
  allocate _ := true
  allow _ _ _ _ := true

def fresh (router : UInt64) : Engine :=
  { config := { router := router, helloMs := 4000, updateMs := 16000, sourceMs := 180000 }
    rng := router, ready := true }

def wire (id : UInt64) : Link where
  id := id
  localAddress := Octets.ofList 16 [0xfe, 0x80, 0, 0, 0, 0, 0, 0, 0, 0, 0, 0, 0, 0, 0, 1]
  peer := Octets.ofList 16 [0xfe, 0x80, 0, 0, 0, 0, 0, 0, 0, 0, 0, 0, 0, 0, 0, 2]
  cost := 96
  maxPacket := 1099

lemma wbInit_fresh (ok : RouterOk router) :
    wbInit { router := router } = some (fresh router) := by
  rw [wbInit, if_neg (by simpa [RouterOk] using ok)]
  simp only [withDefaults]
  rw [if_neg (by decide)]
  rfl

lemma Reachable.of_fresh (ok : RouterOk router) (events : List Event) :
    Reachable env (run env (fresh router) events) :=
  ⟨fresh router, events, .inl ⟨{ router := router }, wbInit_fresh ok⟩, rfl⟩

def block : Prefix where
  bytes := Octets.ofList 16 [0xfd]
  bits := 8
  family := 6

def packet (messages : List Message) : List UInt8 := packetOf (messages.flatMap encoded)

def hello : Message := { type := .hello, seqno := 1, interval := 400 }

def ihu : Message := { type := .ihu, metric := 96, interval := 1200 }

def offering (seqno metric : UInt16) : Message :=
  { type := .update, pfx := block, router := 2, seqno := seqno, metric := metric, interval := 1600 }

def asking : Message := { type := .request, pfx := block }

/-- The first link comes up, the neighbour offers the block and asks for it. -/
def meeting : List Event :=
  [.addLink 0 (wire 1), .nextPacket 1099,
    .receive 0 1 (packet [hello, ihu, offering 0 10, asking]), .commit 1 true, .nextPacket 1099]

def learned : Engine := run willing (fresh 1) meeting

lemma learned_reachable : Reachable willing learned := Reachable.of_fresh (by decide) meeting

end WendyLite.Babel
