import WendyLite.Babel.Settled

/-! # Round trip of checkpoints

A checkpoint of a running engine is always accepted by `wb_restore`, and brings
back the sequence number, the source entries and a suppression of every prefix
that was in use. What is accepted is well formed.
-/

namespace WendyLite.Babel

open SlotTable List

variable {env : Env} {provenance : Provenance} {e e' : Engine}

/-! ## Reading what was written -/

@[simp] lemma length_putU32 (value : UInt32) : (putU32 value).length = 4 := by
  simp [putU32]

@[simp] lemma getU32_putU32_append (value : UInt32) (rest : List UInt8) :
    getU32 (putU32 value ++ rest) = value := by
  have bound : value.toNat < 256 ^ 4 := value.toNat_lt
  simp only [getU32, putU32]
  rw [take_left' (length_beBytes 4 value.toNat), beNat_beBytes_of_lt bound, UInt32.ofNat_toNat]

@[simp] lemma drop_putU32 (count : Nat) (value : UInt32) (rest : List UInt8) :
    (putU32 value ++ rest).drop (count + 4) = rest.drop count := by
  rw [drop_append]
  simp

lemma length_putPrefix (p : Prefix) : (putPrefix p).length = dropSize := by
  simp [putPrefix, p.bytes.property, dropSize]

lemma length_putSource (source : Source) : (putSource source).length = sourceSize := by
  simp [putSource, length_putPrefix, dropSize, sourceSize]

lemma length_flatMap_of_const {Item : Type} {write : Item → List UInt8}
    (const : ∀ item, (write item).length = size) (items : List Item) :
    (items.flatMap write).length = items.length * size := by
  rw [length_flatMap, map_congr_left fun item _ => const item]
  simp

lemma getPrefix_putPrefix (valid : p.valid = true) (rest : List UInt8) :
    getPrefix (putPrefix p ++ rest) = some p := by
  have size := p.bytes.property
  have bytes : (putPrefix p ++ rest).take 16 = p.bytes.val := by
    rw [putPrefix, append_assoc]
    exact take_left' size
  have bits : (putPrefix p ++ rest).getD 16 0 = p.bits := by
    simp [putPrefix, getD_eq_getElem?_getD, size]
  have family : (putPrefix p ++ rest).getD 17 0 = p.family := by
    simp [putPrefix, getD_eq_getElem?_getD, getElem?_append_right, size]
  have copied : Octets.ofList 16 p.bytes.val = p.bytes :=
    Subtype.ext (Octets.ofList_of_length _ size)
  simp only [getPrefix, bytes, bits, family, copied]
  rw [if_pos valid]

lemma drop_putPrefix (count : Nat) (p : Prefix) (rest : List UInt8) :
    (putPrefix p ++ rest).drop (count + 18) = rest.drop count := by
  rw [drop_append, length_putPrefix, dropSize, drop_of_length_le]
  · simp
  rw [length_putPrefix, dropSize]
  omega

/-! ## Source and drop records -/

variable (lifetime : UInt64)

def Source.restored (source : Source) : Source :=
  { source with expires := lifetime, used := true }

variable {sources : List Source}

lemma restoreSources_saved {read : List Source}
    (ok : ∀ source ∈ sources, source.pfx.valid = true ∧ RouterOk source.router ∧
      source.metric ≠ infinity)
    (distinct : ((read ++ sources).map fun source => (source.pfx, source.router)).Nodup)
    (rest : List UInt8) :
    restoreSources lifetime (sources.flatMap putSource ++ rest) sources.length read =
      some (read ++ sources.map (Source.restored lifetime)) := by
  induction sources generalizing read with
  | nil => simp [restoreSources]
  | cons source tail ih =>
    obtain ⟨valid, router, finite⟩ := ok source (.head _)
    have data : (source :: tail).flatMap putSource ++ rest =
        putPrefix source.pfx ++ (put64 source.router ++ (put16 source.seqno ++
          (put16 source.metric ++ (tail.flatMap putSource ++ rest)))) := by
      simp [putSource]
    have fields : ∀ after, u64 ((putPrefix source.pfx ++ (put64 source.router ++
            (put16 source.seqno ++ (put16 source.metric ++ after)))).drop 18) = source.router ∧
        u16 ((putPrefix source.pfx ++ (put64 source.router ++
            (put16 source.seqno ++ (put16 source.metric ++ after)))).drop 26) = source.seqno ∧
        u16 ((putPrefix source.pfx ++ (put64 source.router ++
            (put16 source.seqno ++ (put16 source.metric ++ after)))).drop 28) = source.metric ∧
        (putPrefix source.pfx ++ (put64 source.router ++
            (put16 source.seqno ++ (put16 source.metric ++ after)))).drop 30 = after := by
      intro after
      have skip := fun count => drop_putPrefix count source.pfx (put64 source.router ++
        (put16 source.seqno ++ (put16 source.metric ++ after)))
      refine ⟨?_, ?_, ?_, ?_⟩
      · rw [skip 0]
        simp
      · rw [skip 8, drop_put64 0]
        simp
      · rw [skip 10, drop_put64 2, drop_put16 0]
        simp
      rw [skip 12, drop_put64 4, drop_put16 2, drop_put16 0]
      simp
    have unique : (read.any fun other =>
        other.router == source.router && other.pfx == source.pfx) = false := by
      rw [any_eq_false]
      intro other mem
      rw [map_append, nodup_append] at distinct
      have apart := distinct.2.2 (other.pfx, other.router)
        (mem_map.mpr ⟨other, mem, rfl⟩) (source.pfx, source.router) (by simp)
      simp only [Bool.and_eq_true, beq_iff_eq, not_and]
      exact fun sameRouter samePfx => apart (by rw [sameRouter, samePfx])
    rw [length_cons, data, restoreSources, getPrefix_putPrefix valid]
    simp only [(fields _).1, (fields _).2.1, (fields _).2.2.1, sourceSize, (fields _).2.2.2, unique]
    rw [if_neg (by simp [router.1, router.2, finite])]
    rw [ih]
    · simp [Source.restored]
    · exact fun other mem => ok other (.tail _ mem)
    simpa using distinct

lemma restoreDrops_saved {read : List Drop}
    (ok : ∀ p ∈ prefixes, p.valid = true)
    (distinct : (read.map (·.pfx) ++ prefixes).Nodup) (rest : List UInt8) :
    restoreDrops lifetime (prefixes.flatMap putPrefix ++ rest) prefixes.length read =
      some (read ++ prefixes.map fun p => { pfx := p, used := true, expires := lifetime }) := by
  induction prefixes generalizing read with
  | nil => simp [restoreDrops]
  | cons p tail ih =>
    have data : (p :: tail).flatMap putPrefix ++ rest =
        putPrefix p ++ (tail.flatMap putPrefix ++ rest) := by
      simp
    have unique : (read.any fun other => other.pfx == p) = false := by
      rw [any_eq_false]
      intro other mem
      rw [nodup_append] at distinct
      have apart := distinct.2.2 other.pfx (mem_map.mpr ⟨other, mem, rfl⟩) p (by simp)
      simpa using apart
    rw [length_cons, data, restoreDrops, getPrefix_putPrefix (ok p (.head _))]
    simp only [unique, Bool.false_eq_true, if_false, dropSize]
    rw [drop_putPrefix 0, drop_zero, ih]
    · simp
    · exact fun other mem => ok other (.tail _ mem)
    simpa using distinct

/-! ## The header -/

structure HeaderOf (e : Engine) (data : List UInt8) : Prop where
  magic : data.take 4 = [0x57, 0x42, 0x43, 0x31]
  router : u64 (data.drop 4) = e.config.router
  seqno : u16 (data.drop 12) = e.seqno
  lastLink : u64 (data.drop 14) = e.lastLink
  sources : u16 (data.drop 22) = UInt16.ofNat (e.sources.filter Source.used).length
  drops : u16 (data.drop 24) = UInt16.ofNat (savedDrops e).length
  sourceMs : getU32 (data.drop 26) = e.config.sourceMs
  dropMs : getU32 (data.drop 30) = savedDropMs e
  reserved : (data.drop 34).take 6 = [0, 0, 0, 0, 0, 0]
  body : data.drop 40 =
    (e.sources.filter Source.used).flatMap putSource ++ (savedDrops e).flatMap putPrefix

lemma headerOf_checkpoint (e : Engine) : HeaderOf e (checkpoint e) := by
  generalize sourceBytes :
    (e.sources.filter Source.used).flatMap putSource ++ (savedDrops e).flatMap putPrefix = body
  have data : checkpoint e = 0x57 :: 0x42 :: 0x43 :: 0x31 :: (put64 e.config.router ++
      (put16 e.seqno ++ (put64 e.lastLink ++
        (put16 (UInt16.ofNat (e.sources.filter Source.used).length) ++
          (put16 (UInt16.ofNat (savedDrops e).length) ++ (putU32 e.config.sourceMs ++
            (putU32 (savedDropMs e) ++ (0 :: 0 :: 0 :: 0 :: 0 :: 0 :: body)))))))) := by
    rw [← sourceBytes]
    simp [checkpoint, saveHeader]
  have skip4 : ∀ count rest, (0x57 :: 0x42 :: 0x43 :: 0x31 :: rest : List UInt8).drop
      (count + 4) = rest.drop count := fun _ _ => rfl
  rw [data]
  refine ⟨rfl, ?_, ?_, ?_, ?_, ?_, ?_, ?_, ?_, ?_⟩
  · rw [skip4 0]
    simp
  · rw [skip4 8, drop_put64 0]
    simp
  · rw [skip4 10, drop_put64 2, drop_put16 0]
    simp
  · rw [skip4 18, drop_put64 10, drop_put16 8, drop_put64 0]
    simp
  · rw [skip4 20, drop_put64 12, drop_put16 10, drop_put64 2, drop_put16 0]
    simp
  · rw [skip4 22, drop_put64 14, drop_put16 12, drop_put64 4, drop_put16 2, drop_put16 0]
    simp
  · rw [skip4 26, drop_put64 18, drop_put16 16, drop_put64 8, drop_put16 6, drop_put16 4,
      drop_putU32 0]
    simp
  · rw [skip4 30, drop_put64 22, drop_put16 20, drop_put64 12, drop_put16 10, drop_put16 8,
      drop_putU32 4, drop_putU32 0]
    rfl
  exact sourceBytes.symm

lemma length_checkpoint (e : Engine) :
    (checkpoint e).length = 40 + (e.sources.filter Source.used).length * sourceSize +
      (savedDrops e).length * dropSize := by
  simp only [checkpoint, saveHeader, length_append, length_cons, length_nil,
    length_put64, length_put16, length_putU32, length_flatMap_of_const length_putSource,
    length_flatMap_of_const length_putPrefix]

/-! ## The saved lifetime -/

lemma savedDropMs_spec (sound : Sound env provenance e) :
    e.config.updateMs.toNat * 7 / 2 ≤ (savedDropMs e).toNat ∧ (∀ drop ∈ e.drops, drop.used = true →
        drop.expires.toNat - e.now.toNat ≤ (savedDropMs e).toNat) ∧
      (savedDropMs e).toNat ≤ 86400000 := by
  have upper := UInt32.le_iff_toNat_le.mp sound.config.updateMax
  have literals : (655340 : UInt32).toNat = 655340 ∧ (7 : UInt32).toNat = 7 ∧
      (2 : UInt32).toNat = 2 := ⟨rfl, rfl, rfl⟩
  have start : (e.config.updateMs * 7 / 2).toNat = e.config.updateMs.toNat * 7 / 2 := by
    rw [UInt32.toNat_div, UInt32.toNat_mul, literals.2.1, literals.2.2]
    omega
  have loop : ∀ (drops : List Drop) (longest : UInt32),
      (∀ drop ∈ drops, drop.used = true → drop.expires.toNat ≤ dropHorizon e) →
      longest.toNat ≤ 86400000 →
      let result := drops.foldl (fun longest drop =>
        if drop.used ∧ drop.expires > e.now ∧ drop.expires - e.now > longest.toUInt64 then
          (drop.expires - e.now).toUInt32
        else longest) longest
      longest.toNat ≤ result.toNat ∧
        (∀ drop ∈ drops, drop.used = true → drop.expires.toNat - e.now.toNat ≤ result.toNat) ∧
        result.toNat ≤ 86400000 := by
    intro drops
    induction drops with
    | nil => exact fun longest _ small => ⟨le_rfl, by simp, small⟩
    | cons drop rest ih =>
      intro longest bounded small
      have horizon := bounded drop (.head _)
      rw [dropHorizon] at horizon
      have difference : drop.expires > e.now →
          (drop.expires - e.now).toNat = drop.expires.toNat - e.now.toNat := fun later =>
        UInt64.toNat_sub_of_le _ _ (UInt64.le_of_lt later)
      simp only [foldl_cons]
      -- One entry: the longest lifetime so far covers it.
      have step : ∀ next : UInt32,
          next = (if drop.used ∧ drop.expires > e.now ∧
              drop.expires - e.now > longest.toUInt64 then (drop.expires - e.now).toUInt32
            else longest) →
          longest.toNat ≤ next.toNat ∧
            (drop.used = true → drop.expires.toNat - e.now.toNat ≤ next.toNat) ∧
            next.toNat ≤ 86400000 := by
        intro next chosen
        split at chosen
        next longer =>
          have value := difference longer.2.1
          have above := UInt64.lt_iff_toNat_lt.mp longer.2.2
          rw [UInt32.toNat_toUInt64, value] at above
          have bound := horizon longer.1
          rw [chosen, UInt64.toNat_toUInt32, value]
          omega
        rename_i shorter
        rw [chosen]
        refine ⟨le_rfl, fun used => ?_, small⟩
        by_cases later : drop.expires > e.now
        · simp only [used, later, true_and, gt_iff_lt, UInt64.not_lt,
            UInt64.le_iff_toNat_le, UInt32.toNat_toUInt64, difference later] at shorter
          exact shorter
        have earlier := UInt64.le_iff_toNat_le.mp (UInt64.not_lt.mp later)
        omega
      generalize chosen : (if drop.used ∧ drop.expires > e.now ∧
          drop.expires - e.now > longest.toUInt64 then (drop.expires - e.now).toUInt32
        else longest) = next
      obtain ⟨grown, covered, small'⟩ := step next chosen.symm
      rcases ih next (fun other mem => bounded other (.tail _ mem))
        small' with ⟨later, others, final⟩
      refine ⟨grown.trans later, ?_, final⟩
      intro other mem used
      obtain rfl | inRest := mem_cons.mp mem
      · exact (covered used).trans later
      exact others other inRest used
  have whole := loop e.drops (e.config.updateMs * 7 / 2)
    (fun drop mem used => (sound.drops.each drop mem used).expires) (by omega)
  rw [start] at whole
  exact whole

/-! ## What is saved -/

/-- A running engine has settled since its last event, or its table is empty. -/
lemma Reachable.settled (reachable : Reachable env e) (running : e.stopped = false) :
    Settled e ∨ e.routes = [] := by
  refine reachable.induct (fun e => e.stopped = false → Settled e ∨ e.routes = [])
    (fun _ start _ => .inr start.empty.routes) ?_ running
  intro e event sound holds running
  obtain ⟨quiet, _⟩ | ⟨_, _, _, _, accepted⟩ | halts := step_cases env e event
  · obtain settled | empty := holds (running_of_step running)
    · exact .inl (quiet.view.settled sound settled)
    exact .inr (quiet.view.routes.trans empty)
  · obtain ⟨_, _, changed⟩ := accepted.changed sound (eventOk_any env e event)
    rw [accepted.state] at running ⊢
    exact .inl (finish_settled changed.sound running)
  rw [halts.stopped] at running
  cases running

/-- The drops of a checkpoint: distinct valid prefixes, within the table. -/
lemma savedDrops_spec (reachable : Reachable env e) (running : e.stopped = false) :
    (savedDrops e).Nodup ∧ (∀ p ∈ savedDrops e, p.valid = true) ∧
      (savedDrops e).length ≤ env.limits.routes := by
  have sound := reachable.sound
  have routes : (e.routes.map (·.pfx)).Nodup := by simpa [SlotTable.keys] using sound.routes.distinct
  have drops := sound.drops.distinct
  refine ⟨?_, ?_, ?_⟩
  · rw [savedDrops, nodup_append]
    refine ⟨routes, List.Nodup.filter _ drops, ?_⟩
    intro p inRoutes q inDrops equal
    simp only [mem_filter, decide_eq_true_eq] at inDrops
    exact inDrops.2 (equal ▸ inRoutes)
  · intro p mem
    obtain inRoutes | inDrops := mem_append.mp mem
    · obtain ⟨route, inTable, rfl⟩ := mem_map.mp inRoutes
      exact (sound.routes.each route inTable rfl).valid
    obtain ⟨drop, inTable, rfl⟩ := mem_map.mp (mem_filter.mp inDrops).1
    rw [mem_filter] at inTable
    exact (sound.drops.each drop inTable.1 inTable.2).valid
  obtain settled | empty := reachable.settled running
  · have none : ((e.drops.filter Drop.used).map (·.pfx)).filter
        (fun p => p ∉ e.routes.map (·.pfx)) = [] := by
      apply filter_eq_nil_iff.mpr
      intro p inDrops
      obtain ⟨drop, inTable, rfl⟩ := mem_map.mp inDrops
      rw [mem_filter] at inTable
      have listed := (settled.drops drop inTable.1 inTable.2).2
      simpa using ⟨suppressedRoute drop.pfx, listed, rfl⟩
    rw [savedDrops, none, append_nil, length_map]
    exact sound.routes.length_le
  rw [savedDrops, empty, map_nil, nil_append]
  refine (length_filter_le _ _).trans ?_
  rw [length_map]
  exact (length_filter_le _ _).trans sound.drops.length_le

lemma length_savedSources (sound : Sound env provenance e) :
    (e.sources.filter Source.used).length ≤ env.limits.sources :=
  (length_filter_le _ _).trans sound.sources.length_le

/-! ## The configuration -/

def Initialises (config : Config) : Prop :=
  ∀ seqno, ∃ rng, wbInit { config with seqno := seqno } =
    some { config := { config with seqno := seqno }, seqno := seqno, rng := rng, ready := true }

variable {config : Config}

lemma initialises_of_wbInit (started : wbInit config = some e) : Initialises e.config := by
  intro seqno
  simp only [wbInit] at started
  split at started
  · cases started
  rename_i accepted
  split at started
  · cases started
  rename_i ranges
  cases started
  have defaults : withDefaults { withDefaults config with seqno := seqno } =
      { withDefaults config with seqno := seqno } := by
    simp only [withDefaults]
    congr 1 <;> split <;> simp_all
  have accepted' : ¬ ((withDefaults config).router = 0 ∨
      (withDefaults config).router = 0xffffffffffffffff ∨
      (withDefaults config).allocate ≠ (withDefaults config).deallocate) := accepted
  simp only [wbInit, defaults]
  rw [if_neg accepted', if_neg ranges]
  exact ⟨_, rfl⟩

lemma Reachable.initialises (reachable : Reachable env e) : Initialises e.config := by
  refine reachable.induct (fun e => Initialises e.config) ?_ ?_
  · intro start started
    obtain ⟨config, init⟩ | ⟨config, data, restored⟩ := started
    · exact initialises_of_wbInit init
    rw [wbRestore] at restored
    split at restored
    · cases restored
    split at restored
    · cases restored
    rename_i first init
    have same : start.config = first.config := by
      simp only at restored
      repeat' split at restored
      all_goals cases restored
      rfl
    rw [same]
    exact initialises_of_wbInit init
  intro e event sound holds
  rw [(step_spec sound (eventOk_any env e event)).2.config]
  exact holds

/-! ## Restoring a checkpoint -/

lemma reserveTable_total (grants : Grants env 0) {maximum count : Nat} (fits : count ≤ maximum)
    (empty : Slot) (heap : Heap) :
    ∃ slots heap', reserveTable env heap maximum count empty [] = (some slots, heap') := by
  have reservation : ∃ grown, (reserve env heap maximum ([] : List Slot).length count).1 =
      some grown := reserve_of_grants (grants.mono (Nat.zero_le _)) fits
  obtain ⟨capacity, reserved⟩ := reservation
  rw [reserveTable]
  generalize reserve env heap maximum ([] : List Slot).length count = outcome at reserved ⊢
  obtain ⟨_, heap'⟩ := outcome
  cases reserved
  exact ⟨_, _, rfl⟩

lemma mem_sources_of_free (empty : ∀ slot ∈ free, slot = {}) :
    (source ∈ sources ++ free ∧ source.used = true) ↔
      source ∈ sources ∧ source.used = true := by
  rw [mem_append]
  constructor
  · rintro ⟨mem | mem, used⟩
    · exact ⟨mem, used⟩
    rw [empty source mem] at used
    cases used
  exact fun both => ⟨.inl both.1, both.2⟩

variable {drops : List Drop}

lemma mem_drops_of_free (empty : ∀ slot ∈ free, slot = {}) {drop : Drop} :
    (drop ∈ drops ++ free ∧ drop.used = true) ↔
      drop ∈ drops ∧ drop.used = true := by
  rw [mem_append]
  constructor
  · rintro ⟨mem | mem, used⟩
    · exact ⟨mem, used⟩
    rw [empty drop mem] at used
    cases used
  exact fun both => ⟨.inl both.1, both.2⟩

structure Revived (e restored : Engine) : Prop where
  running : restored.stopped = false
  seqno : restored.seqno = e.seqno
  lastLink : restored.lastLink = e.lastLink
  sources : ∀ p router seqno metric,
    (∃ source ∈ restored.sources, source.used = true ∧ source.pfx = p ∧ source.router = router ∧
      source.seqno = seqno ∧ source.metric = metric) ↔
    ∃ source ∈ e.sources, source.used = true ∧ source.pfx = p ∧ source.router = router ∧
      source.seqno = seqno ∧ source.metric = metric
  drops : ∀ p, (∃ drop ∈ restored.drops, drop.used = true ∧ drop.pfx = p) ↔
    (∃ route ∈ e.routes, route.pfx = p) ∨ ∃ drop ∈ e.drops, drop.used = true ∧ drop.pfx = p
  lifetimes : ∀ drop ∈ restored.drops, drop.used = true →
    restored.now.toNat + e.config.updateMs.toNat * 7 / 2 ≤ drop.expires.toNat ∧
      ∀ old ∈ e.drops, old.used = true →
        old.expires.toNat - e.now.toNat ≤ drop.expires.toNat - restored.now.toNat

lemma mem_savedDrops : p ∈ savedDrops e ↔
    (∃ route ∈ e.routes, route.pfx = p) ∨ ∃ drop ∈ e.drops, drop.used = true ∧ drop.pfx = p := by
  simp only [savedDrops, mem_append, mem_filter, mem_map, decide_eq_true_eq]
  constructor
  · rintro (route | ⟨⟨drop, both, samePfx⟩, _⟩)
    · exact .inl route
    exact .inr ⟨drop, both.1, both.2, samePfx⟩
  rintro (route | ⟨drop, mem, used, samePfx⟩)
  · exact .inl route
  by_cases listed : ∃ route ∈ e.routes, route.pfx = p
  · exact .inl listed
  exact .inr ⟨⟨drop, ⟨mem, used⟩, samePfx⟩, listed⟩

variable {data : List UInt8}

/-- With memory, `wb_restore` fails only on what it reads. -/
lemma wbRestore_of_read (grants : Grants env 0) (header : headerRefused env config data = false)
    (started : wbInit (restoredConfig config data) = some e)
    (readSources : restoreSources e.config.sourceMs.toUInt64 (data.drop 40)
      (u16 (data.drop 22)).toNat [] = some sources)
    (readDrops : restoreDrops (restoredDropMs e.config data).toUInt64
      ((data.drop 40).drop ((u16 (data.drop 22)).toNat * sourceSize))
      (u16 (data.drop 24)).toNat [] = some drops) :
    ∃ heap freeSources freeDrops, (∀ slot ∈ freeSources, slot = ({} : Source)) ∧
      (∀ slot ∈ freeDrops, slot = ({} : Drop)) ∧ wbRestore env config data = (.ok, some { e with
          heap := heap, lastLink := u64 (data.drop 14), sources := sources ++ freeSources
          drops := drops ++ freeDrops }) := by
  have counts : (u16 (data.drop 22)).toNat ≤ env.limits.sources ∧
      (u16 (data.drop 24)).toNat ≤ env.limits.routes := by
    simp only [headerRefused, decide_eq_false_iff_not, not_or, not_lt, gt_iff_lt] at header
    exact ⟨header.2.2.2.2.1, header.2.2.2.2.2.1⟩
  rcases reserveTable_total grants counts.1 ({} : Source) e.heap with
    ⟨sourceSlots, heap, reservedSources⟩
  rcases reserveTable_total grants counts.2 ({} : Drop) heap with
    ⟨dropSlots, heap', reservedDrops⟩
  refine ⟨heap', sourceSlots.drop (u16 (data.drop 22)).toNat,
    dropSlots.drop (u16 (data.drop 24)).toNat, ?_, ?_, ?_⟩
  · exact fun slot mem => (reserveTable_nil reservedSources).1 slot (mem_of_mem_drop mem)
  · exact fun slot mem => (reserveTable_nil reservedDrops).1 slot (mem_of_mem_drop mem)
  rw [wbRestore, header]
  simp only [Bool.false_eq_true, if_false, started, reservedSources, reservedDrops, readSources,
    readDrops]

lemma savedCounts (reachable : Reachable env e) (running : e.stopped = false) :
    (u16 ((checkpoint e).drop 22)).toNat = (e.sources.filter Source.used).length ∧
      (u16 ((checkpoint e).drop 24)).toNat = (savedDrops e).length := by
  have header := headerOf_checkpoint e
  have fewSources := length_savedSources reachable.sound
  have fewDrops := (savedDrops_spec reachable running).2.2
  constructor
  · rw [header.sources, UInt16.toNat_ofNat']
    exact Nat.mod_eq_of_lt (fewSources.trans_lt (Nat.lt_succ_of_le env.limits.sources_le))
  rw [header.drops, UInt16.toNat_ofNat']
  exact Nat.mod_eq_of_lt (fewDrops.trans_lt (Nat.lt_succ_of_le env.limits.routes_le))

lemma headerRefused_checkpoint (reachable : Reachable env e) (running : e.stopped = false) :
    headerRefused env e.config (checkpoint e) = false := by
  have config := reachable.sound.config
  have header := headerOf_checkpoint e
  have lifetimes := savedDropMs_spec reachable.sound
  have counts := savedCounts reachable running
  have fewSources := length_savedSources reachable.sound
  have fewDrops := (savedDrops_spec reachable running).2.2
  have size := length_checkpoint e
  have updateMin := UInt32.le_iff_toNat_le.mp config.updateMin
  have literals : (100 : UInt32).toNat = 100 ∧ (0 : UInt32).toNat = 0 ∧
      (86400000 : UInt32).toNat = 86400000 := ⟨rfl, rfl, rfl⟩
  simp only [headerRefused, decide_eq_false_iff_not, not_or, not_lt, not_not, gt_iff_lt,
    UInt32.not_lt]
  refine ⟨by omega, header.magic, header.router, header.reserved, by omega, by omega,
    by rw [counts.1, counts.2, size], ?_, ?_, ?_, ?_⟩
  · rw [header.sourceMs]
    exact config.sourceMin
  · rw [header.sourceMs]
    exact config.sourceMax
  · rw [header.dropMs]
    intro zero
    rw [zero] at lifetimes
    omega
  rw [header.dropMs, UInt32.le_iff_toNat_le]
  omega

lemma toNat_restoredDropMs (ok : ConfigOk config) (data : List UInt8) :
    config.updateMs.toNat * 7 / 2 ≤ (restoredDropMs config data).toUInt64.toNat ∧
      (getU32 (data.drop 30)).toNat ≤ (restoredDropMs config data).toUInt64.toNat := by
  have upper := UInt32.le_iff_toNat_le.mp ok.updateMax
  have literals : (655340 : UInt32).toNat = 655340 ∧ (7 : UInt32).toNat = 7 ∧
      (2 : UInt32).toNat = 2 := ⟨rfl, rfl, rfl⟩
  have value : (config.updateMs * 7 / 2).toNat = config.updateMs.toNat * 7 / 2 := by
    rw [UInt32.toNat_div, UInt32.toNat_mul, literals.2.1, literals.2.2]
    omega
  rw [UInt32.toNat_toUInt64, restoredDropMs]
  split
  next longer =>
    have above := UInt32.lt_iff_toNat_lt.mp longer
    omega
  rename_i shorter
  have below := UInt32.le_iff_toNat_le.mp (UInt32.not_lt.mp shorter)
  omega

lemma wbRestore_checkpoint (reachable : Reachable env e) (running : e.stopped = false)
    (limits : env'.limits = env.limits) (grants : Grants env' 0) :
    ∃ restored, wbRestore env' e.config (checkpoint e) = (.ok, some restored) ∧
      Revived e restored := by
  have sound := reachable.sound
  have header := headerOf_checkpoint e
  have counts := savedCounts reachable running
  have lifetimes := savedDropMs_spec sound
  obtain ⟨distinctDrops, validDrops, _⟩ := savedDrops_spec reachable running
  have accepted : headerRefused env' e.config (checkpoint e) = false := by
    rw [headerRefused, limits]
    exact headerRefused_checkpoint reachable running
  have config : restoredConfig e.config (checkpoint e) = { e.config with seqno := e.seqno } := by
    rw [restoredConfig, header.seqno, header.sourceMs, if_neg (UInt32.lt_irrefl _)]
  obtain ⟨rng, started⟩ := reachable.initialises e.seqno
  rw [← config] at started
  have okSources : ∀ source ∈ e.sources.filter Source.used, source.pfx.valid = true ∧
      RouterOk source.router ∧ source.metric ≠ infinity := by
    intro source mem
    rw [mem_filter] at mem
    have ok := sound.sources.each source mem.1 mem.2
    exact ⟨ok.valid, ok.routerOk, ok.finite⟩
  have readSources := restoreSources_saved e.config.sourceMs.toUInt64 okSources
    (show ((([] : List Source) ++ e.sources.filter Source.used).map fun source =>
      (source.pfx, source.router)).Nodup from sound.sources.distinct)
    ((savedDrops e).flatMap putPrefix)
  rw [← header.body, ← counts.1] at readSources
  have rest : ((checkpoint e).drop 40).drop
      ((u16 ((checkpoint e).drop 22)).toNat * sourceSize) = (savedDrops e).flatMap putPrefix := by
    rw [header.body, counts.1, drop_left' (length_flatMap_of_const length_putSource _)]
  have readDrops := restoreDrops_saved
    (restoredDropMs { e.config with seqno := e.seqno } (checkpoint e)).toUInt64 validDrops
    (show (([] : List Drop).map (·.pfx) ++ savedDrops e).Nodup from distinctDrops) []
  rw [append_nil, ← rest, ← counts.2] at readDrops
  rcases wbRestore_of_read grants accepted started (by rw [config]; exact readSources)
    (by rw [config]; exact readDrops) with ⟨heap, freeSources, freeDrops, noSources, noDrops, result⟩
  refine ⟨_, result, rfl, rfl, header.lastLink, ?_, ?_, ?_⟩
  · intro p router seqno metric
    constructor
    · rintro ⟨source, mem, used, fields⟩
      have kept := ((mem_sources_of_free noSources).mp ⟨mem, used⟩).1
      obtain ⟨old, inTable, rfl⟩ := mem_map.mp kept
      rw [mem_filter] at inTable
      exact ⟨old, inTable.1, inTable.2, fields⟩
    rintro ⟨source, mem, used, fields⟩
    refine ⟨source.restored e.config.sourceMs.toUInt64, mem_append_left _ ?_, rfl, fields⟩
    exact mem_map_of_mem (mem_filter.mpr ⟨mem, used⟩)
  · intro p
    rw [← mem_savedDrops]
    constructor
    · rintro ⟨drop, mem, used, samePfx⟩
      have kept := ((mem_drops_of_free noDrops).mp ⟨mem, used⟩).1
      obtain ⟨q, inTable, rfl⟩ := mem_map.mp kept
      rw [← samePfx]
      exact inTable
    intro saved
    exact ⟨_, mem_append_left _ (mem_map_of_mem saved), rfl, rfl⟩
  intro drop mem used
  have kept := ((mem_drops_of_free noDrops).mp ⟨mem, used⟩).1
  obtain ⟨q, _, rfl⟩ := mem_map.mp kept
  have same : ConfigOk { e.config with seqno := e.seqno } := { sound.config with }
  have bounds := toNat_restoredDropMs same (checkpoint e)
  rw [header.dropMs] at bounds
  refine ⟨by simpa using bounds.1, fun old inTable oldUsed => ?_⟩
  simpa using (lifetimes.2.1 old inTable oldUsed).trans bounds.2

/-! ## What is accepted -/

def recordPrefix (data : List UInt8) : Prefix :=
  { bytes := Octets.ofList 16 (data.take 16), bits := data.getD 16 0, family := data.getD 17 0 }

def sourceRecord (data : List UInt8) : Source :=
  { pfx := recordPrefix data, router := u64 (data.drop 18), seqno := u16 (data.drop 26)
    metric := u16 (data.drop 28) }

def sourceRecords (data : List UInt8) : List Source :=
  (List.range (u16 (data.drop 22)).toNat).map fun index =>
    sourceRecord ((data.drop 40).drop (index * sourceSize))

def dropRecords (data : List UInt8) : List Prefix :=
  (List.range (u16 (data.drop 24)).toNat).map fun index =>
    recordPrefix (((data.drop 40).drop ((u16 (data.drop 22)).toNat * sourceSize)).drop
      (index * dropSize))

lemma getPrefix_some {p : Prefix} (read : getPrefix data = some p) : p = recordPrefix data := by
  simp only [getPrefix] at read
  split at read
  · cases read
    rfl
  cases read

lemma map_range_drop {Item : Type} (read : List UInt8 → Item) (size count : Nat)
    (data : List UInt8) :
    (List.range (count + 1)).map (fun index => read (data.drop (index * size))) = read data ::
        (List.range count).map fun index => read ((data.drop size).drop (index * size)) := by
  rw [range_succ_eq_map, map_cons, map_map]
  congr 1
  · simp
  apply map_congr_left
  intro index _
  simp only [Function.comp_apply, drop_drop]
  congr 2
  rw [Nat.succ_mul]
  omega

lemma restoreSources_records {lifetime : UInt64} {count : Nat} {read : List Source}
    (restored : restoreSources lifetime data count read = some sources) :
    sources = read ++ ((List.range count).map fun index =>
      sourceRecord (data.drop (index * sourceSize))).map (Source.restored lifetime) := by
  induction count generalizing data read with
  | zero =>
    cases restored
    simp
  | succ count ih =>
    rw [restoreSources] at restored
    split at restored
    · cases restored
    rename_i p prefixRead
    simp only at restored
    split at restored
    · cases restored
    split at restored
    · cases restored
    rw [ih restored, map_range_drop, map_cons, getPrefix_some prefixRead]
    simp [Source.restored, sourceRecord]

lemma restoreDrops_records {lifetime : UInt64} {count : Nat} {read : List Drop}
    (restored : restoreDrops lifetime data count read = some drops) :
    drops = read ++ ((List.range count).map fun index =>
      recordPrefix (data.drop (index * dropSize))).map
        fun p => { pfx := p, used := true, expires := lifetime } := by
  induction count generalizing data read with
  | zero =>
    cases restored
    simp
  | succ count ih =>
    rw [restoreDrops] at restored
    split at restored
    · cases restored
    rename_i p prefixRead
    split at restored
    · cases restored
    rw [ih restored, map_range_drop, map_cons, getPrefix_some prefixRead]
    simp

structure WellFormed (data : List UInt8) : Prop where
  length : data.length = 40 + (sourceRecords data).length * sourceSize +
    (dropRecords data).length * dropSize
  sources : ∀ source ∈ sourceRecords data,
    source.pfx.valid = true ∧ RouterOk source.router ∧ source.metric ≠ infinity
  uniqueSources : ((sourceRecords data).map fun source => (source.pfx, source.router)).Nodup
  drops : ∀ p ∈ dropRecords data, p.valid = true
  uniqueDrops : (dropRecords data).Nodup

lemma Restored.wellFormed (restored : Restored env config data e) : WellFormed data := by
  have header := restored.header
  simp only [headerRefused, decide_eq_false_iff_not, not_or, not_not] at header
  rcases restored.result with ⟨rng, heap, sources, drops, freeSources, freeDrops, rfl,
    readSources, readDrops, emptySources, emptyDrops, sourceRoom, dropRoom⟩
  have sourceFacts := restoreSources_spec env.limits.sources
    (withDefaults (restoredConfig config data)).router Proper.nil (by simp)
    (by simpa using by omega) readSources
  have dropFacts := restoreDrops_spec env.limits.routes Proper.nil (by simp)
    (by simpa using by omega) readDrops
  have sourceList := restoreSources_records readSources
  have dropList := restoreDrops_records readDrops
  rw [nil_append, ← sourceRecords] at sourceList
  rw [nil_append, ← dropRecords] at dropList
  generalize (withDefaults (restoredConfig config data)).sourceMs.toUInt64 = lifetime at *
  generalize (restoredDropMs (withDefaults (restoredConfig config data)) data).toUInt64 =
    dropLifetime at *
  subst sourceList dropList
  refine ⟨?_, ?_, ?_, ?_, ?_⟩
  · simpa [sourceRecords, dropRecords] using header.2.2.2.2.2.2.1
  · intro source mem
    have ok := sourceFacts.1.each (source.restored lifetime) (mem_map_of_mem mem) rfl
    exact ⟨ok.valid, ok.routerOk, ok.finite⟩
  · have distinct := sourceFacts.1.distinct
    rw [SlotTable.keys, filter_eq_self.mpr sourceFacts.2.1, map_map] at distinct
    exact distinct
  · intro p mem
    exact (dropFacts.1.each { pfx := p, used := true, expires := dropLifetime }
      (mem_map_of_mem mem) rfl).valid
  have distinct := dropFacts.1.distinct
  rw [SlotTable.keys, filter_eq_self.mpr dropFacts.2.1, map_map] at distinct
  exact List.Nodup.of_map _ distinct

lemma wbRestore_none {status : Status}
    (restored : wbRestore env config data = (status, none)) : status = .invalid := by
  rw [wbRestore] at restored
  split at restored
  · cases restored
    rfl
  split at restored
  · cases restored
    rfl
  simp only at restored
  split at restored
  · cases restored
  split at restored
  · cases restored
  split at restored
  · cases restored
  split at restored <;> cases restored

/-! ## The round trip -/

/-- The checkpoint of a running engine has the size that `wb_save` announces, and
restoring it revives the engine. Conversely only well formed byte strings are
accepted. -/
theorem checkpoint_round_trip :
    (∀ (env env' : Env) (e : Engine), Reachable env e → e.stopped = false →
      env'.limits = env.limits → Grants env' 0 →
      (∃ size, wbSaveSize env e = .ok size ∧ size ≤ historyMax env ∧ ∀ capacity, size ≤ capacity →
          wbSave env e capacity = .ok (checkpoint e) ∧ (checkpoint e).length = size) ∧
      ∃ restored, wbRestore env' e.config (checkpoint e) = (.ok, some restored) ∧
        Revived e restored) ∧ ∀ (env : Env) (config : Config) (data : List UInt8),
      (wbRestore env config data).1 = .ok → WellFormed data := by
  refine ⟨fun env env' e reachable running limits grants => ⟨?_, ?_⟩, ?_⟩
  · have size := length_checkpoint e
    have fewSources := length_savedSources reachable.sound
    have fewDrops := (savedDrops_spec reachable running).2.2
    have fits : savedDropsFull env e = false := by
      simp only [savedDropsFull, Bool.and_eq_false_iff, decide_eq_false_iff_not]
      omega
    refine ⟨_, by rw [wbSaveSize, running, fits]; rfl, ?_, fun capacity room => ⟨?_, size⟩⟩
    · rw [historyMax]
      have sources := Nat.mul_le_mul_right sourceSize fewSources
      have drops := Nat.mul_le_mul_right dropSize fewDrops
      omega
    rw [wbSave, running, fits, if_neg, if_neg]
    · rw [size]
      simpa using room
    simp only [Bool.false_eq_true, false_or, not_lt]
    omega
  · exact wbRestore_checkpoint reachable running limits grants
  intro env config data accepted
  cases outcome : wbRestore env config data with
  | mk status restored =>
    rw [outcome] at accepted
    cases accepted
    cases restored with
    | none => cases wbRestore_none outcome
    | some e => exact (wbRestore_ok outcome).wellFormed

/-- The engine that has learned the block can be restored. -/
theorem checkpoint_round_trip_learned : (checkpoint learned).length = 88 ∧
      ∃ restored, wbRestore willing learned.config (checkpoint learned) = (.ok, some restored) ∧
        Revived learned restored :=
  ⟨by rw [length_checkpoint]; decide, (checkpoint_round_trip.1 willing willing learned learned_reachable (by decide) rfl
    fun _ _ => rfl).2⟩

end WendyLite.Babel
