import WendyLite.Babel.Sound

/-! # Output keeps an engine sound

Queueing, advertising, dumping and requesting. These functions change only the
output of an event: the queue, the source entries that back it, the pending
requests, and the random and accounting state.
-/

namespace WendyLite.Babel

open SlotTable List

variable {env : Env} {provenance : Provenance} {e e' e'' : Engine}

structure OutputOnly (e e' : Engine) : Prop where
  config : e'.config = e.config
  now : e'.now = e.now
  seqno : e'.seqno = e.seqno
  lastLink : e'.lastLink = e.lastLink
  stopped : e'.stopped = e.stopped
  links : e'.links = e.links
  candidates : e'.candidates = e.candidates
  locals : e'.locals = e.locals
  drops : e'.drops = e.drops
  routes : e'.routes = e.routes
  before : e'.before = e.before

namespace OutputOnly

lemma refl (e : Engine) : OutputOnly e e := by
  constructor <;> rfl

lemma trans (first : OutputOnly e e') (second : OutputOnly e' e'') : OutputOnly e e'' where
  config := second.config.trans first.config
  now := second.now.trans first.now
  seqno := second.seqno.trans first.seqno
  lastLink := second.lastLink.trans first.lastLink
  stopped := second.stopped.trans first.stopped
  links := second.links.trans first.links
  candidates := second.candidates.trans first.candidates
  locals := second.locals.trans first.locals
  drops := second.drops.trans first.drops
  routes := second.routes.trans first.routes
  before := second.before.trans first.before

lemma foldl {Item : Type} (body : Engine → Item → Engine) (items : List Item)
    (step : ∀ state item, OutputOnly state (body state item)) : OutputOnly e (items.foldl body e) :=
  foldlRecOn items body (refl e) fun state same item _ => same.trans (step state item)

end OutputOnly

/-! ## The queue -/

lemma queue_outputOnly (env : Env) (e : Engine) (id : UInt64) (m : Message)
    (basis : Option (Route × Source)) : OutputOnly e (queue env e id m basis) := by
  rw [queue]
  split
  · exact OutputOnly.refl e
  split
  · constructor <;> rfl
  split <;> constructor <;> rfl

variable {m : Message} {id : UInt64}

lemma queue_keeps (sound : Sound env provenance e) (nonzero : id ≠ 0)
    (sendable : Sendable m) (backed : m.announces → ∃ route source, basis = some (route, source) ∧
      Backed provenance e.config.router (sourceHorizon e) e.sources m route source) :
    Keeps env provenance e (queue env e id m basis) := by
  have asked := requests_le_reserve env e.heap env.limits.messages e.messagesCapacity
    (e.messages.length + 1)
  rw [queue]
  split
  · exact Keeps.refl sound
  rename_i present
  split
  · exact ⟨{ sound with }, .of_same rfl⟩
  split
  next heap reserved =>
    rw [reserved] at asked
    exact ⟨{ sound with }, .of_sources_eq rfl rfl rfl asked rfl⟩
  rename_i capacity heap reserved
  rw [reserved] at asked
  refine ⟨{ sound with messages := ?_, cursor := ?_ }, .of_sources_eq rfl rfl rfl asked rfl⟩
  · refine forall_mem_append.mpr ⟨sound.messages, forall_mem_singleton.mpr ?_⟩
    rw [Option.isNone_iff_eq_none, ← ne_eq, Option.ne_none_iff_exists'] at present
    obtain ⟨link, found⟩ := present
    have located := linkFor_some found
    exact ⟨⟨nonzero, link, located⟩, sendable, backed⟩
  rw [length_append]
  exact sound.cursor.trans (Nat.le_add_right _ _)

lemma queue_plain_keeps (sound : Sound env provenance e) (nonzero : id ≠ 0)
    (sendable : Sendable m) (plain : ¬m.announces) : Keeps env provenance e (queue env e id m) :=
  queue_keeps sound nonzero sendable fun announces => absurd announces plain

/-! ## Source entries -/

/-- A queued message stays backed while source entries are only improved. -/
lemma QueuedOk.mono (ok : QueuedOk provenance router horizon links sources queued)
    (ids : ∀ link ∈ links, link.config.id ≠ 0 → ∃ link' ∈ links', link'.config.id = link.config.id)
    (evolved : SourcesEvolve (provenance.records router) sources sources') :
    QueuedOk provenance router horizon links' sources' queued where
  link := by
    obtain ⟨nonzero, link, mem, id⟩ := ok.link
    obtain ⟨link', member', id'⟩ := ids link mem (id ▸ nonzero)
    exact ⟨nonzero, link', member', id'.trans id⟩
  sendable := ok.sendable
  backed announces := by
    obtain ⟨route, source, basis, backed⟩ := ok.backed announces
    refine ⟨route, source, basis, { backed with current := ?_ }⟩
    obtain ⟨now, mem, renewed⟩ := backed.current
    obtain ⟨now', member', renewed'⟩ := evolved now mem renewed.used
    exact ⟨now', member', renewed.trans renewed'⟩

/-- Writing a source entry to a free slot or over the entry it improves. -/
private theorem setSource_keeps (sound : Sound env provenance e) {sources : List Source}
    (same : sources.filter Source.used = e.sources.filter Source.used)
    (short : sources.length ≤ env.limits.sources) {heap : Heap}
    (asked : e.heap.requests ≤ heap.requests) {slot : Nat} {old source : Source}
    (located : sources[slot]? = some old) 
    (ok : SourceOk provenance e.config.router (sourceHorizon e) source) (place : (old.used = false ∧
        (source.pfx, source.router) ∉
          keys Source.used (fun source => (source.pfx, source.router)) e.sources) ∨
      (old.used = true ∧ Renewed (provenance.records e.config.router) old source))
    (used : source.used = true)
    (learned : ∀ route ∈ e.routes, route.pfx = source.pfx → route.router = source.router →
      ∀ advertised, advertised < route.metric →
        (old.used = true → Distance.better ⟨route.seqno, advertised⟩ old.distance = true) →
        Distance.better ⟨route.seqno, advertised⟩ source.distance = true) :
    Keeps env provenance e { e with heap := heap, sources := sources.set slot source } := by
  have mem : ∀ other, other.used = true → (other ∈ sources ↔ other ∈ e.sources) :=
    fun other alive => mem_live_of_filter_eq same alive
  have evolves : Evolves provenance e
      { e with heap := heap, sources := sources.set slot source } := by
    refine ⟨rfl, rfl, rfl, asked, ?_⟩
    intro other inTable alive
    by_cases overwritten : other = old
    · subst overwritten
      obtain ⟨free, _⟩ | ⟨_, renewed⟩ := place
      · rw [alive] at free
        cases free
      exact ⟨source, mem_set_self located, renewed⟩
    exact ⟨other, mem_set_of_ne located ((mem other alive).mpr inTable) overwritten,
      Renewed.refl alive⟩
  refine ⟨{ sound with sources := ?_, routes := ?_, messages := ?_ }, evolves⟩
  · refine (sound.sources.of_filter_eq same short).set located (fun _ => ok) fun _ => ?_
    obtain ⟨_, fresh⟩ | ⟨alive, renewed⟩ := place
    · rw [SlotTable.keys, same]
      exact .inl fresh
    exact .inr ⟨alive, by rw [renewed.pfx, renewed.router]⟩
  · refine { sound.routes with each := ?_ }
    intro route inTable alive
    have routeOk := sound.routes.each route inTable alive
    refine { routeOk with learned := ?_ }
    intro reachable foreign
    obtain ⟨router, link, advertised, below, heard, better⟩ := routeOk.learned reachable foreign
    refine ⟨router, link, advertised, below, heard, ?_⟩
    intro other inSources alive samePfx sameRouter
    obtain before | rfl := mem_or_eq_of_mem_set inSources
    · exact better other ((mem other alive).mp before) alive samePfx sameRouter
    apply learned route inTable samePfx.symm sameRouter.symm advertised below
    intro oldAlive
    obtain ⟨free, _⟩ | ⟨_, renewed⟩ := place
    · rw [oldAlive] at free
      cases free
    exact better old ((mem old oldAlive).mp (mem_of_getElem? located)) oldAlive
      (renewed.pfx.symm.trans samePfx) (renewed.router.symm.trans sameRouter)
  intro queued inQueue
  exact (sound.messages queued inQueue).mono (fun link inTable _ => ⟨link, inTable, rfl⟩)
    evolves.sources

lemma toNat_lastTime : lastTime.toNat = 18446744073536751615 := by decide

lemma Sound.toNat_expiry (sound : Sound env provenance e) :
    (e.now + e.config.sourceMs.toUInt64).toNat = sourceHorizon e := by
  have clock := UInt64.le_iff_toNat_le.mp sound.clock
  have lifetime := UInt32.le_iff_toNat_le.mp sound.config.sourceMax
  have literal : (86400000 : UInt32).toNat = 86400000 := rfl
  rw [toNat_lastTime] at clock
  rw [sourceHorizon, UInt64.toNat_add, UInt32.toNat_toUInt64]
  omega

lemma Sound.route_eq (sound : Sound env provenance e) (mem : route ∈ e.routes)
    (otherMember : other ∈ e.routes) (equal : route.pfx = other.pfx) : route = other :=
  eq_of_key_eq sound.routes.distinct mem otherMember rfl rfl equal

structure Recorded (e e' : Engine) (route : Route) (source : Source) : Prop where
  member : source ∈ e'.sources
  used : source.used = true
  pfx : source.pfx = route.pfx
  router : source.router = route.router
  expires : source.expires = e.now + e.config.sourceMs.toUInt64
  covers : route.isLocal = false →
    source.distance = route.distance ∨ source.distance.better route.distance = true

private lemma refreshSource_ok (sound : Sound env provenance e) (finite : route.metric ≠ infinity)
    (valid : source.pfx.valid = true) (routerOk : RouterOk source.router)
    (sourceFinite : source.metric ≠ infinity)
    (advertised : provenance.records e.config.router source.pfx source.router route.seqno)
    (recorded : provenance.records e.config.router source.pfx source.router source.seqno) :
    SourceOk provenance e.config.router (sourceHorizon e) (refreshSource e route source) where
  valid := by simpa using valid
  routerOk := by simpa using routerOk
  finite := by
    have metric := congrArg Distance.metric (refreshSource_distance e route source)
    intro infinite
    rw [show (refreshSource e route source).distance.metric = infinity from infinite] at metric
    split at metric
    · exact finite metric.symm
    exact sourceFinite metric.symm
  expires := by rw [refreshSource_expires, sound.toNat_expiry]
  recorded := by
    have seqno := congrArg Distance.seqno (refreshSource_distance e route source)
    rw [refreshSource_pfx, refreshSource_router,
      show (refreshSource e route source).seqno = _ from seqno]
    split
    · exact advertised
    exact recorded

section RecordSource

variable {p : Prefix} {route : Route}

private lemma recordSource_found (sound : Sound env provenance e)
    (found : routeFor e p = some route) (reachable : route.unreachable = false)
    (located : e.sources[slot]? = some old) (used : old.used = true) (pfx : old.pfx = p)
    (router : old.router = route.router) :
    Keeps env provenance e { e with sources := e.sources.set slot (refreshSource e route old) } ∧
      Recorded e { e with sources := e.sources.set slot (refreshSource e route old) } route
        (refreshSource e route old) := by
  have ⟨inTable, samePfx⟩ := routeFor_some found
  have routeOk := sound.routes.each route inTable rfl
  have oldMember := mem_of_getElem? located
  have oldOk := sound.sources.each old oldMember used
  have advertised := routeOk.records reachable
  rw [samePfx, ← pfx, ← router] at advertised
  constructor
  · apply setSource_keeps sound rfl sound.sources.length_le le_rfl located
    · exact refreshSource_ok sound (routeOk.reachable reachable).1 oldOk.valid oldOk.routerOk
        oldOk.finite advertised oldOk.recorded
    · refine .inr ⟨used, by simpa using used, by simp, by simp,
        refreshSource_improves e advertised old, ?_⟩
      rw [UInt64.le_iff_toNat_le, refreshSource_expires, sound.toNat_expiry]
      exact oldOk.expires
    · simpa using used
    -- The table has one route for the prefix, so only its announcement matters.
    intro other mem otherPfx _ advertised below better
    rw [refreshSource_pfx, pfx, ← samePfx] at otherPfx
    rw [sound.route_eq mem inTable otherPfx] at better below ⊢
    exact better_refreshSource below (better used)
  refine ⟨mem_set_self located, by simpa using used, by simp [pfx, samePfx],
    by simp [router], rfl, ?_⟩
  intro foreign
  obtain ⟨_, _, advertised, _, _, better⟩ := routeOk.learned reachable foreign
  exact refreshSource_covers (better old oldMember used (pfx.trans samePfx.symm) router)

private lemma recordSource_fresh (sound : Sound env provenance e)
    (found : routeFor e p = some route) (reachable : route.unreachable = false)
    (fresh : (p, route.router) ∉
      keys Source.used (fun source => (source.pfx, source.router)) e.sources)
    {slot : Nat} {sources : List Source} {heap : Heap} {source : Source}
    (acquired : acquire env e.heap env.limits.sources Source.used {} e.sources =
      (some (slot, sources), heap)) (written : source = refreshSource e route
      { used := true, pfx := p, router := route.router, seqno := route.seqno
        metric := route.metric }) :
    Keeps env provenance e { e with heap := heap, sources := sources.set slot source } ∧
      Recorded e { e with heap := heap, sources := sources.set slot source } route source := by
  have ⟨inTable, samePfx⟩ := routeFor_some found
  have routeOk := sound.routes.each route inTable rfl
  have usable := routeOk.reachable reachable
  have asked := requests_le_acquire env e.heap env.limits.sources Source.used {} e.sources
  rw [acquired] at asked
  obtain ⟨⟨old, located, free⟩, same, short⟩ := acquire_some rfl acquired
  have distance : source.distance = route.distance := written ▸ refreshSource_fresh e p route
  have advertised := samePfx ▸ routeOk.records reachable
  subst written
  constructor
  · apply setSource_keeps sound same (short sound.sources.length_le) asked located
    · exact refreshSource_ok sound usable.1 (samePfx ▸ routeOk.valid) usable.2 usable.1
        advertised advertised
    · exact .inl ⟨free, by simpa using fresh⟩
    · simp
    intro other mem otherPfx _ advertised below _
    rw [refreshSource_pfx, ← samePfx] at otherPfx
    rw [sound.route_eq mem inTable otherPfx] at below ⊢
    rw [distance]
    exact Distance.better_of_lt rfl below
  exact ⟨mem_set_self located, by simp, by simp [samePfx], by simp, rfl, fun _ => .inl distance⟩

lemma recordSource_outputOnly (env : Env) (e : Engine) (p : Prefix) (route : Route) :
    OutputOnly e (recordSource env e p route).2 := by
  rw [recordSource]
  split
  · constructor <;> rfl
  split <;> constructor <;> rfl

lemma recordSource_spec (sound : Sound env provenance e)
    (found : routeFor e p = some route) (reachable : route.unreachable = false) :
    Keeps env provenance e (recordSource env e p route).2 ∧
      ∀ source, (recordSource env e p route).1 = some source →
        Recorded e (recordSource env e p route).2 route source := by
  rw [recordSource]
  split
  next slot foundSlot =>
    obtain ⟨old, located, accepted⟩ := located_of_findIdx? foundSlot
    simp only [Bool.and_eq_true, beq_iff_eq] at accepted
    have value : e.sources.getD slot {} = old := by
      rw [getD_eq_getElem?_getD, located, Option.getD_some]
    have outcome := recordSource_found sound found reachable located accepted.1.1 accepted.2
      accepted.1.2
    rw [value]
    exact ⟨outcome.1, fun _ equal => Option.some.inj equal ▸ outcome.2⟩
  rename_i absent
  have fresh : (p, route.router) ∉
      keys Source.used (fun source => (source.pfx, source.router)) e.sources := by
    intro present
    obtain ⟨other, mem, used, key⟩ := mem_keys.mp present
    have rejected := findIdx?_eq_none_iff.mp absent other mem
    simp only [Prod.mk.injEq] at key
    simp [used, key.1, key.2] at rejected
  split
  next heap refused =>
    have asked := requests_le_acquire env e.heap env.limits.sources Source.used {} e.sources
    rw [refused] at asked
    refine ⟨⟨{ sound with }, .of_sources_eq rfl rfl rfl asked rfl⟩, ?_⟩
    rintro _ ⟨⟩
  rename_i slot sources heap acquired
  have outcome := recordSource_fresh sound found reachable fresh acquired rfl
  exact ⟨outcome.1, fun _ equal => Option.some.inj equal ▸ outcome.2⟩

end RecordSource

/-! ## Advertisements -/

lemma ConfigOk.updateInterval_ne_zero (ok : ConfigOk config) :
    (config.updateMs / 10).toUInt16 ≠ 0 := by
  have lower := UInt32.le_iff_toNat_le.mp ok.updateMin
  have upper := UInt32.le_iff_toNat_le.mp ok.updateMax
  have literals : (100 : UInt32).toNat = 100 ∧ (655340 : UInt32).toNat = 655340 ∧
      (10 : UInt32).toNat = 10 := ⟨rfl, rfl, rfl⟩
  intro zero
  have value := congrArg UInt16.toNat zero
  rw [UInt32.toNat_toUInt16, UInt32.toNat_div] at value
  have none : (0 : UInt16).toNat = 0 := rfl
  rw [literals.2.2] at value
  omega

lemma sendable_retraction (config : ConfigOk e.config) (valid : p.valid = true) :
    Sendable (retraction e p) :=
  Sendable.retraction p _ valid config.updateInterval_ne_zero

/-- What the Update for a reachable route says. -/
lemma advertisement_spec (config : ConfigOk e.config) (valid : p.valid = true)
    (finite : route.metric ≠ infinity) (routerOk : RouterOk route.router)
    (made : advertisement e link p route = some m) :
    Sendable m ∧ m.pfx = p ∧ m.router = route.router ∧ m.distance = route.distance := by
  have lasting := config.updateInterval_ne_zero
  have family := ((Prefix.valid_iff p).mp valid).1
  simp only [advertisement] at made
  split at made
  next isIpv4 =>
    split at made
    · cases made
      exact ⟨Sendable.update _ rfl valid routerOk finite lasting rfl rfl
        (.inr (.inr ⟨isIpv4, rfl, rfl, link.config.ipv4, rfl⟩)), rfl, rfl, rfl⟩
    split at made
    · cases made
      exact ⟨Sendable.update _ rfl valid routerOk finite lasting rfl rfl
        (.inr (.inl ⟨isIpv4, rfl, rfl⟩)), rfl, rfl, rfl⟩
    cases made
  rename_i notIpv4
  cases made
  exact ⟨Sendable.update _ rfl valid routerOk finite lasting rfl rfl
    (.inl ⟨family.resolve_left notIpv4, rfl, rfl⟩), rfl, rfl, rfl⟩

lemma advertise_outputOnly (env : Env) (e : Engine) (id : UInt64) (p : Prefix)
    (explicit : Bool) : OutputOnly e (advertise env e id p explicit) := by
  rw [advertise]
  split
  · exact OutputOnly.refl e
  split
  · exact queue_outputOnly env e id _ none
  split
  · exact queue_outputOnly env e id _ none
  split
  · exact OutputOnly.refl e
  split
  · exact OutputOnly.refl e
  rename_i route _ _ _ _ m _
  have recorded := recordSource_outputOnly env e p route
  split
  next next outcome =>
    rw [outcome] at recorded
    exact recorded.trans (by constructor <;> rfl)
  rename_i source next outcome
  rw [outcome] at recorded
  exact recorded.trans (queue_outputOnly env next id m _)

lemma advertise_keeps (sound : Sound env provenance e) (nonzero : id ≠ 0) (valid : p.valid = true)
    (explicit : Bool) :
    Keeps env provenance e (advertise env e id p explicit) := by
  have retracts : Keeps env provenance e (queue env e id (retraction e p)) :=
    queue_plain_keeps sound nonzero (sendable_retraction sound.config valid)
      fun announces => announces.2 rfl
  rw [advertise]
  split
  · exact Keeps.refl sound
  split
  · exact retracts
  rename_i route found
  split
  · exact retracts
  rename_i reachable
  rw [Bool.not_eq_true] at reachable
  split
  · exact Keeps.refl sound
  split
  · exact Keeps.refl sound
  rename_i link _ _ m made
  have ⟨inTable, samePfx⟩ := routeFor_some found
  have routeOk := sound.routes.each route inTable rfl
  have usable := routeOk.reachable reachable
  have said := advertisement_spec sound.config valid usable.1 usable.2 made
  have recorded := recordSource_spec sound found reachable
  split
  next next outcome =>
    rw [outcome] at recorded
    exact recorded.1.trans
      ⟨{ recorded.1.sound with }, .of_same rfl⟩
  rename_i source next outcome
  rw [outcome] at recorded
  have entry := recorded.2 source rfl
  refine recorded.1.trans (queue_keeps recorded.1.sound nonzero said.1 fun _ => ?_)
  refine ⟨route, source, rfl, reachable, samePfx.trans said.2.1.symm,
    said.2.2.1.symm, said.2.2.2.symm, entry.used,
    entry.pfx.trans (samePfx.trans said.2.1.symm),
    entry.router.trans said.2.2.1.symm, ?_, ?_, ?_, ?_, ?_⟩
  · intro isLocal
    have own := routeOk.originated isLocal
    rw [recorded.1.evolves.config]
    exact ⟨own.1, own.2.2⟩
  · intro foreign
    rw [recorded.1.evolves.config]
    exact ⟨(routeOk.learned reachable foreign).1, entry.covers foreign⟩
  · rw [entry.expires, sound.toNat_expiry, sourceHorizon, sourceHorizon,
      recorded.1.evolves.now, recorded.1.evolves.config]
  · exact (recorded.1.sound.sources.each source entry.member entry.used).recorded
  exact ⟨source, entry.member, Renewed.refl entry.used⟩

lemma dump_outputOnly (env : Env) (e : Engine) (id : UInt64) (explicit : Bool) :
    OutputOnly e (dump env e id explicit) :=
  OutputOnly.foldl _ _ fun state route => advertise_outputOnly env state id route.pfx explicit

lemma dump_keeps (sound : Sound env provenance e) (nonzero : id ≠ 0)
    (explicit : Bool) : Keeps env provenance e (dump env e id explicit) :=
  Keeps.foldl _ _ sound fun _ route mem sound' _ =>
    advertise_keeps sound' nonzero (sound.routes.each route mem rfl).valid explicit

/-! ## Random, accounting and callback state -/

lemma jitter_outputOnly (e : Engine) (maximum : UInt64) : OutputOnly e (jitter e maximum).2 := by
  constructor <;> rfl

lemma jitter_keeps (sound : Sound env provenance e) (maximum : UInt64) :
    Keeps env provenance e (jitter e maximum).2 :=
  ⟨{ sound with }, .of_same rfl⟩

lemma trigger_outputOnly (e : Engine) (again : Bool) : OutputOnly e (trigger e again) := by
  simp only [trigger]
  split <;> split <;> constructor <;> rfl

lemma trigger_keeps (sound : Sound env provenance e) (again : Bool) :
    Keeps env provenance e (trigger e again) := by
  simp only [trigger]
  split <;> split <;>
    exact ⟨{ sound with }, .of_same rfl⟩

lemma rejected_keeps (sound : Sound env provenance e) : Keeps env provenance e (rejected e) :=
  ⟨{ sound with }, .of_same rfl⟩

lemma allowed_eq (env : Env) (e : Engine) (candidate : Candidate) :
    ∃ permitted asked, allowed env e candidate =
      (permitted, { e with consultations := asked }) := by
  rw [allowed]
  split
  · exact ⟨true, e.consultations, rfl⟩
  exact ⟨_, e.consultations + 1, rfl⟩

lemma metric_eq (env : Env) (e : Engine) (candidate : Candidate) :
    ∃ permitted asked, metric env e candidate = (if permitted = true then
          addCost candidate.advertised (cost e (linkFor e candidate.route.link)) else infinity,
        { e with consultations := asked }) := by
  obtain ⟨permitted, asked, equation⟩ := allowed_eq env e candidate
  refine ⟨permitted, asked, ?_⟩
  rw [metric, equation]
  rfl

lemma metric_outputOnly (env : Env) (e : Engine) (candidate : Candidate) :
    OutputOnly e (metric env e candidate).2 := by
  obtain ⟨permitted, asked, equation⟩ := metric_eq env e candidate
  rw [equation]
  constructor <;> rfl

lemma metric_keeps (sound : Sound env provenance e) (candidate : Candidate) :
    Keeps env provenance e (metric env e candidate).2 := by
  obtain ⟨permitted, asked, equation⟩ := metric_eq env e candidate
  rw [equation]
  exact ⟨{ sound with }, .of_same rfl⟩

/-- A finite metric is the cost of the link on top of the advertised one. -/
lemma metric_value (finite : (metric env e candidate).1 ≠ infinity) :
    (metric env e candidate).1 =
      addCost candidate.advertised (cost e (linkFor e candidate.route.link)) := by
  obtain ⟨permitted, asked, equation⟩ := metric_eq env e candidate
  rw [equation] at finite ⊢
  by_cases yes : permitted = true
  · simp only [if_pos yes]
  simp only [if_neg yes] at finite
  exact absurd rfl finite

/-! ## Requests -/

section Request

variable {p : Prefix} {router : UInt64} {seqno : UInt16} {targets : List UInt64} {hops : UInt8}

lemma writeRequest_outputOnly (env : Env) (e : Engine) (slot : Nat) (q : RequestState) :
    OutputOnly e (writeRequest env e slot q) := by
  have written : OutputOnly e { e with requests := e.requests.set slot q } := by
    constructor <;> rfl
  exact written.trans
    (OutputOnly.foldl _ _ fun state target => queue_outputOnly env state target _ _)

lemma request_outputOnly (env : Env) (e : Engine) (p : Prefix) (router : UInt64)
    (seqno : UInt16) (targets : List UInt64) (fromLink : UInt64) (hops : UInt8) :
    OutputOnly e (request env e p router seqno targets fromLink hops) := by
  rw [request]
  split
  · split
    · exact OutputOnly.refl e
    exact writeRequest_outputOnly ..
  split
  · constructor <;> rfl
  rename_i slot requests heap _
  have grown : OutputOnly e { e with heap := heap, requests := requests } := by
    constructor <;> rfl
  exact grown.trans (writeRequest_outputOnly ..)

lemma requestEntry_ok (env : Env) (e : Engine) (valid : p.valid = true)
    (routerOk : RouterOk router) (alive : hops ≠ 0)
    (nonzero : ∀ target ∈ targets, target ≠ 0) (fromLink : UInt64) :
    RequestOk (requestEntry env e p router seqno targets fromLink hops) where
  sendable := Sendable.seqRequest p router seqno hops valid routerOk alive
  type := rfl
  targets target mem := by
    rw [requestEntry, mem_eraseDups] at mem
    exact nonzero target (mem_of_mem_take mem)

lemma writeRequest_keeps (sound : Sound env provenance e) {q : RequestState}
    (ok : RequestOk q) {slot : Nat} {old : RequestState} (located : e.requests[slot]? = some old)
    (place : (q.message.pfx, q.message.router) ∉
        keys RequestState.used (fun q => (q.message.pfx, q.message.router)) e.requests ∨
      (old.used = true ∧ old.message.pfx = q.message.pfx ∧ old.message.router = q.message.router)) :
    Keeps env provenance e (writeRequest env e slot q) := by
  have written : Keeps env provenance e { e with requests := e.requests.set slot q } := by
    refine ⟨{ sound with requests := ?_ }, .of_same rfl⟩
    refine sound.requests.set located (fun _ => ok) fun _ => ?_
    obtain fresh | ⟨used, samePfx, sameRouter⟩ := place
    · exact .inl fresh
    exact .inr ⟨used, by rw [samePfx, sameRouter]⟩
  exact written.trans (Keeps.foldl _ _ written.sound fun state target mem sound' _ =>
    queue_plain_keeps sound' (ok.targets target mem) ok.sendable
      (by simp [Message.announces, ok.type]))

lemma request_keeps (sound : Sound env provenance e) (valid : p.valid = true)
    (routerOk : RouterOk router) (alive : hops ≠ 0)
    (nonzero : ∀ target ∈ targets, target ≠ 0) (fromLink : UInt64) :
    Keeps env provenance e (request env e p router seqno targets fromLink hops) := by
  rw [request]
  split
  next slot found =>
    obtain ⟨old, located, accepted⟩ := located_of_findIdx? found
    simp only [Bool.and_eq_true, beq_iff_eq] at accepted
    split
    · exact Keeps.refl sound
    exact writeRequest_keeps sound
      (requestEntry_ok env e valid routerOk alive nonzero fromLink) located
      (.inr ⟨accepted.1.1, accepted.2, accepted.1.2⟩)
  rename_i absent
  have asked := requests_le_acquire env e.heap env.limits.requests RequestState.used {} e.requests
  split
  next heap refused =>
    rw [refused] at asked
    exact ⟨{ sound with }, .of_sources_eq rfl rfl rfl asked rfl⟩
  rename_i slot requests heap acquired
  rw [acquired] at asked
  obtain ⟨⟨old, located, free⟩, same, short⟩ := acquire_some rfl acquired
  have grown : Keeps env provenance e { e with heap := heap, requests := requests } :=
    ⟨{ sound with
        requests := sound.requests.of_filter_eq same (short sound.requests.length_le) },
      .of_sources_eq rfl rfl rfl asked rfl⟩
  refine grown.trans (writeRequest_keeps grown.sound
    (requestEntry_ok env e valid routerOk alive nonzero fromLink) located (.inl ?_))
  intro present
  rw [SlotTable.keys, same] at present
  obtain ⟨q, mem, used, key⟩ := mem_keys.mp present
  have rejected := findIdx?_eq_none_iff.mp absent q mem
  simp only [requestEntry, Prod.mk.injEq] at key
  simp [used, key.1, key.2] at rejected

end Request

end WendyLite.Babel
