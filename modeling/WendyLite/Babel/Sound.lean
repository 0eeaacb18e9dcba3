import WendyLite.Babel.Api
import WendyLite.Babel.Decoded
import WendyLite.Babel.Distance

/-! # Sound engines

The properties that every state of an engine has, also in the middle of an
event. They are stated table by table, with what each live entry satisfies,
and gathered in `Sound`. `Evolves` is what one function may change while an
event runs: it never forgets a source entry and only improves it.
-/

namespace WendyLite.Babel

open SlotTable

/-- What the statements about an engine know of its surroundings: which
distances may have been announced to it over a link, with which sequence
numbers a router may be known, and which of them it may have had itself. -/
structure Provenance where
  heard : (link : UInt64) → Prefix → (router : UInt64) → Distance → Prop
  known : Prefix → (router : UInt64) → UInt16 → Prop
  own : UInt16 → Prop
  known_of_heard : ∀ {link p router distance}, heard link p router distance →
    known p router distance.seqno

def Provenance.any : Provenance where
  heard _ _ _ _ := True
  known _ _ _ := True
  own _ := True
  known_of_heard _ := trivial

variable (provenance : Provenance)

/-- The sequence numbers that the source entries of a router may record. -/
def Provenance.records (self : UInt64) (p : Prefix)
    (router : UInt64) (seqno : UInt16) : Prop :=
  if router = self then provenance.own seqno else provenance.known p router seqno

lemma Provenance.records_any (self : UInt64) (p : Prefix) (router : UInt64)
    (seqno : UInt16) : Provenance.any.records self p router seqno := by
  rw [Provenance.records]
  split <;> trivial

/-! ## Single entries -/

structure ConfigOk (config : Config) : Prop where
  router : RouterOk config.router
  helloMin : 100 ≤ config.helloMs
  helloMax : config.helloMs ≤ 327670
  updateMin : 100 ≤ config.updateMs
  updateMax : config.updateMs ≤ 655340
  sourceMin : 180000 ≤ config.sourceMs
  sourceHold : hold config.updateMs.toUInt64 ≤ config.sourceMs.toUInt64
  sourceMax : config.sourceMs ≤ 86400000

structure LinkOk (lastLink : UInt64) (link : LinkState) : Prop where
  known : link.config.id ≤ lastLink
  cost : link.config.cost ≠ 0
  packetMin : 512 ≤ link.config.maxPacket.toNat
  packetMax : link.config.maxPacket.toNat ≤ packetMax
  hello : link.config.helloMs = 0 ∨ (100 ≤ link.config.helloMs ∧ link.config.helloMs ≤ 327670)

structure CandidateOk (provenance : Provenance) (router : UInt64) (candidate : Candidate) :
    Prop where
  routable : candidate.route.pfx.routable = true
  routerOk : RouterOk candidate.route.router
  foreign : candidate.route.router ≠ router
  link : candidate.route.link ≠ 0
  plain : candidate.route.isLocal = false ∧ candidate.route.unreachable = false
  heard : candidate.advertised ≠ infinity →
    provenance.heard candidate.route.link candidate.route.pfx candidate.route.router
      candidate.distance

/-- `horizon` is the latest time a lifetime may reach. -/
structure SourceOk (provenance : Provenance) (router : UInt64) (horizon : Nat)
    (source : Source) : Prop where
  valid : source.pfx.valid = true
  routerOk : RouterOk source.router
  finite : source.metric ≠ infinity
  expires : source.expires.toNat ≤ horizon
  recorded : provenance.records router source.pfx source.router source.seqno

structure LocalOk (entry : LocalPrefix) : Prop where
  routable : entry.pfx.routable = true
  finite : entry.metric ≠ infinity

structure DropOk (horizon : Nat) (drop : Drop) : Prop where
  valid : drop.pfx.valid = true
  expires : drop.expires.toNat ≤ horizon

structure RequestOk (q : RequestState) : Prop where
  sendable : Sendable q.message
  type : q.message.type = .seqRequest
  targets : ∀ target ∈ q.targets, target ≠ 0

/-- A learned route comes from an announcement that is strictly better than the
source entry, at a metric below the one the route has here. -/
def Learned (sources : List Source) (route : Route) : Prop :=
  ∃ advertised, advertised < route.metric ∧
    provenance.heard route.link route.pfx route.router ⟨route.seqno, advertised⟩ ∧
    ∀ source ∈ sources, source.used = true → source.pfx = route.pfx →
      source.router = route.router →
      Distance.better ⟨route.seqno, advertised⟩ source.distance = true

structure RouteOk (provenance : Provenance) (router : UInt64) (sources : List Source)
    (route : Route) : Prop where
  valid : route.pfx.valid = true
  suppressed : route.unreachable = true →
    route = { pfx := route.pfx, metric := infinity, unreachable := true }
  reachable : route.unreachable = false → route.metric ≠ infinity ∧ RouterOk route.router
  originated : route.isLocal = true →
    route.router = router ∧ route.link = 0 ∧ provenance.own route.seqno
  learned : route.unreachable = false → route.isLocal = false →
    route.router ≠ router ∧ route.link ≠ 0 ∧ Learned provenance sources route

lemma RouteOk.records {provenance : Provenance} {router : UInt64} {sources : List Source}
    {route : Route} (ok : RouteOk provenance router sources route)
    (reachable : route.unreachable = false) :
    provenance.records router route.pfx route.router route.seqno := by
  rw [Provenance.records]
  cases isLocal : route.isLocal with
  | true =>
    have origin := ok.originated isLocal
    rw [if_pos origin.1]
    exact origin.2.2
  | false =>
    obtain ⟨foreign, _, advertised, _, heard, _⟩ := ok.learned reachable isLocal
    rw [if_neg foreign]
    exact provenance.known_of_heard heard

structure Renewed (known : Prefix → UInt64 → UInt16 → Prop) (source source' : Source) : Prop where
  used : source'.used = true
  pfx : source'.pfx = source.pfx
  router : source'.router = source.router
  improves : Improves (known source.pfx source.router) source.distance source'.distance
  expires : source.expires ≤ source'.expires

variable {known : Prefix → UInt64 → UInt16 → Prop}

lemma Renewed.refl (used : source.used = true) : Renewed known source source :=
  ⟨used, rfl, rfl, Improves.refl _ _, UInt64.le_refl _⟩

lemma Renewed.trans (first : Renewed known source source')
    (second : Renewed known source' source'') : Renewed known source source'' where
  used := second.used
  pfx := second.pfx.trans first.pfx
  router := second.router.trans first.router
  improves := first.improves.trans (by
    have later := second.improves
    rw [first.pfx, first.router] at later
    exact later)
  expires := UInt64.le_trans first.expires second.expires

/-- A queued Update was made from a reachable route, after a source entry with
a full lifetime was recorded for it; the entry has since only been improved. -/
structure Backed (provenance : Provenance) (router : UInt64) (horizon : Nat)
    (sources : List Source) (m : Message) (route : Route) (source : Source) : Prop where
  reachable : route.unreachable = false
  pfx : route.pfx = m.pfx
  routerEq : route.router = m.router
  distance : route.distance = m.distance
  used : source.used = true
  sourcePfx : source.pfx = m.pfx
  sourceRouter : source.router = m.router
  originated : route.isLocal = true → route.router = router ∧ provenance.own route.seqno
  learned : route.isLocal = false →
    route.router ≠ router ∧
      (source.distance = route.distance ∨ source.distance.better route.distance = true)
  lasting : source.expires.toNat = horizon
  recorded : provenance.records router source.pfx source.router source.seqno
  current : ∃ now ∈ sources, Renewed (provenance.records router) source now

structure QueuedOk (provenance : Provenance) (router : UInt64) (horizon : Nat)
    (links : List LinkState) (sources : List Source) (queued : Queued) : Prop where
  link : queued.link ≠ 0 ∧ ∃ link ∈ links, link.config.id = queued.link
  sendable : Sendable queued.message
  backed : queued.message.announces →
    ∃ route source, queued.basis = some (route, source) ∧
      Backed provenance router horizon sources queued.message route source

/-! ## The whole engine -/

def sourceHorizon (e : Engine) : Nat := e.now.toNat + e.config.sourceMs.toNat

def dropHorizon (e : Engine) : Nat := e.now.toNat + 86400000

structure Sound (env : Env) (provenance : Provenance) (e : Engine) : Prop where
  config : ConfigOk e.config
  clock : e.now ≤ lastTime
  seqno : provenance.own e.seqno
  links : Proper LinkState.used (·.config.id) env.limits.links (LinkOk e.lastLink) e.links
  freeLinks : ∀ link ∈ e.links, link.used = false → link.config.maxPacket = 0
  candidates : Proper Candidate.used (fun candidate => (candidate.route.pfx, candidate.route.link))
    env.limits.candidates (CandidateOk provenance e.config.router) e.candidates
  sources : Proper Source.used (fun source => (source.pfx, source.router)) env.limits.sources
    (SourceOk provenance e.config.router (sourceHorizon e)) e.sources
  locals : Proper LocalPrefix.used (·.pfx) env.limits.routes LocalOk e.locals
  drops : Proper Drop.used (·.pfx) env.limits.routes (DropOk (dropHorizon e)) e.drops
  requests : Proper RequestState.used (fun q => (q.message.pfx, q.message.router))
    env.limits.requests RequestOk e.requests
  routes : Proper (fun _ => true) Route.pfx env.limits.routes
    (RouteOk provenance e.config.router e.sources) e.routes
  messages : ∀ queued ∈ e.messages,
    QueuedOk provenance e.config.router (sourceHorizon e) e.links e.sources queued
  cursor : e.messageCursor ≤ e.messages.length

def SourcesEvolve (known : Prefix → UInt64 → UInt16 → Prop) (sources sources' : List Source) :
    Prop :=
  ∀ source ∈ sources, source.used = true → ∃ source' ∈ sources', Renewed known source source'

lemma SourcesEvolve.refl (known : Prefix → UInt64 → UInt16 → Prop) (sources : List Source) :
    SourcesEvolve known sources sources :=
  fun source mem used => ⟨source, mem, Renewed.refl used⟩

lemma SourcesEvolve.trans (first : SourcesEvolve known sources sources')
    (second : SourcesEvolve known sources' sources'') : SourcesEvolve known sources sources'' := by
  intro source mem used
  obtain ⟨source', member', renewed⟩ := first source mem used
  obtain ⟨source'', member'', renewed'⟩ := second source' member' renewed.used
  exact ⟨source'', member'', renewed.trans renewed'⟩

structure Evolves (provenance : Provenance) (e e' : Engine) : Prop where
  config : e'.config = e.config
  now : e'.now = e.now
  locals : e'.locals = e.locals
  heap : e.heap.requests ≤ e'.heap.requests
  sources : SourcesEvolve (provenance.records e.config.router) e.sources e'.sources

lemma Evolves.of_sources_eq {provenance : Provenance} {e e' : Engine}
    (config : e'.config = e.config) (now : e'.now = e.now) (locals : e'.locals = e.locals)
    (heap : e.heap.requests ≤ e'.heap.requests) (sources : e'.sources = e.sources) :
    Evolves provenance e e' where
  config := config
  now := now
  locals := locals
  heap := heap
  sources := sources ▸ SourcesEvolve.refl _ _

lemma Evolves.of_same {provenance : Provenance} {e e' : Engine}
    (same : (e'.config, e'.now, e'.locals, e'.heap.requests, e'.sources) =
      (e.config, e.now, e.locals, e.heap.requests, e.sources)) : Evolves provenance e e' := by
  simp only [Prod.mk.injEq] at same
  exact .of_sources_eq same.1 same.2.1 same.2.2.1 same.2.2.2.1.ge same.2.2.2.2

lemma Evolves.refl (e : Engine) : Evolves provenance e e := .of_same rfl

lemma Evolves.trans {provenance : Provenance} {e e' e'' : Engine}
    (first : Evolves provenance e e') (second : Evolves provenance e' e'') :
    Evolves provenance e e'' where
  config := second.config.trans first.config
  now := second.now.trans first.now
  locals := second.locals.trans first.locals
  heap := first.heap.trans second.heap
  sources := first.sources.trans (first.config ▸ second.sources)

structure Keeps (env : Env) (provenance : Provenance) (e e' : Engine) : Prop where
  sound : Sound env provenance e'
  evolves : Evolves provenance e e'

namespace Keeps

variable {env : Env} {provenance : Provenance} {e e' e'' : Engine}

lemma refl (sound : Sound env provenance e) : Keeps env provenance e e :=
  ⟨sound, Evolves.refl provenance e⟩

lemma trans (first : Keeps env provenance e e') (second : Keeps env provenance e' e'') :
    Keeps env provenance e e'' :=
  ⟨second.sound, first.evolves.trans second.evolves⟩

lemma foldl {Item : Type} (body : Engine → Item → Engine) (items : List Item)
    (sound : Sound env provenance e)
    (step : ∀ state item, item ∈ items → Sound env provenance state → Evolves provenance e state →
      Keeps env provenance state (body state item)) : Keeps env provenance e (items.foldl body e) :=
  List.foldlRecOn items body (refl sound) fun state kept item mem =>
    kept.trans (step state item mem kept.sound kept.evolves)

end Keeps

/-! ## Lookups -/

section Lookups

variable {e : Engine}

lemma linkFor_some {id : UInt64} {link : LinkState} (found : linkFor e id = some link) :
    link ∈ e.links ∧ link.config.id = id :=
  ⟨List.mem_of_find?_eq_some found, by simpa using List.find?_some found⟩

variable {p : Prefix}

lemma sourceFor_some (found : sourceFor e p router = some source) :
    source ∈ e.sources ∧ source.used = true ∧ source.pfx = p ∧ source.router = router := by
  have accepted := List.find?_some found
  simp only [Bool.and_eq_true, beq_iff_eq] at accepted
  exact ⟨List.mem_of_find?_eq_some found, accepted.1.1, accepted.2, accepted.1.2⟩

lemma routeFor_some (found : routeFor e p = some route) :
    route ∈ e.routes ∧ route.pfx = p :=
  ⟨List.mem_of_find?_eq_some found, by simpa using List.find?_some found⟩

lemma routeFor_none (absent : routeFor e p = none) : ∀ route ∈ e.routes, route.pfx ≠ p := by
  intro route mem
  simpa using List.find?_eq_none.mp absent route mem

lemma localFor_none (absent : (localFor e p).isSome = false) :
    ∀ entry ∈ e.locals, entry.used = true → entry.pfx ≠ p := by
  intro entry mem used
  rw [Option.isSome_eq_false_iff, Option.isNone_iff_eq_none] at absent
  simpa [used] using List.find?_eq_none.mp absent entry mem

end Lookups

end WendyLite.Babel
