import Mathlib.Data.Prod.Lex
import WendyLite.Babel.Settled

/-! # The selected route is the least contender

For each prefix a selection installs the local route, or the route of the candidate
that is least by metric, then by being on the link selected before, then by link id.
That order is total on the candidates of a prefix, so the table does not depend on
the slots its inputs lie in.

The policy of the embedding program is asked once for each candidate; here it answers
as a fixed function.
-/

namespace WendyLite.Babel

open SlotTable List

variable {env : Env} {provenance : Provenance} {e e' e'' : Engine} {old : List Route}
  {policy : UInt64 → Prefix → UInt16 → Bool} {p : Prefix}

/-! ## Contenders -/

def permitted (policy : UInt64 → Prefix → UInt16 → Bool) (e : Engine) (candidate : Candidate) :
    Bool :=
  !e.config.allow || policy candidate.route.router candidate.route.pfx candidate.route.seqno

def linkMetric (e : Engine) (candidate : Candidate) : UInt16 :=
  addCost candidate.advertised (cost e (linkFor e candidate.route.link))

structure Contends (policy : UInt64 → Prefix → UInt16 → Bool) (e : Engine) (p : Prefix)
    (candidate : Candidate) : Prop where
  member : candidate ∈ e.candidates
  used : candidate.used = true
  pfx : candidate.route.pfx = p
  allowed : permitted policy e candidate = true
  feasible : feasible e candidate = true
  finite : linkMetric e candidate ≠ infinity

def rank (previous : UInt64) (e : Engine) (candidate : Candidate) : UInt16 ×ₗ Bool ×ₗ UInt64 :=
  toLex (linkMetric e candidate,
    toLex (decide (candidate.route.link ≠ previous), candidate.route.link))

structure Least (policy : UInt64 → Prefix → UInt16 → Bool) (e : Engine) (p : Prefix)
    (candidate : Candidate) : Prop extends Contends policy e p candidate where
  least : ∀ other, Contends policy e p other →
    rank (previousLink e.routes p) e candidate ≤ rank (previousLink e.routes p) e other

def routeOf (e : Engine) (candidate : Candidate) : Route :=
  { candidate.route with metric := linkMetric e candidate }

lemma offer_eq (policy : UInt64 → Prefix → UInt16 → Bool) (e : Engine) (candidate : Candidate) :
    offer policy e candidate =
      if permitted policy e candidate then linkMetric e candidate else infinity := rfl

lemma Contends.offer (contends : Contends policy e p candidate) :
    offer policy e candidate = linkMetric e candidate := by
  rw [offer_eq, if_pos contends.allowed]

variable {candidate : Candidate}

lemma permitted_of_offer (finite : offer policy e candidate ≠ infinity) :
    permitted policy e candidate = true ∧ offer policy e candidate = linkMetric e candidate := by
  rw [offer_eq] at finite ⊢
  by_cases allowed : permitted policy e candidate = true
  · exact ⟨allowed, if_pos allowed⟩
  rw [if_neg allowed] at finite
  exact absurd rfl finite

/-- The order of the contenders is what selection compares by. -/
lemma stands_iff_rank_le :
    Stands previous (routeOf e candidate) (routeOf e other) ↔
      rank previous e candidate ≤ rank previous e other := by
  simp only [rank, Prod.Lex.toLex_le_toLex, Stands, routeOf]
  by_cases first : candidate.route.link = previous <;> by_cases second : other.route.link = previous
  all_goals simp [first, second]

lemma rank_antisymm (le : rank previous e candidate ≤ rank previous e other)
    (ge : rank previous e other ≤ rank previous e candidate) :
    candidate.route.link = other.route.link := by
  simp only [rank, Prod.Lex.toLex_le_toLex] at le ge
  grind

/-! ## The winner -/

variable {routes : List Route} {route : Route}

lemma mem_of_mem_replaceRoute (mem : route ∈ replaceRoute new routes) :
    route = new ∨ route ∈ routes := by
  induction routes with
  | nil => simp [replaceRoute] at mem
  | cons head tail ih =>
    rw [replaceRoute] at mem
    split at mem
    · obtain rfl | later := mem_cons.mp mem
      · exact .inl rfl
      exact .inr (.tail _ later)
    obtain rfl | later := mem_cons.mp mem
    · exact .inr mem_cons_self
    exact (ih later).imp id (mem_cons_of_mem _)

def Allowed (policy : UInt64 → Prefix → UInt16 → Bool) (e : Engine) (candidates : List Candidate)
    (route : Route) : Prop :=
  route ∈ localRoutes e ∨
    ∃ candidate ∈ candidates, Offers e candidate route ∧ offer policy e candidate = route.metric

lemma Allowed.mono (more : ∀ candidate ∈ candidates, candidate ∈ candidates')
    (allowed : Allowed policy e candidates route) : Allowed policy e candidates' route := by
  refine allowed.imp id ?_
  rintro ⟨candidate, mem, offers⟩
  exact ⟨candidate, more candidate mem, offers⟩

lemma selectCandidates_allowed (steady : Steady env e.consultations policy)
    (tabled : Tabled e (localRoutes e) start)
    (ended : e.candidates.foldlM (selectCandidate env old) start = .ok e') :
    ∀ route ∈ e'.routes, Allowed policy e e.candidates route := by
  have final : ∃ routes, Tabled e routes e' ∧
      ∀ route ∈ routes, Allowed policy e e.candidates route := by
    refine foldlM_ok_of_seen (fun seen state => ∃ routes, Tabled e routes state ∧
      ∀ route ∈ routes, Allowed policy e seen route) ?_
      ⟨localRoutes e, tabled, fun route => .inl⟩ ended
    rintro seen candidate rest state next _ ⟨routes, tabled', allowed⟩ selected
    obtain ⟨routes', step, visit⟩ := selectCandidate_visit selected
    refine ⟨routes', tabled'.trans step, ?_⟩
    have earlier : ∀ route ∈ routes, Allowed policy e (seen ++ [candidate]) route := by
      intro route mem
      exact (allowed route mem).mono fun other inSeen => mem_append_left _ inSeen
    have newcomer : Offers state candidate (chosen env state candidate) →
        Allowed policy e (seen ++ [candidate]) (chosen env state candidate) := by
      intro offers
      refine .inr ⟨candidate, by simp, offers.of_tabled tabled', ?_⟩
      rw [chosen, metric_steady steady tabled'.asked, offer_tabled tabled']
    have table := tabled'.routes
    cases visit with
    | skip | keep =>
      rw [table]
      exact earlier
    | add offers _ =>
      intro route mem
      obtain before | last := mem_append.mp mem
      · exact earlier route (table ▸ before)
      rw [mem_singleton.mp last]
      exact newcomer offers
    | replace offers _ _ _ =>
      intro route mem
      obtain rfl | before := mem_of_mem_replaceRoute mem
      · exact newcomer offers
      exact earlier route (table ▸ before)
  obtain ⟨routes, tabled', allowed⟩ := final
  rw [tabled'.routes]
  exact allowed

lemma selectTable_allowed (sound : Sound env provenance e) (oldOk : OldOk old)
    (steady : Steady env e.consultations policy) (ended : selectTable env old e = .ok e')
    (running : e'.stopped = false) :
    ∀ route ∈ e'.routes, route.unreachable = false → Allowed policy e e.candidates route := by
  obtain ⟨first, second, third, locals, candidates, drops, rfl⟩ := selectTable_stages ended
  have tabled : Tabled e (localRoutes e) first := selectLocals_ok locals
  have kept := (selectOffers_ok sound locals candidates).1
  have filling := selectDrops_ok (suppressAll_keeps kept oldOk).sound.drops.distinct drops
  have still : (old.foldl (suppress env) second).stopped = false := by
    obtain ⟨_, _, _, _, rfl⟩ := filling.others
    exact running
  obtain ⟨_, suppresses, _⟩ := suppressAll_running (fun _ => id) still
  have same : first.candidates = e.candidates := by
    obtain ⟨_, _, _, _, rfl⟩ := tabled.others
    rfl
  rw [same] at candidates
  intro route mem reachable
  rw [(sortRoutes_perm _).mem_iff, filling.routes, suppresses.routes, mem_append] at mem
  obtain picked | suppressed := mem
  · exact selectCandidates_allowed steady tabled candidates route picked
  obtain ⟨_, _, _, _, rfl⟩ := mem_suppressedRoutes.mp suppressed
  simp [suppressedRoute] at reachable

lemma Allowed.of_tabled (tabled : Tabled e routes e')
    (allowed : Allowed policy e' candidates route) :
    Allowed policy e candidates route := by
  obtain isLocal | ⟨candidate, mem, offers, value⟩ := allowed
  · refine .inl ?_
    obtain ⟨_, _, _, _, rfl⟩ := tabled.others
    exact isLocal
  refine .inr ⟨candidate, mem, offers.of_tabled tabled, ?_⟩
  rw [← offer_tabled tabled]
  exact value

lemma selectRoutes_allowed (sound : Sound env provenance e)
    (steady : Steady env e.consultations policy) (running : (selectRoutes env e).stopped = false) :
    ∀ route ∈ (selectRoutes env e).routes, route.unreachable = false →
      Allowed policy e e.candidates route := by
  obtain ⟨_, start, table, tabled, ended, still, result⟩ := selectRoutes_running running
  have prepared : Sound env provenance start := by
    obtain ⟨_, _, _, _, rfl⟩ := tabled.others
    exact { sound with }
  have later : Steady env start.consultations policy := fun consultation after =>
    steady consultation (tabled.asked.trans after)
  have same : start.candidates = e.candidates := by
    obtain ⟨_, _, _, _, rfl⟩ := tabled.others
    rfl
  rw [result]
  intro route mem reachable
  rw [(announceTable_outputOnly env e.routes table).routes] at mem
  have allowed := selectTable_allowed prepared sound.oldOk later ended still route mem reachable
  rw [same] at allowed
  exact allowed.of_tabled tabled

/-! ## One table -/

lemma Sorted.nodup_pfx (sorted : Sorted routes) : (routes.map Route.pfx).Nodup := by
  rw [List.Nodup, pairwise_map]
  refine sorted.imp fun {a b} less equal => ?_
  have self : Prefix.cmp b.pfx b.pfx = .eq := Std.ReflCmp.compare_self
  rw [equal, self] at less
  cases less

lemma Sorted.eq_of_pfx (sorted : Sorted routes) (mem : route ∈ routes) (member' : other ∈ routes)
    (same : route.pfx = other.pfx) :
    route = other :=
  inj_on_of_nodup_map sorted.nodup_pfx mem member' same

structure Chosen (policy : UInt64 → Prefix → UInt16 → Bool) (e : Engine) (routes : List Route) :
    Prop where
  locals : ∀ entry ∈ e.locals, entry.used = true → ∀ route,
    (route ∈ routes ∧ route.pfx = entry.pfx ∧ route.unreachable = false) ↔
      route = localRoute e entry
  learned : ∀ p, (localFor e p).isSome = false → ∀ route,
    (route ∈ routes ∧ route.pfx = p ∧ route.unreachable = false) ↔
      ∃ candidate, Least policy e p candidate ∧ route = routeOf e candidate
  reaches : ∀ p, (localFor e p).isSome = false →
    ((∃ candidate, Contends policy e p candidate) ↔ Reaches routes p)

lemma selected_eligible (foreign : (localFor e p).isSome = false)
    (contends : Contends policy e p candidate) : Eligible e candidate :=
  ⟨contends.used, contends.pfx ▸ foreign, contends.feasible⟩

lemma Selected.answered (selected : Selected env e.routes e e') (sound : Sound env provenance e)
    (steady : Steady env e.consultations policy) (foreign : (localFor e p).isSome = false)
    (contends : Contends policy e p candidate) :
    ∃ route ∈ e'.routes, route.pfx = p ∧ route.unreachable = false ∧
      Stands (previousLink e.routes p) route (routeOf e candidate) := by
  rcases selected.best candidate contends.member policy steady
    (selected_eligible foreign contends) (by rw [contends.offer]; exact contends.finite) with
    ⟨route, mem, samePfx, stands⟩
  rw [contends.offer, contends.pfx] at stands
  refine ⟨route, mem, samePfx.trans contends.pfx, ?_, stands⟩
  obtain isLocal | ⟨other, inTable, offers⟩ | ⟨drop, _, _, rfl⟩ := selected.each route mem
  · exact unreachable_of_picked sound (.inl isLocal)
  · exact unreachable_of_picked sound (.inr ⟨other, inTable, offers⟩)
  -- A suppressed route has the greatest metric, and precedes no contender.
  have least : linkMetric e candidate ≤ infinity := by
    rw [UInt16.le_iff_toNat_le]
    have bound := (linkMetric e candidate).toNat_lt
    have top : infinity.toNat = 65535 := rfl
    omega
  obtain less | ⟨equal, _⟩ := stands
  · exact absurd less (UInt16.not_lt.mpr least)
  exact absurd equal.symm contends.finite

lemma contends_of_offers (mem : candidate ∈ e.candidates)
    (offers : Offers e candidate route) (value : offer policy e candidate = route.metric) :
    Contends policy e route.pfx candidate ∧ route = routeOf e candidate := by
  have finite : offer policy e candidate ≠ infinity := value ▸ offers.finite
  have allowed := permitted_of_offer finite
  have chosen := offers.chosen
  have samePfx : candidate.route.pfx = route.pfx := by rw [chosen]
  refine ⟨⟨mem, offers.eligible.used, samePfx, allowed.1, offers.eligible.feasible, ?_⟩, ?_⟩
  · rw [← allowed.2]
    exact finite
  rw [routeOf, ← allowed.2, value]
  exact chosen

lemma Selected.chosen (selected : Selected env e.routes e e') (sound : Sound env provenance e)
    (steady : Steady env e.consultations policy)
    (allowed : ∀ route ∈ e'.routes, route.unreachable = false →
      Allowed policy e e.candidates route) : Chosen policy e e'.routes := by
  -- The reachable route of a foreign prefix is the route of a contender.
  have source : ∀ p, (localFor e p).isSome = false → ∀ route ∈ e'.routes, route.pfx = p →
      route.unreachable = false →
      ∃ candidate, Contends policy e p candidate ∧ route = routeOf e candidate := by
    rintro p foreign route mem rfl reachable
    obtain isLocal | ⟨candidate, inTable, offers, value⟩ := allowed route mem reachable
    · exact absurd rfl (pfx_ne_of_foreign foreign isLocal)
    exact ⟨candidate, contends_of_offers inTable offers value⟩
  refine ⟨?_, ?_, ?_⟩
  · intro entry mem used route
    have own : localRoute e entry ∈ e'.routes :=
      selected.locals _ (mem_localRoutes.mpr ⟨entry, mem, used, rfl⟩)
    constructor
    · rintro ⟨inTable, samePfx, _⟩
      exact selected.sorted.eq_of_pfx inTable own samePfx
    rintro rfl
    exact ⟨own, rfl, rfl⟩
  · intro p foreign route
    constructor
    · rintro ⟨mem, samePfx, reachable⟩
      obtain ⟨candidate, contends, rfl⟩ := source p foreign route mem samePfx reachable
      refine ⟨candidate, ⟨contends, fun other rival => ?_⟩, rfl⟩
      obtain ⟨route, inTable, pfx, _, stands⟩ := selected.answered sound steady foreign rival
      rw [selected.sorted.eq_of_pfx inTable mem (pfx.trans samePfx.symm)] at stands
      exact stands_iff_rank_le.mp stands
    rintro ⟨candidate, least, rfl⟩
    rcases selected.answered sound steady foreign least.toContends with
      ⟨route, mem, samePfx, reachable, stands⟩
    obtain ⟨winner, contends, rfl⟩ := source p foreign route mem samePfx reachable
    have sameLink := rank_antisymm (stands_iff_rank_le.mp stands) (least.least winner contends)
    have same : winner = candidate := by
      refine eq_of_key_eq sound.candidates.distinct contends.member least.member
        contends.used least.used ?_
      rw [contends.pfx, least.pfx, sameLink]
    rw [← same]
    exact ⟨mem, samePfx, reachable⟩
  intro p foreign
  constructor
  · rintro ⟨candidate, contends⟩
    obtain ⟨route, mem, pfx, reachable, _⟩ := selected.answered sound steady foreign contends
    exact ⟨route, mem, pfx, reachable⟩
  rintro ⟨route, mem, samePfx, reachable⟩
  obtain ⟨candidate, contends, _⟩ := source p foreign route mem samePfx reachable
  exact ⟨candidate, contends⟩

/-! ## Other slots -/

/-- The live entries of a table in other slots, of which there may be fewer. -/
structure Rearranged (live : Slot → Bool) (table table' : List Slot) : Prop where
  live : (table'.filter live).Perm (table.filter live)
  shorter : table'.length ≤ table.length

lemma Rearranged.mem_iff {live : Slot → Bool} {table table' : List Slot}
    (rearranged : Rearranged live table table') {slot : Slot} (alive : live slot = true) :
    slot ∈ table' ↔ slot ∈ table := by
  simpa [mem_filter, alive] using rearranged.live.mem_iff (a := slot)

lemma Rearranged.proper {live : Slot → Bool} {table table' : List Slot} {key : Slot → Key}
    {maximum : Nat} {ok : Slot → Prop} (rearranged : Rearranged live table table')
    (proper : Proper live key maximum ok table) : Proper live key maximum ok table' where
  each slot mem alive := proper.each slot ((rearranged.mem_iff alive).mp mem) alive
  distinct := ((rearranged.live.map key).nodup_iff).mpr proper.distinct
  length_le := rearranged.shorter.trans proper.length_le

structure Shuffled (e e' : Engine) : Prop where
  candidates : Rearranged Candidate.used e.candidates e'.candidates
  sources : Rearranged Source.used e.sources e'.sources
  locals : Rearranged LocalPrefix.used e.locals e'.locals
  drops : Rearranged Drop.used e.drops e'.drops
  others : ∃ heap routesCapacity beforeCapacity scratchCapacity, e' =
    { e with
      candidates := e'.candidates, sources := e'.sources, locals := e'.locals, drops := e'.drops
      heap := heap, routesCapacity := routesCapacity, beforeCapacity := beforeCapacity
      scratchCapacity := scratchCapacity }

lemma Shuffled.sound (shuffled : Shuffled e e') (sound : Sound env provenance e) :
    Sound env provenance e' := by
  have sources := shuffled.sources
  have candidates := shuffled.candidates.proper sound.candidates
  have known := sources.proper sound.sources
  have locals := shuffled.locals.proper sound.locals
  have drops := shuffled.drops.proper sound.drops
  obtain ⟨_, _, _, _, equation⟩ := shuffled.others
  generalize e'.candidates = candidates' at *
  generalize e'.sources = sources' at *
  generalize e'.locals = locals' at *
  generalize e'.drops = drops' at *
  subst equation
  refine { sound with
    candidates := candidates, sources := known, locals := locals, drops := drops
    routes := ?_, messages := ?_ }
  · refine sound.routes.imp fun route _ ok => { ok with learned := ?_ }
    intro reachable foreign
    obtain ⟨router, link, advertised, below, heard, better⟩ := ok.learned reachable foreign
    refine ⟨router, link, advertised, below, heard, fun source mem used => ?_⟩
    exact better source ((sources.mem_iff used).mp mem) used
  intro queued mem
  refine (sound.messages queued mem).mono (fun link inTable _ => ⟨link, inTable, rfl⟩) ?_
  exact fun source mem used => ⟨source, (sources.mem_iff used).mpr mem, Renewed.refl used⟩

/-- Two engines between which selection sees no difference. -/
structure Alike (e e' : Engine) : Prop where
  config : e'.config = e.config
  now : e'.now = e.now
  seqno : e'.seqno = e.seqno
  routes : e'.routes = e.routes
  links : e'.links = e.links
  candidates : ∀ candidate, candidate.used = true →
    (candidate ∈ e'.candidates ↔ candidate ∈ e.candidates)
  locals : ∀ entry, entry.used = true → (entry ∈ e'.locals ↔ entry ∈ e.locals)
  drops : ∀ drop, drop.used = true → (drop ∈ e'.drops ↔ drop ∈ e.drops)
  localFor : ∀ p, localFor e' p = localFor e p
  sourceFor : ∀ p router, sourceFor e' p router = sourceFor e p router

lemma Alike.symm (alike : Alike e e') : Alike e' e where
  config := alike.config.symm
  now := alike.now.symm
  seqno := alike.seqno.symm
  routes := alike.routes.symm
  links := alike.links.symm
  candidates candidate used := (alike.candidates candidate used).symm
  locals entry used := (alike.locals entry used).symm
  drops drop used := (alike.drops drop used).symm
  localFor p := (alike.localFor p).symm
  sourceFor p router := (alike.sourceFor p router).symm

lemma Shuffled.alike (shuffled : Shuffled e e') (sound : Sound env provenance e) :
    Alike e e' := by
  have locals : ∀ p, localFor e' p = localFor e p := by
    intro p
    have keyed : ∀ entry : LocalPrefix, (entry.used && entry.pfx == p) = true →
        entry.used = true ∧ entry.pfx = p := by
      intro entry accepted
      simpa using accepted
    exact find?_eq_of_perm shuffled.locals.live sound.locals.distinct keyed
  have sources : ∀ p router, sourceFor e' p router = sourceFor e p router := by
    intro p router
    have keyed : ∀ source : Source,
        (source.used && source.router == router && source.pfx == p) = true →
        source.used = true ∧ (source.pfx, source.router) = (p, router) := by
      intro source accepted
      simp only [Bool.and_eq_true, beq_iff_eq] at accepted
      exact ⟨accepted.1.1, by rw [accepted.2, accepted.1.2]⟩
    exact find?_eq_of_perm shuffled.sources.live sound.sources.distinct keyed
  obtain ⟨_, _, _, _, equation⟩ := shuffled.others
  exact ⟨by rw [equation], by rw [equation], by rw [equation], by rw [equation], by rw [equation],
    fun _ => shuffled.candidates.mem_iff, fun _ => shuffled.locals.mem_iff,
    fun _ => shuffled.drops.mem_iff, locals, sources⟩

lemma Alike.linkMetric (alike : Alike e e') (candidate : Candidate) :
    linkMetric e' candidate = linkMetric e candidate := by
  rw [Babel.linkMetric, Babel.linkMetric, cost, cost, linkFor, linkFor, alike.links, alike.now]

lemma Alike.contends (alike : Alike e e')
    (contends : Contends policy e p candidate) : Contends policy e' p candidate where
  member := (alike.candidates candidate contends.used).mpr contends.member
  used := contends.used
  pfx := contends.pfx
  allowed := by
    rw [permitted, alike.config]
    exact contends.allowed
  feasible := by
    rw [feasible, alike.sourceFor]
    exact contends.feasible
  finite := by
    rw [alike.linkMetric]
    exact contends.finite

lemma Alike.least (alike : Alike e e')
    (least : Least policy e p candidate) : Least policy e' p candidate where
  toContends := alike.contends least.toContends
  least other rival := by
    rw [rank, rank, alike.linkMetric, alike.linkMetric, alike.routes]
    exact least.least other (alike.symm.contends rival)

/-! ## Suppressed prefixes -/

def Missing (e : Engine) (p : Prefix) : Prop :=
  (∃ route ∈ e.routes, route.unreachable = false ∧ route.pfx = p) ∨
    ∃ drop ∈ e.drops, drop.used = true ∧ drop.pfx = p ∧ e.now < drop.expires

lemma Alike.missing (alike : Alike e e') (missing : Missing e p) : Missing e' p := by
  obtain lost | ⟨drop, mem, used, samePfx, time⟩ := missing
  · exact .inl (alike.routes ▸ lost)
  exact .inr ⟨drop, (alike.drops drop used).mpr mem, used, samePfx, alike.now ▸ time⟩

lemma Selected.suppressed_iff (selected : Selected env e.routes e e')
    (sound : Sound env provenance e) (route : Route) :
    (route ∈ e'.routes ∧ route.unreachable = true) ↔
      ∃ p, route = suppressedRoute p ∧ Missing e p ∧ ¬Reaches e'.routes p := by
  constructor
  · rintro ⟨mem, unreachable⟩
    rcases selected.each route mem with isLocal | ⟨candidate, inTable, offers⟩ |
      ⟨drop, inTable, used, rfl⟩
    · rw [unreachable_of_picked sound (.inl isLocal)] at unreachable
      cases unreachable
    · rw [unreachable_of_picked sound (.inr ⟨candidate, inTable, offers⟩)] at unreachable
      cases unreachable
    refine ⟨drop.pfx, rfl, ?_, ?_⟩
    · obtain before | ⟨lost, inOld, reachable, samePfx⟩ := selected.only drop inTable used
      · exact .inr ⟨drop, before, used, rfl, (selected.drops drop inTable used).1⟩
      exact .inl ⟨lost, inOld, reachable, samePfx⟩
    rintro ⟨other, member', samePfx, reachable⟩
    rw [selected.sorted.eq_of_pfx member' mem samePfx] at reachable
    simp [suppressedRoute] at reachable
  rintro ⟨p, rfl, missing, unreached⟩
  refine ⟨?_, rfl⟩
  obtain ⟨lost, inOld, reachable, rfl⟩ | ⟨drop, inTable, used, rfl, time⟩ := missing
  · obtain reached | ⟨drop, mem, used, samePfx, _⟩ := selected.lost lost inOld reachable
    · exact absurd reached unreached
    rw [← samePfx]
    exact (selected.drops drop mem used).2
  obtain reached | ⟨drop', mem, used', pfx, _⟩ := selected.kept drop inTable used time
  · exact absurd reached unreached
  rw [← pfx]
  exact (selected.drops drop' mem used').2

/-! ## The same table -/

lemma Chosen.reachable_mem (chosen : Chosen policy e routes) (chosen' : Chosen policy e' routes')
    (alike : Alike e e') (mem : route ∈ routes) (reachable : route.unreachable = false) :
    route ∈ routes' := by
  cases originated : (localFor e route.pfx).isSome with
  | true =>
    obtain ⟨entry, found⟩ := Option.isSome_iff_exists.mp originated
    have accepted := find?_some found
    simp only [Bool.and_eq_true, beq_iff_eq] at accepted
    have inTable := mem_of_find?_eq_some found
    have own := (chosen.locals entry inTable accepted.1 route).mp
      ⟨mem, accepted.2.symm, reachable⟩
    have same : localRoute e' entry = localRoute e entry := by
      rw [localRoute, localRoute, alike.config, alike.seqno]
    refine ((chosen'.locals entry ((alike.locals entry accepted.1).mpr inTable) accepted.1
      route).mpr ?_).1
    rw [own, same]
  | false =>
    obtain ⟨candidate, least, equal⟩ :=
      (chosen.learned route.pfx originated route).mp ⟨mem, rfl, reachable⟩
    refine ((chosen'.learned route.pfx ?_ route).mpr ⟨candidate, alike.least least, ?_⟩).1
    · rw [alike.localFor]
      exact originated
    rw [equal, routeOf, routeOf, alike.linkMetric]

lemma Sorted.eq_of_mem_iff (sorted : Sorted routes) (sorted' : Sorted routes')
    (same : ∀ route, route ∈ routes ↔ route ∈ routes') :
    routes = routes' := by
  refine List.Perm.eq_of_pairwise ?_ sorted sorted'
    ((perm_ext_iff_of_nodup sorted.nodup_pfx.of_map sorted'.nodup_pfx.of_map).mpr same)
  intro a b _ _ less greater
  rw [Std.OrientedCmp.gt_iff_lt.mpr greater] at less
  cases less

lemma Selected.same_table (selected : Selected env e.routes e e₁)
    (selected' : Selected env e'.routes e' e₂) (sound : Sound env provenance e)
    (sound' : Sound env provenance e') (alike : Alike e e') (chosen : Chosen policy e e₁.routes)
    (chosen' : Chosen policy e' e₂.routes) :
    e₁.routes = e₂.routes := by
  have reaches : ∀ p, Reaches e₁.routes p ↔ Reaches e₂.routes p := by
    intro p
    constructor
    · rintro ⟨route, mem, samePfx, reachable⟩
      exact ⟨route, chosen.reachable_mem chosen' alike mem reachable, samePfx, reachable⟩
    rintro ⟨route, mem, samePfx, reachable⟩
    exact ⟨route, chosen'.reachable_mem chosen alike.symm mem reachable, samePfx, reachable⟩
  refine selected.sorted.eq_of_mem_iff selected'.sorted fun route => ?_
  cases unreachable : route.unreachable with
  | false =>
    exact ⟨fun mem => chosen.reachable_mem chosen' alike mem unreachable,
      fun mem => chosen'.reachable_mem chosen alike.symm mem unreachable⟩
  | true =>
    constructor
    · intro mem
      obtain ⟨p, equal, missing, unreached⟩ :=
        (selected.suppressed_iff sound route).mp ⟨mem, unreachable⟩
      refine ((selected'.suppressed_iff sound' route).mpr ⟨p, equal, alike.missing missing, ?_⟩).1
      exact fun reached => unreached ((reaches p).mpr reached)
    intro mem
    obtain ⟨p, equal, missing, unreached⟩ :=
      (selected'.suppressed_iff sound' route).mp ⟨mem, unreachable⟩
    refine ((selected.suppressed_iff sound route).mpr
      ⟨p, equal, alike.symm.missing missing, ?_⟩).1
    exact fun reached => unreached ((reaches p).mp reached)

lemma selectRoutes_chosen (sound : Sound env provenance e)
    (steady : Steady env e.consultations policy) (running : (selectRoutes env e).stopped = false) :
    Chosen policy e (selectRoutes env e).routes :=
  (selectRoutes_selected sound running).chosen sound steady
    (selectRoutes_allowed sound steady running)

/-- A selection that does not stop the engine installs for each prefix the local route
or that of the least contender, and installs one exactly if there is any; and the
table is the same for any arrangement of the slots. -/
theorem selection_least_contender (sound : Sound env provenance e)
    (steady : Steady env e.consultations policy) (running : (selectRoutes env e).stopped = false) :
    (∀ entry ∈ e.locals, entry.used = true → ∀ route,
      (route ∈ (selectRoutes env e).routes ∧ route.pfx = entry.pfx ∧
          route.unreachable = false) ↔ route = localRoute e entry) ∧
      (∀ p, (localFor e p).isSome = false → ∀ route,
        (route ∈ (selectRoutes env e).routes ∧ route.pfx = p ∧ route.unreachable = false) ↔
          ∃ candidate, Least policy e p candidate ∧ route = routeOf e candidate) ∧
      (∀ p, (localFor e p).isSome = false → ((¬∃ candidate, Contends policy e p candidate) ↔
          ¬Reaches (selectRoutes env e).routes p)) ∧
      ∀ e', Shuffled e e' → (selectRoutes env e').stopped = false →
        (selectRoutes env e').routes = (selectRoutes env e).routes := by
  have chosen := selectRoutes_chosen sound steady running
  refine ⟨chosen.locals, chosen.learned, fun p foreign => not_congr (chosen.reaches p foreign), ?_⟩
  intro e' shuffled running'
  have sound' := shuffled.sound sound
  have steady' : Steady env e'.consultations policy := by
    obtain ⟨_, _, _, _, equation⟩ := shuffled.others
    rw [equation]
    exact steady
  exact ((selectRoutes_selected sound running).same_table (selectRoutes_selected sound' running')
    sound sound' (shuffled.alike sound) chosen (selectRoutes_chosen sound' steady' running')).symm

/-- In the engine that has learned the block, the block has a contender, since the
selection installs a route for it. -/
theorem selection_least_contender_learned :
    ∃ candidate, Contends (fun _ _ _ => true) learned block candidate := by
  have steady : Steady willing learned.consultations fun _ _ _ => true := fun _ _ => rfl
  have selection := selection_least_contender learned_reachable.sound steady (by decide +kernel)
  by_contra none_
  exact (selection.2.2.1 block (by decide +kernel)).mp none_ (by decide +kernel)

/-! ## A selection that stops -/

def starving : Env := { willing with allocate := fun request => request != 5 }

def linked : Engine := run starving (fresh 1) [.addLink 0 (wire 1), .nextPacket 1099]

def offered : Engine :=
  receivePacket starving 1 (packet [hello, ihu, offering 0 10]) (begin starving linked 0).2

/-- There is no memory for the table: the engine stops with no route to the block,
although there is a contender for it. -/
theorem offered_not_installed : Reachable starving linked ∧
      wbReceive starving linked 0 1 (packet [hello, ihu, offering 0 10]) = finish starving offered ∧
      (localFor offered block).isSome = false ∧
      (∃ candidate, Contends (fun _ _ _ => true) offered block candidate) ∧
      ¬Reaches (selectRoutes starving offered).routes block := by
  refine ⟨Reachable.of_fresh (by decide) _, ?_, by decide +kernel, ?_, by decide +kernel⟩
  · have begun : (begin starving linked 0).1 = .ok := by decide +kernel
    rw [wbReceive, accept, offered]
    generalize begin starving linked 0 = outcome at begun ⊢
    obtain ⟨status, e⟩ := outcome
    obtain rfl : status = .ok := begun
    rfl
  refine ⟨offered.candidates.headD {}, ?_, ?_, ?_, ?_, ?_, ?_⟩ <;> decide +kernel

end WendyLite.Babel
