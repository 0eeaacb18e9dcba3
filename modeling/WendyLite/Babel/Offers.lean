import WendyLite.Babel.Reachable

/-! # The offers of the candidates

The first two loops of `select_routes`: they fill the table with the local
routes, and with the offer that stands against all others for each prefix.
-/

namespace WendyLite.Babel

open SlotTable List

variable {env : Env} {provenance : Provenance} {e e' e'' : Engine} {old : List Route}

/-! ## Filling the table -/

structure Tabled (e : Engine) (routes : List Route) (e' : Engine) : Prop where
  asked : e.consultations ≤ e'.consultations
  heap : e.heap.requests ≤ e'.heap.requests
  others : ∃ capacity scratch heap asked, e' =
    { e with
      routes := routes, routesCapacity := capacity, scratchCapacity := scratch, heap := heap
      consultations := asked }

lemma Tabled.refl (e : Engine) : Tabled e e.routes e :=
  ⟨le_rfl, le_rfl, _, _, _, _, rfl⟩

lemma Tabled.trans (first : Tabled e routes e') (second : Tabled e' routes' e'') :
    Tabled e routes' e'' := by
  refine ⟨first.asked.trans second.asked, first.heap.trans second.heap, ?_⟩
  obtain ⟨_, _, _, _, rfl⟩ := first.others
  obtain ⟨capacity, scratch, heap, asked, rfl⟩ := second.others
  exact ⟨capacity, scratch, heap, asked, rfl⟩

lemma Tabled.routes {routes : List Route} (tabled : Tabled e routes e') : e'.routes = routes := by
  obtain ⟨_, _, _, _, rfl⟩ := tabled.others
  rfl

lemma Tabled.inputs {routes : List Route} (tabled : Tabled e routes e') : SameInputs e e' := by
  obtain ⟨_, _, _, _, rfl⟩ := tabled.others
  constructor <;> rfl

lemma pushRoute_ok (pushed : pushRoute env e route = .ok e') :
    Tabled e (e.routes ++ [route]) e' := by
  have spent := requests_le_reserve env e.heap env.limits.routes e.routesCapacity
    (e.routes.length + 1)
  rw [pushRoute] at pushed
  split at pushed
  · cases pushed
  rename_i reserved
  rw [reserved] at spent
  cases pushed
  exact ⟨le_rfl, spent, _, _, _, _, rfl⟩

def routesOf (e : Engine) (entries : List LocalPrefix) : List Route :=
  (entries.filter LocalPrefix.used).map (localRoute e)

def localRoutes (e : Engine) : List Route := routesOf e e.locals

lemma selectLocal_ok {next : Engine} (tabled : Tabled e (routesOf e seen) state)
    (selected : selectLocal env state entry = .ok next) :
    Tabled e (routesOf e (seen ++ [entry])) next := by
  rw [selectLocal] at selected
  split at selected
  next used =>
    have same : localRoute state entry = localRoute e entry := by
      obtain ⟨_, _, _, _, rfl⟩ := tabled.others
      rfl
    have pushed := tabled.trans (pushRoute_ok selected)
    rw [same, tabled.routes] at pushed
    simpa [routesOf, filter_append, used] using pushed
  rename_i unused
  cases selected
  simpa [routesOf, filter_append, unused] using tabled

lemma Tabled.cleared (e : Engine) : Tabled e (routesOf e []) { e with routes := [] } :=
  ⟨le_rfl, le_rfl, _, _, _, _, rfl⟩

lemma selectLocals_ok
    (ended : e.locals.foldlM (selectLocal env) { e with routes := [] } = .ok e') :
    Tabled e (localRoutes e) e' :=
  foldlM_ok_of_seen (fun seen state => Tabled e (routesOf e seen) state)
    (fun _ _ _ _ _ _ tabled selected => selectLocal_ok tabled selected) (Tabled.cleared e) ended

/-! ## Offers -/

/-- From this consultation on, the callback answers by a fixed policy. -/
def Steady (env : Env) (first : Nat) (policy : UInt64 → Prefix → UInt16 → Bool) : Prop :=
  ∀ consultation, first ≤ consultation → env.allow consultation = policy

def offer (policy : UInt64 → Prefix → UInt16 → Bool) (e : Engine) (candidate : Candidate) :
    UInt16 :=
  if !e.config.allow ||
      policy candidate.route.router candidate.route.pfx candidate.route.seqno then
    addCost candidate.advertised (cost e (linkFor e candidate.route.link))
  else infinity

structure Eligible (e : Engine) (candidate : Candidate) : Prop where
  used : candidate.used = true
  foreign : (localFor e candidate.route.pfx).isSome = false
  feasible : feasible e candidate = true

structure Offers (e : Engine) (candidate : Candidate) (route : Route) : Prop where
  eligible : Eligible e candidate
  finite : route.metric ≠ infinity
  metric : route.metric = addCost candidate.advertised (cost e (linkFor e candidate.route.link))
  chosen : route = { candidate.route with metric := route.metric }

variable (previous : UInt64)

/-- One offer replaces another: `previous` is the link selected before. -/
def Beats (new old : Route) : Prop :=
  new.metric < old.metric ∨
    (new.metric = old.metric ∧ (new.link = previous ∨ (old.link ≠ previous ∧ new.link < old.link)))

instance (previous : UInt64) (new old : Route) : Decidable (Beats previous new old) :=
  inferInstanceAs (Decidable (_ ∨ _))

def Stands (route other : Route) : Prop :=
  route.metric < other.metric ∨
    (route.metric = other.metric ∧
      (route.link = previous ∨ (other.link ≠ previous ∧ route.link ≤ other.link)))

lemma stands_refl (route : Route) : Stands previous route route := by
  by_cases same : route.link = previous
  · exact .inr ⟨rfl, .inl same⟩
  exact .inr ⟨rfl, .inr ⟨same, UInt64.le_refl _⟩⟩

lemma stands_of_beats {previous : UInt64} {new old : Route} (beats : Beats previous new old) :
    Stands previous new old := by
  obtain lower | ⟨equal, tie⟩ := beats
  · exact .inl lower
  exact .inr ⟨equal, tie.imp id fun both => ⟨both.1, UInt64.le_of_lt both.2⟩⟩

lemma stands_of_not_beats {previous : UInt64} {new old : Route}
    (kept : ¬ Beats previous new old) : Stands previous old new := by
  simp only [Beats, Stands] at kept ⊢
  grind

lemma Stands.trans {previous : UInt64} {a b c : Route} (first : Stands previous a b)
    (second : Stands previous b c) : Stands previous a c := by
  simp only [Stands] at first second ⊢
  grind

lemma metric_steady (steady : Steady env first policy) (later : first ≤ e.consultations)
    (candidate : Candidate) : (metric env e candidate).1 = offer policy e candidate := by
  have answer := steady e.consultations later
  cases asks : e.config.allow with
  | false => simp [metric, allowed, offer, asks]
  | true =>
    simp only [metric, allowed, offer, asks, answer, Bool.not_true, Bool.false_or,
      Bool.false_eq_true, if_false]
    rfl

lemma consultations_le_metric (env : Env) (e : Engine) (candidate : Candidate) :
    e.consultations ≤ (metric env e candidate).2.consultations := by
  cases asks : e.config.allow <;> simp [metric, allowed, asks]

def chosen (env : Env) (e : Engine) (candidate : Candidate) : Route :=
  { candidate.route with metric := (metric env e candidate).1 }

/-- What one candidate does to the table. -/
inductive Visit (env : Env) (old : List Route) (e : Engine) (candidate : Candidate) :
    List Route → Prop
  | skip (useless : Eligible e candidate → (metric env e candidate).1 = infinity) :
      Visit env old e candidate e.routes
  | add (offers : Offers e candidate (chosen env e candidate))
      (absent : routeFor e candidate.route.pfx = none) :
      Visit env old e candidate (e.routes ++ [chosen env e candidate])
  | replace (offers : Offers e candidate (chosen env e candidate)) (route : Route)
      (found : routeFor e candidate.route.pfx = some route)
      (beats : Beats (previousLink old candidate.route.pfx) (chosen env e candidate) route) :
      Visit env old e candidate (replaceRoute (chosen env e candidate) e.routes)
  | keep (route : Route) (found : routeFor e candidate.route.pfx = some route)
      (stands : Stands (previousLink old candidate.route.pfx) route (chosen env e candidate)) :
      Visit env old e candidate e.routes

lemma selectCandidate_visit (ended : selectCandidate env old e candidate = .ok e') :
    ∃ routes, Tabled e routes e' ∧ Visit env old e candidate routes := by
  rw [selectCandidate] at ended
  split at ended
  next skipped =>
    cases ended
    refine ⟨e.routes, Tabled.refl e, Visit.skip fun eligible => ?_⟩
    simp [eligible.used, eligible.foreign] at skipped
  rename_i considered
  simp only [Bool.or_eq_true, Bool.not_eq_true', not_or, Bool.not_eq_false,
    Bool.not_eq_true] at considered
  obtain ⟨_, asked, equation⟩ := metric_eq env e candidate
  have same : (metric env e candidate).2 = { e with consultations := asked } := by
    rw [equation]
  have consulted : Tabled e e.routes { e with consultations := asked } :=
    ⟨consultations_le_metric env e candidate |>.trans_eq (by rw [same]), le_rfl, _, _, _, _,
      rfl⟩
  simp only [same] at ended
  split at ended
  next refused =>
    cases ended
    refine ⟨e.routes, consulted, Visit.skip fun eligible => ?_⟩
    have still : feasible { e with consultations := asked } candidate = true := eligible.feasible
    simpa [still] using refused
  rename_i accepted
  simp only [Bool.or_eq_true, decide_eq_true_eq, Bool.not_eq_true', not_or,
    Bool.not_eq_false] at accepted
  have offers : Offers e candidate (chosen env e candidate) :=
    ⟨⟨considered.1, considered.2, accepted.2⟩, accepted.1, metric_value accepted.1, rfl⟩
  split at ended
  next absent => exact ⟨_, consulted.trans (pushRoute_ok ended), Visit.add offers absent⟩
  rename_i route found
  split at ended
  next beats =>
    cases ended
    exact ⟨_, consulted.trans ⟨le_rfl, le_rfl, _, _, _, _, rfl⟩,
      Visit.replace offers route found beats⟩
  rename_i loses
  cases ended
  exact ⟨_, consulted, Visit.keep route found (stands_of_not_beats loses)⟩

/-! ## The best offers -/

def Answered (env : Env) (old : List Route) (e : Engine) (routes : List Route)
    (candidate : Candidate) : Prop :=
  ∀ policy, Steady env e.consultations policy → Eligible e candidate →
    offer policy e candidate ≠ infinity →
    ∃ route ∈ routes, route.pfx = candidate.route.pfx ∧
      Stands (previousLink old candidate.route.pfx) route
        { candidate.route with metric := offer policy e candidate }

/-- The table while the candidates are visited: the local routes, and for each
prefix the offer that stands against all others seen. -/
structure Picks (env : Env) (old : List Route) (e : Engine) (seen : List Candidate)
    (routes : List Route) : Prop where
  each : ∀ route ∈ routes, route ∈ localRoutes e ∨ ∃ candidate ∈ seen, Offers e candidate route
  locals : ∀ route ∈ localRoutes e, route ∈ routes
  distinct : (routes.map Route.pfx).Nodup
  best : ∀ candidate ∈ seen, Answered env old e routes candidate

lemma map_pfx_replaceRoute (new : Route) (routes : List Route) :
    (replaceRoute new routes).map Route.pfx = routes.map Route.pfx := by
  induction routes with
  | nil => rfl
  | cons head tail ih =>
    rw [replaceRoute]
    split
    next here => rw [map_cons, map_cons, beq_iff_eq.mp here]
    rw [map_cons, map_cons, ih]

lemma mem_replaceRoute (distinct : (routes.map Route.pfx).Nodup)
    (found : ∃ old ∈ routes, old.pfx = new.pfx) :
    route ∈ replaceRoute new routes ↔ route = new ∨ (route ∈ routes ∧ route.pfx ≠ new.pfx) := by
  induction routes with
  | nil => simp at found
  | cons head tail ih =>
    rw [map_cons, nodup_cons] at distinct
    rw [replaceRoute]
    split
    next here =>
      rw [beq_iff_eq] at here
      have apart : ∀ other ∈ tail, other.pfx ≠ new.pfx := by
        intro other mem equal
        exact distinct.1 (mem_map.mpr ⟨other, mem, equal.trans here.symm⟩)
      simp only [mem_cons]
      constructor
      · rintro (rfl | later)
        · exact .inl rfl
        exact .inr ⟨.inr later, apart route later⟩
      rintro (rfl | ⟨rfl | later, different⟩)
      · exact .inl rfl
      · exact absurd here different
      exact .inr later
    rename_i here
    rw [beq_iff_eq] at here
    have later : ∃ old ∈ tail, old.pfx = new.pfx := by
      obtain ⟨old, mem, equal⟩ := found
      obtain rfl | later := mem_cons.mp mem
      · exact absurd equal here
      exact ⟨old, later, equal⟩
    simp only [mem_cons, ih distinct.2 later]
    constructor
    · rintro (rfl | rfl | both)
      · exact .inr ⟨.inl rfl, here⟩
      · exact .inl rfl
      exact .inr ⟨.inr both.1, both.2⟩
    rintro (rfl | ⟨rfl | later, different⟩)
    · exact .inr (.inl rfl)
    · exact .inl rfl
    exact .inr (.inr ⟨later, different⟩)

lemma Offers.of_tabled (tabled : Tabled e routes e') (offers : Offers e' candidate route) :
    Offers e candidate route := by
  obtain ⟨_, _, _, _, rfl⟩ := tabled.others
  exact ⟨⟨offers.eligible.used, offers.eligible.foreign, offers.eligible.feasible⟩,
    offers.finite, offers.metric, offers.chosen⟩

lemma Eligible.to_tabled (tabled : Tabled e routes e') (eligible : Eligible e candidate) :
    Eligible e' candidate := by
  obtain ⟨_, _, _, _, rfl⟩ := tabled.others
  exact ⟨eligible.used, eligible.foreign, eligible.feasible⟩

lemma offer_tabled (tabled : Tabled e routes e') (policy : UInt64 → Prefix → UInt16 → Bool)
    (candidate : Candidate) :
    offer policy e' candidate = offer policy e candidate := by
  obtain ⟨_, _, _, _, rfl⟩ := tabled.others
  rfl

lemma mem_localRoutes :
    route ∈ localRoutes e ↔ ∃ entry ∈ e.locals, entry.used = true ∧ localRoute e entry = route := by
  simp [localRoutes, routesOf, and_assoc]

lemma pfx_ne_of_foreign (foreign : (localFor e p).isSome = false) {route : Route}
    (mem : route ∈ localRoutes e) : route.pfx ≠ p := by
  obtain ⟨entry, inTable, used, rfl⟩ := mem_localRoutes.mp mem
  exact localFor_none foreign entry inTable used

/-- One more candidate: routes may be replaced by better ones, never local ones. -/
lemma Picks.extend (picks : Picks env old e seen routes)
    (each : ∀ route ∈ routes', route ∈ routes ∨ Offers e candidate route)
    (locals : ∀ route ∈ localRoutes e, route ∈ routes') (distinct : (routes'.map Route.pfx).Nodup)
    (kept : ∀ route ∈ routes, ∃ better ∈ routes', better.pfx = route.pfx ∧
      Stands (previousLink old route.pfx) better route)
    (answered : Answered env old e routes' candidate) :
    Picks env old e (seen ++ [candidate]) routes' where
  each route mem := by
    obtain before | offers := each route mem
    · obtain isLocal | ⟨other, inSeen, offers⟩ := picks.each route before
      · exact .inl isLocal
      exact .inr ⟨other, mem_append_left _ inSeen, offers⟩
    exact .inr ⟨candidate, by simp, offers⟩
  locals := locals
  distinct := distinct
  best other mem := by
    obtain inSeen | last := mem_append.mp mem
    · intro policy steady eligible finite
      rcases picks.best other inSeen policy steady eligible finite with
        ⟨route, inTable, samePfx, stands⟩
      obtain ⟨better, inTable', samePfx', stands'⟩ := kept route inTable
      rw [samePfx] at stands'
      exact ⟨better, inTable', samePfx'.trans samePfx, stands'.trans stands⟩
    rw [mem_singleton.mp last]
    exact answered

lemma Picks.visit (picks : Picks env old e seen routes) (tabled : Tabled e routes e')
    (visit : Visit env old e' candidate routes') :
    Picks env old e (seen ++ [candidate]) routes' := by
  have table := tabled.routes
  have value : ∀ policy, Steady env e.consultations policy →
      (metric env e' candidate).1 = offer policy e candidate := by
    intro policy steady
    rw [metric_steady steady tabled.asked, offer_tabled tabled]
  have itself : ∀ route ∈ routes, ∃ better ∈ routes, better.pfx = route.pfx ∧
      Stands (previousLink old route.pfx) better route :=
    fun route mem => ⟨route, mem, rfl, stands_refl _ route⟩
  have answer : ∀ table route, route ∈ table → route.pfx = candidate.route.pfx →
      Stands (previousLink old candidate.route.pfx) route (chosen env e' candidate) →
      Answered env old e table candidate := by
    intro table route mem samePfx stands policy steady _ _
    rw [chosen, value policy steady] at stands
    exact ⟨route, mem, samePfx, stands⟩
  cases visit with
  | skip useless =>
    rw [table]
    refine picks.extend (fun _ => .inl) picks.locals picks.distinct itself ?_
    intro policy steady eligible finite
    rw [← value policy steady] at finite
    exact absurd (useless (eligible.to_tabled tabled)) finite
  | add offers absent =>
    rw [table]
    have fresh := routeFor_none absent
    rw [table] at fresh
    refine picks.extend ?_ ?_ ?_ ?_ ?_
    · intro route mem
      obtain before | last := mem_append.mp mem
      · exact .inl before
      rw [mem_singleton.mp last]
      exact .inr (offers.of_tabled tabled)
    · exact fun route mem => mem_append_left _ (picks.locals route mem)
    · rw [map_append, nodup_append]
      refine ⟨picks.distinct, by simp, ?_⟩
      intro p inTable q last equal
      obtain ⟨route, mem, rfl⟩ := mem_map.mp inTable
      exact fresh route mem (equal.trans (mem_singleton.mp last))
    · exact fun route mem =>
        ⟨route, mem_append_left _ mem, rfl, stands_refl _ route⟩
    exact answer _ (chosen env e' candidate) (by simp) rfl (stands_refl _ _)
  | replace offers route found beats =>
    rw [table]
    have ⟨inTable, samePfx⟩ := routeFor_some found
    rw [table] at inTable
    have members : ∀ other, other ∈ replaceRoute (chosen env e' candidate) routes ↔
        other = chosen env e' candidate ∨ (other ∈ routes ∧ other.pfx ≠ candidate.route.pfx) :=
      fun other => mem_replaceRoute picks.distinct ⟨_, inTable, samePfx⟩
    have foreign := (offers.of_tabled tabled).eligible.foreign
    refine picks.extend ?_ ?_ ?_ ?_ ?_
    · intro other mem
      obtain rfl | kept := (members other).mp mem
      · exact .inr (offers.of_tabled tabled)
      exact .inl kept.1
    · intro other isLocal
      exact (members other).mpr
        (.inr ⟨picks.locals other isLocal, pfx_ne_of_foreign foreign isLocal⟩)
    · rw [map_pfx_replaceRoute]
      exact picks.distinct
    · intro other mem
      by_cases same : other.pfx = candidate.route.pfx
      · have equal : other = route :=
          inj_on_of_nodup_map picks.distinct mem inTable (same.trans samePfx.symm)
        rw [equal, samePfx]
        exact ⟨_, (members _).mpr (.inl rfl), rfl, stands_of_beats beats⟩
      exact ⟨other, (members other).mpr (.inr ⟨mem, same⟩), rfl, stands_refl _ other⟩
    exact answer _ _ ((members _).mpr (.inl rfl)) rfl (stands_refl _ _)
  | keep route found stands =>
    have ⟨inTable, samePfx⟩ := routeFor_some found
    rw [table] at inTable ⊢
    exact picks.extend (fun _ => .inl) picks.locals picks.distinct itself
      (answer _ route inTable samePfx stands)

lemma Picks.start (distinct : (keys LocalPrefix.used (·.pfx) e.locals).Nodup) :
    Picks env old e [] (localRoutes e) where
  each _ := .inl
  locals _ := id
  distinct := by
    simpa [localRoutes, routesOf, SlotTable.keys, Function.comp_def, localRoute] using distinct
  best := by simp

lemma selectCandidates_ok (tabled : Tabled e (localRoutes e) start)
    (distinct : (keys LocalPrefix.used (·.pfx) e.locals).Nodup)
    (ended : e.candidates.foldlM (selectCandidate env old) start = .ok e') :
    ∃ routes, Tabled e routes e' ∧ Picks env old e e.candidates routes := by
  refine foldlM_ok_of_seen
    (fun seen state => ∃ routes, Tabled e routes state ∧ Picks env old e seen routes)
    ?_ ⟨localRoutes e, tabled, Picks.start distinct⟩ ended
  rintro seen candidate rest state next _ ⟨routes, tabled', picks⟩ selected
  obtain ⟨routes', step, visit⟩ := selectCandidate_visit selected
  exact ⟨routes', tabled'.trans step, picks.visit tabled' visit⟩

end WendyLite.Babel
