import WendyLite.Babel.Offers

/-! # What selection selects

A selection that does not stop the engine leaves a table that is determined by
the local prefixes, the candidates and the suppressed prefixes. The remaining
loops of `select_routes` are specified one by one, and `Selected` gathers the
result.
-/

namespace WendyLite.Babel

open SlotTable List

variable {env : Env} {provenance : Provenance} {e e' e'' : Engine} {old : List Route}

/-! ## Suppression -/

def suppressedUntil (e : Engine) : UInt64 := e.now + hold e.config.updateMs.toUInt64

def Extends (e : Engine) (drop drop' : Drop) : Prop :=
  drop'.used = true ∧ drop'.pfx = drop.pfx ∧
    (drop'.expires = drop.expires ∨ drop'.expires = suppressedUntil e)

structure Suppresses (old : List Route) (e e' : Engine) : Prop where
  inputs : SameInputs e e'
  routes : e'.routes = e.routes
  kept : ∀ drop ∈ e.drops, drop.used = true → ∃ drop' ∈ e'.drops, Extends e drop drop'
  only : ∀ drop ∈ e'.drops, drop.used = true → drop ∈ e.drops ∨
    ∃ route ∈ old, route.unreachable = false ∧ route.pfx = drop.pfx

lemma Suppresses.refl (old : List Route) (e : Engine) : Suppresses old e e :=
  ⟨SameInputs.refl e, rfl, fun drop mem used => ⟨drop, mem, used, rfl, .inl rfl⟩,
    fun _ mem _ => .inl mem⟩

lemma SameInputs.suppressedUntil (same : SameInputs e e') :
    suppressedUntil e' = suppressedUntil e := by
  rw [Babel.suppressedUntil, Babel.suppressedUntil, same.now, same.config]

lemma Suppresses.trans (first : Suppresses old e e') (second : Suppresses old e' e'') :
    Suppresses old e e'' where
  inputs := first.inputs.trans second.inputs
  routes := second.routes.trans first.routes
  kept drop mem used := by
    obtain ⟨drop', member', used', pfx', expires'⟩ := first.kept drop mem used
    obtain ⟨drop'', member'', used'', pfx'', expires''⟩ := second.kept drop' member' used'
    refine ⟨drop'', member'', used'', pfx''.trans pfx', ?_⟩
    rw [first.inputs.suppressedUntil] at expires''
    obtain same | new := expires''
    · rw [same]
      exact expires'
    exact .inr new
  only drop mem used := by
    obtain before | lost := second.only drop mem used
    · exact first.only drop before used
    exact .inr lost

def suppression (e : Engine) (p : Prefix) : Drop :=
  { used := true, pfx := p, expires := suppressedUntil e }

/-- Writing the suppression of a prefix over its entry, or to a free slot. -/
lemma set_suppression {p : Prefix} {drops : List Drop} {slot : Nat} {old : Drop}
    (same : drops.filter Drop.used = e.drops.filter Drop.used)
    (located : drops[slot]? = some old) (place : old.used = true → old.pfx = p) :
    suppression e p ∈ drops.set slot (suppression e p) ∧ (∀ drop ∈ e.drops, drop.used = true →
        ∃ drop' ∈ drops.set slot (suppression e p), Extends e drop drop') ∧
      ∀ drop ∈ drops.set slot (suppression e p), drop.used = true →
        drop ∈ e.drops ∨ p = drop.pfx := by
  have written : suppression e p ∈ drops.set slot (suppression e p) := mem_set_self located
  refine ⟨written, ?_, ?_⟩
  · intro drop mem used
    have inTable := (mem_live_of_filter_eq same used).mpr mem
    by_cases overwritten : drop = old
    · subst overwritten
      exact ⟨suppression e p, written, rfl, (place used).symm, .inr rfl⟩
    exact ⟨drop, mem_set_of_ne located inTable overwritten, used, rfl, .inl rfl⟩
  intro drop mem used
  obtain before | rfl := mem_or_eq_of_mem_set mem
  · exact .inl ((mem_live_of_filter_eq same used).mp before)
  exact .inr rfl

lemma dropRoute_running {p : Prefix} (running : (dropRoute env e p).stopped = false) :
    e.stopped = false ∧ (dropRoute env e p).routes = e.routes ∧
      suppression e p ∈ (dropRoute env e p).drops ∧ (∀ drop ∈ e.drops, drop.used = true →
        ∃ drop' ∈ (dropRoute env e p).drops, Extends e drop drop') ∧
      ∀ drop ∈ (dropRoute env e p).drops, drop.used = true → drop ∈ e.drops ∨ p = drop.pfx := by
  simp only [dropRoute] at running ⊢
  split
  next slot found =>
    obtain ⟨old, located, accepted⟩ := located_of_findIdx? found
    rw [found] at running
    simp only [Bool.and_eq_true, beq_iff_eq] at accepted
    exact ⟨running, rfl, set_suppression rfl located fun _ => accepted.2⟩
  rename_i absent
  rw [absent] at running
  simp only at running ⊢
  split at running
  · cases running
  rename_i slot drops heap acquired
  obtain ⟨⟨old, located, free⟩, same, _⟩ := acquire_some rfl acquired
  refine ⟨running, rfl, set_suppression same located fun used => ?_⟩
  rw [free] at used
  cases used

lemma suppress_running (running : (suppress env e lost).stopped = false) :
    e.stopped = false ∧ (lost ∈ old → Suppresses old e (suppress env e lost)) ∧
      (lost.unreachable = false → routeFor e lost.pfx = none →
        suppression e lost.pfx ∈ (suppress env e lost).drops) := by
  by_cases gone : lost.unreachable || (routeFor e lost.pfx).isSome
  · rw [suppress, if_pos gone] at running ⊢
    refine ⟨running, fun _ => Suppresses.refl old e, fun reachable absent => ?_⟩
    simp [reachable, absent] at gone
  have rest : OutputOnly (dropRoute env e lost.pfx) (suppress env e lost) := by
    have triggered := trigger_outputOnly (dropRoute env e lost.pfx) true
    rw [suppress, if_neg gone]
    simp only
    split
    · exact triggered
    split
    · exact triggered
    exact triggered.trans (request_outputOnly ..)
  rw [rest.stopped] at running
  obtain ⟨before, routes, written, kept, only⟩ := dropRoute_running running
  simp only [Bool.or_eq_true, not_or, Bool.not_eq_true] at gone
  rw [rest.drops]
  refine ⟨before, fun mem => ⟨suppress_sameInputs env e lost, rest.routes.trans routes, ?_, ?_⟩,
    fun _ _ => written⟩
  · rw [rest.drops]
    exact kept
  rw [rest.drops]
  exact fun drop inTable used => (only drop inTable used).imp id fun samePfx =>
    ⟨lost, mem, gone.1, samePfx⟩

lemma suppressAll_running {routes : List Route} (listed : ∀ route ∈ routes, route ∈ old)
    (running : (routes.foldl (suppress env) e).stopped = false) :
    e.stopped = false ∧ Suppresses old e (routes.foldl (suppress env) e) ∧
      ∀ route ∈ routes, route.unreachable = false → routeFor e route.pfx = none →
        ∃ drop ∈ (routes.foldl (suppress env) e).drops, drop.used = true ∧
          drop.pfx = route.pfx ∧ drop.expires = suppressedUntil e := by
  induction routes generalizing e with
  | nil => exact ⟨running, Suppresses.refl old e, by simp⟩
  | cons lost rest ih =>
    rw [foldl_cons] at running ⊢
    rcases ih (fun route mem => listed route (.tail _ mem)) running
      with ⟨running', later, laterLost⟩
    obtain ⟨running'', first, firstLost⟩ := suppress_running running'
    have first := first (listed lost (.head _))
    have until_ := first.inputs.suppressedUntil
    refine ⟨running'', first.trans later, ?_⟩
    intro route mem reachable absent
    obtain rfl | inRest := mem_cons.mp mem
    · obtain ⟨drop, inTable, used, pfx, expires⟩ := later.kept _ (firstLost reachable absent) rfl
      rw [until_] at expires
      exact ⟨drop, inTable, used, pfx, expires.elim id id⟩
    have absent' : routeFor (suppress env e lost) route.pfx = none := by
      rw [routeFor, first.routes]
      exact absent
    rw [← until_]
    exact laterLost route inRest reachable absent'

/-! ## Suppressed routes -/

def releases (e : Engine) (drop : Drop) : Bool :=
  drop.used && ((routeFor e drop.pfx).isSome || drop.expires ≤ e.now)

def release (e : Engine) (drop : Drop) : Drop :=
  if releases e drop then { drop with used := false } else drop

def suppressedRoute (p : Prefix) : Route := { pfx := p, metric := infinity, unreachable := true }

def suppressedRoutes (e : Engine) (drops : List Drop) : List Route :=
  (drops.filter fun drop => drop.used && !releases e drop).map (suppressedRoute ·.pfx)

lemma suppressedRoutes_concat (e : Engine) (drops : List Drop) (drop : Drop) :
    suppressedRoutes e (drops ++ [drop]) = suppressedRoutes e drops ++
        if drop.used && !releases e drop then [suppressedRoute drop.pfx] else [] := by
  rw [suppressedRoutes, suppressedRoutes, filter_append, map_append, filter_singleton]
  cases drop.used && !releases e drop <;> rfl

variable {drop : Drop}

lemma selectDrop_eq (located : e.drops[slot]? = some drop) :
    selectDrop env e slot = if releases e drop then
        .ok { e with drops := e.drops.set slot { drop with used := false } }
      else if drop.used then pushRoute env e (suppressedRoute drop.pfx) else .ok e := by
  rw [selectDrop, located, releases]
  cases used : drop.used with
  | false => simp [used]
  | true => simp [used, suppressedRoute]

lemma selectDrop_step (whole : e.drops = left ++ drop :: right)
    (distinct : (keys Drop.used (·.pfx) e.drops).Nodup) {state next : Engine}
    (tabled : Tabled { e with drops := left.map (release e) ++ drop :: right }
      (e.routes ++ suppressedRoutes e left) state)
    (selected : selectDrop env state left.length = .ok next) :
    Tabled { e with drops := (left ++ [drop]).map (release e) ++ right }
      (e.routes ++ suppressedRoutes e (left ++ [drop])) next := by
  have drops : state.drops = left.map (release e) ++ drop :: right := by
    obtain ⟨_, _, _, _, rfl⟩ := tabled.others
    rfl
  have here : state.drops[left.length]? = some drop := by
    rw [drops, getElem?_append_right (by simp)]
    simp
  -- The prefixes suppressed before this one are other prefixes.
  have others : drop.used = true →
      (suppressedRoutes e left).find? (fun route => route.pfx == drop.pfx) = none := by
    intro used
    rw [find?_eq_none]
    intro route mem
    obtain ⟨other, inLeft, rfl⟩ := mem_map.mp mem
    rw [mem_filter, Bool.and_eq_true] at inLeft
    rw [whole, SlotTable.keys_append, SlotTable.keys_cons, if_pos used, nodup_append] at distinct
    simpa [suppressedRoute] using
      distinct.2.2 _ (SlotTable.mem_keys.mpr ⟨other, inLeft.1, inLeft.2.1, rfl⟩) _ (.head _)
  have same : releases state drop = releases e drop := by
    cases used : drop.used with
    | false => simp [releases, used]
    | true =>
      have now : state.now = e.now := by
        obtain ⟨_, _, _, _, rfl⟩ := tabled.others
        rfl
      have found : routeFor state drop.pfx = routeFor e drop.pfx := by
        rw [routeFor, routeFor, tabled.routes, find?_append, others used, Option.or_none]
      rw [releases, releases, found, now]
  rw [selectDrop_eq here, same] at selected
  rw [suppressedRoutes_concat, map_append, map_singleton, append_assoc, singleton_append, release]
  split at selected
  next freed =>
    cases selected
    simp only [freed, if_true, Bool.not_true, Bool.and_false, Bool.false_eq_true, if_false,
      append_nil]
    obtain ⟨later, spent, capacity, scratch, heap, asked, rfl⟩ := tabled
    refine ⟨later, spent, capacity, scratch, heap, asked, ?_⟩
    simp
  rename_i kept
  rw [Bool.not_eq_true] at kept
  split at selected
  next used =>
    have pushed := tabled.trans (pushRoute_ok selected)
    simpa [kept, used, tabled.routes] using pushed
  rename_i unused
  cases selected
  simpa [kept, unused] using tabled

/-- The drops loop clears the entries whose suppression ends and adds an
unreachable route for each other one. -/
lemma selectDrops_ok (distinct : (keys Drop.used (·.pfx) e.drops).Nodup)
    (ended : (List.range e.drops.length).foldlM (selectDrop env) e = .ok e') :
    Tabled { e with drops := e.drops.map (release e) }
      (e.routes ++ suppressedRoutes e e.drops) e' := by
  have prefixes : ∀ count ≤ e.drops.length, ∀ final,
      (range count).foldlM (selectDrop env) e = .ok final →
      Tabled { e with drops := (e.drops.take count).map (release e) ++ e.drops.drop count }
        (e.routes ++ suppressedRoutes e (e.drops.take count)) final := by
    intro count
    induction count with
    | zero =>
      intro _ final ended
      cases ended
      simpa [suppressedRoutes] using Tabled.refl e
    | succ count ih =>
      intro bound final ended
      rw [range_succ, foldlM_append] at ended
      cases outcome : (range count).foldlM (selectDrop env) e with
      | error state =>
        rw [outcome] at ended
        cases ended
      | ok state =>
        rw [outcome] at ended
        have tabled := ih (by omega) state outcome
        have here : e.drops.drop count = e.drops[count] :: e.drops.drop (count + 1) :=
          drop_eq_getElem_cons bound
        have whole : e.drops =
            e.drops.take count ++ e.drops[count] :: e.drops.drop (count + 1) := by
          rw [← here, take_append_drop]
        have size : (e.drops.take count).length = count := by
          rw [length_take]
          omega
        rw [here] at tabled
        have selected : selectDrop env state (e.drops.take count).length = .ok final := by
          rw [size]
          exact (bind_pure _).symm.trans ended
        have next := selectDrop_step whole distinct tabled selected
        rw [← take_concat_get' _ _ bound]
        exact next
  have all := prefixes e.drops.length le_rfl e' ended
  simpa using all

/-! ## Sorting -/

instance : Std.Total fun a b : Route => Prefix.cmp a.pfx b.pfx ≠ .lt where
  total a b := by
    by_contra both
    rw [not_or, not_not, not_not] at both
    exact Std.OrientedCmp.not_lt_of_lt both.1 both.2

instance : IsTrans Route fun a b => Prefix.cmp a.pfx b.pfx ≠ .lt where
  trans _ _ _ first second :=
    Ordering.ne_lt_iff_isGE.mpr (Std.TransCmp.isGE_trans (Ordering.ne_lt_iff_isGE.mp first)
      (Ordering.ne_lt_iff_isGE.mp second))

def Sorted (routes : List Route) : Prop :=
  routes.Pairwise fun a b => Prefix.cmp a.pfx b.pfx = .lt

lemma sortRoutes_sorted (distinct : (routes.map Route.pfx).Nodup) :
    Sorted (sortRoutes routes) := by
  have descending : (routes.foldl
      (fun sorted route => sorted.orderedInsert (fun a b => Prefix.cmp a.pfx b.pfx ≠ .lt) route)
      []).Pairwise (fun a b => Prefix.cmp a.pfx b.pfx ≠ .lt) :=
    foldlRecOn routes _ List.Pairwise.nil fun sorted ordered route _ =>
      ordered.orderedInsert route sorted
  have ascending : (sortRoutes routes).Pairwise fun a b => Prefix.cmp b.pfx a.pfx ≠ .lt :=
    pairwise_reverse.mpr descending
  have different : (sortRoutes routes).Pairwise fun a b => a.pfx ≠ b.pfx := by
    rw [← pairwise_map]
    exact ((sortRoutes_perm routes).map Route.pfx).nodup_iff.mpr distinct
  refine (ascending.and different).imp fun {a b} both => ?_
  cases order : Prefix.cmp a.pfx b.pfx with
  | lt => rfl
  | eq => exact absurd (Prefix.eq_of_cmp_eq order) both.2
  | gt => exact absurd (Std.OrientedCmp.gt_iff_lt.mp order) both.1

/-! ## The table -/

def Reaches (routes : List Route) (p : Prefix) : Prop :=
  ∃ route ∈ routes, route.pfx = p ∧ route.unreachable = false

instance (routes : List Route) (p : Prefix) : Decidable (Reaches routes p) :=
  inferInstanceAs (Decidable (∃ route ∈ routes, _))

/-- The table that a selection from `e` leaves in `e'`. -/
structure Selected (env : Env) (old : List Route) (e e' : Engine) : Prop where
  inputs : SameInputs e e'
  each : ∀ route ∈ e'.routes, route ∈ localRoutes e ∨
    (∃ candidate ∈ e.candidates, Offers e candidate route) ∨
    ∃ drop ∈ e'.drops, drop.used = true ∧ route = suppressedRoute drop.pfx
  locals : ∀ route ∈ localRoutes e, route ∈ e'.routes
  best : ∀ candidate ∈ e.candidates, Answered env old e e'.routes candidate
  drops : ∀ drop ∈ e'.drops, drop.used = true →
    e.now < drop.expires ∧ suppressedRoute drop.pfx ∈ e'.routes
  lost : ∀ route ∈ old, route.unreachable = false → Reaches e'.routes route.pfx ∨
    ∃ drop ∈ e'.drops, drop.used = true ∧ drop.pfx = route.pfx ∧ drop.expires = suppressedUntil e
  kept : ∀ drop ∈ e.drops, drop.used = true → e.now < drop.expires →
    Reaches e'.routes drop.pfx ∨ ∃ drop' ∈ e'.drops, Extends e drop drop'
  only : ∀ drop ∈ e'.drops, drop.used = true → drop ∈ e.drops ∨
    ∃ route ∈ old, route.unreachable = false ∧ route.pfx = drop.pfx
  sorted : Sorted e'.routes

lemma selectTable_stages (ended : selectTable env old e = .ok e') : ∃ first second third,
      e.locals.foldlM (selectLocal env) { e with routes := [] } = .ok first ∧
      first.candidates.foldlM (selectCandidate env old) first = .ok second ∧
      (List.range (old.foldl (suppress env) second).drops.length).foldlM (selectDrop env)
        (old.foldl (suppress env) second) = .ok third ∧
      e' = { third with routes := sortRoutes third.routes } := by
  rw [selectTable] at ended
  cases locals : e.locals.foldlM (selectLocal env) { e with routes := [] } with
  | error state =>
    rw [locals] at ended
    cases ended
  | ok first =>
    cases candidates : first.candidates.foldlM (selectCandidate env old) first with
    | error state =>
      rw [locals] at ended
      simp only [candidates, bind, Except.bind] at ended
      cases ended
    | ok second =>
      cases drops : (range (old.foldl (suppress env) second).drops.length).foldlM
          (selectDrop env) (old.foldl (suppress env) second) with
      | error state =>
        rw [locals] at ended
        simp only [candidates, drops, bind, Except.bind] at ended
        cases ended
      | ok third =>
        rw [locals] at ended
        simp only [candidates, drops, bind, Except.bind] at ended
        cases ended
        exact ⟨first, second, third, rfl, candidates, drops, rfl⟩

lemma mem_map_release : (drop ∈ e.drops.map (release e) ∧ drop.used = true) ↔
      drop ∈ e.drops ∧ drop.used = true ∧ releases e drop = false := by
  constructor
  · rintro ⟨mem, used⟩
    obtain ⟨old, inTable, rfl⟩ := mem_map.mp mem
    rw [release] at used ⊢
    split at used
    · cases used
    rename_i kept
    rw [if_neg kept]
    exact ⟨inTable, used, by simpa using kept⟩
  rintro ⟨inTable, used, kept⟩
  exact ⟨mem_map.mpr ⟨drop, inTable, by simp [release, kept]⟩, used⟩

variable {route : Route}

lemma mem_suppressedRoutes :
    route ∈ suppressedRoutes e drops ↔ ∃ drop ∈ drops, drop.used = true ∧ releases e drop = false ∧
        suppressedRoute drop.pfx = route := by
  simp [suppressedRoutes, and_assoc]

lemma releases_eq_false (used : drop.used = true) :
    releases e drop = false ↔ routeFor e drop.pfx = none ∧ e.now < drop.expires := by
  simp [releases, used]

lemma Sound.now_lt_suppressedUntil (sound : Sound env provenance e) :
    e.now < suppressedUntil e := by
  have minimum := UInt32.le_iff_toNat_le.mp sound.config.updateMin
  have literal : (100 : UInt32).toNat = 100 := rfl
  rw [UInt64.lt_iff_toNat_lt, suppressedUntil, sound.toNat_suppression]
  omega

lemma selectOffers_ok (sound : Sound env provenance e)
    (locals : e.locals.foldlM (selectLocal env) { e with routes := [] } = .ok first)
    (candidates : first.candidates.foldlM (selectCandidate env old) first = .ok second) :
    Sound env provenance second ∧
      ∃ routes, Tabled e routes second ∧ Picks env old e e.candidates routes := by
  have emptied := clearRoutes_keeps sound
  have kept1 : Keeps env provenance _ (settle (.ok first)) := locals ▸
    selectLocals_keeps sound.locals.each sound.locals.distinct emptied.sound (by simp)
  rw [settle_ok] at kept1
  have tabled : Tabled e (localRoutes e) first := selectLocals_ok locals
  have kept2 := selectCandidates_keeps kept1.sound old kept1.sound.candidates.each
  rw [candidates, settle_ok] at kept2
  have same : first.candidates = e.candidates := by
    obtain ⟨_, _, _, _, rfl⟩ := tabled.others
    rfl
  rw [same] at candidates
  exact ⟨kept2.sound, selectCandidates_ok tabled sound.locals.distinct candidates⟩

lemma selectTable_loops (sound : Sound env provenance e) (oldOk : OldOk old)
    (ended : selectTable env old e = .ok e') :
    ∃ routes offered suppressed, Tabled e routes offered ∧ Picks env old e e.candidates routes ∧
      old.foldl (suppress env) offered = suppressed ∧
      ∃ filled, Tabled { suppressed with drops := suppressed.drops.map (release suppressed) }
          (suppressed.routes ++ suppressedRoutes suppressed suppressed.drops) filled ∧
        (filled.routes.map Route.pfx).Nodup ∧
        e' = { filled with routes := sortRoutes filled.routes } := by
  obtain ⟨first, second, third, locals, candidates, drops, rfl⟩ := selectTable_stages ended
  obtain ⟨sound2, routes, tabled, picks⟩ := selectOffers_ok sound locals candidates
  have kept3 := suppressAll_keeps sound2 oldOk
  have kept4 := selectDrops_keeps kept3.sound
    (range (old.foldl (suppress env) second).drops.length)
  rw [drops, settle_ok] at kept4
  have distinct := kept4.sound.routes.distinct
  rw [SlotTable.keys, filter_true] at distinct
  exact ⟨routes, second, _, tabled, picks, rfl, third,
    selectDrops_ok kept3.sound.drops.distinct drops, distinct, rfl⟩

lemma routeFor_eq_none :
    routeFor e p = none ↔ ∀ route ∈ e.routes, route.pfx ≠ p := by
  simp [routeFor]

lemma unreachable_of_picked (sound : Sound env provenance e)
    (picked : route ∈ localRoutes e ∨ ∃ candidate ∈ e.candidates, Offers e candidate route) :
    route.unreachable = false := by
  obtain isLocal | ⟨candidate, mem, offers⟩ := picked
  · obtain ⟨_, _, _, rfl⟩ := mem_localRoutes.mp isLocal
    rfl
  rw [offers.chosen]
  exact (sound.candidates.each candidate mem offers.eligible.used).plain.2

lemma selectTable_selected (sound : Sound env provenance e) (oldOk : OldOk old)
    (ended : selectTable env old e = .ok e') (running : e'.stopped = false) :
    Selected env old e e' := by
  have inputs := selectTable_sameInputs env old e
  rw [ended, settle_ok] at inputs
  rcases selectTable_loops sound oldOk ended with
    ⟨routes, offered, suppressed, tabled, picks, suppression, filled, filling, distinct, rfl⟩
  have still : suppressed.stopped = false := by
    obtain ⟨_, _, _, _, rfl⟩ := filling.others
    exact running
  rw [← suppression] at still
  obtain ⟨_, suppresses, lost⟩ := suppressAll_running (fun _ => id) still
  rw [suppression] at suppresses lost
  have before : SameInputs e suppressed ∧ offered.drops = e.drops ∧
      suppressedUntil offered = suppressedUntil e := by
    refine ⟨tabled.inputs.trans suppresses.inputs, ?_, tabled.inputs.suppressedUntil⟩
    obtain ⟨_, _, _, _, rfl⟩ := tabled.others
    rfl
  have table : suppressed.routes = routes := suppresses.routes.trans tabled.routes
  have members : ∀ route, route ∈ sortRoutes filled.routes ↔
      route ∈ routes ∨ route ∈ suppressedRoutes suppressed suppressed.drops := by
    intro route
    rw [(sortRoutes_perm _).mem_iff, filling.routes, table, mem_append]
  have reaches : ∀ p, routeFor suppressed p ≠ none → Reaches (sortRoutes filled.routes) p := by
    intro p found
    obtain ⟨route, lookup⟩ := Option.ne_none_iff_exists'.mp found
    have ⟨inTable, samePfx⟩ := routeFor_some lookup
    rw [table] at inTable
    exact ⟨route, (members route).mpr (.inl inTable), samePfx,
      unreachable_of_picked sound (picks.each route inTable)⟩
  have entries : ∀ drop, (drop ∈ filled.drops ∧ drop.used = true) ↔
      drop ∈ suppressed.drops ∧ drop.used = true ∧ releases suppressed drop = false := by
    intro drop
    obtain ⟨_, _, _, _, rfl⟩ := filling.others
    exact mem_map_release
  -- An entry that has time left ends in the table, reachable or suppressed.
  have remains : ∀ drop ∈ suppressed.drops, drop.used = true → e.now < drop.expires →
      Reaches (sortRoutes filled.routes) drop.pfx ∨ drop ∈ filled.drops := by
    intro drop mem used time
    by_cases absent : routeFor suppressed drop.pfx = none
    · refine .inr ((entries drop).mpr ⟨mem, used, (releases_eq_false used).mpr ⟨absent, ?_⟩⟩).1
      rw [before.1.now]
      exact time
    exact .inl (reaches drop.pfx absent)
  refine ⟨inputs, ?_, ?_, ?_, ?_, ?_, ?_, ?_, sortRoutes_sorted distinct⟩
  · intro route mem
    obtain picked | suppressedToo := (members route).mp mem
    · exact (picks.each route picked).imp id .inl
    obtain ⟨drop, inTable, used, kept, rfl⟩ := mem_suppressedRoutes.mp suppressedToo
    have entry := (entries drop).mpr ⟨inTable, used, kept⟩
    exact .inr (.inr ⟨drop, entry.1, used, rfl⟩)
  · exact fun route isLocal => (members route).mpr (.inl (picks.locals route isLocal))
  · intro candidate mem policy steady eligible finite
    obtain ⟨route, inTable, rest⟩ := picks.best candidate mem policy steady eligible finite
    exact ⟨route, (members route).mpr (.inl inTable), rest⟩
  · intro drop mem used
    have entry := (entries drop).mp ⟨mem, used⟩
    have active := (releases_eq_false used).mp entry.2.2
    refine ⟨before.1.now ▸ active.2, (members _).mpr (.inr ?_)⟩
    exact mem_suppressedRoutes.mpr ⟨drop, entry.1, used, entry.2.2, rfl⟩
  · intro route mem reachable
    by_cases absent : routeFor offered route.pfx = none
    · obtain ⟨drop, inTable, used, samePfx, expires⟩ := lost route mem reachable absent
      rw [before.2.2] at expires
      have time := sound.now_lt_suppressedUntil
      rw [← expires] at time
      obtain found | kept := remains drop inTable used time
      · exact .inl (samePfx ▸ found)
      exact .inr ⟨drop, kept, used, samePfx, expires⟩
    refine .inl (reaches route.pfx ?_)
    rw [routeFor, suppresses.routes]
    exact absent
  · intro drop mem used time
    rcases suppresses.kept drop (before.2.1 ▸ mem) used with
      ⟨drop', member', used', samePfx, expires⟩
    rw [before.2.2] at expires
    have time' : e.now < drop'.expires := by
      obtain same | new := expires
      · rw [same]
        exact time
      rw [new]
      exact sound.now_lt_suppressedUntil
    obtain found | kept := remains drop' member' used' time'
    · exact .inl (samePfx ▸ found)
    exact .inr ⟨drop', kept, used', samePfx, expires⟩
  intro drop mem used
  have entry := (entries drop).mp ⟨mem, used⟩
  exact before.2.1 ▸ suppresses.only drop entry.1 used

/-! ## The whole selection -/

lemma Selected.of_tabled (tabled : Tabled e e.routes e') (selected : Selected env old e' e'') :
    Selected env old e e'' := by
  have same := tabled.inputs
  have locals : localRoutes e' = localRoutes e := by
    obtain ⟨_, _, _, _, rfl⟩ := tabled.others
    rfl
  have drops : e'.drops = e.drops := by
    obtain ⟨_, _, _, _, rfl⟩ := tabled.others
    rfl
  have until_ := same.suppressedUntil
  refine ⟨same.trans selected.inputs, ?_, locals ▸ selected.locals, ?_, same.now ▸ selected.drops,
    until_ ▸ selected.lost, ?_, drops ▸ selected.only, selected.sorted⟩
  · intro route mem
    obtain isLocal | ⟨candidate, inTable, offers⟩ | suppressed := selected.each route mem
    · exact .inl (locals ▸ isLocal)
    · exact .inr (.inl ⟨candidate, same.candidates ▸ inTable, offers.of_tabled tabled⟩)
    exact .inr (.inr suppressed)
  · intro candidate mem policy steady eligible finite
    rw [← offer_tabled tabled] at finite ⊢
    exact selected.best candidate (same.candidates ▸ mem) policy
      (fun consultation later => steady consultation (tabled.asked.trans later))
      (eligible.to_tabled tabled) finite
  intro drop mem used time
  have kept := selected.kept drop (drops ▸ mem) used (same.now ▸ time)
  simpa only [Extends, until_] using kept

lemma Selected.to_output (selected : Selected env old e e') (same : OutputOnly e' e'') :
    Selected env old e e'' := by
  refine ⟨selected.inputs.trans (SameInputs.of_outputOnly same), ?_, ?_, ?_, ?_, ?_, ?_, ?_, ?_⟩
  · rw [same.routes, same.drops]
    exact selected.each
  · rw [same.routes]
    exact selected.locals
  · rw [same.routes]
    exact selected.best
  · rw [same.routes, same.drops]
    exact selected.drops
  · rw [same.routes, same.drops]
    exact selected.lost
  · rw [same.routes, same.drops]
    exact selected.kept
  · rw [same.drops]
    exact selected.only
  rw [same.routes]
  exact selected.sorted

lemma pushRoute_error (jumped : pushRoute env e route = .error e') : e'.stopped = true := by
  rw [pushRoute] at jumped
  split at jumped
  · cases jumped
    rfl
  cases jumped

/-- Selection jumps out of a loop only when it has stopped the engine. -/
lemma selectTable_error (jumped : selectTable env old e = .error e') : e'.stopped = true := by
  rw [selectTable] at jumped
  cases locals : e.locals.foldlM (selectLocal env) { e with routes := [] } with
  | error state =>
    rw [locals] at jumped
    cases jumped
    refine foldlM_error_of_step (fun state => state.stopped = true) ?_ locals
    intro state entry final failed
    rw [selectLocal] at failed
    split at failed
    · exact pushRoute_error failed
    cases failed
  | ok first =>
    rw [locals] at jumped
    cases candidates : first.candidates.foldlM (selectCandidate env old) first with
    | error state =>
      simp only [candidates, bind, Except.bind] at jumped
      cases jumped
      refine foldlM_error_of_step (fun state => state.stopped = true) ?_
        candidates
      intro state candidate final failed
      rw [selectCandidate] at failed
      simp only at failed
      repeat' split at failed
      all_goals first
        | cases failed
        | exact pushRoute_error failed
    | ok second =>
      simp only [candidates, bind, Except.bind] at jumped
      split at jumped
      next state drops =>
        cases jumped
        refine foldlM_error_of_step (fun state => state.stopped = true) ?_ drops
        intro state slot final failed
        rw [selectDrop] at failed
        repeat' split at failed
        all_goals first
          | cases failed
          | exact pushRoute_error failed
      cases jumped

lemma selectRoutes_running (running : (selectRoutes env e).stopped = false) :
    e.stopped = false ∧ ∃ start table, Tabled e e.routes start ∧
      selectTable env e.routes start = .ok table ∧ table.stopped = false ∧
      selectRoutes env e = announceTable env e.routes table := by
  by_cases stopped : e.stopped = true
  · rw [selectRoutes, if_pos stopped, stopped] at running
    cases running
  rw [selectRoutes, if_neg stopped] at running ⊢
  simp only at running ⊢
  split at running
  · cases running
  rename_i capacity heap reserved
  have spent := requests_le_reserve env e.heap env.limits.routes e.scratchCapacity
    e.routes.length
  rw [reserved] at spent
  have start : Tabled e e.routes { e with heap := heap, scratchCapacity := capacity } :=
    ⟨le_rfl, spent, _, _, _, _, rfl⟩
  generalize ({ e with heap := heap, scratchCapacity := capacity } : Engine) = begun at *
  cases outcome : selectTable env e.routes begun with
  | error state =>
    rw [outcome] at running
    simp [bind, Except.bind, selectTable_error outcome] at running
  | ok table =>
    rw [outcome] at running
    have same := (announceTable_outputOnly env e.routes table).stopped
    have still : table.stopped = false := by
      by_contra halted
      rw [Bool.not_eq_false] at halted
      simp [bind, Except.bind, pure, Except.pure, same, halted] at running
    refine ⟨by simpa using stopped, begun, table, start, outcome, still, ?_⟩
    simp [bind, Except.bind, pure, Except.pure, same, still]

lemma selectRoutes_selected (sound : Sound env provenance e)
    (running : (selectRoutes env e).stopped = false) :
    Selected env e.routes e (selectRoutes env e) := by
  obtain ⟨_, start, table, tabled, ended, still, result⟩ := selectRoutes_running running
  have prepared : Sound env provenance start := by
    obtain ⟨_, _, _, _, rfl⟩ := tabled.others
    exact { sound with }
  rw [result]
  exact ((selectTable_selected prepared sound.oldOk ended still).of_tabled tabled).to_output
    (announceTable_outputOnly env e.routes table)

end WendyLite.Babel
