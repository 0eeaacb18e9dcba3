import WendyLite.Babel.Settled

/-! # Capacity

With memory, selection never runs out of room: the prefixes that may appear in
the routes table, or be suppressed, lie in a scope that is no larger than the
table.
-/

namespace WendyLite.Babel

open SlotTable List

variable {env : Env} {provenance : Provenance} {e e' : Engine} {old : List Route}

/-! ## The scope of a selection -/

/-- Everything that a selection may put in a table lies in the scope. -/
structure Within (scope : Finset Prefix) (e : Engine) : Prop where
  candidates : ∀ candidate ∈ e.candidates, candidate.used = true → candidate.route.pfx ∈ scope
  locals : ∀ entry ∈ e.locals, entry.used = true → entry.pfx ∈ scope
  drops : ∀ drop ∈ e.drops, drop.used = true → drop.pfx ∈ scope

def UsableWithin (scope : Finset Prefix) (routes : List Route) : Prop :=
  ∀ route ∈ routes, route.unreachable = false → route.pfx ∈ scope

lemma pushRoute_total (grants : Grants env e.heap.requests) (route : Route)
    (room : e.routes.length + 1 ≤ env.limits.routes) :
    ∃ next, pushRoute env e route = .ok next := by
  have reservation : ∃ grown, (reserve env e.heap env.limits.routes e.routesCapacity
      (e.routes.length + 1)).1 = some grown := reserve_of_grants grants room
  obtain ⟨capacity, reserved⟩ := reservation
  rw [pushRoute]
  split
  next refused =>
    rw [refused] at reserved
    cases reserved
  exact ⟨_, rfl⟩

/-- A table with distinct prefixes in the scope has room for one more of them. -/
lemma room_of_scope {scope : Finset Prefix} {routes : List Route}
    (distinct : (routes.map Route.pfx).Nodup) (inside : ∀ route ∈ routes, route.pfx ∈ scope)
    {p : Prefix} (mem : p ∈ scope) (fresh : ∀ route ∈ routes, route.pfx ≠ p) :
    routes.length + 1 ≤ scope.card := by
  have subset : (routes.map Route.pfx).toFinset ⊆ scope.erase p := by
    intro q inTable
    rw [mem_toFinset, mem_map] at inTable
    obtain ⟨route, inRoutes, rfl⟩ := inTable
    exact Finset.mem_erase.mpr ⟨fresh route inRoutes, inside route inRoutes⟩
  have counted := Finset.card_le_card subset
  rw [toFinset_card_of_nodup distinct, length_map, Finset.card_erase_of_mem mem]
    at counted
  have positive := Finset.card_pos.mpr ⟨p, mem⟩
  omega

lemma Picks.inside (picks : Picks env old e seen routes)
    (listed : ∀ candidate ∈ seen, candidate ∈ e.candidates) (within : Within scope e) :
    ∀ route ∈ routes, route.pfx ∈ scope := by
  intro route mem
  obtain isLocal | ⟨candidate, inSeen, offers⟩ := picks.each route mem
  · obtain ⟨entry, inTable, used, rfl⟩ := mem_localRoutes.mp isLocal
    exact within.locals entry inTable used
  rw [offers.chosen]
  exact within.candidates candidate (listed candidate inSeen) offers.eligible.used

lemma selectCandidate_total (grants : Grants env e.heap.requests)
    (room : candidate.used = true → routeFor e candidate.route.pfx = none →
      e.routes.length + 1 ≤ env.limits.routes) :
    ∃ next, selectCandidate env old e candidate = .ok next := by
  obtain ⟨_, asked, equation⟩ := metric_eq env e candidate
  have same : (metric env e candidate).2 = { e with consultations := asked } := by
    rw [equation]
  rw [selectCandidate]
  split
  · exact ⟨e, rfl⟩
  rename_i considered
  simp only [Bool.or_eq_true, Bool.not_eq_true', not_or, Bool.not_eq_false] at considered
  simp only [same]
  split
  · exact ⟨_, rfl⟩
  split
  next absent =>
    apply pushRoute_total
    · exact grants
    exact room considered.1 absent
  split
  all_goals exact ⟨_, rfl⟩

section Selection

variable {scope : Finset Prefix} (bounded : scope.card ≤ env.limits.routes)
include bounded

lemma selectLocals_total (sound : Sound env provenance e) (within : Within scope e)
    (grants : Grants env e.heap.requests) :
    ∃ final, e.locals.foldlM (selectLocal env) { e with routes := [] } = .ok final := by
  have total : (e.locals.filter LocalPrefix.used).length ≤ scope.card := by
    have subset : (keys LocalPrefix.used (·.pfx) e.locals).toFinset ⊆ scope := by
      intro p mem
      obtain ⟨entry, inTable, used, rfl⟩ := SlotTable.mem_keys.mp (mem_toFinset.mp mem)
      exact within.locals entry inTable used
    have counted := Finset.card_le_card subset
    rw [toFinset_card_of_nodup sound.locals.distinct, SlotTable.keys, length_map] at counted
    exact counted
  have done : ∃ final, e.locals.foldlM (selectLocal env) { e with routes := [] } = .ok final ∧
      Tabled e (routesOf e e.locals) final := by
    refine foldlM_total_of_seen (fun seen state => Tabled e (routesOf e seen) state) ?_
      (Tabled.cleared e)
    intro seen entry rest state whole tabled
    have progress : ∃ next, selectLocal env state entry = .ok next := by
      rw [selectLocal]
      split
      next used =>
        refine pushRoute_total (grants.mono tabled.heap) _ ?_
        rw [whole, filter_append, filter_cons_of_pos used, length_append, length_cons] at total
        rw [tabled.routes, routesOf, length_map]
        omega
      exact ⟨state, rfl⟩
    obtain ⟨next, selected⟩ := progress
    exact ⟨next, selected, selectLocal_ok tabled selected⟩
  exact done.imp fun _ both => both.1

lemma selectCandidates_total {start : Engine} (tabled : Tabled e (localRoutes e) start)
    (sound : Sound env provenance e) (within : Within scope e)
    (grants : Grants env e.heap.requests) :
    ∃ final, e.candidates.foldlM (selectCandidate env old) start = .ok final := by
  have done : ∃ final, e.candidates.foldlM (selectCandidate env old) start = .ok final ∧
      ∃ routes, Tabled e routes final ∧ Picks env old e e.candidates routes := by
    refine foldlM_total_of_seen
      (fun seen state => ∃ routes, Tabled e routes state ∧ Picks env old e seen routes)
      ?_ ⟨localRoutes e, tabled, Picks.start sound.locals.distinct⟩
    rintro seen candidate rest state whole ⟨routes, tabled', picks⟩
    have progress : ∃ next, selectCandidate env old state candidate = .ok next := by
      apply selectCandidate_total (grants.mono tabled'.heap)
      intro used absent
      have fresh := routeFor_eq_none.mp absent
      rw [tabled'.routes] at fresh ⊢
      refine (room_of_scope picks.distinct (picks.inside ?_ within) ?_ fresh).trans bounded
      · exact fun other inSeen => whole ▸ mem_append_left _ inSeen
      exact within.candidates candidate (by simp [whole]) used
    obtain ⟨next, selected⟩ := progress
    obtain ⟨routes', step, visit⟩ := selectCandidate_visit selected
    exact ⟨next, selected, routes', tabled'.trans step, picks.visit tabled' visit⟩
  exact done.imp fun _ both => both.1

lemma dropRoute_total (sound : Sound env provenance e) (grants : Grants env e.heap.requests)
    (inside : ∀ drop ∈ e.drops, drop.used = true → drop.pfx ∈ scope) (mem : p ∈ scope) :
    (dropRoute env e p).stopped = e.stopped := by
  simp only [dropRoute]
  split
  · rfl
  rename_i absent
  have few : (keys Drop.used (·.pfx) e.drops).toFinset.card < env.limits.routes := by
    have subset : (keys Drop.used (·.pfx) e.drops).toFinset ⊆ scope.erase p := by
      intro q inTable
      obtain ⟨drop, inDrops, used, rfl⟩ := SlotTable.mem_keys.mp (mem_toFinset.mp inTable)
      have rejected := findIdx?_eq_none_iff.mp absent drop inDrops
      exact Finset.mem_erase.mpr ⟨by simpa [used] using rejected, inside drop inDrops used⟩
    have counted := Finset.card_le_card subset
    rw [Finset.card_erase_of_mem mem] at counted
    have positive := Finset.card_pos.mpr ⟨p, mem⟩
    omega
  have room := exists_free_or_lt sound.drops.distinct few
  split
  next heap refused =>
    have full : (∀ drop ∈ e.drops, drop.used = true) ∧ env.limits.routes ≤ e.drops.length :=
      acquire_none grants (by rw [refused])
    obtain ⟨drop, inDrops, free⟩ | short := room
    · rw [full.1 drop inDrops] at free
      cases free
    omega
  rfl

lemma suppress_total (sound : Sound env provenance e) (grants : Grants env e.heap.requests)
    (inside : ∀ drop ∈ e.drops, drop.used = true → drop.pfx ∈ scope)
    (mem : lost.unreachable = false → lost.pfx ∈ scope) :
    (suppress env e lost).stopped = e.stopped := by
  rw [suppress]
  split
  · rfl
  rename_i gone
  simp only [Bool.or_eq_true, not_or, Bool.not_eq_true] at gone
  have dropped := dropRoute_total bounded sound grants inside (mem gone.1)
  have triggered := (trigger_outputOnly (dropRoute env e lost.pfx) true).stopped.trans dropped
  simp only
  split
  · exact triggered
  split
  · exact triggered
  exact (request_outputOnly ..).stopped.trans triggered

lemma suppressAll_total (sound : Sound env provenance e) (oldOk : OldOk routes)
    (grants : Grants env e.heap.requests) (running : e.stopped = false)
    (inside : ∀ drop ∈ e.drops, drop.used = true → drop.pfx ∈ scope)
    (usable : UsableWithin scope routes) : (routes.foldl (suppress env) e).stopped = false := by
  induction routes generalizing e with
  | nil => exact running
  | cons lost rest ih =>
    have still := (suppress_total bounded sound grants inside
      (usable lost (.head _))).trans running
    have kept := suppress_keeps sound (oldOk lost (.head _)).1
      (oldOk lost (.head _)).2
    have first := (suppress_running still).2.1 (show lost ∈ lost :: rest by simp)
    rw [foldl_cons]
    apply ih kept.sound
    · exact fun route mem => oldOk route (.tail _ mem)
    · exact grants.mono kept.evolves.heap
    · exact still
    · intro drop mem used
      obtain before | ⟨route, inOld, reachable, samePfx⟩ := first.only drop mem used
      · exact inside drop before used
      rw [← samePfx]
      exact usable route inOld reachable
    exact fun route mem => usable route (.tail _ mem)

structure Filling (env : Env) (provenance : Provenance) (scope : Finset Prefix) (e : Engine) :
    Prop where
  sound : Sound env provenance e
  grants : Grants env e.heap.requests
  routes : ∀ route ∈ e.routes, route.pfx ∈ scope
  drops : ∀ drop ∈ e.drops, drop.used = true → drop.pfx ∈ scope

lemma selectDrop_total (filling : Filling env provenance scope e) (slot : Nat) :
    ∃ next, selectDrop env e slot = .ok next ∧ Filling env provenance scope next := by
  have kept := selectDrop_keeps filling.sound slot
  have after : ∀ next, selectDrop env e slot = .ok next → Sound env provenance next ∧
      Grants env next.heap.requests := by
    intro next selected
    rw [selected, settle_ok] at kept
    exact ⟨kept.sound, filling.grants.mono kept.evolves.heap⟩
  cases located : e.drops[slot]? with
  | none =>
    refine ⟨e, by rw [selectDrop, located], filling⟩
  | some drop =>
    have inDrops := mem_of_getElem? located
    rw [selectDrop_eq located] at after ⊢
    split
    next released =>
      rw [if_pos released] at after
      refine ⟨_, rfl, (after _ rfl).1, (after _ rfl).2, filling.routes, ?_⟩
      intro other mem used
      obtain before | rfl := mem_or_eq_of_mem_set mem
      · exact filling.drops other before used
      cases used
    rename_i held
    rw [if_neg held] at after
    split
    next used =>
      rw [if_pos used] at after
      have mem := filling.drops drop inDrops used
      have fresh := routeFor_eq_none.mp
        ((releases_eq_false used).mp (by simpa using held)).1
      have distinct : (e.routes.map Route.pfx).Nodup := by
        simpa [SlotTable.keys] using filling.sound.routes.distinct
      rcases pushRoute_total filling.grants (suppressedRoute drop.pfx)
        ((room_of_scope distinct filling.routes mem fresh).trans bounded) with
        ⟨next, pushed⟩
      have tabled := pushRoute_ok pushed
      have drops : next.drops = e.drops := by
        obtain ⟨_, _, _, _, rfl⟩ := tabled.others
        rfl
      refine ⟨next, pushed, (after next pushed).1, (after next pushed).2, ?_, ?_⟩
      · rw [tabled.routes]
        refine forall_mem_append.mpr ⟨filling.routes, forall_mem_singleton.mpr ?_⟩
        exact mem
      rw [drops]
      exact filling.drops
    exact ⟨e, rfl, filling⟩

lemma selectTable_total (sound : Sound env provenance e) (oldOk : OldOk old)
    (grants : Grants env e.heap.requests) (running : e.stopped = false)
    (within : Within scope e) (usable : UsableWithin scope old) :
    ∃ final, selectTable env old e = .ok final ∧ final.stopped = false := by
  obtain ⟨first, locals⟩ := selectLocals_total bounded sound within grants
  have tabled1 := selectLocals_ok locals
  have candidates1 : first.candidates = e.candidates := by
    obtain ⟨_, _, _, _, rfl⟩ := tabled1.others
    rfl
  have offered : ∃ second, e.candidates.foldlM (selectCandidate env old) first = .ok second :=
    selectCandidates_total bounded tabled1 sound within grants
  obtain ⟨second, candidates⟩ := offered
  rw [← candidates1] at candidates
  obtain ⟨sound2, routes, tabled2, picks⟩ := selectOffers_ok sound locals candidates
  have second' : second.drops = e.drops ∧ second.stopped = e.stopped := by
    obtain ⟨_, _, _, _, rfl⟩ := tabled2.others
    exact ⟨rfl, rfl⟩
  have still : (old.foldl (suppress env) second).stopped = false := by
    apply suppressAll_total bounded sound2 oldOk (grants.mono tabled2.heap)
    · exact second'.2.trans running
    · rw [second'.1]
      exact within.drops
    exact usable
  have kept := suppressAll_keeps sound2 oldOk
  obtain ⟨_, suppresses, _⟩ := suppressAll_running (fun _ => id) still
  have start : Filling env provenance scope (old.foldl (suppress env) second) := by
    refine ⟨kept.sound, grants.mono (tabled2.heap.trans kept.evolves.heap), ?_, ?_⟩
    · rw [suppresses.routes, tabled2.routes]
      exact picks.inside (fun _ => id) within
    intro drop mem used
    obtain before | ⟨route, inOld, reachable, samePfx⟩ := suppresses.only drop mem used
    · exact within.drops drop (second'.1 ▸ before) used
    rw [← samePfx]
    exact usable route inOld reachable
  have filled : ∃ third,
      (range (old.foldl (suppress env) second).drops.length).foldlM (selectDrop env)
        (old.foldl (suppress env) second) = .ok third ∧ Filling env provenance scope third :=
    foldlM_total_of_seen (fun _ state => Filling env provenance scope state)
      (fun _ slot _ _ _ filling => selectDrop_total bounded filling slot) start
  obtain ⟨third, drops, _⟩ := filled
  have tabled3 := selectDrops_ok kept.sound.drops.distinct drops
  refine ⟨{ third with routes := sortRoutes third.routes }, ?_, ?_⟩
  · simp only [selectTable, locals, candidates, drops, bind, Except.bind]
    rfl
  obtain ⟨_, _, _, _, rfl⟩ := tabled3.others
  exact still

lemma selectRoutes_total (sound : Sound env provenance e) (grants : Grants env e.heap.requests)
    (running : e.stopped = false) (within : Within scope e)
    (usable : UsableWithin scope e.routes) : (selectRoutes env e).stopped = false := by
  have room : e.routes.length ≤ env.limits.routes := sound.routes.length_le
  have reservation : ∃ grown, (reserve env e.heap env.limits.routes e.scratchCapacity
      e.routes.length).1 = some grown := reserve_of_grants grants room
  obtain ⟨capacity, reserved⟩ := reservation
  have spent := requests_le_reserve env e.heap env.limits.routes e.scratchCapacity
    e.routes.length
  rw [selectRoutes, if_neg (by simp [running])]
  simp only
  generalize reserve env e.heap env.limits.routes e.scratchCapacity e.routes.length = outcome
    at reserved spent ⊢
  obtain ⟨_, heap⟩ := outcome
  cases reserved
  have prepared : Sound env provenance { e with heap := heap, scratchCapacity := capacity } :=
    { sound with }
  have filled : ∃ final, selectTable env e.routes
      { e with heap := heap, scratchCapacity := capacity } = .ok final ∧ final.stopped = false :=
    selectTable_total bounded prepared sound.oldOk (grants.mono spent) running
      ⟨within.candidates, within.locals, within.drops⟩ usable
  obtain ⟨final, ended, still⟩ := filled
  have announced := (announceTable_outputOnly env e.routes final).stopped.trans still
  simp [ended, bind, Except.bind, pure, Except.pure, announced]

end Selection

end WendyLite.Babel
