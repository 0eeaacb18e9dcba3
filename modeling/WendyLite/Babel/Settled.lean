import WendyLite.Babel.Selection

/-! # Settled engines

Between events, the table of a running engine is the one its last selection
chose: timers, compaction and the events that do not select leave alone what
the selection has read.
-/

namespace WendyLite.Babel

open SlotTable

variable {env : Env} {provenance : Provenance} {e e' e'' : Engine} {old : List Route}

/-! ## What selection can see -/

/-- The same live entries, as far as selection reads them. -/
structure SameView (e e' : Engine) : Prop where
  config : e'.config = e.config
  now : e'.now = e.now
  seqno : e'.seqno = e.seqno
  routes : e'.routes = e.routes
  locals : e'.locals.filter LocalPrefix.used = e.locals.filter LocalPrefix.used
  drops : e'.drops.filter Drop.used = e.drops.filter Drop.used
  candidates : (e'.candidates.filter Candidate.used).map Candidate.announcement =
    (e.candidates.filter Candidate.used).map Candidate.announcement
  costs : ∀ id, id ≠ 0 → cost e' (linkFor e' id) = cost e (linkFor e id)

lemma SameView.trans (first : SameView e e') (second : SameView e' e'') : SameView e e'' where
  config := second.config.trans first.config
  now := second.now.trans first.now
  seqno := second.seqno.trans first.seqno
  routes := second.routes.trans first.routes
  locals := second.locals.trans first.locals
  drops := second.drops.trans first.drops
  candidates := second.candidates.trans first.candidates
  costs id nonzero := (second.costs id nonzero).trans (first.costs id nonzero)

lemma costAt_neighbour (link : Option LinkState) (now : UInt64) :
    costAt (link.map LinkState.neighbour) now = costAt link now := by
  cases link <;> rfl

lemma linkFor_neighbour (e : Engine) (id : UInt64) : (linkFor e id).map LinkState.neighbour =
      (e.links.map LinkState.neighbour).find? fun link => link.config.id == id := by
  rw [linkFor, List.find?_map]
  rfl

lemma SameView.of_timersOnly (only : TimersOnly e e') : SameView e e' where
  config := only.config
  now := only.now
  seqno := only.seqno
  routes := only.routes
  locals := by rw [only.locals]
  drops := by rw [only.drops]
  candidates := by
    have filtered : ∀ candidates : List Candidate,
        (candidates.filter Candidate.used).map Candidate.announcement =
          (candidates.map Candidate.announcement).filter Candidate.used := by
      intro candidates
      rw [List.filter_map]
      rfl
    rw [filtered, filtered, only.candidates]
  costs id _ := by
    rw [cost, cost, ← costAt_neighbour, ← costAt_neighbour (linkFor e id), linkFor_neighbour,
      linkFor_neighbour, only.links, only.now]

lemma linkFor_of_filter_eq {links links' : List LinkState}
    (same : links'.filter LinkState.used = links.filter LinkState.used) {id : UInt64}
    (nonzero : id ≠ 0) : (links'.find? fun link => link.config.id == id) =
      links.find? fun link => link.config.id == id := by
  apply find?_eq_of_filter_eq same
  intro link accepted
  rw [beq_iff_eq] at accepted
  simp [LinkState.used, accepted, nonzero]

lemma SameView.of_collected (collected : Collected e e') : SameView e e' := by
  have links := collected.links.same
  have locals := collected.locals.same
  have drops := collected.drops.same
  have candidates := collected.candidates.same
  obtain ⟨heap, routes, before, scratch, equation⟩ := collected.others
  have now : e'.now = e.now := by rw [equation]
  refine ⟨by rw [equation], now, by rw [equation], by rw [equation], locals, drops,
    by rw [candidates], fun id nonzero => ?_⟩
  rw [cost, cost, now, linkFor, linkFor, linkFor_of_filter_eq links nonzero]

/-! ## The end of an event -/

lemma finish_running (sound : Sound env provenance e)
    (running : (finish env e).2.stopped = false) :
    (selectRoutes env e).stopped = false ∧ SameView (selectRoutes env e) (finish env e).2 := by
  have selected : Keeps env provenance e (selectRoutes env e) := selectRoutes_keeps sound
  have ticks := timers_ticks selected.sound
  simp only [finish] at running ⊢
  generalize timers env (selectRoutes env e) = timed at ticks running ⊢
  have same := ticks.only.stopped
  split at running
  next stopped =>
    rw [show timed.stopped = false from running] at stopped
    cases stopped
  rename_i going
  rw [if_neg going]
  have cleared : SameView timed { timed with before := [] } :=
    ⟨rfl, rfl, rfl, rfl, rfl, rfl, rfl, fun _ _ => rfl⟩
  have view : SameView (selectRoutes env e) (wbCollect env { timed with before := [] }) :=
    ((SameView.of_timersOnly ticks.only).trans cleared).trans
      (SameView.of_collected (wbCollect_collected env _))
  refine ⟨by simpa [same] using going, ?_⟩
  split
  all_goals exact view.trans ⟨rfl, rfl, rfl, rfl, rfl, rfl, rfl, fun _ _ => rfl⟩

lemma finish_stopped (sound : Sound env provenance e) :
    (finish env e).2.stopped = (selectRoutes env e).stopped := by
  have same := (timers_ticks (selectRoutes_keeps sound).sound).only.stopped
  simp only [finish]
  generalize timers env (selectRoutes env e) = timed at same ⊢
  rw [← same]
  split
  · rfl
  split <;> rfl

structure ComesFrom (e : Engine) (candidate : Candidate) (route : Route) : Prop where
  used : candidate.used = true
  finite : route.metric ≠ infinity
  metric : route.metric = addCost candidate.advertised (cost e (linkFor e candidate.route.link))
  chosen : route = { candidate.route with metric := route.metric }

/-- The table is what the live entries give. -/
structure Settled (e : Engine) : Prop where
  each : ∀ route ∈ e.routes, route ∈ localRoutes e ∨
    (∃ candidate ∈ e.candidates, ComesFrom e candidate route) ∨
    ∃ drop ∈ e.drops, drop.used = true ∧ route = suppressedRoute drop.pfx
  locals : ∀ route ∈ localRoutes e, route ∈ e.routes
  drops : ∀ drop ∈ e.drops, drop.used = true →
    e.now < drop.expires ∧ suppressedRoute drop.pfx ∈ e.routes
  sorted : Sorted e.routes

lemma Selected.settled (selected : Selected env old e e') : Settled e' := by
  have same := selected.inputs
  have locals : localRoutes e' = localRoutes e := by
    rw [localRoutes, localRoutes, routesOf, routesOf, same.locals]
    congr 1
    funext entry
    rw [localRoute, localRoute, same.config, same.seqno]
  refine ⟨?_, locals ▸ selected.locals, same.now ▸ selected.drops, selected.sorted⟩
  intro route mem
  obtain isLocal | ⟨candidate, inTable, offers⟩ | suppressed := selected.each route mem
  · exact .inl (locals ▸ isLocal)
  · refine .inr (.inl ⟨candidate, same.candidates ▸ inTable, offers.eligible.used,
      offers.finite, ?_, offers.chosen⟩)
    rw [cost, linkFor, same.links, same.now]
    exact offers.metric
  exact .inr (.inr suppressed)

lemma SameView.localRoutes (view : SameView e e') : localRoutes e' = localRoutes e := by
  rw [Babel.localRoutes, Babel.localRoutes, routesOf, routesOf, view.locals]
  congr 1
  funext entry
  rw [localRoute, localRoute, view.config, view.seqno]

lemma SameView.candidate (view : SameView e e') {candidate : Candidate}
    (mem : candidate ∈ e.candidates) (used : candidate.used = true) :
    ∃ candidate' ∈ e'.candidates, candidate'.used = true ∧
      candidate'.route = candidate.route ∧ candidate'.advertised = candidate.advertised := by
  have seen : candidate.announcement ∈
      (e'.candidates.filter Candidate.used).map Candidate.announcement := by
    rw [view.candidates]
    exact List.mem_map_of_mem (List.mem_filter.mpr ⟨mem, used⟩)
  obtain ⟨candidate', member', same⟩ := List.mem_map.mp seen
  rw [List.mem_filter] at member'
  refine ⟨candidate', member'.1, member'.2, ?_, ?_⟩
  · exact (congrArg Candidate.route same : candidate'.announcement.route = _)
  exact (congrArg Candidate.advertised same : candidate'.announcement.advertised = _)

lemma SameView.settled (view : SameView e e') (sound : Sound env provenance e)
    (settled : Settled e) : Settled e' := by
  refine ⟨?_, ?_, ?_, view.routes ▸ settled.sorted⟩
  · rw [view.routes]
    intro route mem
    obtain isLocal | ⟨candidate, inTable, comes⟩ | suppressed := settled.each route mem
    · exact .inl (view.localRoutes ▸ isLocal)
    · obtain ⟨candidate', inTable', used, sameRoute, same⟩ := view.candidate inTable comes.used
      refine .inr (.inl ⟨candidate', inTable', used, comes.finite, ?_, ?_⟩)
      · rw [sameRoute, same, view.costs _ (sound.candidates.each candidate inTable comes.used).link]
        exact comes.metric
      rw [sameRoute]
      exact comes.chosen
    obtain ⟨drop, inTable, used, equal⟩ := suppressed
    exact .inr (.inr
      ⟨drop, (mem_live_of_filter_eq view.drops used).mpr inTable, used, equal⟩)
  · rw [view.localRoutes, view.routes]
    exact settled.locals
  rw [view.routes, view.now]
  exact fun drop mem used =>
    settled.drops drop ((mem_live_of_filter_eq view.drops used).mp mem) used

/-- Whatever came before, an event that does not stop the engine leaves it
settled. -/
lemma finish_settled (sound : Sound env provenance e)
    (running : (finish env e).2.stopped = false) : Settled (finish env e).2 := by
  obtain ⟨selected, view⟩ := finish_running sound running
  exact view.settled (selectRoutes_keeps sound).sound
    (selectRoutes_selected sound selected).settled

lemma Quiet.view (quiet : Quiet e e') : SameView e e' := by
  have links := quiet.links
  have locals := quiet.locals
  obtain ⟨_, _, _, _, _, _, _, equation⟩ := quiet.others
  have now : e'.now = e.now := by rw [equation]
  refine ⟨by rw [equation], now, by rw [equation], by rw [equation], locals, by rw [equation],
    by rw [equation], fun id nonzero => ?_⟩
  rw [cost, cost, now, linkFor, linkFor, linkFor_of_filter_eq links nonzero]

end WendyLite.Babel
