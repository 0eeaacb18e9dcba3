import WendyLite.Babel.Capacity
import WendyLite.Babel.Export

/-! # Admission

Candidates, local prefixes and suppressed prefixes together cover no more
prefixes than the routes table has room for: a new prefix is admitted only
while there is room, and every other step moves a prefix from one of the
tables to another. With memory, selection therefore always succeeds, and the
engine never stops by itself.
-/

namespace WendyLite.Babel

open SlotTable List

variable {env : Env} {provenance : Provenance} {e e' : Engine}

/-! ## The admitted prefixes -/

def admitted (e : Engine) : Finset Prefix :=
  (keys Candidate.used (·.route.pfx) e.candidates).toFinset ∪
    (keys LocalPrefix.used (·.pfx) e.locals).toFinset ∪
    (keys Drop.used (·.pfx) e.drops).toFinset

variable {p : Prefix}

lemma mem_admitted : p ∈ admitted e ↔
      (∃ candidate ∈ e.candidates, candidate.used = true ∧ candidate.route.pfx = p) ∨
      (∃ entry ∈ e.locals, entry.used = true ∧ entry.pfx = p) ∨
      ∃ drop ∈ e.drops, drop.used = true ∧ drop.pfx = p := by
  simp only [admitted, Finset.mem_union, mem_toFinset, SlotTable.mem_keys, or_assoc]

lemma within_admitted (e : Engine) : Within (admitted e) e where
  candidates candidate mem used := mem_admitted.mpr (.inl ⟨candidate, mem, used, rfl⟩)
  locals entry mem used := mem_admitted.mpr (.inr (.inl ⟨entry, mem, used, rfl⟩))
  drops drop mem used := mem_admitted.mpr (.inr (.inr ⟨drop, mem, used, rfl⟩))

lemma Within.admitted_subset (within : Within scope e) :
    admitted e ⊆ scope := by
  intro p mem
  rcases mem_admitted.mp mem with ⟨candidate, inTable, used, rfl⟩ |
    ⟨entry, inTable, used, rfl⟩ | ⟨drop, inTable, used, rfl⟩
  · exact within.candidates candidate inTable used
  · exact within.locals entry inTable used
  exact within.drops drop inTable used

lemma admitted_congr (candidates : keys Candidate.used (·.route.pfx) e'.candidates =
      keys Candidate.used (·.route.pfx) e.candidates)
    (locals : e'.locals.filter LocalPrefix.used = e.locals.filter LocalPrefix.used)
    (drops : e'.drops.filter Drop.used = e.drops.filter Drop.used) : admitted e' = admitted e := by
  rw [admitted, admitted, candidates]
  simp only [SlotTable.keys, locals, drops]

/-! ## Counting -/

lemma card_toFinset_sdiff_le (list : List Prefix) (known : Finset Prefix) :
    (list.toFinset \ known).card ≤ list.countP (· ∉ known) := by
  have same : list.toFinset \ known = (list.filter (· ∉ known)).toFinset := by
    ext p
    simp
  rw [same, countP_eq_length_filter]
  exact toFinset_card_le _

lemma card_le_countDistinct (list earlier : List Prefix) :
    (list.toFinset \ earlier.toFinset).card ≤ countDistinct earlier list := by
  induction list generalizing earlier with
  | nil => simp
  | cons p rest ih =>
    have later := ih (p :: earlier)
    have covered : (p :: rest).toFinset \ earlier.toFinset ⊆
        (if p ∈ earlier then ∅ else {p}) ∪ (rest.toFinset \ (p :: earlier).toFinset) := by
      intro q mem
      by_cases same : q = p
      · subst same
        have new : q ∉ earlier := by simpa using mem
        simp [new]
      simp only [Finset.mem_sdiff, mem_toFinset, mem_cons, same, false_or] at mem
      simp [mem, same]
    have counted := (Finset.card_le_card covered).trans (Finset.card_union_le _ _)
    rw [countDistinct]
    split at counted
    next seen =>
      simp only [Finset.card_empty] at counted
      rw [if_pos seen]
      omega
    rename_i new
    simp only [Finset.card_singleton] at counted
    rw [if_neg new]
    omega

/-- `admission_count` counts every admitted prefix. -/
lemma card_admitted_le (e : Engine) : (admitted e).card ≤ admissionCount e := by
  rw [admitted, admissionCount]
  generalize keys Candidate.used (·.route.pfx) e.candidates = candidates
  generalize keys LocalPrefix.used (·.pfx) e.locals = locals
  generalize keys Drop.used (·.pfx) e.drops = drops
  have first := card_le_countDistinct candidates []
  have second := card_toFinset_sdiff_le locals candidates.toFinset
  have third := card_toFinset_sdiff_le drops (candidates.toFinset ∪ locals.toFinset)
  simp only [toFinset_nil, Finset.sdiff_empty, mem_toFinset, Finset.mem_union,
    not_or] at first second third
  have split : candidates.toFinset ∪ locals.toFinset ∪ drops.toFinset =
      candidates.toFinset ∪ (locals.toFinset \ candidates.toFinset) ∪
        (drops.toFinset \ (candidates.toFinset ∪ locals.toFinset)) := by
    rw [Finset.union_sdiff_self_eq_union, Finset.union_sdiff_self_eq_union]
  have counted := (Finset.card_union_le
    (candidates.toFinset ∪ (locals.toFinset \ candidates.toFinset))
    (drops.toFinset \ (candidates.toFinset ∪ locals.toFinset))).trans
    (Nat.add_le_add_right (Finset.card_union_le _ _) _)
  rw [split]
  omega

lemma prefixAdmitted_iff : prefixAdmitted e p = true ↔ p ∈ admitted e := by
  simp [prefixAdmitted, mem_admitted, or_assoc]

lemma card_insert_admitted_le (bounded : (admitted e).card ≤ env.limits.routes)
    (admits : admissionFull env e p = false) :
    (insert p (admitted e)).card ≤ env.limits.routes := by
  by_cases known : p ∈ admitted e
  · rw [Finset.insert_eq_of_mem known]
    exact bounded
  have counted := card_admitted_le e
  have refused : prefixAdmitted e p = false := by
    rw [← Bool.not_eq_true, prefixAdmitted_iff]
    exact known
  simp only [admissionFull, refused, Bool.not_false, Bool.true_and, ge_iff_le,
    decide_eq_false_iff_not, not_le] at admits
  rw [Finset.card_insert_of_notMem known]
  omega

/-! ## Room for the next selection -/

/-- The next selection has room: what is usable now, or may become so, is
admitted, and the admitted prefixes are few enough. -/
structure Roomy (env : Env) (e : Engine) : Prop where
  running : e.stopped = false
  bounded : (admitted e).card ≤ env.limits.routes
  usable : UsableWithin (admitted e) e.routes

lemma Roomy.of_covers (roomy : Roomy env e) (stopped : e'.stopped = e.stopped)
    (covers : admitted e ⊆ admitted e') (bounded : (admitted e').card ≤ env.limits.routes)
    (routes : e'.routes = e.routes) : Roomy env e' where
  running := stopped.trans roomy.running
  bounded := bounded
  usable route mem reachable := covers (roomy.usable route (routes ▸ mem) reachable)

lemma Roomy.of_same (roomy : Roomy env e) (stopped : e'.stopped = e.stopped)
    (same : admitted e' = admitted e) (routes : e'.routes = e.routes) : Roomy env e' :=
  roomy.of_covers stopped same.symm.subset (same ▸ roomy.bounded) routes

lemma Roomy.of_outputOnly (roomy : Roomy env e) (same : OutputOnly e e') : Roomy env e' :=
  roomy.of_same same.stopped
    (admitted_congr (by rw [same.candidates]) (by rw [same.locals]) (by rw [same.drops]))
    same.routes

lemma selectRoutes_roomy (sound : Sound env provenance e) (grants : Grants env e.heap.requests)
    (running : e.stopped = false) (bounded : scope.card ≤ env.limits.routes)
    (within : Within scope e) (usable : UsableWithin scope e.routes) :
    Roomy env (selectRoutes env e) := by
  have still := selectRoutes_total bounded sound grants running within usable
  have selected := selectRoutes_selected sound still
  have inside : Within scope (selectRoutes env e) := by
    refine ⟨selected.inputs.candidates ▸ within.candidates,
      selected.inputs.locals ▸ within.locals, ?_⟩
    intro drop mem used
    obtain before | ⟨route, inOld, reachable, samePfx⟩ := selected.only drop mem used
    · exact within.drops drop before used
    rw [← samePfx]
    exact usable route inOld reachable
  refine ⟨still, (Finset.card_le_card inside.admitted_subset).trans bounded, ?_⟩
  intro route mem reachable
  rcases selected.settled.each route mem with isLocal | ⟨candidate, inTable, comes⟩ |
    ⟨drop, _, _, rfl⟩
  · obtain ⟨entry, inTable, used, rfl⟩ := mem_localRoutes.mp isLocal
    exact (within_admitted _).locals entry inTable used
  · rw [comes.chosen]
    exact (within_admitted _).candidates candidate inTable comes.used
  cases reachable

section

variable (roomy : Roomy env e)
include roomy

lemma Roomy.select (sound : Sound env provenance e)
    (grants : Grants env e.heap.requests) : Roomy env (selectRoutes env e) :=
  selectRoutes_roomy sound grants roomy.running roomy.bounded (within_admitted e) roomy.usable

/-! ## Received messages -/

lemma storeUpdate_roomy (located : e.candidates[slot]? = some old)
    (place : old.used = true → old.route.pfx = m.pfx)
    (room : (insert m.pfx (admitted e)).card ≤ env.limits.routes) :
    Roomy env (storeUpdate env e link m slot) := by
  refine Roomy.of_outputOnly ?_ (storeUpdate_outputOnly env e link m slot)
  have written : updatedCandidate e link m ∈
      e.candidates.set slot (updatedCandidate e link m) := mem_set_self located
  refine roomy.of_covers rfl ?_ ?_ rfl
  · intro p mem
    obtain ⟨candidate, inTable, used, rfl⟩ | others := mem_admitted.mp mem
    · apply mem_admitted.mpr
      by_cases overwritten : candidate = old
      · subst overwritten
        exact .inl ⟨_, written, rfl, (place used).symm⟩
      exact .inl ⟨candidate, mem_set_of_ne located inTable overwritten, used, rfl⟩
    exact mem_admitted.mpr (.inr others)
  refine (Finset.card_le_card ?_).trans room
  intro p mem
  obtain ⟨candidate, inTable, used, rfl⟩ | others := mem_admitted.mp mem
  · obtain before | rfl := mem_or_eq_of_mem_set inTable
    · exact Finset.mem_insert_of_mem ((within_admitted e).candidates candidate before used)
    exact Finset.mem_insert_self _ _
  exact Finset.mem_insert_of_mem (mem_admitted.mpr (.inr others))

lemma insertUpdate_roomy (link : Link) (m : Message) : Roomy env (insertUpdate env e link m) := by
  rw [insertUpdate]
  split
  · exact roomy.of_same rfl rfl rfl
  rename_i admits
  rw [Bool.not_eq_true] at admits
  split
  · exact roomy.of_same rfl rfl rfl
  rename_i slot candidates heap acquired
  obtain ⟨⟨old, located, free⟩, same, _⟩ := acquire_some rfl acquired
  have live : (candidates.set slot {}).filter Candidate.used =
      e.candidates.filter Candidate.used :=
    (filter_set_of_free located free rfl).trans same
  have covers : admitted { e with heap := heap, candidates := candidates.set slot {} } =
      admitted e := by
    apply admitted_congr
    · rw [SlotTable.keys, SlotTable.keys, live]
    all_goals rfl
  have cleared : Roomy env { e with heap := heap, candidates := candidates.set slot {} } :=
    roomy.of_same rfl covers rfl
  apply storeUpdate_roomy cleared (located_set located {})
  · exact fun used => by cases used
  rw [covers]
  exact card_insert_admitted_le roomy.bounded admits

lemma update_roomy (link : Link) (m : Message) : Roomy env (update env e link m) := by
  rw [update]
  split
  · refine roomy.of_same rfl (admitted_congr (keys_map_of_same ?_ _) rfl rfl) rfl
    intro candidate
    split <;> exact ⟨rfl, rfl⟩
  simp only
  split
  · split
    · exact roomy
    refine roomy.of_same rfl (admitted_congr (keys_modify_of_same ?_ _ _) rfl rfl) rfl
    exact fun _ => ⟨rfl, rfl⟩
  obtain ⟨asked, after, _⟩ := refusesUpdate_spec env e link m
  have counted : Roomy env { e with consultations := asked } := roomy.of_same rfl rfl rfl
  generalize refusesUpdate env e link m = outcome at after ⊢
  obtain ⟨refused, next⟩ := outcome
  simp only at after
  subst after
  cases refused with
  | true => exact counted.of_same rfl rfl rfl
  | false =>
    simp only
    split
    · exact counted.of_same rfl rfl rfl
    split
    next slot known =>
      obtain ⟨old, located, matched⟩ := lastSlot_some known
      simp only [Bool.and_eq_true, beq_iff_eq] at matched
      have listed := (within_admitted e).candidates old (mem_of_getElem? located)
        matched.1.1
      apply storeUpdate_roomy counted located fun _ => matched.2
      rw [← matched.2]
      exact (congrArg Finset.card (Finset.insert_eq_of_mem listed)).trans_le roomy.bounded
    exact insertUpdate_roomy counted link m

lemma modifyLink_roomy (id : UInt64) (change : LinkState → LinkState) :
    Roomy env (modifyLink e id change) := by
  rw [modifyLink]
  split
  · exact roomy
  exact roomy.of_same rfl rfl rfl

lemma receiveMessage_roomy (sound : Sound env Provenance.any e)
    (grants : Grants env e.heap.requests) (id : UInt64) (m : Message) :
    Roomy env (receiveMessage env id e m) := by
  have selected := roomy.select sound grants
  have kept := selectRoutes_keeps sound
  rw [receiveMessage]
  split
  · exact roomy
  split
  · exact roomy
  cases m.type with
  | hello | ihu => exact modifyLink_roomy roomy id _
  | ackRequest => exact roomy.of_outputOnly (queue_outputOnly ..)
  | update =>
    simp only
    split
    · exact roomy
    split
    · exact roomy
    exact update_roomy roomy _ m
  | request =>
    simp only [receiveRequest]
    split
    · split
      · exact selected
      split
      · exact modifyLink_roomy (selected.of_outputOnly (dump_outputOnly ..)) id _
      exact selected
    exact selected.of_outputOnly (advertise_outputOnly ..)
  | seqRequest =>
    simp only [seqRequest]
    split
    · exact selected.of_outputOnly (forwardSeqRequest_outputOnly ..)
    split
    · exact selected.of_outputOnly (forwardSeqRequest_outputOnly ..)
    split
    · exact selected.of_outputOnly (advertise_outputOnly ..)
    split
    · have sound' := kept.sound
      have bumped : Roomy env
          { selectRoutes env e with seqno := (selectRoutes env e).seqno + 1 } :=
        selected.of_same rfl rfl rfl
      exact (bumped.select { sound' with seqno := trivial }
        (grants.mono kept.evolves.heap)).of_outputOnly (advertise_outputOnly ..)
    exact selected.of_outputOnly (forwardSeqRequest_outputOnly ..)
  | ack | router | nextHop => exact roomy

end

/-! ## Events -/

def Firm (e : Engine) : Prop :=
  ∀ route ∈ e.routes, route.unreachable = false →
    (∃ entry ∈ e.locals, entry.used = true ∧ entry.pfx = route.pfx) ∨
      ∃ candidate ∈ e.candidates, candidate.used = true ∧ candidate.advertised ≠ infinity ∧
        candidate.route.pfx = route.pfx

lemma Settled.firm (settled : Settled e) : Firm e := by
  intro route mem reachable
  obtain isLocal | ⟨candidate, inTable, comes⟩ | ⟨_, _, _, rfl⟩ := settled.each route mem
  · obtain ⟨entry, inTable, used, rfl⟩ := mem_localRoutes.mp isLocal
    exact .inl ⟨entry, inTable, used, rfl⟩
  · refine .inr ⟨candidate, inTable, comes.used, ?_, ?_⟩
    · intro infinite
      have finite := comes.finite
      rw [comes.metric, infinite, addCost_infinity] at finite
      exact finite rfl
    rw [comes.chosen]
  cases reachable

structure Fits (env : Env) (e : Engine) : Prop where
  running : e.stopped = false
  scope : ∃ scope : Finset Prefix, scope.card ≤ env.limits.routes ∧ Within scope e ∧
    UsableWithin scope e.routes

lemma Roomy.fits (roomy : Roomy env e) : Fits env e :=
  ⟨roomy.running, admitted e, roomy.bounded, within_admitted e, roomy.usable⟩

/-- The candidates that expire had been retracted, so no usable route loses its
admission. -/
lemma Begun.roomy (begun : Begun e e' now) (roomy : Roomy env e) (firm : Firm e) :
    admitted e' ⊆ admitted e ∧ Roomy env e' := by
  have tables := begun.tables
  have candidates : e'.candidates = e.candidates.map (expireCandidate now) := by
    obtain ⟨_, _, rfl, _⟩ := begun.result
    rfl
  have subset : admitted e' ⊆ admitted e := by
    apply Within.admitted_subset
    refine ⟨?_, tables.2.1 ▸ (within_admitted e).locals, tables.2.2.1 ▸ (within_admitted e).drops⟩
    rw [candidates]
    intro candidate mem used
    obtain ⟨old, inTable, rfl⟩ := mem_map.mp mem
    obtain ⟨wasUsed, sameRoute, _⟩ := expireCandidate_spec used
    rw [sameRoute]
    exact (within_admitted e).candidates old inTable wasUsed
  refine ⟨subset, tables.2.2.2.2.2.2.2.2.2.2.2,
    (Finset.card_le_card subset).trans roomy.bounded, ?_⟩
  rw [tables.2.2.2.1]
  intro route mem reachable
  apply mem_admitted.mpr
  obtain isLocal | ⟨candidate, inTable, used, finite, samePfx⟩ := firm route mem reachable
  · rw [tables.2.1]
    exact .inr (.inl isLocal)
  refine .inl ⟨expireCandidate now candidate, ?_, ?_⟩
  · rw [candidates]
    exact mem_map_of_mem inTable
  rw [expireCandidate]
  split
  all_goals exact ⟨used, samePfx⟩

lemma detachLink_roomy (roomy : Roomy env e) (id : UInt64) : Roomy env (detachLink id e) := by
  have cleared := modifyLink_roomy roomy id fun _ => {}
  refine cleared.of_same rfl (admitted_congr (keys_map_of_same ?_ _) rfl rfl) rfl
  intro candidate
  split <;> exact ⟨rfl, rfl⟩

lemma writeLocal_roomy (roomy : Roomy env e) {slot : Nat} {old : LocalPrefix}
    {metric : UInt16} (located : e.locals[slot]? = some old) (place : old.used = true → old.pfx = p)
    (room : (insert p (admitted e)).card ≤ env.limits.routes) :
    Roomy env (writeLocal slot p metric e) := by
  have written : p ∈ admitted (writeLocal slot p metric e) :=
    mem_admitted.mpr (.inr (.inl ⟨_, mem_set_self located, rfl, rfl⟩))
  refine roomy.of_covers rfl ?_ ?_ rfl
  · intro q mem
    by_cases same : q = p
    · rw [same]
      exact written
    apply mem_admitted.mpr
    rcases mem_admitted.mp mem with candidate | ⟨entry, inTable, used, rfl⟩ |
      ⟨drop, inTable, used, rfl⟩
    · exact .inl candidate
    · refine .inr (.inl ⟨entry, mem_set_of_ne located inTable ?_, used, rfl⟩)
      intro overwritten
      rw [overwritten] at used same
      exact same (place used)
    refine .inr (.inr ⟨drop, ?_, used, rfl⟩)
    refine mem_map.mpr ⟨drop, inTable, if_neg ?_⟩
    simpa [used] using same
  refine (Finset.card_le_card (Within.admitted_subset ?_)).trans room
  refine ⟨?_, ?_, ?_⟩
  · exact fun candidate mem used =>
      Finset.mem_insert_of_mem ((within_admitted e).candidates candidate mem used)
  · intro entry mem used
    obtain before | rfl := mem_or_eq_of_mem_set mem
    · exact Finset.mem_insert_of_mem ((within_admitted e).locals entry before used)
    exact Finset.mem_insert_self _ _
  intro drop mem used
  obtain ⟨was, inTable, rfl⟩ := mem_map.mp mem
  split at used
  · cases used
  rename_i kept
  rw [if_neg kept]
  exact Finset.mem_insert_of_mem ((within_admitted e).drops was inTable used)

/-- A withdrawn prefix keeps its place until the selection has suppressed it. -/
lemma clearLocal_fits (roomy : Roomy env e) (p : Prefix) : Fits env (clearLocal p e) := by
  rw [clearLocal]
  split
  · exact roomy.fits
  rename_i slot _
  refine ⟨roomy.running, admitted e, roomy.bounded, ⟨(within_admitted e).candidates, ?_,
    (within_admitted e).drops⟩, roomy.usable⟩
  intro entry mem used
  rcases modify_cases e.locals slot fun entry => { entry with used := false } with
    same | ⟨old, _, written⟩
  · exact (within_admitted e).locals entry (same ▸ mem) used
  rw [show (e.locals.modify slot fun entry => { entry with used := false }) = _ from written]
    at mem
  obtain before | rfl := mem_or_eq_of_mem_set mem
  · exact (within_admitted e).locals entry before used
  cases used

lemma SameView.admitted (view : SameView e e') : admitted e' = admitted e := by
  apply admitted_congr
  · have through : ∀ candidates : List Candidate, keys Candidate.used (·.route.pfx) candidates =
        ((candidates.filter Candidate.used).map Candidate.announcement).map (·.route.pfx) := by
      intro candidates
      rw [map_map]
      rfl
    rw [through, through, view.candidates]
  · exact view.locals
  exact view.drops

lemma SameView.firm (view : SameView e e') (firm : Firm e) : Firm e' := by
  rw [Firm, view.routes]
  intro route mem reachable
  rcases firm route mem reachable with ⟨entry, inTable, used, samePfx⟩ |
    ⟨candidate, inTable, used, finite, samePfx⟩
  · exact .inl ⟨entry, (mem_live_of_filter_eq view.locals used).mpr inTable, used, samePfx⟩
  obtain ⟨candidate', inTable', used', sameRoute, same⟩ := view.candidate inTable used
  exact .inr ⟨candidate', inTable', used', same ▸ finite, sameRoute ▸ samePfx⟩

/-- A boundary between events: there is room, and the table is settled. -/
structure Ample (env : Env) (e : Engine) : Prop where
  roomy : Roomy env e
  firm : Firm e
  sorted : Sorted e.routes

lemma Quiet.ample (quiet : Quiet e e') (ample : Ample env e) : Ample env e' where
  roomy := ample.roomy.of_same quiet.stopped quiet.view.admitted quiet.view.routes
  firm := quiet.view.firm ample.firm
  sorted := quiet.view.routes ▸ ample.sorted

lemma finish_ample (sound : Sound env provenance e) (grants : Grants env e.heap.requests)
    (fits : Fits env e) : Ample env (finish env e).2 := by
  obtain ⟨scope, bounded, within, usable⟩ := fits.scope
  have selected := selectRoutes_roomy sound grants fits.running bounded within usable
  have stopped := finish_stopped sound
  have running := stopped.trans selected.running
  have settled := finish_settled sound running
  have view := (finish_running sound running).2
  exact ⟨selected.of_same stopped view.admitted view.routes, settled.firm, settled.sorted⟩

section Accepted

variable {event : Event} {now : UInt64} {prepared begun : Engine} {change : Engine → Engine}

lemma Accepted.fits (accepted : Accepted env e event now prepared begun change)
    (sound : Sound env Provenance.any e) (grants : Grants env 0) (ample : Ample env e) :
    Fits env (change begun) := by
  obtain ⟨started, begunSound, _⟩ := accepted.changed sound (eventOk_any env e event)
  have quiet := accepted.kind.prepares.1
  have prepared' := quiet.ample ample
  obtain ⟨subset, roomy⟩ := started.roomy prepared'.roomy prepared'.firm
  cases accepted.kind with
  | tick => exact roomy.fits
  | addLink now config slot links heap refused acquired =>
    have attached : Roomy env
        { begun with
          links := begun.links.set slot { config := config, tx := infinity }
          lastLink := config.id } := roomy.of_same rfl rfl rfl
    exact (attached.of_outputOnly (queue_outputOnly ..)).fits
  | removeLink now link => exact (detachLink_roomy roomy link).fits
  | setCost now link cost positive => exact (modifyLink_roomy roomy link _).fits
  | originate now p metric slot prepared routable finite placed =>
    obtain ⟨heap, locals, result, _, same, _, place⟩ := originSlot_spec sound p
    rw [placed] at result place
    obtain ⟨old, located, place⟩ := place slot rfl
    have located1 : begun.locals[slot]? = some old := by
      rw [started.tables.2.1, show prepared = _ from result]
      exact located
    rw [quiet.view.admitted] at subset
    refine (writeLocal_roomy roomy located1 ?_ ?_).fits
    · intro used
      obtain ⟨free, _⟩ | occupied := place
      · rw [free] at used
        cases used
      exact occupied.2
    refine (Finset.card_le_card (Finset.insert_subset_insert p subset)).trans ?_
    obtain ⟨_, _, admits⟩ | ⟨used, samePfx⟩ := place
    · exact card_insert_admitted_le ample.roomy.bounded admits
    have listed := (within_admitted e).locals old
      ((mem_live_of_filter_eq same used).mp (mem_of_getElem? located)) used
    rw [← samePfx, Finset.insert_eq_of_mem listed]
    exact ample.roomy.bounded
  | withdraw now p => exact clearLocal_fits roomy p
  | receive now link data =>
    refine (receivePacket_of_step (Roomy env) begunSound ?_ ?_).fits
    · exact fun counters => roomy.of_same rfl rfl rfl
    exact fun state m _ _ kept holds => receiveMessage_roomy holds kept.sound
      (grants.mono (Nat.zero_le _)) link m

end Accepted

lemma step_ample (sound : Sound env Provenance.any e) (grants : Grants env 0) (ample : Ample env e)
    (committed : ∀ revision, event ≠ .commit revision false) :
    Ample env (step env e event).2 := by
  obtain ⟨quiet, _⟩ | ⟨_, _, _, _, accepted⟩ | halts := step_cases env e event
  · exact quiet.ample ample
  · obtain ⟨_, _, changed⟩ := accepted.changed sound (eventOk_any env e event)
    rw [accepted.state]
    exact finish_ample changed.sound (grants.mono (Nat.zero_le _))
      (accepted.fits sound grants ample)
  obtain ⟨revision, rfl⟩ | ⟨capacity, rfl⟩ := halts.kind
  · exact absurd rfl (committed revision)
  have stopped := halts.stopped
  rw [step, wbNextPacket_stopped sound, ample.roomy.running] at stopped
  cases stopped

lemma Start.ample (start : Start env e) : Ample env e := by
  have empty := start.empty
  have within : Within (keys Drop.used (·.pfx) e.drops).toFinset e := by
    refine ⟨by simp [empty.candidates], by simp [empty.locals], fun drop mem used => ?_⟩
    exact mem_toFinset.mpr (SlotTable.mem_keys.mpr ⟨drop, mem, used, rfl⟩)
  have few : (keys Drop.used (·.pfx) e.drops).toFinset.card ≤ env.limits.routes := by
    refine (toFinset_card_le _).trans ?_
    rw [SlotTable.keys, length_map]
    exact (length_filter_le _ _).trans start.sound.drops.length_le
  refine ⟨⟨empty.stopped, (Finset.card_le_card within.admitted_subset).trans few, ?_⟩, ?_, ?_⟩
  · simp [UsableWithin, empty.routes]
  · simp [Firm, empty.routes]
  simp [Sorted, empty.routes]

/-- The engine never stops by itself: with memory, and while the forwarding
plane accepts every table, it keeps running whatever it is sent, its tables
stay within their bounds, and it can export all that it queues. -/
theorem run_never_stops {start : Engine} (started : Start env start) (grants : Grants env 0)
    {events : List Event}
    (committed : ∀ event ∈ events, ∀ revision, event ≠ .commit revision false) :
    (run env start events).stopped = false ∧ ((run env start events).routes.map Route.pfx).Nodup ∧
      Sorted (run env start events).routes ∧
      (run env start events).routes.length ≤ env.limits.routes ∧
      (admitted (run env start events)).card ≤ env.limits.routes ∧
      (keys Candidate.used (fun candidate => (candidate.route.pfx, candidate.route.link))
        (run env start events).candidates).Nodup ∧
      ∀ queued ∈ (run env start events).messages, ∃ link bytes,
        linkFor (run env start events) queued.link = some link ∧
        wbEncode queued.message 64 = some bytes ∧
        bytes.length ≤ link.config.maxPacket.toNat - 4 := by
  have both : Sound env Provenance.any (run env start events) ∧
      Ample env (run env start events) :=
    foldlRecOn
      (motive := fun state => Sound env Provenance.any state ∧ Ample env state) events _
      ⟨started.sound, started.ample⟩ fun state holds event member =>
        ⟨(step_spec holds.1 (eventOk_any env state event)).1,
          step_ample holds.1 grants holds.2 (committed event member)⟩
  obtain ⟨sound, ample⟩ := both
  refine ⟨ample.roomy.running, ?_, ample.sorted, sound.routes.length_le, ample.roomy.bounded,
    sound.candidates.distinct, ?_⟩
  · simpa [SlotTable.keys] using sound.routes.distinct
  intro queued member
  have sendable := (sound.messages queued member).sendable
  have size := sendable.length_encoded
  obtain ⟨link, found, ok⟩ := sound.linkFor_queued member
  have room := ok.packetMin
  exact ⟨link, encoded queued.message, found, sendable.wbEncode_eq, by omega⟩

theorem run_never_stops_meeting : (run willing (fresh 1) meeting).routes.length = 1 ∧
      (run willing (fresh 1) meeting).stopped = false := by
  have started : Start willing (fresh 1) := .inl ⟨{ router := 1 }, wbInit_fresh (by decide)⟩
  have committed : ∀ event ∈ meeting, ∀ revision, event ≠ .commit revision false := by
    simp [meeting]
  exact ⟨by decide, (run_never_stops started (fun _ _ => rfl) committed).1⟩

end WendyLite.Babel
