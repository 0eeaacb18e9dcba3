import WendyLite.Babel.OutputSound

/-! # Selection keeps an engine sound

The loops of `select_routes`. Each of them fills or reads the routes table, so
the freshness of a pushed prefix is what their invariants carry.
-/

namespace WendyLite.Babel

open SlotTable List

variable {env : Env} {provenance : Provenance} {e e' : Engine}

/-! ## Suppression entries -/

lemma toNat_hold (small : n.toNat ≤ 4294967295) :
    (hold n).toNat = n.toNat * 7 / 2 := by
  rw [hold, UInt64.toNat_div, UInt64.toNat_mul]
  have literals : (7 : UInt64).toNat = 7 ∧ (2 : UInt64).toNat = 2 := ⟨rfl, rfl⟩
  rw [literals.1, literals.2]
  omega

lemma ConfigOk.toNat_hold (ok : ConfigOk config) :
    (hold config.updateMs.toUInt64).toNat = config.updateMs.toNat * 7 / 2 ∧
      config.updateMs.toNat ≤ 655340 := by
  have upper := UInt32.le_iff_toNat_le.mp ok.updateMax
  have literal : (655340 : UInt32).toNat = 655340 := rfl
  have small : config.updateMs.toUInt64.toNat ≤ 4294967295 := by
    rw [UInt32.toNat_toUInt64]
    omega
  rw [Babel.toNat_hold small, UInt32.toNat_toUInt64]
  omega

lemma Sound.toNat_suppression (sound : Sound env provenance e) :
    (e.now + hold e.config.updateMs.toUInt64).toNat =
      e.now.toNat + e.config.updateMs.toNat * 7 / 2 := by
  have clock := UInt64.le_iff_toNat_le.mp sound.clock
  have held := sound.config.toNat_hold
  rw [toNat_lastTime] at clock
  rw [UInt64.toNat_add, held.1]
  omega

lemma dropRoute_keeps (sound : Sound env provenance e) (valid : p.valid = true) :
    Keeps env provenance e (dropRoute env e p) := by
  have ok : DropOk (dropHorizon e)
      { used := true, pfx := p, expires := e.now + hold e.config.updateMs.toUInt64 } := by
    refine ⟨valid, ?_⟩
    have held := sound.config.toNat_hold
    rw [sound.toNat_suppression, dropHorizon]
    omega
  simp only [dropRoute]
  split
  · rename_i slot found
    obtain ⟨old, located, accepted⟩ := located_of_findIdx? found
    simp only [Bool.and_eq_true, beq_iff_eq] at accepted
    exact ⟨{ sound with drops := sound.drops.set located (fun _ => ok) fun _ => .inr accepted },
      .of_same rfl⟩
  rename_i absent
  have asked := requests_le_acquire env e.heap env.limits.routes Drop.used {} e.drops
  split
  · rename_i heap refused
    rw [refused] at asked
    exact ⟨{ sound with }, .of_sources_eq rfl rfl rfl asked rfl⟩
  rename_i slot drops heap acquired
  rw [acquired] at asked
  obtain ⟨⟨old, located, free⟩, same, short⟩ := acquire_some rfl acquired
  refine ⟨{ sound with drops := ?_ }, .of_sources_eq rfl rfl rfl asked rfl⟩
  refine (sound.drops.of_filter_eq same (short sound.drops.length_le)).set located
    (fun _ => ok) fun _ => .inl ?_
  rw [SlotTable.keys, same]
  intro present
  obtain ⟨drop, mem, used, key⟩ := mem_keys.mp present
  have rejected := findIdx?_eq_none_iff.mp absent drop mem
  simp [used, key] at rejected

/-! ## The routes table -/

lemma pushRoute_keeps (sound : Sound env provenance e)
    (ok : RouteOk provenance e.config.router e.sources route)
    (fresh : ∀ other ∈ e.routes, other.pfx ≠ route.pfx) :
    Keeps env provenance e (settle (pushRoute env e route)) := by
  have asked := requests_le_reserve env e.heap env.limits.routes e.routesCapacity
    (e.routes.length + 1)
  rw [pushRoute]
  split
  · rename_i heap refused
    rw [refused] at asked
    exact ⟨{ sound with }, .of_sources_eq rfl rfl rfl asked rfl⟩
  rename_i capacity heap reserved
  rw [reserved] at asked
  refine ⟨{ sound with routes := ?_ }, .of_sources_eq rfl rfl rfl asked rfl⟩
  refine sound.routes.concat (fun _ => ok) ?_ (le_of_reserve reserved).2.1
  intro present
  obtain ⟨other, mem, _, key⟩ := mem_keys.mp present
  exact fresh other mem key

lemma replaceRoute_eq_set (mem : old ∈ routes) (samePfx : old.pfx = route.pfx) :
    ∃ slot replaced, routes[slot]? = some replaced ∧ replaced.pfx = route.pfx ∧
      replaceRoute route routes = routes.set slot route := by
  induction routes with
  | nil => simp at mem
  | cons head tail ih =>
    by_cases here : head.pfx = route.pfx
    · exact ⟨0, head, rfl, here, by simp [replaceRoute, here]⟩
    have later : old ∈ tail := by
      obtain rfl | later := mem_cons.mp mem
      · exact absurd samePfx here
      exact later
    obtain ⟨slot, replaced, located, same, equation⟩ := ih later
    refine ⟨slot + 1, replaced, by simpa using located, same, ?_⟩
    rw [replaceRoute, if_neg (by simpa using here), equation, set_cons_succ]

lemma sortRoutes_perm (routes : List Route) : (sortRoutes routes).Perm routes := by
  have inserted : ∀ sorted : List Route,
      (routes.foldl
        (fun sorted route =>
          sorted.orderedInsert (fun a b => Prefix.cmp a.pfx b.pfx ≠ .lt) route)
        sorted).Perm (routes ++ sorted) := by
    induction routes with
    | nil => exact fun sorted => List.Perm.refl sorted
    | cons route rest ih =>
      intro sorted
      refine (ih _).trans ?_
      refine (List.Perm.append_left rest (perm_orderedInsert _ route sorted)).trans ?_
      exact perm_middle
  simpa [sortRoutes] using (reverse_perm _).trans (inserted [])

/-! ## The loops of selection -/

lemma localRoute_ok (sound : Sound env provenance e) (ok : LocalOk entry) :
    RouteOk provenance e.config.router e.sources (localRoute e entry) where
  valid := Prefix.valid_of_routable ok.routable
  suppressed := by simp [localRoute]
  reachable _ := ⟨ok.finite, sound.config.router⟩
  originated _ := ⟨rfl, rfl, sound.seqno⟩
  learned := by simp [localRoute]

lemma selectLocals_keeps (ok : ∀ entry ∈ entries, entry.used = true → LocalOk entry)
    (distinct : (keys LocalPrefix.used (·.pfx) entries).Nodup) {start : Engine}
    (sound : Sound env provenance start)
    (fresh : ∀ route ∈ start.routes, route.pfx ∉ keys LocalPrefix.used (·.pfx) entries) :
    Keeps env provenance start (settle (entries.foldlM (selectLocal env) start)) := by
  induction entries generalizing start with
  | nil => exact Keeps.refl sound
  | cons entry rest ih =>
    rw [foldlM_cons, selectLocal]
    have restOk : ∀ entry ∈ rest, entry.used = true → LocalOk entry :=
      fun entry mem => ok entry (.tail _ mem)
    rw [SlotTable.keys_cons] at distinct fresh
    by_cases used : entry.used = true
    · rw [if_pos used] at distinct fresh ⊢
      have pushed := pushRoute_keeps sound
        (localRoute_ok sound (ok entry (.head _) used))
        fun other mem equal => fresh other mem (by rw [equal]; exact mem_cons_self ..)
      cases outcome : pushRoute env start (localRoute start entry) with
      | error state =>
        rw [outcome] at pushed
        exact pushed
      | ok state =>
        rw [outcome] at pushed
        refine pushed.trans (ih restOk (nodup_cons.mp distinct).2 pushed.sound ?_)
        intro route mem
        rw [pushRoute] at outcome
        split at outcome
        · cases outcome
        cases outcome
        obtain before | last := mem_append.mp mem
        · exact fun inRest => fresh route before (.tail _ inRest)
        rw [mem_singleton.mp last]
        exact (nodup_cons.mp distinct).1
    rw [if_neg used] at distinct fresh ⊢
    exact ih restOk distinct sound fresh

section

variable (sound : Sound env provenance e)
include sound

lemma Sound.sourceFor_eq (mem : source ∈ e.sources) (used : source.used = true) :
    sourceFor e source.pfx source.router = some source := by
  cases found : sourceFor e source.pfx source.router with
  | none =>
    have rejected := find?_eq_none.mp found source mem
    simp [used] at rejected
  | some other =>
    have facts := sourceFor_some found
    have equal := eq_of_key_eq sound.sources.distinct facts.1 mem facts.2.1 used
      (by simp [facts.2.2.1, facts.2.2.2])
    rw [equal]

lemma chosen_ok (ok : CandidateOk provenance e.config.router candidate)
    (finite : (metric env e candidate).1 ≠ infinity) (feasible : feasible e candidate = true) :
    RouteOk provenance e.config.router e.sources
      { candidate.route with metric := (metric env e candidate).1 } := by
  have value := metric_value finite
  rw [value] at finite
  have below := lt_addCost_cost finite
  have announced : candidate.advertised ≠ infinity := by
    intro infinite
    rw [infinite, UInt16.lt_iff_toNat_lt] at below
    have bound := (addCost infinity (cost e (linkFor e candidate.route.link))).toNat_lt
    have literal : infinity.toNat = 65535 := rfl
    omega
  refine ⟨Prefix.valid_of_routable ok.routable, ?_, ?_, ?_, ?_⟩
  · simp [ok.plain.2]
  · exact fun _ => ⟨value ▸ finite, ok.routerOk⟩
  · simp [ok.plain.1]
  intro _ _
  refine ⟨ok.foreign, ok.link, candidate.advertised, value ▸ below, ok.heard announced, ?_⟩
  intro source mem used samePfx sameRouter
  have found := sound.sourceFor_eq mem used
  rw [samePfx, sameRouter] at found
  exact better_of_feasible feasible announced found

lemma selectCandidate_keeps (old : List Route)
    (ok : candidate.used = true → CandidateOk provenance e.config.router candidate) :
    Keeps env provenance e (settle (selectCandidate env old e candidate)) := by
  rw [selectCandidate]
  split
  · exact Keeps.refl sound
  rename_i considered
  simp only [Bool.or_eq_true, Bool.not_eq_true', not_or, Bool.not_eq_false] at considered
  have after := metric_keeps sound candidate
  obtain ⟨_, asked, equation⟩ := metric_eq env e candidate
  have same : (metric env e candidate).2 = { e with consultations := asked } := by
    rw [equation]
  have chosen := chosen_ok sound (ok considered.1)
  simp only
  rw [same] at after ⊢
  generalize (metric env e candidate).1 = m at chosen ⊢
  split
  · exact after
  rename_i accepted
  simp only [Bool.or_eq_true, decide_eq_true_eq, Bool.not_eq_true', not_or,
    Bool.not_eq_false] at accepted
  have chosenOk := chosen accepted.1 accepted.2
  split
  · rename_i absent
    exact after.trans (pushRoute_keeps after.sound chosenOk (routeFor_none absent))
  rename_i route found
  have ⟨inTable, samePfx⟩ := routeFor_some found
  split
  · refine after.trans ⟨{ after.sound with routes := ?_ },
      .of_same rfl⟩
    have overwritten : route.pfx = { candidate.route with metric := m }.pfx := samePfx
    rcases replaceRoute_eq_set inTable overwritten with
      ⟨slot, replaced, located, replacedPfx, written⟩
    simp only [written]
    exact after.sound.routes.set located (fun _ => chosenOk)
      fun _ => .inr ⟨rfl, replacedPfx⟩
  exact after

lemma requestTargets_ne_zero : ∀ target ∈ requestTargets env e p, target ≠ 0 := by
  intro target mem
  obtain ⟨candidate, inTable, rfl⟩ := mem_map.mp (mem_of_mem_take mem)
  rw [mem_filter] at inTable
  simp only [Bool.and_eq_true] at inTable
  exact (sound.candidates.each candidate inTable.1 inTable.2.1.1.1).link

lemma suppress_keeps (valid : lost.pfx.valid = true)
    (routerOk : lost.unreachable = false → RouterOk lost.router) :
    Keeps env provenance e (suppress env e lost) := by
  rw [suppress]
  split
  · exact Keeps.refl sound
  rename_i gone
  simp only [Bool.or_eq_true, not_or, Bool.not_eq_true] at gone
  have dropped := dropRoute_keeps sound valid
  have triggered := dropped.trans (trigger_keeps dropped.sound true)
  simp only
  split
  · exact triggered
  split
  · exact triggered
  exact triggered.trans (request_keeps triggered.sound valid (routerOk gone.1) (by decide)
    (requestTargets_ne_zero triggered.sound) 0)

lemma selectDrop_keeps (slot : Nat) :
    Keeps env provenance e (settle (selectDrop env e slot)) := by
  rw [selectDrop]
  split
  · exact Keeps.refl sound
  rename_i drop located
  split
  · exact Keeps.refl sound
  rename_i used
  simp only [Bool.not_eq_true', Bool.not_eq_false] at used
  split
  · exact ⟨{ sound with drops := sound.drops.retire slot rfl }, .of_same rfl⟩
  rename_i active
  simp only [Bool.or_eq_true, not_or] at active
  have ok := sound.drops.each drop (mem_of_getElem? located) used
  apply pushRoute_keeps sound
  · exact ⟨ok.valid, fun _ => rfl, by simp, by simp, by simp⟩
  exact routeFor_none (by simpa using active.1)

end

lemma noteChange_outputOnly (old : List Route) (e : Engine) (route : Route) :
    OutputOnly e (noteChange old e route) := by
  rw [noteChange]
  split
  · exact trigger_outputOnly e true
  split
  · exact trigger_outputOnly e true
  split
  · exact trigger_outputOnly e false
  exact OutputOnly.refl e

lemma noteChange_keeps (sound : Sound env provenance e) (old : List Route) (route : Route) :
    Keeps env provenance e (noteChange old e route) := by
  rw [noteChange]
  split
  · exact trigger_keeps sound true
  split
  · exact trigger_keeps sound true
  split
  · exact trigger_keeps sound false
  exact Keeps.refl sound

lemma answerRequest_outputOnly (env : Env) (e : Engine) (slot : Nat) :
    OutputOnly e (answerRequest env e slot) := by
  rw [answerRequest]
  split
  · exact OutputOnly.refl e
  rename_i q _
  split
  · exact OutputOnly.refl e
  split
  · exact OutputOnly.refl e
  split
  · have answered : OutputOnly e
        (if q.fromLink ≠ 0 then advertise env e q.fromLink q.message.pfx true else e) := by
      split
      · exact advertise_outputOnly ..
      exact OutputOnly.refl e
    exact answered.trans (by constructor <;> rfl)
  exact OutputOnly.refl e

lemma answerRequest_keeps (sound : Sound env provenance e) (slot : Nat) :
    Keeps env provenance e (answerRequest env e slot) := by
  rw [answerRequest]
  split
  · exact Keeps.refl sound
  rename_i q _
  split
  · exact Keeps.refl sound
  split
  · exact Keeps.refl sound
  rename_i route found
  have ⟨inTable, samePfx⟩ := routeFor_some found
  have valid : q.message.pfx.valid = true := samePfx ▸ (sound.routes.each route inTable rfl).valid
  split
  · have answered : Keeps env provenance e
        (if q.fromLink ≠ 0 then advertise env e q.fromLink q.message.pfx true else e) := by
      split
      · rename_i nonzero
        exact advertise_keeps sound nonzero valid true
      exact Keeps.refl sound
    exact answered.trans
      ⟨{ answered.sound with requests := answered.sound.requests.retire slot rfl }, .of_same rfl⟩
  exact Keeps.refl sound

/-! ## The whole selection -/

lemma announceTable_outputOnly (env : Env) (old : List Route) (e : Engine) :
    OutputOnly e (announceTable env old e) :=
  (OutputOnly.foldl _ _ fun state route => noteChange_outputOnly old state route).trans
    (OutputOnly.foldl _ _ fun state slot => answerRequest_outputOnly env state slot)

lemma announceTable_keeps (sound : Sound env provenance e) (old : List Route) :
    Keeps env provenance e (announceTable env old e) := by
  have noted := Keeps.foldl (noteChange old) e.routes sound fun state route _ sound' _ =>
    noteChange_keeps sound' old route
  exact noted.trans (Keeps.foldl _ _ noted.sound fun state slot _ sound' _ =>
    answerRequest_keeps sound' slot)

def OldOk (old : List Route) : Prop :=
  ∀ route ∈ old, route.pfx.valid = true ∧ (route.unreachable = false → RouterOk route.router)

lemma Sound.oldOk (sound : Sound env provenance e) : OldOk e.routes := by
  intro route mem
  have ok := sound.routes.each route mem rfl
  exact ⟨ok.valid, fun reachable => (ok.reachable reachable).2⟩

lemma selectCandidates_keeps {candidates : List Candidate} {start : Engine}
    (sound : Sound env provenance start) (old : List Route)
    (ok : ∀ candidate ∈ candidates, candidate.used = true →
      CandidateOk provenance start.config.router candidate) : Keeps env provenance start
      (settle (candidates.foldlM (selectCandidate env old) start)) := by
  refine settle_foldlM_of_step _ (Keeps env provenance start) _ ?_ start (Keeps.refl sound)
  intro state candidate mem kept
  refine kept.trans (selectCandidate_keeps kept.sound old fun used => ?_)
  rw [kept.evolves.config]
  exact ok candidate mem used

section

variable (sound : Sound env provenance e)
include sound

lemma suppressAll_keeps (oldOk : OldOk old) : Keeps env provenance e (old.foldl (suppress env) e) :=
  Keeps.foldl _ _ sound fun _ lost mem sound' _ =>
    suppress_keeps sound' (oldOk lost mem).1 (oldOk lost mem).2

lemma selectDrops_keeps (slots : List Nat) :
    Keeps env provenance e (settle (slots.foldlM (selectDrop env) e)) :=
  settle_foldlM_of_step _ (Keeps env provenance e) _
    (fun _ slot _ kept => kept.trans (selectDrop_keeps kept.sound slot)) e (Keeps.refl sound)

lemma clearRoutes_keeps : Keeps env provenance e { e with routes := [] } :=
  ⟨{ sound with routes := Proper.nil }, .of_same rfl⟩

lemma sortRoutes_keeps : Keeps env provenance e { e with routes := sortRoutes e.routes } :=
  ⟨{ sound with routes := sound.routes.perm (sortRoutes_perm e.routes) }, .of_same rfl⟩

lemma selectTable_keeps {old : List Route}
    (oldOk : OldOk old) : Keeps env provenance e (settle (selectTable env old e)) := by
  have emptied := clearRoutes_keeps sound
  rw [selectTable]
  refine settle_bind_of_step (Keeps env provenance e) ?_ fun first _ kept => ?_
  · exact emptied.trans (selectLocals_keeps sound.locals.each sound.locals.distinct emptied.sound
      (by simp))
  refine settle_bind_of_step (Keeps env provenance e) ?_ fun second _ kept => ?_
  · exact kept.trans (selectCandidates_keeps kept.sound old kept.sound.candidates.each)
  have suppressed := kept.trans (suppressAll_keeps kept.sound oldOk)
  refine settle_bind_of_step (Keeps env provenance e) ?_ fun third _ kept => ?_
  · exact suppressed.trans (selectDrops_keeps suppressed.sound _)
  exact kept.trans (sortRoutes_keeps kept.sound)

lemma selectRoutes_keeps : Keeps env provenance e (selectRoutes env e) := by
  rw [selectRoutes]
  split
  · exact Keeps.refl sound
  have asked := requests_le_reserve env e.heap env.limits.routes e.scratchCapacity
    e.routes.length
  simp only
  split
  · rename_i heap refused
    rw [refused] at asked
    exact ⟨{ sound with }, .of_sources_eq rfl rfl rfl asked rfl⟩
  rename_i capacity heap reserved
  rw [reserved] at asked
  have prepared : Keeps env provenance e
      { e with heap := heap, scratchCapacity := capacity } :=
    ⟨{ sound with }, .of_sources_eq rfl rfl rfl asked rfl⟩
  have selected : Keeps env provenance e (settle (do
      let e' ← selectTable env e.routes { e with heap := heap, scratchCapacity := capacity }
      return announceTable env e.routes e')) := by
    refine settle_bind_of_step (Keeps env provenance e) ?_ fun state _ kept => ?_
    · exact prepared.trans (selectTable_keeps prepared.sound sound.oldOk)
    exact kept.trans (announceTable_keeps kept.sound e.routes)
  split
  · exact selected.trans ⟨{ selected.sound with }, .of_same rfl⟩
  exact selected

end

/-! ## What selection reads

Selection decides from the links, the candidates and the local prefixes, and
changes none of them.
-/

structure SameInputs (e e' : Engine) : Prop where
  config : e'.config = e.config
  now : e'.now = e.now
  seqno : e'.seqno = e.seqno
  lastLink : e'.lastLink = e.lastLink
  links : e'.links = e.links
  candidates : e'.candidates = e.candidates
  locals : e'.locals = e.locals
  before : e'.before = e.before

namespace SameInputs

variable {e'' : Engine}

lemma refl (e : Engine) : SameInputs e e := by
  constructor <;> rfl

lemma trans (first : SameInputs e e') (second : SameInputs e' e'') : SameInputs e e'' where
  config := second.config.trans first.config
  now := second.now.trans first.now
  seqno := second.seqno.trans first.seqno
  lastLink := second.lastLink.trans first.lastLink
  links := second.links.trans first.links
  candidates := second.candidates.trans first.candidates
  locals := second.locals.trans first.locals
  before := second.before.trans first.before

lemma of_outputOnly (same : OutputOnly e e') : SameInputs e e' :=
  ⟨same.config, same.now, same.seqno, same.lastLink, same.links, same.candidates, same.locals,
    same.before⟩

end SameInputs

lemma dropRoute_sameInputs (env : Env) (e : Engine) (p : Prefix) :
    SameInputs e (dropRoute env e p) := by
  simp only [dropRoute]
  split
  · constructor <;> rfl
  split <;> constructor <;> rfl

lemma pushRoute_sameInputs (env : Env) (e : Engine) (route : Route) :
    SameInputs e (settle (pushRoute env e route)) := by
  rw [pushRoute]
  split <;> constructor <;> rfl

lemma selectLocal_sameInputs (env : Env) (e : Engine) (entry : LocalPrefix) :
    SameInputs e (settle (selectLocal env e entry)) := by
  rw [selectLocal]
  split
  · exact pushRoute_sameInputs ..
  exact SameInputs.refl e

lemma selectCandidate_sameInputs (env : Env) (old : List Route) (e : Engine)
    (candidate : Candidate) : SameInputs e (settle (selectCandidate env old e candidate)) := by
  have asked := SameInputs.of_outputOnly (metric_outputOnly env e candidate)
  rw [selectCandidate]
  split
  · exact SameInputs.refl e
  simp only
  split
  · exact asked
  split
  · exact asked.trans (pushRoute_sameInputs ..)
  split
  · exact asked.trans (by constructor <;> rfl)
  exact asked

lemma suppress_sameInputs (env : Env) (e : Engine) (lost : Route) :
    SameInputs e (suppress env e lost) := by
  have triggered := (dropRoute_sameInputs env e lost.pfx).trans
    (SameInputs.of_outputOnly (trigger_outputOnly (dropRoute env e lost.pfx) true))
  rw [suppress]
  split
  · exact SameInputs.refl e
  simp only
  split
  · exact triggered
  split
  · exact triggered
  exact triggered.trans (SameInputs.of_outputOnly (request_outputOnly ..))

lemma selectDrop_sameInputs (env : Env) (e : Engine) (slot : Nat) :
    SameInputs e (settle (selectDrop env e slot)) := by
  rw [selectDrop]
  split
  · exact SameInputs.refl e
  split
  · exact SameInputs.refl e
  split
  · constructor <;> rfl
  exact pushRoute_sameInputs ..

lemma selectTable_sameInputs (env : Env) (old : List Route) (e : Engine) :
    SameInputs e (settle (selectTable env old e)) := by
  have emptied : SameInputs e { e with routes := [] } := by
    constructor <;> rfl
  rw [selectTable]
  refine settle_bind_of_step (SameInputs e) ?_ fun first _ same => ?_
  · exact settle_foldlM_of_step _ (SameInputs e) _
      (fun state entry _ same => same.trans (selectLocal_sameInputs env state entry)) _ emptied
  refine settle_bind_of_step (SameInputs e) ?_ fun second _ same => ?_
  · exact settle_foldlM_of_step _ (SameInputs e) _
      (fun state candidate _ same =>
        same.trans (selectCandidate_sameInputs env old state candidate)) _ same
  have suppressed : SameInputs e (old.foldl (suppress env) second) :=
    foldlRecOn old _ same fun state same lost _ =>
      same.trans (suppress_sameInputs env state lost)
  refine settle_bind_of_step (SameInputs e) ?_ fun third _ same => ?_
  · exact settle_foldlM_of_step _ (SameInputs e) _
      (fun state slot _ same => same.trans (selectDrop_sameInputs env state slot)) _ suppressed
  exact same.trans (by constructor <;> rfl)

lemma selectRoutes_sameInputs (env : Env) (e : Engine) : SameInputs e (selectRoutes env e) := by
  rw [selectRoutes]
  split
  · exact SameInputs.refl e
  simp only
  split
  · constructor <;> rfl
  rename_i capacity heap _
  have prepared : SameInputs e { e with heap := heap, scratchCapacity := capacity } := by
    constructor <;> rfl
  have selected : SameInputs e (settle (do
      let e' ← selectTable env e.routes { e with heap := heap, scratchCapacity := capacity }
      return announceTable env e.routes e')) := by
    refine settle_bind_of_step (SameInputs e) ?_ fun state _ same => ?_
    · exact prepared.trans (selectTable_sameInputs ..)
    exact same.trans (SameInputs.of_outputOnly (announceTable_outputOnly ..))
  split
  · exact selected.trans (by constructor <;> rfl)
  exact selected

end WendyLite.Babel
