import WendyLite.Babel.Grounded

/-! # Loop suppression

A prefix that has lost its last usable route is suppressed for three and a half
update intervals. Until then the table keeps an entry for exactly this prefix,
so lookups never fall back on a shorter one.
-/

namespace WendyLite.Babel

open SlotTable

variable {env : Env} {provenance : Provenance} {e e' e'' : Engine} {p : Prefix} {limit : Nat}

/-! ## What messages do to the table -/

structure SameTables (e e' : Engine) : Prop where
  config : e'.config = e.config
  now : e'.now = e.now
  stopped : e'.stopped = e.stopped
  locals : e'.locals = e.locals
  drops : e'.drops = e.drops
  routes : e'.routes = e.routes

lemma SameTables.refl (e : Engine) : SameTables e e := by
  constructor <;> rfl

lemma SameTables.trans (first : SameTables e e') (second : SameTables e' e'') :
    SameTables e e'' where
  config := second.config.trans first.config
  now := second.now.trans first.now
  stopped := second.stopped.trans first.stopped
  locals := second.locals.trans first.locals
  drops := second.drops.trans first.drops
  routes := second.routes.trans first.routes

lemma SameTables.of_outputOnly (same : OutputOnly e e') : SameTables e e' :=
  ⟨same.config, same.now, same.stopped, same.locals, same.drops, same.routes⟩

lemma modifyLink_sameTables (e : Engine) (id : UInt64) (change : LinkState → LinkState) :
    SameTables e (modifyLink e id change) := by
  rw [modifyLink]
  split <;> constructor <;> rfl

lemma storeUpdate_sameTables (env : Env) (e : Engine) (link : Link) (m : Message)
    (slot : Nat) : SameTables e (storeUpdate env e link m slot) := by
  have same := SameTables.of_outputOnly (storeUpdate_outputOnly env e link m slot)
  exact ⟨same.config, same.now, same.stopped, same.locals, same.drops, same.routes⟩

lemma insertUpdate_sameTables (env : Env) (e : Engine) (link : Link) (m : Message) :
    SameTables e (insertUpdate env e link m) := by
  rw [insertUpdate]
  split
  · constructor <;> rfl
  split
  · constructor <;> rfl
  rename_i slot candidates heap _
  have same := storeUpdate_sameTables env
    { e with heap := heap, candidates := candidates.set slot {} } link m slot
  exact ⟨same.config, same.now, same.stopped, same.locals, same.drops, same.routes⟩

lemma update_sameTables (env : Env) (e : Engine) (link : Link) (m : Message) :
    SameTables e (update env e link m) := by
  rw [update]
  split
  · constructor <;> rfl
  simp only
  split
  · split <;> constructor <;> rfl
  obtain ⟨asked, after, _⟩ := refusesUpdate_spec env e link m
  generalize refusesUpdate env e link m = outcome at after ⊢
  obtain ⟨refused, next⟩ := outcome
  simp only at after
  have counted : SameTables e next := by
    rw [after]
    constructor <;> rfl
  have refusal : SameTables next (rejected next) := by
    constructor <;> rfl
  cases refused with
  | true => exact counted.trans refusal
  | false =>
    simp only
    split
    · exact counted.trans refusal
    split
    · exact counted.trans (storeUpdate_sameTables env next link m _)
    exact counted.trans (insertUpdate_sameTables env next link m)

/-- A received message leaves the table alone, or selects it anew, at most twice. -/
lemma receiveMessage_selects (env : Env) (id : UInt64) (e : Engine) (m : Message) :
    SameTables e (receiveMessage env id e m) ∨
      SameTables (selectRoutes env e) (receiveMessage env id e m) ∨ SameTables (selectRoutes env
          { selectRoutes env e with seqno := (selectRoutes env e).seqno + 1 })
        (receiveMessage env id e m) := by
  rw [receiveMessage]
  split
  · exact .inl (SameTables.refl e)
  split
  · exact .inl (SameTables.refl e)
  cases m.type with
  | hello | ihu => exact .inl (modifyLink_sameTables e id _)
  | ackRequest => exact .inl (SameTables.of_outputOnly (queue_outputOnly ..))
  | update =>
    refine .inl ?_
    simp only
    split
    · exact SameTables.refl e
    split
    · exact SameTables.refl e
    exact update_sameTables env e _ m
  | request =>
    refine .inr (.inl ?_)
    simp only [receiveRequest]
    split
    · split
      · exact SameTables.refl _
      split
      · exact (SameTables.of_outputOnly (dump_outputOnly ..)).trans
          (modifyLink_sameTables _ id _)
      exact SameTables.refl _
    exact SameTables.of_outputOnly (advertise_outputOnly ..)
  | seqRequest =>
    refine .inr ?_
    simp only [seqRequest]
    split
    · exact .inl (SameTables.of_outputOnly (forwardSeqRequest_outputOnly ..))
    split
    · exact .inl (SameTables.of_outputOnly (forwardSeqRequest_outputOnly ..))
    split
    · exact .inl (SameTables.of_outputOnly (advertise_outputOnly ..))
    split
    · exact .inr (SameTables.of_outputOnly (advertise_outputOnly ..))
    exact .inl (SameTables.of_outputOnly (forwardSeqRequest_outputOnly ..))
  | ack | router | nextHop => exact .inl (SameTables.refl e)

/-! ## Held prefixes -/

def Held (p : Prefix) (limit : Nat) (e : Engine) : Prop :=
  Reaches e.routes p ∨
    ∃ drop ∈ e.drops, drop.used = true ∧ drop.pfx = p ∧ limit ≤ drop.expires.toNat

/-- The prefix is held until the limit, and a suppression that starts now would
last as long. -/
structure Covered (p : Prefix) (limit : Nat) (e : Engine) : Prop where
  horizon : limit ≤ (suppressedUntil e).toNat
  held : e.now.toNat < limit → Held p limit e

/-- The same while an event runs: the prefix may also have become local. -/
structure Guarded (p : Prefix) (limit : Nat) (e : Engine) : Prop where
  horizon : limit ≤ (suppressedUntil e).toNat
  held : e.now.toNat < limit → Held p limit e ∨
    ∃ entry ∈ e.locals, entry.used = true ∧ entry.pfx = p

lemma Covered.guarded (covered : Covered p limit e) : Guarded p limit e :=
  ⟨covered.horizon, fun early => .inl (covered.held early)⟩

lemma Guarded.of_sameTables (guarded : Guarded p limit e) (same : SameTables e e') :
    Guarded p limit e' := by
  refine ⟨?_, ?_⟩
  · rw [suppressedUntil, same.now, same.config]
    exact guarded.horizon
  rw [Held, same.now, same.routes, same.drops, same.locals]
  exact guarded.held

lemma selectRoutes_covered (sound : Sound env provenance e)
    (running : (selectRoutes env e).stopped = false) (guarded : Guarded p limit e) :
    Covered p limit (selectRoutes env e) := by
  have selected := selectRoutes_selected sound running
  have same := selected.inputs
  refine ⟨same.suppressedUntil ▸ guarded.horizon, ?_⟩
  rw [same.now]
  intro early
  rcases guarded.held early with (⟨route, mem, rfl, reachable⟩ |
    ⟨drop, mem, used, rfl, lasting⟩) | ⟨entry, mem, used, rfl⟩
  · obtain found | ⟨drop, inDrops, used, samePfx, ends⟩ := selected.lost route mem reachable
    · exact .inl found
    refine .inr ⟨drop, inDrops, used, samePfx, ?_⟩
    rw [ends]
    exact guarded.horizon
  · have alive : e.now < drop.expires := UInt64.lt_iff_toNat_lt.mpr (early.trans_le lasting)
    obtain found | ⟨drop', inDrops, used', samePfx, ends⟩ := selected.kept drop mem used alive
    · exact .inl found
    refine .inr ⟨drop', inDrops, used', samePfx, ?_⟩
    obtain same | new := ends
    · rw [same]
      exact lasting
    rw [new]
    exact guarded.horizon
  have isLocal : localRoute e entry ∈ localRoutes e :=
    mem_localRoutes.mpr ⟨entry, mem, used, rfl⟩
  exact .inl ⟨localRoute e entry, selected.locals _ isLocal, rfl, rfl⟩

lemma receiveMessage_guarded (sound : Sound env Provenance.any e) {id : UInt64} {m : Message}
    (guarded : e.stopped = false → Guarded p limit e)
    (running : (receiveMessage env id e m).stopped = false) :
    Guarded p limit (receiveMessage env id e m) := by
  have once : (selectRoutes env e).stopped = false → Guarded p limit (selectRoutes env e) :=
    fun still => (selectRoutes_covered sound still (guarded (selectRoutes_running still).1)).guarded
  obtain same | same | same := receiveMessage_selects env id e m
  · exact (guarded (same.stopped.symm.trans running)).of_sameTables same
  · exact (once (same.stopped.symm.trans running)).of_sameTables same
  have still := same.stopped.symm.trans running
  have first := once (selectRoutes_running still).1
  have sound' := (selectRoutes_keeps sound).sound
  have bumped : Guarded p limit
      { selectRoutes env e with seqno := (selectRoutes env e).seqno + 1 } :=
    first.of_sameTables (by constructor <;> rfl)
  have bumpedSound : Sound env Provenance.any
      { selectRoutes env e with seqno := (selectRoutes env e).seqno + 1 } :=
    { sound' with seqno := trivial }
  exact (selectRoutes_covered bumpedSound still bumped).guarded.of_sameTables same

/-! ## Events -/

lemma writeLocal_guarded (covered : Covered p limit e) {slot : Nat} {old : LocalPrefix}
    {q : Prefix} {metric : UInt16} (located : e.locals[slot]? = some old) :
    Guarded p limit (writeLocal slot q metric e) := by
  refine ⟨covered.horizon, fun early => ?_⟩
  obtain usable | ⟨drop, mem, used, samePfx, lasting⟩ := covered.held early
  · exact .inl (.inl usable)
  by_cases same : q = p
  · subst same
    exact .inr ⟨_, mem_set_self located, rfl, rfl⟩
  refine .inl (.inr ⟨drop, ?_, used, samePfx, lasting⟩)
  refine List.mem_map.mpr ⟨drop, mem, if_neg ?_⟩
  simp only [samePfx, Bool.and_eq_true, beq_iff_eq, not_and]
  exact fun _ equal => same equal.symm

lemma clearLocal_guarded (covered : Covered p limit e) (q : Prefix) :
    Guarded p limit (clearLocal q e) := by
  rw [clearLocal]
  split
  · exact covered.guarded
  exact ⟨covered.horizon, fun early => .inl (covered.held early)⟩

lemma Covered.of_view (covered : Covered p limit e) (view : SameView e e') :
    Covered p limit e' := by
  refine ⟨?_, ?_⟩
  · rw [suppressedUntil, view.now, view.config]
    exact covered.horizon
  rw [Held, view.now, view.routes]
  intro early
  obtain usable | ⟨drop, mem, used, rest⟩ := covered.held early
  · exact .inl usable
  exact .inr ⟨drop, (mem_live_of_filter_eq view.drops used).mpr mem, used, rest⟩

lemma finish_covered (sound : Sound env provenance e)
    (running : (finish env e).2.stopped = false) (guarded : Guarded p limit e) :
    Covered p limit (finish env e).2 := by
  obtain ⟨still, view⟩ := finish_running sound running
  exact (selectRoutes_covered sound still guarded).of_view view

section Accepted

variable {event : Event} {now : UInt64} {prepared begun : Engine} {change : Engine → Engine}

lemma Accepted.covered (accepted : Accepted env e event now prepared begun change)
    (sound : Sound env Provenance.any e) (covered : Covered p limit begun)
    (running : (step env e event).2.stopped = false) : Covered p limit (step env e event).2 := by
  obtain ⟨started, begunSound, changed⟩ := accepted.changed sound (eventOk_any env e event)
  rw [accepted.state] at running ⊢
  refine finish_covered changed.sound running ?_
  have still : (change begun).stopped = false :=
    (selectRoutes_running (finish_running changed.sound running).1).1
  have guarded := covered.guarded
  cases accepted.kind with
  | tick => exact guarded
  | addLink now config slot links heap refused acquired =>
    have attached : Guarded p limit
        { begun with
          links := begun.links.set slot { config := config, tx := infinity }
          lastLink := config.id } := guarded.of_sameTables (by constructor <;> rfl)
    exact attached.of_sameTables (SameTables.of_outputOnly (queue_outputOnly ..))
  | removeLink now link =>
    have cleared := guarded.of_sameTables (modifyLink_sameTables begun link fun _ => {})
    exact cleared.of_sameTables (by constructor <;> rfl)
  | setCost now link cost positive =>
    exact guarded.of_sameTables (modifyLink_sameTables begun link _)
  | originate now q metric slot prepared routable finite placed =>
    obtain ⟨heap, locals, result, _, _, _, place⟩ := originSlot_spec sound q
    rw [placed] at result place
    obtain ⟨old, located, _⟩ := place slot rfl
    have located1 : begun.locals[slot]? = some old := by
      rw [started.tables.2.1, show prepared = _ from result]
      exact located
    exact writeLocal_guarded covered located1
  | withdraw now q => exact clearLocal_guarded covered q
  | receive now link data =>
    have all : (receivePacket env link data begun).stopped = false →
        Guarded p limit (receivePacket env link data begun) :=
      receivePacket_of_step (fun state => state.stopped = false → Guarded p limit state)
        begunSound (fun _ _ => guarded.of_sameTables (by constructor <;> rfl))
        fun _ _ _ _ kept holds running => receiveMessage_guarded kept.sound holds running
    exact all still

lemma Accepted.begun_covered (accepted : Accepted env e event now prepared begun change)
    (sound : Sound env Provenance.any e) (covered : Covered p limit e) : Covered p limit begun := by
  obtain ⟨started, begunSound, _⟩ := accepted.changed sound (eventOk_any env e event)
  have view := accepted.kind.prepares.1.view
  have tables := started.tables
  have later := UInt64.le_iff_toNat_le.mp started.later
  have horizon := covered.horizon
  have config : begun.config = e.config := tables.2.2.2.2.2.2.2.2.1.trans view.config
  have now' : begun.now = now := tables.2.2.2.2.2.2.2.2.2.1
  rw [suppressedUntil, sound.toNat_suppression] at horizon
  rw [view.now] at later
  refine ⟨?_, fun early => ?_⟩
  · rw [suppressedUntil, begunSound.toNat_suppression, config, now']
    omega
  rw [now'] at early
  obtain usable | ⟨drop, mem, used, rest⟩ := covered.held (later.trans_lt early)
  · refine .inl ?_
    rw [tables.2.2.2.1, view.routes]
    exact usable
  refine .inr ⟨drop, ?_, used, rest⟩
  rw [tables.2.2.1]
  exact (mem_live_of_filter_eq view.drops used).mpr mem

end Accepted

/-- Between events, while the engine runs. -/
structure Suppressing (p : Prefix) (limit : Nat) (e : Engine) : Prop where
  covered : Covered p limit e
  settled : Settled e

lemma step_suppressing (sound : Sound env Provenance.any e) (suppressing : Suppressing p limit e)
    (running : (step env e event).2.stopped = false) :
    Suppressing p limit (step env e event).2 := by
  obtain ⟨quiet, _⟩ | ⟨_, _, _, _, accepted⟩ | halts := step_cases env e event
  · have view := quiet.view
    exact ⟨suppressing.covered.of_view view, view.settled sound suppressing.settled⟩
  · refine ⟨accepted.covered sound (accepted.begun_covered sound suppressing.covered) running, ?_⟩
    obtain ⟨_, _, changed⟩ := accepted.changed sound (eventOk_any env e event)
    rw [accepted.state] at running ⊢
    exact finish_settled changed.sound running
  rw [halts.stopped] at running
  cases running

/-- The event that takes the last usable route of a prefix suppresses it. -/
lemma step_loses (sound : Sound env Provenance.any e) (reached : Reaches e.routes p)
    (lost : ¬ Reaches (step env e event).2.routes p)
    (running : (step env e event).2.stopped = false) :
    Suppressing p ((step env e event).2.now.toNat + e.config.updateMs.toNat * 7 / 2)
      (step env e event).2 := by
  obtain ⟨quiet, _⟩ | ⟨now, _, begun, _, accepted⟩ | halts := step_cases env e event
  · rw [quiet.view.routes] at lost
    exact absurd reached lost
  · obtain ⟨started, begunSound, changed⟩ := accepted.changed sound (eventOk_any env e event)
    have view := accepted.kind.prepares.1.view
    have config : begun.config = e.config := started.tables.2.2.2.2.2.2.2.2.1.trans view.config
    have now' : (step env e event).2.now = begun.now := by
      rw [accepted.state]
      exact (finish_sound changed.sound).2.2.1.trans changed.now
    have covered : Covered p ((step env e event).2.now.toNat + e.config.updateMs.toNat * 7 / 2)
        begun := by
      refine ⟨?_, fun _ => .inl ?_⟩
      · rw [suppressedUntil, begunSound.toNat_suppression, config, now']
      rw [started.tables.2.2.2.1, view.routes]
      exact reached
    refine ⟨accepted.covered sound covered running, ?_⟩
    rw [accepted.state] at running ⊢
    exact finish_settled changed.sound running
  rw [halts.stopped] at running
  cases running

lemma running_of_run (running : (run env e events).stopped = false) :
    e.stopped = false := by
  induction events generalizing e with
  | nil => exact running
  | cons event rest ih => exact running_of_step (ih running)

lemma run_suppressing (sound : Sound env Provenance.any e) (suppressing : Suppressing p limit e)
    (running : (run env e events).stopped = false) : Suppressing p limit (run env e events) := by
  induction events generalizing e with
  | nil => exact suppressing
  | cons event rest ih =>
    have still : (step env e event).2.stopped = false := running_of_run running
    have first := step_suppressing sound suppressing still
    exact ih (step_spec sound (eventOk_any env e event)).1 first running

/-! ## Lookup -/

def preferLonger (host : Prefix) (best : Option Route) (route : Route) : Option Route :=
  if covers route.pfx host then
    match best with
    | none => some route
    | some other => if route.pfx.bits > other.pfx.bits then some route else best
  else best

/-- The loop returns a route at least as long as any covering one it has seen. -/
lemma foldl_preferLonger {host : Prefix} {routes : List Route} {best : Option Route} :
    (∀ known, best = some known →
      ∃ found, routes.foldl (preferLonger host) best = some found ∧ known.pfx.bits ≤ found.pfx.bits) ∧
    ∀ route ∈ routes, covers route.pfx host = true →
      ∃ found, routes.foldl (preferLonger host) best = some found ∧
        route.pfx.bits ≤ found.pfx.bits := by
  induction routes generalizing best with
  | nil => exact ⟨fun known same => ⟨known, same, UInt8.le_refl _⟩, by simp⟩
  | cons head tail ih =>
    rw [List.foldl_cons]
    have rest := @ih (preferLonger host best head)
    -- The best so far is never shorter than it was, nor than the head if that covers.
    have step : ∀ bits : UInt8,
        ((∃ known, best = some known ∧ bits ≤ known.pfx.bits) ∨
          (covers head.pfx host = true ∧ bits ≤ head.pfx.bits)) →
        ∃ next, preferLonger host best head = some next ∧ bits ≤ next.pfx.bits := by
      intro bits known
      cases best with
      | none =>
        obtain ⟨_, absent, _⟩ | ⟨covering, short⟩ := known
        · cases absent
        exact ⟨head, by simp [preferLonger, covering], short⟩
      | some other =>
        by_cases covering : covers head.pfx host = true
        · by_cases longer : head.pfx.bits > other.pfx.bits
          · refine ⟨head, by simp [preferLonger, covering, longer], ?_⟩
            obtain ⟨_, same, short⟩ | ⟨_, short⟩ := known
            · cases same
              exact UInt8.le_trans short (UInt8.le_of_lt longer)
            exact short
          refine ⟨other, by simp [preferLonger, covering, longer], ?_⟩
          obtain ⟨_, same, short⟩ | ⟨_, short⟩ := known
          · cases same
            exact short
          exact UInt8.le_trans short (UInt8.not_lt.mp longer)
        obtain ⟨_, same, short⟩ | ⟨covers', _⟩ := known
        · cases same
          exact ⟨other, by simp [preferLonger, covering], short⟩
        exact absurd covers' covering
    have through : ∀ bits : UInt8,
        (∃ next, preferLonger host best head = some next ∧ bits ≤ next.pfx.bits) →
        ∃ found, tail.foldl (preferLonger host) (preferLonger host best head) = some found ∧
          bits ≤ found.pfx.bits := by
      rintro bits ⟨next, chosen, short⟩
      obtain ⟨found, result, longer⟩ := rest.1 next chosen
      exact ⟨found, result, UInt8.le_trans short longer⟩
    refine ⟨fun known same => ?_, fun route mem covering => ?_⟩
    · exact through _ (step _ (.inl ⟨known, same, UInt8.le_refl _⟩))
    obtain rfl | later := List.mem_cons.mp mem
    · exact through _ (step _ (.inr ⟨covering, UInt8.le_refl _⟩))
    exact rest.2 route later covering

lemma wbLookup_longest (valid : host.valid = true) (mem : route ∈ e.routes)
    (covering : covers route.pfx host = true) :
    ∃ found, wbLookup e host = some found ∧ route.pfx.bits ≤ found.pfx.bits := by
  rw [wbLookup, if_neg (by simp [valid])]
  exact foldl_preferLonger.2 route mem covering

/-- When an event takes the last usable route of a prefix, then for three and a
half update intervals, whatever happens, the table has an entry for exactly this
prefix, and no lookup of a host in it returns a route of a shorter one. -/
theorem lost_prefix_suppressed (reachable : Reachable env e) {event : Event}
    (reached : Reaches e.routes p) (lost : ¬ Reaches (step env e event).2.routes p)
    {events : List Event} (running : (run env (step env e event).2 events).stopped = false)
    (early : (run env (step env e event).2 events).now.toNat <
      (step env e event).2.now.toNat + e.config.updateMs.toNat * 7 / 2) :
    (∃ route ∈ (run env (step env e event).2 events).routes, route.pfx = p ∧
        (route.unreachable = false ∨ route = suppressedRoute p)) ∧
      ∀ host : Prefix, host.valid = true → covers p host = true →
        ∃ found, wbLookup (run env (step env e event).2 events) host = some found ∧
          p.bits ≤ found.pfx.bits := by
  have sound := reachable.sound
  have first := step_loses sound reached lost (running_of_run running)
  have suppressing := run_suppressing (step_spec sound (eventOk_any env e event)).1 first running
  have entry : ∃ route ∈ (run env (step env e event).2 events).routes, route.pfx = p ∧
      (route.unreachable = false ∨ route = suppressedRoute p) := by
    rcases suppressing.covered.held early with ⟨route, member, samePfx, usable⟩ |
      ⟨drop, member, used, rfl, _⟩
    · exact ⟨route, member, samePfx, .inl usable⟩
    exact ⟨suppressedRoute drop.pfx, (suppressing.settled.drops drop member used).2, rfl,
      .inr rfl⟩
  refine ⟨entry, fun host valid covering => ?_⟩
  obtain ⟨route, member, rfl, _⟩ := entry
  exact wbLookup_longest valid member covering

def withdrawal : Event :=
  .receive 1 1 (packet [{ type := .update, pfx := block, metric := infinity, interval := 1600 }])

theorem lost_prefix_suppressed_withdrawal :
    wbLookup (step willing learned withdrawal).2 block = some (suppressedRoute block) ∧
      ∃ found, wbLookup (step willing learned withdrawal).2 block = some found ∧
        block.bits ≤ found.pfx.bits := by
  have reached : Reaches learned.routes block := by decide
  have lost : ¬ Reaches (step willing learned withdrawal).2.routes block := by decide
  have running : (run willing (step willing learned withdrawal).2 []).stopped = false := by decide
  have suppressed := lost_prefix_suppressed learned_reachable reached lost running (by decide)
  exact ⟨by decide, suppressed.2 block (by decide) (by decide)⟩

end WendyLite.Babel
