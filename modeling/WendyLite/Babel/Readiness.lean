import WendyLite.Babel.Optimality

/-! # The readiness query

`wb_has_usable_origin` tells whether an event at a future time would find a usable
candidate, without running the expiry that such an event begins with. It agrees with
what selection then sees.
-/

namespace WendyLite.Babel

open SlotTable

variable {env : Env} {e begun : Engine} {now router : UInt64} {seqno : UInt16} {p : Prefix}
  {policy : UInt64 → Prefix → UInt16 → Bool}

def feasibleAt (source : Option Source) (now : UInt64) (seqno : UInt16) (candidate : Candidate) :
    Bool :=
  match source with
  | none => true
  | some source =>
    source.expires ≤ now || newer seqno source.seqno ||
      (seqno == source.seqno && candidate.advertised < source.metric)

/-- The loop of `wb_has_usable_origin`. The callback is asked for matching candidates
only, and before the cost of their link is looked at. -/
def usableAmong (env : Env) (now : UInt64) (p : Prefix) (router : UInt64) (seqno : UInt16)
    (source : Option Source) : List Candidate → Engine → Bool × Engine
  | [], e => (false, e)
  | candidate :: rest, e =>
    if !candidate.used ∨ candidate.expires ≤ now ∨ candidate.advertised = infinity ∨
        candidate.route.router ≠ router ∨ candidate.route.seqno ≠ seqno ∨
        candidate.route.pfx ≠ p then
      usableAmong env now p router seqno source rest e
    else
      let (permitted, e) := allowed env e candidate
      if !permitted ∨
          addCost candidate.advertised (costAt (linkFor e candidate.route.link) now) = infinity then
        usableAmong env now p router seqno source rest e
      else if feasibleAt source now seqno candidate then (true, e)
      else usableAmong env now p router seqno source rest e

def wbHasUsableOrigin (env : Env) (e : Engine) (now : UInt64) (p : Prefix) (router : UInt64)
    (seqno : UInt16) : Bool × Engine :=
  if e.stopped ∨ e.pending ≠ 0 ∨ !e.ready ∨ now < e.now ∨ !p.routable ∨ router = 0 ∨
      router = 0xffffffffffffffff ∨ (localFor e p).isSome then (false, e)
  else usableAmong env now p router seqno (sourceFor e p router) e.candidates e

/-! ## What the loop looks for -/

structure Usable (policy : UInt64 → Prefix → UInt16 → Bool) (e : Engine) (now : UInt64)
    (p : Prefix) (router : UInt64) (seqno : UInt16) (source : Option Source)
    (candidate : Candidate) : Prop where
  used : candidate.used = true
  alive : now < candidate.expires
  advertised : candidate.advertised ≠ infinity
  sameRouter : candidate.route.router = router
  sameSeqno : candidate.route.seqno = seqno
  pfx : candidate.route.pfx = p
  permitted : permitted policy e candidate = true
  finite : addCost candidate.advertised (costAt (linkFor e candidate.route.link) now) ≠ infinity
  feasible : feasibleAt source now seqno candidate = true

variable {candidate : Candidate}

lemma Usable.asked_iff (asked : Nat) :
    Usable policy { e with consultations := asked } now p router seqno source candidate ↔
      Usable policy e now p router seqno source candidate :=
  ⟨fun usable => { usable with }, fun usable => { usable with }⟩

lemma allowed_steady (steady : Steady env first policy) (later : first ≤ e.consultations)
    (candidate : Candidate) :
    (allowed env e candidate).1 = permitted policy e candidate ∧ ∃ asked, first ≤ asked ∧
        (allowed env e candidate).2 = { e with consultations := asked } := by
  cases asks : e.config.allow with
  | false => simpa [allowed, permitted, asks] using ⟨e.consultations, later, rfl⟩
  | true =>
    simp only [allowed, permitted, asks, steady e.consultations later, Bool.not_true,
      Bool.false_or, Bool.false_eq_true, if_false, true_and]
    exact ⟨e.consultations + 1, later.trans (Nat.le_succ _), rfl⟩

/-- The loop answers whether there is a usable candidate among those it visits. -/
lemma usableAmong_iff (steady : Steady env first policy) (source : Option Source)
    (candidates : List Candidate) : ∀ e : Engine, first ≤ e.consultations →
      ((usableAmong env now p router seqno source candidates e).1 = true ↔
        ∃ candidate ∈ candidates, Usable policy e now p router seqno source candidate) := by
  induction candidates with
  | nil => simp [usableAmong]
  | cons candidate rest ih =>
    intro e later
    have skip : ∀ e : Engine, ¬Usable policy e now p router seqno source candidate →
        ((∃ other ∈ rest, Usable policy e now p router seqno source other) ↔
          ∃ other ∈ candidate :: rest, Usable policy e now p router seqno source other) := by
      intro e useless
      simp [useless]
    rw [usableAmong]
    split
    next other =>
      rw [ih e later]
      refine skip e fun usable => ?_
      obtain unused | expired | infinite | differs | differs | differs := other
      · simp [usable.used] at unused
      · exact absurd usable.alive (UInt64.not_lt.mpr expired)
      · exact usable.advertised infinite
      · exact differs usable.sameRouter
      · exact differs usable.sameSeqno
      exact differs usable.pfx
    rename_i matching
    simp only [not_or, not_not, Bool.not_eq_true', UInt64.not_le, Bool.not_eq_false] at matching
    obtain ⟨used, alive, advertised, sameRouter, sameSeqno, samePfx⟩ := matching
    obtain ⟨answer, asked, later', asks⟩ := allowed_steady steady later candidate
    dsimp only
    rw [answer, asks]
    split
    next refused =>
      refine (ih { e with consultations := asked } later').trans ?_
      simp only [Usable.asked_iff]
      refine skip e fun usable => ?_
      obtain forbidden | infinite := refused
      · simp [usable.permitted] at forbidden
      exact usable.finite infinite
    rename_i granted
    simp only [not_or, Bool.not_eq_true', Bool.not_eq_false] at granted
    split
    next feasible =>
      simp only [true_iff]
      exact ⟨candidate, .head _, used, alive, advertised, sameRouter,
        sameSeqno, samePfx, granted.1, granted.2, feasible⟩
    rename_i infeasible
    refine (ih { e with consultations := asked } later').trans ?_
    simp only [Usable.asked_iff]
    exact skip e fun usable => infeasible usable.feasible

/-! ## What selection sees -/

lemma expireCandidate_usable (used : (expireCandidate now candidate).used = true)
    (finite : (expireCandidate now candidate).advertised ≠ infinity) :
    expireCandidate now candidate = candidate ∧ now < candidate.expires := by
  rw [expireCandidate] at used finite ⊢
  split at used
  next kept =>
    rw [if_pos kept]
    refine ⟨rfl, ?_⟩
    simpa [used] using kept
  rename_i expired
  rw [if_neg expired] at finite
  split at used
  · cases used
  rename_i announced
  rw [if_neg announced] at finite
  exact absurd rfl finite

lemma expireCandidate_of_lt (alive : now < candidate.expires) :
    expireCandidate now candidate = candidate := by
  rw [expireCandidate, if_pos]
  simp [alive]

/-- The source entry an event finds is the one the query finds, unless it expires. -/
lemma Begun.feasible_iff (started : Begun e begun now) (sound : Sound env Provenance.any e)
    (finite : candidate.advertised ≠ infinity) : feasible begun candidate =
      feasibleAt (sourceFor e candidate.route.pfx candidate.route.router) now
        candidate.route.seqno candidate := by
  have later := started.sound sound
  obtain ⟨heap, capacity, equation, _⟩ := started.result
  have sources : begun.sources = e.sources.map (expireSource now) := by rw [equation]; rfl
  have kept : ∀ source, sourceFor begun candidate.route.pfx candidate.route.router = some source →
      sourceFor e candidate.route.pfx candidate.route.router = some source ∧
        now < source.expires := by
    intro source found
    obtain ⟨mem, used, pfx, router⟩ := sourceFor_some found
    rw [sources] at mem
    obtain ⟨was, inSources, rfl⟩ := List.mem_map.mp mem
    obtain ⟨same, wasUsed, alive⟩ := expireSource_used used
    rw [same] at pfx router ⊢
    exact ⟨pfx ▸ router ▸ sound.sourceFor_eq inSources wasUsed, alive⟩
  rw [feasible, beq_false_of_ne finite, Bool.false_or, feasibleAt.eq_def]
  cases found : sourceFor e candidate.route.pfx candidate.route.router with
  | none =>
    cases after : sourceFor begun candidate.route.pfx candidate.route.router with
    | none => rfl
    | some source =>
      have before := (kept source after).1
      rw [found] at before
      cases before
  | some source =>
    by_cases alive : now < source.expires
    · obtain ⟨mem, used, pfx, router⟩ := sourceFor_some found
      have inBegun : source ∈ begun.sources := by
        rw [sources]
        exact List.mem_map.mpr ⟨source, mem, expireSource_of_lt alive⟩
      have after := later.sourceFor_eq inBegun used
      rw [pfx, router] at after
      simp [after, UInt64.not_le.mpr alive]
    cases after : sourceFor begun candidate.route.pfx candidate.route.router with
    | none => simp [UInt64.not_lt.mp alive]
    | some other =>
      have before := kept other after
      rw [found] at before
      obtain rfl := Option.some.inj before.1
      exact absurd before.2 alive

/-- In every reachable state that is ready, for every time `begin` accepts: the query
answers whether the event that begins then finds a used candidate of that origin with a
finite metric that is feasible, for a prefix that is not originated here; and if so, a
tick at that time that does not stop the engine installs a reachable route. -/
theorem usable_origin_agrees (reachable : Reachable env e) (ready : e.ready = true)
    (steady : Steady env e.consultations policy) (accepted : begin env e now = (.ok, begun))
    (p : Prefix) (router : UInt64) (seqno : UInt16) :
    ((wbHasUsableOrigin env e now p router seqno).1 = true ↔
      localFor begun p = none ∧ ∃ candidate ∈ begun.candidates, candidate.used = true ∧
        candidate.route.pfx = p ∧ candidate.route.router = router ∧
        candidate.route.seqno = seqno ∧ (metric env begun candidate).1 ≠ infinity ∧
        feasible begun candidate = true) ∧ ((wbHasUsableOrigin env e now p router seqno).1 = true →
        (wbTick env e now).2.stopped = false → Reaches (wbTick env e now).2.routes p) := by
  have sound := reachable.sound
  obtain ⟨started, idle⟩ := begin_ok accepted
  have begunSound := started.sound sound
  obtain ⟨heap, capacity, equation, _⟩ := started.result
  have localEq : localFor begun p = localFor e p := by rw [equation]; rfl
  have steady' : Steady env begun.consultations policy := by rw [equation]; exact steady
  have metricEq : ∀ candidate, (metric env begun candidate).1 =
      if permitted policy e candidate then
        addCost candidate.advertised (costAt (linkFor e candidate.route.link) now)
      else infinity := by
    intro candidate
    rw [metric_steady steady' le_rfl, offer_eq, equation]
    rfl
  have agrees : (wbHasUsableOrigin env e now p router seqno).1 = true ↔
      localFor begun p = none ∧ ∃ candidate ∈ begun.candidates, candidate.used = true ∧
        candidate.route.pfx = p ∧ candidate.route.router = router ∧
        candidate.route.seqno = seqno ∧ (metric env begun candidate).1 ≠ infinity ∧
        feasible begun candidate = true := by
    have candidates : begun.candidates = e.candidates.map (expireCandidate now) := by
      rw [equation]; rfl
    rw [wbHasUsableOrigin, localEq, candidates]
    constructor
    · intro found
      split at found
      · cases found
      rename_i open_
      simp only [not_or, Bool.not_eq_true, Option.isSome_eq_false_iff,
        Option.isNone_iff_eq_none] at open_
      rcases (usableAmong_iff steady _ _ e le_rfl).mp found with
        ⟨candidate, member, usable⟩
      refine ⟨open_.2.2.2.2.2.2.2, candidate, ?_, usable.used, usable.pfx, usable.sameRouter,
        usable.sameSeqno, ?_, ?_⟩
      · exact List.mem_map.mpr ⟨candidate, member, expireCandidate_of_lt usable.alive⟩
      · rw [metricEq, if_pos usable.permitted]
        exact usable.finite
      rw [started.feasible_iff sound usable.advertised, usable.pfx, usable.sameRouter, usable.sameSeqno]
      exact usable.feasible
    rintro ⟨foreign, candidate, member, used, pfx, sameRouter, sameSeqno, finite, feasible⟩
    rw [metricEq] at finite
    split at finite
    next permitted =>
      have announced : candidate.advertised ≠ infinity := by
        intro infinite
        rw [infinite, addCost_infinity] at finite
        exact finite rfl
      obtain ⟨was, inCandidates, rfl⟩ := List.mem_map.mp member
      obtain ⟨same, alive⟩ := expireCandidate_usable used announced
      rw [same] at used pfx sameRouter sameSeqno finite feasible permitted announced
      have ok := sound.candidates.each was inCandidates used
      rw [started.feasible_iff sound announced, pfx, sameRouter, sameSeqno] at feasible
      rw [if_neg]
      · exact (usableAmong_iff steady _ _ e le_rfl).mpr ⟨was, inCandidates, used, alive,
          announced, sameRouter, sameSeqno, pfx, permitted, finite, feasible⟩
      have routable := ok.routable
      have routerOk := ok.routerOk
      rw [pfx] at routable
      rw [sameRouter] at routerOk
      simp [started.running, idle, ready, UInt64.not_lt.mpr started.later, routable,
        routerOk.1, routerOk.2, foreign]
    exact absurd rfl finite
  refine ⟨agrees, fun usable running => ?_⟩
  obtain ⟨foreign, candidate, member, used, pfx, _, _, finite, feasible⟩ := agrees.mp usable
  have ticked : wbTick env e now = finish env begun := by
    rw [wbTick, accept, accepted]
    rfl
  rw [ticked] at running ⊢
  obtain ⟨selecting, view⟩ := finish_running begunSound running
  have chosen := selectRoutes_chosen begunSound steady' selecting
  rw [view.routes]
  refine (chosen.reaches p (by simp [foreign])).mp ⟨candidate, member, used, pfx, ?_, feasible, ?_⟩
  all_goals
    rw [metric_steady steady' le_rfl] at finite
    have offered := permitted_of_offer finite
  · exact offered.1
  rw [← offered.2]
  exact finite

/-- The engine that has learned the block from router 2. -/
theorem usable_origin_agrees_learned : (wbHasUsableOrigin willing learned 0 block 2 0).1 = true ∧
      ((wbTick willing learned 0).2.stopped = false →
        Reaches (wbTick willing learned 0).2.routes block) := by
  have usable : (wbHasUsableOrigin willing learned 0 block 2 0).1 = true := by decide +kernel
  have steady : Steady willing learned.consultations fun _ _ _ => true := fun _ _ => rfl
  have started : begin willing learned 0 = (.ok, (begin willing learned 0).2) :=
    Prod.ext (by decide +kernel) rfl
  exact ⟨usable, (usable_origin_agrees learned_reachable (by decide +kernel) steady started block 2
    0).2 usable⟩

end WendyLite.Babel
