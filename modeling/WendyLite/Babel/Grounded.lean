import WendyLite.Babel.Settled

/-! # Routes are grounded in the candidates

Between events, every learned route of a running engine comes from a candidate
that the engine still holds, announced at a distance strictly better than the
source entry. Soundness is stated for any provenance, so it is enough to take
the candidates at the last selection as what has been heard.
-/

namespace WendyLite.Babel

open SlotTable

variable {env : Env} {provenance provenance' : Provenance} {e e' e'' : Engine}

/-! ## Changing what is known -/

lemma Improves.mono {known known' : UInt16 → Prop} (weaker : ∀ seqno, known seqno → known' seqno)
    (improves : Improves known a b) : Improves known' a b := by
  induction improves with
  | refl => exact Improves.refl _ _
  | tail _ step ih => exact ih.tail ⟨weaker _ step.1, step.2⟩

lemma Renewed.mono {known known' : Prefix → UInt64 → UInt16 → Prop}
    (weaker : ∀ p router seqno, known p router seqno → known' p router seqno)
    (renewed : Renewed known source source') :
    Renewed known' source source' :=
  { renewed with improves := renewed.improves.mono (weaker _ _) }

/-- Soundness under one provenance gives it under another that knows what the
engine holds. -/
lemma Sound.transfer (sound : Sound env provenance e)
    (known : ∀ p router seqno, provenance.known p router seqno → provenance'.known p router seqno)
    (own : ∀ seqno, provenance.own seqno → provenance'.own seqno)
    (candidates : ∀ candidate ∈ e.candidates, candidate.used = true →
      candidate.advertised ≠ infinity →
      provenance'.heard candidate.route.link candidate.route.pfx candidate.route.router
        candidate.distance) (routes : ∀ route ∈ e.routes, ∀ distance,
      provenance.heard route.link route.pfx route.router distance →
      provenance'.heard route.link route.pfx route.router distance) : Sound env provenance' e := by
  have records : ∀ p router seqno, provenance.records e.config.router p router seqno →
      provenance'.records e.config.router p router seqno := by
    intro p router seqno
    rw [Provenance.records, Provenance.records]
    split
    · exact own seqno
    exact known p router seqno
  refine { sound with
    seqno := own _ sound.seqno
    candidates := ⟨fun candidate mem used => ?_, sound.candidates.distinct,
      sound.candidates.length_le⟩
    sources := sound.sources.imp fun source _ ok => { ok with recorded := records _ _ _ ok.recorded }
    routes := ⟨fun route mem used => ?_, sound.routes.distinct, sound.routes.length_le⟩
    messages := ?_ }
  · exact { sound.candidates.each candidate mem used with
      heard := candidates candidate mem used }
  · have ok := sound.routes.each route mem used
    refine { ok with originated := fun isLocal => ?_, learned := fun reachable foreign => ?_ }
    · have origin := ok.originated isLocal
      exact ⟨origin.1, origin.2.1, own _ origin.2.2⟩
    obtain ⟨router, link, advertised, below, heard, better⟩ := ok.learned reachable foreign
    exact ⟨router, link, advertised, below, routes route mem _ heard, better⟩
  intro queued mem
  have ok := sound.messages queued mem
  refine { ok with backed := fun announces => ?_ }
  obtain ⟨route, source, basis, backed⟩ := ok.backed announces
  obtain ⟨now, inTable, renewed⟩ := backed.current
  refine ⟨route, source, basis, { backed with
    originated := fun isLocal => ?_
    recorded := records _ _ _ backed.recorded
    current := ⟨now, inTable, renewed.mono records⟩ }⟩
  exact ⟨(backed.originated isLocal).1, own _ (backed.originated isLocal).2⟩

/-! ## The candidates as provenance -/

structure Announces (candidate : Candidate) (link : UInt64) (p : Prefix) (router : UInt64)
    (distance : Distance) : Prop where
  used : candidate.used = true
  finite : candidate.advertised ≠ infinity
  link : candidate.route.link = link
  pfx : candidate.route.pfx = p
  router : candidate.route.router = router
  distance : candidate.distance = distance

def Provenance.ofCandidates (candidates : List Candidate) : Provenance where
  heard link p router distance :=
    ∃ candidate ∈ candidates, Announces candidate link p router distance
  known _ _ _ := True
  own _ := True
  known_of_heard _ := trivial

def Grounded (env : Env) (e : Engine) : Prop :=
  Sound env (Provenance.ofCandidates e.candidates) e

lemma Sound.clearRoutes_grounded (sound : Sound env provenance e) :
    Grounded env { e with routes := [] } :=
  (clearRoutes_keeps sound).sound.transfer (fun _ _ _ _ => trivial) (fun _ _ => trivial)
    (fun candidate mem used finite =>
      ⟨candidate, mem, used, finite, rfl, rfl, rfl, rfl⟩) (by simp)

lemma SameView.heard (view : SameView e e')
    (heard : (Provenance.ofCandidates e.candidates).heard link p router distance) :
    (Provenance.ofCandidates e'.candidates).heard link p router distance := by
  obtain ⟨candidate, mem, announces⟩ := heard
  obtain ⟨candidate', member', used, sameRoute, same⟩ := view.candidate mem announces.used
  refine ⟨candidate', member', used, same ▸ announces.finite, sameRoute ▸ announces.link,
    sameRoute ▸ announces.pfx, sameRoute ▸ announces.router, ?_⟩
  rw [Candidate.distance, sameRoute, same]
  exact announces.distance

lemma selectRoutes_grounded (sound : Sound env provenance e)
    (running : (selectRoutes env e).stopped = false) : Grounded env (selectRoutes env e) := by
  have candidates := (selectRoutes_sameInputs env e).candidates
  obtain ⟨_, start, table, tabled, ended, _, result⟩ := selectRoutes_running running
  have prepared : Sound env provenance start := by
    obtain ⟨_, _, _, _, rfl⟩ := tabled.others
    exact { sound with }
  have cleared := prepared.clearRoutes_grounded
  have same : start.candidates = e.candidates := by
    obtain ⟨_, _, _, _, rfl⟩ := tabled.others
    rfl
  have selected : Sound env (Provenance.ofCandidates e.candidates) table := by
    have kept : Keeps env _ _ (settle (selectTable env e.routes { start with routes := [] })) :=
      selectTable_keeps cleared sound.oldOk
    rw [show selectTable env e.routes { start with routes := [] } = .ok table from ended] at kept
    rw [← same]
    exact kept.sound
  rw [Grounded, candidates, result]
  exact (announceTable_keeps selected e.routes).sound

lemma SameView.grounded (view : SameView e e')
    (sound : Sound env (Provenance.ofCandidates e.candidates) e') : Grounded env e' :=
  sound.transfer (fun _ _ _ _ => trivial) (fun _ _ => trivial)
    (fun candidate mem used finite =>
      ⟨candidate, mem, used, finite, rfl, rfl, rfl, rfl⟩)
    fun _ _ _ heard => view.heard heard

lemma finish_grounded (sound : Sound env provenance e)
    (running : (finish env e).2.stopped = false) : Grounded env (finish env e).2 := by
  obtain ⟨selected, view⟩ := finish_running sound running
  exact view.grounded (finish_of_selected (selectRoutes_grounded sound selected)).1

lemma step_grounded (sound : Sound env Provenance.any e) (grounded : Grounded env e)
    (event : Event) (running : (step env e event).2.stopped = false) :
    Grounded env (step env e event).2 := by
  obtain ⟨quiet, sustains⟩ | ⟨_, _, _, _, accepted⟩ | halts := step_cases env e event
  · exact quiet.view.grounded (sustains _ grounded).1
  · obtain ⟨_, _, changed⟩ := accepted.changed sound (eventOk_any env e event)
    rw [accepted.state] at running ⊢
    exact finish_grounded changed.sound running
  rw [halts.stopped] at running
  cases running

lemma Start.grounded (start : Start env e) : Grounded env e := by
  have cleared := start.sound.clearRoutes_grounded
  rw [show ({ e with routes := [] } : Engine) = e by rw [← start.empty.routes]] at cleared
  exact cleared

lemma Reachable.grounded (reachable : Reachable env e) (running : e.stopped = false) :
    Grounded env e := by
  refine reachable.induct (fun e => e.stopped = false → Grounded env e)
    (fun _ start _ => start.grounded) ?_ running
  intro e event sound grounded running
  exact step_grounded sound (grounded (running_of_step running)) event running

end WendyLite.Babel
