import WendyLite.Babel.SelectSound

/-! # Received messages keep an engine sound

Each received message, whatever it says, leaves the engine sound. A finite
Update is the only way a new announcement enters the candidate table, and a
request for an own prefix the only way the sequence number changes.
-/

namespace WendyLite.Babel

open SlotTable

variable {env : Env} {provenance : Provenance} {e e' : Engine}

/-! ## Updates -/

lemma lastSlot_some (found : lastSlot test table = some index) :
    ∃ slot, table[index]? = some slot ∧ test slot = true := by
  induction table generalizing index with
  | nil => cases found
  | cons head tail ih =>
    rw [lastSlot] at found
    split at found
    next later foundLater =>
      cases found
      simpa using ih foundLater
    split at found
    next accepted =>
      cases found
      exact ⟨head, rfl, accepted⟩
    cases found

lemma lastSlot_none (absent : lastSlot test table = none) : ∀ slot ∈ table, test slot = false := by
  induction table with
  | nil => simp
  | cons head tail ih =>
    rw [lastSlot] at absent
    split at absent
    · cases absent
    rename_i none
    split at absent
    · cases absent
    rename_i rejected
    simp only [List.mem_cons, forall_eq_or_imp]
    exact ⟨by simpa using rejected, ih none⟩

lemma retract_ok (ok : CandidateOk provenance router candidate) :
    CandidateOk provenance router (retract candidate) :=
  { ok with heard := fun finite => absurd rfl finite }

/-- What an accepted finite Update satisfies. -/
lemma refusesUpdate_spec (env : Env) (e : Engine) (link : Link) (m : Message) :
    ∃ asked, (refusesUpdate env e link m).2 = { e with consultations := asked } ∧
      ((refusesUpdate env e link m).1 = false →
        m.pfx.routable = true ∧ m.router ≠ e.config.router) := by
  rw [refusesUpdate]
  split
  · exact ⟨e.consultations, rfl, by simp⟩
  rename_i routable
  rcases allowed_eq env e
    { route := { pfx := m.pfx, router := m.router, seqno := m.seqno } } with
    ⟨permitted, asked, equation⟩
  rw [equation]
  refine ⟨asked, rfl, ?_⟩
  simp only [Bool.or_eq_false_iff, beq_eq_false_iff_ne]
  exact fun accepted => ⟨by simpa using routable, accepted.1.1.2⟩

variable {link : Link} {m : Message}

lemma requestFeasible_keeps (sound : Sound env provenance e)
    (nonzero : link.id ≠ 0) (valid : m.pfx.valid = true) (routerOk : RouterOk m.router)
    (candidate : Candidate) : Keeps env provenance e (requestFeasible env e link m candidate) := by
  have asks : ∀ {e' : Engine}, Sound env provenance e' → ∀ seqno,
      Keeps env provenance e' (request env e' m.pfx m.router seqno [link.id] 0 64) :=
    fun sound' seqno => request_keeps sound' valid routerOk (by decide)
      (by simpa using nonzero) 0
  rw [requestFeasible]
  split
  · exact Keeps.refl sound
  split
  · exact Keeps.refl sound
  simp only
  split
  · exact asks sound _
  split
  · exact asks sound _
  have after := metric_keeps sound candidate
  split
  · exact after.trans (asks after.sound _)
  exact after

lemma requestFeasible_outputOnly (env : Env) (e : Engine) (link : Link) (m : Message)
    (candidate : Candidate) : OutputOnly e (requestFeasible env e link m candidate) := by
  rw [requestFeasible]
  split
  · exact OutputOnly.refl e
  split
  · exact OutputOnly.refl e
  simp only
  split
  · exact request_outputOnly ..
  split
  · exact request_outputOnly ..
  have after := metric_outputOnly env e candidate
  split
  · exact after.trans (request_outputOnly ..)
  exact after

lemma storeUpdate_outputOnly (env : Env) (e : Engine) (link : Link) (m : Message) (slot : Nat) :
    OutputOnly { e with candidates := e.candidates.set slot (updatedCandidate e link m) }
      (storeUpdate env e link m slot) := by
  have triggered : ∀ (changed : Prop) [Decidable changed],
      OutputOnly e (if changed then trigger e true else e) := by
    intro changed _
    split
    · exact trigger_outputOnly e true
    exact OutputOnly.refl e
  rw [storeUpdate]
  have same := triggered ((e.candidates.getD slot {}).route.router ≠ 0 ∧
    (e.candidates.getD slot {}).route.router ≠ m.router)
  generalize (if (e.candidates.getD slot {}).route.router ≠ 0 ∧
    (e.candidates.getD slot {}).route.router ≠ m.router then trigger e true else e) = e1
    at same ⊢
  have candidate : updatedCandidate e1 link m = updatedCandidate e link m := by
    rw [updatedCandidate, updatedCandidate, same.now]
  refine OutputOnly.trans ?_ (requestFeasible_outputOnly ..)
  rw [candidate]
  exact { same with candidates := by rw [same.candidates] }

lemma storeUpdate_keeps (sound : Sound env provenance e)
    (nonzero : link.id ≠ 0) (routable : m.pfx.routable = true) (routerOk : RouterOk m.router)
    (foreign : m.router ≠ e.config.router) (heard : provenance.heard link.id m.pfx m.router m.distance)
    {slot : Nat} {old : Candidate} (located : e.candidates[slot]? = some old)
    (place : (m.pfx, link.id) ∉ keys Candidate.used
        (fun candidate => (candidate.route.pfx, candidate.route.link)) e.candidates ∨
      (old.used = true ∧ old.route.pfx = m.pfx ∧ old.route.link = link.id)) :
    Keeps env provenance e (storeUpdate env e link m slot) := by
  have triggered : ∀ (changed : Prop) [Decidable changed],
      Keeps env provenance e (if changed then trigger e true else e) ∧
        OutputOnly e (if changed then trigger e true else e) := by
    intro changed _
    split
    · exact ⟨trigger_keeps sound true, trigger_outputOnly e true⟩
    exact ⟨Keeps.refl sound, OutputOnly.refl e⟩
  rw [storeUpdate]
  rcases triggered ((e.candidates.getD slot {}).route.router ≠ 0 ∧
    (e.candidates.getD slot {}).route.router ≠ m.router) with ⟨kept, same⟩
  generalize (if (e.candidates.getD slot {}).route.router ≠ 0 ∧
    (e.candidates.getD slot {}).route.router ≠ m.router then trigger e true else e) = e1
    at kept same ⊢
  rw [← same.candidates] at located place
  have stored : Keeps env provenance e1
      { e1 with candidates := e1.candidates.set slot (updatedCandidate e1 link m) } := by
    refine ⟨{ kept.sound with candidates := ?_ }, .of_same rfl⟩
    refine kept.sound.candidates.set located (fun _ => ?_) fun _ => ?_
    · exact ⟨routable, routerOk, same.config.symm ▸ foreign, nonzero, ⟨rfl, rfl⟩, fun _ => heard⟩
    obtain fresh | ⟨used, samePfx, sameLink⟩ := place
    · exact .inl fresh
    exact .inr ⟨used, by rw [samePfx, sameLink]; rfl⟩
  exact (kept.trans stored).trans
    (requestFeasible_keeps stored.sound nonzero (Prefix.valid_of_routable routable) routerOk _)

lemma insertUpdate_keeps (sound : Sound env provenance e)
    (nonzero : link.id ≠ 0) (routable : m.pfx.routable = true) (routerOk : RouterOk m.router)
    (foreign : m.router ≠ e.config.router)
    (heard : provenance.heard link.id m.pfx m.router m.distance)
    (fresh : (m.pfx, link.id) ∉ keys Candidate.used
      (fun candidate => (candidate.route.pfx, candidate.route.link)) e.candidates) :
    Keeps env provenance e (insertUpdate env e link m) := by
  have asked := requests_le_acquire env e.heap env.limits.candidates Candidate.used {}
    e.candidates
  rw [insertUpdate]
  split
  · exact rejected_keeps sound
  split
  next heap refused =>
    rw [refused] at asked
    exact ⟨{ sound with }, .of_sources_eq rfl rfl rfl asked rfl⟩
  rename_i slot candidates heap acquired
  rw [acquired] at asked
  obtain ⟨⟨old, located, free⟩, same, short⟩ := acquire_some rfl acquired
  have grown := sound.candidates.of_filter_eq same (short sound.candidates.length_le)
  have cleared : Keeps env provenance e
      { e with heap := heap, candidates := candidates.set slot {} } :=
    ⟨{ sound with candidates := grown.retire slot rfl }, .of_sources_eq rfl rfl rfl asked rfl⟩
  refine cleared.trans (storeUpdate_keeps cleared.sound nonzero routable routerOk foreign
    heard (located_set located {}) (.inl ?_))
  intro present
  obtain ⟨candidate, mem, used, key⟩ := mem_keys.mp present
  obtain before | rfl := List.mem_or_eq_of_mem_set mem
  · exact fresh (mem_keys.mpr
      ⟨candidate, (mem_live_of_filter_eq same used).mp before, used, key⟩)
  cases used

lemma update_keeps (sound : Sound env provenance e)
    (type : m.type = .update) (received : Received m) (nonzero : link.id ≠ 0)
    (heard : m.announces → provenance.heard link.id m.pfx m.router m.distance) :
    Keeps env provenance e (update env e link m) := by
  rw [update]
  split
  · refine ⟨{ sound with candidates := ?_ },
      .of_same rfl⟩
    apply sound.candidates.map
    intro candidate used
    split at used
    next matched =>
      rw [if_pos matched]
      exact ⟨used, rfl, retract_ok⟩
    rename_i other
    rw [if_neg other]
    exact ⟨used, rfl, id⟩
  simp only
  split
  · split
    · exact Keeps.refl sound
    exact ⟨{ sound with
        candidates := sound.candidates.modify _ retract fun _ used =>
          ⟨used, rfl, retract_ok⟩ },
      .of_same rfl⟩
  rename_i finite
  have announces : m.announces := ⟨type, finite⟩
  have routerOk := received.router (.inl announces)
  obtain ⟨asked, after, accepted⟩ := refusesUpdate_spec env e link m
  have counted : Keeps env provenance e { e with consultations := asked } :=
    ⟨{ sound with }, .of_same rfl⟩
  generalize refusesUpdate env e link m = outcome at after accepted ⊢
  obtain ⟨refused, next⟩ := outcome
  simp only at after accepted
  subst after
  cases refused with
  | true => exact counted.trans (rejected_keeps counted.sound)
  | false =>
    obtain ⟨routable, foreign⟩ := accepted rfl
    simp only
    split
    · exact counted.trans (rejected_keeps counted.sound)
    split
    next slot known =>
      obtain ⟨old, located, matched⟩ := lastSlot_some known
      simp only [Bool.and_eq_true, beq_iff_eq] at matched
      exact counted.trans (storeUpdate_keeps counted.sound nonzero routable routerOk
        foreign (heard announces) located
        (.inr ⟨matched.1.1, matched.2, matched.1.2⟩))
    rename_i unknown
    refine counted.trans (insertUpdate_keeps counted.sound nonzero routable routerOk
      foreign (heard announces) fun present => ?_)
    obtain ⟨candidate, mem, used, key⟩ := mem_keys.mp present
    have rejected := lastSlot_none unknown candidate mem
    simp only [Prod.mk.injEq] at key
    simp [used, key.1, key.2] at rejected

/-! ## Seqno requests -/

def Asked (e e' : Engine) : Prop := ∃ asked, e' = { e with consultations := asked }

lemma Asked.refl (e : Engine) : Asked e e := ⟨e.consultations, rfl⟩

lemma Asked.trans (first : Asked e e') (second : Asked e' e'') : Asked e e'' := by
  obtain ⟨_, rfl⟩ := first
  obtain ⟨asked, rfl⟩ := second
  exact ⟨asked, rfl⟩

lemma Asked.keeps (asked : Asked e e') (sound : Sound env provenance e) :
    Keeps env provenance e e' := by
  obtain ⟨_, rfl⟩ := asked
  exact ⟨{ sound with }, .of_same rfl⟩

lemma Asked.outputOnly (asked : Asked e e') : OutputOnly e e' := by
  obtain ⟨_, rfl⟩ := asked
  constructor <;> rfl

lemma metric_asked (env : Env) (e : Engine) (candidate : Candidate) :
    Asked e (metric env e candidate).2 := by
  obtain ⟨_, asked, equation⟩ := metric_eq env e candidate
  exact ⟨asked, by rw [equation]⟩

lemma betterRelay_spec (env : Env) (fromLink : UInt64) (p : Prefix) (e : Engine)
    (best : Option Candidate) (candidate : Candidate) :
    Asked e (betterRelay env fromLink p (e, best) candidate).1 ∧
      ((betterRelay env fromLink p (e, best) candidate).2 = best ∨
        ((betterRelay env fromLink p (e, best) candidate).2 = some candidate ∧
          candidate.used = true)) := by
  have first := metric_asked env e candidate
  have asks : ∀ {e' : Engine} (other : Candidate), Asked e e' →
      Asked e (metric env e' other).2 :=
    fun other asked => asked.trans (metric_asked env _ other)
  simp only [betterRelay]
  split
  · exact ⟨Asked.refl e, .inl rfl⟩
  rename_i considered
  have used : candidate.used = true := by
    simp only [Bool.or_eq_true, Bool.not_eq_true', not_or, Bool.not_eq_false] at considered
    exact considered.1.1
  split
  · exact ⟨first, .inl rfl⟩
  split
  · exact ⟨first, .inr ⟨rfl, used⟩⟩
  split
  · exact ⟨first, .inr ⟨rfl, used⟩⟩
  split
  · split
    · exact ⟨asks _ (asks _ first), .inr ⟨rfl, used⟩⟩
    split
    · exact ⟨asks _ (asks _ (asks _ (asks _ first))), .inr ⟨rfl, used⟩⟩
    exact ⟨asks _ (asks _ (asks _ (asks _ first))), .inl rfl⟩
  exact ⟨first, .inl rfl⟩

/-- The search for a relay only asks the callback, and returns a candidate. -/
lemma relay_spec (env : Env) (fromLink : UInt64) (p : Prefix) (candidates : List Candidate)
    (e : Engine) (best : Option Candidate) :
    Asked e (candidates.foldl (betterRelay env fromLink p) (e, best)).1 ∧
      ((candidates.foldl (betterRelay env fromLink p) (e, best)).2 = best ∨
        ∃ candidate ∈ candidates, candidate.used = true ∧
          (candidates.foldl (betterRelay env fromLink p) (e, best)).2 = some candidate) := by
  induction candidates generalizing e best with
  | nil => exact ⟨Asked.refl e, .inl rfl⟩
  | cons head tail ih =>
    have step := betterRelay_spec env fromLink p e best head
    rw [List.foldl_cons]
    generalize betterRelay env fromLink p (e, best) head = next at step ⊢
    obtain ⟨e1, best1⟩ := next
    have rest := ih e1 best1
    refine ⟨step.1.trans rest.1, ?_⟩
    obtain unchanged | ⟨candidate, mem, used, chosen⟩ := rest.2
    · rw [unchanged]
      obtain same | ⟨chosen, used⟩ := step.2
      · exact .inl same
      exact .inr ⟨head, .head _, used, chosen⟩
    exact .inr ⟨candidate, List.mem_cons_of_mem _ mem, used, chosen⟩

lemma forwardSeqRequest_outputOnly (env : Env) (e : Engine) (fromLink : UInt64)
    (m : Message) : OutputOnly e (forwardSeqRequest env e fromLink m) := by
  have searched := (relay_spec env fromLink m.pfx e.candidates e none).1
  rw [forwardSeqRequest]
  split
  · exact OutputOnly.refl e
  split
  · exact OutputOnly.refl e
  split
  next next outcome =>
    rw [outcome] at searched
    exact searched.outputOnly
  rename_i next best outcome
  rw [outcome] at searched
  exact searched.outputOnly.trans (request_outputOnly ..)

section

variable (sound : Sound env provenance e)
include sound

lemma forwardSeqRequest_keeps
    (valid : m.pfx.valid = true) (routerOk : RouterOk m.router) (fromLink : UInt64) :
    Keeps env provenance e (forwardSeqRequest env e fromLink m) := by
  have searched := relay_spec env fromLink m.pfx e.candidates e none
  rw [forwardSeqRequest]
  split
  · exact Keeps.refl sound
  rename_i forwarded
  split
  · exact Keeps.refl sound
  split
  next next outcome =>
    rw [outcome] at searched
    exact searched.1.keeps sound
  rename_i next best outcome
  rw [outcome] at searched
  have kept := searched.1.keeps sound
  have alive : m.hops - 1 ≠ 0 := by
    simp only [not_or, UInt8.not_lt] at forwarded
    grind
  refine kept.trans (request_keeps kept.sound valid routerOk alive ?_ fromLink)
  obtain none | ⟨candidate, mem, used, chosen⟩ := searched.2
  · cases none
  cases chosen
  simpa using (sound.candidates.each best mem used).link

lemma seqRequest_keeps (valid : m.pfx.valid = true) (routerOk : RouterOk m.router)
    (nonzero : fromLink ≠ 0) (own : provenance.own (seqRequest env e fromLink m).seqno) :
    Keeps env provenance e (seqRequest env e fromLink m) := by
  rw [seqRequest] at own ⊢
  split
  · exact forwardSeqRequest_keeps sound valid routerOk fromLink
  rename_i route found
  rw [found] at own
  simp only at own
  split
  · exact forwardSeqRequest_keeps sound valid routerOk fromLink
  rename_i reachable
  rw [if_neg reachable] at own
  split
  · exact advertise_keeps sound nonzero valid true
  rename_i unsatisfied
  rw [if_neg unsatisfied] at own
  split
  next isLocal =>
    rw [if_pos isLocal, (advertise_outputOnly ..).seqno, (selectRoutes_sameInputs ..).seqno] at own
    have bumped : Keeps env provenance e { e with seqno := e.seqno + 1 } :=
      ⟨{ sound with seqno := own }, .of_same rfl⟩
    have selected := bumped.trans (selectRoutes_keeps bumped.sound)
    exact selected.trans (advertise_keeps selected.sound nonzero valid true)
  exact forwardSeqRequest_keeps sound valid routerOk fromLink

/-! ## All messages -/

lemma Sound.links_keeps {links : List LinkState}
    (proper : Proper LinkState.used (·.config.id) env.limits.links (LinkOk e.lastLink) links)
    (free : ∀ link ∈ links, link.used = false → link.config.maxPacket = 0)
    (ids : ∀ link ∈ e.links, link.config.id ≠ 0 →
      ∃ link' ∈ links, link'.config.id = link.config.id) :
    Keeps env provenance e { e with links := links } := by
  refine ⟨{ sound with links := proper, freeLinks := free, messages := ?_ }, .of_same rfl⟩
  intro queued mem
  exact (sound.messages queued mem).mono ids (SourcesEvolve.refl _ _)

lemma setLink_keeps {slot : Nat} {old link : LinkState}
    (located : e.links[slot]? = some old) (config : link.config = old.config) :
    Keeps env provenance e { e with links := e.links.set slot link } := by
  have oldMember := List.mem_of_getElem? located
  have sameUse : link.used = old.used := by rw [LinkState.used, LinkState.used, config]
  apply sound.links_keeps
  · refine sound.links.set_same located fun used => ?_
    rw [sameUse] at used
    refine ⟨used, by rw [config], fun ok => ?_⟩
    exact ⟨config ▸ ok.known, config ▸ ok.cost, config ▸ ok.packetMin, config ▸ ok.packetMax,
      config ▸ ok.hello⟩
  · intro other mem free
    obtain before | rfl := List.mem_or_eq_of_mem_set mem
    · exact sound.freeLinks other before free
    rw [config]
    exact sound.freeLinks old oldMember (sameUse ▸ free)
  intro other mem _
  by_cases overwritten : other = old
  · exact ⟨link, mem_set_self located, by rw [config, overwritten]⟩
  exact ⟨other, mem_set_of_ne located mem overwritten, rfl⟩

lemma modifyLink_keeps (id : UInt64) (config : ∀ link, (change link).config = link.config) :
    Keeps env provenance e (modifyLink e id change) := by
  rw [modifyLink]
  split
  · exact Keeps.refl sound
  rename_i slot found
  obtain unchanged | ⟨old, located, written⟩ := modify_cases e.links slot change
  · rw [unchanged]
    exact Keeps.refl sound
  rw [written]
  exact setLink_keeps sound located (config old)

end

lemma receiveIhu_config (now : UInt64) (m : Message) (link : LinkState) :
    (receiveIhu now m link).config = link.config := by
  rw [receiveIhu]
  split <;> rfl

/-- What a received message may say to an engine: it is well formed, and a
finite Update is an announcement that the link may have carried. -/
structure Credible (provenance : Provenance) (id : UInt64) (m : Message) : Prop where
  received : Received m
  heard : m.announces → provenance.heard id m.pfx m.router m.distance

lemma receiveRequest_keeps (sound : Sound env provenance e) {id : UInt64} (nonzero : id ≠ 0)
    (asks : m.type = .request) (received : Received m) :
    Keeps env provenance e (receiveRequest env id e m) := by
  rw [receiveRequest]
  split
  · split
    · exact Keeps.refl sound
    split
    · have dumped := dump_keeps sound nonzero true
      exact dumped.trans (modifyLink_keeps dumped.sound id fun _ => rfl)
    exact Keeps.refl sound
  rename_i single
  exact advertise_keeps sound nonzero
    (received.valid (.inr (.inl asks)) (by simpa using single)) true

lemma receiveMessage_keeps (sound : Sound env provenance e) {id : UInt64} (nonzero : id ≠ 0)
    (credible : Credible provenance id m) (own : provenance.own (receiveMessage env id e m).seqno) :
    Keeps env provenance e (receiveMessage env id e m) := by
  have selected := selectRoutes_keeps sound
  rw [receiveMessage] at own ⊢
  split
  · exact Keeps.refl sound
  rename_i running
  rw [if_neg running] at own
  split
  · exact Keeps.refl sound
  rename_i handled
  rw [if_neg handled] at own
  cases type : m.type with
  | hello =>
    refine modifyLink_keeps sound id fun link => ?_
    split <;> rfl
  | ihu => exact modifyLink_keeps sound id (receiveIhu_config e.now m)
  | ackRequest =>
    exact queue_plain_keeps sound nonzero (Sendable.ack m.opaqueValue)
      (by simp [Message.announces])
  | update =>
    simp only
    split
    · exact Keeps.refl sound
    split
    · exact Keeps.refl sound
    rename_i link found
    have id' := (linkFor_some found).2
    exact update_keeps sound type credible.received (id'.symm ▸ nonzero)
      (id'.symm ▸ credible.heard)
  | request =>
    exact selected.trans
      (receiveRequest_keeps selected.sound nonzero type credible.received)
  | seqRequest =>
    rw [type] at own
    exact selected.trans (seqRequest_keeps selected.sound
      (credible.received.valid (.inr (.inr type)) (credible.received.single type))
      (credible.received.router (.inr type)) nonzero own)
  | ack | router | nextHop => exact Keeps.refl sound

end WendyLite.Babel
