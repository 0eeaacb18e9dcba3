import WendyLite.Babel.Reachable

/-! # Refused events

An event that is refused may have grown a table or failed to, and may have returned
the storage of messages that were all exported. Nothing else of the engine changes.
-/

namespace WendyLite.Babel

open SlotTable

variable {env : Env} {e e' e'' : Engine}

/-- The protocol state is the same: the used entries of the tables, the routes, the
messages still to be exported, and the scalars. -/
structure SameProtocol (e e' : Engine) : Prop where
  links : e'.links.filter LinkState.used = e.links.filter LinkState.used
  candidates : e'.candidates.filter Candidate.used = e.candidates.filter Candidate.used
  sources : e'.sources.filter Source.used = e.sources.filter Source.used
  locals : e'.locals.filter LocalPrefix.used = e.locals.filter LocalPrefix.used
  drops : e'.drops.filter Drop.used = e.drops.filter Drop.used
  requests : e'.requests.filter RequestState.used = e.requests.filter RequestState.used
  routes : e'.routes = e.routes
  undrained : e'.messages.drop e'.messageCursor = e.messages.drop e.messageCursor
  now : e'.now = e.now
  revision : e'.revision = e.revision
  pending : e'.pending = e.pending
  seqno : e'.seqno = e.seqno
  lastLink : e'.lastLink = e.lastLink
  trigger : e'.trigger = e.trigger ∧ e'.triggerAt = e.triggerAt ∧ e'.repeats = e.repeats
  rng : e'.rng = e.rng
  status : e'.ready = e.ready ∧ e'.stopped = e.stopped

lemma SameProtocol.refl (e : Engine) : SameProtocol e e :=
  ⟨rfl, rfl, rfl, rfl, rfl, rfl, rfl, rfl, rfl, rfl, rfl, rfl, rfl, ⟨rfl, rfl, rfl⟩, rfl, rfl, rfl⟩

lemma SameProtocol.asked (e : Engine) (heap : Heap) : SameProtocol e { e with heap := heap } :=
  { SameProtocol.refl e with }

lemma SameProtocol.trans (first : SameProtocol e e') (second : SameProtocol e' e'') :
    SameProtocol e e'' where
  links := second.links.trans first.links
  candidates := second.candidates.trans first.candidates
  sources := second.sources.trans first.sources
  locals := second.locals.trans first.locals
  drops := second.drops.trans first.drops
  requests := second.requests.trans first.requests
  routes := second.routes.trans first.routes
  undrained := second.undrained.trans first.undrained
  now := second.now.trans first.now
  revision := second.revision.trans first.revision
  pending := second.pending.trans first.pending
  seqno := second.seqno.trans first.seqno
  lastLink := second.lastLink.trans first.lastLink
  trigger := ⟨second.trigger.1.trans first.trigger.1, second.trigger.2.1.trans first.trigger.2.1,
    second.trigger.2.2.trans first.trigger.2.2⟩
  rng := second.rng.trans first.rng
  status := ⟨second.status.1.trans first.status.1, second.status.2.trans first.status.2⟩

/-- `WB_BUSY`, `WB_INVALID` or `WB_LIMIT`. -/
def Status.refuses (status : Status) : Prop :=
  status = .busy ∨ status = .invalid ∨ status = .limit

lemma not_refuses_finish (env : Env) (e : Engine) : ¬(finish env e).1.refuses := by
  rw [finish]
  dsimp only
  split
  · simp [Status.refuses]
  split <;> simp [Status.refuses]

variable {now : UInt64}

/-- An event that is refused after all its own checks is refused by `begin`. -/
lemma accept_refused (refused : (accept env e now change).1.refuses) :
    SameProtocol e (accept env e now change).2 := by
  rcases started : begin env e now with ⟨status, after⟩
  rw [accept, started] at refused ⊢
  by_cases ok : status = .ok
  · subst ok
    exact absurd refused (not_refuses_finish env (change after))
  obtain ⟨heap, rfl, _⟩ := begin_refused started ok
  cases status with
  | ok => exact absurd rfl ok
  | _ => exact SameProtocol.asked e heap

lemma wbSetCost_refused {link : UInt64} {cost : UInt16}
    (refused : (wbSetCost env e now link cost).1.refuses) :
    SameProtocol e (wbSetCost env e now link cost).2 := by
  rw [wbSetCost] at refused ⊢
  split
  · exact .refl e
  rename_i positive
  rw [if_neg positive] at refused
  exact accept_refused refused

lemma wbWithdraw_refused (refused : (wbWithdraw env e now p).1.refuses) :
    SameProtocol e (wbWithdraw env e now p).2 := by
  rw [wbWithdraw] at refused ⊢
  split
  · exact .refl e
  rename_i valid
  rw [if_neg valid] at refused
  exact accept_refused refused

lemma wbAddLink_refused (refused : (wbAddLink env e now config).1.refuses) :
    SameProtocol e (wbAddLink env e now config).2 := by
  rw [wbAddLink] at refused ⊢
  split
  · exact .refl e
  rename_i valid
  rw [if_neg valid] at refused
  rcases acquired : acquire env e.heap env.limits.links LinkState.used {} e.links with
    ⟨_ | ⟨slot, links⟩, heap⟩
  · exact .asked e heap
  rw [acquired] at refused
  have grown : SameProtocol e { e with heap := heap, links := links } :=
    { SameProtocol.refl e with links := (acquire_some rfl acquired).2.1 }
  exact grown.trans (accept_refused refused)

lemma originSlot_same (env : Env) (e : Engine) (p : Prefix) :
    SameProtocol e (originSlot env e p).2 := by
  rw [originSlot]
  split
  · exact .refl e
  split
  · exact .refl e
  rcases acquired : acquire env e.heap env.limits.routes LocalPrefix.used {} e.locals with
    ⟨_ | ⟨slot, locals⟩, heap⟩
  · exact .asked e heap
  exact { SameProtocol.refl e with locals := (acquire_some rfl acquired).2.1 }

lemma wbOriginate_refused {p : Prefix} {metric : UInt16}
    (refused : (wbOriginate env e now p metric).1.refuses) :
    SameProtocol e (wbOriginate env e now p metric).2 := by
  have searched := originSlot_same env e p
  rw [wbOriginate] at refused ⊢
  split
  · exact .refl e
  rename_i valid
  rw [if_neg valid] at refused
  rcases placed : originSlot env e p with ⟨_ | slot, prepared⟩
  · rw [placed] at searched
    exact searched
  rw [placed] at searched refused
  dsimp only at refused ⊢
  split
  · exact searched
  rename_i room
  rw [if_neg room] at refused
  exact searched.trans (accept_refused refused)

lemma wbRequestPrefix_refused (refused : (wbRequestPrefix env e p).1.refuses) :
    SameProtocol e (wbRequestPrefix env e p).2 := by
  -- Messages that were all exported leave nothing to export.
  have cleared : SameProtocol e
      (if e.messageCursor = e.messages.length then clearMessages e else e) := by
    split
    next exported =>
      refine { SameProtocol.refl e with undrained := ?_ }
      simp [clearMessages, exported]
    exact .refl e
  rw [wbRequestPrefix] at refused ⊢
  split
  · exact .refl e
  rename_i routable
  rw [if_neg routable] at refused
  split
  · exact .refl e
  rename_i running
  rw [if_neg running] at refused
  split
  · exact .refl e
  rename_i idle
  rw [if_neg idle] at refused
  dsimp only at refused ⊢
  generalize (if e.messageCursor = e.messages.length then clearMessages e else e) = drained
    at cleared refused ⊢
  split
  · exact cleared
  rename_i linked
  rw [if_neg linked] at refused
  split
  · exact cleared
  rename_i room
  rw [if_neg room] at refused
  split
  · exact cleared.trans (.asked drained _)
  next reserved => simp [reserved, Status.refuses] at refused

lemma wbCommit_refused (refused : (wbCommit e revision success).1.refuses) :
    SameProtocol e (wbCommit e revision success).2 := by
  rw [wbCommit] at refused ⊢
  split
  · exact .refl e
  rename_i running
  rw [if_neg running] at refused
  split
  · exact .refl e
  rename_i pending
  rw [if_neg pending] at refused
  split at refused <;> simp [Status.refuses] at refused

lemma wbNextPacket_refused (refuses : status.refuses)
    (refused : (wbNextPacket e capacity).1 = .status status) :
    SameProtocol e (wbNextPacket e capacity).2 := by
  rw [wbNextPacket] at refused ⊢
  split
  · exact .refl e
  rename_i running
  rw [if_neg running] at refused
  split
  · exact .refl e
  rename_i idle
  rw [if_neg idle] at refused
  split
  · exact .refl e
  rename_i first rest queued
  simp only [queued] at refused
  split
  · exact .refl e
  rename_i link found
  simp only [found] at refused
  dsimp only
  split
  · exact .refl e
  rename_i room
  rw [if_neg room] at refused
  rcases filled : fillPacket link.config.maxPacket.toNat first.link [] 0
    (first :: rest) with ⟨body, taken, _ | _⟩
  · simp [filled] at refused
  -- A message that cannot be encoded stops the engine instead.
  simp only [filled, Reply.status.injEq] at refused
  subst refused
  simp [Status.refuses] at refuses

/-- In every reachable state, whatever the allocator answers: an event that returns
`WB_BUSY`, `WB_INVALID` or `WB_LIMIT` leaves the protocol state as it was. -/
theorem refused_event_changes_nothing (reachable : Reachable env e) (event : Event)
    (refused : ∃ status, (step env e event).1 = .status status ∧ status.refuses) :
    Reachable env (step env e event).2 ∧ SameProtocol e (step env e event).2 := by
  refine ⟨reachable.step event, ?_⟩
  obtain ⟨status, answered, refuses⟩ := refused
  cases event with
  | nextPacket capacity => exact wbNextPacket_refused refuses answered
  | _ =>
    -- The other events answer the status of their call.
    obtain rfl := Reply.status.inj answered
    first
      | exact accept_refused refuses
      | exact wbSetCost_refused refuses
      | exact wbWithdraw_refused refuses
      | exact wbAddLink_refused refuses
      | exact wbOriginate_refused refuses
      | exact wbRequestPrefix_refused refuses
      | exact wbCommit_refused refuses

/-- A tick while the first packets have not been exported. -/
theorem refused_event_changes_nothing_undrained :
    (step willing (run willing (fresh 1) [.addLink 0 (wire 1)]) (.tick 0)).1 = .status .busy ∧
      SameProtocol (run willing (fresh 1) [.addLink 0 (wire 1)])
        (step willing (run willing (fresh 1) [.addLink 0 (wire 1)]) (.tick 0)).2 := by
  have busy : (step willing (run willing (fresh 1) [.addLink 0 (wire 1)]) (.tick 0)).1 =
      .status .busy := by
    decide +kernel
  exact ⟨busy, (refused_event_changes_nothing (Reachable.of_fresh (by decide) _) (.tick 0)
    ⟨.busy, busy, .inl rfl⟩).2⟩

end WendyLite.Babel
