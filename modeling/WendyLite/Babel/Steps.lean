import WendyLite.Babel.EventSound

/-! # The kinds of events

An event either passes `begin`, changes the engine and ends with `finish`, or it
is quiet: refused, or one of the calls that only commit, export or queue. Two
quiet calls may halt the engine instead: a failed commit and a failed export.
-/

namespace WendyLite.Babel

open SlotTable

variable {env : Env} {provenance : Provenance} {e e' e'' : Engine}

/-- The engine stays sound, and its source entries are kept until they expire. -/
def Sustains (env : Env) (e e' : Engine) : Prop :=
  ∀ provenance, Sound env provenance e → Sound env provenance e' ∧ Advances provenance e e'

lemma Sustains.refl (env : Env) (e : Engine) : Sustains env e e :=
  fun provenance sound => ⟨sound, Advances.refl provenance e⟩

lemma Sustains.trans (first : Sustains env e e') (second : Sustains env e' e'') :
    Sustains env e e'' := by
  intro provenance sound
  obtain ⟨sound', advances⟩ := first provenance sound
  obtain ⟨sound'', advances'⟩ := second provenance sound'
  exact ⟨sound'', advances.trans advances'⟩

/-! ## Quiet events -/

/-- A quiet event changes the output, the allocator's accounting, and perhaps the
number of empty link and local slots. -/
structure Quiet (e e' : Engine) : Prop where
  links : e'.links.filter LinkState.used = e.links.filter LinkState.used
  locals : e'.locals.filter LocalPrefix.used = e.locals.filter LocalPrefix.used
  stopped : e'.stopped = e.stopped
  others : ∃ messages messagesCapacity messageCursor counters heap pending ready, e' =
    { e with
      links := e'.links, locals := e'.locals, messages := messages
      messagesCapacity := messagesCapacity, messageCursor := messageCursor
      counters := counters, heap := heap, pending := pending, ready := ready }

lemma Quiet.refl (e : Engine) : Quiet e e := ⟨rfl, rfl, rfl, _, _, _, _, _, _, _, rfl⟩

lemma Quiet.trans (first : Quiet e e') (second : Quiet e' e'') : Quiet e e'' := by
  refine ⟨second.links.trans first.links, second.locals.trans first.locals,
    second.stopped.trans first.stopped, ?_⟩
  obtain ⟨_, _, _, _, _, _, _, before⟩ := first.others
  rcases second.others with
    ⟨messages, messagesCapacity, messageCursor, counters, heap, pending, ready, after⟩
  refine ⟨messages, messagesCapacity, messageCursor, counters, heap, pending, ready, ?_⟩
  rw [after, before]

lemma queue_quiet (env : Env) (e : Engine) (id : UInt64) (m : Message)
    (basis : Option (Route × Source)) : Quiet e (queue env e id m basis) := by
  rw [queue]
  split
  · exact Quiet.refl e
  split
  · exact ⟨rfl, rfl, rfl, _, _, _, _, _, _, _, rfl⟩
  split <;> exact ⟨rfl, rfl, rfl, _, _, _, _, _, _, _, rfl⟩

lemma wbRequestPrefix_quiet (env : Env) (e : Engine) (p : Prefix) :
    Quiet e (wbRequestPrefix env e p).2 := by
  rw [wbRequestPrefix]
  split
  · exact Quiet.refl e
  split
  · exact Quiet.refl e
  split
  · exact Quiet.refl e
  have cleared : Quiet e
      (if e.messageCursor = e.messages.length then clearMessages e else e) := by
    split
    · exact ⟨rfl, rfl, rfl, _, _, _, _, _, _, _, rfl⟩
    exact Quiet.refl e
  simp only
  generalize (if e.messageCursor = e.messages.length then clearMessages e else e) = e1
    at cleared ⊢
  split
  · exact cleared
  split
  · exact cleared
  split
  · exact cleared.trans ⟨rfl, rfl, rfl, _, _, _, _, _, _, _, rfl⟩
  rename_i capacity heap _
  have reserved : Quiet e1 { e1 with heap := heap, messagesCapacity := capacity } :=
    ⟨rfl, rfl, rfl, _, _, _, _, _, _, _, rfl⟩
  exact List.foldlRecOn _ _ (cleared.trans reserved) fun state quiet link _ =>
    quiet.trans (queue_quiet ..)

lemma wbCommit_quiet (e : Engine) (revision : UInt64) (success : Bool) :
    Quiet e (wbCommit e revision success).2 ∨
      ((wbCommit e revision success).2.stopped = true ∧ success = false) := by
  rw [wbCommit]
  split
  · exact .inl (Quiet.refl e)
  split
  · exact .inl (Quiet.refl e)
  split
  next failed => exact .inr ⟨rfl, by simpa using failed⟩
  exact .inl ⟨rfl, rfl, rfl, _, _, _, _, _, _, _, rfl⟩

lemma wbNextPacket_quiet (e : Engine) (capacity : Nat) :
    Quiet e (wbNextPacket e capacity).2 ∨ (wbNextPacket e capacity).2.stopped = true := by
  rw [wbNextPacket]
  split
  · exact .inl (Quiet.refl e)
  split
  · exact .inl (Quiet.refl e)
  split
  · exact .inl (Quiet.refl e)
  split
  · exact .inl (Quiet.refl e)
  simp only
  split
  · exact .inl (Quiet.refl e)
  split
  · exact .inr rfl
  refine .inl ?_
  split <;> exact ⟨rfl, rfl, rfl, _, _, _, _, _, _, _, rfl⟩

lemma begin_quiet (refused : begin env e now = (status, e')) (notOk : status ≠ .ok) :
    Quiet e e' ∧ Sustains env e e' := by
  obtain ⟨heap, rfl, asked⟩ := begin_refused refused notOk
  exact ⟨⟨rfl, rfl, rfl, _, _, _, _, _, _, _, rfl⟩, fun provenance sound =>
    ⟨{ sound with }, Advances.of_evolves rfl rfl asked (SourcesEvolve.refl _ _)⟩⟩

lemma originSlot_quiet (env : Env) (e : Engine) (p : Prefix) :
    Quiet e (originSlot env e p).2 ∧ Sustains env e (originSlot env e p).2 := by
  constructor
  · rw [originSlot]
    split
    · exact Quiet.refl e
    split
    · exact Quiet.refl e
    split
    · exact ⟨rfl, rfl, rfl, _, _, _, _, _, _, _, rfl⟩
    rename_i acquired
    exact ⟨rfl, (acquire_some rfl acquired).2.1, rfl, _, _, _, _, _, _, _, rfl⟩
  intro provenance sound
  obtain ⟨heap, locals, result, asked, same, short, _⟩ := originSlot_spec sound p
  rw [result]
  exact ⟨{ sound with locals := sound.locals.of_filter_eq same short },
    Advances.of_evolves rfl rfl asked (SourcesEvolve.refl _ _)⟩

lemma growLinks_quiet (acquired : acquire env e.heap env.limits.links LinkState.used {} e.links =
      (some (slot, links), heap)) : Quiet e { e with heap := heap, links := links } ∧
      Sustains env e { e with heap := heap, links := links } := by
  have asked := requests_le_acquire env e.heap env.limits.links LinkState.used {} e.links
  rw [acquired] at asked
  exact ⟨⟨(acquire_some rfl acquired).2.1, rfl, rfl, _, _, _, _, _, _, _, rfl⟩,
    fun provenance sound => ⟨growLinks_sound sound acquired,
      Advances.of_evolves rfl rfl asked (SourcesEvolve.refl _ _)⟩⟩

/-! ## Accepted events -/

/-- The change an event makes once it is accepted, the time it is offered at, and
the engine it is offered to, which has a slot for what the event will write. -/
inductive Change (env : Env) (e : Engine) : Event → UInt64 → Engine → (Engine → Engine) → Prop
  | tick (now : UInt64) : Change env e (.tick now) now e id
  | addLink (now : UInt64) (config : Link) (slot : Nat) (links : List LinkState) (heap : Heap)
      (accepted : linkRefused e config = false)
      (acquired : acquire env e.heap env.limits.links LinkState.used {} e.links =
        (some (slot, links), heap)) :
      Change env e (.addLink now config) now { e with heap := heap, links := links }
        (attachLink env slot config)
  | removeLink (now link : UInt64) : Change env e (.removeLink now link) now e (detachLink link)
  | setCost (now link : UInt64) (cost : UInt16) (positive : cost ≠ 0) :
      Change env e (.setCost now link cost) now e (changeCost link cost)
  | originate (now : UInt64) (p : Prefix) (metric : UInt16) (slot : Nat) (prepared : Engine)
      (routable : p.routable = true) (finite : metric ≠ infinity)
      (placed : originSlot env e p = (some slot, prepared)) :
      Change env e (.originate now p metric) now prepared (writeLocal slot p metric)
  | withdraw (now : UInt64) (p : Prefix) : Change env e (.withdraw now p) now e (clearLocal p)
  | receive (now link : UInt64) (data : List UInt8) :
      Change env e (.receive now link data) now e (receivePacket env link data)

structure Accepted (env : Env) (e : Engine) (event : Event) (now : UInt64)
    (prepared begun : Engine) (change : Engine → Engine) : Prop where
  kind : Change env e event now prepared change
  started : begin env prepared now = (.ok, begun)
  result : step env e event = (.status (finish env (change begun)).1, (finish env (change begun)).2)

structure Halts (env : Env) (e : Engine) (event : Event) : Prop where
  stopped : (step env e event).2.stopped = true
  sustains : Sustains env e (step env e event).2
  kind : (∃ revision, event = .commit revision false) ∨ ∃ capacity, event = .nextPacket capacity

/-- Every event is quiet, accepted or halts the engine. -/
def Steps (env : Env) (e : Engine) (event : Event) : Prop :=
  (Quiet e (step env e event).2 ∧ Sustains env e (step env e event).2) ∨
    (∃ now prepared begun change, Accepted env e event now prepared begun change) ∨
    Halts env e event

lemma Steps.of_accept (quiet : Quiet e prepared ∧ Sustains env e prepared)
    (changed : Change env e event now prepared change) (result : step env e event =
      (.status (accept env prepared now change).1, (accept env prepared now change).2)) :
    Steps env e event := by
  cases outcome : begin env prepared now with
  | mk status begun =>
    by_cases accepted : status = .ok
    · subst accepted
      refine .inr (.inl ⟨now, prepared, begun, change, changed, outcome, ?_⟩)
      rw [result, accept, outcome]
    refine .inl ?_
    have refused : accept env prepared now change = (status, begun) := by
      rw [accept, outcome]
      cases status <;> first | rfl | exact absurd rfl accepted
    have waived := begin_quiet outcome accepted
    rw [result, refused]
    exact ⟨quiet.1.trans waived.1, quiet.2.trans waived.2⟩

lemma Steps.of_unchanged (unchanged : (step env e event).2 = e) :
    Steps env e event := by
  refine .inl ?_
  rw [unchanged]
  exact ⟨Quiet.refl e, Sustains.refl env e⟩

lemma step_cases (env : Env) (e : Engine) (event : Event) : Steps env e event := by
  have itself : Quiet e e ∧ Sustains env e e := ⟨Quiet.refl e, Sustains.refl env e⟩
  cases event with
  | tick now => exact Steps.of_accept itself (Change.tick now) rfl
  | addLink now config =>
    cases refused : linkRefused e config with
    | true => exact Steps.of_unchanged (by simp only [step, wbAddLink, refused, if_true])
    | false =>
      have asked := requests_le_acquire env e.heap env.limits.links LinkState.used {} e.links
      cases acquired : acquire env e.heap env.limits.links LinkState.used {} e.links with
      | mk found heap =>
        rw [acquired] at asked
        cases found with
        | none =>
          refine .inl ?_
          simp only [step, wbAddLink, refused, acquired, Bool.false_eq_true, if_false]
          exact ⟨⟨rfl, rfl, rfl, _, _, _, _, _, _, _, rfl⟩,
            fun provenance sound => ⟨{ sound with },
              Advances.of_evolves rfl rfl asked (SourcesEvolve.refl _ _)⟩⟩
        | some place =>
          obtain ⟨slot, links⟩ := place
          refine Steps.of_accept (growLinks_quiet acquired)
            (Change.addLink now config slot links heap refused acquired) ?_
          simp only [step, wbAddLink, refused, acquired, Bool.false_eq_true, if_false]
  | removeLink now link => exact Steps.of_accept itself (Change.removeLink now link) rfl
  | setCost now link cost =>
    by_cases zero : cost = 0
    · exact Steps.of_unchanged (by simp only [step, wbSetCost, zero, if_true])
    refine Steps.of_accept itself (Change.setCost now link cost zero) ?_
    simp only [step, wbSetCost, zero, if_false]
  | originate now p metric =>
    by_cases refused : (!p.routable || metric == infinity) = true
    · exact Steps.of_unchanged (by simp only [step, wbOriginate, refused, if_true])
    have quiet := originSlot_quiet env e p
    cases placed : originSlot env e p with
    | mk found prepared =>
      rw [placed] at quiet
      cases found with
      | none =>
        refine .inl ?_
        simp only [step, wbOriginate, refused, placed]
        exact quiet
      | some slot =>
        by_cases full : sourcesFull env prepared p prepared.config.router = true
        · refine .inl ?_
          simp only [step, wbOriginate, refused, placed, full, if_true]
          exact quiet
        have accepted : p.routable = true ∧ metric ≠ infinity := by
          simpa using refused
        refine Steps.of_accept quiet
          (Change.originate now p metric slot prepared accepted.1 accepted.2 placed) ?_
        simp only [step, wbOriginate, refused, placed, full, Bool.false_eq_true, if_false]
  | withdraw now p =>
    cases valid : p.valid with
    | false =>
      exact Steps.of_unchanged (by simp only [step, wbWithdraw, valid, Bool.not_false, if_true])
    | true =>
      refine Steps.of_accept itself (Change.withdraw now p) ?_
      simp only [step, wbWithdraw, valid, Bool.not_true, Bool.false_eq_true, if_false]
  | receive now link data => exact Steps.of_accept itself (Change.receive now link data) rfl
  | requestPrefix p =>
    exact .inl ⟨wbRequestPrefix_quiet env e p, fun _ sound => wbRequestPrefix_spec sound p⟩
  | commit revision success =>
    have sustains : Sustains env e (step env e (.commit revision success)).2 :=
      fun _ sound => wbCommit_spec sound revision success
    obtain quiet | ⟨stopped, rfl⟩ := wbCommit_quiet e revision success
    · exact .inl ⟨quiet, sustains⟩
    exact .inr (.inr ⟨stopped, sustains, .inl ⟨revision, rfl⟩⟩)
  | nextPacket capacity =>
    have sustains : Sustains env e (step env e (.nextPacket capacity)).2 :=
      fun _ sound => wbNextPacket_spec sound capacity
    obtain quiet | stopped := wbNextPacket_quiet e capacity
    · exact .inl ⟨quiet, sustains⟩
    exact .inr (.inr ⟨stopped, sustains, .inr ⟨capacity, rfl⟩⟩)

/-! ## Accepted events keep an engine sound -/

def EventOk (env : Env) (provenance : Provenance) (e : Engine) : Event → Prop
  | .receive now id data =>
    ∀ begun, begin env e now = (.ok, begun) → ∀ counters,
      PacketOk env provenance { begun with counters := counters } id
        (packetMessages begun id data)
  | _ => True

lemma eventOk_any (env : Env) (e : Engine) (event : Event) :
    EventOk env Provenance.any e event := by
  cases event with
  | receive now id data =>
    exact fun begun _ counters => ⟨fun m mem =>
      ⟨received_of_packetMessages mem, fun _ => trivial⟩, fun _ _ => trivial⟩
  | tick | addLink | removeLink | setCost | originate | withdraw | requestPrefix | commit |
    nextPacket => trivial

section Accepted

variable {event : Event} {now : UInt64} {prepared begun : Engine} {change : Engine → Engine}

lemma Change.prepares (kind : Change env e event now prepared change) :
    Quiet e prepared ∧ Sustains env e prepared := by
  cases kind with
  | addLink now config slot links heap refused acquired => exact growLinks_quiet acquired
  | originate now p metric slot prepared routable finite placed =>
    have quiet := originSlot_quiet env e p
    rw [placed] at quiet
    exact quiet
  | tick | removeLink | setCost | withdraw | receive => exact ⟨Quiet.refl e, Sustains.refl env e⟩

section

variable (accepted : Accepted env e event now prepared begun change)
include accepted

lemma Accepted.changed (sound : Sound env provenance e) (ok : EventOk env provenance e event) :
    Begun prepared begun now ∧ Sound env provenance begun ∧
      Changed env provenance begun (change begun) := by
  have started := (begin_ok accepted.started).1
  have prepared' := (accepted.kind.prepares.2 provenance sound).1
  have begunSound := started.sound prepared'
  refine ⟨started, begunSound, ?_⟩
  have tables := started.tables
  cases accepted.kind with
  | tick => exact (Keeps.refl begunSound).changed
  | addLink now config slot links heap refused acquired =>
    obtain ⟨nonzero, later, linkOk⟩ := linkOk_of_accepted refused
    obtain ⟨⟨old, located, free⟩, _, _⟩ := acquire_some rfl acquired
    refine attachLink_changed begunSound ?_ free nonzero ?_ linkOk
    · rw [tables.1]
      exact located
    rw [tables.2.2.2.2.2.2.2.1]
    exact later
  | removeLink now link => exact detachLink_changed begunSound tables.2.2.2.2.2.1 link
  | setCost now link cost positive => exact changeCost_changed begunSound link positive
  | originate now p metric slot prepared routable finite placed =>
    obtain ⟨heap, locals, result, _, same, _, place⟩ := originSlot_spec sound p
    rw [placed] at result place
    simp only at result
    subst result
    obtain ⟨old, located, place⟩ := place slot rfl
    have located1 : begun.locals[slot]? = some old := by
      rw [tables.2.1]
      exact located
    refine writeLocal_changed begunSound located1 routable finite ?_
    rw [tables.2.1, keys, same]
    obtain ⟨free, fresh, _⟩ | occupied := place
    · exact .inl ⟨free, fresh⟩
    exact .inr occupied
  | withdraw now p => exact clearLocal_changed begunSound p
  | receive now link data =>
    exact receivePacket_changed begunSound (ok begun accepted.started)

lemma Accepted.state : (step env e event).2 = (finish env (change begun)).2 := by
  rw [accepted.result]

lemma Accepted.sustains (sound : Sound env provenance e) (ok : EventOk env provenance e event) :
    Sound env provenance (step env e event).2 ∧ Advances provenance e (step env e event).2 := by
  obtain ⟨started, _, changed⟩ := accepted.changed sound ok
  have finished := finish_sound changed.sound
  have prepared' := (accepted.kind.prepares.2 provenance sound).2
  have evolved := finished.2.1
  rw [changed.config] at evolved
  rw [accepted.state]
  refine ⟨finished.1, prepared'.trans (started.advances.trans (Advances.of_evolves ?_ ?_ ?_ ?_))⟩
  · exact finished.2.2.2.1.trans changed.config
  · exact finished.2.2.1.trans changed.now
  · exact changed.heap.trans finished.2.2.2.2
  exact changed.sources.trans evolved

end

end Accepted

lemma step_spec (sound : Sound env provenance e) (ok : EventOk env provenance e event) :
    Sound env provenance (step env e event).2 ∧ Advances provenance e (step env e event).2 := by
  obtain ⟨_, sustains⟩ | ⟨_, _, _, _, accepted⟩ | halts := step_cases env e event
  · exact sustains provenance sound
  · exact accepted.sustains sound ok
  exact halts.sustains provenance sound

lemma running_of_step (running : (step env e event).2.stopped = false) :
    e.stopped = false := by
  obtain ⟨quiet, _⟩ | ⟨_, _, _, _, accepted⟩ | halts := step_cases env e event
  · exact quiet.stopped.symm.trans running
  · exact accepted.kind.prepares.1.stopped.symm.trans (begin_ok accepted.started).1.running
  rw [halts.stopped] at running
  cases running

end WendyLite.Babel
