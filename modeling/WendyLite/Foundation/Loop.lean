import Mathlib.Data.List.Induction

/-! # Invariants of bounded loops

A `for` loop over a list is `List.foldl`; its invariants come from
`List.foldlRecOn`. A loop that may leave early with a `goto` is `List.foldlM`
in `Except State State`, where `error` carries the state at the jump.
-/

namespace WendyLite

/-- The state in which an interruptible loop ends, however it ends. -/
def settle : Except State State → State
  | .ok state => state
  | .error state => state

@[simp] lemma settle_ok (state : State) : settle (.ok state) = state := rfl

@[simp] lemma settle_error (state : State) : settle (.error state) = state := rfl

variable {State : Type}

/-- What holds at the end of the first action, and is kept by the second, holds
at the end of both. -/
lemma settle_bind_of_step (invariant : State → Prop) (first : invariant (settle action))
    (step : ∀ state, action = .ok state → invariant state → invariant (settle (next state))) :
    invariant (settle (action >>= next)) := by
  cases outcome : action with
  | error state =>
    rw [outcome] at first
    exact first
  | ok state =>
    rw [outcome] at first
    exact step state outcome first

variable {Item : Type}

/-- A loop keeps what every iteration keeps, whether it ends or jumps. -/
lemma settle_foldlM_of_step (body : State → Item → Except State State)
    (invariant : State → Prop) (items : List Item)
    (step : ∀ state item, item ∈ items → invariant state → invariant (settle (body state item)))
    (start : State) (holds : invariant start) : invariant (settle (items.foldlM body start)) := by
  induction items generalizing start with
  | nil => exact holds
  | cons item rest ih =>
    have first := step start item (.head _) holds
    rw [List.foldlM_cons]
    cases outcome : body start item with
    | error state =>
      rw [outcome, settle_error] at first
      exact first
    | ok state =>
      rw [outcome, settle_ok] at first
      exact ih
        (fun state item mem => step state item (.tail _ mem))
        state first

/-- A loop that runs to its end, with an invariant about the items seen so far. -/
lemma foldlM_ok_of_seen {body : State → Item → Except State State}
    (invariant : List Item → State → Prop) {items : List Item}
    (step : ∀ seen item rest state next, items = seen ++ item :: rest → invariant seen state →
      body state item = .ok next → invariant (seen ++ [item]) next)
    {start final : State} (holds : invariant [] start)
    (ended : items.foldlM body start = .ok final) : invariant items final := by
  induction items using List.reverseRecOn generalizing final with
  | nil =>
    cases ended
    exact holds
  | append_singleton init last ih =>
    rw [List.foldlM_append] at ended
    cases outcome : init.foldlM body start with
    | error state =>
      rw [outcome] at ended
      cases ended
    | ok state =>
      rw [outcome] at ended
      have ended : [last].foldlM body state = .ok final := ended
      refine step init last [] state final rfl (ih ?_ outcome) (by simpa using ended)
      intro seen item rest state next whole
      exact step seen item (rest ++ [last]) state next (by simp [whole])

/-- What holds at every jump of the body holds where the loop jumped. -/
lemma foldlM_error_of_step {body : State → Item → Except State State}
    (invariant : State → Prop) {items : List Item}
    (step : ∀ state item final, body state item = .error final → invariant final)
    {start final : State} (jumped : items.foldlM body start = .error final) : invariant final := by
  induction items generalizing start with
  | nil => cases jumped
  | cons item rest ih =>
    rw [List.foldlM_cons] at jumped
    cases outcome : body start item with
    | error state =>
      rw [outcome] at jumped
      cases jumped
      exact step start item final outcome
    | ok state =>
      rw [outcome] at jumped
      exact ih jumped

/-- A loop whose body never jumps while the invariant holds runs to its end. -/
lemma foldlM_total_of_seen {body : State → Item → Except State State}
    (invariant : List Item → State → Prop) {items : List Item}
    (step : ∀ seen item rest state, items = seen ++ item :: rest → invariant seen state →
      ∃ next, body state item = .ok next ∧ invariant (seen ++ [item]) next)
    {start : State} (holds : invariant [] start) :
    ∃ final, items.foldlM body start = .ok final ∧ invariant items final := by
  induction items using List.reverseRecOn with
  | nil => exact ⟨start, rfl, holds⟩
  | append_singleton init last ih =>
    obtain ⟨state, ended, holds⟩ := ih fun seen item rest state whole =>
      step seen item (rest ++ [last]) state (by simp [whole])
    obtain ⟨final, stepped, holds⟩ := step init last [] state rfl holds
    refine ⟨final, ?_, holds⟩
    rw [List.foldlM_append, ended]
    show [last].foldlM body state = .ok final
    simpa using stepped

/-- What a loop emits when its body emits something in each state it visits. -/
def foldTrace {State Item Out : Type} (body : State → Item → State)
    (emits : State → Item → List Out) : State → List Item → List Out
  | _, [] => []
  | state, item :: rest => emits state item ++ foldTrace body emits (body state item) rest

lemma forall_mem_foldTrace {Out : Type} {body : State → Item → State}
    {emits : State → Item → List Out} (invariant : State → Prop) (good : Out → Prop)
    (step : ∀ state item, invariant state → invariant (body state item))
    (emitted : ∀ state item, invariant state → ∀ out ∈ emits state item, good out)
    (items : List Item) (start : State) (holds : invariant start) :
    ∀ out ∈ foldTrace body emits start items, good out := by
  induction items generalizing start with
  | nil => simp [foldTrace]
  | cons item rest ih =>
    intro out mem
    obtain now | later := List.mem_append.mp mem
    · exact emitted start item holds out now
    exact ih (body start item) (step start item holds) out later

end WendyLite
