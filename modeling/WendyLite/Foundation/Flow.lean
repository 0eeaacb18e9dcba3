import Mathlib.Logic.Basic

/-! # Flows

A flow runs on a state and returns a value or stops for a reason; the state it leaves is
kept in both cases. A flow meets a specification when from every state that satisfies
the precondition it returns into the postcondition or stops into the other one. There is
a rule for each way to build a flow.
-/

namespace WendyLite

/-- A computation on states that returns a value or stops. -/
def Flow (σ ε α : Type) := σ → Except ε α × σ

namespace Flow

variable {σ ε α β : Type}

instance : Monad (Flow σ ε) where
  pure value := fun state => (.ok value, state)
  bind flow next := fun state =>
    match flow state with
    | (.ok value, after) => next value after
    | (.error reason, after) => (.error reason, after)

def state : Flow σ ε σ := fun current => (.ok current, current)

def change (edit : σ → σ) : Flow σ ε Unit := fun current => (.ok (), edit current)

def stop (reason : ε) : Flow σ ε α := fun current => (.error reason, current)

/-- Go on in another way where the flow stops. -/
def recover (flow : Flow σ ε α) (handle : ε → Flow σ ε α) : Flow σ ε α := fun current =>
  match flow current with
  | (.ok value, after) => (.ok value, after)
  | (.error reason, after) => handle reason after

variable {current : σ}

variable {after : σ}

lemma bind_of_ok {flow : Flow σ ε β} {next : β → Flow σ ε α} {value : β}
    (run : flow current = (.ok value, after)) : (flow >>= next) current = next value after := by
  change (match flow current with
    | (.ok value, after) => next value after
    | (.error reason, after) => (.error reason, after)) = _
  rw [run]

lemma state_bind (next : σ → Flow σ ε α) (current : σ) :
    (state >>= next) current = next current current := rfl

variable {flow : Flow σ ε α}

lemma recover_of_ok (run : flow current = (.ok value, after)) (handle : ε → Flow σ ε α) :
    flow.recover handle current = (.ok value, after) := by
  unfold recover
  rw [run]

lemma recover_of_error (run : flow current = (.error reason, after)) (handle : ε → Flow σ ε α) :
    flow.recover handle current = handle reason after := by
  unfold recover
  rw [run]

def Meets (before : σ → Prop) (flow : Flow σ ε α) (returned : α → σ → Prop)
    (stopped : ε → σ → Prop) : Prop :=
  ∀ current, before current →
    match flow current with
    | (.ok value, after) => returned value after
    | (.error reason, after) => stopped reason after

/-- The flow ends in one condition, whether it returns or stops. -/
abbrev Leaves (before : σ → Prop) (flow : Flow σ ε α) (kept : σ → Prop) : Prop :=
  Meets before flow (fun _ => kept) (fun _ => kept)

variable {before : σ → Prop} {returned : α → σ → Prop} {stopped : ε → σ → Prop}

namespace Meets

lemma pure (holds : ∀ current, before current → returned value current) :
    Meets before (Pure.pure value : Flow σ ε α) returned stopped := holds

lemma stop (holds : ∀ current, before current → stopped reason current) :
    Meets before (Flow.stop reason : Flow σ ε α) returned stopped := holds

lemma change {edited : Unit → σ → Prop}
    (holds : ∀ current, before current → edited () (edit current)) :
    Meets before (Flow.change edit : Flow σ ε Unit) edited stopped := holds

lemma bind {flow : Flow σ ε β} {next : β → Flow σ ε α} {middle : β → σ → Prop}
    (first : Meets before flow middle stopped)
    (rest : ∀ value, Meets (middle value) (next value) returned stopped) :
    Meets before (flow >>= next) returned stopped := by
  intro current holds
  have reached := first current holds
  change match (match flow current with
    | (.ok value, after) => next value after
    | (.error reason, after) => (.error reason, after)) with
    | (.ok value, after) => returned value after
    | (.error reason, after) => stopped reason after
  cases run : flow current with
  | mk result after =>
    rw [run] at reached
    cases result with
    | ok value => exact rest value after reached
    | error reason => exact reached

lemma state_bind (rest : ∀ seen, before seen →
      Meets (fun current => current = seen) (next seen) returned stopped) :
    Meets before (state >>= next) returned stopped :=
  fun current holds => rest current holds current rfl

lemma recover {failed : ε → σ → Prop} (first : Meets before flow returned failed)
    (rest : ∀ reason, Meets (failed reason) (handle reason) returned stopped) :
    Meets before (flow.recover handle) returned stopped := by
  intro current holds
  have reached := first current holds
  unfold Flow.recover
  cases run : flow current with
  | mk result after =>
    rw [run] at reached
    cases result with
    | ok value => exact reached
    | error reason => exact rest reason after reached

lemma weaken {stronger : σ → Prop} {returnedFirst : α → σ → Prop}
    {stoppedFirst : ε → σ → Prop} (meets : Meets before flow returnedFirst stoppedFirst)
    (enough : ∀ current, stronger current → before current)
    (onReturn : ∀ value after, returnedFirst value after → returned value after)
    (onStop : ∀ reason after, stoppedFirst reason after → stopped reason after) :
    Meets stronger flow returned stopped := by
  intro current holds
  have reached := meets current (enough current holds)
  cases run : flow current with
  | mk result after =>
    rw [run] at reached
    cases result with
    | ok value => exact onReturn value after reached
    | error reason => exact onStop reason after reached

lemma ite {condition : Prop} [Decidable condition]
    (onTrue : condition → Meets before first returned stopped)
    (onFalse : ¬ condition → Meets before second returned stopped) :
    Meets before (if condition then first else second) returned stopped := by
  split
  · exact onTrue (by assumption)
  exact onFalse (by assumption)

lemma ends {kept : σ → Prop} (meets : Leaves before flow kept)
    (holds : before current) : kept (flow current).2 := by
  have reached := meets current holds
  cases run : flow current with
  | mk result after =>
    rw [run] at reached
    cases result with
    | ok | error => exact reached

end Meets

end Flow

end WendyLite
