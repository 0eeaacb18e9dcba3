import Mathlib.Tactic.Common

/-! # Stopping a guest

`wendy_wasm_run`, `wendy_wasm_stop` and `wendy_wasm_unload`, with the execution thread and
the control thread of `wendy_core.c` and the dispatch of callbacks, which runs on the
execution thread inside a call of the guest. A step is one access to what the threads share.
-/

namespace WendyLite.Wasm

inductive ModuleState where
  | loaded
  | running
  | stopped
  | error
  deriving DecidableEq

/-- Where the execution thread is. `depth` counts the callbacks in progress. -/
inductive Exec where
  | none
  | created
  | lookingUp
  | tracking
  | clearing
  | marking
  | entering
  | guest (depth : Nat)
  /-- In `dispatch_event`, before the flag is read, and after it was found clear. -/
  | checking (depth : Nat)
  | dispatching (depth : Nat)
  | returned (ok : Bool)
  | leaving
  deriving DecidableEq

def Exec.isEarly : Exec → Bool
  | .created | .lookingUp | .tracking | .clearing | .marking => true
  | _ => false

def Exec.isEntering : Exec → Bool
  | .entering | .dispatching _ => true
  | _ => false

def Exec.inGuest : Exec → Bool
  | .guest _ | .checking _ | .dispatching _ => true
  | _ => false

/-- Where the control thread is: in `wendy_wasm_stop` after it has read `RUNNING`, or
waiting for the execution thread. -/
inductive Control where
  | idle
  | flagging
  | terminating
  | marking
  | waiting
  deriving DecidableEq

/-- The module and what the threads share. The last three fields record that a stop has
returned `ESP_OK`, that the guest was entered after that, and that the execution thread has
used a module that is unloaded. -/
structure System where
  loaded : Bool := false
  state : ModuleState := .loaded
  exec : Exec := .none
  control : Control := .idle
  active : Bool := false
  terminateRequested : Bool := false
  terminated : Bool := false
  stopped : Bool := false
  late : Bool := false
  misused : Bool := false
  deriving DecidableEq

inductive Event where
  /-- `start_loaded_wasm_module` on a module that was just loaded. -/
  | start (created : Bool)
  /-- `wendy_wasm_stop` reads the state. -/
  | stop
  /-- The next step of `wendy_wasm_stop`. -/
  | stopping
  /-- The wait for the execution thread ends, and the module is unloaded or kept. -/
  | waited (unload : Bool)
  /-- The next step of the execution thread; `choice` is whether a function is found, and
  whether the call of the guest succeeds. -/
  | exec (choice : Bool)
  /-- The guest has an event dispatched. -/
  | dispatch

variable (s : System)

def System.enter (depth : Nat) : System :=
  { s with exec := .guest depth, late := s.late || s.stopped }

def System.execute (choice : Bool) : System :=
  match s.exec with
  | .none => s
  | .created => { s with exec := if s.state = .loaded then .lookingUp else .leaving }
  | .lookingUp =>
    if choice then { s with exec := .tracking } else { s with state := .error, exec := .leaving }
  | .tracking => { s with exec := .clearing }
  | .clearing => { s with terminateRequested := false, exec := .marking }
  | .marking => { s with state := .running, exec := .entering }
  | .entering => s.enter 0
  | .guest 0 => { s with exec := .returned choice }
  | .guest (depth + 1) => { s with exec := .guest depth }
  | .checking depth =>
    { s with exec := if s.terminateRequested then .guest depth else .dispatching depth }
  | .dispatching depth => s.enter (depth + 1)
  | .returned ok => { s with state := if ok then .stopped else .error, exec := .leaving }
  | .leaving => { s with active := false, exec := .none }

def System.usesModule : Bool := s.exec ≠ .none ∧ s.exec ≠ .leaving

def System.step : Event → System
  | .start created =>
    if s.control = .idle ∧ s.loaded = false ∧ created then
      { s with
        loaded := true, state := .loaded, exec := .created, active := true
        terminated := false, stopped := false }
    else s
  | .stop =>
    if s.control ≠ .idle ∨ s.loaded = false then s
    else if s.state = .running then { s with control := .flagging }
    else { s with control := .waiting, stopped := true }
  | .stopping =>
    match s.control with
    | .flagging => { s with terminateRequested := true, control := .terminating }
    | .terminating => { s with terminated := true, control := .marking }
    | .marking => { s with state := .stopped, control := .waiting, stopped := true }
    | _ => s
  | .waited unload =>
    if s.control ≠ .waiting then s
    else { s with control := .idle, loaded := s.loaded && !(unload && !s.active) }
  | .exec choice => { s.execute choice with misused := s.misused || (s.usesModule && !s.loaded) }
  | .dispatch =>
    match s.exec with
    | .guest depth => { s with exec := .checking depth }
    | _ => s

def System.run (events : List Event) : System := events.foldl System.step s

/-! ## The module outlives its thread -/

structure Alive (s : System) : Prop where
  active : s.exec ≠ .none → s.active = true ∧ s.loaded = true
  proper : s.misused = false

variable {s : System}

lemma Alive.step (alive : Alive s) (event : Event) : Alive (s.step event) := by
  obtain ⟨active, proper⟩ := alive
  cases event with
  | start created =>
    rw [System.step]
    split
    · exact ⟨fun _ => ⟨rfl, rfl⟩, proper⟩
    exact ⟨active, proper⟩
  | stop =>
    rw [System.step]
    repeat' split
    all_goals exact ⟨active, proper⟩
  | stopping =>
    rw [System.step]
    split <;> exact ⟨active, proper⟩
  | waited unload =>
    rw [System.step]
    split
    · exact ⟨active, proper⟩
    refine ⟨fun running => ?_, proper⟩
    obtain ⟨busy, loaded⟩ := active running
    exact ⟨busy, by simp [busy, loaded]⟩
  | exec choice =>
    have unused : (s.usesModule && !s.loaded) = false := by
      by_cases running : s.exec = .none
      · simp [System.usesModule, running]
      simp [(active running).2]
    refine ⟨?_, by simp [System.step, proper, unused]⟩
    show (s.execute choice).exec ≠ .none → (s.execute choice).active = true ∧
      (s.execute choice).loaded = true
    rw [System.execute]
    split
    case h_1 none_ => exact fun running => absurd none_ running
    case h_3 looking =>
      have both := active (by simp [looking])
      split <;> exact fun _ => both
    case h_13 => exact fun running => absurd rfl running
    all_goals
      rename_i here
      exact fun _ => active (by simp [here])
  | dispatch =>
    rw [System.step]
    split
    next depth inside => exact ⟨fun _ => active (by simp [inside]), proper⟩
    exact ⟨active, proper⟩

/-! ## A stop that comes in time -/

/-- A stop that reads the state once the module is running, and sets the flag while the
thread is not about to call the guest. -/
def System.Timely (s : System) : Event → Prop
  | .stop => s.state ≠ .loaded
  | .stopping => s.control = .flagging → s.exec.isEntering = false
  | _ => True

def TimelyRun : System → List Event → Prop
  | _, [] => True
  | s, event :: events => s.Timely event ∧ TimelyRun (s.step event) events

/-- The thread is in the guest with the flag set, or past it. -/
def System.Barred (s : System) : Prop :=
  s.exec.isEarly = false ∧ s.exec.isEntering = false ∧
    (s.exec.inGuest = true → s.terminateRequested = true)

/-- A stop has told the guest to end, or the thread has ended the run. -/
def System.Ending (s : System) : Prop :=
  s.control = .marking ∨ s.stopped = true ∨ s.state = .stopped ∨ s.state = .error

/-- The stop goes on to end what the guest does. -/
structure Held (s : System) : Prop where
  early : s.exec.isEarly = true → s.state = .loaded
  flagging : s.control = .flagging → s.exec.isEarly = false
  barred : s.control = .terminating ∨ s.Ending → s.Barred
  told : s.Ending → s.exec.inGuest = true → s.terminated = true
  prompt : s.late = false

lemma Held.unstopped (held : Held s) (open_ : s.exec.isEarly = true ∨ s.exec.isEntering = true) :
    ¬ (s.control = .terminating ∨ s.Ending) := by
  intro stopped
  obtain ⟨late, apart, _⟩ := held.barred stopped
  obtain early | entering := open_
  · rw [late] at early
    cases early
  rw [apart] at entering
  cases entering

lemma Held.move (held : Held s) (early : exec.isEarly = true → s.exec.isEarly = true)
    (barred : s.Barred → exec.isEarly = false ∧ exec.isEntering = false ∧
      (exec.inGuest = true → s.exec.inGuest = true)) : Held { s with exec := exec } where
  early isEarly := held.early (early isEarly)
  flagging flagging := by
    have before := held.flagging flagging
    by_contra isEarly
    rw [early (by simpa using isEarly)] at before
    cases before
  barred stopped := by
    have before := held.barred stopped
    obtain ⟨late, apart, inGuest⟩ := barred before
    exact ⟨late, apart, fun inside => before.2.2 (inGuest inside)⟩
  told stopped inside := held.told stopped ((barred (held.barred (.inr stopped))).2.2 inside)
  prompt := held.prompt

lemma Held.enter (held : Held s) (entering : s.exec.isEntering = true)
    (depth : Nat) : Held (s.enter depth) := by
  have unstopped := held.unstopped (.inr entering)
  have running : s.stopped = false := by
    by_contra stopped
    exact unstopped (.inr (.inr (.inl (by simpa using stopped))))
  refine ⟨nofun, fun _ => rfl, fun stopped => absurd stopped unstopped,
    fun stopped => absurd (.inr stopped) unstopped, ?_⟩
  simp [System.enter, held.prompt, running]

lemma Held.execute (held : Held s) (choice : Bool) : Held (s.execute choice) := by
  rw [System.execute]
  split
  case h_1 => exact held
  case h_2 here =>
    rw [if_pos (held.early (by simp [here, Exec.isEarly]))]
    exact held.move (by simp [here, Exec.isEarly]) (by simp [System.Barred, here, Exec.isEarly])
  case h_3 here =>
    split
    · exact held.move (by simp [here, Exec.isEarly]) (by simp [System.Barred, here, Exec.isEarly])
    exact ⟨nofun, fun _ => rfl, fun _ => ⟨rfl, rfl, nofun⟩, nofun, held.prompt⟩
  case h_4 here =>
    exact held.move (by simp [here, Exec.isEarly]) (by simp [System.Barred, here, Exec.isEarly])
  case h_5 here =>
    have unstopped := held.unstopped (.inl (by simp [here, Exec.isEarly]))
    exact ⟨fun _ => held.early (by simp [here, Exec.isEarly]),
      fun flagging => absurd (held.flagging flagging) (by simp [here, Exec.isEarly]),
      fun stopped => absurd stopped unstopped,
      fun stopped => absurd (.inr stopped) unstopped, held.prompt⟩
  case h_6 here =>
    have unstopped := held.unstopped (.inl (by simp [here, Exec.isEarly]))
    refine ⟨nofun, fun _ => rfl, fun stopped => absurd ?_ unstopped,
      fun stopped => absurd ?_ unstopped, held.prompt⟩
    · exact stopped.imp_right fun ending => by grind [System.Ending]
    exact .inr (by grind [System.Ending])
  case h_7 here => exact held.enter (by simp [here, Exec.isEntering]) 0
  case h_8 here => exact held.move nofun fun _ => ⟨rfl, rfl, nofun⟩
  case h_9 depth here => exact held.move nofun fun _ => ⟨rfl, rfl, by simp [here, Exec.inGuest]⟩
  case h_10 depth here =>
    refine held.move (by split <;> exact nofun) fun barred => ?_
    rw [if_pos (barred.2.2 (by simp [here, Exec.inGuest]))]
    exact ⟨rfl, rfl, by simp [here, Exec.inGuest]⟩
  case h_11 depth here => exact held.enter (by simp [here, Exec.isEntering]) (depth + 1)
  case h_12 ok here =>
    have moved : Held { s with exec := .leaving } := held.move nofun fun _ => ⟨rfl, rfl, nofun⟩
    exact { moved with early := nofun, barred := fun _ => ⟨rfl, rfl, nofun⟩, told := nofun }
  case h_13 here =>
    have moved : Held { s with exec := .none } := held.move nofun fun _ => ⟨rfl, rfl, nofun⟩
    exact { moved with }

lemma Held.step (held : Held s) (timely : s.Timely event) :
    Held (s.step event) := by
  cases event with
  | start created =>
    rw [System.step]
    split
    next free =>
      refine ⟨fun _ => rfl, fun flagging => ?_, ?_, ?_, held.prompt⟩
      · rw [show s.control = .flagging from flagging] at free
        cases free.1
      all_goals simp [System.Ending, free.1]
    exact held
  | stop =>
    rw [System.step]
    split
    · exact held
    have late : s.exec.isEarly = false := by
      by_contra early
      exact timely (held.early (by simpa using early))
    split
    next running =>
      have before : System.Ending { s with control := .flagging } → s.Ending := by
        grind [System.Ending]
      exact ⟨held.early, fun _ => late, fun stopped => held.barred (.inr (before (by
        simpa using stopped))), fun stopped => held.told (before stopped), held.prompt⟩
    rename_i ended
    have over_ : s.state = .stopped ∨ s.state = .error := by
      cases state : s.state with
      | loaded => exact absurd state timely
      | running => exact absurd state ended
      | stopped => exact .inl rfl
      | error => exact .inr rfl
    have ending : s.Ending := .inr (.inr over_)
    exact ⟨held.early, nofun, fun _ => held.barred (.inr ending), fun _ => held.told ending,
      held.prompt⟩
  | stopping =>
    rw [System.step]
    split
    next flagging =>
      refine ⟨held.early, nofun, fun _ => ⟨held.flagging flagging, timely flagging, fun _ => rfl⟩,
        fun ending => held.told ?_, held.prompt⟩
      grind [System.Ending]
    next terminating =>
      exact ⟨held.early, nofun, fun _ => held.barred (.inl terminating), fun _ _ => rfl,
        held.prompt⟩
    next marking =>
      have barred := held.barred (.inr (.inl marking))
      exact ⟨fun early => absurd early (by simp [barred.1]), nofun, fun _ => barred,
        fun _ => held.told (.inl marking), held.prompt⟩
    exact held
  | waited unload =>
    rw [System.step]
    split
    · exact held
    have before : System.Ending { s with
        control := .idle, loaded := s.loaded && !(unload && !s.active) } → s.Ending := by
      grind [System.Ending]
    exact ⟨held.early, nofun, fun stopped => held.barred (.inr (before (by
      simpa using stopped))), fun stopped => held.told (before stopped), held.prompt⟩
  | exec choice => exact { held.execute choice with }
  | dispatch =>
    rw [System.step]
    split
    next depth inside => exact held.move nofun fun _ => ⟨rfl, rfl, by simp [inside, Exec.inGuest]⟩
    exact held

lemma Alive.run (alive : Alive s) (events : List Event) : Alive (s.run events) := by
  induction events generalizing s with
  | nil => exact alive
  | cons event events ih => exact ih (alive.step event)

lemma Held.run (held : Held s) (timely : TimelyRun s events) :
    Held (s.run events) := by
  induction events generalizing s with
  | nil => exact held
  | cons event events ih => exact ih (held.step timely.1) timely.2

def runsGuest : List Event := .start true :: List.replicate 6 (.exec true)

end WendyLite.Wasm
