import WendyLite.Core.Lifecycle

/-! # Control calls

The com task has at most one request it waits for, and it is the last one the
control thread will carry out. When a stop for flash is answered with success
nothing else is left to do and no guest is active. Only start requests load a
module.
-/

namespace WendyLite.Core

open Com (Result AppType ConfPushMode PushKind Action)

def Control.request : Control → Option Request
  | .idle => none
  | .stopping request | .preparing request | .reading request _ => some request

def Control.isLoading : Control → Bool
  | .idle | .stopping _ => false
  | .preparing _ | .reading .. => true

lemma Control.request_abandon (control : Control) :
    control.abandon.request = control.request.map Request.abandon := by
  cases control <;> rfl

lemma Control.isLoading_abandon (control : Control) :
    control.abandon.isLoading = control.isLoading := by
  cases control <;> rfl

variable (device : Device)

def Device.pending : List Request :=
  device.control.request.toList ++ device.controlQueue

/-! ## The invariants -/

def Waits (continuation : Continuation) : Prop :=
  (device.done = none ∧ ∃ earlier,
      device.pending = earlier ++ [⟨continuation.command, true⟩] ∧
        ∀ request ∈ earlier, request.awaited = false) ∨
    ∃ err, device.done = some err ∧ device.pending = [] ∧
      (continuation.command = .stopForFlash → err = .ok → device.wasmActive = false)

structure Unawaited (device : Device) : Prop where
  done : device.done = none
  abandoned : ∀ request ∈ device.pending, request.awaited = false

def Settled : Prop :=
  match device.com with
  | .awaiting continuation => Waits device continuation
  | _ => Unawaited device

/-- Only start requests load a module, and an active guest has one. -/
structure Lifecycle (device : Device) : Prop where
  starts : ∀ request, device.control.isLoading = true → device.control.request = some request →
    request.command = .start
  module : device.wasmActive = true → device.currentModule = true

/-! ## Control calls -/

section Calls

variable {device device' : Device}

lemma Settled.unawaited (settled : Settled device)
    (free : ∀ continuation, device.com ≠ .awaiting continuation) : Unawaited device := by
  unfold Settled at settled
  split at settled
  next continuation waiting => exact absurd waiting (free continuation)
  exact settled

lemma Unawaited.settled (unawaited : Unawaited device)
    (free : ∀ continuation, device.com ≠ .awaiting continuation) : Settled device := by
  unfold Settled
  split
  next continuation waiting => exact absurd waiting (free continuation)
  exact unawaited

lemma Settled.waits (settled : Settled device) (waiting : device.com = .awaiting continuation) :
    Waits device continuation := by
  simpa only [Settled, waiting] using settled

lemma Waits.settled (waits : Waits device continuation)
    (waiting : device.com = .awaiting continuation) : Settled device := by
  simpa only [Settled, waiting] using waits

lemma Unawaited.same (unawaited : Unawaited device) (done : device'.done = device.done)
    (pending : device'.pending = device.pending) : Unawaited device' :=
  ⟨done.trans unawaited.done, by rw [pending]; exact unawaited.abandoned⟩

lemma Settled.same (settled : Settled device) (com : device'.com = device.com)
    (done : device'.done = device.done) (pending : device'.pending = device.pending)
    (active : device'.wasmActive = true → device.wasmActive = true) : Settled device' := by
  by_cases waiting : ∃ continuation, device.com = .awaiting continuation
  · obtain ⟨continuation, waiting⟩ := waiting
    refine Waits.settled ?_ (com.trans waiting)
    obtain ⟨unanswered, last⟩ | ⟨err, answered, idle, stopped⟩ := settled.waits waiting
    · exact .inl ⟨done.trans unanswered, pending ▸ last⟩
    refine .inr ⟨err, done.trans answered, pending.trans idle, fun forFlash ok => ?_⟩
    have inactive := stopped forFlash ok
    exact Bool.eq_false_iff.mpr fun now => by simp [active now] at inactive
  push Not at waiting
  exact ((settled.unawaited waiting).same done pending).settled fun continuation now =>
    waiting continuation (com.symm.trans now)

lemma Settled.finish (settled : Settled device) (pending : device.pending = request :: rest)
    (pending' : device'.pending = rest) (com : device'.com = device.com)
    (done : device'.done = if request.awaited then some err else device.done)
    (stopped : request.command = .stopForFlash → err = .ok → device'.wasmActive = false) :
    Settled device' := by
  by_cases waiting : ∃ continuation, device.com = .awaiting continuation
  · obtain ⟨continuation, waiting⟩ := waiting
    refine Waits.settled ?_ (com.trans waiting)
    obtain ⟨unanswered, earlier, last, abandoned⟩ | ⟨_, _, idle, _⟩ := settled.waits waiting
    · rw [pending] at last
      cases earlier with
      | nil =>
        simp only [List.nil_append, List.cons.injEq] at last
        obtain ⟨rfl, rfl⟩ := last
        exact .inr ⟨err, by simpa using done, pending', stopped⟩
      | cons first earlier =>
        simp only [List.cons_append, List.cons.injEq] at last
        obtain ⟨rfl, rfl⟩ := last
        have skipped := abandoned request (by simp)
        refine .inl ⟨by simpa [skipped, unanswered] using done, earlier, pending', ?_⟩
        exact fun other mem => abandoned other (by simp [mem])
    simp [pending] at idle
  push Not at waiting
  have unawaited := settled.unawaited waiting
  have skipped := unawaited.abandoned request (by simp [pending])
  refine Unawaited.settled ⟨by simpa [skipped, unawaited.done] using done, ?_⟩
    fun continuation now => waiting continuation (com.symm.trans now)
  intro other mem
  exact unawaited.abandoned other (by rw [pending]; simp [← pending', mem])

lemma pending_controlCall (continuation : Continuation) : ({ device with
        controlQueue := device.controlQueue ++ [⟨continuation.command, true⟩]
        com := .awaiting continuation } : Device).pending =
      device.pending ++ [⟨continuation.command, true⟩] := by
  simp [Device.pending]

lemma Unawaited.continue_ (unawaited : Unawaited device) (err : EspErr)
    (continuation : Continuation) : Settled (device.continue_ err continuation) := by
  have replied : ∀ result, Settled (device.reply result) := by
    intro result
    have same : Unawaited (device.reply result) := unawaited.same rfl rfl
    exact same.settled (by simp [Device.reply])
  cases continuation with
  | pushBegin totalLen =>
    simp only [Device.continue_, Device.persistBeginStopped]
    split
    · exact replied _
    split
    · exact replied _
    split
    · exact replied _
    exact Unawaited.settled (unawaited.same rfl rfl) (by simp)
  | appStart | appStop => exact replied _
  | reboot appAutoStart =>
    refine Unawaited.settled ⟨rfl, ?_⟩ (by simp [Device.continue_, Device.restart])
    simp [Device.continue_, Device.restart, Device.pending, Control.request]
  | autoStart => exact Unawaited.settled (unawaited.same rfl rfl) (by simp [Device.continue_])

lemma Unawaited.controlCall (unawaited : Unawaited device) (queueing : EspErr)
    (continuation : Continuation) : Settled (device.controlCall queueing continuation) := by
  unfold Device.controlCall
  split
  · exact unawaited.continue_ queueing continuation
  exact Waits.settled (.inl ⟨unawaited.done, device.pending, pending_controlCall continuation,
    unawaited.abandoned⟩) rfl

lemma pending_abandon : ({ device with
        done := none
        control := device.control.abandon
        controlQueue := device.controlQueue.map Request.abandon } : Device).pending =
      device.pending.map Request.abandon := by
  simp only [Device.pending, Control.request_abandon, List.map_append]
  cases device.control.request <;> rfl

/-- Every command leaves the requests as they are or makes one control call. -/
lemma Unawaited.push (unawaited : Unawaited device) (idle : device.com = .idle) (kind : PushKind)
    (action : Action) (answers : Answers) : Settled (device.push kind action answers) := by
  have free : ∀ {device' : Device}, device'.com = .idle → ∀ continuation,
      device'.com ≠ .awaiting continuation := by
    intro device' same continuation
    simp [same]
  have replied : ∀ {device' : Device} {result}, device'.done = device.done →
      device'.pending = device.pending → Settled (device'.reply result) := by
    intro device' result done pending
    have same : Unawaited (device'.reply result) := unawaited.same done pending
    exact same.settled (free rfl)
  have cancelled : Unawaited device.cancelAppAutoStart := unawaited.same rfl rfl
  cases kind with
  | app =>
    cases action with
    | beginApp size appType =>
      simp only [Device.push, Device.comPushBegin, Device.nativePushBegin, Device.persistBegin]
      repeat' split
      all_goals first
        | exact replied rfl rfl
        | exact cancelled.controlCall _ _
    | beginConf => exact unawaited.settled (free idle)
    | data offset bytes =>
      simp only [Device.push, Device.comPushData, Device.nativePushData, Device.persistChunk]
      repeat' split
      all_goals first
        | exact replied rfl rfl
        | exact Unawaited.settled (unawaited.same rfl rfl) (by simp)
    | finish =>
      simp only [Device.push, Device.comPushEnd, Device.nativePushEnd, Device.persistEnd]
      repeat' split
      all_goals exact replied rfl rfl
    | abort =>
      simp only [Device.push, Device.comPushAbort, Device.nativePushAbort, Device.persistAbort]
      repeat' split
      all_goals exact Unawaited.settled (unawaited.same rfl rfl) (by simp [idle])
  | conf =>
    cases action with
    | beginApp => exact unawaited.settled (free idle)
    | beginConf size mode wifiOnly =>
      simp only [Device.push, Device.comConfPushBegin]
      repeat' split
      all_goals exact replied rfl rfl
    | data offset bytes =>
      simp only [Device.push, Device.comConfPushData]
      repeat' split
      all_goals exact replied rfl rfl
    | finish =>
      simp only [Device.push, Device.comConfPushEnd, Device.comConfPushAbort]
      repeat' split
      all_goals exact replied rfl rfl
    | abort =>
      exact Unawaited.settled (unawaited.same rfl rfl)
        (by simp [Device.push, Device.comConfPushAbort, idle])

lemma Settled.resume (settled : Settled device) : Settled device.resume := by
  unfold Device.resume
  split
  next continuation err waiting answered =>
    obtain ⟨unanswered, _⟩ | ⟨_, _, idle, _⟩ := settled.waits waiting
    · simp [unanswered] at answered
    refine Unawaited.continue_ ⟨rfl, ?_⟩ err continuation
    intro request mem
    have none_ : request ∈ device.pending := mem
    simp [idle] at none_
  exact settled

lemma Settled.expire (settled : Settled device) : Settled device.expire := by
  unfold Device.expire
  split
  · refine Unawaited.continue_ ⟨rfl, ?_⟩ .timeout _
    intro request mem
    rw [show _ = device.pending.map Request.abandon from pending_abandon] at mem
    obtain ⟨original, _, rfl⟩ := List.mem_map.mp mem
    rfl
  exact settled

lemma Settled.flashDone (settled : Settled device) (answer : FlashAnswer) :
    Settled (device.flashDone answer) := by
  unfold Device.flashDone
  split
  · exact settled
  · exact settled
  all_goals
    rename_i flashing
    have unawaited := settled.unawaited (by simp [flashing])
    repeat' split
    all_goals exact Unawaited.settled (unawaited.same rfl rfl) (by simp [Device.reply])

end Calls

/-! ## The control thread -/

section ControlThread

variable {device : Device}

lemma pending_cons (current : device.control.request = some request) :
    device.pending = request :: device.controlQueue := by
  simp [Device.pending, current]

lemma pending_idle (idle : device.control = .idle) : device.pending = device.controlQueue := by
  simp [Device.pending, idle, Control.request]

section

variable (settled : Settled device)
include settled

namespace Settled

/-- A request is carried out by the control thread, which is idle after it. -/
lemma finish_request {device' : Device} {request : Request}
    {err : EspErr} (pending : device.pending = request :: device'.controlQueue)
    (com : device'.com = device.com) (done : device'.done = device.done)
    (stopped : request.command = .stopForFlash → err = .ok → device'.wasmActive = false) :
    Settled (device'.finish request err) :=
  settled.finish pending (pending_idle rfl) com (by simp [Device.finish, done]) stopped

lemma take (lifecycle : Lifecycle device) : Settled device.take := by
  unfold Device.take
  split
  next request rest idle queued =>
    have first : device.pending = request :: rest := (pending_idle idle).trans queued
    have taken : ∀ control, control.request = some request →
        Settled { device with controlQueue := rest, control } := by
      intro control current
      refine settled.same rfl rfl ?_ id
      rw [first]
      exact pending_cons current
    dsimp only
    split
    · split
      · exact taken (.stopping request) rfl
      exact taken (.preparing request) rfl
    next stop =>
      split
      · exact taken (.stopping request) rfl
      exact settled.finish_request first rfl rfl (by simp [stop])
    split
    · exact taken (.stopping request) rfl
    rename_i stopped
    refine settled.finish_request first rfl rfl fun _ _ => ?_
    exact Bool.eq_false_iff.mpr fun active => stopped ⟨lifecycle.module active, active⟩
  exact settled

lemma waited : Settled device.waited := by
  unfold Device.waited
  split
  next request stopping =>
    have current : device.control.request = some request := by simp [stopping, Control.request]
    split
    · exact settled.finish_request (pending_cons current) rfl rfl (by simp)
    rename_i inactive
    split
    · refine settled.same rfl rfl ?_ id
      rw [pending_cons current]
      exact pending_cons rfl
    · exact settled.finish_request (pending_cons current) rfl rfl fun _ _ => by
        simpa using inactive
    exact settled.finish_request (pending_cons current) rfl rfl fun _ _ => by
      simpa using inactive
  exact settled

lemma prepared (lifecycle : Lifecycle device)
    (init readHeader : EspErr) : Settled (device.prepared init readHeader) := by
  unfold Device.prepared
  split
  next request preparing =>
    have current : device.control.request = some request := by simp [preparing, Control.request]
    have start := lifecycle.starts request (by simp [preparing, Control.isLoading]) current
    split
    · exact settled.finish_request (pending_cons current) rfl rfl (by simp [start])
    split
    · exact settled.finish_request (pending_cons current) rfl rfl (by simp)
    dsimp only
    split
    · exact settled.finish_request (pending_cons current) rfl rfl (by simp)
    refine settled.same rfl rfl ?_ id
    rw [pending_cons current]
    exact pending_cons rfl
  exact settled

lemma loaded (lifecycle : Lifecycle device) (load : EspErr)
    (created : Bool) : Settled (device.loaded load created) := by
  unfold Device.loaded
  split
  next request wasmLen reading =>
    have current : device.control.request = some request := by simp [reading, Control.request]
    have start := lifecycle.starts request (by simp [reading, Control.isLoading]) current
    split
    · exact settled.finish_request (pending_cons current) rfl rfl (by simp [start])
    split <;>
      exact settled.finish_request (pending_cons current) rfl rfl (by simp [start])
  exact settled

lemma command (ran : device.com = .idle → Unawaited device → Settled (run device)) :
    Settled (device.command run) :=
  Device.command_keeps (P := Settled) settled fun idle =>
    ran idle (settled.unawaited (by simp [idle]))

lemma step (lifecycle : Lifecycle device) (event : Event) : Settled (device.step event) := by
  have called : ∀ {device' : Device} {queueing continuation}, device'.done = device.done →
      device'.pending = device.pending → Unawaited device →
      Settled (device'.controlCall queueing continuation) := by
    intro device' queueing continuation done pending unawaited
    exact Unawaited.controlCall (unawaited.same done pending) _ _
  cases event with
  | push kind action answers =>
    exact settled.command fun idle unawaited => unawaited.push idle kind action answers
  | appStart | appStop => exact settled.command fun _ unawaited => called rfl rfl unawaited
  | reboot appAutoStart answers =>
    exact settled.command fun _ unawaited => called rfl rfl unawaited
  | autoStart answers =>
    simp only [Device.step]
    refine settled.command fun idle unawaited => ?_
    simp only [Device.applyAppAutoStart]
    split
    · exact called rfl rfl unawaited
    exact settled
  | resume => exact settled.resume
  | expire => exact settled.expire
  | flashDone answer => exact settled.flashDone answer
  | take => exact settled.take lifecycle
  | waited => exact settled.waited
  | prepared init readHeader => exact settled.prepared lifecycle init readHeader
  | loaded load created => exact settled.loaded lifecycle load created
  | exit => exact settled.same rfl rfl rfl (by simp [Device.step])

end Settled

end

/-! ### Starts and guests -/

lemma Lifecycle.same (lifecycle : Lifecycle device) (control : device'.control = device.control)
    (active : device'.wasmActive = device.wasmActive)
    (module : device'.currentModule = device.currentModule) : Lifecycle device' :=
  ⟨by rw [control]; exact lifecycle.starts, by rw [active, module]; exact lifecycle.module⟩

lemma Lifecycle.control (lifecycle : Lifecycle device) (idle : device'.control.isLoading = false)
    (active : device'.wasmActive = device.wasmActive)
    (module : device'.currentModule = device.currentModule) : Lifecycle device' :=
  ⟨by simp [idle], by rw [active, module]; exact lifecycle.module⟩

lemma lifecycle_restart (appAutoStart : Bool) : Lifecycle (device.restart appAutoStart) :=
  ⟨by simp [Device.restart, Control.isLoading], by simp [Device.restart]⟩

section

variable (lifecycle : Lifecycle device)
include lifecycle

namespace Lifecycle

lemma continue_ : Lifecycle (device.continue_ err continuation) := by
  cases continuation with
  | pushBegin totalLen =>
    simp only [Device.continue_, Device.persistBeginStopped]
    repeat' split
    all_goals exact lifecycle.same rfl rfl rfl
  | appStart | appStop | autoStart => exact lifecycle.same rfl rfl rfl
  | reboot appAutoStart => exact lifecycle_restart appAutoStart

lemma controlCall : Lifecycle (device.controlCall queueing continuation) := by
  unfold Device.controlCall
  split
  · exact lifecycle.continue_
  exact lifecycle.same rfl rfl rfl

lemma push (kind : PushKind) (action : Action)
    (answers : Answers) : Lifecycle (device.push kind action answers) := by
  have cancelled : Lifecycle device.cancelAppAutoStart := lifecycle.same rfl rfl rfl
  unfold Device.push
  split
  · simp only [Device.comPushBegin, Device.nativePushBegin, Device.persistBegin]
    repeat' split
    all_goals first
      | exact cancelled.controlCall
      | exact lifecycle.same rfl rfl rfl
  · simp only [Device.comPushData, Device.nativePushData, Device.persistChunk]
    repeat' split
    all_goals exact lifecycle.same rfl rfl rfl
  · simp only [Device.comPushEnd, Device.nativePushEnd, Device.persistEnd]
    repeat' split
    all_goals exact lifecycle.same rfl rfl rfl
  · simp only [Device.comPushAbort, Device.nativePushAbort, Device.persistAbort]
    repeat' split
    all_goals exact lifecycle.same rfl rfl rfl
  · simp only [Device.comConfPushBegin]
    repeat' split
    all_goals exact lifecycle.same rfl rfl rfl
  · simp only [Device.comConfPushData]
    repeat' split
    all_goals exact lifecycle.same rfl rfl rfl
  · simp only [Device.comConfPushEnd, Device.comConfPushAbort]
    repeat' split
    all_goals exact lifecycle.same rfl rfl rfl
  all_goals exact lifecycle.same rfl rfl rfl

lemma expire : Lifecycle device.expire := by
  unfold Device.expire
  split
  · refine Lifecycle.continue_ ?_
    refine ⟨fun request loading current => ?_, lifecycle.module⟩
    rw [Control.isLoading_abandon] at loading
    rw [Control.request_abandon] at current
    obtain ⟨original, source, rfl⟩ := Option.map_eq_some_iff.mp current
    exact lifecycle.starts original loading source
  exact lifecycle

lemma take : Lifecycle device.take := by
  unfold Device.take
  split
  next request rest _ _ =>
    dsimp only
    split
    next start =>
      split
      · exact lifecycle.control rfl rfl rfl
      refine ⟨fun other _ current => ?_, lifecycle.module⟩
      obtain rfl : request = other := by simpa [Control.request] using current
      exact start
    all_goals split <;> exact lifecycle.control rfl rfl rfl
  exact lifecycle

lemma waited : Lifecycle device.waited := by
  unfold Device.waited
  split
  next request _ =>
    split
    · exact lifecycle.control rfl rfl rfl
    rename_i inactive
    split
    next start =>
      refine ⟨fun other _ current => ?_, fun active => absurd active inactive⟩
      obtain rfl : request = other := by simpa [Control.request] using current
      exact start
    · exact ⟨by simp [Device.finish, Control.isLoading], fun active => absurd active inactive⟩
    exact lifecycle.control rfl rfl rfl
  exact lifecycle

lemma prepared (init readHeader : EspErr) : Lifecycle (device.prepared init readHeader) := by
  unfold Device.prepared
  split
  next request preparing =>
    split
    · exact lifecycle.control rfl rfl rfl
    split
    · exact lifecycle.control rfl rfl rfl
    dsimp only
    split
    · exact lifecycle.control rfl rfl rfl
    refine ⟨fun other _ current => lifecycle.starts other ?_ ?_, lifecycle.module⟩
    · simp [preparing, Control.isLoading]
    simpa [preparing, Control.request] using current
  exact lifecycle

lemma loaded (load : EspErr) (created : Bool) : Lifecycle (device.loaded load created) := by
  unfold Device.loaded
  split
  · split
    · exact lifecycle.control rfl rfl rfl
    split
    · exact ⟨by simp [Device.finish, Control.isLoading], fun _ => rfl⟩
    exact lifecycle.control rfl rfl rfl
  exact lifecycle

lemma step (event : Event) : Lifecycle (device.step event) := by
  have cancelled : Lifecycle device.cancelAppAutoStart := lifecycle.same rfl rfl rfl
  cases event with
  | push kind action answers =>
    simp only [Device.step]
    exact Device.command_keeps (P := Lifecycle) lifecycle fun _ =>
      lifecycle.push kind action answers
  | appStart answers =>
    simp only [Device.step]
    refine Device.command_keeps (P := Lifecycle) lifecycle fun _ => Lifecycle.controlCall ?_
    exact lifecycle.same rfl rfl rfl
  | appStop | reboot =>
    simp only [Device.step]
    exact Device.command_keeps (P := Lifecycle) lifecycle fun _ => cancelled.controlCall
  | autoStart answers =>
    simp only [Device.step]
    refine Device.command_keeps (P := Lifecycle) lifecycle fun _ => ?_
    simp only [Device.applyAppAutoStart]
    split
    · exact cancelled.controlCall
    exact lifecycle
  | resume =>
    simp only [Device.step, Device.resume]
    split
    · refine Lifecycle.continue_ ?_
      exact lifecycle.same rfl rfl rfl
    exact lifecycle
  | expire => exact lifecycle.expire
  | flashDone answer =>
    simp only [Device.step, Device.flashDone]
    repeat' split
    all_goals exact lifecycle.same rfl rfl rfl
  | take => exact lifecycle.take
  | waited => exact lifecycle.waited
  | prepared init readHeader => exact lifecycle.prepared init readHeader
  | loaded load created => exact lifecycle.loaded load created
  | exit => exact ⟨lifecycle.starts, by simp [Device.step]⟩

end Lifecycle

end

end ControlThread

end WendyLite.Core
