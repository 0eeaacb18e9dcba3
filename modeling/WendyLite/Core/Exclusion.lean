import WendyLite.Core.Containment
import WendyLite.Core.Control

/-! # Running and uploading exclude each other

`wasm_persist_begin` stops the guest through the control thread, which carries
out requests in order, and cancels the automatic start. From then until the end
or the abort nothing may start a guest, and an aborted upload must not look like
an image. The source leaves two gaps: `com_app_start` and `com_reboot` do not ask
whether an upload is open, and the write that invalidates the size header may
fail. In every run without these the exclusion holds.
-/

namespace WendyLite.Core

open Com (Result AppType ConfPushMode PushKind Action)

def Task.isBeginning : Task → Bool
  | .erasing .. | .sizing .. => true
  | _ => false

/-- What the source leaves to its clients and its flash: no start and no reboot during
an upload, and no failure of a flash operation that concerns the size header. -/
def Separate (device : Device) : Event → Prop
  | .appStart _ | .reboot _ _ => device.com = .idle → device.persistPart = none
  | .flashDone answer =>
    device.com.isBeginning = true ∨ device.com = .zeroing → answer.err = .ok
  | _ => True

def SeparateRun (device : Device) : List Event → Prop
  | [] => True
  | event :: events => Separate device event ∧ SeparateRun (device.step event) events

instance (device : Device) (event : Event) : Decidable (Separate device event) := by
  unfold Separate
  split <;> infer_instance

instance SeparateRun.decidable : (device : Device) → (events : List Event) →
    Decidable (SeparateRun device events)
  | _, [] => isTrue trivial
  | device, event :: events =>
    have := SeparateRun.decidable (device.step event) events
    inferInstanceAs (Decidable (_ ∧ _))

/-- No guest runs and nothing is queued or under way that starts one. -/
structure Quiet (device : Device) : Prop where
  inactive : device.wasmActive = false
  stops : ∀ request ∈ device.pending, request.command ≠ .start

/-! ## Uploads and guests -/

def TaskApart (device : Device) : Task → Prop
  | .idle | .awaiting .appStop => True
  | .awaiting (.pushBegin _) | .erasing .. | .sizing .. =>
    device.persistPart = none ∧ device.appAutoStartEnabled = false
  | .awaiting .appStart | .awaiting (.reboot _) | .awaiting .autoStart =>
    device.persistPart = none
  | .writing .. | .zeroing => device.persistPart.isSome = true

structure Apart (device : Device) : Prop where
  quiet : device.persistPart.isSome = true ∨ device.com.isBeginning = true → Quiet device
  task : TaskApart device device.com
  cancelled : device.persistPart.isSome = true → device.appAutoStartEnabled = false
  opened : device.persistPart.isSome = true ↔ device.status = .open
  /-- An aborted upload has an invalid size header, until the next one overwrites it. -/
  header : device.status = .aborted → device.com.isBeginning = false →
    device.flash.word 0 headerSize = 0
  reading : ∀ request wasmLen, device.control = .reading request wasmLen →
    device.status ≠ .open ∧ device.status ≠ .aborted
  loads : ∀ status ∈ device.loads, status ≠ .open ∧ status ≠ .aborted

/-- The upload, the flash and the loads are the same, and no automatic start is
added. -/
structure Beside (device device' : Device) : Prop where
  persistPart : device'.persistPart = device.persistPart
  status : device'.status = device.status
  flash : device'.flash = device.flash
  loads : device'.loads = device.loads
  enabled : device'.appAutoStartEnabled = true → device.appAutoStartEnabled = true

section Uploads

variable {device device' : Device}

lemma Beside.cancelled (beside : Beside device device')
    (cancelled : device.appAutoStartEnabled = false) : device'.appAutoStartEnabled = false :=
  Bool.eq_false_iff.mpr fun now => by simp [beside.enabled now] at cancelled

lemma TaskApart.beside (apart : TaskApart device task) (beside : Beside device device') :
    TaskApart device' task := by
  unfold TaskApart at apart ⊢
  split at apart
  case h_1 | h_2 => trivial
  case h_3 | h_4 | h_5 => exact ⟨beside.persistPart.trans apart.1, beside.cancelled apart.2⟩
  case h_6 | h_7 | h_8 => exact beside.persistPart.trans apart
  case h_9 | h_10 => rw [beside.persistPart]; exact apart

lemma Quiet.same (quiet : Quiet device) (active : device'.wasmActive = device.wasmActive)
    (pending : device'.pending = device.pending) : Quiet device' :=
  ⟨active.trans quiet.inactive, by rw [pending]; exact quiet.stops⟩

section

variable (apart : Apart device)
include apart

lemma Apart.beside (beside : Beside device device') (control : device'.control = device.control)
    (quiet : device'.persistPart.isSome = true ∨ device'.com.isBeginning = true → Quiet device')
    (began : device'.com.isBeginning = false → device.com.isBeginning = false)
    (task : TaskApart device device'.com) : Apart device' where
  quiet := quiet
  task := task.beside beside
  cancelled open_ := by
    rw [beside.persistPart] at open_
    exact beside.cancelled (apart.cancelled open_)
  opened := by rw [beside.persistPart, beside.status]; exact apart.opened
  header := by
    rw [beside.status, beside.flash]
    exact fun aborted ended => apart.header aborted (began ended)
  reading := by rw [control, beside.status]; exact apart.reading
  loads := by rw [beside.loads]; exact apart.loads

lemma Apart.reply (beside : Beside device device') (control : device'.control = device.control)
    (active : device'.wasmActive = device.wasmActive) (pending : device'.pending = device.pending)
    (began : device.com.isBeginning = false) :
    Apart (device'.reply result) := by
  refine apart.beside ⟨beside.persistPart, beside.status, beside.flash, beside.loads,
    beside.enabled⟩ control ?_ (fun _ => began) trivial
  rintro (open_ | beginning)
  · refine (apart.quiet (.inl ?_)).same active pending
    rw [← beside.persistPart]
    exact open_
  simp [Device.reply, Task.isBeginning] at beginning

lemma Apart.restart (closed : device.persistPart = none)
    (began : device.com.isBeginning = false) (appAutoStart : Bool) :
    Apart (device.restart appAutoStart) where
  quiet := by simp [Device.restart, Task.isBeginning]
  task := trivial
  cancelled := by simp [Device.restart]
  opened := by simpa [Device.restart, closed] using apart.opened
  header aborted _ := apart.header aborted began
  reading := by simp [Device.restart]
  loads := apart.loads

lemma Apart.continue_ (began : device.com.isBeginning = false)
    (task : TaskApart device (.awaiting continuation))
    (stopped : continuation.command = .stopForFlash → err = .ok → Quiet device) :
    Apart (device.continue_ err continuation) := by
  have same : Beside device device := ⟨rfl, rfl, rfl, rfl, id⟩
  cases continuation with
  | pushBegin totalLen =>
    simp only [Device.continue_, Device.persistBeginStopped]
    split
    · exact apart.reply same rfl rfl rfl began
    rename_i ok
    split
    · exact apart.reply same rfl rfl rfl began
    split
    · exact apart.reply same rfl rfl rfl began
    refine apart.beside ⟨rfl, rfl, rfl, rfl, id⟩ rfl (fun _ => ?_) (by simp [Task.isBeginning])
      task
    exact (stopped rfl (not_not.mp ok)).same rfl rfl
  | appStart | appStop => exact apart.reply same rfl rfl rfl began
  | reboot appAutoStart => exact apart.restart task began appAutoStart
  | autoStart =>
    refine apart.beside ⟨rfl, rfl, rfl, rfl, id⟩ rfl ?_ (fun _ => began) trivial
    rintro (open_ | beginning)
    · exact (apart.quiet (.inl open_)).same rfl rfl
    simp [Device.continue_, Task.isBeginning] at beginning

lemma Apart.controlCall (began : device.com.isBeginning = false)
    (task : TaskApart device (.awaiting continuation)) :
    Apart (device.controlCall queueing continuation) := by
  unfold Device.controlCall
  split
  next refused => exact apart.continue_ began task fun _ ok => absurd ok refused
  refine apart.beside ⟨rfl, rfl, rfl, rfl, id⟩ rfl ?_ (fun _ => began) task
  rintro (open_ | beginning)
  · have quiet := apart.quiet (.inl open_)
    refine ⟨quiet.inactive, fun request mem => ?_⟩
    rw [pending_controlCall] at mem
    obtain earlier | new := List.mem_append.mp mem
    · exact quiet.stops request earlier
    obtain rfl := List.mem_singleton.mp new
    -- A start is only requested while no upload is open.
    have closed : continuation.command = .start → device.persistPart = none := by
      cases continuation <;> simp_all [Continuation.command, TaskApart]
    intro start
    simp [closed start] at open_
  simp [Task.isBeginning] at beginning

lemma Apart.cancelAppAutoStart : Apart device.cancelAppAutoStart := by
  refine apart.beside ⟨rfl, rfl, rfl, rfl, by simp [Device.cancelAppAutoStart]⟩ rfl ?_ id apart.task
  exact fun busy => (apart.quiet busy).same rfl rfl

/-! ### Commands -/

section

variable (idle : device.com = .idle)
include idle

/-- Commands that report at once, or change nothing the exclusion is about. -/
lemma Apart.idle_reply (beside : Beside device device')
    (control : device'.control = device.control) (active : device'.wasmActive = device.wasmActive)
    (pending : device'.pending = device.pending) :
    Apart (device'.reply result) :=
  apart.reply beside control active pending (by simp [idle, Task.isBeginning])

lemma Apart.idle_same (beside : Beside device device')
    (control : device'.control = device.control) (active : device'.wasmActive = device.wasmActive)
    (pending : device'.pending = device.pending) (com : device'.com = .idle) : Apart device' := by
  have began : device.com.isBeginning = false := by simp [idle, Task.isBeginning]
  refine apart.beside beside control ?_ (fun _ => began) (by rw [com]; trivial)
  rintro (open_ | beginning)
  · refine (apart.quiet (.inl ?_)).same active pending
    rw [← beside.persistPart]
    exact open_
  simp [com, Task.isBeginning] at beginning

lemma Apart.comPushBegin (size : Nat)
    (appType : AppType) (answers : Answers) : Apart (device.comPushBegin size appType answers) := by
  unfold Device.comPushBegin
  split
  · unfold Device.nativePushBegin
    repeat' split
    all_goals exact apart.idle_reply idle ⟨rfl, rfl, rfl, rfl, id⟩ rfl rfl rfl
  have cancelled := apart.cancelAppAutoStart
  have idle' : device.cancelAppAutoStart.com = .idle := idle
  unfold Device.persistBegin
  split
  · exact cancelled.idle_reply idle' ⟨rfl, rfl, rfl, rfl, id⟩ rfl rfl rfl
  rename_i closed
  split
  · exact cancelled.idle_reply idle' ⟨rfl, rfl, rfl, rfl, id⟩ rfl rfl rfl
  refine cancelled.controlCall (by simp [idle', Task.isBeginning]) ⟨?_, rfl⟩
  simpa using closed

lemma Apart.comPushData (offset : Nat)
    (bytes : List UInt8) (answers : Answers) : Apart (device.comPushData offset bytes answers) := by
  unfold Device.comPushData
  split
  · unfold Device.nativePushData
    split <;> exact apart.idle_reply idle ⟨rfl, rfl, rfl, rfl, id⟩ rfl rfl rfl
  have cancelled := apart.cancelAppAutoStart
  have idle' : device.cancelAppAutoStart.com = .idle := idle
  unfold Device.persistChunk
  split
  · exact cancelled.idle_reply idle' ⟨rfl, rfl, rfl, rfl, id⟩ rfl rfl rfl
  rename_i part opened
  have open_ : device.cancelAppAutoStart.persistPart.isSome = true := by rw [opened]; rfl
  refine cancelled.beside ⟨rfl, rfl, rfl, rfl, id⟩ rfl (fun _ => ?_)
    (fun _ => by simp [idle', Task.isBeginning]) open_
  exact (cancelled.quiet (.inl open_)).same rfl rfl

end

namespace Apart

lemma not_reading (lifecycle : Lifecycle device)
    (open_ : device.persistPart.isSome = true ∨ device.com.isBeginning = true) (request : Request)
    (wasmLen : Nat) : device.control ≠ .reading request wasmLen := by
  intro reading
  have current : device.control.request = some request := by simp [reading, Control.request]
  have start := lifecycle.starts request (by simp [reading, Control.isLoading]) current
  exact (apart.quiet open_).stops request (by simp [pending_cons current]) start

lemma comPushEnd (idle : device.com = .idle) (answers : Answers) :
    Apart (device.comPushEnd answers) := by
  unfold Device.comPushEnd
  split
  · simp only [Device.nativePushEnd]
    repeat' split
    all_goals exact apart.idle_reply idle ⟨rfl, rfl, rfl, rfl, id⟩ rfl rfl rfl
  unfold Device.persistEnd
  split
  · exact apart.cancelAppAutoStart.idle_reply idle ⟨rfl, rfl, rfl, rfl, id⟩ rfl rfl rfl
  exact
    { quiet := by simp [Device.reply, Task.isBeginning]
      task := trivial
      cancelled := by simp [Device.reply]
      opened := by simp [Device.reply]
      header := by simp [Device.reply]
      reading := by simp [Device.reply]
      loads := apart.loads }

lemma comPushAbort (idle : device.com = .idle) : Apart device.comPushAbort := by
  unfold Device.comPushAbort
  split
  · exact apart.idle_same idle ⟨rfl, rfl, rfl, rfl, id⟩ rfl rfl rfl idle
  unfold Device.persistAbort
  split
  · exact apart
  rename_i part opened
  have open_ : device.persistPart.isSome = true := by rw [opened]; rfl
  refine apart.beside ⟨rfl, rfl, rfl, rfl, id⟩ rfl (fun _ => ?_)
    (fun _ => by simp [idle, Task.isBeginning]) open_
  exact (apart.quiet (.inl open_)).same rfl rfl

lemma push (idle : device.com = .idle) (kind : PushKind)
    (action : Action) (answers : Answers) : Apart (device.push kind action answers) := by
  unfold Device.push
  split
  · exact apart.comPushBegin idle _ _ answers
  · exact apart.comPushData idle _ _ answers
  · exact apart.comPushEnd idle answers
  · exact apart.comPushAbort idle
  · simp only [Device.comConfPushBegin]
    repeat' split
    all_goals exact apart.idle_reply idle ⟨rfl, rfl, rfl, rfl, id⟩ rfl rfl rfl
  · simp only [Device.comConfPushData]
    repeat' split
    all_goals exact apart.idle_reply idle ⟨rfl, rfl, rfl, rfl, id⟩ rfl rfl rfl
  · simp only [Device.comConfPushEnd, Device.comConfPushAbort]
    repeat' split
    all_goals exact apart.idle_reply idle ⟨rfl, rfl, rfl, rfl, id⟩ rfl rfl rfl
  · exact apart.idle_same idle ⟨rfl, rfl, rfl, rfl, id⟩ rfl rfl rfl idle
  all_goals exact apart

/-! ### Responses and flash operations -/

lemma resume (settled : Settled device) : Apart device.resume := by
  unfold Device.resume
  split
  next continuation err waiting answered =>
    have began : device.com.isBeginning = false := by simp [waiting, Task.isBeginning]
    have task := apart.task
    rw [waiting] at task
    have taken : Apart { device with done := none } := by
      refine apart.beside ⟨rfl, rfl, rfl, rfl, id⟩ rfl ?_ id apart.task
      exact fun busy => (apart.quiet busy).same rfl rfl
    refine taken.continue_ began (task.beside ⟨rfl, rfl, rfl, rfl, id⟩) fun forFlash ok => ?_
    obtain ⟨unanswered, _⟩ | ⟨err', answered', idle, stopped⟩ := settled.waits waiting
    · simp [unanswered] at answered
    obtain rfl : err' = err := Option.some.inj (answered'.symm.trans answered)
    refine ⟨stopped forFlash ok, fun request mem => ?_⟩
    have none_ : request ∈ device.pending := mem
    simp [idle] at none_
  exact apart

lemma abandon : Apart { device with
      done := none
      control := device.control.abandon
      controlQueue := device.controlQueue.map Request.abandon } where
  quiet busy := by
    have quiet := apart.quiet busy
    refine ⟨quiet.inactive, fun request mem => ?_⟩
    rw [pending_abandon] at mem
    obtain ⟨original, earlier, rfl⟩ := List.mem_map.mp mem
    exact quiet.stops original earlier
  task := apart.task.beside ⟨rfl, rfl, rfl, rfl, id⟩
  cancelled := apart.cancelled
  opened := apart.opened
  header := apart.header
  reading request wasmLen reading := by
    cases control : device.control with
    | reading original length => exact apart.reading original length control
    | idle | stopping | preparing => simp [control, Control.abandon] at reading
  loads := apart.loads

lemma expire : Apart device.expire := by
  unfold Device.expire
  split
  next continuation waiting =>
    have task := apart.task
    rw [waiting] at task
    exact apart.abandon.continue_ (by simp [waiting, Task.isBeginning])
      (task.beside ⟨rfl, rfl, rfl, rfl, id⟩) (by simp)
  exact apart

end Apart

end

lemma littleEndian_zero : littleEndian 0 = List.replicate headerSize 0 := by decide

section

variable (apart : Apart device)
include apart

namespace Apart

lemma flashDone (lifecycle : Lifecycle device) (answer : FlashAnswer)
    (succeeds : device.com.isBeginning = true ∨ device.com = .zeroing → answer.err = .ok) :
    Apart (device.flashDone answer) := by
  have task := apart.task
  unfold Device.flashDone
  split
  · exact apart
  · exact apart
  next part totalLen erasing =>
    have ok := succeeds (.inl (by simp [erasing, Task.isBeginning]))
    have quiet := apart.quiet (.inr (by simp [erasing, Task.isBeginning]))
    rw [erasing] at task
    simp only [ok, ne_eq, not_true_eq_false, if_false]
    exact
      { apart with
        quiet := fun _ => quiet.same rfl rfl
        task := task
        header := by simp [Task.isBeginning] }
  next part totalLen sizing =>
    have began : device.com.isBeginning = true := by simp [sizing, Task.isBeginning]
    have ok := succeeds (.inl began)
    have quiet := apart.quiet (.inr began)
    rw [sizing] at task
    simp only [ok, ne_eq, not_true_eq_false, if_false]
    exact
      { quiet := fun _ => quiet.same rfl rfl
        task := trivial
        cancelled := fun _ => task.2
        opened := by simp [Device.reply]
        header := by simp [Device.reply]
        reading := fun request wasmLen reading =>
          absurd reading (apart.not_reading lifecycle (.inr began) request wasmLen)
        loads := apart.loads }
  next offset bytes writing =>
    rw [writing] at task
    have open_ : device.persistPart.isSome = true := task
    have status := apart.opened.mp open_
    exact
      { apart with
        quiet := fun _ => (apart.quiet (.inl open_)).same rfl rfl
        task := trivial
        header := by simp [Device.reply, status] }
  rename_i zeroing
  have ok := succeeds (.inr zeroing)
  rw [zeroing] at task
  have open_ : device.persistPart.isSome = true := task
  exact
    { quiet := by simp [Task.isBeginning]
      task := trivial
      cancelled := by simp
      opened := by simp
      header := fun _ _ => by
        simp only [Device.settle, ok, if_true, littleEndian_zero]
        exact Flash.word_program_zeros device.flash 0 headerSize
      reading := fun request wasmLen reading =>
        absurd reading (apart.not_reading lifecycle (.inl open_) request wasmLen)
      loads := apart.loads }

/-! ### The control thread -/

/-- A step of the control thread that starts no guest and reads nothing new. -/
lemma control (beside : Beside device device') (com : device'.com = device.com)
    (pending : ∀ request ∈ device'.pending, request ∈ device.pending)
    (active : device'.wasmActive = device.wasmActive)
    (reading : ∀ request wasmLen, device'.control ≠ .reading request wasmLen) : Apart device' where
  quiet busy := by
    rw [beside.persistPart, com] at busy
    have quiet := apart.quiet busy
    exact ⟨active.trans quiet.inactive, fun request mem =>
      quiet.stops request (pending request mem)⟩
  task := by rw [com]; exact apart.task.beside beside
  cancelled open_ := by
    rw [beside.persistPart] at open_
    exact beside.cancelled (apart.cancelled open_)
  opened := by rw [beside.persistPart, beside.status]; exact apart.opened
  header := by rw [beside.status, beside.flash, com]; exact apart.header
  reading request wasmLen now := absurd now (reading request wasmLen)
  loads := by rw [beside.loads]; exact apart.loads

lemma finish (beside : Beside device device') (com : device'.com = device.com)
    (pending : ∀ request ∈ device'.controlQueue, request ∈ device.pending)
    (active : device'.wasmActive = device.wasmActive) : Apart (device'.finish request err) := by
  refine apart.control ⟨beside.persistPart, beside.status, beside.flash, beside.loads,
    beside.enabled⟩ com ?_ active (by simp [Device.finish])
  rw [pending_idle rfl]
  exact pending

lemma take : Apart device.take := by
  unfold Device.take
  split
  next request rest idle queued =>
    have first : device.pending = request :: rest := (pending_idle idle).trans queued
    have later : ∀ other ∈ rest, other ∈ device.pending := by
      intro other mem
      simp [first, mem]
    have taken : ∀ control, control.request = some request →
        (∀ other wasmLen, control ≠ .reading other wasmLen) →
        Apart { device with controlQueue := rest, control } := by
      intro control current reading
      refine apart.control ⟨rfl, rfl, rfl, rfl, id⟩ rfl ?_ rfl reading
      rw [first, pending_cons current]
      exact fun _ => id
    dsimp only
    split
    · split
      · exact taken (.stopping request) rfl (by simp)
      exact taken (.preparing request) rfl (by simp)
    · split
      · exact taken (.stopping request) rfl (by simp)
      exact apart.finish ⟨rfl, rfl, rfl, rfl, id⟩ rfl later rfl
    split
    · exact taken (.stopping request) rfl (by simp)
    exact apart.finish ⟨rfl, rfl, rfl, rfl, id⟩ rfl later rfl
  exact apart

lemma waited : Apart device.waited := by
  unfold Device.waited
  split
  next request stopping =>
    have current : device.control.request = some request := by simp [stopping, Control.request]
    have later : ∀ other ∈ device.controlQueue, other ∈ device.pending := by
      intro other mem
      simp [pending_cons current, mem]
    split
    · exact apart.finish ⟨rfl, rfl, rfl, rfl, id⟩ rfl later rfl
    split
    · refine apart.control ⟨rfl, rfl, rfl, rfl, id⟩ rfl ?_ rfl (by simp)
      rw [pending_cons current]
      exact fun _ => id
    all_goals exact apart.finish ⟨rfl, rfl, rfl, rfl, id⟩ rfl later rfl
  exact apart

lemma loading (lifecycle : Lifecycle device) (loading : device.control.isLoading = true) :
    device.persistPart.isSome = false ∧ device.com.isBeginning = false := by
  obtain ⟨request, current⟩ : ∃ request, device.control.request = some request := by
    cases control : device.control <;> simp [control, Control.isLoading, Control.request] at *
  have start := lifecycle.starts request loading current
  have busy : ¬(device.persistPart.isSome = true ∨ device.com.isBeginning = true) := fun busy =>
    (apart.quiet busy).stops request (by simp [pending_cons current]) start
  simpa using busy

lemma prepared (lifecycle : Lifecycle device)
    (init readHeader : EspErr) : Apart (device.prepared init readHeader) := by
  unfold Device.prepared
  split
  next request preparing =>
    have current : device.control.request = some request := by simp [preparing, Control.request]
    have later : ∀ other ∈ device.controlQueue, other ∈ device.pending := by
      intro other mem
      simp [pending_cons current, mem]
    obtain ⟨closed, began⟩ := apart.loading lifecycle (by simp [preparing, Control.isLoading])
    split
    · exact apart.finish ⟨rfl, rfl, rfl, rfl, id⟩ rfl later rfl
    split
    · exact apart.finish ⟨rfl, rfl, rfl, rfl, id⟩ rfl later rfl
    dsimp only
    split
    · exact apart.finish ⟨rfl, rfl, rfl, rfl, id⟩ rfl later rfl
    rename_i accepted
    push Not at accepted
    exact
      { apart with
        quiet := by simp [closed, began]
        task := apart.task.beside ⟨rfl, rfl, rfl, rfl, id⟩
        -- The size header of an aborted upload would not have been accepted.
        reading := fun _ _ _ =>
          ⟨fun open_ => by simp [apart.opened.mpr open_] at closed,
            fun aborted => accepted.2.2.1 (apart.header aborted began)⟩ }
  exact apart

lemma loaded (lifecycle : Lifecycle device) (load : EspErr)
    (created : Bool) : Apart (device.loaded load created) := by
  unfold Device.loaded
  split
  next request wasmLen reading =>
    have current : device.control.request = some request := by simp [reading, Control.request]
    have later : ∀ other ∈ device.controlQueue, other ∈ device.pending := by
      intro other mem
      simp [pending_cons current, mem]
    obtain ⟨closed, began⟩ := apart.loading lifecycle (by simp [reading, Control.isLoading])
    split
    · exact apart.finish ⟨rfl, rfl, rfl, rfl, id⟩ rfl later rfl
    have loads : ∀ status ∈ device.loads ++ [device.status],
        status ≠ .open ∧ status ≠ .aborted := by
      intro status mem
      obtain earlier | new := List.mem_append.mp mem
      · exact apart.loads status earlier
      exact List.mem_singleton.mp new ▸ apart.reading request wasmLen reading
    split
    all_goals exact
      { apart with
        quiet := by simp [Device.finish, closed, began]
        reading := by simp [Device.finish]
        loads := loads }
  exact apart

/-! ## Runs -/

lemma step (settled : Settled device) (lifecycle : Lifecycle device)
    (separate : Separate device event) : Apart (device.step event) := by
  have began : ∀ {device' : Device}, device'.com = .idle → device'.com.isBeginning = false := by
    intro device' idle
    simp [idle, Task.isBeginning]
  have cancelled := apart.cancelAppAutoStart
  cases event with
  | push kind action answers =>
    simp only [Device.step]
    exact Device.command_keeps (P := Apart) apart fun idle => apart.push idle kind action answers
  | appStart answers =>
    simp only [Device.step]
    refine Device.command_keeps (P := Apart) apart fun idle => ?_
    have forgotten : Apart { device.cancelAppAutoStart with persistLoadPending := false } := by
      refine cancelled.beside ⟨rfl, rfl, rfl, rfl, id⟩ rfl ?_ id cancelled.task
      exact fun busy => (cancelled.quiet busy).same rfl rfl
    exact forgotten.controlCall (began idle) (separate idle)
  | appStop answers =>
    simp only [Device.step]
    exact Device.command_keeps (P := Apart) apart fun idle =>
      cancelled.controlCall (began idle) trivial
  | reboot appAutoStart answers =>
    simp only [Device.step]
    exact Device.command_keeps (P := Apart) apart fun idle =>
      cancelled.controlCall (began idle) (separate idle)
  | autoStart answers =>
    simp only [Device.step]
    refine Device.command_keeps (P := Apart) apart fun idle => ?_
    simp only [Device.applyAppAutoStart]
    split
    next enabled =>
      refine cancelled.controlCall (began idle) ?_
      -- An upload has cancelled the automatic start.
      have closed : device.persistPart.isSome = false := Bool.eq_false_iff.mpr fun open_ => by
        simp [apart.cancelled open_] at enabled
      exact Option.not_isSome_iff_eq_none.mp (by simp [Device.cancelAppAutoStart, closed])
    exact apart
  | resume => exact apart.resume settled
  | expire => exact apart.expire
  | flashDone answer => exact apart.flashDone lifecycle answer separate
  | take => exact apart.take
  | waited => exact apart.waited
  | prepared init readHeader => exact apart.prepared lifecycle init readHeader
  | loaded load created => exact apart.loaded lifecycle load created
  | exit =>
    refine apart.beside ⟨rfl, rfl, rfl, rfl, id⟩ rfl ?_ id apart.task
    exact fun busy => ⟨rfl, (apart.quiet busy).stops⟩

end Apart

end

structure Separated (device : Device) : Prop where
  settled : Settled device
  lifecycle : Lifecycle device
  apart : Apart device

lemma Separated.run (separated : Separated device) (separate : SeparateRun device events) :
    Separated (device.run events) := by
  induction events generalizing device with
  | nil => exact separated
  | cons event events ih =>
    refine ih ⟨separated.settled.step separated.lifecycle event,
      separated.lifecycle.step event,
      separated.apart.step separated.settled separated.lifecycle separate.1⟩ separate.2

lemma separated_boot (flash : Flash) (partition : Option Partition) (confMaxSize : Nat)
    (appAutoStart : Bool) : Separated (Device.boot flash partition confMaxSize appAutoStart) where
  settled := Unawaited.settled ⟨rfl, by simp [Device.boot, Device.pending, Control.request]⟩
    (by simp [Device.boot])
  lifecycle := ⟨by simp [Device.boot, Control.isLoading], by simp [Device.boot]⟩
  apart :=
    { quiet := by simp [Device.boot, Task.isBeginning]
      task := trivial
      cancelled := by simp [Device.boot]
      opened := by simp [Device.boot]
      header := by simp [Device.boot]
      reading := by simp [Device.boot]
      loads := by simp [Device.boot] }

/-- The com task is in a flash operation only while an upload is open or begins. -/
lemma Apart.flashing (apart : Apart device) (flashing : device.com.isFlashing = true) :
    device.persistPart.isSome = true ∨ device.com.isBeginning = true := by
  have task := apart.task
  cases com : device.com with
  | idle | awaiting => simp [com, Task.isFlashing] at flashing
  | erasing | sizing => exact .inr rfl
  | writing | zeroing =>
    rw [com] at task
    exact .inl task

end Uploads

/-- No guest runs and none is being loaded during a flash operation, and a module was
only ever loaded when the most recent upload was neither open nor aborted. -/
structure Excluded (device : Device) : Prop where
  inactive : device.com.isFlashing = true → device.wasmActive = false
  unloading : device.com.isFlashing = true → device.control.isLoading = false
  loads : ∀ status ∈ device.loads, status ≠ .open ∧ status ≠ .aborted

def loadEvents : List Event := [.take, .prepared .ok .ok, .loaded .ok true]

def uploadAndRun : List Event :=
  beginEvents 1 ++
    [.push .app (.data 0 [7]) {}, .flashDone {}, .push .app .finish {}, .appStart {}] ++
    loadEvents ++
    [.resume, .push .app (.beginApp 2 .wasm) {}, .take, .exit, .waited, .resume]

/-- A start during an upload, and then a chunk of the upload. -/
def startedUpload : Device :=
  freshDevice.run (beginEvents 8 ++ [.appStart {}] ++ loadEvents ++
    [.resume, .push .app (.data 0 [7]) {}])

/-- A reboot during an upload, and then the automatic start. -/
def rebootedUpload : Device :=
  freshDevice.run (beginEvents 8 ++ [.reboot true {}, .take, .resume, .autoStart {}] ++ loadEvents)

/-- An upload that is aborted, where the size header is left as it was. -/
def abortedUpload : Device :=
  freshDevice.run (beginEvents 8 ++
    [.push .app .abort {}, .flashDone { err := .fail, left := fun a => if a = 0 then 8 else 0 },
      .appStart {}] ++ loadEvents)

end WendyLite.Core
