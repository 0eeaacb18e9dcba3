import WendyLite.Console.Client

/-! # What the client can do by itself

Whether the read loop can be held up for good, and what `Close` and an abrupt `detach` need.
-/

namespace WendyLite.Console

def Step.IsLocal : Step → Prop
  | .message _ | .lose | .close => False
  | _ => True

namespace Client

section

variable (s : Client)

/-- The call waits for the mutex, or for a response that only the read loop brings. -/
def CallBlocked (n : Nat) : Prop := match (s.call n).phase with
  | .subscribing | .leaving _ => s.locked = true
  | .waiting => (s.channel (.call n)).buffer = [] ∧ (s.channel (.call n)).closed = false ∧
      (s.call n).deadline = false
  | .idle | .sending | .returned _ => False

/-- No goroutine that could take from the channel of the waiter, or remove it, can go on:
of an attachment the forwarder, and before there is one the caller of `ConsoleAttach`. -/
def Blocked : Waiter → Prop
  | .call n => s.CallBlocked n
  | .console n => ((s.console n).forwarder = .idle ∨ (s.console n).forwarder = .ended) ∧
      ∀ call, (s.console n).attach = .attaching call → s.CallBlocked call

def Wedged : Prop := ∃ w m, s.readLoop = .handing w m ∧
  w.capacity ≤ (s.channel w).buffer.length ∧ s.Blocked w

lemma run_append (steps more : List Step) : s.run (steps ++ more) = (s.run steps).run more :=
  List.foldl_append

lemma run_cons (e : Step) (rest : List Step) : s.run (e :: rest) = (s.step e).run rest := rfl

end

variable {s : Client} {n : Nat}

/-- Under a considerate device only an attachment with a forwarder at work is full. -/
lemma forwards_of_full (sound : s.Sound True) (handing : s.readLoop = .handing w m)
    (full : w.capacity ≤ (s.channel w).buffer.length) :
    ∃ n, w = .console n ∧
      ((s.console n).forwarder = .reading ∨ (s.console n).forwarder = .offering) := by
  obtain ⟨mem, room⟩ := sound.held w m handing
  have counted := (sound.counted w).1
  have drained : s.Drained w = true := (room trivial).resolve_right (by omega)
  cases w with
  | call => simp [Drained] at drained
  | console n =>
    obtain ⟨started, reached, ended, -⟩ := sound.attachments n
    refine ⟨n, rfl, ?_⟩
    cases state : (s.console n).forwarder <;> simp_all [Drained]

/-- The mutex is free after a few steps, which change nothing but a forwarder. -/
lemma unlocks (sound : s.Sound True) : ∃ more, (∀ e ∈ more, e.IsLocal) ∧
    (s.run more).locked = false ∧ (s.run more).closing = s.closing ∧
    ∀ n, ((s.run more).console n).renewer = (s.console n).renewer ∧
      ((s.run more).console n).detach = (s.console n).detach := by
  cases loop : s.readLoop with
  | receiving | ended =>
    exact ⟨[], by simp, by simp [run, locked, loop], rfl, fun _ => ⟨rfl, rfl⟩⟩
  | handing w m =>
    by_cases room : (s.channel w).buffer.length < w.capacity
    · refine ⟨[.hand], by simp [Step.IsLocal], ?_⟩
      simp [run, step, hand, loop, room, locked]
    obtain ⟨n, rfl, state⟩ := forwards_of_full sound loop (by omega)
    have full := (sound.counted (.console n)).2
    cases buffer : (s.channel (.console n)).buffer with
    | nil => simp [buffer, Waiter.capacity] at room
    | cons head tail =>
      have short : tail.length < 16 := by
        simp only [buffer, Waiter.capacity, List.length_cons] at full
        omega
      -- A chunk that is on offer is taken first.
      refine ⟨[.consume n, .forward n, .hand], by simp [Step.IsLocal], ?_⟩
      obtain state | state := state
      all_goals
        simp [run, step, forward, take, become, hand, loop, state, buffer, locked,
          Waiter.capacity, short]
        intro k
        by_cases same : k = n <;> simp [same]

def Stuck (s : Client) (n : Nat) : Prop := (∃ m, s.readLoop = .handing (.call n) m) ∧
  1 ≤ (s.channel (.call n)).buffer.length ∧ (∃ ok, (s.call n).phase = .leaving ok) ∧
  s.closing ≠ .returned

lemma stuck_step (stuck : s.Stuck n) (e : Step) : (s.step e).Stuck n := by
  obtain ⟨⟨m, loop⟩, full, ⟨ok, leaving⟩, waiting⟩ := stuck
  have taken : s.locked = true := by simp [locked, loop]
  cases e <;> simp only [step, sendCommand, consoleAttach, forward, renewer, detach, hand, enter,
    start, setCall, become, take, taken, loop, Stuck]
  all_goals repeat' split
  all_goals grind [Function.update_apply, isIdle, Waiter.capacity]

/-- A call is answered, its deadline passes, and it is answered once more. -/
def answeredTwice : List Step := [.start 0 true, .call 0 true, .call 0 true,
  .message (.response 1 true), .hand, .call 0 true, .message (.response 1 true)]

lemma returned_stays (sound : s.Sound False) (e : Step)
    (returned : (s.console n).detach = .returned) :
    ((s.step e).console n).detach = .returned := by
  have early := (sound.attachments n).early
  cases e <;> simp only [step, sendCommand, consoleAttach, forward, renewer, detach, dispatch,
    hand, enter, start, setCall, become, subscribe, take, failAll]
  all_goals repeat' split
  all_goals grind [Function.update_apply, unsubscribe_console]

lemma renewer_gone (sound : s.Sound False) (returned : (s.console n).detach = .returned)
    (more : List Step) : ((s.run more).console n).renewer = .none ∨
      ((s.run more).console n).renewer = .exited := by
  induction more generalizing s with
  | nil => exact (sound.attachments n).joined (.inr (.inl returned))
  | cons e rest ih => exact ih (sound.step False.elim) (returned_stays sound e returned)

lemma considerate_of_isLocal (h : ∀ e ∈ more, e.IsLocal) :
    Considerate s more := by
  induction more generalizing s with
  | nil => trivial
  | cons e rest ih =>
    obtain ⟨first, others⟩ := List.forall_mem_cons.1 h
    exact ⟨by cases e <;> trivial, ih others⟩

/-- After `detach` has closed `done` the forwarder reads the closed channel to its end. -/
lemma drains (done : (s.console n).done = true)
    (closed : (s.channel (.console n)).closed = true)
    (running : (s.console n).forwarder ≠ .idle) : ∃ more, (∀ e ∈ more, e.IsLocal) ∧
      (s.run more).console n = { s.console n with forwarder := .ended } := by
  -- Each step of the forwarder takes a message or gives up the one it offers.
  induction left : 2 * (s.channel (.console n)).buffer.length +
      (if (s.console n).forwarder = .offering then 1 else 0) using Nat.strongRecOn
      generalizing s with
  | ind k ih =>
    by_cases ended : (s.console n).forwarder = .ended
    · exact ⟨[], by simp, by simp [run, ← ended]⟩
    by_cases last : (s.channel (.console n)).buffer = [] ∧ (s.console n).forwarder = .reading
    · refine ⟨[.forward n], by simp [Step.IsLocal], ?_⟩
      simp [run, step, forward, become, last, closed]
    obtain ⟨f, next, closed, moved, less⟩ : ∃ f, (s.step (.forward n)).console n =
        { s.console n with forwarder := f } ∧
        ((s.step (.forward n)).channel (.console n)).closed = true ∧ f ≠ .idle ∧
        2 * ((s.step (.forward n)).channel (.console n)).buffer.length +
          (if f = .offering then 1 else 0) < k := by
      subst left
      cases state : (s.console n).forwarder <;>
        cases buffer : (s.channel (.console n)).buffer <;>
          simp_all [step, forward, become, take]
      omega
    obtain ⟨more, isLocal, drained⟩ := ih _ less (s := s.step (.forward n))
      (by rw [next, done]) closed (by rwa [next]) (by rw [next])
    refine ⟨.forward n :: more, by simpa [Step.IsLocal] using isLocal, ?_⟩
    rw [run_cons, drained, next]

/-- An abrupt detach from its `unsubscribe` on, when the mutex is free. -/
lemma joins (sound : s.Sound True) (free : s.locked = false)
    (unsubscribing : (s.console n).detach = .unsubscribing true)
    (settled : ∀ call, (s.console n).renewer ≠ .renewing call) :
    ∃ more, (∀ e ∈ more, e.IsLocal) ∧ ((s.run more).console n).detach = .returned := by
  have a := sound.attachments n
  have attached : (s.console n).attach = .attached := by
    by_contra other
    simp [(a.early other).2] at unsubscribing
  have next : s.step (.detaching n 0) = (s.unsubscribe (.console n)).become n
      { s.console n with detach := .joining true } := by
    simp [step, detach, unsubscribing, free]
  have closed : ((s.step (.detaching n 0)).channel (.console n)).closed = true := by
    have := a.reached (.inl attached)
    simp only [next, become, unsubscribe]
    split <;> simp_all
  obtain ⟨more, isLocal, drained⟩ := drains (n := n) (s := s.step (.detaching n 0))
    (by simp [next, become, a.noticed, unsubscribing]) closed
    (by simpa [next, become] using a.started.2 attached)
  refine ⟨.detaching n 0 :: (more ++ [.renewer n, .detaching n 0, .detaching n 0]), ?_, ?_⟩
  · simpa [Step.IsLocal, or_imp, forall_and] using isLocal
  rw [run_cons, run_append]
  generalize (s.step (.detaching n 0)).run more = t at *
  simp only [next, become, Function.update_self] at drained
  cases state : (s.console n).renewer <;> simp_all [run, step, renewer, detach, become]

def leased : List Step :=
  [.attach 0 true, .attaching 0 0, .call 0 true, .call 0 true, .message (.response 1 true), .hand,
    .call 0 false, .call 0 false, .attaching 0 0]

/-- The renewer waits for a response, and `detach` for the renewer. -/
structure Awaits (s : Client) (n call : Nat) : Prop where
  attached : (s.console n).attach = .attached
  detach : (s.console n).detach = .unsubscribing true ∨ (s.console n).detach = .joining true
  renewer : (s.console n).renewer = .renewing call
  phase : (s.call call).phase = .waiting
  deadline : (s.call call).deadline = false
  buffer : (s.channel (.call call)).buffer = []
  closed : (s.channel (.call call)).closed = false
  loop : s.readLoop = .receiving

lemma awaits_step {call : Nat} (awaits : s.Awaits n call) {e : Step} (isLocal : e.IsLocal) :
    (s.step e).Awaits n call := by
  obtain ⟨attached, unfinished, renewing, phase, deadline, buffer, closed, loop⟩ := awaits
  cases e <;> simp only [step, sendCommand, consoleAttach, forward, renewer, detach, hand, enter,
    start, setCall, become, subscribe, unsubscribe, take, Step.IsLocal] at isLocal ⊢
  all_goals repeat' split
  all_goals constructor <;> first | assumption | grind [Function.update_apply, isIdle]

end Client

end WendyLite.Console
