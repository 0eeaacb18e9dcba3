import Mathlib.Tactic.Common

/-! # The console client

`go/console/liteclient/client.go`: the read loop, the calls of `sendCommand`, the console
attachments and `Close`. A step is one goroutine going on to the next place where it can
wait. Only `dispatch` can wait while it holds the client mutex, so the mutex is taken exactly
while the read loop hands a message over. A step that has to wait leaves the client as it is.
-/

namespace WendyLite.Console

open Function

inductive Io where
  | standardInput
  | standardOutput
  | standardError
  deriving DecidableEq

inductive Message where
  | response (requestId : UInt32) (ok : Bool)
  | console (eventId : UInt32) (io : Io)
  | sensorData
  | other
  deriving DecidableEq

inductive Waiter where
  | call (n : Nat)
  | console (n : Nat)
  deriving DecidableEq

def Waiter.capacity : Waiter → Nat
  | .call _ => 1
  | .console _ => 16

/-- `handed` is a ghost: the messages the read loop has put in. -/
structure Channel where
  buffer : List Message := []
  closed : Bool := false
  handed : Nat := 0

inductive Phase where
  | idle
  | subscribing
  | sending
  | waiting
  /-- In the deferred `unsubscribe`. -/
  | leaving (ok : Bool)
  | returned (ok : Bool)
  deriving DecidableEq

structure Call where
  requestId : UInt32 := 0
  deadline : Bool := false
  phase : Phase := .idle

inductive Attach where
  | idle
  | subscribing
  | attaching (call : Nat)
  /-- In `unsubscribe` after the device refused. -/
  | refused
  | failed
  | attached
  deriving DecidableEq

inductive Forwarder where
  | idle
  | reading
  | offering
  | ended
  deriving DecidableEq

inductive Renewer where
  | none
  | waiting
  | renewing (call : Nat)
  | exited
  deriving DecidableEq

inductive Detach where
  | none
  | unsubscribing (abrupt : Bool)
  /-- In `renewer.Wait`. -/
  | joining (abrupt : Bool)
  | sending
  | confirming (call : Nat)
  | returned
  deriving DecidableEq

structure Attachment where
  eventId : UInt32 := 0
  rolling : Bool := false
  attach : Attach := .idle
  forwarder : Forwarder := .idle
  done : Bool := false
  renewer : Renewer := .none
  detach : Detach := .none

inductive ReadLoop where
  | receiving
  | handing (w : Waiter) (m : Message)
  | ended
  deriving DecidableEq

inductive Closing where
  | none
  | waiting
  | returned
  deriving DecidableEq

structure Client where
  requestIdGen : UInt32 := 0
  eventIdGen : UInt32 := 0
  linkClosed : Bool := false
  readErr : Bool := false
  subs : List Waiter := []
  channel : Waiter → Channel := fun _ => {}
  call : Nat → Call := fun _ => {}
  console : Nat → Attachment := fun _ => {}
  readLoop : ReadLoop := .receiving
  closing : Closing := .none

inductive Step where
  /-- A caller enters `sendCommand`. -/
  | start (n : Nat) (deadline : Bool)
  /-- `choice`: the link took the command, or the deadline passes. -/
  | call (n : Nat) (choice : Bool)
  | attach (n : Nat) (rolling : Bool)
  | attaching (n call : Nat)
  | forward (n : Nat)
  /-- The consumer takes a chunk. -/
  | consume (n : Nat)
  /-- The ticker of the renewer fires. -/
  | tick (n call : Nat)
  | renewer (n : Nat)
  | detach (n : Nat) (abrupt : Bool)
  | detaching (n call : Nat)
  | message (m : Message)
  | hand
  /-- `recv` fails. -/
  | lose
  | close
  | closed

namespace Client

variable (s : Client)

def filter : Waiter → Message → Bool
  | .call n, .response requestId _ => requestId = (s.call n).requestId
  | .console n, .console eventId io => eventId = (s.console n).eventId ∧
      (io = .standardOutput ∨ io = .standardError)
  | _, _ => false

def locked : Bool := match s.readLoop with
  | .handing .. => true
  | _ => false

def subscribe (w : Waiter) : Client :=
  { s with subs := s.subs ++ [w], channel := update s.channel w {} }

def unsubscribe (w : Waiter) : Client :=
  if w ∈ s.subs then
    { s with
      subs := s.subs.filter (· ≠ w)
      channel := update s.channel w { s.channel w with closed := true } }
  else s

def failAll : Client :=
  { s with
    readErr := true
    subs := []
    channel := fun w =>
      if w ∈ s.subs then { s.channel w with closed := true } else s.channel w }

def target (m : Message) : Option Waiter := s.subs.reverse.find? (s.filter · m)

/-- Sensor data goes to its listeners, without the mutex. -/
def dispatch (m : Message) : Client :=
  if m = .sensorData then s else match s.target m with
    | some w => { s with readLoop := .handing w m }
    | none => s

def take (w : Waiter) : Client :=
  { s with
    channel := update s.channel w
      { s.channel w with buffer := (s.channel w).buffer.tail } }

def setCall (n : Nat) (call : Call) : Client := { s with call := update s.call n call }

def enter (n : Nat) (phase : Phase) : Client := s.setCall n { s.call n with phase := phase }

def become (n : Nat) (console : Attachment) : Client :=
  { s with console := update s.console n console }

def isIdle (n : Nat) : Bool := (s.call n).phase = .idle

def start (n : Nat) (deadline : Bool) : Client :=
  { s with requestIdGen := s.requestIdGen + 1 }.setCall n
    { requestId := s.requestIdGen + 1, deadline, phase := .subscribing }

def sendCommand (n : Nat) (choice : Bool) : Client :=
  match (s.call n).phase with
  | .subscribing =>
    if s.locked then s
    else if s.readErr then s.enter n (.returned false)
    else (s.subscribe (.call n)).enter n .sending
  | .sending => s.enter n (if choice then .waiting else .leaving false)
  | .waiting =>
    if choice then
      if (s.call n).deadline then s.enter n (.leaving false) else s
    else match (s.channel (.call n)).buffer with
      | m :: _ => (s.take (.call n)).enter n (.leaving (m matches .response _ true))
      | [] => if (s.channel (.call n)).closed then s.enter n (.leaving false) else s
  | .leaving ok => if s.locked then s else (s.unsubscribe (.call n)).enter n (.returned ok)
  | .idle | .returned _ => s

/-- `ConsoleAttach` up to its return. `call` is the `sendCommand` that `sendConsoleAttach`
makes, without a deadline. -/
def consoleAttach (n call : Nat) : Client :=
  match (s.console n).attach with
  | .subscribing =>
    if s.locked ∨ ¬ s.isIdle call then s
    else if s.readErr then s.become n { s.console n with attach := .failed }
    else ((s.subscribe (.console n)).start call false).become n
      { s.console n with attach := .attaching call }
  | .attaching call => match (s.call call).phase with
    | .returned true => s.become n
        { s.console n with
          attach := .attached
          forwarder := .reading
          renewer := if (s.console n).rolling then .waiting else .none }
    | .returned false => s.become n { s.console n with attach := .refused }
    | _ => s
  | .refused => if s.locked then s
      else (s.unsubscribe (.console n)).become n { s.console n with attach := .failed }
  | .idle | .failed | .attached => s

def forward (n : Nat) : Client :=
  match (s.console n).forwarder with
  | .reading => match (s.channel (.console n)).buffer with
    | _ :: _ => (s.take (.console n)).become n { s.console n with forwarder := .offering }
    | [] => if (s.channel (.console n)).closed then
        s.become n { s.console n with forwarder := .ended } else s
  | .offering => if (s.console n).done then
      s.become n { s.console n with forwarder := .reading } else s
  | .idle | .ended => s

def renewer (n : Nat) : Client :=
  match (s.console n).renewer with
  | .renewing call => match (s.call call).phase with
    | .returned _ => s.become n { s.console n with renewer := .waiting }
    | _ => s
  | .waiting => if (s.console n).forwarder = .ended then
      s.become n { s.console n with renewer := .exited } else s
  | .none | .exited => s

def detach (n call : Nat) : Client :=
  match (s.console n).detach with
  | .unsubscribing abrupt => if s.locked then s
      else (s.unsubscribe (.console n)).become n { s.console n with detach := .joining abrupt }
  | .joining abrupt =>
    if (s.console n).renewer = .none ∨ (s.console n).renewer = .exited then
      if abrupt then s.become n { s.console n with detach := .sending }
      else if s.isIdle call then
        (s.start call false).become n { s.console n with detach := .confirming call }
      else s
    else s
  | .sending => s.become n { s.console n with detach := .returned }
  | .confirming call => match (s.call call).phase with
    | .returned _ => s.become n { s.console n with detach := .returned }
    | _ => s
  | .none | .returned => s

def hand : Client :=
  match s.readLoop with
  | .handing w m => if (s.channel w).buffer.length < w.capacity then
      { s with
        readLoop := .receiving
        channel := update s.channel w
          { s.channel w with
            buffer := (s.channel w).buffer ++ [m]
            handed := (s.channel w).handed + 1 } }
      else s
  | .receiving | .ended => s

def step : Step → Client
  | .start n deadline => if s.isIdle n then s.start n deadline else s
  | .call n choice => s.sendCommand n choice
  | .attach n rolling => if (s.console n).attach = .idle then
      { s with eventIdGen := s.eventIdGen + 1 }.become n
        { eventId := s.eventIdGen + 1, rolling, attach := .subscribing } else s
  | .attaching n call => s.consoleAttach n call
  | .forward n => s.forward n
  | .consume n => if (s.console n).forwarder = .offering then
      s.become n { s.console n with forwarder := .reading } else s
  | .tick n call => if (s.console n).renewer = .waiting ∧ s.isIdle call then
      (s.start call false).become n { s.console n with renewer := .renewing call } else s
  | .renewer n => s.renewer n
  | .detach n abrupt => if (s.console n).attach = .attached ∧ (s.console n).detach = .none then
      s.become n { s.console n with done := true, detach := .unsubscribing abrupt } else s
  | .detaching n call => s.detach n call
  | .message m => if s.readLoop = .receiving ∧ ¬ s.linkClosed then s.dispatch m else s
  | .hand => s.hand
  | .lose => if s.readLoop = .receiving then { s.failAll with readLoop := .ended } else s
  | .close => if s.closing = .none then { s with linkClosed := true, closing := .waiting } else s
  | .closed => if s.closing = .waiting ∧ s.readLoop = .ended then
      { s with closing := .returned } else s

def run (steps : List Step) : Client := steps.foldl step s

@[simp] lemma unsubscribe_console (w : Waiter) : (s.unsubscribe w).console = s.console := by
  unfold unsubscribe
  split <;> rfl

def Drained : Waiter → Bool
  | .call _ => false
  | .console n => (s.console n).forwarder ≠ .idle

/-- The device sends a waiter that nobody drains no more messages than its channel holds:
one response to a request, and 16 chunks before the attachment is confirmed. -/
def Fits : Step → Prop
  | .message m => ∀ w, s.target m = some w → s.Drained w ∨ (s.channel w).handed < w.capacity
  | _ => True

end Client

def Considerate : Client → List Step → Prop
  | _, [] => True
  | s, e :: rest => s.Fits e ∧ Considerate (s.step e) rest

/-- What holds of an attachment. Once `detach` has waited for the renewer, none runs. -/
structure Attachment.Sound (a : Attachment) (subscribed : Prop) (closed : Bool) : Prop where
  started : a.forwarder ≠ .idle ↔ a.attach = .attached
  reached : (a.attach = .attached ∨ ∃ call, a.attach = .attaching call) →
    (subscribed ↔ closed = false)
  ended : a.forwarder = .ended → closed = true
  early : a.attach ≠ .attached → a.renewer = .none ∧ a.detach = .none
  noticed : a.detach ≠ .none → a.done = true
  joined : (a.detach = .sending ∨ a.detach = .returned ∨ ∃ call, a.detach = .confirming call) →
    a.renewer = .none ∨ a.renewer = .exited

lemma Attachment.Sound.of_channel {a : Attachment} {subscribed subscribed' : Prop}
    {closed closed' : Bool} (sound : a.Sound subscribed closed)
    (reached : (subscribed ↔ closed = false) → (subscribed' ↔ closed' = false))
    (ended : a.forwarder = .ended → closed = true → closed' = true) :
    a.Sound subscribed' closed' :=
  ⟨sound.started, fun h => reached (sound.reached h), fun h => ended h (sound.ended h),
    sound.early, sound.noticed, sound.joined⟩

/-- `polite`: the device has been considerate so far. -/
structure Client.Sound (s : Client) (polite : Prop) : Prop where
  counted : ∀ w, (s.channel w).buffer.length ≤ (s.channel w).handed ∧
    (s.channel w).buffer.length ≤ w.capacity
  attachments : ∀ n, (s.console n).Sound (.console n ∈ s.subs) (s.channel (.console n)).closed
  held : ∀ w m, s.readLoop = .handing w m → w ∈ s.subs ∧
    (polite → s.Drained w ∨ (s.channel w).handed < w.capacity)

namespace Client.Sound

lemma boot (polite : Prop) : Client.Sound {} polite := by
  refine ⟨by simp, fun n => ?_, by simp⟩
  constructor <;> simp

variable {s : Client} {polite : Prop} (sound : s.Sound polite)
include sound

lemma start (n : Nat) (deadline : Bool) : (s.start n deadline).Sound polite := { sound with }

/-- An attachment that is confirmed stays so. -/
lemma become (h : a.Sound (.console n ∈ s.subs) (s.channel (.console n)).closed)
    (stays : (s.console n).attach = .attached → a.attach = .attached) :
    (s.become n a).Sound polite := by
  refine ⟨sound.counted, fun k => ?_, fun w m handing => ?_⟩
  · have := sound.attachments k
    by_cases same : k = n <;> simp_all [Client.become]
  have held := sound.held w m handing
  cases w with
  | call => exact held
  | console k =>
    have := (sound.attachments n).started
    have := h.started
    simp only [Client.become, Client.Drained, update_apply] at *
    grind

lemma take (w : Waiter) : (s.take w).Sound polite := by
  have counted := sound.counted
  refine ⟨fun v => ?_, fun n => (sound.attachments n).of_channel ?_ ?_, fun v m handing => ?_⟩
  rotate_left 3
  · have := sound.held v m handing
    by_cases same : v = w <;> cases v <;> simp_all [Client.take, Client.Drained]
  all_goals
    simp only [Client.take, update_apply]
    grind

lemma subscribe {w : Waiter}
    (fresh : ∀ n, w = .console n → (s.console n).forwarder = .idle) :
    (s.subscribe w).Sound polite := by
  have counted := sound.counted
  refine ⟨fun v => ?_, fun n => (sound.attachments n).of_channel ?_ ?_, fun v m handing => ?_⟩
  rotate_left 3
  · have := sound.held v m handing
    by_cases same : v = w <;> cases v <;>
      simp_all [Client.subscribe, Client.Drained, Waiter.capacity]
  all_goals
    simp only [Client.subscribe, update_apply]
    grind

/-- The subscription is gone from `subs` only when its channel is closed. -/
lemma unsubscribe {w : Waiter} (free : s.locked ≠ true) : (s.unsubscribe w).Sound polite := by
  have counted := sound.counted
  unfold Client.unsubscribe
  split
  · refine ⟨fun v => ?_, fun n => (sound.attachments n).of_channel ?_ ?_, ?_⟩
    all_goals
      simp only [Client.locked, update_apply] at *
      grind
  exact sound

lemma failAll : Client.Sound { s.failAll with readLoop := .ended } polite := by
  have counted := sound.counted
  refine ⟨fun v => ?_, fun n => (sound.attachments n).of_channel ?_ ?_, by simp⟩
  all_goals grind [Client.failAll]

lemma hand : s.hand.Sound polite := by
  have counted := sound.counted
  unfold Client.hand
  repeat' split
  · refine ⟨fun v => ?_, fun n => (sound.attachments n).of_channel ?_ ?_, by simp⟩
    all_goals
      simp only [update_apply]
      grind
  all_goals exact sound

lemma dispatch (fits : polite → s.Fits (.message m)) :
    (s.dispatch m).Sound polite := by
  unfold Client.dispatch
  split
  · exact sound
  split
  · rename_i w found
    refine ⟨sound.counted, sound.attachments, fun v k handing => ?_⟩
    cases handing
    exact ⟨by simpa using List.mem_of_find?_eq_some found, fun h => fits h w found⟩
  exact sound

/-- The calls play no part in it. -/
lemma sendCommand (n : Nat) (choice : Bool) : (s.sendCommand n choice).Sound polite := by
  unfold Client.sendCommand
  repeat' split
  all_goals first
    | exact { sound with }
    | exact { sound.subscribe (by simp) with }
    | exact { sound.take _ with }
    | exact { sound.unsubscribe ‹_› with }

lemma consoleAttach (n call : Nat) : (s.consoleAttach n call).Sound polite := by
  obtain ⟨started, reached, ended, early, noticed, joined⟩ := sound.attachments n
  unfold Client.consoleAttach
  repeat' split
  all_goals try first
    | exact sound
    | exact sound.become (by constructor <;> grind) (by grind)
  · have fresh := sound.subscribe (w := .console n) (by grind)
    apply (fresh.start call false).become
    · simp only [Client.start, Client.subscribe, Client.setCall, update_self]
      constructor <;> grind
    simp_all [Client.start, Client.subscribe, Client.setCall]
  apply (sound.unsubscribe ‹_›).become
  · constructor <;> grind
  simp_all

lemma forward (n : Nat) : (s.forward n).Sound polite := by
  obtain ⟨started, reached, ended, early, noticed, joined⟩ := sound.attachments n
  unfold Client.forward
  repeat' split
  all_goals try first
    | exact sound
    | exact sound.become (by constructor <;> grind) id
  apply (sound.take _).become
  · simp only [Client.take, update_self]
    constructor <;> grind
  exact id

lemma renewer (n : Nat) : (s.renewer n).Sound polite := by
  obtain ⟨started, reached, ended, early, noticed, joined⟩ := sound.attachments n
  unfold Client.renewer
  repeat' split
  all_goals first
    | exact sound
    | exact sound.become (by constructor <;> grind) id

lemma detach (n call : Nat) : (s.detach n call).Sound polite := by
  obtain ⟨started, reached, ended, early, noticed, joined⟩ := sound.attachments n
  unfold Client.detach
  repeat' split
  all_goals try first
    | exact sound
    | exact sound.become (by constructor <;> grind) id
  · have closed := (sound.unsubscribe (w := .console n) ‹_›).attachments n
    rw [unsubscribe_console] at closed
    apply (sound.unsubscribe ‹_›).become
    · exact ⟨started, closed.reached, closed.ended, by grind, by grind, by simp⟩
    simp
  apply (sound.start ..).become
  · constructor <;> grind [Client.start, Client.setCall]
  exact id

lemma step (fits : polite → s.Fits e) : (s.step e).Sound polite := by
  cases e with
  | call n choice => exact sound.sendCommand n choice
  | attaching n call => exact sound.consoleAttach n call
  | forward n => exact sound.forward n
  | renewer n => exact sound.renewer n
  | detaching n call => exact sound.detach n call
  | hand => exact sound.hand
  | attach n _ | consume n | tick n _ | detach n _ =>
    obtain ⟨started, reached, ended, early, noticed, joined⟩ := sound.attachments n
    simp only [Client.step]
    split
    · apply become
      · exact { sound with }
      · constructor <;> grind [Client.start, Client.setCall]
      grind [Client.start, Client.setCall]
    exact sound
  | start | message | lose | close | closed =>
    simp only [Client.step]
    split
    · first
      | exact sound.dispatch fits
      | exact sound.failAll
      | exact { sound with }
    exact sound

lemma run (fits : polite → Considerate s steps) :
    (s.run steps).Sound polite := by
  induction steps generalizing s with
  | nil => exact sound
  | cons e rest ih => exact ih (sound.step fun h => (fits h).1) fun h => (fits h).2

end Client.Sound

end WendyLite.Console
