import WendyLite.Ble.L2cap

/-! # Transmit flow control

`wble_l2cap_write` calls the stack without the mutex and notes only afterwards that the
channel is stalled. The stack answers from its own task, so its answer and what the write
makes of it are two steps, and the `TX_UNSTALLED` event can come in between.
-/

namespace WendyLite.Ble

structure Transmitter (mtu : Nat) where
  device : Device mtu
  channel : Channel
  /-- The stack holds an SDU that waits for credits, and will report `TX_UNSTALLED`. -/
  owed : Bool := false
  /-- What `ble_l2cap_send` returned to the write, which has not taken the mutex yet. -/
  answer : Option Sending := none
  sdu : List UInt8 := []
  /-- Ghost: the bytes that the stack took. -/
  handed : List UInt8 := []
  /-- Ghost: the bytes that writes reported. -/
  written : List UInt8 := []

inductive TransmitEvent where
  | write (data : List UInt8) (pool appends : Bool)
  /-- The stack answers the send. -/
  | answer (result : Sending)
  /-- The write takes the mutex. -/
  | settle
  | writeTimer (starts : Bool)
  | writeRelease
  | unstalled
  | timer

def Sending.taken (result : Sending) : Bool := result = .sent ∨ result = .stalled

def Sending.stalls (result : Sending) : Bool := result = .stalled ∨ result = .busy

namespace Transmitter

variable {mtu : Nat}

def connected (mtu : Nat) (channel : Channel) (peerMtu : Option Nat) (running : Bool) :
    Transmitter mtu :=
  { device := { (boot mtu).connected channel 0 peerMtu with timerRunning := running }
    channel := channel }

variable (t : Transmitter mtu)

def answers (result : Sending) : Transmitter mtu :=
  if t.device.writing.any Write.isSending ∧ t.answer = none ∧ (result = .busy → t.owed) then
    { t with
      answer := some result
      owed := t.owed || result = .stalled
      handed := if result.taken then t.handed ++ t.sdu else t.handed }
  else t

def step : TransmitEvent → Transmitter mtu
  | .write data pool appends =>
    if t.device.writing = none then
      { t with
        device := t.device.write data.length pool appends
        sdu := data.take (min t.device.stream.txMtu txSduMax) }
    else t
  | .answer result => t.answers result
  | .settle =>
    match t.answer with
    | some result =>
      { t with
        device := t.device.send result
        answer := none
        written := if result.taken then t.written ++ t.sdu else t.written }
    | none => t
  | .writeTimer starts => { t with device := t.device.step (.writeTimer starts) }
  | .writeRelease => { t with device := t.device.step .writeRelease }
  | .unstalled =>
    if t.owed then
      { t with device := t.device.effect (.unstalled t.channel), owed := false }
    else t
  | .timer => { t with device := t.device.step .timer }

def run (events : List TransmitEvent) : Transmitter mtu := events.foldl step t

/-- `TX_UNSTALLED` does not come between the answer of the stack and the note of it. -/
def Timely (event : TransmitEvent) : Prop :=
  event = .unstalled → t.answer.all (!·.stalls) = true

def TimelyRun : Transmitter mtu → List TransmitEvent → Prop
  | _, [] => True
  | t, event :: events => t.Timely event ∧ TimelyRun (t.step event) events

/-- The hold-off ends: the timer is armed, or the write is about to arm it or to end it. -/
def Released : Prop :=
  t.device.stream.txBackoff = true → t.device.timerRunning = true ∨
    t.device.writing = some .startingTimer ∨ t.device.writing = some .releasing

end Transmitter

variable {mtu : Nat} {t : Transmitter mtu}

open Transmitter

/-- The write at its send is the only one that hands over bytes and starts a hold-off. -/
structure Flowing (t : Transmitter mtu) : Prop where
  sending : t.answer.isSome = true → t.device.writing.any Write.isSending = true
  clear : t.device.writing.any Write.isSending = true → t.device.stream.txBackoff = false
  released : t.Released
  handed : t.handed = t.written ++ if t.answer.any Sending.taken then t.sdu else []

lemma Flowing.answer_eq_none (flowing : Flowing t)
    (other : t.device.writing.any Write.isSending = false) : t.answer = none := by
  rw [← Option.not_isSome_iff_eq_none]
  intro waits
  rw [flowing.sending waits] at other
  cases other

lemma Flowing.moved (flowing : Flowing t) {device : Device mtu} {owed : Bool}
    (sending : t.answer.isSome = true → device.writing.any Write.isSending = true)
    (clear : device.writing.any Write.isSending = true → device.stream.txBackoff = false)
    (released : Released { t with device := device, owed := owed }) :
    Flowing { t with device := device, owed := owed } :=
  ⟨sending, clear, released, flowing.handed⟩

lemma Flowing.write (flowing : Flowing t) (idle : t.device.writing = none)
    (data : List UInt8) (pool appends : Bool) :
    Flowing (t.step (.write data pool appends)) := by
  have waits : t.answer = none := flowing.answer_eq_none (by rw [idle]; rfl)
  have handed := flowing.handed
  rw [waits] at handed
  simp only [Transmitter.step, if_pos idle, Device.write]
  split
  · exact ⟨flowing.sending, flowing.clear, flowing.released, by rw [waits]; exact handed⟩
  next allowed =>
  simp only [not_or] at allowed
  have clear : t.device.stream.txBackoff = false := by simpa using allowed.2.2.2.1
  exact ⟨fun _ => rfl, fun _ => clear, fun held => absurd (clear.symm.trans held) nofun,
    by rw [waits]; exact handed⟩

lemma Flowing.settle (flowing : Flowing t) (waits : t.answer = some result) :
    Flowing (t.step .settle) := by
  have clear := flowing.clear (flowing.sending (by rw [waits]; rfl))
  have handed := flowing.handed
  rw [waits, Option.any_some] at handed
  simp only [Transmitter.step, waits]
  refine ⟨nofun, ?_, ?_, ?_⟩
  · cases result <;> simp [Device.send]
    split <;> simp [Write.isSending]
  · cases result <;> simp [Released, Device.send, clear]
    intro arms
    simp [arms]
  simp only [Option.any_none, Bool.false_eq_true, if_false, List.append_nil]
  rw [handed]
  split
  · rfl
  exact List.append_nil _

lemma Flowing.step (flowing : Flowing t) (event : TransmitEvent) : Flowing (t.step event) := by
  cases event with
  | write data pool appends =>
    by_cases idle : t.device.writing = none
    · exact flowing.write idle data pool appends
    simpa only [Transmitter.step, if_neg idle] using flowing
  | answer result =>
    simp only [Transmitter.step, answers]
    split
    · next allowed =>
      have handed := flowing.handed
      rw [allowed.2.1] at handed
      refine ⟨fun _ => allowed.1, flowing.clear, flowing.released, ?_⟩
      simp only [Option.any_some]
      rw [handed]
      split <;> simp
    exact flowing
  | settle =>
    cases waits : t.answer with
    | some result => exact flowing.settle waits
    | none => simpa only [Transmitter.step, waits] using flowing
  | writeTimer starts =>
    simp only [Transmitter.step, Device.step]
    split
    · next starting =>
      change t.device.writing = some .startingTimer at starting
      have waits := flowing.answer_eq_none (by rw [starting]; rfl)
      refine flowing.moved (by simp [waits]) ?_ ?_
      · simp only [Device.effect, Device.writeTimer]
        split <;> simp [Write.isSending]
      simp only [Released, Device.effect, Device.writeTimer, Device.startTimer]
      split
      · next running => exact fun _ => .inl running
      split
      · exact fun _ => .inl rfl
      exact fun _ => .inr (.inr rfl)
    exact flowing
  | writeRelease =>
    simp only [Transmitter.step, Device.step]
    split
    · next releasing =>
      change t.device.writing = some .releasing at releasing
      have waits := flowing.answer_eq_none (by rw [releasing]; rfl)
      exact flowing.moved (by simp [waits]) (fun _ => rfl) nofun
    exact flowing
  | unstalled =>
    simp only [Transmitter.step]
    split
    · exact flowing.moved flowing.sending flowing.clear flowing.released
    exact flowing
  | timer =>
    simp only [Transmitter.step, Device.step]
    split
    · exact flowing.moved flowing.sending (fun _ => rfl) nofun
    exact flowing

/-- A channel is marked as stalled, or will be, only while the stack owes the event. -/
structure Owing (t : Transmitter mtu) : Prop where
  stalled : t.device.stream.txStalled = true → t.owed = true
  answered : t.answer.any Sending.stalls = true → t.owed = true

lemma Owing.step (owing : Owing t) (timely : t.Timely event) :
    Owing (t.step event) := by
  cases event with
  | write data pool appends =>
    simp only [Transmitter.step, Device.write]
    split
    · split
      all_goals exact ⟨owing.stalled, owing.answered⟩
    exact owing
  | answer result =>
    simp only [Transmitter.step, answers]
    split
    · next allowed =>
      refine ⟨fun stalled => by simp [owing.stalled stalled], fun stalls => ?_⟩
      cases result <;> simp_all [Sending.stalls]
    exact owing
  | settle =>
    cases waits : t.answer with
    | none => simpa only [Transmitter.step, waits] using owing
    | some result =>
      have stalled := owing.stalled
      have answered := owing.answered
      rw [waits] at answered
      simp only [Transmitter.step, waits]
      refine ⟨?_, nofun⟩
      cases result <;> simp_all [Device.send, Sending.stalls]
  | writeTimer starts =>
    refine ⟨fun stalled => owing.stalled ?_, owing.answered⟩
    simp only [Transmitter.step, Device.step, Device.effect, Device.writeTimer,
      Device.startTimer] at stalled
    split at stalled
    · split at stalled
      · exact stalled
      split at stalled <;> exact stalled
    exact stalled
  | writeRelease | timer =>
    simp only [Transmitter.step, Device.step]
    split
    · exact ⟨owing.stalled, owing.answered⟩
    exact owing
  | unstalled =>
    simp only [Transmitter.step]
    split
    · refine ⟨nofun, fun stalls => ?_⟩
      have quiet := timely rfl
      cases waits : t.answer <;> simp_all
    exact owing

lemma Flowing.run (flowing : Flowing t) (events : List TransmitEvent) :
    Flowing (t.run events) := by
  induction events generalizing t with
  | nil => exact flowing
  | cons event rest ih => exact ih (flowing.step event)

lemma Owing.run (owing : Owing t) (timely : TimelyRun t events) : Owing (t.run events) := by
  induction events generalizing t with
  | nil => exact owing
  | cons event rest ih => exact ih (owing.step timely.1) timely.2

end WendyLite.Ble
