import WendyLite.Foundation.Ring

/-! # The stream channel over Bluetooth

`wendy_ble_l2cap.c`: one L2CAP channel carries a byte stream. The stack reports what happens
to any channel to one callback, `_l2cap_event`; the stream of the current session is one set
of globals under a mutex, written from the host task, the timer task and the task that reads
and writes.

An event is one hold of the mutex. Where a function takes it again after a call that may
fail, what it has still to do is a field of the device, and anything may come in between.
-/

namespace WendyLite.Ble

abbrev Channel := Nat

def txSduMax : Nat := 245

def txBackoffMax : Nat := 200

inductive Phase where
  | closed
  /-- The accept callback returned zero. -/
  | accepted
  | open_
  deriving DecidableEq, Repr

structure Link where
  phase : Phase := .closed
  /-- A receive buffer is parked with the stack. -/
  armed : Bool := false
  deriving DecidableEq, Repr

/-- What is guarded by `_mutex`. The ring holds two SDUs of the largest size. -/
structure Stream (mtu : Nat) where
  chan : Option Channel
  txMtu : Nat
  txStalled : Bool
  txBackoff : Bool
  txBackoffCount : Nat
  peerGone : Bool
  rxRetry : Bool
  recvReadyOwed : Bool
  ring : Ring UInt8 (2 * mtu)

/-- Where `wble_l2cap_write` is between two holds of the mutex. -/
inductive Write where
  | sending (count : Nat)
  | startingTimer
  | releasing
  deriving DecidableEq, Repr

def Write.isSending : Write → Bool
  | .sending _ => true
  | .startingTimer | .releasing => false

/-- Where `_rx_rearm_host` is after its first hold of the mutex. -/
inductive Rearm where
  | startingTimer
  | releasing
  deriving DecidableEq, Repr

structure Device (mtu : Nat) where
  stream : Stream mtu
  links : Channel → Link
  /-- `_rx_rearm_event` is in the queue of the host. -/
  rearmQueued : Bool
  timerRunning : Bool
  writing : Option Write
  rearming : Option Rearm
  /-- Ghost: the channel whose bytes the reader is given, from its connection to the end of
  the session. -/
  reading : Option Channel
  /-- Ghost: the SDUs delivered since the last connection, with their channels. -/
  received : List (Channel × List UInt8)
  /-- Ghost: the bytes returned by reads since the last connection. -/
  readOut : List UInt8

inductive Arming where
  | armed
  | noMemory
  /-- The channel has a buffer already; the new one is freed. -/
  | busy
  /-- The connection is not found, after the buffer was adopted. -/
  | notFound
  deriving DecidableEq, Repr

inductive Sending where
  | sent
  | stalled
  | busy
  | badData
  | noMemory
  | failed
  deriving DecidableEq, Repr

inductive Event where
  /-- The accept event, with whether there is a buffer and whether the connection is found. -/
  | accept (channel : Channel) (pool found : Bool)
  | connected (channel : Channel) (status : Int) (peerMtu : Option Nat)
  | disconnected (channel : Channel)
  | dataReceived (channel : Channel) (sdu : Option (List UInt8))
  | unstalled (channel : Channel)
  /-- The host runs `_rx_rearm_host`. -/
  | rearm (pool found : Bool)
  | rearmTimer (starts : Bool)
  | rearmRelease
  /-- `_tx_backoff_expired`. -/
  | timer
  | read (count : Nat)
  | write (count : Nat) (pool appends : Bool)
  | send (result : Sending)
  | writeTimer (starts : Bool)
  | writeRelease
  | endSession
  deriving DecidableEq, Repr

def Event.channel : Event → Option Channel
  | .accept channel _ _ | .connected channel _ _ | .disconnected channel
  | .dataReceived channel _ | .unstalled channel => some channel
  | _ => none

variable {mtu : Nat}

/-- `wble_l2cap_init`. -/
def boot (mtu : Nat) : Device mtu where
  stream :=
    { chan := none, txMtu := 0, txStalled := false, txBackoff := false, txBackoffCount := 0
      peerGone := false, rxRetry := false, recvReadyOwed := false
      ring :=
        { cells := List.replicate (2 * mtu) 0, head := 0, length := 0
          length_cells := List.length_replicate
          head_le := Nat.zero_le _
          length_le := Nat.zero_le _ } }
  links := fun _ => {}
  rearmQueued := false
  timerRunning := false
  writing := none
  rearming := none
  reading := none
  received := []
  readOut := []

variable (device : Device mtu)

/-- What the stack and the tasks can do in a state. The stack asks for acceptance of a new
channel, reports a connection of an accepted one, and delivers an SDU of at most the announced
size into the buffer of an open one. -/
def Device.Delivers : Event → Prop
  | .accept channel _ _ => (device.links channel).phase = .closed
  | .connected channel _ _ => (device.links channel).phase = .accepted
  | .disconnected channel | .unstalled channel => (device.links channel).phase = .open_
  | .dataReceived channel sdu => (device.links channel).phase = .open_ ∧
      ∀ bytes ∈ sdu, (device.links channel).armed = true ∧ bytes.length ≤ mtu
  | .rearm _ _ => device.rearmQueued = true
  | .rearmTimer _ => device.rearming = some .startingTimer
  | .rearmRelease => device.rearming = some .releasing
  | .timer => device.timerRunning = true
  | .read _ | .write _ _ _ | .endSession => device.writing = none
  | .send _ => device.writing.any Write.isSending = true
  | .writeTimer _ => device.writing = some .startingTimer
  | .writeRelease => device.writing = some .releasing

instance (device : Device mtu) (event : Event) : Decidable (device.Delivers event) := by
  cases event <;> unfold Device.Delivers <;> infer_instance

variable (channel : Channel)

namespace Device

def setLink (link : Link) : Device mtu :=
  { device with links := fun other => if other = channel then link else device.links other }

def armRecv (pool found : Bool) :
    Arming × Device mtu :=
  if ¬ pool then (.noMemory, device)
  else if (device.links channel).armed then (.busy, device)
  else
    (if found then .armed else .notFound,
      device.setLink channel { device.links channel with armed := true })

/-- The accept event. A channel that is refused is closed again. -/
def accept (pool found : Bool) : Device mtu :=
  if device.stream.chan.isSome then device.setLink channel {}
  else
    let arming := device.armRecv channel pool found
    if arming.1 = .armed then arming.2.setLink channel { phase := .accepted, armed := true }
    else arming.2.setLink channel {}

def connected (status : Int)
    (peerMtu : Option Nat) : Device mtu :=
  if status ≠ 0 then device.setLink channel {}
  else
    { device.setLink channel { device.links channel with phase := .open_ } with
      stream :=
        { chan := some channel
          txMtu := (peerMtu.map (min · mtu)).getD mtu
          txStalled := false, txBackoff := false, txBackoffCount := 0, peerGone := false
          recvReadyOwed := false, rxRetry := false
          ring := device.stream.ring.clear }
      reading := some channel
      received := []
      readOut := [] }

def disconnected : Device mtu :=
  { device.setLink channel {} with
    stream :=
      { device.stream with
        chan := none, recvReadyOwed := false, rxRetry := false, peerGone := true } }

def dataReceived :
    Option (List UInt8) → Device mtu
  | none => device
  | some sdu =>
    let ring := device.stream.ring.append sdu
    { device.setLink channel { device.links channel with armed := false } with
      stream := { device.stream with ring, recvReadyOwed := true }
      rearmQueued := device.rearmQueued || decide (mtu ≤ ring.free)
      received := device.received ++ [(channel, sdu)] }

/-- `_rx_rearm_host` up to the release of the mutex. -/
def rearmHost (pool found : Bool) : Device mtu :=
  match device.stream.chan with
  | none => { device with rearmQueued := false }
  | some channel =>
    if ¬ device.stream.recvReadyOwed ∨ device.stream.rxRetry ∨ device.stream.ring.free < mtu then
      { device with rearmQueued := false }
    else
      let arming := device.armRecv channel pool found
      let retry := arming.1 = .noMemory ∨ arming.1 = .notFound
      { arming.2 with
        stream := { device.stream with recvReadyOwed := retry, rxRetry := retry }
        rearmQueued := false
        rearming := if retry then some .startingTimer else device.rearming }

end Device

variable (starts : Bool)

/-- `esp_timer_start_once`, and whether it failed for another reason than that the timer runs
already. -/
def Device.startTimer : Bool × Device mtu :=
  if device.timerRunning then (false, device)
  else if starts then (false, { device with timerRunning := true })
  else (true, device)

def Device.rearmTimer : Device mtu :=
  let started := device.startTimer starts
  { started.2 with rearming := if started.1 then some .releasing else none }

def Device.txBackoffExpired : Device mtu :=
  { device with
    stream := { device.stream with txBackoff := false, rxRetry := false }
    rearmQueued := true
    timerRunning := false }

inductive ReadResult where
  | bytes (data : List UInt8)
  /-- The channel is closed and everything has been read. -/
  | ended
  | wantRead
  deriving DecidableEq, Repr

namespace Device

/-- `wble_l2cap_read`. -/
def read (count : Nat) : ReadResult × Device mtu :=
  if count = 0 then (.bytes [], device)
  else
    let taken := device.stream.ring.take count
    let rearm := device.stream.recvReadyOwed && !device.stream.rxRetry &&
      decide (mtu ≤ taken.2.free) && device.stream.chan.isSome
    (if taken.1 ≠ [] then .bytes taken.1
      else if device.stream.peerGone then .ended else .wantRead,
      { device with
        stream := { device.stream with ring := taken.2 }
        rearmQueued := device.rearmQueued || rearm
        readOut := device.readOut ++ taken.1 })

def write (count : Nat) (pool appends : Bool) : Device mtu :=
  if count = 0 ∨ device.stream.chan = none ∨ device.stream.txStalled ∨ device.stream.txBackoff ∨
      ¬ pool ∨ ¬ appends then device
  else
    { device with writing := some (.sending (min count (min device.stream.txMtu txSduMax))) }

/-- The rest of `wble_l2cap_write`, up to the start of the timer when the host has no
memory. -/
def send : Sending → Device mtu
  | .sent =>
    { device with stream := { device.stream with txBackoffCount := 0 }, writing := none }
  | .stalled =>
    { device with
      stream := { device.stream with txStalled := true, txBackoffCount := 0 }
      writing := none }
  | .busy => { device with stream := { device.stream with txStalled := true }, writing := none }
  | .noMemory =>
    let count := device.stream.txBackoffCount + 1
    let arm := count < txBackoffMax ∧ device.stream.txBackoff = false
    { device with
      stream :=
        { device.stream with
          txBackoffCount := count
          txBackoff := device.stream.txBackoff || decide arm }
      writing := if arm then some .startingTimer else none }
  | .badData | .failed => { device with writing := none }

def writeTimer : Device mtu :=
  let started := device.startTimer starts
  { started.2 with writing := if started.1 then some .releasing else none }

/-- `wble_l2cap_end_session`. The stack closes the channel later. -/
def endSession : Device mtu :=
  { device with
    stream :=
      { device.stream with
        chan := none, peerGone := false, txStalled := false, txBackoff := false
        txBackoffCount := 0, recvReadyOwed := false, rxRetry := false
        ring := device.stream.ring.clear }
    reading := none }

def effect : Event → Device mtu
  | .accept channel pool found => device.accept channel pool found
  | .connected channel status peerMtu => device.connected channel status peerMtu
  | .disconnected channel => device.disconnected channel
  | .dataReceived channel sdu => device.dataReceived channel sdu
  | .unstalled _ => { device with stream := { device.stream with txStalled := false } }
  | .rearm pool found => device.rearmHost pool found
  | .rearmTimer starts => device.rearmTimer starts
  | .rearmRelease =>
    { device with stream := { device.stream with rxRetry := false }, rearming := none }
  | .timer => device.txBackoffExpired
  | .read count => (device.read count).2
  | .write count pool appends => device.write count pool appends
  | .send result => device.send result
  | .writeTimer starts => device.writeTimer starts
  | .writeRelease =>
    { device with stream := { device.stream with txBackoff := false }, writing := none }
  | .endSession => device.endSession

/-- An event that cannot happen in the state does nothing. -/
def step (event : Event) : Device mtu :=
  if device.Delivers event then device.effect event else device

def run (events : List Event) : Device mtu :=
  events.foldl Device.step device

/-- The bytes of the SDUs that came in on a channel since the last connection. -/
def receivedOn : List UInt8 :=
  ((device.received.filter (·.1 = channel)).map Prod.snd).flatten

end Device

end WendyLite.Ble
