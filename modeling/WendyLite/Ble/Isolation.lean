import Mathlib
import WendyLite.Ble.L2cap

/-! # Isolation of a session

The events of a channel other than the current one do not reach the session, and its reader
is given exactly what came in on it, as long as the callback is not told anything of another
channel that it would take for the current one: it never looks at which channel an event is
about.
-/

namespace WendyLite.Ble

variable {mtu : Nat}

/-- An event that the callback does not take for one of another channel. -/
def Orderly (device : Device mtu) : Event → Prop
  | .connected _ status _ => status = 0 → device.stream.chan = none
  | .disconnected channel => ∀ current ∈ device.stream.chan, channel = current
  | .unstalled channel => device.stream.txStalled = true →
      ∀ current ∈ device.stream.chan, channel = current
  | .dataReceived channel sdu => sdu.isSome → device.stream.chan = some channel
  | _ => True

instance (device : Device mtu) : (event : Event) → Decidable (Orderly device event)
  | .connected _ status _ => inferInstanceAs (Decidable (status = 0 → device.stream.chan = none))
  | .disconnected channel =>
    inferInstanceAs (Decidable (∀ current ∈ device.stream.chan, channel = current))
  | .unstalled channel => inferInstanceAs (Decidable (device.stream.txStalled = true →
      ∀ current ∈ device.stream.chan, channel = current))
  | .dataReceived channel sdu =>
    inferInstanceAs (Decidable (sdu.isSome → device.stream.chan = some channel))
  | .accept .. | .rearm .. | .rearmTimer .. | .rearmRelease | .timer | .read .. | .write ..
  | .send .. | .writeTimer .. | .writeRelease | .endSession => isTrue trivial

def OrderlyRun : Device mtu → List Event → Prop
  | _, [] => True
  | device, event :: events => Orderly device event ∧ OrderlyRun (device.step event) events

instance OrderlyRun.decidable : (device : Device mtu) → (events : List Event) →
    Decidable (OrderlyRun device events)
  | _, [] => isTrue trivial
  | device, event :: events =>
    have := OrderlyRun.decidable (device.step event) events
    inferInstanceAs (Decidable (Orderly device event ∧ OrderlyRun (device.step event) events))

/-- The reader is given the bytes of the current channel; a buffer is parked for it only while
a whole SDU fits; and what has been read and what waits are what came in. -/
structure Streaming (device : Device mtu) : Prop where
  reads : ∀ channel, device.stream.chan = some channel → device.reading = some channel
  room : ∀ channel, device.stream.chan = some channel →
    (device.links channel).armed = true → mtu ≤ device.stream.ring.free
  exactly : ∀ channel, device.reading = some channel →
    device.readOut ++ device.stream.ring.contents = device.receivedOn channel

structure Unmoved (before after : Device mtu) : Prop where
  chan : ∀ channel, after.stream.chan = some channel → before.stream.chan = some channel
  ring : after.stream.ring = before.stream.ring
  reading : after.reading = before.reading
  received : after.received = before.received
  readOut : after.readOut = before.readOut
  armed : ∀ channel, after.stream.chan = some channel → (after.links channel).armed = true →
    (before.links channel).armed = true ∨ mtu ≤ before.stream.ring.free

lemma Streaming.unmoved (streaming : Streaming before) (unmoved : Unmoved before after) :
    Streaming after := by
  constructor
  case reads =>
    intro channel current
    rw [unmoved.reading]
    exact streaming.reads channel (unmoved.chan channel current)
  case room =>
    intro channel current armed
    rw [unmoved.ring]
    obtain before_ | room := unmoved.armed channel current armed
    · exact streaming.room channel (unmoved.chan channel current) before_
    exact room
  case exactly =>
    intro channel reads
    rw [unmoved.reading] at reads
    rw [Device.receivedOn, unmoved.ring, unmoved.received, unmoved.readOut]
    exact streaming.exactly channel reads

lemma Unmoved.flags (chan : after.stream.chan = before.stream.chan)
    (ring : after.stream.ring = before.stream.ring) (reading : after.reading = before.reading)
    (received : after.received = before.received) (readOut : after.readOut = before.readOut)
    (links : after.links = before.links) : Unmoved before after where
  chan := fun _ current => chan.symm.trans current
  ring := ring
  reading := reading
  received := received
  readOut := readOut
  armed := fun _ _ armed => .inl (by rwa [links] at armed)

lemma Unmoved.closeLink (device : Device mtu) (channel : Channel) :
    Unmoved device (device.setLink channel {}) where
  chan := fun _ current => current
  ring := rfl
  reading := rfl
  received := rfl
  readOut := rfl
  armed := by
    intro other _ armed
    dsimp only [Device.setLink] at armed
    split at armed
    · cases armed
    exact .inl armed

lemma armRecv_snd (device : Device mtu) (channel : Channel) (pool found : Bool) :
    (device.armRecv channel pool found).2 = device ∨ (device.armRecv channel pool found).2 =
        device.setLink channel { device.links channel with armed := true } := by
  unfold Device.armRecv
  split
  · exact .inl rfl
  split
  · exact .inl rfl
  exact .inr rfl

lemma armRecv_kept (device : Device mtu) (channel : Channel) (pool found : Bool) :
    let after := (device.armRecv channel pool found).2
    after.stream = device.stream ∧ after.reading = device.reading ∧
      after.received = device.received ∧ after.readOut = device.readOut ∧
      after.writing = device.writing ∧ after.timerRunning = device.timerRunning ∧
      ∀ other ≠ channel, after.links other = device.links other := by
  intro after
  obtain same | armed := armRecv_snd device channel pool found
  · rw [show after = device from same]
    simp
  rw [show after = _ from armed]
  simp only [Device.setLink, true_and]
  intro other different
  rw [if_neg different]

lemma accept_stream (device : Device mtu) (channel : Channel) (pool found : Bool) :
    let after := device.accept channel pool found
    after.stream = device.stream ∧ after.reading = device.reading ∧
      after.received = device.received ∧ after.readOut = device.readOut := by
  intro after
  have kept := armRecv_kept device channel pool found
  dsimp only at kept
  obtain ⟨stream, reading, received, readOut, _⟩ := kept
  unfold after Device.accept
  split
  · exact ⟨rfl, rfl, rfl, rfl⟩
  dsimp only
  split
  all_goals exact ⟨stream, reading, received, readOut⟩

variable {device : Device mtu}

namespace Streaming

lemma accept (streaming : Streaming device) (channel : Channel)
    (pool found : Bool) : Streaming (device.accept channel pool found) := by
  by_cases busy : device.stream.chan.isSome
  · rw [Device.accept, if_pos busy]
    exact streaming.unmoved (.closeLink device channel)
  have kept := accept_stream device channel pool found
  dsimp only at kept
  obtain ⟨stream, reading, received, readOut⟩ := kept
  have idle : device.stream.chan = none := by simpa using busy
  apply streaming.unmoved
  constructor
  case chan =>
    intro other current
    rwa [stream] at current
  case ring => rw [stream]
  case reading => exact reading
  case received => exact received
  case readOut => exact readOut
  case armed =>
    intro other current
    rw [stream, idle] at current
    cases current

lemma connected (streaming : Streaming device)
    (channel : Channel) (status : Int) (peerMtu : Option Nat) :
    Streaming (device.connected channel status peerMtu) := by
  unfold Device.connected
  split
  · exact streaming.unmoved (.closeLink device channel)
  constructor
  case reads =>
    intro other current
    exact current
  case room =>
    intro other _ _
    change mtu ≤ device.stream.ring.clear.free
    rw [Ring.free_clear]
    omega
  case exactly =>
    intro other _
    rfl

lemma dataReceived (streaming : Streaming device) (current : device.stream.chan = some channel)
    (armed : (device.links channel).armed = true) (bounded : sdu.length ≤ mtu) :
    Streaming (device.dataReceived channel (some sdu)) := by
  have fits : sdu.length ≤ device.stream.ring.free :=
    Nat.le_trans bounded (streaming.room channel current armed)
  constructor
  case reads => exact streaming.reads
  case room =>
    intro other same
    change device.stream.chan = some other at same
    rw [current] at same
    cases same
    intro rearmed
    dsimp only [Device.dataReceived, Device.setLink] at rearmed
    rw [if_pos rfl] at rearmed
    cases rearmed
  case exactly =>
    intro other reads
    change device.reading = some other at reads
    have same := streaming.reads channel current
    rw [reads] at same
    cases same
    change device.readOut ++ (device.stream.ring.append sdu).contents =
      (((device.received ++ [(channel, sdu)]).filter (·.1 = channel)).map Prod.snd).flatten
    rw [Ring.contents_append _ _ fits, ← List.append_assoc, streaming.exactly channel reads,
      Device.receivedOn]
    simp

lemma rearmHost (streaming : Streaming device)
    (pool found : Bool) : Streaming (device.rearmHost pool found) := by
  unfold Device.rearmHost
  cases current : device.stream.chan with
  | none => exact streaming.unmoved (.flags rfl rfl rfl rfl rfl rfl)
  | some channel =>
    dsimp only
    split
    · exact streaming.unmoved (.flags rfl rfl rfl rfl rfl rfl)
    rename_i ready
    have kept := armRecv_kept device channel pool found
    dsimp only at kept
    obtain ⟨stream, reading, received, readOut, _⟩ := kept
    have room : mtu ≤ device.stream.ring.free := by
      by_contra short
      exact ready (.inr (.inr (Nat.lt_of_not_le short)))
    apply streaming.unmoved
    exact {
      chan := fun _ same => same
      ring := rfl
      reading := reading
      received := received
      readOut := readOut
      armed := fun _ _ _ => .inr room }

lemma read (streaming : Streaming device) (count : Nat) : Streaming (device.read count).2 := by
  unfold Device.read
  split
  · exact streaming
  constructor
  case reads => exact streaming.reads
  case room =>
    intro channel current armed
    exact Nat.le_trans (streaming.room channel current armed) (Ring.free_le_free_take _ _)
  case exactly =>
    intro channel reads
    change (device.readOut ++ (device.stream.ring.take count).1) ++
      (device.stream.ring.take count).2.contents = device.receivedOn channel
    rw [List.append_assoc, Ring.take_append_contents]
    exact streaming.exactly channel reads

end Streaming

lemma startTimer_snd (device : Device mtu) (starts : Bool) :
    ∃ running, (device.startTimer starts).2 = { device with timerRunning := running } := by
  unfold Device.startTimer
  split
  · exact ⟨device.timerRunning, rfl⟩
  split
  · exact ⟨true, rfl⟩
  exact ⟨device.timerRunning, rfl⟩

lemma Unmoved.rearmTimer (device : Device mtu) (starts : Bool) :
    Unmoved device (device.rearmTimer starts) := by
  obtain ⟨running, started⟩ := startTimer_snd device starts
  dsimp only [Device.rearmTimer]
  rw [started]
  exact .flags rfl rfl rfl rfl rfl rfl

lemma Unmoved.writeTimer (device : Device mtu) (starts : Bool) :
    Unmoved device (device.writeTimer starts) := by
  obtain ⟨running, started⟩ := startTimer_snd device starts
  dsimp only [Device.writeTimer]
  rw [started]
  exact .flags rfl rfl rfl rfl rfl rfl

lemma Unmoved.write (device : Device mtu) (count : Nat) (pool appends : Bool) :
    Unmoved device (device.write count pool appends) := by
  unfold Device.write
  split
  all_goals exact .flags rfl rfl rfl rfl rfl rfl

lemma Unmoved.send (device : Device mtu) (result : Sending) :
    Unmoved device (device.send result) := by
  cases result <;> exact .flags rfl rfl rfl rfl rfl rfl

lemma Unmoved.disconnected (device : Device mtu) (channel : Channel) :
    Unmoved device (device.disconnected channel) where
  chan := fun _ current => nomatch current
  ring := rfl
  reading := rfl
  received := rfl
  readOut := rfl
  armed := fun _ current => nomatch current

lemma Streaming.endSession (device : Device mtu) : Streaming device.endSession where
  reads := fun _ current => nomatch current
  room := fun _ current => nomatch current
  exactly := fun _ reads => nomatch reads

lemma Streaming.step (streaming : Streaming device) (event : Event)
    (orderly : Orderly device event) : Streaming (device.step event) := by
  unfold Device.step
  by_cases delivers : device.Delivers event
  · rw [if_pos delivers]
    cases event with
    | accept channel pool found => exact streaming.accept channel pool found
    | connected channel status peerMtu => exact streaming.connected channel status peerMtu
    | disconnected channel => exact streaming.unmoved (.disconnected device channel)
    | dataReceived channel sdu =>
      cases sdu with
      | none => exact streaming
      | some sdu =>
        obtain ⟨armed, bounded⟩ := delivers.2 sdu rfl
        exact streaming.dataReceived (orderly rfl) armed bounded
    | unstalled | rearmRelease | timer | writeRelease =>
      exact streaming.unmoved (.flags rfl rfl rfl rfl rfl rfl)
    | rearm pool found => exact streaming.rearmHost pool found
    | rearmTimer starts => exact streaming.unmoved (.rearmTimer device starts)
    | read count => exact streaming.read count
    | write count pool appends => exact streaming.unmoved (.write device count pool appends)
    | send result => exact streaming.unmoved (.send device result)
    | writeTimer starts => exact streaming.unmoved (.writeTimer device starts)
    | endSession => exact Streaming.endSession device
  rwa [if_neg delivers]

lemma Streaming.boot (mtu : Nat) : Streaming (boot mtu) where
  reads := fun _ current => nomatch current
  room := fun _ current => nomatch current
  exactly := fun _ reads => nomatch reads

lemma Streaming.run (streaming : Streaming device) (events : List Event)
    (orderly : OrderlyRun device events) : Streaming (device.run events) := by
  induction events generalizing device with
  | nil => exact streaming
  | cons event events ih => exact ih (streaming.step event orderly.1) orderly.2

/-! ## What other channels and other calls leave alone -/

lemma step_stream_of_other (session : device.stream.chan = some current)
    (about : event.channel = some other) (different : other ≠ current)
    (orderly : Orderly device event) :
    (device.step event).stream = device.stream := by
  unfold Device.step
  by_cases delivers : device.Delivers event
  · rw [if_pos delivers]
    cases event with
    | accept channel pool found => exact (accept_stream device channel pool found).1
    | connected channel status peerMtu =>
      have failed : status ≠ 0 := by
        intro succeeded
        rw [orderly succeeded] at session
        cases session
      dsimp only [Device.effect, Device.connected]
      rw [if_pos failed]
      rfl
    | disconnected channel =>
      cases about
      exact absurd (orderly current session) different
    | dataReceived channel sdu =>
      cases about
      cases sdu with
      | none => rfl
      | some sdu =>
        have own := orderly rfl
        rw [session] at own
        cases own
        exact absurd rfl different
    | unstalled channel =>
      cases about
      cases stalled : device.stream.txStalled with
      | true => exact absurd (orderly stalled current session) different
      | false =>
        change { device.stream with txStalled := false } = device.stream
        rw [← stalled]
    | _ => cases about
  rw [if_neg delivers]

lemma rearmHost_chan (device : Device mtu) (pool found : Bool) :
    (device.rearmHost pool found).stream.chan = device.stream.chan := by
  unfold Device.rearmHost
  cases current : device.stream.chan with
  | none => exact current
  | some channel =>
    dsimp only
    split
    all_goals exact current

/-- The current channel stays the current one but for its disconnect and the end of the
session. -/
lemma step_chan (session : device.stream.chan = some current) (orderly : Orderly device event)
    (open_ : event ≠ .disconnected current) (going : event ≠ .endSession) :
    (device.step event).stream.chan = some current := by
  by_cases foreign : ∃ other, event.channel = some other ∧ other ≠ current
  · obtain ⟨other, about, different⟩ := foreign
    rw [step_stream_of_other session about different orderly]
    exact session
  unfold Device.step
  by_cases delivers : device.Delivers event
  · rw [if_pos delivers]
    cases event with
    | accept channel pool found =>
      exact (congrArg Stream.chan (accept_stream device channel pool found).1).trans session
    | connected channel status peerMtu =>
      dsimp only [Device.effect, Device.connected]
      split
      · exact session
      rename_i succeeded
      rw [orderly (not_not.mp succeeded)] at session
      cases session
    | disconnected channel =>
      rw [orderly current session] at open_
      exact absurd rfl open_
    | dataReceived channel sdu => cases sdu <;> exact session
    | rearm pool found => exact (rearmHost_chan device pool found).trans session
    | rearmTimer starts =>
      obtain ⟨running, started⟩ := startTimer_snd device starts
      dsimp only [Device.effect, Device.rearmTimer]
      rw [started]
      exact session
    | read count =>
      dsimp only [Device.effect, Device.read]
      split <;> exact session
    | write count pool appends =>
      dsimp only [Device.effect, Device.write]
      split <;> exact session
    | send result => cases result <;> exact session
    | writeTimer starts =>
      obtain ⟨running, started⟩ := startTimer_snd device starts
      dsimp only [Device.effect, Device.writeTimer]
      rw [started]
      exact session
    | endSession => exact absurd rfl going
    | unstalled _ | rearmRelease | timer | writeRelease => exact session
  rwa [if_neg delivers]

/-- After orderly events, whatever their order and whatever the stack answers: the reader has
been given, and will be given, exactly the SDUs of its channel in order; an event of another
channel changes nothing of the stream; the session ends by the disconnect of its channel or
by `wble_l2cap_end_session`; and every SDU that can arrive fits into the ring. -/
theorem session_is_isolated (mtu : Nat) (events : List Event)
    (orderly : OrderlyRun (boot mtu) events) : let device := (boot mtu).run events
    (∀ channel, device.reading = some channel →
      device.readOut ++ device.stream.ring.contents = device.receivedOn channel) ∧
    (∀ current, device.stream.chan = some current →
      device.reading = some current ∧
      (∀ event other, Orderly device event → event.channel = some other → other ≠ current →
        (device.step event).stream = device.stream) ∧
      ∀ event, Orderly device event → (device.step event).stream.chan ≠ some current →
        event = .disconnected current ∨ event = .endSession) ∧
    ∀ channel sdu, device.Delivers (.dataReceived channel (some sdu)) →
      Orderly device (.dataReceived channel (some sdu)) →
      sdu.length ≤ device.stream.ring.free := by
  intro device
  have streaming : Streaming device := (Streaming.boot mtu).run events orderly
  refine ⟨streaming.exactly, ?_, ?_⟩
  · intro current session
    refine ⟨streaming.reads current session, ?_, ?_⟩
    · intro event other next about different
      exact step_stream_of_other session about different next
    intro event next ended
    by_contra neither
    rw [not_or] at neither
    exact ended (step_chan session next neither.1 neither.2)
  intro channel sdu delivers own
  obtain ⟨armed, bounded⟩ := delivers.2 sdu rfl
  exact Nat.le_trans bounded (streaming.room channel (own rfl) armed)

/-- One session after another, with a second channel refused in between. -/
def twoSessions : List Event :=
  [.accept 0 true true, .connected 0 0 (some 256), .dataReceived 0 (some [1, 2, 3]), .read 2,
    .accept 1 true true, .rearm true true, .dataReceived 0 (some [4]), .disconnected 0, .read 8,
    .endSession, .accept 1 true true, .connected 1 0 none, .dataReceived 1 (some [5])]

theorem session_is_isolated_twice : OrderlyRun (boot 64) twoSessions ∧
      ((boot 64).run twoSessions).readOut ++ ((boot 64).run twoSessions).stream.ring.contents =
        ((boot 64).run twoSessions).receivedOn 1 :=
  ⟨by decide +kernel, (session_is_isolated 64 twoSessions (by decide +kernel)).1 1
    (by decide +kernel)⟩

/-- The session of the first channel is ended here before the stack has closed it, and the
second channel is connected. -/
def endedEarly : List Event :=
  [.accept 0 true true, .connected 0 0 none, .endSession, .accept 1 true true, .connected 1 0 none]

/-- The late disconnect of an ended channel ends the next session, and its late SDU is read in
the next session. -/
theorem ended_channel_reaches_next_session : (let next := (boot 64).run endedEarly
     let late := next.step (.disconnected 0)
     next.stream.chan = some 1 ∧ late.stream.chan = none ∧ late.stream.peerGone = true) ∧
    (let late := (boot 64).run (endedEarly ++ [.dataReceived 0 (some [9])])
     late.stream.chan = some 1 ∧ late.receivedOn 1 = [] ∧ (late.read 8).1 = .bytes [9]) := by
  decide +kernel

end WendyLite.Ble
