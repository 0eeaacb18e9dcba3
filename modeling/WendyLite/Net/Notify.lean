import Mathlib.Data.UInt

/-! # Network events of the guest

`wendynet_notify_locked`, `wendynet_unlock` and `wendynet_drain_events_wrapper` of
`wendy_net.c`, and the callback queue. Raised events are bits that the guest drains. It is
told of them by a callback, which is posted outside the lock by the call that raised the
first of them, and `s_wendynet_event_queued` says that no other callback is needed.

Every access to the network state is a section under its lock. A call that has left the
lock and owes a callback is a poster: it posts, and then takes the lock again to say so.
Everything else may happen in between.
-/

namespace WendyLite.Net

open List

/-- A call that has left the lock and has still to post, or has posted and has still to set
the flag. -/
structure Poster where
  handlerId : UInt32
  bits : UInt32
  posted : Bool := false
  deriving DecidableEq, Repr

structure Device where
  /-- `s_wendynet_handler_id`, zero when the guest has not registered. -/
  handlerId : UInt32 := 0
  pendingBits : UInt32 := 0
  eventQueued : Bool := false
  postPending : Bool := false
  posters : List Poster := []
  /-- The network events in the callback queue: the handler and the bits of each. -/
  queue : List (UInt32 × UInt32) := []
  /-- Ghost: the handlers that have been called since the last drain. -/
  delivered : List UInt32 := []
  deriving DecidableEq, Repr

variable (device : Device)

/-- `wendynet_notify_locked`. -/
def Device.notifyLocked (bits : UInt32) : Device :=
  if device.handlerId = 0 then device
  else
    let raised := { device with pendingBits := device.pendingBits ||| bits }
    if ¬ raised.eventQueued ∧ ¬ raised.postPending then { raised with postPending := true }
    else raised

/-- `wendynet_unlock` up to the release of the lock. -/
def Device.unlock : Device :=
  if device.postPending then
    { device with
      postPending := false
      posters := device.posters ++ [{ handlerId := device.handlerId, bits := device.pendingBits }] }
  else device

/-- What happens, one access to shared state at a time. -/
inductive Event where
  /-- A section of the network task or of a call that raises these bits, one after another. -/
  | raise (bits : List UInt32)
  /-- The poster at this place calls `wendy_callback_post`. -/
  | post (index : Nat) (succeeds : Bool)
  /-- The poster at this place sets `s_wendynet_event_queued`. -/
  | mark (index : Nat)
  /-- The guest takes an event from the callback queue. It is dropped if the guest exports no
  handler function or is being stopped. -/
  | dispatch (delivers : Bool)
  /-- `wendynet_drain_events_wrapper`. -/
  | drain
  /-- `wendynet_init_wrapper`. -/
  | init (handlerId : UInt32)
  /-- `wendy_net_guest_reset`. -/
  | reset
  deriving DecidableEq, Repr

def Device.step : Event → Device
  | .raise bits => (bits.foldl Device.notifyLocked device).unlock
  | .post index succeeds =>
    match device.posters[index]? with
    | some poster =>
      if poster.posted then device
      else if succeeds then
        { device with
          queue := device.queue ++ [(poster.handlerId, poster.bits)]
          posters := device.posters.set index { poster with posted := true } }
      else { device with posters := device.posters.eraseIdx index }
    | none => device
  | .mark index =>
    match device.posters[index]? with
    | some poster =>
      if poster.posted then
        { device with eventQueued := true, posters := device.posters.eraseIdx index }
      else device
    | none => device
  | .dispatch delivers =>
    match device.queue with
    | [] => device
    | event :: queue =>
      { device with
        queue
        delivered := if delivers then event.1 :: device.delivered else device.delivered }
  | .drain =>
    Device.unlock { device with pendingBits := 0, eventQueued := false, delivered := [] }
  | .init handlerId => Device.unlock { device with handlerId }
  | .reset =>
    Device.unlock
      { device with
        handlerId := 0, pendingBits := 0, eventQueued := false, postPending := false
        delivered := [] }

def Device.run (events : List Event) : Device := events.foldl Device.step device

/-- The guest has been called since its last drain, or will be. -/
def Device.Told : Prop :=
  device.handlerId ∈ device.queue.map Prod.fst ∨ device.handlerId ∈ device.delivered

instance (device : Device) : Decidable device.Told :=
  inferInstanceAs (Decidable (_ ∨ _))

/-- An event that does not break in on a callback: it is posted and delivered, the guest does
not drain between a post and its flag, and a handler comes and goes only when no callback is
under way. -/
def Orderly : Event → Prop
  | .raise _ | .mark _ => True
  | .post _ succeeds => succeeds = true
  | .dispatch delivers => delivers = true
  | .drain => ∀ poster ∈ device.posters, poster.posted = false
  | .init handlerId => handlerId = device.handlerId ∨
      device.pendingBits = 0 ∧ device.posters = [] ∧ device.eventQueued = false
  | .reset => device.posters = []

instance (device : Device) (event : Event) : Decidable (Orderly device event) := by
  cases event <;> unfold Orderly <;> infer_instance

def OrderlyRun : Device → List Event → Prop
  | _, [] => True
  | device, event :: events => Orderly device event ∧ OrderlyRun (device.step event) events

instance OrderlyRun.decidable : (device : Device) → (events : List Event) →
    Decidable (OrderlyRun device events)
  | _, [] => isTrue trivial
  | device, event :: events =>
    have := OrderlyRun.decidable (device.step event) events
    inferInstanceAs (Decidable (Orderly device event ∧ OrderlyRun (device.step event) events))

/-! ## What orderly events keep -/

/-- Outside the sections of the lock: a poster is for the registered handler; once it has
posted, or the flag is set, the guest has been told; and raised bits have been told of or
have a poster. -/
structure Informed (device : Device) : Prop where
  settled : device.postPending = false
  handler : ∀ poster ∈ device.posters, poster.handlerId = device.handlerId
  posted : ∀ poster ∈ device.posters, poster.posted = true → device.Told
  queued : device.eventQueued = true → device.Told
  raised : device.pendingBits ≠ 0 → device.Told ∨ ∃ poster ∈ device.posters, poster.posted = false

/-- A section of the lock that began at `start` and has only raised bits so far. -/
structure Raising (start device : Device) : Prop where
  handlerId : device.handlerId = start.handlerId
  eventQueued : device.eventQueued = start.eventQueued
  posters : device.posters = start.posters
  queue : device.queue = start.queue
  delivered : device.delivered = start.delivered
  covered : device.pendingBits = start.pendingBits ∨ device.postPending = true ∨
    start.eventQueued = true

variable {device start : Device}

lemma Raising.notifyLocked (raising : Raising start device)
    (bits : UInt32) : Raising start (device.notifyLocked bits) := by
  unfold Device.notifyLocked
  by_cases unregistered : device.handlerId = 0
  · rwa [if_pos unregistered]
  rw [if_neg unregistered]
  dsimp only
  by_cases first : ¬ device.eventQueued ∧ ¬ device.postPending
  · rw [if_pos first]
    exact { raising with covered := .inr (.inl rfl) }
  rw [if_neg first]
  have covered : device.postPending = true ∨ start.eventQueued = true := by
    rw [← raising.eventQueued]
    cases queued : device.eventQueued <;> simp_all
  exact { raising with covered := .inr covered }

lemma Raising.foldl (raising : Raising start device)
    (bits : List UInt32) : Raising start (bits.foldl Device.notifyLocked device) := by
  induction bits generalizing device with
  | nil => exact raising
  | cons first bits ih => exact ih (raising.notifyLocked first)

lemma Raising.told (raising : Raising start device) : device.Told ↔ start.Told := by
  rw [Device.Told, Device.Told, raising.handlerId, raising.queue, raising.delivered]

/-- Leaving a section that raised bits: if the flag was not set, this call becomes the poster. -/
lemma Informed.unlock (informed : Informed start)
    (raising : Raising start device) : Informed device.unlock := by
  have told := raising.told
  unfold Device.unlock
  by_cases pending : device.postPending = true
  · rw [if_pos pending]
    constructor
    case settled => rfl
    case handler =>
      intro poster mem
      obtain old | new := mem_append.mp mem
      · rw [raising.posters] at old
        exact (informed.handler poster old).trans raising.handlerId.symm
      rw [mem_singleton.mp new]
    case posted =>
      intro poster mem posted
      obtain old | new := mem_append.mp mem
      · rw [raising.posters] at old
        exact told.mpr (informed.posted poster old posted)
      rw [mem_singleton.mp new] at posted
      cases posted
    case queued =>
      intro queued
      exact told.mpr (informed.queued (raising.eventQueued.symm.trans queued))
    case raised =>
      intro _
      exact .inr ⟨_, mem_append_right _ (mem_singleton_self _), rfl⟩
  rw [if_neg pending]
  constructor
  case settled => exact Bool.eq_false_iff.mpr pending
  case handler =>
    rw [raising.posters, raising.handlerId]
    exact informed.handler
  case posted =>
    rw [raising.posters, told]
    exact informed.posted
  case queued =>
    rw [raising.eventQueued, told]
    exact informed.queued
  case raised =>
    intro some_
    rw [raising.posters, told]
    obtain same | posts | queued := raising.covered
    · rw [same] at some_
      exact informed.raised some_
    · exact absurd posts pending
    exact .inl (informed.queued queued)

lemma Informed.post (informed : Informed device) (index : Nat) :
    Informed (device.step (.post index true)) := by
  dsimp only [Device.step]
  cases found : device.posters[index]? with
  | none => exact informed
  | some poster =>
    dsimp only
    by_cases posted : poster.posted = true
    · rwa [if_pos posted]
    rw [if_neg posted, if_pos rfl]
    have own := informed.handler poster (mem_of_getElem? found)
    have told : device.handlerId ∈
        (device.queue ++ [(poster.handlerId, poster.bits)]).map Prod.fst := by
      rw [map_append, own]
      exact mem_append_right _ (mem_singleton_self _)
    constructor
    case settled => exact informed.settled
    case handler =>
      intro other mem
      obtain old | new := mem_or_eq_of_mem_set mem
      · exact informed.handler other old
      rw [new]
      exact own
    case posted =>
      intro _ _ _
      exact .inl told
    case queued =>
      intro _
      exact .inl told
    case raised =>
      intro _
      exact .inl (.inl told)

lemma Informed.mark (informed : Informed device) (index : Nat) :
    Informed (device.step (.mark index)) := by
  dsimp only [Device.step]
  cases found : device.posters[index]? with
  | none => exact informed
  | some poster =>
    dsimp only
    by_cases posted : poster.posted = true
    · rw [if_pos posted]
      have told := informed.posted poster (mem_of_getElem? found) posted
      constructor
      case settled => exact informed.settled
      case handler =>
        intro other mem
        exact informed.handler other (mem_of_mem_eraseIdx mem)
      case posted =>
        intro _ _ _
        exact told
      case queued =>
        intro _
        exact told
      case raised =>
        intro _
        exact .inl told
    rwa [if_neg posted]

lemma Told.dispatch (told : device.Told) : (device.step (.dispatch true)).Told := by
  dsimp only [Device.step]
  cases queue : device.queue with
  | nil => exact told
  | cons event rest =>
    dsimp only
    rw [if_pos rfl]
    obtain waiting | delivered := told
    · rw [queue, map_cons] at waiting
      obtain first | later := mem_cons.mp waiting
      · exact .inr (mem_cons.mpr (.inl first))
      exact .inl later
    exact .inr (.tail _ delivered)

lemma Informed.dispatch (informed : Informed device) :
    Informed (device.step (.dispatch true)) := by
  have told : device.Told → (device.step (.dispatch true)).Told := Told.dispatch
  have same : device.step (.dispatch true) =
      { device with
        queue := (device.step (.dispatch true)).queue
        delivered := (device.step (.dispatch true)).delivered } := by
    dsimp only [Device.step]
    cases device.queue <;> rfl
  rw [same] at told ⊢
  exact {
    settled := informed.settled
    handler := informed.handler
    posted := fun poster mem posted => told (informed.posted poster mem posted)
    queued := fun queued => told (informed.queued queued)
    raised := fun some_ => (informed.raised some_).imp_left told }

lemma Informed.drain (informed : Informed device)
    (unposted : ∀ poster ∈ device.posters, poster.posted = false) :
    Informed (device.step .drain) := by
  dsimp only [Device.step]
  rw [Device.unlock, if_neg (by simp [informed.settled])]
  constructor
  case settled => exact informed.settled
  case handler => exact informed.handler
  case posted =>
    intro poster mem posted
    rw [unposted poster mem] at posted
    cases posted
  case queued => simp
  case raised => simp

/-- With no bits raised and no callback under way there is nothing to tell. -/
lemma informed_of_quiet (settled : device.postPending = false) (bits : device.pendingBits = 0)
    (posters : device.posters = []) (queued : device.eventQueued = false) : Informed device := by
  constructor
  case settled => exact settled
  case handler => simp [posters]
  case posted => simp [posters]
  case queued => simp [queued]
  case raised => simp [bits]

lemma Informed.init (informed : Informed device) (handlerId : UInt32)
    (orderly : Orderly device (.init handlerId)) : Informed (device.step (.init handlerId)) := by
  dsimp only [Device.step]
  obtain same | ⟨bits, posters, queued⟩ := orderly
  · subst same
    rwa [Device.unlock, if_neg (by simp [informed.settled])]
  rw [Device.unlock, if_neg (by simp [informed.settled])]
  exact informed_of_quiet informed.settled bits posters queued

lemma Informed.step (informed : Informed device) (event : Event)
    (orderly : Orderly device event) : Informed (device.step event) := by
  cases event with
  | raise bits =>
    have same : Raising device device := ⟨rfl, rfl, rfl, rfl, rfl, .inl rfl⟩
    exact informed.unlock (same.foldl bits)
  | post index succeeds =>
    rw [show succeeds = true from orderly]
    exact informed.post index
  | mark index => exact informed.mark index
  | dispatch delivers =>
    rw [show delivers = true from orderly]
    exact informed.dispatch
  | drain => exact informed.drain orderly
  | init handlerId => exact informed.init handlerId orderly
  | reset =>
    dsimp only [Device.step]
    rw [Device.unlock, if_neg Bool.false_ne_true]
    exact informed_of_quiet rfl rfl orderly rfl

lemma Informed.run (informed : Informed device) (events : List Event)
    (orderly : OrderlyRun device events) : Informed (device.run events) := by
  induction events generalizing device with
  | nil => exact informed
  | cons event events ih => exact ih (informed.step event orderly.1) orderly.2

/-! ## Raised bits are told of -/

/-- In a run of orderly events, whenever a handler is registered, bits are raised and no call
is under way, the guest has been called since its last drain or its event waits in the
callback queue. -/
theorem raised_bits_are_told (events : List Event) (orderly : OrderlyRun {} events) :
    let device := Device.run {} events
    device.handlerId ≠ 0 → device.pendingBits ≠ 0 → device.posters = [] → device.Told := by
  intro device _ raised idle
  have informed := (informed_of_quiet rfl rfl rfl rfl : Informed {}).run events orderly
  obtain told | ⟨poster, member, _⟩ := informed.raised raised
  · exact told
  rw [show (Device.run {} events).posters = [] from idle] at member
  cases member

/-- A guest registers, is called for the first bits and drains them, and is told of the
next ones. -/
def twoRounds : List Event :=
  [.init 7, .raise [1, 2], .post 0 true, .mark 0, .dispatch true, .drain, .raise [4], .post 0 true,
    .mark 0]

theorem raised_bits_are_told_twice : OrderlyRun {} twoRounds ∧ (Device.run {} twoRounds).Told :=
  ⟨by decide, raised_bits_are_told twoRounds (by decide) (by decide) (by decide) (by decide)⟩

/-- The guest is called and drains between the post and its flag, which is then set with
nothing in the queue. -/
def drainedBeforeMark : List Event :=
  [.init 7, .raise [1], .post 0 true, .dispatch true, .drain, .mark 0]

/-- Bits are left with nobody told when the callback queue is full, and, after a drain between
a post and its flag, for every later bit. -/
theorem untold_runs : (let full := Device.run {} [.init 7, .raise [1], .post 0 false]
     full.handlerId ≠ 0 ∧ full.pendingBits ≠ 0 ∧ full.posters = [] ∧ ¬ full.Told) ∧
    (let late := Device.run {} (drainedBeforeMark ++ [.raise [2], .raise [4]])
     late.handlerId ≠ 0 ∧ late.pendingBits ≠ 0 ∧ late.posters = [] ∧ ¬ late.Told) := by
  decide

/-! ## No bit is lost or made up -/

/-- What the guest sees of its events: a mailbox that takes bits while a handler is
registered, and is empty after a drain. -/
def mailbox (box : UInt32 × UInt32) : Event → UInt32 × UInt32
  | .raise bits => if box.1 = 0 then box else (box.1, bits.foldl (· ||| ·) box.2)
  | .drain => (box.1, 0)
  | .init handlerId => (handlerId, box.2)
  | .reset => (0, 0)
  | .post .. | .mark _ | .dispatch _ => box

def Device.box (device : Device) : UInt32 × UInt32 := (device.handlerId, device.pendingBits)

lemma box_unlock (device : Device) : device.unlock.box = device.box := by
  unfold Device.unlock
  split <;> rfl

lemma box_notifyLocked (device : Device) (bits : UInt32) :
    (device.notifyLocked bits).box = mailbox device.box (.raise [bits]) := by
  unfold Device.notifyLocked
  dsimp only [mailbox, Device.box]
  repeat' split
  all_goals rfl

lemma box_raise (bits : List UInt32) :
    (bits.foldl Device.notifyLocked device).box = mailbox device.box (.raise bits) := by
  induction bits generalizing device with
  | nil => simp [mailbox]
  | cons bit bits ih =>
    rw [foldl_cons, ih, box_notifyLocked]
    by_cases absent : device.box.1 = 0 <;> simp [mailbox, absent]

lemma box_step (event : Event) : (device.step event).box = mailbox device.box event := by
  cases event with
  | raise bits => exact (box_unlock _).trans (box_raise bits)
  | drain | init | reset => exact box_unlock _
  | post | mark | dispatch =>
    unfold Device.step
    dsimp only
    repeat' split
    all_goals rfl

end WendyLite.Net
