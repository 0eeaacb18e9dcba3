import WendyLite.Pki.Revisions

/-! # Publication of own manifests

`publish` of `router_session.c` over the revisions of `wendy_pki.c`. A draft gets its
revision when it is made and keeps its body through every retry, whichever session
signs it; it ends when it is committed, grows stale or its node is freed.

Tasks move one step at a time and power may be lost between any two steps. `publish`
runs in the actor, one call at a time. The revision lock has one holder: a task in
`reserve_boot_revisions`, or one in `wendy_pki_mesh_revision_next`. What the
environment answers in a call of `publish` is part of the call.
-/

namespace WendyLite.Pki

/-- `struct wn_origin`. -/
structure Origin where
  routerId : Nat
  seqno : Nat
  deriving DecidableEq, Repr

structure Contents where
  appPort : Nat
  name : List UInt8
  sensors : Bool
  services : List UInt8
  deriving DecidableEq, Repr

structure Body where
  origin : Origin
  revision : Nat
  issued : Int
  expires : Int
  contents : Contents
  deriving DecidableEq, Repr

/-- `struct route_signature`. -/
structure Draft where
  origin : Origin
  deadlineUs : Int
  body : Body
  deriving DecidableEq, Repr

/-- A call of `publish` and what it meets on its way. -/
structure Call where
  origin : Origin
  now : Int
  monotonic : Int
  /-- The node has a session; the certificate dates are those of the first one. -/
  session : Bool
  certificateNotBefore : Int
  certificateExpires : Int
  /-- The connection of the session is lent to a signing job. -/
  borrowed : Bool
  /-- There is memory for a draft. -/
  allocates : Bool
  /-- `wendy_conf_is_current`. -/
  current : Bool
  /-- What the body is written from, if memory allows and both writes agree. -/
  contents : Option Contents
  /-- The principal of the session can be written. -/
  principal : Bool
  /-- The signer returns a signature. -/
  signed : Bool
  /-- The wire form is written, identified and offered to the pool. -/
  committed : Bool
  deriving DecidableEq, Repr

variable (call : Call)

/-- `now`, not before the certificate. -/
def Call.issued : Int := max call.now (call.certificateNotBefore * 1000)

def Call.expires : Int :=
  min (call.issued + 900000) (call.certificateExpires * 1000)

def Call.deadlineUs : Int :=
  call.monotonic + (call.expires - call.issued) * 1000

def Call.body (revision : Nat) (contents : Contents) : Body :=
  ⟨call.origin, revision, call.issued, call.expires, contents⟩

/-- `publish` is compiled in two ways: the device keeps a draft, the host build signs
in the call. -/
inductive Platform where
  | esp
  | host
  deriving DecidableEq, Repr

inductive Holder where
  | reading
  | writing (reserved : Nat)
  | committing (reserved : Nat)
  | taking (publishes : Bool)
  deriving DecidableEq, Repr

inductive Publisher where
  | idle
  | allocating (call : Call)
  | taking (call : Call)
  | building (call : Call) (revision : Nat)
  | signing (call : Call)
  | finishing (call : Call)
  deriving DecidableEq, Repr

structure Device where
  platform : Platform
  store : Store
  boot : BootRevisions := {}
  lock : Option Holder := none
  /-- `identity_resetting`. -/
  resetting : Bool := false
  /-- What a running `wendy_pki_reset` has still to do. -/
  actions : List ResetAction := []
  publisher : Publisher := .idle
  signing : Option Draft := none
  /-- Ghost: the bodies built, in order. -/
  built : List Body := []
  /-- Ghost: the bodies handed to the signer. -/
  handed : List Body := []
  /-- Ghost: a sum of revisions has wrapped. -/
  wrapped : Bool := false

namespace Device

/-! ## Revisions -/

variable (d : Device)

def reserve : Device :=
  if d.lock = none ∧ d.boot.attempted = false then
    { d with boot := { d.boot with attempted := true }, lock := some .reading }
  else d

/-- `nvs_get_blob`, and the test of what it read. -/
def read (fails : Bool) : Device :=
  match d.lock with
  | some .reading =>
    match if fails then none else readMark d.store with
    | none => { d with lock := none }
    | some reserved =>
      { d with lock := if roomAbove reserved then some (.writing reserved) else none }
  | _ => d

/-- `nvs_set_blob`. -/
def write (succeeds landed : Bool) : Device :=
  match d.lock with
  | some (.writing reserved) =>
    { d with
      wrapped := d.wrapped || wraps64 reserved meshRevisionBootRange
      store := if succeeds || landed then writeMark d.store reserved else d.store
      lock := if succeeds then some (.committing reserved) else none }
  | _ => d

/-- `nvs_commit`, and the end of `reserve_boot_revisions`. -/
def commit (succeeds : Bool) : Device :=
  match d.lock with
  | some (.committing reserved) =>
    if succeeds then
      { d with
        wrapped := d.wrapped || wraps64 reserved 1 || wraps64 (nextMark reserved) 1
        boot := d.boot.open_ reserved
        lock := none }
    else { d with lock := none }
  | _ => d

/-- `wendy_pki_mesh_revision_next` fails before or at its lock. -/
def refuses (current : Bool) : Bool := d.resetting || !current || d.lock.isSome

/-- The end of `wendy_pki_mesh_revision_next`. -/
def take (d : Device) : Device :=
  { d with
    boot := d.boot.take.2
    wrapped := d.wrapped || (d.boot.take.1.isSome && wraps64 d.boot.next 1)
    lock := none }

/-! ## Publication -/

/-- `publish` up to the allocation of a revision, or to the draft there is. -/
def publish (call : Call) : Device :=
  if call.session then
    match d.platform with
    | .host =>
      if call.expires - call.issued < 5000 then d
      else { d with publisher := .allocating call }
    | .esp =>
      if call.borrowed then d
      else if d.signing.isSome then { d with publisher := .signing call }
      else if call.allocates then { d with publisher := .allocating call }
      else d
  else d

def build (call : Call) (revision : Nat) : Device :=
  match call.contents with
  | none => { d with publisher := .idle }
  | some contents =>
    let body := call.body revision contents
    let d := { d with built := d.built ++ [body] }
    match d.platform with
    | .esp =>
      { d with
        signing := some ⟨call.origin, call.deadlineUs, body⟩
        publisher := .signing call }
    | .host =>
      { d with
        handed := if call.principal then d.handed ++ [body] else d.handed
        publisher := .idle }

def sign (call : Call) : Device :=
  match d.signing with
  | none => { d with publisher := .idle }
  | some draft =>
    if call.principal then
      { d with
        handed := d.handed ++ [draft.body]
        publisher := if call.signed then .finishing call else .idle }
    else { d with publisher := .idle }

/-- The draft is stale, committed, or kept for another call. -/
def finish (call : Call) : Device :=
  match d.signing with
  | none => { d with publisher := .idle }
  | some draft =>
    if draft.origin ≠ call.origin ∨ draft.deadlineUs ≤ call.monotonic then
      { d with signing := none, publisher := .idle }
    else if call.committed then { d with signing := none, publisher := .idle }
    else { d with publisher := .idle }

def advance : Device :=
  match d.publisher with
  | .idle => d
  | .allocating call =>
    if d.refuses call.current then { d with publisher := .idle }
    else { d with lock := some (.taking true), publisher := .taking call }
  | .taking call =>
    match d.boot.take.1 with
    | none => { d.take with publisher := .idle }
    | some revision => { d.take with publisher := .building call revision }
  | .building call revision => d.build call revision
  | .signing call => d.sign call
  | .finishing call => d.finish call

def powerLoss : Device :=
  { platform := d.platform
    store := d.store
    built := d.built
    handed := d.handed
    wrapped := d.wrapped }

end Device

inductive Event where
  | powerLoss
  | reserve
  | read (fails : Bool)
  | write (succeeds landed : Bool)
  | commit (succeeds : Bool)
  /-- Another task calls `wendy_pki_mesh_revision_next`, and ends it. -/
  | next (current : Bool)
  | taken
  | publish (call : Call)
  | advance
  /-- The node is freed or loses its last session. -/
  | drop
  /-- `wendy_pki_reset` with the right nonce, and its next action. -/
  | reset
  | act (succeeds landed : Bool)
  deriving Repr

def Device.step (d : Device) : Event → Device
  | .powerLoss => d.powerLoss
  | .reserve => d.reserve
  | .read fails => d.read fails
  | .write succeeds landed => d.write succeeds landed
  | .commit succeeds => d.commit succeeds
  | .next current => if d.refuses current then d else { d with lock := some (.taking false) }
  | .taken => if d.lock = some (.taking false) then d.take else d
  | .publish call => if d.publisher = .idle then d.publish call else d
  | .advance => d.advance
  | .drop => if d.publisher = .idle then { d with signing := none } else d
  | .reset => { d with resetting := true, actions := resetActions }
  | .act succeeds landed =>
    match d.actions with
    | [] => d
    | action :: actions =>
      { d with
        store := action.apply (succeeds || landed) d.store
        actions := if succeeds then actions else [] }

def Device.run (d : Device) (events : List Event) : Device := events.foldl Device.step d

end WendyLite.Pki
