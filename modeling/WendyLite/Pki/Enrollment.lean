import WendyLite.Foundation.Flow
import WendyLite.Pki.Revisions
import WendyLite.Conf.Recovery

/-! # Enrollment and renewal

`identity_key`, `issue` and `connect_identity` of `wendy_pki.c`. The identity is made of
five records that are written one by one: the key with the tenant and the device it is
bound to, the certificate, and the pinned operator authority. A response of the issuer is
retained, in two parts, before it is looked at, and is dropped when its certificate has
been stored.

An attempt runs from `wendy_pki_connect` or `wendy_pki_maintain`. What it gets from the
system and the network is part of the attempt. The power may be lost at every write; the
next attempt then runs after a boot, which changes no record.
-/

namespace WendyLite.Pki.Enrollment

open WendyLite.Flow

/-! ## What an attempt meets -/

structure Validity where
  notBefore : Int
  expires : Int
  deriving DecidableEq, Repr

/-- The functions of the certificate library. The roots and the principal are those of the
configuration. -/
structure Suite where
  /-- `wendy_cert_bundle_measure` and `wendy_cert_bundle_import`. -/
  importBundle : List UInt8 → Option (List UInt8)
  /-- `wendy_pki_lite_authority_from_header`. -/
  authority : List UInt8 → Option (List UInt8)
  /-- `wendy_pki_verify_identity` of a certificate for a key at a time. -/
  verify : List UInt8 → List UInt8 → Int → Option Validity

/-- What an attempt reads of the enrollment configuration. -/
structure Config where
  tenant : List UInt8
  device : List UInt8
  token : List UInt8
  deriving DecidableEq, Repr

structure Response where
  certificate : List UInt8
  authority : Option (List UInt8)
  deriving DecidableEq, Repr

inductive Access where
  | key
  | tenant
  | device
  | pending
  | pendingAuthority
  | authority
  | certificate
  | dropPending
  | dropPendingAuthority
  deriving DecidableEq, Repr

inductive Reading where
  | connecting
  | issuing
  deriving DecidableEq, Repr

structure Attempt where
  /-- `wendy_pki_connect` rather than `wendy_pki_maintain`. -/
  connects : Bool
  /-- The identity may be used, and the crypto, the configuration, the roots and the storage
  are there. -/
  starts : Bool
  /-- The time after `seed_clock` and `refresh_time`, if both succeed. -/
  verifiedTime : Option Int
  /-- Whether reading a record works. -/
  reads : Reading → String → Bool
  generated : Option (List UInt8)
  /-- The time at which the renewal date is looked at. -/
  dueTime : Int
  /-- The signing request and the body can be made. -/
  prepares : Bool
  /-- The response, if the request succeeds and has one with a certificate. -/
  response : Option Response
  /-- There is memory for the imported certificate. -/
  allocates : Bool
  /-- The time after the second `refresh_time`, if it succeeds. -/
  issuedTime : Option Int
  /-- The derived cache can be invalidated. -/
  invalidates : Bool
  /-- The time of the second look at the stored identity. -/
  recheckTime : Int
  /-- The broker can be reached, and its chain has not ended. -/
  reaches : Bool
  writes : Access → Conf.Commit

/-- An attempt ends early because something failed or because the power is lost. -/
inductive Stop where
  | failed
  | lost
  deriving DecidableEq, Repr

structure Progress where
  store : Store
  /-- Ghost: the records when a request was sent. -/
  sent : Option Store := none
  /-- Ghost: a part of a response has been stored. -/
  retained : Bool := false
  /-- Ghost: a certificate has been stored. -/
  installed : Bool := false

namespace Progress

def set (key : String) (value : Option (List UInt8)) (progress : Progress) : Progress :=
  { progress with store := Function.update progress.store key value }

def retain (key : String) (value : List UInt8) (progress : Progress) : Progress :=
  { progress.set key (some value) with retained := true }

def install (der : List UInt8) (progress : Progress) : Progress :=
  { progress.set "certificate" (some der) with installed := true }

end Progress

/-! ## The code -/

def maxResponse : Nat := 65536

def loadBlob (store : Store) (key : String) : Option (List UInt8) :=
  match store key with
  | some bytes => if bytes = [] ∨ maxResponse < bytes.length then none else some bytes
  | none => none

def renewalDate (validity : Validity) : Int :=
  validity.notBefore + (validity.expires - validity.notBefore).tdiv 2

section Model

variable (suite : Suite) (config : Config) (attempt : Attempt)

/-- One set or erase. It says whether it reports success. -/
def tryWrite (access : Access) (edit : Progress → Progress) : Flow Progress Stop Bool :=
  match attempt.writes access with
  | .done => do
    Flow.change edit
    pure true
  | .failed made => do
    Flow.change (if made then edit else id)
    pure false
  | .interrupted made => do
    Flow.change (if made then edit else id)
    stop .lost

def write (access : Access) (edit : Progress → Progress) : Flow Progress Stop Unit := do
  if ← tryWrite attempt access edit then pure () else stop .failed

def identityKey : Flow Progress Stop (List UInt8) := do
  let progress ← Flow.state
  if ¬ attempt.reads .connecting "tenant" ∨ ¬ attempt.reads .connecting "device" then
    stop .failed
  else
    match progress.store "tenant", progress.store "device" with
    | some tenant, some device =>
      if tenant ≠ config.tenant ∨ device ≠ config.device ∨ ¬ attempt.reads .connecting "key" then
        stop .failed
      else
        match loadBlob progress.store "key" with
        | some key => pure key
        | none => stop .failed
    | none, none =>
      match attempt.generated with
      | none => stop .failed
      | some key =>
        if key = [] ∨ 256 < key.length then stop .failed
        else do
          write attempt .key (Progress.set "key" (some key))
          write attempt .tenant (Progress.set "tenant" (some config.tenant))
          write attempt .device (Progress.set "device" (some config.device))
          pure key
    | _, _ => stop .failed

def pinAuthority (pin : Option (List UInt8)) : Flow Progress Stop Unit :=
  match pin with
  | some authority => write attempt .authority (Progress.set "lite_ca" (some authority))
  | none => pure ()

def installIssued (der : List UInt8) (pin : Option (List UInt8)) : Flow Progress Stop Unit := do
  pinAuthority attempt pin
  write attempt .certificate (Progress.install der)
  let _ ← tryWrite attempt .dropPending (Progress.set "pending" none)
  let _ ← tryWrite attempt .dropPendingAuthority (Progress.set "pending_ca" none)
  pure ()

/-- `issue` from the label `verify` on. -/
def verifyIssued (key bundle : List UInt8) (pin : Option (List UInt8)) :
    Flow Progress Stop Unit :=
  match suite.importBundle bundle, attempt.issuedTime with
  | some der, some now =>
    if ¬ attempt.allocates ∨ suite.verify der key now = none ∨ ¬ attempt.invalidates then
      stop .failed
    else installIssued attempt der pin
  | _, _ => stop .failed

/-- `issue` with a retained response. A header omitted on a renewal is one zero byte. -/
def replayPending (key : List UInt8) (renewing : Bool) (pending header : List UInt8) :
    Flow Progress Stop Unit :=
  if renewing ∧ header = [0] then verifyIssued suite attempt key pending none
  else if 0 ∈ header then stop .failed
  else
    match suite.authority header with
    | none => stop .failed
    | some authority => verifyIssued suite attempt key pending (some authority)

/-- The second part of what `issue` retains of a response. -/
def retainAuthority (renewing : Bool) (header : Option (List UInt8)) : Flow Progress Stop Bool :=
  match header with
  | some header => tryWrite attempt .pendingAuthority (Progress.retain "pending_ca" header)
  | none =>
    if renewing then tryWrite attempt .pendingAuthority (Progress.retain "pending_ca" [0])
    else tryWrite attempt .pendingAuthority (Progress.set "pending_ca" none)

/-- What `issue` retains of a response: both writes are tried even if one fails. -/
def retainResponse (renewing : Bool) (response : Response) : Flow Progress Stop Bool := do
  let saved ← tryWrite attempt .pending (Progress.retain "pending" response.certificate)
  let authoritySaved ← retainAuthority attempt renewing response.authority
  pure (saved && authoritySaved)

/-- `issue` after its request. -/
def acceptResponse (key : List UInt8) (renewing : Bool) (response : Response) :
    Flow Progress Stop Unit := do
  if ← retainResponse attempt renewing response then
    match response.authority with
    | some header =>
      match suite.authority header with
      | none => stop .failed
      | some authority => verifyIssued suite attempt key response.certificate (some authority)
    | none =>
      if renewing then verifyIssued suite attempt key response.certificate none
      else stop .failed
  else stop .failed

/-- `issue` without a retained response: it sends a request. -/
def request (key : List UInt8) (renewing : Bool) : Flow Progress Stop Unit := do
  if ¬ attempt.prepares ∨ (¬ renewing ∧ config.token = []) then stop .failed
  else do
    Flow.change fun progress => { progress with sent := some progress.store }
    match attempt.response with
    | none => stop .failed
    | some response => acceptResponse suite attempt key renewing response

def issue (key : List UInt8) (renewing : Bool) : Flow Progress Stop Unit := do
  let progress ← Flow.state
  if ¬ attempt.reads .issuing "pending" ∨ ¬ attempt.reads .issuing "pending_ca" then
    stop .failed
  else
    match progress.store "pending", progress.store "pending_ca" with
    | some _, _ =>
      match loadBlob progress.store "pending", loadBlob progress.store "pending_ca" with
      | some pending, some header => replayPending suite attempt key renewing pending header
      | _, _ => stop .failed
    | none, some _ => stop .failed
    | none, none => request suite config attempt key renewing

/-- What `connect_identity` finds out about the stored certificate: nothing is stored, or it
is stored and usable, or it cannot be loaded. -/
def loadCertificate (store : Store) : Option (Option (List UInt8)) :=
  match store "certificate" with
  | none => some none
  | some _ => ((loadBlob store "certificate").bind suite.importBundle).map some

def haveAuthority (store : Store) : Bool :=
  match store "lite_ca" with
  | some bytes => 0 < bytes.length ∧ bytes.length ≤ maxResponse
  | none => false

def renewDue (store : Store) (stored : Option (List UInt8)) (validity : Option Validity) :
    Bool :=
  (store "pending").isSome || stored.isNone || (attempt.connects && !haveAuthority store) ||
    decide ((validity.map renewalDate).getD 0 ≤ attempt.dueTime)

/-- A renewal that fails leaves a stored identity that is still valid in use. -/
def keepStored (key : List UInt8) (stored : Option (List UInt8)) (reason : Stop) :
    Flow Progress Stop Unit :=
  match reason, stored with
  | .failed, some der =>
    if suite.verify der key attempt.recheckTime = none then stop .failed else pure ()
  | reason, _ => stop reason

/-- The renewal of `connect_identity`. -/
def renewIfDue (key : List UInt8) (stored : Option (List UInt8)) (due : Bool) :
    Flow Progress Stop Unit :=
  if due then
    (issue suite config attempt key stored.isSome).recover (keepStored suite attempt key stored)
  else pure ()

/-- The connection to the broker, which maintenance does not make. -/
def reachBroker : Flow Progress Stop Unit :=
  if attempt.connects ∧ ¬ attempt.reaches then stop .failed else pure ()

/-- `connect_identity` once the time is verified and the key is there. -/
def useIdentity (key : List UInt8) (now : Int) : Flow Progress Stop Unit := do
  let progress ← Flow.state
  if ¬ attempt.reads .connecting "certificate" ∨ ¬ attempt.reads .connecting "pending" ∨
      ¬ attempt.reads .connecting "lite_ca" then
    stop .failed
  else
    match loadCertificate suite progress.store with
    | none => stop .failed
    | some stored =>
      let validity := stored.bind fun der => suite.verify der key now
      if stored.isSome ∧ validity = none ∧ progress.store "pending" = none then
        stop .failed
      else do
        renewIfDue suite config attempt key stored
          (renewDue attempt progress.store stored validity)
        reachBroker attempt

def connectIdentity : Flow Progress Stop Unit := do
  if ¬ attempt.starts then stop .failed
  else
    match attempt.verifiedTime with
    | none => stop .failed
    | some now => do
      let key ← identityKey config attempt
      useIdentity suite config attempt key now

end Model

end WendyLite.Pki.Enrollment
