import WendyLite.Pki.Issuance

/-! # Attempts after power losses

A run is a sequence of attempts. Each may be cut short at any write, and the next one
decides from the records that are there whether to replay a response, to send a request
or to give up. Two cuts leave records from which no attempt ever sends a request again:
one between the two records of the binding, and one between the two parts of a response,
when they are stored as well as when they are dropped.
-/

namespace WendyLite.Pki.Enrollment

open WendyLite.Flow

section Cut

variable {suite : Suite} {config : Config} {attempt : Attempt}

/-- Only one record of the binding is stored. -/
def HalfBound (store : Store) : Prop :=
  store "tenant" = none ∧ store "device" ≠ none ∨ store "tenant" ≠ none ∧ store "device" = none

instance (store : Store) : Decidable (HalfBound store) :=
  inferInstanceAs (Decidable (_ ∨ _))

/-- Only one part of a response is stored. -/
def Torn (store : Store) : Prop :=
  store "pending" = none ∧ store "pending_ca" ≠ none ∨
    store "pending" ≠ none ∧ store "pending_ca" = none

instance (store : Store) : Decidable (Torn store) :=
  inferInstanceAs (Decidable (_ ∨ _))

lemma Torn.held (torn : Torn store) : Held store := by
  obtain ⟨-, stored⟩ | ⟨stored, -⟩ := torn
  · exact .inr stored
  exact .inl stored

/-! ## Records that stop every attempt -/

variable {progress : Progress}

lemma identityKey_halfBound (half : HalfBound progress.store) :
    identityKey config attempt progress = (.error .failed, progress) := by
  change (if ¬ attempt.reads .connecting "tenant" ∨ ¬ attempt.reads .connecting "device" then
      stop .failed
    else _ : Flow Progress Stop (List UInt8)) progress = _
  split
  · rfl
  obtain ⟨none_, some_⟩ | ⟨some_, none_⟩ := half
  · obtain ⟨device, stored⟩ := Option.ne_none_iff_exists'.mp some_
    simp only [none_, stored]
    rfl
  obtain ⟨tenant, stored⟩ := Option.ne_none_iff_exists'.mp some_
  simp only [none_, stored]
  rfl

variable {start : Store}

lemma connectIdentity_halfBound (half : HalfBound start) :
    connectIdentity suite config attempt { store := start } =
      (.error .failed, { store := start }) := by
  unfold connectIdentity
  split
  · rfl
  cases attempt.verifiedTime with
  | none => rfl
  | some now =>
    have failed : identityKey config attempt { store := start } = _ := identityKey_halfBound half
    dsimp only [bind]
    rw [failed]

/-- With one part of a response `issue` fails before it does anything. -/
lemma issue_torn (torn : Torn progress.store) (key : List UInt8) (renewing : Bool) :
    issue suite config attempt key renewing progress = (.error .failed, progress) := by
  change (if ¬ attempt.reads .issuing "pending" ∨ ¬ attempt.reads .issuing "pending_ca" then
      stop .failed
    else _ : Flow Progress Stop Unit) progress = _
  split
  · rfl
  obtain ⟨none_, some_⟩ | ⟨some_, none_⟩ := torn
  · obtain ⟨header, stored⟩ := Option.ne_none_iff_exists'.mp some_
    simp only [none_, stored]
    rfl
  obtain ⟨bundle, stored⟩ := Option.ne_none_iff_exists'.mp some_
  have missing : loadBlob progress.store "pending_ca" = none := by rw [loadBlob, none_]
  simp only [none_, stored, missing]
  cases loadBlob progress.store "pending" <;> rfl

/-- With one part of a response no attempt sends a request or touches the response and the
certificate. -/
lemma connectIdentity_torn (torn : Torn start) :
    Untouched config start (connectIdentity suite config attempt { store := start }).2 := by
  apply connectIdentity_keeps fun _ untouched => untouched
  rintro key renewing progress ⟨untouched, -⟩
  have stillTorn : Torn progress.store := by
    rw [Torn, untouched.pending, untouched.pendingAuthority]
    exact torn
  rw [issue_torn stillTorn]
  exact untouched

/-! ## Records from which an attempt goes on -/

/-- The system and the network do what the attempt asks of them before its request. -/
structure Attempt.Works (attempt : Attempt) (now : Int) : Prop where
  starts : attempt.starts = true
  verifiedTime : attempt.verifiedTime = some now
  reads : ∀ reading name, attempt.reads reading name = true
  generated : ∃ key, attempt.generated = some key ∧ key ≠ [] ∧ key.length ≤ 256
  key : attempt.writes .key = .done
  tenant : attempt.writes .tenant = .done
  device : attempt.writes .device = .done
  prepares : attempt.prepares = true
  reaches : attempt.reaches = true

lemma write_done {access : Access} (done : attempt.writes access = .done)
    (edit : Progress → Progress) (progress : Progress) :
    write attempt access edit progress = (.ok (), edit progress) := by
  unfold write tryWrite
  rw [done]
  rfl

variable {now : Int}

lemma identityKey_bound (works : attempt.Works now)
    (tenant : progress.store "tenant" = some config.tenant)
    (device : progress.store "device" = some config.device)
    (loaded : loadBlob progress.store "key" = some key) :
    identityKey config attempt progress = (.ok key, progress) := by
  unfold identityKey
  rw [Flow.state_bind]
  simp only [works.reads, tenant, device, loaded, not_true_eq_false, or_self, if_false, ne_eq]
  rfl

lemma identityKey_fresh (works : attempt.Works now) (config : Config) (progress : Progress)
    (tenant : progress.store "tenant" = none) (device : progress.store "device" = none) :
    ∃ key after, identityKey config attempt progress = (.ok key, after) := by
  obtain ⟨key, generated, nonempty, small⟩ := works.generated
  refine ⟨key, ((progress.set "key" (some key)).set "tenant" (some config.tenant)).set "device"
    (some config.device), ?_⟩
  have usable : ¬ (key = [] ∨ 256 < key.length) := by
    rintro (empty | large)
    · exact nonempty empty
    omega
  unfold identityKey
  rw [Flow.state_bind]
  simp only [works.reads, tenant, device, generated, usable, not_true_eq_false, or_self, if_false]
  rw [bind_of_ok (write_done works.key _ _), bind_of_ok (write_done works.tenant _ _),
    bind_of_ok (write_done works.device _ _)]
  rfl

/-- An attempt that works gets its key, unless only half of the binding is stored. -/
lemma identityKey_works (works : attempt.Works now)
    (bound : Bound config start) (whole : ¬ HalfBound start) :
    ∃ key after, identityKey config attempt { store := start } = (.ok key, after) ∧
      (start "tenant" ≠ none → loadBlob start "key" = some key ∧
        after = { store := start }) := by
  cases tenant : start "tenant" with
  | none =>
    have device : start "device" = none := by
      by_contra stored
      exact whole (.inl ⟨tenant, stored⟩)
    obtain ⟨key, after, run⟩ := identityKey_fresh works config { store := start } tenant device
    exact ⟨key, after, run, by simp⟩
  | some tenantId =>
    have device : start "device" ≠ none := fun unbound =>
      whole (.inr ⟨by simp [tenant], unbound⟩)
    obtain ⟨deviceId, device⟩ := Option.ne_none_iff_exists'.mp device
    obtain ⟨key, loaded⟩ := bound.key (.inl (by simp [tenant]))
    obtain rfl := bound.tenant _ tenant
    obtain rfl := bound.device _ device
    exact ⟨key, _, identityKey_bound works tenant device loaded, fun _ => ⟨loaded, rfl⟩⟩

lemma connectIdentity_torn_fails (torn : Torn start) (none_ : start "certificate" = none) :
    (connectIdentity suite config attempt { store := start }).1 ≠ .ok () := by
  have meets : Meets (fun progress => progress = { store := start })
      (connectIdentity suite config attempt) (fun _ _ => False) (fun _ _ => True) := by
    have stops : ∀ before : Progress → Prop, Meets before
        (stop .failed : Flow Progress Stop Unit) (fun _ _ => False) (fun _ _ => True) :=
      fun before => Meets.stop fun _ _ => trivial
    apply Meets.ite
    · exact fun _ => stops _
    intro _
    cases attempt.verifiedTime with
    | none => exact stops _
    | some now =>
      have keyed : Meets (fun progress => progress = { store := start })
          (identityKey config attempt)
          (fun key progress => Untouched config start progress ∧
            progress.store "key" = some key) (fun _ _ => True) := by
        apply (identityKey_meets start).weaken
        · exact fun _ same => same
        · exact fun _ _ holds => holds
        exact fun _ _ _ => trivial
      apply keyed.bind
      intro key
      apply Meets.state_bind
      rintro seen ⟨untouched, -⟩
      have stillTorn : Torn seen.store := by
        rw [Torn, untouched.pending, untouched.pendingAuthority]
        exact torn
      have nothing : loadCertificate suite seen.store = some none := by
        rw [loadCertificate, untouched.certificate, none_]
      apply Meets.ite
      · exact fun _ => stops _
      intro _
      rw [nothing]
      apply Meets.ite
      · exact fun _ => stops _
      intro _
      have renews : Meets (fun progress => progress = seen)
          (renewIfDue suite config attempt key none (renewDue attempt seen.store none
            ((none : Option (List UInt8)).bind fun der => suite.verify der key now)))
          (fun _ _ => False) (fun _ _ => True) := by
        have due : renewDue attempt seen.store none
            ((none : Option (List UInt8)).bind fun der => suite.verify der key now) = true := by
          simp [renewDue]
        rw [due]
        rintro progress rfl
        have fails : renewIfDue suite config attempt key none true progress =
            (.error .failed, progress) := by
          exact recover_of_error (issue_torn stillTorn key _) _
        rw [fails]
        trivial
      apply renews.bind
      intro _ current impossible
      exact impossible.elim
  have reached := meets _ rfl
  intro succeeded
  split at reached
  · exact reached
  rename_i run
  rw [run] at succeeded
  simp at succeeded

end Cut

section Sending

variable {suite : Suite} {config : Config} {attempt : Attempt}

variable {edit : Progress → Progress}

lemma tryWrite_keeps {kept : Progress → Prop} (access : Access)
    (edited : ∀ progress, kept progress → kept (edit progress)) :
    Leaves kept (tryWrite attempt access edit) kept := by
  apply tryWrite_meets
  · exact fun progress holds => ⟨holds, holds⟩
  exact fun progress holds => ⟨edited progress holds, edited progress holds, edited progress holds⟩

def Progress.Sent (progress : Progress) : Prop := progress.sent ≠ none

lemma write_sent (access : Access)
    (edited : ∀ progress : Progress, (edit progress).sent = progress.sent) :
    Leaves Progress.Sent (write attempt access edit) Progress.Sent := by
  apply write_meets
  · exact fun progress holds => holds
  intro progress holds
  have next : (edit progress).Sent := by rwa [Progress.Sent, edited]
  exact ⟨next, next⟩

lemma tryWrite_sent (access : Access)
    (edited : ∀ progress : Progress, (edit progress).sent = progress.sent) :
    Leaves Progress.Sent (tryWrite attempt access edit) Progress.Sent := by
  apply tryWrite_keeps
  intro progress holds
  rwa [Progress.Sent, edited]

lemma set_sent (name : String) (value : Option (List UInt8)) (progress : Progress) :
    (progress.set name value).sent = progress.sent := rfl

lemma retain_sent (name : String) (value : List UInt8) (progress : Progress) :
    (progress.retain name value).sent = progress.sent := rfl

lemma install_sent (der : List UInt8) (progress : Progress) :
    (progress.install der).sent = progress.sent := rfl

lemma verifyIssued_sent (key bundle : List UInt8) (pin : Option (List UInt8)) :
    Leaves Progress.Sent (verifyIssued suite attempt key bundle pin) Progress.Sent := by
  have stays : Leaves Progress.Sent (stop .failed : Flow Progress Stop Unit)
      Progress.Sent :=
    Meets.stop fun progress holds => holds
  have pins : Leaves Progress.Sent (pinAuthority attempt pin)
      Progress.Sent := by
    cases pin with
    | none => exact Meets.pure fun progress holds => holds
    | some authority => exact write_sent .authority (set_sent _ _)
  unfold verifyIssued
  cases suite.importBundle bundle with
  | none => exact stays
  | some der =>
    cases attempt.issuedTime with
    | none => exact stays
    | some now =>
      apply Meets.ite
      · exact fun _ => stays
      intro _
      exact pins.bind fun _ => (write_sent .certificate (install_sent der)).bind fun _ =>
        (tryWrite_sent .dropPending (set_sent _ _)).bind fun _ =>
        (tryWrite_sent .dropPendingAuthority (set_sent _ _)).bind fun _ =>
        Meets.pure fun progress holds => holds

lemma acceptResponse_sent (key : List UInt8) (renewing : Bool) (response : Response) :
    Leaves Progress.Sent (acceptResponse suite attempt key renewing response) Progress.Sent := by
  have stays : Leaves Progress.Sent (stop .failed : Flow Progress Stop Unit)
      Progress.Sent :=
    Meets.stop fun progress holds => holds
  have retains : Leaves Progress.Sent (retainResponse attempt renewing response)
      Progress.Sent := by
    have authority : Leaves Progress.Sent
        (retainAuthority attempt renewing response.authority)
        Progress.Sent := by
      cases response.authority with
      | some header => exact tryWrite_sent .pendingAuthority (retain_sent _ _)
      | none =>
        apply Meets.ite
        · exact fun _ => tryWrite_sent .pendingAuthority (retain_sent _ _)
        exact fun _ => tryWrite_sent .pendingAuthority (set_sent _ _)
    exact (tryWrite_sent .pending (retain_sent _ _)).bind fun _ => authority.bind fun _ =>
      Meets.pure fun progress holds => holds
  apply retains.bind
  intro retained
  cases retained with
  | false => exact stays
  | true =>
    rw [if_pos rfl]
    cases response.authority with
    | some header =>
      dsimp only
      cases suite.authority header with
      | none => exact stays
      | some authority => exact verifyIssued_sent _ _ _
    | none =>
      apply Meets.ite
      · exact fun _ => verifyIssued_sent _ _ _
      exact fun _ => stays

variable {key : List UInt8}

lemma request_sent (prepares : attempt.prepares = true)
    (credential : renewing = true ∨ config.token ≠ []) :
    Leaves (fun _ => True) (request suite config attempt key renewing) Progress.Sent := by
  unfold request
  rw [if_neg (by
    rintro (unprepared | ⟨enrolling, empty⟩)
    · exact unprepared prepares
    obtain renewal | token := credential
    · exact enrolling renewal
    exact token empty)]
  have sends : Meets (fun _ => True)
      (Flow.change fun progress : Progress => { progress with sent := some progress.store })
      (fun _ => Progress.Sent) (fun (_ : Stop) => Progress.Sent) := by
    apply Meets.change
    intro progress _
    simp [Progress.Sent]
  apply sends.bind
  intro _
  cases attempt.response with
  | none => exact Meets.stop fun progress holds => holds
  | some response => exact acceptResponse_sent key renewing response

/-- Without any part of a response `issue` comes to its request. -/
lemma issue_free (free : ¬ Held progress.store)
    (reads : ∀ reading name, attempt.reads reading name = true) (key : List UInt8)
    (renewing : Bool) : issue suite config attempt key renewing progress =
      request suite config attempt key renewing progress := by
  rw [Held, not_or, not_not, not_not] at free
  unfold issue
  rw [Flow.state_bind]
  simp only [reads, free.1, free.2, not_true_eq_false, or_self, if_false]

lemma renew_sent (free : ¬ Held progress.store)
    (reads : ∀ reading name, attempt.reads reading name = true)
    (prepares : attempt.prepares = true) (credential : stored.isSome = true ∨ config.token ≠ []) :
    ((renewIfDue suite config attempt key stored true >>= fun _ => reachBroker attempt)
      progress).2.Sent := by
  have issues : Leaves (fun current => current = progress)
      (issue suite config attempt key stored.isSome)
      Progress.Sent := by
    rintro current rfl
    rw [issue_free free reads]
    exact request_sent prepares credential _ trivial
  have renews : Leaves (fun current => current = progress)
      (renewIfDue suite config attempt key stored true)
      Progress.Sent :=
    issues.recover fun reason => keepStored_meets key stored reason
  have reaches : Leaves Progress.Sent (reachBroker attempt)
      Progress.Sent := by
    apply Meets.ite
    · exact fun _ => Meets.stop fun current holds => holds
    exact fun _ => Meets.pure fun current holds => holds
  exact (renews.bind fun _ => reaches).ends rfl

variable {now : Int}

lemma reachBroker_works (works : attempt.Works now) (progress : Progress) :
    reachBroker attempt progress = (.ok (), progress) := by
  unfold reachBroker
  rw [if_neg (by simp [works.reaches])]
  rfl

lemma loadCertificate_congr {store other : Store}
    (same : other "certificate" = store "certificate") :
    loadCertificate suite other = loadCertificate suite store := by
  rw [loadCertificate, loadCertificate, loadBlob, loadBlob, same]

variable {start : Store}

lemma Untouched.key_run (run : identityKey config attempt { store := start } = (.ok key, after)) :
    Untouched config start after := by
  have meets : Meets (fun progress => progress = { store := start })
      (identityKey config attempt)
      (fun key progress => Untouched config start progress ∧ progress.store "key" = some key)
      (fun _ => Untouched config start) := identityKey_meets start
  have reached := meets _ rfl
  rw [run] at reached
  exact reached.1

/-- An identity that an attempt can enroll or renew. -/
inductive Renewable (suite : Suite) (config : Config) (now : Int) (start : Store) : Prop
  | enrolls (none_ : start "certificate" = none) (token : config.token ≠ [])
  | renews (der key : List UInt8) (stored : loadCertificate suite start = some (some der))
      (bound : start "tenant" ≠ none) (loaded : loadBlob start "key" = some key)
      (valid : suite.verify der key now ≠ none)

/-- When the binding is whole, no part of a response is stored and the stored certificate, if
there is one, is valid, an attempt that works sends a request or succeeds without one. -/
lemma connectIdentity_advances (works : attempt.Works now)
    (bound : Bound config start) (whole : ¬ HalfBound start) (free : ¬ Held start)
    (renewable : Renewable suite config now start) :
    (connectIdentity suite config attempt { store := start }).1 = .ok () ∨
      (connectIdentity suite config attempt { store := start }).2.Sent := by
  obtain ⟨key, after, run, loads⟩ := identityKey_works works bound whole
  have untouched : Untouched config start after := Untouched.key_run run
  have afterFree : ¬ Held after.store := by rwa [untouched.held_iff]
  have entered : connectIdentity suite config attempt { store := start } =
      useIdentity suite config attempt key now after := by
    unfold connectIdentity
    rw [if_neg (by simp [works.starts]), works.verifiedTime]
    exact bind_of_ok run
  have loaded : loadCertificate suite after.store = loadCertificate suite start :=
    loadCertificate_congr untouched.certificate
  rw [entered]
  unfold useIdentity
  rw [Flow.state_bind]
  simp only [works.reads, not_true_eq_false, or_self, if_false, loaded]
  cases renewable with
  | enrolls none_ token =>
    have nothing : loadCertificate suite start = some none := by rw [loadCertificate, none_]
    right
    rw [nothing]
    dsimp only
    have due : renewDue attempt after.store none
        ((none : Option (List UInt8)).bind fun der => suite.verify der key now) = true := by
      simp [renewDue]
    rw [due]
    exact renew_sent afterFree works.reads works.prepares (.inr token)
  | renews der storedKey stored isBound loadedKey valid =>
    obtain ⟨sameKey, -⟩ := loads isBound
    obtain rfl : storedKey = key := by simpa [loadedKey] using sameKey
    rw [stored]
    dsimp only
    rw [if_neg (by
      rintro ⟨-, invalid, -⟩
      exact valid invalid)]
    cases due : renewDue attempt after.store (some der)
        ((some der).bind fun der => suite.verify der storedKey now) with
    | true =>
      right
      exact renew_sent afterFree works.reads works.prepares (.inl rfl)
    | false =>
      left
      have unchanged : renewIfDue suite config attempt storedKey (some der) false after =
          (.ok (), after) := rfl
      rw [bind_of_ok unchanged, reachBroker_works works]

/-! ## A retained response -/

/-- What an attempt needs to store the certificate of a response. -/
structure Attempt.Completes (attempt : Attempt) (later : Int) : Prop where
  allocates : attempt.allocates = true
  issuedTime : attempt.issuedTime = some later
  invalidates : attempt.invalidates = true
  authority : attempt.writes .authority = .done
  certificate : attempt.writes .certificate = .done
  dropPending : attempt.writes .dropPending = .done
  dropPendingAuthority : attempt.writes .dropPendingAuthority = .done

lemma tryWrite_done (done : attempt.writes access = .done) (edit : Progress → Progress)
    (progress : Progress) :
    tryWrite attempt access edit progress = (.ok true, edit progress) := by
  unfold tryWrite
  rw [done]
  rfl

lemma verifyIssued_done {later : Int} (completes : attempt.Completes later)
    (imported : suite.importBundle bundle = some der) (valid : suite.verify der key later ≠ none)
    (pin : Option (List UInt8)) (progress : Progress) :
    ∃ after, verifyIssued suite attempt key bundle pin progress = (.ok (), after) ∧
      after.store "certificate" = some der ∧ ¬ Held after.store := by
  have pinned : ∃ after, pinAuthority attempt pin progress = (.ok (), after) := by
    cases pin with
    | none => exact ⟨progress, rfl⟩
    | some authority => exact ⟨_, write_done completes.authority _ _⟩
  obtain ⟨pinned, pins⟩ := pinned
  refine ⟨((pinned.install der).set "pending" none).set "pending_ca" none, ?_, ?_, ?_⟩
  · unfold verifyIssued
    simp only [imported, completes.issuedTime, completes.allocates, completes.invalidates, valid,
      not_true_eq_false, or_self, if_false]
    unfold installIssued
    rw [bind_of_ok pins, bind_of_ok (write_done completes.certificate _ _),
      bind_of_ok (tryWrite_done completes.dropPending _ _),
      bind_of_ok (tryWrite_done completes.dropPendingAuthority _ _)]
    rfl
  · simp [Progress.set, Progress.install]
  simp [Held, Progress.set, Progress.install]

/-- A response that can be stored: both parts are there, its authority can be pinned or was
omitted on a renewal, and its certificate verifies. -/
structure Replayable (suite : Suite) (later : Int) (start : Store) (key der : List UInt8) :
    Prop where
  bound : start "tenant" ≠ none
  loaded : loadBlob start "key" = some key
  certificate : loadCertificate suite start ≠ none
  response : ∃ bundle header, loadBlob start "pending" = some bundle ∧
    loadBlob start "pending_ca" = some header ∧ suite.importBundle bundle = some der ∧
    (start "certificate" ≠ none ∧ header = [0] ∨ 0 ∉ header ∧ suite.authority header ≠ none)
  valid : suite.verify der key later ≠ none

/-- An attempt that works stores the certificate of a retained response and drops the
response. -/
lemma connectIdentity_replays (works : attempt.Works now) (completes : attempt.Completes later)
    (bound : Bound config start) (whole : ¬ HalfBound start)
    (replayable : Replayable suite later start key der) :
    (connectIdentity suite config attempt { store := start }).1 = .ok () ∧
      (connectIdentity suite config attempt { store := start }).2.store "certificate" =
        some der ∧
      ¬ Held (connectIdentity suite config attempt { store := start }).2.store := by
  obtain ⟨found, after, run, loads⟩ := identityKey_works works bound whole
  obtain ⟨foundLoaded, rfl⟩ := loads replayable.bound
  obtain rfl : key = found := by simpa [replayable.loaded] using foundLoaded
  obtain ⟨bundle, header, loadedBundle, loadedHeader, imported, pinnable⟩ := replayable.response
  obtain ⟨stored, loadedCertificate⟩ := Option.ne_none_iff_exists'.mp replayable.certificate
  have pending : start "pending" = some bundle := loadBlob_stored loadedBundle
  have storedIff : stored.isSome = true ↔ start "certificate" ≠ none := by
    cases certificate : start "certificate" with
    | none =>
      rw [loadCertificate, certificate] at loadedCertificate
      simp [← Option.some.inj loadedCertificate]
    | some bytes =>
      rw [loadCertificate, certificate] at loadedCertificate
      obtain ⟨found, -, same⟩ := Option.map_eq_some_iff.mp loadedCertificate
      simp [← same]
  -- The response is replayed with its authority, or without one on a renewal.
  obtain ⟨issued, replays, certificate, free⟩ : ∃ issued,
      issue suite config attempt key stored.isSome { store := start } = (.ok (), issued) ∧
        issued.store "certificate" = some der ∧ ¬ Held issued.store := by
    have reading : issue suite config attempt key stored.isSome { store := start } =
        replayPending suite attempt key stored.isSome bundle header { store := start } := by
      unfold issue
      rw [Flow.state_bind]
      simp only [works.reads, not_true_eq_false, or_self, if_false, pending, loadedBundle,
        loadedHeader]
    rw [reading]
    unfold replayPending
    obtain ⟨renewing, rfl⟩ | ⟨text, decodes⟩ := pinnable
    · rw [if_pos ⟨storedIff.mpr renewing, rfl⟩]
      exact verifyIssued_done completes imported replayable.valid none _
    obtain ⟨authority, decoded⟩ := Option.ne_none_iff_exists'.mp decodes
    have notOmitted : ¬ (stored.isSome = true ∧ header = [0]) := by
      rintro ⟨-, rfl⟩
      exact text (by simp)
    rw [if_neg notOmitted, if_neg text, decoded]
    exact verifyIssued_done completes imported replayable.valid (some authority) _
  have entered : connectIdentity suite config attempt { store := start } = (.ok (), issued) := by
    unfold connectIdentity
    rw [if_neg (by simp [works.starts]), works.verifiedTime]
    dsimp only
    rw [bind_of_ok run]
    unfold useIdentity
    rw [Flow.state_bind]
    simp only [works.reads, not_true_eq_false, or_self, if_false, loadedCertificate]
    have due : renewDue attempt start stored (stored.bind fun der => suite.verify der key now) =
        true := by
      simp [renewDue, pending]
    rw [if_neg (by simp [pending]), due]
    have renews : renewIfDue suite config attempt key stored true { store := start } =
        (.ok (), issued) := by
      exact recover_of_ok replays _
    rw [bind_of_ok renews, reachBroker_works works]
  rw [entered]
  exact ⟨rfl, certificate, free⟩

end Sending

/-! ## Runs of attempts -/

/-- The records, with how many certificates have been stored, and the credentials whose
response was stored at least in part. The credential of an enrollment has number 0, and each
stored certificate is the next one. -/
structure Device where
  store : Store := fun _ => none
  generation : Nat := 0
  spent : List Nat := []

section Runs

variable (suite : Suite) (config : Config)

def Device.step (device : Device) (attempt : Attempt) : Device :=
  let progress := (connectIdentity suite config attempt { store := device.store }).2
  { store := progress.store
    generation := if progress.installed then device.generation + 1 else device.generation
    spent := if progress.retained then device.generation :: device.spent else device.spent }

def Device.run (device : Device) (attempts : List Attempt) : Device :=
  attempts.foldl (Device.step suite config) device

end Runs

/-- A credential whose response was stored is an earlier one, or a part of its response is
still stored. -/
structure Ordered (config : Config) (device : Device) : Prop where
  spent : ∀ number ∈ device.spent, number < device.generation ∨
    number = device.generation ∧ Held device.store
  bound : Bound config device.store
  enrolled : device.generation = 0 ↔ device.store "certificate" = none

section Facts

variable {suite : Suite} {config : Config}

variable {device : Device}

lemma step_ordered (ordered : Ordered config device) (attempt : Attempt) :
    Ordered config (device.step suite config attempt) := by
  have sound : Sound suite config attempt device.store
      (connectIdentity suite config attempt { store := device.store }).2 :=
    connectIdentity_sound device.store
  unfold Device.step
  generalize (connectIdentity suite config attempt { store := device.store }).2 = progress at *
  refine ⟨?_, sound.bound ordered.bound, ?_⟩
  · intro number mem
    dsimp only at mem ⊢
    have earlier : number < device.generation ∨ number = device.generation ∧
        (Held device.store ∨ progress.retained = true) := by
      split at mem
      next retained =>
        obtain rfl | older := List.mem_cons.mp mem
        · exact .inr ⟨rfl, .inr retained⟩
        obtain less | ⟨same, held⟩ := ordered.spent number older
        · exact .inl less
        exact .inr ⟨same, .inl held⟩
      obtain less | ⟨same, held⟩ := ordered.spent number mem
      · exact .inl less
      exact .inr ⟨same, .inl held⟩
    cases installed : progress.installed with
    | true =>
      left
      rw [if_pos rfl]
      rcases earlier with less | ⟨same, -⟩ <;> omega
    | false =>
      obtain less | ⟨same, held⟩ := earlier
      · exact .inl less
      exact .inr ⟨same, sound.held installed held⟩
  dsimp only
  cases installed : progress.installed with
  | true =>
    obtain ⟨der, stored, -⟩ := sound.verified installed
    rw [if_pos rfl, stored]
    simp
  | false =>
    rw [if_neg (by simp), sound.certificate installed]
    exact ordered.enrolled

lemma run_ordered (ordered : Ordered config device)
    (attempts : List Attempt) : Ordered config (device.run suite config attempts) := by
  induction attempts generalizing device with
  | nil => exact ordered
  | cons attempt attempts ih => exact ih (step_ordered ordered attempt)

lemma initial_ordered : Ordered config {} := by
  refine ⟨by simp, ⟨by simp, by simp, by simp⟩, by simp⟩

lemma run_halfBound (half : HalfBound device.store)
    (attempts : List Attempt) : HalfBound (device.run suite config attempts).store := by
  induction attempts generalizing device with
  | nil => exact half
  | cons attempt attempts ih =>
    apply ih
    unfold Device.step
    rw [connectIdentity_halfBound half]
    exact half

lemma step_torn (torn : Torn device.store) (attempt : Attempt) :
    Torn (device.step suite config attempt).store ∧
      (device.step suite config attempt).store "certificate" = device.store "certificate" := by
  have untouched : Untouched config device.store
      (connectIdentity suite config attempt { store := device.store }).2 :=
    connectIdentity_torn torn
  refine ⟨?_, untouched.certificate⟩
  change Torn (connectIdentity suite config attempt { store := device.store }).2.store
  rw [Torn, untouched.pending, untouched.pendingAuthority]
  exact torn

lemma run_torn (torn : Torn device.store) (attempts : List Attempt) :
    Torn (device.run suite config attempts).store ∧
      (device.run suite config attempts).store "certificate" = device.store "certificate" := by
  induction attempts generalizing device with
  | nil => exact ⟨torn, rfl⟩
  | cons attempt attempts ih =>
    have next : Torn (device.step suite config attempt).store ∧
        (device.step suite config attempt).store "certificate" =
          device.store "certificate" := step_torn torn attempt
    obtain ⟨runTorn, runSame⟩ := ih next.1
    exact ⟨runTorn, runSame.trans next.2⟩

end Facts

def sampleSuite : Suite where
  importBundle bundle := some bundle
  authority header := some header
  verify _ _ now := if now < 100 then some { notBefore := 0, expires := 100 } else none

def sampleConfig : Config where
  tenant := [1]
  device := [2]
  token := [3]

def enrolling (authority : Option (List UInt8)) (writes : Access → Conf.Commit) : Attempt where
  connects := true
  starts := true
  verifiedTime := some 1
  reads _ _ := true
  generated := some [4]
  dueTime := 1
  prepares := true
  response := some { certificate := [5], authority }
  allocates := true
  issuedTime := some 2
  invalidates := true
  recheckTime := 2
  reaches := true
  writes

def losing (access : Access) : Access → Conf.Commit := fun other =>
  if other = access then .interrupted false else .done

/-- No later attempt sends a request. -/
def Silent (suite : Suite) (config : Config) (device : Device) : Prop :=
  ∀ later attempt, (connectIdentity suite config attempt
    { store := (device.run suite config later).store }).2.sent = none

/-- No later attempt sends a request or succeeds. -/
def Refuses (suite : Suite) (config : Config) (device : Device) : Prop :=
  ∀ later attempt, (connectIdentity suite config attempt
      { store := (device.run suite config later).store }).2.sent = none ∧
    (connectIdentity suite config attempt
      { store := (device.run suite config later).store }).1 ≠ .ok ()

end WendyLite.Pki.Enrollment
