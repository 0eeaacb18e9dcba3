import WendyLite.Pki.Enrollment

/-! # What an attempt to enroll or renew keeps

However an attempt ends, also where the power is lost: a request is sent only when no part
of an earlier response is stored; a part that is stored stays until a certificate is; a
certificate is stored only if it verifies for the stored key at a time that was verified
after its response; and the authority is pinned only with such a response.
-/

namespace WendyLite.Pki.Enrollment

open WendyLite.Flow

/-! ## What every attempt keeps -/

def Held (store : Store) : Prop := store "pending" ≠ none ∨ store "pending_ca" ≠ none

instance (store : Store) : Decidable (Held store) :=
  inferInstanceAs (Decidable (store "pending" ≠ none ∨ store "pending_ca" ≠ none))

/-- What is stored of the binding is that of the configuration, and comes with a key. -/
structure Bound (config : Config) (store : Store) : Prop where
  tenant : ∀ tenant, store "tenant" = some tenant → tenant = config.tenant
  device : ∀ device, store "device" = some device → device = config.device
  key : store "tenant" ≠ none ∨ store "device" ≠ none → ∃ key, loadBlob store "key" = some key

/-- A certificate that an attempt may store: it was imported from a response, and it verifies
for the stored key at the time that was verified after the response. -/
structure Verified (suite : Suite) (attempt : Attempt) (start store : Store)
    (der : List UInt8) : Prop where
  source : ∃ bundle, suite.importBundle bundle = some der ∧
    (start "pending" = some bundle ∨
      ∃ response, attempt.response = some response ∧ response.certificate = bundle)
  valid : ∃ key now, store "key" = some key ∧ attempt.issuedTime = some now ∧
    suite.verify der key now ≠ none

/-- An authority that an attempt may pin: its header came with a response whose certificate
verifies. -/
structure Pinnable (suite : Suite) (attempt : Attempt) (start store : Store)
    (authority : List UInt8) : Prop where
  source : ∃ header, suite.authority header = some authority ∧
    (start "pending_ca" = some header ∨
      ∃ response, attempt.response = some response ∧ response.authority = some header)
  verified : ∃ der, Verified suite attempt start store der

/-- What holds all along an attempt that found the records `start`. -/
structure Sound (suite : Suite) (config : Config) (attempt : Attempt) (start : Store)
    (progress : Progress) : Prop where
  sent : ∀ store, progress.sent = some store → ¬ Held store ∧ ¬ Held start ∧
    store "certificate" = start "certificate"
  held : progress.installed = false → Held start ∨ progress.retained = true → Held progress.store
  certificate : progress.installed = false →
    progress.store "certificate" = start "certificate"
  verified : progress.installed = true → ∃ der, progress.store "certificate" = some der ∧
    Verified suite attempt start progress.store der
  pin : progress.store "lite_ca" = start "lite_ca" ∨ ∃ authority,
    progress.store "lite_ca" = some authority ∧
      Pinnable suite attempt start progress.store authority
  bound : Bound config start → Bound config progress.store

section Facts

variable {suite : Suite} {config : Config} {attempt : Attempt}

variable {before : Progress → Prop}

lemma tryWrite_meets {after : Bool → Progress → Prop} {stopped : Stop → Progress → Prop}
    (unchanged : ∀ progress, before progress → after false progress ∧ stopped .lost progress)
    (edited : ∀ progress, before progress → after true (edit progress) ∧
      after false (edit progress) ∧ stopped .lost (edit progress)) :
    Meets before (tryWrite attempt access edit) after stopped := by
  unfold tryWrite
  cases attempt.writes access with
  | done => exact fun progress holds => (edited progress holds).1
  | failed made =>
    cases made with
    | true => exact fun progress holds => (edited progress holds).2.1
    | false => exact fun progress holds => (unchanged progress holds).1
  | interrupted made =>
    cases made with
    | true => exact fun progress holds => (edited progress holds).2.2
    | false => exact fun progress holds => (unchanged progress holds).2

variable {kept : Progress → Prop}

lemma write_meets {after : Unit → Progress → Prop}
    (unchanged : ∀ progress, before progress → kept progress)
    (edited : ∀ progress, before progress → after () (edit progress) ∧ kept (edit progress)) :
    Meets before (write attempt access edit) after (fun _ => kept) := by
  have tried : Meets before (tryWrite attempt access edit)
      (fun reported progress => if reported then after () progress else kept progress)
      (fun _ => kept) := by
    apply tryWrite_meets
    · exact fun progress holds => ⟨unchanged progress holds, unchanged progress holds⟩
    exact fun progress holds =>
      ⟨(edited progress holds).1, (edited progress holds).2, (edited progress holds).2⟩
  apply tried.bind
  intro reported
  cases reported with
  | true => exact Meets.pure fun progress holds => holds
  | false => exact Meets.stop fun progress holds => holds

/-! ### The key -/

/-- An attempt that has at most stored a key and its binding. -/
structure Untouched (config : Config) (start : Store) (progress : Progress) : Prop where
  sent : progress.sent = none
  retained : progress.retained = false
  installed : progress.installed = false
  certificate : progress.store "certificate" = start "certificate"
  pending : progress.store "pending" = start "pending"
  pendingAuthority : progress.store "pending_ca" = start "pending_ca"
  authority : progress.store "lite_ca" = start "lite_ca"
  bound : Bound config start → Bound config progress.store

variable {start : Store} {progress : Progress}

lemma Untouched.held_iff
    (untouched : Untouched config start progress) : Held progress.store ↔ Held start := by
  rw [Held, Held, untouched.pending, untouched.pendingAuthority]

lemma Untouched.sound (untouched : Untouched config start progress) :
    Sound suite config attempt start progress where
  sent store sent := by simp [untouched.sent] at sent
  held _ held := by
    rw [untouched.held_iff]
    simpa [untouched.retained] using held
  certificate _ := untouched.certificate
  verified installed := by simp [untouched.installed] at installed
  pin := .inl untouched.authority
  bound := untouched.bound

lemma untouched_start (start : Store) : Untouched config start { store := start } :=
  ⟨rfl, rfl, rfl, rfl, rfl, rfl, rfl, id⟩

variable {name : String} {store : Store}

lemma loadBlob_eq_some (stored : store name = some bytes) (nonempty : bytes ≠ [])
    (small : bytes.length ≤ maxResponse) : loadBlob store name = some bytes := by
  rw [loadBlob, stored]
  dsimp only
  rw [if_neg]
  rintro (empty | large)
  · exact nonempty empty
  omega

lemma loadBlob_stored (loaded : loadBlob store name = some bytes) : store name = some bytes := by
  unfold loadBlob at loaded
  cases stored : store name with
  | none => simp [stored] at loaded
  | some found =>
    simp only [stored] at loaded
    split at loaded
    · simp at loaded
    exact loaded

lemma Untouched.set (untouched : Untouched config start progress)
    (binding : name ∈ ["key", "tenant", "device"])
    (bound : Bound config (progress.set name (some value)).store) :
    Untouched config start (progress.set name (some value)) := by
  have other : ∀ key ∈ ["certificate", "pending", "pending_ca", "lite_ca"],
      (progress.set name (some value)).store key = progress.store key := by
    intro key mem
    have apart : ∀ name ∈ ["key", "tenant", "device"],
        ∀ key ∈ ["certificate", "pending", "pending_ca", "lite_ca"], key ≠ name := by decide
    exact Function.update_of_ne (apart name binding key mem) _ _
  exact ⟨untouched.sent, untouched.retained, untouched.installed,
    (other _ (by decide)).trans untouched.certificate,
    (other _ (by decide)).trans untouched.pending,
    (other _ (by decide)).trans untouched.pendingAuthority,
    (other _ (by decide)).trans untouched.authority, fun _ => bound⟩

lemma identityKey_meets (start : Store) :
    Meets (fun progress => progress = { store := start }) (identityKey config attempt)
      (fun key progress => Untouched config start progress ∧ progress.store "key" = some key)
      (fun _ => Untouched config start) := by
  apply Meets.state_bind
  rintro _ rfl
  have stays : ∀ {α : Type} (reason : Stop) (returned : α → Progress → Prop),
      Meets (fun progress : Progress => progress = { store := start })
        (stop reason) returned (fun _ => Untouched config start) := by
    intro α reason returned
    apply Meets.stop
    rintro progress rfl
    exact untouched_start start
  apply Meets.ite
  · exact fun _ => stays _ _
  intro _
  dsimp only
  cases tenant : start "tenant" with
  | some tenant =>
    cases device : start "device" with
    | none => exact stays _ _
    | some device =>
      apply Meets.ite
      · exact fun _ => stays _ _
      intro _
      cases loaded : loadBlob start "key" with
      | none => exact stays _ _
      | some key =>
        apply Meets.pure
        rintro progress rfl
        exact ⟨untouched_start start, loadBlob_stored loaded⟩
  | none =>
    cases device : start "device" with
    | some device => exact stays _ _
    | none =>
      cases attempt.generated with
      | none => exact stays _ _
      | some key =>
        apply Meets.ite
        · exact fun _ => stays _ _
        intro usable
        rw [not_or] at usable
        have small : key.length ≤ maxResponse := by
          unfold maxResponse
          omega
        -- The key first: nothing is bound to it yet.
        have keyStored : Meets (fun progress : Progress => progress = { store := start })
            (write attempt .key (Progress.set "key" (some key)))
            (fun _ progress => Untouched config start progress ∧
              progress.store "key" = some key ∧ progress.store "tenant" = none ∧
              progress.store "device" = none) (fun _ => Untouched config start) := by
          apply write_meets
          · rintro progress rfl
            exact untouched_start start
          rintro progress rfl
          have next : Untouched config start
              (Progress.set "key" (some key) { store := start }) := by
            apply (untouched_start start).set (by decide)
            constructor <;> simp [Progress.set, tenant, device]
          exact ⟨⟨next, by simp [Progress.set], by simp [Progress.set, tenant],
            by simp [Progress.set, device]⟩, next⟩
        have tenantStored : Meets (fun progress : Progress =>
              Untouched config start progress ∧ progress.store "key" = some key ∧
              progress.store "tenant" = none ∧ progress.store "device" = none)
            (write attempt .tenant (Progress.set "tenant" (some config.tenant)))
            (fun _ progress => Untouched config start progress ∧
              progress.store "key" = some key ∧
              progress.store "tenant" = some config.tenant) (fun _ => Untouched config start) := by
          apply write_meets
          · exact fun progress holds => holds.1
          rintro progress ⟨untouched, stored, -, unbound⟩
          have keyKept : (progress.set "tenant" (some config.tenant)).store "key" = some key := by
            simpa [Progress.set] using stored
          have next : Untouched config start
              (progress.set "tenant" (some config.tenant)) := by
            apply untouched.set (by decide)
            refine ⟨?_, ?_, fun _ => ⟨key, loadBlob_eq_some keyKept usable.1 small⟩⟩
            · simp [Progress.set, eq_comm]
            simp [Progress.set, unbound]
          exact ⟨⟨next, keyKept, by simp [Progress.set]⟩, next⟩
        have deviceStored : Meets (fun progress : Progress =>
              Untouched config start progress ∧ progress.store "key" = some key ∧
              progress.store "tenant" = some config.tenant)
            (write attempt .device (Progress.set "device" (some config.device)))
            (fun _ progress => Untouched config start progress ∧
              progress.store "key" = some key) (fun _ => Untouched config start) := by
          apply write_meets
          · exact fun progress holds => holds.1
          rintro progress ⟨untouched, stored, bound⟩
          have keyKept : (progress.set "device" (some config.device)).store "key" = some key := by
            simpa [Progress.set] using stored
          have next : Untouched config start
              (progress.set "device" (some config.device)) := by
            apply untouched.set (by decide)
            refine ⟨?_, ?_, fun _ => ⟨key, loadBlob_eq_some keyKept usable.1 small⟩⟩
            · simp [Progress.set, bound, eq_comm]
            simp [Progress.set, eq_comm]
          exact ⟨⟨next, keyKept⟩, next⟩
        exact keyStored.bind fun _ => tenantStored.bind fun _ => deviceStored.bind fun _ =>
          Meets.pure fun progress holds => holds

/-! ### The response and the certificate -/

variable {other : Store}

lemma Bound.congr (bound : Bound config store)
    (same : ∀ name ∈ ["key", "tenant", "device"], other name = store name) :
    Bound config other := by
  have key := same "key" (by decide)
  have tenant := same "tenant" (by decide)
  have device := same "device" (by decide)
  have loads : loadBlob other "key" = loadBlob store "key" := by rw [loadBlob, loadBlob, key]
  refine ⟨?_, ?_, ?_⟩
  · rw [tenant]
    exact bound.tenant
  · rw [device]
    exact bound.device
  rw [tenant, device, loads]
  exact bound.key

variable {der : List UInt8}

lemma Verified.congr
    (verified : Verified suite attempt start store der) (same : other "key" = store "key") :
    Verified suite attempt start other der := by
  refine ⟨verified.source, ?_⟩
  rw [same]
  exact verified.valid

lemma Pinnable.congr (pinnable : Pinnable suite attempt start store authority)
    (same : other "key" = store "key") : Pinnable suite attempt start other authority := by
  obtain ⟨der, verified⟩ := pinnable.verified
  exact ⟨pinnable.source, der, verified.congr same⟩

/-- A change of the response records alone, which keeps a response held as long as no
certificate is stored, and adds none to a request. -/
lemma Sound.keep (sound : Sound suite config attempt start progress)
    (sent : next.sent = progress.sent)
    (installed : next.installed = progress.installed)
    (same : ∀ name ∈ ["certificate", "lite_ca", "key", "tenant", "device"],
      next.store name = progress.store name)
    (held : next.installed = false → Held start ∨ next.retained = true → Held next.store) :
    Sound suite config attempt start next where
  sent := by
    rw [sent]
    exact sound.sent
  held := held
  certificate fresh := by
    rw [same _ (by decide)]
    exact sound.certificate (by rw [← installed]; exact fresh)
  verified done := by
    rw [same "certificate" (by decide)]
    obtain ⟨der, stored, verified⟩ := sound.verified (by rw [← installed]; exact done)
    exact ⟨der, stored, verified.congr (same _ (by decide))⟩
  pin := by
    rw [same "lite_ca" (by decide)]
    obtain unchanged | ⟨authority, stored, pinnable⟩ := sound.pin
    · exact .inl unchanged
    exact .inr ⟨authority, stored, pinnable.congr (same _ (by decide))⟩
  bound wasBound := (sound.bound wasBound).congr fun name mem =>
    same name (by
      have listed : ∀ name ∈ ["key", "tenant", "device"],
          name ∈ ["certificate", "lite_ca", "key", "tenant", "device"] := by decide
      exact listed name mem)

lemma set_other {key : String} (value : Option (List UInt8)) (other : key ≠ name) :
    (progress.set name value).store key = progress.store key :=
  Function.update_of_ne other _ _

/-- An attempt that may store a certificate for the key. -/
structure Issuing (suite : Suite) (config : Config) (attempt : Attempt) (start : Store)
    (key : List UInt8) (progress : Progress) : Prop where
  sound : Sound suite config attempt start progress
  fresh : progress.installed = false
  stored : progress.store "key" = some key

variable {key : List UInt8}

/-- The authority to pin is one that a stored or a received header holds. -/
def PinSource (suite : Suite) (attempt : Attempt) (start : Store) (pin : Option (List UInt8)) :
    Prop :=
  ∀ authority, pin = some authority → ∃ header,
    suite.authority header = some authority ∧ (start "pending_ca" = some header ∨
      ∃ response, attempt.response = some response ∧ response.authority = some header)

section

variable (verified : ∀ store : Store, store "key" = some key → Verified suite attempt start store der)
include verified

lemma pinAuthority_meets {pin : Option (List UInt8)}
    (pinSource : PinSource suite attempt start pin) :
    Meets (Issuing suite config attempt start key) (pinAuthority attempt pin)
      (fun _ => Issuing suite config attempt start key)
      (fun _ => Sound suite config attempt start) := by
  cases pin with
  | none => exact Meets.pure fun progress issuing => issuing
  | some authority =>
    apply write_meets
    · exact fun progress issuing => issuing.sound
    intro progress issuing
    have keyKept : (progress.set "lite_ca" (some authority)).store "key" = some key :=
      (set_other _ (by decide)).trans issuing.stored
    obtain ⟨header, decoded, origin⟩ := pinSource authority rfl
    have next : Sound suite config attempt start (progress.set "lite_ca" (some authority)) :=
      { sent := issuing.sound.sent
        held := fun notInstalled was => by
          have held := issuing.sound.held notInstalled was
          exact held
        certificate := fun notInstalled =>
          (set_other _ (by decide)).trans (issuing.sound.certificate notInstalled)
        verified := fun installed =>
          absurd installed (by rw [show (progress.set "lite_ca" (some authority)).installed =
            false from issuing.fresh]; simp)
        pin := .inr ⟨authority, by simp [Progress.set], ⟨header, decoded, origin⟩, der,
          verified _ keyKept⟩
        bound := fun wasBound => (issuing.sound.bound wasBound).congr fun name mem =>
          set_other _ (by
            rintro rfl
            revert mem
            decide) }
    exact ⟨⟨next, issuing.fresh, keyKept⟩, next⟩

lemma installCertificate_meets : Meets (Issuing suite config attempt start key)
      (write attempt .certificate (Progress.install der))
      (fun _ progress => Sound suite config attempt start progress ∧ progress.installed = true)
      (fun _ => Sound suite config attempt start) := by
  apply write_meets
  · exact fun progress issuing => issuing.sound
  intro progress issuing
  have other : ∀ key, key ≠ "certificate" →
      (progress.install der).store key = progress.store key := fun key apart =>
    Function.update_of_ne apart _ _
  have keyKept : (progress.install der).store "key" = some key :=
    (other _ (by decide)).trans issuing.stored
  have next : Sound suite config attempt start (progress.install der) :=
    { sent := issuing.sound.sent
      held := fun notInstalled => by simp [Progress.install] at notInstalled
      certificate := fun notInstalled => by simp [Progress.install] at notInstalled
      verified := fun _ => ⟨der, by simp [Progress.install, Progress.set], verified _ keyKept⟩
      pin := by
        obtain unchanged | ⟨authority, held, pinnable⟩ := issuing.sound.pin
        · exact .inl unchanged
        exact .inr ⟨authority, held, pinnable.congr (keyKept.trans issuing.stored.symm)⟩
      bound := fun wasBound => (issuing.sound.bound wasBound).congr fun name mem =>
        other _ (by
          rintro rfl
          revert mem
          decide) }
  exact ⟨⟨next, rfl⟩, next⟩

end

lemma dropResponse_meets (access : Access) (part : name ∈ ["pending", "pending_ca"]) : Meets
      (fun progress => Sound suite config attempt start progress ∧ progress.installed = true)
      (tryWrite attempt access (Progress.set name none))
      (fun _ progress => Sound suite config attempt start progress ∧ progress.installed = true)
      (fun _ => Sound suite config attempt start) := by
  apply tryWrite_meets
  · exact fun progress holds => ⟨holds, holds.1⟩
  rintro progress ⟨sound, installed⟩
  have next : Sound suite config attempt start (progress.set name none) := by
    refine sound.keep rfl rfl ?_ ?_
    · intro key listed
      apply set_other
      have apart : ∀ name ∈ ["pending", "pending_ca"],
          ∀ key ∈ ["certificate", "lite_ca", "key", "tenant", "device"], key ≠ name := by
        decide
      exact apart name part key listed
    intro notInstalled
    exact absurd installed (by
      rw [show progress.installed = false from notInstalled]
      simp)
  exact ⟨⟨next, installed⟩, ⟨next, installed⟩, next⟩

lemma stop_leaves (suite : Suite) (config : Config) (attempt : Attempt) (start : Store)
    (key : List UInt8) : Leaves (Issuing suite config attempt start key)
      (stop .failed : Flow Progress Stop Unit) (Sound suite config attempt start) :=
  Meets.stop fun _ issuing => issuing.sound

lemma verifyIssued_meets (source : start "pending" = some bundle ∨
      ∃ response, attempt.response = some response ∧ response.certificate = bundle)
    (pinSource : PinSource suite attempt start pin) :
    Leaves (Issuing suite config attempt start key) (verifyIssued suite attempt key bundle pin)
      (Sound suite config attempt start) := by
  have stays := stop_leaves suite config attempt start key
  unfold verifyIssued
  cases imported : suite.importBundle bundle with
  | none => exact stays
  | some der =>
    cases time : attempt.issuedTime with
    | none => exact stays
    | some now =>
      apply Meets.ite
      · exact fun _ => stays
      intro accepted
      simp only [not_or] at accepted
      have verified : ∀ store : Store, store "key" = some key →
          Verified suite attempt start store der := fun store stored =>
        ⟨⟨bundle, imported, source⟩, key, now, stored, time, accepted.2.1⟩
      exact (pinAuthority_meets verified pinSource).bind fun _ =>
        (installCertificate_meets verified).bind fun _ =>
        (dropResponse_meets .dropPending (by decide)).bind fun _ =>
        (dropResponse_meets .dropPendingAuthority (by decide)).bind fun _ =>
        Meets.pure fun progress holds => holds.1

/-- Storing or dropping a part of a response keeps the rest, if a response stays held. -/
lemma Issuing.setPart (issuing : Issuing suite config attempt start key progress)
    (part : name ∈ ["pending", "pending_ca"])
    (store : next.store = Function.update progress.store name value)
    (sent : next.sent = progress.sent) (installed : next.installed = progress.installed)
    (held : Held start ∨ next.retained = true → Held next.store) :
    Issuing suite config attempt start key next := by
  have same : ∀ key ∈ ["certificate", "lite_ca", "key", "tenant", "device"],
      next.store key = progress.store key := by
    intro key listed
    have apart : ∀ name ∈ ["pending", "pending_ca"],
        ∀ key ∈ ["certificate", "lite_ca", "key", "tenant", "device"], key ≠ name := by decide
    rw [store, Function.update_of_ne (apart name part key listed)]
  refine ⟨issuing.sound.keep sent installed same fun _ => held, installed.trans issuing.fresh, ?_⟩
  rw [same _ (by decide)]
  exact issuing.stored

variable (renewing : Bool)

lemma retainResponse_meets (response : Response) (none_ : ¬ Held start) : Meets
      (fun progress => Issuing suite config attempt start key progress ∧ progress.retained = false)
      (retainResponse attempt renewing response) (fun _ => Issuing suite config attempt start key)
      (fun _ => Sound suite config attempt start) := by
  have first : Meets
      (fun progress => Issuing suite config attempt start key progress ∧ progress.retained = false)
      (tryWrite attempt .pending (Progress.retain "pending" response.certificate))
      (fun _ progress => Issuing suite config attempt start key progress ∧
        (progress.retained = true → progress.store "pending" ≠ none))
      (fun _ => Sound suite config attempt start) := by
    apply tryWrite_meets
    · rintro progress ⟨issuing, fresh⟩
      exact ⟨⟨issuing, by simp [fresh]⟩, issuing.sound⟩
    rintro progress ⟨issuing, fresh⟩
    have stored : (progress.retain "pending" response.certificate).store "pending" ≠ none := by
      simp [Progress.retain, Progress.set]
    have next : Issuing suite config attempt start key
        (progress.retain "pending" response.certificate) :=
      issuing.setPart (by decide) rfl rfl rfl fun _ => .inl stored
    exact ⟨⟨next, fun _ => stored⟩, ⟨next, fun _ => stored⟩, next.sound⟩
  have second : Meets
      (fun progress => Issuing suite config attempt start key progress ∧
        (progress.retained = true → progress.store "pending" ≠ none))
      (retainAuthority attempt renewing response.authority)
      (fun _ => Issuing suite config attempt start key)
      (fun _ => Sound suite config attempt start) := by
    have retains : ∀ header, Meets
        (fun progress => Issuing suite config attempt start key progress ∧
          (progress.retained = true → progress.store "pending" ≠ none))
        (tryWrite attempt .pendingAuthority (Progress.retain "pending_ca" header))
        (fun _ => Issuing suite config attempt start key)
        (fun _ => Sound suite config attempt start) := by
      intro header
      apply tryWrite_meets
      · exact fun progress holds => ⟨holds.1, holds.1.sound⟩
      rintro progress ⟨issuing, -⟩
      have next : Issuing suite config attempt start key
          (progress.retain "pending_ca" header) :=
        issuing.setPart (by decide) rfl rfl rfl fun _ =>
          .inr (by simp [Progress.retain, Progress.set])
      exact ⟨next, next, next.sound⟩
    cases response.authority with
    | some header => exact retains header
    | none =>
      apply Meets.ite
      · exact fun _ => retains [0]
      intro _
      apply tryWrite_meets
      · exact fun progress holds => ⟨holds.1, holds.1.sound⟩
      rintro progress ⟨issuing, kept⟩
      have next : Issuing suite config attempt start key (progress.set "pending_ca" none) := by
        refine issuing.setPart (by decide) rfl rfl rfl fun was => .inl ?_
        exact kept (was.resolve_left none_)
      exact ⟨next, next, next.sound⟩
  exact first.bind fun _ => second.bind fun _ => Meets.pure fun progress holds => holds

lemma acceptResponse_meets (received : attempt.response = some response) (none_ : ¬ Held start) :
    Leaves
      (fun progress => Issuing suite config attempt start key progress ∧ progress.retained = false)
      (acceptResponse suite attempt key renewing response) (Sound suite config attempt start) := by
  have stays := stop_leaves suite config attempt start key
  have source : start "pending" = some response.certificate ∨
      ∃ found, attempt.response = some found ∧ found.certificate = response.certificate :=
    .inr ⟨response, received, rfl⟩
  apply (retainResponse_meets renewing response none_).bind
  intro retained
  cases retained with
  | false => exact stays
  | true =>
    cases header : response.authority with
    | some header_ =>
      cases decoded : suite.authority header_ with
      | none => simpa [decoded] using stays
      | some authority =>
        have verifies : Leaves (Issuing suite config attempt start key)
            (verifyIssued suite attempt key response.certificate (some authority))
            (Sound suite config attempt start) := by
          apply verifyIssued_meets source
          rintro _ ⟨⟩
          exact ⟨header_, decoded, .inr ⟨response, received, header⟩⟩
        simpa [decoded] using verifies
    | none =>
      cases renewing with
      | true =>
        have verifies : Leaves (Issuing suite config attempt start key)
            (verifyIssued suite attempt key response.certificate none)
            (Sound suite config attempt start) :=
          verifyIssued_meets source fun authority same => by simp at same
        simpa using verifies
      | false => exact stays

lemma request_meets : Leaves
      (fun progress => Untouched config start progress ∧ progress.store "key" = some key ∧
        ¬ Held progress.store) (request suite config attempt key renewing)
      (Sound suite config attempt start) := by
  apply Meets.ite
  · exact fun _ => Meets.stop fun progress holds => holds.1.sound
  intro _
  have sends : Meets
      (fun progress => Untouched config start progress ∧ progress.store "key" = some key ∧
        ¬ Held progress.store)
      (Flow.change fun progress : Progress => { progress with sent := some progress.store })
      (fun _ progress => (Issuing suite config attempt start key progress ∧
        progress.retained = false) ∧ ¬ Held start)
      (fun (_ : Stop) => Sound suite config attempt start) := by
    apply Meets.change
    rintro progress ⟨untouched, stored, free⟩
    have sound : Sound suite config attempt start progress := untouched.sound
    refine ⟨⟨⟨?_, untouched.installed, stored⟩, untouched.retained⟩, ?_⟩
    · refine ⟨?_, sound.held, sound.certificate, sound.verified, sound.pin, sound.bound⟩
      rintro store ⟨⟩
      exact ⟨free, by rwa [← untouched.held_iff], untouched.certificate⟩
    rwa [← untouched.held_iff]
  apply sends.bind
  intro _
  cases received : attempt.response with
  | none => exact Meets.stop fun progress holds => holds.1.1.sound
  | some response =>
    intro progress holds
    exact acceptResponse_meets renewing received holds.2 progress holds.1

lemma issue_meets : Leaves
      (fun progress => Untouched config start progress ∧ progress.store "key" = some key)
      (issue suite config attempt key renewing) (Sound suite config attempt start) := by
  apply Meets.state_bind
  rintro seen ⟨untouched, stored⟩
  have stays : Leaves (fun progress => progress = seen)
      (stop .failed : Flow Progress Stop Unit)
      (Sound suite config attempt start) := by
    apply Meets.stop
    rintro progress rfl
    exact untouched.sound
  have issuing : ∀ progress, progress = seen →
      Issuing suite config attempt start key progress := by
    rintro progress rfl
    exact ⟨untouched.sound, untouched.installed, stored⟩
  apply Meets.ite
  · exact fun _ => stays
  intro _
  cases pending : seen.store "pending" with
  | some held =>
    cases loaded : loadBlob seen.store "pending" with
    | none => exact stays
    | some bundle =>
      cases loadedHeader : loadBlob seen.store "pending_ca" with
      | none => exact stays
      | some header =>
        have source : start "pending" = some bundle ∨
            ∃ response, attempt.response = some response ∧ response.certificate = bundle :=
          .inl (untouched.pending.symm.trans (loadBlob_stored loaded))
        have headerSource : start "pending_ca" = some header :=
          untouched.pendingAuthority.symm.trans (loadBlob_stored loadedHeader)
        apply Meets.ite
        · intro _
          apply (verifyIssued_meets source fun authority same => by simp at same).weaken issuing
          all_goals exact fun _ _ sound => sound
        intro _
        apply Meets.ite
        · exact fun _ => stays
        intro _
        cases decoded : suite.authority header with
        | none => exact stays
        | some authority =>
          have pinSource : PinSource suite attempt start (some authority) := by
            rintro _ ⟨⟩
            exact ⟨header, decoded, .inl headerSource⟩
          apply (verifyIssued_meets source pinSource).weaken issuing
          all_goals exact fun _ _ sound => sound
  | none =>
    cases authority : seen.store "pending_ca" with
    | some held => exact stays
    | none =>
      apply (request_meets renewing).weaken
      · rintro progress rfl
        exact ⟨untouched, stored, by simp [Held, pending, authority]⟩
      all_goals exact fun _ _ sound => sound

/-! ### The whole attempt -/

lemma keepStored_meets (key : List UInt8) (certificate : Option (List UInt8)) (reason : Stop) :
    Leaves kept (keepStored suite attempt key certificate reason)
      kept := by
  unfold keepStored
  split
  · apply Meets.ite
    · exact fun _ => Meets.stop fun progress holds => holds
    exact fun _ => Meets.pure fun progress holds => holds
  exact Meets.stop fun progress holds => holds

/-- What `issue` keeps is kept by what surrounds it. -/
lemma useIdentity_meets (now : Int) (unchanged : ∀ progress, before progress → kept progress)
    (issues : ∀ renewing, Leaves before (issue suite config attempt key renewing) kept) :
    Leaves before (useIdentity suite config attempt key now)
      kept := by
  apply Meets.state_bind
  intro seen holds
  have stays : Leaves (fun progress => progress = seen)
      (stop .failed : Flow Progress Stop Unit) kept := by
    apply Meets.stop
    rintro progress rfl
    exact unchanged _ holds
  apply Meets.ite
  · exact fun _ => stays
  intro _
  cases loadCertificate suite seen.store with
  | none => exact stays
  | some certificate =>
    apply Meets.ite
    · exact fun _ => stays
    intro _
    have renews : Leaves (fun progress => progress = seen)
        (renewIfDue suite config attempt key certificate
          (renewDue attempt seen.store certificate
            (certificate.bind fun der => suite.verify der key now)))
        kept := by
      apply Meets.ite
      · intro _
        have issued : Leaves (fun progress => progress = seen)
            (issue suite config attempt key certificate.isSome)
            kept := by
          rintro progress rfl
          exact issues certificate.isSome _ holds
        exact issued.recover fun reason => keepStored_meets key certificate reason
      intro _
      apply Meets.pure
      rintro progress rfl
      exact unchanged _ holds
    apply renews.bind
    intro _
    apply Meets.ite
    · exact fun _ => Meets.stop fun progress holds => holds
    exact fun _ => Meets.pure fun progress holds => holds

/-- What storing a key and `issue` keep holds however an attempt ends. -/
lemma connectIdentity_keeps (early : ∀ progress, Untouched config start progress → kept progress)
    (issues : ∀ key renewing, Leaves
      (fun progress => Untouched config start progress ∧ progress.store "key" = some key)
      (issue suite config attempt key renewing) kept) :
    kept (connectIdentity suite config attempt { store := start }).2 := by
  have meets : Leaves (fun progress => progress = { store := start })
      (connectIdentity suite config attempt) kept := by
    have stays : Leaves (fun progress => progress = { store := start })
        (stop .failed : Flow Progress Stop Unit) kept := by
      apply Meets.stop
      rintro progress rfl
      exact early _ (untouched_start start)
    apply Meets.ite
    · exact fun _ => stays
    intro _
    cases attempt.verifiedTime with
    | none => exact stays
    | some now =>
      have keyed : Meets (fun progress => progress = { store := start })
          (identityKey config attempt)
          (fun key progress => Untouched config start progress ∧
            progress.store "key" = some key)
          (fun _ => kept) := by
        apply (identityKey_meets start).weaken
        · exact fun _ same => same
        · exact fun _ _ holds => holds
        exact fun _ progress untouched => early progress untouched
      exact keyed.bind fun key =>
        useIdentity_meets now (fun progress holds => early progress holds.1) (issues key)
  exact meets.ends rfl

/-- Every attempt is sound, however it ends. -/
lemma connectIdentity_sound (start : Store) : Sound suite config attempt start
      (connectIdentity suite config attempt { store := start }).2 :=
  connectIdentity_keeps (fun _ untouched => untouched.sound) fun _ renewing => issue_meets renewing

end Facts

end WendyLite.Pki.Enrollment
