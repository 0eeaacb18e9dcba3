import WendyLite.Pki.Revisions
import WendyLite.Conf.Recovery

/-! # Resetting the identity

`identity_challenge`, `identity_use_allowed` and `wendy_pki_reset` of `wendy_pki.c`,
over the key-value store of the identity and the stored configuration. A reset marks
itself as pending, clears the enrollment from the configuration, erases the identity
records and at last erases its mark.

The device moves by one storage access at a time and can boot again between any two of
them. An access that fails, or during which the power is lost, may have taken effect or
not. A reset holds the identity lock, and challenges and resets come from one task, so
nothing else touches these records while a reset runs.
-/

namespace WendyLite.Pki.Reset

open List Function

/-! ## Nonces -/

def hexDigit (value : Nat) : Char :=
  if value < 10 then Char.ofNat ('0'.toNat + value) else Char.ofNat ('a'.toNat + (value - 10))

def hexValue (digit : Char) : Option Nat :=
  if '0' ≤ digit ∧ digit ≤ '9' then some (digit.toNat - '0'.toNat)
  else if 'a' ≤ digit ∧ digit ≤ 'f' then some (digit.toNat - 'a'.toNat + 10)
  else none

/-- The nonce as `identity_challenge` prints it. -/
def formatNonce (nonce : List UInt8) : List Char :=
  nonce.flatMap fun byte => [hexDigit (byte.toNat / 16), hexDigit (byte.toNat % 16)]

def parsePairs : List Char → Option (List UInt8)
  | [] => some []
  | [_] => none
  | high :: low :: rest => do
    let highValue ← hexValue high
    let lowValue ← hexValue low
    let bytes ← parsePairs rest
    some (UInt8.ofNat (highValue * 16 + lowValue) :: bytes)

/-- The nonce as `wendy_pki_reset` reads it. -/
def parseNonce (text : List Char) : Option (List UInt8) :=
  if text.length ≠ 64 then none else parsePairs text

lemma hexValue_hexDigit (small : value < 16) :
    hexValue (hexDigit value) = some value := by
  have each : ∀ value < 16, hexValue (hexDigit value) = some value := by decide
  exact each value small

lemma parsePairs_formatNonce (nonce : List UInt8) :
    parsePairs (formatNonce nonce) = some nonce := by
  induction nonce with
  | nil => rfl
  | cons byte nonce ih =>
    have bound := byte.toNat_lt
    have high : hexValue (hexDigit (byte.toNat / 16)) = some (byte.toNat / 16) :=
      hexValue_hexDigit (by omega)
    have low : hexValue (hexDigit (byte.toNat % 16)) = some (byte.toNat % 16) :=
      hexValue_hexDigit (by omega)
    have whole : byte.toNat / 16 * 16 + byte.toNat % 16 = byte.toNat := by omega
    rw [formatNonce, flatMap_cons, ← formatNonce]
    simp only [cons_append, nil_append, parsePairs, high, low, ih,
      Option.bind_eq_bind, Option.bind_some, whole, UInt8.ofNat_toNat]

lemma parseNonce_formatNonce (length : nonce.length = 32) :
    parseNonce (formatNonce nonce) = some nonce := by
  have twice : (formatNonce nonce).length = 2 * nonce.length := by
    simp [formatNonce, length_flatMap, Nat.mul_comm]
  rw [parseNonce, if_neg (by omega), parsePairs_formatNonce]

/-! ## The device -/

/-- The identity records, the configuration, `identity_resetting`, and what a running reset
has still to do. -/
structure Device where
  store : Store
  conf : Conf.Device
  resetting : Bool := false
  actions : List ResetAction := []
  /-- Ghost: some reset has returned success. -/
  succeeded : Bool := false

def pendingKey : String := "reset_pending"

def floorKey : String := "floor"

/-- `identity_use_allowed`, when the store can be read. -/
def Device.identityUseAllowed (device : Device) : Bool :=
  !device.resetting && match device.store pendingKey with
    | none => true
    | some bytes => bytes.length = 8 ∧ bytesWord bytes = 0

/-- A nonce is random except in its first byte. -/
def freshNonce (random : List UInt8) : List UInt8 :=
  random.modifyHead fun byte => byte &&& 0x7F ||| 1

/-- A challenge stores the nonce it returns, or fails with or without doing so. -/
inductive Challenged where
  | done
  | failed (landed : Bool)
  deriving DecidableEq, Repr

/-- `identity_challenge`, when it is not only asked for the status. -/
def Device.identityChallenge (device : Device) (random : List UInt8) (challenged : Challenged) :
    Device :=
  let stored :=
    { device with store := update device.store "nonce" (some (freshNonce random)) }
  match challenged with
  | .done | .failed true => stored
  | .failed false => device

/-- What an access of a reset meets: whether it reports success, whether it took effect
although it does not, and what clearing the enrollment gets. -/
structure Answer where
  done : Bool
  landed : Bool
  supply : Conf.ResetSupply

inductive Event where
  | challenge (random : List UInt8) (challenged : Challenged)
  | reset (expected : String) (nonceHex : List Char) (opens reads : Bool)
  | act (answer : Answer)
  | reboot (maps : Bool)

section Model

variable (schema : Conf.Schema) (part : Conf.Partition) (deviceId : String)

/-- `wendy_pki_reset` up to its first change. -/
def Device.wendyPkiReset (device : Device) (expected : String) (nonceHex : List Char)
    (opens reads : Bool) : Device :=
  if expected ≠ deviceId then device
  else match parseNonce nonceHex with
  | none => device
  | some provided =>
    if ¬ opens then device
    else match if reads then device.store "nonce" else none with
    | none => device
    | some stored =>
      if stored.length ≠ 32 then device
      else if stored ≠ provided then device
      else { device with resetting := true, actions := resetActions }

/-- The next access of a running reset. -/
def Device.act (device : Device) (answer : Answer) : Device :=
  match device.actions with
  | [] => device
  | .clearEnrollment :: rest =>
    let cleared := device.conf.wendyConfClearEnrollment schema part answer.supply
    { device with
      conf := cleared.1
      actions := if cleared.2 = .returned .ok then rest else [] }
  | action :: rest =>
    if answer.done then
      { device with
        store := action.apply true device.store
        actions := rest
        succeeded := device.succeeded || rest.isEmpty }
    else
      { device with store := action.apply answer.landed device.store, actions := [] }

def Device.reboot (device : Device) (maps : Bool) : Device :=
  { device with
    conf := Conf.boot schema part device.conf.flash device.conf.journal maps
    resetting := false
    actions := [] }

def Device.step (device : Device) : Event → Device
  | .challenge random challenged =>
    if device.actions = [] then device.identityChallenge random challenged else device
  | .reset expected nonceHex opens reads =>
    if device.actions = [] then device.wendyPkiReset deviceId expected nonceHex opens reads
    else device
  | .act answer => device.act schema part answer
  | .reboot maps => device.reboot schema part maps

def Device.run (device : Device) (events : List Event) : Device :=
  events.foldl (Device.step schema part deviceId) device

end Model

def Enrolled (part : Conf.Partition) (conf : Conf.Device) : Prop :=
  ∃ fields, Conf.storedFields part conf.flash = some fields ∧
    (Conf.Mentions fields Conf.enrollmentTag ∨ Conf.Mentions fields Conf.retiredEnrollmentTag)

def Device.Marked (device : Device) : Prop := device.store pendingKey = some (wordBytes 1)

def Device.Gone (part : Conf.Partition) (device : Device) : Prop :=
  (∀ key ∈ resetKeys, device.store key = none) ∧ ¬ Enrolled part device.conf

section Facts

variable {schema : Conf.Schema} {part : Conf.Partition} {deviceId : String}

/-! ## What an action leaves -/

def Achieved (part : Conf.Partition) (device : Device) : ResetAction → Prop
  | .mark => device.Marked
  | .clearEnrollment => ¬ Enrolled part device.conf
  | .erase key => device.store key = none

variable {action : ResetAction} {key : String}

lemma apply_of_ne (landed : Bool) (store : Store)
    (mark : action = .mark → key ≠ pendingKey) (erase : action ≠ .erase key) :
    action.apply landed store key = store key := by
  cases landed with
  | false => rfl
  | true =>
    cases action with
    | mark => exact update_of_ne (mark rfl) _ _
    | clearEnrollment => rfl
    | erase other =>
      have different : key ≠ other := fun same => erase (by rw [same])
      exact update_of_ne different _ _

variable {rest : List ResetAction}

/-- A reset goes through its actions in order, so its mark is erased last. -/
lemma suffix_erase_pending (left : (.erase pendingKey :: rest) <:+ resetActions) : rest = [] := by
  have each : ∀ left ∈ resetActions.tails, left.head? = some (.erase pendingKey) →
      left.tail = [] := by decide
  exact each _ ((mem_tails _ _).mpr left) rfl

/-- Only the first action is left to be done by a reset that has done nothing. -/
lemma suffix_mark (left : (.mark :: rest) <:+ resetActions) : rest = resetActions.tail := by
  have each : ∀ left ∈ resetActions.tails, left.head? = some .mark →
      left.tail = resetActions.tail := by decide
  exact each _ ((mem_tails _ _).mpr left) rfl

variable {fields : List Conf.Field} {data : List UInt8}

lemma not_enrolled_of_retained (walked : Conf.rootFields data = some fields)
    (stored : Conf.storedData part conf.flash = some (Conf.retained fields)) :
    ¬ Enrolled part conf := by
  rintro ⟨found, foundStored, mentions⟩
  have filtered := Conf.rootFields_filter walked fun field =>
    field.number ≠ Conf.enrollmentTag ∧ field.number ≠ Conf.retiredEnrollmentTag
  rw [Conf.storedFields, stored, Option.bind_some, Conf.retained, filtered] at foundStored
  obtain rfl := Option.some.inj foundStored
  obtain ⟨field, mem, same⟩ | ⟨field, mem, same⟩ := mentions
  · have kept := of_mem_filter mem
    simp [same] at kept
  have kept := of_mem_filter mem
  simp [same] at kept

/-! ## Coherent devices -/

/-- What holds between any two accesses, where `start` is what the configuration partition
held at first. -/
structure Coherent (part : Conf.Partition) (start : Flash) (device : Device) : Prop where
  fresh : device.conf.Fresh part
  safe : Conf.Recoverable part start device.conf
  left : device.actions <:+ resetActions
  resetting : device.actions ≠ [] → device.resetting = true
  achieved : device.actions ≠ [] → ∀ action ∈ resetActions, action ∉ device.actions →
    Achieved part device action

variable {start : Flash} {device : Device}

lemma coherent_of_idle (idle : device.actions = [])
    (fresh : device.conf.Fresh part) (safe : Conf.Recoverable part start device.conf) :
    Coherent part start device where
  fresh := fresh
  safe := safe
  left := by rw [idle]; exact nil_suffix
  resetting running := absurd idle running
  achieved running := absurd idle running

/-- An access to the store keeps what was achieved before it. -/
lemma achieved_after (left : (action :: rest) <:+ resetActions) (remaining : rest ≠ [])
    (access : action ≠ .clearEnrollment)
    (before : ∀ other ∈ resetActions, other ∉ action :: rest → Achieved part device other)
    (succeeded : Bool) (other : ResetAction) (mem : other ∈ resetActions)
    (notLeft : other ∉ rest) : Achieved part
      { device with store := action.apply true device.store, actions := rest, succeeded }
      other := by
  by_cases same : other = action
  · subst same
    cases other with
    | mark =>
      unfold Achieved Device.Marked
      simp [ResetAction.apply, pendingKey]
    | clearEnrollment => contradiction
    | erase key =>
      unfold Achieved
      simp [ResetAction.apply]
  have earlier := before other mem (by simp [same, notLeft])
  cases other with
  | clearEnrollment => exact earlier
  | mark =>
    have notErase : action ≠ .erase pendingKey := by
      rintro rfl
      exact remaining (suffix_erase_pending left)
    have notMark : action ≠ .mark := fun isMark => same isMark.symm
    exact (apply_of_ne true device.store (fun isMark => absurd isMark notMark)
      notErase).trans earlier
  | erase key =>
    have notMark : action ≠ .mark := by
      rintro rfl
      rw [suffix_mark left] at notLeft
      have behind : ∀ other ∈ resetActions, other ≠ .mark → other ∈ resetActions.tail := by
        decide
      exact notLeft (behind _ mem (by simp))
    exact (apply_of_ne true device.store (fun isMark => absurd isMark notMark)
      fun isErase => same isErase.symm).trans earlier

lemma act_access (running : device.actions = action :: rest) (access : action ≠ .clearEnrollment)
    (answer : Answer) : device.act schema part answer = if answer.done then { device with
          store := action.apply true device.store
          actions := rest
          succeeded := device.succeeded || rest.isEmpty }
      else { device with store := action.apply answer.landed device.store, actions := [] } := by
  unfold Device.act
  rw [running]
  cases action with
  | clearEnrollment => contradiction
  | mark | erase => rfl

lemma act_clear (running : device.actions = .clearEnrollment :: rest) (answer : Answer) :
    device.act schema part answer = { device with
        conf := (device.conf.wendyConfClearEnrollment schema part answer.supply).1
        actions :=
          if (device.conf.wendyConfClearEnrollment schema part answer.supply).2 = .returned .ok
          then rest else [] } := by
  unfold Device.act
  rw [running]

lemma act_idle (idle : device.actions = []) (answer : Answer) :
    device.act schema part answer = device := by
  unfold Device.act
  rw [idle]

section

variable (coherent : Coherent part start device)
include coherent

lemma act_coherent (answer : Answer) : Coherent part start (device.act schema part answer) := by
  cases running : device.actions with
  | nil =>
    rw [act_idle running]
    exact coherent
  | cons action rest =>
    have left : (action :: rest) <:+ resetActions := by
      rw [← running]
      exact coherent.left
    have restLeft : rest <:+ resetActions := (suffix_cons action rest).trans left
    have resetting := coherent.resetting (by simp [running])
    have before := coherent.achieved (by simp [running])
    rw [running] at before
    by_cases access : action = .clearEnrollment
    · subst access
      have cleared : Conf.Resetting part start device.conf
          (device.conf.wendyConfClearEnrollment schema part answer.supply) :=
        Conf.wendyConfClearEnrollment_resetting coherent.fresh coherent.safe answer.supply
      rw [act_clear running]
      split
      next returned =>
        refine ⟨cleared.fresh, cleared.safe, restLeft, fun _ => resetting, ?_⟩
        intro _ other mem notLeft
        obtain ⟨data, fields, -, walked, -, stored⟩ := cleared.complete returned
        by_cases same : other = .clearEnrollment
        · subst same
          exact not_enrolled_of_retained walked stored
        have earlier := before other mem (by simp [same, notLeft])
        cases other with
        | mark | erase => exact earlier
        | clearEnrollment => contradiction
      exact coherent_of_idle rfl cleared.fresh cleared.safe
    rw [act_access running access]
    split
    · refine ⟨coherent.fresh, coherent.safe, restLeft, fun _ => resetting, ?_⟩
      intro remaining
      exact achieved_after left remaining access before _
    exact coherent_of_idle rfl coherent.fresh coherent.safe

lemma step_coherent
    (event : Event) : Coherent part start (device.step schema part deviceId event) := by
  cases event with
  | act answer => exact act_coherent coherent answer
  | reboot maps =>
    apply coherent_of_idle rfl
    · exact Conf.boot_fresh _ _ _
    have safe := coherent.safe
    unfold Conf.Recoverable at safe ⊢
    simpa only [Device.step, Device.reboot, Conf.boot_flash, Conf.boot_journal] using safe
  | challenge random challenged =>
    unfold Device.step
    dsimp only
    split
    next idle =>
      unfold Device.identityChallenge
      split <;> exact coherent_of_idle idle coherent.fresh coherent.safe
    exact coherent
  | reset expected nonceHex opens reads =>
    unfold Device.step Device.wendyPkiReset
    dsimp only
    repeat' split
    all_goals first
      | exact coherent
      | exact ⟨coherent.fresh, coherent.safe, suffix_refl _, fun _ => rfl,
          fun _ action mem notLeft => absurd mem notLeft⟩

lemma run_coherent
    (events : List Event) : Coherent part start (device.run schema part deviceId events) := by
  induction events generalizing device with
  | nil => exact coherent
  | cons event events ih => exact ih (step_coherent coherent event)

end

/-! ## The mark -/

lemma Device.Marked.refused (marked : device.Marked) : device.identityUseAllowed = false := by
  have nonzero : bytesWord (wordBytes 1) ≠ 0 := by
    decide
  unfold Device.identityUseAllowed
  rw [marked]
  simp [nonzero]

section

variable (resetting : device.resetting = true)
include resetting

lemma refused_of_resetting : device.identityUseAllowed = false := by
  unfold Device.identityUseAllowed
  rw [resetting]
  rfl

lemma resetting_step (running : ∀ maps, event ≠ .reboot maps) :
    (device.step schema part deviceId event).resetting = true := by
  cases event with
  | reboot maps => exact absurd rfl (running maps)
  | challenge random challenged =>
    unfold Device.step Device.identityChallenge
    dsimp only
    repeat' split
    all_goals exact resetting
  | reset expected nonceHex opens reads =>
    unfold Device.step Device.wendyPkiReset
    dsimp only
    repeat' split
    all_goals first | exact resetting | rfl
  | act answer =>
    unfold Device.step Device.act
    dsimp only
    repeat' split
    all_goals exact resetting

lemma resetting_run (running : ∀ maps, Event.reboot maps ∉ events) :
    (device.run schema part deviceId events).resetting = true := by
  induction events generalizing device with
  | nil => exact resetting
  | cons event events ih =>
    apply ih
    · exact resetting_step resetting fun maps same => running maps (by simp [same])
    exact fun maps mem => running maps (by simp [mem])

end

section

variable (coherent : Coherent part start device)
include coherent

lemma store_step (other : key ∉ resetKeys) (notPending : key ≠ pendingKey) (event : Event) :
    (device.step schema part deviceId event).store key = device.store key := by
  cases event with
  | reboot maps => rfl
  | challenge random challenged =>
    have notNonce : key ≠ "nonce" := by
      rintro rfl
      exact other (by decide)
    unfold Device.step Device.identityChallenge
    dsimp only
    repeat' split
    all_goals first | rfl | exact update_of_ne notNonce _ _
  | reset expected nonceHex opens reads =>
    unfold Device.step Device.wendyPkiReset
    dsimp only
    repeat' split
    all_goals rfl
  | act answer =>
    unfold Device.step
    dsimp only
    cases running : device.actions with
    | nil => rw [act_idle running]
    | cons action rest =>
      have mem : action ∈ resetActions := coherent.left.subset (by simp [running])
      have notErase : action ≠ .erase key := by
        rintro rfl
        have listed : key ∈ resetKeys ∨ key = pendingKey := by
          simpa [resetActions, pendingKey] using mem
        exact listed.elim other notPending
      by_cases access : action = .clearEnrollment
      · subst access
        rw [act_clear running]
      rw [act_access running access]
      split <;> exact apply_of_ne _ _ (fun _ => notPending) notErase

lemma store_run (other : key ∉ resetKeys) (notPending : key ≠ pendingKey) (events : List Event) :
    (device.run schema part deviceId events).store key = device.store key := by
  induction events generalizing device with
  | nil => rfl
  | cons event events ih =>
    exact (ih (step_coherent coherent event)).trans
      (store_step coherent other notPending event)

/-- The mark is taken away by nothing but the last access of a reset. -/
lemma marked_step (marked : device.Marked) (event : Event) :
    (device.step schema part deviceId event).Marked ∨
      ∃ answer, event = .act answer ∧ device.actions = [.erase pendingKey] := by
  cases event with
  | reboot maps => exact .inl marked
  | challenge random challenged =>
    left
    unfold Device.step Device.identityChallenge
    dsimp only
    repeat' split
    all_goals exact marked
  | reset expected nonceHex opens reads =>
    left
    unfold Device.step Device.wendyPkiReset
    dsimp only
    repeat' split
    all_goals exact marked
  | act answer =>
    cases running : device.actions with
    | nil =>
      left
      rw [Device.step, act_idle running]
      exact marked
    | cons action rest =>
      have left_ : (action :: rest) <:+ resetActions := by
        rw [← running]
        exact coherent.left
      by_cases last : action = .erase pendingKey
      · subst last
        exact .inr ⟨answer, rfl, by rw [suffix_erase_pending left_]⟩
      left
      rw [Device.step]
      by_cases access : action = .clearEnrollment
      · subst access
        rw [act_clear running]
        exact marked
      have kept : ∀ landed, action.apply landed device.store pendingKey =
          some (wordBytes 1) := by
        intro landed
        by_cases isMark : action = .mark
        · subst isMark
          cases landed with
          | false => exact marked
          | true => simp [ResetAction.apply, pendingKey]
        exact (apply_of_ne _ _ (fun same => absurd same isMark) last).trans marked
      rw [act_access running access]
      split <;> exact kept _

/-- Before the last access of a reset everything else is gone. -/
lemma Coherent.gone (last : device.actions = [.erase pendingKey]) : device.Gone part := by
  have achieved := coherent.achieved (by simp [last])
  rw [last] at achieved
  constructor
  · intro key mem
    have listed : ∀ key ∈ resetKeys, ResetAction.erase key ∈ resetActions ∧
        ResetAction.erase key ∉ [ResetAction.erase pendingKey] := by decide
    exact achieved (.erase key) (listed key mem).1 (listed key mem).2
  exact achieved .clearEnrollment (by decide) (by decide)

/-- A marked device refuses its identity until the last access of a reset, and a boot after
that. -/
lemma marked_run (marked : device.Marked)
    (allowed : (device.run schema part deviceId events).identityUseAllowed = true) :
    ∃ before answer after maps, events = before ++ .act answer :: after ∧
      (device.run schema part deviceId before).actions = [.erase pendingKey] ∧
      (device.run schema part deviceId before).Gone part ∧ .reboot maps ∈ after := by
  induction events generalizing device with
  | nil =>
    have refused := marked.refused
    simp only [Device.run, foldl_nil] at allowed
    simp [refused] at allowed
  | cons event events ih =>
    have next : (device.step schema part deviceId event).Marked ∨
        ∃ answer, event = .act answer ∧ device.actions = [.erase pendingKey] :=
      marked_step coherent marked event
    obtain still | ⟨answer, rfl, last⟩ := next
    · obtain ⟨before, answer, after, maps, rfl, last, gone, booted⟩ :=
        ih (step_coherent coherent event) still allowed
      exact ⟨event :: before, answer, after, maps, rfl, last, gone, booted⟩
    -- Only a boot ends the refusal of a running reset.
    have resetting : (device.step schema part deviceId (.act answer)).resetting = true :=
      resetting_step (coherent.resetting (by simp [last])) fun maps => by simp
    by_cases booted : ∃ maps, Event.reboot maps ∈ events
    · obtain ⟨maps, mem⟩ := booted
      exact ⟨[], answer, events, maps, rfl, last, coherent.gone last, mem⟩
    have refused : (device.run schema part deviceId
        (.act answer :: events)).identityUseAllowed = false :=
      refused_of_resetting (resetting_run resetting fun maps mem => booted ⟨maps, mem⟩)
    rw [refused] at allowed
    simp at allowed

/-- A record is erased only after the enrollment is. -/
lemma erased_step (event : Event) (present : device.store key ≠ none)
    (erased : (device.step schema part deviceId event).store key = none) :
    ¬ Enrolled part device.conf := by
  cases event with
  | reboot maps => exact absurd erased present
  | challenge random challenged =>
    exfalso
    revert erased
    unfold Device.step Device.identityChallenge
    dsimp only
    repeat' split
    all_goals
      by_cases nonce : key = "nonce"
      · subst nonce
        simp [present]
      simp [update_of_ne nonce, present]
  | reset expected nonceHex opens reads =>
    exfalso
    revert erased
    unfold Device.step Device.wendyPkiReset
    dsimp only
    repeat' split
    all_goals exact present
  | act answer =>
    rw [Device.step] at erased
    cases running : device.actions with
    | nil =>
      rw [act_idle running] at erased
      exact absurd erased present
    | cons action rest =>
      have left_ : (action :: rest) <:+ resetActions := by
        rw [← running]
        exact coherent.left
      by_cases isErase : action = .erase key
      · have behind : ∀ left ∈ resetActions.tails, left.head? ≠ some .mark →
            left.head? ≠ some .clearEnrollment → .clearEnrollment ∉ left := by decide
        have achieved := coherent.achieved (by simp [running]) .clearEnrollment (by decide)
        rw [running] at achieved
        subst isErase
        exact achieved (behind _ ((mem_tails _ _).mpr left_) (by simp) (by simp))
      exfalso
      by_cases access : action = .clearEnrollment
      · subst access
        rw [act_clear running] at erased
        exact present erased
      have kept : ∀ landed, action.apply landed device.store key ≠ none := by
        intro landed
        by_cases isMark : action = .mark ∧ key = pendingKey
        · obtain ⟨rfl, rfl⟩ := isMark
          cases landed with
          | false => exact present
          | true => simp [ResetAction.apply, pendingKey]
        rw [apply_of_ne _ _ (fun same other => isMark ⟨same, other⟩) isErase]
        exact present
      rw [act_access running access] at erased
      split at erased <;> exact kept _ erased

end

/-! ## A reset that nothing disturbs -/

/-- A reset has returned success, and nothing is left, nor the mark. -/
structure Device.Finished (part : Conf.Partition) (device : Device) : Prop where
  idle : device.actions = []
  gone : device.Gone part
  unmarked : device.store pendingKey = none
  succeeded : device.succeeded = true

structure Answer.Reliable (answer : Answer) : Prop where
  done : answer.done = true
  supply : answer.supply.Reliable

lemma run_acts (stored : Conf.storedData part start = some data)
    (walked : Conf.rootFields data = some fields) (acceptable : Conf.Acceptable schema data fields)
    (reliable : answer.Reliable) (coherent : Coherent part start device)
    (running : device.actions ≠ []) : (device.run schema part deviceId
      (replicate device.actions.length (.act answer))).Finished part := by
  induction actions : device.actions generalizing device with
  | nil => exact absurd actions running
  | cons action rest ih =>
    rw [length_cons, replicate_succ, Device.run, foldl_cons, ← Device.run]
    have next : Coherent part start (device.step schema part deviceId (.act answer)) :=
      step_coherent coherent (.act answer)
    have clears : (device.conf.wendyConfClearEnrollment schema part answer.supply).2 =
        .returned .ok :=
      Conf.wendyConfClearEnrollment_completes coherent.fresh coherent.safe stored walked
        acceptable reliable.supply
    by_cases last : rest = []
    · subst last
      obtain rfl : action = .erase pendingKey := by
        have each : ∀ left ∈ resetActions.tails, left.tail = [] → left ≠ [] →
            left = [.erase pendingKey] := by decide
        have only := each [action]
          ((mem_tails _ _).mpr (by rw [← actions]; exact coherent.left)) rfl (by simp)
        exact (cons.inj only).1
      obtain ⟨records, enrollment⟩ := coherent.gone actions
      have final : device.step schema part deviceId (.act answer) =
          { device with
            store := update device.store pendingKey none
            actions := []
            succeeded := true } := by
        rw [Device.step, act_access actions (by simp), if_pos reliable.done]
        simp [ResetAction.apply]
      simp only [length_nil, replicate_zero, Device.run, foldl_nil, final]
      refine ⟨rfl, ⟨fun key mem => ?_, enrollment⟩, by simp, rfl⟩
      have notPending : key ≠ pendingKey := by
        rintro rfl
        revert mem
        decide
      exact (update_of_ne notPending _ _).trans (records key mem)
    have nextActions : (device.step schema part deviceId (.act answer)).actions = rest := by
      rw [Device.step]
      by_cases access : action = .clearEnrollment
      · subst access
        rw [act_clear actions, clears]
        rfl
      rw [act_access actions access, if_pos reliable.done]
    exact ih next (by rw [nextActions]; exact last) nextActions

lemma reset_starts {nonce : List UInt8} (stored : device.store "nonce" = some nonce)
    (length : nonce.length = 32) :
    device.wendyPkiReset deviceId deviceId (formatNonce nonce) true true =
      { device with resetting := true, actions := resetActions } := by
  simp [Device.wendyPkiReset, parseNonce_formatNonce length, stored, length]

/-- A challenge, and a reset with its nonce. -/
def challengedReset (deviceId : String) (random : List UInt8) (answer : Answer) : List Event :=
  [.challenge random .done, .reset deviceId (formatNonce (freshNonce random)) true true] ++
  replicate resetActions.length (.act answer)

lemma challengedReset_finished (stored : Conf.storedData part start = some data)
    (walked : Conf.rootFields data = some fields) (acceptable : Conf.Acceptable schema data fields)
    (reliable : answer.Reliable) (coherent : Coherent part start device)
    (idle : device.actions = []) (length : random.length = 32) :
    (device.run schema part deviceId (challengedReset deviceId random answer)).Finished part := by
  have nonceLength : (freshNonce random).length = 32 := by simp [freshNonce, length]
  have challenged : device.step schema part deviceId (.challenge random .done) =
      { device with
        store := update device.store "nonce" (some (freshNonce random)) } := by
    simp [Device.step, idle, Device.identityChallenge]
  have first : Coherent part start
      (device.step schema part deviceId (.challenge random .done)) := step_coherent coherent _
  change Device.Finished part (((device.step schema part deviceId (.challenge random .done)).step
    schema part deviceId (.reset deviceId (formatNonce (freshNonce random)) true true)).run
      schema part deviceId (replicate resetActions.length (.act answer)))
  generalize device.step schema part deviceId (.challenge random .done) = asked at *
  have started : asked.step schema part deviceId
      (.reset deviceId (formatNonce (freshNonce random)) true true) =
      { asked with resetting := true, actions := resetActions } := by
    rw [Device.step, if_pos (by rw [challenged]; exact idle),
      reset_starts (by rw [challenged]; simp) nonceLength]
  have second : Coherent part start { asked with resetting := true, actions := resetActions } := by
    rw [← started]
    exact step_coherent first _
  rw [started]
  exact run_acts stored walked acceptable reliable second (by simp [resetActions])

end Facts

/-! ## Every run -/

/-- After any challenges, resets, storage failures and boots:
a device that carries the mark of a reset refuses its identity until a reset that has
erased everything else has come to the erasure of the mark, and the device has booted after
that; a record is erased only when the enrollment is gone; a device that runs no reset can
be challenged and reset, after which nothing is left; the reserved revisions and the clock
floor stay; and a reset with a wrong device id or nonce changes nothing. -/
theorem identity_reset_fails_closed (schema : Conf.Schema) (part : Conf.Partition)
    (deviceId : String) (start : Flash) (maps : Bool) (store : Store) (events : List Event) :
    let device := Device.run schema part deviceId
      { store, conf := Conf.boot schema part start none maps } events
    (device.Marked → ∀ later,
      (device.run schema part deviceId later).identityUseAllowed = true →
      ∃ before answer after maps, later = before ++ .act answer :: after ∧
        (device.run schema part deviceId before).actions = [.erase pendingKey] ∧
        (device.run schema part deviceId before).Gone part ∧ .reboot maps ∈ after) ∧
    (∀ event, ∀ key, device.store key ≠ none →
      (device.step schema part deviceId event).store key = none → ¬ Enrolled part device.conf) ∧
    (∀ data fields, Conf.storedData part start = some data → Conf.rootFields data = some fields →
      Conf.Acceptable schema data fields → device.actions = [] →
      ∀ random answer, random.length = 32 → answer.Reliable →
        (device.run schema part deviceId
          (challengedReset deviceId random answer)).Finished part) ∧
    device.store markKey = store markKey ∧ device.store floorKey = store floorKey ∧
    (∀ expected nonceHex opens reads,
      (expected ≠ deviceId ∨
        ∀ nonce, parseNonce nonceHex = some nonce → device.store "nonce" ≠ some nonce) →
      device.step schema part deviceId (.reset expected nonceHex opens reads) = device) := by
  intro device
  have initial : Coherent part start
      { store, conf := Conf.boot schema part start none maps } := by
    apply coherent_of_idle rfl
    · exact Conf.boot_fresh _ _ _
    exact .inl ⟨Conf.boot_flash _ _ _, Conf.boot_journal _ _ _⟩
  have coherent : Coherent part start device := run_coherent initial events
  refine ⟨fun marked later allowed => marked_run coherent marked allowed,
    fun event key present erased => erased_step coherent event present erased, ?_,
    store_run initial (by decide) (by decide) events,
    store_run initial (by decide) (by decide) events, ?_⟩
  · intro data fields stored walked acceptable idle random answer length reliable
    exact challengedReset_finished stored walked acceptable reliable coherent idle length
  intro expected nonceHex opens reads wrong
  unfold Device.step Device.wendyPkiReset
  dsimp only
  repeat' split
  all_goals first | rfl | skip
  rename_i sameId _ provided parsed _ _ stored found _ same
  have right : device.store "nonce" = some provided := by
    cases reads with
    | false => simp at found
    | true =>
      rw [if_pos rfl] at found
      rw [found, not_not.mp same]
  obtain otherId | otherNonce := wrong
  · exact absurd otherId sameId
  exact absurd right (otherNonce provided parsed)

def sampleDevice : Device where
  store key := if key = "nonce" then some (replicate 32 1) else none
  conf := Conf.boot Conf.sampleSchema Conf.samplePartition Conf.sampleFlash none true

def reliableReset : Conf.ResetSupply where
  opens := true
  queries := true
  allocates := true
  reads := true
  maps _ := true
  write := Conf.reliable
  commit := .done
  drop := .done

/-- A reset whose last access takes effect but does not report success, because the power is
lost, and the boot after it. -/
def unreportedReset : List Event :=
  [.reset "device" (formatNonce (replicate 32 1)) true true] ++
  replicate 20 (.act { done := true, landed := true, supply := reliableReset }) ++
  [.act { done := false, landed := true, supply := reliableReset }, .reboot true]

/-- The identity can be used again although no reset has returned success. -/
theorem unreported_reset_allows_use :
    (sampleDevice.run Conf.sampleSchema Conf.samplePartition "device"
      (unreportedReset.take 2)).store pendingKey = some (wordBytes 1) ∧
    (sampleDevice.run Conf.sampleSchema Conf.samplePartition "device"
      unreportedReset).succeeded = false ∧
    (sampleDevice.run Conf.sampleSchema Conf.samplePartition "device"
      unreportedReset).identityUseAllowed = true := by
  decide +kernel

end WendyLite.Pki.Reset
