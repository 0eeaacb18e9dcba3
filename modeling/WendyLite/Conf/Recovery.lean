import WendyLite.Conf.Updates

/-! # Resetting the enrollment

An enrollment reset takes the enrollment out of the stored configuration. Because this
rewrites the partition, it first commits everything it keeps to a journal. From then on
the journal decides what the partition has to hold, and it is dropped only after the
partition was read back and found to hold exactly that. So the reset can be interrupted
anywhere and repeated.
-/

namespace WendyLite.Conf

/-- The bytes of `"WCR1"`. -/
def recoveryMagic : List UInt8 := [0x57, 0x43, 0x52, 0x31]

/-- All root fields except the enrollment and the retired one. -/
def keepMask : BitVec 32 :=
  ~~~(1#32 <<< retiredEnrollmentTag.toNat ||| 1#32 <<< enrollmentTag.toNat)

/-- How an atomic change of the key-value store goes. A change that reports a failure, or
that loses power, may have been made or not. -/
inductive Commit where
  | done
  | failed (made : Bool)
  | interrupted (made : Bool)
  deriving DecidableEq, Repr

/-- What a reset gets from the system. `maps` is asked for the load of an invalid cache, for
the refresh, and for the read back. -/
structure ResetSupply where
  opens : Bool
  queries : Bool
  allocates : Bool
  reads : Bool
  maps : Nat → Bool
  write : Supply
  commit : Commit
  drop : Commit

section Reset

variable (schema : Schema) (part : Partition)

variable (device : Device)

variable (supply : ResetSupply)

/-- The last part of `wendy_conf_clear_enrollment`: the journal is erased. -/
def Device.dropJournal : Device × Ending :=
  match supply.drop with
  | .done => ({ device with journal := none, enrollmentRequired := false }, .returned .ok)
  | .failed made =>
    ({ device with journal := if made then none else device.journal }, .returned .fail)
  | .interrupted made =>
    ({ device with journal := if made then none else device.journal }, .interrupted)

/-- The middle part of `wendy_conf_clear_enrollment`: unless the partition holds the retained
fields it is rewritten, and it is read back. -/
def Device.restoreRetained (retained : List UInt8) :
    Device × Ending :=
  let refreshed := device.invalidateCache.loadConf schema part (supply.maps 1)
  if refreshed.cachedData = some retained then refreshed.dropJournal supply
  else
    let written := refreshed.writeConf schema part supply.write retained .replace
    if written.2 ≠ .returned .ok then written
    else
      let readBack := written.1.loadConf schema part (supply.maps 2)
      if readBack.cachedData = some retained then readBack.dropJournal supply
      else (readBack, .returned .invalidState)

/-- The first part without a journal: one is made of the fields of the stored message. -/
def Device.startReset : Device × Ending :=
  let loaded := if device.cached = none then device.loadConf schema part (supply.maps 0) else device
  match loaded.cachedData with
  | none => (loaded, .returned .invalidState)
  | some current =>
    match copyKeptFields current keepMask true with
    | none => (loaded, .returned .invalidState)
    | some kept =>
      if kept.length = current.length then
        ({ loaded with enrollmentRequired := false }, .returned .ok)
      else if ¬ supply.allocates then (loaded, .returned .noMem)
      else
        let journal := recoveryMagic ++ kept
        match supply.commit with
        | .done =>
          Device.restoreRetained schema part { loaded with journal := some journal } supply kept
        | .failed made =>
          ({ loaded with journal := if made then some journal else none }, .returned .fail)
        | .interrupted made =>
          ({ loaded with journal := if made then some journal else none }, .interrupted)

/-- The first part with a journal: it has to be one this function made. -/
def Device.resumeReset (journal : List UInt8) :
    Device × Ending :=
  let retained := journal.drop recoveryMagic.length
  if journal.length < recoveryMagic.length ∨ part.size - headerLen < retained.length then
    (device, .returned .invalidSize)
  else if ¬ supply.allocates then (device, .returned .noMem)
  else if ¬ supply.reads then (device, .returned .fail)
  else if journal.take recoveryMagic.length ≠ recoveryMagic then
    (device, .returned .invalidState)
  else
    match copyKeptFields retained keepMask true with
    | none => (device, .returned .invalidState)
    | some kept =>
      if kept.length ≠ retained.length then (device, .returned .invalidState)
      else device.restoreRetained schema part supply retained

def Device.wendyConfClearEnrollment :
    Device × Ending :=
  if ¬ supply.opens ∨ ¬ supply.queries then (device, .returned .fail)
  else
    match device.journal with
    | none => device.startReset schema part supply
    | some journal => device.resumeReset schema part supply journal

/-! ## Runs -/

/-- A reset, after which an interrupted device boots again, or a boot without one. The flag
says whether the boot can map the partition. -/
inductive Event where
  | reset (supply : ResetSupply) (maps : Bool)
  | reboot (maps : Bool)

def Device.step : Event → Device
  | .reset supply maps =>
    let reset := device.wendyConfClearEnrollment schema part supply
    if reset.2 = .interrupted then boot schema part reset.1.flash reset.1.journal maps
    else reset.1
  | .reboot maps => boot schema part device.flash device.journal maps

def Device.run (events : List Event) : Device :=
  events.foldl (Device.step schema part) device

end Reset

/-- The bytes of a configuration without its enrollment and its retired enrollment. -/
def retained (fields : List Field) : List UInt8 :=
  encodeFields (fields.filter fun field =>
    field.number ≠ enrollmentTag ∧ field.number ≠ retiredEnrollmentTag)

section Facts

variable {schema : Schema} {part : Partition}

lemma keptBy_keepMask (field : Field) : keptBy keepMask true field =
      decide (field.number ≠ enrollmentTag ∧ field.number ≠ retiredEnrollmentTag) := by
  by_cases known : field.number < 32
  · have inside := (lt_thirty_two_iff _).mp known
    have fourth : field.number.toNat = enrollmentTag.toNat ↔ field.number = enrollmentTag :=
      UInt32.toNat_inj
    have third : field.number.toNat = retiredEnrollmentTag.toNat ↔
        field.number = retiredEnrollmentTag := UInt32.toNat_inj
    rw [keptBy_known known, keepMask, BitVec.getLsbD_not, BitVec.getLsbD_or,
      getLsbD_one_shiftLeft _ _ inside, getLsbD_one_shiftLeft _ _ inside]
    simp only [fourth, third, inside, decide_true, Bool.true_and, ne_eq]
    by_cases enrollment : field.number = enrollmentTag <;>
      by_cases retired : field.number = retiredEnrollmentTag <;> simp [enrollment, retired]
  rw [keptBy_unknown known]
  have fourth : field.number ≠ enrollmentTag := fun same => known (by rw [same]; decide)
  have third : field.number ≠ retiredEnrollmentTag := fun same => known (by rw [same]; decide)
  simp [fourth, third]

variable {data : List UInt8} {fields : List Field}

lemma copyKeptFields_keepMask (walked : rootFields data = some fields) :
    copyKeptFields data keepMask true = some (retained fields) := by
  have same : keptBy keepMask true = fun field : Field =>
      decide (field.number ≠ enrollmentTag ∧ field.number ≠ retiredEnrollmentTag) :=
    funext keptBy_keepMask
  rw [copyKeptFields, walked, Option.map_some, same]
  rfl

lemma retained_retained (walked : rootFields data = some fields) :
    ∃ again, rootFields (retained fields) = some again ∧ retained again = retained fields := by
  refine ⟨_, rootFields_filter walked _, ?_⟩
  rw [retained, retained, List.filter_filter]
  simp

/-- A configuration that is as long as what is retained of it is retained completely. -/
lemma retained_eq_of_length
    (walked : rootFields data = some fields) (same : (retained fields).length = data.length) :
    retained fields = data := by
  obtain ⟨split_, whole⟩ := rootFields_eq_some walked
  rw [split_] at same ⊢
  rw [retained, filter_eq_of_length whole same]

/-! ## What each part does to the stored data -/

variable (device : Device)

@[simp] lemma loadConf_flash (maps : Bool) :
    (device.loadConf schema part maps).flash = device.flash := by
  unfold Device.loadConf
  repeat' split
  all_goals rfl

@[simp] lemma loadConf_journal (maps : Bool) :
    (device.loadConf schema part maps).journal = device.journal := by
  unfold Device.loadConf
  repeat' split
  all_goals rfl

@[simp] lemma writeConf_journal (supply : Supply) (data : List UInt8) (mode : Mode) :
    (device.writeConf schema part supply data mode).1.journal = device.journal := by
  unfold Device.writeConf
  repeat' split
  all_goals rfl

variable {device : Device}

lemma Device.Fresh.stored (fresh : device.Fresh part)
    (cached : device.cachedData = some data) : storedData part device.flash = some data := by
  obtain ⟨size, valid, rfl⟩ := Option.map_eq_some_iff.mp cached
  exact (fresh size valid).1

lemma fresh_of_invalid (invalid : device.cached = none) : device.Fresh part := by
  intro size cached
  simp [invalid] at cached

lemma writeConf_fresh (fresh : device.Fresh part) (supply : Supply)
    (data : List UInt8) (mode : Mode) :
    (device.writeConf schema part supply data mode).1.Fresh part := by
  unfold Device.writeConf
  repeat' split
  all_goals first | exact fresh | exact fresh_of_invalid rfl

lemma loadConf_required (required : device.enrollmentRequired = true)
    (maps : Bool) : (device.loadConf schema part maps).enrollmentRequired = true := by
  unfold Device.loadConf
  repeat' split
  all_goals simp [required]

lemma writeConf_required (required : device.enrollmentRequired = true)
    (supply : Supply) (data : List UInt8) (mode : Mode) :
    (device.writeConf schema part supply data mode).1.enrollmentRequired = true := by
  unfold Device.writeConf
  repeat' split
  all_goals simp [required]

/-- What holds after a part of the reset that has to leave `kept` stored: it is stored, or the
journal holds it; success means that it is stored; and only success drops the
requirement. -/
structure Restoring (part : Partition) (kept : List UInt8) (before : Device)
    (after : Device × Ending) : Prop where
  fresh : after.1.Fresh part
  safe : after.1.journal = some (recoveryMagic ++ kept) ∨
    after.1.journal = none ∧ storedData part after.1.flash = some kept
  complete : after.2 = .returned .ok →
    after.1.journal = none ∧ storedData part after.1.flash = some kept
  required : after.2 ≠ .returned .ok → before.enrollmentRequired = true →
    after.1.enrollmentRequired = true

variable {before : Device} {kept : List UInt8}

lemma dropJournal_restoring
    (fresh : device.Fresh part) (journal : device.journal = some (recoveryMagic ++ kept))
    (cached : device.cachedData = some kept)
    (required : before.enrollmentRequired = true → device.enrollmentRequired = true)
    (supply : ResetSupply) : Restoring part kept before (device.dropJournal supply) := by
  have stored := fresh.stored cached
  unfold Device.dropJournal
  cases supply.drop with
  | done => exact ⟨fresh, .inr ⟨rfl, stored⟩, fun _ => ⟨rfl, stored⟩, fun failed => by simp at failed⟩
  | failed made | interrupted made =>
    refine ⟨fresh, ?_, by simp, fun _ => required⟩
    cases made with
    | true => exact .inr ⟨rfl, stored⟩
    | false => exact .inl journal

lemma restoreRetained_restoring (journal : device.journal = some (recoveryMagic ++ kept))
    (required : before.enrollmentRequired = true → device.enrollmentRequired = true)
    (supply : ResetSupply) :
    Restoring part kept before (device.restoreRetained schema part supply kept) := by
  unfold Device.restoreRetained
  have refreshedFresh : (device.invalidateCache.loadConf schema part (supply.maps 1)).Fresh part :=
    loadConf_fresh (fresh_of_invalid rfl) _
  have refreshedRequired : before.enrollmentRequired = true →
      (device.invalidateCache.loadConf schema part (supply.maps 1)).enrollmentRequired = true := by
    intro was
    apply loadConf_required
    exact required was
  have refreshedJournal :
      (device.invalidateCache.loadConf schema part (supply.maps 1)).journal =
        some (recoveryMagic ++ kept) := by
    rw [loadConf_journal]
    exact journal
  generalize device.invalidateCache.loadConf schema part (supply.maps 1) = refreshed at *
  dsimp only
  split
  next cached =>
    exact dropJournal_restoring refreshedFresh refreshedJournal cached refreshedRequired supply
  have writtenFresh : (refreshed.writeConf schema part supply.write kept .replace).1.Fresh part :=
    writeConf_fresh refreshedFresh _ _ _
  have writtenRequired : before.enrollmentRequired = true →
      (refreshed.writeConf schema part supply.write kept .replace).1.enrollmentRequired = true :=
    fun was => writeConf_required (refreshedRequired was) _ _ _
  split
  next failed =>
    refine ⟨writtenFresh, .inl ?_, fun returned => absurd returned failed, fun _ => writtenRequired⟩
    rw [writeConf_journal, refreshedJournal]
  have readFresh : ((refreshed.writeConf schema part supply.write kept .replace).1.loadConf
      schema part (supply.maps 2)).Fresh part := loadConf_fresh writtenFresh _
  have readJournal : ((refreshed.writeConf schema part supply.write kept .replace).1.loadConf
      schema part (supply.maps 2)).journal = some (recoveryMagic ++ kept) := by
    rw [loadConf_journal, writeConf_journal, refreshedJournal]
  have readRequired : before.enrollmentRequired = true →
      ((refreshed.writeConf schema part supply.write kept .replace).1.loadConf schema part
        (supply.maps 2)).enrollmentRequired = true :=
    fun was => loadConf_required (writtenRequired was) _
  split
  next cached => exact dropJournal_restoring readFresh readJournal cached readRequired supply
  exact ⟨readFresh, .inl readJournal, by simp, fun _ => readRequired⟩

/-! ## The whole reset -/

/-- The reset has changed nothing yet, or what it has to retain of the initial contents is in
the journal, or it is stored and the journal is gone. -/
def Recoverable (part : Partition) (start : Flash) (device : Device) : Prop :=
  device.flash = start ∧ device.journal = none ∨
    ∃ data fields, storedData part start = some data ∧ rootFields data = some fields ∧
      (device.journal = some (recoveryMagic ++ retained fields) ∨
        device.journal = none ∧ storedData part device.flash = some (retained fields))

/-- What holds after a reset of a recoverable device. -/
structure Resetting (part : Partition) (start : Flash) (before : Device)
    (after : Device × Ending) : Prop where
  fresh : after.1.Fresh part
  safe : Recoverable part start after.1
  complete : after.2 = .returned .ok →
    ∃ data fields, storedData part start = some data ∧ rootFields data = some fields ∧
      after.1.journal = none ∧ storedData part after.1.flash = some (retained fields)
  required : after.2 ≠ .returned .ok → before.enrollmentRequired = true →
    after.1.enrollmentRequired = true

variable {start : Flash}

lemma Restoring.resetting (stored : storedData part start = some data)
    (walked : rootFields data = some fields)
    (restoring : Restoring part (retained fields) before after) :
    Resetting part start before after where
  fresh := restoring.fresh
  safe := .inr ⟨data, fields, stored, walked, restoring.safe⟩
  complete returned := ⟨data, fields, stored, walked, restoring.complete returned⟩
  required := restoring.required

lemma Resetting.refused (fresh : device.Fresh part) (safe : Recoverable part start device)
    (failed : status ≠ .ok)
    (required : before.enrollmentRequired = true → device.enrollmentRequired = true) :
    Resetting part start before (device, .returned status) where
  fresh := fresh
  safe := safe
  complete returned := absurd (Ending.returned.inj returned) failed
  required _ := required

lemma resumeReset_resetting (fresh : device.Fresh part)
    (stored : storedData part start = some data) (walked : rootFields data = some fields)
    (held : device.journal = some (recoveryMagic ++ retained fields))
    (same : journal = recoveryMagic ++ retained fields) (supply : ResetSupply) :
    Resetting part start device (device.resumeReset schema part supply journal) := by
  have safe : Recoverable part start device := .inr ⟨data, fields, stored, walked, .inl held⟩
  have rest : journal.drop recoveryMagic.length = retained fields := by
    rw [same, List.drop_left]
  unfold Device.resumeReset
  dsimp only
  rw [rest]
  repeat' split
  all_goals first
    | exact Resetting.refused fresh safe (by simp) id
    | exact (restoreRetained_restoring held id supply).resetting stored walked

lemma startReset_resetting (fresh : device.Fresh part) (safe : Recoverable part start device)
    (none_ : device.journal = none) (supply : ResetSupply) :
    Resetting part start device (device.startReset schema part supply) := by
  unfold Device.startReset
  have loadedFresh : (if device.cached = none then
      device.loadConf schema part (supply.maps 0) else device).Fresh part := by
    split
    · exact loadConf_fresh fresh _
    exact fresh
  have loadedRequired : device.enrollmentRequired = true → (if device.cached = none then
      device.loadConf schema part (supply.maps 0) else device).enrollmentRequired = true := by
    intro was
    split
    · exact loadConf_required was _
    exact was
  have loadedSafe : Recoverable part start (if device.cached = none then
      device.loadConf schema part (supply.maps 0) else device) := by
    split
    · rwa [Recoverable, loadConf_flash, loadConf_journal]
    exact safe
  have loadedNone : (if device.cached = none then
      device.loadConf schema part (supply.maps 0) else device).journal = none := by
    split
    · rw [loadConf_journal, none_]
    exact none_
  generalize (if device.cached = none then
      device.loadConf schema part (supply.maps 0) else device) = loaded at *
  dsimp only
  cases cached : loaded.cachedData with
  | none => exact Resetting.refused loadedFresh loadedSafe (by simp) loadedRequired
  | some current =>
    have currentStored := loadedFresh.stored cached
    cases walked : rootFields current with
    | none =>
      have failed : copyKeptFields current keepMask true = none := by simp [copyKeptFields, walked]
      simp only [failed]
      exact Resetting.refused loadedFresh loadedSafe (by simp) loadedRequired
    | some fields =>
      -- The stored message is the initial one, or what is retained of it.
      obtain ⟨data, initial, initialStored, initialWalked, same⟩ :
          ∃ data initial, storedData part start = some data ∧ rootFields data = some initial ∧
            retained fields = retained initial := by
        obtain ⟨unchanged, -⟩ | ⟨data, initial, stored, initialWalked, later⟩ := loadedSafe
        · exact ⟨current, fields, by rw [← unchanged]; exact currentStored, walked, rfl⟩
        obtain held | ⟨-, kept⟩ := later
        · simp [loadedNone] at held
        obtain ⟨again, againWalked, unchanged⟩ := retained_retained initialWalked
        obtain rfl : current = retained initial := by simpa [currentStored] using kept
        obtain rfl : fields = again := by simpa [walked] using againWalked
        exact ⟨data, initial, stored, initialWalked, unchanged⟩
      simp only [copyKeptFields_keepMask walked]
      split
      next complete =>
        have whole := retained_eq_of_length walked complete
        refine ⟨loadedFresh, loadedSafe, fun _ => ?_, fun failed => by simp at failed⟩
        refine ⟨data, initial, initialStored, initialWalked, loadedNone, ?_⟩
        rw [← same, whole]
        exact currentStored
      split
      · exact Resetting.refused loadedFresh loadedSafe (by simp) loadedRequired
      -- A journal that is there retains the right fields.
      have safeWith : ∀ made : Bool, Recoverable part start
          { loaded with
            journal := if made then some (recoveryMagic ++ retained fields) else none } := by
        intro made
        cases made with
        | true => exact .inr ⟨data, initial, initialStored, initialWalked, .inl (by simp [same])⟩
        | false =>
          rw [← loadedNone]
          exact loadedSafe
      cases supply.commit with
      | done =>
        have restoring : Restoring part (retained fields) device
            (Device.restoreRetained schema part
              { loaded with journal := some (recoveryMagic ++ retained fields) } supply
              (retained fields)) := by
          apply restoreRetained_restoring
          · rfl
          exact loadedRequired
        rw [same] at restoring ⊢
        exact restoring.resetting initialStored initialWalked
      | failed made =>
        exact Resetting.refused (fun size valid => loadedFresh size valid) (safeWith made)
          (by simp) loadedRequired
      | interrupted made =>
        exact ⟨fun size valid => loadedFresh size valid, safeWith made, by simp,
          fun _ => loadedRequired⟩

lemma wendyConfClearEnrollment_resetting
    (fresh : device.Fresh part) (safe : Recoverable part start device) (supply : ResetSupply) :
    Resetting part start device (device.wendyConfClearEnrollment schema part supply) := by
  unfold Device.wendyConfClearEnrollment
  split
  · exact Resetting.refused fresh safe (by simp) id
  cases journal : device.journal with
  | none => exact startReset_resetting fresh safe journal supply
  | some held =>
    obtain ⟨-, none_⟩ | ⟨data, fields, stored, walked, same | ⟨none_, -⟩⟩ := safe
    · simp [journal] at none_
    · exact resumeReset_resetting fresh stored walked same (by simpa [journal] using same) supply
    simp [journal] at none_

/-! ## A reset that nothing disturbs -/

structure ResetSupply.Reliable (supply : ResetSupply) : Prop where
  opens : supply.opens = true
  queries : supply.queries = true
  allocates : supply.allocates = true
  reads : supply.reads = true
  maps : ∀ index, supply.maps index = true
  writes : ∀ index, supply.write.outcomes index = .done
  commit : supply.commit = .done
  drop : supply.drop = .done

lemma loadConf_cachedData (stored : storedData part device.flash = some data)
    (walked : rootFields data = some fields) (loads : schema.load data = some hasEnrollment) :
    (device.loadConf schema part true).cachedData = some data := by
  obtain ⟨mask, scanned, -⟩ := scanRootFields_of_rootFields walked
  have read := storedData_eq_read stored
  simp only [Device.loadConf, stored, loads, scanned, if_true, Device.cachedData, Option.map_some]
  rw [← read]

lemma writeConf_replace_reliable (device : Device) {supply : Supply}
    {message : Message} (reliable : ∀ index, supply.outcomes index = .done)
    (checked : schema.checkConf data = .ok message) (fits : headerLen + data.length ≤ part.size) :
    (device.writeConf schema part supply data .replace).2 = .returned .ok ∧
      storedData part (device.writeConf schema part supply data .replace).1.flash = some data := by
  have returned : (device.writeConf schema part supply data .replace).2 = .returned .ok := by
    unfold Device.writeConf
    rw [checked, keptFields_replace]
    dsimp only
    rw [if_neg (by simp; omega), if_neg (by simp), Flash.perform_reliable reliable]
    rfl
  obtain ⟨kept, merged, -, -, stored⟩ := writeConf_ok returned
  rw [keptFields_replace] at merged
  obtain rfl : kept = [] := by simpa using merged.symm
  exact ⟨returned, by simpa using stored⟩

lemma restoreRetained_completes {supply : ResetSupply} {message : Message} {hasEnrollment : Bool}
    (reliable : supply.Reliable) (walked : rootFields kept = some fields)
    (loads : schema.load kept = some hasEnrollment) (checked : schema.checkConf kept = .ok message)
    (fits : headerLen + kept.length ≤ part.size) :
    (device.restoreRetained schema part supply kept).2 = .returned .ok := by
  have drops : ∀ other : Device, (other.dropJournal supply).2 = .returned .ok := by
    intro other
    rw [Device.dropJournal, reliable.drop]
  unfold Device.restoreRetained
  dsimp only
  split
  · exact drops _
  obtain ⟨returned, stored⟩ := writeConf_replace_reliable
    (device.invalidateCache.loadConf schema part (supply.maps 1)) reliable.writes checked fits
  rw [if_neg (by simp [returned]), reliable.maps 2,
    if_pos (loadConf_cachedData stored walked loads)]
  exact drops _

/-- What it takes for a reset to succeed: the decoder accepts the initial configuration and
what is retained of it. -/
structure Acceptable (schema : Schema) (data : List UInt8) (fields : List Field) : Prop where
  loads : schema.load data ≠ none
  loadsRetained : schema.load (retained fields) ≠ none
  checks : ∃ message, schema.checkConf (retained fields) = .ok message

lemma storedData_length (stored : storedData part flash = some data) :
    headerLen + data.length ≤ part.size := by
  have room := part.holdsHeader
  unfold storedData at stored
  dsimp only at stored
  repeat' split at stored
  all_goals simp only [reduceCtorEq, Option.some.injEq] at stored
  rw [← stored, Flash.length_read]
  omega

lemma wendyConfClearEnrollment_completes (fresh : device.Fresh part)
    (safe : Recoverable part start device) (stored : storedData part start = some data)
    (walked : rootFields data = some fields) (acceptable : Acceptable schema data fields)
    {supply : ResetSupply} (reliable : supply.Reliable) :
    (device.wendyConfClearEnrollment schema part supply).2 = .returned .ok := by
  obtain ⟨again, keptWalked, unchanged⟩ := retained_retained walked
  obtain ⟨message, checked⟩ := acceptable.checks
  obtain ⟨keptEnrollment, keptLoads⟩ := Option.ne_none_iff_exists'.mp acceptable.loadsRetained
  obtain ⟨enrollment, loads⟩ := Option.ne_none_iff_exists'.mp acceptable.loads
  have shorter : (retained fields).length ≤ data.length := by
    rw [(rootFields_eq_some walked).1]
    exact length_encodeFields_filter_le _ _
  have fits := storedData_length stored
  have completes : ∀ other : Device,
      (other.restoreRetained schema part supply (retained fields)).2 = .returned .ok :=
    fun other => restoreRetained_completes reliable keptWalked keptLoads checked (by omega)
  unfold Device.wendyConfClearEnrollment
  rw [if_neg (by simp [reliable.opens, reliable.queries])]
  -- Without a journal the initial message is stored, or what is retained of it.
  have starts : (∃ current currentFields hasEnrollment,
      storedData part device.flash = some current ∧ rootFields current = some currentFields ∧
      schema.load current = some hasEnrollment ∧ retained currentFields = retained fields) →
      (device.startReset schema part supply).2 = .returned .ok := by
    rintro ⟨current, currentFields, hasEnrollment, currentStored, currentWalked, currentLoads, same⟩
    have cached : (if device.cached = none then device.loadConf schema part (supply.maps 0)
        else device).cachedData = some current := by
      split
      · rw [reliable.maps 0, loadConf_cachedData currentStored currentWalked currentLoads]
      rename_i valid
      obtain ⟨size, valid⟩ := Option.ne_none_iff_exists'.mp valid
      rw [Device.cachedData, valid, Option.map_some, ← currentStored, (fresh size valid).1]
    unfold Device.startReset
    dsimp only
    rw [cached]
    dsimp only
    rw [copyKeptFields_keepMask currentWalked]
    dsimp only
    split
    · rfl
    rw [if_neg (by simp [reliable.allocates]), reliable.commit, same]
    exact completes _
  obtain ⟨flash, journal⟩ | ⟨otherData, otherFields, otherStored, otherWalked, later⟩ := safe
  · rw [journal]
    exact starts ⟨data, fields, enrollment, by rw [flash]; exact stored, walked, loads, rfl⟩
  obtain rfl : data = otherData := by simpa [stored] using otherStored
  obtain rfl : fields = otherFields := by simpa [walked] using otherWalked
  obtain journal | ⟨journal, kept⟩ := later
  · rw [journal]
    dsimp only
    unfold Device.resumeReset
    dsimp only
    rw [List.drop_left, if_neg (by rw [List.length_append]; omega),
      if_neg (by simp [reliable.allocates]), if_neg (by simp [reliable.reads]),
      if_neg (by rw [List.take_left]; simp), copyKeptFields_keepMask keptWalked, unchanged]
    dsimp only
    rw [if_neg (by simp)]
    exact completes _
  rw [journal]
  exact starts ⟨_, again, keptEnrollment, kept, keptWalked, keptLoads, unchanged⟩

/-! ## Every run -/

lemma boot_flash (flash : Flash) (journal : Option (List UInt8)) (maps : Bool) :
    (boot schema part flash journal maps).flash = flash := loadConf_flash _ _

lemma boot_journal (flash : Flash) (journal : Option (List UInt8)) (maps : Bool) :
    (boot schema part flash journal maps).journal = journal := loadConf_journal _ _

lemma step_recoverable (fresh : device.Fresh part)
    (safe : Recoverable part start device) (event : Event) :
    (device.step schema part event).Fresh part ∧
      Recoverable part start (device.step schema part event) := by
  have booted : ∀ {other : Device} (maps : Bool), Recoverable part start other →
      Recoverable part start (boot schema part other.flash other.journal maps) := by
    intro other maps otherSafe
    rwa [Recoverable, boot_flash, boot_journal]
  cases event with
  | reboot maps => exact ⟨boot_fresh _ _ _, booted maps safe⟩
  | reset supply maps =>
    have resetting : Resetting part start device
        (device.wendyConfClearEnrollment schema part supply) :=
      wendyConfClearEnrollment_resetting fresh safe supply
    unfold Device.step
    dsimp only
    split
    · exact ⟨boot_fresh _ _ _, booted maps resetting.safe⟩
    exact ⟨resetting.fresh, resetting.safe⟩

lemma run_recoverable (fresh : device.Fresh part)
    (safe : Recoverable part start device) (events : List Event) :
    (device.run schema part events).Fresh part ∧
      Recoverable part start (device.run schema part events) := by
  induction events generalizing device with
  | nil => exact ⟨fresh, safe⟩
  | cons event events ih =>
    obtain ⟨nextFresh, nextSafe⟩ := step_recoverable fresh safe event
    exact ih nextFresh nextSafe

/-! ## Writes that are repeated -/

lemma filter_unmentioned (old new : List Field) :
    ((old.filter fun field => field.number < 32 ∧ ¬ Mentions new field.number) ++ new).filter
        (fun field => field.number < 32 ∧ ¬ Mentions new field.number) ++ new =
      (old.filter fun field => field.number < 32 ∧ ¬ Mentions new field.number) ++ new := by
  have gone : new.filter (fun field => field.number < 32 ∧ ¬ Mentions new field.number) = [] := by
    rw [List.filter_eq_nil_iff]
    intro field mem kept
    simp only [decide_eq_true_eq] at kept
    exact kept.2 ⟨field, mem, rfl⟩
  rw [List.filter_append, gone, List.append_nil, List.filter_filter]
  simp only [Bool.and_self]

/-- A write that is repeated after a boot that finds its message leaves the configuration as
it is, whatever its mode. -/
theorem repeated_write_keeps (fresh : device.Fresh part) (request : Request) (again : Supply)
    (maps : Bool)
    (returned : (device.wendyConfWrite schema part request.supply request.data
      request.mode).2 = .returned .ok) :
    let once := (device.wendyConfWrite schema part request.supply request.data request.mode).1
    let booted := boot schema part once.flash once.journal maps
    let twice := booted.wendyConfWrite schema part again request.data request.mode
    booted.cached ≠ none → twice.2 = .returned .ok →
      storedFields part twice.1.flash = storedFields part once.flash := by
  intro once booted twice loaded returned'
  obtain ⟨new, walked, _, first⟩ := wendyConfWrite_stored fresh returned
  obtain ⟨new', walked', _, second⟩ := @wendyConfWrite_stored schema part booted
    (boot_fresh once.flash once.journal maps) { request with supply := again } returned'
  obtain rfl : new = new' := Option.some.inj (walked.symm.trans walked')
  rcases second with ⟨replaced | absent, stored'⟩ | ⟨merging, old', found, _, stored'⟩
  · rcases first with ⟨_, stored⟩ | ⟨merging, _⟩
    · exact stored'.trans stored.symm
    exact absurd replaced merging
  · exact absurd absent loaded
  have merged : ∃ old : List Field, storedFields part once.flash =
      some ((old.filter fun field => field.number < 32 ∧ ¬ Mentions new field.number) ++ new) := by
    rcases first with ⟨_, stored⟩ | ⟨_, old, _, _, stored⟩
    · exact ⟨[], stored⟩
    exact ⟨old, stored⟩
  rcases merged with ⟨old, stored⟩
  rw [boot_flash, stored] at found
  rw [← Option.some.inj found, filter_unmentioned] at stored'
  exact stored'.trans stored.symm

/-- The second write of a wifi field finds what the first one left. -/
theorem repeated_write_keeps_wifi :
    let device := boot sampleSchema samplePartition sampleFlash none true
    let once := (device.wendyConfWrite sampleSchema samplePartition reliable wifiUpdate.data
      .update).1
    let booted := boot sampleSchema samplePartition once.flash once.journal true
    storedFields samplePartition (booted.wendyConfWrite sampleSchema samplePartition reliable
      wifiUpdate.data .update).1.flash = storedFields samplePartition once.flash :=
  repeated_write_keeps (boot_fresh _ _ _) ⟨wifiUpdate.data, .update, reliable⟩ reliable true
    (by decide +kernel) (by decide +kernel) (by decide +kernel)

end Facts

/-- From any contents, after any resets and boots, the next reset: before it and after it,
also where it is interrupted, what has to be retained of the initial configuration is
stored or in the journal. If it returns success, exactly that is stored, byte for byte, and
the journal is gone. If it does not, the requirement of an enrollment stays as long as the
device runs. And it does return success when nothing fails and the decoder accepts what is
retained. -/
theorem enrollment_reset_recovers (schema : Schema) (part : Partition) (start : Flash)
    (maps : Bool) (events : List Event) (supply : ResetSupply) :
    let device := (boot schema part start none maps).run schema part events
    let reset := device.wendyConfClearEnrollment schema part supply
    (∀ data fields, storedData part start = some data → rootFields data = some fields →
      ∀ moment ∈ [device, reset.1],
        storedData part moment.flash = some data ∨
        storedData part moment.flash = some (retained fields) ∨
        moment.journal = some (recoveryMagic ++ retained fields)) ∧
    (reset.2 = .returned .ok →
      ∃ data fields, storedData part start = some data ∧ rootFields data = some fields ∧
        reset.1.journal = none ∧ storedData part reset.1.flash = some (retained fields)) ∧
    (reset.2 ≠ .returned .ok → device.enrollmentRequired = true →
      reset.1.enrollmentRequired = true) ∧
    (∀ data fields, storedData part start = some data → rootFields data = some fields →
      Acceptable schema data fields → supply.Reliable → reset.2 = .returned .ok) := by
  intro device reset
  have initial : Recoverable part start (boot schema part start none maps) :=
    .inl ⟨boot_flash _ _ _, boot_journal _ _ _⟩
  obtain ⟨fresh, safe⟩ : device.Fresh part ∧ Recoverable part start device :=
    run_recoverable (boot_fresh _ _ _) initial events
  have resetting : Resetting part start device reset :=
    wendyConfClearEnrollment_resetting fresh safe supply
  refine ⟨?_, resetting.complete, resetting.required, ?_⟩
  · intro data fields stored walked moment member
    have momentSafe : Recoverable part start moment := by
      obtain rfl | rfl := List.mem_pair.mp member
      · exact safe
      exact resetting.safe
    obtain ⟨unchanged, -⟩ | ⟨otherData, otherFields, otherStored, otherWalked, later⟩ := momentSafe
    · exact .inl (by rw [unchanged]; exact stored)
    obtain rfl : data = otherData := by simpa [stored] using otherStored
    obtain rfl : fields = otherFields := by simpa [walked] using otherWalked
    obtain journal | ⟨-, kept⟩ := later
    · exact .inr (.inr journal)
    exact .inr (.inl kept)
  intro data fields stored walked acceptable reliable
  exact wendyConfClearEnrollment_completes fresh safe stored walked acceptable reliable

def interruptedReset : ResetSupply where
  opens := true
  queries := true
  allocates := true
  reads := true
  maps _ := true
  write := { allocates := true, outcomes := fun _ => .interrupted fun _ => 0xFF }
  commit := .done
  drop := .done

/-- After the boot that follows an interrupted reset no enrollment is required, although no
reset has returned. -/
theorem interrupted_reset_drops_requirement :
    (boot sampleSchema samplePartition sampleFlash none true).enrollmentRequired = true ∧
    ((boot sampleSchema samplePartition sampleFlash none true).wendyConfClearEnrollment
      sampleSchema samplePartition interruptedReset).2 = .interrupted ∧
    ((boot sampleSchema samplePartition sampleFlash none true).run sampleSchema
      samplePartition [.reset interruptedReset true]).enrollmentRequired = false := by
  decide +kernel

end WendyLite.Conf
