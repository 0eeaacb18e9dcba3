import WendyLite.Conf.Store

/-! # Updates of the configuration

A merging write keeps every stored root field that the new message does not mention. It
finds them through the cache, which a write invalidates. So within one boot the first
merging write merges, and a later one keeps nothing.
-/

namespace WendyLite.Conf

structure Request where
  data : List UInt8
  mode : Mode
  supply : Supply

section Updates

variable (schema : Schema) (part : Partition)

def Device.writeAll : Device → List Request → Option Device
  | device, [] => some device
  | device, request :: requests =>
    let written := device.wendyConfWrite schema part request.supply request.data request.mode
    if written.2 = .returned .ok then written.1.writeAll requests else none

def storedFields (flash : Flash) : Option (List Field) :=
  (storedData part flash).bind rootFields

/-- Of the fields numbered below 32, the stored ones are those of the new message and
those of the old one that the new one does not mention. -/
def Merges (old new stored : List Field) : Prop :=
  stored.filter (·.number < 32) =
    old.filter (fun field => field.number < 32 ∧ ¬ Mentions new field.number) ++
      new.filter (·.number < 32)

instance (old new stored : List Field) : Decidable (Merges old new stored) :=
  inferInstanceAs (Decidable (_ = _))

def Covers (new old : List Field) : Prop :=
  ∀ field ∈ old, field.number < 32 → Mentions new field.number

instance (new old : List Field) : Decidable (Covers new old) :=
  inferInstanceAs (Decidable (∀ field ∈ old, field.number < 32 → Mentions new field.number))

/-- A valid cache points to the stored message, which has root fields. -/
def Device.Fresh (device : Device) : Prop :=
  ∀ size, device.cached = some size →
    storedData part device.flash = some (device.flash.read headerLen size) ∧
      ∃ fields, rootFields (device.flash.read headerLen size) = some fields

end Updates

section Facts

variable {schema : Schema} {part : Partition}

variable {data : List UInt8}

lemma storedData_eq_read (stored : storedData part flash = some data) :
    data = flash.read headerLen data.length := by
  unfold storedData at stored
  dsimp only at stored
  repeat' split at stored
  all_goals simp_all
  rw [← stored, Flash.length_read]

variable {device : Device}

lemma loadConf_fresh (fresh : device.Fresh part) (maps : Bool) :
    (device.loadConf schema part maps).Fresh part := by
  unfold Device.loadConf
  split
  · exact fresh
  rename_i data stored
  have found : storedData part device.flash = some data := by
    cases maps with
    | false => simp at stored
    | true => simpa using stored
  split
  next fields loaded scanned =>
    intro size cached
    have same : data.length = size := by simpa using cached
    have read := storedData_eq_read found
    rw [same] at read
    refine ⟨by rw [← read]; exact found, ?_⟩
    rw [← read]
    cases walked : rootFields data with
    | none => simp [scanRootFields_eq_none walked] at scanned
    | some fields => exact ⟨fields, rfl⟩
  intro size cached
  simp at cached

lemma boot_fresh (flash : Flash) (journal : Option (List UInt8)) (maps : Bool) :
    (boot schema part flash journal maps).Fresh part :=
  loadConf_fresh (fun size cached => by simp at cached) maps

lemma keptBy_unmentioned (walked : rootFields data = some new)
    (scanned : scanRootFields data = some present) (field : Field) :
    keptBy (~~~present) false field =
      decide (field.number < 32 ∧ ¬ Mentions new field.number) := by
  obtain ⟨mask, found, bits⟩ := scanRootFields_of_rootFields walked
  obtain rfl : present = mask := by simpa [scanned] using found
  by_cases known : field.number < 32
  · have inside := (lt_thirty_two_iff _).mp known
    rw [keptBy_known known, BitVec.getLsbD_not, bits _ known]
    simp [known, inside]
  rw [keptBy_unknown known]
  simp [known]

lemma keptFields_cached (cached : device.cached = some size)
    (current : rootFields (device.flash.read headerLen size) = some old)
    (walked : rootFields data = some new) : device.keptFields data .update = some (encodeFields
      (old.filter fun field => field.number < 32 ∧ ¬ Mentions new field.number)) := by
  obtain ⟨present, scanned, -⟩ := scanRootFields_of_rootFields walked
  have same : keptBy (~~~present) false =
      fun field : Field => decide (field.number < 32 ∧ ¬ Mentions new field.number) :=
    funext fun field => keptBy_unmentioned walked scanned field
  simp only [Device.keptFields, Device.cachedData, cached, Option.map_some, scanned,
    Option.bind_some, copyKeptFields, current, same]

lemma keptFields_invalid (invalid : device.cached = none)
    (data : List UInt8) (mode : Mode) : device.keptFields data mode = some [] := by
  unfold Device.keptFields Device.cachedData
  rw [invalid]
  cases mode <;> rfl

lemma keptFields_replace (device : Device) (data : List UInt8) :
    device.keptFields data .replace = some [] := by
  simp [Device.keptFields]

/-- A merging write is an update, and a replacing one a replacement. -/
lemma wendyConfWrite_ok
    (returned : (device.wendyConfWrite schema part supply data mode).2 = .returned .ok) :
    ∃ inner, (inner = .replace ↔ mode = .replace) ∧ (inner = .replace ∨ inner = .update) ∧
      device.wendyConfWrite schema part supply data mode =
        device.writeConf schema part supply data inner := by
  unfold Device.wendyConfWrite at returned ⊢
  by_cases empty : data = []
  · simp [empty] at returned
  rw [if_neg empty] at returned ⊢
  cases mode with
  | replace => exact ⟨.replace, by simp, by simp, by simp⟩
  | update => exact ⟨.update, by simp, by simp, by simp⟩
  | wifiOnly =>
    rw [if_pos rfl] at returned ⊢
    split at returned
    · simp at returned
    rename_i wifi
    split at returned
    · simp at returned
    rename_i known
    exact ⟨.update, by simp, by simp, by rw [if_neg wifi, if_neg known]⟩

lemma wendyConfWrite_stored (fresh : device.Fresh part) {request : Request}
    (returned : (device.wendyConfWrite schema part request.supply request.data
      request.mode).2 = .returned .ok) :
    let written := (device.wendyConfWrite schema part request.supply request.data
      request.mode).1
    ∃ new, rootFields request.data = some new ∧ written.cached = none ∧
      ((request.mode = .replace ∨ device.cached = none) ∧
          storedFields part written.flash = some new ∨
        request.mode ≠ .replace ∧ ∃ old, storedFields part device.flash = some old ∧
          device.cached ≠ none ∧ storedFields part written.flash =
            some (old.filter (fun field => field.number < 32 ∧ ¬ Mentions new field.number) ++
              new)) := by
  obtain ⟨inner, replaces, cases_, same⟩ := wendyConfWrite_ok returned
  rw [same] at returned ⊢
  obtain ⟨kept, merged, walked, invalid, stored⟩ := writeConf_ok returned
  obtain ⟨new, walked⟩ := Option.ne_none_iff_exists'.mp walked
  refine ⟨new, walked, invalid, ?_⟩
  have nothing : kept = [] → storedFields part
      (device.writeConf schema part request.supply request.data inner).1.flash = some new := by
    rintro rfl
    rw [storedFields, stored, Option.bind_some, List.nil_append, walked]
  obtain rfl | rfl := cases_
  · left
    rw [keptFields_replace] at merged
    exact ⟨.inl (replaces.mp rfl), nothing (by simpa using merged.symm)⟩
  have merging : request.mode ≠ .replace := fun replacing => by simpa using replaces.mpr replacing
  cases cached : device.cached with
  | none =>
    left
    rw [keptFields_invalid cached] at merged
    exact ⟨.inr rfl, nothing (by simpa using merged.symm)⟩
  | some size =>
    right
    obtain ⟨current, old, oldWalked⟩ := fresh size cached
    rw [keptFields_cached cached oldWalked walked] at merged
    have keeps : kept = _ := (Option.some.inj merged).symm
    refine ⟨merging, old, by rw [storedFields, current, Option.bind_some, oldWalked], by simp, ?_⟩
    rw [storedFields, stored, Option.bind_some, keeps, rootFields_filter_append oldWalked walked]

lemma writeAll_stored (fresh : device.Fresh part) (stored : storedFields part device.flash ≠ none)
    (written : device.writeAll schema part history = some before) :
    before.Fresh part ∧ storedFields part before.flash ≠ none ∧
      (history ≠ [] → before.cached = none) := by
  induction history generalizing device with
  | nil =>
    obtain rfl : device = before := by simpa [Device.writeAll] using written
    exact ⟨fresh, stored, by simp⟩
  | cons request requests ih =>
    rw [Device.writeAll] at written
    split at written
    next returned =>
      obtain ⟨new, walked, invalid, found⟩ := wendyConfWrite_stored fresh returned
      have nextStored : storedFields part (device.wendyConfWrite schema part request.supply
          request.data request.mode).1.flash ≠ none := by
        rcases found with ⟨-, found⟩ | ⟨-, old, -, -, found⟩ <;> rw [found] <;> simp
      obtain ⟨lastFresh, lastStored, lastInvalid⟩ := ih
        (fun size cached => by simp [invalid] at cached) nextStored written
      refine ⟨lastFresh, lastStored, fun _ => ?_⟩
      cases requests with
      | nil =>
        simp only [Device.writeAll, Option.some.injEq] at written
        rw [← written, invalid]
      | cons next others => exact lastInvalid (by simp)
    simp at written

lemma merges_append (old new : List Field) : Merges old new
      (old.filter (fun field => field.number < 32 ∧ ¬ Mentions new field.number) ++ new) := by
  rw [Merges, List.filter_append, List.filter_filter]
  congr 1
  apply List.filter_congr
  intro field _
  by_cases known : field.number < 32 <;> simp [known]

/-- The new message alone is the merged one only when it covers what was stored. -/
lemma merges_self_iff (old new : List Field) : Merges old new new ↔ Covers new old := by
  have empty : Merges old new new ↔
      old.filter (fun field => field.number < 32 ∧ ¬ Mentions new field.number) = [] := by
    rw [Merges]
    constructor
    · intro same
      have lengths := congrArg List.length same
      rw [List.length_append] at lengths
      exact List.length_eq_zero_iff.mp (by omega)
    intro none_
    rw [none_, List.nil_append]
  rw [empty, List.filter_eq_nil_iff, Covers]
  simp

end Facts

/-! ## A run of writes -/

/-- After any successful writes within a boot that found a readable configuration, a merging
write that succeeds merges if and only if it is the first write of the boot, or mentions
every root field that is stored. -/
theorem update_merges_iff (schema : Schema) (part : Partition) (flash : Flash)
    (journal : Option (List UInt8)) (maps : Bool) (history : List Request) (before : Device)
    (request : Request) (readable : (boot schema part flash journal maps).cached ≠ none)
    (written : (boot schema part flash journal maps).writeAll schema part history = some before)
    (merging : request.mode ≠ .replace)
    (returned : (before.wendyConfWrite schema part request.supply request.data
      request.mode).2 = .returned .ok) : ∃ old new stored,
      storedFields part before.flash = some old ∧ rootFields request.data = some new ∧
      storedFields part (before.wendyConfWrite schema part request.supply request.data
        request.mode).1.flash = some stored ∧
      (Merges old new stored ↔ history = [] ∨ Covers new old) := by
  have freshBoot : (boot schema part flash journal maps).Fresh part := boot_fresh flash journal maps
  have storedBoot : storedFields part (boot schema part flash journal maps).flash ≠ none := by
    obtain ⟨size, cached⟩ := Option.ne_none_iff_exists'.mp readable
    obtain ⟨found, fields, walked⟩ := freshBoot size cached
    rw [storedFields, found, Option.bind_some, walked]
    simp
  obtain ⟨fresh, storedBefore, invalid⟩ := writeAll_stored freshBoot storedBoot written
  obtain ⟨old, oldStored⟩ := Option.ne_none_iff_exists'.mp storedBefore
  obtain ⟨new, walked, -, found⟩ := wendyConfWrite_stored fresh returned
  obtain ⟨unmerged, found⟩ | ⟨-, current, currentStored, valid, found⟩ := found
  · refine ⟨old, new, new, oldStored, walked, found, ?_⟩
    have uncached : before.cached = none := unmerged.resolve_left merging
    have notFirst : history ≠ [] := by
      rintro rfl
      simp only [Device.writeAll, Option.some.injEq] at written
      exact readable (by rw [written]; exact uncached)
    rw [merges_self_iff]
    simp [notFirst]
  obtain rfl : old = current := by simpa [oldStored] using currentStored
  refine ⟨old, new, _, oldStored, walked, found, ?_⟩
  have first : history = [] := by
    by_contra later
    exact valid (invalid later)
  exact ⟨fun _ => .inl first, fun _ => merges_append old new⟩

/-! ## A second update -/

/-- A decoder that accepts every message, and finds an enrollment where the first byte of a
field numbered 4 is. -/
def sampleSchema : Schema where
  load data := some (data.contains 0x22)
  check data := some
    { hasEnrollment := data.contains 0x22, signedTime := 0, deviceRoots := 0, tsaRoots := 0,
      httpsRoots := 0, timeUrlIsRoughtime := false, provisionTrust := false }

def samplePartition : Partition where
  size := 64
  eraseSize := 32
  holdsHeader := by decide
  size_lt := by decide
  eraseSize_pos := by decide

def sampleFlash : Flash := fun address =>
  (magic ++ [5, 0, 0, 0] ++ [0x0A, 1, 0x61, 0x22, 0]).getD address 0xFF

def reliable : Supply where
  allocates := true
  outcomes _ := .done

def wifiUpdate : Request where
  data := [0x12, 0]
  mode := .update
  supply := reliable

/-- The second of two updates drops the device name and the enrollment. -/
theorem second_update_drops_fields :
    (boot sampleSchema samplePartition sampleFlash none true).cached ≠ none ∧ ∃ before after,
      (boot sampleSchema samplePartition sampleFlash none true).writeAll sampleSchema
        samplePartition [wifiUpdate] = some before ∧
      before.writeAll sampleSchema samplePartition [wifiUpdate] = some after ∧
      storedFields samplePartition before.flash =
        some [(⟨1, 2⟩, [0x0A, 1, 0x61]), (⟨4, 2⟩, [0x22, 0]), (⟨2, 2⟩, [0x12, 0])] ∧
      storedFields samplePartition after.flash = some [(⟨2, 2⟩, [0x12, 0])] ∧
      ¬ Merges [(⟨1, 2⟩, [0x0A, 1, 0x61]), (⟨4, 2⟩, [0x22, 0]), (⟨2, 2⟩, [0x12, 0])]
        [(⟨2, 2⟩, [0x12, 0])] [(⟨2, 2⟩, [0x12, 0])] := by
  refine ⟨by decide +kernel, _, _, rfl, rfl, by decide +kernel, by decide +kernel,
    by decide +kernel⟩

/-- The first update of a boot merges. -/
theorem update_merges_iff_first : ∃ old new stored, storedFields samplePartition
        (boot sampleSchema samplePartition sampleFlash none true).flash = some old ∧
      rootFields wifiUpdate.data = some new ∧ storedFields samplePartition
        ((boot sampleSchema samplePartition sampleFlash none true).wendyConfWrite sampleSchema
          samplePartition wifiUpdate.supply wifiUpdate.data wifiUpdate.mode).1.flash = some stored ∧
      (Merges old new stored ↔ ([] : List Request) = [] ∨ Covers new old) :=
  update_merges_iff sampleSchema samplePartition sampleFlash none true [] _ wifiUpdate
    (by decide +kernel) rfl (by decide) (by decide +kernel)

end WendyLite.Conf
