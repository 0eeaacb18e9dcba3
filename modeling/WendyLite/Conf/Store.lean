import WendyLite.Conf.Fields
import WendyLite.Foundation.Flash

/-! # The stored configuration

The configuration partition holds a header, with a magic and the size of the message,
and then the message. While the cache is valid it points into the mapped partition.
Writing erases what the partition held, so it invalidates the cache first, and nothing
loads the new message before the next boot. A merging write keeps the root fields the
new message does not mention, which it finds through the cache.
-/

namespace WendyLite.Conf

open List

/-- The numbers of the root fields the store knows. -/
def wifiTag : UInt32 := 2

def retiredEnrollmentTag : UInt32 := 3

def enrollmentTag : UInt32 := 4

def maxTrustBundle : Nat := 16384

def maxEnrollmentData : Nat := 65536

def headerLen : Nat := 8

def magic : List UInt8 := [0x57, 0x59, 0x43, 0x30]

structure Partition where
  size : Nat
  eraseSize : Nat
  holdsHeader : headerLen ≤ size
  size_lt : size < 2 ^ 32
  eraseSize_pos : 0 < eraseSize

inductive Status where
  | ok
  | invalidArg
  | invalidSize
  | invalidState
  | noMem
  | fail
  deriving DecidableEq, Repr

inductive Ending where
  | returned (status : Status)
  | interrupted
  deriving DecidableEq, Repr

def endingOf : Flash.Ended → Ending
  | .done => .returned .ok
  | .failed => .returned .fail
  | .interrupted => .interrupted

/-! ## What the message decoder finds -/

/-- What `_write_conf` reads of a decoded message: the sizes of the four enrollment spans
and the settings they are checked against. -/
structure Message where
  hasEnrollment : Bool
  signedTime : Nat
  deviceRoots : Nat
  tsaRoots : Nat
  httpsRoots : Nat
  timeUrlIsRoughtime : Bool
  provisionTrust : Bool
  deriving DecidableEq, Repr

/-- The generated message decoder. `load` is how `_load_conf` uses it, and says whether the
message has an enrollment; `check` is how `_write_conf` uses it. -/
structure Schema where
  load : List UInt8 → Option Bool
  check : List UInt8 → Option Message

/-- The loop over the enrollment spans in `_write_conf`. -/
def Message.checkSpans (message : Message) : Nat → Nat → List Nat → Status
  | _, _, [] => .ok
  | index, enrollmentSize, size :: sizes =>
    let limit := if index = 0 then maxEnrollmentData else maxTrustBundle
    if limit < size ∨ maxEnrollmentData - enrollmentSize < size then .invalidSize
    else
      let optionalTsa := index = 2 ∧ message.timeUrlIsRoughtime ∧ size = 0
      if index ≠ 0 ∧ ¬ optionalTsa ∧ (size != 0) ≠ message.provisionTrust then .invalidArg
      else message.checkSpans (index + 1) (enrollmentSize + size) sizes

/-- What `_write_conf` checks before it looks at the partition. -/
def Schema.checkConf (schema : Schema) (data : List UInt8) : Except Status Message :=
  match scanRootFields data with
  | none => .error .invalidArg
  | some fields =>
    if fields &&& 1#32 <<< retiredEnrollmentTag.toNat ≠ 0 then .error .invalidArg
    else match schema.check data with
    | none => .error .invalidArg
    | some message =>
      match message.checkSpans 0 0
        [message.signedTime, message.deviceRoots, message.tsaRoots, message.httpsRoots] with
      | .ok => .ok message
      | status => .error status

/-! ## The device -/

/-- The partition, the journal of an enrollment reset, and what is in memory: the size of
the cached message while the cache is valid, and whether enrollment is required. -/
structure Device where
  flash : Flash
  journal : Option (List UInt8)
  cached : Option Nat
  enrollmentRequired : Bool

section Store

variable (schema : Schema) (part : Partition)

def storedData (flash : Flash) : Option (List UInt8) :=
  if flash.read 0 magic.length ≠ magic then none
  else
    let size := flash.word 4 4
    if part.size - headerLen < size then none else some (flash.read headerLen size)

variable (device : Device)

def Device.cachedData : Option (List UInt8) :=
  device.cached.map (device.flash.read headerLen)

/-- `_load_conf`. The mapping of the partition can fail. -/
def Device.loadConf (maps : Bool) : Device :=
  match if maps then storedData part device.flash else none with
  | none => device
  | some data =>
    match schema.load data, scanRootFields data with
    | some hasEnrollment, some fields =>
      { device with
        cached := some data.length
        enrollmentRequired := device.enrollmentRequired ||
          (hasEnrollment || fields &&& 1#32 <<< retiredEnrollmentTag.toNat != 0) }
    | _, _ => { device with cached := none }

def Device.invalidateCache : Device := { device with cached := none }

def boot (flash : Flash) (journal : Option (List UInt8)) (maps : Bool) : Device :=
  Device.loadConf schema part
    { flash, journal, cached := none, enrollmentRequired := false } maps

/-! ## Writing -/

inductive Mode where
  | replace
  | update
  | wifiOnly
  deriving DecidableEq, Repr

/-- What a write gets from the system: memory for the kept fields, and how each operation
on the partition goes. -/
structure Supply where
  allocates : Bool
  outcomes : Nat → Flash.Outcome

def Device.keptFields (data : List UInt8) (mode : Mode) :
    Option (List UInt8) :=
  match mode, device.cachedData with
  | .update, some current =>
    (scanRootFields data).bind fun present => copyKeptFields current (~~~present) false
  | _, _ => some []

def header (finalSize : Nat) : List UInt8 := magic ++ (beBytes 4 finalSize).reverse

def Partition.eraseLength (part : Partition) (finalSize : Nat) : Nat :=
  (headerLen + finalSize + part.eraseSize - 1) / part.eraseSize * part.eraseSize

def Partition.rewrite (part : Partition) (kept data : List UInt8) : List Flash.Operation :=
  [.erase 0 (part.eraseLength (kept.length + data.length)),
    .program 0 (header (kept.length + data.length))] ++
  (if kept = [] then [] else [.program headerLen kept]) ++
  (if data = [] then [] else [.program (headerLen + kept.length) data])

def Device.writeConf (supply : Supply) (data : List UInt8) (mode : Mode) :
    Device × Ending :=
  match schema.checkConf data with
  | .error status => (device, .returned status)
  | .ok message =>
    match device.keptFields data mode with
    | none => (device, .returned .invalidState)
    | some kept =>
      if part.size < headerLen + (kept.length + data.length) then
        (device, .returned .invalidSize)
      else if kept ≠ [] ∧ ¬ supply.allocates then (device, .returned .noMem)
      else
        let written := Flash.perform (part.rewrite kept data) supply.outcomes device.flash
        ({ device with
            flash := written.1
            cached := none
            enrollmentRequired := device.enrollmentRequired || message.hasEnrollment },
          endingOf written.2)

def isWifiOnly (data : List UInt8) : Bool :=
  match rootFields data with
  | some [field] => field.number = wifiTag ∧ field.wireType = 2
  | _ => false

def Device.wendyConfWrite (supply : Supply) (data : List UInt8)
    (mode : Mode) : Device × Ending :=
  if data = [] then (device, .returned .invalidArg)
  else if mode = .wifiOnly then
    if ¬ isWifiOnly data then (device, .returned .invalidArg)
    else if device.enrollmentRequired ∧ device.cached = none then
      (device, .returned .invalidState)
    else device.writeConf schema part supply data .update
  else device.writeConf schema part supply data mode

end Store

/-! ## What a completed write leaves -/

section Written

variable {schema : Schema} {part : Partition}

@[simp] lemma length_header (finalSize : Nat) : (header finalSize).length = headerLen := by
  simp [header, magic, headerLen]

lemma le_eraseLength (part : Partition) (finalSize : Nat) :
    headerLen + finalSize ≤ part.eraseLength finalSize := by
  have positive := part.eraseSize_pos
  have split_ := Nat.div_add_mod (headerLen + finalSize + part.eraseSize - 1) part.eraseSize
  have small := Nat.mod_lt (headerLen + finalSize + part.eraseSize - 1) positive
  rw [Nat.mul_comm] at split_
  unfold Partition.eraseLength
  omega

/-- All operations of a write, done one after another, fill the erased blocks. -/
lemma filled_rewrite (part : Partition) (kept data : List UInt8) (flash : Flash) :
    ((part.rewrite kept data).foldl (fun flash operation => operation.apply flash) flash).Filled
      (header (kept.length + data.length) ++ kept ++ data)
      (part.eraseLength (kept.length + data.length)) := by
  have room := le_eraseLength part (kept.length + data.length)
  have empty := Flash.filled_erase flash (part.eraseLength (kept.length + data.length))
  have headed := empty.program (header (kept.length + data.length)) (by simp; omega)
  have keptThere := headed.programUnlessEmpty kept (by simp; omega)
  have complete := keptThere.programUnlessEmpty data (by simp; omega)
  simp only [nil_append, length_nil, length_append, length_header] at complete
  rw [Partition.rewrite, foldl_append, foldl_append]
  exact complete

lemma storedData_of_filled (filled : flash.Filled (header message.length ++ message) limit)
    (fits : headerLen + message.length ≤ part.size) : storedData part flash = some message := by
  have bound := part.size_lt
  have read := filled.read
  have total : (header message.length ++ message).length = headerLen + message.length := by
    rw [length_append, length_header]
  have slice : ∀ {first middle : Nat}, first + middle ≤ headerLen + message.length →
      flash.read first middle = ((header message.length ++ message).drop first).take middle := by
    intro first middle inside
    have found := Flash.read_slice read first middle (by rw [total]; exact inside)
    rwa [Nat.zero_add] at found
  have first : flash.read 0 magic.length = magic := by
    rw [slice (by simp [magic, headerLen]; omega), drop_zero, header, append_assoc]
    exact take_left
  have size : flash.word 4 4 = message.length := by
    rw [Flash.word, slice (by simp [headerLen]), header, append_assoc,
      drop_left' (by simp [magic]), take_left' (by simp), reverse_reverse,
      beNat_beBytes]
    exact Nat.mod_eq_of_lt (by omega)
  rw [storedData, if_neg (by rw [first]; simp)]
  dsimp only
  rw [size, if_neg (by omega), slice (by omega), drop_left' (length_header _),
    take_length]

lemma writeConf_ok {device : Device} {supply : Supply} {data : List UInt8} {mode : Mode}
    (returned : (device.writeConf schema part supply data mode).2 = .returned .ok) :
    ∃ kept, device.keptFields data mode = some kept ∧ rootFields data ≠ none ∧
      (device.writeConf schema part supply data mode).1.cached = none ∧
      storedData part (device.writeConf schema part supply data mode).1.flash =
        some (kept ++ data) := by
  unfold Device.writeConf at returned ⊢
  cases checked : schema.checkConf data with
  | error status =>
    rw [checked] at returned
    simp only [Ending.returned.injEq] at returned
    subst returned
    unfold Schema.checkConf at checked
    repeat' split at checked
    all_goals simp_all
  | ok message =>
    have walked : rootFields data ≠ none := by
      intro failed
      simp [Schema.checkConf, scanRootFields_eq_none failed] at checked
    rw [checked] at returned
    cases merged : device.keptFields data mode with
    | none => simp [merged] at returned
    | some kept =>
      simp only [merged] at returned ⊢
      split at returned
      · simp at returned
      rename_i fits
      split at returned
      · simp at returned
      rename_i allocated
      refine ⟨kept, rfl, walked, ?_⟩
      rw [if_neg fits, if_neg allocated]
      have done : (Flash.perform (part.rewrite kept data) supply.outcomes device.flash).2 =
          .done := by
        cases ended : (Flash.perform (part.rewrite kept data) supply.outcomes device.flash).2 with
        | done => rfl
        | failed | interrupted => simp [ended, endingOf] at returned
      refine ⟨rfl, ?_⟩
      have filled := filled_rewrite part kept data device.flash
      rw [← Flash.perform_done done, append_assoc, ← length_append] at filled
      exact storedData_of_filled filled (by rw [length_append]; omega)

end Written

end WendyLite.Conf
