import Mathlib.Data.List.Basic
import Mathlib.Tactic.Linarith

/-! # The verified time of a device

`wendy_pki.c`, from `clock_floor` to `wendy_pki_net_time_reply`. The floor in flash is
read once a boot and written once at most; a high-water mark in memory goes on from there.
All of it runs under `identity_lock`, so a call is one step.
-/

namespace WendyLite.Pki.Time

open List

/-- What the calls to flash and to the system answer. A write that fails may have reached
the flash all the same. -/
structure Answer where
  reads : Bool
  writes : Bool
  landed : Bool
  setsTime : Bool

/-- `boot_floor`. -/
structure BootFloor where
  loaded : Bool := false
  attempted : Bool := false
  failed : Bool := false
  highWater : Int := 0

/-- A device as far as its clock goes. `wall` counts microseconds. The last four fields
record what happened: the times taken in this boot, newest first, the first of them past
the floor, the same for the boots before, and the writes of the floor in this boot. -/
structure Clock where
  durable : Option Int
  boot : BootFloor := {}
  wall : Int
  verified : Int := 0
  accepted : List Int := []
  advance : Option Int := none
  advances : List Int := []
  attempts : Nat := 0

def microseconds : Int := 1000000

variable (c : Clock)

/-- `time(NULL)`. -/
def Clock.seconds : Int := c.wall / microseconds

variable (answer : Answer)

namespace Clock

def clockFloor : Option Int × Clock :=
  if c.boot.failed then (none, c)
  else if c.boot.loaded then (some c.boot.highWater, c)
  else if answer.reads = false then (none, c)
  else
    let floor := c.durable.getD 0
    (some floor, { c with boot := { c.boot with highWater := floor, loaded := true } })

/-- The end of `set_floor`: the time is the new mark, and the clock is set. -/
def accept (floor value : Int) : Bool × Clock :=
  (answer.setsTime,
    { c with
      boot := { c.boot with highWater := value }
      wall := if answer.setsTime then max value c.seconds * microseconds else c.wall
      accepted := value :: c.accepted
      advance := c.advance.or (if floor < value then some value else none) })

def setFloor (value : Int) : Bool × Clock :=
  match c.clockFloor answer with
  | (none, c) => (false, c)
  | (some floor, c) =>
    if value < floor then (false, c)
    else if floor < value ∧ c.boot.attempted = false then
      let c := { c with boot := { c.boot with attempted := true }, attempts := c.attempts + 1 }
      if answer.writes then { c with durable := some value }.accept answer floor value
      else
        (false, { c with
          durable := if answer.landed then some value else c.durable
          boot := { c.boot with failed := true } })
    else c.accept answer floor value

/-- `seed_clock`. `seed` verifies the signed time of the configuration, if there is one
whose nonce is in flash; `erases` is whether the nonce could be erased. -/
def seedClock (seed : Option (Int → Option Int))
    (erases : Bool) : Bool × Clock :=
  match c.clockFloor answer with
  | (none, c) => (false, c)
  | (some floor, c) =>
    match seed.bind (· floor) with
    | none => if floor ≤ 0 then (false, c) else c.setFloor answer floor
    | some time =>
      match c.setFloor answer time with
      | (false, c) => (false, c)
      | (true, c) =>
        if erases = false ∨ time ≤ 0 then (false, c) else c.setFloor answer time

/-- The common part of `refresh_time_source`, direct or through a peer, and of
`wendy_pki_net_time_reply`. `admitted` stands for the checks before the floor is read,
`current` for those after the reply is verified. -/
def timeReply (admitted : Bool) (reply : Int → Option Int)
    (current : Int → Bool) : Bool × Clock :=
  if admitted = false then (false, c)
  else
    match c.clockFloor answer with
    | (none, c) => (false, c)
    | (some floor, c) =>
      match reply floor with
      | none => (false, c)
      | some time =>
        if current time = false then (false, c)
        else
          match c.setFloor answer time with
          | (false, c) => (false, c)
          | (true, c) => (true, { c with verified := time })

/-- `refresh_time_source`: the reply came within thirty seconds and the configuration is
still the one it was asked for. -/
def refreshTimeSource (exchanged timely current : Bool)
    (reply : Int → Option Int) : Bool × Clock :=
  c.timeReply answer (exchanged && timely && current) reply fun _ => true

/-- `wendy_pki_net_time_reply`: the certificate has to outlive the time by thirty seconds. -/
def netTimeReply (allowed current timely : Bool)
    (expires : Int) (reply : Int → Option Int) : Bool × Clock :=
  c.timeReply answer allowed reply fun time => decide (time + 30 < expires) && current && timely

end Clock

inductive Event where
  /-- The memory is lost, and the clock shows anything. -/
  | boot (wall : Int)
  | elapse (microseconds : Nat)
  /-- `mesh_certificate_prepare` reads the floor. -/
  | prepare (answer : Answer)
  | seed (answer : Answer) (seed : Option (Int → Option Int)) (erases : Bool)
  | refresh (answer : Answer) (exchanged timely current : Bool) (reply : Int → Option Int)
  | netReply (answer : Answer) (allowed current timely : Bool) (expires : Int)
      (reply : Int → Option Int)

def Event.isBoot : Event → Bool
  | .boot _ => true
  | _ => false

def Clock.step : Event → Clock
  | .boot wall =>
    { durable := c.durable, wall := wall, advances := c.advance.toList ++ c.advances }
  | .elapse passed => { c with wall := c.wall + passed }
  | .prepare answer => (c.clockFloor answer).2
  | .seed answer seed erases => (c.seedClock answer seed erases).2
  | .refresh answer exchanged timely current reply =>
    (c.refreshTimeSource answer exchanged timely current reply).2
  | .netReply answer allowed current timely expires reply =>
    (c.netTimeReply answer allowed current timely expires reply).2

def Clock.run (events : List Event) : Clock := events.foldl Clock.step c

/-! ## What holds all the time -/

/-- What holds at every point of `set_floor`. -/
structure Marked (c : Clock) : Prop where
  unloaded : c.boot.loaded = false →
    c.accepted = [] ∧ c.boot.attempted = false ∧ c.boot.failed = false
  unattempted : c.boot.attempted = false →
    c.advance = none ∧ (c.boot.loaded = true → c.boot.highWater = c.durable.getD 0)
  below : ∀ time ∈ c.accepted, time ≤ c.boot.highWater
  ordered : c.accepted.Pairwise (· ≥ ·)
  kept : ∀ time ∈ c.advance.toList ++ c.advances, time ≤ c.durable.getD 0
  above : ∀ time ∈ c.accepted, ∀ earlier ∈ c.advances, earlier ≤ time
  once : c.attempts = if c.boot.attempted then 1 else 0

/-- The invariant. The one write of a boot is that of a time that was taken. After a failed
write the floor in flash may be past the mark, which is not used any more. -/
structure Steady (c : Clock) : Prop extends Marked c where
  floor : c.boot.loaded = true → c.boot.failed = false → c.durable.getD 0 ≤ c.boot.highWater
  written : c.boot.attempted = true → c.boot.failed = false → c.advance ≠ none

/-- What may happen within a boot: the clock is not set to an earlier second. -/
structure Onward (c c' : Clock) : Prop where
  durable : ∀ floor, c.durable = some floor → ∃ floor' ≥ floor, c'.durable = some floor'
  failed : c.boot.failed = true → c'.accepted = c.accepted ∧ c'.boot.failed = true
  wall : ∃ new, c'.accepted = new ++ c.accepted ∧
    (c.wall % microseconds = 0 ∨ (∀ time ∈ new, c.seconds < time) → c.wall ≤ c'.wall)

/-- What a call may change. A clock that is set shows a whole second. -/
structure Later (c c' : Clock) : Prop extends Onward c c' where
  set : c'.wall = c.wall ∨ c'.wall % microseconds = 0

lemma Later.refl : Later c c where
  durable floor found := ⟨floor, le_rfl, found⟩
  failed failed := ⟨rfl, failed⟩
  set := .inl rfl
  wall := ⟨[], rfl, fun _ => le_rfl⟩

lemma Later.trans {c c' c'' : Clock} (first : Later c c') (second : Later c' c'') :
    Later c c'' where
  durable floor found := by
    obtain ⟨floor', le, found'⟩ := first.durable floor found
    obtain ⟨floor'', le', found''⟩ := second.durable floor' found'
    exact ⟨floor'', le.trans le', found''⟩
  failed failed := by
    obtain ⟨same, failed'⟩ := first.failed failed
    obtain ⟨same', failed''⟩ := second.failed failed'
    exact ⟨same'.trans same, failed''⟩
  set := by
    obtain same | whole := second.set
    · rw [same]
      exact first.set
    exact .inr whole
  wall := by
    obtain ⟨new, accepted, wall⟩ := first.wall
    obtain ⟨new', accepted', wall'⟩ := second.wall
    refine ⟨new' ++ new, by rw [accepted', accepted, append_assoc], fun ahead => ?_⟩
    have ahead₁ : c.wall % microseconds = 0 ∨ ∀ time ∈ new, c.seconds < time :=
      ahead.imp_right fun all time mem => all time (mem_append_right _ mem)
    refine (wall ahead₁).trans (wall' ?_)
    obtain same | whole := first.set
    · rw [Clock.seconds, same]
      exact ahead.imp_right fun all time mem => all time (mem_append_left _ mem)
    exact .inl whole

variable {c : Clock} {answer : Answer}

lemma Clock.clockFloor_cases (c : Clock) (answer : Answer) : c.clockFloor answer = (none, c) ∨
      (c.boot.failed = false ∧ c.boot.loaded = true ∧
        c.clockFloor answer = (some c.boot.highWater, c)) ∨
      (c.boot.failed = false ∧ c.boot.loaded = false ∧
        c.clockFloor answer = (some (c.durable.getD 0), { c with
          boot := { c.boot with highWater := c.durable.getD 0, loaded := true } })) := by
  rw [Clock.clockFloor]
  cases c.boot.failed <;> cases c.boot.loaded <;> cases answer.reads <;> simp

lemma Clock.clockFloor_spec (steady : Steady c) (answer : Answer) :
    Steady (c.clockFloor answer).2 ∧ Later c (c.clockFloor answer).2 ∧
      ∀ floor, (c.clockFloor answer).1 = some floor →
        (c.clockFloor answer).2.boot.loaded = true ∧ (c.clockFloor answer).2.boot.failed = false ∧
          (c.clockFloor answer).2.boot.highWater = floor := by
  obtain same | ⟨works, loaded, same⟩ | ⟨works, unloaded, same⟩ := c.clockFloor_cases answer
  · rw [same]
    exact ⟨steady, .refl c, nofun⟩
  · rw [same]
    exact ⟨steady, .refl c, fun floor found => ⟨loaded, works, Option.some.inj found⟩⟩
  rw [same]
  obtain ⟨nothing, unattempted, _⟩ := steady.unloaded unloaded
  refine ⟨{ steady with
      unloaded := nofun
      unattempted := fun _ => ⟨(steady.unattempted unattempted).1, fun _ => rfl⟩
      floor := fun _ _ => le_rfl
      below := fun time mem => ?_ }, ⟨⟨?_, ?_, [], rfl, fun _ => le_rfl⟩, .inl rfl⟩,
    fun floor found => ⟨rfl, works, Option.some.inj found⟩⟩
  · rw [nothing] at mem
    cases mem
  · exact fun floor found => ⟨floor, le_rfl, found⟩
  exact fun failed => absurd failed (by simp [works])

/-- The clock is not set back, but for the microseconds of the second it shows. -/
lemma Clock.accept_later (c : Clock) (answer : Answer) (floor value : Int)
    (works : c.boot.failed = false) : Later c (c.accept answer floor value).2 where
  durable floor found := ⟨floor, le_rfl, found⟩
  failed failed := absurd failed (by simp [works])
  set := by
    rw [Clock.accept]
    cases answer.setsTime
    · exact .inl rfl
    exact .inr (Int.mul_emod_left ..)
  wall := by
    refine ⟨[value], rfl, fun ahead => ?_⟩
    rw [Clock.accept]
    cases answer.setsTime
    · exact le_rfl
    rw [forall_mem_singleton] at ahead
    simp only [Clock.seconds, microseconds] at *
    omega

lemma Marked.accept (marked : Marked c) (loaded : c.boot.loaded = true)
    (mark : c.boot.highWater ≤ value) (durable : c.durable.getD 0 ≤ value)
    (first : c.boot.attempted = false → c.durable.getD 0 = value ∧ value ≤ floor)
    (advanced : c.advance = none → floor < value → c.durable = some value) :
    Marked (c.accept answer floor value).2 where
  unloaded := fun unloaded => absurd (loaded.symm.trans unloaded) (by simp)
  unattempted := fun unattempted => by
    obtain ⟨equal, le⟩ := first unattempted
    refine ⟨?_, fun _ => equal.symm⟩
    show c.advance.or _ = none
    rw [(marked.unattempted unattempted).1, if_neg (not_lt.mpr le)]
    rfl
  below := fun time mem => by
    obtain rfl | old := mem_cons.mp mem
    · exact le_rfl
    exact (marked.below time old).trans mark
  ordered := pairwise_cons.mpr
    ⟨fun time old => (marked.below time old).trans mark, marked.ordered⟩
  kept := fun time mem => by
    obtain new | old := mem_append.mp mem
    · change time ∈ (c.advance.or _).toList at new
      cases before : c.advance with
      | some earlier =>
        refine marked.kept time (mem_append_left _ ?_)
        rwa [before] at new ⊢
      | none =>
        rw [before] at new
        by_cases past : floor < value
        · rw [if_pos past] at new
          show time ≤ c.durable.getD 0
          rw [advanced before past]
          exact (mem_singleton.mp new).le
        rw [if_neg past] at new
        cases new
    exact marked.kept time (mem_append_right _ old)
  above := fun time mem earlier inEarlier => by
    obtain rfl | old := mem_cons.mp mem
    · exact (marked.kept earlier (mem_append_right _ inEarlier)).trans durable
    exact marked.above time old earlier inEarlier
  once := marked.once

lemma Clock.accept_written (c : Clock) (advanced : c.advance ≠ none ∨ floor < value) :
    (c.accept answer floor value).2.advance ≠ none := by
  show c.advance.or _ ≠ none
  cases before : c.advance with
  | some earlier => exact Option.some_ne_none _
  | none =>
    rw [if_pos (advanced.resolve_left (not_not.mpr before))]
    exact Option.some_ne_none _

lemma Steady.attempt (steady : Steady c) (value : Int) (loaded : c.boot.loaded = true)
    (unattempted : c.boot.attempted = false) (past : c.durable.getD 0 ≤ value) (failed : Bool)
    (store : durable = c.durable ∨ durable = some value) : Marked { c with
      durable := durable
      boot := { c.boot with attempted := true, failed := failed }
      attempts := c.attempts + 1 } where
  unloaded := fun unloaded => absurd (loaded.symm.trans unloaded) (by simp)
  unattempted := nofun
  below := steady.below
  ordered := steady.ordered
  kept := fun time mem => by
    have old := steady.kept time mem
    obtain rfl | rfl := store
    · exact old
    exact old.trans past
  above := steady.above
  once := by
    have none_ := steady.once
    rw [unattempted] at none_
    rw [none_]
    rfl

/-- A time that is taken is not below the mark, and the first one past it is in flash. -/
lemma Clock.setFloor_spec (steady : Steady c) (answer : Answer) (value : Int) :
    Steady (c.setFloor answer value).2 ∧ Later c (c.setFloor answer value).2 := by
  obtain ⟨steady', later, found⟩ := c.clockFloor_spec steady answer
  rw [Clock.setFloor]
  rcases read : c.clockFloor answer with ⟨_ | floor, c'⟩
  · rw [read] at steady' later
    exact ⟨steady', later⟩
  rw [read] at steady' later found
  obtain ⟨loaded, works, mark⟩ := found floor rfl
  dsimp only at steady' later loaded works mark ⊢
  have durable := steady'.floor loaded works
  split
  · exact ⟨steady', later⟩
  rename_i reached
  rw [not_lt] at reached
  split
  next advancing =>
    obtain ⟨past, unattempted⟩ := advancing
    have grows : ∀ store, store = c'.durable ∨ store = some value →
        ∀ floor, c'.durable = some floor → ∃ floor' ≥ floor, store = some floor' := by
      rintro store (rfl | rfl) old found'
      · exact ⟨old, le_rfl, found'⟩
      rw [found', Option.getD_some] at durable
      exact ⟨value, by omega, rfl⟩
    split
    · have marked := steady'.attempt value loaded unattempted (by omega) c'.boot.failed (.inr rfl)
      refine ⟨{ marked.accept loaded (mark.trans_le reached) le_rfl
        (nofun) (fun _ _ => rfl) with
          floor := fun _ _ => le_rfl
          written := fun _ _ => Clock.accept_written _ (.inr past) },
        later.trans (Later.trans ?_ (Clock.accept_later _ answer floor value works))⟩
      exact ⟨⟨grows _ (.inr rfl), fun failed => absurd failed (by simp [works]),
        [], rfl, fun _ => le_rfl⟩, .inl rfl⟩
    have store : (if answer.landed then some value else c'.durable) = c'.durable ∨
        (if answer.landed then some value else c'.durable) = some value := by
      cases answer.landed <;> simp
    refine ⟨{ steady'.attempt value loaded unattempted (by omega) true store with
        floor := nofun
        written := nofun }, later.trans ?_⟩
    exact ⟨⟨grows _ store, fun failed => absurd failed (by simp [works]),
      [], rfl, fun _ => le_rfl⟩, .inl rfl⟩
  rename_i staying
  have equal : c'.boot.attempted = false → value = floor := fun unattempted => by
    by_contra different
    exact staying ⟨by omega, unattempted⟩
  have taken : floor < value → c'.advance ≠ none := fun past =>
    steady'.written (by_contra fun unattempted => past.ne' (equal (by simpa using unattempted)))
      works
  refine ⟨{ steady'.toMarked.accept loaded (mark.trans_le reached) (by omega) ?_ ?_ with
    floor := fun _ _ => ?_
    written := ?_ }, later.trans (c'.accept_later answer floor value works)⟩
  · intro unattempted
    have store := (steady'.unattempted unattempted).2 loaded
    have same := equal unattempted
    omega
  · exact fun none_ past => absurd none_ (taken past)
  · exact durable.trans (mark.trans_le reached)
  exact fun attempted _ => Clock.accept_written _ (.inl (steady'.written attempted works))

/-! ## The calls, and whole histories -/

def Keeps (c c' : Clock) : Prop := Steady c' ∧ Later c c'

lemma Keeps.trans {c c' c'' : Clock} (first : Keeps c c') (second : Keeps c' c'') : Keeps c c'' :=
  ⟨second.1, first.2.trans second.2⟩

lemma Clock.clockFloor_keeps (steady : Steady c) (answer : Answer) :
    Keeps c (c.clockFloor answer).2 :=
  ⟨(c.clockFloor_spec steady answer).1, (c.clockFloor_spec steady answer).2.1⟩

lemma Keeps.setFloor (keeps : Keeps c c') (answer : Answer) (value : Int) :
    Keeps c (c'.setFloor answer value).2 :=
  keeps.trans (c'.setFloor_spec keeps.1 answer value)

lemma Clock.seedClock_keeps (steady : Steady c) (answer : Answer)
    (seed : Option (Int → Option Int)) (erases : Bool) :
    Keeps c (c.seedClock answer seed erases).2 := by
  have read := c.clockFloor_keeps steady answer
  rw [Clock.seedClock]
  generalize c.clockFloor answer = result at read ⊢
  obtain ⟨_ | floor, c'⟩ := result
  · exact read
  dsimp only at read ⊢
  split
  · split
    · exact read
    exact read.setFloor answer floor
  rename_i time _
  have taken := read.setFloor answer time
  generalize c'.setFloor answer time = result at taken ⊢
  obtain ⟨_ | _, c''⟩ := result
  · exact taken
  dsimp only at taken ⊢
  split
  · exact taken
  exact taken.setFloor answer time

lemma Clock.timeReply_keeps (steady : Steady c) (answer : Answer) (admitted : Bool)
    (reply : Int → Option Int) (current : Int → Bool) :
    Keeps c (c.timeReply answer admitted reply current).2 := by
  have read := c.clockFloor_keeps steady answer
  rw [Clock.timeReply]
  split
  · exact ⟨steady, .refl c⟩
  generalize c.clockFloor answer = result at read ⊢
  obtain ⟨_ | floor, c'⟩ := result
  · exact read
  dsimp only at read ⊢
  split
  · exact read
  rename_i time _
  split
  · exact read
  have taken := read.setFloor answer time
  generalize c'.setFloor answer time = result at taken ⊢
  obtain ⟨_ | _, c''⟩ := result
  · exact taken
  exact ⟨{ taken.1 with }, { taken.2 with }⟩

lemma steady_boot (wall : Int) (kept : ∀ time ∈ advances, time ≤ durable.getD 0) :
    Steady { durable := durable, wall := wall, advances := advances } where
  unloaded := fun _ => ⟨rfl, rfl, rfl⟩
  unattempted := fun _ => ⟨rfl, nofun⟩
  below := nofun
  ordered := List.Pairwise.nil
  kept := kept
  above := nofun
  once := rfl
  floor := nofun
  written := nofun

lemma Steady.step (steady : Steady c) (event : Event) :
    Steady (c.step event) ∧ (event.isBoot = false → Onward c (c.step event)) := by
  cases event with
  | boot wall => exact ⟨steady_boot wall steady.kept, nofun⟩
  | elapse passed =>
    refine ⟨{ steady with }, fun _ => { (Later.refl c).toOnward with wall := ?_ }⟩
    exact ⟨[], rfl, fun _ => Int.le_add_of_nonneg_right (Int.natCast_nonneg passed)⟩
  | prepare answer =>
    have keeps := c.clockFloor_keeps steady answer
    exact ⟨keeps.1, fun _ => keeps.2.toOnward⟩
  | seed answer seed erases =>
    have keeps := c.seedClock_keeps steady answer seed erases
    exact ⟨keeps.1, fun _ => keeps.2.toOnward⟩
  | refresh answer exchanged timely current reply =>
    have keeps := c.timeReply_keeps steady answer (exchanged && timely && current) reply
      fun _ => true
    exact ⟨keeps.1, fun _ => keeps.2.toOnward⟩
  | netReply answer allowed current timely expires reply =>
    have keeps := c.timeReply_keeps steady answer allowed reply
      fun time => decide (time + 30 < expires) && current && timely
    exact ⟨keeps.1, fun _ => keeps.2.toOnward⟩

lemma Steady.run (steady : Steady c) (events : List Event) : Steady (c.run events) := by
  induction events generalizing c with
  | nil => exact steady
  | cons event events ih => exact ih (steady.step event).1

def Clock.fresh (durable : Option Int) (wall : Int) : Clock := { durable, wall }

/-- An event that does not set the clock within the second it shows: the clock shows a
whole second, or every time that is taken is past the second it shows. -/
def Clock.Ahead (c : Clock) (event : Event) : Prop :=
  c.wall % microseconds = 0 ∨
    ∀ new, (c.step event).accepted = new ++ c.accepted → ∀ time ∈ new, c.seconds < time

def works : Answer := ⟨true, true, true, true⟩

def replyWith (time : Int) : Event := .refresh works true true true fun _ => some time

end WendyLite.Pki.Time
