import Mathlib.Data.List.Basic

/-! # Clock observations

`wendy_pki_clock_observation.c`: one writer stores the words of a publication between two
increments of a sequence number, and readers take the words without waiting. A step is one
atomic access.
-/

namespace WendyLite.Pki.Observation

open Function

abbrev Words := Nat → UInt32

def wordCount : Nat := 17

def put64 (offset : Nat) (value : UInt64) : List (Nat × UInt32) :=
  [(offset, value.toUInt32), (offset + 1, (value >>> 32).toUInt32)]

structure CertificateTime where
  seconds : Int64
  floor : Int64
  monotonicUs : Int64
  uncertain : Bool
  followCertainty : Bool

inductive Publication where
  | clock (generation : UInt64) (time : CertificateTime)
  | proof (generation : UInt64) (seconds mono : Int64)
  | reset

/-- The stores between the increments, in order, but for `proof_ever`: `snapshot` does not
read it. -/
def Publication.stores : Publication → List (Nat × UInt32)
  | .clock generation time =>
    (0, if 0 < time.seconds ∧ 0 ≤ time.monotonicUs then 1 else 0) ::
      put64 1 time.seconds.toUInt64 ++ put64 3 time.floor.toUInt64 ++
      put64 5 time.monotonicUs.toUInt64 ++ [(7, if time.uncertain then 1 else 0),
      (8, if time.followCertainty then 1 else 0)] ++ put64 9 generation
  | .proof generation seconds mono =>
    put64 11 seconds.toUInt64 ++ put64 13 mono.toUInt64 ++ put64 15 generation
  | .reset => (List.range wordCount).map (·, 0)

def get64 (words : List UInt32) (offset : Nat) : UInt64 :=
  (words.getD offset 0).toUInt64 ||| (words.getD (offset + 1) 0).toUInt64 <<< 32

/-- The `observation` of a snapshot that is `available`. -/
structure Snapshot where
  clockPresent : Bool
  clock : CertificateTime
  generation : UInt64
  proofSeconds : Int64
  proofMono : Int64
  proofGeneration : UInt64

def observation (words : List UInt32) : Snapshot where
  clockPresent := words.getD 0 0 ≠ 0
  clock :=
    { seconds := (get64 words 1).toInt64
      floor := (get64 words 3).toInt64
      monotonicUs := (get64 words 5).toInt64
      uncertain := words.getD 7 0 ≠ 0
      followCertainty := words.getD 8 0 ≠ 0 }
  generation := get64 words 9
  proofSeconds := (get64 words 11).toInt64
  proofMono := (get64 words 13).toInt64
  proofGeneration := get64 words 15

/-- An attempt of `snapshot` that found an even number. `since` is a ghost: the complete
publications at that time. -/
structure Attempt where
  first : UInt32
  since : Nat
  words : List UInt32 := []

/-- `log` has the snapshots that were available, the last one first, each with the `since`
of its attempt. -/
structure Reader where
  attempts : Nat := 0
  attempt : Option Attempt := none
  log : List (Nat × Snapshot) := []

/-- `history k` is a ghost: the payload after `k` complete publications. -/
structure Clock where
  sequence : UInt32 := 0
  payload : Words := fun _ => 0
  pending : Option (List (Nat × UInt32)) := none
  count : Nat := 0
  history : Nat → Words := fun _ _ => 0
  reader : Nat → Reader := fun _ => {}

inductive Event where
  | begin (publication : Publication)
  | store
  | finish
  /-- The next access of a reader. -/
  | load (reader : Nat)

/-- `continue`: the third attempt is the last one of a call. -/
def Reader.retry (r : Reader) : Reader :=
  { r with attempts := if r.attempts = 2 then 0 else r.attempts + 1, attempt := none }

namespace Clock

variable (s : Clock)

def snapshot (r : Reader) : Reader :=
  match r.attempt with
  | none => if s.sequence % 2 = 1 then r.retry
      else { r with attempt := some { first := s.sequence, since := s.count } }
  | some a =>
    if a.words.length < wordCount then
      { r with attempt := some { a with words := a.words ++ [s.payload a.words.length] } }
    else if a.first ≠ s.sequence then r.retry
    else { log := (a.since, observation a.words) :: r.log }

def step : Event → Clock
  | .begin publication => match s.pending with
    | none => { s with sequence := s.sequence + 1, pending := some publication.stores }
    | some _ => s
  | .store => match s.pending with
    | some ((i, word) :: rest) =>
      { s with payload := update s.payload i word, pending := some rest }
    | _ => s
  | .finish => match s.pending with
    | some [] =>
      { s with
        sequence := s.sequence + 1
        pending := none
        count := s.count + 1
        history := update s.history (s.count + 1) s.payload }
    | _ => s
  | .load r => { s with reader := update s.reader r (s.snapshot (s.reader r)) }

def run (events : List Event) : Clock := events.foldl step s

/-- Fewer than `2 ^ 31` publications were completed during the attempt of the reader. -/
def brisk : Event → Bool
  | .load r => (s.reader r).attempt.all fun a => s.count - a.since < 0x80000000
  | _ => true

def briskRun : Clock → List Event → Bool
  | _, [] => true
  | s, e :: rest => s.brisk e && briskRun (s.step e) rest

def ticks : Nat := 2 * s.count + if s.pending = none then 0 else 1

end Clock

def shown (payload : Words) : Snapshot := observation ((List.range wordCount).map payload)

structure Reader.Sound (r : Reader) (ticks : Nat) (history : Nat → Words) : Prop where
  rising : (r.log.map Prod.fst).Pairwise (· ≥ ·)
  whole : ∀ entry ∈ r.log, 2 * entry.1 ≤ ticks ∧ entry.2 = shown (history entry.1)
  attempt : ∀ a, r.attempt = some a → a.first = UInt32.ofNat (2 * a.since) ∧
    2 * a.since ≤ ticks ∧ (∀ entry ∈ r.log, entry.1 ≤ a.since) ∧ a.words.length ≤ wordCount ∧
    (ticks = 2 * a.since → a.words = (List.range a.words.length).map (history a.since))

structure Clock.Sound (s : Clock) : Prop where
  sequence : s.sequence = UInt32.ofNat s.ticks
  settled : s.pending = none → s.payload = s.history s.count
  readers : ∀ r, (s.reader r).Sound s.ticks s.history

namespace Reader.Sound

variable {r : Reader} {ticks : Nat} {history history' : Nat → Words}

/-- The writer goes on. What it completed stays as it was. -/
lemma later (sound : r.Sound ticks history)
    (same : ∀ k, 2 * k ≤ ticks → history' k = history k) : r.Sound (ticks + 1) history' := by
  refine ⟨sound.rising, fun entry mem => ?_, fun a isAttempt => ?_⟩
  · obtain ⟨old, equal⟩ := sound.whole entry mem
    rw [same _ old]
    exact ⟨by omega, equal⟩
  obtain ⟨first, old, before, short, -⟩ := sound.attempt a isAttempt
  exact ⟨first, by omega, before, short, by omega⟩

lemma retry (sound : r.Sound ticks history) : r.retry.Sound ticks history :=
  ⟨sound.rising, sound.whole, nofun⟩

end Reader.Sound

namespace Clock

variable {s : Clock}

lemma ofNat_ticks (equal : UInt32.ofNat n = UInt32.ofNat m) (le : n ≤ m)
    (less : m - n < 0x100000000) : m = n := by
  have := congrArg UInt32.toNat equal
  simp only [UInt32.toNat_ofNat'] at this
  omega

lemma ticks_even (even : s.ticks = 2 * k) : s.pending = none ∧ s.count = k := by
  unfold ticks at even
  split at even
  · exact ⟨‹_›, by omega⟩
  omega

lemma Sound.idle (sound : s.Sound) (even : ¬ s.sequence % 2 = 1) : s.ticks = 2 * s.count := by
  unfold ticks
  split
  · rfl
  rename_i busy
  refine absurd ?_ even
  rw [sound.sequence, ← UInt32.toNat_inj]
  simp [ticks, busy]

lemma Sound.snapshot (sound : s.Sound) (brisk : s.brisk (.load r) = true) :
    (s.snapshot (s.reader r)).Sound s.ticks s.history := by
  have reader := sound.readers r
  unfold Clock.snapshot
  split
  · split
    · exact reader.retry
    rename_i even
    have idle := sound.idle even
    refine ⟨reader.rising, reader.whole, fun a isAttempt => ?_⟩
    cases isAttempt
    refine ⟨idle ▸ sound.sequence, Nat.le_of_eq idle.symm, fun entry mem => ?_, Nat.zero_le _,
      fun _ => rfl⟩
    have := (reader.whole entry mem).1
    show entry.1 ≤ s.count
    omega
  rename_i a isAttempt
  obtain ⟨first, old, before, short, words⟩ := reader.attempt a isAttempt
  split
  · rename_i more
    refine ⟨reader.rising, reader.whole, fun b isNext => ?_⟩
    cases isNext
    refine ⟨first, old, before, by simpa using Nat.succ_le_of_lt more, fun still => ?_⟩
    obtain ⟨idle, count⟩ := ticks_even still
    simp [List.range_succ, ← words still, sound.settled idle, count]
  split
  · exact reader.retry
  rename_i all same
  simp only [Clock.brisk, isAttempt, Option.all_some, decide_eq_true_eq] at brisk
  rw [not_not, first, sound.sequence] at same
  have still := ofNat_ticks same old (by unfold ticks; split <;> omega)
  have full : a.words.length = wordCount := by omega
  have seen := words still
  rw [full] at seen
  refine ⟨?_, ?_, nofun⟩
  · simpa using ⟨fun k seen => before (k, seen), reader.rising⟩
  rintro entry (_ | ⟨_, mem⟩)
  · exact ⟨old, congrArg observation seen⟩
  exact reader.whole entry mem

lemma Sound.next (sound : s.Sound) : s.sequence + 1 = UInt32.ofNat (s.ticks + 1) := by
  rw [sound.sequence]
  exact (UInt32.ofNat_add ..).symm

lemma Sound.step (sound : s.Sound) (brisk : s.brisk e = true) :
    (s.step e).Sound := by
  cases e with
  | begin publication =>
    simp only [Clock.step]
    split
    · rename_i idle
      have next : ∀ q p, ticks { s with sequence := q, pending := some p } = s.ticks + 1 := by
        simp [ticks, idle]
      refine ⟨?_, nofun, fun r => ?_⟩ <;> rw [next]
      · exact sound.next
      exact (sound.readers r).later fun _ _ => rfl
    exact sound
  | store =>
    simp only [Clock.step]
    split
    · rename_i busy
      have same : ∀ p w, ticks { s with payload := w, pending := some p } = s.ticks := by
        simp [ticks, busy]
      refine ⟨?_, nofun, fun r => ?_⟩ <;> rw [same]
      exacts [sound.sequence, sound.readers r]
    exact sound
  | finish =>
    simp only [Clock.step]
    split
    · rename_i busy
      have next : (s.step .finish).ticks = s.ticks + 1 := by
        simp [ticks, Clock.step, busy, Nat.mul_add]
      simp only [Clock.step, busy] at next
      refine ⟨?_, fun _ => ?_, fun r => ?_⟩
      · rw [next]
        exact sound.next
      · simp
      have old : ∀ k, 2 * k ≤ s.ticks →
          update s.history (s.count + 1) s.payload k = s.history k := by
        intro k le
        simp only [ticks, busy] at le
        exact update_of_ne (by grind) ..
      rw [next]
      exact (sound.readers r).later old
    exact sound
  | load r =>
    refine ⟨sound.sequence, sound.settled, fun k => ?_⟩
    simp only [Clock.step, update_apply]
    split
    · exact sound.snapshot brisk
    exact sound.readers k

lemma Sound.run (sound : s.Sound) (brisk : s.briskRun events = true) :
    (s.run events).Sound := by
  induction events generalizing s with
  | nil => exact sound
  | cons e rest ih =>
    simp only [briskRun, Bool.and_eq_true] at brisk
    exact ih (sound.step brisk.1) brisk.2

def observed : List Event :=
  .begin (.proof 1 2 3) :: .load 0 :: List.replicate 6 .store ++
    .finish :: List.replicate 19 (.load 0)

end Clock

end WendyLite.Pki.Observation
