import Mathlib.Data.List.Pairwise
import WendyLite.Pki.Publication

/-! # No revision is used twice

The reserved mark in the storage is at or above every revision a body was built with.
A boot raises the mark before it opens the range above the old one, so the revisions
of a boot are above those of all earlier boots; within a boot `next` only rises.
-/

namespace WendyLite.Pki

open List

variable {d : Device}

def mark (store : Store) : Nat := (readMark store).getD 0

/-- What the holder of the lock relies on. -/
def Holder.Holds (d : Device) : Holder → Prop
  | .reading => d.boot.attempted = true ∧ d.boot.ready = false
  | .writing reserved =>
    d.boot.attempted = true ∧ d.boot.ready = false ∧ readMark d.store = some reserved ∧
      roomAbove reserved = true
  | .committing reserved =>
    d.boot.attempted = true ∧ d.boot.ready = false ∧
      readMark d.store = some (nextMark reserved) ∧ roomAbove reserved = true ∧
      ∀ body ∈ d.built, body.revision ≤ reserved
  | .taking _ => True

/-- What holds between any two steps. -/
structure Orderly (d : Device) : Prop where
  rising : d.built.Pairwise fun earlier later => earlier.revision < later.revision
  covered : ∀ body ∈ d.built, 1 ≤ body.revision ∧ body.revision ≤ mark d.store
  handed : ∀ body ∈ d.handed, body ∈ d.built
  draft : ∀ draft, d.signing = some draft → draft.body ∈ d.built
  attempted : d.boot.ready = true → d.boot.attempted = true
  range : d.boot.ready = true → 1 ≤ d.boot.next ∧ d.boot.next ≤ d.boot.limit ∧
    d.boot.limit = mark d.store + 1 ∧ d.boot.limit < 2 ^ 64
  above : d.boot.ready = true → ∀ body ∈ d.built, body.revision < d.boot.next
  lock : ∀ holder, d.lock = some holder → holder.Holds d
  taking : ∀ call, d.publisher = .taking call → d.lock = some (.taking true)
  building : ∀ call revision, d.publisher = .building call revision → d.boot.ready = true ∧
    1 ≤ revision ∧ revision < d.boot.next ∧ ∀ body ∈ d.built, body.revision < revision
  spared : ∀ action ∈ d.actions, action.spares = true
  unwrapped : d.wrapped = false

def Device.fresh (platform : Platform) (store : Store) : Device := { platform, store }

lemma orderly_fresh (platform : Platform) (store : Store) : Orderly (.fresh platform store) := by
  constructor <;> simp [Device.fresh]

/-! ## The lock -/

section

variable (orderly : Orderly d)
include orderly

lemma Orderly.powerLoss : Orderly d.powerLoss := by
  refine ⟨orderly.rising, orderly.covered, orderly.handed, ?_, ?_, ?_, ?_, ?_, ?_, ?_, ?_,
    orderly.unwrapped⟩ <;> simp [Device.powerLoss]

lemma Orderly.not_taking (free : d.lock ≠ some (.taking true)) (call : Call) :
    d.publisher ≠ .taking call := fun at_ => free (orderly.taking call at_)

lemma Orderly.relock {lock : Option Holder}
    (holds : ∀ holder, lock = some holder → holder.Holds d)
    (free : d.lock ≠ some (.taking true)) : Orderly { d with lock } :=
  { orderly with
    lock := fun holder at_ => by
      have held := holds holder at_
      cases holder <;> exact held
    taking := fun call at_ => absurd at_ (orderly.not_taking free call) }

lemma Orderly.reserve : Orderly d.reserve := by
  unfold Device.reserve
  split
  next may =>
    have unready : d.boot.ready = false := by
      by_contra ready
      rw [Bool.not_eq_false] at ready
      simp [orderly.attempted ready] at may
    refine ⟨orderly.rising, orderly.covered, orderly.handed, orderly.draft, fun _ => rfl,
      orderly.range, orderly.above, ?_, ?_, orderly.building, orderly.spared, orderly.unwrapped⟩
    · rintro holder ⟨⟩
      exact ⟨rfl, unready⟩
    exact fun call at_ => absurd at_ (orderly.not_taking (by simp [may.1]) call)
  exact orderly

lemma Orderly.read (fails : Bool) : Orderly (d.read fails) := by
  unfold Device.read
  split
  next reading =>
    have held := orderly.lock _ reading
    have free : d.lock ≠ some (.taking true) := by simp [reading]
    split
    · exact orderly.relock (by simp) free
    rename_i reserved found
    have known : readMark d.store = some reserved := by
      cases fails with
      | true => simp at found
      | false => simpa using found
    refine orderly.relock (fun holder at_ => ?_) free
    split at at_
    next room =>
      obtain rfl := Option.some.inj at_
      exact ⟨held.1, held.2, known, room⟩
    simp at at_
  exact orderly

end

lemma mark_writeMark (room : roomAbove reserved = true) :
    mark (writeMark store reserved) = reserved + meshRevisionBootRange := by
  rw [mark, readMark_writeMark room, Option.getD_some, nextMark_eq room]

lemma Orderly.write (orderly : Orderly d) (succeeds landed : Bool) :
    Orderly (d.write succeeds landed) := by
  unfold Device.write
  split
  next reserved writing =>
    obtain ⟨attempted, unready, known, room⟩ := orderly.lock _ writing
    have small := room_lt room
    have noWrap : wraps64 reserved meshRevisionBootRange = false := wraps64_eq (by omega)
    have below : ∀ body ∈ d.built, 1 ≤ body.revision ∧ body.revision ≤ reserved := by
      intro body mem
      simpa [mark, known] using orderly.covered body mem
    refine ⟨orderly.rising, ?_, orderly.handed, orderly.draft, orderly.attempted, ?_, ?_, ?_, ?_, ?_,
      orderly.spared, ?_⟩
    · intro body mem
      refine ⟨(below body mem).1, ?_⟩
      have bound := (below body mem).2
      dsimp only
      split
      · rw [mark_writeMark room]
        omega
      exact (orderly.covered body mem).2
    · exact fun ready => absurd ready (by simp [unready])
    · exact fun ready => absurd ready (by simp [unready])
    · intro holder at_
      cases succeeds with
      | false => simp at at_
      | true =>
        obtain rfl : Holder.committing reserved = holder := by simpa using at_
        exact ⟨attempted, unready, readMark_writeMark room, room, fun body mem =>
          (below body mem).2⟩
    · exact fun call at_ => absurd at_ (orderly.not_taking (by simp [writing]) call)
    · intro call revision at_
      exact absurd (orderly.building call revision at_).1 (by simp [unready])
    simp [orderly.unwrapped, noWrap]
  exact orderly

lemma Orderly.commit (orderly : Orderly d) (succeeds : Bool) : Orderly (d.commit succeeds) := by
  unfold Device.commit
  split
  next reserved committing =>
    obtain ⟨attempted, unready, known, room, below⟩ := orderly.lock _ committing
    have free : d.lock ≠ some (.taking true) := by simp [committing]
    have small := room_lt room
    have first : add64 reserved 1 = reserved + 1 := add64_eq (by omega)
    have last : add64 (nextMark reserved) 1 = reserved + meshRevisionBootRange + 1 := by
      rw [nextMark_eq room]
      exact add64_eq small
    split
    · refine ⟨orderly.rising, orderly.covered, orderly.handed, orderly.draft, fun _ => attempted,
        fun _ => ?_, fun _ => ?_, by simp, ?_, ?_, orderly.spared, ?_⟩
      · have known' : mark d.store = reserved + meshRevisionBootRange := by
          rw [mark, known, Option.getD_some, nextMark_eq room]
        simp only [BootRevisions.open_, first, last, known']
        exact ⟨by omega, by omega, trivial, small⟩
      · intro body mem
        have bound := below body mem
        simp only [BootRevisions.open_, first]
        omega
      · exact fun call at_ => absurd at_ (orderly.not_taking free call)
      · intro call revision at_
        exact absurd (orderly.building call revision at_).1 (by simp [unready])
      have noWrap : wraps64 reserved 1 = false := wraps64_eq (by omega)
      simp [orderly.unwrapped, noWrap, nextMark_eq room, wraps64_eq small]
    exact orderly.relock (by simp) free
  exact orderly

/-- The end of `wendy_pki_mesh_revision_next`: the revision it gives, if any, is above
all that were used. -/
lemma Orderly.taken (orderly : Orderly d) (given : d.boot.take.1 = some revision) :
    d.boot.take.2 = { d.boot with next := revision + 1 } ∧ d.boot.ready = true ∧
      revision = d.boot.next ∧ revision < d.boot.limit ∧ revision + 1 < 2 ^ 64 := by
  unfold BootRevisions.take at given ⊢
  split at given
  next may =>
    obtain rfl := Option.some.inj given
    have bounds := orderly.range may.1
    have small : d.boot.next + 1 < 2 ^ 64 := by omega
    rw [if_pos may, add64_eq small]
    exact ⟨rfl, may.1, rfl, may.2, small⟩
  simp at given

lemma take_none (refused : d.boot.take.1 = none) : d.boot.take.2 = d.boot := by
  unfold BootRevisions.take at refused ⊢
  split at refused
  · simp at refused
  next may => rw [if_neg may]

section

variable (orderly : Orderly d)
include orderly

namespace Orderly

lemma take (taking : ∀ call, publisher ≠ .taking call)
    (building : ∀ call revision, publisher = .building call revision →
      d.boot.take.1 = some revision ∨ d.publisher = .building call revision) :
    Orderly { d.take with publisher } := by
  cases given : d.boot.take.1 with
  | none =>
    have same := take_none given
    have taken : d.take = { d with lock := none } := by simp [Device.take, same, given]
    rw [taken]
    refine ⟨orderly.rising, orderly.covered, orderly.handed, orderly.draft, orderly.attempted,
      orderly.range, orderly.above, by simp, fun call at_ => absurd at_ (taking call), ?_,
      orderly.spared, orderly.unwrapped⟩
    intro call revision at_
    refine orderly.building call revision ((building call revision at_).resolve_left ?_)
    simp [given]
  | some revision =>
    obtain ⟨boot, ready, rfl, below, small⟩ := orderly.taken given
    have bounds := orderly.range ready
    have taken : d.take = { d with boot := { d.boot with next := d.boot.next + 1 }, lock := none } := by
      simp [Device.take, boot, given, wraps64_eq small]
    rw [taken]
    refine ⟨orderly.rising, orderly.covered, orderly.handed, orderly.draft, orderly.attempted,
      fun _ => ?_, fun _ body mem => ?_, by simp, fun call at_ => absurd at_ (taking call), ?_,
      orderly.spared, orderly.unwrapped⟩
    · dsimp only
      omega
    · have earlier := orderly.above ready body mem
      dsimp only
      omega
    intro call revision at_
    obtain equal | earlier := building call revision at_
    · obtain rfl : d.boot.next = revision := Option.some.inj (given.symm.trans equal)
      exact ⟨ready, bounds.1, Nat.lt_succ_self _, orderly.above ready⟩
    obtain ⟨_, positive, lower, above⟩ := orderly.building call revision earlier
    exact ⟨ready, positive, Nat.lt_succ_of_lt lower, above⟩

/-! ## Publication -/

/-- The actor goes to another point of `publish`, outside the lock. -/
lemma move {publisher : Publisher} {signing : Option Draft}
    {handed : List Body} (draft : ∀ draft, signing = some draft → draft.body ∈ d.built)
    (bodies : ∀ body ∈ handed, body ∈ d.built) (taking : ∀ call, publisher ≠ .taking call)
    (building : ∀ call revision, publisher ≠ .building call revision) :
    Orderly { d with publisher, signing, handed } :=
  { orderly with
    handed := bodies
    draft := draft
    lock := fun holder at_ => by
      have held := orderly.lock holder at_
      cases holder <;> exact held
    taking := fun call at_ => absurd at_ (taking call)
    building := fun call revision at_ => absurd at_ (building call revision) }

lemma publish (call : Call) : Orderly (d.publish call) := by
  have move : ∀ publisher, (∀ call, publisher ≠ .taking call) →
      (∀ call revision, publisher ≠ .building call revision) → Orderly { d with publisher } :=
    fun _ => orderly.move orderly.draft orderly.handed
  unfold Device.publish
  split
  · split
    · split
      · exact orderly
      exact move _ (by simp) (by simp)
    split
    · exact orderly
    split
    · exact move _ (by simp) (by simp)
    split
    · exact move _ (by simp) (by simp)
    exact orderly
  exact orderly

lemma build {call : Call} {revision : Nat}
    (at_ : d.publisher = .building call revision) : Orderly (d.build call revision) := by
  obtain ⟨ready, positive, below, above⟩ := orderly.building call revision at_
  have bounds := orderly.range ready
  unfold Device.build
  split
  · exact orderly.move orderly.draft orderly.handed (by simp) (by simp)
  rename_i contents _
  have known : call.body revision contents ∈ d.built ++ [call.body revision contents] := by simp
  -- The new body alone; what is done with it differs between the platforms.
  have built : Orderly { d with
      built := d.built ++ [call.body revision contents], publisher := .idle } := by
    refine ⟨?_, ?_, ?_, ?_, orderly.attempted, orderly.range, ?_, ?_, by simp, by simp,
      orderly.spared, orderly.unwrapped⟩
    · refine pairwise_append.mpr ⟨orderly.rising, pairwise_singleton _ _, ?_⟩
      intro body mem last new
      rw [mem_singleton.mp new]
      exact above body mem
    · refine forall_mem_append.mpr ⟨orderly.covered, forall_mem_singleton.mpr ?_⟩
      have low : revision ≤ mark d.store := by omega
      exact ⟨positive, low⟩
    · exact fun body mem => mem_append_left _ (orderly.handed body mem)
    · exact fun draft is => mem_append_left _ (orderly.draft draft is)
    · intro _ body mem
      obtain earlier | new := mem_append.mp mem
      · exact orderly.above ready body earlier
      rw [mem_singleton.mp new]
      exact below
    intro holder held
    have holds := orderly.lock holder held
    cases holder with
    | reading | writing => exact holds
    | committing reserved => exact absurd holds.2.1 (by simp [ready])
    | taking publishes => trivial
  dsimp only
  split
  · refine built.move ?_ built.handed (by simp) (by simp)
    rintro draft ⟨⟩
    exact known
  refine built.move built.draft ?_ (by simp) (by simp)
  intro body mem
  split at mem
  · obtain earlier | new := mem_append.mp mem
    · exact built.handed body earlier
    rw [mem_singleton.mp new]
    exact known
  exact built.handed body mem

lemma sign (call : Call) : Orderly (d.sign call) := by
  unfold Device.sign
  split
  · exact orderly.move orderly.draft orderly.handed (by simp) (by simp)
  rename_i draft is
  split
  · refine orderly.move orderly.draft ?_ (by intro other; split <;> simp)
      (by intro other revision; split <;> simp)
    refine forall_mem_append.mpr ⟨orderly.handed, forall_mem_singleton.mpr ?_⟩
    exact orderly.draft draft is
  exact orderly.move orderly.draft orderly.handed (by simp) (by simp)

lemma finish (call : Call) : Orderly (d.finish call) := by
  unfold Device.finish
  split
  · exact orderly.move orderly.draft orderly.handed (by simp) (by simp)
  split
  · exact orderly.move (by simp) orderly.handed (by simp) (by simp)
  split
  · exact orderly.move (by simp) orderly.handed (by simp) (by simp)
  exact orderly.move orderly.draft orderly.handed (by simp) (by simp)

lemma advance : Orderly d.advance := by
  unfold Device.advance
  split
  · exact orderly
  next call at_ =>
    split
    · exact orderly.move orderly.draft orderly.handed (by simp) (by simp)
    refine ⟨orderly.rising, orderly.covered, orderly.handed, orderly.draft, orderly.attempted,
      orderly.range, orderly.above, ?_, fun _ _ => rfl, by simp, orderly.spared,
      orderly.unwrapped⟩
    rintro holder ⟨⟩
    trivial
  next call at_ =>
    split
    · exact orderly.take (by simp) (by simp)
    rename_i revision given
    refine orderly.take (by simp) ?_
    rintro other number ⟨⟩
    exact .inl given
  next call revision at_ => exact orderly.build at_
  · exact orderly.sign _
  exact orderly.finish _

lemma step (event : Event) : Orderly (d.step event) := by
  cases event with
  | powerLoss => exact orderly.powerLoss
  | reserve => exact orderly.reserve
  | read fails => exact orderly.read fails
  | write succeeds landed => exact orderly.write succeeds landed
  | commit succeeds => exact orderly.commit succeeds
  | next current =>
    simp only [Device.step]
    split
    · exact orderly
    rename_i free
    refine orderly.relock (fun holder is => ?_) ?_
    · obtain rfl := Option.some.inj is
      trivial
    intro held
    simp [Device.refuses, held] at free
  | taken =>
    simp only [Device.step]
    split
    next held =>
      have outside := orderly.not_taking (by simp [held])
      have taken : Orderly { d.take with publisher := d.publisher } :=
        orderly.take outside fun _ _ => .inr
      exact taken
    exact orderly
  | publish call =>
    simp only [Device.step]
    split
    · exact orderly.publish call
    exact orderly
  | advance => exact orderly.advance
  | drop =>
    simp only [Device.step]
    split
    next idle => exact orderly.move (by simp) orderly.handed (by simp [idle]) (by simp [idle])
    exact orderly
  | reset =>
    refine ⟨orderly.rising, orderly.covered, orderly.handed, orderly.draft, orderly.attempted,
      orderly.range, orderly.above, ?_, orderly.taking, orderly.building, resetActions_spare,
      orderly.unwrapped⟩
    intro holder held
    have holds := orderly.lock holder held
    cases holder <;> exact holds
  | act succeeds landed =>
    simp only [Device.step]
    split
    · exact orderly
    rename_i action actions is
    have kept := readMark_reset (orderly.spared action (by simp [is])) (succeeds || landed) d.store
    have marks : mark (action.apply (succeeds || landed) d.store) = mark d.store := by
      rw [mark, kept, mark]
    refine ⟨orderly.rising, by rw [marks]; exact orderly.covered, orderly.handed, orderly.draft,
      orderly.attempted, by rw [marks]; exact orderly.range, orderly.above, ?_, orderly.taking,
      orderly.building, ?_, orderly.unwrapped⟩
    · intro holder held
      have holds := orderly.lock holder held
      cases holder with
      | reading => exact holds
      | writing | committing => exact ⟨holds.1, holds.2.1, kept.trans holds.2.2.1, holds.2.2.2⟩
      | taking publishes => trivial
    intro other mem
    split at mem
    · exact orderly.spared other (by simp [is, mem])
    simp at mem

end Orderly

end

/-- Any run of boots: the bodies handed to the signer are among those built, which have
rising revisions from 1 on, and no sum has wrapped. -/
theorem own_revisions_never_reused (platform : Platform) (store : Store) (events : List Event) :
    ((Device.fresh platform store).run events).wrapped = false ∧
      ((Device.fresh platform store).run events).built.Pairwise
        (fun earlier later => earlier.revision < later.revision) ∧
      (∀ body ∈ ((Device.fresh platform store).run events).handed,
        body ∈ ((Device.fresh platform store).run events).built ∧ 1 ≤ body.revision) ∧
      ∀ body ∈ ((Device.fresh platform store).run events).handed,
        ∀ other ∈ ((Device.fresh platform store).run events).handed,
          body = other ∨ body.revision ≠ other.revision := by
  have orderly : Orderly ((Device.fresh platform store).run events) :=
    foldlRecOn events Device.step (orderly_fresh platform store)
      fun _ orderly event _ => orderly.step event
  refine ⟨orderly.unwrapped, orderly.rising, fun body member => ?_, fun body member other known => ?_⟩
  · have built := orderly.handed body member
    exact ⟨built, (orderly.covered body built).1⟩
  by_cases same : body = other
  · exact .inl same
  have symmetric : Std.Symm fun first second : Body => first.revision ≠ second.revision :=
    ⟨fun _ _ => Ne.symm⟩
  have distinct : ((Device.fresh platform store).run events).built.Pairwise
      fun first second => first.revision ≠ second.revision :=
    orderly.rising.imp Nat.ne_of_lt
  exact .inr (distinct.forall (orderly.handed body member) (orderly.handed other known) same)

end WendyLite.Pki
