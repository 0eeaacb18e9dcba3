import Mathlib.Data.List.Nodup
import WendyLite.Gossip.Effects
import WendyLite.Gossip.Fetches

/-! # Retired objects

An object that is retired leaves a receipt: no body, no references, and the
number of the retirement. The receipt stays as it is until it expires. Each
session announces the receipts of its type in the order of their numbers, from
the number that was current when it was opened.
-/

namespace WendyLite.Gossip

open KeyedList Relation

variable {env : Env} {call : Call} {p p' : Pool} {w w' : World} {config : Config}

/-! ## Receipts -/

def Object.retired (o : Object) : Prop := o.withdrawal ≠ 0

/-- Receipts are empty, and no two of them have one number. -/
structure Receipts (p : Pool) : Prop where
  numbered : ∀ o ∈ p.objects, o.withdrawal ≤ p.withdrawal
  distinct : ∀ o ∈ p.objects, ∀ o' ∈ p.objects, o.retired → o'.withdrawal = o.withdrawal →
    o'.born = o.born
  empty : ∀ o ∈ p.objects, o.retired → o.data = none ∧ o.refs = 0 ∧ p.config.fifo = true

lemma Receipts.of_descent (receipts : Receipts p) (config : p'.config = p.config)
    (withdrawal : p'.withdrawal = p.withdrawal)
    (descends : ∀ o ∈ p'.objects, o.retired → ∃ old ∈ p.objects, o.born = old.born ∧
      o.withdrawal = old.withdrawal ∧
        (old.data = none → old.refs = 0 → o.data = none ∧ o.refs = 0)) : Receipts p' where
  numbered o mem := by
    by_cases retired : o.retired
    · obtain ⟨old, inOld, _, same, _⟩ := descends o mem retired
      rw [same, withdrawal]
      exact receipts.numbered old inOld
    rw [Object.retired, not_not] at retired
    omega
  distinct o mem o' member' retired same := by
    have retired' : o'.retired := by rwa [Object.retired, same]
    obtain ⟨old, inOld, born, number, _⟩ := descends o mem retired
    obtain ⟨old', inOld', born', number', _⟩ := descends o' member' retired'
    rw [born, born']
    refine receipts.distinct old inOld old' inOld' ?_ ?_
    · rwa [Object.retired, ← number]
    rw [← number, ← number', same]
  empty o mem retired := by
    obtain ⟨old, inOld, _, number, stays⟩ := descends o mem retired
    obtain ⟨empty, unused, fifo⟩ := receipts.empty old inOld (by rwa [Object.retired, ← number])
    obtain ⟨empty, unused⟩ := stays empty unused
    exact ⟨empty, unused, config ▸ fifo⟩

lemma ObjectMove.receipts (move : ObjectMove env call p p') (keys : Keys p)
    (config : p'.config = p.config) (receipts : Receipts p) : Receipts p' := by
  cases move with
  | same objects withdrawal =>
    refine receipts.of_descent config withdrawal fun o mem _ => ?_
    exact ⟨o, objects ▸ mem, rfl, rfl, fun empty unused => ⟨empty, unused⟩⟩
  | edit old inObjects change objects withdrawal born _ number _ stays receipt =>
    refine receipts.of_descent config withdrawal fun o mem _ => ?_
    rw [objects] at mem
    obtain rfl | ⟨before, _⟩ := of_mem_alter keys.borns inObjects mem
    · exact ⟨_, inObjects, born, number, stays⟩
    exact ⟨o, before, rfl, rfl, fun empty unused => ⟨empty, unused⟩⟩
  | unlink old inObjects expired _ objects withdrawal =>
    refine receipts.of_descent config withdrawal fun o mem _ => ?_
    rw [objects] at mem
    exact ⟨o, (mem_erase.mp mem).1, rfl, rfl, fun empty unused => ⟨empty, unused⟩⟩
  | link new unretired _ _ _ objects withdrawal =>
    refine receipts.of_descent config withdrawal fun o mem retired => ?_
    rw [objects] at mem
    obtain rfl | old := List.mem_cons.mp mem
    · exact absurd unretired retired
    exact ⟨o, old, rfl, rfl, fun empty unused => ⟨empty, unused⟩⟩
  | retire old inObjects body unused fifo objects withdrawal =>
    have each : ∀ o ∈ p'.objects,
        (o.born = old.born ∧ o.withdrawal = p.withdrawal + 1 ∧ o.data = none ∧ o.refs = 0) ∨
          (o ∈ p.objects ∧ o.born ≠ old.born) := by
      intro o mem
      rw [objects] at mem
      obtain rfl | kept := of_mem_alter keys.borns inObjects mem
      · exact .inl ⟨rfl, rfl, rfl, unused⟩
      exact .inr kept
    refine ⟨fun o mem => ?_, fun o mem o' member' retired same => ?_,
      fun o mem retired => ?_⟩
    · obtain ⟨_, number, _⟩ | ⟨kept, _⟩ := each o mem
      · omega
      have := receipts.numbered o kept
      omega
    · rcases each o mem with ⟨born, number, _⟩ | ⟨kept, _⟩ <;>
        obtain ⟨born', number', _⟩ | ⟨kept', _⟩ := each o' member'
      · rw [born, born']
      · have := receipts.numbered o' kept'
        omega
      · have := receipts.numbered o kept
        omega
      exact receipts.distinct o kept o' kept' retired same
    obtain ⟨_, _, empty, free⟩ | ⟨kept, _⟩ := each o mem
    · exact ⟨empty, free, config ▸ fifo⟩
    exact config ▸ receipts.empty o kept retired

variable {r : Object}

section

variable (move : ObjectMove env call p p')
include move

lemma ObjectMove.keeps (keys : Keys p) (receipts : Receipts p)
    (mem : r ∈ p.objects) (retired : r.retired) (different : call ≠ .expire r.id) :
    r ∈ p'.objects ∨ r.expires ≤ p.clock := by
  obtain ⟨empty, unused, fifo⟩ := receipts.empty r mem retired
  cases move with
  | same objects => exact .inl (objects ▸ mem)
  | edit old inObjects change objects _ _ _ _ _ _ receipt =>
    rw [objects]
    refine .inl (mem_alter.mpr ⟨r, mem, ?_⟩)
    split
    next same =>
      cases eq_of_key_eq keys.borns mem inObjects same
      exact receipt empty unused fifo different
    rfl
  | unlink old inObjects expired _ objects =>
    by_cases same : r.born = old.born
    · cases eq_of_key_eq keys.borns mem inObjects same
      exact .inr expired
    rw [objects]
    exact .inl (mem_erase.mpr ⟨mem, same⟩)
  | link new _ _ _ _ objects =>
    rw [objects]
    exact .inl (.tail _ mem)
  | retire old inObjects body _ _ objects =>
    rw [objects]
    refine .inl (mem_alter_of_ne mem fun same => body ?_)
    rwa [← eq_of_key_eq keys.borns mem inObjects same]

lemma ObjectMove.withdrawal_le : p.withdrawal ≤ p'.withdrawal := by
  cases move <;> omega

/-- A receipt is an old one, or has a number that was not given out before. -/
lemma ObjectMove.origin (keys : Keys p) (mem : r ∈ p'.objects) (retired : r.retired) :
    (∃ o ∈ p.objects, o.withdrawal = r.withdrawal ∧ o.id = r.id) ∨ p.withdrawal < r.withdrawal := by
  cases move with
  | same objects => exact .inl ⟨r, objects ▸ mem, rfl, rfl⟩
  | edit old inObjects change objects _ _ id number =>
    rw [objects] at mem
    obtain rfl | ⟨before, _⟩ := of_mem_alter keys.borns inObjects mem
    · exact .inl ⟨old, inObjects, number.symm, id.symm⟩
    exact .inl ⟨r, before, rfl, rfl⟩
  | unlink old inObjects expired _ objects =>
    rw [objects] at mem
    exact .inl ⟨r, (mem_erase.mp mem).1, rfl, rfl⟩
  | link new unretired _ _ _ objects =>
    rw [objects] at mem
    obtain rfl | old := List.mem_cons.mp mem
    · exact absurd unretired retired
    exact .inl ⟨r, old, rfl, rfl⟩
  | retire old inObjects _ _ _ objects =>
    rw [objects] at mem
    obtain ⟨before, inBefore, equal⟩ := mem_alter.mp mem
    split at equal
    · exact .inr (equal ▸ Nat.lt_succ_self _)
    exact .inl ⟨before, inBefore, equal ▸ ⟨rfl, rfl⟩⟩

end

/-! ## Announcements -/

variable (owner : Nat)

/-- The retirement that an effect announces in a session. -/
def announcement : Effect → Option (Nat × Id)
  | .announced other number id => if other = owner then some (number, id) else none
  | _ => none

def goneId : Effect → Option Id
  | .emitted other m result =>
    if other = owner ∧ result = 0 ∧ m.op = .wgGone then some m.id else none
  | _ => none

def announcements (log : List Effect) : List (Nat × Id) :=
  log.filterMap (announcement owner)

def gones (log : List Effect) : List Id := log.filterMap (goneId owner)

def Effect.quiet (effect : Effect) : Prop :=
  ∀ owner, announcement owner effect = none ∧ goneId owner effect = none

variable {m : Message}

lemma quiet_emitted {owner : Nat} {result : Int}
    (other : result ≠ 0 ∨ m.op ≠ .wgGone) : (Effect.emitted owner m result).quiet := by
  intro asked
  refine ⟨rfl, if_neg fun ⟨_, accepted, isGone⟩ => ?_⟩
  obtain refused | notGone := other
  · exact refused accepted
  exact notGone isGone

lemma filterMap_quiet {Value : Type} {view : Effect → Option Value} {log effects : List Effect}
    (unseen : ∀ effect ∈ effects, view effect = none) :
    (log ++ effects).filterMap view = log.filterMap view := by
  rw [List.filterMap_append, List.filterMap_eq_nil_iff.mpr unseen, List.append_nil]

lemma Logs.announcements (quiet : Logs Effect.quiet p p') (owner : Nat) :
    announcements owner p'.log = announcements owner p.log := by
  obtain ⟨effects, log, each⟩ := quiet
  rw [Gossip.announcements, log]
  exact filterMap_quiet fun effect mem => (each effect mem owner).1

lemma Logs.gones (quiet : Logs Effect.quiet p p') (owner : Nat) :
    gones owner p'.log = gones owner p.log := by
  obtain ⟨effects, log, each⟩ := quiet
  rw [Gossip.gones, log]
  exact filterMap_quiet fun effect mem => (each effect mem owner).2

lemma PoolMove.quiet (move : PoolMove env call p p') : Logs Effect.quiet p p' := by
  obtain ⟨effects, log, each⟩ := move.logs
  refine ⟨effects, log, fun effect mem owner => ?_⟩
  have ofPool := each effect mem
  cases effect with
  | emitted other m sent =>
    refine quiet_emitted ?_ owner
    obtain refused | isUnavailable | ⟨isWant, _⟩ := ofPool
    · exact .inl refused
    · exact .inr (isUnavailable ▸ by decide)
    exact .inr (isWant ▸ by decide)
  | serving | announced => exact ofPool.elim
  | _ => exact ⟨rfl, rfl⟩

/-! ## Sessions and their announcements -/

lemma earlierGone_fits (s : Session) (objects : List Object) (start : Option Object) :
    objects.foldl (earlierGone s) start = start ∨
      ∃ gone ∈ objects, objects.foldl (earlierGone s) start = some gone ∧
        gone.id.type = s.type ∧ s.withdrawal < gone.withdrawal := by
  induction objects generalizing start with
  | nil => exact .inl rfl
  | cons o rest ih =>
    rw [List.foldl_cons]
    obtain same | ⟨gone, mem, found, fits⟩ := ih (earlierGone s start o)
    · rw [same]
      simp only [earlierGone]
      split
      next fits =>
        cases start with
        | none => exact .inr ⟨o, .head _, rfl, fits⟩
        | some first =>
          simp only
          split
          · exact .inr ⟨o, .head _, rfl, fits⟩
          exact .inl rfl
      exact .inl rfl
    exact .inr ⟨gone, List.mem_cons_of_mem _ mem, found, fits⟩

variable {s : Session} {o : Object}

lemma earlierGone_le {number : Nat}
    (isStart : start = some first) (early : first.withdrawal ≤ number) :
    ∃ gone, earlierGone s start o = some gone ∧ gone.withdrawal ≤ number := by
  subst isStart
  simp only [earlierGone]
  split
  · split
    · exact ⟨o, rfl, by omega⟩
    exact ⟨first, rfl, early⟩
  exact ⟨first, rfl, early⟩

lemma earlierGone_due (start : Option Object)
    (fits : o.id.type = s.type ∧ s.withdrawal < o.withdrawal) :
    ∃ gone, earlierGone s start o = some gone ∧ gone.withdrawal ≤ o.withdrawal := by
  simp only [earlierGone, if_pos fits]
  cases start with
  | none => exact ⟨o, rfl, le_rfl⟩
  | some first =>
    simp only
    split
    · exact ⟨o, rfl, le_rfl⟩
    exact ⟨first, rfl, by omega⟩

lemma earlierGone_least (s : Session) (objects : List Object) (start : Option Object)
    (number : Nat) (due : (∃ first, start = some first ∧ first.withdrawal ≤ number) ∨
      ∃ r ∈ objects, (r.id.type = s.type ∧ s.withdrawal < r.withdrawal) ∧ r.withdrawal ≤ number) :
    ∃ gone, objects.foldl (earlierGone s) start = some gone ∧ gone.withdrawal ≤ number := by
  induction objects generalizing start with
  | nil =>
    obtain ⟨first, isStart, early⟩ | ⟨r, mem, _⟩ := due
    · exact ⟨first, isStart, early⟩
    cases mem
  | cons o rest ih =>
    apply ih
    obtain ⟨first, isStart, early⟩ | ⟨r, mem, fits, early⟩ := due
    · exact .inl (earlierGone_le isStart early)
    obtain rfl | later := List.mem_cons.mp mem
    · obtain ⟨gone, found, least⟩ := earlierGone_due start fits
      exact .inl ⟨gone, found, least.trans early⟩
    exact .inr ⟨r, later, fits, early⟩

/-- `wg_poll` announces the earliest receipt of the session's type that it has not
announced. -/
lemma nextGone_some (found : nextGone p s = some gone) :
    gone ∈ p.objects ∧ gone.id.type = s.type ∧ s.withdrawal < gone.withdrawal ∧
      ∀ r ∈ p.objects, r.id.type = s.type → s.withdrawal < r.withdrawal →
        gone.withdrawal ≤ r.withdrawal := by
  obtain same | ⟨first, mem, isFirst, type, later⟩ := earlierGone_fits s p.objects none
  · rw [nextGone, same] at found
    cases found
  rw [nextGone, isFirst] at found
  cases found
  refine ⟨mem, type, later, fun r inObjects sameType due => ?_⟩
  rcases earlierGone_least s p.objects none r.withdrawal
    (.inr ⟨r, inObjects, ⟨sameType, due⟩, le_rfl⟩) with ⟨gone, isGone, least⟩
  rw [isFirst] at isGone
  exact Option.some.inj isGone ▸ least

lemma nextGone_due (mem : r ∈ p.objects)
    (type : r.id.type = s.type) (due : s.withdrawal < r.withdrawal) :
    ∃ gone, nextGone p s = some gone ∧ gone.withdrawal ≤ r.withdrawal :=
  earlierGone_least s p.objects none r.withdrawal (.inr ⟨r, mem, ⟨type, due⟩, le_rfl⟩)

/-- What the sessions have announced of the retirements so far. -/
structure Announced (w : World) : Prop where
  current : ∀ s ∈ w.sessions, s.opened ≤ s.withdrawal ∧ s.withdrawal ≤ w.pool.withdrawal
  ordered : ∀ owner, (announcements owner w.pool.log).Pairwise fun first second =>
    first.1 < second.1
  within : ∀ s ∈ w.sessions, ∀ given ∈ announcements s.owner w.pool.log,
    s.opened < given.1 ∧ given.1 ≤ s.withdrawal ∧ given.2.type = s.type
  unopened : ∀ owner, w.pool.nextOwner < owner → announcements owner w.pool.log = []
  told : ∀ s ∈ w.sessions, ∀ r ∈ w.pool.objects, r.retired → r.id.type = s.type →
    s.opened < r.withdrawal → r.withdrawal ≤ s.withdrawal →
      (r.withdrawal, r.id) ∈ announcements s.owner w.pool.log
  gones : ∀ owner, gones owner w.pool.log = (announcements owner w.pool.log).map Prod.snd

lemma Announced.of_quiet (announced : Announced w) (keys : Keys w.pool)
    (move : ObjectMove env call w.pool w'.pool) (quiet : Logs Effect.quiet w.pool w'.pool)
    (nextOwner : w'.pool.nextOwner = w.pool.nextOwner)
    (sessions : ∀ s' ∈ w'.sessions, ∃ s ∈ w.sessions, s'.owner = s.owner ∧ s'.type = s.type ∧
      s'.opened = s.opened ∧ s'.withdrawal = s.withdrawal) : Announced w' where
  current s' mem := by
    obtain ⟨s, inOld, _, _, opened, withdrawal⟩ := sessions s' mem
    have before := announced.current s inOld
    have := move.withdrawal_le
    omega
  ordered owner := quiet.announcements owner ▸ announced.ordered owner
  within s' mem given := by
    obtain ⟨s, inOld, owner, type, opened, withdrawal⟩ := sessions s' mem
    rw [quiet.announcements, owner, type, opened, withdrawal]
    exact announced.within s inOld given
  unopened owner later := by
    rw [quiet.announcements]
    exact announced.unopened owner (nextOwner ▸ later)
  told s' mem r inObjects retired sameType since number := by
    obtain ⟨s, inOld, owner, type, opened, withdrawal⟩ := sessions s' mem
    rw [quiet.announcements, owner]
    obtain ⟨o, inBefore, sameNumber, sameId⟩ | isNew := move.origin keys inObjects retired
    · rw [← sameNumber, ← sameId]
      apply announced.told s inOld o inBefore
      · rwa [Object.retired, sameNumber]
      · rw [sameId, sameType, type]
      all_goals omega
    have := (announced.current s inOld).2
    omega
  gones owner := by
    rw [quiet.gones, quiet.announcements]
    exact announced.gones owner

lemma Announced.of_put (announced : Announced w) (keys : Keys w.pool)
    (mem : s ∈ w.sessions) (move : ObjectMove env call w.pool p)
    (quiet : Logs Effect.quiet w.pool p) (nextOwner : p.nextOwner = w.pool.nextOwner)
    (same : next.owner = s.owner ∧ next.type = s.type ∧ next.opened = s.opened ∧
      next.withdrawal = s.withdrawal) : Announced (w.putSession p next) := by
  refine announced.of_quiet keys move quiet nextOwner fun s' inAfter => ?_
  obtain rfl | ⟨old, _⟩ := of_mem_putSession inAfter same.1
  · exact ⟨s, mem, same⟩
  exact ⟨s', old, rfl, rfl, rfl, rfl⟩

lemma announcements_append (log effects : List Effect) :
    announcements owner (log ++ effects) = announcements owner log ++ announcements owner effects :=
  List.filterMap_append

lemma announcements_announce (s : Session) (gone : Object) (owner : Nat) : announcements owner
        (w.pool.log ++ [.emitted s.owner { id := gone.id, op := .wgGone } 0] ++
          [.announced s.owner gone.withdrawal gone.id]) =
      announcements owner w.pool.log ++
        if owner = s.owner then [(gone.withdrawal, gone.id)] else [] := by
  rw [List.append_assoc, announcements_append]
  congr 1
  by_cases same : owner = s.owner
  · simp [announcements, List.filterMap_cons, announcement, same]
  simp [announcements, List.filterMap_cons, announcement, same, Ne.symm same]

lemma gones_announce (s : Session) (gone : Object) (owner : Nat) : gones owner
        (w.pool.log ++ [.emitted s.owner { id := gone.id, op := .wgGone } 0] ++
          [.announced s.owner gone.withdrawal gone.id]) =
      gones owner w.pool.log ++ if owner = s.owner then [gone.id] else [] := by
  rw [List.append_assoc, gones, List.filterMap_append, ← gones]
  congr 1
  by_cases same : owner = s.owner
  · simp [goneId, same]
  simp [goneId, same, Ne.symm same]

lemma announce_announced (announced : Announced w) (receipts : Receipts w.pool)
    (keys : Keys w.pool) (owners : Owners w) (mem : s ∈ w.sessions)
    (first : nextGone w.pool s = some gone) : Announced (w.putSession
      ((w.pool.report (.emitted s.owner { id := gone.id, op := .wgGone } 0)).report
        (.announced s.owner gone.withdrawal gone.id))
      { s with withdrawal := gone.withdrawal }) := by
  obtain ⟨inObjects, type, later, least⟩ := nextGone_some first
  have mine : announcements s.owner
      (w.pool.log ++ [.emitted s.owner { id := gone.id, op := .wgGone } 0] ++
        [.announced s.owner gone.withdrawal gone.id]) =
      announcements s.owner w.pool.log ++ [(gone.withdrawal, gone.id)] := by
    rw [announcements_announce, if_pos rfl]
  have others : ∀ owner, owner ≠ s.owner → announcements owner
      (w.pool.log ++ [.emitted s.owner { id := gone.id, op := .wgGone } 0] ++
        [.announced s.owner gone.withdrawal gone.id]) = announcements owner w.pool.log := by
    intro owner different
    rw [announcements_announce, if_neg different, List.append_nil]
  have current := announced.current s mem
  refine ⟨?_, ?_, ?_, ?_, ?_, ?_⟩
  · intro s' inAfter
    obtain rfl | ⟨old, _⟩ := of_mem_putSession (s := s) inAfter rfl
    · exact ⟨by simp only; omega, receipts.numbered gone inObjects⟩
    exact announced.current s' old
  · intro owner
    by_cases same : owner = s.owner
    · subst same
      refine mine ▸ List.pairwise_append.mpr ⟨announced.ordered s.owner, by simp, ?_⟩
      intro given inGiven new isNew
      rw [List.mem_singleton.mp isNew]
      exact lt_of_le_of_lt (announced.within s mem given inGiven).2.1 later
    exact others owner same ▸ announced.ordered owner
  · intro s' inAfter given inGiven
    obtain rfl | ⟨old, different⟩ := of_mem_putSession (s := s) inAfter rfl
    · have inGiven : given ∈ announcements s.owner w.pool.log ++ [(gone.withdrawal, gone.id)] :=
        mine ▸ inGiven
      obtain before | isNew := List.mem_append.mp inGiven
      · obtain ⟨since, number, sameType⟩ := announced.within s mem given before
        exact ⟨since, (number.trans_lt later).le, sameType⟩
      rw [List.mem_singleton.mp isNew]
      exact ⟨lt_of_le_of_lt current.1 later, le_rfl, type⟩
    exact announced.within s' old given (others s'.owner different ▸ inGiven)
  · intro owner unopened
    have bound := (owners.each s mem).2
    have different : owner ≠ s.owner := by
      have unopened : w.pool.nextOwner < owner := unopened
      omega
    exact (others owner different).trans (announced.unopened owner unopened)
  · intro s' inAfter r inObjects' retired sameType since number
    obtain rfl | ⟨old, different⟩ := of_mem_putSession (s := s) inAfter rfl
    · refine mine ▸ List.mem_append.mpr ?_
      by_cases before : r.withdrawal ≤ s.withdrawal
      · exact .inl (announced.told s mem r inObjects' retired sameType since before)
      -- Every receipt that is due has a number from this one's on.
      have equal : r.withdrawal = gone.withdrawal :=
        Nat.le_antisymm number (least r inObjects' sameType (by omega))
      have born := receipts.distinct gone inObjects r inObjects' (by rw [Object.retired]; omega)
        equal
      rw [eq_of_key_eq keys.borns inObjects' inObjects born]
      exact .inr (List.mem_singleton.mpr rfl)
    exact others s'.owner different ▸
      announced.told s' old r inObjects' retired sameType since number
  intro owner
  refine (gones_announce s gone owner).trans ?_
  refine Eq.trans ?_ (congrArg (List.map Prod.snd) (announcements_announce s gone owner)).symm
  rw [List.map_append, announced.gones owner]
  split <;> rfl

lemma openSession_announced (announced : Announced w) (type : UInt8) : Announced
      { pool := { w.pool with nextOwner := w.pool.nextOwner + 1 }
        sessions := w.sessions ++ [{ owner := w.pool.nextOwner + 1, type := type
                                     withdrawal := w.pool.withdrawal
                                     opened := w.pool.withdrawal }] } := by
  have unopened := announced.unopened (w.pool.nextOwner + 1) (Nat.lt_succ_self _)
  refine ⟨?_, announced.ordered, ?_, ?_, ?_, announced.gones⟩
  · intro s mem
    obtain old | isNew := List.mem_append.mp mem
    · exact announced.current s old
    cases List.mem_singleton.mp isNew
    exact ⟨le_rfl, le_rfl⟩
  · intro s mem given inGiven
    obtain old | isNew := List.mem_append.mp mem
    · exact announced.within s old given inGiven
    cases List.mem_singleton.mp isNew
    rw [unopened] at inGiven
    cases inGiven
  · exact fun owner later => announced.unopened owner (Nat.lt_of_succ_lt later)
  intro s mem r inObjects retired sameType since number
  obtain old | isNew := List.mem_append.mp mem
  · exact announced.told s old r inObjects retired sameType since number
  cases List.mem_singleton.mp isNew
  exact absurd number (Nat.not_le.mpr since)

lemma Move.announced (move : Move env call w w') (keys : Keys w.pool) (owners : Owners w)
    (references : References w) (receipts : Receipts w.pool) (announced : Announced w) :
    Announced w' := by
  have objects := move.objects references
  cases move with
  | pool move =>
    exact announced.of_quiet keys objects move.quiet move.fixed.1
      fun s mem => ⟨s, mem, rfl, rfl, rfl, rfl⟩
  | openSession type => exact openSession_announced announced type
  | leave s mem idle =>
    exact announced.of_quiet keys objects (.none rfl) rfl
      fun s' inAfter => ⟨s', (mem_erase.mp inAfter).1, rfl, rfl, rfl, rfl⟩
  | startTransfer s o m body now mem =>
    exact announced.of_put keys mem objects (.one rfl fun _ => ⟨rfl, rfl⟩) rfl
      ⟨rfl, rfl, rfl, rfl⟩
  | sendChunk s t rest o n mem =>
    exact announced.of_put keys mem objects
      (.one rfl (quiet_emitted (.inr (by simp [chunkMessage])))) rfl ⟨rfl, rfl, rfl, rfl⟩
  | sendLast s t rest o n mem =>
    exact announced.of_put keys mem objects (.one rfl (quiet_emitted (.inr (by simp [chunkMessage]))))
      rfl ⟨rfl, rfl, rfl, rfl⟩
  | endTransfer s t rest mem =>
    exact announced.of_put keys mem objects (.none rfl) rfl ⟨rfl, rfl, rfl, rfl⟩
  | announce s gone mem first =>
    exact announce_announced announced receipts keys owners mem first

/-- What the retirements of a run keep. -/
structure Retirements (w : World) : Prop where
  references : References w
  receipts : Receipts w.pool
  announced : Announced w

lemma Move.retirements (move : Move env call w w') (keys : Keys w.pool) (owners : Owners w)
    (holds : Retirements w) : Retirements w' :=
  ⟨move.references keys owners holds.references,
    (move.objects holds.references).receipts keys move.config holds.receipts,
    move.announced keys owners holds.references holds.receipts holds.announced⟩

lemma Reachable.retirements (reachable : Reachable env config w) : Retirements w := by
  refine reachable.induct Retirements ?_ fun _ _ _ keys owners move => move.retirements keys owners
  refine ⟨⟨by simp, by simp [World.transfers], by simp, by simp, rfl, by simp⟩,
    ⟨by simp, by simp, by simp⟩, ⟨by simp, ?_, by simp, ?_, by simp, ?_⟩⟩
  · exact fun _ => List.Pairwise.nil
  · exact fun _ _ => rfl
  exact fun _ => rfl

/-! ## The life of a receipt -/

lemma Move.steady (move : Move env call w w') (steady : w'.pool.steady = true) :
    w.pool.steady = true ∧ w.pool.clock ≤ w'.pool.clock := by
  have framed : ∀ {p : Pool}, Frame w.pool p → w'.pool = p →
      w.pool.steady = true ∧ w.pool.clock ≤ w'.pool.clock := by
    rintro p frame rfl
    exact ⟨frame.steady ▸ steady, frame.clock ▸ le_rfl⟩
  cases move with
  | pool move =>
    cases move with
    | tick now =>
      simp only [Pool.tick, Bool.and_eq_true, decide_eq_true_eq] at steady
      exact steady
    | dropBody o => exact framed (dropPayload_frame _ o) rfl
    | retire o => exact framed (retirePayload_frame _ o) rfl
    | drop f => exact framed (dropFetch_frame _ f) rfl
    | reset f => exact framed (resetFetch_frame _ f) rfl
    | trim id keep =>
      have frame := dropIfUnsupplied_frame
        (w.pool.modifyFetch id fun f => f.keepSuppliers (keep f)) id
      exact ⟨frame.steady ▸ steady, frame.clock ▸ le_rfl⟩
    | reject f data now =>
      have frame := resetFetch_frame (w.pool.modifyFetch f.id (Fetch.append data now))
        (f.append data now)
      exact ⟨frame.steady ▸ steady, frame.clock ▸ le_rfl⟩
    | settle f born =>
      have frame := dropFetch_frame (unpinned (relinked w.pool f) born) f
      exact ⟨frame.steady ▸ steady, frame.clock ▸ le_rfl⟩
    | _ => exact ⟨steady, le_rfl⟩
  | _ => exact ⟨steady, le_rfl⟩

lemma Moves.steady (moves : Moves env call w w') (steady : w'.pool.steady = true) :
    w.pool.steady = true ∧ w.pool.clock ≤ w'.pool.clock := by
  induction moves with
  | refl => exact ⟨steady, le_rfl⟩
  | tail _ move ih =>
    obtain ⟨steady, later⟩ := move.steady steady
    obtain ⟨start, earlier⟩ := ih steady
    exact ⟨start, earlier.trans later⟩

/-- The receipt is there, unless its lease is over or time has run back. -/
def Lasts (r : Object) (w : World) : Prop :=
  r ∈ w.pool.objects ∨ r.expires ≤ w.pool.clock ∨ w.pool.steady = false

lemma Move.lasts (move : Move env call w w') (keys : Keys w.pool) (holds : Retirements w)
    (retired : r.retired) (different : call ≠ .expire r.id) (lasts : Lasts r w) : Lasts r w' := by
  by_cases steady : w'.pool.steady = true
  · obtain ⟨before, later⟩ := move.steady steady
    have kept : r ∈ w'.pool.objects ∨ r.expires ≤ w.pool.clock := by
      obtain mem | ended | unsteady := lasts
      · exact (move.objects holds.references).keeps keys holds.receipts mem retired different
      · exact .inr ended
      rw [before] at unsteady
      cases unsteady
    exact kept.imp_right fun ended => .inl (ended.trans later)
  exact .inr (.inr (Bool.not_eq_true _ ▸ steady))

lemma moves_lasts (reachable : Reachable env config w) (retired : r.retired)
    (different : call ≠ .expire r.id) (lasts : Lasts r w) (moves : Moves env call w w') :
    Lasts r w' := by
  have ready := reachable.ready
  have kept := Moves.induct (fun w => Retirements w ∧ Lasts r w)
    (fun _ _ keys owners move holds => ⟨move.retirements keys owners holds.1,
      move.lasts keys holds.1 retired different holds.2⟩)
    moves ready.keys ready.owners ⟨reachable.retirements, lasts⟩
  exact kept.2

lemma run_lasts (reachable : Reachable env config w) (retired : r.retired)
    (calls : List Call) (different : ∀ call ∈ calls, call ≠ .expire r.id) (lasts : Lasts r w) :
    Lasts r (run env w calls) := by
  induction calls generalizing w with
  | nil => exact lasts
  | cons call rest ih =>
    refine ih (reachable.call call)
      (fun other mem => different other (.tail _ mem)) ?_
    have ready := reachable.ready
    have moves : Moves env call w (step env w call).2 := step_moves ready call
    exact moves_lasts reachable retired (different call (.head _)) lasts moves

lemma findObject_of_mem (keys : Keys p) (mem : o ∈ p.objects) :
    findObject p o.id = some o := by
  simpa [findObject, lookup] using lookup_of_mem keys.objects mem

lemma receipt_found (reachable : Reachable env config w) (mem : r ∈ w.pool.objects)
    (retired : r.retired) (moves : PoolMoves env (.prune 0) w.pool p) (frame : Frame w.pool p)
    (steady : w.pool.steady = true) (forward : w.pool.clock ≤ now) (live : now < r.expires) :
    r ∈ (wgPrune p now).objects ∧ findObject (wgPrune p now) r.id = some r := by
  have pruned : PoolMoves env (.prune 0) w.pool (wgPrune p now) := moves.trans (wgPrune_moves p now)
  obtain ⟨_, _, clock, stays⟩ := wgPrune_frame p now
  have isSteady : (wgPrune p now).steady = true := by
    rw [stays]
    simp [Pool.tick, frame.steady, frame.clock, steady, forward]
  have inAfter : r ∈ (wgPrune p now).objects := by
    have moves : Moves env (.prune 0) w { w with pool := wgPrune p now } := Moves.of_pool pruned
    rcases moves_lasts reachable retired (by simp) (.inl mem) moves with
      inAfter | ended | unsteady
    · exact inAfter
    · exact absurd (clock ▸ ended : r.expires ≤ now) (by omega)
    rw [show (wgPrune p now).steady = false from unsteady] at isSteady
    cases isSteady
  exact ⟨inAfter, findObject_of_mem (pruned.keys reachable.ready.keys) inAfter⟩

/-- A well-formed offer of these bytes. -/
structure Offers (env : Env) (p : Pool) (id : Id) (bytes : List UInt8) (expires now : UInt64) :
    Prop where
  nonempty : bytes ≠ []
  size : bytes.length ≤ objectMax
  fresh : now < expires
  known : knownType id.type = true
  identified : env.identified p.calls = true
  digest : env.digest id.type bytes = id.hash

variable {now : UInt64}

lemma offer_retired {lent shared : Bool} (offers : Offers env p r.id bytes expires now)
    (found : findObject (wgPrune p.consulted now.toNat) r.id = some r) (empty : r.data = none) :
    (offer env p r.id.type bytes lent shared expires now).1 = 2 := by
  have same : ({ type := r.id.type, hash := env.digest r.id.type bytes } : Id) = r.id := by
    rw [offers.digest]
  have fresh : ¬ expires ≤ now := UInt64.not_le.mpr offers.fresh
  have size := Nat.not_lt.mpr offers.size
  simp [offer, offers.nonempty, size, fresh, offers.known, offers.identified, same, found, empty]

lemma want_retired
    (valid : wgValidate m = 0) (op : m.op = .wgWant) (id : m.id = r.id) (type : r.id.type = s.type)
    (time : now.toNat ≤ uint64Max - hintMs) (fresh : ∀ t ∈ s.out, t.request ≠ m.request)
    (found : findObject (wgPrune p now.toNat) r.id = some r) (empty : r.data = none) :
    ∃ sent, wgReceive env p s m now = (sent, (wgPrune p now.toNat).consulted.report
        (.emitted s.owner { id := r.id, op := .wgUnavailable, request := m.request } sent), s) := by
  have unserved : (s.out.any fun t => t.request == m.request) = false := by
    simpa using fresh
  refine ⟨env.emit (wgPrune p now.toNat).calls
    { id := r.id, op := .wgUnavailable, request := m.request }, ?_⟩
  simp [wgReceive, valid, op, knownOp, id, type, Nat.not_lt.mpr time, dispatch, receiveWant,
    unserved, found, empty, emit]

lemma have_retired (valid : wgValidate m = 0) (op : m.op = .wgHave)
    (id : m.id = r.id) (type : r.id.type = s.type) (time : now.toNat ≤ uint64Max - hintMs)
    (live : now.toNat < r.expires) (found : findObject (wgPrune p now.toNat) r.id = some r) :
    wgReceive env p s m now = (0, wgPrune p now.toNat, s) := by
  simp [wgReceive, valid, op, knownOp, id, type, Nat.not_lt.mpr time, dispatch, receiveHave, held,
    found, live]

/-! ## The loops that retire -/

/-- What retirement for capacity leaves of an object. -/
def Receipt (withdrawal : Nat) (o o' : Object) : Prop :=
  o.data ≠ none ∧ o.refs = 0 ∧ withdrawal < o'.withdrawal ∧
    o' = { o with
      data := none, withdrawal := o'.withdrawal, expires := receiptExpiry o.expires }

/-- Each object stays as it is or leaves a receipt with a new number. -/
structure RetiredFrom (p p' : Pool) : Prop where
  each : List.Forall₂ (fun o o' => o' = o ∨ Receipt p.withdrawal o o') p.objects p'.objects
  withdrawal : p.withdrawal ≤ p'.withdrawal

lemma RetiredFrom.of_objects (objects : p'.objects = p.objects)
    (withdrawal : p'.withdrawal = p.withdrawal) : RetiredFrom p p' :=
  ⟨objects ▸ List.forall₂_same.mpr fun _ _ => .inl rfl, withdrawal.ge⟩

lemma RetiredFrom.trans (first : RetiredFrom p p') (second : RetiredFrom p' p'') :
    RetiredFrom p p'' := by
  refine ⟨?_, first.withdrawal.trans second.withdrawal⟩
  have each := first.each
  have later := second.each
  have increases := first.withdrawal
  revert later
  generalize p.objects = objects at each ⊢
  generalize p'.objects = objects' at each ⊢
  generalize p''.objects = objects''
  induction each generalizing objects'' with
  | nil =>
    intro later
    cases later
    exact .nil
  | cons step rest ih =>
    intro later
    cases later with
    | cons next later =>
      refine .cons ?_ (ih _ later)
      obtain rfl | ⟨body, unused, number, equal⟩ := next
      · exact step
      obtain rfl | receipt := step
      · exact .inr ⟨body, unused, increases.trans_lt number, equal⟩
      exact absurd (congrArg Object.data receipt.2.2.2) body

lemma retirePayload_retiredFrom (keys : Keys p) (mem : o ∈ p.objects)
    (body : o.data ≠ none) (unused : o.refs = 0) : RetiredFrom p (retirePayload p o) := by
  obtain ⟨objects, withdrawal⟩ := retirePayload_objects (p := p) body
  refine ⟨?_, by omega⟩
  rw [objects, alter, List.forall₂_map_right_iff, List.forall₂_same]
  intro x inObjects
  split
  next same =>
    cases eq_of_key_eq keys.borns inObjects mem same
    exact .inr ⟨body, unused, Nat.lt_succ_self _, rfl⟩
  exact .inl rfl

lemma bodies_retirePayload (keys : Keys p) (mem : o ∈ p.objects)
    (body : o.data ≠ none) : bodies (retirePayload p o) + 1 = bodies p := by
  have counts : ∀ p : Pool, bodies p =
      (p.objects.map fun o => if o.data.isSome then 1 else 0).sum := by
    intro p
    rw [bodies, ← List.countP_eq_length_filter]
    induction p.objects with
    | nil => rfl
    | cons head rest ih =>
      rw [List.countP_cons, List.map_cons, List.sum_cons, ih, Nat.add_comm]
  rw [counts, counts, (retirePayload_objects body).1]
  have altered := @sum_alter _ _ _ Object.born _ o
    (fun o => { o with
      data := none, withdrawal := p.withdrawal + 1, expires := receiptExpiry o.expires })
    (fun o => if o.data.isSome then 1 else 0) keys.borns mem
  have isSome : o.data.isSome = true := Option.isSome_iff_ne_none.mpr body
  simpa [isSome] using altered

lemma oldestPayload_round (keys : Keys p) (oldest : oldestPayload env p type = (p', some o)) :
    Keys (retirePayload p' o) ∧ RetiredFrom p (retirePayload p' o) ∧
      bodies (retirePayload p' o) + 1 = bodies p := by
  obtain ⟨⟨calls, same⟩, _, found⟩ := oldestPayload_spec env (.reclaim 0) p type
  rw [oldest] at same found
  obtain ⟨mem, body, unused⟩ := found o rfl
  cases (same : p' = _)
  have keys' : Keys { p with calls := calls } := { keys with }
  have retired : RetiredFrom { p with calls := calls } (retirePayload { p with calls := calls } o) :=
    retirePayload_retiredFrom keys' mem body unused
  exact ⟨retirePayload_keys keys' o, ⟨retired.each, retired.withdrawal⟩,
    bodies_retirePayload keys' mem body⟩

lemma oldestPayload_retiredFrom {type : UInt8} {found : Option Object}
    (oldest : oldestPayload env p type = (p', found)) : RetiredFrom p p' := by
  obtain ⟨calls, rfl⟩ := oldestPayload_calls oldest
  exact .of_objects rfl rfl

variable {fuel : Nat}

lemma reclaimLoop_retiredFrom (wanted : Nat) (keys : Keys p) :
    RetiredFrom p (reclaimLoop env wanted fuel released p).2 := by
  induction fuel generalizing p released with
  | zero => exact .of_objects rfl rfl
  | succ fuel ih =>
    rw [reclaimLoop]
    split
    · split
      next oldest => exact oldestPayload_retiredFrom oldest
      rename_i oldest
      obtain ⟨keys', retired, _⟩ := oldestPayload_round keys oldest
      exact retired.trans (ih keys')
    exact .of_objects rfl rfl

lemma wgReclaim_retiredFrom (keys : Keys p) (wanted : Nat) :
    RetiredFrom p (wgReclaim env p wanted).2 := by
  rw [wgReclaim]
  split
  · exact reclaimLoop_retiredFrom wanted keys
  exact .of_objects rfl rfl

lemma roomLoop_retiredFrom (type : UInt8) (size : Nat) (keys : Keys p) :
    RetiredFrom p (roomLoop env type size fuel p).2 := by
  induction fuel generalizing p with
  | zero => exact .of_objects rfl rfl
  | succ fuel ih =>
    rw [roomLoop]
    split
    · split
      · exact .of_objects rfl rfl
      split
      next oldest => exact oldestPayload_retiredFrom oldest
      rename_i oldest
      obtain ⟨keys', retired, _⟩ := oldestPayload_round keys oldest
      exact retired.trans (ih keys')
    exact .of_objects rfl rfl

lemma room_retiredFrom (keys : Keys p) (type : UInt8) (size : Nat) :
    RetiredFrom p (room env p type size).2 := by
  rw [room]
  split
  · exact .of_objects rfl rfl
  exact roomLoop_retiredFrom type size keys

/-- As many rounds as there are bodies, and one to find none, are all the rounds
that the loops have. -/
lemma reclaimLoop_enough (wanted : Nat) (keys : Keys p) (enough : bodies p < fuel) :
    reclaimLoop env wanted (fuel + 1) released p = reclaimLoop env wanted fuel released p := by
  induction fuel generalizing p released with
  | zero => omega
  | succ fuel ih =>
    rw [reclaimLoop, reclaimLoop]
    split
    · split
      · rfl
      rename_i oldest
      obtain ⟨keys', _, fewer⟩ := oldestPayload_round keys oldest
      exact ih keys' (by omega)
    rfl

lemma roomLoop_enough (type : UInt8) (size : Nat) (keys : Keys p) (enough : bodies p < fuel) :
    roomLoop env type size (fuel + 1) p = roomLoop env type size fuel p := by
  induction fuel generalizing p with
  | zero => omega
  | succ fuel ih =>
    rw [roomLoop, roomLoop]
    split
    · split
      · rfl
      split
      · rfl
      rename_i oldest
      obtain ⟨keys', _, fewer⟩ := oldestPayload_round keys oldest
      exact ih keys' (by omega)
    rfl

/-! ## Progress of the announcements -/

structure Continues (s s' : Session) : Prop where
  owner : s'.owner = s.owner
  type : s'.type = s.type
  opened : s'.opened = s.opened
  withdrawal : s.withdrawal ≤ s'.withdrawal

lemma Continues.refl (s : Session) : Continues s s := ⟨rfl, rfl, rfl, le_rfl⟩

variable {s' : Session}

lemma Continues.trans {s'' : Session} (first : Continues s s') (second : Continues s' s'') :
    Continues s s'' :=
  ⟨second.owner.trans first.owner, second.type.trans first.type, second.opened.trans first.opened,
    first.withdrawal.trans second.withdrawal⟩

/-- The sessions that are open were open before, or got a number since. -/
structure Successor (w w' : World) : Prop where
  sessions : ∀ s' ∈ w'.sessions, (∃ s ∈ w.sessions, Continues s s') ∨ w.pool.nextOwner < s'.owner
  nextOwner : w.pool.nextOwner ≤ w'.pool.nextOwner

lemma Successor.refl (w : World) : Successor w w :=
  ⟨fun s mem => .inl ⟨s, mem, Continues.refl s⟩, le_rfl⟩

lemma Successor.trans (first : Successor w w') (second : Successor w' w'') :
    Successor w w'' := by
  refine ⟨fun s'' mem => ?_, first.nextOwner.trans second.nextOwner⟩
  obtain ⟨s', member', continues'⟩ | isNew := second.sessions s'' mem
  · obtain ⟨s, before, continues⟩ | isNew := first.sessions s' member'
    · exact .inl ⟨s, before, continues.trans continues'⟩
    exact .inr (continues'.owner ▸ isNew)
  exact .inr (first.nextOwner.trans_lt isNew)

lemma Successor.of_put {next : Session} (mem : s ∈ w.sessions)
    (nextOwner : p.nextOwner = w.pool.nextOwner) (continues : Continues s next) :
    Successor w (w.putSession p next) := by
  refine ⟨fun s' inAfter => ?_, nextOwner.ge⟩
  obtain rfl | ⟨old, _⟩ := of_mem_putSession inAfter continues.owner
  · exact .inl ⟨s, mem, continues⟩
  exact .inl ⟨s', old, Continues.refl s'⟩

lemma Move.successor (move : Move env call w w') : Successor w w' := by
  cases move with
  | pool move =>
    exact ⟨fun s mem => .inl ⟨s, mem, Continues.refl s⟩, move.fixed.1.ge⟩
  | openSession type =>
    refine ⟨fun s mem => ?_, Nat.le_succ _⟩
    obtain old | isNew := List.mem_append.mp mem
    · exact .inl ⟨s, old, Continues.refl s⟩
    cases List.mem_singleton.mp isNew
    exact .inr (Nat.lt_succ_self _)
  | leave s mem idle =>
    exact ⟨fun s' inAfter => .inl ⟨s', (mem_erase.mp inAfter).1, Continues.refl s'⟩, le_rfl⟩
  | announce s gone mem first =>
    exact .of_put mem rfl ⟨rfl, rfl, rfl, (nextGone_some first).2.2.1.le⟩
  | startTransfer _ _ _ _ _ mem | sendChunk _ _ _ _ _ mem | sendLast _ _ _ _ _ mem
  | endTransfer _ _ _ mem => exact .of_put mem rfl ⟨rfl, rfl, rfl, le_rfl⟩

lemma Moves.successor (moves : Moves env call w w') : Successor w w' := by
  induction moves with
  | refl => exact .refl _
  | tail _ move ih => exact ih.trans move.successor

lemma step_successor (ready : Ready w) (call : Call) : Successor w (step env w call).2 :=
  Moves.successor (step_moves ready call)

lemma run_successor (reachable : Reachable env config w) (calls : List Call) :
    Successor w (run env w calls) := by
  induction calls generalizing w with
  | nil => exact .refl w
  | cons call rest ih =>
    exact (step_successor reachable.ready call).trans (ih (reachable.call call))

lemma Successor.continues (successor : Successor w w') (owners : Owners w)
    (mem : s ∈ w.sessions) (member' : s' ∈ w'.sessions)
    (same : s'.owner = s.owner) : Continues s s' := by
  obtain ⟨before, inBefore, continues⟩ | isNew := successor.sessions s' member'
  · rwa [eq_of_key_eq owners.distinct mem inBefore (same.symm.trans continues.owner)]
  have := (owners.each s mem).2
  omega

def polls : Call → Bool
  | .poll other _ => other == owner
  | _ => false

/-- The polls of a session that returned 0. -/
def acceptedPolls (env : Env) (owner : Nat) : World → List Call → Nat
  | _, [] => 0
  | w, call :: rest =>
    (if polls owner call ∧ (step env w call).1 = 0 then 1 else 0) +
      acceptedPolls env owner (step env w call).2 rest

lemma refused_ne_zero (sent : Int) : refused sent ≠ 0 := by
  rw [refused]
  split <;> decide

/-- A poll that returns 0 while a receipt is due announces one. -/
lemma poll_advances (mem : r ∈ (wgPrune p now.toNat).objects) (type : r.id.type = s.type)
    (due : s.withdrawal < r.withdrawal) (accepted : (wgPoll env p s now).1 = 0) :
    s.withdrawal < (wgPoll env p s now).2.2.withdrawal ∧
      (wgPoll env p s now).2.2.owner = s.owner := by
  obtain ⟨gone, found, _⟩ := nextGone_due mem type due
  simp only [wgPoll, found] at accepted ⊢
  split at accepted
  · exact absurd accepted (refused_ne_zero _)
  rename_i sent
  rw [if_neg sent]
  exact ⟨(nextGone_some found).2.2.1, rfl⟩

lemma step_steady (ready : Ready w) (call : Call)
    (steady : (step env w call).2.pool.steady = true) :
    w.pool.steady = true ∧ w.pool.clock ≤ (step env w call).2.pool.clock :=
  Moves.steady (step_moves ready call) steady

section

variable (reachable : Reachable env config w)
include reachable

lemma run_steady (calls : List Call) (steady : (run env w calls).pool.steady = true) :
    w.pool.steady = true ∧ w.pool.clock ≤ (run env w calls).pool.clock := by
  induction calls generalizing w with
  | nil => exact ⟨steady, le_rfl⟩
  | cons call rest ih =>
    obtain ⟨between, later⟩ := ih (reachable.call call) steady
    obtain ⟨start, earlier⟩ := step_steady reachable.ready call between
    exact ⟨start, earlier.trans later⟩

lemma step_advances (mem : r ∈ w.pool.objects)
    (retired : r.retired) (inBefore : s ∈ w.sessions) (type : r.id.type = s.type)
    (due : s.withdrawal < r.withdrawal) (steady : (step env w call).2.pool.steady = true)
    (live : (step env w call).2.pool.clock < r.expires)
    (inAfter : s' ∈ (step env w call).2.sessions) (same : s'.owner = s.owner)
    (polled : polls s.owner call = true) (accepted : (step env w call).1 = 0) :
    s.withdrawal < s'.withdrawal := by
  cases call with
  | poll owner now =>
    have found : w.session? owner = some s := by
      rw [eq_of_beq polled]
      exact lookup_of_mem reachable.ready.owners.distinct inBefore
    simp only [step, found] at steady live inAfter accepted
    have frame := wgPoll_frame env w.pool s now
    obtain ⟨_, _, clock, stays⟩ := wgPrune_frame w.pool now.toNat
    have isNow : (wgPoll env w.pool s now).2.1.clock = now.toNat := frame.clock.trans clock
    have ticked : (w.pool.tick now.toNat).steady = true :=
      (frame.steady.trans stays).symm.trans steady
    simp only [Pool.tick, Bool.and_eq_true, decide_eq_true_eq] at ticked
    have pruned := receipt_found reachable mem retired .refl (Frame.refl _)
      ticked.1 ticked.2 (isNow ▸ live)
    obtain ⟨advances, owner⟩ := poll_advances pruned.1 type due accepted
    obtain rfl | ⟨_, different⟩ := of_mem_putSession inAfter owner
    · exact advances
    exact absurd same different
  | _ => cases polled

/-- Enough accepted polls reach any receipt that stays live. -/
lemma run_advances (mem : r ∈ w.pool.objects) (retired : r.retired) (calls : List Call)
    (different : ∀ call ∈ calls, call ≠ .expire r.id)
    (steady : (run env w calls).pool.steady = true) (live : (run env w calls).pool.clock < r.expires)
    (inBefore : s ∈ w.sessions) (type : r.id.type = s.type)
    (inAfter : s' ∈ (run env w calls).sessions) (same : s'.owner = s.owner) :
    r.withdrawal ≤ s'.withdrawal ∨
      s.withdrawal + acceptedPolls env s.owner w calls ≤ s'.withdrawal := by
  induction calls generalizing w s with
  | nil =>
    have continues := (Successor.refl w).continues reachable.ready.owners inBefore inAfter same
    exact .inr continues.withdrawal
  | cons call rest ih =>
    have ready := reachable.ready
    have next := reachable.call call
    have successor : Successor w (step env w call).2 := step_successor ready call
    have whole : Successor w (run env w (call :: rest)) := run_successor reachable _
    by_cases due : s.withdrawal < r.withdrawal
    · -- The session is still open after the call, for its number is not given out again.
      obtain ⟨between, inBetween, continues⟩ | isNew := (run_successor next rest).sessions s' inAfter
      · have same' : between.owner = s.owner := continues.owner.symm.trans same
        have first := successor.continues ready.owners inBefore inBetween same'
        obtain ⟨steady', later⟩ := run_steady next rest steady
        have live' := later.trans_lt live
        have member' : r ∈ (step env w call).2.pool.objects := by
          rcases run_lasts reachable retired [call]
            (fun other isCall => different other (List.mem_singleton.mp isCall ▸
              .head _)) (.inl mem) with inBetween | ended | unsteady
          · exact inBetween
          · exact absurd ended (Nat.not_le.mpr live')
          exact absurd (steady'.symm.trans unsteady) (by simp)
        have reached := ih next member'
          (fun other inRest => different other (.tail _ inRest)) steady live
          inBetween (first.type ▸ type) inAfter (same.trans same'.symm)
        refine reached.imp_right fun bound => le_trans ?_ bound
        rw [acceptedPolls, same', ← Nat.add_assoc]
        refine Nat.add_le_add_right ?_ _
        split
        next accepted =>
          exact step_advances reachable mem retired inBefore type due steady' live' inBetween
            same' accepted.1 accepted.2
        exact first.withdrawal
      have bound := (ready.owners.each s inBefore).2
      have := successor.nextOwner
      omega
    have continues := whole.continues ready.owners inBefore inAfter same
    exact .inl ((Nat.not_lt.mp due).trans continues.withdrawal)

end

lemma announced_count (holds : Retirements w)
    (inSessions : s ∈ w.sessions) (mem : r ∈ w.pool.objects) (retired : r.retired)
    (type : r.id.type = s.type) (since : s.opened < r.withdrawal) :
    (announcements s.owner w.pool.log).count (r.withdrawal, r.id) =
      if r.withdrawal ≤ s.withdrawal then 1 else 0 := by
  have announced := holds.announced
  split
  next reached =>
    refine List.count_eq_one_of_mem ?_
      (announced.told s inSessions r mem retired type since reached)
    exact (announced.ordered s.owner).imp fun less equal => absurd (equal ▸ less) (lt_irrefl _)
  rename_i unreached
  refine List.count_eq_zero_of_not_mem fun given => unreached ?_
  exact (announced.within s inSessions _ given).2.1

/-! ## Sticky and announced -/

/-- What a retired object meets with at a time before its receipt expires. -/
structure Sticky (env : Env) (w : World) (r : Object) (now : UInt64) : Prop where
  kept : findObject w.pool r.id = some r
  offered : ∀ bytes expires, Offers env w.pool r.id bytes expires now →
    (wgOffer env w.pool r.id.type bytes expires now).1 = 2 ∧
      (wgOfferShared env w.pool r.id.type bytes expires now).1 = 2
  wanted : ∀ s ∈ w.sessions, ∀ m : Message, wgValidate m = 0 → m.op = .wgWant → m.id = r.id →
    r.id.type = s.type → now.toNat ≤ uint64Max - hintMs →
    (∀ t ∈ s.out, t.request ≠ m.request) →
    ∃ sent, wgReceive env w.pool s m now =
      (sent, (wgPrune w.pool now.toNat).consulted.report
        (.emitted s.owner { id := r.id, op := .wgUnavailable, request := m.request } sent), s)
  hinted : ∀ s ∈ w.sessions, ∀ m : Message, wgValidate m = 0 → m.op = .wgHave → m.id = r.id →
    r.id.type = s.type → now.toNat ≤ uint64Max - hintMs →
    wgReceive env w.pool s m now = (0, wgPrune w.pool now.toNat, s)

lemma sticky_of_member (reachable : Reachable env config w) (mem : r ∈ w.pool.objects)
    (retired : r.retired) (steady : w.pool.steady = true) (forward : w.pool.clock ≤ now.toNat)
    (live : now.toNat < r.expires) : Sticky env w r now := by
  have empty := (reachable.retirements.receipts.empty r mem retired).1
  have pruned := receipt_found reachable mem retired .refl (Frame.refl _) steady
    forward live
  have consulted : PoolMoves env (.prune 0) w.pool w.pool.consulted := PoolMoves.one .consult
  have offered := receipt_found reachable mem retired consulted ⟨rfl, rfl, rfl, rfl⟩ steady
    forward live
  refine ⟨findObject_of_mem reachable.ready.keys mem, ?_, ?_, ?_⟩
  · exact fun bytes expires offers =>
      ⟨offer_retired offers offered.2 empty, offer_retired offers offered.2 empty⟩
  · exact fun s _ m valid op id type time fresh =>
      want_retired valid op id type time fresh pruned.2 empty
  exact fun s _ m valid op id type time => have_retired valid op id type time live pruned.2

/-- Retirement for capacity is sticky and announced. A receipt keeps its place and
its expiry until then, in any run in which time does not go back and in which the
object is not expired by its owner. The sessions that were open at a retirement are those
whose `opened` is below its number. -/
theorem retirement_sticky (reachable : Reachable env config w) :
    (∀ p : Pool, Keys p → (∀ type size, RetiredFrom p (room env p type size).2) ∧
      ∀ wanted, RetiredFrom p (wgReclaim env p wanted).2) ∧
    (∀ r ∈ w.pool.objects, r.retired → ∀ calls, (∀ call ∈ calls, call ≠ .expire r.id) →
      ∀ now : UInt64, (run env w calls).pool.steady = true →
        (run env w calls).pool.clock ≤ now.toNat → now.toNat < r.expires →
        Sticky env (run env w calls) r now) ∧
    (∀ owner, (announcements owner w.pool.log).Pairwise (fun first second => first.1 < second.1) ∧
      gones owner w.pool.log = (announcements owner w.pool.log).map Prod.snd) ∧
    (∀ s ∈ w.sessions, ∀ given ∈ announcements s.owner w.pool.log,
      s.opened < given.1 ∧ given.1 ≤ s.withdrawal ∧ given.2.type = s.type) ∧
    (∀ s ∈ w.sessions, ∀ r ∈ w.pool.objects, r.retired → r.id.type = s.type →
      s.opened < r.withdrawal → (announcements s.owner w.pool.log).count (r.withdrawal, r.id) =
        if r.withdrawal ≤ s.withdrawal then 1 else 0) ∧
    ∀ s ∈ w.sessions, ∀ r ∈ w.pool.objects, r.retired → r.id.type = s.type →
      s.opened < r.withdrawal → ∀ calls, (∀ call ∈ calls, call ≠ .expire r.id) →
      (run env w calls).pool.steady = true → (run env w calls).pool.clock < r.expires →
      ∀ s' ∈ (run env w calls).sessions, s'.owner = s.owner →
      r.withdrawal ≤ s.withdrawal + acceptedPolls env s.owner w calls →
      (announcements s.owner (run env w calls).pool.log).count (r.withdrawal, r.id) = 1 := by
  have lives : ∀ r ∈ w.pool.objects, r.retired → ∀ calls,
      (∀ call ∈ calls, call ≠ .expire r.id) → (run env w calls).pool.steady = true →
      (run env w calls).pool.clock < r.expires → r ∈ (run env w calls).pool.objects := by
    intro r member retired calls different steady live
    obtain kept | ended | unsteady := run_lasts reachable retired calls different (.inl member)
    · exact kept
    · exact absurd ended (Nat.not_le.mpr live)
    exact absurd (steady.symm.trans unsteady) (by simp)
  have holds := reachable.retirements
  refine ⟨fun p keys => ⟨room_retiredFrom keys, wgReclaim_retiredFrom keys⟩, ?_, ?_, ?_, ?_, ?_⟩
  · intro r member retired calls different now steady forward live
    have kept := lives r member retired calls different steady (forward.trans_lt live)
    exact sticky_of_member (reachable.run calls) kept retired steady forward live
  · exact fun owner => ⟨holds.announced.ordered owner, holds.announced.gones owner⟩
  · exact holds.announced.within
  · exact fun s inSessions r member retired type since =>
      announced_count holds inSessions member retired type since
  intro s inSessions r member retired type since calls different steady live s' inAfter same polled
  have kept := lives r member retired calls different steady live
  have continues := (run_successor reachable calls).continues reachable.ready.owners inSessions
    inAfter same
  have reached : r.withdrawal ≤ s'.withdrawal := by
    rcases run_advances reachable member retired calls different steady live inSessions type
      inAfter same with reached | bound
    · exact reached
    exact polled.trans bound
  rw [← same, announced_count (reachable.run calls).retirements inAfter kept retired
    (type.trans continues.type.symm) (continues.opened ▸ since), if_pos reached]

def reclaimed : List Call :=
  [.openSession 1, .offer 1 [1] 1000 5,
    .receive 1 { id := ⟨1, generous.digest 1 [1]⟩, op := .wgWant, request := 7 } 5,
    .offer 1 [2] 1000 5, .reclaim 1]

theorem retirement_sticky_reclaimed :
    let w := run generous { pool := { config := small } } (reclaimed ++ [.poll 1 10])
    announcements 1 w.pool.log = [(1, ⟨1, generous.digest 1 [2]⟩)] ∧
      gones 1 w.pool.log = (announcements 1 w.pool.log).map Prod.snd :=
  ⟨by decide, ((retirement_sticky (reachable_small _)).2.2.1 1).2⟩

/-- A request for the retired object is not answered when its number is that of
a transfer of the same session. -/
theorem request_in_use_unanswered : let w := run generous { pool := { config := small } } reclaimed
    let m : Message := { id := ⟨1, generous.digest 1 [2]⟩, op := .wgWant, request := 7 }
    (∃ r ∈ w.pool.objects, r.id = m.id ∧ r.withdrawal = 1 ∧ 10 < r.expires) ∧
      wgValidate m = 0 ∧ (step generous w (.receive 1 m 10)).1 = 0 ∧
      (step generous w (.receive 1 m 10)).2.pool.log = w.pool.log := by
  decide

/-! ## Reclaiming -/

/-- A body that a scan for the oldest one passes over. -/
def Kept (env : Env) (o : Object) : Prop :=
  o.data = none ∨ o.refs ≠ 0 ∨ ∃ count, env.protectedObject count o.id = true

lemma kept_of_none (objects : List Object) {state : Pool × Option Object}
    (ended : (objects.foldl (olderPayload env 0) state).2 = none) :
    state.2 = none ∧ ∀ o ∈ objects, Kept env o := by
  induction objects generalizing state with
  | nil => exact ⟨ended, by simp⟩
  | cons o rest ih =>
    obtain ⟨next, others⟩ := ih ended
    rcases state with ⟨q, found⟩
    rw [List.forall_mem_cons]
    unfold olderPayload at next
    dsimp only at next
    split at next
    · rename_i passed
      simp only [ne_eq, not_true_eq_false, false_and, or_false] at passed
      exact ⟨next, passed.imp_right .inl, others⟩
    split at next
    · rename_i guarded
      exact ⟨next, .inr (.inr ⟨_, guarded⟩), others⟩
    split at next <;> cases next

lemma retirePayload_frees (keys : Keys p) (ledger : Ledger p) (mem : o ∈ p.objects)
    (body : o.data ≠ none) : Ledger (retirePayload p o) ∧
      (retirePayload p o).payloadBytes + o.size = p.payloadBytes := by
  have dropped := dropPayload_ledger keys ledger mem
  have retired : Ledger (retirePayload p o) := by
    apply alterObject_ledger
    · exact dropped.of_lists rfl rfl rfl rfl rfl rfl
    all_goals exact fun _ => rfl
  have costs := costs_alterObject keys mem _ (retirePayload_objects body).1
    (dropPayload_fetches p o) none
  rw [← retired.balance, ← ledger.balance] at costs
  exact ⟨retired, costs⟩

lemma reclaimLoop_frees (wanted released : Nat) (keys : Keys p) (ledger : Ledger p)
    (enough : bodies p < fuel) : let after := reclaimLoop env wanted fuel released p
    after.2.payloadBytes + after.1 = p.payloadBytes + released ∧
      (after.1 < wanted → after.2.withdrawal = uint64Max ∨ ∀ o ∈ after.2.objects, Kept env o) := by
  induction fuel generalizing p released with
  | zero => omega
  | succ fuel ih =>
    rw [reclaimLoop]
    split
    · split
      next scanned =>
        have none := congrArg Prod.snd scanned
        obtain ⟨calls, rfl⟩ := oldestPayload_calls scanned
        exact ⟨rfl, fun _ => .inr (kept_of_none _ none).2⟩
      rename_i q o scanned
      rcases oldestPayload_spec env (.reclaim 0) p 0 with ⟨⟨calls, same⟩, _, found⟩
      rw [scanned] at same found
      obtain ⟨mem, body, _⟩ := found o rfl
      cases (same : q = _)
      have booked : Ledger { p with calls := calls } := ledger.of_lists rfl rfl rfl rfl rfl rfl
      obtain ⟨ledger', freed⟩ := retirePayload_frees (p := { p with calls := calls }) { keys with }
        booked mem body
      obtain ⟨keys', _, fewer⟩ := oldestPayload_round keys scanned
      obtain ⟨sum, rest⟩ := ih (released + o.size) keys' ledger' (by omega)
      refine ⟨?_, rest⟩
      dsimp only at freed
      omega
    rename_i ended
    refine ⟨rfl, fun short => .inl ?_⟩
    simpa [short] using ended

/-- `wg_reclaim` frees as many bytes as it says, and stops short only when the retirements
are used up or every body is being served or protected. -/
theorem reclaim_is_exact (reachable : Reachable env config w) (wanted : Nat) :
    let after := wgReclaim env w.pool wanted
    after.2.payloadBytes + after.1 = w.pool.payloadBytes ∧ (config.fifo = true → after.1 < wanted →
      after.2.withdrawal = uint64Max ∨ ∀ o ∈ after.2.objects, Kept env o) := by
  have config := reachable.config
  rw [wgReclaim, config]
  split
  · obtain ⟨sum, short⟩ := reclaimLoop_frees wanted 0 reachable.ready.keys
      reachable.books.ledger (Nat.lt_succ_self _)
    exact ⟨sum, fun _ => short⟩
  exact ⟨rfl, fun fifo => absurd fifo ‹_›⟩

/-- The second of two objects is freed, and the first one is being served. -/
theorem reclaim_is_exact_served :
    let w := run generous { pool := { config := small } } (reclaimed.dropLast)
    let after := wgReclaim generous w.pool 2
    after.1 = 1 ∧ after.2.payloadBytes + after.1 = w.pool.payloadBytes ∧
      ∀ o ∈ after.2.objects, Kept generous o := by
  have spec := reclaim_is_exact (reachable_small reclaimed.dropLast) 2
  exact ⟨by decide, spec.1, (spec.2 (by decide) (by decide)).resolve_left (by decide)⟩

end WendyLite.Gossip
