import WendyLite.Gossip.Retirement
import WendyLite.Gossip.Serving

/-! # Bodies of running transfers

A row whose body is gone may still be named by transfers. Every function that takes a
body away either leaves the row expired or takes it from a row nobody names, so while
time does not run back `wg_poll` never reads a body that is not there.
-/

namespace WendyLite.Gossip

open KeyedList Relation

variable {env : Env} {call : Call} {p p' : Pool} {w w' : World} {s : Session} {config : Config}

/-! ## Rows without a body -/

/-- A row that is referred to has lost its body. -/
def Object.Emptied (o : Object) : Prop := o.data = none ∧ o.refs ≠ 0

/-- The rows that are referred to and have lost their body have expired. -/
def Lapsed (w : World) : Prop :=
  w.pool.steady = true → ∀ o ∈ w.pool.objects, o.Emptied → o.expires ≤ w.pool.clock

/-- An emptied row after a change has expired, or was an emptied row that lasted as long. -/
def Empties (p p' : Pool) : Prop :=
  ∀ o' ∈ p'.objects, o'.Emptied →
    o'.expires ≤ p.clock ∨ ∃ o ∈ p.objects, o.Emptied ∧ o'.expires ≤ o.expires

lemma Empties.of_subset (subset : ∀ o ∈ p'.objects, o ∈ p.objects) : Empties p p' :=
  fun o mem emptied => .inr ⟨o, subset o mem, emptied, le_rfl⟩

lemma Empties.of_eq (objects : p'.objects = p.objects) : Empties p p' :=
  .of_subset fun _ mem => objects ▸ mem

variable {o : Object}

lemma Empties.of_cons (objects : p'.objects = o :: p.objects) (holds : o.data = some body) :
    Empties p p' := by
  intro o' mem emptied
  rw [objects] at mem
  obtain rfl | old := List.mem_cons.mp mem
  · rw [Object.Emptied, holds] at emptied
    cases emptied.1
  exact .inr ⟨o', old, emptied, le_rfl⟩

lemma Empties.of_alter (keys : Keys p)
    (mem : o ∈ p.objects) (objects : p'.objects = alter Object.born o.born change p.objects)
    (changed : (change o).Emptied → (change o).expires ≤ p.clock ∨
      (o.Emptied ∧ (change o).expires ≤ o.expires)) : Empties p p' := by
  intro o' inAfter emptied
  rw [objects] at inAfter
  obtain rfl | ⟨old, _⟩ := of_mem_alter keys.borns mem inAfter
  · exact (changed emptied).imp_right fun kept => ⟨o, mem, kept⟩
  exact .inr ⟨o', old, emptied, le_rfl⟩

lemma Empties.unpinned (keys : Keys p) (mem : o ∈ p.objects)
    (objects : p'.objects = (unpinned p o.born).objects) : Empties p p' := by
  refine .of_alter keys mem objects fun emptied => .inr ⟨⟨emptied.1, fun unused => ?_⟩, le_rfl⟩
  have still : o.refs - 1 ≠ 0 := emptied.2
  omega

lemma PoolMove.empties (move : PoolMove env call p p') (keys : Keys p)
    (references : ∀ f, p.delivering = some f → ∀ born, f.accepted = some born →
      ∃ o ∈ p.objects, o.born = born) : Empties p p' := by
  cases move with
  | dropBody o mem expired =>
    cases holds : o.data with
    | none => exact .of_eq (by rw [dropPayload, holds])
    | some body =>
      refine .of_alter keys mem (by rw [dropPayload, holds]; rfl) fun _ => ?_
      exact .inl expired
  | remove o mem => exact .of_subset fun _ kept => (mem_erase.mp kept).1
  | lapse o mem => exact .of_alter keys mem rfl fun _ => .inl (Nat.zero_le _)
  | lower o mem _ expires =>
    exact .of_alter keys mem rfl fun emptied => .inr ⟨emptied, Nat.min_le_right ..⟩
  | retire o mem body unused =>
    -- Only rows that nobody names are retired.
    exact .of_alter keys mem (retirePayload_objects body).1 fun emptied =>
      absurd unused emptied.2
  | enlist _ _ _ _ body | adopt _ _ _ _ _ _ _ _ body => exact .of_cons rfl body
  | drop f | reset f => exact .of_eq (unbuffer_objects p f).1
  | trim id keep => exact .of_eq (dropIfUnsupplied_objects _ id).1
  | reject f data now =>
    exact .of_eq (unbuffer_objects (p.modifyFetch f.id (Fetch.append data now)) _).1
  | settle f born delivering accepted =>
    obtain ⟨o, mem, rfl⟩ := references f delivering born accepted
    exact .unpinned keys mem (unbuffer_objects (Gossip.unpinned (relinked p f) o.born) f).1
  | _ => exact .of_eq rfl

lemma Move.empties (move : Move env call w w') (keys : Keys w.pool) (references : References w) :
    Empties w.pool w'.pool := by
  cases move with
  | pool move =>
    exact move.empties keys fun f delivering born accepted =>
      (references.accepted f delivering born accepted).2
  | startTransfer s o m body now _ mem holds =>
    refine .of_alter keys mem rfl fun emptied => ?_
    have empty : o.data = none := emptied.1
    rw [holds] at empty
    cases empty
  | sendLast s t rest o n inSessions out mem same =>
    refine .unpinned keys mem ?_
    rw [same]
    rfl
  | endTransfer s t rest inSessions out =>
    have inOut : t ∈ s.out := out ▸ List.mem_cons_self ..
    obtain ⟨o, mem, same⟩ := references.named t (mem_transfers inSessions inOut)
    refine .unpinned keys mem ?_
    rw [same]
    rfl
  | _ => exact .of_eq rfl

lemma Move.lapsed (move : Move env call w w') (keys : Keys w.pool) (references : References w)
    (lapsed : Lapsed w) : Lapsed w' := by
  intro steady o' mem emptied
  obtain ⟨before, later⟩ := move.steady steady
  obtain expired | ⟨o, inBefore, was, shorter⟩ := move.empties keys references o' mem emptied
  · exact expired.trans later
  exact (shorter.trans (lapsed before o inBefore was)).trans later

/-- What holds of the transfers, also in the middle of a call. -/
structure Lends (env : Env) (w : World) : Prop where
  references : References w
  stored : Stored env w.pool
  serves : Serves env w
  lapsed : Lapsed w

lemma Move.lends (move : Move env call w w') (keys : Keys w.pool) (owners : Owners w)
    (lends : Lends env w) : Lends env w' where
  references := move.references keys owners lends.references
  stored := move.stored keys lends.references lends.stored
  serves := move.serves keys lends.references lends.stored lends.serves
  lapsed := move.lapsed keys lends.references lends.lapsed

lemma Moves.lends (moves : Moves env call w w') (ready : Ready w) (lends : Lends env w) :
    Lends env w' :=
  Moves.induct (Lends env) (fun _ _ keys owners move => move.lends keys owners) moves ready.keys
    ready.owners lends

lemma Reachable.lends (reachable : Reachable env config w) : Lends env w := by
  refine reachable.induct (Lends env) ?_ fun _ _ _ keys owners move => move.lends keys owners
  exact ⟨⟨by simp, by simp [World.transfers], by simp, by simp, rfl, by simp⟩,
    ⟨by simp [StoredObjects], by simp [Pool.fetches], by simp, by simp⟩,
    ⟨by simp, by simp, by simp [sent], by simp [servings]⟩, by simp [Lapsed]⟩

/-! ## Polling -/

/-- The pool when `wg_poll` comes to the transfers of the session. -/
def pollPool (env : Env) (w : World) (s : Session) (now : UInt64) : Pool :=
  (claimPending env (wgPrune w.pool now.toNat) s now.toNat).2

/-- `wg_poll` comes to the DATA branch for transfer `t` of object `o`. -/
structure ReachesData (env : Env) (w : World) (s : Session) (now : UInt64) (t : Transfer)
    (rest : List Transfer) (o : Object) : Prop where
  inSessions : s ∈ w.sessions
  announced : nextGone (wgPrune w.pool now.toNat) s = none
  claimed : (claimPending env (wgPrune w.pool now.toNat) s now.toNat).1 = 0
  out : s.out = t :: rest
  found : (pollPool env w s now).object? t.object = some o
  live : now.toNat < o.expires

def pollMessage (o : Object) (t : Transfer) : Message :=
  chunkMessage o t (min (sizeSub o.size t.offset) chunk)

lemma ReachesData.emits (data : ReachesData env w s now t rest o) :
    ∃ result, .emitted s.owner (pollMessage o t) result ∈ (wgPoll env w.pool s now).2.1.log := by
  refine ⟨env.emit (pollPool env w s now).calls (pollMessage o t), ?_⟩
  have claimed : claimPending env (wgPrune w.pool now.toNat) s now.toNat =
      (0, pollPool env w s now) := Prod.ext data.claimed rfl
  simp only [wgPoll, data.announced, claimed, ne_eq, not_true_eq_false, if_false, serve, data.out,
    data.found, if_neg (not_le.mpr data.live)]
  split
  · exact List.mem_append_right _ (List.mem_singleton_self _)
  split
  all_goals exact List.mem_append_right _ (List.mem_singleton_self _)

/-- A body that `wg_poll` reads is there. -/
lemma ReachesData.body (reachable : Reachable env config w) (steady : w.pool.steady = true)
    (later : w.pool.clock ≤ now.toNat) (data : ReachesData env w s now t rest o) :
    ∃ body, o.data = some body ∧ t.offset < body.length ∧
      sizeSub o.size t.offset = body.length - t.offset ∧
      (pollMessage o t).data = (body.drop t.offset).take chunk ∧
      (pollMessage o t).offset + (pollMessage o t).data.length ≤ body.length ∧
      wgValidate (pollMessage o t) = 0 := by
  have ready := reachable.ready
  have frame := wgPrune_frame w.pool now.toNat
  have claims := claimLoop_frame env s now.toNat
    ((wgPrune w.pool now.toNat).pending.map Fetch.id) (wgPrune w.pool now.toNat)
  have pooled : PoolMoves env (.poll s.owner now) w.pool (pollPool env w s now) :=
    (wgPrune_moves _ _).trans (claimPending_moves (ready.owners.each s data.inSessions).1
      (frame.2.1.trans ready.calm) now.toNat)
  have moves : Moves env (.poll s.owner now) w { w with pool := pollPool env w s now } :=
    Moves.of_pool pooled
  have lends := Moves.lends moves ready reachable.lends
  have keys := Moves.keys moves ready.keys
  have clock : (pollPool env w s now).clock = now.toNat := claims.clock.trans frame.2.2.1
  have stillSteady : (pollPool env w s now).steady = true := by
    rw [pollPool, claimPending, claims.steady, frame.2.2.2]
    simpa [Pool.tick, steady] using later
  have inOut : t ∈ s.out := data.out ▸ List.mem_cons_self ..
  have mem := mem_of_lookup data.found
  have same := key_of_lookup data.found
  have used := lends.references.used data.inSessions inOut mem same
  have holds : o.data ≠ none := by
    intro empty
    have expired := lends.lapsed stillSteady o mem ⟨empty, used⟩
    rw [show (World.pool { w with pool := pollPool env w s now }).clock = now.toNat from clock]
      at expired
    exact absurd data.live (not_lt.mpr expired)
  rcases lends.serves.transfers s data.inSessions t inOut with
    ⟨positive, o', member', same', body, served, backs⟩
  cases eq_of_key_eq keys.borns member' mem (same'.trans same.symm)
  have stored := lends.serves.stored s.owner _ served
  have valid := chunkMessage_valid backs holds positive stored rfl
  obtain gone | ⟨isBody, aligned, inside⟩ := backs
  · exact absurd gone holds
  have size : o.size = body.length := by rw [Object.size, isBody, Option.getD_some]
  have piece := (chunkMessage_spec (.inr ⟨isBody, aligned, inside⟩) rfl).1 valid.1
  refine ⟨body, isBody, inside, ?_, piece.data, ?_, (isChunk_iff.mp valid.1).2⟩
  · rw [sizeSub_of_le (by omega), size]
  have amount : (pollMessage o t).data.length = _ := valid.2
  rw [amount, sizeSub_of_le (by omega), size]
  show t.offset + _ ≤ _
  omega

/-- In every reachable state of a run with non-decreasing times: when `wg_poll` comes to
the DATA branch, the body is there, the offset lies inside, and the chunk it emits is a
valid piece of it; and no change of any call frees a row that a transfer refers to. -/
theorem served_transfers_keep_bodies (reachable : Reachable env config w) :
    (w.pool.steady = true → ∀ s now t rest o, w.pool.clock ≤ now.toNat →
      ReachesData env w s now t rest o →
      (∃ result, .emitted s.owner (pollMessage o t) result ∈ (wgPoll env w.pool s now).2.1.log) ∧
        ∃ body, o.data = some body ∧ t.offset < body.length ∧
          sizeSub o.size t.offset = body.length - t.offset ∧
          (pollMessage o t).data = (body.drop t.offset).take chunk ∧
          (pollMessage o t).offset + (pollMessage o t).data.length ≤ body.length ∧
          wgValidate (pollMessage o t) = 0) ∧ (∀ call, Moves env call w (step env w call).2 ∧
        ∀ before after o, Moves env call w before → Move env call before after →
          o ∈ before.pool.objects → (∀ o' ∈ after.pool.objects, o'.born ≠ o.born) →
          ∀ t ∈ before.transfers, t.object ≠ o.born) := by
  refine ⟨fun steady s now t rest o later data =>
    ⟨data.emits, data.body reachable steady later⟩, fun call => ?_⟩
  refine ⟨step_moves reachable.ready call, fun before after o moves move member freed t referring => ?_⟩
  intro same
  have lends := Moves.lends moves reachable.ready reachable.lends
  have keys := Moves.keys moves reachable.ready.keys
  obtain ⟨s, inSessions, inOut⟩ := List.mem_flatMap.mp referring
  have used := lends.references.used inSessions inOut member same.symm
  obtain ⟨o', inAfter, born, _⟩ := (move.objects lends.references).persists keys member used
  exact freed o' inAfter born

def lending : List Call :=
  [.openSession 1, .offer 1 [1] 1000 5,
    .receive 1 { id := ⟨1, generous.digest 1 [1]⟩, op := .wgWant, request := 7 } 5]

theorem served_transfers_keep_bodies_lending :
    let w := run generous { pool := { config := small } } lending
    ∃ s ∈ w.sessions, ∃ t rest o, ReachesData generous w s 10 t rest o ∧
      wgValidate (pollMessage o t) = 0 := by
  intro w
  let s : Session := w.sessions.headD { owner := 0, type := 0 }
  let t : Transfer := s.out.headD { object := 0, request := 0 }
  have inSessions : s ∈ w.sessions := .head _
  have data : ∃ o, (pollPool generous w s 10).object? t.object = some o ∧ 10 < o.expires := by
    decide
  obtain ⟨o, found, live⟩ := data
  have reached : ReachesData generous w s 10 t [] o :=
    ⟨inSessions, by decide, by decide, by decide, found, live⟩
  have body := (served_transfers_keep_bodies (reachable_small lending)).1 (by decide) s 10 t [] o
    (by decide) reached
  obtain ⟨_, _, _, _, _, _, valid⟩ := body.2
  exact ⟨s, inSessions, t, [], o, reached, valid⟩

end WendyLite.Gossip
