import WendyLite.Gossip.Effects

/-! # Bodies and digests

A stored body hashes to the digest of its object, a buffer that is full to the
digest of its fetch. So a completion callback only ever sees a body that hashes to
the digest it is told.
-/

namespace WendyLite.Gossip

open KeyedList Relation

variable {env : Env} {call : Call} {p p' : Pool} {w w' : World} {config : Config}

def StoredObjects (env : Env) (objects : List Object) : Prop :=
  ∀ o ∈ objects, ∀ bytes, o.data = some bytes → StoredOk env o.id bytes

/-- What is known of a receive buffer. A fetch whose bytes were adopted is about to
be dropped. -/
structure FetchStored (env : Env) (f : Fetch) : Prop where
  known : f.data ≠ none → knownType f.id.type = true
  bounded : f.data ≠ none → f.total ≠ 0 ∧ f.total ≤ objectMax
  empty : f.accepted = none → f.data = none → f.total = 0
  checked : f.full = true → env.digest f.id.type (f.data.getD []) = f.id.hash

structure Stored (env : Env) (p : Pool) : Prop where
  objects : StoredObjects env p.objects
  fetches : ∀ f ∈ p.fetches, FetchStored env f
  delivering : ∀ f, p.delivering = some f → f.data ≠ none → f.full = true
  completed : ∀ owner request id body, .completed owner request id body ∈ p.log →
    env.digest id.type body = id.hash

/-! ## Objects -/

/-- The bodies after a move are bodies of before, but for those of new objects. -/
lemma ObjectMove.stored (move : ObjectMove env call p p') (keys : Keys p)
    (stored : StoredObjects env p.objects)
    (adopted : ∀ f, p.delivering = some f → ∀ bytes, f.data = some bytes →
      StoredOk env f.id bytes) : StoredObjects env p'.objects := by
  intro o mem bytes holds
  cases move with
  | same objects => exact stored o (objects ▸ mem) bytes holds
  | edit old inObjects change objects _ _ id _ data =>
    rw [objects] at mem
    obtain rfl | ⟨old, _⟩ := of_mem_alter keys.borns inObjects mem
    · obtain gone | kept := data
      · rw [gone] at holds
        cases holds
      rw [id]
      exact stored _ inObjects bytes (kept ▸ holds)
    exact stored o old bytes holds
  | unlink old _ _ _ objects =>
    rw [objects] at mem
    exact stored o (mem_erase.mp mem).1 bytes holds
  | link new _ body isBody origin objects =>
    obtain rfl | old := List.mem_cons.mp (objects ▸ mem)
    · cases isBody.symm.trans holds
      obtain isStored | ⟨f, delivering, buffered, same⟩ := origin
      · exact isStored
      exact same ▸ adopted f delivering bytes buffered
    exact stored o old bytes holds
  | retire old _ _ _ _ objects =>
    rw [objects] at mem
    obtain ⟨before, inBefore, equal⟩ := mem_alter.mp mem
    split at equal
    · subst equal
      cases holds
    exact stored o (equal ▸ inBefore) bytes holds

/-! ## Fetches -/

variable {f : Fetch}

lemma FetchStored.none (empty : f.data = none)
    (total : f.accepted = none → f.total = 0) : FetchStored env f where
  known buffered := absurd empty buffered
  bounded buffered := absurd empty buffered
  empty opened _ := total opened
  checked full := by
    rw [Fetch.data_of_full full] at empty
    cases empty

lemma Fetch.full_iff : f.full = true ↔ f.data ≠ none ∧ f.total ≠ 0 ∧ f.size = f.total := by
  simp [Fetch.full, Option.isSome_iff_ne_none, and_assoc]

variable {m : Message}

lemma knownType_of_valid (valid : wgValidate m = 0) (known : knownOp m.op = true) :
    knownType m.id.type = true := by
  by_contra unknown
  rw [Bool.not_eq_true] at unknown
  simp [wgValidate, known, unknown] at valid

lemma Answers.known (answers : Answers call f m) : knownType f.id.type = true := by
  rw [← answers.same]
  exact knownType_of_valid answers.valid (by rw [answers.op]; rfl)

lemma Answers.total (answers : Answers call f m) : m.total ≠ 0 ∧ m.total ≤ objectMax := by
  have ok := chunkOk_of_valid answers.valid answers.op
  exact ⟨Nat.ne_of_gt (Nat.zero_lt_of_lt ok.offset), ok.total⟩

lemma Derived.stored (derived : Derived env call p log f)
    (stored : ∀ f ∈ p.fetches, FetchStored env f) : FetchStored env f := by
  cases derived with
  | same f mem => exact stored f mem
  | reset | fresh => exact .none rfl fun _ => rfl
  | suppliers f mem | claimed f mem => exact { stored f mem with }
  | buffered f mem empty m answers =>
    refine ⟨fun _ => answers.known, fun _ => answers.total, fun _ isNone => ?_, fun full => ?_⟩
    · cases isNone
    obtain ⟨_, positive, size⟩ := Fetch.full_iff.mp full
    exact absurd size.symm positive
  | extended f mem buffered m now answers total checked =>
    have before := stored f mem
    refine ⟨fun _ => answers.known, fun _ => before.bounded buffered, fun _ isNone => ?_, checked⟩
    exact absurd (Option.map_eq_none_iff.mp isNone) buffered
  | adopted f mem born =>
    exact .none rfl fun opened => by cases opened

lemma PoolMove.delivering_cases (move : PoolMove env call p p')
    (delivering : p'.delivering = some f) :
    p.delivering = some f ∨ f.full = true ∨ f.data = none := by
  have framed : Frame p p' → p.delivering = some f ∨ f.full = true ∨ f.data = none :=
    fun frame => .inl (frame.delivering ▸ delivering)
  cases move with
  | dropBody o => exact framed (dropPayload_frame p o)
  | retire o => exact framed (retirePayload_frame p o)
  | adopt g o =>
    cases delivering
    exact .inr (.inr rfl)
  | drop g => exact framed (dropFetch_frame p g)
  | reset g => exact framed (resetFetch_frame p g)
  | trim id keep =>
    exact .inl ((dropIfUnsupplied_frame (p.modifyFetch id _) id).delivering ▸ delivering)
  | reject g data now =>
    exact .inl ((resetFetch_frame (p.modifyFetch g.id _) _).delivering ▸ delivering)
  | deliver g _ full =>
    cases delivering
    exact .inr (.inl full)
  | relink g => cases delivering
  | settle g born =>
    rw [(dropFetch_frame _ _).delivering] at delivering
    cases delivering
  | _ => exact .inl delivering

/-! ## Every body -/

lemma Stored.adoptable (stored : Stored env p) (delivering : p.delivering = some f)
    (buffered : f.data = some bytes) : StoredOk env f.id bytes := by
  have some_ : f.data ≠ none := by simp [buffered]
  have full := stored.delivering f delivering some_
  have ok := stored.fetches f (mem_fetches_of_delivering delivering)
  obtain ⟨_, positive, size⟩ := Fetch.full_iff.mp full
  rw [Fetch.size, buffered, Option.getD_some] at size
  refine ⟨ok.known some_, ?_, ?_, ?_⟩
  · rintro rfl
    exact positive size.symm
  · rw [size]
    exact (ok.bounded some_).2
  have checked := ok.checked full
  rwa [buffered, Option.getD_some] at checked

lemma Stored.of_objects (stored : Stored env p) (objects : StoredObjects env p'.objects)
    (pending : p'.pending = p.pending) (delivering : p'.delivering = p.delivering)
    (log : ∀ owner request id body, .completed owner request id body ∈ p'.log →
      .completed owner request id body ∈ p.log) : Stored env p' where
  objects := objects
  fetches := by
    rw [Pool.fetches, pending, delivering]
    exact stored.fetches
  delivering := delivering ▸ stored.delivering
  completed owner request id body mem :=
    stored.completed owner request id body (log owner request id body mem)

lemma Move.stored (move : Move env call w w') (keys : Keys w.pool) (references : References w)
    (stored : Stored env w.pool) : Stored env w'.pool := by
  have objects : StoredObjects env w'.pool.objects :=
    (move.objects references).stored keys stored.objects
      fun f delivering bytes buffered => stored.adoptable delivering buffered
  cases move with
  | pool move =>
    refine ⟨objects, fun f mem => (move.derived keys f mem).stored stored.fetches, ?_, ?_⟩
    · intro f delivering buffered
      obtain before | full | empty := move.delivering_cases delivering
      · exact stored.delivering f before buffered
      · exact full
      exact absurd empty buffered
    intro owner request id body mem
    obtain before | ⟨f, inPending, full, _, _, rfl, holds⟩ := move.logs.cases mem
    · exact stored.completed owner request id body before
    have checked := (stored.fetches f (mem_fetches_of_pending inPending)).checked full
    rwa [holds, Option.getD_some] at checked
  | startTransfer =>
    exact stored.of_objects objects rfl rfl (by simp [World.putSession, Pool.report, Pool.modifyObject])
  | sendChunk | announce =>
    exact stored.of_objects objects rfl rfl (by simp [World.putSession, Pool.report])
  | sendLast =>
    exact stored.of_objects objects rfl rfl
      (by simp [World.putSession, Gossip.endTransfer, unpinned, Pool.modifyObject, Pool.report])
  | _ => exact stored.of_objects objects rfl rfl fun _ _ _ _ mem => mem

lemma Reachable.stored (reachable : Reachable env config w) : Stored env w.pool := by
  have both : References w ∧ Stored env w.pool :=
    reachable.induct (fun w => References w ∧ Stored env w.pool)
      ⟨⟨by simp, by simp [World.transfers], by simp, by simp, rfl, by simp⟩,
        ⟨by simp [StoredObjects], by simp [Pool.fetches], by simp, by simp⟩⟩
      fun _ _ _ keys owners move holds =>
        ⟨move.references keys owners holds.1, move.stored keys holds.1 holds.2⟩
  exact both.2

end WendyLite.Gossip
