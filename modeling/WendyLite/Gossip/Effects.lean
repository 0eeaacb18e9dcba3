import WendyLite.Gossip.References

/-! # Objects and effects

What a single move can do to the objects of a pool, and what it can add to its
log. The histories of objects, announcements and transfers rest on these two.
-/

namespace WendyLite.Gossip

open KeyedList Relation

variable {env : Env} {call : Call} {p p' : Pool} {w w' : World} {s : Session}

/-! ## What happens to objects -/

/-- What a single move does to the objects of a pool. -/
inductive ObjectMove (env : Env) (call : Call) (p p' : Pool) : Prop
  | same (objects : p'.objects = p.objects) (withdrawal : p'.withdrawal = p.withdrawal)
  | edit (o : Object) (member : o ∈ p.objects) (change : Object → Object)
      (objects : p'.objects = alter Object.born o.born change p.objects)
      (withdrawal : p'.withdrawal = p.withdrawal)
      (born : (change o).born = o.born) (id : (change o).id = o.id)
      (number : (change o).withdrawal = o.withdrawal)
      (data : (change o).data = none ∨ (change o).data = o.data)
      (stays : o.data = none → o.refs = 0 → (change o).data = none ∧ (change o).refs = 0)
      (receipt : o.data = none → o.refs = 0 → p.config.fifo = true → call ≠ .expire o.id →
        change o = o)
  | unlink (o : Object) (member : o ∈ p.objects) (expired : o.expires ≤ p.clock)
      (unused : o.refs = 0)
      (objects : p'.objects = erase Object.born o.born p.objects)
      (withdrawal : p'.withdrawal = p.withdrawal)
  | link (o : Object) (unretired : o.withdrawal = 0) (bytes : List UInt8)
      (body : o.data = some bytes) (origin : StoredOk env o.id bytes ∨
        ∃ f, p.delivering = some f ∧ f.data = some bytes ∧ f.id = o.id)
      (objects : p'.objects = o :: p.objects) (withdrawal : p'.withdrawal = p.withdrawal)
  | retire (o : Object) (member : o ∈ p.objects) (body : o.data ≠ none) (unused : o.refs = 0)
      (fifo : p.config.fifo = true)
      (objects : p'.objects = alter Object.born o.born (fun o =>
        { o with
          data := none, withdrawal := p.withdrawal + 1
          expires := receiptExpiry o.expires }) p.objects)
      (withdrawal : p'.withdrawal = p.withdrawal + 1)

lemma unbuffer_objects (p : Pool) (f : Fetch) :
    (unbuffer p f).objects = p.objects ∧ (unbuffer p f).withdrawal = p.withdrawal := by
  rw [unbuffer]
  split <;> exact ⟨rfl, rfl⟩

lemma dropIfUnsupplied_objects (p : Pool) (id : Id) :
    (dropIfUnsupplied p id).objects = p.objects ∧
      (dropIfUnsupplied p id).withdrawal = p.withdrawal := by
  rw [dropIfUnsupplied]
  split
  · exact ⟨rfl, rfl⟩
  split
  · exact unbuffer_objects p _
  exact ⟨rfl, rfl⟩

variable {o : Object}

lemma dropPayload_objectMove (mem : o ∈ p.objects) :
    ObjectMove env call p (dropPayload p o) := by
  rw [dropPayload]
  split
  · exact .same rfl rfl
  rename_i body holds
  refine .edit o mem _ rfl rfl rfl rfl rfl (.inl rfl) (fun _ unused => ⟨rfl, unused⟩) fun empty => ?_
  rw [holds] at empty
  cases empty

lemma unpinned_objectMove (mem : o ∈ p.objects)
    (objects : p'.objects = (unpinned p o.born).objects)
    (withdrawal : p'.withdrawal = p.withdrawal) : ObjectMove env call p p' := by
  refine .edit o mem _ objects withdrawal rfl rfl rfl (.inr rfl) (fun empty unused => ⟨empty, ?_⟩)
    fun _ unused _ _ => ?_
  · show o.refs - 1 = 0
    omega
  show { o with refs := o.refs - 1 } = o
  rw [unused]
  exact congrArg (fun refs => { o with refs := refs }) unused.symm

lemma retirePayload_objects (body : o.data ≠ none) :
    (retirePayload p o).objects = alter Object.born o.born (fun o => { o with
          data := none, withdrawal := p.withdrawal + 1
          expires := receiptExpiry o.expires }) p.objects ∧
      (retirePayload p o).withdrawal = p.withdrawal + 1 := by
  rw [retirePayload, dropPayload]
  split
  · contradiction
  refine ⟨?_, rfl⟩
  show alter _ _ _ (alter _ _ _ p.objects) = _
  rw [alter, alter, alter, List.map_map]
  apply List.map_congr_left
  intro x _
  by_cases same : x.born = o.born <;> simp [same, Pool.modifyObject, Pool.report, Pool.uncharge]

lemma PoolMove.objects (move : PoolMove env call p p') (references : ∀ f, p.delivering = some f →
    ∀ born, f.accepted = some born → ∃ o ∈ p.objects, o.born = born) :
    ObjectMove env call p p' := by
  cases move with
  | dropBody o mem => exact dropPayload_objectMove mem
  | remove o mem expired unused => exact .unlink o mem expired unused rfl rfl
  | lapse o mem allowed =>
    refine .edit o mem _ rfl rfl rfl rfl rfl (.inr rfl) (fun empty unused => ⟨empty, unused⟩)
      fun empty _ fifo different => ?_
    obtain full | noFifo | isExpire := allowed
    · exact absurd empty full
    · rw [fifo] at noFifo
      cases noFifo
    exact absurd isExpire different
  | lower o mem body =>
    exact .edit o mem _ rfl rfl rfl rfl rfl (.inr rfl) (fun empty unused => ⟨empty, unused⟩)
      fun empty => absurd empty body
  | retire o mem body unused fifo =>
    obtain ⟨objects, withdrawal⟩ := retirePayload_objects body
    exact .retire o mem body unused fifo objects withdrawal
  | enlist o bytes _ _ body _ unretired _ stored =>
    exact .link o unretired bytes body (.inl stored) rfl rfl
  | adopt f o bytes delivering buffered same _ _ body _ unretired =>
    exact .link o unretired bytes body (.inr ⟨f, delivering, buffered, same⟩) rfl rfl
  | drop f | reset f => exact .same (unbuffer_objects p f).1 (unbuffer_objects p f).2
  | trim id keep =>
    rcases dropIfUnsupplied_objects (p.modifyFetch id fun f => f.keepSuppliers (keep f)) id with
      ⟨objects, withdrawal⟩
    exact .same objects withdrawal
  | reject f data now =>
    rcases unbuffer_objects (p.modifyFetch f.id (Fetch.append data now)) (f.append data now) with
      ⟨objects, withdrawal⟩
    exact .same objects withdrawal
  | settle f born delivering accepted =>
    obtain ⟨o, mem, rfl⟩ := references f delivering born accepted
    obtain ⟨objects, withdrawal⟩ := unbuffer_objects (unpinned (relinked p f) o.born) f
    exact unpinned_objectMove mem objects withdrawal
  | _ => exact .same rfl rfl

lemma Move.objects (move : Move env call w w') (references : References w) :
    ObjectMove env call w.pool w'.pool := by
  cases move with
  | pool move =>
    exact move.objects fun f delivering born accepted =>
      (references.accepted f delivering born accepted).2
  | startTransfer s o m body now _ mem holds =>
    refine .edit o mem _ rfl rfl rfl rfl rfl (.inr rfl) (fun empty => ?_) fun empty => ?_
    · rw [holds] at empty
      cases empty
    rw [holds] at empty
    cases empty
  | sendLast s t rest o n inSessions out mem same =>
    refine unpinned_objectMove mem ?_ rfl
    rw [same]
    rfl
  | endTransfer s t rest inSessions out =>
    have inOut : t ∈ s.out := out ▸ List.mem_cons_self ..
    obtain ⟨o, mem, same⟩ := references.named t (mem_transfers inSessions inOut)
    refine unpinned_objectMove mem ?_ rfl
    rw [same]
    rfl
  | _ => exact .same rfl rfl

lemma ObjectMove.persists (move : ObjectMove env call p p') (keys : Keys p)
    (mem : o ∈ p.objects) (used : o.refs ≠ 0) :
    ∃ o' ∈ p'.objects, o'.born = o.born ∧ o'.id = o.id ∧ (o'.data = none ∨ o'.data = o.data) := by
  cases move with
  | same objects => exact ⟨o, objects ▸ mem, rfl, rfl, .inr rfl⟩
  | edit old inObjects change objects _ born id _ data =>
    rw [objects]
    refine ⟨_, mem_alter.mpr ⟨o, mem, rfl⟩, ?_⟩
    split
    next same =>
      cases eq_of_key_eq keys.borns mem inObjects same
      exact ⟨born, id, data⟩
    exact ⟨rfl, rfl, .inr rfl⟩
  | unlink old inObjects expired unused objects =>
    rw [objects]
    refine ⟨o, mem_erase.mpr ⟨mem, fun same => used ?_⟩, rfl, rfl, .inr rfl⟩
    rwa [eq_of_key_eq keys.borns mem inObjects same]
  | link new _ _ _ _ objects =>
    rw [objects]
    exact ⟨o, List.mem_cons_of_mem _ mem, rfl, rfl, .inr rfl⟩
  | retire old inObjects _ _ _ objects =>
    rw [objects]
    refine ⟨_, mem_alter.mpr ⟨o, mem, rfl⟩, ?_⟩
    split
    · exact ⟨rfl, rfl, .inl rfl⟩
    exact ⟨rfl, rfl, .inr rfl⟩

lemma of_mem_putSession (inAfter : s' ∈ (w.putSession p next).sessions)
    (same : next.owner = s.owner) : s' = next ∨ (s' ∈ w.sessions ∧ s'.owner ≠ s.owner) := by
  obtain ⟨old, inOld, equal⟩ := mem_alter.mp inAfter
  split at equal
  · exact .inl equal.symm
  next different => exact .inr (equal ▸ ⟨inOld, same ▸ different⟩)

/-! ## What happens to fetches -/

/-- What a fetch after a move was before it, given the log after the move. -/
inductive Derived (env : Env) (call : Call) (p : Pool) (log : List Effect) : Fetch → Prop
  | same (f : Fetch) (member : f ∈ p.fetches) : Derived env call p log f
  | reset (f : Fetch) (member : f ∈ p.fetches) (progress : Nat) :
      Derived env call p log { f.reset with progress := progress }
  | suppliers (f : Fetch) (member : f ∈ p.fetches) (suppliers : List Supplier) :
      Derived env call p log { f with suppliers := suppliers }
  | fresh (id : Id) (suppliers : List Supplier) :
      Derived env call p log { id := id, suppliers := suppliers }
  | claimed (f : Fetch) (member : f ∈ p.fetches) (free : f.owner = 0) (owner now : Nat)
      (asked : .emitted owner { id := f.id, op := .wgWant, request := p.nextRequest + 1 } 0 ∈ log) :
      Derived env call p log
        { f with owner := owner, request := p.nextRequest + 1, progress := now }
  | buffered (f : Fetch) (member : f ∈ p.fetches) (empty : f.data = none) (m : Message)
      (answers : Answers call f m) :
      Derived env call p log { f with data := some [], total := m.total }
  | extended (f : Fetch) (member : f ∈ p.fetches) (buffered : f.data ≠ none) (m : Message)
      (now : Nat) (answers : Answers call f m) (total : f.total = 0 ∨ f.total = m.total)
      (checked : (f.append m.data now).full = true →
        env.digest f.id.type ((f.append m.data now).data.getD []) = f.id.hash) :
      Derived env call p log (f.append m.data now)
  | adopted (f : Fetch) (member : f ∈ p.fetches) (born : Nat) :
      Derived env call p log { f with data := none, accepted := some born }

variable {f : Fetch}

lemma mem_fetches_of_pending (mem : f ∈ p.pending) : f ∈ p.fetches :=
  List.mem_append_right _ mem

lemma mem_fetches_of_delivering (delivering : p.delivering = some f) : f ∈ p.fetches := by
  rw [Pool.fetches, delivering]
  exact List.mem_append_left _ (List.mem_singleton_self f)

lemma mem_fetches : f ∈ p.fetches ↔ p.delivering = some f ∨ f ∈ p.pending := by
  rw [Pool.fetches, List.mem_append, Option.mem_toList]

lemma derived_of_pending (delivering : p'.delivering = p.delivering)
    (pending : ∀ f ∈ p'.pending, Derived env call p p'.log f) :
    ∀ f ∈ p'.fetches, Derived env call p p'.log f := by
  intro f mem
  obtain isDelivering | inPending := mem_fetches.mp mem
  · exact .same f (mem_fetches_of_delivering (delivering ▸ isDelivering))
  exact pending f inPending

lemma derived_of_subset (delivering : p'.delivering = p.delivering)
    (pending : ∀ f ∈ p'.pending, f ∈ p.pending) : ∀ f ∈ p'.fetches, Derived env call p p'.log f :=
  derived_of_pending delivering fun f mem => .same f (mem_fetches_of_pending (pending f mem))

lemma derived_of_modify (keys : Keys p) (mem : f ∈ p.pending)
    (derived : Derived env call p log (change f)) :
    ∀ g ∈ (p.modifyFetch f.id change).pending, Derived env call p log g := by
  intro g inAfter
  obtain rfl | ⟨old, _⟩ := of_mem_alter keys.pending mem inAfter
  · exact derived
  exact .same g (mem_fetches_of_pending old)

lemma mem_pending_dropIfUnsupplied {id : Id}
    (mem : f ∈ (dropIfUnsupplied p id).pending) : f ∈ p.pending := by
  rw [dropIfUnsupplied] at mem
  split at mem
  · exact mem
  split at mem
  · rw [dropFetch, Pool.removeFetch, unbuffer_pending] at mem
    exact (mem_erase.mp mem).1
  exact mem

lemma PoolMove.derived (move : PoolMove env call p p') (keys : Keys p) :
    ∀ f ∈ p'.fetches, Derived env call p p'.log f := by
  cases move with
  | dropBody o =>
    rw [dropPayload]
    split <;> exact derived_of_subset rfl fun f mem => mem
  | retire o =>
    rw [retirePayload, dropPayload]
    split <;> exact derived_of_subset rfl fun f mem => mem
  | adopt f o bytes delivering =>
    intro g mem
    obtain isDelivering | inPending := mem_fetches.mp mem
    · cases isDelivering
      exact .adopted f (mem_fetches_of_delivering delivering) o.born
    exact .same g (mem_fetches_of_pending inPending)
  | drop f =>
    refine derived_of_subset (dropFetch_frame p f).delivering fun g mem => ?_
    rw [dropFetch, Pool.removeFetch, unbuffer_pending] at mem
    exact (mem_erase.mp mem).1
  | reset f inPending =>
    refine derived_of_pending (resetFetch_frame p f).delivering fun g mem => ?_
    rw [resetFetch, Pool.modifyFetch, unbuffer_pending] at mem
    exact derived_of_modify keys inPending
      (.reset f (mem_fetches_of_pending inPending) f.reset.progress) g mem
  | trim id keep =>
    refine derived_of_pending (dropIfUnsupplied_frame _ _).delivering fun g mem => ?_
    obtain ⟨old, inBefore, equal⟩ := mem_alter.mp (mem_pending_dropIfUnsupplied mem)
    split at equal
    · exact equal ▸ .suppliers old (mem_fetches_of_pending inBefore) _
    exact equal ▸ .same old (mem_fetches_of_pending inBefore)
  | hint id owner now =>
    refine derived_of_pending rfl fun g mem => ?_
    obtain old | isNew := List.mem_append.mp mem
    · exact .same g (mem_fetches_of_pending old)
    rw [List.mem_singleton.mp isNew]
    exact .fresh id _
  | orphan id =>
    refine derived_of_pending rfl fun g mem => ?_
    obtain old | isNew := List.mem_append.mp mem
    · exact .same g (mem_fetches_of_pending old)
    rw [List.mem_singleton.mp isNew]
    exact .fresh id []
  | supply f owner now _ inPending =>
    exact derived_of_pending rfl (derived_of_modify keys inPending
      (.suppliers f (mem_fetches_of_pending inPending) _))
  | renew id owner now =>
    refine derived_of_pending rfl fun g mem => ?_
    obtain ⟨old, inBefore, equal⟩ := mem_alter.mp mem
    split at equal
    · exact equal ▸ .suppliers old (mem_fetches_of_pending inBefore) _
    exact equal ▸ .same old (mem_fetches_of_pending inBefore)
  | claim s f now inPending free =>
    exact derived_of_pending rfl (derived_of_modify keys inPending
      (.claimed f (mem_fetches_of_pending inPending) free s.owner now
        (List.mem_append_right _ (List.mem_singleton_self _))))
  | buffer f total inPending empty _ _ _ m answers isTotal =>
    subst isTotal
    exact derived_of_pending rfl (derived_of_modify keys inPending
      (.buffered f (mem_fetches_of_pending inPending) empty m answers))
  | extend f m now inPending buffered answers total checked =>
    exact derived_of_pending rfl (derived_of_modify keys inPending
      (.extended f (mem_fetches_of_pending inPending) buffered m now answers total checked))
  | reject f data now inPending =>
    refine derived_of_pending (resetFetch_frame _ _).delivering fun g mem => ?_
    rw [resetFetch, Pool.modifyFetch, unbuffer_pending] at mem
    obtain ⟨old, inBetween, equal⟩ := mem_alter.mp mem
    obtain ⟨first, inBefore, equal'⟩ := mem_alter.mp inBetween
    by_cases same : first.id = f.id
    · rw [if_pos same] at equal'
      subst equal'
      cases eq_of_key_eq keys.pending inBefore inPending same
      rw [if_pos rfl] at equal
      exact equal ▸ .reset _ (mem_fetches_of_pending inPending) now
    rw [if_neg same] at equal'
    subst equal'
    rw [if_neg (show first.id ≠ (f.append data now).id from same)] at equal
    exact equal ▸ .same first (mem_fetches_of_pending inBefore)
  | deliver f inPending =>
    intro g mem
    obtain isDelivering | inRest := mem_fetches.mp mem
    · cases isDelivering
      exact .same f (mem_fetches_of_pending inPending)
    exact .same g (mem_fetches_of_pending (mem_erase.mp inRest).1)
  | relink f delivering =>
    intro g mem
    obtain isDelivering | inRest := mem_fetches.mp mem
    · cases isDelivering
    obtain rfl | inPending := List.mem_cons.mp inRest
    · exact .same g (mem_fetches_of_delivering delivering)
    exact .same g (mem_fetches_of_pending inPending)
  | settle f born delivering =>
    intro g mem
    obtain isDelivering | inRest := mem_fetches.mp mem
    · rw [(dropFetch_frame _ _).delivering] at isDelivering
      cases isDelivering
    rw [dropFetch, Pool.removeFetch, unbuffer_pending] at inRest
    obtain rfl | inPending := List.mem_cons.mp (mem_erase.mp inRest).1
    · exact .same g (mem_fetches_of_delivering delivering)
    exact .same g (mem_fetches_of_pending inPending)
  | _ => exact derived_of_subset rfl fun f mem => mem

/-! ## What is logged -/

/-- The effects of the moves within a pool: no transfer is started, nothing is
announced, and what is accepted is a refusal or the next request. A body is
completed by the fetch that holds it. -/
def Effect.ofPool (p p' : Pool) : Effect → Prop
  | .evicted .. => True
  | .completed owner request id body =>
    ∃ f ∈ p.pending, f.full = true ∧ f.owner = owner ∧ f.request = request ∧ f.id = id ∧
      f.data = some body
  | .emitted _ m sent =>
    sent ≠ 0 ∨ m.op = .wgUnavailable ∨
      (m.op = .wgWant ∧ m.request = p.nextRequest + 1 ∧ p'.nextRequest = p.nextRequest + 1)
  | .serving .. => False
  | .announced .. => False

/-- The log grows by effects of these kinds. -/
def Logs (kind : Effect → Prop) (p p' : Pool) : Prop :=
  ∃ effects, p'.log = p.log ++ effects ∧ ∀ effect ∈ effects, kind effect

variable {kind : Effect → Prop}

lemma Logs.none (same : p'.log = p.log) : Logs kind p p' := ⟨[], by simpa using same, by simp⟩

variable {effect : Effect}

lemma Logs.one (log : p'.log = p.log ++ [effect]) (isKind : kind effect) : Logs kind p p' :=
  ⟨[effect], log, by simpa using isKind⟩

lemma Logs.cases (logs : Logs kind p p')
    (mem : effect ∈ p'.log) : effect ∈ p.log ∨ kind effect := by
  obtain ⟨effects, log, each⟩ := logs
  rw [log] at mem
  exact (List.mem_append.mp mem).imp_right (each effect)

lemma Logs.subset (logs : Logs kind p p') (mem : effect ∈ p.log) : effect ∈ p'.log := by
  obtain ⟨effects, log, _⟩ := logs
  exact log ▸ List.mem_append_left _ mem

lemma unbuffer_log (p : Pool) (f : Fetch) : (unbuffer p f).log = p.log := by
  rw [unbuffer]
  split <;> rfl

lemma Fetch.data_of_full (full : f.full = true) : f.data = some (f.data.getD []) := by
  cases held : f.data with
  | none => simp [Fetch.full, held] at full
  | some body => rfl

lemma PoolMove.logged (move : PoolMove env call p p') :
    p'.log = p.log ∨ ∃ effect, p'.log = p.log ++ [effect] ∧ effect.ofPool p p' := by
  have payload : ∀ o : Object, (dropPayload p o).log = p.log ∨
      ∃ effect, (dropPayload p o).log = p.log ++ [effect] ∧ effect.ofPool p p' := by
    intro o
    rw [dropPayload]
    split
    · exact .inl rfl
    exact .inr ⟨_, rfl, trivial⟩
  cases move with
  | report owner m sent quiet => exact .inr ⟨_, rfl, quiet.imp_right .inl⟩
  | dropBody o | retire o => exact payload o
  | drop f | reset f => exact .inl (unbuffer_log p f)
  | trim id keep =>
    refine .inl ?_
    rw [dropIfUnsupplied]
    split
    · rfl
    split
    · exact unbuffer_log _ _
    rfl
  | reject | settle => exact .inl (unbuffer_log _ _)
  | claim => exact .inr ⟨_, rfl, .inr (.inr ⟨rfl, rfl, rfl⟩)⟩
  | deliver f inPending full =>
    exact .inr ⟨_, rfl, f, inPending, full, rfl, rfl, rfl, Fetch.data_of_full full⟩
  | _ => exact .inl rfl

lemma PoolMove.logs (move : PoolMove env call p p') : Logs (Effect.ofPool p p') p p' := by
  obtain same | ⟨effect, log, ofPool⟩ := move.logged
  · exact .none same
  exact .one log ofPool

end WendyLite.Gossip
