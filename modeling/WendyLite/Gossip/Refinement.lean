import WendyLite.Gossip.Keys

/-! # Calls are sequences of moves -/

namespace WendyLite.Gossip

open KeyedList Relation

variable {env : Env} {call : Call} {p p' p'' : Pool} {o : Object} {f : Fetch} {id : Id}

/-! ## What most functions leave alone -/

/-- The parts of a pool that only few functions touch. -/
structure Frame (p p' : Pool) : Prop where
  config : p'.config = p.config
  delivering : p'.delivering = p.delivering
  clock : p'.clock = p.clock
  steady : p'.steady = p.steady

namespace Frame

lemma refl (p : Pool) : Frame p p := ⟨rfl, rfl, rfl, rfl⟩

lemma trans (first : Frame p p') (second : Frame p' p'') : Frame p p'' :=
  ⟨second.config.trans first.config, second.delivering.trans first.delivering,
    second.clock.trans first.clock, second.steady.trans first.steady⟩

end Frame

lemma dropPayload_frame (p : Pool) (o : Object) : Frame p (dropPayload p o) := by
  rw [dropPayload]
  split <;> exact ⟨rfl, rfl, rfl, rfl⟩

lemma unbuffer_frame (p : Pool) (f : Fetch) : Frame p (unbuffer p f) := by
  rw [unbuffer]
  split <;> exact ⟨rfl, rfl, rfl, rfl⟩

lemma dropFetch_frame (p : Pool) (f : Fetch) : Frame p (dropFetch p f) :=
  (unbuffer_frame p f).trans ⟨rfl, rfl, rfl, rfl⟩

lemma resetFetch_frame (p : Pool) (f : Fetch) : Frame p (resetFetch p f) :=
  (unbuffer_frame p f).trans ⟨rfl, rfl, rfl, rfl⟩

lemma dropIfUnsupplied_frame (p : Pool) (id : Id) : Frame p (dropIfUnsupplied p id) := by
  rw [dropIfUnsupplied]
  split
  · exact Frame.refl p
  split
  · exact dropFetch_frame p _
  exact Frame.refl p

lemma dropSupplier_frame (p : Pool) (f : Fetch) (owner : Nat) :
    Frame p (dropSupplier p f owner) := by
  have first : Frame p (if f.owner = owner then resetFetch p f else p) := by
    split
    · exact resetFetch_frame p f
    exact Frame.refl p
  have second : Frame _ (Pool.modifyFetch _ f.id (Fetch.keepSuppliers fun q => q.owner ≠ owner)) :=
    first.trans ⟨rfl, rfl, rfl, rfl⟩
  exact second.trans (dropIfUnsupplied_frame _ _)

lemma pruneObject_frame (now : Nat) (p : Pool) (born : Nat) :
    Frame p (pruneObject now p born) := by
  simp only [pruneObject]
  split
  · exact Frame.refl p
  rename_i o _
  split
  · have dropped : Frame p (if borrowed p o then p else dropPayload p o) := by
      split
      · exact Frame.refl p
      exact dropPayload_frame p o
    by_cases unused : o.refs = 0
    · rw [if_pos unused]
      exact dropped.trans ⟨rfl, rfl, rfl, rfl⟩
    rw [if_neg unused]
    exact dropped
  exact Frame.refl p

lemma pruneFetch_frame (now : Nat) (p : Pool) (id : Id) : Frame p (pruneFetch now p id) := by
  simp only [pruneFetch]
  split
  · exact Frame.refl p
  rename_i f _
  have first : Frame p (if idle now f then resetFetch p f else p) := by
    split
    · exact resetFetch_frame p f
    exact Frame.refl p
  refine Frame.trans ?_ (dropIfUnsupplied_frame _ _)
  exact first.trans ⟨rfl, rfl, rfl, rfl⟩

lemma retirePayload_frame (p : Pool) (o : Object) : Frame p (retirePayload p o) :=
  (dropPayload_frame p o).trans ⟨rfl, rfl, rfl, rfl⟩

lemma Frame.foldl {Item : Type} {body : Pool → Item → Pool}
    (step : ∀ p item, Frame p (body p item)) (items : List Item) (p : Pool) :
    Frame p (items.foldl body p) := by
  induction items generalizing p with
  | nil => exact Frame.refl p
  | cons item rest ih => exact (step p item).trans (ih (body p item))

lemma wgPrune_frame (p : Pool) (now : Nat) :
    (wgPrune p now).config = p.config ∧ (wgPrune p now).delivering = p.delivering ∧
      (wgPrune p now).clock = now ∧ (wgPrune p now).steady = (p.tick now).steady := by
  have objects := Frame.foldl (pruneObject_frame now) ((p.tick now).objects.map Object.born)
    (p.tick now)
  have both : Frame (p.tick now) (wgPrune p now) :=
    objects.trans (Frame.foldl (pruneFetch_frame now) _ _)
  exact ⟨both.config, both.delivering, both.clock, both.steady⟩

/-! ## Chains -/

lemma PoolMoves.one (move : PoolMove env call p p') : PoolMoves env call p p' :=
  ReflTransGen.single move

/-- A loop whose body is a sequence of moves is one, as long as the moves keep
what the body needs. -/
lemma PoolMoves.foldl {Item : Type} {body : Pool → Item → Pool} (ready : Pool → Prop)
    (step : ∀ p item, ready p → PoolMoves env call p (body p item) ∧ ready (body p item))
    (items : List Item) (holds : ready p) : PoolMoves env call p (items.foldl body p) := by
  induction items generalizing p with
  | nil => exact .refl
  | cons item rest ih =>
    obtain ⟨moves, next⟩ := step p item holds
    exact moves.trans (ih next)

/-! ## Pruning -/

lemma mem_dropPayload (mem : o ∈ p.objects) :
    { o with data := none } ∈ (dropPayload p o).objects := by
  rw [dropPayload]
  split
  next empty =>
    rw [← empty]
    exact mem
  exact mem_alter_self mem

lemma pruneObject_moves (ticked : p.clock = now) (born : Nat) :
    PoolMoves env call p (pruneObject now p born) := by
  simp only [pruneObject]
  split
  · exact .refl
  rename_i o found
  have mem := mem_of_lookup found
  cases key_of_lookup found
  split
  next expired =>
    rw [← ticked] at expired
    by_cases lent : borrowed p o = true
    · rw [if_pos lent]
      split
      next unused => exact PoolMoves.one (.remove o mem expired unused (.inr lent))
      exact .refl
    rw [if_neg lent]
    rw [Bool.not_eq_true] at lent
    have dropped : PoolMoves env call p (dropPayload p o) :=
      PoolMoves.one (.dropBody o mem expired lent)
    split
    next unused =>
      have clock := (dropPayload_frame p o).clock
      exact dropped.tail (.remove { o with data := none } (mem_dropPayload mem)
        (clock ▸ expired) unused (.inl rfl))
    exact dropped
  exact .refl

lemma pruneFetch_moves (now : Nat) (id : Id) : PoolMoves env call p (pruneFetch now p id) := by
  simp only [pruneFetch]
  split
  · exact .refl
  rename_i f found
  have first : PoolMoves env call p (if idle now f then resetFetch p f else p) := by
    split
    · exact PoolMoves.one (.reset f (mem_of_lookup found))
    exact .refl
  refine first.tail (.trim id (fun f q => !lapsed now f q) ?_)
  intro f _ _ _ q _ same
  simp [lapsed, same]

lemma wgPrune_moves (p : Pool) (now : Nat) : PoolMoves env call p (wgPrune p now) := by
  have objects : PoolMoves env call (p.tick now)
      (((p.tick now).objects.map Object.born).foldl (pruneObject now) (p.tick now)) := by
    apply PoolMoves.foldl (fun p => p.clock = now)
    · intro p born ticked
      exact ⟨pruneObject_moves ticked born, (pruneObject_frame now p born).clock.trans ticked⟩
    rfl
  refine ((PoolMoves.one (.tick now)).trans objects).trans ?_
  apply PoolMoves.foldl fun _ => True
  · exact fun p id _ => ⟨pruneFetch_moves now id, trivial⟩
  trivial

/-! ## Suppliers -/

lemma dropSupplier_moves (keys : Keys p) (mem : f ∈ p.pending) (owner : Nat) :
    PoolMoves env call p (dropSupplier p f owner) := by
  simp only [dropSupplier]
  by_cases owns : f.owner = owner
  · rw [if_pos owns]
    refine (PoolMoves.one (.reset f mem)).tail (.trim f.id (fun _ q => q.owner ≠ owner) ?_)
    intro g inPending same owned
    obtain ⟨old, _, equal⟩ := mem_alter.mp inPending
    split at equal
    · rw [← equal] at owned
      exact absurd rfl owned
    rename_i different
    rw [equal] at different
    exact absurd same different
  rw [if_neg owns]
  refine PoolMoves.one (.trim f.id (fun _ q => q.owner ≠ owner) ?_)
  intro g inPending same _ q _ owned
  rw [keys.sole mem g inPending same] at owned
  simpa [owned] using owns

lemma wgDiscard_moves (keys : Keys p) (s : Session) (id : Id) :
    PoolMoves env call p (wgDiscard p s id) := by
  rw [wgDiscard]
  split
  · exact .refl
  rename_i f found
  split
  · exact dropSupplier_moves keys (mem_of_lookup found) s.owner
  exact .refl

/-- Dropping the suppliers before the reset is dropping them after it. -/
lemma closeFetch_moves (keys : Keys p) (owner : Nat) (id : Id) :
    PoolMoves env call p (closeFetch owner p id) := by
  simp only [closeFetch]
  split
  · exact .refl
  rename_i f found
  have mem := mem_of_lookup found
  cases key_of_lookup found
  suffices same : dropIfUnsupplied (if f.owner = owner then
      resetFetch (p.modifyFetch f.id (Fetch.keepSuppliers fun q => q.owner ≠ owner)) f
      else p.modifyFetch f.id (Fetch.keepSuppliers fun q => q.owner ≠ owner)) f.id =
      dropSupplier p f owner by
    rw [same]
    exact dropSupplier_moves keys mem owner
  congr 1
  split
  · simp only [resetFetch, unbuffer, Pool.modifyFetch]
    split
    all_goals
      simp only [Pool.uncharge, Pool.mk.injEq, true_and, and_true]
      rw [alter, alter, List.map_map, alter, alter, List.map_map]
      apply List.map_congr_left
      intro g _
      simp only [Function.comp_apply]
      split <;> simp_all [Fetch.reset, Fetch.keepSuppliers]
  rfl

/-! ## Retirement -/

lemma mem_of_findObject (found : findObject p id = some o) : o ∈ p.objects :=
  List.mem_of_find?_eq_some found

lemma id_of_findObject (found : findObject p id = some o) : o.id = id := by
  simpa using List.find?_some found

lemma forget_moves (calm : p.delivering = none) (id : Id)
    (allowed : keepRetired = false → call = .expire id) :
    PoolMoves env call p (forget p id keepRetired) := by
  simp only [forget]
  split
  · exact .refl
  rename_i o found
  split
  · exact .refl
  rename_i forgotten
  have mem := mem_of_findObject found
  have lapsing : PoolMove env call p (p.modifyObject o.born fun o => { o with expires := 0 }) := by
    refine .lapse o mem ?_
    by_cases empty : o.data = none
    · cases keepRetired with
      | false => exact .inr (.inr (id_of_findObject found ▸ allowed rfl))
      | true => exact .inr (.inl (by simpa [empty] using forgotten))
    exact .inl empty
  have inLapsed : { o with expires := 0 } ∈
      (p.modifyObject o.born fun o => { o with expires := 0 }).objects :=
    mem_alter_self mem
  have free : borrowed (p.modifyObject o.born fun o => { o with expires := 0 })
      { o with expires := 0 } = false := by
    rw [borrowed]
    split
    · rfl
    next delivering => cases calm.symm.trans delivering
  have dropping : PoolMove env call _ (dropPayload _ o) :=
    .dropBody { o with expires := 0 } inLapsed (Nat.zero_le _) free
  have dropped := (PoolMoves.one lapsing).tail dropping
  split
  next unused =>
    exact dropped.tail (.remove { o with expires := 0, data := none } (mem_dropPayload inLapsed)
      (Nat.zero_le _) unused (.inl rfl))
  exact dropped

lemma olderPayload_spec (env : Env) (call : Call) (type : UInt8) (objects : List Object)
    (found : ∀ o, start.2 = some o → o.data ≠ none ∧ o.refs = 0) :
    (∃ calls, (objects.foldl (olderPayload env type) start).1 = { start.1 with calls := calls }) ∧
      PoolMoves env call start.1 (objects.foldl (olderPayload env type) start).1 ∧
      ∀ o, (objects.foldl (olderPayload env type) start).2 = some o →
        (start.2 = some o ∨ o ∈ objects) ∧ o.data ≠ none ∧ o.refs = 0 := by
  induction objects generalizing start with
  | nil => exact ⟨⟨_, rfl⟩, .refl, fun o same => ⟨.inl same, found o same⟩⟩
  | cons head rest ih =>
    rw [List.foldl_cons]
    have next : ((∃ calls, (olderPayload env type start head).1 = { start.1 with calls := calls }) ∧
        PoolMoves env call start.1 (olderPayload env type start head).1) ∧
        ∀ o, (olderPayload env type start head).2 = some o →
          (start.2 = some o ∨ o = head) ∧ o.data ≠ none ∧ o.refs = 0 := by
      obtain ⟨p, oldest⟩ := start
      simp only [olderPayload]
      split
      · exact ⟨⟨⟨_, rfl⟩, .refl⟩, fun o same => ⟨.inl same, found o same⟩⟩
      rename_i could
      simp only [not_or, not_not] at could
      split
      · exact ⟨⟨⟨_, rfl⟩, PoolMoves.one .consult⟩, fun o same => ⟨.inl same, found o same⟩⟩
      split
      · refine ⟨⟨⟨_, rfl⟩, PoolMoves.one .consult⟩, ?_⟩
        rintro o same
        cases same
        exact ⟨.inr rfl, could.1, could.2.1⟩
      refine ⟨⟨⟨_, rfl⟩, PoolMoves.one .consult⟩, ?_⟩
      rintro o same
      cases same
      split
      · exact ⟨.inr rfl, could.1, could.2.1⟩
      exact ⟨.inl rfl, found _ rfl⟩
    obtain ⟨⟨⟨calls, same⟩, moves⟩, kept⟩ := next
    obtain ⟨⟨calls', same'⟩, moves', kept'⟩ := ih fun o isOld => (kept o isOld).2
    refine ⟨⟨calls', by rw [same', same]⟩, moves.trans moves', ?_⟩
    intro o isOld
    obtain ⟨inOld | inRest, facts⟩ := kept' o isOld
    · obtain older | rfl := (kept o inOld).1
      · exact ⟨.inl older, facts⟩
      exact ⟨.inr (.head _), facts⟩
    exact ⟨.inr (.tail _ inRest), facts⟩

lemma oldestPayload_spec (env : Env) (call : Call) (p : Pool) (type : UInt8) :
    (∃ calls, (oldestPayload env p type).1 = { p with calls := calls }) ∧
      PoolMoves env call p (oldestPayload env p type).1 ∧
      ∀ o, (oldestPayload env p type).2 = some o → o ∈ p.objects ∧ o.data ≠ none ∧ o.refs = 0 := by
  have empty : ∀ o, ((p, none) : Pool × Option Object).2 = some o → o.data ≠ none ∧ o.refs = 0 :=
    fun o isSome => by cases isSome
  obtain ⟨same, moves, found⟩ := olderPayload_spec env call type p.objects empty
  refine ⟨same, moves, fun o isOld => ?_⟩
  obtain ⟨inNone | mem, facts⟩ := found o isOld
  · cases inNone
  exact ⟨mem, facts⟩

variable {type : UInt8} {found : Option Object}

lemma oldestPayload_calls
    (oldest : oldestPayload env p type = (p', found)) : ∃ calls, p' = { p with calls := calls } := by
  have scanned := (oldestPayload_spec env (.reclaim 0) p type).1
  rw [oldest] at scanned
  exact scanned

lemma oldestPayload_frame (oldest : oldestPayload env p type = (p', found)) : Frame p p' := by
  obtain ⟨calls, rfl⟩ := oldestPayload_calls oldest
  exact ⟨rfl, rfl, rfl, rfl⟩

lemma retireOldest_moves (call : Call) (fifo : p.config.fifo = true)
    (oldest : oldestPayload env p type = (p', some o)) :
    PoolMoves env call p (retirePayload p' o) ∧ (retirePayload p' o).config.fifo = true ∧
      Frame p (retirePayload p' o) := by
  obtain ⟨⟨calls, same⟩, moves, found⟩ := oldestPayload_spec env call p type
  rw [oldest] at same moves found
  obtain ⟨mem, body, unused⟩ := found o rfl
  have frame := oldestPayload_frame oldest
  have whole := frame.trans (retirePayload_frame p' o)
  have inPool : o ∈ p'.objects := by
    rw [show p' = _ from same]
    exact mem
  exact ⟨moves.tail (.retire o inPool body unused (frame.config ▸ fifo)), whole.config ▸ fifo, whole⟩

lemma oldestPayload_moves
    (oldest : oldestPayload env p type = (p', found)) : PoolMoves env call p p' := by
  have moves := (oldestPayload_spec env call p type).2.1
  rw [oldest] at moves
  exact moves

lemma reclaimLoop_moves (wanted : Nat) (fifo : p.config.fifo = true) :
    PoolMoves env call p (reclaimLoop env wanted fuel released p).2 := by
  induction fuel generalizing p released with
  | zero => exact .refl
  | succ fuel ih =>
    rw [reclaimLoop]
    split
    · split
      next oldest => exact oldestPayload_moves oldest
      rename_i oldest
      obtain ⟨moves, stillFifo, _⟩ := retireOldest_moves call fifo oldest
      exact moves.trans (ih stillFifo)
    exact .refl

lemma wgReclaim_moves (p : Pool) (wanted : Nat) :
    PoolMoves env call p (wgReclaim env p wanted).2 := by
  rw [wgReclaim]
  split
  next fifo => exact reclaimLoop_moves wanted fifo
  exact .refl

lemma roomLoop_moves (type : UInt8) (size : Nat) {fuel : Nat} :
    PoolMoves env call p (roomLoop env type size fuel p).2 ∧
      Frame p (roomLoop env type size fuel p).2 ∧ ((roomLoop env type size fuel p).1 = true →
        payloadFull (roomLoop env type size fuel p).2 type size = false) := by
  induction fuel generalizing p with
  | zero =>
    rw [roomLoop]
    exact ⟨.refl, Frame.refl p, by simp⟩
  | succ fuel ih =>
    rw [roomLoop]
    split
    · split
      · exact ⟨.refl, Frame.refl p, by simp⟩
      rename_i could
      simp only [not_or, Bool.not_eq_false] at could
      split
      next oldest => exact ⟨oldestPayload_moves oldest, oldestPayload_frame oldest, by simp⟩
      rename_i oldest
      obtain ⟨moves, _, frame⟩ := retireOldest_moves call could.1 oldest
      obtain ⟨moves', frame', fits⟩ := @ih (retirePayload _ _)
      exact ⟨moves.trans moves', frame.trans frame', fits⟩
    next fits => exact ⟨.refl, Frame.refl p, fun _ => by simpa using fits⟩

lemma room_moves (env : Env) (call : Call) (p : Pool) (type : UInt8) (size : Nat) :
    PoolMoves env call p (room env p type size).2 ∧ Frame p (room env p type size).2 ∧
      ((room env p type size).1 = true →
        payloadFull (room env p type size).2 type size = false) := by
  rw [room]
  split
  · exact ⟨.refl, Frame.refl p, by simp⟩
  exact roomLoop_moves type size

/-! ## Offers -/

lemma resolveFetch_moves (p : Pool) (id : Id) : PoolMoves env call p (resolveFetch p id) := by
  rw [resolveFetch]
  split
  · exact .refl
  next f found => exact PoolMoves.one (.drop f (mem_of_lookup found))

lemma adoptable_some {body : List UInt8}
    (adopts : adoptable p id size lent shared = some (f, body)) :
    p.delivering = some f ∧ f.data = some body ∧ f.id = id := by
  rw [adoptable] at adopts
  split at adopts
  · cases adopts
  rename_i g delivering
  split at adopts
  · cases adopts
  rename_i data buffered
  split at adopts
  next accepted =>
    cases adopts
    exact ⟨delivering, buffered, accepted.2.2.2⟩
  cases adopts

/-- Retiring bodies removes no object, adds none and does not touch the
fetches. -/
lemma retirePayload_same (p : Pool) (o : Object) :
    (retirePayload p o).objects.map Object.id = p.objects.map Object.id ∧
      (retirePayload p o).pending = p.pending := by
  have dropped : (dropPayload p o).objects.map Object.id = p.objects.map Object.id ∧
      (dropPayload p o).pending = p.pending := by
    rw [dropPayload]
    split
    · exact ⟨rfl, rfl⟩
    exact ⟨map_alter fun _ => rfl, rfl⟩
  refine ⟨Eq.trans ?_ dropped.1, dropped.2⟩
  exact map_alter fun _ => rfl

lemma roomLoop_same (type : UInt8) (size : Nat) :
    (roomLoop env type size fuel p).2.objects.map Object.id = p.objects.map Object.id ∧
      (roomLoop env type size fuel p).2.pending = p.pending := by
  induction fuel generalizing p with
  | zero => exact ⟨rfl, rfl⟩
  | succ fuel ih =>
    rw [roomLoop]
    split
    · split
      · exact ⟨rfl, rfl⟩
      split
      next oldest =>
        obtain ⟨calls, rfl⟩ := oldestPayload_calls oldest
        exact ⟨rfl, rfl⟩
      rename_i o oldest
      obtain ⟨calls, rfl⟩ := oldestPayload_calls oldest
      have retired := retirePayload_same { p with calls := calls } o
      exact ⟨ih.1.trans retired.1, ih.2.trans retired.2⟩
    exact ⟨rfl, rfl⟩

lemma room_same (env : Env) (p : Pool) (type : UInt8) (size : Nat) :
    (room env p type size).2.objects.map Object.id = p.objects.map Object.id ∧
      (room env p type size).2.pending = p.pending := by
  rw [room]
  split
  · exact ⟨rfl, rfl⟩
  exact roomLoop_same type size

lemma findObject_none_of_ids (same : p'.objects.map Object.id = p.objects.map Object.id)
    (absent : findObject p id = none) : findObject p' id = none := by
  rw [findObject_none] at absent ⊢
  intro o mem equal
  have listed : o.id ∈ p.objects.map Object.id := same ▸ List.mem_map_of_mem mem
  obtain ⟨old, inObjects, sameId⟩ := List.mem_map.mp listed
  exact absent old inObjects (sameId.trans equal)

lemma offer_moves (p : Pool) (type : UInt8) (bytes : List UInt8) (lent shared : Bool)
    (expires now : UInt64) :
    PoolMoves env call p (offer env p type bytes lent shared expires now).2 := by
  simp only [offer]
  split
  · exact .refl
  rename_i checked
  simp only [not_or, not_lt, Bool.not_eq_false] at checked
  split
  · exact PoolMoves.one .consult
  have pruned : PoolMoves env call p (wgPrune p.consulted now.toNat) :=
    (PoolMoves.one .consult).trans (wgPrune_moves _ _)
  generalize wgPrune p.consulted now.toNat = q at pruned ⊢
  split
  next o found =>
    split
    · exact pruned
    rename_i body
    exact (pruned.tail (.lower o (mem_of_findObject found) body _)).trans (resolveFetch_moves _ _)
  rename_i absent
  have asked : PoolMoves env call p q.consulted := pruned.tail .consult
  split
  · exact asked
  split
  next f body adopts =>
    obtain ⟨delivering, buffered, same⟩ := adoptable_some adopts
    have granted : PoolMoves env call p q.consulted.consulted := asked.tail .consult
    split
    · exact granted
    refine (granted.tail ?_).trans (resolveFetch_moves _ _)
    exact .adopt f _ body delivering buffered same rfl absent rfl rfl rfl
  have roomMoves := room_moves env call q.consulted type bytes.length
  have ids := room_same env q.consulted type bytes.length
  split
  next q' full =>
    rw [full] at roomMoves
    exact asked.trans roomMoves.1
  rename_i q' fits
  rw [fits] at roomMoves ids
  have granted := (asked.trans roomMoves.1).tail .consult
  split
  · exact granted
  have copied : PoolMoves env call p (if shared then q'.consulted else q'.consulted.consulted) := by
    split
    · exact granted
    exact granted.tail .consult
  split
  · exact copied
  refine (copied.tail ?_).trans (resolveFetch_moves _ _)
  have absent' := findObject_none_of_ids ids.1 absent
  have stored : StoredOk env { type := type, hash := env.digest type bytes } bytes :=
    ⟨checked.2.2.2, checked.1, checked.2.1, rfl⟩
  cases shared with
  | true | false => exact .enlist _ bytes rfl absent' rfl rfl rfl (roomMoves.2.2 rfl) stored

lemma runCompletion_moves (body : List UInt8) (callback : Completion) (p : Pool) :
    PoolMoves env call p (runCompletion env body callback p).2 := by
  induction callback generalizing p with
  | finish result => exact .refl
  | offer type bytes shared expires now next ih =>
    exact (offer_moves p type _ _ shared expires now).trans (ih _ _)

lemma endDelivery_moves (p : Pool) (result : Int) :
    PoolMoves env call p (endDelivery p result).2 := by
  simp only [endDelivery]
  split
  · exact .refl
  rename_i f delivering
  split
  next born accepted => exact PoolMoves.one (.settle f born delivering accepted)
  rename_i open_
  have linked : PoolMoves env call p (relinked p f) := PoolMoves.one (.relink f delivering open_)
  split
  · exact linked
  exact linked.tail (.drop f (.head _))

lemma endDelivery_delivering (p : Pool) (result : Int) :
    (endDelivery p result).2.delivering = none := by
  simp only [endDelivery]
  split
  · assumption
  split
  · exact (dropFetch_frame _ _).delivering
  split
  · rfl
  exact (dropFetch_frame _ _).delivering

lemma deliver_moves (calm : p.delivering = none) (mem : f ∈ p.pending)
    (full : f.full = true) : PoolMoves env call p (deliver env p f).2 := by
  exact ((PoolMoves.one (.deliver f mem full calm)).trans (runCompletion_moves _ _ _)).trans
    (endDelivery_moves _ _)

lemma deliver_delivering (p : Pool) (f : Fetch) : (deliver env p f).2.delivering = none :=
  endDelivery_delivering _ _

/-! ## Claims -/

lemma emit_moves (p : Pool) (owner : Nat) (m : Message)
    (quiet : (emit env p owner m).1 ≠ 0 ∨ m.op = .wgUnavailable) :
    PoolMoves env call p (emit env p owner m).2 :=
  (PoolMoves.one .consult).tail (.report owner m _ quiet)

variable {s : Session}

lemma claim_moves (calm : p.delivering = none) (positive : s.owner ≠ 0)
    (mem : f ∈ p.pending) (now : Nat) : PoolMoves env call p (claim env p s f now).2 := by
  simp only [claim]
  split
  · exact .refl
  rename_i claimable
  simp only [not_or, not_not] at claimable
  split
  · exact .refl
  rename_i supplied
  rw [Bool.not_eq_false] at supplied
  have asked : PoolMoves env call p p.consulted := PoolMoves.one .consult
  split
  · exact asked
  have asked' : PoolMoves env call p p.consulted.consulted := asked.tail .consult
  split
  · exact asked'
  split
  · exact asked'
  rename_i admitted
  rw [Bool.not_eq_false] at admitted
  split
  next sent => exact (asked'.tail .burnRequest).trans (emit_moves _ _ _ (.inl sent))
  rename_i sent
  rw [not_not] at sent
  have accepted : PoolMoves env call p _ := (asked'.tail .consult).tail
    (.claim s f now mem claimable.1 positive supplied admitted calm)
  simp only [emit] at sent ⊢
  rw [sent]
  exact accepted

lemma claim_frame (env : Env) (p : Pool) (s : Session) (f : Fetch) (now : Nat) :
    Frame p (claim env p s f now).2 := by
  simp only [claim]
  repeat' split
  all_goals exact ⟨rfl, rfl, rfl, rfl⟩

lemma claimLoop_moves (positive : s.owner ≠ 0) (now : Nat) (ids : List Id)
    (calm : p.delivering = none) : PoolMoves env call p (claimLoop env s now ids p).2 := by
  induction ids generalizing p with
  | nil => exact .refl
  | cons id rest ih =>
    rw [claimLoop]
    split
    · exact ih calm
    rename_i f found
    have moves : PoolMoves env call p (claim env p s f now).2 :=
      claim_moves calm positive (mem_of_lookup found) now
    have frame := claim_frame env p s f now
    simp only
    split
    · exact moves
    exact moves.trans (ih (frame.delivering.trans calm))

lemma claimPending_moves (positive : s.owner ≠ 0) (calm : p.delivering = none)
    (now : Nat) : PoolMoves env call p (claimPending env p s now).2 :=
  claimLoop_moves positive now _ calm

lemma claimLoop_frame (env : Env) (s : Session) (now : Nat) (ids : List Id) (p : Pool) :
    Frame p (claimLoop env s now ids p).2 := by
  induction ids generalizing p with
  | nil => exact Frame.refl p
  | cons id rest ih =>
    rw [claimLoop]
    split
    · exact ih p
    rename_i f _
    have frame : Frame p (claim env p s f now).2 := claim_frame env p s f now
    simp only
    split
    · exact frame
    exact frame.trans (ih _)

/-! ## Hints -/

lemma unbuffer_pending (p : Pool) (f : Fetch) : (unbuffer p f).pending = p.pending := by
  rw [unbuffer]
  split <;> rfl

lemma fetch?_dropFetch (absent : p.fetch? id = none) (f : Fetch) :
    (dropFetch p f).fetch? id = none := by
  rw [Pool.fetch?, lookup_eq_none] at absent ⊢
  intro g inPending
  rw [dropFetch, Pool.removeFetch, unbuffer_pending] at inPending
  exact absent g (mem_erase.mp inPending).1

lemma retireHint_moves (calm : p.delivering = none) (absent : p.fetch? id = none) (type : UInt8) :
    PoolMoves env call p (retireHint p type) ∧ (retireHint p type).delivering = none ∧
      (retireHint p type).fetch? id = none := by
  rw [retireHint]
  split
  · split
    · exact ⟨.refl, calm, absent⟩
    rename_i f found
    exact ⟨PoolMoves.one (.drop f (List.mem_of_find?_eq_some found)),
      (dropFetch_frame p f).delivering.trans calm, fetch?_dropFetch absent f⟩
  exact ⟨.refl, calm, absent⟩

lemma retireHint_frame (p : Pool) (type : UInt8) : Frame p (retireHint p type) := by
  rw [retireHint]
  split
  · split
    · exact Frame.refl p
    exact dropFetch_frame p _
  exact Frame.refl p

lemma makeFetch_frame (env : Env) (p : Pool) (id : Id) : Frame p (makeFetch env p id).2 := by
  simp only [makeFetch]
  split
  · exact Frame.refl p
  have retired := retireHint_frame p id.type
  split
  · exact retired
  split
  all_goals exact retired.trans ⟨rfl, rfl, rfl, rfl⟩

lemma addSupplier_frame (env : Env) (p : Pool) (id : Id) (owner now : Nat) :
    Frame p (addSupplier env p id owner now).2 := by
  simp only [addSupplier]
  split
  · exact Frame.refl p
  repeat' split
  all_goals exact ⟨rfl, rfl, rfl, rfl⟩

/-- A new fetch is prepared in a pool that has none for the digest. -/
lemma makeFetch_spec (env : Env) (call : Call) (calm : p.delivering = none) (id : Id) :
    ((makeFetch env p id).1 = false ∧ PoolMoves env call p (makeFetch env p id).2) ∨
      (makeFetch env p id = (true, p) ∧ ∃ f, p.fetch? id = some f) ∨
      ∃ q, PoolMoves env call p q ∧ q.delivering = none ∧ q.fetch? id = none ∧
        makeFetch env p id = (true, { q with
          pending := q.pending ++ [{ id := id }], pendingCount := q.pendingCount + 1 }) := by
  simp only [makeFetch]
  split
  next f found => exact .inr (.inl ⟨rfl, f, found⟩)
  rename_i absent
  have retired : PoolMoves env call p (retireHint p id.type) ∧ _ :=
    retireHint_moves calm absent id.type
  obtain ⟨moves, calm', absent'⟩ := retired
  split
  · exact .inl ⟨rfl, moves⟩
  split
  · exact .inl ⟨rfl, moves.tail .consult⟩
  exact .inr (.inr ⟨_, moves.tail .consult, calm', absent', rfl⟩)

lemma alter_append_new (absent : p.fetch? id = none) (f : Fetch) (same : f.id = id) :
    alter Fetch.id id change (p.pending ++ [f]) = p.pending ++ [change f] := by
  have old : alter Fetch.id id change p.pending = p.pending :=
    alter_of_absent (lookup_eq_none.mp absent)
  rw [alter] at old
  rw [alter, List.map_append, old]
  simp [same]

lemma addSupplier_existing {owner : Nat} (positive : owner ≠ 0) (id : Id) (now : Nat) :
    PoolMoves env call p (addSupplier env p id owner now).2 := by
  simp only [addSupplier]
  split
  · exact .refl
  rename_i f found
  split
  · exact PoolMoves.one (.renew id owner now)
  rename_i absent
  split
  · exact .refl
  split
  · exact PoolMoves.one .consult
  cases key_of_lookup found
  refine (PoolMoves.one .consult).tail
    (.supply f owner now positive (mem_of_lookup found) ?_ (by omega))
  simpa using absent

lemma addSupplier_new (positive : owner ≠ 0) (calm : p.delivering = none)
    (absent : p.fetch? id = none) (now : Nat) : PoolMoves env call p (addSupplier env { p with
      pending := p.pending ++ [{ id := id }], pendingCount := p.pendingCount + 1 } id owner now).2 := by
  have found : Pool.fetch? { p with
      pending := p.pending ++ [{ id := id }], pendingCount := p.pendingCount + 1 } id =
      some { id := id } := by
    rw [Pool.fetch?, lookup, List.find?_append]
    rw [Pool.fetch?, lookup] at absent
    rw [absent]
    simp
  have asked : PoolMoves env call p p.consulted := PoolMoves.one .consult
  simp only [addSupplier, found, List.any_nil, Bool.false_eq_true, if_false, List.length_nil]
  rw [if_neg (by omega)]
  split
  next starved => exact asked.tail (.orphan id absent calm ⟨_, starved⟩)
  have hinted := asked.tail (PoolMove.hint id owner now positive absent calm)
  rw [Pool.modifyFetch]
  simp only [Pool.consulted]
  rw [alter_append_new absent { id := id } rfl]
  exact hinted

lemma receiveHave_moves (calm : p.delivering = none) (positive : s.owner ≠ 0)
    (id : Id) (now : Nat) : PoolMoves env call p (receiveHave env p s id now).2 := by
  simp only [receiveHave]
  split
  · exact .refl
  have asked : PoolMoves env call p p.consulted := PoolMoves.one .consult
  split
  · exact asked
  have supplied : (makeFetch env p.consulted id).1 = true →
      PoolMoves env call p (addSupplier env (makeFetch env p.consulted id).2 id s.owner now).2 := by
    intro made
    rcases makeFetch_spec env call (show p.consulted.delivering = none from calm) id with
      ⟨failed, _⟩ | ⟨same, _⟩ | ⟨q, moves, calm', absent, same⟩
    · rw [made] at failed
      cases failed
    · rw [same]
      exact asked.trans (addSupplier_existing positive id now)
    rw [same]
    exact (asked.trans moves).trans (addSupplier_new positive calm' absent now)
  split
  next q failed =>
    rcases makeFetch_spec env call (show p.consulted.delivering = none from calm) id with
      ⟨_, moves⟩ | ⟨same, _⟩ | ⟨q, moves, calm', absent, same⟩
    · rw [failed] at moves
      exact asked.trans moves
    · rw [same] at failed
      cases failed
    rw [same] at failed
    cases failed
  rename_i q made
  rw [made] at supplied
  have moves := supplied rfl
  have frame := makeFetch_frame env p.consulted id
  rw [made] at frame
  have frame' := frame.trans (addSupplier_frame env q id s.owner now)
  split
  next q' full =>
    rw [full] at moves
    exact moves
  rename_i q' ok
  rw [ok] at moves frame'
  exact moves.trans (claimPending_moves positive (frame'.delivering.trans calm) now)

/-! ## Data -/

/-- What `wg_validate` has checked of a chunk. -/
structure ChunkOk (m : Message) : Prop where
  request : m.request ≠ 0
  total : m.total ≤ objectMax
  offset : m.offset < m.total
  aligned : m.offset % chunk = 0
  size : m.data.length = min (m.total - m.offset) chunk

variable {m : Message}

lemma chunkOk_of_valid (valid : wgValidate m = 0) (op : m.op = .wgData) : ChunkOk m := by
  simp only [wgValidate, op, knownOp, Bool.true_eq_false, if_false] at valid
  split at valid
  · cases valid
  split at valid
  · cases valid
  rename_i fields
  simp only [not_or, not_lt, not_le, ne_eq, not_not] at fields
  split at valid
  next size => exact ⟨fields.1, fields.2.2.1, fields.2.2.2.1, fields.2.2.2.2, size⟩
  cases valid

lemma ChunkOk.valid (ok : ChunkOk m) (op : m.op = .wgData)
    (known : knownType m.id.type = true) : wgValidate m = 0 := by
  have fields : ¬ (m.request = 0 ∨ m.total = 0 ∨ objectMax < m.total ∨ m.total ≤ m.offset ∨
      m.offset % chunk ≠ 0) := by
    rintro (zero | empty | large | outside | unaligned)
    · exact ok.request zero
    · exact absurd ok.offset (by omega)
    · exact absurd ok.total (by omega)
    · exact absurd ok.offset (by omega)
    exact unaligned ok.aligned
  simp only [wgValidate, op, knownOp, known, Bool.true_eq_false, if_false]
  rw [if_neg fields, if_pos ok.size]

lemma ChunkOk.positive (ok : ChunkOk m) : 0 < m.data.length := by
  have size := ok.size
  have offset := ok.offset
  have literal : chunk = 1024 := rfl
  omega

lemma fetch?_append (keys : Keys p) (mem : f ∈ p.pending) (data : List UInt8) (now : Nat) :
    (p.modifyFetch f.id (Fetch.append data now)).fetch? f.id = some (f.append data now) := by
  have altered : (p.modifyFetch f.id (Fetch.append data now)).fetch? f.id =
      (p.fetch? f.id).map fun g => if g.id = f.id then g.append data now else g :=
    lookup_alter fun _ => rfl
  rw [altered, Pool.fetch?, lookup_of_mem keys.pending mem]
  simp

lemma Fetch.size_append (data : List UInt8) (now : Nat) (buffered : f.data ≠ none) :
    (f.append data now).size = f.size + data.length := by
  cases held : f.data with
  | none => exact absurd held buffered
  | some bytes => simp [Fetch.append, Fetch.size, held]

lemma receiveChunk_moves (keys : Keys p) (calm : p.delivering = none)
    (mem : f ∈ p.pending) (buffered : f.data ≠ none)
    (received : call = .receive f.owner m now) (valid : wgValidate m = 0) (op : m.op = .wgData)
    (same : m.id = f.id) (request : f.request = m.request) (offset : m.offset = f.size)
    (total : f.total = 0 ∨ f.total = m.total) :
    PoolMoves env call p (receiveChunk env p f m now.toNat).2 := by
  have found := fetch?_append keys mem m.data now.toNat
  have answers : Answers call f m := ⟨⟨now, received⟩, valid, op, same, request.symm, offset⟩
  have extend := fun checked =>
    @PoolMove.extend env _ _ f m now.toNat mem buffered answers total checked
  simp only [receiveChunk, found]
  split
  next incomplete =>
    refine PoolMoves.one (extend ?_)
    intro full
    simp only [Fetch.full, Bool.and_eq_true, beq_iff_eq] at full
    exact absurd full.2 incomplete
  rename_i complete
  rw [not_not] at complete
  split
  · -- The rejected body is reset before its supplier goes.
    simp only [dropSupplier, if_true]
    refine ((PoolMoves.one .consult).tail (.reject f m.data now.toNat mem)).tail
      (.trim f.id (fun _ q => q.owner ≠ f.owner) ?_)
    intro g inPending sameId owned
    obtain ⟨old, _, equal⟩ := mem_alter.mp inPending
    split at equal
    · rw [← equal] at owned
      exact absurd rfl owned
    rename_i different
    rw [equal] at different
    exact absurd sameId different
  rename_i accepted
  simp only [not_or, Bool.not_eq_false, ne_eq, not_not] at accepted
  have isFull : (f.append m.data now.toNat).full = true := by
    have size := Fetch.size_append m.data now.toNat buffered
    have positive := (chunkOk_of_valid valid op).positive
    simp only [Fetch.full, Bool.and_eq_true, beq_iff_eq, bne_iff_ne, ne_eq]
    refine ⟨⟨?_, ?_⟩, complete⟩
    · simpa [Fetch.append, Option.isSome_iff_ne_none] using buffered
    intro empty
    omega
  have moves := (PoolMoves.one (extend fun _ => accepted.2)).tail .consult
  exact moves.trans (deliver_moves calm (mem_alter_self mem) isFull)

lemma startBuffer_frame (env : Env) (p : Pool) (f : Fetch) (total : Nat) :
    Frame p (startBuffer env p f total).2 := by
  have frame := (room_moves env (.reclaim 0) p f.id.type total).2.1
  simp only [startBuffer]
  split
  next full =>
    rw [full] at frame
    exact frame
  rename_i fits
  rw [fits] at frame
  split
  all_goals exact frame.trans ⟨rfl, rfl, rfl, rfl⟩

lemma startBuffer_moves (mem : f ∈ p.pending) (empty : f.data = none) (owned : f.owner ≠ 0)
    (positive : total ≠ 0) (answers : Answers call f m) (isTotal : total = m.total) :
    PoolMoves env call p (startBuffer env p f total).2 ∧
      ((startBuffer env p f total).1 = false → (startBuffer env p f total).2.pending = p.pending) ∧
      ((startBuffer env p f total).1 = true → (startBuffer env p f total).2.pending =
          alter Fetch.id f.id (fun f => { f with data := some [], total := total }) p.pending) := by
  have roomMoves := room_moves env call p f.id.type total
  have roomSame := room_same env p f.id.type total
  simp only [startBuffer]
  split
  next full =>
    rw [full] at roomMoves roomSame
    exact ⟨roomMoves.1, fun _ => roomSame.2, by simp⟩
  rename_i q fits
  rw [fits] at roomMoves roomSame
  split
  · exact ⟨roomMoves.1.tail .consult, fun _ => roomSame.2, by simp⟩
  refine ⟨(roomMoves.1.tail .consult).tail (.buffer f total ?_ empty owned positive
    (roomMoves.2.2 rfl) m answers isTotal), by simp, fun _ => ?_⟩
  · exact roomSame.2 ▸ mem
  exact congrArg (alter Fetch.id f.id _) roomSame.2

lemma receiveData_moves (keys : Keys p) (calm : p.delivering = none)
    (mem : f ∈ p.pending) (owned : f.owner ≠ 0)
    (received : call = .receive f.owner m now) (valid : wgValidate m = 0) (op : m.op = .wgData)
    (same : m.id = f.id) (request : f.request = m.request) :
    PoolMoves env call p (receiveData env p f m now.toNat).2 := by
  simp only [receiveData]
  split
  · exact .refl
  rename_i fits
  simp only [not_or, not_and, ne_eq, not_not] at fits
  split
  next buffered =>
    rw [Option.isSome_iff_ne_none] at buffered
    exact receiveChunk_moves keys calm mem buffered received valid op same request fits.1
      (or_iff_not_imp_left.mpr fits.2)
  rename_i empty
  rw [Bool.not_eq_true, Option.isSome_eq_false_iff, Option.isNone_iff_eq_none] at empty
  have positive : m.total ≠ 0 := by
    have offset := (chunkOk_of_valid valid op).offset
    omega
  have frame := startBuffer_frame env p f m.total
  have buffering : PoolMoves env call p (startBuffer env p f m.total).2 ∧ _ :=
    startBuffer_moves mem empty owned positive
      ⟨⟨now, received⟩, valid, op, same, request.symm, fits.1⟩ rfl
  split
  next q full =>
    rw [full] at buffering
    have inPending : f ∈ q.pending := (buffering.2.1 rfl).symm ▸ mem
    exact buffering.1.trans
      (dropSupplier_moves (buffering.1.keys keys) inPending f.owner)
  rename_i q started
  rw [started] at buffering frame
  have pending := buffering.2.2 rfl
  let g : Fetch := { f with data := some [], total := m.total }
  have inPending : g ∈ q.pending := by
    rw [show q.pending = _ from pending]
    exact mem_alter_self mem
  have offset : m.offset = g.size := by
    rw [fits.1, Fetch.size, empty]
    rfl
  have chunked : PoolMoves env call q (receiveChunk env q g m now.toNat).2 :=
    receiveChunk_moves (buffering.1.keys keys) (frame.delivering.trans calm) inPending
      (by simp [g]) received valid op same request offset (.inr rfl)
  exact buffering.1.trans chunked

end WendyLite.Gossip
