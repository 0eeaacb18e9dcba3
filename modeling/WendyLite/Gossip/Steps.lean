import WendyLite.Gossip.Refinement

/-! # Runs are sequences of moves -/

namespace WendyLite.Gossip

open KeyedList Relation List

variable {env : Env} {call : Call} {p p' : Pool} {w w' : World} {s : Session}

/-! ## Sessions -/

structure Owners (w : World) : Prop where
  distinct : (w.sessions.map Session.owner).Nodup
  each : ∀ s ∈ w.sessions, s.owner ≠ 0 ∧ s.owner ≤ w.pool.nextOwner

lemma PoolMove.fixed (move : PoolMove env call p p') : p'.nextOwner = p.nextOwner ∧
    p'.config = p.config ∧ p.nextRequest ≤ p'.nextRequest := by
  have payload (p : Pool) (o : Object) : (dropPayload p o).nextOwner = p.nextOwner ∧
      (dropPayload p o).config = p.config ∧ p.nextRequest ≤ (dropPayload p o).nextRequest := by
    rw [dropPayload]
    split <;> exact ⟨rfl, rfl, le_rfl⟩
  have buffer (p : Pool) (f : Fetch) : (unbuffer p f).nextOwner = p.nextOwner ∧
      (unbuffer p f).config = p.config ∧ p.nextRequest ≤ (unbuffer p f).nextRequest := by
    rw [unbuffer]
    split <;> exact ⟨rfl, rfl, le_rfl⟩
  cases move with
  | burnRequest | claim => exact ⟨rfl, rfl, Nat.le_succ _⟩
  | dropBody o | retire o => exact payload p o
  | drop f | reset f => exact buffer p f
  | reject f data now => exact buffer (p.modifyFetch f.id _) _
  | settle f born => exact buffer (unpinned (relinked p f) born) f
  | trim id keep =>
    rw [dropIfUnsupplied]
    split
    · exact ⟨rfl, rfl, le_rfl⟩
    split
    · exact buffer (p.modifyFetch id _) _
    exact ⟨rfl, rfl, le_rfl⟩
  | _ => exact ⟨rfl, rfl, le_rfl⟩

lemma Owners.putSession (owners : Owners w) (same : p.nextOwner = w.pool.nextOwner)
    (mem : s ∈ w.sessions) {next : Session} (sameOwner : next.owner = s.owner) :
    Owners (w.putSession p next) where
  distinct := by
    have listed : (w.putSession p next).sessions.map Session.owner =
        w.sessions.map Session.owner := by
      rw [World.putSession, alter, List.map_map]
      apply map_congr_left
      intro old _
      simp only [Function.comp_apply]
      split
      next equal => exact equal.symm
      rfl
    exact listed ▸ owners.distinct
  each old inSessions := by
    obtain ⟨before, inBefore, equal⟩ := mem_alter.mp inSessions
    rw [World.putSession]
    split at equal
    · rw [← equal, same, sameOwner]
      exact owners.each s mem
    rw [← equal, same]
    exact owners.each before inBefore

lemma Move.owners (move : Move env call w w') (owners : Owners w) : Owners w' := by
  cases move with
  | pool move => exact ⟨owners.distinct, fun s mem => move.fixed.1 ▸ owners.each s mem⟩
  | openSession type =>
    refine ⟨?_, ?_⟩
    · rw [map_append]
      refine nodup_append.mpr ⟨owners.distinct, by simp, ?_⟩
      intro owner listed other isNew same
      obtain ⟨old, mem, rfl⟩ := mem_map.mp listed
      have isLast : other = w.pool.nextOwner + 1 := by simpa using isNew
      have bound := (owners.each old mem).2
      omega
    intro s mem
    show s.owner ≠ 0 ∧ s.owner ≤ w.pool.nextOwner + 1
    obtain old | isNew := mem_append.mp mem
    · have bound := owners.each s old
      omega
    rw [mem_singleton.mp isNew]
    simp
  | leave s mem =>
    exact ⟨nodup_erase owners.distinct, fun s inRest => owners.each s (mem_erase.mp inRest).1⟩
  | startTransfer _ _ _ _ _ inSessions | sendChunk _ _ _ _ _ inSessions
  | sendLast _ _ _ _ _ inSessions | endTransfer _ _ _ inSessions | announce _ _ inSessions =>
    refine owners.putSession ?_ inSessions ?_ <;> rfl

lemma Move.keys (move : Move env call w w') (keys : Keys w.pool) : Keys w'.pool := by
  cases move with
  | pool move => exact move.keys keys
  | openSession | sendChunk | announce => exact { keys with }
  | leave s => exact keys
  | startTransfer s o m body now =>
    have changed : Keys (w.pool.modifyObject o.born fun o => { o with refs := o.refs + 1 }) :=
      keys.modifyObject o.born (fun _ => rfl) fun _ => rfl
    exact { changed with }
  | sendLast _ t | endTransfer _ t =>
    have changed : Keys (unpinned w.pool t.object) :=
      keys.modifyObject t.object (fun _ => rfl) fun _ => rfl
    exact { changed with }

lemma Moves.owners (moves : Moves env call w w') (owners : Owners w) : Owners w' := by
  induction moves with
  | refl => exact owners
  | tail _ move ih => exact move.owners ih

lemma Moves.keys (moves : Moves env call w w') (keys : Keys w.pool) : Keys w'.pool := by
  induction moves with
  | refl => exact keys
  | tail _ move ih => exact move.keys ih

/-! ## Moves with sessions -/

lemma Moves.of_pool (moves : PoolMoves env call p p') :
    Moves env call { pool := p, sessions := sessions } { pool := p', sessions := sessions } := by
  induction moves with
  | refl => exact .refl
  | tail _ move ih => exact ih.tail (.pool move)

lemma putSession_self (owners : Owners w) (mem : s ∈ w.sessions) (p : Pool) :
    w.putSession p s = { w with pool := p } := by
  have same : alter Session.owner s.owner (fun _ => s) w.sessions = w.sessions := by
    rw [alter]
    conv_rhs => rw [← map_id w.sessions]
    apply map_congr_left
    intro old inSessions
    split
    next equal => exact eq_of_key_eq owners.distinct mem inSessions equal.symm
    rfl
  rw [World.putSession, same]

lemma putSession_putSession (p p' : Pool) {next : Session} (same : next.owner = s.owner) :
    (w.putSession p s).putSession p' next = w.putSession p' next := by
  simp only [World.putSession, World.mk.injEq, true_and]
  rw [alter, alter, alter, List.map_map]
  apply map_congr_left
  intro old _
  simp only [Function.comp_apply]
  split <;> simp_all

lemma mem_putSession (mem : s ∈ w.sessions) (p : Pool) {next : Session}
    (same : next.owner = s.owner) : next ∈ (w.putSession p next).sessions := by
  rw [World.putSession]
  exact mem_alter.mpr ⟨s, mem, if_pos same.symm⟩

/-- What a call must find: unique keys, and no delivery going on. -/
structure Ready (w : World) : Prop where
  keys : Keys w.pool
  owners : Owners w
  calm : w.pool.delivering = none

lemma Moves.putSession_of_pool (owners : Owners w) (mem : s ∈ w.sessions)
    (moves : PoolMoves env call w.pool p) : Moves env call w (w.putSession p s) := by
  rw [putSession_self owners mem]
  exact Moves.of_pool moves

/-- Moves within the pool, and then at most one of its sessions. -/
def ThenOne (env : Env) (call : Call) (w w' : World) : Prop :=
  ∃ p, PoolMoves env call w.pool p ∧
    (w' = { w with pool := p } ∨ Move env call { w with pool := p } w')

lemma ThenOne.moves (shape : ThenOne env call w w') : Moves env call w w' := by
  obtain ⟨p, moves, rfl | last⟩ := shape
  · exact Moves.of_pool moves
  exact (Moves.of_pool moves : Moves env call w { w with pool := p }).tail last

lemma ThenOne.of_pool (owners : Owners w) (mem : s ∈ w.sessions)
    (moves : PoolMoves env call w.pool p) : ThenOne env call w (w.putSession p s) :=
  ⟨p, moves, Or.inl (putSession_self owners mem p)⟩

lemma receiveWant_shape (owners : Owners w) (mem : s ∈ w.sessions)
    (received : call = .receive s.owner m now) (valid : wgValidate m = 0) (op : m.op = .wgWant)
    (ticked : p.clock = now.toNat) (moves : PoolMoves env call w.pool p) :
    ThenOne env call w
      (w.putSession (receiveWant env p s m now.toNat).2.1 (receiveWant env p s m now.toNat).2.2) := by
  have refusal : ThenOne env call w (w.putSession
      (emit env p s.owner { id := m.id, op := .wgUnavailable, request := m.request }).2 s) :=
    ThenOne.of_pool owners mem (moves.trans (emit_moves _ _ _ (Or.inr rfl)))
  simp only [receiveWant]
  split
  · exact ThenOne.of_pool owners mem moves
  rename_i fresh
  split
  · exact refusal
  rename_i o found
  split
  · exact refusal
  rename_i body holds
  split
  · exact refusal
  rename_i serves
  simp only [not_or, not_le] at serves
  have asked := moves.tail .consult
  split
  · exact ThenOne.of_pool owners mem asked
  have live : p.consulted.clock < o.expires := by
    rw [show p.consulted.clock = now.toNat from ticked]
    exact serves.1
  have absent : ∀ t ∈ s.out, t.request ≠ m.request := by simpa using fresh
  exact ⟨p.consulted, asked, Or.inr (.startTransfer s o m body now mem
    (mem_of_findObject found) holds live received op (id_of_findObject found) absent valid)⟩

lemma dispatch_moves (ready : Ready w) (mem : s ∈ w.sessions)
    (received : call = .receive s.owner m now) (valid : wgValidate m = 0)
    (known : knownOp m.op = true) (pruned : p = wgPrune w.pool now.toNat) : Moves env call w
      (w.putSession (dispatch env p s m now.toNat).2.1 (dispatch env p s m now.toNat).2.2) := by
  have moves : PoolMoves env call w.pool p := pruned ▸ wgPrune_moves _ _
  have frame := wgPrune_frame w.pool now.toNat
  rw [← pruned] at frame
  have keys := moves.keys ready.keys
  have calm := frame.2.1.trans ready.calm
  have positive := (ready.owners.each s mem).1
  have lift := fun {p'} (more : PoolMoves env call p p') =>
    Moves.putSession_of_pool ready.owners mem (moves.trans more)
  simp only [dispatch]
  split
  · split
    · exact lift .refl
    next f found => exact lift (dropSupplier_moves keys (mem_of_lookup found) s.owner)
  · exact lift (receiveHave_moves calm positive m.id now.toNat)
  next op => exact (receiveWant_shape ready.owners mem received valid op frame.2.2.1 moves).moves
  rename_i notGone notHave notWant
  split
  · exact lift .refl
  rename_i f found
  split
  · exact lift .refl
  rename_i owned
  simp only [not_or, ne_eq, not_not] at owned
  split
  · exact lift (dropSupplier_moves keys (mem_of_lookup found) s.owner)
  rename_i notUnavailable
  have op : m.op = .wgData := by
    cases kind : m.op with
    | wgData => rfl
    | unknown code => rw [kind] at known; cases known
    | _ => simp_all
  exact lift (receiveData_moves keys calm (mem_of_lookup found) (owned.1 ▸ positive)
    (owned.1 ▸ received) valid op (key_of_lookup found).symm owned.2)

lemma wgReceive_moves (ready : Ready w) (mem : s ∈ w.sessions) (m : Message) (now : UInt64) :
    Moves env (.receive s.owner m now) w
      (w.putSession (wgReceive env w.pool s m now).2.1 (wgReceive env w.pool s m now).2.2) := by
  have same : Moves env (.receive s.owner m now) w (w.putSession w.pool s) :=
    Moves.putSession_of_pool ready.owners mem .refl
  simp only [wgReceive]
  split
  · exact same
  rename_i valid
  split
  · exact same
  rename_i known
  split
  · exact same
  rw [not_not] at valid
  rw [Bool.not_eq_false] at known
  exact dispatch_moves ready mem rfl valid known rfl

lemma wgReceive_shape (ready : Ready w) (mem : s ∈ w.sessions) {m : Message}
    (op : m.op = .wgWant) (now : UInt64) : ThenOne env (.receive s.owner m now) w
      (w.putSession (wgReceive env w.pool s m now).2.1 (wgReceive env w.pool s m now).2.2) := by
  have same : ThenOne env (.receive s.owner m now) w (w.putSession w.pool s) :=
    ThenOne.of_pool ready.owners mem .refl
  simp only [wgReceive]
  split
  · exact same
  rename_i valid
  split
  · exact same
  split
  · exact same
  rw [not_not] at valid
  simp only [dispatch, op]
  exact receiveWant_shape ready.owners mem rfl valid op (wgPrune_frame _ _).2.2.1
    (wgPrune_moves _ _)

/-! ## Polling -/

lemma serve_moves (owners : Owners w) (mem : s ∈ w.sessions) (ticked : p.clock = now)
    (moves : PoolMoves env call w.pool p) :
    Moves env call w (w.putSession (serve env p s now).2.1 (serve env p s now).2.2) := by
  have same := Moves.putSession_of_pool owners mem moves
  simp only [serve]
  split
  · exact same
  rename_i t rest out
  split
  · exact same
  rename_i o found
  split
  · have emitted : PoolMoves env call w.pool
        (emit env p s.owner { id := o.id, op := .wgUnavailable, request := t.request }).2 :=
      moves.trans (emit_moves _ _ _ (Or.inr rfl))
    split
    · exact Moves.putSession_of_pool owners mem emitted
    exact (Moves.of_pool emitted).tail (.endTransfer s t rest mem out)
  rename_i live
  rw [not_le, ← ticked] at live
  split
  next sent =>
    exact Moves.putSession_of_pool owners mem (moves.trans (emit_moves _ _ _ (Or.inl sent)))
  rename_i sent
  rw [not_not] at sent
  have asked : PoolMoves env call w.pool p.consulted := moves.tail .consult
  simp only [emit] at sent ⊢
  rw [sent]
  have before : Moves env call w { w with pool := p.consulted } := Moves.of_pool asked
  split
  next last =>
    exact before.tail (.sendLast s t rest o _ mem out (mem_of_lookup found)
      (key_of_lookup found) live rfl last)
  rename_i more
  exact before.tail (.sendChunk s t rest o _ mem out (mem_of_lookup found)
    (key_of_lookup found) live rfl more)

lemma wgPoll_moves (ready : Ready w) (mem : s ∈ w.sessions) (now : UInt64) : Moves env call w
      (w.putSession (wgPoll env w.pool s now).2.1 (wgPoll env w.pool s now).2.2) := by
  have pruned : PoolMoves env call w.pool (wgPrune w.pool now.toNat) := wgPrune_moves _ _
  have ticked := (wgPrune_frame w.pool now.toNat).2.2.1
  have calm := (wgPrune_frame w.pool now.toNat).2.1.trans ready.calm
  simp only [wgPoll]
  generalize wgPrune w.pool now.toNat = q at pruned ticked calm ⊢
  split
  next gone first =>
    split
    next sent =>
      exact Moves.putSession_of_pool ready.owners mem
        (pruned.trans (emit_moves _ _ _ (Or.inl sent)))
    rename_i sent
    rw [not_not] at sent
    have announced := (Moves.of_pool (pruned.tail .consult)).tail
      (.announce s gone mem first)
    simp only [emit] at sent ⊢
    rw [sent]
    exact announced
  have claimed : PoolMoves env call w.pool (claimPending env q s now.toNat).2 :=
    pruned.trans (claimPending_moves (ready.owners.each s mem).1 calm now.toNat)
  split
  · exact Moves.putSession_of_pool ready.owners mem claimed
  have frame := claimLoop_frame env s now.toNat (q.pending.map Fetch.id) q
  exact serve_moves ready.owners mem (frame.clock.trans ticked) claimed

/-! ## Closing -/

lemma closeTransfers_moves (owners : Owners w) (out : List Transfer) (mem : s ∈ w.sessions)
    (same : s.out = out) : Moves env call w (w.putSession (out.foldl closeTransfer w.pool)
      { s with out := [], serving := s.serving - out.length }) := by
  induction out generalizing w s with
  | nil =>
    have kept : { s with out := [], serving := s.serving - ([] : List Transfer).length } = s := by
      rw [length_nil, Nat.sub_zero, ← same]
    rw [kept]
    exact Moves.putSession_of_pool owners mem .refl
  | cons t rest ih =>
    have ended : Moves env call w _ := ReflTransGen.single (.endTransfer s t rest mem same)
    have others := ih (ended.owners owners) (mem_putSession mem _ rfl) rfl
    rw [putSession_putSession] at others
    · have counted : s.serving - (t :: rest).length = s.serving - 1 - rest.length := by
        rw [length_cons]
        omega
      rw [counted]
      exact ended.trans others
    rfl

lemma erase_putSession (w : World) (p : Pool) {next : Session} (owner : Nat)
    (same : next.owner = owner) : erase Session.owner owner (w.putSession p next).sessions =
      erase Session.owner owner w.sessions := by
  rw [World.putSession, same, erase, erase, alter, filter_map]
  have others : ∀ old ∈ w.sessions.filter
      ((fun s => decide (s.owner ≠ owner)) ∘ fun old => if old.owner = owner then next else old),
      (if old.owner = owner then next else old) = old := by
    intro old inRest
    rw [mem_filter] at inRest
    split
    next equal => simp [equal, same] at inRest
    rfl
  rw [map_congr_left others, map_id']
  apply filter_congr
  intro old _
  simp only [Function.comp_apply]
  split <;> simp_all

lemma wgClose_moves (ready : Ready w) (mem : s ∈ w.sessions) : Moves env call w
      { pool := wgClose w.pool s, sessions := erase Session.owner s.owner w.sessions } := by
  have closed : Moves env call w _ := closeTransfers_moves ready.owners s.out mem rfl
  have left := closed.tail (.leave _ (mem_putSession mem _ rfl) rfl)
  rw [erase_putSession] at left
  · have keys := Moves.keys left ready.keys
    refine left.trans (Moves.of_pool ?_)
    apply PoolMoves.foldl Keys
    · intro p id keys
      have moves : PoolMoves env call p (closeFetch s.owner p id) := closeFetch_moves keys s.owner id
      exact ⟨moves, moves.keys keys⟩
    exact keys
  rfl

/-! ## Calls -/

lemma resume_moves (ready : Ready w) (mem : f ∈ w.pool.pending) (full : f.full = true)
    (sessions : List Session) :
    Moves env call { w with sessions := sessions }
      { pool := (deliver env w.pool f).2, sessions := sessions } :=
  Moves.of_pool (deliver_moves ready.calm mem full)

/-- Every call is a sequence of moves. -/
lemma step_moves (ready : Ready w) (call : Call) : Moves env call w (step env w call).2 := by
  cases call with
  | openSession type =>
    simp only [step, wgOpen]
    split
    · exact .refl
    rename_i p s opened
    split at opened
    · cases opened
    cases opened
    exact ReflTransGen.single (.openSession type)
  | closeSession owner =>
    simp only [step]
    split
    · exact .refl
    rename_i s found
    cases key_of_lookup found
    exact wgClose_moves ready (mem_of_lookup found)
  | offer | offerShared => exact Moves.of_pool (offer_moves _ _ _ _ _ _ _)
  | receive owner m now =>
    simp only [step]
    split
    · exact .refl
    rename_i s found
    cases key_of_lookup found
    exact wgReceive_moves ready (mem_of_lookup found) m now
  | poll owner now =>
    simp only [step]
    split
    · exact .refl
    next s found => exact wgPoll_moves ready (mem_of_lookup found) now
  | prune now => exact Moves.of_pool (wgPrune_moves _ _)
  | reclaim wanted => exact Moves.of_pool (wgReclaim_moves _ _)
  | forget id =>
    refine Moves.of_pool (forget_moves ready.calm id ?_)
    intro absurd
    cases absurd
  | expire id => exact Moves.of_pool (forget_moves ready.calm id fun _ => rfl)
  | discard owner id =>
    simp only [step]
    split
    · exact .refl
    exact Moves.of_pool (wgDiscard_moves ready.keys _ id)
  | resume owner =>
    simp only [step, wgResume]
    split
    · exact .refl
    split
    · exact .refl
    rename_i f found
    have accepted := find?_some found
    rw [Bool.and_eq_true] at accepted
    exact resume_moves ready (mem_of_find?_eq_some found) accepted.2 w.sessions
  | resumeId owner id =>
    simp only [step, wgResumeId]
    split
    · exact .refl
    split
    · exact .refl
    rename_i f found
    have accepted := find?_some found
    rw [Bool.and_eq_true] at accepted
    exact resume_moves ready (mem_of_find?_eq_some found) accepted.2 w.sessions

/-! ## Deliveries end -/

lemma resolveFetch_frame (p : Pool) (id : Id) : Frame p (resolveFetch p id) := by
  rw [resolveFetch]
  split
  · exact Frame.refl p
  exact dropFetch_frame p _

lemma offer_calm (calm : p.delivering = none) (type : UInt8) (bytes : List UInt8)
    (lent shared : Bool) (expires now : UInt64) :
    (offer env p type bytes lent shared expires now).2.delivering = none := by
  simp only [offer]
  split
  · exact calm
  split
  · exact calm
  have pruned : (wgPrune p.consulted now.toNat).delivering = none :=
    (wgPrune_frame _ _).2.1.trans calm
  generalize wgPrune p.consulted now.toNat = q at pruned ⊢
  split
  · split
    · exact pruned
    exact (resolveFetch_frame _ _).delivering.trans pruned
  split
  · exact pruned
  split
  next f body adopts =>
    have delivering := (adoptable_some adopts).1
    rw [show q.consulted.delivering = none from pruned] at delivering
    cases delivering
  have frame := (room_moves env (.reclaim 0) q.consulted type bytes.length).2.1
  have calm' := frame.delivering.trans pruned
  split
  next full =>
    rw [full] at calm'
    exact calm'
  rename_i q' fits
  rw [fits] at calm'
  split
  · exact calm'
  have copied : (if shared then q'.consulted else q'.consulted.consulted).delivering = none := by
    split <;> exact calm'
  split
  · exact copied
  exact (resolveFetch_frame _ _).delivering.trans copied

lemma reclaimLoop_frame (wanted : Nat) (p : Pool) :
    Frame p (reclaimLoop env wanted fuel released p).2 := by
  induction fuel generalizing p released with
  | zero => exact Frame.refl p
  | succ fuel ih =>
    rw [reclaimLoop]
    split
    · split
      next oldest => exact oldestPayload_frame oldest
      rename_i q o oldest
      exact ((oldestPayload_frame oldest).trans (retirePayload_frame q o)).trans (ih _)
    exact Frame.refl p

lemma forget_frame (p : Pool) (id : Id) (keepRetired : Bool) :
    Frame p (forget p id keepRetired) := by
  simp only [forget]
  split
  · exact Frame.refl p
  rename_i o _
  split
  · exact Frame.refl p
  have lapsed : Frame p (p.modifyObject o.born fun o => { o with expires := 0 }) :=
    ⟨rfl, rfl, rfl, rfl⟩
  have dropped := lapsed.trans (dropPayload_frame _ o)
  split
  · exact dropped.trans ⟨rfl, rfl, rfl, rfl⟩
  exact dropped

lemma receiveHave_frame (p : Pool) (s : Session) (id : Id) (now : Nat) :
    Frame p (receiveHave env p s id now).2 := by
  simp only [receiveHave]
  split
  · exact Frame.refl p
  split
  · exact ⟨rfl, rfl, rfl, rfl⟩
  have made : Frame p (makeFetch env p.consulted id).2 :=
    (show Frame p p.consulted from ⟨rfl, rfl, rfl, rfl⟩).trans (makeFetch_frame _ _ _)
  split
  next failed =>
    rw [failed] at made
    exact made
  rename_i q ok
  rw [ok] at made
  have supplied := made.trans (addSupplier_frame env q id s.owner now)
  split
  next failed =>
    rw [failed] at supplied
    exact supplied
  rename_i q' ok'
  rw [ok'] at supplied
  exact supplied.trans (claimLoop_frame env s now _ q')

section

variable (calm : p.delivering = none)
include calm

lemma receiveChunk_calm (f : Fetch) (m : Message) (now : Nat) :
    (receiveChunk env p f m now).2.delivering = none := by
  simp only [receiveChunk]
  split
  · exact calm
  split
  · exact calm
  split
  · exact (dropSupplier_frame _ _ _).delivering.trans calm
  exact deliver_delivering _ _

lemma receiveData_calm (f : Fetch) (m : Message) (now : Nat) :
    (receiveData env p f m now).2.delivering = none := by
  simp only [receiveData]
  split
  · exact calm
  split
  · exact receiveChunk_calm calm f m now
  have frame := startBuffer_frame env p f m.total
  split
  next failed =>
    rw [failed] at frame
    exact (dropSupplier_frame _ _ _).delivering.trans (frame.delivering.trans calm)
  rename_i started
  rw [started] at frame
  exact receiveChunk_calm (frame.delivering.trans calm) f m now

lemma receiveWant_calm (s : Session) (m : Message) (now : Nat) :
    (receiveWant env p s m now).2.1.delivering = none := by
  simp only [receiveWant]
  repeat' split
  all_goals exact calm

lemma wgReceive_calm (s : Session) (m : Message) (now : UInt64) :
    (wgReceive env p s m now).2.1.delivering = none := by
  have pruned := (wgPrune_frame p now.toNat).2.1.trans calm
  simp only [wgReceive]
  split
  · exact calm
  split
  · exact calm
  split
  · exact calm
  simp only [dispatch]
  split
  · split
    · exact pruned
    exact (dropSupplier_frame _ _ _).delivering.trans pruned
  · exact (receiveHave_frame _ _ _ _).delivering.trans pruned
  · exact receiveWant_calm pruned s m _
  split
  · exact pruned
  split
  · exact pruned
  split
  · exact (dropSupplier_frame _ _ _).delivering.trans pruned
  exact receiveData_calm pruned _ m _

end

lemma serve_frame (env : Env) (p : Pool) (s : Session) (now : Nat) :
    Frame p (serve env p s now).2.1 := by
  simp only [serve]
  repeat' split
  all_goals exact ⟨rfl, rfl, rfl, rfl⟩

lemma wgPoll_frame (env : Env) (p : Pool) (s : Session) (now : UInt64) :
    Frame (wgPrune p now.toNat) (wgPoll env p s now).2.1 := by
  simp only [wgPoll]
  generalize wgPrune p now.toNat = q
  split
  · split <;> exact ⟨rfl, rfl, rfl, rfl⟩
  have claimed : Frame q (claimPending env q s now.toNat).2 := claimLoop_frame _ _ _ _ _
  split
  · exact claimed
  exact claimed.trans (serve_frame _ _ _ _)

lemma wgPoll_calm (calm : p.delivering = none) (s : Session) (now : UInt64) :
    (wgPoll env p s now).2.1.delivering = none :=
  (wgPoll_frame env p s now).delivering.trans ((wgPrune_frame p now.toNat).2.1.trans calm)

lemma wgClose_frame (p : Pool) (s : Session) : Frame p (wgClose p s) := by
  refine Frame.trans (Frame.foldl (fun p t => (show Frame p (closeTransfer p t) from ⟨rfl, rfl, rfl, rfl⟩)) s.out p) ?_
  apply Frame.foldl
  intro p id
  simp only [closeFetch]
  split
  · exact Frame.refl p
  refine Frame.trans ?_ (dropIfUnsupplied_frame _ _)
  split
  · refine Frame.trans ?_ (resetFetch_frame _ _)
    exact ⟨rfl, rfl, rfl, rfl⟩
  exact ⟨rfl, rfl, rfl, rfl⟩

lemma step_calm (calm : w.pool.delivering = none) (call : Call) :
    (step env w call).2.pool.delivering = none := by
  cases call with
  | openSession type =>
    simp only [step, wgOpen]
    split
    · exact calm
    rename_i opened
    split at opened
    · cases opened
    cases opened
    exact calm
  | closeSession owner =>
    simp only [step]
    split
    · exact calm
    exact (wgClose_frame _ _).delivering.trans calm
  | offer | offerShared => exact offer_calm calm _ _ _ _ _ _
  | receive owner m now =>
    simp only [step]
    split
    · exact calm
    exact wgReceive_calm calm _ m now
  | poll owner now =>
    simp only [step]
    split
    · exact calm
    exact wgPoll_calm calm _ now
  | prune now => exact (wgPrune_frame _ _).2.1.trans calm
  | reclaim wanted =>
    simp only [step, wgReclaim]
    split
    · exact (reclaimLoop_frame _ _).delivering.trans calm
    exact calm
  | forget | expire => exact (forget_frame _ _ _).delivering.trans calm
  | discard owner id =>
    simp only [step, wgDiscard]
    split
    · exact calm
    split
    · exact calm
    split
    · exact (dropSupplier_frame _ _ _).delivering.trans calm
    exact calm
  | resume owner =>
    simp only [step, wgResume]
    split
    · exact calm
    split
    · exact calm
    exact deliver_delivering _ _
  | resumeId owner id =>
    simp only [step, wgResumeId]
    split
    · exact calm
    split
    · exact calm
    exact deliver_delivering _ _

lemma step_ready (ready : Ready w) (call : Call) : Ready (step env w call).2 :=
  ⟨(step_moves ready call).keys ready.keys, (step_moves ready call).owners ready.owners,
    step_calm ready.calm call⟩

/-! ## Reachable pools -/

inductive Reachable (env : Env) (config : Config) : World → Prop
  | init {p : Pool} (accepted : wgInit config = some p) : Reachable env config { pool := p }
  | call {w : World} (before : Reachable env config w) (call : Call) :
      Reachable env config (step env w call).2

lemma wgInit_some (accepted : wgInit config = some p) :
    p = { config := config } := by
  rw [wgInit] at accepted
  split at accepted
  · cases accepted
  exact (Option.some.inj accepted).symm

lemma ready_init (config : Config) : Ready { pool := { config := config } } where
  keys := ⟨nodup_nil, by simp, nodup_nil, nodup_nil⟩
  owners := ⟨nodup_nil, by simp⟩
  calm := rfl

lemma Reachable.ready (reachable : Reachable env config w) : Ready w := by
  induction reachable with
  | init accepted => exact wgInit_some accepted ▸ ready_init config
  | call before call ih => exact step_ready ih call

lemma Reachable.run (reachable : Reachable env config w) (calls : List Call) :
    Reachable env config (run env w calls) := by
  induction calls generalizing w with
  | nil => exact reachable
  | cons call rest ih => exact ih (reachable.call call)

lemma Moves.induct (invariant : World → Prop)
    (step : ∀ w w', Keys w.pool → Owners w → Move env call w w' → invariant w → invariant w')
    (moves : Moves env call w w') (keys : Keys w.pool) (owners : Owners w)
    (holds : invariant w) : invariant w' := by
  induction moves with
  | refl => exact holds
  | tail before move ih =>
    exact step _ _ (Moves.keys before keys) (Moves.owners before owners) move ih

lemma Reachable.induct (invariant : World → Prop)
    (start : invariant { pool := { config := config } })
    (step : ∀ call w w', Keys w.pool → Owners w → Move env call w w' → invariant w → invariant w')
    (reachable : Reachable env config w) : invariant w := by
  induction reachable with
  | init accepted => exact wgInit_some accepted ▸ start
  | call before call ih =>
    exact Moves.induct invariant (step call) (step_moves before.ready call) before.ready.keys
      before.ready.owners ih

lemma Move.config (move : Move env call w w') : w'.pool.config = w.pool.config := by
  cases move with
  | pool move => exact move.fixed.2.1
  | _ => rfl

lemma Reachable.config {config : Config} (reachable : Reachable env config w) :
    w.pool.config = config :=
  reachable.induct (fun w => w.pool.config = config) rfl
    fun _ _ _ _ _ move holds => move.config.trans holds

/-! ## A pool at work -/

def generous : Env where
  allocate _ := true
  digest type bytes := Octets.ofList 32 (type :: bytes)
  identified _ := true
  emit _ _ := 0
  complete _ _ _ := .finish 0
  wantObject _ _ _ := true
  criticalObject _ _ := false
  knownObject _ _ := false
  protectedObject _ _ := false

def small : Config := { objects := 4, pending := 4, bytes := 4096, fifo := true }

lemma reachable_small (calls : List Call) :
    Reachable generous small (run generous { pool := { config := small } } calls) :=
  Reachable.run (.init rfl) calls

end WendyLite.Gossip
