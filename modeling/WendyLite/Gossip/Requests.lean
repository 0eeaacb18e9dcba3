import WendyLite.Gossip.Fetches
import WendyLite.Gossip.Serving

/-! # Requests

The requests of a pool have numbers that only grow, and a fetch that is owned waits
for the answer to a request that was sent. Whatever it holds is the beginning of
the body served under that request.
-/

namespace WendyLite.Gossip

open KeyedList Relation List

variable {env : Env} {call : Call} {p p' : Pool} {w w' : World} {s : Session} {config : Config}

/-! ## Numbers -/

def Ascending (messages : List Message) : Prop :=
  messages.Pairwise fun m m' => m.op = .wgWant → m'.op = .wgWant → m.request < m'.request

structure Requests (p : Pool) : Prop where
  ascending : ∀ owner, Ascending (sent owner p.log)
  bounded : ∀ owner, ∀ m ∈ sent owner p.log, m.op = .wgWant → m.request ≤ p.nextRequest
  asked : ∀ f ∈ p.fetches, f.owner ≠ 0 →
    { id := f.id, op := .wgWant, request := f.request } ∈ sent f.owner p.log

lemma mem_sent {log : List Effect} :
    m ∈ sent owner log ↔ .emitted owner m 0 ∈ log := by
  rw [sent, mem_filterMap]
  constructor
  · rintro ⟨effect, mem, isSent⟩
    cases effect with
    | emitted other m' result =>
      simp only [sentMessage] at isSent
      split at isSent
      next accepted =>
        cases isSent
        obtain ⟨rfl, rfl⟩ := accepted
        exact mem
      cases isSent
    | _ => cases isSent
  exact fun mem => ⟨_, mem, if_pos ⟨rfl, rfl⟩⟩

/-- What a move adds to the messages of a session: nothing that asks, or the next
request. -/
lemma PoolMove.asks (move : PoolMove env call p p') (owner : Nat) :
    ∃ more, sent owner p'.log = sent owner p.log ++ more ∧ ∀ m ∈ more, m.op = .wgWant →
        more = [m] ∧ m.request = p.nextRequest + 1 ∧ p'.nextRequest = p.nextRequest + 1 := by
  obtain same | ⟨effect, log, ofPool⟩ := move.logged
  · exact ⟨[], by rw [same, append_nil], by simp⟩
  refine ⟨sent owner [effect], by rw [log, sent_append], fun m mem isWant => ?_⟩
  cases (mem_singleton.mp (mem_sent.mp mem)).symm
  refine ⟨by rw [sent_emitted, if_pos rfl], ?_⟩
  obtain refused | isUnavailable | ⟨_, next⟩ := ofPool
  · exact absurd rfl refused
  · rw [isWant] at isUnavailable
    cases isUnavailable
  exact next

lemma Ascending.append_quiet (ascending : Ascending messages)
    (quiet : ∀ m ∈ more, m.op ≠ .wgWant) : Ascending (messages ++ more) := by
  refine pairwise_append.mpr ⟨ascending, ?_, ?_⟩
  · exact pairwise_of_forall_mem_list fun _ _ m mem _ isWant =>
      absurd isWant (quiet m mem)
  exact fun _ _ m mem _ isWant => absurd isWant (quiet m mem)

lemma PoolMove.requests (move : PoolMove env call p p') (keys : Keys p) (requests : Requests p) :
    Requests p' := by
  have later := move.fixed.2.2
  refine ⟨fun owner => ?_, fun owner m mem isWant => ?_, fun f mem owned => ?_⟩
  · obtain ⟨more, equal, asks⟩ := move.asks owner
    rw [equal]
    by_cases quiet : ∀ m ∈ more, m.op ≠ .wgWant
    · exact (requests.ascending owner).append_quiet quiet
    push Not at quiet
    obtain ⟨m, isNew, isWant⟩ := quiet
    obtain ⟨single, next, _⟩ := asks m isNew isWant
    rw [single]
    refine pairwise_append.mpr ⟨requests.ascending owner, pairwise_singleton _ _, ?_⟩
    intro m' before m'' isLast isWant' _
    rw [mem_singleton.mp isLast, next]
    exact Nat.lt_succ_of_le (requests.bounded owner m' before isWant')
  · obtain ⟨more, equal, asks⟩ := move.asks owner
    rw [equal] at mem
    obtain before | isNew := mem_append.mp mem
    · exact (requests.bounded owner m before isWant).trans later
    obtain ⟨_, next, last⟩ := asks m isNew isWant
    omega
  have kept : ∀ g ∈ p.fetches, g.owner ≠ 0 →
      { id := g.id, op := .wgWant, request := g.request } ∈ sent g.owner p'.log :=
    fun g inFetches owned =>
      mem_sent.mpr (move.logs.subset (mem_sent.mp (requests.asked g inFetches owned)))
  cases move.derived keys f mem with
  | same f inFetches | suppliers f inFetches | buffered f inFetches | extended f inFetches
  | adopted f inFetches => exact kept f inFetches owned
  | reset | fresh => exact absurd rfl owned
  | claimed f inFetches free owner now asked => exact mem_sent.mpr asked

lemma Requests.of_log (requests : Requests p) (pending : p'.pending = p.pending)
    (delivering : p'.delivering = p.delivering) (next : p'.nextRequest = p.nextRequest)
    (log : p'.log = p.log ++ effects) (quiet : ∀ owner, ∀ m ∈ sent owner effects, m.op ≠ .wgWant) :
    Requests p' where
  ascending owner := by
    rw [log, sent_append]
    exact (requests.ascending owner).append_quiet (quiet owner)
  bounded owner m mem isWant := by
    rw [log, sent_append] at mem
    obtain before | isNew := mem_append.mp mem
    · exact next ▸ requests.bounded owner m before isWant
    exact absurd isWant (quiet owner m isNew)
  asked f mem owned := by
    rw [Pool.fetches, pending, delivering] at mem
    rw [log, sent_append]
    exact mem_append_left _ (requests.asked f mem owned)

lemma quiet_message (op : m.op ≠ .wgWant) (mem : m' ∈ sent owner [.emitted other m 0]) :
    m'.op ≠ .wgWant := by
  rw [sent_emitted] at mem
  split at mem
  · rwa [mem_singleton.mp mem]
  cases mem

lemma Move.requests (move : Move env call w w') (keys : Keys w.pool)
    (requests : Requests w.pool) : Requests w'.pool := by
  cases move with
  | pool move => exact move.requests keys requests
  | openSession | endTransfer => exact { requests with }
  | leave s => exact requests
  | startTransfer s o m body now =>
    exact requests.of_log rfl rfl rfl rfl fun owner m' mem => by cases mem
  | sendChunk | sendLast =>
    exact requests.of_log rfl rfl rfl rfl fun _ _ => quiet_message (by simp [chunkMessage])
  | announce s gone =>
    refine requests.of_log rfl rfl rfl (append_assoc _ _ _) fun owner m mem => ?_
    rw [sent_append] at mem
    obtain isGone | isLast := mem_append.mp mem
    · exact quiet_message (by simp) isGone
    cases isLast

/-! ## What a fetch holds -/

variable (linked : Nat → Prop)

variable (served : Nat → Nat → Id → List UInt8 → Prop)

/-- The owner is one of these sessions, and what the fetch holds is the beginning of
the body that is served to it under its request. -/
def Faithful (f : Fetch) :
    Prop :=
  linked f.owner → f.data ≠ none → ∃ body, served f.owner f.request f.id body ∧
    f.data = some (body.take f.size) ∧ f.size ≤ body.length ∧ f.total = body.length

/-- What is served under one request is one body. -/
def Functional : Prop :=
  ∀ owner request id id' body body', linked owner → served owner request id body →
    served owner request id' body' → id = id' ∧ body = body'

/-- The chunks that the call brings are pieces of what is served. -/
def Genuine (call : Call) :
    Prop :=
  ∀ f m, Answers call f m → linked f.owner →
    ∃ body, served f.owner f.request f.id body ∧ PieceOf m body

section Faithful

variable {linked : Nat → Prop} {served : Nat → Nat → Id → List UInt8 → Prop}

lemma Faithful.append (faithful : Faithful linked served f) (functional : Functional linked served)
    (genuine : Genuine linked served call) (now : Nat) (answers : Answers call f m)
    (buffered : f.data ≠ none) :
    Faithful linked served (f.append m.data now) := by
  intro isLinked _
  obtain ⟨body, isServed, data, _, total⟩ := faithful isLinked buffered
  obtain ⟨body', isServed', piece⟩ := genuine f m answers isLinked
  obtain ⟨_, rfl⟩ := functional _ _ _ _ _ _ isLinked isServed isServed'
  have size := Fetch.size_append m.data now buffered
  have length : m.data.length = min chunk (body.length - f.size) := by
    rw [piece.data, length_take, length_drop, answers.offset]
  have inside := (chunkOk_of_valid answers.valid answers.op).offset
  refine ⟨body, isServed, ?_, ?_, total⟩
  · have appended : (f.append m.data now).data = f.data.map (· ++ m.data) := rfl
    rw [appended, data, Option.map_some, size, take_add, piece.data, answers.offset]
    congr 2
    apply take_eq_take_iff.mpr
    rw [length_drop, length_take, length_drop]
    omega
  omega

lemma Derived.faithful (derived : Derived env call p log f)
    (idle : ∀ f ∈ p.fetches, f.owner = 0 → f.data = none) (functional : Functional linked served)
    (genuine : Genuine linked served call) (faithful : ∀ f ∈ p.fetches, Faithful linked served f) :
    Faithful linked served f := by
  cases derived with
  | same f mem | suppliers f mem => exact faithful f mem
  | reset | fresh | adopted => exact fun _ buffered => absurd rfl buffered
  | claimed f mem free => exact fun _ buffered => absurd (idle f mem free) buffered
  | buffered f mem empty m answers =>
    intro isLinked _
    obtain ⟨body, isServed, piece⟩ := genuine f m answers isLinked
    exact ⟨body, isServed, by simp [Fetch.size], Nat.zero_le _, piece.total⟩
  | extended f mem buffered m now answers =>
    exact (faithful f mem).append functional genuine now answers buffered

lemma Faithful.complete (faithful : Faithful linked served f) (full : f.full = true)
    (isLinked : linked f.owner) (holds : f.data = some body) :
    served f.owner f.request f.id body := by
  obtain ⟨buffered, _, size⟩ := Fetch.full_iff.mp full
  obtain ⟨whole, isServed, data, _, total⟩ := faithful isLinked buffered
  rw [size, total, List.take_length, holds] at data
  cases data
  exact isServed

/-- What the completions of these sessions saw. -/
structure Delivers (linked : Nat → Prop) (served : Nat → Nat → Id → List UInt8 → Prop)
    (p : Pool) : Prop where
  fetches : ∀ f ∈ p.fetches, Faithful linked served f
  completed : ∀ owner request id body, linked owner →
    .completed owner request id body ∈ p.log → served owner request id body

lemma PoolMove.delivers (move : PoolMove env call p p') (keys : Keys p) (limits : Limits p)
    (functional : Functional linked served) (genuine : Genuine linked served call)
    (delivers : Delivers linked served p) : Delivers linked served p' := by
  refine ⟨fun f mem => ?_, fun owner request id body isLinked mem => ?_⟩
  · exact (move.derived keys f mem).faithful (fun g inFetches => (limits.each g inFetches).idle)
      functional genuine delivers.fetches
  obtain before | ⟨f, inPending, full, rfl, rfl, rfl, holds⟩ := move.logs.cases mem
  · exact delivers.completed owner request id body isLinked before
  exact (delivers.fetches f (mem_fetches_of_pending inPending)).complete full isLinked holds

lemma Delivers.of_log (delivers : Delivers linked served p) (pending : p'.pending = p.pending)
    (delivering : p'.delivering = p.delivering)
    (log : ∀ owner request id body, .completed owner request id body ∈ p'.log →
      .completed owner request id body ∈ p.log) : Delivers linked served p' where
  fetches := by
    rw [Pool.fetches, pending, delivering]
    exact delivers.fetches
  completed owner request id body isLinked mem :=
    delivers.completed owner request id body isLinked (log owner request id body mem)

lemma Move.delivers (move : Move env call w w') (keys : Keys w.pool) (limits : Limits w.pool)
    (functional : Functional linked served) (genuine : Genuine linked served call)
    (delivers : Delivers linked served w.pool) : Delivers linked served w'.pool := by
  cases move with
  | pool move => exact move.delivers keys limits functional genuine delivers
  | startTransfer =>
    exact delivers.of_log rfl rfl (by simp [World.putSession, Pool.report, Pool.modifyObject])
  | sendChunk | announce => exact delivers.of_log rfl rfl (by simp [World.putSession, Pool.report])
  | sendLast =>
    exact delivers.of_log rfl rfl
      (by simp [World.putSession, Gossip.endTransfer, unpinned, Pool.modifyObject, Pool.report])
  | _ => exact delivers.of_log rfl rfl fun _ _ _ _ mem => mem

lemma Delivers.mono {served' : Nat → Nat → Id → List UInt8 → Prop}
    (delivers : Delivers linked served p)
    (more : ∀ owner request id body, linked owner → served owner request id body →
      served' owner request id body) : Delivers linked served' p where
  fetches f mem isLinked buffered := by
    obtain ⟨body, isServed, rest⟩ := delivers.fetches f mem isLinked buffered
    exact ⟨body, more _ _ _ _ isLinked isServed, rest⟩
  completed owner request id body isLinked mem :=
    more _ _ _ _ isLinked (delivers.completed owner request id body isLinked mem)

end Faithful

/-! ## How far a fetch has come -/

def Sized (watched : Nat → Nat → Prop) (size : Nat → Nat → Nat) (p : Pool) : Prop :=
  ∀ f ∈ p.fetches, f.accepted = none → watched f.owner f.request → f.size = size f.owner f.request

section Sized

variable {watched : Nat → Nat → Prop} {size : Nat → Nat → Nat}

lemma PoolMove.sized (move : PoolMove env call p p') (keys : Keys p) (limits : Limits p)
    (owned : ∀ request, ¬ watched 0 request)
    (fresh : ∀ owner, watched owner (p.nextRequest + 1) → size owner (p.nextRequest + 1) = 0)
    (still : ∀ f ∈ p.fetches, f.accepted = none → ∀ m, Answers call f m →
      ¬ watched f.owner f.request) (sized : Sized watched size p) : Sized watched size p' := by
  intro f mem opened isWatched
  cases move.derived keys f mem with
  | same f inFetches | suppliers f inFetches => exact sized f inFetches opened isWatched
  | reset | fresh => exact absurd isWatched (owned _)
  | claimed f inFetches free owner now =>
    have empty := (limits.each f inFetches).idle free
    rw [fresh owner isWatched]
    simp [Fetch.size, empty]
  | buffered f inFetches _ m answers | extended f inFetches _ m _ answers =>
    exact absurd isWatched (still f inFetches opened m answers)
  | adopted f inFetches born => cases opened

lemma Move.sized (move : Move env call w w') (keys : Keys w.pool) (limits : Limits w.pool)
    (owned : ∀ request, ¬ watched 0 request)
    (fresh : ∀ owner, watched owner (w.pool.nextRequest + 1) →
      size owner (w.pool.nextRequest + 1) = 0)
    (still : ∀ f ∈ w.pool.fetches, f.accepted = none → ∀ m, Answers call f m →
      ¬ watched f.owner f.request)
    (sized : Sized watched size w.pool) : Sized watched size w'.pool := by
  cases move with
  | pool move => exact move.sized keys limits owned fresh still sized
  | _ => exact sized

lemma Move.nextRequest_le (move : Move env call w w') :
    w.pool.nextRequest ≤ w'.pool.nextRequest := by
  cases move with
  | pool move => exact move.fixed.2.2
  | _ => exact le_rfl

lemma Moves.sized (moves : Moves env call w w') (keys : Keys w.pool) (owners : Owners w)
    (limits : Limits w.pool) (owned : ∀ request, ¬ watched 0 request)
    (fresh : ∀ owner request, w.pool.nextRequest < request → watched owner request →
      size owner request = 0) (still : ∀ f m, Answers call f m → ¬ watched f.owner f.request)
    (sized : Sized watched size w.pool) : Sized watched size w'.pool := by
  have kept := Moves.induct
    (fun v => Limits v.pool ∧ w.pool.nextRequest ≤ v.pool.nextRequest ∧ Sized watched size v.pool)
    (fun _ _ keys _ move holds => ⟨move.limits keys holds.1,
      holds.2.1.trans move.nextRequest_le,
      move.sized keys holds.1 owned
        (fun owner => fresh owner _ (Nat.lt_succ_of_le holds.2.1))
        (fun f _ _ m answers => still f m answers) holds.2.2⟩)
    moves keys owners ⟨limits, le_rfl, sized⟩
  exact kept.2.2

end Sized

/-! ## The next chunk -/

/-- If the fetch waits for this request of the session, it waits for this chunk. -/
def Waits (owner : Nat) (m : Message) (f : Fetch) : Prop :=
  f.accepted = none → f.owner = owner → f.request = m.request →
    f.id = m.id ∧ f.size = m.offset ∧ f.total = if f.data.isSome then m.total else 0

lemma PoolMove.waits (move : PoolMove env (.prune 0) p p') (keys : Keys p) (positive : owner ≠ 0)
    (old : m.request ≤ p.nextRequest) (waits : ∀ f ∈ p.fetches, Waits owner m f) :
    ∀ f ∈ p'.fetches, Waits owner m f := by
  intro f mem opened isOwner request
  cases move.derived keys f mem with
  | same f inFetches | suppliers f inFetches => exact waits f inFetches opened isOwner request
  | reset | fresh => exact absurd isOwner.symm positive
  | claimed f inFetches free other now =>
    have request : p.nextRequest + 1 = m.request := request
    omega
  | buffered f inFetches empty m' answers =>
    obtain ⟨now, isReceive⟩ := answers.received
    cases isReceive
  | extended f inFetches _ m' now answers =>
    obtain ⟨now, isReceive⟩ := answers.received
    cases isReceive
  | adopted f inFetches born => cases opened

lemma PoolMoves.nextRequest_le (moves : PoolMoves env call p p') :
    p.nextRequest ≤ p'.nextRequest := by
  induction moves with
  | refl => exact le_rfl
  | tail _ move ih => exact ih.trans move.fixed.2.2

lemma PoolMoves.limits (moves : PoolMoves env call p p') (keys : Keys p) (limits : Limits p) :
    Limits p' := by
  induction moves with
  | refl => exact limits
  | tail before move ih => exact move.limits (PoolMoves.keys before keys) ih

lemma PoolMoves.waits (moves : PoolMoves env (.prune 0) p p') (keys : Keys p)
    (positive : owner ≠ 0) (old : m.request ≤ p.nextRequest)
    (waits : ∀ f ∈ p.fetches, Waits owner m f) : ∀ f ∈ p'.fetches, Waits owner m f := by
  induction moves with
  | refl => exact waits
  | tail before move ih =>
    exact move.waits (PoolMoves.keys before keys) positive
      (old.trans (PoolMoves.nextRequest_le before)) ih

lemma PoolMoves.extended (moves : PoolMoves env (.receive owner m now) p p') (keys : Keys p)
    (limits : Limits p)
    (positive : owner ≠ 0) (old : m.request ≤ p.nextRequest) (nonempty : 0 < m.data.length)
    (sized : Sized (fun other request => other = owner ∧ request = m.request)
      (fun _ _ => m.offset + m.data.length) p) :
    Sized (fun other request => other = owner ∧ request = m.request)
      (fun _ _ => m.offset + m.data.length) p' := by
  induction moves with
  | refl => exact sized
  | tail before move ih =>
    have later := PoolMoves.nextRequest_le before
    refine move.sized (PoolMoves.keys before keys) (PoolMoves.limits before keys limits)
      (fun _ isWatched => positive isWatched.1.symm) ?_ ?_ ih
    · intro other isWatched
      omega
    intro f inFetches opened m' answers isWatched
    have size : f.size = m.offset + m.data.length := ih f inFetches opened isWatched
    obtain ⟨now', received⟩ := answers.received
    cases received
    have offset := answers.offset
    omega

lemma mem_dropSupplier (mem : g ∈ (dropSupplier p f f.owner).pending) :
    (g ∈ p.pending ∧ g.id ≠ f.id) ∨ g.owner = 0 := by
  simp only [dropSupplier, if_true] at mem
  obtain ⟨between, inBetween, equal⟩ := mem_alter.mp (mem_pending_dropIfUnsupplied mem)
  rw [resetFetch, Pool.modifyFetch, unbuffer_pending] at inBetween
  obtain ⟨before, inBefore, equal'⟩ := mem_alter.mp inBetween
  by_cases same : before.id = f.id
  · rw [if_pos same] at equal'
    subst equal'
    refine .inr ?_
    split at equal
    · rw [← equal]
      rfl
    rw [← equal]
    rfl
  rw [if_neg same] at equal'
  subst equal'
  rw [if_neg same] at equal
  exact .inl (equal ▸ ⟨inBefore, same⟩)

structure Awaits (p : Pool) (owner : Nat) (m : Message) : Prop where
  keys : Keys p
  limits : Limits p
  calm : p.delivering = none
  unaccepted : ∀ f ∈ p.pending, f.accepted = none
  positive : owner ≠ 0
  old : m.request ≤ p.nextRequest
  waits : ∀ f ∈ p.pending, Waits owner m f
  chunk : isChunk m = true

section Chunk

variable {owner : Nat} {m : Message} {now : UInt64} {f : Fetch}

/-- The fetches that wait for the chunk have it. -/
abbrev Taken (owner : Nat) (m : Message) (p : Pool) : Prop :=
  Sized (fun other request => other = owner ∧ request = m.request)
    (fun _ _ => m.offset + m.data.length) p

lemma taken_of_unawaited (calm : p.delivering = none)
    (unawaited : ∀ g ∈ p.pending, g.owner = owner → g.request ≠ m.request) : Taken owner m p := by
  intro g mem _ isWatched
  obtain delivering | inPending := mem_fetches.mp mem
  · rw [calm] at delivering
    cases delivering
  exact absurd isWatched.2 (unawaited g inPending isWatched.1)

structure Takes (p : Pool) (owner : Nat) (m : Message) (f : Fetch) : Prop where
  keys : Keys p
  limits : Limits p
  calm : p.delivering = none
  unaccepted : ∀ g ∈ p.pending, g.accepted = none
  positive : owner ≠ 0
  old : m.request ≤ p.nextRequest
  chunk : isChunk m = true
  member : f ∈ p.pending
  isOwner : f.owner = owner
  request : f.request = m.request
  id : f.id = m.id
  offset : f.size = m.offset
  buffered : f.data ≠ none
  total : f.total = m.total
  sole : ∀ g ∈ p.pending, g.owner = owner → g.request = m.request → g.id = f.id

lemma Takes.nonempty (takes : Takes p owner m f) : 0 < m.data.length :=
  (chunkOk_of_valid (isChunk_iff.mp takes.chunk).2 (isChunk_iff.mp takes.chunk).1).positive

lemma Takes.appended (takes : Takes p owner m f) (now : Nat) :
    Taken owner m (p.modifyFetch f.id (Fetch.append m.data now)) := by
  intro g mem _ isWatched
  obtain delivering | inPending := mem_fetches.mp mem
  · rw [show (p.modifyFetch f.id (Fetch.append m.data now)).delivering = none from takes.calm]
      at delivering
    cases delivering
  obtain rfl | ⟨old, different⟩ := of_mem_alter takes.keys.pending takes.member inPending
  · rw [Fetch.size_append m.data now takes.buffered, takes.offset]
  exact absurd (takes.sole _ old isWatched.1 isWatched.2) different

lemma PoolMoves.log_subset (moves : PoolMoves env call p p') (mem : effect ∈ p.log) :
    effect ∈ p'.log := by
  induction moves with
  | refl => exact mem
  | tail _ move ih => exact move.logs.subset ih

lemma deliver_completes (p : Pool) (f : Fetch) :
    .completed f.owner f.request f.id (f.data.getD []) ∈ (deliver env p f).2.log := by
  simp only [deliver]
  have begun : .completed f.owner f.request f.id (f.data.getD []) ∈
      (beginDelivery p f (f.data.getD [])).log :=
    mem_append_right _ (mem_singleton_self _)
  have ran : PoolMoves env (.prune 0) (beginDelivery p f (f.data.getD [])) _ :=
    runCompletion_moves (f.data.getD []) (env.complete p.calls f.id (f.data.getD [])) _
  generalize runCompletion env _ _ _ = outcome at ran ⊢
  have ended : PoolMoves env (.prune 0) _ _ := endDelivery_moves outcome.2 outcome.1
  exact ended.log_subset (ran.log_subset begun)

lemma receiveChunk_taken (takes : Takes p owner m f) (now : UInt64) :
    Taken owner m (receiveChunk env p f m now.toNat).2 := by
  have found := fetch?_append takes.keys takes.member m.data now.toNat
  have taken := takes.appended now.toNat
  have inPending : f.append m.data now.toNat ∈
      (p.modifyFetch f.id (Fetch.append m.data now.toNat)).pending := mem_alter_self takes.member
  have limits := append_limits takes.limits f.id m.data now.toNat
  have keys : Keys (p.modifyFetch f.id (Fetch.append m.data now.toNat)) :=
    takes.keys.modifyFetch f.id fun _ => rfl
  have calm : (p.modifyFetch f.id (Fetch.append m.data now.toNat)).delivering = none := takes.calm
  have old : m.request ≤ (p.modifyFetch f.id (Fetch.append m.data now.toNat)).nextRequest :=
    takes.old
  simp only [receiveChunk, found]
  generalize p.modifyFetch f.id (Fetch.append m.data now.toNat) = q at *
  have further : ∀ {p'}, PoolMoves env (.receive owner m now) q.consulted p' → Taken owner m p' :=
    fun moves => PoolMoves.extended ((PoolMoves.one .consult).trans moves) keys limits takes.positive
      old takes.nonempty taken
  split
  · exact taken
  rename_i complete
  rw [not_not] at complete
  split
  · have keys' : Keys q.consulted := { keys with }
    exact further (dropSupplier_moves keys' inPending _)
  refine further (deliver_moves calm inPending ?_)
  have size := Fetch.size_append m.data now.toNat takes.buffered
  have nonempty := takes.nonempty
  refine Fetch.full_iff.mpr ⟨?_, ?_, complete⟩
  · simpa [Fetch.append] using takes.buffered
  omega

lemma receiveChunk_completes (takes : Takes p owner m f) (now : UInt64)
    (identified : ∀ count, env.identified count = true)
    (hashed : env.digest m.id.type (f.data.getD [] ++ m.data) = m.id.hash)
    (last : m.offset + m.data.length = m.total) :
    .completed owner m.request m.id (f.data.getD [] ++ m.data) ∈
      (receiveChunk env p f m now.toNat).2.log := by
  have found := fetch?_append takes.keys takes.member m.data now.toNat
  have size := Fetch.size_append m.data now.toNat takes.buffered
  have complete : ¬ (f.append m.data now.toNat).size ≠ (f.append m.data now.toNat).total := by
    rw [size, takes.offset, not_not]
    exact last.trans takes.total.symm
  have body : (f.append m.data now.toNat).data = some (f.data.getD [] ++ m.data) := by
    obtain ⟨bytes, holds⟩ := Option.ne_none_iff_exists'.mp takes.buffered
    simp [Fetch.append, holds]
  have accepted : ¬ (env.identified
      (p.modifyFetch f.id (Fetch.append m.data now.toNat)).calls = false ∨
      env.digest (f.append m.data now.toNat).id.type ((f.append m.data now.toNat).data.getD []) ≠
        (f.append m.data now.toNat).id.hash) := by
    rintro (unidentified | mismatch)
    · rw [identified] at unidentified
      cases unidentified
    rw [body, Option.getD_some] at mismatch
    exact mismatch (takes.id ▸ hashed)
  simp only [receiveChunk, found, if_neg complete, if_neg accepted]
  have delivered : _ ∈ (deliver env _ _).2.log := deliver_completes
    (p.modifyFetch f.id (Fetch.append m.data now.toNat)).consulted (f.append m.data now.toNat)
  rw [body, Option.getD_some] at delivered
  have same : Effect.completed (f.append m.data now.toNat).owner (f.append m.data now.toNat).request
      (f.append m.data now.toNat).id (f.data.getD [] ++ m.data) =
      .completed owner m.request m.id (f.data.getD [] ++ m.data) := by
    rw [← takes.isOwner, ← takes.request, ← takes.id]
    rfl
  rw [same] at delivered
  exact delivered

lemma receiveChunk_continues (takes : Takes p owner m f) (now : UInt64)
    (more : m.offset + m.data.length ≠ m.total) :
    ∃ f' ∈ (receiveChunk env p f m now.toNat).2.pending, f'.owner = owner ∧
      f'.request = m.request ∧ f'.data = some (f.data.getD [] ++ m.data) := by
  have found := fetch?_append takes.keys takes.member m.data now.toNat
  have size := Fetch.size_append m.data now.toNat takes.buffered
  have incomplete : (f.append m.data now.toNat).size ≠ (f.append m.data now.toNat).total := by
    rw [size, takes.offset]
    exact fun equal => more (equal.trans takes.total)
  simp only [receiveChunk, found, if_pos incomplete]
  refine ⟨_, mem_alter_self takes.member, takes.isOwner, takes.request, ?_⟩
  obtain ⟨bytes, holds⟩ := Option.ne_none_iff_exists'.mp takes.buffered
  simp [Fetch.append, holds]

section

variable (awaits : Awaits p owner m)
include awaits

section

variable (mem : f ∈ p.pending)
include mem

lemma Awaits.takes (isOwner : f.owner = owner)
    (request : f.request = m.request) (buffered : f.data ≠ none) : Takes p owner m f := by
  have waits := awaits.waits f mem (awaits.unaccepted f mem) isOwner request
  exact
    { awaits with
      member := mem
      isOwner := isOwner
      request := request
      id := waits.1
      offset := waits.2.1
      buffered := buffered
      total := by rw [waits.2.2, if_pos (Option.isSome_iff_ne_none.mpr buffered)]
      sole := fun g inPending isOwner' request' =>
        (awaits.waits g inPending (awaits.unaccepted g inPending) isOwner' request').1.trans
          waits.1.symm }

lemma Awaits.started (isOwner : f.owner = owner)
    (request : f.request = m.request) (empty : f.data = none) (now : UInt64) :
    ((startBuffer env p f m.total).1 = false → f ∈ (startBuffer env p f m.total).2.pending ∧
      ∀ g ∈ (startBuffer env p f m.total).2.pending, g ∈ p.pending) ∧
    ((startBuffer env p f m.total).1 = true →
      Takes (startBuffer env p f m.total).2 owner m { f with data := some [], total := m.total }) := by
  have waits := awaits.waits f mem (awaits.unaccepted f mem) isOwner request
  have op := isChunk_iff.mp awaits.chunk
  have positive : m.total ≠ 0 := by
    have offset := (chunkOk_of_valid op.2 op.1).offset
    omega
  have answers : Answers (.receive owner m now) f m :=
    ⟨⟨now, isOwner ▸ rfl⟩, op.2, op.1, waits.1.symm, request.symm, waits.2.1.symm⟩
  have frame := startBuffer_frame env p f m.total
  rcases (startBuffer_moves mem empty (isOwner ▸ awaits.positive) positive answers rfl :
    PoolMoves env (.receive owner m now) p (startBuffer env p f m.total).2 ∧ _) with
    ⟨moves, refused, started⟩
  generalize startBuffer env p f m.total = outcome at frame moves refused started ⊢
  refine ⟨fun isRefused => ?_, fun isStarted => ?_⟩
  · rw [refused isRefused]
    exact ⟨mem, fun _ inPending => inPending⟩
  have pending := started isStarted
  have origin : ∀ g ∈ outcome.2.pending, ∃ before ∈ p.pending, g.id = before.id ∧
      g.owner = before.owner ∧ g.request = before.request ∧ g.accepted = before.accepted := by
    intro g inPending
    rw [pending] at inPending
    obtain ⟨before, inBefore, equal⟩ := mem_alter.mp inPending
    refine ⟨before, inBefore, ?_⟩
    rw [← equal]
    split <;> exact ⟨rfl, rfl, rfl, rfl⟩
  exact
    { keys := PoolMoves.keys moves awaits.keys
      limits := PoolMoves.limits moves awaits.keys awaits.limits
      calm := frame.delivering.trans awaits.calm
      unaccepted := fun g inPending => by
        obtain ⟨before, inBefore, _, _, _, same⟩ := origin g inPending
        exact same.trans (awaits.unaccepted before inBefore)
      positive := awaits.positive
      old := awaits.old.trans (PoolMoves.nextRequest_le moves)
      chunk := awaits.chunk
      member := by
        rw [pending]
        exact mem_alter_self mem
      isOwner := isOwner
      request := request
      id := waits.1
      offset := by
        rw [← waits.2.1, Fetch.size, Fetch.size, empty]
        rfl
      buffered := by simp
      total := rfl
      sole := fun g inPending isOwner' request' => by
        obtain ⟨before, inBefore, id, owner', request'', _⟩ := origin g inPending
        have waits' := awaits.waits before inBefore (awaits.unaccepted before inBefore)
          (owner' ▸ isOwner') (request'' ▸ request')
        exact id.trans (waits'.1.trans waits.1.symm) }

lemma receiveData_accepts
    (isOwner : f.owner = owner) (request : f.request = m.request) (now : UInt64) :
    ((receiveData env p f m now.toNat).2 = dropSupplier (startBuffer env p f m.total).2 f f.owner ∧
      f.data = none ∧ (startBuffer env p f m.total).1 = false) ∨
    ∃ q f', (receiveData env p f m now.toNat).2 = (receiveChunk env q f' m now.toNat).2 ∧
      Takes q owner m f' ∧ f'.data.getD [] = f.data.getD [] := by
  have waits := awaits.waits f mem (awaits.unaccepted f mem) isOwner request
  have fits : ¬ (m.offset ≠ f.size ∨ (f.total ≠ 0 ∧ f.total ≠ m.total)) := by
    rw [not_or, not_not]
    refine ⟨waits.2.1.symm, fun mismatch => ?_⟩
    have total := waits.2.2
    split at total
    · exact mismatch.2 total
    exact mismatch.1 total
  simp only [receiveData, if_neg fits]
  split
  next buffered =>
    exact .inr ⟨p, f, rfl,
      awaits.takes mem isOwner request (Option.isSome_iff_ne_none.mp buffered), rfl⟩
  rename_i empty
  rw [Bool.not_eq_true, Option.isSome_eq_false_iff, Option.isNone_iff_eq_none] at empty
  have started := (awaits.started mem isOwner request empty now :
    ((startBuffer env p f m.total).1 = false → _) ∧ _).2
  split
  next q full =>
    rw [full]
    exact .inl ⟨rfl, empty, rfl⟩
  rename_i q isStarted
  rw [isStarted] at started
  refine .inr ⟨q, { f with data := some [], total := m.total }, rfl, started rfl, ?_⟩
  rw [empty]
  rfl

lemma receiveData_taken
    (isOwner : f.owner = owner) (request : f.request = m.request) (now : UInt64) :
    Taken owner m (receiveData env p f m now.toNat).2 := by
  rcases (receiveData_accepts awaits mem isOwner request now : (receiveData env p f m _).2 = _ ∧ _ ∨ _)
    with ⟨equal, empty, isRefused⟩ | ⟨q, f', equal, takes, _⟩
  · rw [equal]
    have frame := startBuffer_frame env p f m.total
    have kept := (awaits.started mem isOwner request empty now :
      ((startBuffer env p f m.total).1 = false → _) ∧ _).1 isRefused
    generalize startBuffer env p f m.total = outcome at frame kept ⊢
    apply taken_of_unawaited
    · exact (dropSupplier_frame _ _ _).delivering.trans (frame.delivering.trans awaits.calm)
    intro g inPending isOwner' request'
    obtain ⟨before, different⟩ | free := mem_dropSupplier inPending
    · have waits := awaits.waits f mem (awaits.unaccepted f mem) isOwner request
      have waits' := awaits.waits g (kept.2 g before) (awaits.unaccepted g (kept.2 g before))
        isOwner' request'
      exact different (waits'.1.trans waits.1.symm)
    exact awaits.positive (isOwner'.symm.trans free)
  rw [equal]
  exact receiveChunk_taken takes now

lemma Awaits.fetch?
    (isOwner : f.owner = owner) (request : f.request = m.request) : p.fetch? m.id = some f := by
  have waits := awaits.waits f mem (awaits.unaccepted f mem) isOwner request
  rw [← waits.1]
  exact lookup_of_mem awaits.keys.pending mem

end

end

lemma dispatch_taken (awaits : Awaits p s.owner m) (now : UInt64) :
    Taken s.owner m (dispatch env p s m now.toNat).2.1 := by
  have op := (isChunk_iff.mp awaits.chunk).1
  simp only [dispatch, op]
  split
  next absent =>
    refine taken_of_unawaited awaits.calm fun g inPending isOwner request => ?_
    rw [awaits.fetch? inPending isOwner request] at absent
    cases absent
  rename_i f found
  split
  next mismatch =>
    refine taken_of_unawaited awaits.calm fun g inPending isOwner request => ?_
    cases (awaits.fetch? inPending isOwner request).symm.trans found
    rcases mismatch with otherOwner | otherRequest
    · exact otherOwner isOwner
    exact otherRequest request
  rename_i matched
  simp only [not_or, ne_eq, not_not] at matched
  exact receiveData_taken awaits (mem_of_lookup found) matched.1 matched.2 now

lemma dispatch_accepts (awaits : Awaits p s.owner m) (mem : f ∈ p.pending)
    (isOwner : f.owner = s.owner) (request : f.request = m.request) (now : UInt64)
    (granted : f.data ≠ none ∨ (startBuffer env p f m.total).1 = true) :
    ∃ q f', (dispatch env p s m now.toNat).2.1 = (receiveChunk env q f' m now.toNat).2 ∧
      Takes q s.owner m f' ∧ f'.data.getD [] = f.data.getD [] := by
  have op := (isChunk_iff.mp awaits.chunk).1
  have matched : ¬ (f.owner ≠ s.owner ∨ f.request ≠ m.request) := by
    rw [not_or, not_not, not_not]
    exact ⟨isOwner, request⟩
  have equal : (dispatch env p s m now.toNat).2.1 = (receiveData env p f m now.toNat).2 := by
    simp only [dispatch, op, awaits.fetch? mem isOwner request, if_neg matched]
    rfl
  rw [equal]
  rcases (receiveData_accepts awaits mem isOwner request now : (receiveData env p f m _).2 = _ ∧ _ ∨ _)
    with ⟨_, empty, isRefused⟩ | accepts
  · obtain buffered | started := granted
    · exact absurd empty buffered
    rw [isRefused] at started
    cases started
  exact accepts

lemma wgReceive_dispatch (isPiece : isChunk m = true) (type : m.id.type = s.type)
    (time : now.toNat ≤ uint64Max - hintMs) :
    wgReceive env p s m now = dispatch env (wgPrune p now.toNat) s m now.toNat := by
  obtain ⟨op, valid⟩ := isChunk_iff.mp isPiece
  have known : ¬ knownOp m.op = false := by simp [op, knownOp]
  have accepted : ¬ (m.id.type ≠ s.type ∨ uint64Max - hintMs < now.toNat) := by
    rw [not_or, not_not, not_lt]
    exact ⟨type, time⟩
  rw [wgReceive, if_neg (not_not.mpr valid), if_neg known, if_neg accepted]

lemma Reachable.awaits (reachable : Reachable env config w) (positive : owner ≠ 0)
    (old : m.request ≤ w.pool.nextRequest) (waits : ∀ f ∈ w.pool.fetches, Waits owner m f)
    (isPiece : isChunk m = true) (now : Nat) : Awaits (wgPrune w.pool now) owner m := by
  have moves : PoolMoves env (.prune 0) w.pool (wgPrune w.pool now) := wgPrune_moves _ _
  have references : References { w with pool := wgPrune w.pool now } :=
    Moves.induct References (fun _ _ keys owners move => move.references keys owners)
      (Moves.of_pool moves) reachable.ready.keys reachable.ready.owners reachable.references
  exact
    { keys := moves.keys reachable.ready.keys
      limits := PoolMoves.limits moves reachable.ready.keys reachable.limits
      calm := (wgPrune_frame _ _).2.1.trans reachable.ready.calm
      unaccepted := references.unaccepted
      positive := positive
      old := old.trans (PoolMoves.nextRequest_le moves)
      waits := fun f mem => PoolMoves.waits moves reachable.ready.keys positive old waits f
        (mem_fetches_of_pending mem)
      chunk := isPiece }

end Chunk

lemma Reachable.step_delivers {linked : Nat → Prop} {served : Nat → Nat → Id → List UInt8 → Prop}
    (reachable : Reachable env config w) (call : Call) (functional : Functional linked served)
    (genuine : Genuine linked served call) (delivers : Delivers linked served w.pool) :
    Delivers linked served (step env w call).2.pool := by
  have both := Moves.induct (fun w => Limits w.pool ∧ Delivers linked served w.pool)
    (fun _ _ keys _ move holds => ⟨move.limits keys holds.1,
      move.delivers keys holds.1 functional genuine holds.2⟩)
    (step_moves reachable.ready call : Moves env call w _) reachable.ready.keys
    reachable.ready.owners ⟨reachable.limits, delivers⟩
  exact both.2

lemma Reachable.requests (reachable : Reachable env config w) : Requests w.pool := by
  refine reachable.induct (fun w => Requests w.pool) ?_ fun _ _ _ keys _ move => move.requests keys
  exact ⟨fun _ => List.Pairwise.nil, by simp [sent], by simp [Pool.fetches]⟩

/-- The requests of a session have ascending numbers, and a fetch that is downloaded waits for
one of them. -/
theorem wants_are_numbered (reachable : Reachable env config w) :
    (∀ owner, Ascending (sent owner w.pool.log)) ∧ ∀ f ∈ w.pool.pending, f.owner ≠ 0 →
      { id := f.id, op := .wgWant, request := f.request } ∈ sent f.owner w.pool.log :=
  ⟨reachable.requests.ascending, fun f mem =>
    reachable.requests.asked f (mem_fetches_of_pending mem)⟩

theorem wants_are_numbered_hinted : let w := run generous { pool := { config := small } } hinted
    ∃ f ∈ w.pool.pending, { id := f.id, op := .wgWant, request := f.request } ∈
      sent 1 w.pool.log := by
  have fetching : ∃ f ∈ (run generous { pool := { config := small } } hinted).pool.pending,
      f.owner = 1 := by decide
  obtain ⟨f, mem, owner⟩ := fetching
  have asked := (wants_are_numbered (reachable_small hinted)).2 f mem (by simp [owner])
  exact ⟨f, mem, owner ▸ asked⟩

end WendyLite.Gossip
