import Mathlib.Data.PEquiv
import WendyLite.Gossip.Requests

/-! # Two pools

Two pools whose sessions are paired, with a lossless channel in each direction of
a pair that keeps the order of the messages. Whatever either pool does between the
deliveries, a body that one of them completes is the body the other served.
-/

namespace WendyLite.Gossip

open KeyedList Relation List

/-- Two pools, and how many messages of its peer each session has received. -/
structure Net where
  left : World
  right : World
  leftRead : Nat → Nat := fun _ => 0
  rightRead : Nat → Nat := fun _ => 0

namespace Net

def swap (n : Net) : Net :=
  { left := n.right, right := n.left, leftRead := n.rightRead, rightRead := n.leftRead }

/-- Session `b` of the right pool gets the next message of session `a` of the left
one. -/
structure Hands (pairs : Nat ≃. Nat) (n : Net) (a b : Nat) (m : Message) (now : UInt64) : Prop where
  paired : b ∈ pairs a
  next : (sent a n.left.pool.log)[n.rightRead b]? = some m
  isOpen : ∃ s, n.right.session? b = some s ∧ m.id.type = s.type
  time : now.toNat ≤ uint64Max - hintMs

/-- A call that brings a session of a pair no message of the other pool. The hints
are not messages of a pool: the programs that own the pools announce what they like. -/
def Local (pairs : Nat ≃. Nat) (call : Call) : Prop :=
  ∀ owner m now, call = .receive owner m now → m.op = .wgHave ∨ pairs owner = none

def received (r : Env) (n : Net) (b : Nat) (m : Message) (now : UInt64) : Net :=
  { n with
    right := (step r n.right (.receive b m now)).2
    rightRead := Function.update n.rightRead b (n.rightRead b + 1) }

lemma rightRead_received (r : Env) (n : Net) (b : Nat) (m : Message) (now : UInt64)
    (other : Nat) : (n.received r b m now).rightRead other =
      if other = b then n.rightRead b + 1 else n.rightRead other :=
  Function.update_apply ..

/-- One event: a call of either pool, or a delivery in either direction. -/
inductive Event (l r : Env) (pairs : Nat ≃. Nat) (n : Net) : Net → Prop
  | left (call : Call) (isLocal : Local pairs call) :
      Event l r pairs n { n with left := (step l n.left call).2 }
  | right (call : Call) (isLocal : Local pairs.symm call) :
      Event l r pairs n { n with right := (step r n.right call).2 }
  | toRight (a b : Nat) (m : Message) (now : UInt64) (hands : Hands pairs n a b m now) :
      Event l r pairs n (n.received r b m now)
  | toLeft (a b : Nat) (m : Message) (now : UInt64) (hands : Hands pairs.symm n.swap b a m now) :
      Event l r pairs n (n.swap.received l a m now).swap

/-- What the two pools can come to. -/
inductive Run (l r : Env) (leftConfig rightConfig : Config) (pairs : Nat ≃. Nat) : Net → Prop
  | start {p q : Pool} (left : wgInit leftConfig = some p) (right : wgInit rightConfig = some q) :
      Run l r leftConfig rightConfig pairs { left := { pool := p }, right := { pool := q } }
  | event {n n' : Net} (before : Run l r leftConfig rightConfig pairs n)
      (event : Event l r pairs n n') : Run l r leftConfig rightConfig pairs n'

end Net

variable {l r : Env} {leftConfig rightConfig : Config} {pairs : Nat ≃. Nat} {n n' : Net}
  {p q : Pool}

/-! ## Symmetry -/

lemma Net.Event.swap (event : Net.Event l r pairs n n') :
    Net.Event r l pairs.symm n.swap n'.swap := by
  cases event with
  | left call isLocal => exact .right call (pairs.symm_symm.symm ▸ isLocal)
  | right call isLocal => exact .left call isLocal
  | toRight a b m now hands =>
    exact .toLeft b a m now (pairs.symm_symm.symm ▸ hands)
  | toLeft a b m now hands => exact .toRight b a m now hands

section

variable (run : Net.Run l r leftConfig rightConfig pairs n)
include run

lemma Net.Run.swap : Net.Run r l rightConfig leftConfig pairs.symm n.swap := by
  induction run with
  | start left right => exact .start right left
  | event _ event ih => exact .event ih event.swap

lemma Net.Run.right : Reachable r rightConfig n.right := by
  induction run with
  | start _ right => exact .init right
  | event _ event ih =>
    cases event with
    | left | toLeft => exact ih
    | right call => exact ih.call call
    | toRight a b m now => exact ih.call _

lemma Net.Run.left : Reachable l leftConfig n.left := run.swap.right

end

/-! ## What the left pool serves to the right one -/

/-- What session `b` of the right pool is served under a request. -/
def Net.Served (pairs : Nat ≃. Nat) (n : Net) (b request : Nat) (id : Id) (body : List UInt8) :
    Prop :=
  ∃ a, b ∈ pairs a ∧ (request, id, body) ∈ servings a n.left.pool.log

def Net.Paired (pairs : Nat ≃. Nat) (b : Nat) : Prop := ∃ a, b ∈ pairs a

def Net.progress (pairs : Nat ≃. Nat) (n : Net) (b request : Nat) : Nat :=
  match pairs.symm b with
  | none => 0
  | some a => arrived request ((sent a n.left.pool.log).take (n.rightRead b))

variable {b a : Nat}

lemma Net.progress_of_paired (paired : b ∈ pairs a) (request : Nat) : n.progress pairs b request =
      arrived request ((sent a n.left.pool.log).take (n.rightRead b)) := by
  rw [Net.progress, show pairs.symm b = some a from pairs.mem_iff_mem.mpr paired]

/-- The left pool has served the requests it has read, each at most once and in
order; and the right pool holds what has arrived of them. -/
structure Net.Supplies (pairs : Nat ≃. Nat) (n : Net) : Prop where
  asked : ∀ a b, b ∈ pairs a → ∀ served ∈ servings a n.left.pool.log,
    ∃ i m, i < n.leftRead a ∧ (sent b n.right.pool.log)[i]? = some m ∧ m.op = .wgWant ∧
      m.request = served.1 ∧ m.id = served.2.1
  once : ∀ a b, b ∈ pairs a → ((servings a n.left.pool.log).map Prod.fst).Nodup
  inOrder : ∀ a b, b ∈ pairs a → InOrder a n.left
  read : ∀ a b, b ∈ pairs a → n.rightRead b ≤ (sent a n.left.pool.log).length
  delivers : Delivers (Net.Paired pairs) (n.Served pairs) n.right.pool
  sized : Sized (fun b _ => b ≠ 0 ∧ Net.Paired pairs b) (n.progress pairs) n.right.pool

lemma sent_grows (grows : log <+: log') (owner : Nat) :
    sent owner log <+: sent owner log' :=
  grows.filterMap (sentMessage owner)

variable {m : Message} {messages : List Message}

lemma getElem?_of_grows {messages' : List Message} (grows : messages <+: messages')
    {i : Nat} (found : messages[i]? = some m) : messages'[i]? = some m := by
  obtain ⟨more, rfl⟩ := grows
  rw [getElem?_append_left (List.getElem?_eq_some_iff.mp found).1]
  exact found

lemma take_of_grows {messages' : List Message} (grows : messages <+: messages')
    {count : Nat} (inside : count ≤ messages.length) :
    messages'.take count = messages.take count := by
  obtain ⟨more, rfl⟩ := grows
  exact take_append_of_le_length inside

lemma Ascending.lt (ascending : Ascending messages) {i j : Nat}
    {m' : Message} (found : messages[i]? = some m) (found' : messages[j]? = some m')
    (earlier : i < j) (op : m.op = .wgWant) (op' : m'.op = .wgWant) : m.request < m'.request := by
  obtain ⟨inside, rfl⟩ := List.getElem?_eq_some_iff.mp found
  obtain ⟨inside', rfl⟩ := List.getElem?_eq_some_iff.mp found'
  exact pairwise_iff_getElem.mp ascending i j inside inside' earlier op op'

lemma Ascending.unique (ascending : Ascending messages)
    {m' : Message} (mem : m ∈ messages) (member' : m' ∈ messages) (op : m.op = .wgWant)
    (op' : m'.op = .wgWant) (same : m.request = m'.request) : m = m' := by
  obtain ⟨i, found⟩ := mem_iff_getElem?.mp mem
  obtain ⟨j, found'⟩ := mem_iff_getElem?.mp member'
  obtain earlier | rfl | later := Nat.lt_trichotomy i j
  · exact absurd (ascending.lt found found' earlier op op') (by omega)
  · exact Option.some.inj (found.symm.trans found')
  exact absurd (ascending.lt found' found later op' op) (by omega)

section

variable (supplies : n.Supplies pairs)
include supplies

lemma Net.Supplies.functional : Functional (Net.Paired pairs) (n.Served pairs) := by
  rintro b request id id' body body' _ ⟨a, paired, mem⟩ ⟨a', paired', member'⟩
  cases pairs.inj paired paired'
  have same := inj_on_of_nodup_map (supplies.once a b paired) mem member' rfl
  cases same
  exact ⟨rfl, rfl⟩

/-! ## Events of the left pool -/

section

variable (left : Reachable l leftConfig n.left)
include left

/-- A call of the left pool, which may bring a session the next message of its peer. -/
lemma Net.Supplies.left_call (right : Reachable r rightConfig n.right) (call : Call)
    {reads : Nat → Nat} (later : ∀ a, n.leftRead a ≤ reads a)
    (handed : ∀ a b m now, b ∈ pairs a → call = .receive a m now → m.op = .wgWant →
      (sent b n.right.pool.log)[n.leftRead a]? = some m ∧ n.leftRead a < reads a) :
    Net.Supplies pairs { n with left := (step l n.left call).2, leftRead := reads } := by
  have unserved : ∀ a b, b ∈ pairs a → ∀ m now, call = .receive a m now → m.op = .wgWant →
      ∀ served ∈ servings a n.left.pool.log, served.1 ≠ m.request := by
    intro a b paired m now received op served mem
    obtain ⟨i, m', early, found, op', request, _⟩ := supplies.asked a b paired served mem
    have greater := (right.requests.ascending b).lt found (handed a b m now paired received op).1
      early op' op
    omega
  have steps := fun a b (paired : b ∈ pairs a) =>
    left.step_ordered (supplies.inOrder a b paired) (unserved a b paired)
  have logs : n.left.pool.log <+: (step l n.left call).2.pool.log := step_log_grows left.ready call
  have sents := fun a => sent_grows logs a
  refine ⟨?_, ?_, fun a b paired => (steps a b paired).1, ?_, ?_, ?_⟩
  · intro a b paired served mem
    obtain same | ⟨m, now, body, received, op, equal⟩ := (steps a b paired).2
    · obtain ⟨i, m, early, rest⟩ := supplies.asked a b paired served (same ▸ mem)
      exact ⟨i, m, early.trans_le (later a), rest⟩
    obtain before | isNew := mem_append.mp (equal ▸ mem)
    · obtain ⟨i, m, early, rest⟩ := supplies.asked a b paired served before
      exact ⟨i, m, early.trans_le (later a), rest⟩
    cases mem_singleton.mp isNew
    obtain ⟨found, counted⟩ := handed a b m now paired received op
    exact ⟨_, m, counted, found, op, rfl, rfl⟩
  · intro a b paired
    obtain same | ⟨m, now, body, received, op, equal⟩ := (steps a b paired).2
    · exact same.symm ▸ supplies.once a b paired
    rw [equal, map_append, nodup_append]
    refine ⟨supplies.once a b paired, nodup_singleton _, ?_⟩
    intro request before request' isNew
    obtain ⟨served, mem, rfl⟩ := mem_map.mp before
    cases mem_singleton.mp isNew
    exact unserved a b paired m now received op served mem
  · exact fun a b paired => (supplies.read a b paired).trans (sents a).length_le
  · refine supplies.delivers.mono fun b request id body _ isServed => ?_
    obtain ⟨a, paired, mem⟩ := isServed
    exact ⟨a, paired, (logs.filterMap (servedBody a)).subset mem⟩
  intro f mem opened isPaired
  rw [supplies.sized f mem opened isPaired]
  obtain ⟨_, a, paired⟩ := isPaired
  rw [Net.progress_of_paired paired, Net.progress_of_paired paired]
  exact congrArg (arrived _) (take_of_grows (sents a) (supplies.read a _ paired)).symm

/-! ## Events of the right pool -/

lemma Net.Supplies.chunk
    (paired : b ∈ pairs a) (isSent : m ∈ sent a n.left.pool.log) (isPiece : isChunk m = true) :
    ∃ body, (m.request, m.id, body) ∈ servings a n.left.pool.log ∧ PieceOf m body ∧
      ∃ want ∈ sent b n.right.pool.log, want.op = .wgWant ∧ want.request = m.request ∧
        want.id = m.id := by
  obtain ⟨body, mem, piece⟩ := left.serves.pieces a m isSent isPiece
  obtain ⟨i, want, _, found, op, request, id⟩ := supplies.asked a b paired _ mem
  exact ⟨body, mem, piece, want, mem_of_getElem? found, op, request, id⟩

lemma Net.Supplies.fresh (right : Reachable r rightConfig n.right)
    (future : n.right.pool.nextRequest < request) : n.progress pairs b request = 0 := by
  rw [Net.progress]
  split
  · rfl
  rename_i a found
  have paired : b ∈ pairs a := pairs.mem_iff_mem.mp found
  refine arrived_of_absent fun m mem isPiece same => ?_
  rcases supplies.chunk left paired (mem_of_mem_take mem) isPiece with
    ⟨_, _, _, want, isSent, op, isRequest, _⟩
  have bounded := right.requests.bounded b want isSent op
  omega

lemma Net.Supplies.right_call
    (right : Reachable r rightConfig n.right) {call : Call} (isLocal : Net.Local pairs.symm call) :
    Net.Supplies pairs { n with right := (step r n.right call).2 } := by
  have unpaired : ∀ f m, Answers call f m → ¬ Net.Paired pairs f.owner := by
    rintro f m answers ⟨a, paired⟩
    obtain ⟨now, received⟩ := answers.received
    obtain isHint | absent := isLocal f.owner m now received
    · rw [answers.op] at isHint
      cases isHint
    rw [show pairs.symm f.owner = some a from pairs.mem_iff_mem.mpr paired] at absent
    cases absent
  refine ⟨?_, supplies.once, supplies.inOrder, supplies.read, ?_, ?_⟩
  · intro a b paired served mem
    obtain ⟨i, m, early, found, rest⟩ := supplies.asked a b paired served mem
    exact ⟨i, m, early, getElem?_of_grows (sent_grows (step_log_grows right.ready call) b) found,
      rest⟩
  · exact right.step_delivers call supplies.functional
      (fun f m answers isPaired => absurd isPaired (unpaired f m answers)) supplies.delivers
  exact Moves.sized (step_moves right.ready call) right.ready.keys right.ready.owners right.limits
    (fun _ isWatched => isWatched.1 rfl) (fun b request future _ => supplies.fresh left right future)
    (fun f m answers isWatched => unpaired f m answers isWatched.2) supplies.sized

/-- A fetch that waits for the request of the chunk waits for this chunk. -/
lemma Net.Supplies.waits
    (right : Reachable r rightConfig n.right) (paired : b ∈ pairs a) (positive : b ≠ 0)
    (next : (sent a n.left.pool.log)[n.rightRead b]? = some m) (isPiece : isChunk m = true) :
    m.request ≤ n.right.pool.nextRequest ∧ ∀ f ∈ n.right.pool.fetches, Waits b m f := by
  rcases supplies.chunk left paired (mem_of_getElem? next) isPiece with
    ⟨body, mem, piece, want, isSent, op, isRequest, id⟩
  refine ⟨isRequest ▸ right.requests.bounded b want isSent op, ?_⟩
  rintro f inFetches opened rfl request
  have asked := right.requests.asked f inFetches positive
  have same := (right.requests.ascending f.owner).unique asked isSent rfl op
    (request.trans isRequest.symm)
  have sameId : f.id = m.id := (congrArg Message.id same).trans id
  refine ⟨sameId, ?_, ?_⟩
  · rw [supplies.sized f inFetches opened ⟨positive, a, paired⟩, Net.progress_of_paired paired,
      request]
    exact ((supplies.inOrder a f.owner paired).consecutive _ m next isPiece).symm
  split
  next buffered =>
    rcases supplies.delivers.fetches f inFetches ⟨a, paired⟩
      (Option.isSome_iff_ne_none.mp buffered) with ⟨body', isServed, _, _, total⟩
    have isServed' : n.Served pairs f.owner f.request f.id body :=
      ⟨a, paired, by rw [request, sameId]; exact mem⟩
    obtain ⟨_, rfl⟩ := supplies.functional _ _ _ _ _ _ ⟨a, paired⟩ isServed isServed'
    exact total.trans piece.total.symm
  rename_i empty
  rw [Bool.not_eq_true, Option.isSome_eq_false_iff, Option.isNone_iff_eq_none] at empty
  exact (right.stored.fetches f inFetches).empty opened empty

end

end

variable {now : UInt64}

lemma Net.Supplies.genuine (supplies : n.Supplies pairs) (left : Reachable l leftConfig n.left)
    (hands : n.Hands pairs a b m now) :
    Genuine (Net.Paired pairs) (n.Served pairs) (.receive b m now) := by
  intro f m' answers _
  obtain ⟨now', received⟩ := answers.received
  cases received
  rcases supplies.chunk left hands.paired (mem_of_getElem? hands.next)
    (isChunk_iff.mpr ⟨answers.op, answers.valid⟩) with ⟨body, mem, piece, _⟩
  refine ⟨body, ⟨a, hands.paired, ?_⟩, piece⟩
  rw [← answers.request, ← answers.same]
  exact mem

lemma Net.progress_received (hands : n.Hands pairs a b m now) (other request : Nat) :
    (n.received r b m now).progress pairs other request = n.progress pairs other request +
        if isChunk m = true ∧ other = b ∧ request = m.request then m.data.length else 0 := by
  by_cases same : other = b
  · subst same
    rw [Net.progress_of_paired hands.paired, Net.progress_of_paired hands.paired]
    have taken : (sent a n.left.pool.log).take (n.rightRead other + 1) =
        (sent a n.left.pool.log).take (n.rightRead other) ++ [m] := by
      rw [take_add_one, hands.next]
      rfl
    rw [Net.rightRead_received, if_pos rfl, show (n.received r other m now).left = n.left from rfl,
      taken, arrived_append]
    congr 1
    split
    next matched => rw [matched.2.2, arrived_chunk matched.1]
    rename_i unmatched
    refine arrived_of_absent fun m' mem isPiece request' => unmatched ?_
    cases mem_singleton.mp mem
    exact ⟨isPiece, rfl, request'.symm⟩
  rw [if_neg fun matched => same matched.2.1, Nat.add_zero, Net.progress, Net.progress,
    Net.rightRead_received, if_neg same]
  rfl

lemma Net.Supplies.to_right (supplies : n.Supplies pairs) (left : Reachable l leftConfig n.left)
    (right : Reachable r rightConfig n.right) (hands : n.Hands pairs a b m now) :
    Net.Supplies pairs (n.received r b m now) := by
  obtain ⟨s, found, type⟩ := hands.isOpen
  have isOwner : s.owner = b := key_of_lookup found
  have positive : b ≠ 0 := isOwner ▸ (right.ready.owners.each s (mem_of_lookup found)).1
  have inside := (List.getElem?_eq_some_iff.mp hands.next).1
  refine ⟨?_, supplies.once, supplies.inOrder, ?_, ?_, ?_⟩
  · intro a b' paired served mem
    obtain ⟨i, m, early, isSent, rest⟩ := supplies.asked a b' paired served mem
    exact ⟨i, m, early, getElem?_of_grows (sent_grows (step_log_grows right.ready _) b') isSent,
      rest⟩
  · intro a' b' paired
    rw [Net.rightRead_received]
    split
    next same =>
      subst same
      cases pairs.inj paired hands.paired
      exact inside
    exact supplies.read a' b' paired
  · exact right.step_delivers _ supplies.functional (supplies.genuine left hands) supplies.delivers
  intro f mem opened isWatched
  rw [Net.progress_received hands]
  by_cases taken : isChunk m = true ∧ f.owner = b ∧ f.request = m.request
  · -- The chunk is for this fetch.
    rw [if_pos taken]
    obtain ⟨old, waits⟩ := supplies.waits left right hands.paired positive hands.next taken.1
    have awaits : Awaits (wgPrune n.right.pool now.toNat) s.owner m :=
      isOwner.symm ▸ right.awaits positive old waits taken.1 now.toNat
    have reached : Taken s.owner m (step r n.right (.receive b m now)).2.pool := by
      simp only [step, found]
      rw [wgReceive_dispatch taken.1 type hands.time]
      exact dispatch_taken awaits now
    rw [reached f mem opened ⟨taken.2.1.trans isOwner.symm, taken.2.2⟩]
    rw [taken.2.1, taken.2.2, Net.progress_of_paired hands.paired]
    exact congrArg (· + _)
      ((supplies.inOrder a b hands.paired).consecutive _ m hands.next taken.1)
  rw [if_neg taken, Nat.add_zero]
  have kept : Sized (fun b' request => (b' ≠ 0 ∧ Net.Paired pairs b') ∧
      ¬ (isChunk m = true ∧ b' = b ∧ request = m.request)) (n.progress pairs)
      (step r n.right (.receive b m now)).2.pool := by
    refine Moves.sized (step_moves right.ready _) right.ready.keys right.ready.owners
      right.limits (fun _ isWatched => isWatched.1.1 rfl)
      (fun b request future _ => supplies.fresh left right future) ?_
      fun f mem opened isWatched => supplies.sized f mem opened isWatched.1
    intro g m' answers isWatched
    obtain ⟨now', received⟩ := answers.received
    cases received
    exact isWatched.2 ⟨isChunk_iff.mpr ⟨answers.op, answers.valid⟩, rfl, answers.request.symm⟩
  exact kept f mem opened ⟨isWatched, taken⟩

/-! ## Runs -/

lemma Net.supplies_start
    (left : wgInit leftConfig = some p) (right : wgInit rightConfig = some q) :
    Net.Supplies pairs { left := { pool := p }, right := { pool := q } } := by
  cases wgInit_some left
  cases wgInit_some right
  refine ⟨by simp [servings], by simp [servings], fun _ _ _ => ⟨?_, by simp⟩, by simp, ⟨?_, by simp⟩, ?_⟩
  · intro i m found
    simp [sent] at found
  · simp [Pool.fetches]
  intro f mem
  simp [Pool.fetches] at mem

lemma Net.Run.supplies (run : Net.Run l r leftConfig rightConfig pairs n) : n.Supplies pairs := by
  induction run with
  | start left right => exact Net.supplies_start left right
  | event before event supplies =>
    have left := before.left
    have right := before.right
    cases event with
    | left call isLocal =>
      refine supplies.left_call left right call (fun _ => le_rfl) ?_
      intro a b m now paired received op
      obtain isHint | absent := isLocal a m now received
      · rw [op] at isHint
        cases isHint
      rw [show pairs a = some b from paired] at absent
      cases absent
    | right call isLocal => exact supplies.right_call left right isLocal
    | toRight a b m now hands => exact supplies.to_right left right hands
    | toLeft a b m now hands =>
      refine supplies.left_call left right (.receive a m now) (fun other => ?_) ?_
      · rw [Net.rightRead_received]
        split
        next same => exact same ▸ Nat.le_succ _
        exact le_rfl
      intro a' b' m' now' paired received _
      cases received
      have isPeer : b ∈ pairs a := pairs.mem_iff_mem.mp hands.paired
      cases Option.some.inj (paired.symm.trans isPeer)
      refine ⟨hands.next, ?_⟩
      rw [Net.rightRead_received, if_pos rfl]
      exact Nat.lt_succ_self _

/-! ## Integrity -/

/-- What the right pool gets from the left one: only bodies that hash to the digest
they were announced by; from a peer only bodies that the peer served, one for each
request; and with every chunk that it does not refuse the next bytes, until the
last one completes the body. -/
structure Net.Integrity (l r : Env) (pairs : Nat ≃. Nat) (n : Net) : Prop where
  digests : ∀ owner request id body, .completed owner request id body ∈ n.right.pool.log →
    r.digest id.type body = id.hash
  bodies : ∀ a b request id body, b ∈ pairs a →
    .completed b request id body ∈ n.right.pool.log →
      (request, id, body) ∈ servings a n.left.pool.log
  once : ∀ a b, b ∈ pairs a → ((servings a n.left.pool.log).map Prod.fst).Nodup
  progress : ∀ a b m now f, n.Hands pairs a b m now → isChunk m = true →
    l.digest = r.digest → (∀ count, r.identified count = true) →
    f ∈ (wgPrune n.right.pool now.toNat).pending → f.owner = b → f.request = m.request →
    (f.data ≠ none ∨ (startBuffer r (wgPrune n.right.pool now.toNat) f m.total).1 = true) →
    ∃ body, (m.request, m.id, body) ∈ servings a n.left.pool.log ∧
      if m.offset + m.data.length = body.length then
        .completed b m.request m.id body ∈ (n.received r b m now).right.pool.log
      else
        ∃ f' ∈ (n.received r b m now).right.pool.pending, f'.owner = b ∧
          f'.request = m.request ∧ f'.data = some (body.take (m.offset + m.data.length))

lemma PieceOf.take_append (piece : PieceOf m body) :
    body.take m.offset ++ m.data = body.take (m.offset + m.data.length) := by
  rw [piece.data, ← take_add, length_take, length_drop]
  apply take_eq_take_iff.mpr
  omega

lemma Net.Supplies.held (supplies : n.Supplies pairs) (right : Reachable r rightConfig n.right)
    (hands : n.Hands pairs a b m now) (mem : (m.request, m.id, body) ∈ servings a n.left.pool.log)
    {f : Fetch} (inPending : f ∈ (wgPrune n.right.pool now.toNat).pending) (isOwner : f.owner = b)
    (request : f.request = m.request) (offset : f.size = m.offset) (id : f.id = m.id) :
    f.data.getD [] = body.take m.offset := by
  have delivers : Delivers (Net.Paired pairs) (n.Served pairs) (wgPrune n.right.pool now.toNat) := by
    refine right.step_delivers (.prune now) supplies.functional ?_ supplies.delivers
    intro f m answers
    obtain ⟨_, received⟩ := answers.received
    cases received
  have isPaired : Net.Paired pairs f.owner := ⟨a, isOwner ▸ hands.paired⟩
  cases holds : f.data with
  | none =>
    have empty : m.offset = 0 := by simpa [Fetch.size, holds] using offset.symm
    rw [empty]
    rfl
  | some bytes =>
    rcases delivers.fetches f (mem_fetches_of_pending inPending) isPaired (by simp [holds]) with
      ⟨body', isServed, data, _⟩
    have isServed' : n.Served pairs f.owner f.request f.id body :=
      ⟨a, isOwner ▸ hands.paired, by rw [request, id]; exact mem⟩
    obtain ⟨_, rfl⟩ := supplies.functional _ _ _ _ _ _ isPaired isServed isServed'
    rw [← holds, data, offset]
    rfl

lemma Net.Run.integrity (run : Net.Run l r leftConfig rightConfig pairs n) :
    n.Integrity l r pairs := by
  have supplies := run.supplies
  refine ⟨run.right.stored.completed, ?_, supplies.once, ?_⟩
  · intro a b request id body paired mem
    rcases supplies.delivers.completed b request id body ⟨a, paired⟩ mem with
      ⟨a', paired', isServed⟩
    cases pairs.inj paired paired'
    exact isServed
  intro a b m now f hands isPiece sameDigest identified inPending isOwner request granted
  obtain ⟨s, found, type⟩ := hands.isOpen
  have sOwner : s.owner = b := key_of_lookup found
  have positive : b ≠ 0 := sOwner ▸ (run.right.ready.owners.each s (mem_of_lookup found)).1
  rcases supplies.chunk run.left hands.paired (mem_of_getElem? hands.next) isPiece with
    ⟨body, mem, piece, _⟩
  rcases supplies.waits run.left run.right hands.paired positive hands.next isPiece with
    ⟨old, waits⟩
  have awaits : Awaits (wgPrune n.right.pool now.toNat) s.owner m :=
    sOwner.symm ▸ run.right.awaits positive old waits isPiece now.toNat
  have sIsOwner := isOwner.trans sOwner.symm
  have waiting := awaits.waits f inPending (awaits.unaccepted f inPending) sIsOwner request
  rcases dispatch_accepts awaits inPending sIsOwner request now granted with
    ⟨q, f', after, takes, same⟩
  have held := supplies.held run.right hands mem inPending isOwner request waiting.2.1 waiting.1
  have bytes : f'.data.getD [] ++ m.data = body.take (m.offset + m.data.length) := by
    rw [same, held, piece.take_append]
  have pool : (n.received r b m now).right.pool = (receiveChunk r q f' m now.toNat).2 := by
    rw [← after, ← wgReceive_dispatch isPiece type hands.time]
    simp only [Net.received, step, found]
    rfl
  refine ⟨body, mem, ?_⟩
  rw [pool]
  split
  next last =>
    rw [last, List.take_length] at bytes
    have hashed : r.digest m.id.type (f'.data.getD [] ++ m.data) = m.id.hash := by
      rw [bytes, ← sameDigest]
      exact (run.left.serves.stored a _ mem).digest
    have completed := receiveChunk_completes takes now identified hashed
      (last.trans piece.total.symm)
    rw [bytes, sOwner] at completed
    exact completed
  rename_i more
  have continues : ∃ f'' ∈ (receiveChunk r q f' m now.toNat).2.pending, _ :=
    receiveChunk_continues takes now fun last => more (last.trans piece.total)
  rw [bytes, sOwner] at continues
  exact continues

/-- In every run of two pools, in both directions. -/
theorem exchange_integrity (run : Net.Run l r leftConfig rightConfig pairs n) :
    n.Integrity l r pairs ∧ n.swap.Integrity r l pairs.symm :=
  ⟨run.integrity, run.swap.integrity⟩

def greetingId : Id := { type := 1, hash := generous.digest 1 [7] }

/-- The left pool has stored the byte, the right one has heard of it and asks. -/
def greeted : Net where
  left := run generous { pool := { config := small } } [.openSession 1, .offer 1 [7] 1000 5]
  right := run generous { pool := { config := small } }
    [.openSession 1, .receive 1 { id := greetingId, op := .wgHave } 5]

def greetingWant : Message := { id := greetingId, op := .wgWant, request := 1 }

def greetingData : Message :=
  { id := greetingId, op := .wgData, request := 1, total := 1, data := [7] }

/-- The request is delivered, served and answered. -/
def greeting : Net :=
  let asked := (greeted.swap.received generous 1 greetingWant 5).swap
  let served := { asked with left := (step generous asked.left (.poll 1 5)).2 }
  served.received generous 1 greetingData 5

lemma greeting_run : Net.Run generous generous small small (PEquiv.single 1 1) greeting := by
  have quiet : ∀ call : Call, (∀ owner m now, call = .receive owner m now → m.op = .wgHave) →
      Net.Local (PEquiv.single 1 1) call :=
    fun call hint owner m now received => .inl (hint owner m now received)
  have first : Net.Run generous generous small small (PEquiv.single 1 1)
      { left := { pool := { config := small } }, right := { pool := { config := small } } } :=
    .start rfl rfl
  have opened := (first.event (.left (.openSession 1) (quiet _ (by simp)))).event
    (.left (.offer 1 [7] 1000 5) (quiet _ (by simp)))
  have hinted := (opened.event (.right (.openSession 1) (quiet _ (by simp)))).event
    (.right (.receive 1 { id := greetingId, op := .wgHave } 5) (quiet _ (by simp)))
  have asked := hinted.event (.toLeft 1 1 greetingWant 5
    ⟨by simp, by decide +kernel, ⟨_, rfl, by decide +kernel⟩, by decide⟩)
  have served := asked.event (.left (.poll 1 5) (quiet _ (by simp)))
  exact served.event (.toRight 1 1 greetingData 5
    ⟨by simp, by decide +kernel, ⟨_, rfl, by decide +kernel⟩, by decide⟩)

/-- The byte arrives. -/
theorem exchange_integrity_greeting : .completed 1 1 greetingId [7] ∈ greeting.right.pool.log ∧
      (1, greetingId, [7]) ∈ servings 1 greeting.left.pool.log :=
  have arrives : .completed 1 1 greetingId [7] ∈ greeting.right.pool.log := by decide +kernel
  ⟨arrives, (exchange_integrity greeting_run).1.bodies 1 1 1 greetingId [7] (by simp) arrives⟩

end WendyLite.Gossip
