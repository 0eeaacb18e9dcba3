import WendyLite.Gossip.Bodies

/-! # Transfers

A transfer names an object and logs the body it sets out to serve. Every chunk
that a session sends is a piece of a body it serves, and the pieces of one body
follow each other.
-/

namespace WendyLite.Gossip

open KeyedList Relation List

variable {env : Env} {call : Call} {p p' : Pool} {w w' : World} {s : Session} {config : Config}

/-! ## What a session has sent -/

variable (owner : Nat)

def sentMessage : Effect → Option Message
  | .emitted other m result => if other = owner ∧ result = 0 then some m else none
  | _ => none

def sent (log : List Effect) : List Message := log.filterMap (sentMessage owner)

def servedBody : Effect → Option (Nat × Id × List UInt8)
  | .serving other request id body => if other = owner then some (request, id, body) else none
  | _ => none

def servings (log : List Effect) : List (Nat × Id × List UInt8) :=
  log.filterMap (servedBody owner)

/-- A chunk that `wg_receive` accepts. -/
def isChunk (m : Message) : Bool := m.op == .wgData && wgValidate m == 0

variable {m : Message}

lemma isChunk_iff : isChunk m = true ↔ m.op = .wgData ∧ wgValidate m = 0 := by
  simp [isChunk]

def arrived (request : Nat) (messages : List Message) : Nat :=
  ((messages.filter fun m => isChunk m && m.request == request).map fun m => m.data.length).sum

lemma arrived_append (request : Nat) (first second : List Message) :
    arrived request (first ++ second) = arrived request first + arrived request second := by
  simp [arrived]

variable {messages : List Message}

lemma arrived_of_absent {request : Nat}
    (absent : ∀ m ∈ messages, isChunk m = true → m.request ≠ request) :
    arrived request messages = 0 := by
  have none : (messages.filter fun m => isChunk m && m.request == request) = [] := by
    rw [filter_eq_nil_iff]
    intro m mem
    simpa using absent m mem
  rw [arrived, none]
  rfl

lemma arrived_chunk (chunk : isChunk m = true) : arrived m.request [m] = m.data.length := by
  simp [arrived, chunk]

lemma sent_append (log effects : List Effect) :
    sent owner (log ++ effects) = sent owner log ++ sent owner effects :=
  filterMap_append

lemma servings_append (log effects : List Effect) :
    servings owner (log ++ effects) = servings owner log ++ servings owner effects :=
  filterMap_append

lemma sent_emitted (owner other : Nat) (m : Message) :
    sent owner [.emitted other m 0] = if owner = other then [m] else [] := by
  by_cases same : owner = other
  · simp [sent, sentMessage, same]
  simp [sent, sentMessage, same, Ne.symm same]

def Effect.unserving (effect : Effect) : Prop :=
  ∀ owner, servedBody owner effect = none ∧ ∀ m, sentMessage owner effect = some m → isChunk m = false

lemma unserving_emitted {owner : Nat} {result : Int}
    (other : result ≠ 0 ∨ m.op ≠ .wgData) : (Effect.emitted owner m result).unserving := by
  intro asked
  refine ⟨rfl, fun m' isSent => ?_⟩
  simp only [sentMessage] at isSent
  split at isSent
  next accepted =>
    cases isSent
    obtain refused | notData := other
    · exact absurd accepted.2 refused
    simp [isChunk, notData]
  cases isSent

lemma PoolMove.unserving (move : PoolMove env call p p') : Logs Effect.unserving p p' := by
  obtain ⟨effects, log, each⟩ := move.logs
  refine ⟨effects, log, fun effect mem => ?_⟩
  have ofPool := each effect mem
  cases effect with
  | emitted other m sent =>
    apply unserving_emitted
    obtain refused | isUnavailable | ⟨isWant, _⟩ := ofPool
    · exact .inl refused
    · exact .inr (isUnavailable ▸ by decide)
    exact .inr (isWant ▸ by decide)
  | serving => exact ofPool.elim
  | announced => exact fun _ => ⟨rfl, fun m isSent => by cases isSent⟩
  | _ => exact fun _ => ⟨rfl, fun m isSent => by cases isSent⟩

lemma Logs.servings (logs : Logs Effect.unserving p p') (owner : Nat) :
    servings owner p'.log = servings owner p.log := by
  obtain ⟨effects, log, each⟩ := logs
  rw [log, servings_append]
  have none : Gossip.servings owner effects = [] :=
    filterMap_eq_nil_iff.mpr fun effect mem => (each effect mem owner).1
  rw [none, append_nil]

lemma Logs.sent (logs : Logs Effect.unserving p p') (owner : Nat) :
    ∃ more, sent owner p'.log = sent owner p.log ++ more ∧ ∀ m ∈ more, isChunk m = false := by
  obtain ⟨effects, log, each⟩ := logs
  refine ⟨Gossip.sent owner effects, log ▸ sent_append owner p.log effects, fun m mem => ?_⟩
  obtain ⟨effect, inEffects, isSent⟩ := mem_filterMap.mp mem
  exact (each effect inEffects owner).2 m isSent

/-! ## Chunks of served bodies -/

/-- The message is the piece of the body at its offset. -/
structure PieceOf (m : Message) (body : List UInt8) : Prop where
  total : m.total = body.length
  data : m.data = (body.drop m.offset).take chunk

/-- The transfer serves this body, or its object has lost its bytes. -/
def Backs (o : Object) (t : Transfer) (body : List UInt8) : Prop :=
  o.data = none ∨ (o.data = some body ∧ t.offset % chunk = 0 ∧ t.offset < body.length)

/-- The transfer of a session is backed by an object and logged. -/
def Backed (w : World) (owner : Nat) (t : Transfer) : Prop :=
  t.request ≠ 0 ∧ ∃ o ∈ w.pool.objects, o.born = t.object ∧
    ∃ body, (t.request, o.id, body) ∈ servings owner w.pool.log ∧ Backs o t body

structure Serves (env : Env) (w : World) : Prop where
  transfers : ∀ s ∈ w.sessions, ∀ t ∈ s.out, Backed w s.owner t
  distinct : ∀ s ∈ w.sessions, (s.out.map Transfer.request).Nodup
  pieces : ∀ owner, ∀ m ∈ sent owner w.pool.log, isChunk m = true →
    ∃ body, (m.request, m.id, body) ∈ servings owner w.pool.log ∧ PieceOf m body
  stored : ∀ owner, ∀ served ∈ servings owner w.pool.log, StoredOk env served.2.1 served.2.2

variable {t : Transfer} {o : Object}

lemma References.used (references : References w) (inSessions : s ∈ w.sessions)
    (inOut : t ∈ s.out) (mem : o ∈ w.pool.objects) (same : o.born = t.object) : o.refs ≠ 0 := by
  have counted := references.refs o mem
  have positive : 0 < served w o.born := by
    rw [served, countP_pos_iff]
    exact ⟨t, mem_transfers inSessions inOut, by simp [same]⟩
  omega

lemma Backed.mono {owner : Nat} (backed : Backed w owner t)
    (persists : ∀ o ∈ w.pool.objects, o.born = t.object → ∃ o' ∈ w'.pool.objects,
      o'.born = o.born ∧ o'.id = o.id ∧ (o'.data = none ∨ o'.data = o.data))
    (logged : ∀ served ∈ servings owner w.pool.log, served ∈ servings owner w'.pool.log) :
    Backed w' owner t := by
  obtain ⟨positive, o, mem, same, body, served, backs⟩ := backed
  obtain ⟨o', member', born, id, data⟩ := persists o mem same
  refine ⟨positive, o', member', born.trans same, body, id ▸ logged _ served, ?_⟩
  obtain gone | kept := data
  · exact .inl gone
  rw [Backs, kept]
  exact backs

lemma Serves.backed (serves : Serves env w) (keys : Keys w.pool) (references : References w)
    (move : ObjectMove env call w.pool w'.pool)
    (logged : ∀ owner, ∀ served ∈ servings owner w.pool.log, served ∈ servings owner w'.pool.log)
    (inSessions : s ∈ w.sessions) (inOut : t ∈ s.out) : Backed w' s.owner t :=
  (serves.transfers s inSessions t inOut).mono
    (fun _ mem same =>
      move.persists keys mem (references.used inSessions inOut mem same))
    (logged s.owner)

lemma Serves.of_unserving (serves : Serves env w) (keys : Keys w.pool)
    (references : References w) (move : ObjectMove env call w.pool w'.pool)
    (logs : Logs Effect.unserving w.pool w'.pool)
    (sessions : ∀ s' ∈ w'.sessions, s'.out = [] ∨ ∃ s ∈ w.sessions, s'.owner = s.owner ∧
      s'.out.Sublist s.out) : Serves env w' where
  transfers s' inAfter t inOut := by
    obtain empty | ⟨s, inBefore, owner, sublist⟩ := sessions s' inAfter
    · rw [empty] at inOut
      cases inOut
    rw [owner]
    exact serves.backed keys references move (fun owner _ mem => logs.servings owner ▸ mem)
      inBefore (sublist.subset inOut)
  distinct s' inAfter := by
    obtain empty | ⟨s, inBefore, _, sublist⟩ := sessions s' inAfter
    · rw [empty]
      exact nodup_nil
    exact (sublist.map _).nodup (serves.distinct s inBefore)
  pieces owner m mem isPiece := by
    obtain ⟨more, equal, others⟩ := logs.sent owner
    rw [equal] at mem
    rw [logs.servings]
    obtain before | isNew := mem_append.mp mem
    · exact serves.pieces owner m before isPiece
    rw [others m isNew] at isPiece
    cases isPiece
  stored owner served mem := serves.stored owner served (logs.servings owner ▸ mem)

variable {body : List UInt8}

variable {n : Nat}

lemma chunkMessage_spec
    (backs : Backs o t body) (amount : n = min (sizeSub o.size t.offset) chunk) :
    (isChunk (chunkMessage o t n) = true → PieceOf (chunkMessage o t n) body) ∧
      (t.offset + n ≠ o.size → Backs o { t with offset := t.offset + n } body) := by
  obtain gone | ⟨holds, aligned, inside⟩ := backs
  · refine ⟨fun isPiece => ?_, fun _ => .inl gone⟩
    obtain ⟨op, valid⟩ := isChunk_iff.mp isPiece
    have offset := (chunkOk_of_valid valid op).offset
    simp [chunkMessage, Object.size, gone] at offset
  have size : o.size = body.length := by rw [Object.size, holds, Option.getD_some]
  rw [sizeSub_of_le (by omega), size] at amount
  have literal : chunk = 1024 := rfl
  refine ⟨fun _ => ⟨size, ?_⟩, fun more => .inr ⟨holds, ?_, ?_⟩⟩
  · show ((o.data.getD []).drop t.offset).take n = (body.drop t.offset).take chunk
    rw [holds, Option.getD_some, amount]
    apply take_eq_take_iff.mpr
    rw [length_drop]
    omega
  · have aligned : t.offset % 1024 = 0 := aligned
    show (t.offset + n) % 1024 = 0
    omega
  show t.offset + n < body.length
  omega

lemma mem_servings_report {owner : Nat} {served : Nat × Id × List UInt8}
    (mem : served ∈ servings owner p.log) : served ∈ servings owner (p.report effect).log :=
  servings_append owner p.log [effect] ▸ mem_append_left _ mem

lemma Serves.of_put (serves : Serves env w) (keys : Keys w.pool) (references : References w)
    {next : Session} (same : next.owner = s.owner) (move : ObjectMove env call w.pool p)
    (logged : ∀ owner, ∀ served ∈ servings owner w.pool.log, served ∈ servings owner p.log)
    (queue : ∀ t ∈ next.out, Backed (w.putSession p next) s.owner t)
    (distinct : (next.out.map Transfer.request).Nodup)
    (pieces : ∀ owner, ∀ m ∈ sent owner p.log, isChunk m = true →
      ∃ body, (m.request, m.id, body) ∈ servings owner p.log ∧ PieceOf m body)
    (stored : ∀ owner, ∀ served ∈ servings owner p.log, StoredOk env served.2.1 served.2.2) :
    Serves env (w.putSession p next) where
  transfers s' inAfter t inOut := by
    obtain rfl | ⟨old, _⟩ := of_mem_putSession inAfter same
    · exact same ▸ queue t inOut
    exact serves.backed keys references move logged old inOut
  distinct s' inAfter := by
    obtain rfl | ⟨old, _⟩ := of_mem_putSession inAfter same
    · exact distinct
    exact serves.distinct s' old
  pieces := pieces
  stored := stored

lemma Serves.send (serves : Serves env w) (keys : Keys w.pool) (inSessions : s ∈ w.sessions)
    (inOut : t ∈ s.out) (mem : o ∈ w.pool.objects)
    (same : o.born = t.object) (amount : n = min (sizeSub o.size t.offset) chunk) :
    (∀ owner, ∀ m ∈ sent owner (w.pool.log ++ [.emitted s.owner (chunkMessage o t n) 0]),
      isChunk m = true → ∃ body, (m.request, m.id, body) ∈
          servings owner (w.pool.log ++ [.emitted s.owner (chunkMessage o t n) 0]) ∧
          PieceOf m body) ∧ ∀ owner, ∀ served ∈
          servings owner (w.pool.log ++ [.emitted s.owner (chunkMessage o t n) 0]),
        StoredOk env served.2.1 served.2.2 := by
  have unchanged : ∀ owner,
      servings owner (w.pool.log ++ [.emitted s.owner (chunkMessage o t n) 0]) =
        servings owner w.pool.log := by
    intro owner
    rw [servings_append]
    exact append_nil _
  refine ⟨fun owner m isSent isPiece => ?_, fun owner served inServed => ?_⟩
  · rw [unchanged]
    rw [sent_append, sent_emitted] at isSent
    obtain before | isNew := mem_append.mp isSent
    · exact serves.pieces owner m before isPiece
    split at isNew
    next isOwner =>
      cases mem_singleton.mp isNew
      obtain ⟨_, o', member', same', body, served, backs⟩ := serves.transfers s inSessions t inOut
      cases eq_of_key_eq keys.borns member' mem (same'.trans same.symm)
      exact ⟨body, isOwner ▸ served, (chunkMessage_spec backs amount).1 isPiece⟩
    cases isNew
  rw [unchanged] at inServed
  exact serves.stored owner served inServed

lemma wantOk_of_valid (valid : wgValidate m = 0) (op : m.op = .wgWant) : m.request ≠ 0 := by
  intro zero
  simp [wgValidate, op, knownOp, zero] at valid

lemma startTransfer_serves (serves : Serves env w) (keys : Keys w.pool)
    (references : References w) (stored : Stored env w.pool)
    (inSessions : s ∈ w.sessions) (mem : o ∈ w.pool.objects)
    (holds : o.data = some body) (op : m.op = .wgWant) (valid : wgValidate m = 0)
    (fresh : ∀ t ∈ s.out, t.request ≠ m.request) (move : ObjectMove env call w.pool
      ({ w.pool.modifyObject o.born fun o => { o with refs := o.refs + 1 } with
          serving := w.pool.serving + 1 }.report (.serving s.owner m.request o.id body))) :
    Serves env (w.putSession
      ({ w.pool.modifyObject o.born fun o => { o with refs := o.refs + 1 } with
          serving := w.pool.serving + 1 }.report (.serving s.owner m.request o.id body))
      { s with
        serving := s.serving + 1
        out := s.out ++ [{ object := o.born, request := m.request }] }) := by
  have ok := stored.objects o mem body holds
  have logged : ∀ owner, servings owner (w.pool.log ++ [.serving s.owner m.request o.id body]) =
      servings owner w.pool.log ++ if owner = s.owner then [(m.request, o.id, body)] else [] := by
    intro owner
    rw [servings_append]
    congr 1
    by_cases same : owner = s.owner
    · simp [servings, servedBody, same]
    simp [servings, servedBody, same, Ne.symm same]
  have more : ∀ owner, ∀ served ∈ servings owner w.pool.log,
      served ∈ servings owner (w.pool.log ++ [.serving s.owner m.request o.id body]) :=
    fun owner served inServed => servings_append owner _ _ ▸ mem_append_left _ inServed
  refine serves.of_put keys references rfl move more ?_ ?_ ?_ ?_
  · intro t inOut
    obtain old | isNew := mem_append.mp inOut
    · exact (serves.transfers s inSessions t old).mono
        (fun o' member' same => move.persists keys member'
          (references.used inSessions old member' same)) (more s.owner)
    cases mem_singleton.mp isNew
    refine ⟨wantOk_of_valid valid op, { o with refs := o.refs + 1 }, mem_alter_self mem, rfl,
      body, ?_, .inr ⟨holds, rfl, length_pos_iff.mpr ok.nonempty⟩⟩
    show _ ∈ servings s.owner (w.pool.log ++ [.serving s.owner m.request o.id body])
    rw [logged, if_pos rfl]
    exact mem_append_right _ (mem_singleton_self _)
  · rw [map_append, nodup_append]
    refine ⟨serves.distinct s inSessions, by simp, ?_⟩
    intro request listed other isNew
    obtain ⟨t, inOut, rfl⟩ := mem_map.mp listed
    rw [mem_singleton.mp isNew]
    exact fresh t inOut
  · intro owner m' isSent isPiece
    have unchanged : sent owner (w.pool.log ++ [.serving s.owner m.request o.id body]) =
        sent owner w.pool.log := by
      rw [sent_append]
      exact append_nil _
    obtain ⟨served, inServed, piece⟩ := serves.pieces owner m' (unchanged ▸ isSent) isPiece
    exact ⟨served, more owner _ inServed, piece⟩
  intro owner served inServed
  have inServed : served ∈ servings owner w.pool.log ++
      if owner = s.owner then [(m.request, o.id, body)] else [] := logged owner ▸ inServed
  obtain old | isNew := mem_append.mp inServed
  · exact serves.stored owner served old
  split at isNew
  · rw [mem_singleton.mp isNew]
    exact ok
  cases isNew

lemma announce_unserving (w : World) (s : Session) (gone : Object) : Logs Effect.unserving w.pool
      ((w.pool.report (.emitted s.owner { id := gone.id, op := .wgGone } 0)).report
        (.announced s.owner gone.withdrawal gone.id)) := by
  refine ⟨[.emitted s.owner { id := gone.id, op := .wgGone } 0,
    .announced s.owner gone.withdrawal gone.id], append_assoc _ _ _, fun effect mem => ?_⟩
  obtain rfl | isLast := mem_cons.mp mem
  · exact unserving_emitted (.inr (by simp))
  cases mem_singleton.mp isLast
  exact fun _ => ⟨rfl, fun m isSent => by cases isSent⟩

lemma Move.serves (move : Move env call w w') (keys : Keys w.pool) (references : References w)
    (stored : Stored env w.pool) (serves : Serves env w) : Serves env w' := by
  have objects := move.objects references
  cases move with
  | pool move =>
    exact serves.of_unserving keys references objects move.unserving
      fun s mem => .inr ⟨s, mem, rfl, List.Sublist.refl _⟩
  | openSession type =>
    refine serves.of_unserving keys references objects (.none rfl) fun s mem => ?_
    obtain old | isNew := mem_append.mp mem
    · exact .inr ⟨s, old, rfl, List.Sublist.refl _⟩
    cases mem_singleton.mp isNew
    exact .inl rfl
  | leave s mem idle =>
    exact serves.of_unserving keys references objects (.none rfl)
      fun s' inAfter => .inr ⟨s', (mem_erase.mp inAfter).1, rfl, List.Sublist.refl _⟩
  | startTransfer s o m body now inSessions mem holds live received op same fresh valid =>
    exact startTransfer_serves serves keys references stored inSessions mem holds op valid fresh
      objects
  | sendChunk s t rest o n inSessions out mem same live amount more =>
    have inOut : t ∈ s.out := out ▸ mem_cons_self ..
    obtain ⟨pieces, bodies⟩ := serves.send keys inSessions inOut mem same amount
    refine serves.of_put keys references rfl objects (fun _ _ => mem_servings_report) ?_ ?_ pieces
      bodies
    · intro t' inNext
      obtain old | isNew := mem_append.mp inNext
      · exact (serves.transfers s inSessions t' (out ▸ mem_cons_of_mem _ old)).mono
          (fun o' member' _ => ⟨o', member', rfl, rfl, .inr rfl⟩) fun _ => mem_servings_report
      cases mem_singleton.mp isNew
      rcases serves.transfers s inSessions t inOut with
        ⟨positive, o', member', same', body, served, backs⟩
      cases eq_of_key_eq keys.borns member' mem (same'.trans same.symm)
      exact ⟨positive, _, mem, same', body, mem_servings_report served,
        (chunkMessage_spec backs amount).2 more⟩
    have distinct := serves.distinct s inSessions
    rw [out] at distinct
    rw [map_append]
    exact (perm_append_singleton _ _).nodup_iff.mpr distinct
  | sendLast s t rest o n inSessions out mem same live amount last =>
    have inOut : t ∈ s.out := out ▸ mem_cons_self ..
    obtain ⟨pieces, bodies⟩ := serves.send keys inSessions inOut mem same amount
    refine serves.of_put keys references rfl objects (fun _ _ => mem_servings_report) ?_ ?_ pieces
      bodies
    · intro t' inRest
      have inOut' : t' ∈ s.out := out ▸ mem_cons_of_mem _ inRest
      exact (serves.transfers s inSessions t' inOut').mono
        (fun o' member' same' => objects.persists keys member'
          (references.used inSessions inOut' member' same')) fun _ => mem_servings_report
    have distinct := serves.distinct s inSessions
    rw [out] at distinct
    exact (nodup_cons.mp distinct).2
  | endTransfer s t rest inSessions out =>
    refine serves.of_unserving keys references objects (.none rfl) fun s' inAfter => .inr ?_
    obtain rfl | ⟨old, _⟩ := of_mem_putSession (s := s) inAfter rfl
    · exact ⟨s, inSessions, rfl, out ▸ sublist_cons_self t rest⟩
    exact ⟨s', old, rfl, List.Sublist.refl _⟩
  | announce s gone inSessions =>
    refine serves.of_unserving keys references objects (announce_unserving w s gone)
      fun s' inAfter => .inr ?_
    obtain rfl | ⟨old, _⟩ := of_mem_putSession (s := s) inAfter rfl
    · exact ⟨s, inSessions, rfl, List.Sublist.refl _⟩
    exact ⟨s', old, rfl, List.Sublist.refl _⟩

/-! ## The order of chunks -/

/-- Each chunk starts where the chunks before it end. -/
def Consecutive (messages : List Message) : Prop :=
  ∀ i m, messages[i]? = some m → isChunk m = true → m.offset = arrived m.request (messages.take i)

lemma Consecutive.append {more : List Message} (first : Consecutive messages)
    (second : ∀ i m, more[i]? = some m → isChunk m = true →
      m.offset = arrived m.request (messages ++ more.take i)) : Consecutive (messages ++ more) := by
  intro i m found isPiece
  by_cases early : i < messages.length
  · rw [getElem?_append_left early] at found
    rw [take_append_of_le_length early.le]
    exact first i m found isPiece
  have late := Nat.not_lt.mp early
  rw [getElem?_append_right late] at found
  rw [List.take_append, take_of_length_le late]
  exact second _ m found isPiece

/-- The chunks of one session are in order, and its transfers know where they are. -/
structure InOrder (owner : Nat) (w : World) : Prop where
  consecutive : Consecutive (sent owner w.pool.log)
  transfers : ∀ s ∈ w.sessions, s.owner = owner → ∀ t ∈ s.out, ∀ o ∈ w.pool.objects,
    o.born = t.object → o.data ≠ none → t.offset = arrived t.request (sent owner w.pool.log)

lemma arrived_of_no_chunks {request : Nat}
    (none : ∀ m ∈ messages, isChunk m = false) : arrived request messages = 0 := by
  refine arrived_of_absent fun m mem isPiece => ?_
  rw [none m mem] at isPiece
  cases isPiece

lemma ObjectMove.holding (move : ObjectMove env call p p') (keys : Keys p)
    (member' : o' ∈ p'.objects) (holds : o'.data ≠ none)
    (known : ∃ o ∈ p.objects, o.born = o'.born ∧ o.refs ≠ 0) (keys' : Keys p') :
    ∃ o ∈ p.objects, o.born = o'.born ∧ o.data ≠ none := by
  obtain ⟨o, mem, same, used⟩ := known
  obtain ⟨o'', member'', born, _, data⟩ := move.persists keys mem used
  cases eq_of_key_eq keys'.borns member'' member' (born.trans same)
  refine ⟨o, mem, same, ?_⟩
  obtain gone | kept := data
  · exact absurd gone holds
  exact kept ▸ holds

lemma InOrder.of_unserving {owner : Nat} (inOrder : InOrder owner w) (keys : Keys w.pool)
    (keys' : Keys w'.pool) (references : References w)
    (move : ObjectMove env call w.pool w'.pool) (logs : Logs Effect.unserving w.pool w'.pool)
    (sessions : ∀ s' ∈ w'.sessions, s'.out = [] ∨ ∃ s ∈ w.sessions, s'.owner = s.owner ∧
      s'.out.Sublist s.out) : InOrder owner w' := by
  obtain ⟨more, equal, others⟩ := logs.sent owner
  refine ⟨?_, ?_⟩
  · rw [equal]
    refine inOrder.consecutive.append fun i m found isPiece => ?_
    rw [others m (mem_of_getElem? found)] at isPiece
    cases isPiece
  intro s' inAfter isOwner t inOut o' member' same holds
  obtain empty | ⟨s, inBefore, owner, sublist⟩ := sessions s' inAfter
  · rw [empty] at inOut
    cases inOut
  have inOut := sublist.subset inOut
  obtain ⟨o, mem, named⟩ := references.named t (mem_transfers inBefore inOut)
  have known : ∃ o ∈ w.pool.objects, o.born = o'.born ∧ o.refs ≠ 0 :=
    ⟨o, mem, named.trans same.symm, references.used inBefore inOut mem named⟩
  obtain ⟨old, inOld, born, held⟩ := move.holding keys member' holds known keys'
  rw [equal, arrived_append, arrived_of_no_chunks others, Nat.add_zero]
  exact inOrder.transfers s inBefore (owner ▸ isOwner) t inOut old inOld (born.trans same) held

lemma chunkMessage_valid
    (backs : Backs o t body) (holds : o.data ≠ none) (positive : t.request ≠ 0)
    (ok : StoredOk env o.id body) (amount : n = min (sizeSub o.size t.offset) chunk) :
    isChunk (chunkMessage o t n) = true ∧ (chunkMessage o t n).data.length = n := by
  obtain gone | ⟨isBody, aligned, inside⟩ := backs
  · exact absurd gone holds
  have size : o.size = body.length := by rw [Object.size, isBody, Option.getD_some]
  rw [sizeSub_of_le (by omega), size] at amount
  have length : (chunkMessage o t n).data.length = n := by
    simp only [chunkMessage, isBody, Option.getD_some, length_take, length_drop]
    omega
  have total : (chunkMessage o t n).total = body.length := size
  refine ⟨isChunk_iff.mpr ⟨rfl, ChunkOk.valid ?_ rfl ok.known⟩, length⟩
  exact ⟨positive, total ▸ ok.size, total ▸ inside, aligned, length.trans (total ▸ amount)⟩

lemma Serves.other (serves : Serves env w) (inSessions : s ∈ w.sessions) (out : s.out = t :: rest)
    (queued : t' ∈ rest) :
    t'.request ≠ t.request := by
  have distinct := serves.distinct s inSessions
  rw [out, map_cons, nodup_cons] at distinct
  exact fun equal => distinct.1 (equal ▸ mem_map_of_mem queued)

/-- What sending a chunk does to the position of the transfers of its session. -/
lemma InOrder.send {owner : Nat} (inOrder : InOrder owner w) (keys : Keys w.pool)
    (serves : Serves env w) (inSessions : s ∈ w.sessions) (inOut : t ∈ s.out)
    (mem : o ∈ w.pool.objects) (same : o.born = t.object)
    (amount : n = min (sizeSub o.size t.offset) chunk) :
    Consecutive (sent owner (w.pool.log ++ [.emitted s.owner (chunkMessage o t n) 0])) ∧
      (∀ request, (owner = s.owner → request ≠ t.request) →
        arrived request (sent owner (w.pool.log ++ [.emitted s.owner (chunkMessage o t n) 0])) =
          arrived request (sent owner w.pool.log)) ∧ (s.owner = owner → o.data ≠ none →
        t.offset + n = arrived t.request
          (sent owner (w.pool.log ++ [.emitted s.owner (chunkMessage o t n) 0]))) := by
  obtain ⟨positive, o', member', same', body, served, backs⟩ := serves.transfers s inSessions t inOut
  cases eq_of_key_eq keys.borns member' mem (same'.trans same.symm)
  have stored := serves.stored s.owner _ served
  rw [sent_append, sent_emitted]
  refine ⟨inOrder.consecutive.append fun i m found isPiece => ?_, fun request other => ?_,
    fun isOwner holds => ?_⟩
  · split at found
    next isOwner =>
      cases i with
      | succ i => cases found
      | zero =>
        cases found
        rw [take_zero, append_nil]
        refine inOrder.transfers s inSessions isOwner.symm t inOut _ mem same ?_
        intro gone
        have offset := (chunkOk_of_valid (isChunk_iff.mp isPiece).2 rfl).offset
        simp [chunkMessage, Object.size, gone] at offset
    cases found
  · rw [arrived_append]
    split
    next isOwner =>
      have none : arrived request [chunkMessage o t n] = 0 := by
        refine arrived_of_absent fun m isM _ => ?_
        rw [mem_singleton.mp isM]
        exact (other isOwner).symm
      rw [none, Nat.add_zero]
    rfl
  obtain ⟨isPiece, length⟩ := chunkMessage_valid backs holds positive stored amount
  have last : arrived t.request [chunkMessage o t n] = n := (arrived_chunk isPiece).trans length
  rw [if_pos isOwner.symm, arrived_append, last,
    inOrder.transfers s inSessions isOwner t inOut _ mem same holds]

lemma startTransfer_inOrder {owner : Nat} (inOrder : InOrder owner w) (serves : Serves env w)
    (inSessions : s ∈ w.sessions)
    (unserved : s.owner = owner → ∀ served ∈ servings owner w.pool.log, served.1 ≠ m.request) :
    InOrder owner (w.putSession
      ({ w.pool.modifyObject o.born fun o => { o with refs := o.refs + 1 } with
          serving := w.pool.serving + 1 }.report (.serving s.owner m.request o.id body))
      { s with
        serving := s.serving + 1
        out := s.out ++ [{ object := o.born, request := m.request }] }) := by
  have unchanged : sent owner (w.pool.log ++ [.serving s.owner m.request o.id body]) =
      sent owner w.pool.log := by
    rw [sent_append]
    exact append_nil _
  refine ⟨?_, ?_⟩
  · show Consecutive (sent owner (w.pool.log ++ [.serving s.owner m.request o.id body]))
    exact unchanged ▸ inOrder.consecutive
  intro s' inAfter isOwner t inOut o' member' same holds
  show t.offset = arrived t.request
    (sent owner (w.pool.log ++ [.serving s.owner m.request o.id body]))
  rw [unchanged]
  obtain ⟨old, inOld, equal⟩ := mem_alter.mp member'
  have unaltered : o'.born = old.born ∧ o'.data = old.data := by
    split at equal <;> exact equal ▸ ⟨rfl, rfl⟩
  have held : old.data ≠ none := unaltered.2 ▸ holds
  have born : old.born = t.object := unaltered.1.symm.trans same
  obtain rfl | ⟨before, _⟩ := of_mem_putSession (s := s) inAfter rfl
  · obtain queued | isNew := mem_append.mp inOut
    · exact inOrder.transfers s inSessions isOwner t queued old inOld born held
    cases mem_singleton.mp isNew
    refine (arrived_of_absent fun m' isSent isPiece => ?_).symm
    obtain ⟨piece, inServed, _⟩ := serves.pieces owner m' isSent isPiece
    exact unserved isOwner _ inServed
  exact inOrder.transfers s' before isOwner t inOut old inOld born held

lemma Move.servings_cases (move : Move env call w w') (owner : Nat) :
    servings owner w'.pool.log = servings owner w.pool.log ∨
      ∃ m now body, call = .receive owner m now ∧ m.op = .wgWant ∧
        servings owner w'.pool.log = servings owner w.pool.log ++ [(m.request, m.id, body)] := by
  cases move with
  | pool move => exact .inl (move.unserving.servings owner)
  | startTransfer s o m body now inSessions mem holds live received op same =>
    by_cases isOwner : s.owner = owner
    · refine .inr ⟨m, now, body, isOwner ▸ received, op, ?_⟩
      rw [← same, ← isOwner]
      exact (servings_append s.owner w.pool.log _).trans (by simp [Gossip.servings, servedBody])
    exact .inl ((servings_append owner w.pool.log _).trans
      (by simp [Gossip.servings, servedBody, isOwner]))
  | sendChunk | sendLast => exact .inl ((servings_append _ _ _).trans (append_nil _))
  | announce s gone => exact .inl ((announce_unserving w s gone).servings owner)
  | _ => exact .inl rfl

/-- The order is kept while no request is served twice. -/
lemma Move.inOrder {owner : Nat} (move : Move env call w w') (keys : Keys w.pool)
    (references : References w) (serves : Serves env w)
    (unserved : ∀ m now, call = .receive owner m now → m.op = .wgWant →
      ∀ served ∈ servings owner w.pool.log, served.1 ≠ m.request)
    (inOrder : InOrder owner w) : InOrder owner w' := by
  have objects := move.objects references
  have keys' := move.keys keys
  cases move with
  | pool move =>
    exact inOrder.of_unserving keys keys' references objects move.unserving
      fun s mem => .inr ⟨s, mem, rfl, List.Sublist.refl _⟩
  | openSession type =>
    refine inOrder.of_unserving keys keys' references objects (.none rfl) fun s mem => ?_
    obtain old | isNew := mem_append.mp mem
    · exact .inr ⟨s, old, rfl, List.Sublist.refl _⟩
    cases mem_singleton.mp isNew
    exact .inl rfl
  | leave s mem idle =>
    exact inOrder.of_unserving keys keys' references objects (.none rfl)
      fun s' inAfter => .inr ⟨s', (mem_erase.mp inAfter).1, rfl, List.Sublist.refl _⟩
  | startTransfer s o m body now inSessions mem holds live received op =>
    refine startTransfer_inOrder inOrder serves inSessions fun isOwner => ?_
    exact unserved m now (isOwner ▸ received) op
  | sendChunk s t rest o n inSessions out mem same live amount more =>
    have inOut : t ∈ s.out := out ▸ mem_cons_self ..
    rcases inOrder.send keys serves inSessions inOut mem same amount with
      ⟨consecutive, others, mine⟩
    refine ⟨consecutive, fun s' inAfter isOwner t' inNext o' member' same' holds => ?_⟩
    obtain rfl | ⟨old, different⟩ := of_mem_putSession (s := s) inAfter rfl
    · obtain queued | isNew := mem_append.mp inNext
      · refine Eq.trans ?_ (others t'.request fun _ => serves.other inSessions out queued).symm
        exact inOrder.transfers s inSessions isOwner t' (out ▸ mem_cons_of_mem _ queued) o'
          member' same' holds
      cases mem_singleton.mp isNew
      cases eq_of_key_eq keys.borns member' mem (same'.trans same.symm)
      exact mine isOwner holds
    refine Eq.trans ?_ (others t'.request fun isSender => ?_).symm
    · exact inOrder.transfers s' old isOwner t' inNext o' member' same' holds
    exact absurd (isOwner.trans isSender) different
  | sendLast s t rest o n inSessions out mem same live amount last =>
    have inOut : t ∈ s.out := out ▸ mem_cons_self ..
    rcases inOrder.send keys serves inSessions inOut mem same amount with
      ⟨consecutive, others, _⟩
    refine ⟨consecutive, fun s' inAfter isOwner t' inNext o' member' same' holds => ?_⟩
    obtain ⟨before, inBefore, equal⟩ := mem_alter.mp member'
    have unaltered : o'.born = before.born ∧ o'.data = before.data := by
      split at equal <;> exact equal ▸ ⟨rfl, rfl⟩
    have born := unaltered.1.symm.trans same'
    have held : before.data ≠ none := unaltered.2 ▸ holds
    obtain rfl | ⟨old, different⟩ := of_mem_putSession (s := s) inAfter rfl
    · refine Eq.trans ?_ (others t'.request fun _ => serves.other inSessions out inNext).symm
      exact inOrder.transfers s inSessions isOwner t' (out ▸ mem_cons_of_mem _ inNext) before
        inBefore born held
    refine Eq.trans ?_ (others t'.request fun isSender => ?_).symm
    · exact inOrder.transfers s' old isOwner t' inNext before inBefore born held
    exact absurd (isOwner.trans isSender) different
  | endTransfer s t rest inSessions out =>
    refine inOrder.of_unserving keys keys' references objects (.none rfl) fun s' inAfter =>
      .inr ?_
    obtain rfl | ⟨old, _⟩ := of_mem_putSession (s := s) inAfter rfl
    · exact ⟨s, inSessions, rfl, out ▸ sublist_cons_self t rest⟩
    exact ⟨s', old, rfl, List.Sublist.refl _⟩
  | announce s gone inSessions =>
    refine inOrder.of_unserving keys keys' references objects (announce_unserving w s gone)
      fun s' inAfter => .inr ?_
    obtain rfl | ⟨old, _⟩ := of_mem_putSession (s := s) inAfter rfl
    · exact ⟨s, inSessions, rfl, List.Sublist.refl _⟩
    exact ⟨s', old, rfl, List.Sublist.refl _⟩

lemma Move.log_grows (move : Move env call w w') : w.pool.log <+: w'.pool.log := by
  cases move with
  | pool move =>
    obtain ⟨effects, log, _⟩ := move.logs
    exact ⟨effects, log.symm⟩
  | startTransfer | sendChunk | sendLast => exact ⟨_, rfl⟩
  | announce => exact ⟨_, (append_assoc _ _ _).symm⟩
  | _ => exact prefix_refl _

lemma Moves.log_grows (moves : Moves env call w w') : w.pool.log <+: w'.pool.log := by
  induction moves with
  | refl => exact prefix_refl _
  | tail _ move ih => exact ih.trans move.log_grows

lemma step_log_grows (ready : Ready w) (call : Call) :
    w.pool.log <+: (step env w call).2.pool.log :=
  (step_moves ready call).log_grows

lemma Reachable.serves (reachable : Reachable env config w) : Serves env w := by
  have both : References w ∧ Stored env w.pool ∧ Serves env w :=
    reachable.induct (fun w => References w ∧ Stored env w.pool ∧ Serves env w)
      ⟨⟨by simp, by simp [World.transfers], by simp, by simp, rfl, by simp⟩,
        ⟨by simp [StoredObjects], by simp [Pool.fetches], by simp, by simp⟩,
        ⟨by simp, by simp, by simp [sent], by simp [servings]⟩⟩
      fun _ _ _ keys owners move holds =>
        ⟨move.references keys owners holds.1, move.stored keys holds.1 holds.2.1,
          move.serves keys holds.1 holds.2.1 holds.2.2⟩
  exact both.2.2

/-! ## Calls -/

/-- The order of a session that has served these requests. -/
structure Ordered (env : Env) (owner : Nat) (past : List (Nat × Id × List UInt8)) (w : World) :
    Prop where
  references : References w
  stored : Stored env w.pool
  serves : Serves env w
  inOrder : InOrder owner w
  past : servings owner w.pool.log = past

section Ordered

variable {owner : Nat} {past : List (Nat × Id × List UInt8)}

lemma Move.ordered (move : Move env call w w') (keys : Keys w.pool) (owners : Owners w)
    (quiet : servings owner w'.pool.log = servings owner w.pool.log)
    (unserved : ∀ m now, call = .receive owner m now → m.op = .wgWant →
      ∀ served ∈ past, served.1 ≠ m.request)
    (ordered : Ordered env owner past w) : Ordered env owner past w' where
  references := move.references keys owners ordered.references
  stored := move.stored keys ordered.references ordered.stored
  serves := move.serves keys ordered.references ordered.stored ordered.serves
  inOrder := move.inOrder keys ordered.references ordered.serves
    (fun m now received op => ordered.past.symm ▸ unserved m now received op) ordered.inOrder
  past := quiet.trans ordered.past

lemma PoolMoves.ordered (moves : PoolMoves env call w.pool p) (keys : Keys w.pool)
    (owners : Owners w) (unserved : ∀ m now, call = .receive owner m now → m.op = .wgWant →
      ∀ served ∈ past, served.1 ≠ m.request)
    (ordered : Ordered env owner past w) : Ordered env owner past { w with pool := p } := by
  induction moves with
  | refl => exact ordered
  | @tail q q' before move ih =>
    have owners' : Owners { w with pool := q } := Moves.owners (Moves.of_pool before) owners
    exact (Move.pool move : Move env call { w with pool := q } _).ordered
      (PoolMoves.keys before keys) owners' (move.unserving.servings owner) unserved ih

lemma Moves.ordered (moves : Moves env call w w') (keys : Keys w.pool) (owners : Owners w)
    (quiet : ∀ m now, call = .receive owner m now → m.op ≠ .wgWant)
    (ordered : Ordered env owner past w) : Ordered env owner past w' := by
  refine Moves.induct (Ordered env owner past) ?_ moves keys owners ordered
  intro v v' keys owners move ordered
  refine move.ordered keys owners ?_ (fun m now received op => absurd op (quiet m now received)) ordered
  obtain same | ⟨m, now, _, received, op, _⟩ := move.servings_cases owner
  · exact same
  exact absurd op (quiet m now received)

/-- A call serves at most the request that it brings, and keeps the order if that
request was not served before. -/
lemma Reachable.step_ordered (reachable : Reachable env config w) (inOrder : InOrder owner w)
    (unserved : ∀ m now, call = .receive owner m now → m.op = .wgWant →
      ∀ served ∈ servings owner w.pool.log, served.1 ≠ m.request) :
    InOrder owner (step env w call).2 ∧
      (servings owner (step env w call).2.pool.log = servings owner w.pool.log ∨
        ∃ m now body, call = .receive owner m now ∧ m.op = .wgWant ∧
          servings owner (step env w call).2.pool.log =
            servings owner w.pool.log ++ [(m.request, m.id, body)]) := by
  have ready := reachable.ready
  have ordered : Ordered env owner (servings owner w.pool.log) w :=
    ⟨reachable.references, reachable.stored, reachable.serves, inOrder, rfl⟩
  by_cases quiet : ∀ m now, call = .receive owner m now → m.op ≠ .wgWant
  · have after := (step_moves ready call).ordered ready.keys ready.owners quiet ordered
    exact ⟨after.inOrder, .inl after.past⟩
  push Not at quiet
  obtain ⟨m, now, rfl, op⟩ := quiet
  simp only [step]
  split
  · exact ⟨inOrder, .inl rfl⟩
  rename_i s found
  cases (key_of_lookup found : s.owner = owner)
  rcases (wgReceive_shape ready (mem_of_lookup found) op now :
    ThenOne env (.receive s.owner m now) w _) with ⟨q, moves, equal | last⟩
  · have after := PoolMoves.ordered moves ready.keys ready.owners unserved ordered
    rw [equal]
    exact ⟨after.inOrder, .inl after.past⟩
  have before := PoolMoves.ordered moves ready.keys ready.owners unserved ordered
  have keys := PoolMoves.keys moves ready.keys
  refine ⟨last.inOrder keys before.references before.serves ?_ before.inOrder, ?_⟩
  · exact fun m now received op => before.past.symm ▸ unserved m now received op
  obtain same | ⟨m', now', body, received, op', equal⟩ := last.servings_cases s.owner
  · exact .inl (same.trans before.past)
  exact .inr ⟨m', now', body, received, op', before.past ▸ equal⟩

end Ordered

end WendyLite.Gossip
