import WendyLite.Gossip.Steps

/-! # References

An object counts the transfers that name it, and the delivery that has adopted
its bytes. So an object that is unlinked was named by none.
-/

namespace WendyLite.Gossip

open KeyedList Relation List

variable {env : Env} {call : Call} {p p' : Pool} {w w' : World} {s : Session}

def World.transfers (w : World) : List Transfer := w.sessions.flatMap Session.out

def served (w : World) (born : Nat) : Nat := w.transfers.countP fun t => t.object = born

/-- The delivery in progress has adopted its bytes into this object. -/
def pins (p : Pool) (born : Nat) : Nat :=
  if p.delivering.bind Fetch.accepted = some born then 1 else 0

lemma pins_of_calm (calm : p.delivering = none) (born : Nat) : pins p born = 0 := by
  rw [pins, calm]
  rfl

structure References (w : World) : Prop where
  refs : ∀ o ∈ w.pool.objects, o.refs = served w o.born + pins w.pool o.born
  named : ∀ t ∈ w.transfers, ∃ o ∈ w.pool.objects, o.born = t.object
  accepted : ∀ f, w.pool.delivering = some f → ∀ born, f.accepted = some born →
    f.data = none ∧ ∃ o ∈ w.pool.objects, o.born = born
  unaccepted : ∀ f ∈ w.pool.pending, f.accepted = none
  serving : w.pool.serving = w.transfers.length
  sessions : ∀ s ∈ w.sessions, s.serving = s.out.length

/-! ## Counting transfers -/

lemma countP_transfers (w : World) (accept : Transfer → Bool) :
    w.transfers.countP accept = (w.sessions.map fun s => s.out.countP accept).sum := by
  rw [World.transfers, countP_flatMap]
  rfl

variable {next : Session}

/-- A session that changes its queue changes the transfers by that queue alone. -/
lemma countP_putSession (owners : Owners w) (mem : s ∈ w.sessions) (p : Pool)
    (same : next.owner = s.owner) (accept : Transfer → Bool) :
    (w.putSession p next).transfers.countP accept + s.out.countP accept =
      w.transfers.countP accept + next.out.countP accept := by
  rw [countP_transfers, countP_transfers, World.putSession, same]
  exact sum_alter owners.distinct mem

lemma length_putSession (owners : Owners w) (mem : s ∈ w.sessions) (p : Pool)
    (same : next.owner = s.owner) : (w.putSession p next).transfers.length + s.out.length =
      w.transfers.length + next.out.length := by
  have counted := countP_putSession owners mem p same fun _ => true
  simpa using counted

lemma mem_transfers_putSession (inTransfers : t ∈ (w.putSession p next).transfers) :
    t ∈ next.out ∨ t ∈ w.transfers := by
  obtain ⟨s, inSessions, inOut⟩ := mem_flatMap.mp inTransfers
  obtain ⟨old, inOld, equal⟩ := mem_alter.mp inSessions
  split at equal
  · exact .inl (equal ▸ inOut)
  exact .inr (mem_flatMap.mpr ⟨old, inOld, equal ▸ inOut⟩)

lemma mem_transfers (mem : s ∈ w.sessions) (inOut : t ∈ s.out) :
    t ∈ w.transfers :=
  mem_flatMap.mpr ⟨s, mem, inOut⟩

lemma sessions_putSession {ok : Session → Prop} (each : ∀ s ∈ w.sessions, ok s)
    (isOk : ok next) : ∀ s ∈ (w.putSession p next).sessions, ok s := by
  intro s inSessions
  obtain ⟨old, inOld, equal⟩ := mem_alter.mp inSessions
  split at equal
  · exact equal ▸ isOk
  exact equal ▸ each old inOld

/-! ## Moves within the pool -/

section

variable (references : References w)
include references

lemma References.of_objects
    (objects : ∀ o' ∈ p.objects, ∃ o ∈ w.pool.objects, o'.born = o.born ∧ o'.refs = o.refs)
    (still : ∀ o ∈ w.pool.objects, ∃ o' ∈ p.objects, o'.born = o.born)
    (delivering : p.delivering = w.pool.delivering)
    (pending : ∀ f ∈ p.pending, f.accepted = none) (serving : p.serving = w.pool.serving) :
    References { w with pool := p } where
  refs o' mem := by
    obtain ⟨o, inObjects, sameBorn, sameRefs⟩ := objects o' mem
    rw [sameRefs, sameBorn, pins, delivering]
    exact references.refs o inObjects
  named t inTransfers := by
    obtain ⟨o, inObjects, same⟩ := references.named t inTransfers
    obtain ⟨o', inObjects', same'⟩ := still o inObjects
    exact ⟨o', inObjects', same'.trans same⟩
  accepted f isDelivering born isAccepted := by
    rw [delivering] at isDelivering
    obtain ⟨empty, o, inObjects, same⟩ := references.accepted f isDelivering born isAccepted
    obtain ⟨o', inObjects', same'⟩ := still o inObjects
    exact ⟨empty, o', inObjects', same'.trans same⟩
  unaccepted := pending
  serving := serving.trans references.serving
  sessions := references.sessions

lemma References.alterObject (objects : p.objects = alter Object.born born change w.pool.objects)
    (sameBorn : ∀ o, (change o).born = o.born) (sameRefs : ∀ o, (change o).refs = o.refs)
    (delivering : p.delivering = w.pool.delivering) (pending : p.pending = w.pool.pending)
    (serving : p.serving = w.pool.serving) : References { w with pool := p } := by
  refine references.of_objects ?_ ?_ delivering (pending ▸ references.unaccepted) serving
  · rw [objects]
    intro o' mem
    obtain ⟨o, inObjects, equal⟩ := mem_alter.mp mem
    refine ⟨o, inObjects, ?_⟩
    split at equal
    · exact equal ▸ ⟨sameBorn o, sameRefs o⟩
    exact equal ▸ ⟨rfl, rfl⟩
  rw [objects]
  intro o mem
  refine ⟨_, mem_alter.mpr ⟨o, mem, rfl⟩, ?_⟩
  split
  · exact sameBorn o
  rfl

lemma References.of_fetches (objects : p.objects = w.pool.objects)
    (delivering : p.delivering = w.pool.delivering)
    (pending : ∀ f ∈ p.pending, f.accepted = none) (serving : p.serving = w.pool.serving) :
    References { w with pool := p } :=
  references.of_objects (fun o mem => ⟨o, objects ▸ mem, rfl, rfl⟩)
    (fun o mem => ⟨o, objects ▸ mem, rfl⟩) delivering pending serving

lemma References.of_same (objects : p.objects = w.pool.objects)
    (delivering : p.delivering = w.pool.delivering) (pending : p.pending = w.pool.pending)
    (serving : p.serving = w.pool.serving) : References { w with pool := p } :=
  references.of_fetches objects delivering (pending ▸ references.unaccepted) serving

lemma dropPayload_references (o : Object) :
    References { w with pool := dropPayload w.pool o } := by
  rw [dropPayload]
  split
  · exact references
  exact references.alterObject rfl (fun _ => rfl) (fun _ => rfl) rfl rfl rfl

lemma unbuffer_references (f : Fetch) : References { w with pool := unbuffer w.pool f } := by
  rw [unbuffer]
  split
  · exact references.of_same rfl rfl rfl rfl
  exact references

lemma modifyFetch_references (id : Id) (keeps : ∀ f, (change f).accepted = f.accepted) :
    References { w with pool := w.pool.modifyFetch id change } := by
  refine references.of_fetches rfl rfl ?_ rfl
  intro f mem
  obtain ⟨old, inPending, equal⟩ := mem_alter.mp mem
  split at equal
  · rw [← equal, keeps]
    exact references.unaccepted old inPending
  exact equal ▸ references.unaccepted old inPending

lemma removeFetch_references (id : Id) : References { w with pool := w.pool.removeFetch id } :=
  references.of_fetches rfl rfl
    (fun f mem => references.unaccepted f (mem_erase.mp mem).1) rfl

lemma dropFetch_references (f : Fetch) : References { w with pool := dropFetch w.pool f } :=
  removeFetch_references (unbuffer_references references f) f.id

lemma resetFetch_references (f : Fetch) : References { w with pool := resetFetch w.pool f } :=
  modifyFetch_references (unbuffer_references references f) f.id fun _ => rfl

lemma dropIfUnsupplied_references (id : Id) :
    References { w with pool := dropIfUnsupplied w.pool id } := by
  rw [dropIfUnsupplied]
  split
  · exact references
  split
  · exact dropFetch_references references _
  exact references

lemma addFetch_references (open_ : f.accepted = none) (count : Nat) :
    References { w with pool :=
      { w.pool with pending := w.pool.pending ++ [f], pendingCount := count } } := by
  refine references.of_fetches rfl rfl ?_ rfl
  refine forall_mem_append.mpr ⟨references.unaccepted, forall_mem_singleton.mpr ?_⟩
  exact open_

end

variable {o : Object}

lemma References.unnamed (references : References w) (mem : o ∈ w.pool.objects)
    (unused : o.refs = 0) :
    (∀ t ∈ w.transfers, t.object ≠ o.born) ∧ w.pool.delivering.bind Fetch.accepted ≠ some o.born := by
  have counted := references.refs o mem
  rw [unused] at counted
  constructor
  · intro t inTransfers same
    have none : served w o.born = 0 := by omega
    rw [served, countP_eq_zero] at none
    exact none t inTransfers (by simpa using same)
  intro adopted
  rw [pins, if_pos adopted] at counted
  omega

lemma borrowed_iff : borrowed p o = true ↔ p.delivering.bind Fetch.accepted = some o.born := by
  rw [borrowed]
  cases p.delivering <;> simp

lemma removeObject_references (references : References w)
    (mem : o ∈ w.pool.objects) (unused : o.refs = 0) :
    References { w with pool := w.pool.removeObject o.born } := by
  obtain ⟨unserved, unpinned⟩ := references.unnamed mem unused
  refine { references with refs := ?_, named := ?_, accepted := ?_ }
  · intro other inRest
    exact references.refs other (mem_erase.mp inRest).1
  · intro t inTransfers
    obtain ⟨other, inObjects, same⟩ := references.named t inTransfers
    exact ⟨other, mem_erase.mpr ⟨inObjects, fun equal =>
      unserved t inTransfers (same.symm.trans equal)⟩, same⟩
  intro f delivering born isAccepted
  obtain ⟨empty, other, inObjects, same⟩ := references.accepted f delivering born isAccepted
  refine ⟨empty, other, mem_erase.mpr ⟨inObjects, fun equal => unpinned ?_⟩, same⟩
  rw [show w.pool.delivering = some f from delivering]
  simp [isAccepted, ← same, equal]

lemma enlist_references (keys : Keys w.pool) (references : References w)
    (fresh : o.born = w.pool.nextObject + 1) (objects : p.objects = o :: w.pool.objects)
    (serving : p.serving = w.pool.serving) (pending : p.pending = w.pool.pending)
    (accepted : ∀ f, p.delivering = some f → ∀ born, f.accepted = some born →
      f.data = none ∧ ∃ o ∈ p.objects, o.born = born) (pinned : o.refs = pins p o.born)
    (others : ∀ other ∈ w.pool.objects, pins p other.born = pins w.pool other.born) :
    References { w with pool := p } where
  refs other mem := by
    rw [objects] at mem
    obtain rfl | old := mem_cons.mp mem
    · have unserved : served w other.born = 0 := by
        rw [served, countP_eq_zero]
        intro t inTransfers same
        obtain ⟨old, inObjects, named⟩ := references.named t inTransfers
        have older := keys.born_le old inObjects
        rw [decide_eq_true_eq] at same
        omega
      show other.refs = served w other.born + pins p other.born
      omega
    rw [references.refs other old]
    show served w other.born + _ = served w other.born + _
    rw [others other old]
  named t inTransfers := by
    obtain ⟨old, inObjects, same⟩ := references.named t inTransfers
    exact ⟨old, objects ▸ mem_cons_of_mem _ inObjects, same⟩
  accepted := accepted
  unaccepted := pending ▸ references.unaccepted
  serving := serving.trans references.serving
  sessions := references.sessions

lemma PoolMove.references (move : PoolMove env call w.pool p) (keys : Keys w.pool)
    (references : References w) : References { w with pool := p } := by
  cases move with
  | consult | tick | report | burnRequest => exact { references with }
  | dropBody o => exact dropPayload_references references o
  | remove o mem _ unused => exact removeObject_references references mem unused
  | lapse | lower => exact references.alterObject rfl (fun _ => rfl) (fun _ => rfl) rfl rfl rfl
  | retire o =>
    exact (dropPayload_references references o).alterObject rfl (fun _ => rfl) (fun _ => rfl)
      rfl rfl rfl
  | enlist o bytes fresh _ _ unused =>
    have unpinned : w.pool.delivering.bind Fetch.accepted ≠ some o.born := by
      intro adopted
      cases delivering : w.pool.delivering with
      | none => rw [delivering] at adopted; cases adopted
      | some f =>
        rw [delivering] at adopted
        obtain ⟨old, mem, same⟩ := (references.accepted f delivering o.born adopted).2
        have older := keys.born_le old mem
        omega
    refine enlist_references keys references fresh rfl rfl rfl ?_ ?_ fun _ _ => rfl
    · intro f delivering born isAccepted
      obtain ⟨empty, old, mem, same⟩ := references.accepted f delivering born isAccepted
      exact ⟨empty, old, mem_cons_of_mem _ mem, same⟩
    show o.refs = pins w.pool o.born
    rw [unused, pins, if_neg unpinned]
  | adopt f o bytes delivering buffered _ fresh _ _ pinned =>
    refine enlist_references keys references fresh rfl rfl rfl ?_ ?_ ?_
    · intro g isDelivering born isAccepted
      cases isDelivering
      cases isAccepted
      exact ⟨rfl, o, .head _, rfl⟩
    · rw [pinned]
      exact (if_pos rfl).symm
    intro other mem
    have older := keys.born_le other mem
    have unadopted : w.pool.delivering.bind Fetch.accepted = none := by
      rw [delivering]
      cases isAccepted : f.accepted with
      | none => exact isAccepted
      | some born =>
        rw [(references.accepted f delivering born isAccepted).1] at buffered
        cases buffered
    rw [pins, pins, unadopted]
    have different : o.born ≠ other.born := by omega
    simp [Gossip.enlist, different]
  | drop f => exact dropFetch_references references f
  | reset f => exact resetFetch_references references f
  | trim id keep =>
    apply dropIfUnsupplied_references (w := { w with pool := w.pool.modifyFetch id _ })
    exact modifyFetch_references references id fun _ => rfl
  | hint | orphan => exact addFetch_references references rfl _
  | supply f | extend f => exact modifyFetch_references references f.id fun _ => rfl
  | renew id owner now => exact modifyFetch_references references id fun _ => rfl
  | claim s f now =>
    have claimed : References { w with pool := w.pool.modifyFetch f.id fun f =>
        { f with owner := s.owner, request := w.pool.nextRequest + 1, progress := now } } :=
      modifyFetch_references references f.id fun _ => rfl
    exact { claimed with }
  | buffer f total =>
    have started : References { w with pool := w.pool.modifyFetch f.id fun f =>
        { f with data := some [], total := total } } :=
      modifyFetch_references references f.id fun _ => rfl
    exact { started with }
  | reject f data now =>
    apply resetFetch_references (w := { w with pool := w.pool.modifyFetch f.id _ })
    exact modifyFetch_references references f.id fun _ => rfl
  | deliver f mem _ calm =>
    refine { references with refs := ?_, accepted := ?_, unaccepted := ?_ }
    · intro o inObjects
      have unpinned : pins w.pool o.born = pins (beginDelivery w.pool f (f.data.getD [])) o.born := by
        rw [pins, pins, calm]
        show _ = if f.accepted = some o.born then 1 else 0
        rw [references.unaccepted f mem]
        rfl
      rw [references.refs o inObjects, unpinned]
      rfl
    · intro g delivering born isAccepted
      cases delivering
      rw [references.unaccepted f mem] at isAccepted
      cases isAccepted
    intro g inRest
    exact references.unaccepted g (mem_erase.mp inRest).1
  | relink f delivering open_ =>
    refine { references with refs := ?_, accepted := ?_, unaccepted := ?_ }
    · intro o inObjects
      have open' : pins w.pool o.born = 0 := by simp [pins, delivering, open_]
      rw [references.refs o inObjects, open', pins_of_calm rfl]
      rfl
    · intro g isNone
      cases isNone
    intro g inPending
    obtain rfl | old := mem_cons.mp inPending
    · exact open_
    exact references.unaccepted g old
  | settle f born delivering isAccepted =>
    obtain ⟨empty, o, inObjects, same⟩ := references.accepted f delivering born isAccepted
    have pending : ∀ g ∈ (dropFetch (unpinned (relinked w.pool f) born) f).pending,
        g ∈ w.pool.pending := by
      intro g inRest
      rw [dropFetch, Pool.removeFetch, unbuffer_pending] at inRest
      obtain rfl | old := mem_cons.mp (mem_erase.mp inRest).1
      · exact absurd rfl (mem_erase.mp inRest).2
      exact old
    rw [dropFetch, unbuffer, empty] at pending ⊢
    refine { references with refs := ?_, named := ?_, accepted := ?_, unaccepted := ?_ }
    · intro o' mem
      obtain ⟨old, inOld, equal⟩ := mem_alter.mp mem
      have counted := references.refs old inOld
      show o'.refs = served w o'.born + pins _ o'.born
      rw [pins_of_calm rfl]
      rw [pins, delivering] at counted
      simp only [Option.bind_some, isAccepted, Option.some.injEq] at counted
      split at equal
      next isBorn =>
        rw [if_pos isBorn.symm] at counted
        rw [← equal]
        show old.refs - 1 = served w old.born + 0
        omega
      rename_i other
      rw [if_neg fun equal => other equal.symm] at counted
      exact equal ▸ counted
    · intro t inTransfers
      obtain ⟨old, inOld, named⟩ := references.named t inTransfers
      refine ⟨_, mem_alter.mpr ⟨old, inOld, rfl⟩, ?_⟩
      split <;> exact named
    · intro g isNone
      cases isNone
    exact fun g inRest => references.unaccepted g (pending g inRest)

/-! ## Moves of sessions -/

lemma served_putSession (owners : Owners w) (mem : s ∈ w.sessions) (p : Pool)
    (same : next.owner = s.owner) (born : Nat) :
    served (w.putSession p next) born + s.out.countP (fun t => t.object = born) =
      served w born + next.out.countP fun t => t.object = born :=
  countP_putSession owners mem p same _

def queued (s : Session) (born : Nat) : Nat := s.out.countP fun t => t.object = born

section

variable (references : References w)
include references

/-- A session changes its queue, and the objects their references with it. -/
lemma References.putSession (owners : Owners w)
    (mem : s ∈ w.sessions) (same : next.owner = s.owner)
    (objects : ∀ o' ∈ p.objects, ∃ o ∈ w.pool.objects, o'.born = o.born ∧
      o'.refs + queued s o.born = o.refs + queued next o.born)
    (still : ∀ o ∈ w.pool.objects, ∃ o' ∈ p.objects, o'.born = o.born)
    (named : ∀ t ∈ next.out, ∃ o ∈ w.pool.objects, o.born = t.object)
    (delivering : p.delivering = w.pool.delivering) (pending : p.pending = w.pool.pending)
    (total : p.serving + s.out.length = w.pool.serving + next.out.length)
    (each : next.serving = next.out.length) : References (w.putSession p next) := by
  refine ⟨?_, ?_, ?_, ?_, ?_, ?_⟩
  · intro o' inObjects
    obtain ⟨o, inOld, sameBorn, shifted⟩ := objects o' inObjects
    have counted := served_putSession owners mem p same o.born
    have before := references.refs o inOld
    rw [queued, queued] at shifted
    rw [sameBorn, pins]
    show o'.refs = _ + if p.delivering.bind Fetch.accepted = some o.born then 1 else 0
    rw [delivering, ← pins]
    omega
  · intro t inTransfers
    have kept : ∃ old ∈ w.pool.objects, old.born = t.object := by
      obtain inNext | old := mem_transfers_putSession inTransfers
      · exact named t inNext
      exact references.named t old
    obtain ⟨old, inOld, equal⟩ := kept
    obtain ⟨o', inObjects, sameBorn⟩ := still old inOld
    exact ⟨o', inObjects, sameBorn.trans equal⟩
  · show ∀ f, p.delivering = some f → _
    rw [delivering]
    intro f isDelivering born isAccepted
    obtain ⟨empty, old, inOld, equal⟩ := references.accepted f isDelivering born isAccepted
    obtain ⟨o', inObjects, sameBorn⟩ := still old inOld
    exact ⟨empty, o', inObjects, sameBorn.trans equal⟩
  · show ∀ f ∈ p.pending, _
    rw [pending]
    exact references.unaccepted
  · have counted := length_putSession owners mem p same
    have before := references.serving
    show p.serving = _
    omega
  exact sessions_putSession references.sessions each

lemma References.requeue (owners : Owners w)
    (mem : s ∈ w.sessions) (same : next.owner = s.owner)
    (queue : (next.out.map Transfer.object).Perm (s.out.map Transfer.object))
    (serving : next.serving = s.serving) (objects : p.objects = w.pool.objects)
    (delivering : p.delivering = w.pool.delivering) (pending : p.pending = w.pool.pending)
    (total : p.serving = w.pool.serving) : References (w.putSession p next) := by
  have counts : ∀ born, queued next born = queued s born := by
    intro born
    have mapped := queue.countP_eq fun object => decide (object = born)
    rw [countP_map, countP_map] at mapped
    exact mapped
  have lengths : next.out.length = s.out.length := by simpa using queue.length_eq
  refine references.putSession owners mem same ?_ ?_ ?_ delivering pending ?_ ?_
  · intro o inObjects
    exact ⟨o, objects ▸ inObjects, rfl, by rw [counts]⟩
  · exact fun o inObjects => ⟨o, objects ▸ inObjects, rfl⟩
  · intro t inNext
    have listed : t.object ∈ s.out.map Transfer.object := queue.subset (mem_map_of_mem inNext)
    obtain ⟨before, inOut, equal⟩ := mem_map.mp listed
    rw [← equal]
    exact references.named before (mem_transfers mem inOut)
  · rw [total, lengths]
  rw [serving, lengths]
  exact references.sessions s mem

lemma References.exchange (owners : Owners w)
    (mem : s ∈ w.sessions) (born : Nat) (shift : Nat → Nat) (same : next.owner = s.owner)
    (objects : p.objects =
      alter Object.born born (fun o => { o with refs := shift o.refs }) w.pool.objects)
    (shifted : ∀ o ∈ w.pool.objects, o.born = born →
      shift o.refs + queued s born = o.refs + queued next born)
    (others : ∀ other, other ≠ born → queued next other = queued s other)
    (named : ∀ t ∈ next.out, ∃ o ∈ w.pool.objects, o.born = t.object)
    (delivering : p.delivering = w.pool.delivering) (pending : p.pending = w.pool.pending)
    (total : p.serving + s.out.length = w.pool.serving + next.out.length)
    (each : next.serving = next.out.length) : References (w.putSession p next) := by
  refine references.putSession owners mem same ?_ ?_ named delivering pending total each
  · rw [objects]
    intro o' inObjects
    obtain ⟨o, inOld, equal⟩ := mem_alter.mp inObjects
    refine ⟨o, inOld, ?_⟩
    split at equal
    next isBorn =>
      rw [← equal, isBorn]
      exact ⟨rfl, shifted o inOld isBorn⟩
    rename_i different
    rw [← equal, others _ different]
    exact ⟨rfl, rfl⟩
  rw [objects]
  intro o inOld
  refine ⟨_, mem_alter.mpr ⟨o, inOld, rfl⟩, ?_⟩
  split <;> rfl

lemma endTransfer_references (owners : Owners w) (inSessions : s ∈ w.sessions)
    (out : s.out = t :: rest) :
    References (w.putSession (endTransfer w.pool s t rest).1 (endTransfer w.pool s t rest).2) := by
  have before := references.sessions s inSessions
  have total := references.serving
  have some_ : 0 < w.transfers.length :=
    length_pos_of_mem (mem_transfers inSessions (out ▸ mem_cons_self ..))
  rw [out, length_cons] at before
  refine references.exchange owners inSessions t.object (· - 1) ?_ ?_ ?_ ?_ ?_ ?_ ?_ ?_ ?_
  · rfl
  · rfl
  · intro old inOld isBorn
    have counted := references.refs old inOld
    have positive : 0 < served w old.born := by
      rw [served, countP_pos_iff]
      exact ⟨t, mem_transfers inSessions (out ▸ mem_cons_self ..), by simp [isBorn]⟩
    simp only [queued, out, countP_cons, endTransfer]
    simp
    omega
  · intro other different
    simp [queued, out, endTransfer, different.symm]
  · intro t' inNext
    exact references.named t' (mem_transfers inSessions (out ▸ mem_cons_of_mem _ inNext))
  · rfl
  · rfl
  · show w.pool.serving - 1 + s.out.length = w.pool.serving + rest.length
    rw [out, length_cons]
    omega
  show s.serving - 1 = rest.length
  omega

end

lemma Move.references (move : Move env call w w') (keys : Keys w.pool) (owners : Owners w)
    (references : References w) : References w' := by
  cases move with
  | pool move => exact move.references keys references
  | openSession type =>
    have transfers : World.transfers
        { pool := { w.pool with nextOwner := w.pool.nextOwner + 1 }
          sessions := w.sessions ++ [{ owner := w.pool.nextOwner + 1, type := type
                                       withdrawal := w.pool.withdrawal
                                       opened := w.pool.withdrawal }] } = w.transfers := by
      simp [World.transfers]
    refine ⟨?_, ?_, references.accepted, references.unaccepted, ?_, ?_⟩
    · intro o inObjects
      rw [served, transfers]
      exact references.refs o inObjects
    · rw [transfers]
      exact references.named
    · rw [transfers]
      exact references.serving
    refine forall_mem_append.mpr ⟨references.sessions, forall_mem_singleton.mpr ?_⟩
    rfl
  | leave s mem idle =>
    have counts : ∀ accept : Transfer → Bool,
        (World.transfers { w with sessions := erase Session.owner s.owner w.sessions }).countP
          accept = w.transfers.countP accept := by
      intro accept
      have counted : ((erase Session.owner s.owner w.sessions).map
          fun s => s.out.countP accept).sum + s.out.countP accept = _ :=
        sum_erase owners.distinct mem
      rw [idle, countP_nil] at counted
      rw [countP_transfers, countP_transfers]
      omega
    refine ⟨?_, ?_, references.accepted, references.unaccepted, ?_, ?_⟩
    · intro o inObjects
      rw [served, counts]
      exact references.refs o inObjects
    · intro t inTransfers
      obtain ⟨other, inRest, inOut⟩ := mem_flatMap.mp inTransfers
      exact references.named t (mem_transfers (mem_erase.mp inRest).1 inOut)
    · have counted := counts fun _ => true
      simp only [countP_true] at counted
      rw [counted]
      exact references.serving
    exact fun other inRest => references.sessions other (mem_erase.mp inRest).1
  | startTransfer s o m body now inSessions mem =>
    have served := references.sessions s inSessions
    refine references.exchange owners inSessions o.born (· + 1) ?_ ?_ ?_ ?_ ?_ ?_ ?_ ?_ ?_
    · rfl
    · rfl
    · intro old _ _
      simp only [queued, countP_append, countP_cons, countP_nil]
      simp
      omega
    · intro other different
      simp [queued, different.symm]
    · intro t inNext
      obtain inOut | isNew := mem_append.mp inNext
      · exact references.named t (mem_transfers inSessions inOut)
      rw [mem_singleton.mp isNew]
      exact ⟨o, mem, rfl⟩
    · rfl
    · rfl
    · show w.pool.serving + 1 + s.out.length = w.pool.serving + (s.out ++ [_]).length
      rw [length_append, length_singleton]
      omega
    show s.serving + 1 = (s.out ++ [_]).length
    rw [length_append, length_singleton, served]
  | sendChunk s t rest o n inSessions out =>
    refine references.requeue owners inSessions ?_ ?_ ?_ ?_ ?_ ?_ ?_
    · rfl
    · rw [out]
      exact (perm_append_singleton { t with offset := t.offset + n } rest).map _
    all_goals rfl
  | sendLast s t rest o n inSessions out =>
    have reported : References
        { w with pool := w.pool.report (.emitted s.owner (chunkMessage o t n) 0) } :=
      references.of_same rfl rfl rfl rfl
    exact endTransfer_references reported ⟨owners.distinct, owners.each⟩ inSessions out
  | endTransfer s t rest inSessions out =>
    exact endTransfer_references references owners inSessions out
  | announce s gone inSessions =>
    refine references.requeue owners inSessions ?_ ?_ ?_ ?_ ?_ ?_ ?_
    · rfl
    · exact List.Perm.refl _
    all_goals rfl

lemma Reachable.references {config : Config} (reachable : Reachable env config w) :
    References w := by
  refine reachable.induct References ?_ ?_
  · exact ⟨by simp, by simp [World.transfers], by simp, by simp, rfl, by simp⟩
  exact fun call w w' keys owners move => move.references keys owners

end WendyLite.Gossip
