import Mathlib.Data.List.Nodup
import WendyLite.Gossip.Accounts

/-! # Download limits

One fetch for each digest, few suppliers for each fetch, and bounded downloads:
over the whole pool, for the types that leave a reserve, and for each session.
-/

namespace WendyLite.Gossip

open KeyedList Relation

variable {env : Env} {call : Call} {config : Config} {p p' : Pool} {w w' : World} {f : Fetch}

/-- The suppliers of a fetch, with the one it is downloaded from. -/
structure FetchOk (f : Fetch) : Prop where
  few : f.suppliers.length ≤ 4
  distinct : (f.suppliers.map Supplier.owner).Nodup
  owned : f.owner ≠ 0 → ∃ q ∈ f.suppliers, q.owner = f.owner
  idle : f.owner = 0 → f.data = none

inductive Cap
  | all
  | nonroute
  | session (owner : Nat)

def Cap.counts : Cap → Fetch → Bool
  | .all, _ => true
  | .nonroute, f => f.id.type != 1
  | .session owner, f => f.owner == owner

def Cap.limit (config : Config) : Cap → Nat
  | .all => config.downloadLimit
  | .nonroute => config.downloadLimit - config.routeDownloadReserve
  | .session _ => 4

def Fetch.load (cap : Cap) (f : Fetch) : Nat :=
  if f.owner != 0 && cap.counts f then 1 else 0

def Pool.load (p : Pool) (cap : Cap) : Nat := (p.fetches.map (Fetch.load cap)).sum

lemma load_eq_length (p : Pool) (cap : Cap) :
    p.load cap = (p.fetches.filter fun f => f.owner != 0 && cap.counts f).length := by
  rw [Pool.load, show Fetch.load cap = fun f => if f.owner != 0 && cap.counts f then 1 else 0
    from rfl, sum_map_ite]
  simp

structure Limits (p : Pool) : Prop where
  each : ∀ f ∈ p.fetches, FetchOk f
  caps : ∀ cap, p.load cap ≤ cap.limit p.config

/-! ## Edits -/

lemma Limits.of_le (limits : Limits p) (config : p'.config = p.config)
    (each : ∀ f ∈ p'.fetches, FetchOk f) (load : ∀ cap, p'.load cap ≤ p.load cap) : Limits p' where
  each := each
  caps cap := by
    rw [config]
    exact (load cap).trans (limits.caps cap)

lemma Limits.of_fetches (limits : Limits p) (config : p'.config = p.config)
    (fetches : p'.fetches = p.fetches) : Limits p' :=
  limits.of_le config (fetches ▸ limits.each) fun cap => by rw [Pool.load, Pool.load, fetches]

variable {change : Fetch → Fetch}

section

variable (limits : Limits p)
include limits

lemma modifyFetch_limits (id : Id)
    (ok : ∀ f ∈ p.pending, f.id = id → FetchOk f → FetchOk (change f))
    (load : ∀ cap f, (change f).load cap ≤ f.load cap) : Limits (p.modifyFetch id change) := by
  refine limits.of_le rfl ?_ ?_
  · intro f mem
    obtain delivering | inPending := List.mem_append.mp mem
    · exact limits.each f (List.mem_append_left _ delivering)
    obtain ⟨old, inOld, equal⟩ := mem_alter.mp inPending
    have before := limits.each old (List.mem_append_right _ inOld)
    split at equal
    next same => exact equal ▸ ok old inOld same before
    exact equal ▸ before
  intro cap
  have less : ((alter Fetch.id id change p.pending).map (Fetch.load cap)).sum ≤
      (p.pending.map (Fetch.load cap)).sum := sum_alter_le fun f _ => load cap f
  rw [Pool.load, Pool.load, Pool.fetches, Pool.fetches, List.map_append, List.map_append,
    List.sum_append, List.sum_append]
  exact Nat.add_le_add_left less _

lemma removeFetch_limits (id : Id) : Limits (p.removeFetch id) := by
  refine limits.of_le rfl ?_ ?_
  · intro f mem
    obtain delivering | inPending := List.mem_append.mp mem
    · exact limits.each f (List.mem_append_left _ delivering)
    exact limits.each f (List.mem_append_right _ (mem_erase.mp inPending).1)
  intro cap
  rw [Pool.load, Pool.load, Pool.fetches, Pool.fetches, List.map_append, List.map_append,
    List.sum_append, List.sum_append]
  exact Nat.add_le_add_left sum_erase_le _

lemma append_limits (id : Id) (data : List UInt8) (now : Nat) :
    Limits (p.modifyFetch id (Fetch.append data now)) := by
  refine modifyFetch_limits limits id (fun g _ _ ok => ?_) fun cap f => le_of_eq ?_
  · exact ⟨ok.few, ok.distinct, ok.owned, fun idle => by simp [Fetch.append, ok.idle idle]⟩
  cases cap <;> rfl

lemma unbuffer_limits (f : Fetch) : Limits (unbuffer p f) := by
  rw [unbuffer]
  split
  · exact limits.of_fetches rfl rfl
  exact limits

lemma dropFetch_limits (f : Fetch) : Limits (dropFetch p f) :=
  removeFetch_limits (unbuffer_limits limits f) f.id

end

lemma Fetch.load_reset (cap : Cap) (f : Fetch) : f.reset.load cap ≤ f.load cap := by
  simp [Fetch.load, Fetch.reset]

lemma FetchOk.reset (ok : FetchOk f) : FetchOk f.reset :=
  ⟨ok.few, ok.distinct, fun owned => absurd rfl owned, fun _ => rfl⟩

lemma resetFetch_limits (limits : Limits p) (f : Fetch) : Limits (resetFetch p f) :=
  modifyFetch_limits (unbuffer_limits limits f) f.id (fun _ _ _ ok => ok.reset) Fetch.load_reset

lemma dropIfUnsupplied_limits (limits : Limits p) (id : Id) : Limits (dropIfUnsupplied p id) := by
  rw [dropIfUnsupplied]
  split
  · exact limits
  split
  · exact dropFetch_limits limits _
  exact limits

lemma FetchOk.keepSuppliers (ok : FetchOk f)
    (kept : f.owner ≠ 0 → ∀ q ∈ f.suppliers, q.owner = f.owner → keep q = true) :
    FetchOk (f.keepSuppliers keep) where
  few := (List.length_filter_le _ _).trans ok.few
  distinct := (List.filter_sublist.map _).nodup ok.distinct
  owned owned := by
    obtain ⟨q, mem, same⟩ := ok.owned owned
    exact ⟨q, List.mem_filter.mpr ⟨mem, kept owned q mem same⟩, same⟩
  idle := ok.idle

variable {now : Nat}

lemma FetchOk.supply (ok : FetchOk f) (absent : ∀ q ∈ f.suppliers, q.owner ≠ owner)
    (few : f.suppliers.length < 4) :
    FetchOk (f.supply owner now) where
  few := few
  distinct := by
    rw [Fetch.supply, List.map_cons, List.nodup_cons]
    refine ⟨?_, ok.distinct⟩
    intro listed
    obtain ⟨q, mem, same⟩ := List.mem_map.mp listed
    exact absent q mem same
  owned owned := by
    obtain ⟨q, mem, same⟩ := ok.owned owned
    exact ⟨q, List.mem_cons_of_mem _ mem, same⟩
  idle := ok.idle

lemma FetchOk.renew (ok : FetchOk f) (owner now : Nat) : FetchOk (f.renew owner now) where
  few := by
    rw [Fetch.renew]
    exact (length_alter).le.trans ok.few
  distinct := by
    have same : (f.renew owner now).suppliers.map Supplier.owner = f.suppliers.map Supplier.owner :=
      map_alter fun _ => rfl
    rw [same]
    exact ok.distinct
  owned owned := by
    obtain ⟨q, mem, same⟩ := ok.owned owned
    refine ⟨_, mem_alter.mpr ⟨q, mem, rfl⟩, ?_⟩
    split <;> exact same
  idle := ok.idle

lemma addFetch_limits (limits : Limits p) (ok : FetchOk f) (idle : f.owner = 0) (count : Nat) :
    Limits { p with pending := p.pending ++ [f], pendingCount := count } := by
  refine limits.of_le rfl ?_ ?_
  · intro g mem
    obtain delivering | inPending := List.mem_append.mp mem
    · exact limits.each g (List.mem_append_left _ delivering)
    obtain old | isNew := List.mem_append.mp inPending
    · exact limits.each g (List.mem_append_right _ old)
    exact List.mem_singleton.mp isNew ▸ ok
  intro cap
  have free : f.load cap = 0 := by simp [Fetch.load, idle]
  simp [Pool.load, Pool.fetches, free]

/-! ## Claims -/

variable {s : Session}

/-- Whoever is admitted finds every limit it counts towards unreached. -/
lemma room_of_admits (positive : s.owner ≠ 0) (admitted : admits p s f = true)
    (calm : p.delivering = none) (cap : Cap)
    (counted : cap.counts { f with owner := s.owner } = true) :
    p.load cap < cap.limit p.config := by
  simp only [admits, Bool.and_eq_true, decide_eq_true_eq, Bool.or_eq_true, beq_iff_eq] at admitted
  rw [load_eq_length, Pool.fetches, calm]
  cases cap with
  | all =>
    simp only [Cap.counts, Bool.and_true]
    exact admitted.1.1.2
  | nonroute =>
    simp only [Cap.counts, bne_iff_ne, ne_eq] at counted
    obtain isRoute | room := admitted.1.2
    · exact absurd isRoute counted
    exact room
  | session owner =>
    simp only [Cap.counts, beq_iff_eq] at counted
    refine lt_of_eq_of_lt ?_ admitted.1.1.1
    congr 1
    apply List.filter_congr
    intro g _
    rw [← counted]
    by_cases same : g.owner = s.owner
    · simp [Cap.counts, same, positive]
    simp [Cap.counts, same]

lemma claim_limits (keys : Keys p) (limits : Limits p) (mem : f ∈ p.pending) (free : f.owner = 0)
    (positive : s.owner ≠ 0) (supplied : supplies s f = true) (admitted : admits p s f = true)
    (calm : p.delivering = none) :
    Limits (p.modifyFetch f.id fun f =>
      { f with owner := s.owner, request := request, progress := now }) := by
  have ok := limits.each f (List.mem_append_right _ mem)
  refine ⟨?_, ?_⟩
  · intro g inFetches
    obtain delivering | inPending := List.mem_append.mp inFetches
    · exact limits.each g (List.mem_append_left _ delivering)
    obtain ⟨old, inOld, equal⟩ := mem_alter.mp inPending
    split at equal
    next same =>
      rw [keys.sole mem old inOld same] at equal
      rw [← equal]
      refine ⟨ok.few, ok.distinct, fun _ => ?_, fun unowned => absurd unowned positive⟩
      simp only [supplies, Bool.and_eq_true, List.any_eq_true, beq_iff_eq] at supplied
      exact supplied.1
    exact equal ▸ limits.each old (List.mem_append_right _ inOld)
  intro cap
  have summed : ((alter Fetch.id f.id (fun f =>
      { f with owner := s.owner, request := request, progress := now }) p.pending).map
        (Fetch.load cap)).sum + f.load cap = _ := sum_alter keys.pending mem
  have idle : f.load cap = 0 := by simp [Fetch.load, free]
  have before : p.load cap = (p.pending.map (Fetch.load cap)).sum := by
    rw [Pool.load, Pool.fetches, calm]
    rfl
  have after : (p.modifyFetch f.id fun f =>
      { f with owner := s.owner, request := request, progress := now }).load cap =
      ((alter Fetch.id f.id (fun f =>
        { f with owner := s.owner, request := request, progress := now }) p.pending).map
          (Fetch.load cap)).sum := by
    rw [Pool.load, Pool.fetches, Pool.modifyFetch, calm]
    rfl
  have within := limits.caps cap
  rw [after]
  by_cases counted : cap.counts { f with owner := s.owner } = true
  · have room := room_of_admits positive admitted calm cap counted
    have one : ({ f with owner := s.owner, request := request, progress := now } : Fetch).load cap
        ≤ 1 := by
      rw [Fetch.load]
      split <;> omega
    show _ ≤ cap.limit p.config
    omega
  have none : ({ f with owner := s.owner, request := request, progress := now } : Fetch).load cap
      = 0 := by
    have same : cap.counts { f with owner := s.owner, request := request, progress := now } =
        cap.counts { f with owner := s.owner } := by
      cases cap <;> rfl
    simp [Fetch.load, same, counted]
  show _ ≤ cap.limit p.config
  omega

/-! ## The moves -/

lemma dropPayload_fetches (p : Pool) (o : Object) : (dropPayload p o).fetches = p.fetches := by
  rw [dropPayload]
  split <;> rfl

lemma Limits.of_perm (limits : Limits p) (config : p'.config = p.config)
    (perm : p'.fetches.Perm p.fetches) : Limits p' := by
  refine limits.of_le config (fun f mem => limits.each f (perm.subset mem)) fun cap => ?_
  exact (perm.map (Fetch.load cap)).sum_eq.le

lemma perm_deliver (keys : Keys p) (mem : f ∈ p.pending) :
    (f :: erase Fetch.id f.id p.pending).Perm p.pending := by
  have distinct : p.pending.Nodup := List.Nodup.of_map _ keys.pending
  rw [List.perm_ext_iff_of_nodup _ distinct]
  · intro g
    rw [List.mem_cons, mem_erase]
    constructor
    · rintro (rfl | ⟨inPending, _⟩)
      · exact mem
      exact inPending
    intro inPending
    by_cases same : g.id = f.id
    · exact .inl (keys.sole mem g inPending same)
    exact .inr ⟨inPending, same⟩
  rw [List.nodup_cons, mem_erase]
  exact ⟨fun both => both.2 rfl, (erase_sublist).nodup distinct⟩

lemma relinked_limits (limits : Limits p) (delivering : p.delivering = some f) :
    Limits (relinked p f) := by
  refine limits.of_fetches rfl ?_
  rw [Pool.fetches, Pool.fetches, delivering]
  rfl

lemma PoolMove.limits (move : PoolMove env call p p') (keys : Keys p) (limits : Limits p) :
    Limits p' := by
  cases move with
  | consult | tick | report | burnRequest | remove | lapse | lower | enlist =>
    exact limits.of_fetches rfl rfl
  | dropBody o => exact limits.of_fetches (dropPayload_frame p o).config (dropPayload_fetches p o)
  | retire o => exact limits.of_fetches (retirePayload_frame p o).config (dropPayload_fetches p o)
  | adopt f o bytes delivering =>
    have before := limits.each f (by rw [Pool.fetches, delivering]; exact List.mem_cons_self ..)
    refine limits.of_le rfl ?_ ?_
    · intro g mem
      obtain rfl | inPending := List.mem_cons.mp mem
      · exact ⟨before.few, before.distinct, before.owned, fun _ => rfl⟩
      exact limits.each g (List.mem_append_right _ inPending)
    intro cap
    rw [Pool.load, Pool.load, Pool.fetches, Pool.fetches, delivering]
    refine le_of_eq ?_
    have same : ({ f with data := none, accepted := some o.born } : Fetch).load cap =
        f.load cap := by
      cases cap <;> rfl
    show ((_ :: p.pending).map (Fetch.load cap)).sum = ((f :: p.pending).map _).sum
    rw [List.map_cons, List.map_cons, same]
  | drop f => exact dropFetch_limits limits f
  | reset f => exact resetFetch_limits limits f
  | trim id keep kept =>
    apply dropIfUnsupplied_limits
    refine modifyFetch_limits limits id (fun f mem same ok => ?_) fun cap f => le_of_eq ?_
    · exact ok.keepSuppliers (kept f mem same)
    cases cap <;> rfl
  | hint id owner now positive =>
    refine addFetch_limits limits ?_ rfl _
    have bare : FetchOk { id := id } :=
      ⟨Nat.zero_le _, List.nodup_nil, fun owned => absurd rfl owned, fun _ => rfl⟩
    exact bare.supply (by simp) (Nat.zero_lt_succ _)
  | orphan id =>
    refine addFetch_limits limits ?_ rfl _
    exact ⟨Nat.zero_le _, List.nodup_nil, fun owned => absurd rfl owned, fun _ => rfl⟩
  | supply f owner now positive mem absent few =>
    refine modifyFetch_limits limits f.id (fun g inPending same ok => ?_) fun cap f => le_of_eq ?_
    · rw [keys.sole mem g inPending same] at ok ⊢
      exact ok.supply absent few
    cases cap <;> rfl
  | renew id owner now =>
    refine modifyFetch_limits limits id (fun f _ _ ok => ok.renew owner now)
      fun cap f => le_of_eq ?_
    cases cap <;> rfl
  | claim s f now mem free positive supplied admitted calm =>
    have claimed : Limits (p.modifyFetch f.id fun f =>
        { f with owner := s.owner, request := p.nextRequest + 1, progress := now }) :=
      claim_limits keys limits mem free positive supplied admitted calm
    exact claimed.of_fetches rfl rfl
  | buffer f total mem _ owned =>
    have started : Limits (p.modifyFetch f.id fun f => { f with data := some [], total := total }) := by
      refine modifyFetch_limits limits f.id (fun g inPending same ok => ?_) fun cap f => le_of_eq ?_
      · rw [keys.sole mem g inPending same] at ok ⊢
        exact ⟨ok.few, ok.distinct, ok.owned, fun idle => absurd idle owned⟩
      cases cap <;> rfl
    exact started.of_fetches rfl rfl
  | extend f m now => exact append_limits limits f.id m.data now
  | reject f data now => exact resetFetch_limits (append_limits limits f.id data now) _
  | deliver f mem _ calm =>
    refine limits.of_perm rfl ?_
    rw [Pool.fetches, Pool.fetches, calm]
    exact perm_deliver keys mem
  | relink f delivering => exact relinked_limits limits delivering
  | settle f born delivering =>
    apply dropFetch_limits
    exact (relinked_limits limits delivering).of_fetches rfl rfl

lemma Move.limits (move : Move env call w w') (keys : Keys w.pool) (limits : Limits w.pool) :
    Limits w'.pool := by
  cases move with
  | pool move => exact move.limits keys limits
  | openSession | startTransfer | sendChunk | sendLast | endTransfer | announce =>
    exact limits.of_fetches rfl rfl
  | leave s => exact limits

lemma Reachable.limits (reachable : Reachable env config w) : Limits w.pool := by
  refine reachable.induct (fun w => Limits w.pool) ?_ fun _ _ _ keys _ move => move.limits keys
  exact ⟨by simp [Pool.fetches], fun cap => by simp [Pool.load, Pool.fetches]⟩

/-! ## Suppliers -/

/-- With an allocator that never fails, no fetch lacks a supplier. -/
def Supplied (p : Pool) : Prop := ∀ f ∈ p.fetches, f.suppliers ≠ []

lemma Supplied.of_fetches (supplied : Supplied p) (fetches : p'.fetches = p.fetches) :
    Supplied p' := fun f mem => supplied f (fetches ▸ mem)

lemma modifyFetch_supplied (supplied : Supplied p) (id : Id)
    (kept : ∀ f, f.suppliers ≠ [] → (change f).suppliers ≠ []) :
    Supplied (p.modifyFetch id change) := by
  intro f mem
  obtain delivering | inPending := List.mem_append.mp mem
  · exact supplied f (List.mem_append_left _ delivering)
  obtain ⟨old, inOld, equal⟩ := mem_alter.mp inPending
  have before := supplied old (List.mem_append_right _ inOld)
  split at equal
  · exact equal ▸ kept old before
  exact equal ▸ before

lemma dropFetch_supplied (supplied : Supplied p) (f : Fetch) : Supplied (dropFetch p f) := by
  intro g mem
  obtain delivering | inPending := List.mem_append.mp mem
  · rw [(dropFetch_frame p f).delivering] at delivering
    exact supplied g (List.mem_append_left _ delivering)
  rw [dropFetch, Pool.removeFetch, unbuffer_pending] at inPending
  exact supplied g (List.mem_append_right _ (mem_erase.mp inPending).1)

lemma unbuffer_fetches (p : Pool) (f : Fetch) : (unbuffer p f).fetches = p.fetches := by
  rw [unbuffer]
  split <;> rfl

lemma resetFetch_supplied (supplied : Supplied p) (f : Fetch) : Supplied (resetFetch p f) :=
  modifyFetch_supplied (supplied.of_fetches (unbuffer_fetches p f)) f.id fun _ some => some

lemma mem_dropIfUnsupplied (keys : Keys p) {id : Id}
    (mem : f ∈ (dropIfUnsupplied p id).pending) :
    f ∈ p.pending ∧ (f.id = id → f.suppliers ≠ []) := by
  rw [dropIfUnsupplied] at mem
  split at mem
  next absent => exact ⟨mem, fun same => absurd same (lookup_eq_none.mp absent f mem)⟩
  rename_i g found
  split at mem
  · rw [dropFetch, Pool.removeFetch, unbuffer_pending, mem_erase, key_of_lookup found] at mem
    exact ⟨mem.1, fun same => absurd same mem.2⟩
  rename_i some
  refine ⟨mem, fun same => ?_⟩
  rw [keys.sole (mem_of_lookup found) f mem (same.trans (key_of_lookup found).symm)]
  exact some

lemma trim_supplied (keys : Keys p) (id : Id)
    (sameId : ∀ f, (change f).id = f.id) (supplied : Supplied p) :
    Supplied (dropIfUnsupplied (p.modifyFetch id change) id) := by
  intro f mem
  obtain delivering | inPending := List.mem_append.mp mem
  · rw [(dropIfUnsupplied_frame _ id).delivering] at delivering
    exact supplied f (List.mem_append_left _ delivering)
  obtain ⟨inChanged, kept⟩ := mem_dropIfUnsupplied (keys.modifyFetch id sameId) inPending
  by_cases same : f.id = id
  · exact kept same
  obtain ⟨old, inOld, equal⟩ := mem_alter.mp inChanged
  split at equal
  next isId =>
    rw [← equal, sameId] at same
    exact absurd isId same
  exact equal ▸ supplied old (List.mem_append_right _ inOld)

lemma PoolMove.supplied (move : PoolMove env call p p') (keys : Keys p)
    (granting : ∀ count, env.allocate count = true) (supplied : Supplied p) : Supplied p' := by
  cases move with
  | dropBody o | retire o => exact supplied.of_fetches (dropPayload_fetches p o)
  | adopt f o bytes delivering =>
    intro g mem
    obtain rfl | inPending := List.mem_cons.mp mem
    · exact supplied f (by rw [Pool.fetches, delivering]; exact List.mem_cons_self ..)
    exact supplied g (List.mem_append_right _ inPending)
  | drop f => exact dropFetch_supplied supplied f
  | reset f => exact resetFetch_supplied supplied f
  | trim id keep =>
    exact trim_supplied keys id (fun _ => rfl) supplied
  | hint id owner now =>
    intro f mem
    obtain delivering | inPending := List.mem_append.mp mem
    · exact supplied f (List.mem_append_left _ delivering)
    obtain old | isNew := List.mem_append.mp inPending
    · exact supplied f (List.mem_append_right _ old)
    rw [List.mem_singleton.mp isNew]
    exact List.cons_ne_nil _ _
  | orphan id _ _ starved =>
    obtain ⟨count, failed⟩ := starved
    rw [granting count] at failed
    cases failed
  | supply f owner now =>
    exact modifyFetch_supplied supplied f.id fun _ _ => List.cons_ne_nil _ _
  | renew id owner now =>
    refine modifyFetch_supplied supplied id fun f some => ?_
    rw [← List.length_pos_iff_ne_nil] at some ⊢
    exact lt_of_lt_of_eq some length_alter.symm
  | claim s f now => exact modifyFetch_supplied (supplied.of_fetches rfl) f.id fun _ some => some
  | buffer f total =>
    have started : Supplied (p.modifyFetch f.id fun f => { f with data := some [], total := total }) :=
      modifyFetch_supplied supplied f.id fun _ some => some
    exact started.of_fetches rfl
  | extend f m now => exact modifyFetch_supplied supplied f.id fun _ some => some
  | reject f data now =>
    apply resetFetch_supplied
    exact modifyFetch_supplied supplied f.id fun _ some => some
  | deliver f mem _ calm =>
    intro g inFetches
    obtain rfl | inPending := List.mem_cons.mp inFetches
    · exact supplied g (List.mem_append_right _ mem)
    exact supplied g (List.mem_append_right _ (mem_erase.mp inPending).1)
  | relink f delivering =>
    refine supplied.of_fetches ?_
    rw [Pool.fetches, Pool.fetches, delivering]
    rfl
  | settle f born delivering =>
    apply dropFetch_supplied
    refine supplied.of_fetches ?_
    show f :: p.pending = p.fetches
    rw [Pool.fetches, delivering]
    rfl
  | _ => exact supplied.of_fetches rfl

lemma Move.supplied (move : Move env call w w') (keys : Keys w.pool)
    (granting : ∀ count, env.allocate count = true) (supplied : Supplied w.pool) :
    Supplied w'.pool := by
  cases move with
  | pool move => exact move.supplied keys granting supplied
  | _ => exact supplied.of_fetches rfl

lemma Reachable.supplied (reachable : Reachable env config w)
    (granting : ∀ count, env.allocate count = true) : Supplied w.pool := by
  refine reachable.induct (fun w => Supplied w.pool) ?_
    fun _ _ _ keys _ move => move.supplied keys granting
  exact fun f mem => by simp [Pool.fetches] at mem

/-! ## Pruning -/

lemma mem_alter_other {id : Id} {pending : List Fetch}
    (mem : f ∈ alter Fetch.id id change pending) (different : f.id ≠ id)
    (sameId : ∀ f, (change f).id = f.id) : f ∈ pending := by
  obtain ⟨old, inOld, equal⟩ := mem_alter.mp mem
  split at equal
  next isId =>
    rw [← equal, sameId] at different
    exact absurd isId different
  exact equal ▸ inOld

lemma pruneFetch_keys (now : Nat) (keys : Keys p) (id : Id) : Keys (pruneFetch now p id) := by
  have moves : PoolMoves generous (.reclaim 0) p (pruneFetch now p id) := pruneFetch_moves now id
  exact moves.keys keys

/-- A round of pruning leaves the other fetches and drops one without suppliers. -/
lemma mem_pruneFetch (keys : Keys p) {id : Id} (mem : f ∈ (pruneFetch now p id).pending) :
    (f.id ≠ id → f ∈ p.pending) ∧ (f.id = id → f.suppliers ≠ []) := by
  simp only [pruneFetch] at mem
  split at mem
  next absent =>
    exact ⟨fun _ => mem, fun same => absurd same (lookup_eq_none.mp absent f mem)⟩
  rename_i g found
  have keys' : Keys (if idle now g then resetFetch p g else p) := by
    split
    · exact resetFetch_keys keys g
    exact keys
  have keys'' : Keys (Pool.modifyFetch (if idle now g then resetFetch p g else p) id
      fun f => f.keepSuppliers fun q => !lapsed now f q) := keys'.modifyFetch id fun _ => rfl
  obtain ⟨inChanged, kept⟩ := mem_dropIfUnsupplied keys'' mem
  refine ⟨fun different => ?_, kept⟩
  have inReset := mem_alter_other inChanged different fun _ => rfl
  split at inReset
  · rw [resetFetch, Pool.modifyFetch, unbuffer_pending, key_of_lookup found] at inReset
    exact mem_alter_other inReset different fun _ => rfl
  exact inReset

lemma mem_pruneFetches (ids : List Id) (keys : Keys p)
    (mem : f ∈ (ids.foldl (pruneFetch now) p).pending) :
    (f.id ∉ ids → f ∈ p.pending) ∧ (f.id ∈ ids → f.suppliers ≠ []) := by
  induction ids generalizing p with
  | nil => exact ⟨fun _ => mem, fun inNil => by cases inNil⟩
  | cons id rest ih =>
    have later := ih (pruneFetch_keys now keys id) mem
    by_cases inRest : f.id ∈ rest
    · exact ⟨fun outside => absurd (.tail _ inRest) outside, fun _ => later.2 inRest⟩
    have here := mem_pruneFetch keys (later.1 inRest)
    refine ⟨fun outside => here.1 fun same => outside (same ▸ List.mem_cons_self ..), ?_⟩
    intro listed
    obtain same | later := List.mem_cons.mp listed
    · exact here.2 same
    exact absurd later inRest

lemma wgPrune_supplies (keys : Keys p) (now : Nat) :
    ∀ f ∈ (wgPrune p now).pending, f.suppliers ≠ [] := by
  intro f mem
  have objects : PoolMoves generous (.reclaim 0) (p.tick now)
      (((p.tick now).objects.map Object.born).foldl (pruneObject now) (p.tick now)) := by
    apply PoolMoves.foldl (fun p => p.clock = now)
    · intro p born ticked
      exact ⟨pruneObject_moves ticked born, (pruneObject_frame now p born).clock.trans ticked⟩
    rfl
  have keys' := objects.keys { keys with }
  have both := mem_pruneFetches _ keys' mem
  refine both.2 ?_
  by_contra outside
  exact outside (List.mem_map_of_mem (both.1 outside))

/-! ## Messages of others -/

/-- A chunk or a refusal that is not the owner's answer to the current request. -/
lemma wgReceive_foreign {m : Message} {now : UInt64} (op : m.op = .wgData ∨ m.op = .wgUnavailable)
    (foreign : ∀ f, (wgPrune p now.toNat).fetch? m.id = some f →
      f.owner ≠ s.owner ∨ f.request ≠ m.request) : (wgReceive env p s m now).2 = (p, s) ∨
      (wgReceive env p s m now).2 = (wgPrune p now.toNat, s) := by
  simp only [wgReceive]
  split
  · exact .inl rfl
  split
  · exact .inl rfl
  split
  · exact .inl rfl
  refine .inr ?_
  simp only [dispatch]
  obtain isData | isUnavailable := op
  · rw [isData]
    simp only
    split
    · rfl
    next f found => rw [if_pos (foreign f found)]
  rw [isUnavailable]
  simp only
  split
  · rfl
  next f found => rw [if_pos (foreign f found)]

/-! ## The limits of a pool -/

/-- The downloads of a pool keep their limits in every run. A fetch lacks
suppliers only after its first one could not be allocated; it is then idle, and
the next pruning drops it. -/
theorem download_limits (reachable : Reachable env config w) : (w.pool.pending.map Fetch.id).Nodup ∧
    (∀ f ∈ w.pool.pending, f.suppliers.length ≤ 4 ∧ (f.suppliers.map Supplier.owner).Nodup ∧
      (f.owner ≠ 0 → ∃ q ∈ f.suppliers, q.owner = f.owner) ∧
      (f.suppliers = [] → f.owner = 0 ∧ f.data = none)) ∧
    ((∀ count, env.allocate count = true) → ∀ f ∈ w.pool.pending, f.suppliers ≠ []) ∧
    (∀ now, ∀ f ∈ (wgPrune w.pool now).pending, f.suppliers ≠ []) ∧
    (w.pool.pending.filter fun f => f.owner != 0).length ≤ config.downloadLimit ∧
    (w.pool.pending.filter fun f => f.owner != 0 && f.id.type != 1).length ≤
      config.downloadLimit - config.routeDownloadReserve ∧
    (∀ s ∈ w.sessions, (w.pool.pending.filter fun f => f.owner == s.owner).length ≤ 4) ∧
    ∀ s ∈ w.sessions, ∀ (m : Message) (now : UInt64), m.op = .wgData ∨ m.op = .wgUnavailable →
      (∀ f, (wgPrune w.pool now.toNat).fetch? m.id = some f →
        f.owner ≠ s.owner ∨ f.request ≠ m.request) →
      (wgReceive env w.pool s m now).2 = (w.pool, s) ∨
        (wgReceive env w.pool s m now).2 = (wgPrune w.pool now.toNat, s) := by
  have ready := reachable.ready
  have limits := reachable.limits
  have fetches : w.pool.fetches = w.pool.pending := by
    rw [Pool.fetches, ready.calm]
    rfl
  have sameConfig : w.pool.config = config := reachable.config
  have loads : ∀ cap : Cap, (w.pool.pending.filter fun f => f.owner != 0 && cap.counts f).length ≤
      cap.limit config := by
    intro cap
    rw [← fetches, ← load_eq_length, ← sameConfig]
    exact limits.caps cap
  refine ⟨ready.keys.pending, ?_, ?_, ?_, ?_, ?_, ?_, ?_⟩
  · intro f member
    have ok := limits.each f (fetches ▸ member)
    refine ⟨ok.few, ok.distinct, ok.owned, fun none => ?_⟩
    have idle : f.owner = 0 := by
      by_contra owned
      obtain ⟨q, inNone, _⟩ := ok.owned owned
      rw [none] at inNone
      cases inNone
    exact ⟨idle, ok.idle idle⟩
  · exact fun granting f member => reachable.supplied granting f (fetches ▸ member)
  · exact fun now => wgPrune_supplies ready.keys now
  · simpa [Cap.counts, Cap.limit] using loads .all
  · simpa [Cap.counts, Cap.limit] using loads .nonroute
  · intro s member
    have positive := (ready.owners.each s member).1
    refine le_trans (le_of_eq ?_) (loads (.session s.owner))
    congr 1
    apply List.filter_congr
    intro f _
    by_cases same : f.owner = s.owner
    · simp [Cap.counts, same, positive]
    simp [Cap.counts, same]
  exact fun s _ m now op foreign => wgReceive_foreign op foreign

def hinted : List Call :=
  [.openSession 1, .receive 1 { id := { type := 1, hash := Octets.zero 32 }, op := .wgHave } 5]

/-- The first hint of a digest makes a fetch that its session downloads. -/
theorem download_limits_hinted : let w := run generous { pool := { config := small } } hinted
    (w.pool.pending.map fun f => (f.owner, f.request)) = [(1, 1)] ∧
      (w.pool.pending.filter fun f => f.owner != 0).length ≤ small.downloadLimit :=
  ⟨by decide, (download_limits (reachable_small hinted)).2.2.2.2.1⟩

def starved : Env := { generous with allocate := fun count => count == 1 }

/-- A fetch that no session supplies. -/
theorem unsupplied_fetch :
    ∃ w, Reachable starved small w ∧ ∃ f ∈ w.pool.pending, f.suppliers = [] :=
  ⟨run starved { pool := { config := small } } hinted, Reachable.run (.init rfl) hinted, by decide⟩

end WendyLite.Gossip
