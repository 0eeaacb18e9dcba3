import WendyLite.Gossip.References

/-! # Accounts

A pool keeps an account of all its payload bytes and one for each type. Every
move that takes or frees bytes books them on both, so the balances are the sums
over the bodies and the receive buffers, and the quotas hold.
-/

namespace WendyLite.Gossip

open KeyedList Relation

variable {env : Env} {call : Call} {config : Config} {p p' : Pool} {w w' : World}

/-! ## Balances -/

/-- The account of the whole pool is `none`, that of a type `some type`. -/
def covers : Option UInt8 → UInt8 → Bool
  | none, _ => true
  | some type, other => type == other

lemma covers_some (type other : UInt8) : covers (some type) other = decide (other = type) := by
  exact decide_eq_decide.mpr eq_comm

def Pool.balance (p : Pool) : Option UInt8 → Nat
  | none => p.payloadBytes
  | some type => p.typePayload type

def Config.quota (config : Config) : Option UInt8 → Nat
  | none => config.bytes
  | some type => config.category type

def Object.cost (account : Option UInt8) (o : Object) : Nat :=
  if covers account o.id.type then o.size else 0

/-- A receive buffer costs its whole size from the first chunk on. -/
def Fetch.cost (account : Option UInt8) (f : Fetch) : Nat :=
  if covers account f.id.type && f.data.isSome then f.total else 0

def Pool.costs (p : Pool) (account : Option UInt8) : Nat :=
  (p.objects.map (Object.cost account)).sum + (p.fetches.map (Fetch.cost account)).sum

lemma balance_charge (p : Pool) (type : UInt8) (size : Nat) (account : Option UInt8) :
    (p.charge type size).balance account =
      p.balance account + if covers account type then size else 0 := by
  cases account with
  | none => simp [Pool.balance, Pool.charge, covers]
  | some other =>
    by_cases same : other = type
    all_goals simp [Pool.balance, Pool.charge, covers, same]

lemma balance_uncharge (p : Pool) (type : UInt8) (size : Nat) (account : Option UInt8)
    (fits : covers account type = true → size ≤ p.balance account) :
    (p.uncharge type size).balance account + (if covers account type then size else 0) =
      p.balance account := by
  cases account with
  | none =>
    have enough := fits rfl
    simp only [Pool.balance, Pool.uncharge, covers, if_true] at enough ⊢
    rw [sizeSub_of_le enough]
    omega
  | some other =>
    by_cases same : other = type
    · have enough := fits (by simp [covers, same])
      simp only [Pool.balance, Pool.uncharge, covers, same, beq_self_eq_true, if_true,
        Function.update_self] at enough ⊢
      rw [sizeSub_of_le enough]
      omega
    simp [Pool.balance, Pool.uncharge, covers, same]

/-- `room` has found the bytes on every account. -/
lemma quota_of_room (fits : payloadFull p type size = false)
    (within : ∀ account, p.balance account ≤ p.config.quota account) (account : Option UInt8)
    (covered : covers account type = true) : p.balance account + size ≤ p.config.quota account := by
  simp only [payloadFull, categoryFull, Bool.or_eq_false_iff, decide_eq_false_iff_not,
    not_lt] at fits
  have enough := within account
  cases account with
  | none =>
    simp only [Pool.balance, Config.quota] at enough ⊢
    have left := fits.1
    rw [sizeSub_of_le enough] at left
    omega
  | some other =>
    simp only [covers, beq_iff_eq] at covered
    simp only [Pool.balance, Config.quota, covered] at enough ⊢
    have left := fits.2
    rw [sizeSub_of_le enough] at left
    omega

/-! ## The ledger -/

structure Ledger (p : Pool) : Prop where
  balance : ∀ account, p.balance account = p.costs account
  quota : ∀ account, p.balance account ≤ p.config.quota account
  exact : ∀ f, p.delivering = some f → ∀ bytes, f.data = some bytes → bytes.length = f.total

lemma Ledger.of_same (ledger : Ledger p) (config : p'.config = p.config)
    (balance : p'.balance = p.balance) (costs : ∀ account, p'.costs account = p.costs account)
    (exact : ∀ f, p'.delivering = some f → ∀ bytes, f.data = some bytes →
      bytes.length = f.total) : Ledger p' where
  balance account := by rw [balance, costs, ledger.balance]
  quota account := by
    rw [balance, config]
    exact ledger.quota account
  exact := exact

variable {q : Pool}

lemma Ledger.release (ledger : Ledger p) (type : UInt8) (size : Nat)
    (booked : p'.balance = (q.uncharge type size).balance) (before : q.balance = p.balance)
    (config : p'.config = p.config) (delivering : p'.delivering = p.delivering)
    (costs : ∀ account, p'.costs account + (if covers account type then size else 0) =
      p.costs account) : Ledger p' := by
  have balances : ∀ account, p'.balance account + (if covers account type then size else 0) =
      p.balance account := by
    intro account
    rw [booked, ← before]
    apply balance_uncharge
    intro covered
    have total := costs account
    rw [if_pos covered, ← ledger.balance account] at total
    rw [before]
    omega
  refine ⟨fun account => ?_, fun account => ?_, ?_⟩
  · have booked := balances account
    have freed := costs account
    have balanced := ledger.balance account
    omega
  · have booked := balances account
    have within := ledger.quota account
    rw [config]
    omega
  rw [delivering]
  exact ledger.exact

lemma Ledger.take (ledger : Ledger p) (type : UInt8) (size : Nat)
    (booked : p'.balance = (q.charge type size).balance) (before : q.balance = p.balance)
    (config : p'.config = p.config) (delivering : p'.delivering = p.delivering)
    (fits : payloadFull p type size = false) (costs : ∀ account, p'.costs account =
      p.costs account + if covers account type then size else 0) : Ledger p' := by
  have balances : ∀ account, p'.balance account =
      p.balance account + if covers account type then size else 0 := by
    intro account
    rw [booked, balance_charge, before]
  refine ⟨fun account => ?_, fun account => ?_, ?_⟩
  · rw [balances, costs, ledger.balance]
  · rw [balances, config]
    split
    · exact quota_of_room fits ledger.quota account (by assumption)
    exact ledger.quota account
  rw [delivering]
  exact ledger.exact

/-! ## Costs of edits -/

lemma costs_of_lists {p : Pool} (objects : q.objects = p.objects)
    (fetches : q.fetches = p.fetches) (account : Option UInt8) :
    q.costs account = p.costs account := by
  rw [Pool.costs, Pool.costs, objects, fetches]

variable {o : Object}

lemma costs_alterObject (keys : Keys p) (mem : o ∈ p.objects)
    (change : Object → Object) (objects : p'.objects = alter Object.born o.born change p.objects)
    (fetches : p'.fetches = p.fetches) (account : Option UInt8) :
    p'.costs account + o.cost account = p.costs account + (change o).cost account := by
  have summed : ((alter Object.born o.born change p.objects).map (Object.cost account)).sum +
      o.cost account = _ := sum_alter keys.borns mem
  rw [Pool.costs, Pool.costs, objects, fetches]
  omega

lemma costs_alter_same {born : Nat} {change : Object → Object}
    (objects : p'.objects = alter Object.born born change p.objects)
    (fetches : p'.fetches = p.fetches) (sameId : ∀ o, (change o).id = o.id)
    (sameData : ∀ o, (change o).data = o.data) (account : Option UInt8) :
    p'.costs account = p.costs account := by
  rw [Pool.costs, Pool.costs, objects, fetches, map_alter]
  intro o
  rw [Object.cost, Object.cost, Object.size, Object.size, sameId, sameData]

variable {f : Fetch}

lemma Fetch.cost_eq {g : Fetch} (id : g.id = f.id) (data : g.data.isSome = f.data.isSome)
    (total : g.total = f.total) :
    g.cost account = f.cost account := by
  rw [Fetch.cost, Fetch.cost, id, data, total]

lemma costs_alterFetch (keys : Keys p) (mem : f ∈ p.pending) (change : Fetch → Fetch)
    (objects : p'.objects = p.objects) (pending : p'.pending = alter Fetch.id f.id change p.pending)
    (delivering : p'.delivering = p.delivering) (account : Option UInt8) :
    p'.costs account + f.cost account = p.costs account + (change f).cost account := by
  have summed : ((alter Fetch.id f.id change p.pending).map (Fetch.cost account)).sum +
      f.cost account = _ := sum_alter keys.pending mem
  rw [Pool.costs, Pool.costs, Pool.fetches, Pool.fetches, objects, pending, delivering,
    List.map_append, List.map_append, List.sum_append, List.sum_append]
  omega

lemma costs_alterFetch_same {id : Id} (objects : p'.objects = p.objects)
    (pending : p'.pending = alter Fetch.id id change p.pending)
    (delivering : p'.delivering = p.delivering) (sameId : ∀ f, (change f).id = f.id)
    (sameData : ∀ f, (change f).data.isSome = f.data.isSome)
    (sameTotal : ∀ f, (change f).total = f.total) (account : Option UInt8) :
    p'.costs account = p.costs account := by
  rw [Pool.costs, Pool.costs, Pool.fetches, Pool.fetches, objects, pending, delivering,
    List.map_append, List.map_append,
    map_alter fun f => Fetch.cost_eq (sameId f) (sameData f) (sameTotal f)]

lemma costs_eraseFetch (keys : Keys p) (mem : f ∈ p.pending)
    (objects : p'.objects = p.objects) (pending : p'.pending = erase Fetch.id f.id p.pending)
    (delivering : p'.delivering = p.delivering) (account : Option UInt8) :
    p'.costs account + f.cost account = p.costs account := by
  have summed : ((erase Fetch.id f.id p.pending).map (Fetch.cost account)).sum +
      f.cost account = _ := sum_erase keys.pending mem
  rw [Pool.costs, Pool.costs, Pool.fetches, Pool.fetches, objects, pending, delivering,
    List.map_append, List.map_append, List.sum_append, List.sum_append]
  omega

/-! ## The moves -/

lemma dropPayload_ledger (keys : Keys p) (ledger : Ledger p)
    (mem : o ∈ p.objects) : Ledger (dropPayload p o) := by
  rw [dropPayload]
  split
  · exact ledger
  rename_i body holds
  refine ledger.release (q := p.report (.evicted o.id body)) o.id.type body.length rfl rfl rfl
    rfl ?_
  intro account
  have cost : (if covers account o.id.type then body.length else 0) = o.cost account := by
    simp [Object.cost, Object.size, holds]
  rw [cost]
  refine (costs_alterObject keys mem (fun o => { o with data := none }) ?_ ?_ account).trans ?_
  · rfl
  · rfl
  simp [Object.cost, Object.size]

lemma unbuffer_ledger (ledger : Ledger p) (config : p'.config = p.config)
    (balance : p'.balance = (unbuffer p f).balance) (delivering : p'.delivering = p.delivering)
    (costs : ∀ account, p'.costs account + f.cost account = p.costs account) : Ledger p' := by
  by_cases buffered : f.data.isSome = true
  · rw [unbuffer, if_pos buffered] at balance
    refine ledger.release f.id.type f.total balance rfl config delivering ?_
    intro account
    have freed := costs account
    rw [Fetch.cost, buffered, Bool.and_true] at freed
    exact freed
  rw [unbuffer, if_neg buffered] at balance
  refine ledger.of_same config balance ?_ (delivering ▸ ledger.exact)
  intro account
  have freed := costs account
  simpa [Fetch.cost, buffered] using freed

lemma balance_unbuffer_removeFetch (p : Pool) (f : Fetch) (id : Id) :
    ((unbuffer p f).removeFetch id).balance = (unbuffer p f).balance := by
  funext account
  cases account <;> rfl

lemma dropFetch_ledger (keys : Keys p) (ledger : Ledger p) (mem : f ∈ p.pending) :
    Ledger (dropFetch p f) := by
  have frame := dropFetch_frame p f
  refine unbuffer_ledger ledger (f := f) frame.config ?_ frame.delivering ?_
  · exact balance_unbuffer_removeFetch p f f.id
  intro account
  apply costs_eraseFetch keys mem _ _ frame.delivering
  · rw [dropFetch, Pool.removeFetch, unbuffer]
    split <;> rfl
  rw [dropFetch, Pool.removeFetch, unbuffer_pending]

lemma resetFetch_ledger (keys : Keys p) (ledger : Ledger p) (mem : f ∈ p.pending) :
    Ledger (resetFetch p f) := by
  have frame := resetFetch_frame p f
  refine unbuffer_ledger ledger (f := f) frame.config ?_ frame.delivering ?_
  · funext account
    cases account <;> rfl
  intro account
  have changed : (resetFetch p f).costs account + f.cost account =
      p.costs account + f.reset.cost account := by
    apply costs_alterFetch keys mem Fetch.reset _ _ frame.delivering
    · rw [resetFetch, Pool.modifyFetch, unbuffer]
      split <;> rfl
    rw [resetFetch, Pool.modifyFetch, unbuffer_pending]
  simpa [Fetch.cost, Fetch.reset] using changed

lemma dropIfUnsupplied_ledger (keys : Keys p) (ledger : Ledger p) (id : Id) :
    Ledger (dropIfUnsupplied p id) := by
  rw [dropIfUnsupplied]
  split
  · exact ledger
  rename_i f found
  split
  · exact dropFetch_ledger keys ledger (mem_of_lookup found)
  exact ledger

lemma modifyFetch_ledger (ledger : Ledger p) (id : Id) (sameId : ∀ f, (change f).id = f.id)
    (sameData : ∀ f, (change f).data.isSome = f.data.isSome)
    (sameTotal : ∀ f, (change f).total = f.total) : Ledger (p.modifyFetch id change) :=
  ledger.of_same rfl (by funext account; cases account <;> rfl)
    (costs_alterFetch_same rfl rfl rfl sameId sameData sameTotal) ledger.exact

lemma alterObject_ledger (ledger : Ledger p) (born : Nat) (sameId : ∀ o, (change o).id = o.id)
    (sameData : ∀ o, (change o).data = o.data) :
    Ledger (p.modifyObject born change) :=
  ledger.of_same rfl (by funext account; cases account <;> rfl)
    (costs_alter_same rfl rfl sameId sameData) ledger.exact

/-- Whatever keeps the payload, the lists and the limits keeps the ledger. -/
lemma Ledger.of_lists (ledger : Ledger p) (config : p'.config = p.config)
    (payload : p'.payloadBytes = p.payloadBytes) (types : p'.typePayload = p.typePayload)
    (objects : p'.objects = p.objects) (fetches : p'.fetches = p.fetches)
    (delivering : p'.delivering = p.delivering) : Ledger p' := by
  refine ledger.of_same config ?_ (costs_of_lists objects fetches) (delivering ▸ ledger.exact)
  funext account
  cases account with
  | none => exact payload
  | some type => exact congrFun types type

lemma removeObject_ledger (keys : Keys p) (ledger : Ledger p)
    (mem : o ∈ p.objects) (empty : o.data = none) : Ledger (p.removeObject o.born) := by
  refine ledger.of_same rfl (by funext account; cases account <;> rfl) ?_ ledger.exact
  intro account
  have summed : ((erase Object.born o.born p.objects).map (Object.cost account)).sum +
      o.cost account = _ := sum_erase keys.borns mem
  have free : o.cost account = 0 := by simp [Object.cost, Object.size, empty]
  show ((erase Object.born o.born p.objects).map (Object.cost account)).sum + _ = _
  rw [free, Nat.add_zero] at summed
  rw [summed]
  rfl

lemma costs_enlist (o : Object) (account : Option UInt8) (objects : p'.objects = o :: p.objects)
    (fetches : p'.fetches = p.fetches) : p'.costs account = p.costs account + o.cost account := by
  rw [Pool.costs, Pool.costs, objects, fetches, List.map_cons, List.sum_cons]
  omega

lemma enlist_ledger (ledger : Ledger p) (body : o.data = some bytes)
    (fits : payloadFull p o.id.type bytes.length = false) :
    Ledger ((enlist p o).charge o.id.type bytes.length) := by
  have before : (enlist p o).balance = p.balance := by
    funext account
    cases account <;> rfl
  refine ledger.take o.id.type bytes.length rfl before rfl rfl fits ?_
  intro account
  have cost : (if covers account o.id.type then bytes.length else 0) = o.cost account := by
    simp [Object.cost, Object.size, body]
  rw [cost]
  exact costs_enlist o account rfl rfl

lemma adopt_ledger (ledger : Ledger p) {bytes : List UInt8} (delivering : p.delivering = some f)
    (buffered : f.data = some bytes) (same : f.id = o.id) (body : o.data = some bytes) :
    Ledger (enlist { p with
      delivering := some { f with data := none, accepted := some o.born } } o) := by
  refine ledger.of_same rfl (by funext account; cases account <;> rfl) ?_ ?_
  · intro account
    have size := ledger.exact f delivering bytes buffered
    have cost : f.cost account = o.cost account := by
      simp [Fetch.cost, Object.cost, Object.size, buffered, body, same, size]
    have taken : Pool.costs { p with
        delivering := some { f with data := none, accepted := some o.born } } account + f.cost account =
        p.costs account := by
      rw [Pool.costs, Pool.costs, Pool.fetches, Pool.fetches, delivering]
      simp [Fetch.cost]
      omega
    rw [← taken, cost]
    apply costs_enlist <;> rfl
  intro g isDelivering bytes' isBuffered
  cases isDelivering
  cases isBuffered

lemma addFetch_ledger (ledger : Ledger p) (empty : f.data = none) (count : Nat) :
    Ledger { p with pending := p.pending ++ [f], pendingCount := count } := by
  refine ledger.of_same rfl (by funext account; cases account <;> rfl) ?_ ledger.exact
  intro account
  have free : f.cost account = 0 := by simp [Fetch.cost, empty]
  simp [Pool.costs, Pool.fetches, free]

lemma buffer_ledger (keys : Keys p) (ledger : Ledger p) (mem : f ∈ p.pending)
    (empty : f.data = none) (fits : payloadFull p f.id.type total = false) :
    Ledger ((p.modifyFetch f.id fun f => { f with data := some [], total := total }).charge
      f.id.type total) := by
  refine ledger.take f.id.type total rfl (by funext account; cases account <;> rfl) rfl rfl fits ?_
  intro account
  have free : f.cost account = 0 := by simp [Fetch.cost, empty]
  have cost : (if covers account f.id.type then total else 0) =
      ({ f with data := some [], total := total } : Fetch).cost account := by
    simp [Fetch.cost]
  rw [cost]
  have changed : Pool.costs ((p.modifyFetch f.id fun f => { f with data := some [], total := total
      }).charge f.id.type total) account + f.cost account = p.costs account +
      ({ f with data := some [], total := total } : Fetch).cost account := by
    apply costs_alterFetch keys mem fun f => { f with data := some [], total := total }
    all_goals rfl
  rw [free] at changed
  exact changed

lemma deliver_ledger (keys : Keys p) (ledger : Ledger p) (mem : f ∈ p.pending)
    (full : f.full = true) (calm : p.delivering = none) (body : List UInt8) :
    Ledger (beginDelivery p f body) := by
  refine ledger.of_same rfl (by funext account; cases account <;> rfl) ?_ ?_
  · intro account
    have summed : ((erase Fetch.id f.id p.pending).map (Fetch.cost account)).sum +
        f.cost account = _ := sum_erase keys.pending mem
    rw [Pool.costs, Pool.costs, Pool.fetches, Pool.fetches, calm]
    show _ + ((f :: erase Fetch.id f.id p.pending).map (Fetch.cost account)).sum = _
    rw [List.map_cons, List.sum_cons]
    simp only [Option.toList_none, List.nil_append]
    show (p.objects.map _).sum + _ = _
    omega
  intro g isDelivering bytes holds
  cases isDelivering
  simp only [Fetch.full, Bool.and_eq_true, beq_iff_eq, Fetch.size, holds] at full
  exact full.2

lemma relinked_ledger (ledger : Ledger p) (delivering : p.delivering = some f) :
    Ledger (relinked p f) := by
  refine ledger.of_same rfl (by funext account; cases account <;> rfl) ?_ ?_
  · intro account
    apply costs_of_lists
    · rfl
    rw [Pool.fetches, Pool.fetches, delivering]
    rfl
  intro g isDelivering
  cases isDelivering

lemma relinked_keys (keys : Keys p) (delivering : p.delivering = some f) :
    Keys (relinked p f) := by
  refine { keys with fetches := ?_ }
  have before := keys.fetches
  rw [Pool.fetches, delivering] at before
  exact before

lemma PoolMove.ledger (move : PoolMove env call w.pool p) (keys : Keys w.pool)
    (references : References w) (ledger : Ledger w.pool) : Ledger p := by
  cases move with
  | consult | tick | report | burnRequest => exact ledger.of_lists rfl rfl rfl rfl rfl rfl
  | dropBody o mem => exact dropPayload_ledger keys ledger mem
  | remove o mem _ unused empty =>
    obtain empty | lent := empty
    · exact removeObject_ledger keys ledger mem empty
    exact absurd (borrowed_iff.mp lent) (references.unnamed mem unused).2
  | lapse o | lower o => exact alterObject_ledger ledger o.born (fun _ => rfl) fun _ => rfl
  | retire o mem =>
    have dropped := dropPayload_ledger keys ledger mem
    apply alterObject_ledger
    · exact dropped.of_lists rfl rfl rfl rfl rfl rfl
    all_goals exact fun _ => rfl
  | enlist o bytes _ _ body _ _ fits => exact enlist_ledger ledger body fits
  | adopt f o bytes delivering buffered same _ _ body =>
    exact adopt_ledger ledger delivering buffered same body
  | drop f mem => exact dropFetch_ledger keys ledger mem
  | reset f mem => exact resetFetch_ledger keys ledger mem
  | trim id keep =>
    have kept : Keys (w.pool.modifyFetch id fun f => f.keepSuppliers (keep f)) :=
      keys.modifyFetch id fun _ => rfl
    apply dropIfUnsupplied_ledger kept
    exact modifyFetch_ledger ledger id (fun _ => rfl) (fun _ => rfl) fun _ => rfl
  | hint | orphan => exact addFetch_ledger ledger rfl _
  | supply f owner now =>
    exact modifyFetch_ledger ledger f.id (fun _ => rfl) (fun _ => rfl) fun _ => rfl
  | renew id owner now =>
    exact modifyFetch_ledger ledger id (fun _ => rfl) (fun _ => rfl) fun _ => rfl
  | claim s f now =>
    apply modifyFetch_ledger
    · exact ledger.of_lists rfl rfl rfl rfl rfl rfl
    all_goals exact fun _ => rfl
  | buffer f total mem empty _ _ fits => exact buffer_ledger keys ledger mem empty fits
  | extend f m now =>
    exact modifyFetch_ledger ledger f.id (fun _ => rfl) (fun _ => by simp [Fetch.append])
      fun _ => rfl
  | reject f data now mem =>
    have kept : Keys (w.pool.modifyFetch f.id (Fetch.append data now)) :=
      keys.modifyFetch f.id fun _ => rfl
    refine resetFetch_ledger kept ?_ (mem_alter_self mem)
    exact modifyFetch_ledger ledger f.id (fun _ => rfl) (fun _ => by simp [Fetch.append])
      fun _ => rfl
  | deliver f mem full calm => exact deliver_ledger keys ledger mem full calm _
  | relink f delivering => exact relinked_ledger ledger delivering
  | settle f born delivering isAccepted =>
    have linked := relinked_ledger ledger delivering
    have unpinnedKeys : Keys (unpinned (relinked w.pool f) born) :=
      (relinked_keys keys delivering).modifyObject born (fun _ => rfl) fun _ => rfl
    refine dropFetch_ledger unpinnedKeys ?_ (.head _)
    exact alterObject_ledger linked born (fun _ => rfl) fun _ => rfl

/-! ## Counts -/

structure Counts (p : Pool) : Prop where
  objects : p.objectCount = p.objects.length
  fetches : p.pendingCount = p.fetches.length

section

variable (counts : Counts p)
include counts

lemma Counts.of_lists (objects : p'.objects.length = p.objects.length)
    (fetches : p'.fetches.length = p.fetches.length) (objectCount : p'.objectCount = p.objectCount)
    (pendingCount : p'.pendingCount = p.pendingCount) : Counts p' :=
  ⟨by rw [objectCount, objects, counts.objects], by rw [pendingCount, fetches, counts.fetches]⟩

lemma modifyFetch_counts (id : Id) (change : Fetch → Fetch) :
    Counts (p.modifyFetch id change) := by
  refine counts.of_lists rfl ?_ rfl rfl
  rw [Pool.fetches, Pool.fetches, List.length_append, List.length_append, Pool.modifyFetch,
    length_alter]

lemma modifyObject_counts (born : Nat) (change : Object → Object) :
    Counts (p.modifyObject born change) :=
  counts.of_lists length_alter rfl rfl rfl

lemma dropPayload_counts (o : Object) : Counts (dropPayload p o) := by
  rw [dropPayload]
  split
  · exact counts
  apply modifyObject_counts
  exact { counts with }

lemma unbuffer_counts (f : Fetch) : Counts (unbuffer p f) := by
  rw [unbuffer]
  split
  · exact { counts with }
  exact counts

end

lemma dropFetch_counts (keys : Keys p) (counts : Counts p)
    (mem : f ∈ p.pending) : Counts (dropFetch p f) := by
  have unbuffered := unbuffer_counts counts f
  have inPending : f ∈ (unbuffer p f).pending := unbuffer_pending p f ▸ mem
  have shorter := length_erase (unbuffer_keys keys f).pending inPending
  have total := unbuffered.fetches
  refine ⟨unbuffered.objects, ?_⟩
  rw [Pool.fetches, List.length_append] at total ⊢
  show (unbuffer p f).pendingCount - 1 =
    (unbuffer p f).delivering.toList.length + (erase Fetch.id f.id (unbuffer p f).pending).length
  omega

lemma resetFetch_counts (counts : Counts p) (f : Fetch) : Counts (resetFetch p f) :=
  modifyFetch_counts (unbuffer_counts counts f) f.id Fetch.reset

lemma dropIfUnsupplied_counts (keys : Keys p) (counts : Counts p) (id : Id) :
    Counts (dropIfUnsupplied p id) := by
  rw [dropIfUnsupplied]
  split
  · exact counts
  rename_i f found
  split
  · exact dropFetch_counts keys counts (mem_of_lookup found)
  exact counts

lemma addFetch_counts (counts : Counts p) (f : Fetch) :
    Counts { p with pending := p.pending ++ [f], pendingCount := p.pendingCount + 1 } := by
  refine ⟨counts.objects, ?_⟩
  have total := counts.fetches
  rw [Pool.fetches, List.length_append] at total ⊢
  show p.pendingCount + 1 = p.delivering.toList.length + (p.pending ++ [f]).length
  rw [List.length_append, List.length_singleton]
  omega

lemma relinked_counts (counts : Counts p) (delivering : p.delivering = some f) :
    Counts (relinked p f) := by
  refine counts.of_lists rfl ?_ rfl rfl
  rw [Pool.fetches, Pool.fetches, delivering]
  rfl

lemma PoolMove.counts (move : PoolMove env call p p') (keys : Keys p) (counts : Counts p) :
    Counts p' := by
  cases move with
  | consult | tick | report | burnRequest => exact { counts with }
  | dropBody o => exact dropPayload_counts counts o
  | remove o mem =>
    have shorter := length_erase keys.borns mem
    have total := counts.objects
    refine ⟨?_, counts.fetches⟩
    show p.objectCount - 1 = (erase Object.born o.born p.objects).length
    omega
  | lapse o | lower o => exact modifyObject_counts counts o.born _
  | retire o =>
    apply modifyObject_counts
    exact { dropPayload_counts counts o with }
  | enlist o => exact ⟨congrArg (· + 1) counts.objects, counts.fetches⟩
  | adopt f o bytes delivering =>
    refine ⟨congrArg (· + 1) counts.objects, counts.fetches.trans ?_⟩
    rw [Pool.fetches, Pool.fetches, delivering]
    rfl
  | drop f mem => exact dropFetch_counts keys counts mem
  | reset f => exact resetFetch_counts counts f
  | trim id keep =>
    have kept : Keys (p.modifyFetch id fun f => f.keepSuppliers (keep f)) :=
      keys.modifyFetch id fun _ => rfl
    exact dropIfUnsupplied_counts kept (modifyFetch_counts counts id _) id
  | hint | orphan => exact addFetch_counts counts _
  | supply f | extend f => exact modifyFetch_counts counts f.id _
  | renew id owner now => exact modifyFetch_counts counts id _
  | claim s f now =>
    apply modifyFetch_counts
    exact { counts with }
  | buffer f total => exact { modifyFetch_counts counts f.id _ with }
  | reject f data now => exact resetFetch_counts (modifyFetch_counts counts f.id _) _
  | deliver f mem _ calm =>
    have shorter := length_erase keys.pending mem
    have total := counts.fetches
    refine ⟨counts.objects, ?_⟩
    rw [Pool.fetches, calm] at total
    show p.pendingCount = (f :: erase Fetch.id f.id p.pending).length
    simp only [Option.toList_none, List.nil_append] at total
    rw [List.length_cons]
    omega
  | relink f delivering => exact relinked_counts counts delivering
  | settle f born delivering =>
    have unpinnedKeys : Keys (unpinned (relinked p f) born) :=
      (relinked_keys keys delivering).modifyObject born (fun _ => rfl) fun _ => rfl
    exact dropFetch_counts unpinnedKeys
      (modifyObject_counts (relinked_counts counts delivering) born _) (.head _)

/-! ## The books of a pool -/

/-- The counters of a pool and its sessions agree with its lists. A fetch that is
being delivered counts with the pending ones, and the object that adopts its
bytes has one more reference. -/
structure Accounted (w : World) : Prop where
  payload : w.pool.payloadBytes =
    (w.pool.objects.map Object.size).sum +
      ((w.pool.fetches.filter fun f => f.data.isSome).map Fetch.total).sum
  types : ∀ type, w.pool.typePayload type =
    ((w.pool.objects.filter fun o => o.id.type = type).map Object.size).sum +
      ((w.pool.fetches.filter fun f => f.id.type = type ∧ f.data.isSome).map Fetch.total).sum
  bytes : w.pool.payloadBytes ≤ w.pool.config.bytes
  quotas : ∀ type, w.pool.typePayload type ≤ w.pool.config.category type
  objects : w.pool.objectCount = w.pool.objects.length
  fetches : w.pool.pendingCount = w.pool.fetches.length
  refs : ∀ o ∈ w.pool.objects, o.refs = served w o.born + pins w.pool o.born
  serving : w.pool.serving = (w.sessions.map fun s => s.out.length).sum
  sessions : ∀ s ∈ w.sessions, s.serving = s.out.length

lemma sum_map_ite {Item : Type} (accept : Item → Bool) (weight : Item → Nat) (items : List Item) :
    (items.map fun item => if accept item then weight item else 0).sum =
      ((items.filter accept).map weight).sum := by
  induction items with
  | nil => rfl
  | cons item rest ih =>
    rw [List.map_cons, List.sum_cons, ih]
    by_cases accepted : accept item = true
    · rw [List.filter_cons_of_pos accepted, if_pos accepted, List.map_cons, List.sum_cons]
    rw [List.filter_cons_of_neg accepted, if_neg accepted, Nat.zero_add]

lemma accounted_of (references : References w) (ledger : Ledger w.pool)
    (counts : Counts w.pool) : Accounted w where
  payload := by
    have balanced := ledger.balance none
    rw [Pool.costs, show Fetch.cost none = fun f => if f.data.isSome then f.total else 0 by
      funext f; simp [Fetch.cost, covers], sum_map_ite] at balanced
    exact balanced
  types type := by
    have balanced := ledger.balance (some type)
    rw [Pool.costs,
      show Fetch.cost (some type) = fun f =>
        if decide (f.id.type = type ∧ f.data.isSome) then f.total else 0 by
          funext f; simp [Fetch.cost, covers_some],
      show Object.cost (some type) = fun o => if decide (o.id.type = type) then o.size else 0 by
          funext o; simp [Object.cost, covers_some],
      sum_map_ite, sum_map_ite] at balanced
    exact balanced
  bytes := ledger.quota none
  quotas type := ledger.quota (some type)
  objects := counts.objects
  fetches := counts.fetches
  refs := references.refs
  serving := by
    rw [references.serving, World.transfers, List.length_flatMap]
  sessions := references.sessions

/-- Everything the accounts rest on. -/
structure Books (w : World) : Prop where
  references : References w
  ledger : Ledger w.pool
  counts : Counts w.pool

lemma Move.books (move : Move env call w w') (keys : Keys w.pool) (owners : Owners w)
    (books : Books w) : Books w' := by
  have references := move.references keys owners books.references
  have ledger := books.ledger
  have counts := books.counts
  cases move with
  | pool move => exact ⟨references, move.ledger keys books.references ledger, move.counts keys counts⟩
  | openSession | sendChunk | announce =>
    exact ⟨references, ledger.of_lists rfl rfl rfl rfl rfl rfl, { counts with }⟩
  | leave s => exact ⟨references, ledger, counts⟩
  | startTransfer s o m body now =>
    have altered : Ledger (w.pool.modifyObject o.born fun o => { o with refs := o.refs + 1 }) :=
      alterObject_ledger ledger o.born (fun _ => rfl) fun _ => rfl
    exact ⟨references, altered.of_lists rfl rfl rfl rfl rfl rfl,
      { modifyObject_counts counts o.born _ with }⟩
  | sendLast _ t | endTransfer _ t =>
    have altered : Ledger (unpinned w.pool t.object) :=
      alterObject_ledger ledger t.object (fun _ => rfl) fun _ => rfl
    exact ⟨references, altered.of_lists rfl rfl rfl rfl rfl rfl,
      { modifyObject_counts counts t.object _ with }⟩

lemma books_init (config : Config) : Books { pool := { config := config } } where
  references := ⟨by simp, by simp [World.transfers], by simp, by simp, rfl, by simp⟩
  ledger := by
    refine ⟨?_, ?_, by simp⟩
    · intro account
      cases account <;> rfl
    intro account
    cases account <;> exact Nat.zero_le _
  counts := ⟨rfl, rfl⟩

lemma Reachable.books (reachable : Reachable env config w) : Books w :=
  reachable.induct Books (books_init config) fun _ _ _ keys owners move =>
    move.books keys owners

/-- The pools a completion callback works on: the one it starts with, and one
after each of its offers. -/
def callbackPools (env : Env) (body : List UInt8) : Completion → Pool → List Pool
  | .finish _, p => [p]
  | .offer type bytes shared expires now next, p =>
    match offer env p type (bytes.read body) bytes.isLent shared expires now with
    | (result, p') => p :: callbackPools env body (next result) p'

lemma callbackPools_moves {body : List UInt8} {callback : Completion}
    (listed : q ∈ callbackPools env body callback p) : PoolMoves env call p q := by
  induction callback generalizing p with
  | finish result =>
    rw [callbackPools, List.mem_singleton] at listed
    exact listed ▸ .refl
  | offer type bytes shared expires now next ih =>
    obtain rfl | later := List.mem_cons.mp listed
    · exact .refl
    exact (offer_moves _ _ _ _ _ _ _).trans (ih _ later)

/-- The books are right after every call, whatever the callbacks answer and
whichever allocations fail. They are right already at each move within a call,
and after each offer that a completion callback makes. -/
theorem pool_accounting (reachable : Reachable env config w) :
    Accounted w ∧ w.pool.fetches = w.pool.pending ∧ (∀ born, pins w.pool born = 0) ∧
      ∀ call w', Moves env call w w' → Accounted w' ∧
        ∀ f ∈ w'.pool.pending, f.full = true → w'.pool.delivering = none →
          ∀ body callback, body = f.data.getD [] →
            ∀ q ∈ callbackPools env body callback (beginDelivery w'.pool f body),
              Accounted { w' with pool := q } := by
  have ready := reachable.ready
  have books := reachable.books
  have within : ∀ {call w'}, Moves env call w w' → Accounted w' := by
    intro call w' moves
    have books' : Books w' := Moves.induct Books (fun w w' keys owners move => move.books keys owners)
      moves ready.keys ready.owners books
    exact accounted_of books'.references books'.ledger books'.counts
  refine ⟨within (.refl : Moves env (.reclaim 0) w w), ?_, pins_of_calm ready.calm, ?_⟩
  · rw [Pool.fetches, ready.calm]
    rfl
  intro call w' moves
  refine ⟨within moves, ?_⟩
  intro f member full calm body callback same q listed
  have begun : PoolMoves env call w'.pool (beginDelivery w'.pool f body) :=
    PoolMoves.one (same ▸ .deliver f member full calm)
  exact within (moves.trans (Moves.of_pool (begun.trans (callbackPools_moves listed))))

/-- An object of three bytes is booked on the pool and on its type. -/
theorem pool_accounting_offer :
    let w := run generous { pool := { config := small } } [.offer 1 [1, 2, 3] 1000 0]
    w.pool.payloadBytes = 3 ∧ w.pool.typePayload 1 = 3 ∧ Accounted w :=
  ⟨by decide, by decide, (pool_accounting (reachable_small _)).1⟩

end WendyLite.Gossip
