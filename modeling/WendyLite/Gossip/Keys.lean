import WendyLite.Gossip.Moves

/-! # Pointers are unique

No two objects are born with one number, and no two objects or fetches share a
digest: what the model addresses by a key, the source addresses by a pointer.
-/

namespace WendyLite.Gossip

open KeyedList Relation List

variable {env : Env} {call : Call} {p p' p'' : Pool} {o : Object} {f : Fetch} {id : Id}

def Pool.fetches (p : Pool) : List Fetch := p.delivering.toList ++ p.pending

structure Keys (p : Pool) : Prop where
  borns : (p.objects.map Object.born).Nodup
  born_le : ∀ o ∈ p.objects, o.born ≤ p.nextObject
  objects : (p.objects.map Object.id).Nodup
  fetches : (p.fetches.map Fetch.id).Nodup

section

variable (keys : Keys p)
include keys

lemma Keys.pending : (p.pending.map Fetch.id).Nodup := by
  have both := keys.fetches
  rw [Pool.fetches, map_append] at both
  exact (nodup_append.mp both).2.1

lemma Keys.sole (mem : f ∈ p.pending) : ∀ g ∈ p.pending, g.id = f.id → g = f :=
  fun _ inPending same => eq_of_key_eq keys.pending inPending mem same

lemma Keys.of_eq (borns : p'.objects.map Object.born = p.objects.map Object.born)
    (ids : p'.objects.map Object.id = p.objects.map Object.id) (next : p'.nextObject = p.nextObject)
    (fetches : (p'.fetches.map Fetch.id).Sublist (p.fetches.map Fetch.id)) : Keys p' where
  borns := borns ▸ keys.borns
  born_le o mem := by
    have listed : o.born ∈ p.objects.map Object.born := borns ▸ mem_map_of_mem mem
    obtain ⟨old, inObjects, same⟩ := mem_map.mp listed
    rw [next, ← same]
    exact keys.born_le old inObjects
  objects := ids ▸ keys.objects
  fetches := fetches.nodup keys.fetches

lemma Keys.modifyObject (born : Nat) {change : Object → Object}
    (sameBorn : ∀ o, (change o).born = o.born) (sameId : ∀ o, (change o).id = o.id) :
    Keys (p.modifyObject born change) :=
  keys.of_eq (map_alter sameBorn) (map_alter sameId) rfl (List.Sublist.refl _)

lemma Keys.modifyFetch (id : Id) {change : Fetch → Fetch}
    (sameId : ∀ f, (change f).id = f.id) : Keys (p.modifyFetch id change) := by
  refine keys.of_eq rfl rfl rfl ?_
  rw [Pool.fetches, map_append, Pool.fetches, map_append]
  exact (List.Sublist.refl _).append (by rw [Pool.modifyFetch, map_alter sameId])

lemma Keys.removeFetch (id : Id) : Keys (p.removeFetch id) := by
  refine keys.of_eq rfl rfl rfl ?_
  rw [Pool.fetches, map_append, Pool.fetches, map_append]
  exact (List.Sublist.refl _).append (erase_sublist.map _)

lemma dropPayload_keys (o : Object) : Keys (dropPayload p o) := by
  rw [dropPayload]
  split
  · exact keys
  apply Keys.modifyObject
  · exact { keys with }
  all_goals exact fun _ => rfl

lemma unbuffer_keys (f : Fetch) : Keys (unbuffer p f) := by
  rw [unbuffer]
  split
  · exact { keys with }
  exact keys

lemma dropFetch_keys (f : Fetch) : Keys (dropFetch p f) := (unbuffer_keys keys f).removeFetch f.id

lemma resetFetch_keys (f : Fetch) : Keys (resetFetch p f) :=
  (unbuffer_keys keys f).modifyFetch f.id fun _ => rfl

lemma dropIfUnsupplied_keys (id : Id) : Keys (dropIfUnsupplied p id) := by
  rw [dropIfUnsupplied]
  split
  · exact keys
  split
  · exact dropFetch_keys keys _
  exact keys

end

lemma findObject_none : findObject p id = none ↔ ∀ o ∈ p.objects, o.id ≠ id := by
  simp [findObject]

lemma enlist_keys (keys : Keys p) (fresh : o.born = p.nextObject + 1)
    (absent : findObject p o.id = none) : Keys (enlist p o) where
  borns := by
    rw [enlist, map_cons, nodup_cons]
    refine ⟨?_, keys.borns⟩
    intro listed
    obtain ⟨old, mem, same⟩ := mem_map.mp listed
    have older := keys.born_le old mem
    omega
  born_le old mem := by
    show old.born ≤ o.born
    obtain rfl | inObjects := mem_cons.mp mem
    · exact le_refl _
    have older := keys.born_le old inObjects
    omega
  objects := by
    rw [enlist, map_cons, nodup_cons]
    refine ⟨?_, keys.objects⟩
    intro listed
    obtain ⟨old, mem, same⟩ := mem_map.mp listed
    exact findObject_none.mp absent old mem same
  fetches := keys.fetches

lemma Keys.addFetch (keys : Keys p) (calm : p.delivering = none) (absent : p.fetch? f.id = none)
    (count : Nat) : Keys { p with pending := p.pending ++ [f], pendingCount := count } where
  borns := keys.borns
  born_le := keys.born_le
  objects := keys.objects
  fetches := by
    show ((p.delivering.toList ++ (p.pending ++ [f])).map Fetch.id).Nodup
    rw [calm, Option.toList_none, nil_append, map_append]
    refine nodup_append.mpr ⟨keys.pending, by simp, ?_⟩
    intro key listed other isNew same
    obtain ⟨old, mem, rfl⟩ := mem_map.mp listed
    rw [map_singleton, mem_singleton] at isNew
    exact lookup_eq_none.mp absent old mem (same.trans isNew)

lemma retirePayload_keys (keys : Keys p) (o : Object) : Keys (retirePayload p o) := by
  apply Keys.modifyObject
  · exact { dropPayload_keys keys o with }
  all_goals exact fun _ => rfl

lemma PoolMove.keys (move : PoolMove env call p p') (keys : Keys p) : Keys p' := by
  cases move with
  | consult | tick | report | burnRequest => exact { keys with }
  | dropBody o => exact dropPayload_keys keys o
  | remove o =>
    exact
      { borns := nodup_erase keys.borns
        born_le := fun old mem => keys.born_le old (mem_erase.mp mem).1
        objects := nodup_erase keys.objects
        fetches := keys.fetches }
  | lapse o | lower o => exact keys.modifyObject o.born (fun _ => rfl) fun _ => rfl
  | retire o => exact retirePayload_keys keys o
  | enlist o bytes fresh absent => exact { enlist_keys keys fresh absent with }
  | adopt f o bytes delivering _ _ fresh absent =>
    refine enlist_keys (keys.of_eq rfl rfl rfl ?_) fresh absent
    rw [Pool.fetches, Pool.fetches, delivering]
    exact List.Sublist.refl _
  | drop f => exact dropFetch_keys keys f
  | reset f => exact resetFetch_keys keys f
  | trim id keep =>
    apply dropIfUnsupplied_keys
    exact keys.modifyFetch id fun _ => rfl
  | hint _ _ _ _ absent calm | orphan _ absent calm => exact keys.addFetch calm absent _
  | supply f | extend f => exact keys.modifyFetch f.id fun _ => rfl
  | renew id owner now => exact keys.modifyFetch id fun _ => rfl
  | claim s f now =>
    apply Keys.modifyFetch
    · exact { keys with }
    exact fun _ => rfl
  | buffer f total =>
    have changed : Keys (p.modifyFetch f.id fun f => { f with data := some [], total := total }) :=
      keys.modifyFetch f.id fun _ => rfl
    exact { changed with }
  | reject f data now =>
    apply resetFetch_keys
    exact keys.modifyFetch f.id fun _ => rfl
  | deliver f mem _ calm =>
    refine { keys with fetches := ?_ }
    show ((f :: erase Fetch.id f.id p.pending).map Fetch.id).Nodup
    rw [map_cons, nodup_cons]
    refine ⟨?_, nodup_erase keys.pending⟩
    intro listed
    obtain ⟨other, inPending, same⟩ := mem_map.mp listed
    exact (mem_erase.mp inPending).2 same
  | relink f delivering =>
    refine { keys with fetches := ?_ }
    have before := keys.fetches
    rw [Pool.fetches, delivering] at before
    exact before
  | settle f born delivering =>
    apply dropFetch_keys
    apply Keys.modifyObject
    · refine { keys with fetches := ?_ }
      have before := keys.fetches
      rw [Pool.fetches, delivering] at before
      exact before
    all_goals exact fun _ => rfl

lemma PoolMoves.keys (moves : PoolMoves env call p p') (keys : Keys p) : Keys p' := by
  induction moves with
  | refl => exact keys
  | tail _ move ih => exact move.keys ih

end WendyLite.Gossip
