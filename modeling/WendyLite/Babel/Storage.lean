import WendyLite.Babel.Types
import WendyLite.Foundation.SlotTable

/-! # Lazy bounded tables

`storage.c`: the `TABLE_STORAGE` and `COLLECT` families, each written once for
any table. `acquire` is the search of a free slot that every insertion of the
engine makes before it falls back on growing the table.
-/

namespace WendyLite.Babel

open SlotTable List

def allocate (env : Env) (heap : Heap) : Bool × Heap :=
  if env.allocate heap.requests then (true, { heap with requests := heap.requests + 1 })
  else (false, { requests := heap.requests + 1, failures := heap.failures + 1 })

variable (env : Env)

variable (heap : Heap)

/-- `wb_reserve_*` as it acts on a capacity: the capacity afterwards, or `none`
when `count` exceeds the ceiling or the allocation fails. -/
def reserve (maximum capacity count : Nat) : Option Nat × Heap :=
  if count > maximum then (none, heap)
  else if count ≤ capacity then (some capacity, heap)
  else
    match allocate env heap with
    | (true, heap) =>
      (some (growCapacity maximum count count (if capacity = 0 then 1 else capacity)), heap)
    | (false, heap) => (none, heap)

/-- `wb_reserve_*` for a table of slots: growth appends zeroed slots. -/
def reserveTable (env : Env) (heap : Heap) (maximum count : Nat) (empty : Slot)
    (table : List Slot) : Option (List Slot) × Heap :=
  match reserve env heap maximum table.length count with
  | (none, heap) => (none, heap)
  | (some capacity, heap) => (some (grow empty capacity table), heap)

/-- A slot to write a new entry to: the first free one, else the first of a
grown table. Returns its index and the table that holds it. -/
def acquire (env : Env) (heap : Heap) (maximum : Nat) (live : Slot → Bool) (empty : Slot)
    (table : List Slot) : Option (Nat × List Slot) × Heap :=
  match table.findIdx? (fun slot => !live slot) with
  | some slot => (some (slot, table), heap)
  | none =>
    match reserveTable env heap maximum (table.length + 1) empty table with
    | (none, heap) => (none, heap)
    | (some grown, heap) => (some (table.length, grown), heap)

/-- `COLLECT`: compact a table and shrink it when half of it is unused. -/
def collectTable (env : Env) (heap : Heap) (live : Slot → Bool) (empty : Slot)
    (table : List Slot) : List Slot × Heap :=
  let count := (table.filter live).length
  if count = 0 then ([], heap)
  else if count ≤ table.length / 2 then
    match allocate env heap with
    | (true, heap) => (table.filter live, heap)
    | (false, heap) => (compact live empty table, heap)
  else (compact live empty table, heap)

/-- The shrinking of `routes`, and of the workspaces `before` and `scratch`. -/
def collectCapacity (unused : Bool) (capacity count : Nat) :
    Nat × Heap :=
  if unused then (0, heap)
  else if count ≤ capacity / 2 then
    match allocate env heap with
    | (true, heap) => (count, heap)
    | (false, heap) => (capacity, heap)
  else (capacity, heap)

def wbCollect (e : Engine) : Engine :=
  let (links, heap) := collectTable env e.heap LinkState.used {} e.links
  let (candidates, heap) := collectTable env heap Candidate.used {} e.candidates
  let (sources, heap) := collectTable env heap Source.used {} e.sources
  let (locals, heap) := collectTable env heap LocalPrefix.used {} e.locals
  let (drops, heap) := collectTable env heap Drop.used {} e.drops
  let (requests, heap) := collectTable env heap RequestState.used {} e.requests
  let count := e.routes.length
  let (routesCapacity, heap) := collectCapacity env heap (count == 0) e.routesCapacity count
  let idle := links.length == 0 || count == 0
  let (beforeCapacity, heap) := collectCapacity env heap idle e.beforeCapacity count
  let (scratchCapacity, heap) := collectCapacity env heap idle e.scratchCapacity count
  { e with
    links, candidates, sources, locals, drops, requests, routesCapacity, beforeCapacity,
    scratchCapacity, heap }

/-! ## What the allocator is asked -/

/-- Every allocation from request number `first` on succeeds. -/
def Grants (first : Nat) : Prop :=
  ∀ request, first ≤ request → env.allocate request = true

lemma Grants.mono {env : Env} {first later : Nat} (grants : Grants env first)
    (after : first ≤ later) : Grants env later :=
  fun request bound => grants request (after.trans bound)

lemma requests_le_allocate : heap.requests ≤ (allocate env heap).2.requests := by
  rw [allocate]
  split <;> simp

lemma allocate_of_grants {env : Env} {heap : Heap} (grants : Grants env heap.requests) :
    (allocate env heap).1 = true := by
  simp [allocate, grants heap.requests (le_refl _)]

lemma requests_le_reserve (maximum capacity count : Nat) :
    heap.requests ≤ (reserve env heap maximum capacity count).2.requests := by
  have asked := requests_le_allocate env heap
  rw [reserve]
  split
  · exact le_refl _
  split
  · exact le_refl _
  split <;> simp_all

lemma reserve_of_grants {env : Env} {heap : Heap} (grants : Grants env heap.requests)
    {maximum capacity count : Nat} (fits : count ≤ maximum) :
    ∃ grown, (reserve env heap maximum capacity count).1 = some grown := by
  have granted := allocate_of_grants grants
  rw [reserve, if_neg (by omega)]
  split
  · exact ⟨_, rfl⟩
  split
  · exact ⟨_, rfl⟩
  simp_all

lemma le_of_reserve {env : Env} {heap heap' : Heap} {maximum capacity count grown : Nat}
    (reserved : reserve env heap maximum capacity count = (some grown, heap')) :
    count ≤ grown ∧ count ≤ maximum ∧ (capacity ≤ maximum → grown ≤ maximum) := by
  rw [reserve] at reserved
  split at reserved
  · cases reserved
  rename_i within
  split at reserved
  next enough =>
    cases reserved
    exact ⟨enough, by omega, id⟩
  split at reserved
  · cases reserved
    refine ⟨le_growCapacity (by omega) _ _ (by split <;> omega) (by omega), by omega, ?_⟩
    intro bounded
    exact growCapacity_le _ _ (by split <;> omega)
  cases reserved

/-! ## Acquiring a slot -/

section Acquire

variable {env : Env} {heap : Heap} {maximum : Nat} {live : Slot → Bool} {empty : Slot}
  {table : List Slot}

lemma acquire_some (dead : live empty = false)
    (acquired : acquire env heap maximum live empty table = (some (index, grown), heap')) :
    (∃ old, grown[index]? = some old ∧ live old = false) ∧ grown.filter live = table.filter live ∧
      (table.length ≤ maximum → grown.length ≤ maximum) := by
  rw [acquire] at acquired
  split at acquired
  next slot found =>
    cases acquired
    have located := findIdx?_eq_some_iff_getElem.mp found
    obtain ⟨bound, free, _⟩ := located
    exact ⟨⟨table[index], getElem?_eq_getElem bound, by simpa using free⟩, rfl, id⟩
  rw [reserveTable] at acquired
  split at acquired
  · cases acquired
  rename_i more reserved
  split at reserved
  · cases reserved
  rename_i capacity heap'' reserved'
  cases reserved
  cases acquired
  have sizes := le_of_reserve reserved'
  refine ⟨⟨empty, ?_, dead⟩, filter_grow dead _ _, ?_⟩
  · rw [grow, getElem?_append_right (le_refl _), Nat.sub_self,
      getElem?_replicate, if_pos (by omega)]
  intro bounded
  have := sizes.2.2 bounded
  simp
  omega

/-- The table of an acquired slot has the slots it had, and empty ones. -/
lemma mem_acquire
    (acquired : acquire env heap maximum live empty table = (some (index, grown), heap'))
    {slot : Slot} (mem : slot ∈ grown) : slot ∈ table ∨ slot = empty := by
  rw [acquire] at acquired
  split at acquired
  · cases acquired
    exact .inl mem
  rw [reserveTable] at acquired
  split at acquired
  · cases acquired
  rename_i reserved
  split at reserved
  · cases reserved
  cases reserved
  cases acquired
  obtain before | new := mem_append.mp mem
  · exact .inl before
  exact .inr (eq_of_mem_replicate new)

/-- With memory, a table refuses a slot only when it is full of live entries. -/
lemma acquire_none (grants : Grants env heap.requests)
    (refused : (acquire env heap maximum live empty table).1 = none) :
    (∀ slot ∈ table, live slot = true) ∧ maximum ≤ table.length := by
  rw [acquire] at refused
  split at refused
  · cases refused
  rename_i full
  have allLive : ∀ slot ∈ table, live slot = true := by
    intro slot mem
    have := findIdx?_eq_none_iff.mp full slot mem
    simpa using this
  refine ⟨allLive, ?_⟩
  by_contra room
  have reservation : ∃ grown, (reserve env heap maximum table.length
      (table.length + 1)).1 = some grown := reserve_of_grants grants (by omega)
  obtain ⟨capacity, reserved⟩ := reservation
  rw [reserveTable] at refused
  generalize reserve env heap maximum table.length (table.length + 1) = outcome at *
  obtain ⟨result, heap'⟩ := outcome
  simp only at reserved
  subst reserved
  simp at refused

variable (env heap maximum live empty table) in
lemma requests_le_acquire :
    heap.requests ≤ (acquire env heap maximum live empty table).2.requests := by
  have asked := requests_le_reserve env heap maximum table.length (table.length + 1)
  rw [acquire]
  split
  · exact le_refl _
  rw [reserveTable]
  generalize reserve env heap maximum table.length (table.length + 1) = outcome at *
  obtain ⟨result, heap'⟩ := outcome
  cases result <;> exact asked

end Acquire

/-! ## Collecting -/

section Collect

variable {live : Slot → Bool} {empty : Slot}

lemma filter_collectTable (dead : live empty = false) (table : List Slot) :
    (collectTable env heap live empty table).1.filter live = table.filter live := by
  rw [collectTable]
  split
  next none => simpa using (length_eq_zero_iff.mp none).symm
  split
  · split
    · simp
    exact filter_compact dead table
  exact filter_compact dead table

lemma length_collectTable_le (table : List Slot) :
    (collectTable env heap live empty table).1.length ≤ table.length := by
  have fewer := length_filter_le live table
  rw [collectTable]
  split
  · simp
  split
  · split
    · exact fewer
    simp [compact, fewer]
  simp [compact, fewer]

lemma mem_collectTable (mem : slot ∈ (collectTable env heap live empty table).1) :
    (slot ∈ table ∧ live slot = true) ∨ slot = empty := by
  have kept : ∀ slot, slot ∈ compact live empty table →
      (slot ∈ table ∧ live slot = true) ∨ slot = empty := by
    intro slot mem
    rw [compact, grow, mem_append, mem_filter] at mem
    obtain mem | mem := mem
    · exact .inl mem
    exact .inr (eq_of_mem_replicate mem)
  rw [collectTable] at mem
  split at mem
  · simp at mem
  split at mem
  · split at mem
    · exact .inl (mem_filter.mp mem)
    exact kept slot mem
  exact kept slot mem

lemma requests_le_collectTable (table : List Slot) :
    heap.requests ≤ (collectTable env heap live empty table).2.requests := by
  have asked := requests_le_allocate env heap
  rw [collectTable]
  split
  · exact le_refl _
  split
  · split <;> simp_all
  exact le_refl _

lemma requests_le_collectCapacity (unused : Bool) (capacity count : Nat) :
    heap.requests ≤ (collectCapacity env heap unused capacity count).2.requests := by
  have asked := requests_le_allocate env heap
  rw [collectCapacity]
  split
  · exact le_refl _
  split
  · split <;> simp_all
  exact le_refl _

end Collect

end WendyLite.Babel
