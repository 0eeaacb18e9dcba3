import Mathlib.Data.List.Nodup

/-! # The TLS input workspace

`wendy_pki_tls_input.c` keeps at most one block of memory for the next handshake. A step is
one section under its lock. A block that `pki_tls_input_recycle` does not keep is freed by its
caller, `pki_tls_input_return` or Mbed TLS, right after it.
-/

namespace WendyLite.Pki.TlsInput

open List

def reserve : Nat := 26624

inductive Placement where
  | internal
  | external
  | rtc
deriving DecidableEq

structure Scope where
  owner : Option Nat
  placement : Placement
deriving DecidableEq

/-- `born` is a ghost that numbers the blocks: an address is used again after a free. -/
structure Block where
  born : Nat
  address : Nat
  scope : Scope
deriving DecidableEq

/-- The last four are ghosts: the blocks of the takers, those that were freed, the number of
all, and those that were lent at some deactivation. -/
structure Workspace where
  enabled : Bool := false
  cached : Option Block := none
  loan : Option Block := none
  loanCacheable : Bool := false
  cacheScope : Scope := ⟨none, .internal⟩
  lent : List Block := []
  freed : List Block := []
  births : Nat := 0
  barred : List Block := []

/-- `scope` is that of the calling task, `address` the answer of `mbedtls_calloc`. -/
inductive Event where
  | active (active : Bool) (scope : Scope) (address : Option Nat)
  | borrow (scope : Scope)
  | take (size : Nat) (scope : Scope) (address : Option Nat)
  | recycle (block : Block) (size : Nat)
  | discardCached

namespace Workspace

variable (s : Workspace)

def live : List Block := s.cached.toList ++ s.lent

/-- No two live blocks have one address. -/
def calloc (scope : Scope) : Option Nat → Option Block
  | some address =>
    if address ∈ s.live.map Block.address then none else some ⟨s.births, address, scope⟩
  | none => none

def matchingScope (scope : Scope) : Bool :=
  scope.owner = s.cacheScope.owner && scope.placement = s.cacheScope.placement

def discardCached : Workspace :=
  { s with cached := none, freed := s.cached.toList ++ s.freed }

def enable (scope : Scope) : Workspace :=
  { s with enabled := true, cacheScope := if s.enabled then s.cacheScope else scope }

def refill (scope : Scope) (address : Option Nat) : Workspace :=
  if s.cached.isNone && s.loan.isNone && s.matchingScope scope then
    match s.calloc scope address with
    | some block => { s with cached := some block, births := s.births + 1 }
    | none => s
  else s

def active (scope : Scope) (address : Option Nat) : Bool → Workspace
  | true => (s.enable scope).refill scope address
  | false =>
    { s.discardCached with
      enabled := false, loanCacheable := false, barred := s.lent ++ s.barred }

def lend (block : Block) : Workspace := { s with lent := block :: s.lent }

/-- The first block of the preferred size is the loan. -/
def track (block : Block) (size : Nat) (cacheable : Bool) : Workspace :=
  if size = reserve && s.loan.isNone then
    { s with loan := some block, loanCacheable := cacheable }
  else s

def borrow (scope : Scope) : Workspace :=
  match s.cached with
  | some block =>
    if s.enabled && s.loan.isNone && s.matchingScope scope then
      { s with cached := none }.lend block |>.track block reserve true
    else s
  | none => s

def take (size : Nat) (scope : Scope) (address : Option Nat) : Workspace :=
  let matching := s.enabled && (scope.owner.isNone || s.matchingScope scope)
  match s.cached, matching && size = reserve with
  | some block, true => { s with cached := none }.lend block |>.track block size true
  | _, _ =>
    match s.calloc scope address with
    | some block =>
      { s with births := s.births + 1 }.lend block
        |>.track block size (s.enabled && s.matchingScope scope)
    | none => s

/-- Only a taker returns its block, and only once. -/
def recycle (block : Block) (size : Nat) : Workspace :=
  if block ∈ s.lent then
    let ours := s.loan.map Block.address = some block.address
    let keep := ours && s.loanCacheable && s.enabled && size = reserve && s.cached.isNone
    let s := { s with
      lent := s.lent.erase block
      loan := if ours then none else s.loan
      loanCacheable := if ours then false else s.loanCacheable }
    if keep then { s with cached := some block } else { s with freed := block :: s.freed }
  else s

def step : Event → Workspace
  | .active active scope address => s.active scope address active
  | .borrow scope => s.borrow scope
  | .take size scope address => s.take size scope address
  | .recycle block size => s.recycle block size
  | .discardCached => s.discardCached

def run (events : List Event) : Workspace := events.foldl step s

/-- Each block is in one place, and live blocks have their own addresses. -/
structure Counted : Prop where
  once : ((s.live ++ s.freed).map Block.born).Perm (range s.births)
  apart : (s.live.map Block.address).Nodup

def Fits (block : Block) : Prop :=
  s.enabled ∧ block.scope = s.cacheScope ∧ block ∉ s.barred

structure Owned : Prop extends s.Counted where
  tracked : ∀ block, s.loan = some block → block ∈ s.lent
  fits : ∀ block, s.cached = some block → s.Fits block
  cacheable : s.loanCacheable → ∀ block, s.loan = some block → s.Fits block
  old : ∀ block ∈ s.barred, block.born < s.births

variable {s} {s' : Workspace}

@[simp] lemma matchingScope_iff : s.matchingScope scope = true ↔ scope = s.cacheScope := by
  cases scope
  cases equal : s.cacheScope
  simp [matchingScope, equal]

/-- The blocks `gone` are freed, the others change their place. -/
lemma Counted.of_perm (counted : s.Counted) (gone : List Block)
    (live : s.live.Perm (gone ++ s'.live)) (freed : s'.freed = gone ++ s.freed)
    (births : s'.births = s.births) : s'.Counted := by
  refine ⟨?_, ?_⟩
  · have moved : (s'.live ++ s'.freed).Perm (s.live ++ s.freed) := by
      rw [freed, ← append_assoc]
      exact (perm_append_comm.trans live.symm).append_right _
    rw [births]
    exact (moved.map _).trans counted.once
  have apart := (live.map Block.address).nodup_iff.mp counted.apart
  rw [map_append] at apart
  exact apart.of_append_right

lemma calloc_eq (got : s.calloc scope address = some block) : block.born = s.births ∧
    block.scope = scope ∧ block.address ∉ s.live.map Block.address := by
  unfold calloc at got
  split at got
  · split at got <;> cases got
    exact ⟨rfl, rfl, ‹_›⟩
  cases got

lemma Counted.of_new (counted : s.Counted) (born : block.born = s.births)
    (fresh : block.address ∉ s.live.map Block.address)
    (live : s'.live.Perm (block :: s.live)) (freed : s'.freed = s.freed)
    (births : s'.births = s.births + 1) : s'.Counted := by
  refine ⟨?_, ?_⟩
  · rw [births, range_succ, freed]
    refine ((live.append_right _).map _).trans ?_
    rw [cons_append, map_cons, born]
    exact (counted.once.cons _).trans (perm_append_singleton _ _).symm
  rw [(live.map _).nodup_iff]
  exact nodup_cons.mpr ⟨fresh, counted.apart⟩

lemma Owned.discardCached (owned : s.Owned) : s.discardCached.Owned :=
  ⟨owned.toCounted.of_perm s.cached.toList (by simp [live, Workspace.discardCached]) rfl rfl,
    owned.tracked, nofun, owned.cacheable, owned.old⟩

lemma Owned.deactivate (owned : s.Owned) (scope : Scope) (address : Option Nat) :
    (s.active scope address false).Owned := by
  have counted := owned.discardCached.toCounted
  refine ⟨⟨counted.once, counted.apart⟩, owned.tracked, nofun, nofun, fun block mem => ?_⟩
  rcases mem_append.mp mem with lent | mem
  · have born := owned.once.mem_iff.mp (mem_map_of_mem (a := block) (by simp [live, lent]))
    exact mem_range.mp born
  exact owned.old block mem

/-- The scope is set only while nothing is cached and no loan is cacheable. -/
lemma Owned.enable (owned : s.Owned) (scope : Scope) : (s.enable scope).Owned := by
  have kept : ∀ {block}, s.Fits block → (s.enable scope).Fits block := by
    rintro block ⟨on, same, free⟩
    exact ⟨rfl, by simp [Workspace.enable, on, same], free⟩
  exact ⟨owned.toCounted.of_perm [] .rfl rfl rfl, owned.tracked,
    fun block cached => kept (owned.fits block cached),
    fun set block loan => kept (owned.cacheable set block loan), owned.old⟩

lemma Owned.fits_new (owned : s.Owned) (on : s.enabled = true) (born : block.born = s.births)
    (scope : block.scope = s.cacheScope) : s.Fits block := by
  refine ⟨on, scope, fun mem => ?_⟩
  have := owned.old block mem
  omega

lemma Owned.refill (owned : s.Owned) (on : s.enabled = true) (scope : Scope)
    (address : Option Nat) : (s.refill scope address).Owned := by
  unfold Workspace.refill
  split
  · rename_i free
    simp only [Bool.and_eq_true, matchingScope_iff, Option.isNone_iff_eq_none] at free
    split
    · rename_i block got
      rcases calloc_eq got with ⟨born, under, fresh⟩
      refine ⟨owned.toCounted.of_new born fresh (by simp [live, free.1.1]) rfl rfl,
        owned.tracked, ?_, owned.cacheable, fun b mem => Nat.lt_succ_of_lt (owned.old b mem)⟩
      rintro _ ⟨⟩
      exact owned.fits_new on born (under.trans free.2)
    exact owned
  exact owned

lemma Owned.lendCached (owned : s.Owned) (cached : s.cached = some block) :
    ({ s with cached := none }.lend block).Owned :=
  ⟨owned.toCounted.of_perm [] (.of_eq (by simp [live, lend, cached])) rfl rfl,
    fun other loan => .tail _ (owned.tracked other loan), nofun, owned.cacheable, owned.old⟩

lemma Owned.track (owned : s.Owned) (mem : block ∈ s.lent)
    (fits : kept = true → s.Fits block) : (s.track block size kept).Owned := by
  unfold Workspace.track
  split
  · refine ⟨⟨owned.once, owned.apart⟩, ?_, owned.fits, fun set => ?_, owned.old⟩
    all_goals rintro _ ⟨⟩
    exacts [mem, fits set]
  exact owned

lemma Owned.borrow (owned : s.Owned) (scope : Scope) : (s.borrow scope).Owned := by
  unfold Workspace.borrow
  split
  · rename_i block cached
    split
    · exact (owned.lendCached cached).track (.head _) fun _ => owned.fits block cached
    exact owned
  exact owned

lemma Owned.take (owned : s.Owned) (size : Nat) (scope : Scope) (address : Option Nat) :
    (s.take size scope address).Owned := by
  unfold Workspace.take
  dsimp only
  split
  · rename_i block cached _
    exact (owned.lendCached cached).track (.head _) fun _ => owned.fits block cached
  split
  · rename_i block got
    rcases calloc_eq got with ⟨born, under, fresh⟩
    have lent : ({ s with births := s.births + 1 }.lend block).Owned :=
      ⟨owned.toCounted.of_new born fresh (by simp [live, lend]) rfl rfl,
        fun other loan => .tail _ (owned.tracked other loan), owned.fits, owned.cacheable,
        fun b mem => Nat.lt_succ_of_lt (owned.old b mem)⟩
    refine lent.track (.head _) fun cacheable => ?_
    simp only [Bool.and_eq_true, matchingScope_iff] at cacheable
    exact owned.fits_new cacheable.1 born (under.trans cacheable.2)
  exact owned

/-- Takers know the loan by its address. -/
lemma Owned.eq_of_address (owned : s.Owned) (mem : block ∈ s.lent)
    (loan : s.loan = some other) (same : other.address = block.address) : other = block := by
  have inLive : ∀ b ∈ s.lent, b ∈ s.live := fun b inLent => by simp [live, inLent]
  exact inj_on_of_nodup_map owned.apart (inLive _ (owned.tracked _ loan)) (inLive _ mem) same

lemma Owned.recycle (owned : s.Owned) (block : Block) (size : Nat) :
    (s.recycle block size).Owned := by
  unfold Workspace.recycle
  split
  · rename_i mem
    dsimp only
    have out := perm_cons_erase mem
    split
    · rename_i keep
      simp only [Bool.and_eq_true, decide_eq_true_eq, Option.map_eq_some_iff,
        Option.isNone_iff_eq_none] at keep
      rcases keep with ⟨⟨⟨⟨⟨other, loan, same⟩, cacheable⟩, -⟩, -⟩, empty⟩
      rcases owned.eq_of_address mem loan same with rfl
      refine ⟨owned.toCounted.of_perm [] ?_ rfl rfl, by simp [loan], ?_, by simp [loan],
        owned.old⟩
      · simpa [live, empty] using out
      rintro _ ⟨⟩
      exact owned.cacheable cacheable _ loan
    refine ⟨owned.toCounted.of_perm [block] ?_ rfl rfl, fun other loan => ?_, owned.fits,
      fun set => ?_, owned.old⟩
    · exact (out.append_left s.cached.toList).trans perm_middle
    · split at loan
      · cases loan
      rename_i different
      refine (mem_erase_of_ne ?_).mpr (owned.tracked other loan)
      rintro rfl
      exact different (congrArg (Option.map Block.address) loan)
    split at set
    · cases set
    rename_i different
    simp only [if_neg different]
    exact owned.cacheable set
  exact owned

lemma Owned.step (owned : s.Owned) (event : Event) : (s.step event).Owned := by
  cases event with
  | active active scope address =>
    cases active with
    | true => exact (owned.enable scope).refill rfl scope address
    | false => exact owned.deactivate scope address
  | borrow scope => exact owned.borrow scope
  | take size scope address => exact owned.take size scope address
  | recycle block size => exact owned.recycle block size
  | discardCached => exact owned.discardCached

lemma Owned.run (owned : s.Owned) (events : List Event) : (s.run events).Owned := by
  induction events generalizing s with
  | nil => exact owned
  | cons event rest ih => exact ih (owned.step event)

end Workspace

end WendyLite.Pki.TlsInput
