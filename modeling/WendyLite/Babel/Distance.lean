import WendyLite.Babel.Engine

/-! # Distances

A distance is a sequence number with a metric. One is better than another when
its sequence number is newer, or equal with a smaller metric. Sequence numbers
are compared on a circle, so this relation is not transitive: a source entry
that has been improved many times may look worse than it once was.
-/

namespace WendyLite.Babel

@[ext] structure Distance where
  seqno : UInt16
  metric : UInt16
  deriving DecidableEq

def Distance.better (a b : Distance) : Bool :=
  newer a.seqno b.seqno || (a.seqno == b.seqno && a.metric < b.metric)

/-- The new distance is reached from the old one by strict improvements, with
sequence numbers that are known. -/
def Improves (known : UInt16 → Prop) : Distance → Distance → Prop :=
  Relation.ReflTransGen fun old new => known new.seqno ∧ new.better old = true

def Source.distance (source : Source) : Distance := ⟨source.seqno, source.metric⟩

def Route.distance (route : Route) : Distance := ⟨route.seqno, route.metric⟩

def Candidate.distance (candidate : Candidate) : Distance :=
  ⟨candidate.route.seqno, candidate.advertised⟩

def Message.distance (m : Message) : Distance := ⟨m.seqno, m.metric⟩

lemma Distance.better_iff (a b : Distance) : a.better b = true ↔
      newer a.seqno b.seqno = true ∨ (a.seqno = b.seqno ∧ a.metric < b.metric) := by
  simp [Distance.better]

lemma Distance.better_of_lt {a b : Distance} (seqno : a.seqno = b.seqno)
    (metric : a.metric < b.metric) : a.better b = true := by
  simp [Distance.better, seqno, metric]

lemma Improves.refl (known : UInt16 → Prop) (distance : Distance) :
    Improves known distance distance :=
  Relation.ReflTransGen.refl

lemma Improves.trans {known : UInt16 → Prop} (first : Improves known a b)
    (second : Improves known b c) : Improves known a c :=
  Relation.ReflTransGen.trans first second

/-! ## Metrics -/

lemma costAt_ne_zero (link : Option LinkState) (now : UInt64) : costAt link now ≠ 0 := by
  unfold costAt
  split
  · decide
  split
  · decide
  split
  · grind
  split
  · assumption
  decide

lemma toNat_addCost (finite : addCost a b ≠ infinity) :
    (addCost a b).toNat = a.toNat + b.toNat := by
  have aBound := a.toNat_lt
  have bBound := b.toNat_lt
  rw [addCost] at finite ⊢
  split
  next large =>
    rw [if_pos large] at finite
    exact absurd rfl finite
  rename_i small
  simp only [ge_iff_le, infinity, UInt32.le_iff_toNat_le, UInt32.toNat_add,
    UInt16.toNat_toUInt32] at small
  simp only [UInt32.toNat_toUInt16, UInt32.toNat_add, UInt16.toNat_toUInt32]
  have literal : (65535 : UInt16).toNat = 65535 := rfl
  omega

lemma addCost_infinity (cost : UInt16) : addCost infinity cost = infinity := by
  have literal : infinity.toNat = 65535 := rfl
  have bound := cost.toNat_lt
  rw [addCost, if_pos]
  rw [ge_iff_le, UInt32.le_iff_toNat_le, UInt32.toNat_add, UInt16.toNat_toUInt32,
    UInt16.toNat_toUInt32]
  omega

variable {advertised : UInt16} {e : Engine}

/-- A link always costs something, so a finite metric exceeds what was
advertised. -/
lemma lt_addCost_cost (finite : addCost advertised (cost e link) ≠ infinity) :
    advertised < addCost advertised (cost e link) := by
  have sum := toNat_addCost finite
  have positive : (cost e link).toNat ≠ 0 := by
    intro zero
    exact costAt_ne_zero link e.now (UInt16.toNat_inj.mp zero)
  rw [UInt16.lt_iff_toNat_lt]
  omega

/-! ## Feasibility and the source entry -/

variable {source : Source}

lemma better_of_feasible (feasible : feasible e candidate = true)
    (finite : candidate.advertised ≠ infinity)
    (found : sourceFor e candidate.route.pfx candidate.route.router = some source) :
    candidate.distance.better source.distance = true := by
  simp only [Babel.feasible, found, Bool.or_eq_true, beq_iff_eq, finite, false_or] at feasible
  rw [Distance.better, Bool.or_eq_true]
  exact feasible

@[simp] lemma refreshSource_pfx (e : Engine) (route : Route) (source : Source) :
    (refreshSource e route source).pfx = source.pfx := by
  simp only [refreshSource]
  split <;> rfl

@[simp] lemma refreshSource_router (e : Engine) (route : Route) (source : Source) :
    (refreshSource e route source).router = source.router := by
  simp only [refreshSource]
  split <;> rfl

@[simp] lemma refreshSource_used (e : Engine) (route : Route) (source : Source) :
    (refreshSource e route source).used = source.used := by
  simp only [refreshSource]
  split <;> rfl

@[simp] lemma refreshSource_expires (e : Engine) (route : Route) (source : Source) :
    (refreshSource e route source).expires = e.now + e.config.sourceMs.toUInt64 := rfl

lemma refreshSource_distance (e : Engine) (route : Route) (source : Source) :
    (refreshSource e route source).distance =
      if route.distance.better source.distance then route.distance else source.distance := by
  by_cases better : route.distance.better source.distance = true
  · rw [if_pos better]
    simp only [refreshSource]
    rw [if_pos (by exact better)]
    rfl
  rw [if_neg better]
  simp only [refreshSource]
  rw [if_neg (by exact better)]
  rfl

variable {route : Route}

lemma refreshSource_improves (e : Engine) {known : UInt16 → Prop}
    (advertised : known route.seqno) (source : Source) :
    Improves known source.distance (refreshSource e route source).distance := by
  rw [refreshSource_distance]
  split
  next better => exact Relation.ReflTransGen.single ⟨advertised, better⟩
  exact Improves.refl _ _

/-- An announcement below the route stays better than the refreshed entry. -/
lemma better_refreshSource (below : advertised < route.metric)
    (better : Distance.better ⟨route.seqno, advertised⟩ source.distance = true) :
    Distance.better ⟨route.seqno, advertised⟩ (refreshSource e route source).distance = true := by
  rw [refreshSource_distance]
  split
  · exact Distance.better_of_lt rfl below
  exact better

/-- After it is refreshed, the entry of a route that was learned from a better
announcement is at least as good as the route. -/
lemma refreshSource_covers
    (better : Distance.better ⟨route.seqno, advertised⟩ source.distance = true) :
    (refreshSource e route source).distance = route.distance ∨
      (refreshSource e route source).distance.better route.distance = true := by
  rw [refreshSource_distance]
  split
  · exact .inl rfl
  rename_i kept
  simp only [Distance.better_iff, Route.distance, not_or, not_and, UInt16.not_lt] at better kept
  obtain newer | ⟨seqno, _⟩ := better
  · exact absurd newer kept.1
  by_cases equal : source.distance.metric = route.metric
  · exact .inl (Distance.ext seqno.symm equal)
  exact .inr
    (Distance.better_of_lt seqno.symm (UInt16.lt_of_le_of_ne (kept.2 seqno) equal))

lemma refreshSource_fresh (e : Engine) (p : Prefix) (route : Route) : (refreshSource e route
      { used := true, pfx := p, router := route.router, seqno := route.seqno
        metric := route.metric }).distance = route.distance := by
  rw [refreshSource_distance]
  split <;> rfl

end WendyLite.Babel
