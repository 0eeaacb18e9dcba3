import WendyLite.Babel.ReceiveSound

/-! # Timers and the bracket of an event keep an engine sound -/

namespace WendyLite.Babel

open SlotTable

variable {env : Env} {provenance : Provenance} {e e' : Engine}

/-! ## What timers leave alone -/

def Candidate.announcement (candidate : Candidate) : Candidate :=
  { candidate with refreshRequested := false }

def LinkState.neighbour (link : LinkState) : LinkState :=
  { link with
    nextHello := 0, nextIhu := 0, nextUpdate := 0, lastDump := 0, helloSeq := 0
    dumped := false }

/-- Timers change the output, the schedule of links, and which refreshes have
been asked for. -/
structure TimersOnly (e e' : Engine) : Prop where
  config : e'.config = e.config
  now : e'.now = e.now
  seqno : e'.seqno = e.seqno
  lastLink : e'.lastLink = e.lastLink
  stopped : e'.stopped = e.stopped
  locals : e'.locals = e.locals
  drops : e'.drops = e.drops
  routes : e'.routes = e.routes
  before : e'.before = e.before
  links : e'.links.map LinkState.neighbour = e.links.map LinkState.neighbour
  candidates : e'.candidates.map Candidate.announcement = e.candidates.map Candidate.announcement

namespace TimersOnly

variable {e'' : Engine}

lemma of_outputOnly (same : OutputOnly e e') : TimersOnly e e' :=
  { same with
    links := by rw [same.links]
    candidates := by rw [same.candidates] }

lemma trans (first : TimersOnly e e') (second : TimersOnly e' e'') : TimersOnly e e'' where
  config := second.config.trans first.config
  now := second.now.trans first.now
  seqno := second.seqno.trans first.seqno
  lastLink := second.lastLink.trans first.lastLink
  stopped := second.stopped.trans first.stopped
  locals := second.locals.trans first.locals
  drops := second.drops.trans first.drops
  routes := second.routes.trans first.routes
  before := second.before.trans first.before
  links := second.links.trans first.links
  candidates := second.candidates.trans first.candidates

end TimersOnly

structure Ticks (env : Env) (provenance : Provenance) (e e' : Engine) : Prop where
  keeps : Keeps env provenance e e'
  only : TimersOnly e e'

namespace Ticks

variable {e'' : Engine}

lemma of_output (keeps : Keeps env provenance e e') (same : OutputOnly e e') :
    Ticks env provenance e e' :=
  ⟨keeps, TimersOnly.of_outputOnly same⟩

lemma refl (sound : Sound env provenance e) : Ticks env provenance e e :=
  of_output (Keeps.refl sound) (OutputOnly.refl e)

lemma trans (first : Ticks env provenance e e') (second : Ticks env provenance e' e'') :
    Ticks env provenance e e'' :=
  ⟨first.keeps.trans second.keeps, first.only.trans second.only⟩

lemma foldl {Item : Type} (body : Engine → Item → Engine) (items : List Item)
    (sound : Sound env provenance e)
    (step : ∀ state item, item ∈ items → Ticks env provenance e state →
      Ticks env provenance state (body state item)) : Ticks env provenance e (items.foldl body e) :=
  List.foldlRecOn items body (refl sound) fun state ticked item mem =>
    ticked.trans (step state item mem ticked)

end Ticks

/-- Writing an entry that looks the same leaves the table looking the same. -/
lemma map_set_of_eq {view : Slot → View} {table : List Slot} {index : Nat} {old slot : Slot}
    (located : table[index]? = some old) (same : view slot = view old) :
    (table.set index slot).map view = table.map view := by
  obtain ⟨left, right, split, _, written⟩ := set_eq_append located slot
  rw [written, split]
  simp [same]

lemma LinkState.config_of_neighbour {link old : LinkState}
    (same : link.neighbour = old.neighbour) : link.config = old.config :=
  show link.neighbour.config = old.neighbour.config from congrArg _ same

lemma setLink_ticks (sound : Sound env provenance e) {slot : Nat} {old link : LinkState}
    (located : e.links[slot]? = some old) (same : link.neighbour = old.neighbour) :
    Ticks env provenance e (setLink e slot link) :=
  ⟨setLink_keeps sound located (LinkState.config_of_neighbour same),
    ⟨rfl, rfl, rfl, rfl, rfl, rfl, rfl, rfl, rfl, map_set_of_eq located same, rfl⟩⟩

/-! ## The timers of a link -/

lemma helloMs_bounds (config : ConfigOk e.config) (ok : LinkOk lastLink link) :
    100 ≤ (helloMs e link).toNat ∧ (helloMs e link).toNat ≤ 327670 := by
  have literals : (100 : UInt32).toNat = 100 ∧ (327670 : UInt32).toNat = 327670 := ⟨rfl, rfl⟩
  have lower := UInt32.le_iff_toNat_le.mp config.helloMin
  have upper := UInt32.le_iff_toNat_le.mp config.helloMax
  rw [helloMs]
  split
  next own =>
    obtain zero | ⟨ownLower, ownUpper⟩ := ok.hello
    · exact absurd zero own
    have ownLower := UInt32.le_iff_toNat_le.mp ownLower
    have ownUpper := UInt32.le_iff_toNat_le.mp ownUpper
    omega
  omega

/-- The interval of an IHU, twice the Hello interval, fits its field. -/
lemma ihuInterval_ne_zero (config : ConfigOk e.config) (ok : LinkOk lastLink link) :
    (helloMs e link * 2 / 10).toUInt16 ≠ 0 := by
  have bounds := helloMs_bounds config ok
  intro zero
  have value := congrArg UInt16.toNat zero
  rw [UInt32.toNat_toUInt16, UInt32.toNat_div, UInt32.toNat_mul] at value
  have literals : (2 : UInt32).toNat = 2 ∧ (10 : UInt32).toNat = 10 ∧ (0 : UInt16).toNat = 0 :=
    ⟨rfl, rfl, rfl⟩
  rw [literals.1, literals.2.1, literals.2.2] at value
  omega

section LinkTimers

variable {slot : Nat} {link : LinkState}

lemma reschedule_ticks (located : e.links[slot]? = some link)
    (keeps : Keeps env provenance e e') (same : OutputOnly e e') (spread : UInt64)
    (link' : LinkState) (neighbour : link'.neighbour = link.neighbour) :
    Ticks env provenance e (setLink (jitter e' spread).2 slot link') ∧
      (setLink (jitter e' spread).2 slot link').links[slot]? = some link' := by
  have jittered : Ticks env provenance e (jitter e' spread).2 :=
    Ticks.of_output (keeps.trans (jitter_keeps keeps.sound spread))
      (same.trans (jitter_outputOnly e' spread))
  have located' : (jitter e' spread).2.links[slot]? = some link := by
    rw [(same.trans (jitter_outputOnly e' spread)).links]
    exact located
  exact ⟨jittered.trans (setLink_ticks jittered.keeps.sound located' neighbour),
    located_set located' link'⟩

/-- A link timer ticks, and its slot holds the link state it returns, which has
the neighbour it had. -/
structure LinkTimed (env : Env) (provenance : Provenance) (slot : Nat) (e : Engine)
    (link : LinkState) (outcome : Engine × LinkState) : Prop where
  ticks : Ticks env provenance e outcome.1
  located : outcome.1.links[slot]? = some outcome.2
  neighbour : outcome.2.neighbour = link.neighbour

section

variable (sound : Sound env provenance e)
include sound

section

variable (located : e.links[slot]? = some link)
include located

lemma helloTimer_ticks (used : link.used = true) :
    LinkTimed env provenance slot e link (helloTimer env e slot link) := by
  have nonzero : link.config.id ≠ 0 := by simpa [LinkState.used] using used
  simp only [helloTimer]
  split
  · have queued := queue_plain_keeps sound nonzero
      (Sendable.hello link.helloSeq (helloMs e link / 10).toUInt16) (by simp [Message.announces])
    have timed := reschedule_ticks located queued (queue_outputOnly ..)
      (helloMs e link / 8).toUInt64
    refine ⟨(timed _ ?_).1, (timed _ ?_).2, ?_⟩ <;> rfl
  exact ⟨Ticks.refl sound, located, rfl⟩

lemma ihuTimer_ticks (used : link.used = true) :
    LinkTimed env provenance slot e link (ihuTimer env e slot link) := by
  have nonzero : link.config.id ≠ 0 := by simpa [LinkState.used] using used
  have ok := sound.links.each link (List.mem_of_getElem? located) used
  simp only [ihuTimer]
  split
  · have queued := fun metric => queue_plain_keeps sound nonzero
      (Sendable.ihu metric _ (ihuInterval_ne_zero sound.config ok)) (by simp [Message.announces])
    have timed := fun metric => reschedule_ticks located (queued metric) (queue_outputOnly ..)
      (helloMs e link / 8).toUInt64
    refine ⟨(timed _ _ ?_).1, (timed _ _ ?_).2, ?_⟩ <;> rfl
  exact ⟨Ticks.refl sound, located, rfl⟩

lemma updateTimer_ticks (used : link.used = true) :
    Ticks env provenance e (updateTimer env e slot link) := by
  have nonzero : link.config.id ≠ 0 := by simpa [LinkState.used] using used
  simp only [updateTimer]
  split
  · refine (reschedule_ticks located (dump_keeps sound nonzero false) (dump_outputOnly ..) _ _
      ?_).1
    rfl
  exact Ticks.refl sound

end

lemma linkTimers_ticks (slot : Nat) : Ticks env provenance e (linkTimers env e slot) := by
  rw [linkTimers]
  split
  · exact Ticks.refl sound
  rename_i link located
  split
  · exact Ticks.refl sound
  rename_i used
  simp only [Bool.not_eq_true', Bool.not_eq_false] at used
  have hello := helloTimer_ticks sound located used
  have stillUsed : ∀ {link' : LinkState}, link'.neighbour = link.neighbour →
      link'.used = true := fun same => by
    rw [LinkState.used, LinkState.config_of_neighbour same]
    exact used
  generalize helloTimer env e slot link = first at hello ⊢
  obtain ⟨e1, link1⟩ := first
  have ihu := ihuTimer_ticks hello.ticks.keeps.sound hello.located
    (stillUsed hello.neighbour)
  simp only at ihu ⊢
  generalize ihuTimer env e1 slot link1 = second at ihu ⊢
  exact hello.ticks.trans (ihu.ticks.trans (updateTimer_ticks ihu.ticks.keeps.sound
    ihu.located (stillUsed (ihu.neighbour.trans hello.neighbour))))

end

end LinkTimers

/-! ## The other timers -/

lemma triggerTimer_ticks (sound : Sound env provenance e) :
    Ticks env provenance e (triggerTimer env e) := by
  simp only [triggerTimer]
  split
  · have dumped : Ticks env provenance e (e.links.foldl
        (fun e link => if link.used then dump env e link.config.id false else e) e) := by
      refine Ticks.foldl _ _ sound fun state link mem ticked => ?_
      split
      next used =>
        have nonzero : link.config.id ≠ 0 := by simpa [LinkState.used] using used
        exact Ticks.of_output (dump_keeps ticked.keeps.sound nonzero false) (dump_outputOnly ..)
      exact Ticks.refl ticked.keeps.sound
    generalize e.links.foldl
      (fun e link => if link.used then dump env e link.config.id false else e) e = e1 at dumped ⊢
    have sound1 := dumped.keeps.sound
    split
    · exact dumped.trans (Ticks.of_output
        ⟨{ sound1 with }, .of_same rfl⟩
        (by constructor <;> rfl))
    exact dumped.trans (Ticks.of_output
      ⟨{ sound1 with }, .of_same rfl⟩
      (by constructor <;> rfl))
  exact Ticks.refl sound

lemma queue_requests (env : Env) (e : Engine) (id : UInt64) (m : Message)
    (basis : Option (Route × Source)) : (queue env e id m basis).requests = e.requests := by
  rw [queue]
  split
  · rfl
  split
  · rfl
  split <;> rfl

lemma requestTimer_ticks (sound : Sound env provenance e) (slot : Nat) :
    Ticks env provenance e (requestTimer env e slot) := by
  rw [requestTimer]
  split
  · exact Ticks.refl sound
  rename_i q located
  split
  next due =>
    have ok := sound.requests.each q (List.mem_of_getElem? located) due.1
    have sent : Ticks env provenance e
        (q.targets.foldl (fun e target => queue env e target q.message) e) :=
      Ticks.foldl _ _ sound fun state target mem ticked =>
        Ticks.of_output
          (queue_plain_keeps ticked.keeps.sound (ok.targets target mem) ok.sendable
            (by simp [Message.announces, ok.type]))
          (queue_outputOnly ..)
    have same : (q.targets.foldl (fun e target => queue env e target q.message) e).requests =
        e.requests :=
      List.foldlRecOn (motive := fun state : Engine => state.requests = e.requests) q.targets _
        rfl fun state same target _ => (queue_requests ..).trans same
    rw [← same] at located
    simp only
    generalize q.targets.foldl (fun e target => queue env e target q.message) e = e1
      at sent located ⊢
    have sound1 := sent.keeps.sound
    refine sent.trans (Ticks.of_output ⟨{ sound1 with requests := ?_ },
      .of_same rfl⟩
      (by constructor <;> rfl))
    exact sound1.requests.set_same located fun used =>
      ⟨used, rfl, fun ok => ⟨ok.sendable, ok.type, ok.targets⟩⟩
  exact Ticks.refl sound

lemma refreshTimer_ticks (sound : Sound env provenance e) (slot : Nat) :
    Ticks env provenance e (refreshTimer env e slot) := by
  rw [refreshTimer]
  split
  · exact Ticks.refl sound
  rename_i candidate located
  split
  · exact Ticks.refl sound
  rename_i used
  simp only [Bool.not_eq_true', Bool.not_eq_false] at used
  split
  · exact Ticks.refl sound
  split
  · have ok := sound.candidates.each candidate (List.mem_of_getElem? located) used
    have valid := Prefix.valid_of_routable ok.routable
    have queued := queue_plain_keeps sound ok.link
      (Sendable.request candidate.route.pfx valid) (by simp [Message.announces])
    have same := queue_outputOnly env e candidate.route.link
      { type := .request, pfx := candidate.route.pfx } none
    rw [← same.candidates] at located
    have sound1 := queued.sound
    refine (Ticks.of_output queued same).trans ⟨⟨{ sound1 with candidates := ?_ },
      .of_same rfl⟩,
      ⟨rfl, rfl, rfl, rfl, rfl, rfl, rfl, rfl, rfl, rfl, ?_⟩⟩
    · exact sound1.candidates.set_same located fun used =>
        ⟨used, rfl, fun ok =>
          ⟨ok.routable, ok.routerOk, ok.foreign, ok.link, ok.plain, ok.heard⟩⟩
    exact map_set_of_eq located rfl
  exact Ticks.refl sound

lemma timers_ticks (sound : Sound env provenance e) : Ticks env provenance e (timers env e) := by
  simp only [timers]
  have links := Ticks.foldl (linkTimers env) (List.range e.links.length) sound
    fun state slot _ ticked => linkTimers_ticks ticked.keeps.sound slot
  have triggered := links.trans (triggerTimer_ticks links.keeps.sound)
  have asked := fun slots => triggered.trans (Ticks.foldl (requestTimer env) slots
    triggered.keeps.sound fun state slot _ ticked => requestTimer_ticks ticked.keeps.sound slot)
  exact (asked _).trans (Ticks.foldl (refreshTimer env) _ (asked _).keeps.sound
    fun state slot _ ticked => refreshTimer_ticks ticked.keeps.sound slot)

/-! ## The beginning of an event -/

variable {now : UInt64}

lemma expireCandidate_spec (used : (expireCandidate now candidate).used = true) :
    candidate.used = true ∧ (expireCandidate now candidate).route = candidate.route ∧
      ((expireCandidate now candidate).advertised = candidate.advertised ∨
        (expireCandidate now candidate).advertised = infinity) := by
  rw [expireCandidate] at used ⊢
  split at used
  next alive =>
    rw [if_pos alive]
    exact ⟨used, rfl, .inl rfl⟩
  rename_i dying
  rw [if_neg dying]
  split at used
  · cases used
  rename_i finite
  rw [if_neg finite]
  exact ⟨used, rfl, .inr rfl⟩

lemma expireSource_used (used : (expireSource now source).used = true) :
    expireSource now source = source ∧ source.used = true ∧ now < source.expires := by
  rw [expireSource] at used ⊢
  split at used
  · cases used
  rename_i alive
  rw [if_neg alive]
  simp only [Bool.and_eq_true, decide_eq_true_eq, not_and, UInt64.not_le] at alive
  exact ⟨rfl, used, alive used⟩

lemma expireSource_of_lt (later : now < source.expires) :
    expireSource now source = source := by
  rw [expireSource, if_neg]
  simp only [Bool.and_eq_true, decide_eq_true_eq, not_and, UInt64.not_le]
  exact fun _ => later

/-- The clock moves on; what has expired by then is retired. -/
lemma expire_sound (sound : Sound env provenance e) (later : e.now ≤ now)
    (bounded : now ≤ lastTime) (empty : e.messages = []) :
    Sound env provenance (expire { e with now := now }) := by
  have order := UInt64.le_iff_toNat_le.mp later
  refine { sound with
    clock := bounded, candidates := ?_, sources := ?_, drops := ?_, requests := ?_
    routes := ?_, messages := ?_ }
  · apply sound.candidates.map
    intro candidate used
    obtain ⟨was, route, advertised⟩ := expireCandidate_spec used
    refine ⟨was, by rw [route], fun ok => ?_⟩
    refine ⟨route ▸ ok.routable, route ▸ ok.routerOk, route ▸ ok.foreign, route ▸ ok.link,
      route ▸ ok.plain, ?_⟩
    intro finite
    obtain same | infinite := advertised
    · rw [Candidate.distance, route, same]
      exact ok.heard (same ▸ finite)
    exact absurd infinite finite
  · apply sound.sources.map
    intro source used
    obtain ⟨same, was, _⟩ := expireSource_used used
    simp only
    rw [same]
    refine ⟨was, rfl, fun ok => { ok with expires := ?_ }⟩
    have bound := ok.expires
    simp only [sourceHorizon, expire] at bound ⊢
    omega
  · refine sound.drops.imp fun drop _ ok => { ok with expires := ?_ }
    have bound := ok.expires
    simp only [dropHorizon, expire] at bound ⊢
    omega
  · apply sound.requests.map
    intro q used
    simp only [expireRequest] at used ⊢
    split at used
    · cases used
    rename_i alive
    rw [if_neg alive]
    exact ⟨used, rfl, id⟩
  · refine sound.routes.imp fun route _ ok => { ok with learned := ?_ }
    intro reachable foreign
    obtain ⟨router, link, advertised, below, heard, better⟩ := ok.learned reachable foreign
    refine ⟨router, link, advertised, below, heard, ?_⟩
    intro source mem used
    obtain ⟨was, wasMember, rfl⟩ := List.mem_map.mp mem
    obtain ⟨same, wasUsed, _⟩ := expireSource_used used
    rw [same]
    exact better was wasMember wasUsed
  simp [expire, empty]

/-- An accepted event starts with an empty queue, at its time, remembering the
table that the forwarding plane has. -/
structure Begun (e e' : Engine) (now : UInt64) : Prop where
  running : e.stopped = false
  later : e.now ≤ now
  bounded : now ≤ lastTime
  result : ∃ heap beforeCapacity, e' = expire
    { e with
      heap := heap, beforeCapacity := beforeCapacity, before := e.routes, messages := []
      messagesCapacity := 0, messageCursor := 0, ready := false, now := now } ∧
    e.heap.requests ≤ heap.requests

lemma begin_ok (accepted : begin env e now = (.ok, e')) : Begun e e' now ∧ e.pending = 0 := by
  have asked := requests_le_reserve env e.heap env.limits.routes e.beforeCapacity
    e.routes.length
  rw [begin] at accepted
  split at accepted
  · cases accepted
  rename_i running
  split at accepted
  · cases accepted
  rename_i idle
  split at accepted
  · cases accepted
  rename_i timely
  split at accepted
  · cases accepted
  rename_i capacity heap reserved
  rw [reserved] at asked
  cases accepted
  simp only [not_or, UInt64.not_lt, not_not] at timely idle
  exact ⟨⟨by simpa using running, timely.1, timely.2, heap, capacity, rfl, asked⟩, idle.1⟩

/-- A refused event changes nothing but the accounting of the allocator. -/
lemma begin_refused (refused : begin env e now = (status, e')) (notOk : status ≠ .ok) :
    ∃ heap, e' = { e with heap := heap } ∧ e.heap.requests ≤ heap.requests := by
  have asked := requests_le_reserve env e.heap env.limits.routes e.beforeCapacity
    e.routes.length
  rw [begin] at refused
  split at refused
  · cases refused
    exact ⟨e.heap, rfl, le_rfl⟩
  split at refused
  · cases refused
    exact ⟨e.heap, rfl, le_rfl⟩
  split at refused
  · cases refused
    exact ⟨e.heap, rfl, le_rfl⟩
  split at refused
  next heap none =>
    rw [none] at asked
    cases refused
    exact ⟨heap, rfl, asked⟩
  cases refused
  exact absurd rfl notOk

lemma Begun.sound (begun : Begun e e' now) (sound : Sound env provenance e) :
    Sound env provenance e' := by
  obtain ⟨heap, capacity, rfl, _⟩ := begun.result
  have cleared : Sound env provenance
      { e with
        heap := heap, beforeCapacity := capacity, before := e.routes, messages := []
        messagesCapacity := 0, messageCursor := 0, ready := false } :=
    { sound with messages := by simp, cursor := le_rfl }
  exact expire_sound cleared begun.later begun.bounded rfl

/-! ## The end of an event -/

structure Compacted (live : Slot → Bool) (empty : Slot) (table table' : List Slot) : Prop where
  same : table'.filter live = table.filter live
  shorter : table'.length ≤ table.length
  member : ∀ slot ∈ table', (slot ∈ table ∧ live slot = true) ∨ slot = empty

lemma collectTable_compacted {live : Slot → Bool} {empty : Slot} (env : Env) (heap : Heap)
    (dead : live empty = false) (table : List Slot) :
    Compacted live empty table (collectTable env heap live empty table).1 :=
  ⟨filter_collectTable env heap dead table, length_collectTable_le env heap table,
    fun _ => mem_collectTable env heap⟩

lemma Compacted.proper {ok : Slot → Prop} (compacted : Compacted live empty table table')
    (proper : Proper live key maximum ok table) :
    Proper live key maximum ok table' :=
  proper.of_filter_eq compacted.same (compacted.shorter.trans proper.length_le)

/-- `wb_collect` compacts the tables and changes nothing else that matters. -/
structure Collected (e e' : Engine) : Prop where
  links : Compacted LinkState.used {} e.links e'.links
  candidates : Compacted Candidate.used {} e.candidates e'.candidates
  sources : Compacted Source.used {} e.sources e'.sources
  locals : Compacted LocalPrefix.used {} e.locals e'.locals
  drops : Compacted Drop.used {} e.drops e'.drops
  requests : Compacted RequestState.used {} e.requests e'.requests
  heap : e.heap.requests ≤ e'.heap.requests
  others : ∃ heap routesCapacity beforeCapacity scratchCapacity, e' =
    { e with
      links := e'.links, candidates := e'.candidates, sources := e'.sources
      locals := e'.locals, drops := e'.drops, requests := e'.requests, heap := heap
      routesCapacity := routesCapacity, beforeCapacity := beforeCapacity
      scratchCapacity := scratchCapacity }

lemma wbCollect_collected (env : Env) (e : Engine) : Collected e (wbCollect env e) where
  links := collectTable_compacted _ _ rfl _
  candidates := collectTable_compacted _ _ rfl _
  sources := collectTable_compacted _ _ rfl _
  locals := collectTable_compacted _ _ rfl _
  drops := collectTable_compacted _ _ rfl _
  requests := collectTable_compacted _ _ rfl _
  heap := by
    simp only [wbCollect]
    refine Nat.le_trans ?_ (requests_le_collectCapacity ..)
    refine Nat.le_trans ?_ (requests_le_collectCapacity ..)
    refine Nat.le_trans ?_ (requests_le_collectCapacity ..)
    refine Nat.le_trans ?_ (requests_le_collectTable ..)
    refine Nat.le_trans ?_ (requests_le_collectTable ..)
    refine Nat.le_trans ?_ (requests_le_collectTable ..)
    refine Nat.le_trans ?_ (requests_le_collectTable ..)
    exact Nat.le_trans (requests_le_collectTable ..) (requests_le_collectTable ..)
  others := ⟨_, _, _, _, rfl⟩

lemma SourcesEvolve.of_compacted {known : Prefix → UInt64 → UInt16 → Prop}
    (compacted : Compacted Source.used {} sources sources') :
    SourcesEvolve known sources sources' := fun source mem used =>
  ⟨source, (mem_live_of_filter_eq compacted.same used).mpr mem, Renewed.refl used⟩

lemma wbCollect_sound (sound : Sound env provenance e) :
    Sound env provenance (wbCollect env e) := by
  have collected := wbCollect_collected env e
  refine { sound with
    links := collected.links.proper sound.links
    candidates := collected.candidates.proper sound.candidates
    sources := collected.sources.proper sound.sources
    locals := collected.locals.proper sound.locals
    drops := collected.drops.proper sound.drops
    requests := collected.requests.proper sound.requests
    freeLinks := ?_, routes := ?_, messages := ?_ }
  · intro link mem free
    obtain ⟨_, used⟩ | rfl := collected.links.member link mem
    · rw [used] at free
      cases free
    rfl
  · refine sound.routes.imp fun route _ ok => { ok with learned := ?_ }
    intro reachable foreign
    obtain ⟨router, link, advertised, below, heard, better⟩ := ok.learned reachable foreign
    refine ⟨router, link, advertised, below, heard, fun source mem used => ?_⟩
    exact better source ((mem_live_of_filter_eq collected.sources.same used).mp mem) used
  intro queued mem
  refine (sound.messages queued mem).mono ?_ (SourcesEvolve.of_compacted collected.sources)
  intro link inTable nonzero
  have used : link.used = true := by simpa [LinkState.used] using nonzero
  exact ⟨link, (mem_live_of_filter_eq collected.links.same used).mpr inTable, rfl⟩

/-- The part of `finish` after the selection. -/
lemma finish_of_selected (sound : Sound env provenance (selectRoutes env e)) :
    Sound env provenance (finish env e).2 ∧
      SourcesEvolve (provenance.records (selectRoutes env e).config.router)
        (selectRoutes env e).sources (finish env e).2.sources ∧
      (finish env e).2.now = (selectRoutes env e).now ∧
      (finish env e).2.config = (selectRoutes env e).config ∧
      (selectRoutes env e).heap.requests ≤ (finish env e).2.heap.requests := by
  have timed := (timers_ticks sound).keeps
  simp only [finish]
  generalize timers env (selectRoutes env e) = e1 at timed ⊢
  have sound1 := timed.sound
  split
  · exact ⟨{ sound1 with }, timed.evolves.sources, timed.evolves.now, timed.evolves.config,
      timed.evolves.heap⟩
  have cleared : Sound env provenance { e1 with before := [] } := { sound1 with }
  have collected := wbCollect_collected env { e1 with before := [] }
  have sound2 := wbCollect_sound cleared
  have evolved := timed.evolves.sources.trans (SourcesEvolve.of_compacted collected.sources)
  split
  · exact ⟨{ sound2 with }, evolved, timed.evolves.now, timed.evolves.config,
      timed.evolves.heap.trans collected.heap⟩
  exact ⟨{ sound2 with }, evolved, timed.evolves.now, timed.evolves.config,
    timed.evolves.heap.trans collected.heap⟩

lemma finish_sound (sound : Sound env provenance e) : Sound env provenance (finish env e).2 ∧
      SourcesEvolve (provenance.records e.config.router) e.sources (finish env e).2.sources ∧
      (finish env e).2.now = e.now ∧ (finish env e).2.config = e.config ∧
      e.heap.requests ≤ (finish env e).2.heap.requests := by
  have selected : Keeps env provenance e (selectRoutes env e) := selectRoutes_keeps sound
  obtain ⟨finished, sources, now, config, heap⟩ := finish_of_selected selected.sound
  rw [selected.evolves.config] at sources
  exact ⟨finished, selected.evolves.sources.trans sources, now.trans selected.evolves.now,
    config.trans selected.evolves.config, selected.evolves.heap.trans heap⟩

end WendyLite.Babel
