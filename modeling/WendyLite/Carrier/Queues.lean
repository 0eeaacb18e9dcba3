import WendyLite.Carrier.Assembly

/-! # The send queue of a carrier

`carrier.c`, from `enqueue` to `wnc_enqueue_packet`. The chain of frames is a list whose
last frame is the tail. The three class queues, used in fair mode only, hold the
addresses of their frames.
-/

namespace WendyLite.Carrier

open Function

/-- `WNC_ROUTE`, `WNC_METADATA` and `WNC_IP`. -/
inductive Class where
  | route
  | metadata
  | ip
  deriving Repr, DecidableEq

def classes : List Class := [.route, .metadata, .ip]

/-- `struct wnc_frame`, with its address. -/
structure Frame where
  id : Nat
  size : Nat
  offset : Nat := 0
  started : Int := 0
  progress : Int := 0
  begun : Bool := false
  priority : Bool
  category : Class
  data : List UInt8

inductive Refusal where
  | invalid
  | limit
  | nomem
  deriving Repr, DecidableEq

/-- The half of `struct wnc_carrier` that sends. Addresses are handed out in ascending
order; `allocated` counts them. -/
structure Sender where
  writable : Bool
  frames : List Frame := []
  queue : Class → List Nat := fun _ => []
  classBytes : Class → Nat := fun _ => 0
  classFrames : Class → Nat := fun _ => 0
  routingLimit : Nat := 0
  fair : Bool := false
  operatorRouter : Bool := false
  limit : Nat
  controlLimit : Nat
  priorityReserve : Nat := 0
  queued : Nat := 0
  allocated : Nat := 0

def classReserve : Nat := 1536

-- `overhead` is `sizeof(struct wnc_frame)`.
variable (overhead : Nat) (f : Frame)

/-- The place of a priority frame: behind a frame that is being sent and behind the
priority frames before it. -/
def insertPriority : List Frame → List Frame
  | [] => [f]
  | head :: rest =>
    if head.begun then head :: rest.takeWhile (·.priority) ++ f :: rest.dropWhile (·.priority)
    else (head :: rest).takeWhile (·.priority) ++ f :: (head :: rest).dropWhile (·.priority)

variable (c : Sender)

def Sender.reserve (category : Class) : Nat :=
  ((classes.filter (· ≠ category)).map fun k => classReserve - c.classBytes k).sum

/-- The bytes of a frame: kind, length, and the inner length of a control frame. -/
def Sender.frameBytes (data : List UInt8) (control : Bool) : List UInt8 :=
  (if c.operatorRouter then (if control then 5 else 4) else (if control then 1 else 2)) ::
    beBytes 4 (data.length + if control then 4 else 0) ++
    (if control then beBytes 4 data.length else []) ++ data

def Frame.cost : Nat := overhead + f.size

/-- The new frame joins the chain, and in fair mode its class. -/
def Sender.link (c : Sender) (f : Frame) : Sender :=
  if c.fair then
    { c with
      frames := c.frames ++ [f]
      queue := update c.queue f.category (c.queue f.category ++ [f.id])
      classBytes := update c.classBytes f.category
        (c.classBytes f.category + f.cost overhead)
      classFrames := update c.classFrames f.category (c.classFrames f.category + 1) }
  else if f.priority then { c with frames := insertPriority f c.frames }
  else { c with frames := c.frames ++ [f] }

def Sender.bound (category : Class) (control priority : Bool) :
    Except Refusal Nat :=
  if c.fair then
    if category = .route ∧ c.routingLimit ≤ c.classFrames .route then .error .limit
    else if c.limit < c.reserve category then .error .invalid
    else .ok (c.limit - c.reserve category)
  else if control = false ∧ priority = false then
    if c.limit < c.priorityReserve then .error .invalid
    else .ok (c.limit - c.priorityReserve)
  else .ok c.limit

def Sender.enqueue (memory : Bool) (data : List UInt8) (control priority : Bool) :
    Except Refusal Sender :=
  if c.writable = false ∨ data = [] ∨
      (if control then c.controlLimit else datagramMax) < data.length then .error .invalid
  else do
    let size := (if control then 9 else 5) + data.length
    let category : Class := if control then .metadata else if priority then .route else .ip
    let bound ← c.bound category control priority
    if bound < c.queued ∨ bound - c.queued < overhead + size then .error .limit
    else if memory = false then .error .nomem
    else
      let f : Frame :=
        { id := c.allocated, size := size, priority := priority, category := category
          data := c.frameBytes data control }
      let c := { c with allocated := c.allocated + 1 }.link overhead f
      .ok { c with queued := c.queued + f.cost overhead }

def Sender.classDrop (c : Sender) (f : Frame) : Sender :=
  if c.fair then
    { c with
      classBytes := update c.classBytes f.category
        (c.classBytes f.category - f.cost overhead)
      classFrames := update c.classFrames f.category (c.classFrames f.category - 1) }
  else c

/-- The loop of `wnc_enqueue_packet` from an offset on. -/
def Sender.enqueueFragments (memory : Nat → Bool) (packet : List UInt8) (id : UInt32)
    (offset : Nat) (c : Sender) : Option Refusal × Sender :=
  if offset < packet.length then
    match wnFragment packet id offset with
    | none => (some .invalid, c)
    | some fragment =>
      match c.enqueue overhead (memory offset) fragment false false with
      | .error refusal => (some refusal, c)
      | .ok c => enqueueFragments memory packet id (offset + span) c
  else (none, c)
termination_by packet.length - offset
decreasing_by
  simp only [span]
  omega

/-- The end of `wnc_enqueue_packet` after a refusal: everything behind the remembered
tails goes. -/
def Sender.rollback (c before : Sender) : Sender :=
  let behind := c.frames.drop before.frames.length
  let c := if c.fair then
      { c with
        queue := update c.queue .ip ((c.queue .ip).take (before.queue .ip).length) }
    else c
  let c := behind.foldl (fun c f => c.classDrop overhead f)
    { c with frames := c.frames.take before.frames.length }
  { c with queued := before.queued }

/-- `wnc_enqueue_packet`. -/
def Sender.enqueuePacket (memory : Nat → Bool) (packet : List UInt8)
    (id : UInt32) : Option Refusal × Sender :=
  if packet.length < 40 ∨ mtu < packet.length then (some .invalid, c)
  else
    match c.enqueueFragments overhead memory packet id 0 with
    | (none, after) => (none, after)
    | (some refusal, after) => (some refusal, after.rollback overhead c)

/-! ## Frames that were added -/

variable (added : List Frame)

def Sender.extended (allocated : Nat) : Sender :=
  { c with
    frames := c.frames ++ added
    queue := if c.fair then update c.queue .ip (c.queue .ip ++ added.map (·.id))
      else c.queue
    classBytes := if c.fair then
        update c.classBytes .ip (c.classBytes .ip + (added.map (·.cost overhead)).sum)
      else c.classBytes
    classFrames := if c.fair then
        update c.classFrames .ip (c.classFrames .ip + added.length)
      else c.classFrames
    queued := c.queued + (added.map (·.cost overhead)).sum
    allocated := allocated }

variable {overhead}

lemma Sender.extended_nil : c.extended overhead [] c.allocated = c := by
  simp [Sender.extended]

lemma Sender.extended_extended (first second : List Frame) (n m : Nat) :
    (c.extended overhead first n).extended overhead second m =
      c.extended overhead (first ++ second) m := by
  cases c with
  | mk writable frames queue classBytes classFrames routingLimit fair =>
    cases fair <;> simp [Sender.extended, Nat.add_assoc]

lemma Sender.enqueue_datagram {c after : Sender} {memory : Bool} {data : List UInt8}
    (queued : c.enqueue overhead memory data false false = .ok after) :
    ∃ f : Frame, f.category = .ip ∧ f.data.drop 5 = data ∧
      after = c.extended overhead [f] after.allocated := by
  rw [Sender.enqueue] at queued
  simp only [Bool.false_eq_true, if_false] at queued
  split at queued
  · cases queued
  cases bound : c.bound .ip false false with
  | error refusal =>
    rw [bound] at queued
    cases queued
  | ok most =>
    rw [bound] at queued
    change (if _ then _ else _) = _ at queued
    split at queued
    · cases queued
    split at queued
    · cases queued
    obtain rfl := Except.ok.inj queued
    refine ⟨{ id := c.allocated, size := 5 + data.length, priority := false, category := .ip
              data := c.frameBytes data false }, rfl, ?_, ?_⟩
    · simp [Sender.frameBytes, beBytes]
    cases fair : c.fair <;> simp [Sender.link, Sender.extended, fair]

lemma Sender.foldl_classDrop (ordinary : ∀ f ∈ added, f.category = .ip) (c : Sender) :
    added.foldl (fun c f => c.classDrop overhead f) c = if c.fair then { c with
          classBytes := update c.classBytes .ip
            (c.classBytes .ip - (added.map (·.cost overhead)).sum)
          classFrames := update c.classFrames .ip (c.classFrames .ip - added.length) }
      else c := by
  induction added generalizing c with
  | nil => simp
  | cons f rest ih =>
    have category := ordinary f (.head _)
    rw [List.foldl_cons, ih fun g mem => ordinary g (.tail _ mem)]
    cases fair : c.fair
    · simp [Sender.classDrop, fair]
    simp [Sender.classDrop, fair, category, Nat.sub_sub, Nat.add_comm]

lemma Sender.rollback_extended (allocated : Nat) (ordinary : ∀ f ∈ added, f.category = .ip) :
    (c.extended overhead added allocated).rollback overhead c =
      { c with allocated := allocated } := by
  have behind : (c.extended overhead added allocated).frames.drop c.frames.length = added :=
    List.drop_left
  rw [Sender.rollback, behind, Sender.foldl_classDrop added ordinary]
  cases fair : c.fair
  all_goals simp [Sender.extended, fair]

/-! ## The loop -/

def fragmentOffsets (size offset : Nat) : List Nat :=
  if offset < size then offset :: fragmentOffsets size (offset + span) else []
termination_by size - offset
decreasing_by
  simp only [span]
  omega

/-- The loop adds a fragment for each offset, up to the one that is refused. -/
lemma Sender.enqueueFragments_extends (memory : Nat → Bool) (packet : List UInt8)
    (id : UInt32) (offset : Nat) (c : Sender) :
    ∃ added : List Frame, (∀ f ∈ added, f.category = .ip) ∧
      (c.enqueueFragments overhead memory packet id offset).2 = c.extended overhead added
        (c.enqueueFragments overhead memory packet id offset).2.allocated ∧
      ((c.enqueueFragments overhead memory packet id offset).1 = none →
        added.map (fun f => some (f.data.drop 5)) =
          (fragmentOffsets packet.length offset).map (wnFragment packet id)) := by
  -- Along the loop; a refused fragment ends it with nothing added for its offset.
  fun_induction Sender.enqueueFragments overhead memory packet id offset c with
  | case1 _ c | case2 _ c =>
    exact ⟨[], by simp, (Sender.extended_nil c).symm, fun success => by cases success⟩
  | case3 offset c more fragment some_ next queued ih =>
    obtain ⟨f, category, data, extended⟩ := Sender.enqueue_datagram queued
    obtain ⟨added, ordinary, extends_, all⟩ := ih
    refine ⟨f :: added, ?_, ?_, fun success => ?_⟩
    · intro g mem
      obtain rfl | mem := List.mem_cons.mp mem
      · exact category
      exact ordinary g mem
    · rw [extends_]
      nth_rewrite 1 [extended]
      rw [Sender.extended_extended]
      rfl
    rw [fragmentOffsets, if_pos more, List.map_cons, List.map_cons, data, some_, all success]
  | case4 offset c done =>
    refine ⟨[], by simp, (Sender.extended_nil c).symm, fun _ => ?_⟩
    rw [fragmentOffsets, if_neg done]
    rfl

/-! ## Packets from end to end -/

def packetOffsets (packet : List UInt8) : List Nat :=
  if packet.length ≤ span then [0] else [0, span]

variable {packet : List UInt8}

lemma fragmentOffsets_packet (short : 40 ≤ packet.length)
    (long : packet.length ≤ mtu) : fragmentOffsets packet.length 0 = packetOffsets packet := by
  simp only [mtu] at long
  rw [fragmentOffsets, if_pos (by omega), fragmentOffsets, packetOffsets]
  by_cases one : packet.length ≤ span
  · rw [if_pos one, if_neg (by simpa using one)]
  rw [if_neg one, if_pos (by simpa using one), fragmentOffsets, if_neg, Nat.zero_add]
  simp only [span] at *
  omega

lemma isPacket_length (valid : isPacket packet = true) :
    40 ≤ packet.length ∧ packet.length ≤ mtu := by
  simp only [isPacket, Bool.and_eq_true, decide_eq_true_eq] at valid
  exact valid.1.1

/-- A packet is queued with all its fragments or not at all. -/
lemma Sender.enqueuePacket_atomic (c : Sender) (memory : Nat → Bool)
    (id : UInt32) (valid : isPacket packet = true) :
    let result := c.enqueuePacket overhead memory packet id
    (result.1 = none ∧ ∃ added : List Frame, (∀ f ∈ added, f.category = .ip) ∧
      added.map (fun f => some (f.data.drop 5)) =
        (packetOffsets packet).map (wnFragment packet id) ∧
      result.2 = c.extended overhead added result.2.allocated) ∨
    (result.1 ≠ none ∧ result.2 = { c with allocated := result.2.allocated }) := by
  intro result
  simp only [result]
  obtain ⟨short, long⟩ := isPacket_length valid
  obtain ⟨added, ordinary, extends_, all⟩ := Sender.enqueueFragments_extends memory packet id 0 c
  rw [Sender.enqueuePacket, if_neg (by omega)]
  rcases result : c.enqueueFragments overhead memory packet id 0 with ⟨refusal, after⟩
  rw [result] at extends_ all
  cases refusal with
  | none =>
    refine .inl ⟨rfl, added, ordinary, ?_, extends_⟩
    rw [← fragmentOffsets_packet short long]
    exact all rfl
  | some refusal =>
    have undone : (c.extended overhead added after.allocated).rollback overhead c =
        { c with allocated := after.allocated } := c.rollback_extended added _ ordinary
    rw [← extends_] at undone
    refine .inr ⟨Option.some_ne_none _, ?_⟩
    dsimp only
    rw [undone]

lemma wnAssemble_unknown (s : Assembler) {p : List UInt8} (now : Int)
    (kind : p.getD 0 0 ≠ 1) : (wnAssemble s p now).2 = s := by
  rw [wnAssemble, if_pos kind]
  split <;> rfl

def barePacket : List UInt8 := 0x60 :: List.replicate 39 0

def bareDatagram : List UInt8 := [1, 0, 0, 0, 7, 0, 40, 0, 0] ++ barePacket

section Arrival

open List

variable {s : Assembler} {p : List UInt8} {id : UInt32} {offset : Nat} {now : Int}

lemma wnFragment_piece (made : wnFragment packet id offset = some p) :
    Piece p id.toNat packet.length offset ∧ p ≠ [] ∧ p.length ≤ datagramMax := by
  obtain ⟨sameId, total, sameOffset, _⟩ := wnFragment_some made
  rw [wnFragment] at made
  split at made
  · cases made
  rename_i accepted
  simp only [not_or, Bool.not_eq_false, not_and, not_not, not_le] at accepted
  obtain ⟨short, long⟩ := isPacket_length accepted.1
  obtain rfl := Option.some.inj made
  refine ⟨⟨rfl, ?_, sameId, total, sameOffset⟩, by simp, ?_⟩
  · have offsets : offset = 0 ∨ offset = span := or_iff_not_imp_left.mpr accepted.2.1
    simp only [fragmentOk, total, sameOffset, Bool.and_eq_true, Bool.or_eq_true, decide_eq_true_eq,
      beq_iff_eq]
    refine ⟨⟨⟨⟨⟨?_, short⟩, long⟩, offsets⟩, accepted.2.2⟩, ?_⟩
    all_goals
      simp only [length_append, length_cons, length_beBytes, length_take, length_drop, span]
      omega
  simp only [length_append, length_cons, length_beBytes, length_take, length_drop, span,
    datagramMax]
  omega

lemma header_of_take {bytes : List UInt8} (same : bytes.take packet.length = packet)
    (valid : isPacket packet = true) : (bytes.getD 0 0).toNat / 16 = 6 ∧
      beNat ((bytes.drop 4).take 2) = packet.length - 40 := by
  simp only [isPacket, Bool.and_eq_true, decide_eq_true_eq, beq_iff_eq] at valid
  obtain ⟨⟨⟨short, _⟩, version⟩, length⟩ := valid
  have first : packet.getD 0 0 = bytes.getD 0 0 := by
    conv_lhs => rw [← same]
    simp [getD_eq_getElem?_getD, show 0 < packet.length by omega]
  have word : (packet.drop 4).take 2 = (bytes.drop 4).take 2 := by
    conv_lhs => rw [← same]
    rw [drop_take, take_take, min_eq_left (by omega)]
  rw [first] at version
  rw [word] at length
  exact ⟨version, length⟩

lemma wnAssemble_taken (made : wnFragment packet id offset = some p) (s' : Assembler)
    (current : s.current p now = s') (total : s'.total = packet.length)
    (parts : s'.parts &&& fragmentPart p = 0) : wnAssemble s p now =
      if (s'.take p).received ≠ packet.length then (0, s'.take p)
      else (if ((s'.take p).packet.val.getD 0 0).toNat / 16 = 6 ∧
          beNat (((s'.take p).packet.val.drop 4).take 2) = packet.length - 40
        then (packet.length : Int) else -1, { s'.take p with parts := 0 }) := by
  obtain ⟨piece, nonempty, short⟩ := wnFragment_piece made
  rw [wnAssemble, if_neg (by simp [nonempty, short]), if_neg (by simpa using piece.kind),
    if_neg (by simp [piece.ok])]
  dsimp only
  rw [current, piece.total, if_neg (by simp [total, parts])]

/-- The packet that was sent is returned. -/
lemma wnAssemble_returns (made : wnFragment packet id offset = some p) (s' : Assembler)
    (current : s.current p now = s') (total : s'.total = packet.length)
    (parts : s'.parts &&& fragmentPart p = 0) (received : (s'.take p).received = packet.length)
    (bytes : (s'.take p).packet.val.take packet.length = packet)
    (valid : isPacket packet = true) : (wnAssemble s p now).1 = packet.length ∧
      (wnAssemble s p now).2.packet.val.take packet.length = packet := by
  rw [wnAssemble_taken made s' current total parts, if_neg (not_not.mpr received),
    if_pos (header_of_take bytes valid)]
  exact ⟨rfl, bytes⟩

lemma bytes_of_assembled (packet : List UInt8) (id : UInt32)
    (assembled : Assembled feed p now bytes) (fragments : ∀ input ∈ feed ++ [(p, now)],
      ∃ offset, wnFragment packet id offset = some input.1) : bytes = packet := by
  have made : ∀ input ∈ feed ++ [(p, now)], input.1.getD 0 0 = 1 → ∃ sent ∈ [(id, packet)],
      ∃ offset, wnFragment sent.2 sent.1 offset = some input.1 :=
    fun input mem _ => ⟨_, .head _, fragments input mem⟩
  rcases assembled.sent (by simp) made with ⟨_, mem, rfl⟩
  rw [mem_singleton.mp mem]

lemma wnFragment_made (valid : isPacket packet = true) (id : UInt32)
    (offsets : offset = 0 ∨ offset = span) (inside : offset < packet.length) :
    ∃ p, wnFragment packet id offset = some p := by
  refine ⟨_, if_neg ?_⟩
  simp only [valid, not_or, not_le]
  exact ⟨by simp, by omega, inside⟩

section Fresh

variable (made : wnFragment packet id offset = some p)
  (fresh : s.parts = 0 ∨ s.deadline ≤ now ∨ s.id ≠ id.toNat)

include made fresh

lemma current_of_fresh : s.current p now =
    { id := id.toNat, total := packet.length, deadline := now + 2000000 } := by
  have piece := (wnFragment_piece made).1
  rw [Assembler.current, piece.id, piece.total, if_pos fresh]

/-- The other fragment of the packet ends it. -/
lemma second_fragment_returns (valid : isPacket packet = true)
    (made' : wnFragment packet id offset' = some q) (different : offset ≠ offset')
    (soon : later < now + 2000000) : let last := wnAssemble (wnAssemble s p now).2 q later
    (wnAssemble s p now).1 = 0 ∧ last.1 = packet.length ∧
      last.2.packet.val.take packet.length = packet := by
  have piece := (wnFragment_piece made).1
  have piece' := (wnFragment_piece made').1
  obtain ⟨_, _, offsets, inside, length⟩ := piece.facts
  obtain ⟨_, _, offsets', inside', _⟩ := piece'.facts
  have unfinished : (Assembler.take
      { id := id.toNat, total := packet.length, deadline := now + 2000000 } p).received ≠
        packet.length := by
    simp only [Assembler.take, Nat.zero_add, length, span] at *
    omega
  have half := wnAssemble_taken made _ (current_of_fresh made fresh) rfl (Nat.zero_and _)
  rw [if_pos unfinished] at half
  -- The two fragments are different parts, so the second one is not refused.
  have other : fragmentPart p &&& fragmentPart q = 0 ∧ fragmentPart q ≠ fragmentPart p := by
    rw [piece.part, piece'.part]
    rcases offsets with rfl | rfl <;> rcases offsets' with rfl | rfl
    all_goals first | exact absurd rfl different | decide
  rcases (restarted_step [] now piece).1 unfinished with
    idle | ⟨_, mem, _, earlier, _, parts, received, deadline, kept⟩
  · rcases fragmentPart_cases p with part | part
    all_goals simp [Assembler.take, part] at idle
  cases mem_singleton.mp mem
  obtain ⟨complete, bytes, assembled, _, same⟩ :=
    continued_step (mem_singleton_self (p, now)) earlier piece' received deadline soon kept other.2
  have sent := bytes_of_assembled packet id assembled
    (by simpa using ⟨⟨offset, made⟩, offset', made'⟩)
  rw [half]
  refine ⟨rfl, wnAssemble_returns made' _ ?_ rfl (parts ▸ other.1) complete (same.trans sent)
    valid⟩
  rw [Assembler.current, if_neg]
  rw [parts, piece'.id]
  rcases fragmentPart_cases p with part | part <;> simpa [part, Assembler.take] using soon

end Fresh

/-- A packet whose id is not that of the packet in the assembler is returned with its last
fragment, in whichever order its fragments come, if they come within two seconds. -/
theorem fragments_make_packet (valid : isPacket packet = true) (id : UInt32) (now : Int)
    (fresh : s.parts = 0 ∨ s.deadline ≤ now ∨ s.id ≠ id.toNat) :
    (packet.length ≤ span → ∃ p, wnFragment packet id 0 = some p ∧
      (wnAssemble s p now).1 = packet.length ∧
      (wnAssemble s p now).2.packet.val.take packet.length = packet) ∧
    (span < packet.length → ∀ first second, [first, second].Perm [0, span] → ∃ p q,
      wnFragment packet id first = some p ∧ wnFragment packet id second = some q ∧
      ∀ later, later < now + 2000000 →
        let last := wnAssemble (wnAssemble s p now).2 q later
        (wnAssemble s p now).1 = 0 ∧ last.1 = packet.length ∧
          last.2.packet.val.take packet.length = packet) := by
  have short := (isPacket_length valid).1
  refine ⟨fun fits => ?_, fun long first second order => ?_⟩
  · obtain ⟨p, made⟩ := wnFragment_made valid id (.inl rfl) (by omega)
    have piece := (wnFragment_piece made).1
    have taken : (fragmentBytes p).length = packet.length := by
      rw [piece.facts.2.2.2.2]
      omega
    have step := (restarted_step [] now piece).2 (by simpa [Assembler.take] using taken)
    have same := bytes_of_assembled packet id step.1 (by simpa using ⟨0, made⟩)
    refine ⟨p, made, wnAssemble_returns made _ (current_of_fresh made fresh) rfl
      (Nat.zero_and _) ?_ (step.2.2.trans same) valid⟩
    simpa [Assembler.take] using taken
  have offsets : first = 0 ∨ first = span := by simpa using order.mem_iff.mp (.head _)
  have offsets' : second = 0 ∨ second = span := by
    simpa using order.mem_iff.mp (.tail _ (.head _))
  have different : first ≠ second := by simpa [span] using order.nodup_iff.mpr (by simp [span])
  obtain ⟨p, made⟩ := wnFragment_made valid id offsets (by omega)
  obtain ⟨q, made'⟩ := wnFragment_made valid id offsets' (by omega)
  exact ⟨p, q, made, made', fun _ => second_fragment_returns made fresh valid made' different⟩

/-- The packet without a body, in one fragment. -/
theorem fragments_make_packet_bare : ∃ p, wnFragment barePacket 7 0 = some p ∧
    (wnAssemble {} p 0).1 = barePacket.length := by
  have valid : isPacket barePacket = true := by decide +kernel
  rcases (fragments_make_packet (s := {}) valid 7 0 (.inl rfl)).1 (by decide) with
    ⟨p, made, length, _⟩
  exact ⟨p, made, length⟩

end Arrival

end WendyLite.Carrier
