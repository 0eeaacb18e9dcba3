import Mathlib.Data.List.Basic

/-! # Serial framing

`wendy_com_uart_read` turns the bytes of a serial port back into the frames that the
client's serial link escaped, and ends the stream at a console, echo, com or off command.
However the driver cuts the bytes and whatever buffers the caller passes, the bytes that
come out are those of the frames.
-/

namespace WendyLite.Com.Serial

open List

/-! ## Reading -/

def esc : UInt8 := 0x10

/-- The command bytes `'_'` and `'k'`. -/
def escapedCmd : UInt8 := 0x5F

def keepAliveCmd : UInt8 := 0x6B

def modeCmds : List UInt8 := [0x63, 0x65, 0x6D, 0x6F]

def rxTimeoutUs : Int := 12 * 1000 * 1000

structure Uart where
  /-- `raw_buf` from `raw_pos` to `raw_len`. -/
  raw : List UInt8 := []
  pendingEsc : Bool := false
  eofPending : Bool := false
  lastEscCmd : UInt8 := 0
  lastRxUs : Int := 0
  keepaliveSeen : Bool := false

inductive Chunk
  | bytes (head : UInt8) (rest : List UInt8)
  | closed
  | failed

inductive Result
  | returned (data : List UInt8)
  | wantRead
  | unknown
  deriving DecidableEq

inductive Item
  | data (byte : UInt8)
  | keepAlive
  | command (cmd : UInt8)
  | nothing

def accept (pendingEsc : Bool) (b : UInt8) : Bool × Item :=
  if b = esc then (true, .nothing)
  else if pendingEsc then
    (false, if b = escapedCmd then .data esc
      else if b = keepAliveCmd then .keepAlive
      else if b ∈ modeCmds then .command b
      else .nothing)
  else (false, .data b)

def Uart.noted (uart : Uart) (b : UInt8) : Uart :=
  { uart with pendingEsc := (accept uart.pendingEsc b).1 }

/-- The loop of `wendy_com_uart_read` at time `now`, with `out` written so far. A read of a
driver that has no more chunks is `EAGAIN`. -/
def fill (now : Int) (size : Nat) (uart : Uart) (raw : List UInt8) (line : List Chunk)
    (out : List UInt8) : Result × Uart × List Chunk :=
  if out.length < size then
    match raw, line with
    | b :: raw, line =>
      match (accept uart.pendingEsc b).2 with
      | .data c => fill now size (uart.noted b) raw line (out ++ [c])
      | .keepAlive =>
        fill now size { uart.noted b with keepaliveSeen := true, lastRxUs := now } raw line out
      | .command cmd =>
        (.returned out, { uart.noted b with raw, lastEscCmd := cmd, eofPending := out ≠ [] }, line)
      | .nothing => fill now size (uart.noted b) raw line out
    | [], [] =>
      (if out = [] ∧ uart.keepaliveSeen ∧ now - uart.lastRxUs ≥ rxTimeoutUs then .returned []
        else if out ≠ [] then .returned out else .wantRead, { uart with raw := [] }, [])
    | [], .failed :: line => (.unknown, { uart with raw := [] }, line)
    | [], .closed :: line => (.returned out, { uart with raw := [] }, line)
    | [], .bytes head rest :: line =>
      fill now size { uart with lastRxUs := now } (head :: rest) line out
  else (.returned out, { uart with raw }, line)
termination_by (line.length, raw.length)

def wendyComUartRead (now : Int) (size : Nat) (uart : Uart) (line : List Chunk) :
    Result × Uart × List Chunk :=
  if uart.eofPending then (.returned [], { uart with eofPending := false }, line)
  else fill now size uart uart.raw line []

inductive Event
  | arrive (chunk : Chunk)
  | read (now : Int) (size : Nat)

structure Port where
  uart : Uart := {}
  line : List Chunk := []
  results : List Result := []

def Port.step (port : Port) : Event → Port
  | .arrive chunk => { port with line := port.line ++ [chunk] }
  | .read now size =>
    let (result, uart, line) := wendyComUartRead now size port.uart port.line
    { uart, line, results := port.results ++ [result] }

def Port.run (port : Port) (events : List Event) : Port := events.foldl Port.step port

/-- The buffer is not empty, and no call is made after a silence that counts as a closed
connection. -/
def Port.Timely (port : Port) : Event → Prop
  | .arrive _ => True
  | .read now size => 0 < size ∧ (port.line = [] → port.uart.keepaliveSeen = true →
      now - port.uart.lastRxUs < rxTimeoutUs)

def Port.TimelyRun (port : Port) : List Event → Prop
  | [] => True
  | event :: events => port.Timely event ∧ (port.step event).TimelyRun events

/-! ## Sending -/

/-- What the serial link sends: a message of at most 65535 bytes, or a keep-alive. -/
inductive Sent
  | message (body : List UInt8) (small : body.length ≤ 0xFFFF)
  | keepAlive

def Sent.frame : Sent → List UInt8
  | .message body _ => [0xA5, 0x02, 0, 0, 0, 0, UInt8.ofNat (body.length / 256),
      UInt8.ofNat body.length] ++ body
  | .keepAlive => []

def escape (bytes : List UInt8) : List UInt8 :=
  bytes.flatMap fun b => if b = esc then [esc, escapedCmd] else [b]

def Sent.wire : Sent → List UInt8
  | .keepAlive => [esc, keepAliveCmd]
  | sent => escape sent.frame

/-! ## Unescaping -/

/-- The bytes up to the first command, the command and what follows it. -/
def unescape : Bool → List UInt8 → List UInt8 × Option (UInt8 × List UInt8)
  | _, [] => ([], none)
  | pendingEsc, b :: rest =>
    let after := unescape (accept pendingEsc b).1 rest
    match (accept pendingEsc b).2 with
    | .data c => (c :: after.1, after.2)
    | .command cmd => ([], some (cmd, rest))
    | _ => after

lemma unescape_escape (bytes rest : List UInt8) : unescape false (escape bytes ++ rest) =
    (bytes ++ (unescape false rest).1, (unescape false rest).2) := by
  induction bytes with
  | nil => rfl
  | cons b bytes ih =>
    rw [escape, flatMap_cons, ← escape]
    by_cases special : b = esc
    · simp [special, unescape, accept, ih, esc, escapedCmd]
    simp [special, unescape, accept, ih]

lemma unescape_wire (sent : Sent) (rest : List UInt8) : unescape false (sent.wire ++ rest) =
    (sent.frame ++ (unescape false rest).1, (unescape false rest).2) := by
  cases sent with
  | message body small => exact unescape_escape _ rest
  | keepAlive => simp [Sent.wire, Sent.frame, unescape, accept, esc, escapedCmd, keepAliveCmd]

lemma unescape_sent (sent : List Sent) {command : UInt8} (known : command ∈ modeCmds) :
    unescape false (sent.flatMap Sent.wire ++ [esc, command]) =
      (sent.flatMap Sent.frame, some (command, [])) := by
  induction sent with
  | nil =>
    simp only [modeCmds, mem_cons, not_mem_nil, or_false] at known
    rcases known with rfl | rfl | rfl | rfl <;> rfl
  | cons first sent ih =>
    rw [flatMap_cons, append_assoc, unescape_wire, ih, flatMap_cons]

/-! ## One call -/

def Chunk.data : Chunk → List UInt8
  | .bytes head rest => head :: rest
  | _ => []

section

variable (command : UInt8) (future left : List UInt8)

/-- The bytes that the port and the driver hold are data, and with those still to come they
are `left` up to the command, which is the last of them. -/
structure Holds (uart : Uart) (raw : List UInt8) (line : List Chunk) : Prop where
  live : ∀ chunk ∈ line, chunk.data ≠ []
  stream : unescape uart.pendingEsc (raw ++ (line.flatMap Chunk.data ++ future)) =
    (left, some (command, []))
  open_ : uart.eofPending = false

structure Ended (uart : Uart) (line : List Chunk) : Prop where
  raw : uart.raw = []
  line : line = []
  future : future = []
  lastEscCmd : uart.lastEscCmd = command

/-- How a call ends that has written `out` and has `left` to write. -/
inductive Outcome (out : List UInt8) : Result × Uart × List Chunk → Prop
  | some {data rest : List UInt8} {uart : Uart} {line : List Chunk} (written : out ++ data ≠ [])
      (split : left = data ++ rest) (holds : Holds command future rest uart uart.raw line) :
      Outcome out (.returned (out ++ data), uart, line)
  | none {uart : Uart} (unwritten : out = []) (holds : Holds command future left uart [] [])
      (empty : uart.raw = []) : Outcome out (.wantRead, uart, [])
  | command {uart : Uart} {line : List Chunk} (ended : Ended command future uart line)
      (pending : uart.eofPending = decide (out ++ left ≠ [])) :
      Outcome out (.returned (out ++ left), uart, line)

end

variable {command : UInt8} {future left out : List UInt8} {uart : Uart} {raw : List UInt8}
  {line : List Chunk}

lemma Holds.line_eq_nil (holds : Holds command future left uart raw line)
    (empty : line.flatMap Chunk.data = []) : line = [] := by
  cases line with
  | nil => rfl
  | cons chunk line =>
    exact absurd (append_eq_nil_iff.mp empty).1 (holds.live chunk mem_cons_self)

lemma Outcome.of_written (after : Outcome command future left (out ++ [c]) outcome) :
    Outcome command future (c :: left) out outcome := by
  cases after with
  | @some data rest uart line written split_ holds =>
    have same : out ++ [c] ++ data = out ++ c :: data := by simp
    rw [same] at written ⊢
    exact .some written (by rw [split_, cons_append]) holds
  | none unwritten => simp at unwritten
  | command ended pending =>
    have same : out ++ [c] ++ left = out ++ c :: left := by simp
    rw [same] at pending ⊢
    exact .command ended pending

lemma Outcome.full (written : out ≠ []) (holds : Holds command future left uart uart.raw line) :
    Outcome command future left out (.returned out, uart, line) := by
  have ended : Outcome command future left out (.returned (out ++ []), uart, line) :=
    .some (by rwa [append_nil]) rfl holds
  rwa [append_nil] at ended

lemma fill_outcome (positive : 0 < size) (holds : Holds command future left uart raw line)
    (timely : line = [] → uart.keepaliveSeen = true → now - uart.lastRxUs < rxTimeoutUs) :
    Outcome command future left out (fill now size uart raw line out) := by
  have stamped : now - now < rxTimeoutUs := by simp [rxTimeoutUs]
  have stream := holds.stream
  -- Port, driver and wire hold one stream throughout; a case reads its next byte or refills.
  fun_induction fill now size uart raw line out generalizing left with
  | case1 uart out room b raw line c kind ih =>
    rw [cons_append, unescape, kind] at stream
    obtain ⟨rfl, ending⟩ := Prod.mk.inj stream
    have after : Holds command future _ (uart.noted b) raw line :=
      ⟨holds.live, Prod.ext rfl ending, holds.open_⟩
    exact (ih after timely after.stream).of_written
  | case2 uart out room b raw line kind ih =>
    rw [cons_append, unescape, kind] at stream
    exact ih ⟨holds.live, stream, holds.open_⟩ (fun _ _ => stamped) stream
  | case3 uart out room b raw line cmd kind =>
    rw [cons_append, unescape, kind] at stream
    simp only [Prod.mk.injEq, Option.some.injEq, append_eq_nil_iff] at stream
    obtain ⟨rfl, rfl, rawNil, lineNil, futureNil⟩ := stream
    have ended : Outcome cmd future [] out (.returned (out ++ []),
        { uart.noted b with raw, lastEscCmd := cmd, eofPending := out ≠ [] }, line) :=
      .command ⟨rawNil, holds.line_eq_nil lineNil, futureNil, rfl⟩ (by simp)
    rwa [append_nil] at ended
  | case4 uart out room b raw line kind ih =>
    rw [cons_append, unescape, kind] at stream
    exact ih ⟨holds.live, stream, holds.open_⟩ timely stream
  | case5 uart out room =>
    have awake : ¬(out = [] ∧ uart.keepaliveSeen = true ∧ now - uart.lastRxUs ≥ rxTimeoutUs) :=
      fun silent => absurd (timely rfl silent.2.1) (Int.not_lt.mpr silent.2.2)
    have kept : Holds command future left { uart with raw := [] } [] [] :=
      ⟨holds.live, stream, holds.open_⟩
    rw [if_neg awake]
    split
    next written => exact .full written kept
    next unwritten => exact .none (not_not.mp unwritten) kept rfl
  | case6 => exact absurd rfl (holds.live .failed mem_cons_self)
  | case7 => exact absurd rfl (holds.live .closed mem_cons_self)
  | case8 uart out room head rest line ih =>
    have whole : unescape uart.pendingEsc (head :: rest ++ (line.flatMap Chunk.data ++ future)) =
        (left, some (command, [])) := by
      rw [← stream, flatMap_cons, nil_append, append_assoc]
      rfl
    exact ih ⟨fun chunk mem => holds.live chunk (.tail _ mem), whole,
      holds.open_⟩ (fun _ _ => stamped) whole
  | case9 uart raw line out full =>
    have written : out ≠ [] := by
      rintro rfl
      exact full positive
    exact .full written ⟨holds.live, stream, holds.open_⟩

/-! ## Whole runs -/

def Result.data : Result → List UInt8
  | .returned data => data
  | _ => []

/-- Where a run is that is to return `payload`, with `future` still to arrive. Once everything
has arrived, less than `reads` calls return bytes before the end of file. -/
inductive Phase (command : UInt8) (payload future : List UInt8) (port : Port) (reads : Nat) : Prop
  | reading {left : List UInt8}
      (holds : Holds command future left port.uart port.uart.raw port.line)
      (ongoing : .returned [] ∉ port.results)
      (split : port.results.flatMap Result.data ++ left = payload) (enough : left.length < reads)
  | pending (ended : Ended command future port.uart port.line)
      (eof : port.uart.eofPending = true) (ongoing : .returned [] ∉ port.results)
      (whole : port.results.flatMap Result.data = payload) (enough : 0 < reads)
  | done {before after : List Result} (ended : Ended command future port.uart port.line)
      (eof : port.uart.eofPending = false) (results : port.results = before ++ .returned [] :: after)
      (ongoing : .returned [] ∉ before) (whole : before.flatMap Result.data = payload)
      (quiet : ∀ result ∈ after, result = .wantRead)

variable {payload : List UInt8} {port : Port} {reads : Nat}

lemma Phase.arrive (live : chunk.data ≠ [])
    (phase : Phase command payload (chunk.data ++ future) port reads) :
    Phase command payload future (port.step (.arrive chunk)) reads := by
  cases phase with
  | reading holds ongoing split_ enough =>
    refine .reading ⟨?_, ?_, holds.open_⟩ ongoing split_ enough
    · intro other mem
      obtain earlier | last := mem_append.mp mem
      · exact holds.live other earlier
      exact mem_singleton.mp last ▸ live
    simpa [Port.step] using holds.stream
  | pending ended | done ended => exact absurd (append_eq_nil_iff.mp ended.future).1 live

lemma Phase.read (timely : port.Timely (.read now size))
    (phase : Phase command payload future port reads)
    (bound : reads ≤ reads' + if future = [] then 1 else 0) :
    Phase command payload future (port.step (.read now size)) reads' := by
  cases phase with
  | @reading left holds ongoing split_ enough =>
    have outcome : Outcome command future left [] _ := fill_outcome timely.1 holds timely.2
    rw [Port.step, wendyComUartRead, if_neg (by simp [holds.open_])]
    generalize fill now size port.uart port.uart.raw port.line [] = ended at outcome ⊢
    cases outcome with
    | @some data rest uart line written divided kept =>
      have positive := length_pos_of_ne_nil written
      subst divided
      refine .reading kept ?_ ?_ ?_
      · simpa [ongoing] using Ne.symm written
      · simpa [Result.data] using split_
      rw [length_append] at enough
      rw [nil_append] at positive
      split at bound <;> omega
    | none unwritten holds empty =>
      have more : future ≠ [] := by
        rintro rfl
        cases holds.stream
      rw [if_neg more] at bound
      refine .reading (empty.symm ▸ holds) ?_ ?_ (by omega)
      · simpa using ongoing
      simpa [Result.data] using split_
    | command ended pending =>
      rw [if_pos ended.future] at bound
      cases left with
      | nil =>
        exact .done ended (by simpa using pending) rfl ongoing (by simpa using split_) (by simp)
      | cons b left =>
        refine .pending ended (by simpa using pending) ?_ ?_ ?_
        · simpa using ongoing
        · simpa [Result.data] using split_
        rw [length_cons] at enough
        omega
  | pending ended eof ongoing whole enough =>
    rw [Port.step, wendyComUartRead, if_pos eof]
    exact .done ⟨ended.raw, ended.line, ended.future, ended.lastEscCmd⟩ rfl rfl ongoing whole (by simp)
  | done ended eof results ongoing whole quiet =>
    have awake : ¬(port.uart.keepaliveSeen = true ∧ now - port.uart.lastRxUs ≥ rxTimeoutUs) :=
      fun silent => absurd (timely.2 ended.line silent.1) (Int.not_lt.mpr silent.2)
    rw [Port.step, wendyComUartRead, if_neg (by simp [eof]), ended.raw, ended.line, fill,
      if_pos (show ([] : List UInt8).length < size from timely.1)]
    simp only [true_and, if_neg awake, ne_eq, not_true_eq_false, if_false]
    refine .done ⟨rfl, rfl, ended.future, ended.lastEscCmd⟩ eof (by rw [results, append_assoc]; rfl)
      ongoing whole ?_
    intro result mem
    obtain earlier | last := mem_append.mp mem
    · exact quiet result earlier
    exact mem_singleton.mp last

def arrived (events : List Event) : List Chunk :=
  events.filterMap fun
    | .arrive chunk => some chunk
    | .read .. => none

lemma Phase.run (live : ∀ chunk ∈ arrived events, chunk.data ≠ []) (timely : port.TimelyRun events)
    (phase : Phase command payload ((arrived events).flatMap Chunk.data ++ future) port reads) :
    Phase command payload future (port.run events) reads := by
  induction events generalizing port with
  | nil => exact phase
  | cons event events ih =>
    cases event with
    | arrive chunk =>
      have arrives : arrived (.arrive chunk :: events) = chunk :: arrived events := rfl
      rw [arrives] at live phase
      rw [flatMap_cons, append_assoc] at phase
      exact ih (fun other mem => live other (.tail _ mem)) timely.2
        (phase.arrive (live chunk mem_cons_self))
    | read now size => exact ih live timely.2 (phase.read timely.1 (by omega))

/-- Calls after everything has arrived. -/
lemma Phase.drain (settled : arrived events = []) (timely : port.TimelyRun events)
    (phase : Phase command payload [] port reads) :
    Phase command payload [] (port.run events) (reads - events.length) := by
  induction events generalizing port reads with
  | nil => exact phase
  | cons event events ih =>
    cases event with
    | arrive chunk => cases settled
    | read now size =>
      have next : Phase command payload [] (port.step (.read now size)) (reads - 1) :=
        phase.read timely.1 (by rw [if_pos rfl]; omega)
      have after := ih settled timely.2 next
      rwa [length_cons, Nat.add_comm, ← Nat.sub_sub]

/-! ## Transparency -/

end WendyLite.Com.Serial
