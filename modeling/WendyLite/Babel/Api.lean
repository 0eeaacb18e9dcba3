import WendyLite.Babel.Protocol

/-! # The routing engine: public interface

The `wb_*` functions of `engine.c`, and the events of a run. Pointer arguments
of the C functions are never null here.
-/

namespace WendyLite.Babel

def withDefaults (config : Config) : Config :=
  { config with
    helloMs := if config.helloMs = 0 then 4000 else config.helloMs
    updateMs := if config.updateMs = 0 then 16000 else config.updateMs
    sourceMs := if config.sourceMs = 0 then 180000 else config.sourceMs }

/-- `wb_init` of a zeroed engine, or `none` for `WB_INVALID`. -/
def wbInit (config : Config) : Option Engine :=
  if config.router = 0 ∨ config.router = 0xffffffffffffffff ∨
      config.allocate ≠ config.deallocate then none
  else
    let c := withDefaults config
    if c.helloMs < 100 ∨ c.helloMs > 327670 ∨ c.helloMs % 10 ≠ 0 ∨ c.updateMs < 100 ∨
        c.updateMs > 655340 ∨ c.updateMs % 10 ≠ 0 ∨ c.sourceMs < 180000 ∨
        c.sourceMs.toUInt64 < hold c.updateMs.toUInt64 ∨ c.sourceMs > 86400000 then none
    else
      some
        { config := c
          seqno := c.seqno
          rng := if c.seed ≠ 0 then c.seed else c.router
          ready := true }

variable (env : Env)

def accept (e : Engine) (now : UInt64) (change : Engine → Engine) :
    Status × Engine :=
  match begin env e now with
  | (.ok, e) => finish env (change e)
  | refused => refused

def wbTick (e : Engine) (now : UInt64) : Status × Engine :=
  accept env e now id

variable (e : Engine)

def linkRefused (config : Link) : Bool :=
  config.id = 0 ∨ config.id ≤ e.lastLink ∨ config.cost = 0 ∨ config.maxPacket < 512 ∨
    config.maxPacket.toNat > packetMax ∨
    (config.helloMs ≠ 0 ∧
      (config.helloMs < 100 ∨ config.helloMs > 327670 ∨ config.helloMs % 10 ≠ 0)) ∨
    config.localAddress.val.getD 0 0 ≠ 0xfe ∨
    config.localAddress.val.getD 1 0 &&& 0xc0 ≠ 0x80 ∨
    config.peer.val.getD 0 0 ≠ 0xfe ∨ config.peer.val.getD 1 0 &&& 0xc0 ≠ 0x80 ∨
    config.localAddress = config.peer

def attachLink (slot : Nat) (config : Link) (e : Engine) : Engine :=
  queue env
    { e with
      links := e.links.set slot { config := config, tx := infinity }, lastLink := config.id }
    config.id { type := .request, wildcard := true }

def wbAddLink (e : Engine) (now : UInt64) (config : Link) : Status × Engine :=
  if linkRefused e config then (.invalid, e)
  else
    match acquire env e.heap env.limits.links LinkState.used {} e.links with
    | (none, heap) => (.limit, { e with heap := heap })
    | (some (slot, links), heap) =>
      accept env { e with heap := heap, links := links } now (attachLink env slot config)

def detachLink (id : UInt64) (e : Engine) : Engine :=
  let e := modifyLink e id fun _ => {}
  { e with
    candidates := e.candidates.map fun candidate =>
      if candidate.used && candidate.route.link == id then
        { retract candidate with expires := e.now + hold e.config.updateMs.toUInt64 }
      else candidate }

def wbRemoveLink (e : Engine) (now id : UInt64) : Status × Engine :=
  accept env e now (detachLink id)

def changeCost (id : UInt64) (cost : UInt16) (e : Engine) : Engine :=
  modifyLink e id fun link => { link with config := { link.config with cost := cost } }

def wbSetCost (e : Engine) (now id : UInt64) (cost : UInt16) : Status × Engine :=
  if cost = 0 then (.invalid, e) else accept env e now (changeCost id cost)

/-- The slot `wb_originate` will write: the one that holds the prefix, else an
acquired one if the prefix is admitted. -/
def originSlot (e : Engine) (p : Prefix) : Option Nat × Engine :=
  match e.locals.findIdx? fun entry => entry.used && entry.pfx == p with
  | some slot => (some slot, e)
  | none =>
    if admissionFull env e p then (none, e)
    else
      match acquire env e.heap env.limits.routes LocalPrefix.used {} e.locals with
      | (none, heap) => (none, { e with heap := heap })
      | (some (slot, locals), heap) => (some slot, { e with heap := heap, locals := locals })

def writeLocal (slot : Nat) (p : Prefix) (metric : UInt16) (e : Engine) : Engine :=
  { e with
    locals := e.locals.set slot { used := true, pfx := p, metric := metric }
    drops := e.drops.map fun drop =>
      if drop.used && drop.pfx == p then { drop with used := false } else drop }

def wbOriginate (e : Engine) (now : UInt64) (p : Prefix) (metric : UInt16) :
    Status × Engine :=
  if !p.routable || metric == infinity then (.invalid, e)
  else
    match originSlot env e p with
    | (none, e) => (.limit, e)
    | (some slot, e) =>
      if sourcesFull env e p e.config.router then (.limit, e)
      else accept env e now (writeLocal slot p metric)

def clearLocal (p : Prefix) (e : Engine) : Engine :=
  match e.locals.findIdx? fun entry => entry.used && entry.pfx == p with
  | none => e
  | some slot =>
    { e with locals := e.locals.modify slot fun entry => { entry with used := false } }

def wbWithdraw (e : Engine) (now : UInt64) (p : Prefix) : Status × Engine :=
  if !p.valid then (.invalid, e) else accept env e now (clearLocal p)

def malformed (e : Engine) : Engine :=
  { e with counters := { e.counters with malformed := e.counters.malformed + 1 } }

def receivePacket (id : UInt64) (data : List UInt8) (e : Engine) : Engine :=
  match linkFor e id with
  | none => e
  | some link =>
    let e := { e with counters := { e.counters with received := e.counters.received + 1 } }
    if data.length > link.config.maxPacket.toNat then malformed e
    else
      match wbDecode data link.config.peer with
      | none => malformed e
      | some messages => messages.foldl (receiveMessage env id) e

def wbReceive (e : Engine) (now id : UInt64) (data : List UInt8) :
    Status × Engine :=
  accept env e now (receivePacket env id data)

def wbRequestPrefix (e : Engine) (p : Prefix) : Status × Engine :=
  if !p.routable then (.invalid, e)
  else if e.stopped then (.stopped, e)
  else if e.pending ≠ 0 ∨ !e.ready ∨
      (e.messageCursor ≠ 0 ∧ e.messageCursor < e.messages.length) then (.busy, e)
  else
    let e := if e.messageCursor = e.messages.length then clearMessages e else e
    let destinations := e.links.filter LinkState.used
    let count := destinations.length
    if count = 0 then (.busy, e)
    else if count > env.limits.messages - e.messages.length then (.limit, e)
    else
      match reserve env e.heap env.limits.messages e.messagesCapacity
          (e.messages.length + count) with
      | (none, heap) => (.limit, { e with heap := heap })
      | (some capacity, heap) =>
        (.ok,
          destinations.foldl
            (fun e link => queue env e link.config.id { type := .request, pfx := p })
            { e with heap := heap, messagesCapacity := capacity })

def wbCommit (revision : UInt64) (success : Bool) : Status × Engine :=
  if e.stopped then (.stopped, e)
  else if revision = 0 ∨ revision ≠ e.pending then (.invalid, e)
  else if !success then (.stopped, { clearMessages e with pending := 0, stopped := true })
  else (.ok, { e with pending := 0, ready := true })

/-! ## Export -/

/-- The loop of `wb_next_packet`: the body of one packet, how many messages it
holds, and whether a message could not be encoded. -/
def fillPacket (maximum : Nat) (link : UInt64) (body : List UInt8) (taken : Nat) :
    List Queued → List UInt8 × Nat × Bool
  | [] => (body, taken, false)
  | queued :: rest =>
    if queued.link ≠ link then (body, taken, false)
    else
      match wbEncode queued.message 64 with
      | none => (body, taken, true)
      | some bytes =>
        if bytes.length > maximum - 4 then (body, taken, true)
        else if 4 + body.length + bytes.length > maximum then (body, taken, false)
        else fillPacket maximum link (body ++ bytes) (taken + 1) rest

inductive Reply
  | status (status : Status)
  | drained
  | packet (link : UInt64) (bytes : List UInt8)
  deriving DecidableEq

/-- `wb_next_packet` into a buffer of `capacity` bytes. -/
def wbNextPacket (capacity : Nat) : Reply × Engine :=
  if e.stopped then (.status .stopped, e)
  else if e.pending ≠ 0 ∨ !e.ready then (.status .busy, e)
  else
    match e.messages.drop e.messageCursor with
    | [] => (.drained, e)
    | first :: rest =>
      match linkFor e first.link with
      | none => (.status .invalid, e)
      | some link =>
        let maximum := link.config.maxPacket.toNat
        if capacity < maximum then (.status .invalid, e)
        else
          match fillPacket maximum first.link [] 0 (first :: rest) with
          | (_, taken, true) =>
            (.status .stopped, { e with stopped := true, messageCursor := e.messageCursor + taken })
          | (body, taken, false) =>
            let e :=
              { e with
                messageCursor := e.messageCursor + taken
                counters := { e.counters with sent := e.counters.sent + 1 } }
            (.packet first.link ([42, 2] ++ put16 (UInt16.ofNat body.length) ++ body),
              if e.messageCursor = e.messages.length then clearMessages e else e)

/-! ## Deadlines and lookup -/

/-- The `DEADLINE` macro. -/
def deadline (now next candidate : UInt64) : UInt64 :=
  if candidate > now ∧ candidate < next then candidate else next

def linkDeadlines (link : LinkState) : List UInt64 :=
  if link.used then
    [link.nextHello, link.nextIhu, link.nextUpdate, link.ihuExpires, link.multicast.expires,
      link.unicast.expires]
  else []

def candidateDeadlines (candidate : Candidate) : List UInt64 :=
  if candidate.used then
    candidate.expires ::
      (if !candidate.refreshRequested && candidate.expires ≥ candidate.intervalMs.toUInt64 then
        [candidate.expires - candidate.intervalMs.toUInt64] else [])
  else []

def requestDeadlines (q : RequestState) : List UInt64 :=
  if q.used then q.expires :: (if q.remaining ≠ 0 then [q.next] else []) else []

def wbNextDeadline : UInt64 :=
  if e.stopped ∨ e.pending ≠ 0 then 0xffffffffffffffff
  else
    let instants :=
      e.links.flatMap linkDeadlines ++ e.candidates.flatMap candidateDeadlines ++
        (e.sources.filter Source.used).map (·.expires) ++
        (e.drops.filter Drop.used).map (·.expires) ++ e.requests.flatMap requestDeadlines
    let next := instants.foldl (deadline e.now) 0xffffffffffffffff
    if e.trigger then
      if e.triggerAt ≤ e.now then e.now else deadline e.now next e.triggerAt
    else next

def covers (p host : Prefix) : Bool :=
  p.family == host.family && p.bits ≤ host.bits && ({ host with bits := p.bits }).mask == p

/-- `wb_lookup`. Unreachable entries override a covering route. -/
def wbLookup (host : Prefix) : Option Route :=
  if !host.valid then none
  else
    e.routes.foldl
      (fun best route =>
        if covers route.pfx host then
          match best with
          | none => some route
          | some other => if route.pfx.bits > other.pfx.bits then some route else best
        else best)
      none

/-! ## Runs -/

inductive Event
  | tick (now : UInt64)
  | addLink (now : UInt64) (config : Link)
  | removeLink (now link : UInt64)
  | setCost (now link : UInt64) (cost : UInt16)
  | originate (now : UInt64) (p : Prefix) (metric : UInt16)
  | withdraw (now : UInt64) (p : Prefix)
  | receive (now link : UInt64) (data : List UInt8)
  | requestPrefix (p : Prefix)
  | commit (revision : UInt64) (success : Bool)
  | nextPacket (capacity : Nat)

def step (e : Engine) : Event → Reply × Engine
  | .tick now => let (status, e) := wbTick env e now; (.status status, e)
  | .addLink now config =>
    let (status, e) := wbAddLink env e now config; (.status status, e)
  | .removeLink now link =>
    let (status, e) := wbRemoveLink env e now link; (.status status, e)
  | .setCost now link cost =>
    let (status, e) := wbSetCost env e now link cost; (.status status, e)
  | .originate now p metric =>
    let (status, e) := wbOriginate env e now p metric; (.status status, e)
  | .withdraw now p => let (status, e) := wbWithdraw env e now p; (.status status, e)
  | .receive now link data =>
    let (status, e) := wbReceive env e now link data; (.status status, e)
  | .requestPrefix p =>
    let (status, e) := wbRequestPrefix env e p; (.status status, e)
  | .commit revision success =>
    let (status, e) := wbCommit e revision success; (.status status, e)
  | .nextPacket capacity => wbNextPacket e capacity

def run (e : Engine) (events : List Event) : Engine :=
  events.foldl (fun e event => (step env e event).2) e

end WendyLite.Babel
