import WendyLite.Babel.Engine
import WendyLite.Babel.Wire

/-! # The routing engine: messages and timers

The handling of one received message, expiry, the periodic timers, and the
`begin` and `finish` that bracket every event of `engine.c`.
-/

namespace WendyLite.Babel

/-! ## Updates -/

def lastSlot (test : Slot → Bool) : List Slot → Option Nat
  | [] => none
  | slot :: rest =>
    match lastSlot test rest with
    | some index => some (index + 1)
    | none => if test slot then some 0 else none

def retract (candidate : Candidate) : Candidate :=
  { candidate with advertised := infinity }

variable (env : Env)

/-- A finite Update is refused before it reaches the candidate table. -/
def refusesUpdate (e : Engine) (link : Link) (m : Message) : Bool × Engine :=
  if !m.pfx.routable then (true, e)
  else
    let (permitted, e) :=
      allowed env e { route := { pfx := m.pfx, router := m.router, seqno := m.seqno } }
    (!permitted || m.router == e.config.router || (m.via6 && !e.config.ipv4ViaIpv6) ||
      (m.addressFamily == 6 && m.address != link.peer), e)

def sourcesFull (e : Engine) (p : Prefix) (router : UInt64) : Bool :=
  (sourceFor e p router).isNone && e.sources.all (·.used) &&
    e.sources.length ≥ env.limits.sources

def admissionFull (e : Engine) (p : Prefix) : Bool :=
  !prefixAdmitted e p && admissionCount e ≥ env.limits.routes

variable (e : Engine)

def updatedCandidate (link : Link) (m : Message) : Candidate :=
  let intervalMs := m.interval.toUInt32 * 10
  { route :=
      { pfx := m.pfx, router := m.router, seqno := m.seqno, link := link.id
        nextFamily := m.addressFamily, nextHop := m.address }
    advertised := m.metric
    intervalMs := intervalMs
    expires := e.now + hold intervalMs.toUInt64
    used := true
    refreshRequested := false }

/-- Ask for a newer sequence number when an infeasible Update would otherwise
have been preferred. -/
def requestFeasible (e : Engine) (link : Link) (m : Message)
    (candidate : Candidate) : Engine :=
  if feasible e candidate then e
  else
    match sourceFor e m.pfx m.router with
    | none => e
    | some source =>
      let ask := fun e =>
        request env e m.pfx m.router (source.seqno + 1) [link.id] 0 64
      match routeFor e m.pfx with
      | none => ask e
      | some selected =>
        if selected.unreachable || selected.link == link.id then ask e
        else
          let (offered, e) := metric env e candidate
          if offered < selected.metric then ask e else e

def storeUpdate (e : Engine) (link : Link) (m : Message) (slot : Nat) : Engine :=
  let old := (e.candidates.getD slot {}).route.router
  let e := if old ≠ 0 ∧ old ≠ m.router then trigger e true else e
  let candidate := updatedCandidate e link m
  requestFeasible env { e with candidates := e.candidates.set slot candidate } link m candidate

def insertUpdate (e : Engine) (link : Link) (m : Message) : Engine :=
  if admissionFull env e m.pfx then rejected e
  else
    match acquire env e.heap env.limits.candidates Candidate.used {} e.candidates with
    | (none, heap) => rejected { e with heap := heap }
    | (some (slot, candidates), heap) =>
      -- The new candidate starts zeroed, whatever the slot held.
      storeUpdate env { e with heap := heap, candidates := candidates.set slot {} } link m slot

def update (e : Engine) (link : Link) (m : Message) : Engine :=
  if m.wildcard then
    { e with
      candidates := e.candidates.map fun candidate =>
        if candidate.used && candidate.route.link == link.id then retract candidate
        else candidate }
  else
    let known := lastSlot (fun candidate =>
      candidate.used && candidate.route.link == link.id && candidate.route.pfx == m.pfx)
      e.candidates
    if m.metric = infinity then
      match known with
      | none => e
      | some slot => { e with candidates := e.candidates.modify slot retract }
    else
      match refusesUpdate env e link m with
      | (true, e) => rejected e
      | (false, e) =>
        if sourcesFull env e m.pfx m.router then rejected e
        else
          match known with
          | some slot => storeUpdate env e link m slot
          | none => insertUpdate env e link m

/-! ## Seqno requests -/

/-- The better relay of a Seqno Request among the best so far and one more
candidate. The callback is asked again at each comparison, as in the source. -/
def betterRelay (fromLink : UInt64) (p : Prefix)
    (state : Engine × Option Candidate) (candidate : Candidate) : Engine × Option Candidate :=
  let (e, best) := state
  if !candidate.used || candidate.route.pfx != p || candidate.route.link == fromLink then
    (e, best)
  else
    let (m, e) := metric env e candidate
    if m = infinity then (e, best)
    else
      match best with
      | none => (e, some candidate)
      | some other =>
        if feasible e candidate && !feasible e other then (e, some candidate)
        else if feasible e candidate == feasible e other then
          let (mine, e) := metric env e candidate
          let (theirs, e) := metric env e other
          if mine < theirs then (e, some candidate)
          else
            let (mine, e) := metric env e candidate
            let (theirs, e) := metric env e other
            if mine = theirs ∧ candidate.route.link < other.route.link then
              (e, some candidate)
            else (e, best)
        else (e, best)

def forwardSeqRequest (e : Engine) (fromLink : UInt64) (m : Message) : Engine :=
  if m.router = e.config.router ∨ m.hops < 2 then e
  else if !(e.sources.any fun source => source.used && source.pfx == m.pfx) then e
  else
    match e.candidates.foldl (betterRelay env fromLink m.pfx) (e, none) with
    | (e, none) => e
    | (e, some best) =>
      request env e m.pfx m.router m.seqno [best.route.link] fromLink (m.hops - 1)

def seqRequest (e : Engine) (fromLink : UInt64) (m : Message) : Engine :=
  match routeFor e m.pfx with
  | none => forwardSeqRequest env e fromLink m
  | some route =>
    if route.unreachable then forwardSeqRequest env e fromLink m
    else if route.router ≠ m.router ∨ atLeast route.seqno m.seqno then
      advertise env e fromLink m.pfx true
    else if route.isLocal then
      advertise env (selectRoutes env { e with seqno := e.seqno + 1 }) fromLink m.pfx true
    else forwardSeqRequest env e fromLink m

/-! ## Received messages -/

def modifyLink (id : UInt64) (change : LinkState → LinkState) : Engine :=
  match e.links.findIdx? fun link => link.config.id == id with
  | none => e
  | some slot => { e with links := e.links.modify slot change }

variable (now : UInt64)

def receiveHello (m : Message) (hello : HelloState) : HelloState :=
  if !hello.seen || hello.expires ≤ now || newer m.seqno hello.rx then
    { rx := m.seqno
      seen := true
      expires := if m.interval ≠ 0 then now + hold (m.interval.toUInt64 * 10) else hello.expires }
  else hello

def receiveIhu (m : Message) (link : LinkState) : LinkState :=
  if m.addressFamily = 0 ∨ (m.addressFamily = 6 ∧ m.address = link.config.localAddress) ∨
      (m.addressFamily = 4 ∧ m.address.val.take 4 = link.config.ipv4.val) then
    { link with
      tx := m.metric, ihuExpires := now + hold (m.interval.toUInt64 * 10) }
  else link

/-- Answer a Request from the table just selected. Requests for the whole table
are answered once per Hello interval. -/
def receiveRequest (id : UInt64) (e : Engine) (m : Message) : Engine :=
  if m.wildcard then
    match linkFor e id with
    | none => e
    | some link =>
      if !link.dumped || e.now - link.lastDump ≥ (helloMs e link).toUInt64 then
        modifyLink (dump env e id true) id fun link =>
          { link with lastDump := e.now, dumped := true }
      else e
  else advertise env e id m.pfx true

def receiveMessage (id : UInt64) (e : Engine) (m : Message) : Engine :=
  if e.stopped then e
  else if e.config.localOnly ∧ m.type = .seqRequest ∧ m.router ≠ e.config.router then e
  else
    match m.type with
    | .hello =>
      modifyLink e id fun link =>
        if m.unicast then { link with unicast := receiveHello e.now m link.unicast }
        else { link with multicast := receiveHello e.now m link.multicast }
    | .ihu => modifyLink e id (receiveIhu e.now m)
    | .ackRequest => queue env e id { type := .ack, opaqueValue := m.opaqueValue }
    | .update =>
      if e.config.localOnly then e
      else
        match linkFor e id with
        | none => e
        | some link => update env e link.config m
    | .request => receiveRequest env id (selectRoutes env e) m
    | .seqRequest => seqRequest env (selectRoutes env e) id m
    | .ack | .router | .nextHop => e

/-! ## Expiry and timers -/

def expireCandidate (candidate : Candidate) : Candidate :=
  if !candidate.used || candidate.expires > now then candidate
  else if candidate.advertised = infinity then { candidate with used := false }
  else
    { retract candidate with expires := now + hold candidate.intervalMs.toUInt64 }

def expireSource (source : Source) : Source :=
  if source.used && source.expires ≤ now then { source with used := false } else source

def expireRequest (q : RequestState) : RequestState :=
  if q.used && q.expires ≤ now then { q with used := false } else q

def expire : Engine :=
  { e with
    candidates := e.candidates.map (expireCandidate e.now)
    sources := e.sources.map (expireSource e.now)
    requests := e.requests.map (expireRequest e.now) }

def setLink (slot : Nat) (link : LinkState) : Engine :=
  { e with links := e.links.set slot link }

def helloTimer (e : Engine) (slot : Nat) (link : LinkState) :
    Engine × LinkState :=
  let hello := helloMs e link
  if link.nextHello ≤ e.now then
    let e :=
      queue env e link.config.id
        { type := .hello, seqno := link.helloSeq, interval := (hello / 10).toUInt16 }
    let (delay, e) := jitter e (hello / 8).toUInt64
    let link :=
      { link with
        helloSeq := link.helloSeq + 1, nextHello := e.now + hello.toUInt64 - delay }
    (setLink e slot link, link)
  else (e, link)

def ihuTimer (e : Engine) (slot : Nat) (link : LinkState) : Engine × LinkState :=
  let hello := helloMs e link
  if link.nextIhu ≤ e.now then
    let rx :=
      if link.multicast.expires ≤ e.now ∧ link.unicast.expires ≤ e.now then infinity
      else link.config.cost
    let e :=
      queue env e link.config.id
        { type := .ihu, metric := rx, interval := (hello * 2 / 10).toUInt16 }
    let (delay, e) := jitter e (hello / 8).toUInt64
    let link := { link with nextIhu := e.now + (hello * 2).toUInt64 - delay }
    (setLink e slot link, link)
  else (e, link)

def updateTimer (e : Engine) (slot : Nat) (link : LinkState) : Engine :=
  if link.nextUpdate ≤ e.now then
    let e := dump env e link.config.id false
    let (delay, e) := jitter e (e.config.updateMs / 8).toUInt64
    setLink e slot { link with nextUpdate := e.now + e.config.updateMs.toUInt64 - delay }
  else e

def linkTimers (e : Engine) (slot : Nat) : Engine :=
  match e.links[slot]? with
  | none => e
  | some link =>
    if !link.used then e
    else
      let (e, link) := helloTimer env e slot link
      let (e, link) := ihuTimer env e slot link
      updateTimer env e slot link

def triggerTimer (e : Engine) : Engine :=
  if e.trigger ∧ e.triggerAt ≤ e.now then
    let e :=
      e.links.foldl
        (fun e link => if link.used then dump env e link.config.id false else e) e
    if e.repeats ≠ 0 then
      let e := { e with repeats := e.repeats - 1 }
      let (delay, e) := jitter e 50
      { e with triggerAt := e.now + 100 + delay }
    else { e with trigger := false }
  else e

def requestTimer (e : Engine) (slot : Nat) : Engine :=
  match e.requests[slot]? with
  | none => e
  | some q =>
    if q.used ∧ q.remaining ≠ 0 ∧ q.next ≤ e.now then
      let e := q.targets.foldl (fun e target => queue env e target q.message) e
      { e with
        requests :=
          e.requests.set slot
            { q with remaining := q.remaining - 1, next := e.now + 1000 } }
    else e

def refreshTimer (e : Engine) (slot : Nat) : Engine :=
  match e.candidates[slot]? with
  | none => e
  | some candidate =>
    if !candidate.used then e
    else
      match routeFor e candidate.route.pfx with
      | none => e
      | some route =>
        if route.link = candidate.route.link ∧ !candidate.refreshRequested ∧
            candidate.advertised ≠ infinity ∧
            candidate.expires - e.now ≤ candidate.intervalMs.toUInt64 then
          let e :=
            queue env e candidate.route.link
              { type := .request, pfx := candidate.route.pfx }
          { e with
            candidates := e.candidates.set slot { candidate with refreshRequested := true } }
        else e

def timers (e : Engine) : Engine :=
  let e := (List.range e.links.length).foldl (linkTimers env) e
  let e := triggerTimer env e
  let e := (List.range e.requests.length).foldl (requestTimer env) e
  (List.range e.candidates.length).foldl (refreshTimer env) e

/-! ## The bracket of an event -/

def clearMessages : Engine :=
  { e with messages := [], messagesCapacity := 0, messageCursor := 0 }

/-- The last time `begin` accepts: two days before the clock would wrap. -/
def lastTime : UInt64 := 0xffffffffffffffff - 172800000

def begin (e : Engine) (now : UInt64) : Status × Engine :=
  if e.stopped then (.stopped, e)
  else if e.pending ≠ 0 ∨ e.messageCursor < e.messages.length then (.busy, e)
  else if now < e.now ∨ now > lastTime then (.invalid, e)
  else
    match reserve env e.heap env.limits.routes e.beforeCapacity e.routes.length with
    | (none, heap) => (.limit, { e with heap := heap })
    | (some capacity, heap) =>
      let e := { e with heap := heap, beforeCapacity := capacity, before := e.routes }
      (.ok, expire { clearMessages e with ready := false, now := now })

def finish (e : Engine) : Status × Engine :=
  let e := timers env (selectRoutes env e)
  if e.stopped then (.stopped, { e with before := [], beforeCapacity := 0 })
  else
    let changed := e.before ≠ e.routes
    let e := wbCollect env { e with before := [] }
    if changed then
      (.pending, { e with revision := e.revision + 1, pending := e.revision + 1 })
    else (.ok, { e with ready := true })

end WendyLite.Babel
