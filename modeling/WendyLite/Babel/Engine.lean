import WendyLite.Babel.Prefix
import WendyLite.Babel.Storage
import WendyLite.Foundation.Loop
import Mathlib.Data.List.Sort

/-! # The routing engine: selection and advertisement

The static functions of `engine.c` up to route selection. Functions that may
ask the allocator or the `allow` callback take the environment that answers
them; a slot pointer of the source is an index into its table.
-/

namespace WendyLite.Babel

/-! ## Sequence numbers and metrics -/

/-- Circular order of sequence numbers: `a` is ahead of `b` by less than half
the circle. -/
def newer (a b : UInt16) : Bool :=
  let difference := a - b
  difference != 0 && difference < 32768

def atLeast (a b : UInt16) : Bool := a == b || newer a b

def addCost (a b : UInt16) : UInt16 :=
  let sum := a.toUInt32 + b.toUInt32
  if sum ≥ infinity.toUInt32 then infinity else sum.toUInt16

def hold (n : UInt64) : UInt64 := n * 7 / 2

/-! ## Lookups -/

variable (e : Engine)

def linkFor (id : UInt64) : Option LinkState :=
  e.links.find? fun link => link.config.id == id

variable (p : Prefix)

def sourceFor (router : UInt64) : Option Source :=
  e.sources.find? fun source => source.used && source.router == router && source.pfx == p

def routeFor : Option Route :=
  e.routes.find? fun route => route.pfx == p

def localFor : Option LocalPrefix :=
  e.locals.find? fun entry => entry.used && entry.pfx == p

def prefixAdmitted : Bool :=
  e.candidates.any (fun candidate => candidate.used && candidate.route.pfx == p) ||
    e.locals.any (fun entry => entry.used && entry.pfx == p) ||
    e.drops.any (fun drop => drop.used && drop.pfx == p)

/-- How many prefixes do not occur before their position in the list. -/
def countDistinct (earlier : List Prefix) : List Prefix → Nat
  | [] => 0
  | p :: rest => (if p ∈ earlier then 0 else 1) + countDistinct (p :: earlier) rest

def admissionCount : Nat :=
  let candidates := SlotTable.keys Candidate.used (·.route.pfx) e.candidates
  let locals := SlotTable.keys LocalPrefix.used (·.pfx) e.locals
  let drops := SlotTable.keys Drop.used (·.pfx) e.drops
  countDistinct [] candidates + locals.countP (· ∉ candidates) +
    drops.countP fun p => p ∉ candidates ∧ p ∉ locals

def helloMs (e : Engine) (link : LinkState) : UInt32 :=
  if link.config.helloMs ≠ 0 then link.config.helloMs else e.config.helloMs

/-- `cost_at`: the cost of a link as its neighbour last confirmed it. -/
def costAt (link : Option LinkState) (now : UInt64) : UInt16 :=
  match link with
  | none => infinity
  | some link =>
    if link.ihuExpires ≤ now ∨ link.tx = infinity ∨
        (link.multicast.expires ≤ now ∧ link.unicast.expires ≤ now) then infinity
    else if link.config.cost > link.tx then link.config.cost
    else if link.tx ≠ 0 then link.tx else 1

def cost (link : Option LinkState) : UInt16 := costAt link e.now

variable (env : Env)

def allowed (e : Engine) (candidate : Candidate) : Bool × Engine :=
  if !e.config.allow then (true, e)
  else
    (env.allow e.consultations candidate.route.router candidate.route.pfx
        candidate.route.seqno,
      { e with consultations := e.consultations + 1 })

def metric (e : Engine) (candidate : Candidate) : UInt16 × Engine :=
  let (permitted, e) := allowed env e candidate
  (if permitted then addCost candidate.advertised (cost e (linkFor e candidate.route.link))
    else infinity, e)

/-- The feasibility condition: the advertised distance is strictly better than
the best one this engine ever advertised for the prefix and router. -/
def feasible (candidate : Candidate) : Bool :=
  candidate.advertised == infinity ||
    match sourceFor e candidate.route.pfx candidate.route.router with
    | none => true
    | some source =>
      newer candidate.route.seqno source.seqno ||
        (candidate.route.seqno == source.seqno && candidate.advertised < source.metric)

/-! ## Output -/

def jitter (maximum : UInt64) : UInt64 × Engine :=
  let rng := e.rng ^^^ (e.rng <<< 13)
  let rng := rng ^^^ (rng >>> 7)
  let rng := rng ^^^ (rng <<< 17)
  (rng % (maximum + 1), { e with rng := rng })

def trigger (e : Engine) (again : Bool) : Engine :=
  let e :=
    if e.trigger then e
    else
      let (delay, e) := jitter e 50
      { e with trigger := true, triggerAt := e.now + delay }
  if again then { e with repeats := 2 } else e

def rejected (e : Engine) : Engine :=
  { e with counters := { e.counters with rejected := e.counters.rejected + 1 } }

def queueDropped : Engine :=
  { e with counters := { e.counters with queueDrops := e.counters.queueDrops + 1 } }

def queue (e : Engine) (id : UInt64) (m : Message)
    (basis : Option (Route × Source) := none) : Engine :=
  if (linkFor e id).isNone then e
  else if e.messages.length = env.limits.messages then queueDropped e
  else
    match reserve env e.heap env.limits.messages e.messagesCapacity (e.messages.length + 1) with
    | (none, heap) => queueDropped { e with heap := heap }
    | (some capacity, heap) =>
      { e with
        heap := heap
        messagesCapacity := capacity
        messages := e.messages ++ [{ message := m, link := id, basis := basis }] }

/-- Record an advertisement of `route` in its source entry: keep the better
distance and restart the entry's lifetime. -/
def refreshSource (route : Route) (source : Source) : Source :=
  let source :=
    if newer route.seqno source.seqno ||
        (route.seqno == source.seqno && route.metric < source.metric) then
      { source with seqno := route.seqno, metric := route.metric }
    else source
  { source with expires := e.now + e.config.sourceMs.toUInt64 }

/-- The source entry of an advertised route, found or created, and refreshed;
`none` when there is no room for a new one. -/
def recordSource (e : Engine) (p : Prefix) (route : Route) :
    Option Source × Engine :=
  match e.sources.findIdx? fun source =>
      source.used && source.router == route.router && source.pfx == p with
  | some slot =>
    let source := refreshSource e route (e.sources.getD slot {})
    (some source, { e with sources := e.sources.set slot source })
  | none =>
    match acquire env e.heap env.limits.sources Source.used {} e.sources with
    | (none, heap) => (none, { e with heap := heap })
    | (some (slot, sources), heap) =>
      let source :=
        refreshSource e route
          { used := true, pfx := p, router := route.router, seqno := route.seqno
            metric := route.metric }
      (some source, { e with heap := heap, sources := sources.set slot source })

/-- The Update for a reachable route on a link, with its next hop: an IPv4
prefix needs an IPv4 address on the link or the IPv4-via-IPv6 extension. -/
def advertisement (link : LinkState) (p : Prefix) (route : Route) :
    Option Message :=
  let m : Message :=
    { type := .update, pfx := p, interval := (e.config.updateMs / 10).toUInt16
      router := route.router, seqno := route.seqno, metric := route.metric }
  if p.family = 4 then
    if !allZero link.config.ipv4.val then
      some { m with addressFamily := 4, address := Octets.ofList 16 link.config.ipv4.val }
    else if e.config.ipv4ViaIpv6 then some { m with via6 := true }
    else none
  else some m

def retraction : Message :=
  { type := .update, pfx := p, metric := infinity
    interval := (e.config.updateMs / 10).toUInt16 }

def advertise (e : Engine) (id : UInt64) (p : Prefix) (explicit : Bool) : Engine :=
  match linkFor e id with
  | none => e
  | some link =>
    match routeFor e p with
    | none => queue env e id (retraction e p)
    | some route =>
      if route.unreachable then queue env e id (retraction e p)
      else if !explicit && route.link == id then e
      else
        match advertisement e link p route with
        | none => e
        | some m =>
          match recordSource env e p route with
          | (none, e) => rejected e
          | (some source, e) => queue env e id m (some (route, source))

def dump (e : Engine) (id : UInt64) (explicit : Bool) : Engine :=
  e.routes.foldl (fun e route => advertise env e id route.pfx explicit) e

def requestEntry (e : Engine) (p : Prefix) (router : UInt64) (seqno : UInt16)
    (targets : List UInt64) (fromLink : UInt64) (hops : UInt8) : RequestState :=
  { used := true, fromLink := fromLink, next := e.now + 1000, expires := e.now + 4000
    remaining := 2, targets := (targets.take env.limits.links).eraseDups
    message := { type := .seqRequest, pfx := p, router := router, seqno := seqno, hops := hops } }

def writeRequest (e : Engine) (slot : Nat) (q : RequestState) : Engine :=
  q.targets.foldl (fun e target => queue env e target q.message)
    { e with requests := e.requests.set slot q }

def request (e : Engine) (p : Prefix) (router : UInt64) (seqno : UInt16)
    (targets : List UInt64) (fromLink : UInt64) (hops : UInt8) : Engine :=
  match e.requests.findIdx? fun q =>
      q.used && q.message.router == router && q.message.pfx == p with
  | some slot =>
    if atLeast (e.requests.getD slot {}).message.seqno seqno then e
    else
      writeRequest env e slot (requestEntry env e p router seqno targets fromLink hops)
  | none =>
    match acquire env e.heap env.limits.requests RequestState.used {} e.requests with
    | (none, heap) => rejected { e with heap := heap }
    | (some (slot, requests), heap) =>
      writeRequest env { e with heap := heap, requests := requests } slot
        (requestEntry env e p router seqno targets fromLink hops)

def dropRoute (e : Engine) (p : Prefix) : Engine :=
  let entry : Drop := { used := true, pfx := p, expires := e.now + hold e.config.updateMs.toUInt64 }
  match e.drops.findIdx? fun drop => drop.used && drop.pfx == p with
  | some slot => { e with drops := e.drops.set slot entry }
  | none =>
    match acquire env e.heap env.limits.routes Drop.used {} e.drops with
    -- Never silently lose loop-suppression state.
    | (none, heap) => { e with heap := heap, stopped := true }
    | (some (slot, drops), heap) => { e with heap := heap, drops := drops.set slot entry }

/-! ## Route selection -/

/-- `sort_routes`: insertion sort. The sorted part is kept in reverse, so a
route moves past every route it is strictly below. -/
def sortRoutes (routes : List Route) : List Route :=
  (routes.foldl
    (fun sorted route => sorted.orderedInsert (fun a b => Prefix.cmp a.pfx b.pfx ≠ .lt) route)
    []).reverse

/-- Append a route, leaving selection when there is no room for it. -/
def pushRoute (e : Engine) (route : Route) : Except Engine Engine :=
  match reserve env e.heap env.limits.routes e.routesCapacity (e.routes.length + 1) with
  | (none, heap) => .error { e with heap := heap, stopped := true }
  | (some capacity, heap) =>
    .ok { e with heap := heap, routesCapacity := capacity, routes := e.routes ++ [route] }

def localRoute (entry : LocalPrefix) : Route :=
  { pfx := entry.pfx, router := e.config.router, seqno := e.seqno, metric := entry.metric
    isLocal := true }

def selectLocal (e : Engine) (entry : LocalPrefix) : Except Engine Engine :=
  if entry.used then pushRoute env e (localRoute e entry) else .ok e

def replaceRoute (route : Route) : List Route → List Route
  | [] => []
  | head :: rest =>
    if head.pfx == route.pfx then route :: rest else head :: replaceRoute route rest

variable (old : List Route)

/-- The link a prefix was selected on before this selection, 0 for none. -/
def previousLink (p : Prefix) : UInt64 :=
  match old.find? fun route => route.pfx == p with
  | none => 0
  | some route => route.link

def selectCandidate (e : Engine) (candidate : Candidate) :
    Except Engine Engine :=
  if !candidate.used || (localFor e candidate.route.pfx).isSome then .ok e
  else
    let (m, e) := metric env e candidate
    if m = infinity || !feasible e candidate then .ok e
    else
      let previous := previousLink old candidate.route.pfx
      let chosen := { candidate.route with metric := m }
      match routeFor e candidate.route.pfx with
      | none => pushRoute env e chosen
      | some route =>
        if m < route.metric ∨
            (m = route.metric ∧
              (candidate.route.link = previous ∨
                (route.link ≠ previous ∧ candidate.route.link < route.link))) then
          .ok { e with routes := replaceRoute chosen e.routes }
        else .ok e

/-- The links over which a lost prefix may still be asked for. -/
def requestTargets (e : Engine) (p : Prefix) : List UInt64 :=
  ((e.candidates.filter fun candidate =>
      candidate.used && candidate.route.pfx == p && candidate.advertised != infinity &&
        cost e (linkFor e candidate.route.link) != infinity).map
    (·.route.link)).take env.limits.links

def suppress (e : Engine) (lost : Route) : Engine :=
  if lost.unreachable || (routeFor e lost.pfx).isSome then e
  else
    let e := trigger (dropRoute env e lost.pfx) true
    match sourceFor e lost.pfx lost.router with
    | none => e
    | some source =>
      let targets := requestTargets env e lost.pfx
      if targets = [] then e
      else request env e lost.pfx lost.router (source.seqno + 1) targets 0 64

def selectDrop (e : Engine) (slot : Nat) : Except Engine Engine :=
  match e.drops[slot]? with
  | none => .ok e
  | some drop =>
    if !drop.used then .ok e
    else if (routeFor e drop.pfx).isSome || drop.expires ≤ e.now then
      .ok { e with drops := e.drops.set slot { drop with used := false } }
    else pushRoute env e { pfx := drop.pfx, metric := infinity, unreachable := true }

/-- Schedule triggered updates for a route that differs from the old table. -/
def noteChange (e : Engine) (route : Route) : Engine :=
  match old.find? fun was => was.pfx == route.pfx with
  | none => trigger e true
  | some was =>
    if was.router ≠ route.router ∨ was.unreachable ≠ route.unreachable then trigger e true
    else if was.metric ≠ route.metric ∨ was.seqno ≠ route.seqno then trigger e false
    else e

/-- A pending request is satisfied by a route of another router, or of this
one with a recent enough sequence number. -/
def satisfied (q : RequestState) (route : Route) : Bool :=
  !route.unreachable &&
    (route.router != q.message.router || atLeast route.seqno q.message.seqno)

def answerRequest (e : Engine) (slot : Nat) : Engine :=
  match e.requests[slot]? with
  | none => e
  | some q =>
    if !q.used then e
    else
      match routeFor e q.message.pfx with
      | none => e
      | some route =>
        if satisfied q route then
          let e := if q.fromLink ≠ 0 then advertise env e q.fromLink q.message.pfx true else e
          { e with requests := e.requests.set slot { q with used := false } }
        else e

/-- The part of `select_routes` that fills the routes table. -/
def selectTable (e : Engine) : Except Engine Engine := do
  let e ← e.locals.foldlM (selectLocal env) { e with routes := [] }
  let e ← e.candidates.foldlM (selectCandidate env old) e
  let e := old.foldl (suppress env) e
  let e ← (List.range e.drops.length).foldlM (selectDrop env) e
  return { e with routes := sortRoutes e.routes }

/-- The part of `select_routes` that acts on the new table. -/
def announceTable (e : Engine) : Engine :=
  let e := e.routes.foldl (noteChange old) e
  (List.range e.requests.length).foldl (answerRequest env) e

/-- `select_routes`. The error case of `selectTable` is `goto done`. -/
def selectRoutes (e : Engine) : Engine :=
  if e.stopped then e
  else
    let old := e.routes
    match reserve env e.heap env.limits.routes e.scratchCapacity old.length with
    | (none, heap) => { e with heap := heap, stopped := true }
    | (some capacity, heap) =>
      let e :=
        settle (do
          let e ← selectTable env old { e with heap := heap, scratchCapacity := capacity }
          return announceTable env old e)
      if e.stopped then { e with scratchCapacity := 0 } else e

end WendyLite.Babel
