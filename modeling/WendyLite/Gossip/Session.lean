import WendyLite.Gossip.Pool

/-! # Sessions

The functions of `gossip.c` that exchange messages: claiming downloads,
delivering bodies, receiving and polling, and the calls a run consists of.
-/

namespace WendyLite.Gossip

open KeyedList

def emit (env : Env) (p : Pool) (owner : Nat) (m : Message) : Int × Pool :=
  let result := env.emit p.calls m
  (result, p.consulted.report (.emitted owner m result))

def refused (sent : Int) : Int := if sent < 0 then -1 else 1

/-! ## Claims -/

variable (s : Session)

variable (f : Fetch)

/-- The session may fetch this digest: it supplies it, and was not the last to
fail while others supply it too. -/
def supplies : Bool :=
  f.suppliers.any (fun q => q.owner == s.owner) &&
    !(f.avoid == s.owner && f.suppliers.any fun q => q.owner != s.owner)

variable (p : Pool)

def admits (p : Pool) (s : Session) (f : Fetch) : Bool :=
  let limit := p.config.downloadLimit
  decide ((p.pending.filter fun q => q.owner == s.owner).length < 4) &&
    decide ((p.pending.filter fun q => q.owner != 0).length < limit) &&
    (f.id.type == 1 ||
      decide ((p.pending.filter fun q => q.owner != 0 && q.id.type != 1).length <
        limit - p.config.routeDownloadReserve)) &&
    p.nextRequest != uint64Max

variable (env : Env)

def claim (p : Pool) (s : Session) (f : Fetch) (now : Nat) : Int × Pool :=
  if f.owner ≠ 0 ∨ f.id.type ≠ s.type then (0, p)
  else if supplies s f = false then (0, p)
  else
    let wanted := env.wantObject p.calls f.id now
    let p := p.consulted
    if wanted = false then (0, p)
    else
      let critical := env.criticalObject p.calls f.id
      let p := p.consulted
      if p.config.fifo ∧ objectFull p critical then (0, p)
      else if admits p s f = false then (0, p)
      else
        let request := p.nextRequest + 1
        let p := { p with nextRequest := request }
        match emit env p s.owner { id := f.id, op := .wgWant, request := request } with
        | (sent, p) =>
          if sent ≠ 0 then (refused sent, p)
          else
            (0, p.modifyFetch f.id fun f =>
              { f with owner := s.owner, request := request, progress := now })

def claimLoop (env : Env) (s : Session) (now : Nat) : List Id → Pool → Int × Pool
  | [], p => (0, p)
  | id :: rest, p =>
    match p.fetch? id with
    | none => claimLoop env s now rest p
    | some f =>
      match claim env p s f now with
      | (result, p) => if result ≠ 0 then (result, p) else claimLoop env s now rest p

def claimPending (p : Pool) (s : Session) (now : Nat) : Int × Pool :=
  claimLoop env s now (p.pending.map Fetch.id) p

/-! ## Delivery -/

/-- Run a completion callback that was lent `body`. -/
def runCompletion (env : Env) (body : List UInt8) : Completion → Pool → Int × Pool
  | .finish result, p => (result, p)
  | .offer type bytes shared expires now next, p =>
    match offer env p type (bytes.read body) bytes.isLent shared expires now with
    | (result, p) => runCompletion env body (next result) p

def beginDelivery (p : Pool) (f : Fetch) (body : List UInt8) : Pool :=
  { p with pending := erase Fetch.id f.id p.pending, delivering := some f }.consulted.report
    (.completed f.owner f.request f.id body)

def relinked (p : Pool) (f : Fetch) : Pool :=
  { p with delivering := none, pending := f :: p.pending }

def unpinned (born : Nat) : Pool :=
  p.modifyObject born fun o => { o with refs := o.refs - 1 }

/-- The callback has returned: the fetch is linked again, and stays only if the
body was deferred and not adopted. -/
def endDelivery (result : Int) : Int × Pool :=
  match p.delivering with
  | none => (result, p)
  | some f =>
    let p := relinked p f
    match f.accepted with
    | some born => (if result = defer then 0 else result, dropFetch (unpinned p born) f)
    | none => if result = defer then (defer, p) else (result, dropFetch p f)

def deliver (p : Pool) (f : Fetch) : Int × Pool :=
  let body := f.data.getD []
  let callback := env.complete p.calls f.id body
  match runCompletion env body callback (beginDelivery p f body) with
  | (result, p) => endDelivery p result

/-! ## Receiving -/

variable (type : UInt8)

def pendingLimit : Nat :=
  p.config.pending - if type = 2 then p.config.routePendingReserve else 0

/-- One idle service hint goes when the reserve is full. -/
def retireHint : Pool :=
  if type ≠ 2 ∧ p.config.routePendingReserve ≠ 0 ∧ pendingLimit p type ≤ p.pendingCount then
    match p.pending.find? fun f => f.id.type == 2 && f.owner == 0 with
    | none => p
    | some f => dropFetch p f
  else p

/-- A hint for a digest makes a fetch for it, unless the table is full. -/
def makeFetch (p : Pool) (id : Id) : Bool × Pool :=
  match p.fetch? id with
  | some _ => (true, p)
  | none =>
    let p := retireHint p id.type
    if pendingLimit p id.type ≤ p.pendingCount then (false, p)
    else
      let granted := env.allocate p.calls
      let p := p.consulted
      if granted = false then (false, p)
      else
        (true,
          { p with pending := p.pending ++ [{ id := id }], pendingCount := p.pendingCount + 1 })

def Fetch.renew (owner now : Nat) (f : Fetch) : Fetch :=
  let renewed := alter Supplier.owner owner (fun q => { q with validUntil := now + hintMs })
  { f with suppliers := renewed f.suppliers }

def Fetch.supply (owner now : Nat) (f : Fetch) : Fetch :=
  { f with suppliers := { owner := owner, validUntil := now + hintMs } :: f.suppliers }

def addSupplier (p : Pool) (id : Id) (owner now : Nat) : Bool × Pool :=
  match p.fetch? id with
  | none => (false, p)
  | some f =>
    if f.suppliers.any fun q => q.owner == owner then
      (true, p.modifyFetch id (Fetch.renew owner now))
    else if 4 ≤ f.suppliers.length then (false, p)
    else
      let granted := env.allocate p.calls
      let p := p.consulted
      if granted = false then (false, p)
      else (true, p.modifyFetch id (Fetch.supply owner now))

/-- The object, or the receipt of its retirement, is live. -/
def held (id : Id) (now : Nat) : Bool :=
  match findObject p id with
  | none => false
  | some o => decide (now < o.expires)

def receiveHave (p : Pool) (s : Session) (id : Id) (now : Nat) : Int × Pool :=
  if held p id now then (0, p)
  else
    let known := env.knownObject p.calls id
    let p := p.consulted
    if known then (0, p)
    else
      match makeFetch env p id with
      | (false, p) => (1, p)
      | (true, p) =>
        match addSupplier env p id s.owner now with
        | (false, p) => (1, p)
        | (true, p) => claimPending env p s now

def receiveWant (p : Pool) (s : Session) (m : Message) (now : Nat) :
    Int × Pool × Session :=
  if s.out.any fun t => t.request == m.request then (0, p, s)
  else
    let unavailable : Int × Pool × Session :=
      match emit env p s.owner { id := m.id, op := .wgUnavailable, request := m.request } with
      | (sent, p) => (sent, p, s)
    match findObject p m.id with
    | none => unavailable
    | some o =>
      match o.data with
      | none => unavailable
      | some body =>
        if o.expires ≤ now ∨ 4 ≤ s.serving ∨ p.config.uploadLimit ≤ p.serving then unavailable
        else
          let granted := env.allocate p.calls
          let p := p.consulted
          if granted = false then (1, p, s)
          else
            let p := p.modifyObject o.born fun o => { o with refs := o.refs + 1 }
            let p := { p with serving := p.serving + 1 }
            (0, p.report (.serving s.owner m.request o.id body),
              { s with
                serving := s.serving + 1
                out := s.out ++ [{ object := o.born, request := m.request }] })

def startBuffer (p : Pool) (f : Fetch) (total : Nat) : Bool × Pool :=
  match room env p f.id.type total with
  | (false, p) => (false, p)
  | (true, p) =>
    let granted := env.allocate p.calls
    let p := p.consulted
    if granted = false then (false, p)
    else
      (true, (p.modifyFetch f.id fun f => { f with data := some [], total := total }).charge
        f.id.type total)

def Fetch.append (data : List UInt8) (now : Nat) (f : Fetch) : Fetch :=
  { f with data := f.data.map (· ++ data), progress := now }

def receiveChunk (p : Pool) (f : Fetch) (m : Message) (now : Nat) : Int × Pool :=
  let p := p.modifyFetch f.id (Fetch.append m.data now)
  match p.fetch? f.id with
  | none => (0, p)
  | some f =>
    if f.size ≠ f.total then (0, p)
    else
      let identified := env.identified p.calls
      let p := p.consulted
      if identified = false ∨ env.digest f.id.type (f.data.getD []) ≠ f.id.hash then
        (-1, dropSupplier p f f.owner)
      else
        match deliver env p f with
        | (result, p) => (if result = defer then 0 else result, p)

def receiveData (p : Pool) (f : Fetch) (m : Message) (now : Nat) : Int × Pool :=
  if m.offset ≠ f.size ∨ (f.total ≠ 0 ∧ f.total ≠ m.total) then (-1, p)
  else if f.data.isSome then receiveChunk env p f m now
  else
    match startBuffer env p f m.total with
    | (false, p) => (0, dropSupplier p f f.owner)
    | (true, p) => receiveChunk env p f m now

/-- `wg_receive` after its first checks and the pruning. -/
def dispatch (p : Pool) (s : Session) (m : Message) (now : Nat) :
    Int × Pool × Session :=
  match m.op with
  | .wgGone =>
    match p.fetch? m.id with
    | none => (0, p, s)
    | some f => (0, dropSupplier p f s.owner, s)
  | .wgHave =>
    match receiveHave env p s m.id now with
    | (result, p) => (result, p, s)
  | .wgWant => receiveWant env p s m now
  | op =>
    match p.fetch? m.id with
    | none => (0, p, s)
    | some f =>
      if f.owner ≠ s.owner ∨ f.request ≠ m.request then (0, p, s)
      else if op = .wgUnavailable then (0, dropSupplier p f s.owner, s)
      else
        match receiveData env p f m now with
        | (result, p) => (result, p, s)

def wgReceive (p : Pool) (s : Session) (m : Message) (now : UInt64) :
    Int × Pool × Session :=
  if wgValidate m ≠ 0 then (-1, p, s)
  else if knownOp m.op = false then (0, p, s)
  else if m.id.type ≠ s.type ∨ uint64Max - hintMs < now.toNat then (-1, p, s)
  else dispatch env (wgPrune p now.toNat) s m now.toNat

/-! ## Polling -/

def earlierGone (gone : Option Object) (o : Object) : Option Object :=
  if o.id.type = s.type ∧ s.withdrawal < o.withdrawal then
    match gone with
    | none => some o
    | some first => some (if o.withdrawal < first.withdrawal then o else first)
  else gone

def nextGone (p : Pool) (s : Session) : Option Object := p.objects.foldl (earlierGone s) none

def endTransfer (p : Pool) (s : Session) (t : Transfer) (rest : List Transfer) : Pool × Session :=
  ({ unpinned p t.object with serving := p.serving - 1 },
    { s with out := rest, serving := s.serving - 1 })

def serve (p : Pool) (s : Session) (now : Nat) : Int × Pool × Session :=
  match s.out with
  | [] => (0, p, s)
  | t :: rest =>
    match p.object? t.object with
    | none => (0, p, s)
    | some o =>
      if o.expires ≤ now then
        match emit env p s.owner { id := o.id, op := .wgUnavailable, request := t.request } with
        | (sent, p) =>
          if sent ≠ 0 then (refused sent, p, s) else (0, endTransfer p s t rest)
      else
        let n := min (sizeSub o.size t.offset) chunk
        let m : Message :=
          { id := o.id, op := .wgData, request := t.request, offset := t.offset
            total := o.size, data := ((o.data.getD []).drop t.offset).take n }
        match emit env p s.owner m with
        | (sent, p) =>
          if sent ≠ 0 then (refused sent, p, s)
          else if t.offset + n = o.size then (0, endTransfer p s t rest)
          else (0, p, { s with out := rest ++ [{ t with offset := t.offset + n }] })

def wgPoll (p : Pool) (s : Session) (now : UInt64) : Int × Pool × Session :=
  let p := wgPrune p now.toNat
  match nextGone p s with
  | some gone =>
    match emit env p s.owner { id := gone.id, op := .wgGone } with
    | (sent, p) =>
      if sent ≠ 0 then (refused sent, p, s)
      else
        (0, p.report (.announced s.owner gone.withdrawal gone.id),
          { s with withdrawal := gone.withdrawal })
  | none =>
    match claimPending env p s now.toNat with
    | (claimed, p) => if claimed ≠ 0 then (claimed, p, s) else serve env p s now.toNat

/-! ## The other calls of a session -/

/-- `wg_open`: the session is cleared and gets a number of its own. -/
def wgOpen : Option (Pool × Session) :=
  if knownType type = false ∨ p.nextOwner = uint64Max then none
  else
    some ({ p with nextOwner := p.nextOwner + 1 },
      { owner := p.nextOwner + 1, type := type, withdrawal := p.withdrawal
        opened := p.withdrawal })

def closeFetch (owner : Nat) (p : Pool) (id : Id) : Pool :=
  match p.fetch? id with
  | none => p
  | some f =>
    let p := p.modifyFetch id (Fetch.keepSuppliers fun q => q.owner ≠ owner)
    let p := if f.owner = owner then resetFetch p f else p
    dropIfUnsupplied p id

def closeTransfer (t : Transfer) : Pool :=
  { unpinned p t.object with serving := p.serving - 1 }

def wgClose (p : Pool) (s : Session) : Pool :=
  let p := s.out.foldl closeTransfer p
  (p.pending.map Fetch.id).foldl (closeFetch s.owner) p

def wgDiscard (p : Pool) (s : Session) (id : Id) : Pool :=
  match p.fetch? id with
  | none => p
  | some f => if f.owner = s.owner then dropSupplier p f s.owner else p

def resumed (result : Int) : Int :=
  if result = defer then 0 else if result < 0 then -1 else 1

def wgResume (p : Pool) (s : Session) : Int × Pool :=
  match p.pending.find? fun f => f.owner == s.owner && f.full with
  | none => (0, p)
  | some f =>
    match deliver env p f with
    | (result, p) => (resumed result, p)

def wgResumeId (p : Pool) (s : Session) (id : Id) : Int × Pool :=
  match p.pending.find? fun f => f.owner == s.owner && f.id == id && f.full with
  | none => (resumeMissing, p)
  | some f =>
    match deliver env p f with
    | (result, p) => (resumed result, p)

/-! ## Runs -/

/-- A pool with its open sessions. A session that its owner forgets without
closing it stays, and is never used again. -/
structure World where
  pool : Pool
  sessions : List Session := []

namespace World

def session? (w : World) (owner : Nat) : Option Session := lookup Session.owner owner w.sessions

def putSession (w : World) (p : Pool) (s : Session) : World :=
  { pool := p, sessions := alter Session.owner s.owner (fun _ => s) w.sessions }

end World

inductive Call
  | openSession (type : UInt8)
  | closeSession (owner : Nat)
  | offer (type : UInt8) (bytes : List UInt8) (expires now : UInt64)
  | offerShared (type : UInt8) (bytes : List UInt8) (expires now : UInt64)
  | receive (owner : Nat) (message : Message) (now : UInt64)
  | poll (owner : Nat) (now : UInt64)
  | prune (now : UInt64)
  | reclaim (wanted : Nat)
  | forget (id : Id)
  | expire (id : Id)
  | discard (owner : Nat) (id : Id)
  | resume (owner : Nat)
  | resumeId (owner : Nat) (id : Id)

/-- One call, with its result; the calls that return nothing give 0. -/
def step (w : World) : Call → Int × World
  | .openSession type =>
    match wgOpen w.pool type with
    | none => (-1, w)
    | some (p, s) => (0, { pool := p, sessions := w.sessions ++ [s] })
  | .closeSession owner =>
    match w.session? owner with
    | none => (0, w)
    | some s =>
      (0, { pool := wgClose w.pool s, sessions := erase Session.owner owner w.sessions })
  | .offer type bytes expires now =>
    match wgOffer env w.pool type bytes expires now with
    | (result, p) => (result, { w with pool := p })
  | .offerShared type bytes expires now =>
    match wgOfferShared env w.pool type bytes expires now with
    | (result, p) => (result, { w with pool := p })
  | .receive owner m now =>
    match w.session? owner with
    | none => (-1, w)
    | some s =>
      match wgReceive env w.pool s m now with
      | (result, p, s) => (result, w.putSession p s)
  | .poll owner now =>
    match w.session? owner with
    | none => (-1, w)
    | some s =>
      match wgPoll env w.pool s now with
      | (result, p, s) => (result, w.putSession p s)
  | .prune now => (0, { w with pool := wgPrune w.pool now.toNat })
  | .reclaim wanted =>
    match wgReclaim env w.pool wanted with
    | (released, p) => (released, { w with pool := p })
  | .forget id => (0, { w with pool := wgForget w.pool id })
  | .expire id => (0, { w with pool := wgExpire w.pool id })
  | .discard owner id =>
    match w.session? owner with
    | none => (0, w)
    | some s => (0, { w with pool := wgDiscard w.pool s id })
  | .resume owner =>
    match w.session? owner with
    | none => (-1, w)
    | some s =>
      match wgResume env w.pool s with
      | (result, p) => (result, { w with pool := p })
  | .resumeId owner id =>
    match w.session? owner with
    | none => (-1, w)
    | some s =>
      match wgResumeId env w.pool s id with
      | (result, p) => (result, { w with pool := p })

def run (w : World) (calls : List Call) : World :=
  calls.foldl (fun w call => (step env w call).2) w

end WendyLite.Gossip
