import WendyLite.Gossip.Session

/-! # The moves of a pool

An abstract machine whose moves are the single changes a call can make, each
with the condition under which the code makes it. Every call of the model is a
sequence of these moves, so what the moves keep, the calls keep.
-/

namespace WendyLite.Gossip

open KeyedList

/-- What an offer has checked of the bytes it stores. -/
structure StoredOk (env : Env) (id : Id) (bytes : List UInt8) : Prop where
  known : knownType id.type = true
  nonempty : bytes ≠ []
  size : bytes.length ≤ objectMax
  digest : env.digest id.type bytes = id.hash

/-- The message is a chunk that the fetch waits for. -/
structure Answers (call : Call) (f : Fetch) (m : Message) : Prop where
  received : ∃ now, call = .receive f.owner m now
  valid : wgValidate m = 0
  op : m.op = .wgData
  same : m.id = f.id
  request : m.request = f.request
  offset : m.offset = f.size

/-- The changes within a pool. `call` is the call being executed. -/
inductive PoolMove (env : Env) (call : Call) (p : Pool) : Pool → Prop
  | consult : PoolMove env call p p.consulted
  | tick (now : Nat) : PoolMove env call p (p.tick now)
  | report (owner : Nat) (m : Message) (sent : Int) (quiet : sent ≠ 0 ∨ m.op = .wgUnavailable) :
      PoolMove env call p (p.report (.emitted owner m sent))
  | burnRequest : PoolMove env call p { p with nextRequest := p.nextRequest + 1 }
  | dropBody (o : Object) (member : o ∈ p.objects) (expired : o.expires ≤ p.clock)
      (free : borrowed p o = false) : PoolMove env call p (dropPayload p o)
  | remove (o : Object) (member : o ∈ p.objects) (expired : o.expires ≤ p.clock)
      (unused : o.refs = 0) (empty : o.data = none ∨ borrowed p o = true) :
      PoolMove env call p (p.removeObject o.born)
  | lapse (o : Object) (member : o ∈ p.objects)
      (allowed : o.data ≠ none ∨ p.config.fifo = false ∨ call = .expire o.id) :
      PoolMove env call p (p.modifyObject o.born fun o => { o with expires := 0 })
  | lower (o : Object) (member : o ∈ p.objects) (body : o.data ≠ none) (expires : Nat) :
      PoolMove env call p
        (p.modifyObject o.born fun o => { o with expires := min expires o.expires })
  | retire (o : Object) (member : o ∈ p.objects) (body : o.data ≠ none) (unused : o.refs = 0)
      (fifo : p.config.fifo = true) : PoolMove env call p (retirePayload p o)
  | enlist (o : Object) (bytes : List UInt8) (fresh : o.born = p.nextObject + 1)
      (absent : findObject p o.id = none) (body : o.data = some bytes) (unused : o.refs = 0)
      (unretired : o.withdrawal = 0) (fits : payloadFull p o.id.type bytes.length = false)
      (stored : StoredOk env o.id bytes) :
      PoolMove env call p ((enlist p o).charge o.id.type bytes.length)
  | adopt (f : Fetch) (o : Object) (bytes : List UInt8) (delivering : p.delivering = some f)
      (buffered : f.data = some bytes) (same : f.id = o.id) (fresh : o.born = p.nextObject + 1)
      (absent : findObject p o.id = none) (body : o.data = some bytes) (pinned : o.refs = 1)
      (unretired : o.withdrawal = 0) :
      PoolMove env call p
        (enlist { p with delivering := some { f with data := none, accepted := some o.born } } o)
  | drop (f : Fetch) (member : f ∈ p.pending) : PoolMove env call p (dropFetch p f)
  | reset (f : Fetch) (member : f ∈ p.pending) : PoolMove env call p (resetFetch p f)
  | trim (id : Id) (keep : Fetch → Supplier → Bool)
      (kept : ∀ f ∈ p.pending, f.id = id → f.owner ≠ 0 →
        ∀ q ∈ f.suppliers, q.owner = f.owner → keep f q = true) :
      PoolMove env call p
        (dropIfUnsupplied (p.modifyFetch id fun f => f.keepSuppliers (keep f)) id)
  | hint (id : Id) (owner now : Nat) (positive : owner ≠ 0) (absent : p.fetch? id = none)
      (calm : p.delivering = none) :
      PoolMove env call p
        { p with
          pending := p.pending ++ [Fetch.supply owner now { id := id }]
          pendingCount := p.pendingCount + 1 }
  | orphan (id : Id) (absent : p.fetch? id = none) (calm : p.delivering = none)
      (starved : ∃ count, env.allocate count = false) :
      PoolMove env call p
        { p with pending := p.pending ++ [{ id := id }], pendingCount := p.pendingCount + 1 }
  | supply (f : Fetch) (owner now : Nat) (positive : owner ≠ 0) (member : f ∈ p.pending)
      (absent : ∀ q ∈ f.suppliers, q.owner ≠ owner) (few : f.suppliers.length < 4) :
      PoolMove env call p (p.modifyFetch f.id (Fetch.supply owner now))
  | renew (id : Id) (owner now : Nat) :
      PoolMove env call p (p.modifyFetch id (Fetch.renew owner now))
  | claim (s : Session) (f : Fetch) (now : Nat) (member : f ∈ p.pending) (free : f.owner = 0)
      (positive : s.owner ≠ 0) (supplied : supplies s f = true) (admitted : admits p s f = true)
      (calm : p.delivering = none) :
      PoolMove env call p
        (({ p with nextRequest := p.nextRequest + 1 }.report (.emitted s.owner
            { id := f.id, op := .wgWant, request := p.nextRequest + 1 } 0)).modifyFetch f.id
          fun f => { f with owner := s.owner, request := p.nextRequest + 1, progress := now })
  | buffer (f : Fetch) (total : Nat) (member : f ∈ p.pending) (empty : f.data = none)
      (owned : f.owner ≠ 0) (positive : total ≠ 0)
      (fits : payloadFull p f.id.type total = false) (m : Message) (answers : Answers call f m)
      (isTotal : total = m.total) :
      PoolMove env call p
        ((p.modifyFetch f.id fun f => { f with data := some [], total := total }).charge
          f.id.type total)
  | extend (f : Fetch) (m : Message) (now : Nat) (member : f ∈ p.pending)
      (buffered : f.data ≠ none) (answers : Answers call f m)
      (total : f.total = 0 ∨ f.total = m.total)
      (checked : (f.append m.data now).full = true →
        env.digest f.id.type ((f.append m.data now).data.getD []) = f.id.hash) :
      PoolMove env call p (p.modifyFetch f.id (Fetch.append m.data now))
  | reject (f : Fetch) (data : List UInt8) (now : Nat) (member : f ∈ p.pending) :
      PoolMove env call p
        (resetFetch (p.modifyFetch f.id (Fetch.append data now)) (f.append data now))
  | deliver (f : Fetch) (member : f ∈ p.pending) (full : f.full = true)
      (calm : p.delivering = none) :
      PoolMove env call p (beginDelivery p f (f.data.getD []))
  | relink (f : Fetch) (delivering : p.delivering = some f) (open_ : f.accepted = none) :
      PoolMove env call p (relinked p f)
  | settle (f : Fetch) (born : Nat) (delivering : p.delivering = some f)
      (accepted : f.accepted = some born) :
      PoolMove env call p (dropFetch (unpinned (relinked p f) born) f)

def chunkMessage (o : Object) (t : Transfer) (n : Nat) : Message :=
  { id := o.id, op := .wgData, request := t.request, offset := t.offset, total := o.size
    data := ((o.data.getD []).drop t.offset).take n }

/-- The changes within a pool and its sessions. -/
inductive Move (env : Env) (call : Call) (w : World) : World → Prop
  | pool {p : Pool} (move : PoolMove env call w.pool p) : Move env call w { w with pool := p }
  | openSession (type : UInt8) :
      Move env call w
        { pool := { w.pool with nextOwner := w.pool.nextOwner + 1 }
          sessions := w.sessions ++ [{ owner := w.pool.nextOwner + 1, type := type
                                       withdrawal := w.pool.withdrawal
                                       opened := w.pool.withdrawal }] }
  | leave (s : Session) (member : s ∈ w.sessions) (idle : s.out = []) :
      Move env call w { w with sessions := erase Session.owner s.owner w.sessions }
  | startTransfer (s : Session) (o : Object) (m : Message) (body : List UInt8) (now : UInt64)
      (inSessions : s ∈ w.sessions) (member : o ∈ w.pool.objects) (holds : o.data = some body)
      (live : w.pool.clock < o.expires) (received : call = .receive s.owner m now)
      (op : m.op = .wgWant) (same : o.id = m.id)
      (fresh : ∀ t ∈ s.out, t.request ≠ m.request) (valid : wgValidate m = 0) :
      Move env call w
        (w.putSession
          ({ w.pool.modifyObject o.born fun o => { o with refs := o.refs + 1 } with
              serving := w.pool.serving + 1 }.report (.serving s.owner m.request o.id body))
          { s with
            serving := s.serving + 1
            out := s.out ++ [{ object := o.born, request := m.request }] })
  | sendChunk (s : Session) (t : Transfer) (rest : List Transfer) (o : Object) (n : Nat)
      (inSessions : s ∈ w.sessions) (out : s.out = t :: rest) (member : o ∈ w.pool.objects)
      (served : o.born = t.object) (live : w.pool.clock < o.expires)
      (amount : n = min (sizeSub o.size t.offset) chunk) (more : t.offset + n ≠ o.size) :
      Move env call w
        (w.putSession
          (w.pool.report (.emitted s.owner (chunkMessage o t n) 0))
          { s with out := rest ++ [{ t with offset := t.offset + n }] })
  | sendLast (s : Session) (t : Transfer) (rest : List Transfer) (o : Object) (n : Nat)
      (inSessions : s ∈ w.sessions) (out : s.out = t :: rest) (member : o ∈ w.pool.objects)
      (served : o.born = t.object) (live : w.pool.clock < o.expires)
      (amount : n = min (sizeSub o.size t.offset) chunk) (last : t.offset + n = o.size) :
      Move env call w
        (w.putSession
          (endTransfer (w.pool.report (.emitted s.owner (chunkMessage o t n) 0)) s t rest).1
          (endTransfer (w.pool.report (.emitted s.owner (chunkMessage o t n) 0)) s t rest).2)
  | endTransfer (s : Session) (t : Transfer) (rest : List Transfer) (inSessions : s ∈ w.sessions)
      (out : s.out = t :: rest) :
      Move env call w
        (w.putSession (endTransfer w.pool s t rest).1 (endTransfer w.pool s t rest).2)
  | announce (s : Session) (gone : Object) (inSessions : s ∈ w.sessions)
      (first : nextGone w.pool s = some gone) :
      Move env call w
        (w.putSession
          ((w.pool.report (.emitted s.owner { id := gone.id, op := .wgGone } 0)).report
            (.announced s.owner gone.withdrawal gone.id))
          { s with withdrawal := gone.withdrawal })

abbrev PoolMoves (env : Env) (call : Call) := Relation.ReflTransGen (PoolMove env call)

abbrev Moves (env : Env) (call : Call) := Relation.ReflTransGen (Move env call)

end WendyLite.Gossip
