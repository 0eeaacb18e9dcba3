import WendyLite.Gossip.Types

/-! # Objects and quotas

The functions of `gossip.c` that move payload bytes: releasing bodies and receive
buffers, pruning, retirement and the admission of offers.
-/

namespace WendyLite.Gossip

open KeyedList

namespace Pool

/-! ## The two lists -/

variable (p : Pool)

def object? (born : Nat) : Option Object := lookup Object.born born p.objects

def fetch? (id : Id) : Option Fetch := lookup Fetch.id id p.pending

def modifyObject (born : Nat) (change : Object → Object) : Pool :=
  { p with objects := alter Object.born born change p.objects }

def modifyFetch (id : Id) (change : Fetch → Fetch) : Pool :=
  { p with pending := alter Fetch.id id change p.pending }

def removeObject (born : Nat) : Pool :=
  { p with objects := erase Object.born born p.objects, objectCount := p.objectCount - 1 }

def removeFetch (id : Id) : Pool :=
  { p with pending := erase Fetch.id id p.pending, pendingCount := p.pendingCount - 1 }

/-! ## The surroundings -/

def consulted : Pool := { p with calls := p.calls + 1 }

def report (effect : Effect) : Pool := { p with log := p.log ++ [effect] }

def tick (now : Nat) : Pool :=
  { p with clock := now, steady := p.steady && decide (p.clock ≤ now) }

/-! ## Charges -/

def charge (type : UInt8) (size : Nat) : Pool :=
  { p with
    payloadBytes := p.payloadBytes + size
    typePayload := Function.update p.typePayload type (p.typePayload type + size) }

def uncharge (type : UInt8) (size : Nat) : Pool :=
  { p with
    payloadBytes := sizeSub p.payloadBytes size
    typePayload := Function.update p.typePayload type (sizeSub (p.typePayload type) size) }

end Pool

variable (p : Pool)

variable (id : Id)

def findObject : Option Object := p.objects.find? fun o => o.id = id

variable (o : Object)

def dropPayload : Pool :=
  match o.data with
  | none => p
  | some body =>
    ((p.report (.evicted o.id body)).uncharge o.id.type body.length).modifyObject o.born
      fun o => { o with data := none }

variable (f : Fetch)

def unbuffer : Pool :=
  if f.data.isSome then p.uncharge f.id.type f.total else p

def dropFetch : Pool := (unbuffer p f).removeFetch f.id

def Fetch.reset : Fetch :=
  { f with data := none, total := 0, avoid := f.owner, owner := 0 }

def resetFetch : Pool := (unbuffer p f).modifyFetch f.id Fetch.reset

def Fetch.keepSuppliers (keep : Supplier → Bool) (f : Fetch) : Fetch :=
  { f with suppliers := f.suppliers.filter keep }

def dropIfUnsupplied : Pool :=
  match p.fetch? id with
  | none => p
  | some f => if f.suppliers = [] then dropFetch p f else p

def dropSupplier (owner : Nat) : Pool :=
  let p := if f.owner = owner then resetFetch p f else p
  let p := p.modifyFetch f.id (Fetch.keepSuppliers fun q => q.owner ≠ owner)
  dropIfUnsupplied p f.id

def forget (keepRetired : Bool) : Pool :=
  match findObject p id with
  | none => p
  | some o =>
    if keepRetired ∧ p.config.fifo ∧ o.data = none then p
    else
      let p := p.modifyObject o.born fun o => { o with expires := 0 }
      let p := dropPayload p o
      if o.refs = 0 then p.removeObject o.born else p

def wgForget : Pool := forget p id true

def wgExpire : Pool := forget p id false

def wgInit (config : Config) : Option Pool :=
  if config.objects = 0 ∨ config.pending = 0 ∨ config.bytes = 0 ∨
      config.objects ≤ config.reserveObjects ∨ config.pending ≤ config.routePendingReserve ∨
      config.downloadLimit ≤ config.routeDownloadReserve then none
  else some { config := config }

/-! ## Pruning -/

def borrowed : Bool :=
  match p.delivering with
  | none => false
  | some f => f.accepted == some o.born

variable (now : Nat)

def pruneObject (p : Pool) (born : Nat) : Pool :=
  match p.object? born with
  | none => p
  | some o =>
    if o.expires ≤ now then
      let p := if borrowed p o then p else dropPayload p o
      if o.refs = 0 then p.removeObject born else p
    else p

def lapsed (now : Nat) (f : Fetch) (q : Supplier) : Bool :=
  decide (q.validUntil ≤ now) && q.owner != f.owner

def idle (now : Nat) (f : Fetch) : Bool :=
  f.owner != 0 && decide (f.progress ≤ now) && decide (idleMs ≤ now - f.progress)

def pruneFetch (p : Pool) (id : Id) : Pool :=
  match p.fetch? id with
  | none => p
  | some f =>
    let p := if idle now f then resetFetch p f else p
    let p := p.modifyFetch id fun f => f.keepSuppliers fun q => !lapsed now f q
    dropIfUnsupplied p id

def wgPrune (now : Nat) : Pool :=
  let p := p.tick now
  let p := (p.objects.map Object.born).foldl (pruneObject now) p
  (p.pending.map Fetch.id).foldl (pruneFetch now) p

/-! ## Retirement -/

variable (env : Env)

variable (type : UInt8)

/-- One object of the scan for the oldest body. The policy is asked only about
objects that could go. -/
def olderPayload (state : Pool × Option Object) (o : Object) :
    Pool × Option Object :=
  let (p, oldest) := state
  if o.data = none ∨ o.refs ≠ 0 ∨ (type ≠ 0 ∧ o.id.type ≠ type) then (p, oldest)
  else if env.protectedObject p.calls o.id then (p.consulted, oldest)
  else
    match oldest with
    | none => (p.consulted, some o)
    | some old => (p.consulted, some (if o.born < old.born then o else old))

def oldestPayload (p : Pool) (type : UInt8) : Pool × Option Object :=
  p.objects.foldl (olderPayload env type) (p, none)

/-- The lease of a receipt, `WG_HINT_MS` beyond the object's. -/
def receiptExpiry (expires : Nat) : Nat :=
  if uint64Max - hintMs < expires then uint64Max else expires + hintMs

def retirePayload : Pool :=
  let p := dropPayload p o
  { p with withdrawal := p.withdrawal + 1 }.modifyObject o.born fun o =>
    { o with withdrawal := p.withdrawal + 1, expires := receiptExpiry o.expires }

def bodies : Nat := (p.objects.filter fun o => o.data.isSome).length

def reclaimLoop (env : Env) (wanted : Nat) : Nat → Nat → Pool → Nat × Pool
  | 0, released, p => (released, p)
  | fuel + 1, released, p =>
    if released < wanted ∧ p.withdrawal ≠ uint64Max then
      match oldestPayload env p 0 with
      | (p, none) => (released, p)
      | (p, some o) => reclaimLoop env wanted fuel (released + o.size) (retirePayload p o)
    else (released, p)

/-- `wg_reclaim`. With as much fuel as there are bodies, and one more round to
find none, the loop ends as it does in the source. -/
def wgReclaim (p : Pool) (wanted : Nat) : Nat × Pool :=
  if p.config.fifo then reclaimLoop env wanted (bodies p + 1) 0 p else (0, p)

def categoryFull (size : Nat) : Bool :=
  decide (sizeSub (p.config.category type) (p.typePayload type) < size)

def payloadFull (size : Nat) : Bool :=
  decide (sizeSub p.config.bytes p.payloadBytes < size) || categoryFull p type size

def roomLoop (env : Env) (type : UInt8) (size : Nat) : Nat → Pool → Bool × Pool
  | 0, p => (!payloadFull p type size, p)
  | fuel + 1, p =>
    if payloadFull p type size then
      if p.config.fifo = false ∨ p.withdrawal = uint64Max then (false, p)
      else
        match oldestPayload env p (if categoryFull p type size then type else 0) with
        | (p, none) => (false, p)
        | (p, some o) => roomLoop env type size fuel (retirePayload p o)
    else (true, p)

/-- `room`: true is the result 0 of the source. -/
def room (p : Pool) (type : UInt8) (size : Nat) : Bool × Pool :=
  if p.config.category type < size ∨ p.config.bytes < size then (false, p)
  else roomLoop env type size (bodies p + 1) p

/-! ## Offers -/

def objectFull (critical : Bool) : Bool :=
  if p.config.objects ≤ p.objectCount then true
  else if critical = false ∧ p.config.reserveObjects ≠ 0 then
    decide (p.config.objects - p.config.reserveObjects ≤
      (p.objects.filter fun o => !o.critical).length)
  else false

def resolveFetch : Pool :=
  match p.fetch? id with
  | none => p
  | some f => dropFetch p f

def adoptable (size : Nat) (lent shared : Bool) : Option (Fetch × List UInt8) :=
  match p.delivering with
  | none => none
  | some f =>
    match f.data with
    | none => none
    | some body =>
      if shared = false ∧ lent ∧ body.length = size ∧ f.id = id then some (f, body) else none

def enlist : Pool :=
  { p with
    objects := o :: p.objects, objectCount := p.objectCount + 1, nextObject := o.born }

/-- `offer`, with `lent` if the bytes are those the running callback was lent,
and `shared` for `wg_offer_shared`. -/
def offer (p : Pool) (type : UInt8) (bytes : List UInt8) (lent shared : Bool)
    (expires now : UInt64) : Int × Pool :=
  if bytes = [] ∨ objectMax < bytes.length ∨ expires ≤ now ∨ knownType type = false then (-1, p)
  else if env.identified p.calls = false then (-1, p.consulted)
  else
    let id : Id := { type := type, hash := env.digest type bytes }
    let p := wgPrune p.consulted now.toNat
    match findObject p id with
    | some o =>
      if o.data = none then (2, p)
      else
        let p := p.modifyObject o.born fun o => { o with expires := min expires.toNat o.expires }
        (0, resolveFetch p id)
    | none =>
      let critical := env.criticalObject p.calls id
      let p := p.consulted
      if objectFull p critical ∨ p.nextObject = uint64Max then (1, p)
      else
        match adoptable p id bytes.length lent shared with
        | some (f, body) =>
          let granted := env.allocate p.calls
          let p := p.consulted
          if granted = false then (1, p)
          else
            let o : Object :=
              { id := id, expires := expires.toNat, born := p.nextObject + 1
                data := some body, refs := 1, critical := critical }
            let p := { p with delivering := some { f with data := none, accepted := some o.born } }
            (0, resolveFetch (enlist p o) id)
        | none =>
          match room env p type bytes.length with
          | (false, p) => (1, p)
          | (true, p) =>
            let granted := env.allocate p.calls
            let p := p.consulted
            if granted = false then (1, p)
            else
              -- Shared bytes are retained, others are copied.
              let granted := shared || env.allocate p.calls
              let p := if shared then p else p.consulted
              if granted = false then (1, p)
              else
                let o : Object :=
                  { id := id, expires := expires.toNat, born := p.nextObject + 1
                    data := some bytes, critical := critical }
                (0, resolveFetch ((enlist p o).charge type bytes.length) id)

def wgOffer (p : Pool) (type : UInt8) (bytes : List UInt8) (expires now : UInt64) :
    Int × Pool :=
  offer env p type bytes false false expires now

def wgOfferShared (p : Pool) (type : UInt8) (bytes : List UInt8)
    (expires now : UInt64) : Int × Pool :=
  offer env p type bytes false true expires now

end WendyLite.Gossip
