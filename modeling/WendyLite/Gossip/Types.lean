import WendyLite.Foundation.Octets
import WendyLite.Foundation.KeyedList

/-! # The data model of the gossip cache

The structures of `wendy_net_gossip.h`. A pointer to an object is the number the
object was born with, a pointer to a fetch is its digest, and a pointer to a
session is its owner number: none of them is ever shared. Sizes and times are
natural numbers; the source never lets them overflow, and its subtractions of
sizes wrap here as they do there.
-/

namespace WendyLite.Gossip

def chunk : Nat := 1024

def objectMax : Nat := 40 * 1024

def idleMs : Nat := 30000

def hintMs : Nat := 120000

/-- `WG_DEFER`, the completion result that keeps the body in its download slot. -/
def defer : Int := 2

def resumeMissing : Int := 3

def uint64Max : Nat := 2 ^ 64 - 1

/-- A subtraction of two values of type `size_t`. -/
def sizeSub (left right : Nat) : Nat :=
  if right ≤ left then left - right else left + 2 ^ 32 - right

lemma sizeSub_of_le (fits : right ≤ left) :
    sizeSub left right = left - right :=
  if_pos fits

structure Id where
  type : UInt8
  hash : Octets 32
  deriving DecidableEq

def knownType (type : UInt8) : Bool := type == 1 || type == 2 || type == 3

inductive Op
  | wgHave
  | wgWant
  | wgUnavailable
  | wgData
  | wgGone
  | unknown (code : Nat)
  deriving DecidableEq

/-- A message; its size is the length of its data. -/
structure Message where
  id : Id
  op : Op
  request : Nat := 0
  offset : Nat := 0
  total : Nat := 0
  data : List UInt8 := []
  deriving DecidableEq

def knownOp : Op → Bool
  | .unknown _ => false
  | _ => true

/-- `wg_validate`: the fields each operation may carry. -/
def wgValidate (m : Message) : Int :=
  if knownOp m.op = false then 0
  else if knownType m.id.type = false then -1
  else
    match m.op with
    | .wgHave | .wgGone =>
      if m.request ≠ 0 ∨ m.offset ≠ 0 ∨ m.total ≠ 0 ∨ m.data.length ≠ 0 then -1 else 0
    | .wgWant | .wgUnavailable =>
      if m.request = 0 ∨ m.offset ≠ 0 ∨ m.total ≠ 0 ∨ m.data.length ≠ 0 then -1 else 0
    | _ =>
      if m.request = 0 ∨ m.total = 0 ∨ objectMax < m.total ∨ m.total ≤ m.offset ∨
          m.offset % chunk ≠ 0 then -1
      else if m.data.length = min (m.total - m.offset) chunk then 0
      else -1

/-- The limits of `struct wg_config`. `typeBytes` is indexed by the type itself. -/
structure Config where
  objects : Nat
  pending : Nat
  bytes : Nat
  routePendingReserve : Nat := 0
  downloads : Nat := 0
  uploads : Nat := 0
  routeDownloadReserve : Nat := 0
  fifo : Bool := false
  typeBytes : UInt8 → Nat := fun _ => 0
  reserveObjects : Nat := 0

namespace Config

variable (config : Config)

def downloadLimit : Nat :=
  if config.downloads = 0 then 16 else config.downloads

def uploadLimit : Nat :=
  if config.uploads = 0 then 16 else config.uploads

/-- The quota of a type: its own, or the whole pool. -/
def category (type : UInt8) : Nat :=
  if config.typeBytes type = 0 then config.bytes else config.typeBytes type

end Config

/-- A cached object. Its body is absent once it is released, and its size is
that of the body. -/
structure Object where
  id : Id
  expires : Nat
  born : Nat
  withdrawal : Nat := 0
  data : Option (List UInt8)
  refs : Nat := 0
  critical : Bool := false

def Object.size (o : Object) : Nat := (o.data.getD []).length

structure Supplier where
  owner : Nat
  validUntil : Nat
  deriving DecidableEq

/-- A download. The buffer holds `total` bytes, of which `data` have arrived. -/
structure Fetch where
  id : Id
  suppliers : List Supplier := []
  accepted : Option Nat := none
  owner : Nat := 0
  request : Nat := 0
  progress : Nat := 0
  avoid : Nat := 0
  data : Option (List UInt8) := none
  total : Nat := 0

def Fetch.size (f : Fetch) : Nat := (f.data.getD []).length

def Fetch.full (f : Fetch) : Bool := f.data.isSome && f.total != 0 && f.size == f.total

structure Transfer where
  object : Nat
  request : Nat
  offset : Nat := 0
  deriving DecidableEq

/-- A session. The last field is not in the source: the retirements before it was
opened. -/
structure Session where
  owner : Nat
  type : UInt8
  out : List Transfer := []
  serving : Nat := 0
  withdrawal : Nat := 0
  opened : Nat := 0

/-- What a pool does to the world around it. The last two only say more of what it
emits: the body a transfer sets out to serve, and the retirement that a `GONE`
announces. -/
inductive Effect
  | evicted (id : Id) (body : List UInt8)
  | emitted (owner : Nat) (message : Message) (result : Int)
  | completed (owner request : Nat) (id : Id) (body : List UInt8)
  | serving (owner request : Nat) (id : Id) (body : List UInt8)
  | announced (owner withdrawal : Nat) (id : Id)
  deriving DecidableEq

/-- A pool. The last four fields are not in the source: the number of times its
surroundings were consulted, the time it was last told, whether these times have
never gone back, and the effects so far. -/
structure Pool where
  config : Config
  objects : List Object := []
  pending : List Fetch := []
  delivering : Option Fetch := none
  nextOwner : Nat := 0
  nextRequest : Nat := 0
  objectCount : Nat := 0
  pendingCount : Nat := 0
  payloadBytes : Nat := 0
  serving : Nat := 0
  typePayload : UInt8 → Nat := fun _ => 0
  nextObject : Nat := 0
  withdrawal : Nat := 0
  calls : Nat := 0
  clock : Nat := 0
  steady : Bool := true
  log : List Effect := []

/-- The bytes an offer points to: a buffer of its own, or the first bytes of the
body that the running completion callback was lent. -/
inductive Bytes
  | own (bytes : List UInt8)
  | lent (size : Nat)

namespace Bytes

def read (bytes : Bytes) (body : List UInt8) : List UInt8 :=
  match bytes with
  | .own bytes => bytes
  | .lent size => body.take size

def isLent : Bytes → Bool
  | .own _ => false
  | .lent _ => true

end Bytes

/-- A completion callback: it may offer any number of objects, looking at each
result, before it returns. -/
inductive Completion
  | finish (result : Int)
  | offer (type : UInt8) (bytes : Bytes) (shared : Bool) (expires now : UInt64)
      (next : Int → Completion)

/-- The surroundings of a pool, which may answer differently each time. An absent
callback is one that always gives the answer its absence stands for. -/
structure Env where
  allocate : Nat → Bool
  digest : UInt8 → List UInt8 → Octets 32
  identified : Nat → Bool
  emit : Nat → Message → Int
  complete : Nat → Id → List UInt8 → Completion
  wantObject : Nat → Id → Nat → Bool
  criticalObject : Nat → Id → Bool
  knownObject : Nat → Id → Bool
  protectedObject : Nat → Id → Bool

end WendyLite.Gossip
