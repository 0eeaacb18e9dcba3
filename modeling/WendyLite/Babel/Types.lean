import WendyLite.Foundation.Octets

/-! # The data model of the Babel engine

The structures of `wendy_babel.h`. A zero-initialised C structure is the
structure with all its default values. Integers keep the width they have in
the source, so their arithmetic wraps exactly where the C arithmetic does.
-/

namespace WendyLite.Babel

/-- The compile-time ceilings `WB_LINKS` to `WB_MESSAGES`. A checkpoint counts
sources and drops in sixteen bits, which every profile respects. -/
structure Limits where
  links : Nat
  routes : Nat
  candidates : Nat
  sources : Nat
  requests : Nat
  messages : Nat
  routes_le : routes ≤ 65535
  sources_le : sources ≤ 65535

namespace Limits

/-- The default profile of `wendy_babel.h` for a number of carriers. -/
def standard (links : Nat) : Limits where
  links := links
  routes := 128
  candidates := 128 * (if links > 6 then links else 6)
  sources := 512
  requests := 64
  messages := if links > 6 then 1536 else 1024
  routes_le := by decide
  sources_le := by decide

/-- The profile selected by `CONFIG_WENDY_NET_CONSTRAINED_PROFILE`. -/
def constrained (links : Nat) : Limits where
  links := links
  routes := 32
  candidates := 64
  sources := 64
  requests := 8
  messages := 96
  routes_le := by decide
  sources_le := by decide

end Limits

/-- `WB_INFINITY`, the metric of a route that does not exist. -/
def infinity : UInt16 := 65535

/-- `WB_PACKET_MAX`, the largest packet a link may be configured for. -/
def packetMax : Nat := 1099

inductive Status
  | ok
  | pending
  | invalid
  | limit
  | stopped
  | busy
  deriving DecidableEq

inductive MessageType
  | ackRequest
  | ack
  | hello
  | ihu
  | router
  | nextHop
  | update
  | request
  | seqRequest
  deriving DecidableEq

def MessageType.code : MessageType → UInt8
  | .ackRequest => 2
  | .ack => 3
  | .hello => 4
  | .ihu => 5
  | .router => 6
  | .nextHop => 7
  | .update => 8
  | .request => 9
  | .seqRequest => 10

/-- IPv4 bytes occupy the first four positions, with the remaining bytes zero. -/
structure Prefix where
  bytes : Octets 16 := default
  bits : UInt8 := 0
  family : UInt8 := 0
  deriving DecidableEq

instance : Inhabited Prefix := ⟨{}⟩

structure Message where
  pfx : Prefix := {}
  address : Octets 16 := default
  addressFamily : UInt8 := 0
  type : MessageType
  hops : UInt8 := 0
  unicast : Bool := false
  wildcard : Bool := false
  via6 : Bool := false
  seqno : UInt16 := 0
  metric : UInt16 := 0
  interval : UInt16 := 0
  opaqueValue : UInt16 := 0
  router : UInt64 := 0
  deriving DecidableEq

structure Route where
  pfx : Prefix := {}
  nextHop : Octets 16 := default
  nextFamily : UInt8 := 0
  router : UInt64 := 0
  link : UInt64 := 0
  seqno : UInt16 := 0
  metric : UInt16 := 0
  isLocal : Bool := false
  unreachable : Bool := false
  deriving DecidableEq

structure Link where
  id : UInt64 := 0
  localAddress : Octets 16 := default
  peer : Octets 16 := default
  ipv4 : Octets 4 := default
  cost : UInt16 := 0
  maxPacket : UInt16 := 0
  helloMs : UInt32 := 0
  deriving DecidableEq

/-- What is known of one kind of Hello of a neighbour: the entries of
`hello_expires`, `hello_rx` and `hello_seen` at one index. -/
structure HelloState where
  expires : UInt64 := 0
  rx : UInt16 := 0
  seen : Bool := false
  deriving DecidableEq

structure LinkState where
  config : Link := {}
  multicast : HelloState := {}
  unicast : HelloState := {}
  ihuExpires : UInt64 := 0
  nextHello : UInt64 := 0
  nextIhu : UInt64 := 0
  nextUpdate : UInt64 := 0
  lastDump : UInt64 := 0
  helloSeq : UInt16 := 0
  tx : UInt16 := 0
  dumped : Bool := false
  deriving DecidableEq

def LinkState.used (link : LinkState) : Bool := link.config.id != 0

structure Candidate where
  route : Route := {}
  expires : UInt64 := 0
  intervalMs : UInt32 := 0
  advertised : UInt16 := 0
  used : Bool := false
  refreshRequested : Bool := false
  deriving DecidableEq

structure Source where
  pfx : Prefix := {}
  router : UInt64 := 0
  expires : UInt64 := 0
  seqno : UInt16 := 0
  metric : UInt16 := 0
  used : Bool := false
  deriving DecidableEq

structure LocalPrefix where
  pfx : Prefix := {}
  metric : UInt16 := 0
  used : Bool := false
  deriving DecidableEq

structure Drop where
  pfx : Prefix := {}
  expires : UInt64 := 0
  used : Bool := false
  deriving DecidableEq

/-- `targets` holds the first `target_count` entries of the C array. -/
structure RequestState where
  message : Message := { type := .seqRequest }
  targets : List UInt64 := []
  fromLink : UInt64 := 0
  next : UInt64 := 0
  expires : UInt64 := 0
  remaining : UInt8 := 0
  used : Bool := false
  deriving DecidableEq

/-- A queued message. `basis` is not in the C structure: it keeps, for the
statements about the queue, the route an Update was made from and the source
entry recorded for it at that moment. No function reads it. -/
structure Queued where
  message : Message
  link : UInt64
  basis : Option (Route × Source) := none
  deriving DecidableEq

/-- `allow`, `allocate` and `deallocate` say whether the callback is set; what
the callbacks answer is in `Env`. -/
structure Config where
  router : UInt64 := 0
  seed : UInt64 := 0
  seqno : UInt16 := 0
  helloMs : UInt32 := 0
  updateMs : UInt32 := 0
  sourceMs : UInt32 := 0
  ipv4ViaIpv6 : Bool := false
  localOnly : Bool := false
  allow : Bool := false
  allocate : Bool := false
  deallocate : Bool := false
  deriving DecidableEq

structure Counters where
  received : UInt64 := 0
  malformed : UInt64 := 0
  rejected : UInt64 := 0
  sent : UInt64 := 0
  queueDrops : UInt64 := 0

/-- The engine's view of the allocator: how many requests it has made, which
selects the next answer in `Env`, and how many of them failed. -/
structure Heap where
  requests : Nat := 0
  failures : UInt64 := 0

/-- What the engine cannot decide by itself. The answers of the allocator and
of the `allow` callback are indexed by the number of the call, so a callback
may answer differently each time it is asked. -/
structure Env where
  limits : Limits
  allocate : Nat → Bool
  allow : Nat → UInt64 → Prefix → UInt16 → Bool

/-- The state of `struct wb_engine`. Tables are lists of slots whose length is
the table's capacity; `routes`, `before` and `messages` hold the live entries
only, their capacities standing beside them. -/
structure Engine where
  config : Config := {}
  now : UInt64 := 0
  rng : UInt64 := 0
  lastLink : UInt64 := 0
  revision : UInt64 := 0
  pending : UInt64 := 0
  triggerAt : UInt64 := 0
  seqno : UInt16 := 0
  repeats : UInt8 := 0
  trigger : Bool := false
  stopped : Bool := false
  ready : Bool := false
  links : List LinkState := []
  candidates : List Candidate := []
  sources : List Source := []
  locals : List LocalPrefix := []
  drops : List Drop := []
  requests : List RequestState := []
  routes : List Route := []
  routesCapacity : Nat := 0
  before : List Route := []
  beforeCapacity : Nat := 0
  scratchCapacity : Nat := 0
  messages : List Queued := []
  messagesCapacity : Nat := 0
  messageCursor : Nat := 0
  counters : Counters := {}
  heap : Heap := {}
  consultations : Nat := 0

end WendyLite.Babel
