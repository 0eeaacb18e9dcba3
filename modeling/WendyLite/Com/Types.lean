import Mathlib.Data.Fintype.Basic
import Mathlib.Tactic.Ring
import WendyLite.Com.Push

/-! # The data model of the com task

The structures of `wendy_com_link.c` and `wendy_com_agent.c`. A link carries one
host connection and queues of chunks to receive into and to send from. An agent
link speaks the message protocol on one connected link, with a single receive
chunk and the two chunks of its reply. Other components send chunks of their own
on the same links.

A queued chunk is a copy of its descriptor. That is faithful as long as no
descriptor is rewritten while it is queued, which is what the module on
outstanding operations proves. Fields written `ghost` below are not in the
source: they record what happened and nothing reads them.
-/

namespace WendyLite.Com

abbrev linkCount : Nat := 4

/-- `_CHANNELS_PER_LINK_COUNT`. -/
abbrev channelsPerLinkCount : Nat := 4

/-- `sizeof(struct wcom_agent_msg_header)`. -/
def headerSize : Nat := 8

/-- `sizeof(static_buf)` of an agent link. -/
def staticBufSize : Nat := 256

def agentMsgMagic : UInt8 := 0xA5

def agentMsgVersion : UInt8 := 2

def protocolVersionMajor : Nat := 2

def syncTimeServerSize : Nat := 128

/-- The channel number of an entry that is not open, `(uint32_t)-1`. -/
def noChannel : Nat := 2 ^ 32 - 1

/-- `INT_MAX / WCOM_LINK_COUNT`, where the link generator starts again. -/
def linkGeneratorLimit : Nat := (2 ^ 31 - 1) / linkCount

inductive LinkState where
  | undefined
  | connected
  | disconnected
  | error
  deriving DecidableEq, Repr

inductive Permission where
  | none
  | full
  | sensorOnly
  deriving DecidableEq, Repr

/-- `struct wcom_agent_msg_header`, with `body_size` in host order. -/
structure Header where
  magic : UInt8 := 0
  version : UInt8 := 0
  category : UInt8 := 0
  channel : UInt8 := 0
  reserved : Nat := 0
  bodySize : Nat := 0
  deriving DecidableEq, Repr

def Header.ofBytes (bytes : List UInt8) : Header where
  magic := bytes.getD 0 0
  version := bytes.getD 1 0
  category := bytes.getD 2 0
  channel := bytes.getD 3 0
  reserved := (bytes.getD 4 0).toNat + 256 * (bytes.getD 5 0).toNat
  bodySize := 256 * (bytes.getD 6 0).toNat + (bytes.getD 7 0).toNat

inductive RxHandler where
  | header
  | body
  | discard
  deriving DecidableEq, Repr

inductive Buffer where
  | header
  | staticBuf
  | dynamicBuf
  deriving DecidableEq, Repr

structure RxChunk where
  slot : Fin linkCount
  buffer : Buffer
  size : Nat
  handler : RxHandler
  deriving DecidableEq, Repr

/-- A queued send: a chunk of the reply of agent link `slot`, where `last` marks
the one whose done handler is `_done_sending_msg`, or a chunk of another
component. -/
inductive TxChunk where
  | reply (slot : Fin linkCount) (buffer : Buffer) (size : Nat) (last : Bool)
  | foreign (size : Nat)
  deriving DecidableEq, Repr

def TxChunk.size : TxChunk → Nat
  | .reply _ _ size _ => size
  | .foreign size => size

def TxChunk.isReply : TxChunk → Bool
  | .reply .. => true
  | .foreign _ => false

/-- `struct wcom_link`. The interruption handler is present until it is taken;
its value says whether the owner removes the link in it. -/
structure Link where
  id : Nat := 0
  state : LinkState := .undefined
  permission : Permission := .none
  isLocal : Bool := false
  interruptionHandler : Option Bool := none
  txQueue : List TxChunk := []
  txOffset : Nat := 0
  rxQueue : List RxChunk := []
  /-- What the first receive chunk holds so far; its length is `rx_chunk_offset`. -/
  rxBytes : List UInt8 := []
  /-- Ghost: all bytes read from the peer. -/
  taken : List UInt8 := []
  deriving Repr

/-- `struct _agent_channel`. -/
structure Channel where
  channel : Nat := noChannel
  clientId : Nat := 0
  idGen : UInt32 := 0
  /-- Ghost: the number of this opening among all openings. -/
  opening : Nat := 0
  deriving Repr

inductive ChannelState where
  | opened
  | closed
  | errorNotOpen
  | errorRejected
  deriving DecidableEq, Repr

inductive Reply where
  | handshake (handshakeId : Nat)
  | channelState (state : ChannelState)
  | response (requestId : Nat) (result : Result)
  deriving DecidableEq, Repr

/-- Ghost: a message frame taken from the stream. -/
structure Frame where
  header : List UInt8
  body : List UInt8
  deriving DecidableEq, Repr

def Frame.category (frame : Frame) : UInt8 := (Header.ofBytes frame.header).category

def Frame.bytes (frame : Frame) : List UInt8 := frame.header ++ frame.body

/-- `struct _agent_link`. -/
structure AgentLink where
  linkId : Nat := 0
  permission : Permission := .none
  handshakeDone : Bool := false
  netReplyToken : Nat := 0
  bluetoothPowerReplyToken : Nat := 0
  rxChannel : Nat := 0
  header : Header := {}
  dynamicBufSize : Nat := 0
  discardRemaining : Nat := 0
  channels : Fin channelsPerLinkCount → Channel := fun _ => {}
  /-- Ghost: the header bytes of the frame whose body is being received. -/
  headerBytes : List UInt8 := []
  /-- Ghost: the part of that body already discarded. -/
  skipped : List UInt8 := []
  /-- Ghost: the frames received completely. -/
  frames : List Frame := []
  /-- Ghost: the replies queued, each with the index of the frame it answers. -/
  answered : List (Nat × Reply) := []

/-- The com task. `receipts` are the reply tokens completed so far. -/
structure World where
  links : Fin linkCount → Link := fun _ => {}
  agents : Fin linkCount → AgentLink := fun _ => {}
  push : Push := {}
  linkIdGenerator : Nat := 0
  receipts : List Nat := []
  /-- Ghost: the channel openings made so far. -/
  openings : Nat := 0
  /-- Ghost: an assertion of the source has failed. -/
  failed : Bool := false

/-! ## Messages -/

/-- `WendyComCommand.params`, with the fields the agent reads. -/
inductive Params where
  | netTopology
  | bluetoothPowerGet
  | bluetoothPowerSet (hasConfig : Bool)
  | netGet
  | netSet (hasConfig : Bool)
  | enrollmentChallenge
  | enrollmentReset
  | syncTime
  | ping
  | reboot
  | appPushBegin (size : Nat) (appType : AppType)
  | appPushData (offset : Nat)
  | appPushEnd
  | confPushBegin (size : Nat) (mode : ConfPushMode)
  | confPushData (offset : Nat)
  | confPushEnd
  | appStart
  | appStop
  | getDeviceIdentity
  | getDeviceInfo
  | consoleAttach
  | consoleDetach
  | sensorLinkGetManifest
  | sensorLinkSubscribe
  | sensorLinkUnsubscribe
  | unknown
  deriving DecidableEq, Repr

/-- `WendyComService.cmd`. -/
inductive ServiceCommand where
  | openChannel
  | closeChannel
  | other
  deriving DecidableEq, Repr

/-- `WendyComEvent.data`: console data for standard input, other console data, or
something else. -/
inductive EventData where
  | consoleInput
  | consoleOutput
  | other
  deriving DecidableEq, Repr

/-- `WendyComMessage`; `other` are the kinds a device does not serve. -/
inductive Message where
  | handshake (handshakeId : Nat) (versionMajor : Option Nat)
  | command (requestId : Nat) (params : Params)
  | service (command : ServiceCommand)
  | event (data : EventData)
  | other
  deriving DecidableEq, Repr

structure Decoded where
  message : Message
  dataSpan : Option (List UInt8) := none
  serverSpan : Option (List UInt8) := none
  deriving DecidableEq, Repr

/-- The nanopb decoder: the first pass and the passes with one callback preset,
each an arbitrary function of the body. -/
structure Nanopb where
  decode : List UInt8 → Option Message
  decodeAppPushData : List UInt8 → Option Decoded
  decodeConfPushData : List UInt8 → Option Decoded
  decodeSyncTime : List UInt8 → Option Decoded
  decodeConsoleData : List UInt8 → Option Decoded

/-- What the rest of the firmware answers while one chunk is handled: the
delegates, the identity store, the heap and the encoder. -/
structure Answers where
  result : Result := .ok
  token : Nat := 0
  pki : Bool := true
  resetInProgress : Bool := false
  allocates : Bool := true
  sizing : Option Nat := some 8
  encoded : Option Nat := some 8
  deriving Repr

end WendyLite.Com
