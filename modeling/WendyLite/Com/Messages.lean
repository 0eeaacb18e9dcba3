import WendyLite.Com.Agent

/-! # Messages

The message handling of `wendy_com_agent.c`: replies, channel management,
commands and events, the receive handlers, and the two loops of the link layer
that move bytes, one call of `read` or `write` at a time. The event loop of
`_main` is a run of these steps with links coming and going in between.
-/

namespace WendyLite.Com

namespace World

/-! ## Replies -/

variable (w : World)

variable (j : Fin linkCount)

/-- `_get_buffer`. A larger request gives the old buffer back first. -/
def getBuffer (size : Nat) (answers : Answers) :
    World × Option Buffer :=
  if size ≤ staticBufSize then (w, some .staticBuf)
  else if (w.agents j).dynamicBufSize < size then
    if answers.allocates then
      (w.setAgent j { w.agents j with dynamicBufSize := size }, some .dynamicBuf)
    else (w.setAgent j { w.agents j with dynamicBufSize := 0 }, none)
  else (w, some .dynamicBuf)

def replyChunks (buffer : Buffer) (size : Nat) : List TxChunk :=
  if size > 0 then [.reply j .header headerSize false, .reply j buffer size true]
  else [.reply j .header headerSize true]

/-- `_start_sending_msg`. The reply goes out in the header the message came in. -/
def startSendingMsg (buffer : Buffer) (size : Nat)
    (reply : Reply) : World :=
  let agent := w.agents j
  let w := w.setAgent j
    { agent with
      header :=
        { magic := agentMsgMagic
          version := agentMsgVersion
          channel := UInt8.ofNat agent.rxChannel
          bodySize := size % 2 ^ 16 }
      answered := agent.answered ++ [(agent.frames.length - 1, reply)] }
  w.send agent.linkId (replyChunks j buffer size)

def sendMessage (reply : Reply) (answers : Answers) : World :=
  match answers.sizing with
  | none => w.close (w.agents j).linkId
  | some needed =>
    match w.getBuffer j needed answers with
    | (w, none) => w.close (w.agents j).linkId
    | (w, some buffer) =>
      match answers.encoded with
      | none => w.close (w.agents j).linkId
      | some size => w.startSendingMsg j buffer size reply

def sendChannelState (state : ChannelState)
    (answers : Answers) : World :=
  w.sendMessage j (.channelState state) answers

def processHandshake (handshakeId : Nat)
    (versionMajor : Option Nat) (answers : Answers) : World :=
  if versionMajor ≠ some protocolVersionMajor then w.close (w.agents j).linkId
  else
    let w := w.setAgent j { w.agents j with handshakeDone := true }
    w.sendMessage j (.handshake handshakeId) answers

/-! ## Channel management -/

def openChannel (channel : Nat) (answers : Answers) : World :=
  if (w.findChannel j channel).isSome then w.sendChannelState j .errorRejected answers
  else
    match slots.find? fun c => ((w.agents j).channels c).clientId = 0 with
    | some c => (w.openEntry j c channel).sendChannelState j .opened answers
    | none => w.sendChannelState j .errorRejected answers

def closeChannel (channel : Nat) (answers : Answers) : World :=
  if channel = 0 then w.sendChannelState j .errorRejected answers
  else
    match w.findChannel j channel with
    | none => w.sendChannelState j .errorRejected answers
    | some c => (w.closeEntry j c).sendChannelState j .closed answers

def processServiceMessage (command : ServiceCommand)
    (answers : Answers) : World :=
  match command with
  | .openChannel => w.openChannel j (w.agents j).rxChannel answers
  | .closeChannel => w.closeChannel j (w.agents j).rxChannel answers
  | .other => w.sendChannelState j .errorRejected answers

/-! ## Commands -/

def withPush (outcome : Push × Result) : World × Result :=
  (w.setPush outcome.1, outcome.2)

/-- The switch of `_process_command`: what a permitted command does and the result
it reports. -/
def runCommand (client : Client) (params : Params)
    (dataSpan serverSpan : Option (List UInt8)) (answers : Answers) : World × Result :=
  match params with
  | .bluetoothPowerSet hasConfig =>
    if hasConfig then
      (w.setAgent j { w.agents j with bluetoothPowerReplyToken := answers.token }, answers.result)
    else (w, .badState)
  | .netSet hasConfig =>
    if hasConfig then
      (w.setAgent j { w.agents j with netReplyToken := answers.token }, answers.result)
    else (w, .badState)
  | .enrollmentChallenge | .enrollmentReset => (w, if answers.pki then .ok else .badState)
  | .syncTime =>
    let fits := (serverSpan.getD []).length < syncTimeServerSize
    (w, if fits ∧ answers.pki = true then .ok else .badState)
  | .ping | .getDeviceIdentity | .getDeviceInfo => (w, .ok)
  | .appPushBegin size appType =>
    w.withPush (wcomCmdAppPushBegin client size appType answers.result w.push)
  | .appPushData offset =>
    match dataSpan with
    | some bytes => w.withPush (wcomCmdAppPushData client offset bytes answers.result w.push)
    | none => (w, .unknownError)
  | .appPushEnd => w.withPush (wcomCmdAppPushEnd client answers.result w.push)
  | .confPushBegin size mode =>
    w.withPush (wcomCmdConfPushBegin client size mode (!w.linkIsLocal (w.agents j).linkId)
      answers.result w.push)
  | .confPushData offset =>
    match dataSpan with
    | some bytes => w.withPush (wcomCmdConfPushData client offset bytes answers.result w.push)
    | none => (w, .unknownError)
  | .confPushEnd => w.withPush (wcomCmdConfPushEnd client answers.result w.push)
  | .unknown => (w, .unknownError)
  | .netTopology | .bluetoothPowerGet | .netGet | .reboot | .appStart | .appStop
  | .consoleAttach | .consoleDetach | .sensorLinkGetManifest | .sensorLinkSubscribe
  | .sensorLinkUnsubscribe => (w, answers.result)

def sensorCommand : Params → Bool
  | .sensorLinkGetManifest | .sensorLinkSubscribe | .sensorLinkUnsubscribe => true
  | _ => false

def physicalOnly : Params → Bool
  | .confPushBegin _ mode => mode ≠ .update
  | .enrollmentChallenge | .enrollmentReset | .syncTime => true
  | _ => false

def refuses (params : Params) (answers : Answers) : Bool :=
  let agent := w.agents j
  let isLocal := w.linkIsLocal agent.linkId
  (agent.permission ≠ .full ∧ ¬(agent.permission = .sensorOnly ∧ sensorCommand params = true)) ∨
    (isLocal = false ∧ answers.resetInProgress = true) ∨
    (physicalOnly params = true ∧ isLocal = false)

def processCommand (requestId : Nat) (params : Params)
    (dataSpan serverSpan : Option (List UInt8)) (answers : Answers) : World :=
  match w.findChannel j (w.agents j).rxChannel with
  | none => w.sendChannelState j .errorNotOpen answers
  | some c =>
    let entry := (w.agents j).channels c
    if w.refuses j params answers then
      w.sendMessage j (.response requestId .badState) answers
    else
      let outcome := w.runCommand j ⟨entry.clientId, entry.opening⟩ params dataSpan serverSpan
        answers
      outcome.1.sendMessage j (.response requestId outcome.2) answers

/-- `_process_event`. Standard input goes to the console, which is not modelled; no
event has a response, so the header read is posted here. -/
def processEvent (answers : Answers) : World :=
  let agent := w.agents j
  if agent.permission ≠ .full ∨
      (w.linkIsLocal agent.linkId = false ∧ answers.resetInProgress = true) then
    w.startRecvHeader j
  else
    match w.findChannel j agent.rxChannel with
    | none => w.sendChannelState j .errorNotOpen answers
    | some _ => w.startRecvHeader j

variable (nanopb : Nanopb)

/-- The decoding passes of `_process_message`: a message with a captured span is
decoded again with its callback preset. -/
def decodeMessage (body : List UInt8) : Option Decoded := do
  let message ← nanopb.decode body
  let decoded : Decoded := { message }
  let decoded ← match decoded.message with
    | .command _ (.appPushData _) => nanopb.decodeAppPushData body
    | _ => some decoded
  let decoded ← match decoded.message with
    | .command _ (.confPushData _) => nanopb.decodeConfPushData body
    | _ => some decoded
  let decoded ← match decoded.message with
    | .command _ .syncTime => nanopb.decodeSyncTime body
    | _ => some decoded
  match decoded.message with
  | .event .consoleInput | .event .consoleOutput => nanopb.decodeConsoleData body
  | _ => some decoded

def processMessage (w : World) (j : Fin linkCount) (body : List UInt8)
    (answers : Answers) : World :=
  match decodeMessage nanopb body with
  | none => w.close (w.agents j).linkId
  | some decoded =>
    match decoded.message with
    | .handshake handshakeId versionMajor =>
      w.processHandshake j handshakeId versionMajor answers
    | .command requestId params =>
      if (w.agents j).handshakeDone then
        w.processCommand j requestId params decoded.dataSpan decoded.serverSpan answers
      else w.close (w.agents j).linkId
    | .service command => w.processServiceMessage j command answers
    | .event _ =>
      if (w.agents j).handshakeDone then w.processEvent j answers
      else w.close (w.agents j).linkId
    -- A kind of message the device does not serve does not hold up the next one.
    | .other => w.startRecvHeader j

/-! ## Receive handlers -/

/-- Ghost: a frame has been received completely. -/
def frameDone (body : List UInt8) : World :=
  let agent := w.agents j
  w.setAgent j
    { agent with
      frames := agent.frames ++ [⟨agent.headerBytes, body⟩], headerBytes := [], skipped := [] }

def doneRecvBody (w : World) (linkId : Nat) (j : Fin linkCount)
    (bytes : List UInt8) (answers : Answers) : World :=
  if linkId ≠ (w.agents j).linkId then w
  else processMessage nanopb (w.frameDone j bytes) j bytes answers

def discardBody : World :=
  let agent := w.agents j
  if agent.discardRemaining = 0 then (w.frameDone j agent.skipped).startRecvHeader j
  else
    w.recv agent.linkId
      ⟨j, .staticBuf, min agent.discardRemaining staticBufSize, .discard⟩

def doneDiscardBody (linkId : Nat) (j : Fin linkCount) (bytes : List UInt8) :
    World :=
  let agent := w.agents j
  if linkId ≠ agent.linkId then w
  else
    (w.setAgent j
      { agent with
        discardRemaining := agent.discardRemaining - bytes.length
        skipped := agent.skipped ++ bytes }).discardBody j

def startRecvBody (answers : Answers) : World :=
  let agent := w.agents j
  if agent.header.category ≠ 0 then
    (w.setAgent j { agent with discardRemaining := agent.header.bodySize }).discardBody j
  else if agent.header.bodySize = 0 then w.close agent.linkId
  else
    match w.getBuffer j agent.header.bodySize answers with
    | (w, none) => w.close (w.agents j).linkId
    | (w, some buffer) =>
      w.recv (w.agents j).linkId ⟨j, buffer, agent.header.bodySize, .body⟩

def doneRecvHeader (linkId : Nat) (j : Fin linkCount) (bytes : List UInt8)
    (answers : Answers) : World :=
  let agent := w.agents j
  if linkId ≠ agent.linkId then w
  else
    let header := Header.ofBytes bytes
    let w := w.setAgent j { agent with header, headerBytes := bytes, skipped := [] }
    if header.magic ≠ agentMsgMagic ∨ header.version ≠ agentMsgVersion then w.close linkId
    else
      (w.setAgent j { w.agents j with rxChannel := header.channel.toNat }).startRecvBody j answers

def rxDone (w : World) (linkId : Nat) (chunk : RxChunk) (bytes : List UInt8)
    (answers : Answers) : World :=
  match chunk.handler with
  | .header => w.doneRecvHeader linkId chunk.slot bytes answers
  | .body => doneRecvBody nanopb w linkId chunk.slot bytes answers
  | .discard => w.doneDiscardBody linkId chunk.slot bytes

end World

/-! ## Moving bytes -/

inductive Read where
  | bytes (first : UInt8) (rest : List UInt8)
  | wantRead
  | wantWrite
  | eof
  | error
  deriving DecidableEq, Repr

inductive Write where
  | bytes (more : Nat)
  | wantRead
  | wantWrite
  | error
  deriving DecidableEq, Repr

namespace World

/-- One round of `_link_do_rx`. A read never returns more than the room left in
the first chunk. -/
def linkDoRx (nanopb : Nanopb) (w : World) (i : Fin linkCount) (read : Read)
    (answers : Answers) : World :=
  let link := w.links i
  match link.rxQueue with
  | [] => w
  | chunk :: rest =>
    match read with
    | .bytes first more =>
      let got := (first :: more).take (chunk.size - link.rxBytes.length)
      let bytes := link.rxBytes ++ got
      if chunk.size ≤ link.rxBytes.length then w.fail
      else if chunk.size ≤ bytes.length then
        let w := w.setLink i
          { link with rxQueue := rest, rxBytes := [], taken := link.taken ++ got }
        rxDone nanopb w link.id chunk bytes answers
      else w.setLink i { link with rxBytes := bytes, taken := link.taken ++ got }
    | .wantRead | .wantWrite => w
    | .eof => w.linkInterrupt i .disconnected
    | .error => w.linkInterrupt i .error

def linkDoTx (w : World) (i : Fin linkCount) (write : Write) : World :=
  let link := w.links i
  match link.txQueue with
  | [] => w
  | chunk :: rest =>
    match write with
    | .bytes more =>
      let offset := link.txOffset + min (more + 1) (chunk.size - link.txOffset)
      if chunk.size ≤ link.txOffset then w.fail
      else if chunk.size ≤ offset then
        (w.setLink i { link with txQueue := rest, txOffset := 0 }).txDone link.id true chunk
      else w.setLink i { link with txOffset := offset }
    | .wantRead | .wantWrite => w
    | .error => w.linkInterrupt i .error

/-- Chunks other components queue on a connected link, all of them nonempty. -/
def foreignSend (w : World) (i : Fin linkCount) (sizes : List Nat) : World :=
  if (w.links i).state = .connected ∧ sizes ≠ [] then
    w.send (w.links i).id (sizes.map fun size => .foreign (size + 1))
  else w

end World

/-- What can happen between two rounds of the event loop. -/
inductive Event where
  | add (permission : Permission) (isLocal removes : Bool)
  | remove (linkId : Nat)
  | close (linkId : Nat)
  | stall (i : Fin linkCount)
  | send (i : Fin linkCount) (sizes : List Nat)
  | read (i : Fin linkCount) (read : Read) (answers : Answers)
  | write (i : Fin linkCount) (write : Write)
  deriving Repr

variable (nanopb : Nanopb)

def World.step (w : World) : Event → World
  | .add permission isLocal removes => w.addLink permission isLocal removes
  | .remove linkId => w.removeLink linkId
  | .close linkId => w.close linkId
  -- A queued write that makes no progress for too long.
  | .stall i =>
    if (w.links i).state = .connected ∧ (w.links i).txQueue ≠ [] then
      w.linkInterrupt i .error
    else w
  | .send i sizes => w.foreignSend i sizes
  | .read i read answers => w.linkDoRx nanopb i read answers
  | .write i write => w.linkDoTx i write

def World.run (w : World) (events : List Event) : World :=
  events.foldl (World.step nanopb) w

def Reachable (w : World) : Prop :=
  ∃ events, w = World.run nanopb {} events

end WendyLite.Com
