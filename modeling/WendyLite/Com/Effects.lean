import WendyLite.Com.Messages
import WendyLite.Foundation.Loop

/-! # What the agent calls

The calls that leave `wendy_com_agent.c`: the function a command runs, console
input, and the calls that clean up after a client or a reply. Each function below
lists the calls of the function of the same name, in order, with the state in
which each is made; what becomes of the state is said by the modules before.
-/

namespace WendyLite.Com

/-- A call of the commands, the identity store or a delegate behind them. -/
inductive Effect where
  /-- What the switch of `_process_command` calls, with the client id if it takes one. -/
  | command (clientId : Nat) (params : Params)
  | confPushBegin (clientId size : Nat) (mode : ConfPushMode) (wifiOnly : Bool)
  | netTopologyRelease
  | consoleStdinData (clientId : Nat) (bytes : List UInt8)
  | netReplyComplete (token : Nat)
  | bluetoothPowerReplyComplete (token : Nat)
  | clientDisconnected (clientId : Nat)
  deriving DecidableEq, Repr

structure Moment where
  world : World
  slot : Fin linkCount
  effect : Effect

namespace World

/-! ## Links going down -/

variable (w : World)

variable (j : Fin linkCount)

def completeTokensEffects : List Moment :=
  let net := (w.agents j).netReplyToken
  let bluetooth := (w.agents j).bluetoothPowerReplyToken
  (if net = 0 then [] else [⟨w, j, .netReplyComplete net⟩]) ++
    (if bluetooth = 0 then [] else [⟨w, j, .bluetoothPowerReplyComplete bluetooth⟩])

variable (linkId : Nat)

def doneSendingMsgEffects (j : Fin linkCount) : List Moment :=
  if linkId ≠ (w.agents j).linkId then [] else w.completeTokensEffects j

def txDoneEffects : TxChunk → List Moment
  | .reply j _ _ true => w.doneSendingMsgEffects linkId j
  | _ => []

def closeEntryEffects (c : Fin channelsPerLinkCount) :
    List Moment :=
  let clientId := ((w.agents j).channels c).clientId
  if clientId = 0 then [] else [⟨w, j, .clientDisconnected clientId⟩]

def agentDisconnectEffects : List Moment :=
  w.completeTokensEffects j ++
    foldTrace (fun w c => w.closeEntry j c) (fun w c => w.closeEntryEffects j c)
      (w.completeTokens j) slots

variable (state : LinkState)

def onLinkStateChangedEffects : List Moment :=
  if state = .connected then []
  else
    match slots.find? fun j => (w.agents j).linkId = linkId with
    | none => []
    | some j => w.agentDisconnectEffects j

variable (i : Fin linkCount)

def clearTxQueueEffects : List Moment :=
  let linkId := (w.links i).id
  foldTrace (fun w chunk => w.txDone linkId false chunk) (fun w chunk => w.txDoneEffects linkId chunk)
    w (w.links i).txQueue

def lowerEffects (w : World) (i : Fin linkCount) (state : LinkState) : List Moment :=
  let linkId := (w.links i).id
  let w := (w.setLink i { w.links i with state }).clearRxQueue i
  w.clearTxQueueEffects i ++ (w.clearTxQueue i).onLinkStateChangedEffects linkId state

def removeLinkEffects : List Moment :=
  match slots.find? fun i => (w.links i).state ≠ .undefined ∧ (w.links i).id = linkId with
  | none => []
  | some i => w.lowerEffects i .undefined

def linkInterruptEffects (w : World) (i : Fin linkCount) (state : LinkState) : List Moment :=
  let linkId := (w.links i).id
  let lowered := w.lower i state
  let handler := (lowered.links i).interruptionHandler
  w.lowerEffects i state ++
    if handler = some true then
      (lowered.setLink i { lowered.links i with interruptionHandler := none }).removeLinkEffects
        linkId
    else []

def closeEffects : List Moment :=
  match w.getLink linkId with
  | none => []
  | some i => w.linkInterruptEffects i .disconnected

/-! ## Messages -/

def sendMessageEffects (answers : Answers) : List Moment :=
  match answers.sizing with
  | none => w.closeEffects (w.agents j).linkId
  | some needed =>
    match w.getBuffer j needed answers with
    | (w, none) => w.closeEffects (w.agents j).linkId
    | (w, some _) =>
      match answers.encoded with
      | none => w.closeEffects (w.agents j).linkId
      | some _ => []

def processHandshakeEffects (versionMajor : Option Nat)
    (answers : Answers) : List Moment :=
  if versionMajor ≠ some protocolVersionMajor then w.closeEffects (w.agents j).linkId
  else (w.setAgent j { w.agents j with handshakeDone := true }).sendMessageEffects j answers

def openChannelEffects (channel : Nat) (answers : Answers) :
    List Moment :=
  if (w.findChannel j channel).isSome then w.sendMessageEffects j answers
  else
    match slots.find? fun c => ((w.agents j).channels c).clientId = 0 with
    | some c => (w.openEntry j c channel).sendMessageEffects j answers
    | none => w.sendMessageEffects j answers

def closeChannelEffects (channel : Nat) (answers : Answers) :
    List Moment :=
  if channel = 0 then w.sendMessageEffects j answers
  else
    match w.findChannel j channel with
    | none => w.sendMessageEffects j answers
    | some c => w.closeEntryEffects j c ++ (w.closeEntry j c).sendMessageEffects j answers

def processServiceMessageEffects (command : ServiceCommand)
    (answers : Answers) : List Moment :=
  match command with
  | .openChannel => w.openChannelEffects j (w.agents j).rxChannel answers
  | .closeChannel => w.closeChannelEffects j (w.agents j).rxChannel answers
  | .other => w.sendMessageEffects j answers

def commandEffect (clientId : Nat) (params : Params)
    (dataSpan serverSpan : Option (List UInt8)) : Option Effect :=
  match params with
  | .bluetoothPowerSet hasConfig | .netSet hasConfig =>
    if hasConfig then some (.command clientId params) else none
  | .syncTime =>
    if (serverSpan.getD []).length < syncTimeServerSize then some (.command clientId params)
    else none
  | .appPushData _ | .confPushData _ =>
    if dataSpan.isSome then some (.command clientId params) else none
  | .confPushBegin size mode =>
    some (.confPushBegin clientId size mode (!w.linkIsLocal (w.agents j).linkId))
  | .unknown => none
  | _ => some (.command clientId params)

/-- The page of a topology command is released when its reply has been encoded. -/
def processCommandEffects (params : Params)
    (dataSpan serverSpan : Option (List UInt8)) (answers : Answers) : List Moment :=
  match w.findChannel j (w.agents j).rxChannel with
  | none => w.sendMessageEffects j answers
  | some c =>
    let entry := (w.agents j).channels c
    if w.refuses j params answers then w.sendMessageEffects j answers
    else
      let outcome := w.runCommand j ⟨entry.clientId, entry.opening⟩ params dataSpan serverSpan
        answers
      ((w.commandEffect j entry.clientId params dataSpan serverSpan).toList.map (⟨w, j, ·⟩)) ++
        outcome.1.sendMessageEffects j answers ++
        if params = .netTopology then [⟨w, j, .netTopologyRelease⟩] else []

def processEventEffects (data : EventData)
    (dataSpan : Option (List UInt8)) (answers : Answers) : List Moment :=
  let agent := w.agents j
  if agent.permission ≠ .full ∨
      (w.linkIsLocal agent.linkId = false ∧ answers.resetInProgress = true) then []
  else
    match w.findChannel j agent.rxChannel with
    | none => w.sendMessageEffects j answers
    | some c =>
      match data, dataSpan with
      | .consoleInput, some bytes =>
        [⟨w, j, .consoleStdinData (agent.channels c).clientId bytes⟩]
      | _, _ => []

variable (nanopb : Nanopb)

def processMessageEffects (w : World) (j : Fin linkCount) (body : List UInt8)
    (answers : Answers) : List Moment :=
  match decodeMessage nanopb body with
  | none => w.closeEffects (w.agents j).linkId
  | some decoded =>
    match decoded.message with
    | .handshake _ versionMajor => w.processHandshakeEffects j versionMajor answers
    | .command _ params =>
      if (w.agents j).handshakeDone then
        w.processCommandEffects j params decoded.dataSpan decoded.serverSpan answers
      else w.closeEffects (w.agents j).linkId
    | .service command => w.processServiceMessageEffects j command answers
    | .event data =>
      if (w.agents j).handshakeDone then
        w.processEventEffects j data decoded.dataSpan answers
      else w.closeEffects (w.agents j).linkId
    | .other => []

/-! ## Steps -/

def doneRecvBodyEffects (w : World) (linkId : Nat) (j : Fin linkCount)
    (bytes : List UInt8) (answers : Answers) : List Moment :=
  if linkId ≠ (w.agents j).linkId then []
  else processMessageEffects nanopb (w.frameDone j bytes) j bytes answers

def startRecvBodyEffects (answers : Answers) : List Moment :=
  let agent := w.agents j
  if agent.header.category ≠ 0 then []
  else if agent.header.bodySize = 0 then w.closeEffects agent.linkId
  else
    match w.getBuffer j agent.header.bodySize answers with
    | (w, none) => w.closeEffects (w.agents j).linkId
    | (_, some _) => []

def doneRecvHeaderEffects (j : Fin linkCount) (bytes : List UInt8)
    (answers : Answers) : List Moment :=
  let agent := w.agents j
  if linkId ≠ agent.linkId then []
  else
    let header := Header.ofBytes bytes
    let w := w.setAgent j { agent with header, headerBytes := bytes, skipped := [] }
    if header.magic ≠ agentMsgMagic ∨ header.version ≠ agentMsgVersion then w.closeEffects linkId
    else
      (w.setAgent j { w.agents j with rxChannel := header.channel.toNat }).startRecvBodyEffects j
        answers

def rxDoneEffects (w : World) (linkId : Nat) (chunk : RxChunk)
    (bytes : List UInt8) (answers : Answers) : List Moment :=
  match chunk.handler with
  | .header => w.doneRecvHeaderEffects linkId chunk.slot bytes answers
  | .body => doneRecvBodyEffects nanopb w linkId chunk.slot bytes answers
  | .discard => []

def linkDoRxEffects (w : World) (i : Fin linkCount) (read : Read)
    (answers : Answers) : List Moment :=
  let link := w.links i
  match link.rxQueue with
  | [] => []
  | chunk :: rest =>
    match read with
    | .bytes first more =>
      let got := (first :: more).take (chunk.size - link.rxBytes.length)
      let bytes := link.rxBytes ++ got
      if chunk.size ≤ link.rxBytes.length then []
      else if chunk.size ≤ bytes.length then
        let w := w.setLink i
          { link with rxQueue := rest, rxBytes := [], taken := link.taken ++ got }
        rxDoneEffects nanopb w link.id chunk bytes answers
      else []
    | .wantRead | .wantWrite => []
    | .eof => w.linkInterruptEffects i .disconnected
    | .error => w.linkInterruptEffects i .error

def linkDoTxEffects (write : Write) : List Moment :=
  let link := w.links i
  match link.txQueue with
  | [] => []
  | chunk :: rest =>
    match write with
    | .bytes more =>
      let offset := link.txOffset + min (more + 1) (chunk.size - link.txOffset)
      if chunk.size ≤ link.txOffset then []
      else if chunk.size ≤ offset then
        (w.setLink i { link with txQueue := rest, txOffset := 0 }).txDoneEffects link.id chunk
      else []
    | .wantRead | .wantWrite => []
    | .error => w.linkInterruptEffects i .error

def stepEffects (w : World) : Event → List Moment
  | .add _ _ _ => []
  | .remove linkId => w.removeLinkEffects linkId
  | .close linkId => w.closeEffects linkId
  | .stall i =>
    if (w.links i).state = .connected ∧ (w.links i).txQueue ≠ [] then
      w.linkInterruptEffects i .error
    else []
  | .send _ _ => []
  | .read i read answers => linkDoRxEffects nanopb w i read answers
  | .write i write => w.linkDoTxEffects i write

end World

end WendyLite.Com
