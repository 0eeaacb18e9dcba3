import WendyLite.Com.Types

/-! # Links and agent links

The functions of `wendy_com_link.c` that queue chunks and bring links up and
down, and the message handling of `wendy_com_agent.c`, on the state of the com
task. An agent link is named by its slot, which is how the source finds it again
from a chunk of its own.
-/

namespace WendyLite.Com

def slots : List (Fin 4) := [0, 1, 2, 3]

@[simp] lemma mem_slots (slot : Fin 4) : slot ∈ slots := by
  revert slot
  decide

namespace World

/-! ## Fields of one slot -/

variable (w : World)

variable (i : Fin linkCount)

def setLink (link : Link) : World :=
  { w with links := Function.update w.links i link }

variable (j : Fin linkCount)

def setAgent (agent : AgentLink) : World :=
  { w with agents := Function.update w.agents j agent }

def setPush (push : Push) : World := { w with push }

variable (linkId : Nat)

def getLink : Option (Fin linkCount) :=
  let i : Fin linkCount := ⟨linkId % linkCount, Nat.mod_lt _ (by decide)⟩
  if (w.links i).id ≠ linkId ∨ (w.links i).state = .undefined then none else some i

/-- `wcom_link_get_permission`. -/
def linkGetPermission : Permission :=
  match w.getLink linkId with
  | none => .none
  | some i => if (w.links i).state = .connected then (w.links i).permission else .none

/-- `wcom_link_is_local`. -/
def linkIsLocal : Bool :=
  match w.getLink linkId with
  | none => false
  | some i => (w.links i).isLocal

/-- A failed assertion of the source. -/
def fail : World := { w with failed := true }

/-! ## Queueing -/

/-- `wcom_recv`. -/
def recv (chunk : RxChunk) : World :=
  match w.getLink linkId with
  | none => w.fail
  | some i =>
    if chunk.size = 0 then w.fail
    else w.setLink i { w.links i with rxQueue := (w.links i).rxQueue ++ [chunk] }

/-- `wcom_send`; only the first chunk's size is checked. -/
def send (chunks : List TxChunk) : World :=
  match w.getLink linkId with
  | none => w.fail
  | some i =>
    match chunks with
    | [] => w.fail
    | first :: _ =>
      if first.size = 0 then w.fail
      else w.setLink i { w.links i with txQueue := (w.links i).txQueue ++ chunks }

def startRecvHeader : World :=
  w.recv (w.agents j).linkId ⟨j, .header, headerSize, .header⟩

def completeToken (token : Nat) : World :=
  if token = 0 then w else { w with receipts := w.receipts ++ [token] }

def completeTokens : World :=
  let agent := w.agents j
  let w := w.setAgent j { agent with netReplyToken := 0, bluetoothPowerReplyToken := 0 }
  (w.completeToken agent.netReplyToken).completeToken agent.bluetoothPowerReplyToken

/-- `_done_sending_msg`. A reply barrier completes its token too, at once or when
the transport has drained. -/
def doneSendingMsg (j : Fin linkCount) (success : Bool) : World :=
  if linkId ≠ (w.agents j).linkId then w
  else
    let w := w.completeTokens j
    if success then w.startRecvHeader j else w

/-! ## Channels -/

/-- The id of a counter value, as `_generate_client_id` computes it. -/
def clientIdOf (counter : UInt32) (j : Fin linkCount) (c : Fin channelsPerLinkCount) : Nat :=
  ((counter.toNat * linkCount + j) * channelsPerLinkCount + c) % 2 ^ 31

variable (c : Fin channelsPerLinkCount)

/-- `_generate_client_id`: the new counter and the id. The loop of the source runs
again when the id is zero, and never a third time. -/
def generateClientId (idGen : UInt32) :
    UInt32 × Nat :=
  let counter := idGen + 1
  if clientIdOf counter j c ≠ 0 then (counter, clientIdOf counter j c)
  else (counter + 1, clientIdOf (counter + 1) j c)

def setChannel
    (entry : Channel) : World :=
  w.setAgent j { w.agents j with channels := Function.update (w.agents j).channels c entry }

def openEntry (channel : Nat) :
    World :=
  let generated := generateClientId j c ((w.agents j).channels c).idGen
  { w.setChannel j c
      { channel, clientId := generated.2, idGen := generated.1, opening := w.openings } with
    openings := w.openings + 1 }

def closeEntry : World :=
  let entry := (w.agents j).channels c
  let w :=
    if entry.clientId = 0 then w
    else w.setPush (wcomCmdClientDisconnected ⟨entry.clientId, entry.opening⟩ w.push)
  w.setChannel j c { entry with clientId := 0, channel := noChannel }

def findChannel (channel : Nat) :
    Option (Fin channelsPerLinkCount) :=
  slots.find? fun c =>
    ((w.agents j).channels c).clientId ≠ 0 ∧ ((w.agents j).channels c).channel = channel

/-! ## Links up and down -/

def freshAgent (linkId : Nat) : AgentLink :=
  let agent := w.agents j
  { agent with
    linkId
    permission := w.linkGetPermission linkId
    handshakeDone := false
    discardRemaining := 0
    netReplyToken := 0
    bluetoothPowerReplyToken := 0
    rxChannel := 0
    channels := fun c => { agent.channels c with clientId := 0, channel := noChannel }
    headerBytes := []
    skipped := []
    frames := []
    answered := [] }

def agentConnect (linkId : Nat) : World :=
  ((w.setAgent j (w.freshAgent j linkId)).openEntry j 0 0).startRecvHeader j

def agentDisconnect : World :=
  let w := slots.foldl (fun w c => w.closeEntry j c) (w.completeTokens j)
  w.setAgent j
    { w.agents j with
      handshakeDone := false, linkId := 0, permission := .none, dynamicBufSize := 0 }

variable (state : LinkState)

def onLinkStateChanged : World :=
  if state = .connected then
    match slots.find? fun j => (w.agents j).linkId = 0 with
    | none => w
    | some j => w.agentConnect j linkId
  else
    match slots.find? fun j => (w.agents j).linkId = linkId with
    | none => w
    | some j => w.agentDisconnect j

/-- `_clear_rx_queue`. A done handler of the agent ignores a failed receive. -/
def clearRxQueue : World :=
  w.setLink i { w.links i with rxQueue := [], rxBytes := [] }

/-- The done handler of a queued send. Those of other components are not the
agent's. -/
def txDone (success : Bool) : TxChunk → World
  | .reply j _ _ true => w.doneSendingMsg linkId j success
  | _ => w

def clearTxQueue : World :=
  let linkId := (w.links i).id
  let w := (w.links i).txQueue.foldl (fun w chunk => w.txDone linkId false chunk) w
  w.setLink i { w.links i with txQueue := [], txOffset := 0 }

/-- What an interruption and a removal of a link begin with: the new state, empty
queues and the state change handlers. -/
def lower : World :=
  let linkId := (w.links i).id
  let w := w.setLink i { w.links i with state }
  ((w.clearRxQueue i).clearTxQueue i).onLinkStateChanged linkId state

def removeSlot : World :=
  let w := w.lower i .undefined
  w.setLink i
    { w.links i with
      id := 0, isLocal := false, permission := .none, interruptionHandler := none }

/-- `wcom_remove_link`. -/
def removeLink : World :=
  match slots.find? fun i => (w.links i).state ≠ .undefined ∧ (w.links i).id = linkId with
  | none => w
  | some i => w.removeSlot i

def linkInterrupt : World :=
  let linkId := (w.links i).id
  let w := w.lower i state
  let handler := (w.links i).interruptionHandler
  let w := w.setLink i { w.links i with interruptionHandler := none }
  if handler = some true then w.removeLink linkId else w

/-- `wcom_close`. -/
def close : World :=
  match w.getLink linkId with
  | none => w
  | some i => w.linkInterrupt i .disconnected

def addLink (permission : Permission) (isLocal removes : Bool) : World :=
  if permission = .none then w
  else
    match slots.find? fun i => (w.links i).state = .undefined with
    | none => w
    | some i =>
      let next := w.linkIdGenerator + 1
      let generator := if next ≥ linkGeneratorLimit then 1 else next
      let linkId := generator * linkCount + i
      let w := { w with linkIdGenerator := generator }.setLink i
        { id := linkId
          state := .connected
          permission
          isLocal
          interruptionHandler := some removes }
      w.onLinkStateChanged linkId .connected

end World

end WendyLite.Com
