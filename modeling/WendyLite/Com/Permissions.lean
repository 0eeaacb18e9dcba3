import WendyLite.Com.Effects
import WendyLite.Com.Uploads

/-! # Permissions bound what a link can cause

An agent link copies the permission of its link when the link connects, and
remembers its handshake. Both are as they should be whenever the agent calls
anything, so a call is made only for a link that may cause it, after a handshake
on that same connection, and with the client id of the channel it is for.
-/

namespace WendyLite.Com

open List

/-! ## Bounded calls -/

def Effect.executes : Effect → Bool
  | .command .. | .confPushBegin .. | .netTopologyRelease | .consoleStdinData .. => true
  | .netReplyComplete _ | .bluetoothPowerReplyComplete _ | .clientDisconnected _ => false

def Effect.forSensors : Effect → Bool
  | .command _ params => World.sensorCommand params
  | .clientDisconnected _ => true
  | _ => false

def Effect.localOnly : Effect → Bool
  | .command _ .enrollmentChallenge | .command _ .enrollmentReset | .command _ .syncTime => true
  | .confPushBegin _ _ mode wifiOnly => mode ≠ .update ∨ wifiOnly = false
  | _ => false

def Effect.clientId? : Effect → Option Nat
  | .command clientId _ | .confPushBegin clientId .. | .consoleStdinData clientId _
  | .clientDisconnected clientId => some clientId
  | .netTopologyRelease | .netReplyComplete _ | .bluetoothPowerReplyComplete _ => none

variable (nanopb : Nanopb)

def Frame.IsHandshake (frame : Frame) : Prop :=
  frame.category = 0 ∧ ∃ decoded handshakeId, World.decodeMessage nanopb frame.body = some decoded ∧
    decoded.message = .handshake handshakeId (some protocolVersionMajor)

variable (agent : AgentLink)

/-- A handshake of the supported version has arrived since the link connected. -/
def Greeted : Prop :=
  ∃ frame ∈ agent.frames, frame.IsHandshake nanopb

def ArrivedOn (channel : Nat) : Prop :=
  ∃ frame, agent.frames.getLast? = some frame ∧
    channel = (Header.ofBytes frame.header).channel.toNat

/-- What link `i` entitles to, in the state a call is made in. -/
structure Bounded (nanopb : Nanopb) (m : Moment) (i : Fin linkCount) : Prop where
  serves : (m.world.agents m.slot).linkId = (m.world.links i).id
  greeted : m.effect.executes = true → Greeted nanopb (m.world.agents m.slot)
  sensorOnly : (m.world.links i).permission = .sensorOnly → m.effect.forSensors = true
  remote : (m.world.links i).isLocal = false → m.effect.localOnly = false
  client : ∀ clientId, m.effect.clientId? = some clientId →
    ∃ c, ((m.world.agents m.slot).channels c).clientId = clientId ∧
      (m.effect.executes = true →
        ArrivedOn (m.world.agents m.slot) ((m.world.agents m.slot).channels c).channel) ∧
      ∀ j c', ((m.world.agents j).channels c').clientId = clientId → j = m.slot ∧ c' = c

/-! ## What an agent link remembers of its link -/

/-- The agent's copy of a link's permission and what depends on it. -/
structure Vouches (nanopb : Nanopb) (granted : Permission) (agent : AgentLink) : Prop where
  permission : agent.permission = granted
  greeted : agent.handshakeDone = true → Greeted nanopb agent
  tokens : granted ≠ .full → agent.netReplyToken = 0 ∧ agent.bluetoothPowerReplyToken = 0

def Vouched (w : World) : Prop :=
  ∀ i j, Serves w i j → Vouches nanopb (w.links i).permission (w.agents j)

/-- A body is expected on the channel its header names. -/
def Routes : Prop :=
  agent.headerBytes ≠ [] → agent.rxChannel = (Header.ofBytes agent.headerBytes).channel.toNat

variable (w : World)

def Routed : Prop := ∀ j, (w.agents j).linkId ≠ 0 → Routes (w.agents j)

/-- An edit after which every agent link vouches for as much as before. -/
structure Unaltered (nanopb : Nanopb) (w w' : World) : Prop where
  links : ∀ i, (w'.links i).id = (w.links i).id ∧ (w'.links i).state = (w.links i).state ∧
    (w'.links i).permission = (w.links i).permission
  linkIds : ∀ j, (w'.agents j).linkId = (w.agents j).linkId
  agents : ∀ j granted, Vouches nanopb granted (w.agents j) → Vouches nanopb granted (w'.agents j)
  routes : ∀ j, Routes (w.agents j) → Routes (w'.agents j)

section Edits

variable {nanopb : Nanopb} {w w' w'' : World} {i j : Fin linkCount}

lemma Vouched.unaltered (vouched : Vouched nanopb w) (unaltered : Unaltered nanopb w w') :
    Vouched nanopb w' := by
  intro i j serves
  rw [(unaltered.links i).2.2]
  apply unaltered.agents j
  apply vouched
  refine ⟨?_, ?_⟩
  · rw [← (unaltered.links i).2.1]
    exact serves.1
  rw [← unaltered.linkIds j, ← (unaltered.links i).1]
  exact serves.2

lemma Routed.unaltered (routed : Routed w) (unaltered : Unaltered nanopb w w') : Routed w' := by
  intro j used
  apply unaltered.routes j
  apply routed
  rw [← unaltered.linkIds j]
  exact used

namespace Unaltered

lemma refl (w : World) : Unaltered nanopb w w :=
  ⟨fun _ => ⟨rfl, rfl, rfl⟩, fun _ => rfl, fun _ _ vouches => vouches, fun _ routes => routes⟩

lemma trans (first : Unaltered nanopb w w') (second : Unaltered nanopb w' w'') :
    Unaltered nanopb w w'' where
  links i := by
    rw [(second.links i).1, (second.links i).2.1, (second.links i).2.2]
    exact first.links i
  linkIds j := (second.linkIds j).trans (first.linkIds j)
  agents j granted vouches := second.agents j granted (first.agents j granted vouches)
  routes j routes := second.routes j (first.routes j routes)

lemma of_eq (links : w'.links = w.links) (agents : w'.agents = w.agents) :
    Unaltered nanopb w w' := by
  refine ⟨fun i => ?_, fun j => ?_, fun j => ?_, fun j => ?_⟩
  · rw [links]
    exact ⟨rfl, rfl, rfl⟩
  · rw [agents]
  · rw [agents]
    exact fun _ vouches => vouches
  rw [agents]
  exact fun routes => routes

lemma setLink (id : link.id = (w.links i).id)
    (state : link.state = (w.links i).state)
    (permission : link.permission = (w.links i).permission) :
    Unaltered nanopb w (w.setLink i link) := by
  refine ⟨fun i' => ?_, fun _ => rfl, fun _ _ vouches => vouches, fun _ routes => routes⟩
  by_cases same : i' = i
  · subst same
    simp [World.setLink, id, state, permission]
  simp [World.setLink, same]

lemma setAgent {agent : AgentLink} (linkId : agent.linkId = (w.agents j).linkId)
    (keeps : ∀ granted, Vouches nanopb granted (w.agents j) → Vouches nanopb granted agent)
    (routes : Routes (w.agents j) → Routes agent) : Unaltered nanopb w (w.setAgent j agent) := by
  have others : ∀ j', j' ≠ j → (w.setAgent j agent).agents j' = w.agents j' := by
    intro j' other
    simp [World.setAgent, other]
  have self : (w.setAgent j agent).agents j = agent := by simp [World.setAgent]
  refine ⟨fun _ => ⟨rfl, rfl, rfl⟩, fun j' => ?_, fun j' => ?_, fun j' => ?_⟩
  all_goals by_cases same : j' = j
  · rw [same, self, linkId]
  · rw [others j' same]
  · rw [same, self]
    exact keeps
  · rw [others j' same]
    exact fun _ vouches => vouches
  · rw [same, self]
    exact routes
  rw [others j' same]
  exact fun routes => routes

lemma setAgent_of_eq {agent : AgentLink} (linkId : agent.linkId = (w.agents j).linkId)
    (permission : agent.permission = (w.agents j).permission)
    (handshakeDone : agent.handshakeDone = (w.agents j).handshakeDone)
    (tokens : agent.netReplyToken = (w.agents j).netReplyToken ∧
      agent.bluetoothPowerReplyToken = (w.agents j).bluetoothPowerReplyToken)
    (headerBytes : agent.headerBytes = (w.agents j).headerBytes)
    (rxChannel : agent.rxChannel = (w.agents j).rxChannel)
    (frames : agent.frames = (w.agents j).frames) : Unaltered nanopb w (w.setAgent j agent) := by
  refine .setAgent linkId
    (fun _ vouches => ⟨permission.trans vouches.permission, ?_, ?_⟩) ?_
  · rw [handshakeDone, Greeted, frames]
    exact vouches.greeted
  · rw [tokens.1, tokens.2]
    exact vouches.tokens
  rw [Routes, Routes, headerBytes, rxChannel]
  exact fun routes => routes

end Unaltered

variable (w i j)

variable (linkId : Nat)

lemma recv_unaltered (chunk : RxChunk) : Unaltered nanopb w (w.recv linkId chunk) := by
  unfold World.recv
  split
  · exact .of_eq rfl rfl
  split
  · exact .of_eq rfl rfl
  exact .setLink rfl rfl rfl

lemma send_unaltered (chunks : List TxChunk) : Unaltered nanopb w (w.send linkId chunks) := by
  unfold World.send
  split
  · exact .of_eq rfl rfl
  split
  · exact .of_eq rfl rfl
  split
  · exact .of_eq rfl rfl
  exact .setLink rfl rfl rfl

lemma completeToken_unaltered (token : Nat) : Unaltered nanopb w (w.completeToken token) :=
  .of_eq (completeToken_eq w token).1 (completeToken_eq w token).2.1

lemma completeTokens_unaltered : Unaltered nanopb w (w.completeTokens j) := by
  refine .trans (.trans ?_ (completeToken_unaltered _ _)) (completeToken_unaltered _ _)
  exact .setAgent rfl
    (fun _ vouches => ⟨vouches.permission, vouches.greeted, fun _ => ⟨rfl, rfl⟩⟩)
    fun routes => routes

lemma doneSendingMsg_unaltered (success : Bool) :
    Unaltered nanopb w (w.doneSendingMsg linkId j success) := by
  unfold World.doneSendingMsg
  split
  · exact .refl w
  split
  · exact (completeTokens_unaltered w j).trans (recv_unaltered _ _ _)
  exact completeTokens_unaltered w j

lemma txDone_unaltered (success : Bool) (chunk : TxChunk) :
    Unaltered nanopb w (w.txDone linkId success chunk) := by
  unfold World.txDone
  split
  · exact doneSendingMsg_unaltered w _ linkId success
  exact .refl w

lemma clearTxQueue_unaltered : Unaltered nanopb w (w.clearTxQueue i) := by
  refine .trans ?_ (.setLink rfl rfl rfl)
  refine foldlRecOn (motive := fun w' => Unaltered nanopb w w') _ _ (.refl w) ?_
  intro w' unaltered chunk _
  exact unaltered.trans (txDone_unaltered w' _ false chunk)

lemma getBuffer_unaltered (size : Nat) (answers : Answers) :
    Unaltered nanopb w (w.getBuffer j size answers).1 := by
  obtain ⟨room, same | resized⟩ := getBuffer_agent (w := w) (j := j) size answers
  · rw [same]
    exact .refl w
  rw [resized]
  exact .setAgent_of_eq rfl rfl rfl ⟨rfl, rfl⟩ rfl rfl rfl

lemma startSendingMsg_unaltered (buffer : Buffer) (size : Nat) (reply : Reply) :
    Unaltered nanopb w (w.startSendingMsg j buffer size reply) := by
  unfold World.startSendingMsg
  refine .trans ?_ (send_unaltered _ _ _)
  exact .setAgent_of_eq rfl rfl rfl ⟨rfl, rfl⟩ rfl rfl rfl

variable (c : Fin channelsPerLinkCount)

lemma setChannel_unaltered (entry : Channel) : Unaltered nanopb w (w.setChannel j c entry) := by
  unfold World.setChannel
  exact .setAgent_of_eq rfl rfl rfl ⟨rfl, rfl⟩ rfl rfl rfl

lemma openEntry_unaltered (channel : Nat) : Unaltered nanopb w (w.openEntry j c channel) :=
  (setChannel_unaltered w j c _).trans (.of_eq rfl rfl)

lemma closeEntry_unaltered : Unaltered nanopb w (w.closeEntry j c) := by
  unfold World.closeEntry
  dsimp only
  split
  · exact setChannel_unaltered w j c _
  have told : ∀ push, Unaltered nanopb w (w.setPush push) := fun _ => .of_eq rfl rfl
  exact (told _).trans (setChannel_unaltered _ j c _)

lemma frameDone_unaltered (body : List UInt8) : Unaltered nanopb w (w.frameDone j body) := by
  refine .setAgent rfl (fun _ vouches => ⟨vouches.permission, fun greeted => ?_, vouches.tokens⟩)
    fun _ some => absurd rfl some
  obtain ⟨frame, mem, handshake⟩ := vouches.greeted greeted
  exact ⟨frame, mem_append_left _ mem, handshake⟩

end Edits

/-! ## Links going down -/

structure Standing (nanopb : Nanopb) (w : World) (i : Fin linkCount) : Prop where
  admitted : Admitted w
  used : (w.links i).id ≠ 0
  vouches : ∀ j, (w.agents j).linkId = (w.links i).id →
    Vouches nanopb (w.links i).permission (w.agents j)

section Teardown

variable {nanopb : Nanopb} {w w' : World} {i j : Fin linkCount}
  {busy : Option (Fin linkCount × Fin linkCount)}

lemma Wired.standing (wired : Wired w busy) (admitted : Admitted w)
    (vouched : Vouched nanopb w) (live : (w.links i).state ≠ .undefined) : Standing nanopb w i := by
  have used := (wired.ids i live).2
  refine ⟨admitted, used, fun j serves => ?_⟩
  obtain ⟨i', serves'⟩ := wired.linked j (serves ▸ used)
  obtain rfl := wired.link_eq serves'.defined live (serves'.2.symm.trans serves)
  exact vouched i' j serves'

lemma Standing.unaltered (standing : Standing nanopb w i) (unaltered : Unaltered nanopb w w')
    (admitted : Admitted w') : Standing nanopb w' i := by
  refine ⟨admitted, ?_, fun j serves => ?_⟩
  · rw [(unaltered.links i).1]
    exact standing.used
  rw [unaltered.linkIds j, (unaltered.links i).1] at serves
  rw [(unaltered.links i).2.2]
  exact unaltered.agents j _ (standing.vouches j serves)

lemma Admitted.client_unique (admitted : Admitted w) {c : Fin channelsPerLinkCount}
    (open_ : ((w.agents j).channels c).clientId ≠ 0) :
    ∀ j' c', ((w.agents j').channels c').clientId = ((w.agents j).channels c).clientId →
      j' = j ∧ c' = c := by
  intro j' c' same
  have isClient : IsClient w j c ⟨_, _⟩ := ⟨open_, rfl, rfl⟩
  have isClient' : IsClient w j' c' ⟨_, _⟩ := ⟨fun closed => open_ (same.symm.trans closed), rfl, rfl⟩
  exact admitted.slots_eq isClient' isClient same

section

variable (standing : Standing nanopb w i)
include standing

section

variable (serves : (w.agents j).linkId = (w.links i).id)
include serves

lemma Standing.completeTokens : ∀ m ∈ w.completeTokensEffects j, Bounded nanopb m i := by
  -- A reply token is held for a link with full permission only.
  have full : ∀ effect, effect.executes = false → effect.localOnly = false →
      effect.clientId? = none →
      ((w.agents j).netReplyToken ≠ 0 ∨ (w.agents j).bluetoothPowerReplyToken ≠ 0) →
      Bounded nanopb ⟨w, j, effect⟩ i := by
    intro effect passive remote anonymous held
    refine ⟨serves, by simp [passive], fun sensorOnly => ?_, fun _ => remote, by simp [anonymous]⟩
    have tokens := (standing.vouches j serves).tokens (by rw [sensorOnly]; decide)
    obtain net | bluetooth := held
    · exact absurd tokens.1 net
    exact absurd tokens.2 bluetooth
  intro m mem
  obtain net | bluetooth := mem_append.mp mem
  · split at net
    · cases net
    rename_i held
    obtain rfl := mem_singleton.mp net
    exact full _ rfl rfl rfl (.inl held)
  split at bluetooth
  · cases bluetooth
  rename_i held
  obtain rfl := mem_singleton.mp bluetooth
  exact full _ rfl rfl rfl (.inr held)

lemma Standing.closeEntry (c : Fin channelsPerLinkCount) :
    ∀ m ∈ w.closeEntryEffects j c, Bounded nanopb m i := by
  intro m mem
  simp only [World.closeEntryEffects] at mem
  split at mem
  · cases mem
  rename_i open_
  obtain rfl := mem_singleton.mp mem
  refine ⟨serves, by simp [Effect.executes], fun _ => rfl, fun _ => rfl, fun clientId same => ?_⟩
  cases same
  exact ⟨c, rfl, by simp [Effect.executes], standing.admitted.client_unique open_⟩

lemma Standing.agentDisconnect : ∀ m ∈ w.agentDisconnectEffects j, Bounded nanopb m i := by
  intro m mem
  obtain tokens | entries := mem_append.mp mem
  · exact standing.completeTokens serves m tokens
  let invariant (w : World) := Standing nanopb w i ∧ (w.agents j).linkId = (w.links i).id
  have kept : ∀ {w w' : World}, invariant w → Unaltered nanopb w w' → Admitted w' →
      invariant w' := by
    rintro w w' ⟨standing, serves⟩ unaltered admitted
    refine ⟨standing.unaltered unaltered admitted, ?_⟩
    rw [unaltered.linkIds j, (unaltered.links i).1, serves]
  have start : invariant (w.completeTokens j) :=
    kept ⟨standing, serves⟩ (completeTokens_unaltered w j)
      (standing.admitted.undisturbed (completeTokens_undisturbed w j))
  refine forall_mem_foldTrace invariant (Bounded nanopb · i) ?_ ?_ slots _ start m entries
  · intro w c holds
    exact kept holds (closeEntry_unaltered w j c) (holds.1.admitted.closeEntry c)
  intro w c holds
  exact holds.1.closeEntry holds.2 c

end

lemma Standing.clearTxQueue : ∀ m ∈ w.clearTxQueueEffects i, Bounded nanopb m i := by
  let invariant (now : World) := Standing nanopb now i ∧ (now.links i).id = (w.links i).id
  refine forall_mem_foldTrace invariant (Bounded nanopb · i) ?_ ?_ _ _ ⟨standing, rfl⟩
  · rintro now chunk ⟨standing, same⟩
    have unaltered : Unaltered nanopb now (now.txDone (w.links i).id false chunk) :=
      txDone_unaltered now (w.links i).id false chunk
    refine ⟨standing.unaltered unaltered
      (standing.admitted.undisturbed (txDone_undisturbed now _ false chunk)), ?_⟩
    rw [(unaltered.links i).1, same]
  rintro now chunk ⟨standing, same⟩ m mem
  simp only [World.txDoneEffects] at mem
  split at mem
  · simp only [World.doneSendingMsgEffects] at mem
    split at mem
    · cases mem
    rename_i serves
    exact standing.completeTokens ((not_not.mp serves).symm.trans same.symm) m mem
  cases mem

lemma Standing.lower (state : LinkState) : ∀ m ∈ w.lowerEffects i state, Bounded nanopb m i := by
  -- Neither the state of the link nor its queues are looked at.
  have cleared : Standing nanopb ((w.setLink i { w.links i with state }).clearRxQueue i) i := by
    refine ⟨?_, ?_, fun j serves => ?_⟩
    · exact (standing.admitted.undisturbed (setLink_undisturbed w i _)).undisturbed
        (clearRxQueue_undisturbed _ i)
    · simpa [World.clearRxQueue, World.setLink] using standing.used
    have before : (w.agents j).linkId = (w.links i).id := by
      simpa [World.clearRxQueue, World.setLink] using serves
    simpa [World.clearRxQueue, World.setLink] using standing.vouches j before
  have id : (((w.setLink i { w.links i with state }).clearRxQueue i).links i).id =
      (w.links i).id := by
    simp [World.clearRxQueue, World.setLink]
  intro m mem
  obtain tx | changed := mem_append.mp mem
  · exact cleared.clearTxQueue m tx
  simp only [World.onLinkStateChangedEffects] at changed
  split at changed
  · cases changed
  split at changed
  · cases changed
  rename_i j found
  have unaltered : Unaltered nanopb _
      (((w.setLink i { w.links i with state }).clearRxQueue i).clearTxQueue i) :=
    clearTxQueue_unaltered _ i
  have emptied := cleared.unaltered unaltered
    (cleared.admitted.undisturbed (clearTxQueue_undisturbed _ i))
  refine emptied.agentDisconnect ?_ m changed
  rw [(unaltered.links i).1, id]
  simpa using find?_some found

end

lemma Vouched.down (vouched : Vouched nanopb w) (wired : Wired w busy) (downed : Downed w w' i) :
    Vouched nanopb w' := by
  intro i' j serves
  have other : i' ≠ i := by
    rintro rfl
    exact downed.state serves.1
  have link := downed.others i' other
  have live : (w.links i').state ≠ .undefined := by
    rw [← link]
    exact serves.defined
  have kept : w'.agents j = w.agents j := by
    by_cases served : (w.agents j).linkId = (w.links i).id
    · have id := serves.2
      rw [downed.gone j served, link] at id
      exact absurd id.symm (wired.ids i' live).2
    exact downed.agents j served
  rw [link, kept]
  refine vouched i' j ⟨?_, ?_⟩
  · rw [← link]
    exact serves.1
  rw [← link, ← kept]
  exact serves.2

lemma Routed.down (downed : Downed w w' i)
    (others : ∀ j, (w.agents j).linkId ≠ 0 → (w.agents j).linkId ≠ (w.links i).id →
      Routes (w.agents j)) : Routed w' := by
  intro j used
  by_cases served : (w.agents j).linkId = (w.links i).id
  · exact absurd (downed.gone j served) used
  rw [downed.agents j served] at used ⊢
  exact others j used served

lemma Wired.linkInterrupt_bounded (wired : Wired w busy) (admitted : Admitted w)
    (vouched : Vouched nanopb w) (live : (w.links i).state ≠ .undefined) {state : LinkState}
    (down : state ≠ .connected) : ∀ m ∈ w.linkInterruptEffects i state, Bounded nanopb m i := by
  have standing := wired.standing admitted vouched live
  obtain ⟨lowered, _, idEq⟩ := lower_downed down (wired.agent_unique live)
  intro m mem
  obtain lowers | removes := mem_append.mp mem
  · exact standing.lower state m lowers
  split at removes
  · let quiet := (w.lower i state).setLink i
      { (w.lower i state).links i with interruptionHandler := none }
    change m ∈ quiet.removeLinkEffects (w.links i).id at removes
    unfold World.removeLinkEffects at removes
    split at removes
    · cases removes
    rename_i i' found
    obtain ⟨liveNow, idNow⟩ := find_link found
    have same : i' = i := by
      by_contra other
      have kept : quiet.links i' = w.links i' := by
        simpa [quiet, World.setLink, other] using lowered.others i' other
      rw [kept] at liveNow idNow
      exact other (wired.link_eq liveNow live idNow)
    subst same
    refine Standing.lower ⟨?_, ?_, fun j serves => ?_⟩ .undefined m removes
    · exact (admitted.lower standing.used state).undisturbed (setLink_undisturbed _ i' _)
    · rw [idNow]
      exact standing.used
    -- Nobody serves the link any more.
    rw [idNow] at serves
    change ((w.lower i' state).agents j).linkId = (w.links i').id at serves
    by_cases served : (w.agents j).linkId = (w.links i').id
    · rw [lowered.gone j served] at serves
      exact absurd serves.symm standing.used
    rw [lowered.agents j served] at serves
    exact absurd serves served
  cases removes

lemma Wired.close_bounded (wired : Wired w busy) (admitted : Admitted w)
    (vouched : Vouched nanopb w) (serves : Serves w i j) :
    ∀ m ∈ w.closeEffects (w.agents j).linkId, Bounded nanopb m i := by
  unfold World.closeEffects
  rw [wired.getLink_serves serves]
  exact wired.linkInterrupt_bounded admitted vouched serves.defined (by decide)

end Teardown

/-! ## Messages -/

structure Lawful (nanopb : Nanopb) (i : Fin linkCount) (after : World) (effects : List Moment) :
    Prop where
  vouched : Vouched nanopb after
  routed : Routed after
  bounded : ∀ m ∈ effects, Bounded nanopb m i

structure Ready (nanopb : Nanopb) (w : World) (i j : Fin linkCount) : Prop extends
    Answerable w i j where
  admitted : Admitted w
  vouched : Vouched nanopb w
  routed : Routed w

section Messages

variable {nanopb : Nanopb} {w w' : World} {i j : Fin linkCount} {rest : List UInt8}

lemma Lawful.silent (vouched : Vouched nanopb w) (routed : Routed w) : Lawful nanopb i w [] :=
  ⟨vouched, routed, by simp⟩

lemma Lawful.append {effects effects' : List Moment} (first : ∀ m ∈ effects, Bounded nanopb m i)
    (second : Lawful nanopb i w effects') :
    Lawful nanopb i w (effects ++ effects') := by
  refine ⟨second.vouched, second.routed, fun m mem => ?_⟩
  obtain earlier | later := mem_append.mp mem
  · exact first m earlier
  exact second.bounded m later

lemma Paused.close_lawful (paused : Paused w i j rest) (admitted : Admitted w)
    (vouched : Vouched nanopb w)
    (others : ∀ j', j' ≠ j → (w.agents j').linkId ≠ 0 → Routes (w.agents j')) :
    Lawful nanopb i (w.close (w.agents j).linkId) (w.closeEffects (w.agents j).linkId) := by
  have wired := paused.wired
  have live := paused.serves.defined
  refine ⟨?_, ?_, wired.close_bounded admitted vouched paused.serves⟩
  all_goals
    unfold World.close
    rw [wired.getLink_serves paused.serves]
  · exact vouched.down wired (linkInterrupt_downed wired live (by decide))
  refine Routed.down (linkInterrupt_downed wired live (by decide)) fun j' used apart => ?_
  refine others j' ?_ used
  rintro rfl
  exact apart paused.serves.2

section

variable (ready : Ready nanopb w i j)
include ready

namespace Ready

lemma close :
    Lawful nanopb i (w.close (w.agents j).linkId) (w.closeEffects (w.agents j).linkId) :=
  ready.toPaused.close_lawful ready.admitted ready.vouched fun j' _ used => ready.routed j' used

/-- An edit the pairing, the clients and the vouching are indifferent to. -/
lemma edit (answerable : Answerable w' i j)
    (admitted : Admitted w') (unaltered : Unaltered nanopb w w') : Ready nanopb w' i j :=
  ⟨answerable, admitted, ready.vouched.unaltered unaltered, ready.routed.unaltered unaltered⟩

lemma quiet (unaltered : Unaltered nanopb w w') : Lawful nanopb i w' [] :=
  .silent (ready.vouched.unaltered unaltered) (ready.routed.unaltered unaltered)

lemma used : (w.agents j).linkId ≠ 0 := by
  rw [ready.serves.2]
  exact ready.wired.id_ne_zero ready.serves

lemma vouches : Vouches nanopb (w.links i).permission (w.agents j) :=
  ready.vouched i j ready.serves

lemma getBuffer (size : Nat) (answers : Answers) :
    Ready nanopb (w.getBuffer j size answers).1 i j :=
  ready.edit (ready.toAnswerable.getBuffer size answers)
    (ready.admitted.undisturbed (getBuffer_undisturbed w j size answers))
    (getBuffer_unaltered w j size answers)

lemma sendMessage (reply : Reply) (answers : Answers) :
    Lawful nanopb i (w.sendMessage j reply answers) (w.sendMessageEffects j answers) := by
  unfold World.sendMessage World.sendMessageEffects
  cases answers.sizing with
  | none => exact ready.close
  | some needed =>
    have buffered := ready.getBuffer needed answers
    rcases got : w.getBuffer j needed answers with ⟨w', _ | buffer⟩
    · rw [got] at buffered
      simp only [got]
      exact buffered.close
    rw [got] at buffered
    simp only [got]
    cases answers.encoded with
    | none => exact buffered.close
    | some size => exact buffered.quiet (startSendingMsg_unaltered w' j buffer size reply)

lemma processHandshake (handshakeId : Nat) (versionMajor : Option Nat)
    (greeted : versionMajor = some protocolVersionMajor → Greeted nanopb (w.agents j))
    (answers : Answers) : Lawful nanopb i (w.processHandshake j handshakeId versionMajor answers)
      (w.processHandshakeEffects j versionMajor answers) := by
  unfold World.processHandshake World.processHandshakeEffects
  split
  · exact ready.close
  rename_i supported
  have shaken : Ready nanopb (w.setAgent j { w.agents j with handshakeDone := true }) i j := by
    refine ready.edit (ready.toAnswerable.setAgent rfl rfl rfl)
      (ready.admitted.undisturbed (setAgent_undisturbed w j rfl rfl))
      (.setAgent rfl (fun _ vouches => ?_) fun routes => routes)
    exact ⟨vouches.permission, fun _ => greeted (not_not.mp supported), vouches.tokens⟩
  exact shaken.sendMessage _ _

end Ready

end

variable {c : Fin channelsPerLinkCount}

lemma Ready.openEntry (ready : Ready nanopb w i j)
    (vacant : ((w.agents j).channels c).clientId = 0) (channel : Nat) :
    Ready nanopb (w.openEntry j c channel) i j :=
  ready.edit (ready.toAnswerable.openEntry c channel)
    (ready.admitted.openEntry ready.used vacant channel) (openEntry_unaltered w j c channel)

lemma Ready.closeEntry (ready : Ready nanopb w i j) (c : Fin channelsPerLinkCount) :
    Ready nanopb (w.closeEntry j c) i j :=
  ready.edit (ready.toAnswerable.closeEntry c) (ready.admitted.closeEntry c)
    (closeEntry_unaltered w j c)

lemma Ready.processServiceMessage (ready : Ready nanopb w i j) (command : ServiceCommand)
    (answers : Answers) : Lawful nanopb i (w.processServiceMessage j command answers)
      (w.processServiceMessageEffects j command answers) := by
  cases command with
  | openChannel =>
    simp only [World.processServiceMessage, World.openChannel,
      World.processServiceMessageEffects, World.openChannelEffects]
    split
    · exact ready.sendMessage _ _
    cases found : slots.find? fun c => ((w.agents j).channels c).clientId = 0 with
    | none => exact ready.sendMessage _ _
    | some c =>
      have vacant : ((w.agents j).channels c).clientId = 0 := by
        simpa using find?_some found
      exact (ready.openEntry vacant _).sendMessage _ _
  | closeChannel =>
    simp only [World.processServiceMessage, World.closeChannel,
      World.processServiceMessageEffects, World.closeChannelEffects]
    split
    · exact ready.sendMessage _ _
    cases w.findChannel j (w.agents j).rxChannel with
    | none => exact ready.sendMessage _ _
    | some c =>
      have standing := ready.wired.standing ready.admitted ready.vouched ready.serves.defined
      exact .append (standing.closeEntry ready.serves.2 c)
        ((ready.closeEntry c).sendMessage _ _)
  | other => exact ready.sendMessage _ _

lemma findChannel_some (found : w.findChannel j channel = some c) :
    ((w.agents j).channels c).clientId ≠ 0 ∧ ((w.agents j).channels c).channel = channel := by
  simpa [World.findChannel] using find?_some found

lemma Ready.isLocal (ready : Ready nanopb w i j) :
    w.linkIsLocal (w.agents j).linkId = (w.links i).isLocal := by
  unfold World.linkIsLocal
  rw [ready.wired.getLink_serves ready.serves]

lemma Ready.bounded (ready : Ready nanopb w i j) (greeted : (w.agents j).handshakeDone = true)
    (arrived : ArrivedOn (w.agents j) (w.agents j).rxChannel)
    (found : w.findChannel j (w.agents j).rxChannel = some c) {effect : Effect}
    (client : ∀ clientId, effect.clientId? = some clientId →
      clientId = ((w.agents j).channels c).clientId)
    (sensorOnly : (w.agents j).permission = .sensorOnly → effect.forSensors = true)
    (remote : (w.links i).isLocal = false → effect.localOnly = false) :
    Bounded nanopb ⟨w, j, effect⟩ i := by
  obtain ⟨open_, number⟩ := findChannel_some found
  refine ⟨ready.serves.2, fun _ => ready.vouches.greeted greeted, fun only => sensorOnly ?_, remote,
    fun clientId same => ⟨c, (client clientId same).symm, fun _ => ?_, ?_⟩⟩
  · rw [ready.vouches.permission]
    exact only
  · rw [number]
    exact arrived
  rw [client clientId same]
  exact ready.admitted.client_unique open_

variable {params : Params}

lemma Ready.permitted (ready : Ready nanopb w i j)
    (permitted : ¬w.refuses j params answers = true) : ((w.agents j).permission = .full ∨
        (w.agents j).permission = .sensorOnly ∧ World.sensorCommand params = true) ∧
      ((w.links i).isLocal = false → World.physicalOnly params = false) := by
  simp only [World.refuses, ready.isLocal, decide_eq_true_eq, not_or] at permitted
  refine ⟨?_, fun remote => ?_⟩
  · by_cases full : (w.agents j).permission = .full
    · exact .inl full
    exact .inr (by tauto)
  have physical := permitted.2.2
  simpa [remote] using physical

lemma Ready.commandEffect (ready : Ready nanopb w i j)
    (greeted : (w.agents j).handshakeDone = true)
    (arrived : ArrivedOn (w.agents j) (w.agents j).rxChannel)
    (found : w.findChannel j (w.agents j).rxChannel = some c)
    {answers : Answers} (permitted : ¬w.refuses j params answers = true)
    {dataSpan serverSpan : Option (List UInt8)} {effect : Effect}
    (calls : w.commandEffect j ((w.agents j).channels c).clientId params dataSpan serverSpan =
      some effect) : Bounded nanopb ⟨w, j, effect⟩ i := by
  obtain ⟨allowed, physical⟩ := ready.permitted permitted
  -- All calls but the begin of a configuration upload are the command itself.
  have same : effect = .command ((w.agents j).channels c).clientId params ∨
      ∃ size mode, params = .confPushBegin size mode ∧
        effect = .confPushBegin ((w.agents j).channels c).clientId size mode
          (!(w.links i).isLocal) := by
    unfold World.commandEffect at calls
    rw [ready.isLocal] at calls
    split at calls
    all_goals first
      | (cases calls; exact .inr ⟨_, _, rfl, rfl⟩)
      | (cases calls; exact .inl rfl)
      | (split at calls <;> cases calls; exact .inl rfl)
      | cases calls
  obtain rfl | ⟨size, mode, rfl, rfl⟩ := same
  · refine ready.bounded greeted arrived found (by simp [Effect.clientId?]) ?_ ?_
    · intro only
      obtain full | ⟨_, sensor⟩ := allowed
      · rw [only] at full
        cases full
      exact sensor
    intro remote
    have elsewhere := physical remote
    cases params <;> first | rfl | exact absurd elsewhere (by decide)
  refine ready.bounded greeted arrived found (by simp [Effect.clientId?]) ?_ ?_
  · intro only
    obtain full | ⟨_, sensor⟩ := allowed
    · rw [only] at full
      cases full
    cases sensor
  intro remote
  have update := physical remote
  simp only [World.physicalOnly, decide_eq_false_iff_not, not_not] at update
  simp [Effect.localOnly, update, remote]

lemma runCommand_unaltered
    (allowed : (w.agents j).permission = .full ∨ World.sensorCommand params = true)
    (client : Client) (dataSpan serverSpan : Option (List UInt8)) (answers : Answers) :
    Unaltered nanopb w (w.runCommand j client params dataSpan serverSpan answers).1 := by
  have pushed : ∀ outcome, Unaltered nanopb w (w.withPush outcome).1 := fun _ => .of_eq rfl rfl
  unfold World.runCommand
  split
  case h_1 | h_2 =>
    split
    · have full := allowed.resolve_right (by simp [World.sensorCommand])
      refine .setAgent rfl (fun _ vouches => ⟨vouches.permission, vouches.greeted, ?_⟩)
        fun routes => routes
      intro lesser
      exact absurd (vouches.permission.symm.trans full) lesser
    exact .refl w
  case h_10 | h_13 =>
    split
    · exact pushed _
    exact .refl w
  case h_9 | h_11 | h_12 | h_14 => exact pushed _
  all_goals exact .refl w

lemma Ready.processCommand (ready : Ready nanopb w i j)
    (greeted : (w.agents j).handshakeDone = true)
    (arrived : ArrivedOn (w.agents j) (w.agents j).rxChannel) (requestId : Nat) (params : Params)
    (dataSpan serverSpan : Option (List UInt8)) (answers : Answers) :
    Lawful nanopb i (w.processCommand j requestId params dataSpan serverSpan answers)
      (w.processCommandEffects j params dataSpan serverSpan answers) := by
  unfold World.processCommand World.processCommandEffects
  cases found : w.findChannel j (w.agents j).rxChannel with
  | none => exact ready.sendMessage _ _
  | some c =>
    dsimp only
    split
    · exact ready.sendMessage _ _
    rename_i permitted
    obtain ⟨open_, _⟩ := findChannel_some found
    have allowed := (ready.permitted permitted).1
    have ran : Ready nanopb (w.runCommand j ⟨((w.agents j).channels c).clientId,
        ((w.agents j).channels c).opening⟩ params dataSpan serverSpan answers).1 i j := by
      refine ready.edit (ready.toAnswerable.runCommand _ _ _ _ _)
        (ready.admitted.runCommand ⟨open_, rfl, rfl⟩ _ _ _ _) ?_
      exact runCommand_unaltered (allowed.imp_right And.right) _ _ _ _
    have replied := ran.sendMessage (.response requestId (w.runCommand j
      ⟨((w.agents j).channels c).clientId, ((w.agents j).channels c).opening⟩ params dataSpan
      serverSpan answers).2) answers
    refine ⟨replied.vouched, replied.routed, fun m mem => ?_⟩
    obtain earlier | released := mem_append.mp mem
    · obtain called | sent := mem_append.mp earlier
      · obtain ⟨effect, calls, rfl⟩ := mem_map.mp called
        exact ready.commandEffect greeted arrived found permitted (Option.mem_toList.mp calls)
      exact replied.bounded m sent
    split at released
    next topology =>
      obtain rfl := mem_singleton.mp released
      refine ready.bounded greeted arrived found (by simp [Effect.clientId?]) ?_ fun _ => rfl
      intro only
      obtain full | ⟨_, sensor⟩ := allowed
      · rw [only] at full
        cases full
      rw [topology] at sensor
      cases sensor
    cases released

lemma Ready.processEvent (ready : Ready nanopb w i j)
    (greeted : (w.agents j).handshakeDone = true)
    (arrived : ArrivedOn (w.agents j) (w.agents j).rxChannel) (data : EventData)
    (dataSpan : Option (List UInt8)) (answers : Answers) :
    Lawful nanopb i (w.processEvent j answers) (w.processEventEffects j data dataSpan answers) := by
  have posted : Unaltered nanopb w (w.startRecvHeader j) := recv_unaltered w _ _
  unfold World.processEvent World.processEventEffects
  dsimp only
  split
  · exact ready.quiet posted
  rename_i permitted
  cases found : w.findChannel j (w.agents j).rxChannel with
  | none => exact ready.sendMessage _ _
  | some c =>
    dsimp only
    have full : (w.agents j).permission = .full := by
      by_contra lesser
      exact permitted (.inl lesser)
    have lawful := ready.quiet posted
    refine ⟨lawful.vouched, lawful.routed, fun m mem => ?_⟩
    split at mem
    · obtain rfl := mem_singleton.mp mem
      refine ready.bounded greeted arrived found (by simp [Effect.clientId?]) ?_ fun _ => rfl
      intro only
      rw [only] at full
      cases full
    cases mem

lemma Ready.processMessage (ready : Ready nanopb w i j) (frame : Frame)
    (last : (w.agents j).frames.getLast? = some frame) (category : frame.category = 0)
    (channel : (w.agents j).rxChannel = (Header.ofBytes frame.header).channel.toNat)
    (answers : Answers) : Lawful nanopb i (World.processMessage nanopb w j frame.body answers)
      (World.processMessageEffects nanopb w j frame.body answers) := by
  have arrived : ArrivedOn (w.agents j) (w.agents j).rxChannel := ⟨frame, last, channel⟩
  unfold World.processMessage World.processMessageEffects
  cases decoded : World.decodeMessage nanopb frame.body with
  | none => exact ready.close
  | some decoded' =>
    dsimp only
    cases message : decoded'.message with
    | handshake handshakeId versionMajor =>
      refine ready.processHandshake handshakeId versionMajor (fun supported => ?_) answers
      rw [supported] at message
      exact ⟨frame, mem_of_getLast? last, category, decoded', handshakeId, decoded, message⟩
    | command requestId params =>
      dsimp only
      split
      · exact ready.processCommand ‹_› arrived _ _ _ _ _
      exact ready.close
    | service command => exact ready.processServiceMessage _ _
    | event data =>
      dsimp only
      split
      · exact ready.processEvent ‹_› arrived _ _ _
      exact ready.close
    | other => exact ready.quiet (recv_unaltered w _ _)

/-! ## Receive handlers -/

lemma discardBody_unaltered (w : World) (j : Fin linkCount) :
    Unaltered nanopb w (w.discardBody j) := by
  unfold World.discardBody
  dsimp only
  split
  · exact (frameDone_unaltered w j _).trans (recv_unaltered _ _ _)
  exact recv_unaltered w _ _

lemma Paused.startRecvBody_lawful (paused : Paused w i j rest) (admitted : Admitted w)
    (vouched : Vouched nanopb w) (routed : Routed w) (answers : Answers) :
    Lawful nanopb i (w.startRecvBody j answers) (w.startRecvBodyEffects j answers) := by
  have silent : ∀ {w'}, Unaltered nanopb w w' → Lawful nanopb i w' [] := fun unaltered =>
    .silent (vouched.unaltered unaltered) (routed.unaltered unaltered)
  unfold World.startRecvBody World.startRecvBodyEffects
  dsimp only
  split
  · refine silent (.trans ?_ (discardBody_unaltered _ j))
    exact .setAgent_of_eq rfl rfl rfl ⟨rfl, rfl⟩ rfl rfl rfl
  split
  · exact paused.close_lawful admitted vouched fun j' _ used => routed j' used
  have buffered := (paused.getBuffer (w.agents j).header.bodySize answers).1
  have unaltered : Unaltered nanopb w (w.getBuffer j (w.agents j).header.bodySize answers).1 :=
    getBuffer_unaltered w j _ answers
  have undisturbed := getBuffer_undisturbed w j (w.agents j).header.bodySize answers
  rcases got : w.getBuffer j (w.agents j).header.bodySize answers with ⟨w', _ | buffer⟩
  · rw [got] at buffered unaltered undisturbed
    exact buffered.close_lawful (admitted.undisturbed undisturbed)
      (vouched.unaltered unaltered) fun j' _ used => routed.unaltered unaltered j' used
  rw [got] at unaltered
  exact silent (unaltered.trans (recv_unaltered w' _ _))

lemma Paused.doneRecvHeader_lawful (paused : Paused w i j bytes) (admitted : Admitted w)
    (vouched : Vouched nanopb w) (routed : Routed w) (answers : Answers) :
    Lawful nanopb i (w.doneRecvHeader (w.links i).id j bytes answers)
      (w.doneRecvHeaderEffects (w.links i).id j bytes answers) := by
  unfold World.doneRecvHeader World.doneRecvHeaderEffects
  dsimp only
  rw [if_neg paused.own, if_neg paused.own]
  let agent : AgentLink :=
    { w.agents j with header := Header.ofBytes bytes, headerBytes := bytes, skipped := [] }
  let addressed : AgentLink := { agent with rxChannel := (Header.ofBytes bytes).channel.toNat }
  have framed : Framed (w.links i) agent bytes := paused.framed.of_eq rfl rfl
  have parsed : Paused (w.setAgent j agent) i j bytes := paused.setAgent framed rfl
  have parsedAdmitted : Admitted (w.setAgent j agent) :=
    admitted.undisturbed (setAgent_undisturbed w j rfl rfl)
  split
  · -- A header that is not one closes the link before its channel is read.
    have parsedVouched : Vouched nanopb (w.setAgent j agent) := by
      intro i' j' serves
      by_cases same : j' = j
      · subst same
        have vouches := vouched i' j' ⟨serves.1, by simpa [World.setAgent, agent] using serves.2⟩
        simpa [World.setAgent, agent] using
          (⟨vouches.permission, vouches.greeted, vouches.tokens⟩ : Vouches nanopb _ agent)
      have kept : (w.setAgent j agent).agents j' = w.agents j' := by simp [World.setAgent, same]
      rw [kept]
      exact vouched i' j' ⟨serves.1, by rw [← kept]; exact serves.2⟩
    have closed := parsed.close_lawful parsedAdmitted parsedVouched fun j' other used => by
      have kept : (w.setAgent j agent).agents j' = w.agents j' := by simp [World.setAgent, other]
      rw [kept] at used ⊢
      exact routed j' used
    rw [parsed.serves.2] at closed
    exact closed
  have twice : (w.setAgent j agent).setAgent j
      { (w.setAgent j agent).agents j with rxChannel := (Header.ofBytes bytes).channel.toNat } =
        w.setAgent j addressed := by
    simp [World.setAgent, addressed]
  have unaltered : Unaltered nanopb w (w.setAgent j addressed) :=
    .setAgent rfl (fun _ vouches => ⟨vouches.permission, vouches.greeted, vouches.tokens⟩)
      fun _ _ => rfl
  have addressedFramed : Framed (w.links i) addressed bytes := paused.framed.of_eq rfl rfl
  have ready : Paused (w.setAgent j addressed) i j bytes := paused.setAgent addressedFramed rfl
  rw [twice]
  exact ready.startRecvBody_lawful (admitted.undisturbed (setAgent_undisturbed w j rfl rfl))
    (vouched.unaltered unaltered) (routed.unaltered unaltered) answers

lemma Paused.rxDone_lawful {chunk : RxChunk} {before bytes : List UInt8}
    (paused : Paused w i j (before ++ bytes)) (expects : Expects j (w.agents j) chunk before)
    (full : bytes.length = chunk.size) (admitted : Admitted w) (vouched : Vouched nanopb w)
    (routed : Routed w) (answers : Answers) :
    Lawful nanopb i (World.rxDone nanopb w (w.links i).id chunk bytes answers)
      (World.rxDoneEffects nanopb w (w.links i).id chunk bytes answers) := by
  cases expects with
  | header => exact paused.doneRecvHeader_lawful admitted vouched routed answers
  | body _ length category _ =>
    simp only [World.rxDone, World.rxDoneEffects, World.doneRecvBody, World.doneRecvBodyEffects,
      if_neg paused.own]
    have unaltered : Unaltered nanopb w (w.frameDone j bytes) := frameDone_unaltered w j bytes
    have ready : Ready nanopb (w.frameDone j bytes) i j :=
      ⟨paused.frameDone_answerable ⟨length, full⟩ category,
        admitted.undisturbed (frameDone_undisturbed w j bytes), vouched.unaltered unaltered,
        routed.unaltered unaltered⟩
    have headed : (w.agents j).headerBytes ≠ [] := by
      intro none_
      rw [none_] at length
      cases length
    have used : (w.agents j).linkId ≠ 0 := by
      rw [paused.serves.2]
      exact paused.wired.id_ne_zero paused.serves
    refine ready.processMessage ⟨(w.agents j).headerBytes, bytes⟩ ?_ category ?_ answers
    · simp [World.frameDone, World.setAgent]
    simpa [World.frameDone, World.setAgent] using routed j used headed
  | discard _ _ _ =>
    simp only [World.rxDone, World.rxDoneEffects, World.doneDiscardBody, if_neg paused.own]
    have counted : ∀ discardRemaining skipped, Unaltered nanopb w
        (w.setAgent j { w.agents j with discardRemaining, skipped }) := fun _ _ =>
      .setAgent_of_eq rfl rfl rfl ⟨rfl, rfl⟩ rfl rfl rfl
    have drained := (counted ((w.agents j).discardRemaining - bytes.length)
      ((w.agents j).skipped ++ bytes)).trans (discardBody_unaltered _ j)
    exact .silent (vouched.unaltered drained) (routed.unaltered drained)

end Messages

/-! ## Runs -/

section Runs

variable {nanopb : Nanopb} {w : World}

lemma Wired.linkDoRx_lawful (wired : Wired w none) (admitted : Admitted w)
    (vouched : Vouched nanopb w) (routed : Routed w) (i : Fin linkCount) (read : Read)
    (answers : Answers) : Lawful nanopb i (w.linkDoRx nanopb i read answers)
      (World.linkDoRxEffects nanopb w i read answers) := by
  unfold World.linkDoRx World.linkDoRxEffects
  dsimp only
  cases queue : (w.links i).rxQueue with
  | nil => exact .silent vouched routed
  | cons chunk rest =>
    obtain ⟨j, before, rfl, serves, silent, expects, room, framed⟩ := wired.reading queue
    have interrupted : ∀ {state : LinkState}, state ≠ .connected →
        Lawful nanopb i (w.linkInterrupt i state) (w.linkInterruptEffects i state) := by
      intro state down
      have downed := linkInterrupt_downed wired serves.defined down
      exact ⟨vouched.down wired downed, Routed.down downed fun j' used _ => routed j' used,
        wired.linkInterrupt_bounded admitted vouched serves.defined down⟩
    cases read with
    | wantRead | wantWrite => exact .silent vouched routed
    | eof => exact interrupted (by decide)
    | error => exact interrupted (by decide)
    | bytes first more =>
      have gotLength := length_take_le (chunk.size - (w.links i).rxBytes.length)
        (first :: more)
      dsimp only
      generalize (first :: more).take (chunk.size - (w.links i).rxBytes.length) = got
        at gotLength ⊢
      have unfilled : ¬chunk.size ≤ (w.links i).rxBytes.length := by omega
      simp only [if_neg unfilled]
      have taken : ∀ rxQueue rxBytes, Unaltered nanopb w (w.setLink i
          { w.links i with rxQueue, rxBytes, taken := (w.links i).taken ++ got }) :=
        fun _ _ => .setLink rfl rfl rfl
      split
      next filled =>
        have full : ((w.links i).rxBytes ++ got).length = chunk.size := by
          rw [length_append] at filled ⊢
          omega
        have done := (wired.filled serves silent framed got).rxDone_lawful expects full
          (admitted.undisturbed (setLink_undisturbed w i _)) (vouched.unaltered (taken _ _))
          (routed.unaltered (taken _ _)) answers
        simpa [World.setLink] using done
      exact .silent (vouched.unaltered (taken _ _)) (routed.unaltered (taken _ _))

lemma Wired.linkDoTx_lawful (wired : Wired w none) (admitted : Admitted w)
    (vouched : Vouched nanopb w) (routed : Routed w) (i : Fin linkCount) (write : Write) :
    Lawful nanopb i (w.linkDoTx i write) (w.linkDoTxEffects i write) := by
  unfold World.linkDoTx World.linkDoTxEffects
  dsimp only
  cases queue : (w.links i).txQueue with
  | nil => exact .silent vouched routed
  | cons chunk rest =>
    have connected := wired.connected_of_tx (i := i) (by simp [queue])
    have live : (w.links i).state ≠ .undefined := by simp [connected]
    have moved : ∀ txQueue txOffset, Unaltered nanopb w
        (w.setLink i { w.links i with txQueue, txOffset }) := fun _ _ => .setLink rfl rfl rfl
    cases write with
    | wantRead | wantWrite => exact .silent vouched routed
    | error =>
      have downed : Downed w (w.linkInterrupt i .error) i :=
        linkInterrupt_downed wired live (by decide)
      exact ⟨vouched.down wired downed, Routed.down downed fun j' used _ => routed j' used,
        wired.linkInterrupt_bounded admitted vouched live (by decide)⟩
    | bytes more =>
      have room := (wired.sending i).offset chunk rest queue
      have unsent : ¬chunk.size ≤ (w.links i).txOffset := by omega
      simp only [if_neg unsent]
      split
      · have unaltered := (moved rest 0).trans (txDone_unaltered _ (w.links i).id true chunk)
        have sent := (wired.standing admitted vouched live).unaltered (moved rest 0)
          (admitted.undisturbed (setLink_undisturbed w i _))
        refine ⟨vouched.unaltered unaltered, routed.unaltered unaltered, fun m mem => ?_⟩
        simp only [World.txDoneEffects] at mem
        split at mem
        · simp only [World.doneSendingMsgEffects] at mem
          split at mem
          · cases mem
          rename_i own
          refine sent.completeTokens ?_ m mem
          simpa [World.setLink] using (not_not.mp own).symm
        cases mem
      exact .silent (vouched.unaltered (moved _ _)) (routed.unaltered (moved _ _))

/-- A link that is added is vouched for by the agent link that takes it. -/
lemma Vouched.agentConnect (vouched : Vouched nanopb w) (routed : Routed w) (wired : Wired w none)
    (unused : (w.links i).state = .undefined) {added : World} {link : Link}
    (links : added.links = Function.update w.links i link) (agents : added.agents = w.agents)
    (slot : link.id % linkCount = i) (used : link.id ≠ 0) (connected : link.state = .connected) :
    Vouched nanopb (added.agentConnect j link.id) ∧ Routed (added.agentConnect j link.id) := by
  let joined := added.setAgent j (added.freshAgent j link.id)
  have linkAt : joined.links i = link := by simp [joined, World.setAgent, links]
  have linkOther : ∀ i', i' ≠ i → joined.links i' = w.links i' := by
    intro i' other
    simp [joined, World.setAgent, links, other]
  have agentOther : ∀ j', j' ≠ j → joined.agents j' = w.agents j' := by
    intro j' other
    simp [joined, World.setAgent, agents, other]
  have fresh : joined.agents j = added.freshAgent j link.id := by simp [joined, World.setAgent]
  have granted : (added.freshAgent j link.id).permission = link.permission := by
    have index : (⟨link.id % linkCount, Nat.mod_lt _ (by decide)⟩ : Fin linkCount) = i :=
      Fin.ext slot
    have found : added.getLink link.id = some i := by
      simp only [World.getLink, index]
      simp [links, connected]
    simp [World.freshAgent, World.linkGetPermission, found, links, connected]
  have joinedVouched : Vouched nanopb joined := by
    intro i' j' serves
    -- An id leads to one slot, and the slot of the new link was free.
    by_cases newAgent : j' = j
    · subst newAgent
      have newLink : i' = i := by
        by_contra other
        have id := serves.2
        rw [fresh, linkOther i' other] at id
        have live := serves.defined
        rw [linkOther i' other] at live
        have index := (wired.ids i' live).1
        rw [← id] at index
        exact other (Fin.ext (index.symm.trans slot))
      rw [newLink, linkAt, fresh]
      exact ⟨granted, by simp [World.freshAgent], fun _ => ⟨rfl, rfl⟩⟩
    have oldLink : i' ≠ i := by
      rintro rfl
      have id := serves.2
      rw [linkAt, agentOther j' newAgent] at id
      obtain ⟨i'', before⟩ := wired.linked j' (id ▸ used)
      have index := (wired.ids i'' before.defined).1
      rw [← before.2, id, slot] at index
      rw [Fin.ext index] at unused
      rw [before.1] at unused
      cases unused
    rw [linkOther i' oldLink, agentOther j' newAgent]
    refine vouched i' j' ⟨?_, ?_⟩
    · rw [← linkOther i' oldLink]
      exact serves.1
    rw [← linkOther i' oldLink, ← agentOther j' newAgent]
    exact serves.2
  have joinedRouted : Routed joined := by
    intro j' inUse
    by_cases newAgent : j' = j
    · rw [newAgent, fresh]
      exact fun headed => absurd rfl headed
    rw [agentOther j' newAgent] at inUse ⊢
    exact routed j' inUse
  have opened : Unaltered nanopb joined (added.agentConnect j link.id) :=
    (openEntry_unaltered joined j 0 0).trans (recv_unaltered _ _ _)
  exact ⟨joinedVouched.unaltered opened, joinedRouted.unaltered opened⟩

lemma Vouched.addLink (vouched : Vouched nanopb w) (routed : Routed w) (wired : Wired w none)
    (permission : Permission) (isLocal removes : Bool) :
    Vouched nanopb (w.addLink permission isLocal removes) ∧
      Routed (w.addLink permission isLocal removes) := by
  rcases wired.addLink_cases permission isLocal removes with
    same | ⟨i, j, id, added, unused, _, slot, used, agents, _, links, same⟩
  · rw [same]
    exact ⟨vouched, routed⟩
  rw [same]
  have connected : _ ∧ Routed (added.agentConnect j _) :=
    vouched.agentConnect routed wired unused links agents slot used rfl
  exact connected

def Event.Concerns (w : World) : Event → Fin linkCount → Prop
  | .add .., _ | .send .., _ => False
  | .remove linkId, i | .close linkId, i => (w.links i).id = linkId
  | .stall i', i | .read i' _ _, i | .write i' _, i => i' = i

/-- One step: the agents go on vouching for their links, and every call is bounded
by the link the step is about. -/
lemma Vouched.step (vouched : Vouched nanopb w) (routed : Routed w) (wired : Wired w none)
    (admitted : Admitted w) (event : Event) :
    Vouched nanopb (w.step nanopb event) ∧ Routed (w.step nanopb event) ∧
      ∀ m ∈ w.stepEffects nanopb event, ∃ i, event.Concerns w i ∧ Bounded nanopb m i := by
  have lowered : ∀ {w' : World} {i : Fin linkCount}, Downed w w' i →
      Vouched nanopb w' ∧ Routed w' := fun downed =>
    ⟨vouched.down wired downed, Routed.down downed fun j' used _ => routed j' used⟩
  cases event with
  | add permission isLocal removes =>
    have added := vouched.addLink routed wired permission isLocal removes
    exact ⟨added.1, added.2, by simp [World.stepEffects]⟩
  | remove linkId =>
    simp only [World.step, World.stepEffects, World.removeLink, World.removeLinkEffects]
    cases found : slots.find? fun i =>
        (w.links i).state ≠ .undefined ∧ (w.links i).id = linkId with
    | none => exact ⟨vouched, routed, by simp⟩
    | some i =>
      obtain ⟨live, id⟩ := find_link found
      have removed := lowered (removeSlot_downed (wired.agent_unique live))
      refine ⟨removed.1, removed.2, fun m mem => ⟨i, id, ?_⟩⟩
      exact (wired.standing admitted vouched live).lower _ m mem
  | close linkId =>
    simp only [World.step, World.stepEffects, World.close, World.closeEffects]
    cases found : w.getLink linkId with
    | none => exact ⟨vouched, routed, by simp⟩
    | some i =>
      obtain ⟨id, live⟩ := getLink_some found
      have downed : Downed w (w.linkInterrupt i .disconnected) i :=
        linkInterrupt_downed wired live (by decide)
      have closed := lowered downed
      refine ⟨closed.1, closed.2, fun m mem => ⟨i, id, ?_⟩⟩
      exact wired.linkInterrupt_bounded admitted vouched live (by decide) m mem
  | stall i =>
    simp only [World.step, World.stepEffects]
    split
    next stalled =>
      have live : (w.links i).state ≠ .undefined := by simp [stalled.1]
      have downed : Downed w (w.linkInterrupt i .error) i :=
        linkInterrupt_downed wired live (by decide)
      have closed := lowered downed
      refine ⟨closed.1, closed.2, fun m mem => ⟨i, rfl, ?_⟩⟩
      exact wired.linkInterrupt_bounded admitted vouched live (by decide) m mem
    exact ⟨vouched, routed, by simp⟩
  | send i sizes =>
    have unaltered : Unaltered nanopb w (w.foreignSend i sizes) := by
      unfold World.foreignSend
      split
      · exact send_unaltered w _ _
      exact .refl w
    exact ⟨vouched.unaltered unaltered, routed.unaltered unaltered, by simp [World.stepEffects]⟩
  | read i read answers =>
    have lawful := wired.linkDoRx_lawful admitted vouched routed i read answers
    exact ⟨lawful.vouched, lawful.routed, fun m mem => ⟨i, rfl, lawful.bounded m mem⟩⟩
  | write i write =>
    have lawful := wired.linkDoTx_lawful admitted vouched routed i write
    exact ⟨lawful.vouched, lawful.routed, fun m mem => ⟨i, rfl, lawful.bounded m mem⟩⟩

lemma Reachable.vouched (reachable : Reachable nanopb w) : Vouched nanopb w ∧ Routed w := by
  obtain ⟨events, rfl⟩ := reachable
  induction events using reverseRecOn with
  | nil => exact ⟨fun _ _ serves => (by cases serves.1), fun _ used => absurd rfl used⟩
  | append_singleton events event ih =>
    have before : Reachable nanopb (World.run nanopb {} events) := ⟨events, rfl⟩
    have stepped := ih.1.step ih.2 before.wired before.admitted event
    simp only [World.run, foldl_append, foldl_cons, foldl_nil] at stepped ⊢
    exact ⟨stepped.1, stepped.2.1⟩

end Runs

/-- In every run, whatever links come and go: a command or event is carried out only
for a link with a handshake of its own, a device peer causes sensor calls only, what
is reserved for a local link is done for one only, and a client id names the channel
the message came in on and no other. -/
theorem link_permissions_bound_effects (nanopb : Nanopb) (events : List Event) (event : Event) :
    ∀ m ∈ (World.run nanopb {} events).stepEffects nanopb event,
      ∃ i, event.Concerns (World.run nanopb {} events) i ∧ Bounded nanopb m i := by
  have reachable : Reachable nanopb (World.run nanopb {} events) := ⟨events, rfl⟩
  exact (reachable.vouched.1.step reachable.vouched.2 reachable.wired reachable.admitted event).2.2

def peerNanopb : Nanopb where
  decode
    | 1 :: _ => some (.handshake 7 (some protocolVersionMajor))
    | 2 :: _ => some (.command 8 .sensorLinkSubscribe)
    | _ => none
  decodeAppPushData _ := none
  decodeConfPushData _ := none
  decodeSyncTime _ := none
  decodeConsoleData _ := none

/-- A device peer connects, shakes hands and sends the header of its subscription. -/
def subscribing (i : Fin linkCount) : List Event :=
  [.add .sensorOnly false true] ++ exchange i 1 {} ++
    [.read i (.bytes agentMsgMagic [agentMsgVersion, 0, 0, 0, 0, 0, 1]) {}]

theorem link_permissions_bound_effects_subscribing :
    ∃ m ∈ (World.run peerNanopb {} (subscribing 0)).stepEffects peerNanopb (.read 0 (.bytes 2 []) {}),
      m.effect = .command 16 .sensorLinkSubscribe ∧
        ∃ i, Event.Concerns (World.run peerNanopb {} (subscribing 0)) (.read 0 (.bytes 2 []) {}) i ∧
          Bounded peerNanopb m i := by
  have calls : ((World.run peerNanopb {} (subscribing 0)).stepEffects peerNanopb
      (.read 0 (.bytes 2 []) {})).map Moment.effect = [.command 16 .sensorLinkSubscribe] := by
    decide +kernel
  have called : Effect.command 16 .sensorLinkSubscribe ∈
      ((World.run peerNanopb {} (subscribing 0)).stepEffects peerNanopb
        (.read 0 (.bytes 2 []) {})).map Moment.effect := by
    rw [calls]
    exact mem_singleton_self _
  obtain ⟨m, made, effect⟩ := mem_map.mp called
  exact ⟨m, made, effect, link_permissions_bound_effects peerNanopb (subscribing 0) _ m made⟩

end WendyLite.Com
