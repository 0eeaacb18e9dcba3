import WendyLite.Com.Messages

/-! # Links and agents stay paired

Every connected link is served by exactly one agent link, and every agent link
in use serves a connected link. On such a pair exactly one operation is
outstanding: the agent's receive chunk, or its reply. While the agent handles a
chunk that has just completed, its pair is `busy` and has neither.
-/

namespace WendyLite.Com

open Function

/-- Agent link `j` speaks on the connected link `i`. -/
def Serves (w : World) (i j : Fin linkCount) : Prop :=
  (w.links i).state = .connected ∧ (w.agents j).linkId = (w.links i).id

lemma Serves.defined (serves : Serves w i j) :
    (w.links i).state ≠ .undefined := by
  rw [serves.1]
  decide

def Link.replies (link : Link) : List TxChunk := link.txQueue.filter TxChunk.isReply

inductive ReplyQueued (j : Fin linkCount) : List TxChunk → Prop
  | whole (buffer : Buffer) (size : Nat) :
      ReplyQueued j [.reply j .header headerSize false, .reply j buffer size true]
  | last (buffer : Buffer) (size : Nat) : ReplyQueued j [.reply j buffer size true]

def Frame.Exact (frame : Frame) : Prop :=
  frame.header.length = headerSize ∧ frame.body.length = (Header.ofBytes frame.header).bodySize

/-- The frames received are whole. Each reply answers one of them, of the known
category, and no frame is answered twice. -/
structure AgentLink.Ledger (agent : AgentLink) : Prop where
  exact : ∀ frame ∈ agent.frames, frame.Exact
  answered : ∀ answer ∈ agent.answered,
    ∃ frame, agent.frames[answer.1]? = some frame ∧ frame.category = 0
  distinct : agent.answered.Pairwise fun earlier later => earlier.1 < later.1

structure Framed (link : Link) (agent : AgentLink) (rest : List UInt8) : Prop where
  taken : link.taken = agent.frames.flatMap Frame.bytes ++ rest
  ledger : agent.Ledger

inductive Expects (j : Fin linkCount) (agent : AgentLink) : RxChunk → List UInt8 → Prop
  | header : Expects j agent ⟨j, .header, headerSize, .header⟩ []
  | body {buffer : Buffer} (buffered : buffer ≠ .header)
      (length : agent.headerBytes.length = headerSize)
      (category : (Header.ofBytes agent.headerBytes).category = 0)
      (positive : 0 < (Header.ofBytes agent.headerBytes).bodySize) :
      Expects j agent ⟨j, buffer, (Header.ofBytes agent.headerBytes).bodySize, .body⟩
        agent.headerBytes
  | discard (length : agent.headerBytes.length = headerSize)
      (remaining : 0 < agent.discardRemaining)
      (total : agent.skipped.length + agent.discardRemaining =
        (Header.ofBytes agent.headerBytes).bodySize) :
      Expects j agent ⟨j, .staticBuf, min agent.discardRemaining staticBufSize, .discard⟩
        (agent.headerBytes ++ agent.skipped)

/-- One operation is outstanding on the pair of a link and agent link `j`. -/
inductive Outstanding (link : Link) (agent : AgentLink) (j : Fin linkCount) : Prop
  | reading (chunk : RxChunk) (before : List UInt8) (posted : link.rxQueue = [chunk])
      (silent : link.replies = []) (expects : Expects j agent chunk before)
      (room : link.rxBytes.length < chunk.size)
      (framed : Framed link agent (before ++ link.rxBytes))
  | replying (unposted : link.rxQueue = []) (empty : link.rxBytes = [])
      (queued : ReplyQueued j link.replies) (framed : Framed link agent [])

/-- What holds of the send queue of every link. -/
structure Link.Sending (link : Link) : Prop where
  sizes : ∀ chunk ∈ link.txQueue, 0 < chunk.size
  offset : ∀ chunk rest, link.txQueue = chunk :: rest → link.txOffset < chunk.size
  start : link.txQueue = [] → link.txOffset = 0

/-- Links and agents are paired, and every pair but the busy one has its one
operation outstanding. -/
structure Wired (w : World) (busy : Option (Fin linkCount × Fin linkCount)) : Prop where
  sound : w.failed = false
  ids : ∀ i, (w.links i).state ≠ .undefined → (w.links i).id % linkCount = i ∧ (w.links i).id ≠ 0
  linked : ∀ j, (w.agents j).linkId ≠ 0 → ∃ i, Serves w i j
  unique : ∀ j j', (w.agents j).linkId ≠ 0 → (w.agents j).linkId = (w.agents j').linkId → j = j'
  served : ∀ i, (w.links i).state = .connected → ∃ j, (w.agents j).linkId = (w.links i).id
  quiet : ∀ i, (w.links i).state ≠ .connected → (w.links i).rxQueue = [] ∧ (w.links i).txQueue = []
  sending : ∀ i, (w.links i).Sending
  outstanding : ∀ i j, Serves w i j → busy ≠ some (i, j) → Outstanding (w.links i) (w.agents j) j

lemma wired_initial : Wired {} none where
  sound := rfl
  ids _ live := absurd rfl live
  linked _ used := absurd rfl used
  unique _ _ used := absurd rfl used
  served _ connected := by cases connected
  quiet _ _ := ⟨rfl, rfl⟩
  sending _ := ⟨by simp, by simp, fun _ => rfl⟩
  outstanding _ _ serves := by cases serves.1

section Pairs

variable {w : World} {busy : Option (Fin linkCount × Fin linkCount)} {i j : Fin linkCount}

section

variable (wired : Wired w busy)
include wired

lemma Wired.id_ne_zero (serves : Serves w i j) : (w.links i).id ≠ 0 :=
  (wired.ids i serves.defined).2

lemma Wired.link_eq (live : (w.links i).state ≠ .undefined)
    (live' : (w.links i').state ≠ .undefined) (same : (w.links i).id = (w.links i').id) : i = i' := by
  have left := (wired.ids i live).1
  have right := (wired.ids i' live').1
  exact Fin.ext (left.symm.trans (same ▸ right))

lemma Wired.serves_link (serves : Serves w i j) (serves' : Serves w i' j) : i = i' :=
  wired.link_eq serves.defined serves'.defined (serves.2.symm.trans serves'.2)

lemma Wired.serves_agent (serves : Serves w i j) (serves' : Serves w i j') : j = j' :=
  wired.unique j j' (serves.2 ▸ wired.id_ne_zero serves) (serves.2.trans serves'.2.symm)

/-- `_get_link` finds a link in use by its id. -/
lemma Wired.getLink (live : (w.links i).state ≠ .undefined) :
    w.getLink (w.links i).id = some i := by
  have slot : (⟨(w.links i).id % linkCount, Nat.mod_lt _ (by decide)⟩ : Fin linkCount) = i :=
    Fin.ext (wired.ids i live).1
  simp only [World.getLink, slot]
  simp [live]

lemma Wired.getLink_serves (serves : Serves w i j) : w.getLink (w.agents j).linkId = some i := by
  rw [serves.2]
  exact wired.getLink serves.defined

end

lemma getLink_some (found : w.getLink linkId = some i) :
    (w.links i).id = linkId ∧ (w.links i).state ≠ .undefined := by
  simp only [World.getLink] at found
  split at found
  · cases found
  rename_i present
  push Not at present
  cases found
  exact present

variable {busy' : Option (Fin linkCount × Fin linkCount)}

/-- A pair is edited in place: the link keeps its id and state, the agent its link.
The pair is busy afterwards unless one operation is outstanding again. -/
lemma Wired.edit (wired : Wired w busy) (serves : Serves w i j)
    (only : busy = none ∨ busy = some (i, j)) {w' : World} {link : Link} {agent : AgentLink}
    (links : w'.links = update w.links i link)
    (agents : w'.agents = update w.agents j agent) (sound : w'.failed = w.failed)
    (id : link.id = (w.links i).id) (state : link.state = (w.links i).state)
    (linkId : agent.linkId = (w.agents j).linkId) (sending : link.Sending)
    (settled : busy' = some (i, j) ∨ Outstanding link agent j) : Wired w' busy' := by
  have linkAt : ∀ i', (w'.links i').id = (w.links i').id ∧
      (w'.links i').state = (w.links i').state := by
    intro i'
    rw [links]
    by_cases same : i' = i
    · subst same
      simp [id, state]
    simp [same]
  have agentAt : ∀ j', (w'.agents j').linkId = (w.agents j').linkId := by
    intro j'
    rw [agents]
    by_cases same : j' = j
    · subst same
      simp [linkId]
    simp [same]
  have serving : ∀ i' j', Serves w' i' j' ↔ Serves w i' j' := by
    intro i' j'
    simp only [Serves, linkAt, agentAt]
  refine ⟨sound.trans wired.sound, ?_, ?_, ?_, ?_, ?_, ?_, ?_⟩
  · intro i' live
    rw [(linkAt i').1]
    exact wired.ids i' ((linkAt i').2 ▸ live)
  · intro j' used
    obtain ⟨i', serves'⟩ := wired.linked j' (agentAt j' ▸ used)
    exact ⟨i', (serving i' j').mpr serves'⟩
  · intro j' j'' used same
    exact wired.unique j' j'' (agentAt j' ▸ used) (by rw [← agentAt j', ← agentAt j'', same])
  · intro i' connected
    obtain ⟨j', serves'⟩ := wired.served i' ((linkAt i').2 ▸ connected)
    exact ⟨j', by rw [agentAt, (linkAt i').1, serves']⟩
  · intro i' down
    have other : i' ≠ i := by
      rintro rfl
      exact down ((linkAt i').2.trans serves.1)
    rw [links, update_of_ne other]
    exact wired.quiet i' ((linkAt i').2 ▸ down)
  · intro i'
    rw [links]
    by_cases same : i' = i
    · subst same
      simpa using sending
    simpa [same] using wired.sending i'
  intro i' j' serves' free
  have before := (serving i' j').mp serves'
  by_cases same : i' = i
  · subst same
    obtain rfl := wired.serves_agent serves before
    obtain still | now := settled
    · exact absurd still free
    simpa [links, agents] using now
  have otherAgent : j' ≠ j := by
    rintro rfl
    exact same (wired.serves_link before serves)
  rw [links, agents, update_of_ne same, update_of_ne otherAgent]
  refine wired.outstanding i' j' before ?_
  obtain rfl | rfl := only
  · simp
  simp [Ne.symm same]

lemma Wired.setLink (wired : Wired w busy) (serves : Serves w i j)
    (only : busy = none ∨ busy = some (i, j)) {link : Link} (id : link.id = (w.links i).id)
    (state : link.state = (w.links i).state) (sending : link.Sending)
    (settled : busy' = some (i, j) ∨ Outstanding link (w.agents j) j) :
    Wired (w.setLink i link) busy' := by
  have agents : (w.setLink i link).agents = update w.agents j (w.agents j) := by
    simp [World.setLink]
  exact wired.edit serves only rfl agents rfl id state rfl sending settled

lemma Wired.setAgent (wired : Wired w busy) (serves : Serves w i j)
    (only : busy = none ∨ busy = some (i, j)) {agent : AgentLink}
    (linkId : agent.linkId = (w.agents j).linkId)
    (settled : busy' = some (i, j) ∨ Outstanding (w.links i) agent j) :
    Wired (w.setAgent j agent) busy' := by
  have links : (w.setAgent j agent).links = update w.links i (w.links i) := by
    simp [World.setAgent]
  exact wired.edit serves only links rfl rfl rfl rfl linkId (wired.sending i) settled

end Pairs

end WendyLite.Com
