import Mathlib.Data.Fintype.EquivFin
import WendyLite.Com.Teardown

/-! # One outstanding operation per agent link

Every path through the agent's handlers ends in exactly one of three ways: it
posts the receive chunk, it queues the reply, or it closes the link. So between
two steps of the com task a connected agent link has either its receive chunk
queued or its reply, never both and never neither.
-/

namespace WendyLite.Com

open List Function

/-- Agent link `j` handles a chunk of link `i`: nothing is outstanding on the pair,
and the frame being received has got as far as `rest`. -/
structure Paused (w : World) (i j : Fin linkCount) (rest : List UInt8) : Prop where
  wired : Wired w (some (i, j))
  serves : Serves w i j
  unposted : (w.links i).rxQueue = []
  empty : (w.links i).rxBytes = []
  silent : (w.links i).replies = []
  framed : Framed (w.links i) (w.agents j) rest

/-- Agent link `j` handles a whole frame it has not answered. -/
structure Answerable (w : World) (i j : Fin linkCount) : Prop extends Paused w i j [] where
  current : ∃ frame, (w.agents j).frames.getLast? = some frame ∧ frame.category = 0
  unanswered : ∀ answer ∈ (w.agents j).answered, answer.1 < (w.agents j).frames.length - 1

section Handling

variable {w : World} {i j : Fin linkCount} {rest : List UInt8}

variable {agent : AgentLink}

lemma agents_setAgent (w : World) (j : Fin linkCount) (agent : AgentLink) :
    (w.setAgent j agent).agents j = agent := by simp [World.setAgent]

lemma Paused.setAgent (paused : Paused w i j rest) (framed : Framed (w.links i) agent rest')
    (linkId : agent.linkId = (w.agents j).linkId) :
    Paused (w.setAgent j agent) i j rest' := by
  refine ⟨?_, ⟨paused.serves.1, ?_⟩, paused.unposted, paused.empty, paused.silent, ?_⟩
  · exact paused.wired.setAgent paused.serves (.inr rfl) linkId (.inl rfl)
  · rw [agents_setAgent, linkId]
    exact paused.serves.2
  rw [agents_setAgent]
  exact framed

lemma Framed.of_eq {link : Link} (framed : Framed link agent rest)
    (frames : agent'.frames = agent.frames) (answered : agent'.answered = agent.answered) :
    Framed link agent' rest := by
  refine ⟨?_, ?_, ?_, ?_⟩
  · rw [frames]; exact framed.taken
  · rw [frames]; exact framed.ledger.exact
  · rw [frames, answered]; exact framed.ledger.answered
  rw [answered]; exact framed.ledger.distinct

/-- An edit of the agent link beside its link, its frames and its answers. -/
lemma Answerable.setAgent (answerable : Answerable w i j)
    (linkId : agent.linkId = (w.agents j).linkId) (frames : agent.frames = (w.agents j).frames)
    (answered : agent.answered = (w.agents j).answered) : Answerable (w.setAgent j agent) i j := by
  refine ⟨answerable.toPaused.setAgent (answerable.framed.of_eq frames answered) linkId, ?_, ?_⟩
  · rw [agents_setAgent, frames]
    exact answerable.current
  rw [agents_setAgent, frames, answered]
  exact answerable.unanswered

variable {w' : World}

lemma Wired.of_eq (wired : Wired w busy) (links : w'.links = w.links)
    (agents : w'.agents = w.agents) (failed : w'.failed = w.failed) : Wired w' busy := by
  have serving : ∀ i' j', Serves w' i' j' ↔ Serves w i' j' := by
    intro i' j'
    simp only [Serves, links, agents]
  refine ⟨failed.trans wired.sound, ?_, ?_, ?_, ?_, ?_, ?_, ?_⟩
  · rw [links]; exact wired.ids
  · intro j' used
    obtain ⟨i', serves⟩ := wired.linked j' (agents ▸ used)
    exact ⟨i', (serving i' j').mpr serves⟩
  · rw [agents]; exact wired.unique
  · rw [links, agents]; exact wired.served
  · rw [links]; exact wired.quiet
  · rw [links]; exact wired.sending
  intro i' j' serves free
  rw [links, agents]
  exact wired.outstanding i' j' ((serving i' j').mp serves) free

lemma Paused.of_eq (paused : Paused w i j rest) (links : w'.links = w.links)
    (agents : w'.agents = w.agents) (failed : w'.failed = w.failed) : Paused w' i j rest := by
  refine ⟨paused.wired.of_eq links agents failed, ?_, ?_, ?_, ?_, ?_⟩
  · simpa only [Serves, links, agents] using paused.serves
  · rw [links]; exact paused.unposted
  · rw [links]; exact paused.empty
  · rw [links]; exact paused.silent
  rw [links, agents]; exact paused.framed

lemma Answerable.of_eq (answerable : Answerable w i j) (links : w'.links = w.links)
    (agents : w'.agents = w.agents) (failed : w'.failed = w.failed) : Answerable w' i j := by
  refine ⟨answerable.toPaused.of_eq links agents failed, ?_, ?_⟩
  · rw [agents]
    exact answerable.current
  rw [agents]
  exact answerable.unanswered

lemma Paused.recv (paused : Paused w i j rest) (expects : Expects j (w.agents j) chunk rest)
    (positive : 0 < chunk.size) :
    Wired (w.recv (w.agents j).linkId chunk) none := by
  have wired := paused.wired
  simp only [World.recv, wired.getLink_serves paused.serves, if_neg positive.ne']
  have sending := wired.sending i
  refine wired.setLink paused.serves (.inr rfl) ?_ ?_ ?_
    (.inr (.reading chunk rest ?_ ?_ expects ?_ ?_))
  · rfl
  · rfl
  · exact ⟨sending.sizes, sending.offset, sending.start⟩
  · simp [paused.unposted]
  · exact paused.silent
  · simpa [paused.empty] using positive
  have framed := paused.framed
  exact ⟨by simpa [paused.empty] using framed.taken, framed.ledger⟩

lemma Paused.startRecvHeader (paused : Paused w i j []) : Wired (w.startRecvHeader j) none :=
  paused.recv .header (by simp [headerSize])

lemma Paused.close (paused : Paused w i j rest) : Wired (w.close (w.agents j).linkId) none :=
  paused.wired.close_busy paused.serves

lemma Paused.own (paused : Paused w i j rest) : ¬(w.links i).id ≠ (w.agents j).linkId :=
  not_not.mpr paused.serves.2.symm

lemma Link.Sending.append {link : Link} (sending : link.Sending)
    (positive : ∀ chunk ∈ chunks, 0 < chunk.size) :
    Link.Sending { link with txQueue := link.txQueue ++ chunks } := by
  refine ⟨?_, ?_, ?_⟩
  · intro chunk mem
    obtain old | new := mem_append.mp mem
    · exact sending.sizes chunk old
    exact positive chunk new
  · intro chunk rest queue
    dsimp only at queue ⊢
    cases old : link.txQueue with
    | nil =>
      rw [old, nil_append] at queue
      rw [sending.start old]
      exact positive chunk (by simp [queue])
    | cons first others =>
      rw [old, cons_append] at queue
      cases queue
      exact sending.offset chunk others old
  intro queue
  exact sending.start (append_eq_nil_iff.mp queue).1

lemma replyChunks_positive (j : Fin linkCount) (buffer : Buffer) (size : Nat) :
    ∀ chunk ∈ World.replyChunks j buffer size, 0 < chunk.size := by
  intro chunk mem
  unfold World.replyChunks at mem
  split at mem
  · simp only [mem_cons, not_mem_nil, or_false] at mem
    obtain rfl | rfl := mem
    · simp [TxChunk.size, headerSize]
    assumption
  simp only [mem_singleton] at mem
  subst mem
  simp [TxChunk.size, headerSize]

lemma replyChunks_queued (j : Fin linkCount) (buffer : Buffer) (size : Nat) :
    ReplyQueued j ((World.replyChunks j buffer size).filter TxChunk.isReply) := by
  unfold World.replyChunks
  split
  · exact .whole buffer size
  exact .last .header headerSize

/-- `wcom_send` on a link in use. -/
lemma Wired.send (wired : Wired w busy) (live : (w.links i).state ≠ .undefined)
    {chunks : List TxChunk} (some : chunks ≠ []) (positive : ∀ chunk ∈ chunks, 0 < chunk.size) :
    w.send (w.links i).id chunks =
      w.setLink i { w.links i with txQueue := (w.links i).txQueue ++ chunks } := by
  unfold World.send
  rw [wired.getLink live]
  cases chunks with
  | nil => exact absurd rfl some
  | cons first rest => simp [(positive first (by simp)).ne']

lemma Answerable.startSendingMsg (answerable : Answerable w i j) (buffer : Buffer) (size : Nat)
    (reply : Reply) : Wired (w.startSendingMsg j buffer size reply) none := by
  have framed := answerable.framed
  let agent : AgentLink :=
    { w.agents j with
      header :=
        { magic := agentMsgMagic
          version := agentMsgVersion
          channel := UInt8.ofNat (w.agents j).rxChannel
          bodySize := size % 2 ^ 16 }
      answered := (w.agents j).answered ++ [((w.agents j).frames.length - 1, reply)] }
  have replied : Framed (w.links i) agent [] := by
    refine ⟨framed.taken, framed.ledger.exact, ?_, ?_⟩
    · intro answer mem
      obtain old | new := mem_append.mp mem
      · exact framed.ledger.answered answer old
      obtain ⟨frame, last, category⟩ := answerable.current
      rw [mem_singleton.mp new]
      exact ⟨frame, getLast?_eq_getElem? ▸ last, category⟩
    refine pairwise_append.mpr ⟨framed.ledger.distinct, pairwise_singleton _ _, ?_⟩
    intro earlier old later new
    exact (mem_singleton.mp new) ▸ answerable.unanswered earlier old
  have sameLink : agent.linkId = (w.agents j).linkId := rfl
  have paused := answerable.toPaused.setAgent replied sameLink
  have nonempty : World.replyChunks j buffer size ≠ [] := by
    unfold World.replyChunks
    split <;> simp
  have positive := replyChunks_positive j buffer size
  have sent := paused.wired.send paused.serves.defined nonempty positive
  have linkId : agent.linkId = ((w.setAgent j agent).links i).id := by
    exact answerable.serves.2
  change Wired ((w.setAgent j agent).send agent.linkId (World.replyChunks j buffer size)) none
  rw [linkId, sent]
  refine paused.wired.setLink paused.serves (.inr rfl) ?_ ?_
    ((paused.wired.sending i).append positive) (.inr ?_)
  · rfl
  · rfl
  rw [agents_setAgent]
  refine .replying paused.unposted paused.empty ?_
    ⟨replied.taken, replied.ledger⟩
  have silent := paused.silent
  simp only [Link.replies] at silent
  simpa [Link.replies, silent] using replyChunks_queued j buffer size

/-! ## Message handlers -/

lemma getBuffer_agent (size : Nat) (answers : Answers) :
    ∃ room, (w.getBuffer j size answers).1 = w ∨
      (w.getBuffer j size answers).1 = w.setAgent j { w.agents j with dynamicBufSize := room } := by
  unfold World.getBuffer
  split
  · exact ⟨0, .inl rfl⟩
  split
  · split
    · exact ⟨size, .inr rfl⟩
    exact ⟨0, .inr rfl⟩
  exact ⟨0, .inl rfl⟩

lemma Answerable.getBuffer (answerable : Answerable w i j) (size : Nat) (answers : Answers) :
    Answerable (w.getBuffer j size answers).1 i j := by
  obtain ⟨room, same | resized⟩ := getBuffer_agent (w := w) (j := j) size answers
  · rw [same]
    exact answerable
  rw [resized]
  exact answerable.setAgent rfl rfl rfl

lemma Answerable.sendMessage (answerable : Answerable w i j) (reply : Reply)
    (answers : Answers) : Wired (w.sendMessage j reply answers) none := by
  unfold World.sendMessage
  split
  · exact answerable.close
  rename_i needed _
  have buffered := answerable.getBuffer needed answers
  split
  next w' got =>
    rw [got] at buffered
    exact buffered.close
  rename_i w' buffer got
  rw [got] at buffered
  split
  · exact buffered.close
  exact buffered.startSendingMsg buffer _ reply

lemma Paused.openEntry (paused : Paused w i j rest) (c : Fin channelsPerLinkCount)
    (channel : Nat) : Paused (w.openEntry j c channel) i j rest := by
  have entered : ∀ channels, Paused (w.setAgent j { w.agents j with channels }) i j rest := by
    intro channels
    have framed : Framed (w.links i) { w.agents j with channels } rest :=
      paused.framed.of_eq rfl rfl
    exact paused.setAgent framed rfl
  exact (entered _).of_eq rfl rfl rfl

section

variable (answerable : Answerable w i j)
include answerable

variable (c : Fin channelsPerLinkCount)

namespace Answerable

lemma openEntry (channel : Nat) : Answerable (w.openEntry j c channel) i j := by
  refine ⟨answerable.toPaused.openEntry c channel, ?_, ?_⟩
  · simpa [World.openEntry, World.setChannel, World.setAgent] using answerable.current
  simpa [World.openEntry, World.setChannel, World.setAgent] using answerable.unanswered

lemma closeEntry : Answerable (w.closeEntry j c) i j := by
  unfold World.closeEntry World.setChannel
  dsimp only
  split
  · exact answerable.setAgent rfl rfl rfl
  have told : ∀ push, Answerable (w.setPush push) i j := fun _ => answerable.of_eq rfl rfl rfl
  refine (told _).setAgent ?_ ?_ ?_ <;> rfl

lemma processHandshake (handshakeId : Nat) (versionMajor : Option Nat) (answers : Answers) :
    Wired (w.processHandshake j handshakeId versionMajor answers) none := by
  unfold World.processHandshake
  split
  · exact answerable.close
  refine Answerable.sendMessage (i := i) ?_ _ _
  exact answerable.setAgent rfl rfl rfl

lemma processServiceMessage (command : ServiceCommand) (answers : Answers) :
    Wired (w.processServiceMessage j command answers) none := by
  cases command with
  | openChannel =>
    simp only [World.processServiceMessage, World.openChannel]
    split
    · exact answerable.sendMessage _ _
    split
    · exact (answerable.openEntry _ _).sendMessage _ _
    exact answerable.sendMessage _ _
  | closeChannel =>
    simp only [World.processServiceMessage, World.closeChannel]
    split
    · exact answerable.sendMessage _ _
    split
    · exact answerable.sendMessage _ _
    exact (answerable.closeEntry _).sendMessage _ _
  | other => exact answerable.sendMessage _ _

lemma runCommand (client : Client) (params : Params)
    (dataSpan serverSpan : Option (List UInt8)) (answers : Answers) :
    Answerable (w.runCommand j client params dataSpan serverSpan answers).1 i j := by
  have pushed : ∀ outcome, Answerable (w.withPush outcome).1 i j :=
    fun _ => answerable.of_eq rfl rfl rfl
  unfold World.runCommand
  split
  case h_1 | h_2 =>
    split
    · exact answerable.setAgent rfl rfl rfl
    exact answerable
  case h_10 | h_13 =>
    split
    · exact pushed _
    exact answerable
  all_goals first
    | exact answerable
    | exact pushed _

lemma processCommand (requestId : Nat)
    (params : Params) (dataSpan serverSpan : Option (List UInt8)) (answers : Answers) :
    Wired (w.processCommand j requestId params dataSpan serverSpan answers) none := by
  unfold World.processCommand
  split
  · exact answerable.sendMessage _ _
  split
  · exact answerable.sendMessage _ _
  exact (answerable.runCommand _ _ _ _ _).sendMessage _ _

lemma processEvent (answers : Answers) : Wired (w.processEvent j answers) none := by
  unfold World.processEvent
  dsimp only
  split
  · exact answerable.startRecvHeader
  split
  · exact answerable.sendMessage _ _
  exact answerable.startRecvHeader

lemma processMessage (nanopb : Nanopb) (body : List UInt8) (answers : Answers) :
    Wired (World.processMessage nanopb w j body answers) none := by
  unfold World.processMessage
  split
  · exact answerable.close
  split
  · exact answerable.processHandshake _ _ _
  · split
    · exact answerable.processCommand _ _ _ _ _
    exact answerable.close
  · exact answerable.processServiceMessage _ _
  · split
    · exact answerable.processEvent _
    exact answerable.close
  exact answerable.startRecvHeader

end Answerable

end

/-! ## Receive handlers -/

lemma Paused.frameDone (paused : Paused w i j ((w.agents j).headerBytes ++ body))
    (exact : Frame.Exact ⟨(w.agents j).headerBytes, body⟩) :
    Paused (w.frameDone j body) i j [] := by
  have framed := paused.framed
  have advanced : Framed (w.links i)
      { w.agents j with
        frames := (w.agents j).frames ++ [⟨(w.agents j).headerBytes, body⟩]
        headerBytes := []
        skipped := [] } [] := by
    refine ⟨by simpa [Frame.bytes] using framed.taken, ?_, ?_, framed.ledger.distinct⟩
    · intro frame mem
      obtain old | new := mem_append.mp mem
      · exact framed.ledger.exact frame old
      exact mem_singleton.mp new ▸ exact
    intro answer mem
    obtain ⟨frame, at_, category⟩ := framed.ledger.answered answer mem
    have inside := (List.getElem?_eq_some_iff.mp at_).1
    exact ⟨frame, by rw [getElem?_append_left inside]; exact at_, category⟩
  exact paused.setAgent advanced rfl

lemma Paused.frameDone_answerable {body : List UInt8}
    (paused : Paused w i j ((w.agents j).headerBytes ++ body))
    (exact : Frame.Exact ⟨(w.agents j).headerBytes, body⟩)
    (category : (Header.ofBytes (w.agents j).headerBytes).category = 0) :
    Answerable (w.frameDone j body) i j := by
  refine ⟨paused.frameDone exact, ⟨⟨(w.agents j).headerBytes, body⟩, ?_, category⟩, ?_⟩
  · simp [World.frameDone, World.setAgent]
  intro answer mem
  have before : answer ∈ (w.agents j).answered := by
    simpa [World.frameDone, World.setAgent] using mem
  obtain ⟨frame, at_, _⟩ := paused.framed.ledger.answered answer before
  have inside := (List.getElem?_eq_some_iff.mp at_).1
  simpa [World.frameDone, World.setAgent] using inside

lemma Paused.discardBody
    (paused : Paused w i j ((w.agents j).headerBytes ++ (w.agents j).skipped))
    (length : (w.agents j).headerBytes.length = headerSize)
    (total : (w.agents j).skipped.length + (w.agents j).discardRemaining =
      (Header.ofBytes (w.agents j).headerBytes).bodySize) : Wired (w.discardBody j) none := by
  unfold World.discardBody
  dsimp only
  split
  next drained =>
    have exact : Frame.Exact ⟨(w.agents j).headerBytes, (w.agents j).skipped⟩ :=
      ⟨length, by simpa [drained] using total⟩
    exact (paused.frameDone exact).startRecvHeader
  rename_i remaining
  have positive : 0 < (w.agents j).discardRemaining := Nat.pos_of_ne_zero remaining
  refine paused.recv (.discard length positive total) ?_
  exact Nat.lt_min.mpr ⟨positive, by decide⟩

lemma Paused.getBuffer (paused : Paused w i j rest) (size : Nat) (answers : Answers) :
    Paused (w.getBuffer j size answers).1 i j rest ∧
      ((w.getBuffer j size answers).1.agents j).headerBytes = (w.agents j).headerBytes := by
  obtain ⟨room, same | resized⟩ := getBuffer_agent (w := w) (j := j) size answers
  · rw [same]
    exact ⟨paused, rfl⟩
  rw [resized]
  have framed : Framed (w.links i) { w.agents j with dynamicBufSize := room } rest :=
    paused.framed.of_eq rfl rfl
  exact ⟨paused.setAgent framed rfl, by simp [World.setAgent]⟩

lemma Paused.startRecvBody (paused : Paused w i j (w.agents j).headerBytes)
    (header : (w.agents j).header = Header.ofBytes (w.agents j).headerBytes)
    (length : (w.agents j).headerBytes.length = headerSize)
    (skipped : (w.agents j).skipped = []) (answers : Answers) :
    Wired (w.startRecvBody j answers) none := by
  unfold World.startRecvBody
  dsimp only
  split
  · let agent : AgentLink :=
      { w.agents j with discardRemaining := (w.agents j).header.bodySize }
    have framed : Framed (w.links i) agent (agent.headerBytes ++ agent.skipped) := by
      have same : Framed (w.links i) agent (w.agents j).headerBytes := paused.framed.of_eq rfl rfl
      simpa [agent, skipped] using same
    have sameLink : agent.linkId = (w.agents j).linkId := rfl
    have started := paused.setAgent framed sameLink
    refine Paused.discardBody (i := i) ?_ ?_ ?_ <;> rw [agents_setAgent]
    · exact started
    · exact length
    simp [skipped, header]
  rename_i known
  split
  · exact paused.close
  rename_i nonempty
  have buffered := paused.getBuffer (w.agents j).header.bodySize answers
  split
  next w' got =>
    rw [got] at buffered
    exact buffered.1.close
  rename_i w' buffer got
  have notHeader : buffer ≠ .header := by
    unfold World.getBuffer at got
    split_ifs at got <;> cases got <;> decide
  rw [got] at buffered
  obtain ⟨ready, sameBytes⟩ := buffered
  have positive : 0 < (Header.ofBytes (w'.agents j).headerBytes).bodySize := by
    rw [sameBytes, ← header]
    exact Nat.pos_of_ne_zero nonempty
  have expects : Expects j (w'.agents j)
      ⟨j, buffer, (Header.ofBytes (w'.agents j).headerBytes).bodySize, .body⟩
      (w'.agents j).headerBytes :=
    .body notHeader (by rw [sameBytes]; exact length)
      (by rw [sameBytes, ← header]; exact not_not.mp known) positive
  rw [header, ← sameBytes]
  rw [← sameBytes] at ready
  exact ready.recv expects positive

variable {bytes : List UInt8}

lemma Paused.doneRecvHeader (paused : Paused w i j bytes)
    (length : bytes.length = headerSize) (answers : Answers) :
    Wired (w.doneRecvHeader (w.links i).id j bytes answers) none := by
  unfold World.doneRecvHeader
  dsimp only
  rw [if_neg paused.own]
  let agent : AgentLink :=
    { w.agents j with header := Header.ofBytes bytes, headerBytes := bytes, skipped := [] }
  have framed : Framed (w.links i) agent bytes := paused.framed.of_eq rfl rfl
  have parsed : Paused (w.setAgent j agent) i j bytes := paused.setAgent framed rfl
  split
  · have closed := parsed.close
    rw [parsed.serves.2] at closed
    exact closed
  have routed : Framed ((w.setAgent j agent).links i)
      { (w.setAgent j agent).agents j with rxChannel := (Header.ofBytes bytes).channel.toNat }
      bytes := by
    rw [agents_setAgent]
    exact framed.of_eq rfl rfl
  have ready := parsed.setAgent routed rfl
  refine Paused.startRecvBody (i := i) ?_ ?_ ?_ ?_ answers
  · simpa [World.setAgent, agent] using ready
  · simp [World.setAgent]
  · simpa [World.setAgent] using length
  simp [World.setAgent]

lemma Paused.doneRecvBody (paused : Paused w i j ((w.agents j).headerBytes ++ bytes))
    (exact : Frame.Exact ⟨(w.agents j).headerBytes, bytes⟩)
    (category : (Header.ofBytes (w.agents j).headerBytes).category = 0) (nanopb : Nanopb)
    (answers : Answers) :
    Wired (World.doneRecvBody nanopb w (w.links i).id j bytes answers) none := by
  unfold World.doneRecvBody
  rw [if_neg paused.own]
  exact (paused.frameDone_answerable exact category).processMessage nanopb bytes answers

lemma Paused.doneDiscardBody
    (paused : Paused w i j ((w.agents j).headerBytes ++ (w.agents j).skipped ++ bytes))
    (length : (w.agents j).headerBytes.length = headerSize)
    (room : bytes.length ≤ (w.agents j).discardRemaining)
    (total : (w.agents j).skipped.length + (w.agents j).discardRemaining =
      (Header.ofBytes (w.agents j).headerBytes).bodySize) :
    Wired (w.doneDiscardBody (w.links i).id j bytes) none := by
  unfold World.doneDiscardBody
  rw [if_neg paused.own]
  let agent : AgentLink :=
    { w.agents j with
      discardRemaining := (w.agents j).discardRemaining - bytes.length
      skipped := (w.agents j).skipped ++ bytes }
  have framed : Framed (w.links i) agent (agent.headerBytes ++ agent.skipped) := by
    have same : Framed (w.links i) agent
        ((w.agents j).headerBytes ++ (w.agents j).skipped ++ bytes) :=
      paused.framed.of_eq rfl rfl
    simpa [agent] using same
  have drained : Paused (w.setAgent j agent) i j (agent.headerBytes ++ agent.skipped) :=
    paused.setAgent framed rfl
  refine Paused.discardBody (i := i) ?_ ?_ ?_ <;> rw [agents_setAgent]
  · exact drained
  · exact length
  simp only [length_append]
  omega

lemma Paused.rxDone {before : List UInt8}
    (paused : Paused w i j (before ++ bytes)) (expects : Expects j (w.agents j) chunk before)
    (full : bytes.length = chunk.size) (nanopb : Nanopb) (answers : Answers) :
    Wired (World.rxDone nanopb w (w.links i).id chunk bytes answers) none := by
  cases expects with
  | header => exact paused.doneRecvHeader full answers
  | body _ length category _ => exact paused.doneRecvBody ⟨length, full⟩ category nanopb answers
  | discard length _ total =>
    refine paused.doneDiscardBody length ?_ total
    rw [full]
    exact min_le_left _ _

end Handling

/-! ## Steps of the com task -/

section Steps

variable {w : World} {i j : Fin linkCount}

section

variable (wired : Wired w none)
include wired

lemma Wired.connected_of_rx (queued : (w.links i).rxQueue ≠ []) :
    (w.links i).state = .connected := by
  by_contra down
  exact queued (wired.quiet i down).1

lemma Wired.connected_of_tx (queued : (w.links i).txQueue ≠ []) :
    (w.links i).state = .connected := by
  by_contra down
  exact queued (wired.quiet i down).2

lemma Wired.exists_serves (connected : (w.links i).state = .connected) : ∃ j, Serves w i j := by
  obtain ⟨j, serves⟩ := wired.served i connected
  exact ⟨j, connected, serves⟩

/-- The receive chunk at the head of a queue is that of the agent link on the link. -/
lemma Wired.reading (queue : (w.links i).rxQueue = chunk :: rest) :
    ∃ j before, rest = [] ∧ Serves w i j ∧ (w.links i).replies = [] ∧
      Expects j (w.agents j) chunk before ∧ (w.links i).rxBytes.length < chunk.size ∧
      Framed (w.links i) (w.agents j) (before ++ (w.links i).rxBytes) := by
  have connected := wired.connected_of_rx (i := i) (by simp [queue])
  obtain ⟨j, serves⟩ := wired.exists_serves connected
  rcases wired.outstanding i j serves (by simp) with
    ⟨chunk', before, posted, silent, expects, room, framed⟩ | ⟨unposted, _, _, _⟩
  · rw [queue] at posted
    obtain ⟨rfl, rfl⟩ := List.cons.inj posted
    exact ⟨j, before, rfl, serves, silent, expects, room, framed⟩
  rw [queue] at unposted
  cases unposted

end

variable {agent : AgentLink} {link : Link}

lemma Framed.read (framed : Framed link agent (before ++ link.rxBytes)) (got : List UInt8) :
    link.taken ++ got = agent.frames.flatMap Frame.bytes ++ (before ++ (link.rxBytes ++ got)) := by
  rw [framed.taken]
  simp

lemma Wired.filled (wired : Wired w none) (serves : Serves w i j)
    (silent : (w.links i).replies = [])
    (framed : Framed (w.links i) (w.agents j) (before ++ (w.links i).rxBytes)) (got : List UInt8) :
    Paused (w.setLink i
      { w.links i with rxQueue := [], rxBytes := [], taken := (w.links i).taken ++ got }) i j
      (before ++ ((w.links i).rxBytes ++ got)) := by
  have sending := wired.sending i
  let link : Link :=
    { w.links i with rxQueue := [], rxBytes := [], taken := (w.links i).taken ++ got }
  have linkAt : (w.setLink i link).links i = link := by simp [World.setLink]
  have sent : link.Sending := ⟨sending.sizes, sending.offset, sending.start⟩
  refine ⟨wired.setLink serves (.inl rfl) ?_ ?_ sent (.inl rfl), ?_, ?_, ?_, ?_, ?_⟩
  · rfl
  · rfl
  · exact ⟨by rw [linkAt]; exact serves.1, by rw [linkAt]; exact serves.2⟩
  · rw [linkAt]
  · rw [linkAt]
  · rw [linkAt]
    exact silent
  rw [linkAt]
  exact ⟨framed.read got, framed.ledger⟩

lemma Wired.linkDoRx (wired : Wired w none) (nanopb : Nanopb) (i : Fin linkCount)
    (read : Read) (answers : Answers) : Wired (w.linkDoRx nanopb i read answers) none := by
  unfold World.linkDoRx
  dsimp only
  split
  · exact wired
  rename_i chunk rest queue
  obtain ⟨j, before, rfl, serves, silent, expects, room, framed⟩ := wired.reading queue
  have live := serves.defined
  have sending := wired.sending i
  split
  next first more =>
    have gotLength := length_take_le (chunk.size - (w.links i).rxBytes.length)
      (first :: more)
    generalize (first :: more).take (chunk.size - (w.links i).rxBytes.length) = got
      at gotLength ⊢
    rw [if_neg (by omega)]
    split
    next filled =>
      have full : ((w.links i).rxBytes ++ got).length = chunk.size := by
        rw [length_append] at filled ⊢
        omega
      have done := (wired.filled serves silent framed got).rxDone expects full nanopb answers
      simpa [World.setLink] using done
    rename_i unfilled
    refine wired.setLink serves (.inl rfl) ?_ ?_ ?_
      (.inr (.reading chunk before queue silent expects ?_ ?_))
    · rfl
    · rfl
    · exact ⟨sending.sizes, sending.offset, sending.start⟩
    · exact Nat.lt_of_not_le unfilled
    exact ⟨framed.read got, framed.ledger⟩
  · exact wired
  · exact wired
  all_goals exact wired.linkInterrupt live (by simp) (by decide)

lemma Outstanding.of_eq (settled : Outstanding link agent j)
    (rxQueue : link'.rxQueue = link.rxQueue) (rxBytes : link'.rxBytes = link.rxBytes)
    (taken : link'.taken = link.taken) (replies : link'.replies = link.replies) :
    Outstanding link' agent j := by
  have moved : ∀ {rest}, Framed link agent rest → Framed link' agent rest := fun framed =>
    ⟨taken.trans framed.taken, framed.ledger⟩
  rcases settled with
    ⟨chunk, before, posted, silent, expects, room, framed⟩ | ⟨unposted, empty, queued, framed⟩
  · exact .reading chunk before (rxQueue.trans posted) (replies.trans silent) expects
      (by rw [rxBytes]; exact room) (by rw [rxBytes]; exact moved framed)
  exact .replying (rxQueue.trans unposted) (rxBytes.trans empty) (by rw [replies]; exact queued)
    (moved framed)

lemma Link.Sending.tail (sending : link.Sending) (queue : link.txQueue = chunk :: rest) :
    Link.Sending { link with txQueue := rest, txOffset := 0 } := by
  have positive : ∀ other ∈ rest, 0 < other.size := by
    intro other mem
    exact sending.sizes other (by rw [queue]; exact mem_cons_of_mem _ mem)
  refine ⟨positive, ?_, fun _ => rfl⟩
  intro next others shape
  dsimp only at shape
  exact positive next (by rw [shape]; exact mem_cons_self)

lemma completeToken_eq (w : World) (token : Nat) :
    (w.completeToken token).links = w.links ∧ (w.completeToken token).agents = w.agents ∧
      (w.completeToken token).failed = w.failed := by
  unfold World.completeToken
  split <;> exact ⟨rfl, rfl, rfl⟩

lemma Paused.completeTokens {rest : List UInt8} (paused : Paused w i j rest) :
    Paused (w.completeTokens j) i j rest := by
  have cleared : Framed (w.links i)
      { w.agents j with netReplyToken := 0, bluetoothPowerReplyToken := 0 } rest :=
    paused.framed.of_eq rfl rfl
  have completed : ∀ {w : World} (token : Nat), Paused w i j rest →
      Paused (w.completeToken token) i j rest := by
    intro w token paused
    obtain ⟨links, agents, failed⟩ := completeToken_eq w token
    exact paused.of_eq links agents failed
  exact completed _ (completed _ (paused.setAgent cleared rfl))

lemma Paused.doneSendingMsg (paused : Paused w i j []) :
    Wired (w.doneSendingMsg (w.links i).id j true) none := by
  unfold World.doneSendingMsg
  rw [if_neg paused.own]
  exact paused.completeTokens.startRecvHeader

section

variable (wired : Wired w none)
include wired

lemma Wired.linkDoTx (i : Fin linkCount) (write : Write) : Wired (w.linkDoTx i write) none := by
  unfold World.linkDoTx
  dsimp only
  split
  · exact wired
  rename_i chunk rest queue
  have connected := wired.connected_of_tx (i := i) (by simp [queue])
  have live : (w.links i).state ≠ .undefined := by simp [connected]
  obtain ⟨j, serves⟩ := wired.exists_serves connected
  have sending := wired.sending i
  have settled := wired.outstanding i j serves (by simp)
  split
  next more =>
    have room := sending.offset chunk rest queue
    rw [if_neg (by omega)]
    split
    · let link : Link := { w.links i with txQueue := rest, txOffset := 0 }
      have tail : link.Sending := sending.tail queue
      have linkAt : (w.setLink i link).links i = link := by simp [World.setLink]
      have sentOne : ∀ {busy}, (busy = some (i, j) ∨ Outstanding link (w.agents j) j) →
          Wired (w.setLink i link) busy := by
        intro busy settled
        refine wired.setLink serves (.inl rfl) ?_ ?_ tail settled <;> rfl
      cases chunk with
      | foreign size =>
        have same : link.replies = (w.links i).replies := by
          simp [link, Link.replies, queue, TxChunk.isReply]
        exact sentOne (.inr (settled.of_eq rfl rfl rfl same))
      | reply slot buffer size last =>
        have replies : (w.links i).replies =
            .reply slot buffer size last :: rest.filter TxChunk.isReply := by
          rw [Link.replies, queue]
          rfl
        obtain ⟨_, _, _, silent, _, _, _⟩ | ⟨unposted, empty, queued, framed⟩ := settled
        · rw [replies] at silent
          cases silent
        rw [replies] at queued
        generalize remaining : rest.filter TxChunk.isReply = others at queued
        have linkReplies : link.replies = others := remaining
        cases queued with
        | whole body length =>
          refine sentOne (.inr (.replying unposted empty ?_
            ⟨framed.taken, framed.ledger⟩))
          rw [linkReplies]
          exact .last body length
        | last =>
          have paused : Paused (w.setLink i link) i j [] := by
            refine ⟨sentOne (.inl rfl), ?_, ?_, ?_, ?_, ?_⟩
            · exact ⟨by rw [linkAt]; exact connected, by rw [linkAt]; exact serves.2⟩
            · rw [linkAt]; exact unposted
            · rw [linkAt]; exact empty
            · rw [linkAt]; exact linkReplies
            rw [linkAt]
            exact ⟨framed.taken, framed.ledger⟩
          have done := paused.doneSendingMsg
          rw [linkAt] at done
          exact done
    rename_i unsent
    refine wired.setLink serves (.inl rfl) ?_ ?_ ?_ (.inr ?_)
    · rfl
    · rfl
    · refine ⟨sending.sizes, ?_, fun none => ?_⟩
      · intro next others shape
        rw [queue] at shape
        cases shape
        exact Nat.lt_of_not_le unsent
      rw [queue] at none
      cases none
    exact settled.of_eq rfl rfl rfl rfl
  · exact wired
  · exact wired
  exact wired.linkInterrupt live (by simp) (by decide)

lemma Wired.foreignSend (i : Fin linkCount) (sizes : List Nat) :
    Wired (w.foreignSend i sizes) none := by
  unfold World.foreignSend
  split
  next permitted =>
    obtain ⟨connected, nonempty⟩ := permitted
    obtain ⟨j, serves⟩ := wired.exists_serves connected
    have positive : ∀ chunk ∈ sizes.map fun size => TxChunk.foreign (size + 1),
        0 < chunk.size := by
      intro chunk mem
      obtain ⟨size, _, rfl⟩ := mem_map.mp mem
      exact Nat.succ_pos size
    have noReply : (sizes.map fun size => TxChunk.foreign (size + 1)).filter TxChunk.isReply =
        [] := by
      simp [filter_eq_nil_iff, TxChunk.isReply]
    rw [wired.send serves.defined (by simpa using nonempty) positive]
    refine wired.setLink serves (.inl rfl) ?_ ?_ ((wired.sending i).append positive) (.inr ?_)
    · rfl
    · rfl
    refine (wired.outstanding i j serves (by simp)).of_eq rfl rfl rfl ?_
    simp only [Link.replies, filter_append, noReply, append_nil]
  exact wired

section

variable (unused : (w.links i).state = .undefined)
include unused

lemma Wired.exists_free : ∃ j, (w.agents j).linkId = 0 := by
  by_contra taken
  push Not at taken
  choose link serves using fun j => wired.linked j (taken j)
  -- Four busy agents serve four links, so one of them serves the unused slot.
  have injective : Function.Injective link := by
    intro j j' same
    exact wired.serves_agent (serves j) (same ▸ serves j')
  obtain ⟨j, rfl⟩ := Finite.injective_iff_surjective.mp injective i
  rw [(serves j).1] at unused
  cases unused

lemma Wired.join (free : (w.agents j).linkId = 0)
    {w' : World} (links : w'.links = update w.links i link)
    (agents : w'.agents = update w.agents j agent) (sound : w'.failed = w.failed)
    (slot : link.id % linkCount = i) (positive : link.id ≠ 0) (connected : link.state = .connected)
    (linkId : agent.linkId = link.id) (sending : link.Sending) : Wired w' (some (i, j)) := by
  have linkAt : w'.links i = link := by simp [links]
  have agentAt : w'.agents j = agent := by simp [agents]
  have linkOther : ∀ i', i' ≠ i → w'.links i' = w.links i' := by
    intro i' other
    simp [links, other]
  have agentOther : ∀ j', j' ≠ j → w'.agents j' = w.agents j' := by
    intro j' other
    simp [agents, other]
  have servedElse : ∀ i' j', Serves w i' j' → i' ≠ i ∧ j' ≠ j := by
    intro i' j' serves
    constructor
    · rintro rfl
      rw [serves.1] at unused
      cases unused
    rintro rfl
    exact wired.id_ne_zero serves (serves.2.symm.trans free)
  have distinct : ∀ j', j' ≠ j → (w.agents j').linkId ≠ link.id := by
    intro j' _ same
    obtain ⟨i', serves⟩ := wired.linked j' (same ▸ positive)
    have slot' := (wired.ids i' serves.defined).1
    rw [← serves.2, same, slot] at slot'
    exact (servedElse i' j' serves).1 (Fin.ext slot'.symm)
  refine ⟨sound.trans wired.sound, ?_, ?_, ?_, ?_, ?_, ?_, ?_⟩
  · intro i' live
    by_cases same : i' = i
    · subst same
      rw [linkAt]
      exact ⟨slot, positive⟩
    rw [linkOther i' same] at live ⊢
    exact wired.ids i' live
  · intro j' used
    by_cases same : j' = j
    · subst same
      exact ⟨i, by rw [linkAt]; exact connected, by rw [linkAt, agentAt]; exact linkId⟩
    rw [agentOther j' same] at used
    obtain ⟨i', serves⟩ := wired.linked j' used
    have other := (servedElse i' j' serves).1
    exact ⟨i', by rw [linkOther i' other]; exact serves.1,
      by rw [linkOther i' other, agentOther j' same]; exact serves.2⟩
  · intro j' j'' used same
    by_cases left : j' = j <;> by_cases right : j'' = j
    · rw [left, right]
    · subst left
      rw [agentAt, agentOther j'' right, linkId] at same
      exact absurd same.symm (distinct j'' right)
    · subst right
      rw [agentAt, agentOther j' left, linkId] at same
      exact absurd same (distinct j' left)
    rw [agentOther j' left] at used same
    rw [agentOther j'' right] at same
    exact wired.unique j' j'' used same
  · intro i' up
    by_cases same : i' = i
    · subst same
      exact ⟨j, by rw [linkAt, agentAt]; exact linkId⟩
    rw [linkOther i' same] at up ⊢
    obtain ⟨j', serves⟩ := wired.served i' up
    have other := (servedElse i' j' ⟨up, serves⟩).2
    exact ⟨j', by rw [agentOther j' other]; exact serves⟩
  · intro i' down
    have other : i' ≠ i := by
      rintro rfl
      exact down (by rw [linkAt]; exact connected)
    rw [linkOther i' other] at down ⊢
    exact wired.quiet i' down
  · intro i'
    by_cases same : i' = i
    · subst same
      rw [linkAt]
      exact sending
    rw [linkOther i' same]
    exact wired.sending i'
  intro i' j' serves notBusy
  by_cases same : i' = i
  · subst same
    have sameId := serves.2
    rw [linkAt] at sameId
    by_cases agentSame : j' = j
    · exact absurd (by rw [agentSame]) notBusy
    rw [agentOther j' agentSame] at sameId
    exact absurd sameId (distinct j' agentSame)
  obtain ⟨up, sameId⟩ := serves
  rw [linkOther i' same] at up sameId ⊢
  by_cases agentSame : j' = j
  · subst agentSame
    rw [agentAt, linkId] at sameId
    have slot' := (wired.ids i' (by simp [up])).1
    rw [← sameId, slot] at slot'
    exact absurd (Fin.ext slot'.symm) same
  rw [agentOther j' agentSame] at sameId ⊢
  exact wired.outstanding i' j' ⟨up, sameId⟩ (by simp)

lemma Wired.agentConnect (free : (w.agents j).linkId = 0) {w' : World}
    (links : w'.links = update w.links i link) (agents : w'.agents = w.agents)
    (sound : w'.failed = w.failed) (slot : link.id % linkCount = i) (positive : link.id ≠ 0)
    (connected : link.state = .connected) (sending : link.Sending) (replies : link.replies = [])
    (rxQueue : link.rxQueue = []) (rxBytes : link.rxBytes = []) (taken : link.taken = []) :
    Wired (w'.agentConnect j link.id) none := by
  let agent := w'.freshAgent j link.id
  have linkAt : (w'.setAgent j agent).links i = link := by simp [World.setAgent, links]
  have joined : Wired (w'.setAgent j agent) (some (i, j)) := by
    have updated : (w'.setAgent j agent).agents = update w.agents j agent := by
      simp [World.setAgent, agents]
    exact wired.join unused free links updated sound slot positive connected rfl sending
  have paused : Paused (w'.setAgent j agent) i j [] := by
    refine ⟨joined, ⟨?_, ?_⟩, ?_, ?_, ?_, ?_⟩ <;> rw [linkAt]
    · exact connected
    · rw [agents_setAgent]
      rfl
    · exact rxQueue
    · exact rxBytes
    · exact replies
    rw [agents_setAgent]
    exact ⟨by simp [taken, agent, World.freshAgent], by simp [agent, World.freshAgent],
      by simp [agent, World.freshAgent], by simp [agent, World.freshAgent]⟩
  exact (paused.openEntry 0 0).startRecvHeader

end

lemma Wired.addLink_cases (permission : Permission)
    (isLocal removes : Bool) : w.addLink permission isLocal removes = w ∨
      ∃ (i j : Fin linkCount) (id : Nat) (added : World),
        (w.links i).state = .undefined ∧ (w.agents j).linkId = 0 ∧
        id % linkCount = i ∧ id ≠ 0 ∧ added.agents = w.agents ∧ added.failed = w.failed ∧
        added.links = update w.links i
          { id, state := .connected, permission, isLocal, interruptionHandler := some removes } ∧
        w.addLink permission isLocal removes = added.agentConnect j id := by
  unfold World.addLink
  split
  · exact .inl rfl
  split
  · exact .inl rfl
  rename_i i found
  have unused : (w.links i).state = .undefined := by simpa using find?_some found
  dsimp only
  generalize generatorEq : (if w.linkIdGenerator + 1 ≥ linkGeneratorLimit then 1
    else w.linkIdGenerator + 1) = generator
  have positive : 0 < generator := by
    rw [← generatorEq]
    split <;> omega
  obtain ⟨open_, freeId⟩ := wired.exists_free unused
  simp only [World.onLinkStateChanged, if_true]
  split
  next missing =>
    have absent := find?_eq_none.mp missing open_ (mem_slots open_)
    simp [World.setLink, freeId] at absent
  rename_i j chosen
  have picked := find?_some chosen
  have free : (w.agents j).linkId = 0 := of_decide_eq_true picked
  refine .inr ⟨i, j, generator * linkCount + i,
    { w with linkIdGenerator := generator }.setLink i _, unused,
    free, ?_, ?_, rfl, rfl, rfl, rfl⟩
  · simp only [linkCount]
    omega
  simp only [linkCount]
  omega

lemma Wired.addLink (permission : Permission) (isLocal removes : Bool) :
    Wired (w.addLink permission isLocal removes) none := by
  rcases wired.addLink_cases permission isLocal removes with
    same | ⟨i, j, id, added, unused, free, slot, used, agents, sound, links, same⟩
  · rw [same]
    exact wired
  rw [same]
  have sending : ∀ link : Link, link =
      { id := id, state := .connected, permission := permission, isLocal := isLocal
        interruptionHandler := some removes } → link.Sending := by
    rintro link rfl
    exact ⟨by simp, by simp, fun _ => by simp⟩
  have connected := wired.agentConnect unused free links agents sound slot used rfl
    (sending _ rfl) rfl rfl rfl rfl
  exact connected

lemma Wired.step (nanopb : Nanopb) (event : Event) : Wired (w.step nanopb event) none := by
  cases event with
  | add permission isLocal removes => exact wired.addLink permission isLocal removes
  | remove linkId => exact wired.removeLink linkId
  | close linkId => exact wired.close linkId
  | stall i =>
    simp only [World.step]
    split
    next stalled => exact wired.linkInterrupt (by simp [stalled.1]) (by simp) (by decide)
    exact wired
  | send i sizes => exact wired.foreignSend i sizes
  | read i read answers => exact wired.linkDoRx nanopb i read answers
  | write i write => exact wired.linkDoTx i write

end

end Steps

lemma Reachable.wired (reachable : Reachable nanopb w) :
    Wired w none := by
  obtain ⟨events, rfl⟩ := reachable
  refine foldlRecOn (motive := fun w => Wired w none) events _ wired_initial ?_
  intro w wired event _
  exact wired.step nanopb event

/-- What holds of a connected link and the agent link that serves it, between two
steps of the com task. -/
structure Exclusive (link : Link) (agent : AgentLink) (j : Fin linkCount) : Prop where
  /-- The receive chunk is queued once and no reply, or the reply once and no read. -/
  either :
    (∃ chunk, link.rxQueue = [chunk] ∧ chunk.slot = j ∧ link.replies = []) ∨
      (link.rxQueue = [] ∧ ReplyQueued j link.replies)
  /-- No buffer of the agent link is received into while its reply is sent from one. -/
  unshared : ∀ chunk ∈ link.rxQueue, ∀ buffer size last,
    TxChunk.reply j buffer size last ∉ link.txQueue
  /-- Every frame, of whatever category, is taken with exactly the body its header
  announces, and a header read starts where the last frame ends. -/
  frames : (∀ frame ∈ agent.frames, frame.Exact) ∧
    ∃ rest, link.taken = agent.frames.flatMap Frame.bytes ++ rest ∧
      (link.rxQueue = [] → rest = []) ∧
      ∀ chunk, link.rxQueue = [chunk] → chunk.handler = .header → rest = link.rxBytes
  /-- No frame is answered twice, and none of an unknown category at all. -/
  answers : agent.answered.Pairwise (fun earlier later => earlier.1 < later.1) ∧
    ∀ answer ∈ agent.answered, ∃ frame, agent.frames[answer.1]? = some frame ∧ frame.category = 0

variable {agent : AgentLink}

lemma Expects.slot (expects : Expects j agent chunk before) : chunk.slot = j := by
  cases expects <;> rfl

lemma Expects.before_of_header (expects : Expects j agent chunk before)
    (header : chunk.handler = .header) : before = [] := by
  cases expects with
  | header => rfl
  | body | discard => cases header

lemma Outstanding.exclusive (settled : Outstanding link agent j) : Exclusive link agent j := by
  rcases settled with
    ⟨chunk, before, posted, silent, expects, _, framed⟩ | ⟨unposted, empty, queued, framed⟩
  · refine ⟨.inl ⟨chunk, posted, expects.slot, silent⟩, ?_, ⟨framed.ledger.exact,
      before ++ link.rxBytes, framed.taken, by simp [posted], ?_⟩,
      framed.ledger.distinct, framed.ledger.answered⟩
    · intro _ _ buffer size last queued
      exact filter_eq_nil_iff.mp silent _ queued rfl
    intro header same isHeader
    obtain rfl : chunk = header := by simpa [posted] using same
    simp [expects.before_of_header isHeader]
  exact ⟨.inr ⟨unposted, queued⟩, by simp [unposted], ⟨framed.ledger.exact, [], framed.taken,
    fun _ => rfl, by simp [unposted]⟩, framed.ledger.distinct, framed.ledger.answered⟩

/-- On every connected link one agent link has exactly one operation outstanding,
and no assertion of the source has failed. -/
theorem agent_link_one_outstanding (nanopb : Nanopb) (w : World) (reachable : Reachable nanopb w)
    (i : Fin linkCount) (connected : (w.links i).state = .connected) : w.failed = false ∧
      ∃! j, (w.agents j).linkId = (w.links i).id ∧ Exclusive (w.links i) (w.agents j) j := by
  have wired := reachable.wired
  obtain ⟨j, serves⟩ := wired.exists_serves connected
  refine ⟨wired.sound, j, ⟨serves.2, (wired.outstanding i j serves (by simp)).exclusive⟩, ?_⟩
  intro j' other
  exact wired.serves_agent ⟨connected, other.1⟩ serves

def deafNanopb : Nanopb where
  decode _ := none
  decodeAppPushData _ := none
  decodeConfPushData _ := none
  decodeSyncTime _ := none
  decodeConsoleData _ := none

/-- A link that has just been added. -/
theorem agent_link_one_outstanding_added :
    ∃ w, Reachable deafNanopb w ∧ (w.links 0).state = .connected ∧ w.failed = false ∧
      ∃! j, (w.agents j).linkId = (w.links 0).id ∧ Exclusive (w.links 0) (w.agents j) j :=
  ⟨World.run deafNanopb {} [.add .full true true], ⟨_, rfl⟩, rfl,
    agent_link_one_outstanding deafNanopb _ ⟨_, rfl⟩ 0 rfl⟩

end WendyLite.Com
