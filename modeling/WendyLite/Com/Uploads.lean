import WendyLite.Com.Outstanding

/-! # Uploads are bracketed and exclusive

A client id encodes the slots of its link and channel, so two open channels never
share one. A push in progress is always owned by a client whose channel is open;
when the channel or the link goes away the push is aborted first.
-/

namespace WendyLite.Com

variable (w : World)

variable (j : Fin linkCount)

variable (c : Fin channelsPerLinkCount)

def IsClient (client : Client) :
    Prop :=
  client.id ≠ 0 ∧ ((w.agents j).channels c).clientId = client.id ∧
    ((w.agents j).channels c).opening = client.opening

/-- Client ids name open channels, and the owner of the push is one of them. -/
structure Admitted (w : World) : Prop where
  encoded : ∀ j c, ((w.agents j).channels c).clientId ≠ 0 →
    ((w.agents j).channels c).clientId % (linkCount * channelsPerLinkCount) =
      j * channelsPerLinkCount + c
  recent : ∀ j c, ((w.agents j).channels c).clientId ≠ 0 →
    ((w.agents j).channels c).opening < w.openings
  apart : ∀ j c j' c', ((w.agents j).channels c).clientId ≠ 0 →
    ((w.agents j').channels c').clientId ≠ 0 →
    ((w.agents j).channels c).opening = ((w.agents j').channels c').opening → j = j' ∧ c = c'
  closed : ∀ j, (w.agents j).linkId = 0 → ∀ c, ((w.agents j).channels c).clientId = 0
  owner : ∃ owner, w.push.Tracks owner ∧
    ∀ client, owner = some client → ∃ j c, IsClient w j c client

lemma admitted_initial : Admitted {} where
  encoded _ _ used := absurd rfl used
  recent _ _ used := absurd rfl used
  apart _ _ _ _ used := absurd rfl used
  closed _ _ _ := rfl
  owner := ⟨none, Push.tracks_initial, by simp⟩

section Ids

variable {w : World} {j j' : Fin linkCount} {c c' : Fin channelsPerLinkCount}
  {client client' : Client}

lemma Admitted.slots_eq (admitted : Admitted w) (isClient : IsClient w j c client)
    (isClient' : IsClient w j' c' client') (same : client.id = client'.id) : j = j' ∧ c = c' := by
  have left := admitted.encoded j c (by rw [isClient.2.1]; exact isClient.1)
  have right := admitted.encoded j' c' (by rw [isClient'.2.1]; exact isClient'.1)
  rw [isClient.2.1] at left
  rw [isClient'.2.1, ← same] at right
  have total := left.symm.trans right
  simp only [channelsPerLinkCount] at total
  have low : (c : Nat) < 4 := c.isLt
  have low' : (c' : Nat) < 4 := c'.isLt
  exact ⟨Fin.ext (by omega), Fin.ext (by omega)⟩

lemma Admitted.client_eq (admitted : Admitted w) (isClient : IsClient w j c client)
    (isClient' : IsClient w j' c' client') (same : client.id = client'.id) : client = client' := by
  obtain ⟨rfl, rfl⟩ := admitted.slots_eq isClient isClient' same
  obtain ⟨id, opening⟩ := client
  have openings := isClient.2.2.symm.trans isClient'.2.2
  simp only at same openings
  rw [same, openings]

lemma Admitted.client_eq_of_opening (admitted : Admitted w) (isClient : IsClient w j c client)
    (isClient' : IsClient w j' c' client') (same : client.opening = client'.opening) :
    client = client' := by
  have used : ((w.agents j).channels c).clientId ≠ 0 := isClient.2.1 ▸ isClient.1
  have used' : ((w.agents j').channels c').clientId ≠ 0 := isClient'.2.1 ▸ isClient'.1
  obtain ⟨rfl, rfl⟩ := admitted.apart j c j' c' used used'
    (isClient.2.2.trans (same.trans isClient'.2.2.symm))
  exact admitted.client_eq isClient isClient' (isClient.2.1.symm.trans isClient'.2.1)

/-- An id encodes its slots: the link and channel counts divide the range. -/
lemma generateClientId_encodes (j : Fin linkCount) (c : Fin channelsPerLinkCount)
    (idGen : UInt32) : (World.generateClientId j c idGen).2 % (linkCount * channelsPerLinkCount) =
      j * channelsPerLinkCount + c := by
  have encodes : ∀ counter, World.clientIdOf counter j c % (linkCount * channelsPerLinkCount) =
      j * channelsPerLinkCount + c := by
    intro counter
    simp only [World.clientIdOf, linkCount, channelsPerLinkCount]
    omega
  unfold World.generateClientId
  dsimp only
  split <;> exact encodes _

end Ids

/-! ## Edits that clients do not see -/

/-- The channels, the agents in use and the push are the same. -/
structure Undisturbed (w w' : World) : Prop where
  channels : ∀ j, (w'.agents j).channels = (w.agents j).channels
  linkIds : ∀ j, (w'.agents j).linkId = (w.agents j).linkId
  openings : w'.openings = w.openings
  push : w'.push = w.push

lemma Undisturbed.refl : Undisturbed w w := ⟨fun _ => rfl, fun _ => rfl, rfl, rfl⟩

lemma Undisturbed.trans {w w' w'' : World} (first : Undisturbed w w')
    (second : Undisturbed w' w'') : Undisturbed w w'' where
  channels j := (second.channels j).trans (first.channels j)
  linkIds j := (second.linkIds j).trans (first.linkIds j)
  openings := second.openings.trans first.openings
  push := second.push.trans first.push

lemma Admitted.undisturbed {w w' : World} (admitted : Admitted w)
    (same : Undisturbed w w') : Admitted w' := by
  refine ⟨?_, ?_, ?_, ?_, ?_⟩
  · intro j c
    rw [same.channels]
    exact admitted.encoded j c
  · intro j c
    rw [same.channels, same.openings]
    exact admitted.recent j c
  · intro j c j' c'
    rw [same.channels, same.channels]
    exact admitted.apart j c j' c'
  · intro j
    rw [same.channels, same.linkIds]
    exact admitted.closed j
  obtain ⟨owner, tracks, live⟩ := admitted.owner
  refine ⟨owner, same.push ▸ tracks, ?_⟩
  intro client owned
  obtain ⟨j, c, isClient⟩ := live client owned
  exact ⟨j, c, by simpa only [IsClient, same.channels] using isClient⟩

section Edits

variable (w : World) (i j : Fin linkCount)

lemma setLink_undisturbed (link : Link) : Undisturbed w (w.setLink i link) :=
  ⟨fun _ => rfl, fun _ => rfl, rfl, rfl⟩

lemma fail_undisturbed : Undisturbed w w.fail := ⟨fun _ => rfl, fun _ => rfl, rfl, rfl⟩

lemma setAgent_undisturbed (channels : agent.channels = (w.agents j).channels)
    (linkId : agent.linkId = (w.agents j).linkId) : Undisturbed w (w.setAgent j agent) := by
  refine ⟨fun j' => ?_, fun j' => ?_, rfl, rfl⟩
  · by_cases same : j' = j
    · subst same
      simpa [World.setAgent] using channels
    simp [World.setAgent, same]
  by_cases same : j' = j
  · subst same
    simpa [World.setAgent] using linkId
  simp [World.setAgent, same]

variable (linkId : Nat)

lemma recv_undisturbed (chunk : RxChunk) : Undisturbed w (w.recv linkId chunk) := by
  unfold World.recv
  split
  · exact fail_undisturbed w
  split
  · exact fail_undisturbed w
  exact setLink_undisturbed w _ _

lemma send_undisturbed (chunks : List TxChunk) : Undisturbed w (w.send linkId chunks) := by
  unfold World.send
  split
  · exact fail_undisturbed w
  split
  · exact fail_undisturbed w
  split
  · exact fail_undisturbed w
  exact setLink_undisturbed w _ _

lemma startRecvHeader_undisturbed : Undisturbed w (w.startRecvHeader j) := recv_undisturbed w _ _

lemma completeToken_undisturbed (token : Nat) : Undisturbed w (w.completeToken token) := by
  unfold World.completeToken
  split
  · exact .refl w
  exact ⟨fun _ => rfl, fun _ => rfl, rfl, rfl⟩

lemma completeTokens_undisturbed : Undisturbed w (w.completeTokens j) := by
  unfold World.completeTokens
  dsimp only
  refine .trans ?_ (completeToken_undisturbed _ _)
  refine .trans ?_ (completeToken_undisturbed _ _)
  exact setAgent_undisturbed w j rfl rfl

lemma doneSendingMsg_undisturbed (success : Bool) :
    Undisturbed w (w.doneSendingMsg linkId j success) := by
  unfold World.doneSendingMsg
  split
  · exact .refl w
  have completed := completeTokens_undisturbed w j
  dsimp only
  split
  · exact completed.trans (startRecvHeader_undisturbed _ j)
  exact completed

lemma txDone_undisturbed (success : Bool) (chunk : TxChunk) :
    Undisturbed w (w.txDone linkId success chunk) := by
  unfold World.txDone
  split
  · exact doneSendingMsg_undisturbed w _ _ _
  exact .refl w

lemma clearRxQueue_undisturbed : Undisturbed w (w.clearRxQueue i) := setLink_undisturbed w i _

lemma clearTxQueue_undisturbed : Undisturbed w (w.clearTxQueue i) := by
  unfold World.clearTxQueue
  refine .trans ?_ (setLink_undisturbed _ _ _)
  refine List.foldlRecOn (motive := Undisturbed w) _ _ (.refl w) ?_
  intro w' same chunk _
  exact same.trans (txDone_undisturbed w' _ _ _)

lemma getBuffer_undisturbed (size : Nat) (answers : Answers) :
    Undisturbed w (w.getBuffer j size answers).1 := by
  obtain ⟨room, same | resized⟩ := getBuffer_agent (w := w) (j := j) size answers
  · rw [same]
    exact .refl w
  rw [resized]
  exact setAgent_undisturbed w j rfl rfl

lemma startSendingMsg_undisturbed (buffer : Buffer) (size : Nat) (reply : Reply) :
    Undisturbed w (w.startSendingMsg j buffer size reply) := by
  unfold World.startSendingMsg
  refine .trans ?_ (send_undisturbed _ _ _)
  exact setAgent_undisturbed w j rfl rfl

lemma frameDone_undisturbed (body : List UInt8) : Undisturbed w (w.frameDone j body) :=
  setAgent_undisturbed w j rfl rfl

end Edits

/-! ## Channels open and close -/

section Channels

variable {w : World} {j : Fin linkCount}

lemma Admitted.openEntry (admitted : Admitted w) (used : (w.agents j).linkId ≠ 0)
    {c : Fin channelsPerLinkCount} (free : ((w.agents j).channels c).clientId = 0)
    (channel : Nat) : Admitted (w.openEntry j c channel) := by
  let entry : Channel :=
    { channel
      clientId := (World.generateClientId j c ((w.agents j).channels c).idGen).2
      idGen := (World.generateClientId j c ((w.agents j).channels c).idGen).1
      opening := w.openings }
  have entries : ∀ j' c', (((w.openEntry j c channel).agents j').channels c') =
      if j' = j ∧ c' = c then entry else (w.agents j').channels c' := by
    intro j' c'
    by_cases agent : j' = j
    · subst agent
      by_cases slot : c' = c
      · subst slot
        simp [World.openEntry, World.setChannel, World.setAgent, entry]
      simp [World.openEntry, World.setChannel, World.setAgent, slot]
    simp [World.openEntry, World.setChannel, World.setAgent, agent]
  have linkIds : ∀ j', ((w.openEntry j c channel).agents j').linkId = (w.agents j').linkId := by
    intro j'
    by_cases agent : j' = j
    · subst agent
      simp [World.openEntry, World.setChannel, World.setAgent]
    simp [World.openEntry, World.setChannel, World.setAgent, agent]
  have openings : (w.openEntry j c channel).openings = w.openings + 1 := rfl
  refine ⟨?_, ?_, ?_, ?_, ?_⟩
  · intro j' c' live
    rw [entries] at live ⊢
    split at live
    next same =>
      rw [if_pos same, same.1, same.2]
      exact generateClientId_encodes j c _
    rename_i other
    rw [if_neg other]
    exact admitted.encoded j' c' live
  · intro j' c' live
    rw [entries] at live ⊢
    split at live
    next same =>
      rw [if_pos same]
      exact Nat.lt_succ_self _
    rename_i other
    rw [if_neg other]
    exact Nat.lt_succ_of_lt (admitted.recent j' c' live)
  · intro j' c' j'' c'' live live' same
    rw [entries] at live live' same
    rw [entries] at same
    split at live <;> split at live'
    next left right => exact ⟨left.1.trans right.1.symm, left.2.trans right.2.symm⟩
    next left right =>
      rw [if_pos left, if_neg right] at same
      exact absurd same (Nat.ne_of_gt (admitted.recent j'' c'' live'))
    next left right =>
      rw [if_neg left, if_pos right] at same
      exact absurd same (Nat.ne_of_lt (admitted.recent j' c' live))
    rename_i left right
    rw [if_neg left, if_neg right] at same
    exact admitted.apart j' c' j'' c'' live live' same
  · intro j' unused c'
    rw [linkIds] at unused
    rw [entries, if_neg (by rintro ⟨rfl, _⟩; exact used unused)]
    exact admitted.closed j' unused c'
  obtain ⟨owner, tracks, live⟩ := admitted.owner
  refine ⟨owner, tracks, ?_⟩
  intro client owned
  obtain ⟨j', c', isClient⟩ := live client owned
  refine ⟨j', c', ?_⟩
  have other : ¬(j' = j ∧ c' = c) := by
    rintro ⟨rfl, rfl⟩
    exact isClient.1 (isClient.2.1.symm.trans free)
  simpa only [IsClient, entries, if_neg other] using isClient

lemma Admitted.closeEntry (admitted : Admitted w) (c : Fin channelsPerLinkCount) :
    Admitted (w.closeEntry j c) := by
  have entries : ∀ j' c', (((w.closeEntry j c).agents j').channels c') =
      if j' = j ∧ c' = c then { (w.agents j).channels c with clientId := 0, channel := noChannel }
      else (w.agents j').channels c' := by
    intro j' c'
    unfold World.closeEntry
    by_cases agent : j' = j
    · subst agent
      by_cases slot : c' = c
      · subst slot
        simp [World.setChannel, World.setAgent]
      dsimp only
      split <;> simp [World.setChannel, World.setAgent, World.setPush, slot]
    dsimp only
    split <;> simp [World.setChannel, World.setAgent, World.setPush, agent]
  have linkIds : ∀ j', ((w.closeEntry j c).agents j').linkId = (w.agents j').linkId :=
    (closeEntry_beside rfl c).linkIds
  have openings : (w.closeEntry j c).openings = w.openings := by
    unfold World.closeEntry
    dsimp only
    split <;> rfl
  have still : ∀ j' c', (((w.closeEntry j c).agents j').channels c').clientId ≠ 0 →
      ¬(j' = j ∧ c' = c) := by
    intro j' c' live same
    rw [entries, if_pos same] at live
    exact live rfl
  refine ⟨?_, ?_, ?_, ?_, ?_⟩
  · intro j' c' live
    have other := still j' c' live
    rw [entries, if_neg other] at live ⊢
    exact admitted.encoded j' c' live
  · intro j' c' live
    have other := still j' c' live
    rw [entries, if_neg other] at live ⊢
    rw [openings]
    exact admitted.recent j' c' live
  · intro j' c' j'' c'' live live' same
    have other := still j' c' live
    have other' := still j'' c'' live'
    rw [entries, if_neg other] at live same
    rw [entries, if_neg other'] at live' same
    exact admitted.apart j' c' j'' c'' live live' same
  · intro j' unused c'
    rw [linkIds] at unused
    rw [entries]
    split
    · rfl
    exact admitted.closed j' unused c'
  obtain ⟨owner, tracks, live⟩ := admitted.owner
  by_cases vacant : ((w.agents j).channels c).clientId = 0
  · have push : (w.closeEntry j c).push = w.push := by
      simp [World.closeEntry, vacant, World.setChannel, World.setAgent]
    refine ⟨owner, push ▸ tracks, ?_⟩
    intro client owned
    obtain ⟨j', c', isClient⟩ := live client owned
    have other : ¬(j' = j ∧ c' = c) := by
      rintro ⟨rfl, rfl⟩
      exact isClient.1 (isClient.2.1.symm.trans vacant)
    exact ⟨j', c', by simpa only [IsClient, entries, if_neg other] using isClient⟩
  let leaving : Client := ⟨((w.agents j).channels c).clientId, ((w.agents j).channels c).opening⟩
  have isLeaving : IsClient w j c leaving := ⟨vacant, rfl, rfl⟩
  have push : (w.closeEntry j c).push = wcomCmdClientDisconnected leaving w.push := by
    simp [World.closeEntry, vacant, World.setChannel, World.setAgent, World.setPush, leaving]
  refine ⟨if owner = some leaving then none else owner, ?_, ?_⟩
  · rw [push]
    refine wcomCmdClientDisconnected_tracks tracks leaving ?_ ?_
    · intro holder owned
      obtain ⟨j', c', isHolder⟩ := live holder owned
      exact ⟨admitted.client_eq isLeaving isHolder, fun same => same ▸ rfl⟩
    intro holder owned same
    obtain ⟨j', c', isHolder⟩ := live holder owned
    exact admitted.client_eq_of_opening isLeaving isHolder same
  intro client owned
  split at owned
  · cases owned
  rename_i other
  obtain ⟨j', c', isClient⟩ := live client owned
  have elsewhere : ¬(j' = j ∧ c' = c) := by
    rintro ⟨rfl, rfl⟩
    have same := admitted.client_eq isClient isLeaving (isClient.2.1.symm)
    exact other (same ▸ owned)
  exact ⟨j', c', by simpa only [IsClient, entries, if_neg elsewhere] using isClient⟩

end Channels

/-! ## Links up and down -/

section Links

variable {w : World} {i j : Fin linkCount}

lemma Admitted.closeEntries (admitted : Admitted w) (entries : List (Fin channelsPerLinkCount)) :
    Admitted (entries.foldl (fun w c => w.closeEntry j c) w) := by
  refine List.foldlRecOn (motive := Admitted) entries _ admitted ?_
  intro w admitted c _
  exact admitted.closeEntry c

lemma closeEntry_closed (w : World) {c c' : Fin channelsPerLinkCount}
    (either : c' = c ∨ ((w.agents j).channels c').clientId = 0) :
    (((w.closeEntry j c).agents j).channels c').clientId = 0 := by
  unfold World.closeEntry
  dsimp only
  by_cases same : c' = c
  · subst same
    simp [World.setChannel, World.setAgent]
  have before := either.resolve_left same
  split <;> simpa [World.setChannel, World.setAgent, World.setPush, same] using before

lemma closeEntries_closed (entries : List (Fin channelsPerLinkCount)) (w : World)
    {c : Fin channelsPerLinkCount} (either : c ∈ entries ∨ ((w.agents j).channels c).clientId = 0) :
    (((entries.foldl (fun w c => w.closeEntry j c) w).agents j).channels c).clientId = 0 := by
  induction entries generalizing w with
  | nil => exact either.resolve_left List.not_mem_nil
  | cons first rest ih =>
    refine ih _ ?_
    obtain mem | closed := either
    · obtain rfl | later := List.mem_cons.mp mem
      · exact .inr (closeEntry_closed w (.inl rfl))
      exact .inl later
    exact .inr (closeEntry_closed w (.inr closed))

lemma Admitted.setAgent_closed (admitted : Admitted w)
    (before : ∀ c, ((w.agents j).channels c).clientId = 0)
    (after : ∀ c, (agent.channels c).clientId = 0) : Admitted (w.setAgent j agent) := by
  have entries : ∀ j' c', (((w.setAgent j agent).agents j').channels c').clientId ≠ 0 →
      j' ≠ j ∧ (w.setAgent j agent).agents j' = w.agents j' := by
    intro j' c' live
    by_cases same : j' = j
    · subst same
      simp [World.setAgent, after] at live
    exact ⟨same, by simp [World.setAgent, same]⟩
  refine ⟨?_, ?_, ?_, ?_, ?_⟩
  · intro j' c live
    have eq := (entries j' c live).2
    rw [eq] at live ⊢
    exact admitted.encoded j' c live
  · intro j' c live
    have eq := (entries j' c live).2
    rw [eq] at live ⊢
    exact admitted.recent j' c live
  · intro j' c j'' c' live live' same
    have eq := (entries j' c live).2
    have eq' := (entries j'' c' live').2
    rw [eq] at live same
    rw [eq'] at live' same
    exact admitted.apart j' c j'' c' live live' same
  · intro j' unused c
    by_cases same : j' = j
    · subst same
      simpa [World.setAgent] using after c
    simp only [World.setAgent, Function.update_of_ne same] at unused ⊢
    exact admitted.closed j' unused c
  obtain ⟨owner, tracks, live⟩ := admitted.owner
  refine ⟨owner, tracks, ?_⟩
  intro client owned
  obtain ⟨j', c, isClient⟩ := live client owned
  have other : j' ≠ j := by
    rintro rfl
    exact isClient.1 (isClient.2.1.symm.trans (before c))
  refine ⟨j', c, ?_⟩
  simpa only [IsClient, World.setAgent, Function.update_of_ne other] using isClient

lemma Admitted.agentDisconnect (admitted : Admitted w) : Admitted (w.agentDisconnect j) := by
  have completed := admitted.undisturbed (completeTokens_undisturbed w j)
  have closed := fun c => closeEntries_closed (j := j) slots (w.completeTokens j)
    (.inl (mem_slots c))
  exact (completed.closeEntries slots).setAgent_closed closed closed

variable {linkId : Nat}

section

variable (admitted : Admitted w)
include admitted

namespace Admitted

lemma agentConnect (free : (w.agents j).linkId = 0)
    (used : linkId ≠ 0) : Admitted (w.agentConnect j linkId) := by
  have started : Admitted (w.setAgent j (w.freshAgent j linkId)) :=
    admitted.setAgent_closed (admitted.closed j free) fun _ => rfl
  have opened : Admitted ((w.setAgent j (w.freshAgent j linkId)).openEntry j 0 0) := by
    refine started.openEntry ?_ ?_ 0
    · simpa [World.setAgent, World.freshAgent] using used
    simp [World.setAgent, World.freshAgent]
  exact opened.undisturbed (startRecvHeader_undisturbed _ j)

lemma onLinkStateChanged (used : linkId ≠ 0)
    (state : LinkState) : Admitted (w.onLinkStateChanged linkId state) := by
  unfold World.onLinkStateChanged
  split
  · split
    · exact admitted
    next j found => exact admitted.agentConnect (by simpa using List.find?_some found) used
  split
  · exact admitted
  exact admitted.agentDisconnect

lemma lower (used : (w.links i).id ≠ 0) (state : LinkState) : Admitted (w.lower i state) := by
  unfold World.lower
  refine Admitted.onLinkStateChanged ?_ used state
  refine Admitted.undisturbed ?_ (clearTxQueue_undisturbed _ i)
  refine Admitted.undisturbed ?_ (clearRxQueue_undisturbed _ i)
  exact admitted.undisturbed (setLink_undisturbed w i _)

lemma removeSlot (used : (w.links i).id ≠ 0) : Admitted (w.removeSlot i) :=
  (admitted.lower used .undefined).undisturbed (setLink_undisturbed _ i _)

lemma removeLink (used : linkId ≠ 0) : Admitted (w.removeLink linkId) := by
  unfold World.removeLink
  split
  · exact admitted
  next i found => exact admitted.removeSlot ((find_link found).2 ▸ used)

lemma linkInterrupt (used : (w.links i).id ≠ 0)
    (state : LinkState) : Admitted (w.linkInterrupt i state) := by
  unfold World.linkInterrupt
  have quieted := (admitted.lower used state).undisturbed (setLink_undisturbed _ i
    { (w.lower i state).links i with interruptionHandler := none })
  dsimp only
  split
  · exact quieted.removeLink used
  exact quieted

lemma close (used : linkId ≠ 0) : Admitted (w.close linkId) := by
  unfold World.close
  split
  · exact admitted
  next i found => exact admitted.linkInterrupt ((getLink_some found).1 ▸ used) _

lemma addLink (permission : Permission)
    (isLocal removes : Bool) : Admitted (w.addLink permission isLocal removes) := by
  unfold World.addLink
  split
  · exact admitted
  split
  · exact admitted
  rename_i i found
  dsimp only
  refine Admitted.onLinkStateChanged ?_ ?_ _
  · exact admitted.undisturbed ⟨fun _ => rfl, fun _ => rfl, rfl, rfl⟩
  simp only [linkCount]
  split <;> omega

end Admitted

end

end Links

/-! ## Messages -/

section Messages

variable {w : World} {j : Fin linkCount}

lemma Admitted.sendMessage (admitted : Admitted w) (used : (w.agents j).linkId ≠ 0)
    (reply : Reply) (answers : Answers) : Admitted (w.sendMessage j reply answers) := by
  unfold World.sendMessage
  split
  · exact admitted.close used
  rename_i needed _
  have same := getBuffer_undisturbed w j needed answers
  have buffered := admitted.undisturbed same
  have usedStill : ((w.getBuffer j needed answers).1.agents j).linkId ≠ 0 := by
    rw [same.linkIds]
    exact used
  split
  next w' got =>
    rw [got] at buffered usedStill
    exact buffered.close usedStill
  rename_i w' buffer got
  rw [got] at buffered usedStill
  split
  · exact buffered.close usedStill
  exact buffered.undisturbed (startSendingMsg_undisturbed _ j _ _ _)

lemma Admitted.processHandshake (admitted : Admitted w) (used : (w.agents j).linkId ≠ 0)
    (handshakeId : Nat) (versionMajor : Option Nat) (answers : Answers) :
    Admitted (w.processHandshake j handshakeId versionMajor answers) := by
  unfold World.processHandshake
  split
  · exact admitted.close used
  have same : Undisturbed w (w.setAgent j { w.agents j with handshakeDone := true }) :=
    setAgent_undisturbed w j rfl rfl
  refine (admitted.undisturbed same).sendMessage ?_ _ _
  rw [same.linkIds]
  exact used

lemma openEntry_linkId (channel : Nat) :
    ((w.openEntry j c channel).agents j).linkId = (w.agents j).linkId := by
  simp [World.openEntry, World.setChannel, World.setAgent]

lemma Admitted.processServiceMessage (admitted : Admitted w) (used : (w.agents j).linkId ≠ 0)
    (command : ServiceCommand) (answers : Answers) :
    Admitted (w.processServiceMessage j command answers) := by
  cases command with
  | openChannel =>
    simp only [World.processServiceMessage, World.openChannel]
    split
    · exact admitted.sendMessage used _ _
    split
    next c found =>
      have free : ((w.agents j).channels c).clientId = 0 := by
        simpa using List.find?_some found
      refine (admitted.openEntry used free _).sendMessage ?_ _ _
      rw [openEntry_linkId]
      exact used
    exact admitted.sendMessage used _ _
  | closeChannel =>
    simp only [World.processServiceMessage, World.closeChannel]
    split
    · exact admitted.sendMessage used _ _
    split
    · exact admitted.sendMessage used _ _
    rename_i c _
    refine (admitted.closeEntry c).sendMessage ?_ _ _
    rw [(closeEntry_beside rfl c).linkIds]
    exact used
  | other => exact admitted.sendMessage used _ _

variable {owner : Option Client}

variable {push : Push}

lemma Admitted.setPush (admitted : Admitted w) (tracks : push.Tracks owner)
    (live : ∀ client, owner = some client → ∃ j c, IsClient w j c client) :
    Admitted (w.setPush push) :=
  ⟨admitted.encoded, admitted.recent, admitted.apart, admitted.closed, owner, tracks, live⟩

lemma wcomCmdAppPushBegin_tracks (tracks : push.Tracks owner) (client : Client)
    (size : Nat) (appType : AppType) (answer : Result) :
    (wcomCmdAppPushBegin client size appType answer push).1.Tracks owner ∨
      (wcomCmdAppPushBegin client size appType answer push).1.Tracks (owner <|> some client) := by
  unfold wcomCmdAppPushBegin
  split
  · exact .inl tracks
  exact .inr (pushBegin_tracks tracks .app client answer rfl)

lemma wcomCmdConfPushBegin_tracks (tracks : push.Tracks owner) (client : Client)
    (size : Nat) (mode : ConfPushMode) (wifiOnly : Bool) (answer : Result) :
    (wcomCmdConfPushBegin client size mode wifiOnly answer push).1.Tracks owner ∨
      (wcomCmdConfPushBegin client size mode wifiOnly answer push).1.Tracks
        (owner <|> some client) := by
  unfold wcomCmdConfPushBegin
  split
  · exact .inl tracks
  exact .inr (pushBegin_tracks tracks .conf client answer rfl)

lemma Admitted.runCommand (admitted : Admitted w) {client : Client}
    {c : Fin channelsPerLinkCount} (isClient : IsClient w j c client) (params : Params)
    (dataSpan serverSpan : Option (List UInt8)) (answers : Answers) :
    Admitted (w.runCommand j client params dataSpan serverSpan answers).1 := by
  obtain ⟨owner, tracks, live⟩ := admitted.owner
  have known : ∀ holder, owner = some holder → client.id = holder.id → client = holder := by
    intro holder owned same
    obtain ⟨j', c', isHolder⟩ := live holder owned
    exact admitted.client_eq isClient isHolder same
  have kept : ∀ {push : Push}, push.Tracks owner → Admitted (w.setPush push) :=
    fun tracks => admitted.setPush tracks live
  have begun : ∀ {push : Push},
      push.Tracks owner ∨ push.Tracks (owner <|> some client) → Admitted (w.setPush push) := by
    rintro push (same | taken)
    · exact kept same
    refine admitted.setPush taken fun other owned => ?_
    cases owner with
    | none =>
      cases owned
      exact ⟨j, c, isClient⟩
    | some holder => exact live other owned
  have ended : ∀ {push : Push}, push.Tracks owner ∨ push.Tracks none →
      Admitted (w.setPush push) := by
    rintro push (same | over_)
    · exact kept same
    exact admitted.setPush over_ (by simp)
  unfold World.runCommand
  split
  case h_1 | h_2 =>
    split
    · exact admitted.undisturbed (setAgent_undisturbed w j rfl rfl)
    exact admitted
  case h_9 => exact begun (wcomCmdAppPushBegin_tracks tracks client _ _ _)
  case h_10 =>
    split
    · exact kept (pushData_tracks tracks .app client _ _ _ known)
    exact admitted
  case h_11 => exact ended (pushEnd_tracks tracks .app client _ known)
  case h_12 => exact begun (wcomCmdConfPushBegin_tracks tracks client _ _ _ _)
  case h_13 =>
    split
    · exact kept (pushData_tracks tracks .conf client _ _ _ known)
    exact admitted
  case h_14 => exact ended (pushEnd_tracks tracks .conf client _ known)
  all_goals exact admitted

lemma runCommand_linkId (client : Client) (params : Params)
    (dataSpan serverSpan : Option (List UInt8)) (answers : Answers) :
    ((w.runCommand j client params dataSpan serverSpan answers).1.agents j).linkId =
      (w.agents j).linkId := by
  unfold World.runCommand
  split
  case h_1 | h_2 => split <;> simp [World.setAgent]
  case h_10 | h_13 => split <;> rfl
  all_goals rfl

lemma Admitted.processCommand (admitted : Admitted w) (used : (w.agents j).linkId ≠ 0)
    (requestId : Nat) (params : Params) (dataSpan serverSpan : Option (List UInt8))
    (answers : Answers) :
    Admitted (w.processCommand j requestId params dataSpan serverSpan answers) := by
  unfold World.processCommand
  split
  · exact admitted.sendMessage used _ _
  rename_i c found
  have matched := List.find?_some found
  simp only [ne_eq, decide_not, Bool.decide_and, Bool.and_eq_true, Bool.not_eq_true',
    decide_eq_false_iff_not, decide_eq_true_eq] at matched
  split
  · exact admitted.sendMessage used _ _
  have isClient : IsClient w j c
      ⟨((w.agents j).channels c).clientId, ((w.agents j).channels c).opening⟩ :=
    ⟨matched.1, rfl, rfl⟩
  refine (admitted.runCommand isClient _ _ _ _).sendMessage ?_ _ _
  rw [runCommand_linkId]
  exact used

lemma Admitted.processEvent (admitted : Admitted w) (used : (w.agents j).linkId ≠ 0)
    (answers : Answers) : Admitted (w.processEvent j answers) := by
  have posted := admitted.undisturbed (startRecvHeader_undisturbed w j)
  unfold World.processEvent
  dsimp only
  split
  · exact posted
  split
  · exact admitted.sendMessage used _ _
  exact posted

lemma Admitted.processMessage (admitted : Admitted w) (used : (w.agents j).linkId ≠ 0)
    (nanopb : Nanopb) (body : List UInt8) (answers : Answers) :
    Admitted (World.processMessage nanopb w j body answers) := by
  unfold World.processMessage
  split
  · exact admitted.close used
  split
  · exact admitted.processHandshake used _ _ _
  · split
    · exact admitted.processCommand used _ _ _ _ _
    exact admitted.close used
  · exact admitted.processServiceMessage used _ _
  · split
    · exact admitted.processEvent used _
    exact admitted.close used
  exact admitted.undisturbed (startRecvHeader_undisturbed w j)

lemma discardBody_undisturbed (w : World) (j : Fin linkCount) :
    Undisturbed w (w.discardBody j) := by
  unfold World.discardBody
  dsimp only
  split
  · exact (frameDone_undisturbed w j _).trans (startRecvHeader_undisturbed _ j)
  exact recv_undisturbed w _ _

lemma Admitted.startRecvBody (admitted : Admitted w) (used : (w.agents j).linkId ≠ 0)
    (answers : Answers) : Admitted (w.startRecvBody j answers) := by
  unfold World.startRecvBody
  dsimp only
  split
  · refine Admitted.undisturbed ?_ (discardBody_undisturbed _ j)
    exact admitted.undisturbed (setAgent_undisturbed w j rfl rfl)
  split
  · exact admitted.close used
  have same := getBuffer_undisturbed w j (w.agents j).header.bodySize answers
  have buffered := admitted.undisturbed same
  have usedStill := used
  rw [← same.linkIds] at usedStill
  split
  next w' got =>
    rw [got] at buffered usedStill
    exact buffered.close usedStill
  rename_i w' buffer got
  rw [got] at buffered
  exact buffered.undisturbed (recv_undisturbed w' _ _)

lemma Admitted.rxDone (admitted : Admitted w) {linkId : Nat} (used : linkId ≠ 0)
    (nanopb : Nanopb) (chunk : RxChunk) (bytes : List UInt8) (answers : Answers) :
    Admitted (World.rxDone nanopb w linkId chunk bytes answers) := by
  unfold World.rxDone
  split
  · unfold World.doneRecvHeader
    dsimp only
    split
    · exact admitted
    rename_i own
    have parsed : ∀ header, Undisturbed w (w.setAgent chunk.slot
        { w.agents chunk.slot with header, headerBytes := bytes, skipped := [] }) :=
      fun _ => setAgent_undisturbed w chunk.slot rfl rfl
    split
    · exact (admitted.undisturbed (parsed _)).close used
    have routed : ∀ (w' : World) channel, Undisturbed w' (w'.setAgent chunk.slot
        { w'.agents chunk.slot with rxChannel := channel }) :=
      fun w' _ => setAgent_undisturbed w' chunk.slot rfl rfl
    have same := (parsed (Header.ofBytes bytes)).trans
      (routed _ (Header.ofBytes bytes).channel.toNat)
    refine (admitted.undisturbed same).startRecvBody ?_ _
    rw [same.linkIds, ← not_not.mp own]
    exact used
  · unfold World.doneRecvBody
    split
    · exact admitted
    rename_i own
    have same := frameDone_undisturbed w chunk.slot bytes
    refine (admitted.undisturbed same).processMessage ?_ nanopb _ _
    rw [same.linkIds, ← not_not.mp own]
    exact used
  unfold World.doneDiscardBody
  dsimp only
  split
  · exact admitted
  refine Admitted.undisturbed ?_ (discardBody_undisturbed _ _)
  exact admitted.undisturbed (setAgent_undisturbed w _ rfl rfl)

end Messages

/-! ## Runs -/

section Runs

variable {w : World}

lemma Admitted.linkDoRx (admitted : Admitted w) (wired : Wired w none) (nanopb : Nanopb)
    (i : Fin linkCount) (read : Read) (answers : Answers) :
    Admitted (w.linkDoRx nanopb i read answers) := by
  unfold World.linkDoRx
  dsimp only
  split
  · exact admitted
  rename_i chunk rest queue
  have connected := wired.connected_of_rx (i := i) (by simp [queue])
  have used := (wired.ids i (by simp [connected])).2
  split
  · split
    · exact admitted.undisturbed (fail_undisturbed w)
    split
    · exact (admitted.undisturbed (setLink_undisturbed w i _)).rxDone used nanopb _ _ _
    exact admitted.undisturbed (setLink_undisturbed w i _)
  · exact admitted
  · exact admitted
  all_goals exact admitted.linkInterrupt used _

lemma Admitted.linkDoTx (admitted : Admitted w) (wired : Wired w none) (i : Fin linkCount)
    (write : Write) : Admitted (w.linkDoTx i write) := by
  unfold World.linkDoTx
  dsimp only
  split
  · exact admitted
  rename_i chunk rest queue
  have connected := wired.connected_of_tx (i := i) (by simp [queue])
  have used := (wired.ids i (by simp [connected])).2
  split
  · split
    · exact admitted.undisturbed (fail_undisturbed w)
    split
    · refine Admitted.undisturbed ?_ (txDone_undisturbed _ _ _ _)
      exact admitted.undisturbed (setLink_undisturbed w i _)
    exact admitted.undisturbed (setLink_undisturbed w i _)
  · exact admitted
  · exact admitted
  exact admitted.linkInterrupt used _

lemma Admitted.step (admitted : Admitted w) (wired : Wired w none) (nanopb : Nanopb)
    (event : Event) : Admitted (w.step nanopb event) := by
  cases event with
  | add permission isLocal removes => exact admitted.addLink permission isLocal removes
  | remove linkId =>
    simp only [World.step, World.removeLink]
    split
    · exact admitted
    next i found => exact admitted.removeSlot (wired.ids i (find_link found).1).2
  | close linkId =>
    simp only [World.step, World.close]
    split
    · exact admitted
    next i found => exact admitted.linkInterrupt (wired.ids i (getLink_some found).2).2 _
  | stall i =>
    simp only [World.step]
    split
    next stalled => exact admitted.linkInterrupt (wired.ids i (by simp [stalled.1])).2 _
    exact admitted
  | send i sizes =>
    simp only [World.step, World.foreignSend]
    split
    · exact admitted.undisturbed (send_undisturbed w _ _)
    exact admitted
  | read i read answers => exact admitted.linkDoRx wired nanopb i read answers
  | write i write => exact admitted.linkDoTx wired i write

lemma Reachable.admitted {nanopb : Nanopb} {w : World} (reachable : Reachable nanopb w) :
    Admitted w := by
  obtain ⟨events, rfl⟩ := reachable
  unfold World.run
  have both : Wired (events.foldl (World.step nanopb) {}) none ∧
      Admitted (events.foldl (World.step nanopb) {}) := by
    refine List.foldlRecOn (motive := fun w => Wired w none ∧ Admitted w) events _
      ⟨wired_initial, admitted_initial⟩ ?_
    rintro w ⟨wired, admitted⟩ event _
    exact ⟨wired.step nanopb event, admitted.step wired nanopb event⟩
  exact both.2

end Runs

/-! ## What the delegate sees -/

/-- The uploads of a state, as the delegate and the clients see them. -/
structure Exclusively (w : World) : Prop where
  /-- The delegate's calls are complete sessions, and then the open one if there is one. -/
  sessions : Nonempty (Sessions Call.use (heldAfter w.push.log) w.push.calls)
  /-- A client that goes away during its session has it aborted, before anything else. -/
  aborted : ∀ before after opening kind, w.push.log = before ++ .departed opening :: after →
    heldAfter before = some (kind, opening) →
    ∃ rest, after = .call ⟨kind, opening, .abort⟩ :: rest
  /-- The open session is the one the globals name, and its client is still there. -/
  owned : ∀ kind opening, heldAfter w.push.log = some (kind, opening) →
    w.push.kind = some kind ∧ ∃ j c, IsClient w j c ⟨w.push.pushingClientId, opening⟩
  /-- Without an open session no begin is refused as busy. -/
  idle : heldAfter w.push.log = none → w.push.kind = none

lemma Admitted.exclusively {w : World} (admitted : Admitted w) : Exclusively w := by
  obtain ⟨owner, tracks, live⟩ := admitted.owner
  have held := tracks.traced.heldAfter
  refine ⟨held ▸ tracks.traced.bracketed.sessions, ?_, ?_, ?_⟩
  · intro before after opening kind splits owned
    exact tracks.traced.departure splits owned
  · intro kind opening open_
    cases owner with
    | none => simp [tracks.kind_none, open_] at held
    | some client =>
      obtain ⟨pushed, kindEq⟩ := tracks.kind_some
      simp only [open_, kindEq, Option.bind_some, Option.map_some, Option.some.injEq,
        Prod.mk.injEq] at held
      obtain ⟨rfl, rfl⟩ := held
      rw [tracks.owned client rfl]
      exact ⟨kindEq, live client rfl⟩
  intro closed
  cases owner with
  | none => exact tracks.kind_none
  | some client =>
    obtain ⟨pushed, kindEq⟩ := tracks.kind_some
    simp [closed, kindEq] at held

def Params.isPushBegin : Params → Bool
  | .appPushBegin .. | .confPushBegin .. => true
  | _ => false

def Params.isSupported : Params → Bool
  | .appPushBegin _ appType => appType = .wasm ∨ appType = .native
  | .confPushBegin _ mode => mode = .replace ∨ mode = .update
  | _ => false

lemma pushBegin_unchanged_iff (kind : PushKind) (client : Client) (action : Action)
    (answer : Result) (push : Push) : ((pushBegin kind client action answer push).2 ≠ .ok →
        (pushBegin kind client action answer push).1 = push) ↔
      ¬(push.kind = none ∧ answer ≠ .ok) := by
  unfold pushBegin
  rcases kindEq : push.kind with _ | held
  · have changed : (Push.mk (some kind) client.id
        (push.log ++ [.call ⟨kind, client.opening, action⟩])) ≠ push := by
      intro same
      rw [← same] at kindEq
      simp at kindEq
    simp [changed]
  simp

/-- A begin that fails leaves the push as it was, unless the delegate refused it. -/
lemma runCommand_begin_iff (client : Client) (params : Params)
    (dataSpan serverSpan : Option (List UInt8)) (answers : Answers) (begins : params.isPushBegin) :
    ((w.runCommand j client params dataSpan serverSpan answers).2 ≠ .ok →
        (w.runCommand j client params dataSpan serverSpan answers).1.push = w.push) ↔
      ¬(params.isSupported ∧ w.push.kind = none ∧ answers.result ≠ .ok) := by
  cases params with
  | appPushBegin size appType =>
    simp only [World.runCommand, World.withPush, World.setPush, wcomCmdAppPushBegin,
      Params.isSupported, decide_eq_true_eq]
    split
    next unsupported =>
      have refused : ¬(appType = .wasm ∨ appType = .native) := by tauto
      simp [refused]
    rename_i supported
    have known : appType = .wasm ∨ appType = .native := by tauto
    simpa only [known, true_and] using pushBegin_unchanged_iff _ _ _ _ _
  | confPushBegin size mode =>
    simp only [World.runCommand, World.withPush, World.setPush, wcomCmdConfPushBegin,
      Params.isSupported, decide_eq_true_eq]
    split
    next unsupported =>
      have refused : ¬(mode = .replace ∨ mode = .update) := by tauto
      simp [refused]
    have known : mode = .replace ∨ mode = .update := by tauto
    simpa only [known, true_and] using pushBegin_unchanged_iff _ _ _ _ _
  | _ => simp [Params.isPushBegin] at begins

/-- In every run the uploads are bracketed and exclusive, and a client that goes
away has its upload aborted. A begin that reports failure leaves no session behind
unless it is the delegate that refused it. -/
theorem uploads_bracketed_exclusive (nanopb : Nanopb) (w : World) (reachable : Reachable nanopb w) :
    Exclusively w ∧ ∀ j client params dataSpan serverSpan answers, params.isPushBegin = true →
        (((w.runCommand j client params dataSpan serverSpan answers).2 ≠ .ok →
            (w.runCommand j client params dataSpan serverSpan answers).1.push = w.push) ↔
          ¬(params.isSupported = true ∧ w.push.kind = none ∧ answers.result ≠ .ok)) :=
  ⟨reachable.admitted.exclusively, fun j client params dataSpan serverSpan answers begins =>
    runCommand_begin_iff w j client params dataSpan serverSpan answers begins⟩

def sampleNanopb : Nanopb where
  decode
    | 1 :: _ => some (.handshake 7 (some protocolVersionMajor))
    | 2 :: _ => some (.command 8 (.appPushBegin 4096 .wasm))
    | _ => none
  decodeAppPushData _ := none
  decodeConfPushData _ := none
  decodeSyncTime _ := none
  decodeConsoleData _ := none

def exchange (i : Fin linkCount) (message : UInt8) (answers : Answers) : List Event :=
  [.read i (.bytes agentMsgMagic [agentMsgVersion, 0, 0, 0, 0, 0, 1]) {},
    .read i (.bytes message []) answers, .write i (.bytes 7), .write i (.bytes 7)]

/-- Two hosts, on two links, that each begin an upload; the delegate refuses the first. -/
def refusedBegin (first second : Fin linkCount) : World :=
  World.run sampleNanopb {}
    ([.add .full true true, .add .full true true] ++
      exchange first 1 {} ++ exchange second 1 {} ++
      exchange first 2 { result := .badAppSize } ++ exchange second 2 {})

/-- The first host is told its app is too large. The second is told the device is
busy, though the delegate was never asked. -/
theorem refusedBegin_busy : Reachable sampleNanopb (refusedBegin 0 1) ∧
      ((refusedBegin 0 1).agents 0).answered = [(0, .handshake 7), (1, .response 8 .badAppSize)] ∧
      ((refusedBegin 0 1).agents 1).answered = [(0, .handshake 7), (1, .response 8 .busy)] ∧
      (refusedBegin 0 1).push.calls = [⟨.app, 0, .beginApp 4096 .wasm⟩] ∧
      heldAfter (refusedBegin 0 1).push.log = some (.app, 0) :=
  ⟨⟨_, rfl⟩, by decide +kernel, by decide +kernel, by decide +kernel, by decide +kernel⟩

/-- The two hosts' uploads, and a later begin of either. -/
theorem uploads_bracketed_exclusive_refusedBegin :
    Reachable sampleNanopb (refusedBegin 0 1) ∧ Exclusively (refusedBegin 0 1) ∧
      ∀ j client params dataSpan serverSpan answers, params.isPushBegin = true →
        ((((refusedBegin 0 1).runCommand j client params dataSpan serverSpan answers).2 ≠ .ok →
            ((refusedBegin 0 1).runCommand j client params dataSpan serverSpan answers).1.push =
              (refusedBegin 0 1).push) ↔
          ¬(params.isSupported = true ∧ (refusedBegin 0 1).push.kind = none ∧
            answers.result ≠ .ok)) :=
  ⟨⟨_, rfl⟩, uploads_bracketed_exclusive sampleNanopb (refusedBegin 0 1) ⟨_, rfl⟩⟩

end WendyLite.Com
