import WendyLite.Com.Wired

/-! # Links going down

A link that is interrupted or removed leaves its queues empty and its agent link
free, and touches no other pair.
-/

namespace WendyLite.Com

/-- Only the agent link that serves `linkId` may differ, and not in its link. -/
structure Beside (w w' : World) (linkId : Nat) : Prop where
  failed : w'.failed = w.failed
  links : w'.links = w.links
  linkIds : ∀ j, (w'.agents j).linkId = (w.agents j).linkId
  agents : ∀ j, (w.agents j).linkId ≠ linkId → w'.agents j = w.agents j

variable (w : World)

lemma Beside.refl (linkId : Nat) : Beside w w linkId := ⟨rfl, rfl, fun _ => rfl, fun _ _ => rfl⟩

variable {linkId : Nat}

lemma Beside.trans {w w' w'' : World} (first : Beside w w' linkId)
    (second : Beside w' w'' linkId) : Beside w w'' linkId where
  failed := second.failed.trans first.failed
  links := second.links.trans first.links
  linkIds j := (second.linkIds j).trans (first.linkIds j)
  agents j other :=
    (second.agents j (by rw [first.linkIds]; exact other)).trans (first.agents j other)

variable {j : Fin linkCount}

/-- An edit of the agent link that serves `linkId`, besides its link. -/
lemma Beside.setAgent {w : World} {agent : AgentLink}
    (serves : (w.agents j).linkId = linkId) (same : agent.linkId = (w.agents j).linkId) :
    Beside w (w.setAgent j agent) linkId where
  failed := rfl
  links := rfl
  linkIds j' := by
    by_cases eq : j' = j
    · subst eq
      simp [World.setAgent, same]
    simp [World.setAgent, eq]
  agents j' other := by
    have ne : j' ≠ j := by
      rintro rfl
      exact other serves
    simp [World.setAgent, ne]

lemma completeToken_beside (token linkId : Nat) : Beside w (w.completeToken token) linkId := by
  unfold World.completeToken
  split
  · exact .refl w linkId
  exact ⟨rfl, rfl, fun _ => rfl, fun _ _ => rfl⟩

lemma completeTokens_beside {w : World}
    (serves : (w.agents j).linkId = linkId) : Beside w (w.completeTokens j) linkId := by
  refine .trans ?_ (completeToken_beside _ _ _)
  refine .trans ?_ (completeToken_beside _ _ _)
  exact Beside.setAgent serves rfl

/-- A failed send completes the tokens of the agent link on that link, no more. -/
lemma txDone_beside (linkId : Nat) (chunk : TxChunk) :
    Beside w (w.txDone linkId false chunk) linkId := by
  unfold World.txDone
  split
  · unfold World.doneSendingMsg
    split
    · exact .refl w linkId
    next serves => exact completeTokens_beside (not_not.mp serves).symm
  exact .refl w linkId

lemma foldl_txDone_beside (linkId : Nat) (chunks : List TxChunk) :
    Beside w (chunks.foldl (fun w chunk => w.txDone linkId false chunk) w) linkId := by
  induction chunks generalizing w with
  | nil => exact .refl w linkId
  | cons chunk rest ih =>
    exact (txDone_beside w linkId chunk).trans (ih _)

lemma closeEntry_beside {w : World}
    (serves : (w.agents j).linkId = linkId) (c : Fin channelsPerLinkCount) :
    Beside w (w.closeEntry j c) linkId := by
  unfold World.closeEntry World.setChannel
  dsimp only
  split
  · exact Beside.setAgent serves rfl
  have told : ∀ push, Beside w (w.setPush push) linkId :=
    fun _ => ⟨rfl, rfl, fun _ => rfl, fun _ _ => rfl⟩
  refine (told _).trans (Beside.setAgent ?_ ?_)
  · exact serves
  rfl

lemma foldl_closeEntry_beside {w : World}
    (serves : (w.agents j).linkId = linkId) (entries : List (Fin channelsPerLinkCount)) :
    Beside w (entries.foldl (fun w c => w.closeEntry j c) w) linkId := by
  induction entries generalizing w with
  | nil => exact .refl w linkId
  | cons c rest ih =>
    have closed := closeEntry_beside serves c
    exact closed.trans (ih ((closed.linkIds j).trans serves))

/-- Link `i` is down: its queues are empty and its agent link is free. -/
structure Downed (w w' : World) (i : Fin linkCount) : Prop where
  failed : w'.failed = w.failed
  others : ∀ i', i' ≠ i → w'.links i' = w.links i'
  state : (w'.links i).state ≠ .connected
  id : (w'.links i).state ≠ .undefined → (w'.links i).id = (w.links i).id
  queues : (w'.links i).rxQueue = [] ∧ (w'.links i).txQueue = [] ∧ (w'.links i).txOffset = 0
  agents : ∀ j, (w.agents j).linkId ≠ (w.links i).id → w'.agents j = w.agents j
  gone : ∀ j, (w.agents j).linkId = (w.links i).id → (w'.agents j).linkId = 0

lemma agentDisconnect_effect {w : World} (serves : (w.agents j).linkId = linkId) :
    (w.agentDisconnect j).failed = w.failed ∧ (w.agentDisconnect j).links = w.links ∧
      ((w.agentDisconnect j).agents j).linkId = 0 ∧
      ∀ j', (w.agents j').linkId ≠ linkId → (w.agentDisconnect j).agents j' = w.agents j' := by
  have tokens := completeTokens_beside serves
  have closed := foldl_closeEntry_beside ((tokens.linkIds j).trans serves) slots
  have both := tokens.trans closed
  refine ⟨both.failed, both.links, by simp [World.agentDisconnect, World.setAgent], ?_⟩
  intro j' other
  have ne : j' ≠ j := by
    rintro rfl
    exact other serves
  simpa [World.agentDisconnect, World.setAgent, ne] using both.agents j' other

lemma lower_downed {w : World} {i : Fin linkCount} {state : LinkState} (down : state ≠ .connected)
    (unique : ∀ j j', (w.agents j).linkId = (w.links i).id →
      (w.agents j').linkId = (w.links i).id → j = j') : Downed w (w.lower i state) i ∧
      ((w.lower i state).links i).state = state ∧
      ((w.lower i state).links i).id = (w.links i).id := by
  -- The queues are emptied first; only tokens of the serving agent change.
  let cleared := ((w.setLink i { w.links i with state }).clearRxQueue i).clearTxQueue i
  have clearedLinks : ∀ i', cleared.links i' =
      if i' = i then { w.links i with
        state, rxQueue := [], rxBytes := [], txQueue := [], txOffset := 0 }
      else w.links i' := by
    intro i'
    have beside := foldl_txDone_beside ((w.setLink i { w.links i with state }).clearRxQueue i)
      (w.links i).id (w.links i).txQueue
    by_cases same : i' = i
    · subst same
      simp [cleared, World.clearTxQueue, World.clearRxQueue, World.setLink] at beside ⊢
      rw [beside.links]
      simp
    simp [cleared, World.clearTxQueue, World.clearRxQueue, World.setLink, same] at beside ⊢
    rw [beside.links]
    simp [same]
  have clearedAgents : (∀ j, (cleared.agents j).linkId = (w.agents j).linkId) ∧
      (∀ j, (w.agents j).linkId ≠ (w.links i).id → cleared.agents j = w.agents j) ∧
      cleared.failed = w.failed := by
    have beside := foldl_txDone_beside ((w.setLink i { w.links i with state }).clearRxQueue i)
      (w.links i).id (w.links i).txQueue
    refine ⟨fun j => ?_, fun j other => ?_, ?_⟩
    · simpa [cleared, World.clearTxQueue, World.clearRxQueue, World.setLink]
        using beside.linkIds j
    · simpa [cleared, World.clearTxQueue, World.clearRxQueue, World.setLink]
        using beside.agents j other
    simpa [cleared, World.clearTxQueue, World.clearRxQueue, World.setLink] using beside.failed
  obtain ⟨linkIds, agents, failed⟩ := clearedAgents
  have lowered : w.lower i state = cleared.onLinkStateChanged (w.links i).id state := rfl
  rw [lowered]
  simp only [World.onLinkStateChanged, if_neg down]
  split
  next missing =>
    have nobody : ∀ j, (w.agents j).linkId ≠ (w.links i).id := by
      intro j serves
      have absent := List.find?_eq_none.mp missing j (mem_slots j)
      simp [linkIds, serves] at absent
    refine ⟨⟨failed, fun i' other => by simp [clearedLinks, other], ?_, ?_, ?_,
      fun j other => agents j other, fun j serves => absurd serves (nobody j)⟩, ?_, ?_⟩
    all_goals simp [clearedLinks, down]
  rename_i j found
  have serves : (cleared.agents j).linkId = (w.links i).id := by
    simpa using List.find?_some found
  obtain ⟨failed', links', freed, others'⟩ := agentDisconnect_effect serves
  refine ⟨⟨failed'.trans failed, fun i' other => by rw [links']; simp [clearedLinks, other],
    ?_, ?_, ?_, ?_, ?_⟩, ?_, ?_⟩
  · simp [links', clearedLinks, down]
  · simp [links', clearedLinks]
  · simp [links', clearedLinks]
  · intro j' other
    rw [others' j' (by rw [linkIds]; exact other), agents j' other]
  · intro j' serves'
    obtain rfl := unique j j' (by rw [← linkIds]; exact serves) serves'
    exact freed
  all_goals simp [links', clearedLinks]

lemma Downed.setLink {w w' : World} {i : Fin linkCount} (downed : Downed w w' i) {link : Link}
    (state : link.state = (w'.links i).state)
    (id : link.state ≠ .undefined → link.id = (w'.links i).id)
    (queues : link.rxQueue = [] ∧ link.txQueue = [] ∧ link.txOffset = 0) :
    Downed w (w'.setLink i link) i where
  failed := downed.failed
  others i' other := by simpa [World.setLink, other] using downed.others i' other
  state := by simpa [World.setLink, state] using downed.state
  id live := by
    simp only [World.setLink, Function.update_self] at live ⊢
    rw [id live]
    exact downed.id (state ▸ live)
  queues := by simpa [World.setLink] using queues
  agents := downed.agents
  gone := downed.gone

lemma Downed.trans {w w' w'' : World} {i : Fin linkCount} (first : Downed w w' i)
    (second : Downed w' w'' i) (id : (w'.links i).id = (w.links i).id)
    (used : (w.links i).id ≠ 0) : Downed w w'' i where
  failed := second.failed.trans first.failed
  others i' other := (second.others i' other).trans (first.others i' other)
  state := second.state
  id live := (second.id live).trans id
  queues := second.queues
  agents j other := by
    rw [second.agents j (by rw [first.agents j other, id]; exact other), first.agents j other]
  gone j serves := by
    have freed := first.gone j serves
    rw [second.agents j (by rw [freed, id]; exact used.symm), freed]

lemma removeSlot_downed {w : World} {i : Fin linkCount}
    (unique : ∀ j j', (w.agents j).linkId = (w.links i).id →
      (w.agents j').linkId = (w.links i).id → j = j') : Downed w (w.removeSlot i) i := by
  have removed : LinkState.undefined ≠ .connected := by decide
  obtain ⟨downed, state, _⟩ := lower_downed removed unique
  exact downed.setLink rfl (fun live => absurd state live) downed.queues

section Wiring

variable {w : World} {busy : Option (Fin linkCount × Fin linkCount)} {i : Fin linkCount}

lemma Wired.agent_unique (wired : Wired w busy) (live : (w.links i).state ≠ .undefined) :
    ∀ j j', (w.agents j).linkId = (w.links i).id → (w.agents j').linkId = (w.links i).id →
      j = j' := by
  intro j j' serves serves'
  exact wired.unique j j' (serves ▸ (wired.ids i live).2) (serves.trans serves'.symm)

lemma Wired.down (wired : Wired w busy) {w' : World} (downed : Downed w w' i)
    (live : (w.links i).state ≠ .undefined) (only : ∀ i' j, busy = some (i', j) → i' = i) :
    Wired w' none := by
  -- A pair that is still up is one of the other pairs.
  have serving : ∀ i' j, Serves w' i' j →
      i' ≠ i ∧ Serves w i' j ∧ w'.links i' = w.links i' ∧ w'.agents j = w.agents j := by
    intro i' j serves
    have other : i' ≠ i := by
      rintro rfl
      exact downed.state serves.1
    have linkEq := downed.others i' other
    by_cases wasServing : (w.agents j).linkId = (w.links i).id
    · have freed := downed.gone j wasServing
      have connected : (w.links i').state = .connected := linkEq ▸ serves.1
      have idEq : (w.links i').id = 0 := by rw [← linkEq, ← serves.2, freed]
      exact absurd idEq (wired.ids i' (by simp [connected])).2
    have agentEq := downed.agents j wasServing
    exact ⟨other, ⟨linkEq ▸ serves.1, by rw [← agentEq, ← linkEq]; exact serves.2⟩, linkEq, agentEq⟩
  have survivor : ∀ j, (w'.agents j).linkId ≠ 0 → w'.agents j = w.agents j := by
    intro j inUse
    by_cases wasServing : (w.agents j).linkId = (w.links i).id
    · exact absurd (downed.gone j wasServing) inUse
    exact downed.agents j wasServing
  refine ⟨downed.failed.trans wired.sound, ?_, ?_, ?_, ?_, ?_, ?_, ?_⟩
  · intro i' live'
    by_cases same : i' = i
    · subst same
      rw [downed.id live']
      exact wired.ids i' live
    rw [downed.others i' same] at live' ⊢
    exact wired.ids i' live'
  · intro j inUse
    have agentEq := survivor j inUse
    obtain ⟨i', serves⟩ := wired.linked j (agentEq ▸ inUse)
    have other : i' ≠ i := by
      rintro rfl
      exact inUse (downed.gone j serves.2)
    exact ⟨i', by rw [downed.others i' other]; exact serves.1,
      by rw [downed.others i' other, agentEq]; exact serves.2⟩
  · intro j j' inUse same
    have agentEq := survivor j inUse
    have agentEq' := survivor j' (same ▸ inUse)
    exact wired.unique j j' (agentEq ▸ inUse) (by rw [← agentEq, ← agentEq', same])
  · intro i' connected
    have other : i' ≠ i := by
      rintro rfl
      exact downed.state connected
    have linkEq := downed.others i' other
    rw [linkEq] at connected ⊢
    obtain ⟨j, serves⟩ := wired.served i' connected
    have notGone : (w.agents j).linkId ≠ (w.links i).id := by
      intro same
      exact other (wired.link_eq (by simp [connected]) live (serves.symm.trans same))
    exact ⟨j, by rw [downed.agents j notGone]; exact serves⟩
  · intro i' down
    by_cases same : i' = i
    · subst same
      exact ⟨downed.queues.1, downed.queues.2.1⟩
    rw [downed.others i' same] at down ⊢
    exact wired.quiet i' down
  · intro i'
    by_cases same : i' = i
    · subst same
      obtain ⟨_, tx, offset⟩ := downed.queues
      exact ⟨by simp [tx], by simp [tx], fun _ => offset⟩
    rw [downed.others i' same]
    exact wired.sending i'
  intro i' j serves _
  obtain ⟨other, before, linkEq, agentEq⟩ := serving i' j serves
  rw [linkEq, agentEq]
  refine wired.outstanding i' j before fun isBusy => ?_
  exact other (only i' j isBusy)

lemma Wired.removeSlot (wired : Wired w busy) (live : (w.links i).state ≠ .undefined)
    (only : ∀ i' j, busy = some (i', j) → i' = i) : Wired (w.removeSlot i) none :=
  wired.down (removeSlot_downed (wired.agent_unique live)) live only

lemma find_link {linkId : Nat}
    (found : slots.find? (fun i => (w.links i).state ≠ .undefined ∧ (w.links i).id = linkId) =
      some i) : (w.links i).state ≠ .undefined ∧ (w.links i).id = linkId := by
  simpa using List.find?_some found

lemma Wired.removeLink (wired : Wired w none) (linkId : Nat) :
    Wired (w.removeLink linkId) none := by
  unfold World.removeLink
  split
  · exact wired
  next i found => exact wired.removeSlot (find_link found).1 (by simp)

/-- An interruption takes the link down, and removes it when its owner does so. -/
lemma linkInterrupt_downed (wired : Wired w busy) (live : (w.links i).state ≠ .undefined)
    {state : LinkState} (down : state ≠ .connected) : Downed w (w.linkInterrupt i state) i := by
  obtain ⟨lowered, stateEq, idEq⟩ := lower_downed down (wired.agent_unique live)
  have used := (wired.ids i live).2
  let quiet := (w.lower i state).setLink i
    { (w.lower i state).links i with interruptionHandler := none }
  have quieted : Downed w quiet i := lowered.setLink rfl (fun _ => rfl) lowered.queues
  have quietId : (quiet.links i).id = (w.links i).id := by
    simpa [quiet, World.setLink] using idEq
  simp only [World.linkInterrupt]
  split
  · change Downed w (quiet.removeLink (w.links i).id) i
    unfold World.removeLink
    split
    · exact quieted
    rename_i i' found
    obtain ⟨liveNow, idNow⟩ := find_link found
    have same : i' = i := by
      by_contra other
      rw [quieted.others i' other] at liveNow idNow
      exact other (wired.link_eq liveNow live idNow)
    subst same
    refine quieted.trans (removeSlot_downed ?_) quietId used
    intro j j' serves serves'
    by_cases wasServing : (w.agents j).linkId = (w.links i').id
    · rw [quieted.gone j wasServing, quietId] at serves
      exact absurd serves.symm used
    rw [quieted.agents j wasServing, quietId] at serves
    exact absurd serves wasServing
  exact quieted

lemma Wired.linkInterrupt (wired : Wired w busy) (live : (w.links i).state ≠ .undefined)
    (only : ∀ i' j, busy = some (i', j) → i' = i) {state : LinkState}
    (down : state ≠ .connected) : Wired (w.linkInterrupt i state) none :=
  wired.down (linkInterrupt_downed wired live down) live only

lemma Wired.close (wired : Wired w none) (linkId : Nat) : Wired (w.close linkId) none := by
  unfold World.close
  split
  · exact wired
  next i found => exact wired.linkInterrupt (getLink_some found).2 (by simp) (by decide)

lemma Wired.close_busy {j : Fin linkCount} (wired : Wired w (some (i, j)))
    (serves : Serves w i j) : Wired (w.close (w.agents j).linkId) none := by
  unfold World.close
  rw [wired.getLink_serves serves]
  refine wired.linkInterrupt serves.defined ?_ (by decide)
  intro i' j' same
  cases same
  rfl

end Wiring

end WendyLite.Com
