import WendyLite.Babel.WireRoundtrip

/-! # What the decoder accepts

Every message that `wb_decode` visits is well formed, whoever sent the packet:
its prefix is valid, its router is not reserved, and an Update has a lifetime.
-/

namespace WendyLite.Babel

structure Received (m : Message) : Prop where
  valid : m.type = .update ∨ m.type = .request ∨ m.type = .seqRequest →
    m.wildcard = false → m.pfx.valid = true
  router : m.announces ∨ m.type = .seqRequest → RouterOk m.router
  lasting : m.type = .update → m.interval ≠ 0
  retracts : m.type = .update → m.wildcard = true → m.metric = infinity
  single : m.type = .seqRequest → m.wildcard = false

lemma valid_of_decodePrefix
    (decoded : decodePrefix ae bits omitted bytes previous = some (p, size)) :
    p.valid = true := by
  simp only [decodePrefix] at decoded
  generalize (if ae = 3 then 8 else 0) + omitted.toNat = start at decoded
  split at decoded
  · cases decoded
  rename_i accepted
  simp only [not_or] at accepted
  split at decoded
  · cases decoded
  split at decoded
  · cases decoded
  cases decoded
  have bounded := accepted.2.2
  apply Prefix.valid_mask <;> simp only [familyOf, maximumBits] at bounded ⊢ <;>
    split <;> simp_all

variable {payload : List UInt8} {m : Message} {context : DecodeContext}

variable {used : Nat}

lemma received_of_decodeUpdate
    (decoded : decodeUpdate context payload = (context', some (m, used))) : Received m := by
  simp only [decodeUpdate] at decoded
  split at decoded
  · cases decoded
  split at decoded
  · split at decoded
    · cases decoded
    rename_i accepted
    simp only [not_or, not_not] at accepted
    cases decoded
    constructor <;> simp [Message.announces, accepted]
  split at decoded
  · cases decoded
  rename_i p size read
  split at decoded
  · cases decoded
  rename_i usable
  split at decoded
  · cases decoded
  rename_i lasting
  cases decoded
  refine ⟨fun _ _ => valid_of_decodePrefix read, ?_, fun _ => lasting, by simp, by simp⟩
  rintro (⟨_, finite⟩ | other)
  · simp only [not_and, not_or] at usable
    have router := usable finite
    exact ⟨router.1, router.2.1⟩
  cases other

lemma received_of_decodeRequest (asks : type = .request ∨ type = .seqRequest)
    (decoded : decodeRequest type payload = some (m, used)) : Received m := by
  simp only [decodeRequest] at decoded
  generalize (if type = .request then 2 else 14) = base at decoded
  split at decoded
  · cases decoded
  split at decoded
  · cases decoded
  rename_i message size body
  have read : message.type = type ∧
      (message.wildcard = false → message.pfx.valid = true) ∧
      (type = .seqRequest → message.wildcard = false) := by
    split at body
    · split at body
      · cases body
      rename_i accepted
      cases body
      simp only [not_or, not_not] at accepted
      simp [accepted.1]
    split at body
    · cases body
    rename_i read
    cases body
    exact ⟨rfl, fun _ => valid_of_decodePrefix read, fun _ => rfl⟩
  have notUpdate : message.type ≠ .update := by
    rcases asks with rfl | rfl <;> simp [read.1]
  split at decoded
  · split at decoded
    · cases decoded
    rename_i accepted
    cases decoded
    simp only [not_or] at accepted
    exact ⟨fun _ => read.2.1, fun _ => accepted.2, fun update => absurd update notUpdate,
      fun update => absurd update notUpdate, fun _ => read.2.2 (by assumption)⟩
  rename_i other
  cases decoded
  refine ⟨fun _ => read.2.1, ?_, fun update => absurd update notUpdate,
    fun update => absurd update notUpdate, fun type => read.2.2 (read.1.symm.trans type)⟩
  rintro (announces | seqRequest)
  · exact absurd announces.1 notUpdate
  exact absurd (read.1.symm.trans seqRequest) other

private lemma received_of_type
    (other : m.type ≠ .update ∧ m.type ≠ .request ∧ m.type ≠ .seqRequest) : Received m where
  valid := by tauto
  router := by
    rintro (announces | seqRequest)
    · exact absurd announces.1 other.1
    exact absurd seqRequest other.2.2
  lasting update := absurd update other.1
  retracts update := absurd update other.1
  single seqRequest := absurd seqRequest other.2.2

lemma received_of_decodeBody
    (decoded : decodeBody context type payload = (context', some (m, used))) : Received m := by
  simp only [decodeBody] at decoded
  split at decoded
  · split at decoded
    · cases decoded
    split at decoded
    · cases decoded
    cases decoded
    apply received_of_type
    simp only
    split <;> simp
  split at decoded
  · split at decoded
    · cases decoded
    cases decoded
    exact received_of_type (by simp)
  split at decoded
  · split at decoded
    · cases decoded
    split at decoded
    · cases decoded
    split at decoded
    · cases decoded
    cases decoded
    exact received_of_type (by simp)
  split at decoded
  · split at decoded
    · cases decoded
    split at decoded
    · cases decoded
    split at decoded
    · cases decoded
    cases decoded
    exact received_of_type (by simp)
  split at decoded
  · split at decoded
    · cases decoded
    cases decoded
    exact received_of_type (by simp)
  split at decoded
  · exact received_of_decodeUpdate decoded
  split at decoded
  · exact received_of_decodeRequest (.inl rfl) (Prod.ext_iff.mp decoded).2
  split at decoded
  · exact received_of_decodeRequest (.inr rfl) (Prod.ext_iff.mp decoded).2
  cases decoded

lemma received_of_decodeTlvs (visited : m ∈ decodeTlvs context entries) : Received m := by
  induction entries generalizing context with
  | nil => simp [decodeTlvs] at visited
  | cons entry rest ih =>
    obtain ⟨type, payload⟩ := entry
    rw [decodeTlvs] at visited
    obtain first | later := List.mem_append.mp visited
    · simp only at first
      split at first
      · simp at first
      rename_i context' message used body
      have received := received_of_decodeBody body
      split at first
      · simp at first
      split at first
      · simp at first
      simp only [List.mem_singleton] at first
      exact first ▸ received
    exact ih later

lemma received_of_wbDecode {packet : List UInt8}
    (decoded : wbDecode packet source = some messages) : ∀ m ∈ messages, Received m := by
  intro m mem
  simp only [wbDecode] at decoded
  split at decoded
  · cases decoded
  obtain ⟨entries, _, rfl⟩ := Option.map_eq_some_iff.mp decoded
  exact received_of_decodeTlvs mem

end WendyLite.Babel
