import WendyLite.Babel.Grounded

/-! # The feasibility discipline

What an engine ever does to its source entries, and what they guarantee for the
Updates it queues and the routes it selects.
-/

namespace WendyLite.Babel

open SlotTable

variable {env : Env} {e : Engine}

def EntryFor (source : Source) (m : Message) : Prop :=
  source.used = true ∧ source.pfx = m.pfx ∧ source.router = m.router

/-- An Update keeps its source entry for the whole lifetime of one. -/
lemma Sound.entry_lasts (sound : Sound env Provenance.any e) (mem : queued ∈ e.messages)
    (announces : queued.message.announces)
    (soon : (run env e events).now.toNat < e.now.toNat + e.config.sourceMs.toNat) :
    ∃ source ∈ (run env e events).sources, EntryFor source queued.message := by
  obtain ⟨route, source, _, backed⟩ := (sound.messages queued mem).backed announces
  obtain ⟨now, inTable, renewed⟩ := backed.current
  have alive : (run env e events).now < now.expires := by
    have expires := UInt64.le_iff_toNat_le.mp renewed.expires
    rw [backed.lasting, sourceHorizon] at expires
    rw [UInt64.lt_iff_toNat_lt]
    omega
  rcases (run_advances sound events).2.sources now inTable renewed.used alive with
    ⟨later, inTable', renewed'⟩
  have chain := renewed.trans renewed'
  exact ⟨later, inTable', chain.used, chain.pfx.trans backed.sourcePfx,
    chain.router.trans backed.sourceRouter⟩

/-- The route is the one a candidate of the engine announced, at a distance
strictly better than every source entry for its prefix and router. -/
def Justified (e : Engine) (route : Route) : Prop :=
  ∃ candidate ∈ e.candidates, candidate.used = true ∧
    candidate.route.pfx = route.pfx ∧ candidate.route.router = route.router ∧
    candidate.route.link = route.link ∧ candidate.route.seqno = route.seqno ∧
    ∀ source ∈ e.sources, source.used = true → source.pfx = route.pfx →
      source.router = route.router → candidate.distance.better source.distance = true

lemma Grounded.justified (grounded : Grounded env e) (mem : route ∈ e.routes)
    (reachable : route.unreachable = false) (foreign : route.isLocal = false) : Justified e route := by
  rcases (grounded.routes.each route mem rfl).learned reachable foreign with
    ⟨_, _, advertised, _, ⟨candidate, inTable, announces⟩, better⟩
  refine ⟨candidate, inTable, announces.used, announces.pfx, announces.router, announces.link,
    congrArg Distance.seqno announces.distance, ?_⟩
  rw [announces.distance]
  exact better

/-- Two Updates in one packet, each a third of the circle ahead. -/
def rush : Event :=
  .receive 1 1 (packet [offering 22000 10, asking, offering 44000 10, asking])

end WendyLite.Babel
