import Mathlib.Data.List.Basic

/-! # Sessions of an exclusive resource

A resource is held by at most one owner at a time. Each call opens it, uses it
or closes it on behalf of an owner. A log of calls is bracketed when every use
falls between an opening and the closing that answers it; such a log is a
sequence of complete sessions with at most one still open at its end.
-/

namespace WendyLite

/-- What a call does to the resource, and for whom. -/
inductive Use (Owner : Type) where
  | opens (owner : Owner)
  | uses (owner : Owner)
  | closes (owner : Owner)
  deriving DecidableEq

/-- A bracketed log, with the owner that holds the resource at its end. -/
inductive Bracketed {Call Owner : Type} (use : Call → Use Owner) :
    Option Owner → List Call → Prop
  | idle : Bracketed use none []
  | opens {log call owner} : Bracketed use none log → use call = .opens owner →
      Bracketed use (some owner) (log ++ [call])
  | uses {log call owner} : Bracketed use (some owner) log → use call = .uses owner →
      Bracketed use (some owner) (log ++ [call])
  | closes {log call owner} : Bracketed use (some owner) log → use call = .closes owner →
      Bracketed use none (log ++ [call])

/-- One session: an opening, uses and the closing, all by one owner. -/
structure Session {Call Owner : Type} (use : Call → Use Owner) where
  owner : Owner
  first : Call
  body : List Call
  last : Call
  opens : use first = .opens owner
  uses : ∀ call ∈ body, use call = .uses owner
  closes : use last = .closes owner

def Session.calls {Call Owner : Type} {use : Call → Use Owner} (session : Session use) :
    List Call :=
  session.first :: (session.body ++ [session.last])

/-- A session whose closing has not come yet. -/
structure OpenSession {Call Owner : Type} (use : Call → Use Owner) where
  owner : Owner
  first : Call
  body : List Call
  opens : use first = .opens owner
  uses : ∀ call ∈ body, use call = .uses owner

def OpenSession.calls {Call Owner : Type} {use : Call → Use Owner}
    (session : OpenSession use) : List Call :=
  session.first :: session.body

/-- A log is a sequence of complete sessions, then the one still open, if any. -/
structure Sessions {Call Owner : Type} (use : Call → Use Owner) (held : Option Owner)
    (log : List Call) where
  complete : List (Session use)
  pending : Option (OpenSession use)
  holder : pending.map OpenSession.owner = held
  splits : log = complete.flatMap Session.calls ++ (pending.map OpenSession.calls).getD []

/-- A bracketed log is a sequence of sessions. -/
theorem Bracketed.sessions {Call Owner : Type} {use : Call → Use Owner} {held : Option Owner}
    {log : List Call} (bracketed : Bracketed use held log) : Nonempty (Sessions use held log) := by
  induction bracketed with
  | idle => exact ⟨⟨[], none, rfl, rfl⟩⟩
  | @opens log call owner _ opens ih =>
    obtain ⟨⟨complete, pending, holder, splits⟩⟩ := ih
    obtain rfl : pending = none := by simpa using holder
    refine ⟨⟨complete, some ⟨owner, call, [], opens, by simp⟩, rfl, ?_⟩⟩
    simp [splits, OpenSession.calls]
  | @uses log call owner _ uses ih =>
    obtain ⟨⟨complete, pending, holder, splits⟩⟩ := ih
    obtain ⟨session, rfl, rfl⟩ := Option.map_eq_some_iff.mp holder
    refine ⟨⟨complete, some ⟨session.owner, session.first, session.body ++ [call],
      session.opens, ?_⟩, rfl, ?_⟩⟩
    · intro other mem
      obtain earlier | new := List.mem_append.mp mem
      · exact session.uses other earlier
      exact List.mem_singleton.mp new ▸ uses
    simp [splits, OpenSession.calls]
  | @closes log call owner _ closes ih =>
    obtain ⟨⟨complete, pending, holder, splits⟩⟩ := ih
    obtain ⟨session, rfl, rfl⟩ := Option.map_eq_some_iff.mp holder
    refine ⟨⟨complete ++ [⟨session.owner, session.first, session.body, call,
      session.opens, session.uses, closes⟩], none, rfl, ?_⟩⟩
    simp [splits, OpenSession.calls, Session.calls]

end WendyLite
