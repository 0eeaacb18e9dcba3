import WendyLite.Foundation.Sessions

/-! # Push commands

The upload commands of `wendy_com_cmd.c`. At most one push, of an app or of a
configuration, is in progress at a time: two globals hold its kind and the
client that began it. The delegate is the application behind the commands; its
result is an argument here, and the calls it receives are kept in a log. A
client is its id together with the number of the channel opening the id was
made for. The commands see only the id; the log keeps the opening, because ids
are recycled. The log also records when a client goes away.
-/

namespace WendyLite.Com

open List

/-- `WendyComResult`. -/
inductive Result where
  | ok
  | unknownError
  | badProtocolVersion
  | badState
  | busy
  | badAppType
  | badAppSize
  | badConfSize
  | appliedRestarting
  | netNoWifi
  | netNoBle
  | netNoNan
  | netOneCarrierOnly
  | netBleProfileUnsupported
  deriving DecidableEq, Repr

/-- `WendyComAppType`; an open enumeration on the wire. -/
inductive AppType where
  | wasm
  | native
  | other (code : Nat)
  deriving DecidableEq, Repr

/-- `WendyComConfPushMode`; an open enumeration on the wire. -/
inductive ConfPushMode where
  | replace
  | update
  | other (code : Nat)
  deriving DecidableEq, Repr

inductive PushKind where
  | app
  | conf
  deriving DecidableEq, Repr

structure Client where
  id : Nat
  opening : Nat
  deriving DecidableEq, Repr

inductive Action where
  | beginApp (size : Nat) (appType : AppType)
  | beginConf (size : Nat) (mode : ConfPushMode) (wifiOnly : Bool)
  | data (offset : Nat) (bytes : List UInt8)
  | finish
  | abort
  deriving DecidableEq, Repr

structure Call where
  kind : PushKind
  opening : Nat
  action : Action
  deriving DecidableEq, Repr

inductive Entry where
  | call (call : Call)
  | departed (opening : Nat)
  deriving DecidableEq, Repr

structure Push where
  kind : Option PushKind := none
  pushingClientId : Nat := 0
  log : List Entry := []
  deriving DecidableEq, Repr

variable (kind : PushKind)

/-- The part of a push begin that the two kinds share. Ownership is taken before
the delegate answers. -/
def pushBegin (client : Client) (action : Action) (answer : Result)
    (push : Push) : Push × Result :=
  if push.kind.isSome then (push, .busy)
  else
    ({ kind := some kind
       pushingClientId := client.id
       log := push.log ++ [.call ⟨kind, client.opening, action⟩] }, answer)

variable (client : Client)

def wcomCmdAppPushBegin (size : Nat) (appType : AppType) (answer : Result)
    (push : Push) : Push × Result :=
  -- A future app format must not acquire upload ownership.
  if appType ≠ .wasm ∧ appType ≠ .native then (push, .badAppType)
  else pushBegin .app client (.beginApp size appType) answer push

def wcomCmdConfPushBegin (size : Nat) (mode : ConfPushMode) (wifiOnly : Bool)
    (answer : Result) (push : Push) : Push × Result :=
  if mode ≠ .replace ∧ mode ≠ .update then (push, .badState)
  else pushBegin .conf client (.beginConf size mode wifiOnly) answer push

def pushData (client : Client) (offset : Nat) (bytes : List UInt8)
    (answer : Result) (push : Push) : Push × Result :=
  if push.kind ≠ some kind ∨ client.id ≠ push.pushingClientId then (push, .busy)
  else
    ({ push with log := push.log ++ [.call ⟨kind, client.opening, .data offset bytes⟩] }, answer)

def wcomCmdAppPushData : Client → Nat → List UInt8 → Result → Push → Push × Result :=
  pushData .app

def wcomCmdConfPushData : Client → Nat → List UInt8 → Result → Push → Push × Result :=
  pushData .conf

def pushEnd (client : Client) (answer : Result) (push : Push) :
    Push × Result :=
  if push.kind ≠ some kind ∨ client.id ≠ push.pushingClientId then (push, .busy)
  else
    ({ kind := none
       pushingClientId := 0
       log := push.log ++ [.call ⟨kind, client.opening, .finish⟩] }, answer)

def wcomCmdAppPushEnd : Client → Result → Push → Push × Result := pushEnd .app

def wcomCmdConfPushEnd : Client → Result → Push → Push × Result := pushEnd .conf

/-- The abort that ends the push of a client that goes away. The console and the
sensors, which hear of it next, take no part in uploads. -/
def wcomCmdClientDisconnected (push : Push) : Push :=
  let log := push.log ++ [.departed client.opening]
  match push.kind with
  | none => { push with log }
  | some kind =>
    if client.id = push.pushingClientId then
      { kind := none
        pushingClientId := 0
        log := log ++ [.call ⟨kind, client.opening, .abort⟩] }
    else { push with log }

/-! ## The delegate's view -/

abbrev Holder := PushKind × Nat

def Call.holder (call : Call) : Holder := (call.kind, call.opening)

def Call.use (call : Call) : Use Holder :=
  match call.action with
  | .beginApp .. | .beginConf .. => .opens call.holder
  | .data .. => .uses call.holder
  | .finish | .abort => .closes call.holder

def Entry.call? : Entry → Option Call
  | .call made => some made
  | .departed _ => none

def Push.calls (push : Push) : List Call := push.log.filterMap Entry.call?

def heldNext (held : Option Holder) : Entry → Option Holder
  | .departed _ => held
  | .call call =>
    match call.use with
    | .opens holder => some holder
    | .uses _ => held
    | .closes _ => none

def heldAfter (log : List Entry) : Option Holder := log.foldl heldNext none

@[simp] lemma heldAfter_append (log : List Entry) (entry : Entry) :
    heldAfter (log ++ [entry]) = heldNext (heldAfter log) entry := by
  simp [heldAfter]

/-- The logs of an exclusive upload: sessions that begin, carry data and end, and
clients that go away, each followed by the abort of its session if it has one. -/
inductive Traced : Option Holder → List Entry → Prop
  | idle : Traced none []
  | opens {log call} : Traced none log → call.use = .opens call.holder →
      Traced (some call.holder) (log ++ [.call call])
  | uses {log call} : Traced (some call.holder) log → call.use = .uses call.holder →
      Traced (some call.holder) (log ++ [.call call])
  | finishes {log call} : Traced (some call.holder) log → call.action = .finish →
      Traced none (log ++ [.call call])
  | departs {held log opening} : Traced held log → (∀ kind, held ≠ some (kind, opening)) →
      Traced held (log ++ [.departed opening])
  | aborts {log kind opening} : Traced (some (kind, opening)) log →
      Traced none ((log ++ [.departed opening]) ++ [.call ⟨kind, opening, .abort⟩])

lemma Call.use_of_finish {call : Call} (finish : call.action = .finish) :
    call.use = .closes call.holder := by
  simp [Call.use, finish]

variable {held : Option Holder} {log : List Entry}

lemma Traced.bracketed (traced : Traced held log) :
    Bracketed Call.use held (log.filterMap Entry.call?) := by
  induction traced with
  | idle => exact .idle
  | opens _ use ih => simpa [Entry.call?] using Bracketed.opens ih use
  | uses _ use ih => simpa [Entry.call?] using Bracketed.uses ih use
  | finishes _ finish ih =>
    simpa [Entry.call?] using Bracketed.closes ih (Call.use_of_finish finish)
  | departs _ _ ih => simpa [Entry.call?, filterMap_cons] using ih
  | @aborts log kind opening _ ih =>
    have closed : (Call.mk kind opening .abort).use = .closes (kind, opening) := rfl
    simpa [Entry.call?, filterMap_cons] using Bracketed.closes ih closed

lemma Traced.heldAfter (traced : Traced held log) : heldAfter log = held := by
  induction traced with
  | idle => rfl
  | opens _ use ih => simp [heldNext, use]
  | uses _ use ih => simp [heldNext, use, ih]
  | finishes _ finish ih => simp [heldNext, Call.use_of_finish finish]
  | departs _ _ ih => simp [heldNext, ih]
  | aborts _ ih => rw [heldAfter_append]; rfl

variable {kind : PushKind}

/-- A client that goes away while it owns an upload has it aborted next. -/
lemma Traced.departure (traced : Traced held log) {before after : List Entry} {opening : Nat}
    (splits : log = before ++ .departed opening :: after)
    (owned : Com.heldAfter before = some (kind, opening)) :
    ∃ rest, after = .call ⟨kind, opening, .abort⟩ :: rest := by
  induction traced generalizing after with
  | idle => simp at splits
  | @opens log call _ _ ih | @uses log call _ _ ih
  | @finishes log call _ _ ih =>
    obtain rfl | ⟨init, last, rfl⟩ := eq_nil_or_concat after
    · simpa using (append_inj_right' splits rfl)
    rw [concat_eq_append, ← cons_append, ← append_assoc] at splits
    obtain ⟨rest, rfl⟩ := ih (append_inj_left' splits rfl)
    exact ⟨rest ++ [last], by simp⟩
  | @departs held log other traced distinct ih =>
    obtain rfl | ⟨init, last, rfl⟩ := eq_nil_or_concat after
    · obtain rfl := append_inj_left' splits rfl
      have same := append_inj_right' splits rfl
      simp only [List.cons.injEq, Entry.departed.injEq, and_true] at same
      exact absurd (traced.heldAfter.symm.trans owned) (same ▸ distinct kind)
    rw [concat_eq_append, ← cons_append, ← append_assoc] at splits
    obtain ⟨rest, rfl⟩ := ih (append_inj_left' splits rfl)
    exact ⟨rest ++ [last], by simp⟩
  | @aborts log holderKind other traced ih =>
    obtain rfl | ⟨init, last, rfl⟩ := eq_nil_or_concat after
    · simpa using (append_inj_right' splits rfl)
    rw [concat_eq_append, ← cons_append, ← append_assoc] at splits
    have lastEq := append_inj_right' splits rfl
    have initEq := append_inj_left' splits rfl
    simp only [List.cons.injEq, and_true] at lastEq
    subst lastEq
    obtain rfl | ⟨inner, final, rfl⟩ := eq_nil_or_concat init
    · obtain rfl := append_inj_left' initEq rfl
      have held := traced.heldAfter.symm.trans owned
      simp only [Option.some.injEq, Prod.mk.injEq] at held
      obtain ⟨rfl, rfl⟩ := held
      exact ⟨[], rfl⟩
    rw [concat_eq_append, ← cons_append, ← append_assoc] at initEq
    obtain ⟨rest, rfl⟩ := ih (append_inj_left' initEq rfl)
    exact ⟨rest ++ [final, .call ⟨holderKind, other, .abort⟩], by simp⟩

/-! ## Each command keeps the log in step with the globals -/

/-- The globals name `owner` as the client that pushes, and the log agrees. -/
structure Push.Tracks (push : Push) (owner : Option Client) : Prop where
  held : push.kind.isSome = owner.isSome
  owned : ∀ client, owner = some client → push.pushingClientId = client.id
  traced : Traced (push.kind.bind fun kind => owner.map fun client => (kind, client.opening))
    push.log

lemma Push.tracks_initial : Push.Tracks {} none := ⟨rfl, by simp, .idle⟩

variable {push : Push}

lemma Push.Tracks.kind_none (tracks : push.Tracks none) : push.kind = none := by
  simpa using tracks.held

variable {client : Client}

lemma Push.Tracks.kind_some
    (tracks : push.Tracks (some client)) : ∃ kind, push.kind = some kind :=
  Option.isSome_iff_exists.mp (by simpa using tracks.held)

/-- The log while `client` pushes. -/
lemma Push.Tracks.traced_some
    (tracks : push.Tracks (some client)) (kindEq : push.kind = some kind) :
    Traced (some (kind, client.opening)) push.log := by
  simpa [kindEq] using tracks.traced

variable {owner : Option Client}

section

variable (tracks : push.Tracks owner)
include tracks

lemma Push.Tracks.accepted
    (accepted : ¬(push.kind ≠ some kind ∨ client.id ≠ push.pushingClientId))
    (known : ∀ holder, owner = some holder → client.id = holder.id → client = holder) :
    push.kind = some kind ∧ owner = some client := by
  push Not at accepted
  obtain ⟨kindEq, idEq⟩ := accepted
  cases owner with
  | none => simp [tracks.kind_none] at kindEq
  | some holder => exact ⟨kindEq, by rw [known holder rfl (idEq.trans (tracks.owned holder rfl))]⟩

/-- A begin that finds a push in progress changes nothing; any other makes its
client the owner, whatever the delegate answers. -/
lemma pushBegin_tracks (kind : PushKind) (client : Client) (answer : Result)
    (opens : (Call.mk kind client.opening action).use = .opens (kind, client.opening)) :
    (pushBegin kind client action answer push).1.Tracks (owner <|> some client) := by
  cases owner with
  | some holder =>
    obtain ⟨held, kindEq⟩ := tracks.kind_some
    simpa [pushBegin, kindEq] using tracks
  | none =>
    have idle := tracks.kind_none
    have before := tracks.traced
    simp only [idle, Option.bind_none] at before
    have opened := Traced.opens before opens
    refine ⟨by simp [pushBegin, idle], by simp [pushBegin, idle], ?_⟩
    simpa [pushBegin, idle, Call.holder] using opened

lemma pushData_tracks
    (kind : PushKind) (client : Client) (offset : Nat) (bytes : List UInt8) (answer : Result)
    (known : ∀ holder, owner = some holder → client.id = holder.id → client = holder) :
    (pushData kind client offset bytes answer push).1.Tracks owner := by
  unfold pushData
  split
  · exact tracks
  rename_i accepted
  obtain ⟨kindEq, rfl⟩ := tracks.accepted accepted known
  refine ⟨tracks.held, tracks.owned, ?_⟩
  simp only [kindEq, Option.bind_some, Option.map_some]
  have before : Traced (some (Call.mk kind client.opening (.data offset bytes)).holder) push.log :=
    tracks.traced_some kindEq
  exact before.uses rfl

lemma pushEnd_tracks (kind : PushKind) (client : Client) (answer : Result)
    (known : ∀ holder, owner = some holder → client.id = holder.id → client = holder) :
    (pushEnd kind client answer push).1.Tracks owner ∨
      (pushEnd kind client answer push).1.Tracks none := by
  unfold pushEnd
  split
  · exact .inl tracks
  rename_i accepted
  obtain ⟨kindEq, rfl⟩ := tracks.accepted accepted known
  have before : Traced (some (Call.mk kind client.opening .finish).holder) push.log :=
    tracks.traced_some kindEq
  exact .inr ⟨rfl, by simp, before.finishes rfl⟩

/-- The push of a client that goes away is aborted; another client's is not. -/
lemma wcomCmdClientDisconnected_tracks (client : Client)
    (known : ∀ holder, owner = some holder → (client.id = holder.id ↔ client = holder))
    (apart : ∀ holder, owner = some holder → client.opening = holder.opening → client = holder) :
    (wcomCmdClientDisconnected client push).Tracks
      (if owner = some client then none else owner) := by
  cases owner with
  | none =>
    have idle := tracks.kind_none
    have before := tracks.traced
    simp only [idle, Option.bind_none] at before
    refine ⟨by simp [wcomCmdClientDisconnected, idle], by simp, ?_⟩
    simpa [wcomCmdClientDisconnected, idle] using Traced.departs before (by simp)
  | some holder =>
    obtain ⟨kind, kindEq⟩ := tracks.kind_some
    have before := tracks.traced_some kindEq
    have ids := (known holder rfl)
    rw [← tracks.owned holder rfl] at ids
    by_cases same : client = holder
    · subst same
      simp only [wcomCmdClientDisconnected, kindEq, if_pos (ids.mpr rfl), if_true]
      exact ⟨rfl, by simp, .aborts before⟩
    have other : some holder ≠ some client := fun eq => same (Option.some.inj eq).symm
    simp only [wcomCmdClientDisconnected, kindEq, if_neg (mt ids.mp same), if_neg other]
    refine ⟨by simp, by simpa using tracks.owned, ?_⟩
    simp only [Option.bind_some, Option.map_some]
    refine .departs before fun otherKind held => same (apart holder rfl ?_)
    exact ((Prod.mk.inj (Option.some.inj held)).2).symm

end

end WendyLite.Com
