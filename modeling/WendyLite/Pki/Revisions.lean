import WendyLite.Foundation.Octets

/-! # Manifest revisions

`reserve_boot_revisions`, `wendy_pki_mesh_revision_next` and `wendy_pki_reset` of
`wendy_pki.c`. A boot writes a new reserved mark before it uses the revisions below
it; the mark is one key of the identity namespace, and an enrollment reset leaves it.

Storage answers as it likes: a read or a write may fail, and a failed write may have
been stored all the same. A set that reports success is stored, and what is stored is
found again.
-/

namespace WendyLite.Pki

open Function

abbrev Store := String → Option (List UInt8)

def meshRevisionBootRange : Nat := 2 ^ 32

def uint64Max : Nat := 2 ^ 64 - 1

def add64 (left right : Nat) : Nat := (left + right) % 2 ^ 64

def wraps64 (left right : Nat) : Bool := 2 ^ 64 ≤ left + right

def wordBytes (value : Nat) : List UInt8 := (beBytes 8 value).reverse

def bytesWord (bytes : List UInt8) : Nat := beNat bytes.reverse

lemma length_wordBytes (value : Nat) : (wordBytes value).length = 8 := by simp [wordBytes]

lemma bytesWord_wordBytes (small : value < 2 ^ 64) :
    bytesWord (wordBytes value) = value := by
  rw [bytesWord, wordBytes, List.reverse_reverse]
  exact beNat_beBytes_of_lt (by simpa using small)

lemma add64_eq (small : left + right < 2 ^ 64) :
    add64 left right = left + right := Nat.mod_eq_of_lt small

lemma wraps64_eq (small : left + right < 2 ^ 64) :
    wraps64 left right = false := by
  simpa [wraps64] using small

/-! ## The range of a boot -/

/-- `boot_revisions`. -/
structure BootRevisions where
  attempted : Bool := false
  ready : Bool := false
  next : Nat := 0
  limit : Nat := 0
  deriving DecidableEq, Repr

def markKey : String := "mesh_revision"

/-- What `nvs_get_blob` leaves in `reserved`: zero if there is no blob, and nothing
usable if it has another size. -/
def readMark (store : Store) : Option Nat :=
  match store markKey with
  | none => some 0
  | some bytes => if bytes.length = 8 then some (bytesWord bytes) else none

/-- Another range fits above the mark. -/
def roomAbove (reserved : Nat) : Bool := reserved < uint64Max - meshRevisionBootRange

def nextMark (reserved : Nat) : Nat := add64 reserved meshRevisionBootRange

def writeMark (store : Store) (reserved : Nat) : Store :=
  update store markKey (some (wordBytes (nextMark reserved)))

def BootRevisions.open_ (boot : BootRevisions) (reserved : Nat) : BootRevisions :=
  { boot with next := add64 reserved 1, limit := add64 (nextMark reserved) 1, ready := true }

/-- Inside the lock of `wendy_pki_mesh_revision_next`. -/
def BootRevisions.take (boot : BootRevisions) : Option Nat × BootRevisions :=
  if boot.ready ∧ boot.next < boot.limit then
    (some boot.next, { boot with next := add64 boot.next 1 })
  else (none, boot)

variable {reserved : Nat}

lemma room_lt (room : roomAbove reserved = true) :
    reserved + meshRevisionBootRange + 1 < 2 ^ 64 := by
  have below : reserved < uint64Max - meshRevisionBootRange := by simpa [roomAbove] using room
  simp only [uint64Max, meshRevisionBootRange] at below ⊢
  omega

lemma nextMark_eq (room : roomAbove reserved = true) :
    nextMark reserved = reserved + meshRevisionBootRange :=
  add64_eq (by have := room_lt room; omega)

lemma readMark_writeMark (room : roomAbove reserved = true) :
    readMark (writeMark store reserved) = some (nextMark reserved) := by
  have small : nextMark reserved < 2 ^ 64 := by
    have := room_lt room
    rw [nextMark_eq room]
    omega
  simp [readMark, writeMark, length_wordBytes, bytesWord_wordBytes small]

/-! ## Enrollment reset -/

def resetKeys : List String :=
  ["key", "certificate", "pending", "lite_ca", "pending_ca", "tenant", "device", "nonce",
    "net_der_meta", "net_der_ranges", "net_der_0", "net_der_1", "net_der_2", "net_der_3",
    "net_der_4", "net_der_5", "net_der_6", "net_der_7"]

inductive ResetAction where
  | mark
  | clearEnrollment
  | erase (key : String)
  deriving DecidableEq, Repr

/-- What `wendy_pki_reset` does once the nonce is the right one, in order. -/
def resetActions : List ResetAction :=
  [.mark, .clearEnrollment] ++ resetKeys.map .erase ++ [.erase "reset_pending"]

/-- The storage after one action, whether it reports success or not. -/
def ResetAction.apply (action : ResetAction) (landed : Bool) (store : Store) : Store :=
  match landed, action with
  | false, _ | true, .clearEnrollment => store
  | true, .mark => update store "reset_pending" (some (wordBytes 1))
  | true, .erase key => update store key none

def ResetAction.spares : ResetAction → Bool
  | .mark | .clearEnrollment => true
  | .erase key => key ≠ markKey

lemma resetActions_spare : ∀ action ∈ resetActions, action.spares = true := by decide

lemma readMark_reset {action : ResetAction} (spares : action.spares = true) (landed : Bool)
    (store : Store) : readMark (action.apply landed store) = readMark store := by
  have kept : action.apply landed store markKey = store markKey := by
    cases landed with
    | false => rfl
    | true =>
      cases action with
      | mark =>
        have apart : markKey ≠ "reset_pending" := by decide
        exact update_of_ne apart _ _
      | clearEnrollment => rfl
      | erase key =>
        have apart : key ≠ markKey := by simpa [ResetAction.spares] using spares
        exact update_of_ne apart.symm _ _
  simp only [readMark, kept]

end WendyLite.Pki
