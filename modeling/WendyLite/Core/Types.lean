import WendyLite.Com.Push
import WendyLite.Foundation.Flash

/-! # The state of the core

The globals of `wendy_core.c` that uploads and the WASM lifecycle use. Three
threads share them. The com task makes the delegate calls, one after another.
The control thread carries out start and stop requests in the order they are
queued. The execution thread runs the guest.

The upload functions take a slot, which is 0 in every call, so it is left out.
Fields written `ghost` are not in the source: they record what happened and
nothing reads them.
-/

namespace WendyLite.Core

open Com (Result AppType ConfPushMode PushKind Action)

/-- `esp_err_t`. -/
inductive EspErr where
  | ok
  | fail
  | noMem
  | invalidArg
  | invalidState
  | invalidSize
  | notFound
  | notSupported
  | timeout
  | other (code : Nat)
  deriving DecidableEq, Repr

/-! ## Flash -/

def sectorOf (eraseSize : UInt32) : UInt32 := if eraseSize ≠ 0 then eraseSize else 4096

/-- `esp_partition_t`. Sectors are powers of two and the partition ends a sector
before the end of the address space. -/
structure Partition where
  size : UInt32
  eraseSize : UInt32
  power : ∃ shift, (sectorOf eraseSize).toNat = 2 ^ shift
  room : size.toNat + (sectorOf eraseSize).toNat ≤ 2 ^ 32
  deriving DecidableEq

/-- The answer of a flash operation, and what a failed one leaves in its range. -/
structure FlashAnswer where
  err : EspErr := .ok
  left : Flash := fun _ => 0

/-- `sizeof(uint32_t)`, the size header of a partition. -/
def headerSize : Nat := 4

def littleEndian (value : UInt32) : List UInt8 := (beBytes headerSize value.toNat).reverse

/-! ## Threads -/

/-- `wasm_control_command_t`. -/
inductive Command where
  | start
  | stop
  | stopForFlash
  deriving DecidableEq, Repr

/-- `wasm_control_request_t`; the com task waits for it or has given up. -/
structure Request where
  command : Command
  awaited : Bool
  deriving DecidableEq, Repr

inductive Control where
  | idle
  /-- In `wait_for_wasm_inactive`. -/
  | stopping (request : Request)
  /-- In `wasm_app_start_on_control_thread`, before the partition is read. -/
  | preparing (request : Request)
  /-- In `wendy_wasm_load_from_partition`, after the size header was accepted. -/
  | reading (request : Request) (wasmLen : Nat)
  deriving DecidableEq, Repr

def Request.abandon (request : Request) : Request := { request with awaited := false }

def Control.abandon : Control → Control
  | .idle => .idle
  | .stopping request => .stopping request.abandon
  | .preparing request => .preparing request.abandon
  | .reading request wasmLen => .reading request.abandon wasmLen

inductive Continuation where
  | pushBegin (totalLen : UInt32)
  | appStart
  | appStop
  | reboot (appAutoStart : Bool)
  | autoStart
  deriving DecidableEq, Repr

def Continuation.command : Continuation → Command
  | .pushBegin _ => .stopForFlash
  | .appStart | .autoStart => .start
  | .appStop | .reboot _ => .stop

/-- Where the com task is: between calls, in a control call, or in a flash
operation. -/
inductive Task where
  | idle
  | awaiting (continuation : Continuation)
  | erasing (part : Partition) (totalLen : UInt32)
  | sizing (part : Partition) (totalLen : UInt32)
  | writing (offset : UInt32) (bytes : List UInt8)
  | zeroing
  deriving DecidableEq

def Task.isFlashing : Task → Bool
  | .idle | .awaiting _ => false
  | .erasing .. | .sizing .. | .writing .. | .zeroing => true

/-! ## Uploads -/

/-- `enum wendy_conf_write_mode`. -/
inductive ConfWriteMode where
  | replace
  | update
  | wifiOnly
  deriving DecidableEq, Repr

/-- Ghost: the announced size of an upload and the ranges, as offset and length,
that were accepted for it. -/
structure Upload where
  announced : Nat := 0
  supplied : List (Nat × Nat) := []
  deriving DecidableEq, Repr

def Upload.Complete (upload : Upload) : Prop :=
  ∀ position < upload.announced,
    ∃ range ∈ upload.supplied, range.1 ≤ position ∧ position < range.1 + range.2

instance (upload : Upload) : Decidable upload.Complete := by
  unfold Upload.Complete
  infer_instance

def Upload.supply (upload : Upload) (offset length : Nat) : Upload :=
  { upload with supplied := upload.supplied ++ [(offset, length)] }

/-- Ghost: the flash write of a chunk, with the announced size and the length of
the erased region at that time. -/
structure ChunkWrite where
  announced : Nat
  erased : Nat
  address : Nat
  length : Nat
  deriving DecidableEq, Repr

/-- Ghost: the state of the most recent WASM upload. -/
inductive Status where
  | none
  | open
  | ended
  | aborted
  deriving DecidableEq, Repr

structure Device where
  /-- The contents of the WASM partition, and the partition if there is one. -/
  flash : Flash
  partition : Option Partition
  /-- `wendy_conf_get_max_size()`. -/
  confMaxSize : Nat := 4096
  com : Task := .idle
  control : Control := .idle
  controlQueue : List Request := []
  /-- The result of the request the com task waits for, once it is there. -/
  done : Option EspErr := none
  /-- `s_current_module` is not null. -/
  currentModule : Bool := false
  wasmActive : Bool := false
  persistPart : Option Partition := none
  persistLoadPending : Bool := false
  bootAppAutoStart : Bool := true
  appAutoStartEnabled : Bool := true
  nativePush : Bool := false
  otaPartition : Option Nat := none
  confPushBuf : Option (List UInt8) := none
  confPushSize : Nat := 0
  confPushMode : ConfWriteMode := .replace
  /-- The results reported to clients. -/
  replies : List Result := []
  /-- The calls of `wendy_conf_write`. -/
  confWrites : List (List UInt8 × ConfWriteMode) := []
  /-- Ghost: the last WASM upload, and how much was erased for it. -/
  status : Status := .none
  wasmUpload : Upload := {}
  erased : Nat := 0
  /-- Ghost: the last native and configuration uploads. -/
  nativeUpload : Upload := {}
  confUpload : Upload := {}
  /-- Ghost: the chunk writes, the uploads reported as completed, and the state of
  the last upload whenever a module was loaded. -/
  chunkWrites : List ChunkWrite := []
  completed : List Upload := []
  loads : List Status := []

/-- What the rest of the firmware answers during one delegate call. -/
structure Answers where
  /-- Whether a control request could be queued. -/
  queueing : EspErr := .ok
  /-- `esp_ota_begin`, `esp_ota_write`, `esp_ota_end` or `wendy_conf_write`. -/
  err : EspErr := .ok
  /-- `esp_ota_set_boot_partition`. -/
  bootErr : EspErr := .ok
  /-- The size of the next OTA partition, if there is one. -/
  otaPartition : Option Nat := some 0
  allocates : Bool := true
  /-- The contents of memory just allocated. -/
  heap : Nat → UInt8 := fun _ => 0

end WendyLite.Core
