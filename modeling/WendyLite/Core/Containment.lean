import WendyLite.Core.Lifecycle

/-! # Upload writes stay inside the announced image

`wasm_persist_begin` adds the header to the announced size in 32 bits, and
`wasm_persist_chunk` adds it to the offset without looking at the announced size.
Neither end checks that all bytes have come. What the source relies on is a
client that announces a size the sum can hold, stays inside it, and ends only
when it has sent everything. Under these conditions every run keeps the header,
the writes and the reports right.
-/

namespace WendyLite.Core

open Com (Result AppType ConfPushMode PushKind Action)

def ChunkWrite.Inside (write : ChunkWrite) : Prop :=
  ∀ address, write.address ≤ address → address < write.address + write.length →
    headerSize ≤ address ∧ address < headerSize + write.announced

def ChunkWrite.Erased (write : ChunkWrite) : Prop :=
  ∀ address, write.address ≤ address → address < write.address + write.length →
    address < write.erased

structure Contained (device : Device) : Prop where
  inside : ∀ write ∈ device.chunkWrites, write.Inside
  erased : ∀ write ∈ device.chunkWrites, write.Erased
  header : device.persistPart.isSome → device.flash.word 0 headerSize = device.wasmUpload.announced
  complete : ∀ upload ∈ device.completed, upload.Complete

variable (device : Device)

/-- What the source relies on from its clients. -/
def OrderlyCommand : Event → Prop
  | .push .app (.beginApp size appType) _ => appType ≠ .native → size + headerSize < 2 ^ 32
  | .push .app (.data offset bytes) _ =>
    device.nativePush = false → device.persistPart.isSome →
      offset + bytes.length ≤ device.wasmUpload.announced
  | .push .app .finish _ =>
    (device.nativePush = true → device.nativeUpload.Complete) ∧
      (device.nativePush = false → device.persistPart.isSome → device.wasmUpload.Complete)
  | .push .conf .finish _ => device.confPushBuf.isSome → device.confUpload.Complete
  | _ => True

/-- A command the com task takes is an orderly one. -/
def Orderly (event : Event) : Prop :=
  device.com = .idle → OrderlyCommand device event

def OrderlyRun (device : Device) : List Event → Prop
  | [] => True
  | event :: events => Orderly device event ∧ OrderlyRun (device.step event) events

/-- The casts to 32 bits lose nothing of a size the header can be added to. -/
lemma toNat_ofNat_of_small (small : value + headerSize < 2 ^ 32) :
    (UInt32.ofNat value).toNat = value := by
  refine UInt32.toNat_ofNat_of_lt' ?_
  rw [UInt32.size]
  omega

instance (device : Device) (event : Event) : Decidable (OrderlyCommand device event) := by
  unfold OrderlyCommand
  split <;> infer_instance

instance (device : Device) (event : Event) : Decidable (Orderly device event) := by
  unfold Orderly
  infer_instance

instance OrderlyRun.decidable : (device : Device) → (events : List Event) →
    Decidable (OrderlyRun device events)
  | _, [] => isTrue trivial
  | device, event :: events =>
    have := OrderlyRun.decidable (device.step event) events
    inferInstanceAs (Decidable (_ ∧ _))

/-! ## The erased region -/

/-- Unless the sum wraps, the erased region holds the header and the image. -/
lemma eraseLen_covers (part : Partition) (totalLen : UInt32)
    (small : totalLen.toNat + headerSize < 2 ^ 32) (fits : ¬totalLen + 4 > part.size) :
    headerSize + totalLen.toNat ≤ (Device.eraseLen part totalLen).toNat := by
  obtain ⟨shift, power⟩ := part.power
  have room := part.room
  have positive := Nat.two_pow_pos shift
  unfold headerSize at small ⊢
  have four : (4 : UInt32).toNat = 4 := rfl
  have one : (1 : UInt32).toNat = 1 := rfl
  have needed : (totalLen + 4).toNat = totalLen.toNat + 4 := by
    rw [UInt32.toNat_add, four, Nat.mod_eq_of_lt small]
  have bounded : totalLen.toNat + 4 ≤ part.size.toNat := by
    rw [← needed]
    exact UInt32.le_iff_toNat_le.mp (UInt32.not_lt.mp fits)
  rw [power] at room
  have limit : shift ≤ 32 := by
    by_contra over_
    have large := Nat.pow_lt_pow_right (a := 2) (by decide) (not_le.mp over_)
    omega
  have sum : (totalLen + 4 + sectorOf part.eraseSize - 1).toNat =
      totalLen.toNat + 4 + 2 ^ shift - 1 := by
    rw [UInt32.toNat_sub, UInt32.toNat_add, needed, one, power]
    generalize 2 ^ shift = sector at room positive ⊢
    omega
  have mask : (~~~(sectorOf part.eraseSize - 1)).toNat = 2 ^ 32 - 1 - (2 ^ shift - 1) := by
    rw [UInt32.toNat_not, UInt32.toNat_sub, one, power, UInt32.size]
    generalize 2 ^ shift = sector at room positive ⊢
    omega
  rw [Device.eraseLen, UInt32.toNat_and, sum, mask, and_high_mask (by omega) limit]
  omega

/-! ## What the uploads keep -/

structure Kept (device device' : Device) : Prop where
  flash : device'.flash = device.flash
  persistPart : device'.persistPart = device.persistPart
  wasmUpload : device'.wasmUpload = device.wasmUpload
  erased : device'.erased = device.erased
  chunkWrites : device'.chunkWrites = device.chunkWrites
  completed : device'.completed = device.completed

lemma Kept.of_eq {device device' : Device} (same : (device'.flash, device'.persistPart,
      device'.wasmUpload, device'.erased, device'.chunkWrites, device'.completed) =
    (device.flash, device.persistPart, device.wasmUpload, device.erased, device.chunkWrites,
      device.completed)) : Kept device device' := by
  simp only [Prod.mk.injEq] at same
  obtain ⟨flash, persistPart, wasmUpload, erased, chunkWrites, completed⟩ := same
  exact ⟨flash, persistPart, wasmUpload, erased, chunkWrites, completed⟩

lemma Kept.refl : Kept device device := .of_eq rfl

lemma kept_cancelAppAutoStart : Kept device device.cancelAppAutoStart := .of_eq rfl

def TaskSound : Task → Prop
  | .idle | .zeroing => True
  | .awaiting continuation =>
    ∀ totalLen, continuation = .pushBegin totalLen →
      device.persistPart = none ∧ totalLen.toNat + headerSize < 2 ^ 32
  | .erasing part totalLen =>
    device.persistPart = none ∧ totalLen.toNat + headerSize < 2 ^ 32 ∧
      headerSize + totalLen.toNat ≤ (Device.eraseLen part totalLen).toNat
  | .sizing part totalLen =>
    device.persistPart = none ∧ totalLen.toNat + headerSize < 2 ^ 32 ∧
      headerSize + totalLen.toNat ≤ (Device.eraseLen part totalLen).toNat ∧
      ∀ address < headerSize, device.flash address = 0xFF
  | .writing offset bytes =>
    device.persistPart.isSome ∧ offset.toNat + bytes.length ≤ device.wasmUpload.announced

/-- Containment with what keeps it. -/
structure Sound (device : Device) : Prop where
  contained : Contained device
  room : device.persistPart.isSome →
    device.wasmUpload.announced + headerSize < 2 ^ 32 ∧
      headerSize + device.wasmUpload.announced ≤ device.erased
  task : TaskSound device device.com

lemma TaskSound.kept {device device' : Device} {task : Task} (sound : TaskSound device task)
    (kept : Kept device device') : TaskSound device' task := by
  cases task <;> simp only [TaskSound, kept.persistPart, kept.flash, kept.wasmUpload] at sound ⊢ <;>
    exact sound

lemma Sound.kept {device device' : Device} (sound : Sound device) (kept : Kept device device')
    (task : TaskSound device device'.com) : Sound device' := by
  refine ⟨⟨?_, ?_, ?_, ?_⟩, ?_, task.kept kept⟩
  · rw [kept.chunkWrites]
    exact sound.contained.inside
  · rw [kept.chunkWrites]
    exact sound.contained.erased
  · rw [kept.persistPart, kept.flash, kept.wasmUpload]
    exact sound.contained.header
  · rw [kept.completed]
    exact sound.contained.complete
  rw [kept.persistPart, kept.wasmUpload, kept.erased]
  exact sound.room

section Steps

variable {device : Device}

section

variable (sound : Sound device)
include sound

variable {device' : Device}

namespace Sound

lemma reply (kept : Kept device device') : Sound (device'.reply result) :=
  sound.kept ⟨kept.flash, kept.persistPart, kept.wasmUpload, kept.erased, kept.chunkWrites,
    kept.completed⟩ trivial

lemma restart (appAutoStart : Bool) : Sound (device.restart appAutoStart) where
  contained :=
    ⟨sound.contained.inside, sound.contained.erased, by simp [Device.restart],
      sound.contained.complete⟩
  room := by simp [Device.restart]
  task := trivial

lemma complete (complete : upload.Complete) (kept : Kept device device') :
    Sound ({ device' with completed := device'.completed ++ [upload] }.reply result) := by
  have same : Sound (device'.reply result) := sound.reply kept
  refine ⟨⟨same.contained.inside, same.contained.erased, same.contained.header, ?_⟩,
    same.room, trivial⟩
  intro other mem
  simp only [Device.reply, List.mem_append, List.mem_singleton] at mem
  obtain earlier | rfl := mem
  · exact same.contained.complete other earlier
  exact complete

lemma continue_ (err : EspErr) (task : TaskSound device (.awaiting continuation)) :
    Sound (device.continue_ err continuation) := by
  cases continuation with
  | pushBegin totalLen =>
    obtain ⟨closed, small⟩ := task totalLen rfl
    simp only [Device.continue_, Device.persistBeginStopped]
    split
    · exact sound.reply (.refl device)
    split
    · exact sound.reply (.refl device)
    split
    · exact sound.reply (.refl device)
    rename_i part _ fits
    exact sound.kept (.of_eq rfl)
      ⟨closed, small, eraseLen_covers part totalLen small fits⟩
  | appStart | appStop => exact sound.reply (.refl device)
  | reboot appAutoStart => exact sound.restart appAutoStart
  | autoStart => exact sound.kept (.of_eq rfl) trivial

lemma controlCall (kept : Kept device device') (idle : device'.com = .idle)
    (task : TaskSound device (.awaiting continuation)) :
    Sound (device'.controlCall queueing continuation) := by
  have same : Sound device' := sound.kept kept (by rw [idle]; trivial)
  unfold Device.controlCall
  split
  · exact same.continue_ queueing (task.kept kept)
  exact same.kept (.of_eq rfl) (task.kept kept)

lemma resume : Sound device.resume := by
  unfold Device.resume
  split
  next continuation err waiting _ =>
    have task := sound.task
    rw [waiting] at task
    have taken : Sound { device with done := none } := sound.kept (.of_eq rfl) sound.task
    exact taken.continue_ err (task.kept (.of_eq rfl))
  exact sound

lemma expire : Sound device.expire := by
  unfold Device.expire
  split
  next continuation waiting =>
    have task := sound.task
    rw [waiting] at task
    refine Sound.continue_ ?_ .timeout (task.kept (.of_eq rfl))
    exact sound.kept (.of_eq rfl) sound.task
  exact sound

end Sound

end

lemma settle_outside (device : Device) (answer : FlashAnswer)
    (outside : address < start ∨ start + length ≤ address)
    (same : effect address = device.flash address) :
    device.settle answer start length effect address = device.flash address := by
  unfold Device.settle
  split
  · exact same
  exact Flash.spoil_outside _ _ outside

/-- A chunk inside the announced size does not wrap around to the header. -/
lemma chunk_address {offset : UInt32} {length announced : Nat}
    (small : announced + headerSize < 2 ^ 32) (inside : offset.toNat + length ≤ announced) :
    (4 + offset).toNat = headerSize + offset.toNat := by
  have four : (4 : UInt32).toNat = 4 := rfl
  unfold headerSize at small ⊢
  rw [UInt32.toNat_add, four]
  omega

section

variable (sound : Sound device)
include sound

namespace Sound

lemma flashDone (answer : FlashAnswer) : Sound (device.flashDone answer) := by
  have task := sound.task
  unfold Device.flashDone
  split
  · exact sound
  · exact sound
  next part totalLen erasing =>
    rw [erasing] at task
    obtain ⟨closed, small, covers⟩ := task
    have erasedFlash : ∀ flash, Sound { device with flash, com := .idle } := fun flash =>
      ⟨⟨sound.contained.inside, sound.contained.erased, by simp [closed],
        sound.contained.complete⟩, by simp [closed], trivial⟩
    split
    · exact (erasedFlash _).reply (.of_eq rfl)
    rename_i ok
    refine (erasedFlash _).kept (.of_eq rfl) ⟨closed, small, covers, ?_⟩
    intro address low
    have inside : address < (Device.eraseLen part totalLen).toNat := by omega
    simp [Device.settle, not_not.mp ok, Flash.erase, inside]
  next part totalLen sizing =>
    rw [sizing] at task
    obtain ⟨closed, small, covers, ones⟩ := task
    split
    · exact ⟨⟨sound.contained.inside, sound.contained.erased, by simp [Device.reply, closed],
        sound.contained.complete⟩, by simp [Device.reply, closed], trivial⟩
    rename_i ok
    refine ⟨⟨sound.contained.inside, sound.contained.erased, fun _ => ?_,
      sound.contained.complete⟩, fun _ => ⟨small, covers⟩, trivial⟩
    have written := Flash.word_program_erased device.flash 0 headerSize totalLen.toNat
      fun address _ low => ones address (by omega)
    simp only [Device.reply, Device.settle, if_pos (not_not.mp ok), littleEndian]
    rw [written, Nat.mod_eq_of_lt]
    exact totalLen.toNat_lt
  next offset bytes writing =>
    rw [writing] at task
    obtain ⟨open_, inside⟩ := task
    have start := chunk_address (sound.room open_).1 inside
    have announced : ∀ upload : Upload,
        (if answer.err = EspErr.ok then upload.supply offset.toNat bytes.length
          else upload).announced = upload.announced := by
      intro upload
      split <;> rfl
    refine ⟨⟨sound.contained.inside, sound.contained.erased, fun _ => ?_,
      sound.contained.complete⟩, fun _ => ?_, trivial⟩
    · simp only [Device.reply, announced]
      rw [← sound.contained.header open_]
      refine Flash.word_congr fun address _ low => ?_
      refine settle_outside device answer (.inl ?_) (Flash.program_outside _ (.inl ?_)) <;>
        rw [start] <;> omega
    simp only [Device.reply, announced]
    exact sound.room open_
  exact ⟨⟨sound.contained.inside, sound.contained.erased, by simp,
    sound.contained.complete⟩, by simp, trivial⟩

/-! ## Commands -/

lemma comPushBegin (idle : device.com = .idle) (size : Nat) (appType : AppType)
    (answers : Answers) (orderly : appType ≠ .native → size + headerSize < 2 ^ 32) :
    Sound (device.comPushBegin size appType answers) := by
  unfold Device.comPushBegin
  split
  · unfold Device.nativePushBegin
    split
    · exact sound.reply (.of_eq rfl)
    split
    · exact sound.reply (.of_eq rfl)
    split
    all_goals exact sound.reply (.of_eq rfl)
  rename_i wasm
  have small := orderly wasm
  unfold Device.persistBegin
  split
  · exact sound.reply (.of_eq rfl)
  rename_i closed
  split
  · exact sound.reply (.of_eq rfl)
  refine sound.controlCall (kept_cancelAppAutoStart device) idle ?_
  intro totalLen same
  obtain rfl := Continuation.pushBegin.inj same
  have exact_ := toNat_ofNat_of_small small
  exact ⟨by simpa [Device.cancelAppAutoStart] using closed, by rw [exact_]; exact small⟩

lemma comPushData (offset : Nat) (bytes : List UInt8) (answers : Answers)
    (orderly : device.nativePush = false → device.persistPart.isSome →
      offset + bytes.length ≤ device.wasmUpload.announced) :
    Sound (device.comPushData offset bytes answers) := by
  unfold Device.comPushData
  split
  · unfold Device.nativePushData
    split <;> exact sound.reply (.of_eq rfl)
  rename_i notNative
  unfold Device.persistChunk
  split
  · exact sound.reply (.of_eq rfl)
  rename_i part opened
  have open_ : device.persistPart.isSome := by
    rw [show device.persistPart = some part from opened]
    rfl
  have inside := orderly (by simpa using notNative) open_
  obtain ⟨small, covers⟩ := sound.room open_
  have exact_ : (UInt32.ofNat offset).toNat = offset := toNat_ofNat_of_small (by omega)
  have start : (4 + UInt32.ofNat offset).toNat = headerSize + offset := by
    rw [chunk_address small (by rw [exact_]; exact inside), exact_]
  refine ⟨⟨?_, ?_, sound.contained.header, sound.contained.complete⟩, sound.room,
    open_, by rw [exact_]; exact inside⟩
  · intro write mem
    obtain earlier | new := List.mem_append.mp mem
    · exact sound.contained.inside write earlier
    obtain rfl := List.mem_singleton.mp new
    intro address low high
    simp only [Device.cancelAppAutoStart, start] at low high ⊢
    omega
  intro write mem
  obtain earlier | new := List.mem_append.mp mem
  · exact sound.contained.erased write earlier
  obtain rfl := List.mem_singleton.mp new
  intro address low high
  simp only [Device.cancelAppAutoStart, start] at low high ⊢
  omega

lemma comPushEnd (answers : Answers)
    (native : device.nativePush = true → device.nativeUpload.Complete)
    (wasm : device.nativePush = false → device.persistPart.isSome → device.wasmUpload.Complete) :
    Sound (device.comPushEnd answers) := by
  unfold Device.comPushEnd
  split
  next isNative =>
    unfold Device.nativePushEnd
    split
    · exact sound.reply (.of_eq rfl)
    split
    · exact sound.reply (.of_eq rfl)
    have kept : Kept device { device with nativePush := false, otaPartition := none } := .of_eq rfl
    exact sound.complete (native isNative) kept
  rename_i notNative
  unfold Device.persistEnd
  split
  · exact sound.reply (.of_eq rfl)
  rename_i part opened
  have open_ : device.persistPart.isSome := by
    rw [show device.persistPart = some part from opened]
    rfl
  have ended : Sound ({ device with
      completed := device.completed ++ [device.wasmUpload] }.reply .ok) :=
    sound.complete (wasm (by simpa using notNative) open_) (.refl device)
  exact ⟨⟨ended.contained.inside, ended.contained.erased, by simp [Device.reply],
    ended.contained.complete⟩, by simp [Device.reply], trivial⟩

lemma comPushAbort (idle : device.com = .idle) : Sound device.comPushAbort := by
  unfold Device.comPushAbort
  split
  · exact sound.kept (.of_eq rfl) (by simp [Device.nativePushAbort, idle, TaskSound])
  unfold Device.persistAbort
  split
  · exact sound
  exact sound.kept (.of_eq rfl) trivial

lemma comConfPush (idle : device.com = .idle) (answers : Answers)
    (complete : action = .finish → device.confPushBuf.isSome → device.confUpload.Complete) :
    Sound (device.push .conf action answers) := by
  cases action with
  | beginApp => exact sound
  | beginConf size mode wifiOnly =>
    simp only [Device.push, Device.comConfPushBegin]
    split
    · exact sound.reply (.of_eq rfl)
    split <;> exact sound.reply (.of_eq rfl)
  | data offset bytes =>
    simp only [Device.push, Device.comConfPushData]
    split
    · exact sound.reply (.refl device)
    split
    · exact sound.reply (.refl device)
    exact sound.reply (.of_eq rfl)
  | finish =>
    simp only [Device.push, Device.comConfPushEnd]
    split
    · exact sound.reply (.refl device)
    rename_i buf pushed
    split
    · exact sound.reply (.of_eq rfl)
    split
    · exact sound.reply (.of_eq rfl)
    have kept : Kept device (Device.comConfPushAbort { device with
        confWrites := device.confWrites ++ [(buf, device.confPushMode)] }) :=
      .of_eq rfl
    exact sound.complete (complete rfl (by rw [pushed]; rfl)) kept
  | abort =>
    exact sound.kept (.of_eq rfl)
      (by simp [Device.push, Device.comConfPushAbort, idle, TaskSound])

lemma push (idle : device.com = .idle) (kind : PushKind) (action : Action)
    (answers : Answers) (orderly : OrderlyCommand device (.push kind action answers)) :
    Sound (device.push kind action answers) := by
  cases kind with
  | app =>
    cases action with
    | beginApp size appType => exact sound.comPushBegin idle size appType answers orderly
    | beginConf => exact sound
    | data offset bytes => exact sound.comPushData offset bytes answers orderly
    | finish => exact sound.comPushEnd answers orderly.1 orderly.2
    | abort => exact sound.comPushAbort idle
  | conf =>
    refine sound.comConfPush idle answers ?_
    rintro rfl
    exact orderly

/-! ## The other threads -/

lemma control (kept : Kept device device') (com : device'.com = device.com) : Sound device' :=
  sound.kept kept (by rw [com]; exact sound.task)

lemma take : Sound device.take := by
  unfold Device.take
  split
  · dsimp only
    split <;> split <;> exact sound.control (.of_eq rfl) rfl
  exact sound

lemma waited : Sound device.waited := by
  unfold Device.waited
  split
  · split
    · exact sound.control (.of_eq rfl) rfl
    split <;> exact sound.control (.of_eq rfl) rfl
  exact sound

lemma prepared (init readHeader : EspErr) : Sound (device.prepared init readHeader) := by
  unfold Device.prepared
  split
  · split
    · exact sound.control (.of_eq rfl) rfl
    split
    · exact sound.control (.of_eq rfl) rfl
    dsimp only
    split <;> exact sound.control (.of_eq rfl) rfl
  exact sound

lemma loaded (load : EspErr) (created : Bool) : Sound (device.loaded load created) := by
  unfold Device.loaded
  split
  · split
    · exact sound.control (.of_eq rfl) rfl
    split <;> exact sound.control (.of_eq rfl) rfl
  exact sound

/-! ## Runs -/

lemma step (orderly : Orderly device event) : Sound (device.step event) := by
  have waits : ∀ continuation, (∀ totalLen, continuation ≠ .pushBegin totalLen) →
      TaskSound device (.awaiting continuation) :=
    fun continuation other totalLen same => absurd same (other totalLen)
  cases event with
  | push kind action answers =>
    simp only [Device.step]
    refine Device.command_keeps (P := Sound) sound fun idle => ?_
    exact sound.push idle kind action answers (orderly idle)
  | appStart answers =>
    simp only [Device.step]
    refine Device.command_keeps (P := Sound) sound fun idle => ?_
    have kept : Kept device { device.cancelAppAutoStart with persistLoadPending := false } :=
      .of_eq rfl
    exact sound.controlCall kept idle (waits _ (by simp))
  | appStop | reboot =>
    simp only [Device.step]
    refine Device.command_keeps (P := Sound) sound fun idle => ?_
    exact sound.controlCall (kept_cancelAppAutoStart device) idle (waits _ (by simp))
  | autoStart answers =>
    simp only [Device.step]
    refine Device.command_keeps (P := Sound) sound fun idle => ?_
    simp only [Device.applyAppAutoStart]
    split
    · exact sound.controlCall (kept_cancelAppAutoStart device) idle (waits _ (by simp))
    exact sound
  | resume => exact sound.resume
  | expire => exact sound.expire
  | flashDone answer => exact sound.flashDone answer
  | take => exact sound.take
  | waited => exact sound.waited
  | prepared init readHeader => exact sound.prepared init readHeader
  | loaded load created => exact sound.loaded load created
  | exit => exact sound.control (.of_eq rfl) rfl

lemma run (orderly : OrderlyRun device events) : Sound (device.run events) := by
  induction events generalizing device with
  | nil => exact sound
  | cons event events ih => exact ih (sound.step orderly.1) orderly.2

end Sound

end

lemma sound_boot (flash : Flash) (partition : Option Partition) (confMaxSize : Nat)
    (appAutoStart : Bool) : Sound (Device.boot flash partition confMaxSize appAutoStart) where
  contained := ⟨by simp [Device.boot], by simp [Device.boot], by simp [Device.boot],
    by simp [Device.boot]⟩
  room := by simp [Device.boot]
  task := trivial

end Steps

/-- In every run of orderly steps each chunk is written inside the announced image,
to bytes erased at begin, the size header keeps the announced size while the upload
is open, and only complete uploads are reported as completed. -/
theorem upload_writes_contained (flash : Flash) (partition : Option Partition)
    (confMaxSize : Nat) (appAutoStart : Bool) (events : List Event)
    (orderly : OrderlyRun (Device.boot flash partition confMaxSize appAutoStart) events) :
    Contained ((Device.boot flash partition confMaxSize appAutoStart).run events) :=
  ((sound_boot flash partition confMaxSize appAutoStart).run orderly).contained

def smallPartition : Partition where
  size := 0x4000
  eraseSize := 0x1000
  power := ⟨12, rfl⟩
  room := by decide

def freshDevice : Device := Device.boot (fun _ => 0xFF) (some smallPartition) 4096 false

def beginEvents (size : Nat) : List Event :=
  [.push .app (.beginApp size .wasm) {}, .take, .resume, .flashDone {}, .flashDone {}]

def twoChunks : List Event :=
  beginEvents 3 ++
    [.push .app (.data 0 [1, 2]) {}, .flashDone {}, .push .app (.data 2 [3]) {}, .flashDone {},
      .push .app .finish {}]

theorem upload_writes_contained_twoChunks :
    OrderlyRun freshDevice twoChunks ∧ Contained (freshDevice.run twoChunks) := by
  have orderly : OrderlyRun freshDevice twoChunks := by decide +kernel
  exact ⟨orderly, upload_writes_contained _ _ _ _ _ orderly⟩

/-- A chunk of an open upload whose offset wraps around to the size header. -/
def wrappedChunk : Device :=
  freshDevice.run (beginEvents 8 ++ [.push .app (.data 0xFFFFFFFC [1, 0, 0, 0]) {}, .flashDone {}])

/-- An upload with one chunk, behind the image and the erased region. -/
def strayChunk : Device :=
  freshDevice.run (beginEvents 8 ++
    [.push .app (.data 5000 [7]) {}, .flashDone {}, .push .app .finish {}])

/-- A begin whose size wraps around when the header is added. -/
def wrappedSize : Device := freshDevice.run (beginEvents 0xFFFFFFFC)

/-- An upload of a configuration that ends before any data. -/
def emptyConf : Device :=
  freshDevice.run [.push .conf (.beginConf 8 .update false) {}, .push .conf .finish {}]

/-- None of the four is refused. -/
theorem disorderly_uploads_accepted :
    (wrappedChunk.persistPart.isSome ∧ wrappedChunk.wasmUpload.announced = 8 ∧
      wrappedChunk.chunkWrites = [⟨8, 4096, 0, 4⟩] ∧ wrappedChunk.flash.word 0 headerSize = 0) ∧
    (strayChunk.chunkWrites = [⟨8, 4096, 5004, 1⟩] ∧ strayChunk.replies = [.ok, .ok, .ok] ∧
      strayChunk.completed = [⟨8, [(5000, 1)]⟩]) ∧
    (wrappedSize.replies = [.ok] ∧ wrappedSize.erased = 0 ∧
      wrappedSize.wasmUpload.announced = 0xFFFFFFFC) ∧
    (emptyConf.replies = [.ok, .ok] ∧ emptyConf.completed = [⟨8, []⟩]) := by
  decide +kernel

end WendyLite.Core
