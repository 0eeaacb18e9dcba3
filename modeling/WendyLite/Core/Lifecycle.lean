import WendyLite.Core.Types

/-! # Uploads and the WASM lifecycle

The delegate calls of `wendy_core.c`, its control thread and its execution
thread. A call of the com task that waits, for the control thread or for the
flash, is left at that point and continued by a later event, so that the other
threads move in between.
-/

namespace WendyLite.Core

open Com (Result AppType ConfPushMode PushKind Action)

namespace Device

variable (device : Device)

def reply (result : Result) : Device :=
  { device with com := .idle, replies := device.replies ++ [result] }

def cancelAppAutoStart : Device := { device with appAutoStartEnabled := false }

/-- The end of a flash operation on `length` bytes from `start` on: `effect` if it
succeeded. -/
def settle (answer : FlashAnswer) (start length : Nat) (effect : Flash) :
    Flash :=
  if answer.err = .ok then effect else device.flash.spoil start length answer.left

/-! ## Control calls -/

def restart (appAutoStart : Bool) : Device :=
  { flash := device.flash
    partition := device.partition
    confMaxSize := device.confMaxSize
    bootAppAutoStart := appAutoStart
    replies := device.replies
    confWrites := device.confWrites
    status := device.status
    wasmUpload := device.wasmUpload
    erased := device.erased
    nativeUpload := device.nativeUpload
    confUpload := device.confUpload
    chunkWrites := device.chunkWrites
    completed := device.completed
    loads := device.loads }

def pushBeginResult : EspErr → Result
  | .ok => .ok
  | .notSupported | .notFound => .badAppType
  | .invalidSize => .badAppSize
  | _ => .unknownError

def commandResult (err : EspErr) : Result := if err = .ok then .ok else .unknownError

def eraseLen (part : Partition) (totalLen : UInt32) : UInt32 :=
  let needed := totalLen + 4
  let sector := sectorOf part.eraseSize
  (needed + sector - 1) &&& ~~~(sector - 1)

def persistBeginStopped (totalLen : UInt32) : Device :=
  match device.partition with
  | none => device.reply (pushBeginResult .notFound)
  | some part =>
    if totalLen + 4 > part.size then device.reply (pushBeginResult .invalidSize)
    else { device with com := .erasing part totalLen }

def continue_ (err : EspErr) : Continuation → Device
  | .pushBegin totalLen =>
    if err ≠ .ok then device.reply (pushBeginResult err)
    else device.persistBeginStopped totalLen
  | .appStart | .appStop => device.reply (commandResult err)
  -- A guest that cannot be stopped does not keep the device from restarting.
  | .reboot appAutoStart => device.restart appAutoStart
  | .autoStart => { device with com := .idle }

def controlCall (queueing : EspErr) (continuation : Continuation) : Device :=
  if queueing ≠ .ok then device.continue_ queueing continuation
  else
    { device with
      controlQueue := device.controlQueue ++ [⟨continuation.command, true⟩]
      com := .awaiting continuation }

def resume : Device :=
  match device.com, device.done with
  | .awaiting continuation, some err => { device with done := none }.continue_ err continuation
  | _, _ => device

def expire : Device :=
  match device.com with
  | .awaiting continuation =>
    { device with
      done := none
      control := device.control.abandon
      controlQueue := device.controlQueue.map Request.abandon }.continue_ .timeout continuation
  | _ => device

/-! ## WASM uploads -/

def persistBegin (totalLen : UInt32) (answers : Answers) : Device :=
  if device.persistPart.isSome then device.reply (pushBeginResult .invalidState)
  else if totalLen = 0 then device.reply (pushBeginResult .invalidSize)
  else device.controlCall answers.queueing (.pushBegin totalLen)

def persistChunk (offset : UInt32) (bytes : List UInt8) : Device :=
  match device.persistPart with
  | none => device.reply (commandResult .invalidState)
  | some _ =>
    { device with
      com := .writing offset bytes
      chunkWrites := device.chunkWrites ++
        [⟨device.wasmUpload.announced, device.erased, (4 + offset).toNat, bytes.length⟩] }

def persistEnd : Device :=
  match device.persistPart with
  | none => device.reply (commandResult .invalidState)
  | some _ =>
    { device with
      persistPart := none
      persistLoadPending := true
      status := .ended
      completed := device.completed ++ [device.wasmUpload] }.reply (commandResult .ok)

/-- `wasm_persist_abort`. -/
def persistAbort : Device :=
  match device.persistPart with
  | none => device
  | some _ => { device with com := .zeroing }

def flashDone (answer : FlashAnswer) : Device :=
  match device.com with
  | .idle | .awaiting _ => device
  | .erasing part totalLen =>
    let length := (eraseLen part totalLen).toNat
    let device :=
      { device with flash := device.settle answer 0 length (device.flash.erase 0 length) }
    if answer.err ≠ .ok then device.reply (pushBeginResult answer.err)
    else { device with com := .sizing part totalLen }
  | .sizing part totalLen =>
    let device :=
      { device with
        flash := device.settle answer 0 headerSize
          (device.flash.program 0 (littleEndian totalLen)) }
    if answer.err ≠ .ok then device.reply (pushBeginResult answer.err)
    else
      { device with
        persistPart := some part
        status := .open
        wasmUpload := { announced := totalLen.toNat }
        erased := (eraseLen part totalLen).toNat }.reply (pushBeginResult .ok)
  | .writing offset bytes =>
    let start := (4 + offset).toNat
    { device with
      flash := device.settle answer start bytes.length (device.flash.program start bytes)
      wasmUpload :=
        if answer.err = EspErr.ok then device.wasmUpload.supply offset.toNat bytes.length
        else device.wasmUpload }.reply (commandResult answer.err)
  -- The result of the write is not looked at.
  | .zeroing =>
    { device with
      com := .idle
      flash := device.settle answer 0 headerSize (device.flash.program 0 (littleEndian 0))
      persistPart := none
      status := .aborted }

/-! ## Native uploads -/

def nativePushBegin (size : Nat) (answers : Answers) : Device :=
  match answers.otaPartition with
  | none => { device with otaPartition := none }.reply .badAppType
  | some room =>
    if size > room then { device with otaPartition := none }.reply .badAppSize
    else if answers.err ≠ .ok then { device with otaPartition := none }.reply .unknownError
    else
      { device with
        otaPartition := some room
        nativePush := true
        nativeUpload := { announced := size } }.reply .ok

variable (offset : Nat)

variable (bytes : List UInt8)

/-- The OTA writer appends; only the report of the offset is kept. -/
def nativePushData (answers : Answers) :
    Device :=
  if answers.err ≠ .ok then device.reply .unknownError
  else
    { device with nativeUpload := device.nativeUpload.supply offset bytes.length }.reply .ok

variable (answers : Answers)

def nativePushEnd : Device :=
  let device := { device with nativePush := false, otaPartition := none }
  if answers.err ≠ .ok then device.reply .unknownError
  else if answers.bootErr ≠ .ok then device.reply .unknownError
  else { device with completed := device.completed ++ [device.nativeUpload] }.reply .ok

def nativePushAbort : Device :=
  { device with nativePush := false, otaPartition := none }

/-! ## App uploads -/

def comPushBegin (size : Nat) (appType : AppType) (answers : Answers) :
    Device :=
  if appType = .native then device.nativePushBegin size answers
  else device.cancelAppAutoStart.persistBegin (UInt32.ofNat size) answers

def comPushData (answers : Answers) :
    Device :=
  if device.nativePush then device.nativePushData offset bytes answers
  else device.cancelAppAutoStart.persistChunk (UInt32.ofNat offset) bytes

def comPushEnd : Device :=
  if device.nativePush then device.nativePushEnd answers
  else device.cancelAppAutoStart.persistEnd

def comPushAbort : Device :=
  if device.nativePush then device.nativePushAbort else device.persistAbort

/-! ## Configuration uploads -/

def comConfPushBegin (size : Nat) (mode : ConfPushMode) (wifiOnly : Bool)
    (answers : Answers) : Device :=
  if size = 0 ∨ size > device.confMaxSize then device.reply .badConfSize
  else if answers.allocates = false then { device with confPushBuf := none }.reply .unknownError
  else
    { device with
      confPushBuf := some ((List.range size).map answers.heap)
      confPushSize := size
      confPushMode :=
        if wifiOnly then .wifiOnly
        else if mode = ConfPushMode.update then .update
        else .replace
      confUpload := { announced := size } }.reply .ok

def comConfPushData : Device :=
  match device.confPushBuf with
  | none => device.reply .badState
  | some buf =>
    if offset > device.confPushSize ∨ bytes.length > device.confPushSize - offset then
      device.reply .badConfSize
    else
      { device with
        confPushBuf := some (buf.take offset ++ bytes ++ buf.drop (offset + bytes.length))
        confUpload := device.confUpload.supply offset bytes.length }.reply .ok

def comConfPushAbort : Device :=
  { device with confPushBuf := none, confPushSize := 0 }

def comConfPushEnd : Device :=
  match device.confPushBuf with
  | none => device.reply .badState
  | some buf =>
    let device := { device with confWrites := device.confWrites ++ [(buf, device.confPushMode)] }
    let device := device.comConfPushAbort
    if answers.err = .invalidSize then device.reply .badConfSize
    else if answers.err ≠ .ok then device.reply .unknownError
    else { device with completed := device.completed ++ [device.confUpload] }.reply .ok

/-! ## Commands -/

def push (kind : PushKind) (action : Action) (answers : Answers) : Device :=
  match kind, action with
  | .app, .beginApp size appType => device.comPushBegin size appType answers
  | .app, .data offset bytes => device.comPushData offset bytes answers
  | .app, .finish => device.comPushEnd answers
  | .app, .abort => device.comPushAbort
  | .conf, .beginConf size mode wifiOnly => device.comConfPushBegin size mode wifiOnly answers
  | .conf, .data offset bytes => device.comConfPushData offset bytes
  | .conf, .finish => device.comConfPushEnd answers
  | .conf, .abort => device.comConfPushAbort
  | .app, .beginConf .. | .conf, .beginApp .. => device

def comAppStart : Device :=
  { device.cancelAppAutoStart with persistLoadPending := false }.controlCall
    answers.queueing .appStart

def comAppStop : Device :=
  device.cancelAppAutoStart.controlCall answers.queueing .appStop

def comReboot (appAutoStart : Bool) (answers : Answers) : Device :=
  device.cancelAppAutoStart.controlCall answers.queueing (.reboot appAutoStart)

/-- `apply_app_auto_start`, queued by `wendy_core_init` if the boot asks for it. -/
def applyAppAutoStart : Device :=
  if device.bootAppAutoStart ∧ device.appAutoStartEnabled then
    { device with appAutoStartEnabled := false }.controlCall answers.queueing .autoStart
  else device

/-! ## The control thread -/

def finish (request : Request) (err : EspErr) : Device :=
  { device with
    control := .idle
    done := if request.awaited then some err else device.done }

def take : Device :=
  match device.control, device.controlQueue with
  | .idle, request :: rest =>
    let device := { device with controlQueue := rest }
    match request.command with
    | .start =>
      if device.currentModule then { device with control := .stopping request }
      else { device with control := .preparing request }
    | .stop =>
      if device.currentModule then { device with control := .stopping request }
      else device.finish request .ok
    | .stopForFlash =>
      if device.currentModule ∧ device.wasmActive then
        { device with control := .stopping request }
      else device.finish request .ok
  | _, _ => device

def waited : Device :=
  match device.control with
  | .stopping request =>
    if device.wasmActive then device.finish request .timeout
    else
      match request.command with
      | .start => { device with currentModule := false, control := .preparing request }
      | .stop => { device with currentModule := false }.finish request .ok
      | .stopForFlash => device.finish request .ok
  | _ => device

def prepared (init readHeader : EspErr) : Device :=
  match device.control with
  | .preparing request =>
    if init ≠ .ok then device.finish request init
    else
      match device.partition with
      | none => device.finish request .notFound
      | some part =>
        let wasmLen := device.flash.word 0 headerSize
        if part.size.toNat < headerSize ∨ readHeader ≠ .ok ∨ wasmLen = 0 ∨
            wasmLen > part.size.toNat - headerSize then
          device.finish request .invalidSize
        else { device with control := .reading request wasmLen }
  | _ => device

def loaded (load : EspErr) (created : Bool) : Device :=
  match device.control with
  | .reading request _ =>
    if load ≠ .ok then device.finish request load
    else
      let device := { device with loads := device.loads ++ [device.status] }
      if created then
        { device with currentModule := true, wasmActive := true }.finish request .ok
      else device.finish request .fail
  | _ => device

end Device

/-- What one thread does next, or a command that reaches the com task. -/
inductive Event where
  | push (kind : PushKind) (action : Action) (answers : Answers)
  | appStart (answers : Answers)
  | appStop (answers : Answers)
  | reboot (appAutoStart : Bool) (answers : Answers)
  | autoStart (answers : Answers)
  | resume
  | expire
  | flashDone (answer : FlashAnswer)
  | take
  | waited
  | prepared (init readHeader : EspErr)
  | loaded (load : EspErr) (created : Bool)
  /-- The execution thread ends. -/
  | exit

variable (device : Device)

def Device.command (run : Device → Device) : Device :=
  if device.com = .idle then run device else device

lemma Device.command_keeps {P : Device → Prop} {device : Device} {run : Device → Device}
    (holds : P device) (ran : device.com = .idle → P (run device)) : P (device.command run) := by
  unfold Device.command
  split
  next idle => exact ran idle
  exact holds

def Device.step : Event → Device
  | .push kind action answers => device.command fun device => device.push kind action answers
  | .appStart answers => device.command fun device => device.comAppStart answers
  | .appStop answers => device.command fun device => device.comAppStop answers
  | .reboot appAutoStart answers =>
    device.command fun device => device.comReboot appAutoStart answers
  | .autoStart answers => device.command fun device => device.applyAppAutoStart answers
  | .resume => device.resume
  | .expire => device.expire
  | .flashDone answer => device.flashDone answer
  | .take => device.take
  | .waited => device.waited
  | .prepared init readHeader => device.prepared init readHeader
  | .loaded load created => device.loaded load created
  | .exit => { device with wasmActive := false }

def Device.run (events : List Event) : Device :=
  events.foldl Device.step device

def Device.boot (flash : Flash) (partition : Option Partition) (confMaxSize : Nat)
    (appAutoStart : Bool) : Device :=
  { flash, partition, confMaxSize, bootAppAutoStart := appAutoStart }

end WendyLite.Core
