import WendyLite.Babel.Api

/-! # Checkpoints

`wb_save` and `wb_restore` of `history.c`: a 40-byte header, one record of 30
bytes for each source entry and one of 18 bytes for each suppressed prefix.
-/

namespace WendyLite.Babel

def putPrefix (p : Prefix) : List UInt8 := p.bytes.val ++ [p.bits, p.family]

variable (data : List UInt8)

def getPrefix : Option Prefix :=
  let p : Prefix :=
    { bytes := Octets.ofList 16 (data.take 16), bits := data.getD 16 0, family := data.getD 17 0 }
  if p.valid then some p else none

def dropSize : Nat := 18

def sourceSize : Nat := 30

def putSource (source : Source) : List UInt8 :=
  putPrefix source.pfx ++ put64 source.router ++ put16 source.seqno ++ put16 source.metric

def getU32 : UInt32 := UInt32.ofNat (beNat (data.take 4))

def putU32 (value : UInt32) : List UInt8 := beBytes 4 value.toNat

variable (env : Env)

def historyMax : Nat :=
  40 + env.limits.sources * sourceSize + env.limits.routes * dropSize

variable (e : Engine)

/-- The prefixes a checkpoint suppresses: the selected ones, then the used
drops that have no route. -/
def savedDrops : List Prefix :=
  e.routes.map (·.pfx) ++
    ((e.drops.filter Drop.used).map (·.pfx)).filter fun p => p ∉ e.routes.map (·.pfx)

/-- The lifetime of suppression stored in a checkpoint: the hold time of a
drop, or the longest remaining lifetime of a drop if that is longer. -/
def savedDropMs : UInt32 :=
  e.drops.foldl
    (fun longest drop =>
      if drop.used ∧ drop.expires > e.now ∧ drop.expires - e.now > longest.toUInt64 then
        (drop.expires - e.now).toUInt32
      else longest)
    (e.config.updateMs * 7 / 2)

def saveHeader : List UInt8 :=
  [0x57, 0x42, 0x43, 0x31] ++ put64 e.config.router ++ put16 e.seqno ++ put64 e.lastLink ++
    put16 (UInt16.ofNat (e.sources.filter Source.used).length) ++
    put16 (UInt16.ofNat (savedDrops e).length) ++ putU32 e.config.sourceMs ++
    putU32 (savedDropMs e) ++ [0, 0, 0, 0, 0, 0]

def checkpoint : List UInt8 :=
  saveHeader e ++ (e.sources.filter Source.used).flatMap putSource ++
    (savedDrops e).flatMap putPrefix

/-- A drop without a route would exceed the drops a checkpoint may hold. -/
def savedDropsFull (e : Engine) : Bool :=
  e.routes.length ≤ env.limits.routes && env.limits.routes < (savedDrops e).length

/-- `wb_save` with a null buffer: the exact size of the checkpoint. -/
def wbSaveSize (e : Engine) : Except Status Nat :=
  if e.stopped then .error .invalid
  else if savedDropsFull env e then .error .limit
  else
    .ok (40 + (e.sources.filter Source.used).length * sourceSize + (savedDrops e).length * dropSize)

/-- `wb_save` into a buffer of `capacity` bytes. The checks the C function
makes while it writes add up to one: the buffer holds the whole checkpoint. -/
def wbSave (e : Engine) (capacity : Nat) : Except Status (List UInt8) :=
  if e.stopped ∨ capacity < 40 then .error .invalid
  else if savedDropsFull env e ∨ capacity < (checkpoint e).length then .error .limit
  else .ok (checkpoint e)

/-! ## Restoring -/

def restoreSources (lifetime : UInt64) (data : List UInt8) :
    (count : Nat) → List Source → Option (List Source)
  | 0, read => some read
  | count + 1, read =>
    match getPrefix data with
    | none => none
    | some p =>
      let source : Source :=
        { pfx := p, router := u64 (data.drop 18), seqno := u16 (data.drop 26)
          metric := u16 (data.drop 28), used := true, expires := lifetime }
      if source.router = 0 ∨ source.router = 0xffffffffffffffff ∨ source.metric = infinity then none
      else if read.any fun other =>
          other.router == source.router && other.pfx == source.pfx then none
      else restoreSources lifetime (data.drop sourceSize) count (read ++ [source])

def restoreDrops (lifetime : UInt64) (data : List UInt8) :
    (count : Nat) → List Drop → Option (List Drop)
  | 0, read => some read
  | count + 1, read =>
    match getPrefix data with
    | none => none
    | some p =>
      if read.any fun other => other.pfx == p then none
      else
        restoreDrops lifetime (data.drop dropSize) count
          (read ++ [{ pfx := p, used := true, expires := lifetime }])

variable (config : Config)

def headerRefused (env : Env) (config : Config) (data : List UInt8) : Bool :=
  data.length < 40 ∨ data.take 4 ≠ [0x57, 0x42, 0x43, 0x31] ∨
    u64 (data.drop 4) ≠ config.router ∨ (data.drop 34).take 6 ≠ [0, 0, 0, 0, 0, 0] ∨
    (u16 (data.drop 22)).toNat > env.limits.sources ∨
    (u16 (data.drop 24)).toNat > env.limits.routes ∨
    data.length ≠
      40 + (u16 (data.drop 22)).toNat * sourceSize + (u16 (data.drop 24)).toNat * dropSize ∨
    getU32 (data.drop 26) < 180000 ∨ getU32 (data.drop 26) > 86400000 ∨
    getU32 (data.drop 30) = 0 ∨ getU32 (data.drop 30) > 86400000

def restoredConfig (config : Config) (data : List UInt8) : Config :=
  { config with
    seqno := u16 (data.drop 12)
    sourceMs :=
      if config.sourceMs < getU32 (data.drop 26) then getU32 (data.drop 26)
      else config.sourceMs }

def restoredDropMs (config : Config) (data : List UInt8) : UInt32 :=
  if getU32 (data.drop 30) > config.updateMs * 7 / 2 then getU32 (data.drop 30)
  else config.updateMs * 7 / 2

/-- `wb_restore`: the status, and the engine once it has been initialised. The
tables keep the slots that growing them left empty; a rejected checkpoint
leaves a stopped engine, in which the records read so far are not kept. -/
def wbRestore (env : Env) (config : Config) (data : List UInt8) : Status × Option Engine :=
  if headerRefused env config data then (.invalid, none)
  else
    match wbInit (restoredConfig config data) with
    | none => (.invalid, none)
    | some e =>
      let sources := (u16 (data.drop 22)).toNat
      let drops := (u16 (data.drop 24)).toNat
      match reserveTable env e.heap env.limits.sources sources ({} : Source) [] with
      | (none, heap) => (.limit, some { e with heap := heap, stopped := true })
      | (some sourceSlots, heap) =>
        match reserveTable env heap env.limits.routes drops ({} : Drop) [] with
        | (none, heap) => (.limit, some { e with heap := heap, stopped := true })
        | (some dropSlots, heap) =>
          let e :=
            { e with
              heap := heap, lastLink := u64 (data.drop 14), sources := sourceSlots
              drops := dropSlots }
          let sourceData := data.drop 40
          let dropData := sourceData.drop (sources * sourceSize)
          match restoreSources e.config.sourceMs.toUInt64 sourceData sources [] with
          | none => (.invalid, some { e with stopped := true })
          | some read =>
            let e := { e with sources := read ++ sourceSlots.drop sources }
            match restoreDrops (restoredDropMs e.config data).toUInt64 dropData
                drops [] with
            | none => (.invalid, some { e with stopped := true })
            | some read => (.ok, some { e with drops := read ++ dropSlots.drop drops })

end WendyLite.Babel
