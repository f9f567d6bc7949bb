import EdgeLink.Machine

namespace EdgeLink.Commands
open Machine

def makeCommandKey (device_id : UInt8) (command_id : UInt16) : UInt32 :=
  (device_id.toUInt32 <<< 16) ||| command_id.toUInt32

structure PendingCommand where
  acked : Bool := false
  ackResult : UInt8 := 0xFF
  deriving DecidableEq, Repr

/-- How far the caller of a submitted command has come. -/
inductive Phase
  | sending
  | waiting
  | acked (result : UInt8)
  | timedOut
  | sendFailed
  deriving DecidableEq, Repr

structure Submission where
  deviceId : UInt8
  commandId : UInt16
  phase : Phase
  deriving DecidableEq, Repr

def Submission.key (s : Submission) : UInt32 := makeCommandKey s.deviceId s.commandId

/-- Its caller has not been told an outcome. -/
def Submission.live (s : Submission) : Bool := s.phase = .sending ∨ s.phase = .waiting

structure Gateway where
  pendingCommands : UInt32 → Option PendingCommand
  nextGeneratedCommandId : UInt16
  running : Bool
  commandSubmitCount : UInt64
  commandAckCount : UInt64
  commandFailCount : UInt64
  commandTimeoutCount : UInt64
  commandLateAckCount : UInt64
  submissions : List Submission

/-- The integers of an ACK are those of its JSON line. The ACKs of serial frames are those with
integers that fit their fields. -/
inductive Event
  /-- `executeControlCommand` with the caller's id, and with a generated one -/
  | execute (device_id : UInt8) (command_id : UInt16)
  | executeGenerated (device_id : UInt8)
  /-- a tracked command of the command server -/
  | track (device_id : UInt8) (command_id : UInt16)
  | sent (i : ℕ) (ok : Bool)
  /-- the waiting caller looks again, after its timeout or before -/
  | wake (i : ℕ) (elapsed : Bool)
  | ack (device_id command_id command_result : Int64)
  | stop

def enter (g : Gateway) (device_id : UInt8) (command_id : UInt16) : Gateway :=
  let key := makeCommandKey device_id command_id
  { g with
    pendingCommands := Function.update g.pendingCommands key (some ⟨false, 0xFF⟩)
    commandSubmitCount := g.commandSubmitCount + 1
    submissions := g.submissions ++ [⟨device_id, command_id, .sending⟩] }

/-- The id that `reservePendingCommand` finds in so many tries, and the last one it has tried. -/
def reserveId (pending : UInt32 → Option PendingCommand) (device_id : UInt8) :
    ℕ → UInt16 → Option UInt16 × UInt16
  | 0, next => (none, next)
  | tries + 1, next =>
    let candidate := if next + 1 = 0 then 1 else next + 1
    if (pending (makeCommandKey device_id candidate)).isSome then
      reserveId pending device_id tries candidate
    else (some candidate, candidate)

def reservePendingCommand (g : Gateway) (device_id : UInt8) : Gateway :=
  match reserveId g.pendingCommands device_id 65535 g.nextGeneratedCommandId with
  | (none, next) => { g with nextGeneratedCommandId := next }
  | (some command_id, next) => enter { g with nextGeneratedCommandId := next } device_id command_id

/-- Unlike its siblings it does not look whether the ids are in use. -/
def registerPendingCommand (g : Gateway) (device_id : UInt8) (command_id : UInt16) : Gateway :=
  enter g device_id command_id

def erase (g : Gateway) (key : UInt32) : Gateway :=
  { g with pendingCommands := Function.update g.pendingCommands key none }

/-- What `waitCommandAck` returns when it looks: nothing yet, or the result of the ACK, if any. -/
def waitCommandAck (g : Gateway) (key : UInt32) (elapsed : Bool) :
    Gateway × Option (Option UInt8) :=
  match g.pendingCommands key with
  | none => (g, some none)
  | some cmd =>
    if cmd.acked then
      let failed := if cmd.ackResult ≠ 0 then 1 else 0
      (erase { g with commandAckCount := g.commandAckCount + 1
                      commandFailCount := g.commandFailCount + failed } key,
        some (some cmd.ackResult))
    else if elapsed ∨ ¬ g.running then
      (erase { g with commandTimeoutCount := g.commandTimeoutCount + 1 } key, some none)
    else (g, none)

def completeCommandAck (g : Gateway) (device_id : UInt8) (command_id : UInt16)
    (ack_result : UInt8) : Gateway :=
  match g.pendingCommands (makeCommandKey device_id command_id) with
  | none => { g with commandLateAckCount := g.commandLateAckCount + 1 }
  | some _ =>
    let key := makeCommandKey device_id command_id
    { g with pendingCommands := Function.update g.pendingCommands key (some ⟨true, ack_result⟩) }

def setPhase (g : Gateway) (i : ℕ) (s : Submission) (phase : Phase) : Gateway :=
  { g with submissions := g.submissions.set i { s with phase := phase } }

/-- The ids that `parseWifiJsonEvent` casts to their fields. -/
def castDevice (device_id : Int64) : UInt8 := device_id.toUInt64.toUInt8
def castCommand (command_id : Int64) : UInt16 := command_id.toUInt64.toUInt16

def step (g : Gateway) : Event → Gateway × Unit
  | .execute device_id command_id =>
    if (g.pendingCommands (makeCommandKey device_id command_id)).isSome then (g, ())
    else (enter g device_id command_id, ())
  | .executeGenerated device_id => (reservePendingCommand g device_id, ())
  | .track device_id command_id => (registerPendingCommand g device_id command_id, ())
  | .sent i ok =>
    match g.submissions[i]? with
    | none => (g, ())
    | some s =>
      if s.phase ≠ .sending then (g, ())
      else if ok then (setPhase g i s .waiting, ())
      else (setPhase (erase g s.key) i s .sendFailed, ())
  | .wake i elapsed =>
    match g.submissions[i]? with
    | none => (g, ())
    | some s =>
      if s.phase ≠ .waiting then (g, ())
      else
        match waitCommandAck g s.key elapsed with
        | (g', none) => (g', ())
        | (g', some none) => (setPhase g' i s .timedOut, ())
        | (g', some (some result)) => (setPhase g' i s (.acked result), ())
  | .ack device_id command_id command_result =>
    if device_id < 0 ∨ 255 < device_id then (g, ())
    else
      (completeCommandAck g (castDevice device_id) (castCommand command_id)
        (castDevice command_result), ())
  | .stop => ({ g with running := false }, ())

/-- The gateway right after its start. -/
def started : Gateway := ⟨fun _ => none, 1000, true, 0, 0, 0, 0, 0, []⟩

theorem makeCommandKey_toNat (device_id : UInt8) (command_id : UInt16) :
    (makeCommandKey device_id command_id).toNat = device_id.toNat * 2 ^ 16 + command_id.toNat := by
  have hd := device_id.toNat_lt
  have hc := command_id.toNat_lt
  have hs : device_id.toNat <<< 16 % 2 ^ 32 = device_id.toNat <<< 16 := by
    rw [Nat.shiftLeft_eq]
    omega
  simp only [makeCommandKey, UInt32.toNat_or, UInt32.toNat_shiftLeft, UInt8.toNat_toUInt32,
    UInt16.toNat_toUInt32]
  change device_id.toNat <<< 16 % 2 ^ 32 ||| command_id.toNat = _
  rw [hs, ← Nat.shiftLeft_add_eq_or_of_lt hc, Nat.shiftLeft_eq]

theorem makeCommandKey_inj {d d' : UInt8} {c c' : UInt16}
    (h : makeCommandKey d c = makeCommandKey d' c') : d = d' ∧ c = c' := by
  have hk := congrArg UInt32.toNat h
  rw [makeCommandKey_toNat, makeCommandKey_toNat] at hk
  have hc := c.toNat_lt
  have hc' := c'.toNat_lt
  exact ⟨UInt8.toNat.inj (by omega), UInt16.toNat.inj (by omega)⟩

end EdgeLink.Commands
