import EdgeLink.OtaDevice
import EdgeLink.OtaExecutor

namespace EdgeLink.Stm32Ota
open Bootloader LittleEndian Machine Nor

structure Job where
  image : Bytes
  imageCrc32 : UInt32
  chunkSize : ℕ
  maxRetries : ℕ
  waitBootHello : Bool
  targetBase : UInt32
  imageVersion : UInt32
  /-- over `send_raw_frame` and `recv_raw_frame`, and not over a socket of its own -/
  customTransport : Bool
  /-- what `err` says before the call -/
  err : String

/-- `chunk_size` in `run`. -/
def Job.chunk (job : Job) : ℕ := min job.chunkSize 246

inductive Phase
  | prepare
  | data (offset : ℕ)
  | verify
  | commit
  deriving DecidableEq

def Phase.type : Phase → UInt8
  | prepare => blDnOtaPrepare
  | data _ => blDnOtaData
  | verify => blDnOtaVerify
  | commit => blDnOtaCommit

/-- The bytes of the image from `offset` on that go into one frame. -/
def Job.piece (job : Job) (offset : ℕ) : Bytes := (job.image.drop offset).take job.chunk

/-- The optional end of the request. -/
def Job.options (job : Job) : Bytes :=
  if job.targetBase ≠ 0 then
    bytes32 job.targetBase ++ if job.imageVersion ≠ 0 then bytes32 job.imageVersion else []
  else if job.imageVersion ≠ 0 then bytes32 0 ++ bytes32 job.imageVersion
  else []

def Job.payload (job : Job) (seq : UInt16) : Phase → Bytes
  | .prepare => bytes16 seq ++ bytes32 (.ofNat job.image.length) ++ bytes32 job.imageCrc32 ++
      bytes16 (.ofNat job.chunk) ++ job.options
  | .data offset => bytes16 seq ++ bytes32 (.ofNat offset) ++
      bytes16 (.ofNat (job.piece offset).length) ++ job.piece offset
  | .verify => bytes16 seq ++ bytes32 job.imageCrc32
  | .commit => bytes16 seq

theorem Job.piece_length_le (job : Job) (offset : ℕ) : (job.piece offset).length ≤ 246 :=
  (List.length_take_le _ _).trans (min_le_right _ _)

theorem Job.options_length_le (job : Job) : job.options.length ≤ 8 := by
  unfold options
  split_ifs <;> simp

theorem Job.payload_short (job : Job) (seq : UInt16) (phase : Phase) :
    (job.payload seq phase).length ≤ 254 := by
  have hpiece := job.piece_length_le
  have hoptions := job.options_length_le
  cases phase with
  | prepare => simp only [payload, List.length_append, bytes16_length, bytes32_length]; omega
  | data offset =>
    have := hpiece offset
    simp only [payload, List.length_append, bytes16_length, bytes32_length]
    omega
  | verify => simp only [payload, List.length_append, bytes16_length, bytes32_length]; omega
  | commit => simp only [payload, bytes16_length]; omega

def Job.frame (job : Job) (seq : UInt16) (phase : Phase) : Frame :=
  ⟨phase.type, job.payload seq phase, job.payload_short seq phase⟩

/-- What has been sent of the image when the phase is over. -/
def Job.done (job : Job) : Phase → ℕ
  | .prepare => 0
  | .data offset => offset + (job.piece offset).length
  | .verify => job.image.length
  | .commit => job.image.length

def Job.next (job : Job) : Phase → Phase
  | .verify => .commit
  | .commit => .commit
  | phase => if job.done phase < job.image.length then .data (job.done phase) else .verify

/-- To which exchange of which call a frame belongs; a reply has the tag of the frame it answers.
No party sees it. -/
structure Tag where
  call : ℕ
  exchange : ℕ
  deriving DecidableEq

/-- What the device sends. -/
inductive Up
  | hello
  | reply (tag : Tag) (r : Reply)

inductive Place
  | poll
  | connect
  | hello
  | send
  | wait
  | grace
  | returned (ok : Bool) (err : String)
  deriving DecidableEq

structure World where
  device : Device
  /-- the frames on their way to the device, the oldest one first -/
  down : List (Tag × Frame)
  up : List Up
  /-- `ack_cache`, which outlives the calls; `none` is an ACK, `some` is the code of a NACK -/
  ackCache : UInt16 → Option (Tag × Option UInt16)
  job : Job
  place : Place
  phase : Phase
  seq : UInt16
  attempt : ℕ
  tag : Tag
  /-- the last exchange of this call that the device has acknowledged -/
  acked : Option ℕ
  /-- the VERIFYs that the device has acknowledged, with the call they came in -/
  verified : List (ℕ × BlOtaCtx × Mem)
  /-- the metadata that the device has written, with the call it came in -/
  committed : List (ℕ × OtaMetadata × Mem)

/-- `run` up to its first look at `should_stop_cb`. -/
def World.call (w : World) (job : Job) (call : ℕ) : World :=
  { w with
    job := job
    place := if job.chunk = 0 then .returned false "invalid chunk_size" else .poll
    phase := .prepare
    seq := 1
    attempt := 1
    tag := ⟨call, 0⟩
    acked := none }

def start (device : Device) (job : Job) : World :=
  World.call ⟨device, [], [], fun _ => none, job, .poll, .prepare, 1, 1, ⟨0, 0⟩, none, [], []⟩ job 0

/-- `retryExchange` begins. -/
def World.exchange (w : World) : World :=
  { w with
    attempt := 1
    place := if w.job.maxRetries = 0 then .returned false w.job.err else .send }

def World.afterConnect (w : World) : World :=
  if w.job.waitBootHello ∧ w.job.customTransport then { w with place := .hello } else w.exchange

/-- The exchange succeeds. -/
def World.acknowledged (w : World) : World :=
  match w.phase with
  | .commit => { w with place := .returned true "" }
  | phase =>
    let w := { w with
      phase := w.job.next phase, seq := w.seq + 1, tag := ⟨w.tag.call, w.tag.exchange + 1⟩ }
    match w.phase with
    | .data _ => { w with place := .poll }
    | _ => w.exchange

def World.giveUp (w : World) (err : String) : World :=
  { w with
    place := .returned false
      (if w.phase = .commit ∧ err = "ack timeout" then "commit ack timeout" else err) }

/-- `sendAndRecvAck` returns false, in the loop of `retryExchange`. -/
def World.attemptFailed (w : World) (err : String) : World :=
  if w.attempt < w.job.maxRetries then { w with attempt := w.attempt + 1, place := .send }
  else w.giveUp err

def nackText (code : UInt16) : String := "received nack code=" ++ toString code

/-- An answer to the exchange: an ACK, or a NACK with its code. -/
def World.decided (w : World) : Option UInt16 → World
  | none => w.acknowledged
  | some code => w.attemptFailed (nackText code)

/-- `consumeCachedAck`, and what follows when it decides nothing. -/
def World.consumeCachedAck (w : World) (undecided : World → World) : World :=
  match w.ackCache w.seq with
  | none => undecided w
  | some (_, answer) =>
    { w with ackCache := Function.update w.ackCache w.seq none }.decided answer

/-- `parseAckEvent`. -/
def ackEvent : Up → Option (UInt16 × Tag × Option UInt16)
  | .reply tag (.ack seq) => some (seq, tag, none)
  | .reply tag (.nack seq code) => some (seq, tag, some code)
  | _ => none

/-- One frame read in `sendAndRecvAck`, or in `recvAck`, which has no cache. -/
def World.answered (w : World) (frame : Up) (undecided : World → World) : World :=
  match ackEvent frame with
  | none => undecided w
  | some (seq, tag, answer) =>
    if w.job.customTransport then
      { w with ackCache := Function.update w.ackCache seq (some (tag, answer)) }.consumeCachedAck
        undecided
    else if seq = w.seq then w.decided answer
    else undecided w

def World.send (w : World) (failure : Option String) : World :=
  let w := { w with down := w.down ++ [(w.tag, w.job.frame w.seq w.phase)] }
  match failure with
  | some err => w.attemptFailed err
  | none =>
    if w.job.customTransport then w.consumeCachedAck fun w => { w with place := .wait }
    else { w with place := .wait }

def World.receive (w : World) : World :=
  match w.up with
  | [] => w
  | frame :: up =>
    match w.place with
    | .hello =>
      match frame with
      | .hello => { w with up := up }.exchange
      | _ => { w with up := up }
    | .wait => { w with up := up }.answered frame id
    | .grace => { w with up := up }.answered frame fun w => w.attemptFailed "ack timeout"
    | _ => w

/-- `recv_raw_frame`, `select` or `recv` fails. -/
def World.recvFails (w : World) (err : String) : World :=
  match w.place with
  | .hello =>
    { w with
      place := .returned false
        (if err = "" ∨ err = "ack timeout" then "boot hello timeout" else err) }
  | .wait => w.attemptFailed (if err = "" then "ack timeout" else err)
  | .grace => w.attemptFailed "ack timeout"
  | _ => w

/-- The deadline of the loop passes; only a custom transport is read once more. -/
def World.deadline (w : World) : World :=
  match w.place with
  | .hello =>
    { w with
      place := .returned false (if w.job.err = "" then "boot hello timeout" else w.job.err) }
  | .wait =>
    if w.job.customTransport then { w with place := .grace } else w.attemptFailed "ack timeout"
  | _ => w

def World.poll (w : World) (stop : Bool) : World :=
  match w.place with
  | .poll =>
    if stop then { w with place := .returned false "ota canceled" }
    else if w.phase ≠ .prepare then w.exchange
    else if w.job.customTransport then w.afterConnect
    else { w with place := .connect }
  | _ => w

def World.connect (w : World) (failure : Option String) : World :=
  match w.place with
  | .connect =>
    match failure with
    | some err => { w with place := .returned false err }
    | none => w.afterConnect
  | _ => w

def noteVerified (w : World) (f : Frame) (r : Option Reply) (d : Device) :
    List (ℕ × BlOtaCtx × Mem) :=
  match r, d.mode with
  | some (.ack _), .loop g _ _ => if f.type = blDnOtaVerify then [(w.tag.call, g, d.flash)] else []
  | _, _ => []

def noteAcked (w : World) (tag : Tag) : Option Reply → Option ℕ
  | some (.ack _) => if tag.call = w.tag.call then some tag.exchange else w.acked
  | _ => w.acked

/-- The device takes the oldest frame; only the first `life` operations on its slot take effect. -/
def World.deliver (w : World) (life : Option ℕ) : World :=
  match w.down with
  | [] => w
  | (tag, f) :: down =>
    let r := Bootloader.step w.device (.frame f life)
    { w with
      device := r.1
      down := down
      up := w.up ++ (r.2.reply.map (Up.reply tag)).toList
      acked := noteAcked w tag r.2.reply
      verified := w.verified ++ noteVerified w f r.2.reply r.1
      committed := w.committed ++ r.2.written.map (w.tag.call, ·) }

/-- What else happens to the device. -/
inductive Incident
  | reset (flag : Bool)
  | idle
  | confirm

def Incident.event : Incident → Bootloader.Event
  | reset flag => .reset flag
  | idle => .idle
  | confirm => .confirm

inductive Event
  | again (job : Job)
  | poll (stop : Bool)
  | connect (failure : Option String)
  | send (failure : Option String)
  | receive
  | recvFails (err : String)
  | deadline
  | deliver (life : Option ℕ)
  | incident (e : Incident)
  | announce
  | loseDown (i : ℕ)
  | loseUp (i : ℕ)
  /-- `executeOtaTask` goes on after `run`, and looks at the cancel flag six times -/
  | finish (device_type : String) (canceled : ℕ → Bool)

/-- The end of `executeOtaTask`: the last state that it gives the task. -/
def finish (device_type : String) (ok : Bool) (err : String) (canceled : ℕ → Bool) :
    Ota.OtaTaskState :=
  if canceled 0 then .canceled
  else match Ota.verdict device_type ok err with
    | .update _ => if (List.range 6).any canceled then .canceled else .success
    | .canceling => .canceled
    | _ => .failed

def act (w : World) : Event → World
  | .again job =>
    match w.place with
    | .returned _ _ => w.call job (w.tag.call + 1)
    | _ => w
  | .poll stop => w.poll stop
  | .connect failure => w.connect failure
  | .send failure => if w.place = .send then w.send failure else w
  | .receive => w.receive
  | .recvFails err => w.recvFails err
  | .deadline => w.deadline
  | .deliver life => w.deliver life
  | .incident e => { w with device := (Bootloader.step w.device e.event).1 }
  | .announce => { w with up := w.up ++ [.hello] }
  | .loseDown i => { w with down := w.down.eraseIdx i }
  | .loseUp i => { w with up := w.up.eraseIdx i }
  | .finish _ _ => w

/-- The state of the task, when `executeOtaTask` is at its end. -/
def taskState (w : World) : Event → Option Ota.OtaTaskState
  | .finish device_type canceled =>
    match w.place with
    | .returned ok err => some (finish device_type ok err canceled)
    | _ => none
  | _ => none

def step (w : World) (e : Event) : World × Option Ota.OtaTaskState := (act w e, taskState w e)

end EdgeLink.Stm32Ota
