import EdgeLink.FrameStream
import EdgeLink.OtaWire
import EdgeLink.TcpFrames
import EdgeLink.TcpPump

namespace EdgeLink.OtaRelay
open LittleEndian Bridge OtaWire FrameStream
open Gateway (wireFrame wireFrame_length wireFrame_size wireFrame_crcOk frameSize CrcOk)

/-! An update over the adapter: the gateway's frames on their way down. -/

def controlPayload (command : UInt8) (session_id timeout_ms : UInt32) : Bytes :=
  command :: (bytes32 session_id ++ bytes32 timeout_ms)

def buildAdapterControlFrame (command : UInt8) (session_id timeout_ms : UInt32) : Bytes :=
  wireFrame kTypeAdapterControl (controlPayload command session_id timeout_ms)

/-- What the gateway sends on the connection of an adapter. -/
inductive Sent
  | control (command : UInt8) (session_id timeout_ms : UInt32)
  | frame (type : UInt8) (payload : Bytes)

namespace Sent

def parts : Sent → UInt8 × Bytes
  | control command session_id timeout_ms =>
    (kTypeAdapterControl, controlPayload command session_id timeout_ms)
  | frame type payload => (type, payload)

def bytes (m : Sent) : Bytes := wire m.parts

theorem bytes_control (command : UInt8) (session_id timeout_ms : UInt32) :
    (control command session_id timeout_ms).bytes =
      buildAdapterControlFrame command session_id timeout_ms := rfl

/-- It goes through the buffer of the adapter, and no other frame has the type of a control frame. -/
def Fits : Sent → Prop
  | control _ _ _ => True
  | frame type payload => type ≠ kTypeAdapterControl ∧ payload.length + 6 ≤ MAX_FRAME_SIZE

instance : DecidablePred Fits
  | control _ _ _ => isTrue trivial
  | frame _ _ => inferInstanceAs (Decidable (_ ∧ _))

/-- The globals after it, at the time `now`; `none` if it is not for the adapter. -/
def handled (now : UInt32) (g : Globals) : Sent → Option Globals
  | control command session_id timeout_ms =>
    if command = kCmdEnterOtaMode then some (bridgeEnterOtaMode now g session_id timeout_ms)
    else if command = kCmdLeaveOtaMode then some (bridgeLeaveOtaMode g)
    else none
  | frame _ _ => none

/-- A command of an update. -/
def command? : Sent → Option (UInt8 × Bytes)
  | control _ _ _ => none
  | frame type payload => if isOtaCmdType type then some (type, payload) else none

theorem Fits.length {m : Sent} (h : m.Fits) : m.parts.2.length + 6 ≤ MAX_FRAME_SIZE := by
  cases m with
  | control command session_id timeout_ms => exact Nat.le_of_ble_eq_true rfl
  | frame type payload => exact h.2

end Sent

structure Relay where
  g : Globals
  out : List (UInt8 × Bytes)

def Relay.empty : Relay := ⟨boot, []⟩

inductive RelayEvent
  | meet (ctl_ms : UInt32) (m : Sent)
  | others (g : Globals)

def relayStep (r : Relay) : RelayEvent → Relay × Unit
  | .meet ctl_ms m =>
    (match m.handled ctl_ms r.g with
      | some g => ⟨g, r.out⟩
      | none =>
        if r.g.mode = .ota ∧ !isOtaCmdType m.parts.1 then r else ⟨r.g, r.out ++ [m.parts]⟩, ())
  | .others g => (⟨g, r.out⟩, ())

def RelayEvent.met : RelayEvent → Option Sent
  | meet _ m => some m
  | others _ => none

def RelayEvent.changed : RelayEvent → Option Globals
  | meet _ _ => none
  | others g => some g

/-- Whatever the mode, every command of an update is passed on in its place, and nothing that was
not sent. -/
structure Relay.Passes (r : Relay) (sent : List Sent) : Prop where
  commands : r.out.filter (fun f => isOtaCmdType f.1) = sent.filterMap Sent.command?
  parts : r.out.Sublist (sent.map Sent.parts)

theorem Relay.Passes.step {r : Relay} {sent : List Sent} (h : r.Passes sent) (e : RelayEvent) :
    (relayStep r e).1.Passes (sent ++ e.met.toList) := by
  cases e with
  | others g =>
    rw [RelayEvent.met, Option.toList_none, List.append_nil]
    exact ⟨h.commands, h.parts⟩
  | meet ctl_ms m =>
    have hdrop (hno : m.command? = none) (r' : Relay) (hr : r'.out = r.out) :
        r'.Passes (sent ++ [m]) := by
      constructor
      · rw [List.filterMap_append, List.filterMap_cons_none hno, List.filterMap_nil,
          List.append_nil, hr, h.commands]
      · rw [List.map_append, hr]
        exact h.parts.trans (List.sublist_append_left _ _)
    have hpass (hsame : m.command? = if isOtaCmdType m.parts.1 then some m.parts else none) :
        (Relay.mk r.g (r.out ++ [m.parts])).Passes (sent ++ [m]) := by
      constructor
      · rw [List.filter_append, h.commands, List.filterMap_append]
        congr 1
        rw [List.filterMap_cons, hsame, List.filter_cons]
        by_cases htype : isOtaCmdType m.parts.1 = true
        · rw [if_pos htype, if_pos htype]
          rfl
        · rw [if_neg htype, if_neg htype]
          rfl
      · rw [List.map_append]
        exact h.parts.append (List.Sublist.refl _)
    cases m with
    | control command session_id timeout_ms =>
      rw [relayStep, RelayEvent.met, Option.toList_some]
      cases Sent.handled ctl_ms r.g (.control command session_id timeout_ms) with
      | some g => exact hdrop rfl _ rfl
      | none =>
        dsimp only
        split_ifs with hota
        · exact hdrop rfl _ rfl
        · exact hpass rfl
    | frame type payload =>
      rw [relayStep, RelayEvent.met, Option.toList_some, Sent.handled]
      dsimp only
      split_ifs with hota
      · have hother : isOtaCmdType type = false := by simpa [Sent.parts] using hota.2
        exact hdrop (if_neg (ne_true_of_eq_false hother)) _ rfl
      · exact hpass rfl

theorem Relay.Passes.run (es : List RelayEvent) :
    (Machine.run relayStep .empty es).Passes (es.filterMap RelayEvent.met) := by
  induction es using List.reverseRecOn with
  | nil => exact ⟨rfl, List.Sublist.refl _⟩
  | append_singleton es e ih =>
    rw [Machine.run_append, List.filterMap_append]
    cases e <;> exact ih.step _

section Collect
variable {type a : UInt8} {payload p q : Bytes}

theorem getD_begun {b : Bytes} (h : p ++ q = b) {i : ℕ} (hi : i < p.length) :
    p.getD i 0 = b.getD i 0 := by
  rw [← h, List.getD_append _ _ _ i hi]

theorem collect_length (hq : p ++ a :: q = wireFrame type payload) :
    p.length + 1 + q.length = payload.length + 6 := by
  have htotal := congrArg List.length hq
  rw [List.length_append, List.length_cons, wireFrame_length] at htotal
  omega

theorem collect_first (hq : p ++ a :: q = wireFrame type payload) :
    ¬(p.length = 0 ∧ a ≠ kHeader1) := by
  rintro ⟨hzero, ha⟩
  obtain rfl := List.length_eq_zero_iff.mp hzero
  exact ha (List.head_eq_of_cons_eq hq)

theorem collect_second (hq : p ++ a :: q = wireFrame type payload) :
    ¬(p.length = 1 ∧ a ≠ kHeader2) := by
  rintro ⟨hone, ha⟩
  have hat : (p ++ a :: q).getD 1 0 = kHeader2 := by
    rw [hq]
    rfl
  rw [List.getD_append_right _ _ _ _ hone.le, hone] at hat
  exact ha hat

theorem collect_size (hq : p ++ a :: q = wireFrame type payload) (hlen : payload.length < 255)
    (htwo : 2 ≤ p.length) : 2 + 1 + ((p ++ [a]).getD 2 0).toNat + 2 = payload.length + 6 := by
  have hq' : (p ++ [a]) ++ q = wireFrame type payload := by
    rw [List.append_assoc]
    exact hq
  have hbuf : (p ++ [a]).length = p.length + 1 := List.length_append
  have hsize := wireFrame_size type hlen
  unfold frameSize at hsize
  rw [getD_begun hq' (by omega)]
  omega

theorem wire_crc (type : UInt8) (hlen : payload.length < 255) :
    read16 (wireFrame type payload) (payload.length + 6 - 2) = crc16Modbus
      (((wireFrame type payload).drop 2).take (1 + ((wireFrame type payload).getD 2 0).toNat)) := by
  have hcrc := wireFrame_crcOk type hlen
  have hcov : 1 + ((wireFrame type payload).getD 2 0).toNat = payload.length + 6 - 4 := by
    have hsize := wireFrame_size type hlen
    unfold frameSize at hsize
    omega
  unfold CrcOk at hcrc
  rw [wireFrame_size type hlen] at hcrc
  rw [hcov]
  exact hcrc

theorem wire_type (type : UInt8) (payload : Bytes) : (wireFrame type payload).getD 3 0 = type := rfl

end Collect

section Buffer
variable {type a : UInt8} {payload p q : Bytes}

/-- A whole frame in the buffer is recognized, and a part of it waits. -/
theorem pumpByte_frame (legacy : Bool) (rx_ms ctl_ms : UInt32) {s : Pump}
    (hlen : payload.length + 6 ≤ MAX_FRAME_SIZE) (hp : s.tcpInBuf = p)
    (hq : p ++ a :: q = wireFrame type payload) : pumpByte legacy rx_ms ctl_ms a s =
      if q = [] then
        pumpFrame ctl_ms { s with lastTcpRxMs := rx_ms, tcpInBuf := wireFrame type payload }
          (payload.length + 6)
      else { s with lastTcpRxMs := rx_ms, tcpInBuf := p ++ [a] } := by
  have hmax : payload.length + 6 ≤ 256 := hlen
  have htotal := collect_length hq
  have hbuf : (p ++ [a]).length = p.length + 1 := List.length_append
  have hroom : ¬MAX_FRAME_SIZE ≤ p.length := by
    unfold MAX_FRAME_SIZE
    omega
  unfold pumpByte
  dsimp only
  rw [hp, if_neg (collect_first hq), if_neg (collect_second hq), if_neg hroom]
  dsimp only
  rw [hbuf]
  by_cases hshort : p.length + 1 < 3
  · have hmore : q ≠ [] := by
      rintro rfl
      rw [List.length_nil] at htotal
      omega
    rw [if_pos hshort, if_neg hmore]
  · have hsize := collect_size hq (by omega) (by omega)
    have hok : (decide (payload.length + 6 ≤ MAX_FRAME_SIZE) &&
        decide (kMinFrameSize ≤ payload.length + 6)) = true := by
      rw [decide_eq_true hlen, Bool.true_and]
      exact decide_eq_true (Nat.le_add_left _ _)
    rw [if_neg hshort, hsize, hok]
    simp only [Bool.not_true, Bool.false_and, Bool.false_eq_true, if_false, true_and]
    by_cases hend : q = []
    · subst hend
      rw [List.length_nil] at htotal
      rw [if_neg (by omega), if_pos ⟨by omega, by rw [hq]; exact wire_crc type (by omega)⟩,
        if_pos rfl, hq]
    · have hlong := List.length_pos_iff.mpr hend
      rw [if_pos (by omega), if_neg hend]

/-- The fields of a control frame are read where the gateway has put them. -/
theorem read32_frame {c : UInt8} {a b : UInt32} :
    read32 (wireFrame type (c :: (bytes32 a ++ bytes32 b))) 5 = a ∧
      read32 (wireFrame type (c :: (bytes32 a ++ bytes32 b))) 9 = b := by
  have hread (len : UInt8) (tail : Bytes) :
      let frame : Bytes := 0xAA :: 0x55 :: len :: type :: c :: (bytes32 a ++ (bytes32 b ++ tail))
      read32 frame 5 = a ∧ read32 frame 9 = b :=
    ⟨read32_head a (bytes32 b ++ tail), read32_head b tail⟩
  rw [wireFrame_cons, List.cons_append, List.append_assoc]
  exact hread _ _

theorem handleAdapterControlFrame_control (now : UInt32) (g : Globals) (command : UInt8)
    (session_id timeout_ms : UInt32) :
    handleAdapterControlFrame now g (buildAdapterControlFrame command session_id timeout_ms) =
      Sent.handled now g (.control command session_id timeout_ms) := by
  have hlen : (buildAdapterControlFrame command session_id timeout_ms).length = 15 := rfl
  have hcommand : (buildAdapterControlFrame command session_id timeout_ms).getD 4 0 = command := rfl
  obtain ⟨hsession, htimeout⟩ := @read32_frame kTypeAdapterControl command session_id timeout_ms
  unfold handleAdapterControlFrame
  rw [hlen, hcommand, if_neg (by decide)]
  unfold buildAdapterControlFrame controlPayload
  dsimp only
  rw [hsession, htimeout]
  rfl

/-- A whole frame in the buffer does what the relay does. -/
theorem pumpFrame_sent (ctl_ms : UInt32) {m : Sent} (hfits : m.Fits) (s : Pump) (r : Relay)
    (hbuf : s.tcpInBuf = m.bytes) (hg : s.g = r.g) (huart : s.uart = r.out.flatMap wire) :
    (pumpFrame ctl_ms s m.bytes.length).tcpInBuf = [] ∧
      (pumpFrame ctl_ms s m.bytes.length).g = (relayStep r (.meet ctl_ms m)).1.g ∧
      (pumpFrame ctl_ms s m.bytes.length).uart =
        (relayStep r (.meet ctl_ms m)).1.out.flatMap wire := by
  have htype : m.bytes.getD 3 0 = m.parts.1 := rfl
  have hhandle : (if m.parts.1 = kTypeAdapterControl then
      handleAdapterControlFrame ctl_ms s.g m.bytes else none) = m.handled ctl_ms r.g := by
    rw [hg]
    cases m with
    | control command session_id timeout_ms =>
      have htype : (Sent.control command session_id timeout_ms).parts.1 = kTypeAdapterControl := rfl
      rw [if_pos htype, Sent.bytes_control, handleAdapterControlFrame_control]
    | frame type payload => exact if_neg hfits.1
  unfold pumpFrame relayStep
  rw [hbuf, List.take_length, htype]
  dsimp only
  rw [hhandle, hg]
  cases m.handled ctl_ms r.g with
  | some g => exact ⟨rfl, rfl, huart⟩
  | none =>
    dsimp only
    split_ifs with hota
    · exact ⟨rfl, rfl, huart⟩
    · refine ⟨rfl, rfl, ?_⟩
      rw [huart, List.flatMap_append, List.flatMap_singleton]
      rfl

end Buffer

/-- The rest of a frame is never kept waiting for so long that its beginning is passed on. -/
def Prompt (s : Pump) : PumpEvent → Prop
  | .call now => s.tcpInBuf = [] ∨
      elapsedSince now s.lastTcpRxMs BRIDGE_TCP_RX_PARTIAL_TIMEOUT_MS = false
  | .byte _ _ _ | .others _ => True

instance (s : Pump) : DecidablePred (Prompt s)
  | .call _ => inferInstanceAs (Decidable (_ ∨ _))
  | .byte _ _ _ => isTrue trivial
  | .others _ => isTrue trivial

def pumpMachine (legacy_len_compat : Bool) (s : Pump) (e : PumpEvent) : Pump × Unit :=
  (pumpStep legacy_len_compat s e, ())

def PumpEvent.changed : PumpEvent → Option Globals
  | .call _ | .byte _ _ _ => none
  | .others g => some g

/-- After `events`, `k` whole frames and the beginning `p` of the next one. -/
structure Relays (sent : List Sent) (rs : List RelayEvent) (events : List PumpEvent) (k : ℕ)
    (p : Bytes) (s : Pump) : Prop where
  met : rs.filterMap RelayEvent.met = sent.take k
  changed : rs.filterMap RelayEvent.changed = events.filterMap PumpEvent.changed
  buffered : s.tcpInBuf = p
  globals : s.g = (Machine.run relayStep .empty rs).g
  written : s.uart = (Machine.run relayStep .empty rs).out.flatMap wire

section Refinement
variable {sent : List Sent} {rs : List RelayEvent} {events : List PumpEvent} {k : ℕ} {p q : Bytes}
  {s : Pump} {legacy_len_compat : Bool}

theorem Relays.quiet {e : PumpEvent} (h : Relays sent rs events k p s) (hbytes : e.bytes = [])
    (hprompt : Prompt s e) : ∃ rs', Relays sent rs' (events ++ [e]) k p
      (pumpStep legacy_len_compat s e) := by
  cases e with
  | byte rx_ms ctl_ms ub => cases hbytes
  | call now =>
    have hidle : pumpCall now s = s := by
      refine if_neg ?_
      rintro ⟨hlen, hlate⟩
      rcases hprompt with hnil | hearly
      · rw [hnil] at hlen
        exact Nat.lt_irrefl 0 hlen
      · rw [hearly] at hlate
        cases hlate
    refine ⟨rs, h.met, ?_, ?_, ?_, ?_⟩
    · rw [h.changed, List.filterMap_append]
      exact (List.append_nil _).symm
    all_goals rw [pumpStep, hidle]
    · exact h.buffered
    · exact h.globals
    · exact h.written
  | others g =>
    refine ⟨rs ++ [.others g], ?_, ?_, h.buffered, ?_, ?_⟩
    · rw [List.filterMap_append, h.met]
      exact List.append_nil _
    · rw [List.filterMap_append, List.filterMap_append, h.changed]
      rfl
    · rw [Machine.run_append]
      rfl
    · rw [Machine.run_append]
      exact h.written

/-- A byte inside a frame. -/
theorem Relays.push {rx_ms ctl_ms : UInt32} {ub : UInt8} (h : Relays sent rs events k p s)
    {m : Sent} (hfits : m.Fits) (hq : p ++ ub :: q = m.bytes) (hmore : q ≠ []) :
    Relays sent rs (events ++ [.byte rx_ms ctl_ms ub]) k (p ++ [ub])
      (pumpStep legacy_len_compat s (.byte rx_ms ctl_ms ub)) := by
  have hbyte := pumpByte_frame legacy_len_compat rx_ms ctl_ms (Sent.Fits.length hfits) h.buffered hq
  rw [if_neg hmore] at hbyte
  refine ⟨h.met, ?_, ?_, ?_, ?_⟩
  · rw [h.changed, List.filterMap_append]
    exact (List.append_nil _).symm
  all_goals rw [pumpStep, hbyte]
  · exact h.globals
  · exact h.written

/-- The last byte of a frame. -/
theorem Relays.close {rx_ms ctl_ms : UInt32} {ub : UInt8} (h : Relays sent rs events k p s)
    {m : Sent} (hm : sent[k]? = some m) (hfits : m.Fits) (hq : p ++ [ub] = m.bytes) :
    Relays sent (rs ++ [.meet ctl_ms m]) (events ++ [.byte rx_ms ctl_ms ub]) (k + 1) []
      (pumpStep legacy_len_compat s (.byte rx_ms ctl_ms ub)) := by
  have hbyte := pumpByte_frame legacy_len_compat rx_ms ctl_ms (Sent.Fits.length hfits) h.buffered hq
  rw [if_pos rfl] at hbyte
  have hlen : m.bytes.length = m.parts.2.length + 6 := wireFrame_length _ _
  obtain ⟨hbuf, hg, huart⟩ := pumpFrame_sent ctl_ms hfits
    { s with lastTcpRxMs := rx_ms, tcpInBuf := m.bytes } (Machine.run relayStep .empty rs) rfl
    h.globals h.written
  rw [hlen] at hbuf hg huart
  refine ⟨?_, ?_, ?_, ?_, ?_⟩
  · rw [List.filterMap_append, h.met, List.take_add_one, hm]
    rfl
  · rw [List.filterMap_append, List.filterMap_append, h.changed]
    rfl
  all_goals rw [pumpStep, hbyte]
  · exact hbuf
  · rw [Machine.run_append]
    exact hg
  · rw [Machine.run_append]
    exact huart

/-- The pump is the relay of whole frames, and the beginning of the next frame is in its buffer. -/
theorem pumpRun_relays (legacy_len_compat : Bool) (hfits : ∀ m ∈ sent, m.Fits) {rest : Bytes}
    (hrest : events.flatMap PumpEvent.bytes ++ rest = sent.flatMap Sent.bytes)
    (hprompt : Machine.Always (pumpMachine legacy_len_compat) Prompt .empty events) :
    ∃ k p, Cut (sent.map Sent.bytes) (events.flatMap PumpEvent.bytes) k p ∧
      ∃ rs, Relays sent rs events k p (pumpRun legacy_len_compat events) := by
  have hat {k : ℕ} {b : Bytes} (hb : (sent.map Sent.bytes)[k]? = some b) :
      ∃ m, sent[k]? = some m ∧ m.Fits ∧ b = m.bytes := by
    rw [List.getElem?_map] at hb
    obtain ⟨m, hm, rfl⟩ := Option.map_eq_some_iff.mp hb
    exact ⟨m, hm, hfits m (List.mem_of_getElem? hm), rfl⟩
  refine fed (I := fun es k p s => ∃ rs, Relays sent rs es k p s) ?_ ?_ ?_ ?_ ?_ ?_ hprompt
    (hrest.trans List.flatMap_def)
  · intro b hb
    obtain ⟨m, -, rfl⟩ := List.mem_map.mp hb
    exact List.cons_ne_nil _ _
  · intro e
    cases e <;> exact Nat.le_of_ble_eq_true rfl
  · rintro es k p s e hbytes hC ⟨rs, h⟩
    exact h.quiet hbytes hC
  · rintro es k p s e a q b hbytes - hb hq hmore ⟨rs, h⟩
    obtain ⟨m, -, hfit, rfl⟩ := hat hb
    cases e with
    | byte rx_ms ctl_ms ub =>
      obtain rfl := List.head_eq_of_cons_eq hbytes
      exact ⟨rs, h.push hfit hq hmore⟩
    | call now => cases hbytes
    | others g => cases hbytes
  · rintro es k p s e a b hbytes - hb hq ⟨rs, h⟩
    obtain ⟨m, hm, hfit, rfl⟩ := hat hb
    cases e with
    | byte rx_ms ctl_ms ub =>
      obtain rfl := List.head_eq_of_cons_eq hbytes
      exact ⟨_, h.close hm hfit hq⟩
    | call now => cases hbytes
    | others g => cases hbytes
  · exact ⟨[], rfl, rfl, rfl, rfl, rfl⟩

end Refinement

theorem blReads_wires {fs : List (UInt8 × Bytes)} (hshort : ∀ f ∈ fs, f.2.length < 255) (s : Bytes) :
    blReads fs.length (fs.flatMap wire ++ s) = (fs.map fun f => .one f.1 f.2, s) := by
  induction fs with
  | nil => rfl
  | cons f fs ih =>
    obtain ⟨hf, hfs⟩ := List.forall_mem_cons.mp hshort
    rw [List.flatMap_cons, List.append_assoc, List.length_cons, blReads, wire,
      blReadFrame_wire hf]
    dsimp only
    rw [ih hfs]
    rfl

/-- However the bytes of what the gateway sends are spread over the calls of the pump, and whatever
the other tasks do to the mode between them, the adapter relays whole frames: the commands of an
update all pass in their order, and the bootloader reads exactly the frames that have passed. -/
theorem commands_relayed (legacy_len_compat : Bool) {sent : List Sent} {events : List PumpEvent}
    {rest : Bytes} (hfits : ∀ m ∈ sent, m.Fits)
    (hrest : events.flatMap PumpEvent.bytes ++ rest = sent.flatMap Sent.bytes)
    (hprompt : Machine.Always (pumpMachine legacy_len_compat) Prompt .empty events) :
    ∃ k p rs, Cut (sent.map Sent.bytes) (events.flatMap PumpEvent.bytes) k p ∧
      Relays sent rs events k p (pumpRun legacy_len_compat events) ∧
      let relay := Machine.run relayStep .empty rs
      relay.out.filter (fun f => isOtaCmdType f.1) = (sent.take k).filterMap Sent.command? ∧
        blReads relay.out.length (pumpRun legacy_len_compat events).uart =
          (relay.out.map fun f => .one f.1 f.2, []) := by
  obtain ⟨k, p, hcut, rs, hrelays⟩ := pumpRun_relays legacy_len_compat hfits hrest hprompt
  have hpasses := Relay.Passes.run rs
  rw [hrelays.met] at hpasses
  refine ⟨k, p, rs, hcut, hrelays, hpasses.commands, ?_⟩
  have hshort : ∀ f ∈ (Machine.run relayStep .empty rs).out, f.2.length < 255 := by
    intro f hf
    obtain ⟨m, hm, rfl⟩ := List.mem_map.mp (hpasses.parts.subset hf)
    have hlen := Sent.Fits.length (hfits m (List.mem_of_mem_take hm))
    unfold MAX_FRAME_SIZE at hlen
    omega
  have hread := blReads_wires hshort []
  rw [List.append_nil] at hread
  rw [hrelays.written, hread]

/-- A session with a heartbeat that the adapter drops and a first command. -/
def session : List Sent :=
  [.control kCmdEnterOtaMode 7 10000, .frame 0x03 [3], .frame 0x31 [9, 0],
    .control kCmdLeaveOtaMode 0 0]

/-- The last byte is still on its way, and another task ends the mode after the command. -/
def sessionEvents : List PumpEvent :=
  (session.take 2).flatMap (fun m => m.bytes.map (.byte 50 50)) ++ [.call 200] ++
    (session.drop 2).dropLast.flatMap (fun m => m.bytes.map (.byte 210 211)) ++ [.others boot] ++
    (Sent.bytes (.control kCmdLeaveOtaMode 0 0)).dropLast.map (.byte 300 300) ++ [.call 400]

theorem commands_relayed_session :
    ∃ k p rs, Cut (session.map Sent.bytes) (sessionEvents.flatMap PumpEvent.bytes) k p ∧
      Relays session rs sessionEvents k p (pumpRun false sessionEvents) ∧
      let relay := Machine.run relayStep .empty rs
      relay.out.filter (fun f => isOtaCmdType f.1) = (session.take k).filterMap Sent.command? ∧
        blReads relay.out.length (pumpRun false sessionEvents).uart =
          (relay.out.map fun f => .one f.1 f.2, []) := by
  have hrest : sessionEvents.flatMap PumpEvent.bytes ++
      (Sent.bytes (.control kCmdLeaveOtaMode 0 0)).drop 14 = session.flatMap Sent.bytes := by
    decide +kernel
  exact commands_relayed false (by decide) hrest (by decide +kernel)

-- of the session the node sees the command alone
example : (pumpRun false sessionEvents).uart = wire (0x31, [9, 0]) := by decide +kernel

end EdgeLink.OtaRelay
