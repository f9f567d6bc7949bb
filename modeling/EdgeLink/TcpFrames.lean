import EdgeLink.TcpBinary

namespace EdgeLink.TcpBinary

open Gateway LittleEndian

/-! What a frame means by itself, without the parser that is built into the session. -/

/-- A frame without a type has no record. -/
def recordOf (clock : ℕ → UInt64) (frame : Bytes) : Option SensorData :=
  if frame.length < 6 then none
  else
    (parsePayload (frameTypeFromWire (frame.getD 3 0)) ((frame.drop 4).take (frameSize frame - 6))).map
      fun data => { data with timestampUnixMs := clock 0 }

def handle (env : Env) (peer : Peer) (frame : Bytes) : Peer × Handled :=
  let type := frame.getD 3 0
  let alive := { peer with lastHbMs := env.nowMs }
  if type = 0x7E ∨ type = 0x7D then (alive, .keepAlive)
  else
    let device := if peer.hasDevice then some peer.lastDevice else env.bound
    match if isBootloaderUplinkType type then device else none with
    | some ota_device => ({ alive with lastDevice := ota_device, hasDevice := true }, .otaUplink ota_device)
    | none =>
      if peer.hasDevice ∧ env.muted peer.lastDevice then (peer, .muted)
      else takeItems env alive (recordOf env.clock frame).toList

def handleStep (env : ℕ → Env) (x : Peer × List (Bytes × Handled)) (frame : Bytes) :
    Peer × List (Bytes × Handled) :=
  let d := handle (env x.2.length) x.1 frame
  (d.1, x.2 ++ [(frame, d.2)])

def handleAll (env : ℕ → Env) (now_ms : UInt64) (frames : List Bytes) : List (Bytes × Handled) :=
  (frames.foldl (handleStep env) (⟨now_ms, 0, false⟩, [])).2

structure Whole (frame : Bytes) : Prop where
  start : IsStart frame
  size : frameSize frame = frame.length
  crc : CrcOk frame

def typeless : Bytes := [0xAA, 0x55, 0x00, 0xBF, 0x40]

theorem Whole.length_ge {frame : Bytes} (h : Whole frame) : 5 ≤ frame.length :=
  h.size ▸ Nat.le_add_left _ _

/-- There is one frame without a type. -/
theorem Whole.eq_typeless {frame : Bytes} (h : Whole frame) (hlen : frame.length < 6) :
    frame = typeless := by
  obtain ⟨⟨h0, h1⟩, hsize, hcrc⟩ := h
  have hzero : (frame.getD 2 0).toNat = 0 := by
    unfold frameSize at hsize
    omega
  have hfive : frame.length = 5 := by
    unfold frameSize at hsize
    omega
  match frame, hfive with
  | [a, b, c, d, e], _ =>
    have hc : c = 0 := UInt8.toNat_inj.mp hzero
    have h0 : a = 0xAA := h0
    have h1 : b = 0x55 := h1
    subst hc h0 h1
    have hread : word16 d e = 0x40BF := hcrc.trans (by decide : crc16Modbus [0] = 0x40BF)
    have hword := congrArg UInt16.toNat hread
    rw [word16_toNat] at hword
    have hnat : d.toNat = 0xBF ∧ e.toNat = 0x40 := by
      have := d.toNat_lt
      have hval : (0x40BF : UInt16).toNat = 0x40BF := rfl
      omega
    have hd : d = 0xBF := UInt8.toNat_inj.mp hnat.1
    have he : e = 0x40 := UInt8.toNat_inj.mp hnat.2
    rw [hd, he]
    rfl

def Idle (p : FrameParser) : Prop := p.buffer = [] ∨ p.buffer = typeless

/-- The loop of the parser drops the bytes that it had kept. -/
theorem drain_typeless (now : ℕ → UInt64) {frame : Bytes} (hlen : 5 ≤ frame.length)
    (x : Extracted) : ∃ counters, frameParser.drain (account now) (typeless ++ frame) x =
      frameParser.drain (account now) frame { x with counters := counters } := by
  have hdrop {b : UInt8} {t : Bytes} (hb : b ≠ 0xAA ∨ b :: t = typeless ++ frame)
      (ht : 5 ≤ t.length) : frameParser.next (b :: t) = some (1, .dropped) := by
    refine lookFrame_some.mpr ⟨?_, Or.inl ⟨?_, rfl⟩⟩
    · rw [List.length_cons]
      exact Nat.succ_le_succ ht
    · rcases hb with hb | hb
      · exact fun h => hb h.1
      · rw [hb]
        exact fun h => absurd h.2.2.1 (Nat.not_succ_le_zero 0)
  have hstep {b : UInt8} {t : Bytes} (hb : b ≠ 0xAA ∨ b :: t = typeless ++ frame)
      (ht : 5 ≤ t.length) (x : Extracted) : ∃ counters,
      frameParser.drain (account now) (b :: t) x =
        frameParser.drain (account now) t { x with counters := counters } :=
    ⟨_, frameParser.drain_go (account now) x (hdrop hb ht)⟩
  have htail (pre : Bytes) : 5 ≤ (pre ++ frame).length := by
    rw [List.length_append]
    omega
  obtain ⟨c₁, h₁⟩ := hstep (Or.inr rfl) (htail [0x55, 0x00, 0xBF, 0x40]) x
  obtain ⟨c₂, h₂⟩ := hstep (b := 0x55) (Or.inl (by decide)) (htail [0x00, 0xBF, 0x40]) { x with counters := c₁ }
  obtain ⟨c₃, h₃⟩ := hstep (b := 0x00) (Or.inl (by decide)) (htail [0xBF, 0x40]) { x with counters := c₂ }
  obtain ⟨c₄, h₄⟩ := hstep (b := 0xBF) (Or.inl (by decide)) (htail [0x40]) { x with counters := c₃ }
  obtain ⟨c₅, h₅⟩ := hstep (b := 0x40) (Or.inl (by decide)) hlen { x with counters := c₄ }
  exact ⟨c₅, h₁.trans (h₂.trans (h₃.trans (h₄.trans h₅)))⟩

/-- The loop over one frame. -/
theorem drain_whole (now : ℕ → UInt64) {frame : Bytes} (h : Whole frame) (counters : ParseCounters) :
    ∃ counters', frameParser.drain (account now) frame ⟨[], counters, 0⟩ =
      (if frame.length < 6 then frame else [],
        ⟨(recordOf now frame).toList, counters', if frame.length < 6 then 0 else 1⟩) := by
  by_cases hlen : frame.length < 6
  · refine ⟨counters, ?_⟩
    rw [frameParser.drain_stop _ _ (by
      show lookFrame kMinFrameSize 255 frame = none
      rw [lookFrame_eq, if_pos (show frame.length < kMinFrameSize from hlen)]),
      recordOf, if_pos hlen, if_pos hlen, if_pos hlen]
    rfl
  · have hnext : frameParser.next frame = some (frameSize frame, frameOf frame) := by
      refine lookFrame_some.mpr ⟨not_lt.mp hlen, Or.inr ⟨⟨h.start.1, h.start.2, ?_, ?_⟩, h.size.le, ?_⟩⟩
      · have := h.size
        unfold frameSize at this
        omega
      · have := (frame.getD 2 0).toNat_lt
        omega
      · rw [if_pos h.crc]
    have hrest : frame.drop (frameSize frame) = [] := by rw [h.size, List.drop_length]
    rw [frameParser.drain_go _ _ hnext, hrest, frameParser.drain_stop _ _ frameParser.next_nil,
      recordOf, if_neg hlen, if_neg hlen, if_neg hlen, frameOf, account]
    dsimp only
    cases parsePayload (frameTypeFromWire (frame.getD 3 0)) ((frame.drop 4).take (frameSize frame - 6)) with
    | some data => exact ⟨_, rfl⟩
    | none =>
      dsimp only
      split_ifs <;> exact ⟨_, rfl⟩

theorem extract_whole {p : FrameParser} (hp : Idle p) {frame : Bytes} (h : Whole frame)
    (now : ℕ → UInt64) (counters : ParseCounters) :
    Idle ((p.append frame).extract now counters).1 ∧
      ((p.append frame).extract now counters).2.1 = (recordOf now frame).toList := by
  have hdrain : ∃ counters', frameParser.drain (account now) (p.buffer ++ frame) ⟨[], counters, 0⟩ =
      (if frame.length < 6 then frame else [],
        ⟨(recordOf now frame).toList, counters', if frame.length < 6 then 0 else 1⟩) := by
    rcases hp with hp | hp
    · rw [hp, List.nil_append]
      exact drain_whole now h counters
    · rw [hp]
      obtain ⟨c, hc⟩ := drain_typeless now h.length_ge ⟨[], counters, 0⟩
      rw [hc]
      exact drain_whole now h c
  obtain ⟨c, hc⟩ := hdrain
  unfold FrameParser.extract FrameParser.append
  dsimp only
  rw [hc]
  refine ⟨?_, rfl⟩
  by_cases hlen : frame.length < 6
  · rw [if_pos hlen]
    exact Or.inr (h.eq_typeless hlen)
  · rw [if_neg hlen]
    exact Or.inl rfl

theorem next_frame {b : Bytes} {n : ℕ} {frame : Bytes}
    (h : splitter.next b = some (n, .frame frame)) :
    IsStart b ∧ frameSize b ≤ b.length ∧ CrcOk b ∧ frame = span b := by
  obtain ⟨-, ⟨-, hr⟩ | ⟨hstart, hsize, hr⟩⟩ := lookPending_some.mp h
  · cases hr
  · by_cases hcrc : CrcOk b
    · rw [if_pos hcrc] at hr
      cases hr
      exact ⟨hstart, hsize, hcrc, rfl⟩
    · rw [if_neg hcrc] at hr
      cases hr

theorem whole_span {b : Bytes} (hstart : IsStart b) (hsize : frameSize b ≤ b.length)
    (hcrc : CrcOk b) : Whole (span b) := by
  have hlen : (span b).length = frameSize b := List.length_take_of_le hsize
  have hfive : 5 ≤ frameSize b := Nat.le_add_left _ _
  have happ : span b ++ b.drop (frameSize b) = b := List.take_append_drop _ _
  have hframe : frameSize b = frameSize (span b) := by
    conv_lhs => rw [← happ]
    exact frameSize_append _ (by omega)
  refine ⟨?_, by rw [← hframe, hlen], ?_⟩
  · rw [← happ] at hstart
    unfold IsStart at hstart
    rwa [getD_append_left _ (by omega), getD_append_left _ (by omega)] at hstart
  · rw [← happ] at hcrc
    exact (crcOk_append _ (by omega) (by omega)).mp hcrc

theorem dispatch_whole (env : Env) {s : Session} (hp : Idle s.parser) {frame : Bytes}
    (h : Whole frame) : Idle (dispatch env s frame).1.parser ∧
      ((dispatch env s frame).1.peer, (dispatch env s frame).2) = handle env s.peer frame := by
  obtain ⟨hidle, hout⟩ := extract_whole hp h env.clock {}
  unfold dispatch handle
  dsimp only
  by_cases h7E : frame.getD 3 0 = 0x7E
  · rw [if_pos h7E, if_pos (Or.inl h7E)]
    exact ⟨hp, rfl⟩
  by_cases h7D : frame.getD 3 0 = 0x7D
  · rw [if_neg h7E, if_pos h7D, if_pos (Or.inr h7D)]
    exact ⟨hp, rfl⟩
  rw [if_neg h7E, if_neg h7D, if_neg (not_or.mpr ⟨h7E, h7D⟩)]
  cases if isBootloaderUplinkType (frame.getD 3 0) then
      if s.peer.hasDevice then some s.peer.lastDevice else env.bound else none with
  | some ota_device => exact ⟨hp, rfl⟩
  | none =>
    dsimp only
    by_cases hmuted : s.peer.hasDevice ∧ env.muted s.peer.lastDevice
    · rw [if_pos hmuted, if_pos hmuted]
      exact ⟨hp, rfl⟩
    · rw [if_neg hmuted, if_neg hmuted, hout]
      exact ⟨hidle, rfl⟩

def isFrame : ℕ × Cut → Bool
  | (_, .frame _) => true
  | (_, .dropped) => false

/-- Where the splitter finds frames. -/
def places (stream : Bytes) : List ℕ := ((splitter.log stream).filter isFrame).map Prod.fst

def cutFrame : ℕ × Cut → Option Bytes
  | (_, .frame frame) => some frame
  | (_, .dropped) => none

theorem filterMap_cutFrame {g : ℕ → Bytes} {log : List (ℕ × Cut)}
    (h : ∀ i frame, (i, .frame frame) ∈ log → frame = g i) :
    log.filterMap cutFrame = ((log.filter isFrame).map Prod.fst).map g := by
  induction log with
  | nil => rfl
  | cons r log ih =>
    have hrest := ih fun i frame hi => h i frame (List.mem_cons_of_mem _ hi)
    obtain ⟨i, _ | frame⟩ := r
    · exact hrest
    · rw [List.filterMap_cons_some (show cutFrame (i, .frame frame) = some frame from rfl), hrest,
        List.filter_cons_of_pos (show isFrame (i, .frame frame) = true from rfl), List.map_cons,
        List.map_cons, h i frame List.mem_cons_self]

theorem handled_eq (env : ℕ → Env) (now_ms : UInt64) (stream : Bytes) :
    (tcpRead env (opened now_ms) stream).handled =
      handleAll env now_ms ((places stream).map fun i => span (stream.drop i)) := by
  have hlog : (splitter.log stream).filterMap cutFrame =
      (places stream).map fun i => span (stream.drop i) := by
    apply filterMap_cutFrame
    intro i frame hi
    obtain ⟨-, n, hn⟩ := (Scanner.mem_log stream i _).mp hi
    obtain ⟨-, -, -, hframe⟩ := next_frame hn
    exact hframe
  have hrel := (splitter.drain_rel (f := splitStep env) (g := Scanner.note)
    (R := fun x y => Idle x.1.parser ∧ (x.1.peer, x.2) =
      (y.2.filterMap cutFrame).foldl (handleStep env) (⟨now_ms, 0, false⟩, [])) ?_ stream
    (x := ((opened now_ms).session, [])) (y := (0, [])) ⟨Or.inl rfl, rfl⟩).2
  · rw [handleAll, ← hlog]
    exact congrArg Prod.snd hrel.2
  intro x y b r hnext hx
  obtain ⟨hidle, heq⟩ := hx
  obtain ⟨n, _ | frame⟩ := r
  · refine ⟨hidle, ?_⟩
    rw [Scanner.note, List.filterMap_append, List.foldl_append, ← heq]
    rfl
  · obtain ⟨hstart, hsize, hcrc, hframe⟩ := next_frame hnext
    have hwhole : Whole frame := hframe ▸ whole_span hstart hsize hcrc
    obtain ⟨hidle', hd⟩ := dispatch_whole (env x.2.length) hidle hwhole
    refine ⟨hidle', ?_⟩
    rw [Scanner.note, List.filterMap_append, List.foldl_append, ← heq]
    exact congrArg (fun d : Peer × Handled => (d.1, x.2 ++ [(frame, d.2)])) hd

theorem tcpRead_append (env : ℕ → Env) (c : Conn) (data more : Bytes) :
    tcpRead env (tcpRead env c data) more = tcpRead env c (data ++ more) := by
  unfold tcpRead
  dsimp only
  rw [← List.append_assoc, splitter.drain_append _ (c.pending ++ data)]

theorem tcpRead_nil (env : ℕ → Env) {c : Conn} (h : splitter.next c.pending = none) :
    tcpRead env c [] = c := by
  unfold tcpRead
  rw [List.append_nil, splitter.drain_stop _ _ h]

theorem foldl_tcpRead (env : ℕ → Env) (reads : List Bytes) {c : Conn}
    (h : splitter.next c.pending = none) :
    reads.foldl (tcpRead env) c = tcpRead env c reads.flatten := by
  induction reads generalizing c with
  | nil => exact (tcpRead_nil env h).symm
  | cons data reads ih =>
    rw [List.foldl_cons, ih (splitter.drain_waits _ _ _), tcpRead_append, List.flatten_cons]

/-- A whole frame with the right CRC starts at byte `i`. -/
def FrameAt (stream : Bytes) (i : ℕ) : Prop :=
  IsStart (stream.drop i) ∧ i + frameSize (stream.drop i) ≤ stream.length ∧ CrcOk (stream.drop i)

/-- No other one that starts before `i` reaches over it. -/
def Outside (stream : Bytes) (i : ℕ) : Prop :=
  ∀ j < i, FrameAt stream j → j + frameSize (stream.drop j) ≤ i

/-- What looks like the start of a frame before `i` has got all the bytes that it claims. -/
def Arrived (stream : Bytes) (i : ℕ) : Prop :=
  ∀ j < i, IsStart (stream.drop j) → j + frameSize (stream.drop j) ≤ stream.length

theorem frameAt_of_mem_places {stream : Bytes} {i : ℕ} (h : i ∈ places stream) :
    FrameAt stream i := by
  obtain ⟨⟨_, _ | frame⟩, hmem, rfl⟩ := List.mem_map.mp h
  · exact absurd (List.mem_filter.mp hmem).2 Bool.false_ne_true
  obtain ⟨hreach, n, hn⟩ := (Scanner.mem_log stream _ _).mp (List.mem_filter.mp hmem).1
  have hle := hreach.le_length
  obtain ⟨hstart, hsize, hcrc, -⟩ := next_frame hn
  rw [List.length_drop] at hsize
  exact ⟨hstart, by dsimp only at *; omega, hcrc⟩

theorem places_sorted (stream : Bytes) : (places stream).Pairwise (· < ·) :=
  (splitter.log_sorted stream).sublist (List.filter_sublist.map _)

/-- A bad byte or a broken frame costs one step, and a good frame ends before `i`. -/
theorem reach_outside {stream : Bytes} {i : ℕ} (hlen : i + 6 ≤ stream.length)
    (hout : Outside stream i) (harr : Arrived stream i) : splitter.Reach stream i := by
  have hwalk : ∀ d p, p + d = i → splitter.Reach stream p → splitter.Reach stream i := by
    intro d
    induction d using Nat.strong_induction_on with
    | _ d walk =>
      intro p hp hreach
      by_cases hd : d = 0
      · rw [← hp, hd]
        exact hreach
      have hroom : 6 ≤ (stream.drop p).length := by
        rw [List.length_drop]
        omega
      by_cases hstart : IsStart (stream.drop p)
      · have hsize := harr p (by omega) hstart
        have hfits : frameSize (stream.drop p) ≤ (stream.drop p).length := by
          rw [List.length_drop]
          omega
        by_cases hcrc : CrcOk (stream.drop p)
        · have hend := hout p (by omega) ⟨hstart, hsize, hcrc⟩
          have hpos := frameSize_pos (stream.drop p)
          have hnext : splitter.next (stream.drop p) =
              some (frameSize (stream.drop p), .frame (span (stream.drop p))) :=
            lookPending_some.mpr ⟨hroom, Or.inr ⟨hstart, hfits, by rw [if_pos hcrc]⟩⟩
          exact walk (d - frameSize (stream.drop p)) (by omega) _ (by omega) (hreach.step hnext)
        · have hnext : splitter.next (stream.drop p) = some (1, .dropped) :=
            lookPending_some.mpr ⟨hroom, Or.inr ⟨hstart, hfits, by rw [if_neg hcrc]⟩⟩
          exact walk (d - 1) (by omega) _ (by omega) (hreach.step hnext)
      · exact walk (d - 1) (by omega) _ (by omega)
          (hreach.step (lookPending_some.mpr ⟨hroom, Or.inl ⟨hstart, rfl⟩⟩))
  exact hwalk i 0 (Nat.zero_add i) Scanner.Reach.here

theorem mem_places {stream : Bytes} {i : ℕ} (h : FrameAt stream i)
    (hlen : 1 ≤ ((stream.drop i).getD 2 0).toNat) (hout : Outside stream i)
    (harr : Arrived stream i) : i ∈ places stream := by
  obtain ⟨hstart, hsize, hcrc⟩ := h
  have hsix : 6 ≤ frameSize (stream.drop i) := Nat.add_le_add_right hlen 5
  have hdrop : (stream.drop i).length = stream.length - i := List.length_drop
  have hnext : splitter.next (stream.drop i) =
      some (frameSize (stream.drop i), .frame (span (stream.drop i))) := by
    refine lookPending_some.mpr ⟨by omega, Or.inr ⟨hstart, by omega, ?_⟩⟩
    rw [if_pos hcrc]
  have hlog : (i, Cut.frame (span (stream.drop i))) ∈ splitter.log stream :=
    (Scanner.mem_log stream i _).mpr ⟨reach_outside (by omega) hout harr, _, hnext⟩
  exact List.mem_map.mpr ⟨_, List.mem_filter.mpr ⟨hlog, rfl⟩, rfl⟩

/-- However the stream is cut, the session does with each frame outside the others what the frame
means by itself, once and in order, whatever stands before it. -/
theorem tcp_recovers (env : ℕ → Env) (now_ms : UInt64) (reads : List Bytes) :
    let c := reads.foldl (tcpRead env) (opened now_ms)
    let stream := reads.flatten
    c = tcpRead env (opened now_ms) stream ∧
      ∃ found : List ℕ, found.Pairwise (· < ·) ∧
        c.handled = handleAll env now_ms (found.map fun i => span (stream.drop i)) ∧
        (∀ i ∈ found, FrameAt stream i) ∧
        ∀ i, FrameAt stream i → 1 ≤ ((stream.drop i).getD 2 0).toNat → Outside stream i →
          Arrived stream i → i ∈ found := by
  intro c stream
  have hcut : c = tcpRead env (opened now_ms) stream := foldl_tcpRead env reads splitter.next_nil
  refine ⟨hcut, places stream, places_sorted stream, ?_, fun i => frameAt_of_mem_places,
    fun i => mem_places⟩
  rw [hcut]
  exact handled_eq env now_ms stream

end EdgeLink.TcpBinary
