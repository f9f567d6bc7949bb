import EdgeLink.SessionFrames
import EdgeLink.SlotPolicy

namespace EdgeLink.Bootloader
open LittleEndian Nor Machine

/-- What frames and replies say about a session, from the PREPARE that opened it. -/
structure Session where
  base : UInt32
  size : UInt32
  crc : UInt32
  version : UInt32
  /-- the number of the next frame in order -/
  next : UInt16
  /-- how many bytes of new chunks were acknowledged -/
  received : ℕ
  /-- what had been received when a VERIFY was acknowledged, with no PREPARE after it -/
  verified : Option ℕ
  /-- a PREPARE was refused -/
  refused : Bool

/-- The session that an acknowledged PREPARE opens. -/
def Session.opened (m : OtaMetadata) (payload : Bytes) : Session where
  base := prepareTarget m payload
  size := read32 payload 2
  crc := read32 payload 6
  version := if payload.length ≥ 20 then read32 payload 16 else 0
  next := read16 payload 0 + 1
  received := 0
  verified := none
  refused := false

def Session.refuse (t : Session) (payload : Bytes) : Session :=
  if payload.length < 12 then t
  else { t with
    size := read32 payload 2, crc := read32 payload 6
    version := if payload.length ≥ 20 then read32 payload 16 else 0
    verified := none, refused := true }

/-- A chunk out of order is acknowledged as a repetition. -/
def Session.chunk (t : Session) (seq : UInt16) (n : ℕ) : Session :=
  if seq = t.next then { t with next := t.next + 1, received := t.received + n } else t

def note (m : OtaMetadata) (s : Option Session) (f : Frame) : Option Reply → Option Session
  | some (.ack seq) =>
    if f.type = blDnOtaPrepare then some (Session.opened m f.payload)
    else if f.type = blDnOtaData then s.map fun t => t.chunk seq (f.payload.length - 8)
    else if f.type = blDnOtaVerify then
      s.map fun t => { t with next := t.next + 1, verified := some t.received }
    else none
  | some (.nack _ _) => if f.type = blDnOtaPrepare then s.map fun t => t.refuse f.payload else s
  | _ => s

def observe (d : Device) (s : Option Session) (e : Event) (o : Output) : Option Session :=
  match e with
  | .reset _ => none
  | .frame f _ =>
    match d.mode with
    | .loop _ m _ => note m s f o.reply
    | _ => s
  | .idle =>
    match d.mode with
    | .loop _ _ false => none
    | _ => s
  | .confirm => s

/-- The metadata that a COMMIT hands to `bl_metadata_commit`. -/
def handed (d : Device) : Event → Option OtaMetadata
  | .frame f life =>
    match d.mode with
    | .loop g m _ => (blOtaLoopFrame (Ctl.start d.flash (frameLife f life)) g m f).committed
    | _ => none
  | _ => none

/-- The context of the bootloader is the one the notes tell. -/
structure Follows (fl : Mem) (g : BlOtaCtx) (t : Session) : Prop where
  anchored : Anchored g
  base : g.targetBase = t.base
  size : g.imageSize = t.size
  crc : g.imageCrc32 = t.crc
  version : g.imageVersion = t.version
  next : g.expectedSeq = t.next
  received : g.writeOffset.toNat = t.received
  verified : ∀ n, t.verified = some n → n = t.received ∧ g.writeOffset = g.imageSize ∧
    blCrc32 (read fl g.targetBase.toNat g.imageSize.toNat) = g.imageCrc32 ∧
    blVectorValidForSlot fl g.targetBase blAppASize = true

variable {fl fl' : Mem} {g : BlOtaCtx} {t : Session} {m : OtaMetadata} {s : Option Session}
  {payload : Bytes} {c : Ctl}

theorem vectorValid_congr {base : UInt32} (h : AgreeOn fl fl' base.toNat 8) (size : UInt32) :
    blVectorValidForSlot fl base size = blVectorValidForSlot fl' base size := by
  unfold blVectorValidForSlot
  rw [wordAt_congr (h.mono le_rfl (by omega)), wordAt_congr (h.mono (by omega) (by omega))]

/-- What happens below the slots does not concern a session. -/
theorem Follows.congr (h : Follows fl g t)
    (hm : ∀ x, blMetadataBase.toNat + blMetadataSize ≤ x → fl x = fl' x) : Follows fl' g t := by
  have hslot : ∀ n, AgreeOn fl fl' g.targetBase.toNat n :=
    fun n x hx _ => hm x (h.anchored.base.trans hx)
  refine { h with verified := fun n hv => ?_ }
  rw [← read_congr (hslot _), ← vectorValid_congr (hslot 8)]
  exact h.verified n hv

/-- An open session has notes, and they tell its context. -/
def Noted (fl : Mem) (g : BlOtaCtx) (s : Option Session) : Prop :=
  g.active = true → ∃ t, s = some t ∧ Follows fl g t

def NotedAfter (m : OtaMetadata) (s : Option Session) (f : Frame) (r : Handled) : Prop :=
  Noted r.ctl.mem r.ctx (note m s f r.reply)

theorem prepare_noted (h : Noted c.mem g s) {f : Frame} (hf : f.type = blDnOtaPrepare) :
    NotedAfter m s f (blHandlePrepare c g f.payload m) := by
  -- a refusal leaves the fields of the request behind
  have hrefused : ∀ (c' : Ctl) (seq err : UInt16), 12 ≤ f.payload.length →
      Noted c'.mem (prepareFields g f.payload) (note m s f (some (.nack seq err))) := by
    intro c' seq err hl ha
    obtain ⟨t, rfl, ht⟩ := h ha
    refine ⟨t.refuse f.payload, by rw [note, if_pos hf]; rfl, ?_⟩
    rw [Session.refuse, if_neg (by omega)]
    exact ⟨⟨ht.anchored.slot, ht.anchored.inside⟩, ht.base, rfl, rfl, rfl, ht.next, ht.received,
      fun n hv => by cases hv⟩
  rcases blHandlePrepare_cases c g f.payload m with ⟨hl, hr⟩ | ⟨hl, err, -, hr⟩ |
    ⟨hl, he, c', ok, -, hr⟩
  · rw [hr]
    intro ha
    obtain ⟨t, rfl, ht⟩ := h ha
    refine ⟨t, ?_, ht⟩
    rw [answer_reply, note, if_pos hf, Option.map_some, Session.refuse, if_pos hl]
  · rw [hr]
    exact hrefused c _ err hl
  · rw [hr]
    cases ok with
    | false => exact hrefused c' _ _ hl
    | true =>
      intro ha
      have hslot := prepareTargetAllowed_slot (prepareError_none he).2.2.2.2.1
      have hend : (prepareTarget m f.payload).toNat + 0 ≤ flashHi := by
        rcases hslot with ht | ht <;> rw [ht] <;> decide
      refine ⟨Session.opened m f.payload, by simp only [if_true, answer_reply, note, if_pos hf], ?_⟩
      exact ⟨⟨hslot, hend⟩, rfl, rfl, rfl, rfl, rfl, rfl, fun n hv => by cases hv⟩

theorem seq_ne_pred (a : UInt16) : a - 1 ≠ a := by
  intro h
  have ht := congrArg UInt16.toNat h
  have hlt := a.toNat_lt
  rw [UInt16.toNat_sub, UInt16.toNat_one] at ht
  omega

/-- Once the image is complete, no window is left for a chunk. -/
theorem Anchored.full {n : UInt16} (h : Anchored g) (hfull : g.writeOffset = g.imageSize)
    (hw : g.writeOffset + n.toUInt32 ≤ g.imageSize) : n.toNat = 0 := by
  have hle : (g.writeOffset + n.toUInt32).toNat ≤ g.imageSize.toNat := hw
  have hlo := h.base
  have hin := h.inside
  have hhi : flashHi = 0x08100000 := rfl
  have hn := n.toNat_lt
  rw [← hfull, UInt32.toNat_add, UInt16.toNat_toUInt32] at hle
  omega

theorem data_noted (h : Noted c.mem g s) {f : Frame} (hf : f.type = blDnOtaData) :
    NotedAfter m s f (blHandleData c g f.payload) := by
  have hp : ¬ f.type = blDnOtaPrepare := by
    rw [hf]
    decide
  have hnack : ∀ seq err, note m s f (some (.nack seq err)) = s := by
    intro seq err
    rw [note, if_neg hp]
  have hack : ∀ seq, note m s f (some (.ack seq)) =
      s.map fun t => t.chunk seq (f.payload.length - 8) := by
    intro seq
    rw [note, if_neg hp, if_pos hf]
  rcases blHandleData_cases c g f.payload with
    ⟨r, hr, hdup⟩ | ⟨ha, -, hseq, hn, -, -, hw, c', ok, hwrite, hr⟩
  · rw [hr]
    intro ha
    obtain ⟨t, rfl, ht⟩ := h ha
    refine ⟨t, ?_, ht⟩
    cases r with
    | ack seq =>
      have hne : seq ≠ t.next := by
        rw [(hdup seq rfl).2.2.2, ← ht.next]
        exact seq_ne_pred _
      rw [answer_reply, hack, Option.map_some, Session.chunk, if_neg hne]
    | nack seq err => exact hnack seq err
    | version a b => rfl
  · obtain ⟨t, rfl, ht⟩ := h ha
    have htouch := blFlashWrite_touches c (g.targetBase + g.writeOffset).toNat (f.payload.drop 8)
    have hok := @blFlashWrite_ok c (g.targetBase + g.writeOffset).toNat (f.payload.drop 8)
    rw [hwrite, List.length_drop] at htouch hok
    rw [hr]
    cases ok with
    | false =>
      intro _
      refine ⟨t, hnack _ _, { ht with verified := fun n hv => ?_ }⟩
      obtain ⟨-, hfull, -⟩ := ht.verified n hv
      -- a chunk behind a full image is empty, so the failed write has touched nothing
      have hzero := ht.anchored.full hfull hw
      have hsame : c'.mem = c.mem := by
        funext x
        apply htouch.frame
        omega
      change n = t.received ∧ g.writeOffset = g.imageSize ∧
        blCrc32 (read c'.mem g.targetBase.toNat g.imageSize.toNat) = g.imageCrc32 ∧
        blVectorValidForSlot c'.mem g.targetBase blAppASize = true
      rw [hsame]
      exact ht.verified n hv
    | true =>
      intro _
      obtain ⟨-, hne, -, hend⟩ := hok rfl
      rw [ht.anchored.address, ← hn] at hend
      -- the chunk is inside the slot, so the offset does not wrap
      have hadv := ht.anchored.advance hend
      refine ⟨{ t with next := t.next + 1, received := t.received + (f.payload.length - 8) }, ?_, ?_⟩
      · simp only [if_true, answer_reply]
        rw [hack, Option.map_some, Session.chunk, hseq, if_pos ht.next]
      · refine ⟨⟨ht.anchored.slot, ?_⟩, ht.base, ht.size, ht.crc, ht.version,
          congrArg (· + 1) ht.next, ?_, fun n hv => ?_⟩
        · change g.targetBase.toNat + (g.writeOffset + (read16 f.payload 6).toUInt32).toNat ≤ flashHi
          rw [hadv]
          omega
        · change (g.writeOffset + (read16 f.payload 6).toUInt32).toNat = _
          rw [hadv, ht.received, hn]
        · obtain ⟨-, hfull, -⟩ := ht.verified n hv
          have hzero := ht.anchored.full hfull hw
          rw [hn, ← List.length_drop] at hzero
          exact absurd (List.eq_nil_of_length_eq_zero hzero) hne

theorem verify_noted (h : Noted c.mem g s) {f : Frame} (hf : f.type = blDnOtaVerify) :
    NotedAfter m s f (blHandleVerify c g f.payload) := by
  have hp : ¬ f.type = blDnOtaPrepare := by
    rw [hf]
    decide
  have hd : ¬ f.type = blDnOtaData := by
    rw [hf]
    decide
  rcases blHandleVerify_cases c g f.payload with ⟨seq, err, hr⟩ | ⟨ha, -, -, -, hw, hcrc, hv, hr⟩
  · rw [hr, NotedAfter, answer_reply, note, if_neg hp]
    exact h
  · obtain ⟨t, rfl, ht⟩ := h ha
    rw [hr]
    intro _
    refine ⟨{ t with next := t.next + 1, verified := some t.received }, ?_, ?_⟩
    · rw [answer_reply, note, if_neg hp, if_neg hd, if_pos hf]
      rfl
    · exact ⟨⟨ht.anchored.slot, ht.anchored.inside⟩, ht.base, ht.size, ht.crc, ht.version,
        congrArg (· + 1) ht.next, ht.received, fun n hn => ⟨(Option.some.inj hn).symm, hw, hcrc, hv⟩⟩

theorem commit_noted (h : Noted c.mem g s) {f : Frame} (hf : f.type = blDnOtaCommit)
    (hr : (blHandleCommit c g f.payload m).reset = false) :
    NotedAfter m s f (blHandleCommit c g f.payload m) := by
  have hnack : ∀ seq err, note m s f (some (.nack seq err)) = s := by
    intro seq err
    rw [note, hf]
    rfl
  rcases blHandleCommit_cases c g f.payload m with ⟨seq, err, hc⟩ | ⟨ha, -, -, c', ok, hcm, hc⟩
  · rw [hc, NotedAfter, answer_reply, hnack]
    exact h
  · rw [hc] at hr ⊢
    obtain rfl : ok = false := hr
    obtain ⟨t, rfl, ht⟩ := h ha
    have htouch := blMetadataCommit_touches c (commitNext g m)
    rw [hcm] at htouch
    intro _
    refine ⟨t, hnack _ _, ht.congr fun x hx => ?_⟩
    exact (htouch.frame x (Or.inr hx)).symm

theorem frame_noted (h : Noted c.mem g s) (f : Frame) (hr : (blOtaLoopFrame c g m f).reset = false) :
    NotedAfter m s f (blOtaLoopFrame c g m f) := by
  have hclosed : ∀ fl s, Noted fl blCtxReset s := fun _ _ ha => absurd ha (by decide)
  unfold blOtaLoopFrame at hr ⊢
  by_cases hp : f.type = blDnOtaPrepare
  · rw [if_pos hp]
    exact prepare_noted h hp
  by_cases hd : f.type = blDnOtaData
  · rw [if_neg hp, if_pos hd]
    exact data_noted h hd
  by_cases hv : f.type = blDnOtaVerify
  · rw [if_neg hp, if_neg hd, if_pos hv]
    exact verify_noted h hv
  by_cases hc : f.type = blDnOtaCommit
  · rw [if_neg hp, if_neg hd, if_neg hv, if_pos hc] at hr ⊢
    exact commit_noted h hc hr
  rw [if_neg hp, if_neg hd, if_neg hv, if_neg hc]
  split_ifs
  · exact hclosed _ _
  · exact hclosed _ _
  · exact h
  · exact h

def WellNoted (w : Device × Option Session) : Prop :=
  ∀ g m final, w.1.mode = .loop g m final → Noted w.1.flash g w.2

theorem boot_closed (c : Ctl) (healed : List (OtaMetadata × Mem)) (s : Option Session) :
    WellNoted ((boot c m healed).1, s) := by
  intro g m' final hl
  change exitMode (blMainBoot c m).ram (blMainBoot c m).exit = .loop g m' final at hl
  cases hx : (blMainBoot c m).exit with
  | jump slot pending =>
    rw [hx] at hl
    cases hl
  | stay =>
    rw [hx] at hl
    cases hl
    exact fun ha => absurd ha (by decide)

theorem reset_closed (fl : Mem) (flag : Bool) (s : Option Session) :
    WellNoted ((reset fl flag).1, s) := by
  unfold reset
  rcases blMainLoad (Ctl.start fl none) with ⟨c, m, healed⟩
  cases flag with
  | false => exact boot_closed c (blWritten c healed) s
  | true =>
    intro g m' final hl
    cases hl
    exact fun ha => absurd ha (by decide)

theorem step_noted {w : Device × Option Session} (e : Event) (h : WellNoted w) :
    WellNoted (watched step observe w e).1 := by
  obtain ⟨⟨fl, mode⟩, s⟩ := w
  have hstill : step ⟨fl, mode⟩ e = (⟨fl, mode⟩, silent) → ∀ s', (∀ g m final,
      mode = .loop g m final → s' = s) → WellNoted ((step ⟨fl, mode⟩ e).1, s') := by
    intro hst s' hs g m final hl
    rw [hst] at hl ⊢
    rw [hs g m final hl]
    exact h g m final hl
  cases e with
  | reset flag => exact reset_closed fl flag none
  | frame f life =>
    cases mode with
    | off => exact hstill rfl s fun g m final hl => by cases hl
    | app slot => exact hstill rfl s fun g m final hl => by cases hl
    | loop g m final =>
      intro g' m' final' hl
      have hframe := @frame_noted g m s (Ctl.start fl (frameLife f life)) (h g m final rfl) f
      change (if (blOtaLoopFrame (Ctl.start fl (frameLife f life)) g m f).reset then Mode.off
        else .loop (blOtaLoopFrame (Ctl.start fl (frameLife f life)) g m f).ctx m final) = _ at hl
      cases hr : (blOtaLoopFrame (Ctl.start fl (frameLife f life)) g m f).reset with
      | true =>
        rw [hr, if_pos rfl] at hl
        cases hl
      | false =>
        rw [hr, if_neg (by simp)] at hl
        cases hl
        exact hframe hr
  | idle =>
    cases mode with
    | off => exact hstill rfl s fun g m final hl => by cases hl
    | app slot => exact hstill rfl s fun g m final hl => by cases hl
    | loop g m final =>
      cases final with
      | true => exact hstill rfl s fun _ _ _ _ => rfl
      | false => exact boot_closed (Ctl.start fl none) [] none
  | confirm =>
    cases mode with
    | off => exact hstill rfl s fun g m final hl => by cases hl
    | loop g m final => exact hstill rfl s fun _ _ _ _ => rfl
    | app slot =>
      intro g m final hl
      cases hl

/-- The metadata `next` makes the slot of the session pending, as the session asked for it; and if
the session was verified, the slot holds the whole image. -/
structure Records (t : Session) (next : OtaMetadata) (fl : Mem) : Prop where
  slot : next.pendingSlot = blSlotA ∨ next.pendingSlot = blSlotB
  base : blSlotBase next.pendingSlot = t.base
  state : slotState next next.pendingSlot = imgPending
  asked : t.refused = false → blSlotImageSize next next.pendingSlot = t.size ∧
    blSlotCrc next next.pendingSlot = t.crc ∧ slotVersion next next.pendingSlot = t.version
  whole : ∀ n, t.verified = some n → n = t.received ∧
    t.received = (blSlotImageSize next next.pendingSlot).toNat ∧
      blCrc32 (read fl t.base.toNat (blSlotImageSize next next.pendingSlot).toNat) =
        blSlotCrc next next.pendingSlot

/-- A COMMIT that reaches `bl_metadata_commit` is the next frame of a session, and records it. -/
def CommitFollows (w : Device × Option Session) (e : Event) : Prop :=
  ∀ next, handed w.1 e = some next → ∃ t, w.2 = some t ∧
    (∀ f life, e = .frame f life → f.type = blDnOtaCommit ∧ read16 f.payload 0 = t.next) ∧
    Records t next (step w.1 e).1.flash

theorem Follows.records (h : Follows fl g t) (m : OtaMetadata) : Records t (commitNext g m) fl := by
  refine ⟨?_, ?_, ?_, fun _ => ?_, fun n hv => ?_⟩
  · rw [commitNext_pending]
    exact commitSlot_cases g
  · rw [commitNext_pending, commitSlot_base h.anchored.slot, h.base]
  · rw [commitNext_pending]
    exact commitNext_state g m
  · rw [commitNext_pending, commitNext_size, commitNext_crc, commitNext_version]
    exact ⟨h.size, h.crc, h.version⟩
  · obtain ⟨hn, hw, hcrc, -⟩ := h.verified n hv
    rw [commitNext_pending, commitNext_size, commitNext_crc, ← h.base, ← h.received, hw]
    exact ⟨by rw [hn, ← h.received, hw], rfl, hcrc⟩

/-- Only a COMMIT hands metadata over, and only the next frame of an open session. -/
theorem frame_committed {f : Frame} {next : OtaMetadata}
    (h : (blOtaLoopFrame c g m f).committed = some next) :
    f.type = blDnOtaCommit ∧ g.active = true ∧ read16 f.payload 0 = g.expectedSeq ∧
      next = commitNext g m ∧
      (blOtaLoopFrame c g m f).ctl = (blMetadataCommit c (commitNext g m)).1 := by
  by_cases hf : f.type = blDnOtaCommit
  · rw [loopFrame_commit hf] at h ⊢
    rcases blHandleCommit_cases c g f.payload m with ⟨seq, err, hr⟩ | ⟨ha, -, hs, c', ok, hc, hr⟩
    · rw [hr] at h
      cases h
    · rw [hr] at h ⊢
      rw [hc]
      exact ⟨hf, ha, hs, (Option.some.inj h).symm, rfl⟩
  · have hprep := blHandlePrepare_cases c g f.payload m
    have hno : (blOtaLoopFrame c g m f).committed = none := by
      unfold blOtaLoopFrame
      split_ifs
      · rcases hprep with ⟨-, hr⟩ | ⟨-, err, -, hr⟩ | ⟨-, -, c', ok, -, hr⟩
        · rw [hr, answer_committed]
        · rw [hr, answer_committed]
        · rw [hr]
          cases ok <;> rfl
      · rcases blHandleData_cases c g f.payload with ⟨r, hr, -⟩ | ⟨-, -, -, -, -, -, -, c', ok, -, hr⟩
        · rw [hr, answer_committed]
        · rw [hr]
          cases ok <;> rfl
      · rcases blHandleVerify_cases c g f.payload with ⟨seq, err, hr⟩ | ⟨-, -, -, -, -, -, -, hr⟩
        · rw [hr, answer_committed]
        · rw [hr, answer_committed]
      all_goals rfl
    rw [hno] at h
    cases h

theorem step_commitFollows {w : Device × Option Session} (e : Event) (h : WellNoted w) :
    CommitFollows w e := by
  obtain ⟨⟨fl, mode⟩, s⟩ := w
  intro next hn
  cases e with
  | frame f life =>
    cases mode with
    | loop g m final =>
      have hn' : (blOtaLoopFrame (Ctl.start fl (frameLife f life)) g m f).committed = some next := hn
      obtain ⟨hf, ha, hs, rfl, hctl⟩ := frame_committed hn'
      obtain ⟨t, ht, hfol⟩ := h g m final rfl ha
      have htouch := blMetadataCommit_touches (Ctl.start fl (frameLife f life)) (commitNext g m)
      refine ⟨t, ht, fun f' life' he => ?_, ?_⟩
      · cases he
        exact ⟨hf, hs.trans hfol.next⟩
      · have hflash : (step ⟨fl, .loop g m final⟩ (.frame f life)).1.flash =
            (blOtaLoopFrame (Ctl.start fl (frameLife f life)) g m f).ctl.mem := rfl
        rw [hflash, hctl]
        exact (hfol.congr fun x hx => (htouch.frame x (Or.inr hx)).symm).records m
    | off => cases hn
    | app slot => cases hn
  | reset flag => cases hn
  | idle => cases hn
  | confirm => cases hn

/-- Over every run, metadata that a COMMIT writes records the session of the last acknowledged
PREPARE, with the COMMIT as its next frame; and the whole, checked image is there if the session
was verified. -/
theorem commit_follows_session (fl : Mem) (es : List Event) :
    Always (watched step observe) CommitFollows (⟨fl, .off⟩, none) es := by
  have hstart : WellNoted (⟨fl, .off⟩, none) := fun g m final hl => by cases hl
  apply Always.of_invariant (C := fun _ _ => True) _ hstart
  · exact Always.of_forall _ (fun _ _ _ => trivial) _
  · exact fun w e hw _ => ⟨step_noted e hw, step_commitFollows e hw⟩

/-- The stronger law, that only what was verified is committed. -/
def CommitVerified (w : Device × Option Session) (e : Event) : Prop :=
  ∀ next, handed w.1 e = some next → ∃ t n, w.2 = some t ∧ t.verified = some n ∧
    n = t.received ∧ t.received = (blSlotImageSize next next.pendingSlot).toNat ∧
    blCrc32 (read (step w.1 e).1.flash t.base.toNat
      (blSlotImageSize next next.pendingSlot).toNat) = blSlotCrc next next.pendingSlot

/-- A COMMIT right behind the PREPARE. -/
def hasty : List Event :=
  [.reset true, .frame (prepareFrame 1 8 0 8) none, .frame (commitFrame 2) none]

theorem handed_commit {seq : UInt16} (fl : Mem) (final : Bool) (ha : g.active = true)
    (hs : g.expectedSeq = seq) :
    handed ⟨fl, .loop g m final⟩ (.frame (commitFrame seq) none) = some (commitNext g m) := by
  have hread : read16 (commitFrame seq).payload 0 = seq := read16_head seq []
  have hnext := @blHandleCommit_next (Ctl.start fl none) g (commitFrame seq).payload m ha
    le_rfl (hread.trans hs.symm)
  have hlife : frameLife (commitFrame seq) none = none := rfl
  dsimp only [handed]
  rw [hlife, loopFrame_commit rfl, hnext]
  rcases blMetadataCommit (Ctl.start fl none) (commitNext g m) with ⟨c', _ | _⟩
  · rfl
  · rfl

theorem hasty_unverified : ¬ Always (watched step observe) CommitVerified
    (⟨recordFlash blMetadataDefault, .off⟩, none) hasty := by
  have hin : InForce (recordFlash blMetadataDefault) _ blMetadataDefault :=
    recordFlash_inForce default_valid
  let f := prepareFrame 1 8 0 8
  let g := prepareCtx f.payload blAppBBase
  have hreset : step ⟨recordFlash blMetadataDefault, .off⟩ (.reset true) =
      (⟨recordFlash blMetadataDefault, .loop blCtxReset blMetadataDefault false⟩, silent) :=
    hin.reset true
  have hnone : prepareError blMetadataDefault (prepareFields blCtxReset f.payload)
      (prepareTarget blMetadataDefault f.payload) = none := by decide
  obtain ⟨hopen, hack⟩ := receive_prepare_blank false rfl (by decide) hnone
    (recordFlash_blank blMetadataDefault blSlotB)
  generalize recordFlash blMetadataDefault = fl at hin hreset hopen hack ⊢
  have hwatch : (watched step observe (⟨fl, .loop blCtxReset blMetadataDefault false⟩, none)
      (.frame f none)).1 =
        (⟨fl, .loop g blMetadataDefault false⟩, some (Session.opened blMetadataDefault f.payload)) := by
    apply Prod.ext hopen
    change note blMetadataDefault none f
      (receive fl blCtxReset blMetadataDefault false f none).2.reply = _
    rw [hack]
    rfl
  have hhand : handed ⟨fl, .loop g blMetadataDefault false⟩ (.frame (commitFrame 2) none) =
      some (commitNext g blMetadataDefault) := handed_commit fl false rfl (by decide)
  intro h
  have hlast := h.2.2.1
  have hfirst : (watched step observe (⟨fl, .off⟩, none) (.reset true)).1 =
      (⟨fl, .loop blCtxReset blMetadataDefault false⟩, none) := by
    rw [watched_fst, hreset]
    rfl
  rw [hfirst, hwatch] at hlast
  obtain ⟨t, n, ht, hv, -⟩ := hlast _ hhand
  cases ht
  cases hv

end EdgeLink.Bootloader
