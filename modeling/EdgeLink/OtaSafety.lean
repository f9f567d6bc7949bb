import EdgeLink.SessionFrames
import EdgeLink.SlotPolicy

namespace EdgeLink.Bootloader
open LittleEndian Nor Machine App

/-- A session that can only write to the idle slot. -/
structure SessionOk (g : BlOtaCtx) (m : OtaMetadata) : Prop where
  target : g.targetBase = blPickTargetSlot m
  size : g.imageSize ≤ blAppASize
  offset : g.writeOffset ≤ blAppASize

/-- A handler that stays inside the idle slot and keeps the session so. -/
structure Contained (c : Ctl) (m : OtaMetadata) (h : Handled) : Prop where
  touches : c.Touches (blPickTargetSlot m).toNat
    ((blPickTargetSlot m).toNat + blAppASize.toNat) h.ctl
  session : h.ctx.active = true → SessionOk h.ctx m
  stays : h.reset = false

theorem contained_answer {g : BlOtaCtx} {m : OtaMetadata} (c : Ctl) (r : Reply)
    (hg : g.active = true → SessionOk g m) : Contained c m (answer c g r) :=
  ⟨Ctl.Touches.refl _ _ _, hg, rfl⟩

theorem pickTarget_bounds (m : OtaMetadata) :
    (blPickTargetSlot m).toNat = 0x08020000 ∨ (blPickTargetSlot m).toNat = 0x08080000 := by
  rw [← idleSlot_base]
  exact slotBase_cases _

section Handlers

variable {c : Ctl} {g : BlOtaCtx} {m : OtaMetadata} {payload : Bytes}

/-- The fields that a refused PREPARE leaves behind are harmless as long as the size is. -/
theorem sessionOk_fields (hg : g.active = true → SessionOk g m)
    (hc : g.active = true → read32 payload 2 ≤ blAppASize) :
    (prepareFields g payload).active = true → SessionOk (prepareFields g payload) m := by
  intro ha
  have h := hg ha
  exact ⟨h.target, hc ha, h.offset⟩

theorem prepare_contained (hm : Settled m) (hg : g.active = true → SessionOk g m)
    (hc : g.active = true → 12 ≤ payload.length → read32 payload 2 ≤ blAppASize) :
    Contained c m (blHandlePrepare c g payload m) := by
  rcases blHandlePrepare_cases c g payload m with ⟨-, h⟩ | ⟨hl, err, -, h⟩ | ⟨hl, he, c', ok, hf, h⟩
  · rw [h]
    exact contained_answer c _ hg
  · rw [h]
    exact contained_answer c _ (sessionOk_fields hg fun ha => hc ha hl)
  · obtain ⟨-, hsz, -, -, hallow, -⟩ := prepareError_none he
    have ht := targetAllowed_eq hm hallow
    have htouch := blFlashEraseSlot_touches c (prepareTarget m payload)
    rw [hf, ht] at htouch
    rw [h]
    cases ok with
    | false => exact ⟨htouch, sessionOk_fields hg fun ha => hc ha hl, rfl⟩
    | true => exact ⟨htouch, fun _ => ⟨ht, hsz, Nat.zero_le _⟩, rfl⟩

/-- The window of an accepted chunk: no 32-bit sum wraps. -/
theorem chunk_window (h : SessionOk g m) (hl : payload.length ≤ 254)
    (hn : (read16 payload 6).toNat = payload.length - 8)
    (hw : g.writeOffset + (read16 payload 6).toUInt32 ≤ g.imageSize) :
    (g.targetBase + g.writeOffset).toNat = (blPickTargetSlot m).toNat + g.writeOffset.toNat ∧
      (g.writeOffset + (read16 payload 6).toUInt32).toNat =
        g.writeOffset.toNat + (payload.length - 8) ∧
      g.writeOffset.toNat + (payload.length - 8) ≤ blAppASize.toNat := by
  have hA : blAppASize.toNat = 393216 := by decide
  have ho : g.writeOffset.toNat ≤ blAppASize.toNat := h.offset
  have hs : g.imageSize.toNat ≤ blAppASize.toNat := h.size
  have hb := pickTarget_bounds m
  have hsum : (g.writeOffset + (read16 payload 6).toUInt32).toNat =
      g.writeOffset.toNat + (payload.length - 8) := by
    rw [UInt32.toNat_add, UInt16.toNat_toUInt32, hn]
    omega
  refine ⟨?_, hsum, ?_⟩
  · rw [UInt32.toNat_add, h.target]
    omega
  · have hle : (g.writeOffset + (read16 payload 6).toUInt32).toNat ≤ g.imageSize.toNat := hw
    omega

theorem data_contained (hl : payload.length ≤ 254) (hg : g.active = true → SessionOk g m) :
    Contained c m (blHandleData c g payload) := by
  rcases blHandleData_cases c g payload with
    ⟨r, h, -⟩ | ⟨ha, -, -, hn, -, -, hw, c', ok, hf, h⟩
  · rw [h]
    exact contained_answer c r hg
  · have hs := hg ha
    obtain ⟨haddr, hsum, hend⟩ := chunk_window hs hl hn hw
    have htouch := blFlashWrite_touches c (g.targetBase + g.writeOffset).toNat (payload.drop 8)
    rw [hf, haddr, List.length_drop] at htouch
    have hin : c.Touches (blPickTargetSlot m).toNat
        ((blPickTargetSlot m).toNat + blAppASize.toNat) c' := htouch.mono (by omega) (by omega)
    rw [h]
    cases ok with
    | false => exact ⟨hin, hg, rfl⟩
    | true => exact ⟨hin, fun _ => ⟨hs.target, hs.size, UInt32.le_trans hw hs.size⟩, rfl⟩

theorem verify_contained (hg : g.active = true → SessionOk g m) :
    Contained c m (blHandleVerify c g payload) := by
  rcases blHandleVerify_cases c g payload with ⟨seq, err, h⟩ | ⟨-, -, -, -, -, -, -, h⟩
  · rw [h]
    exact contained_answer c _ hg
  · rw [h]
    exact contained_answer c _ fun ha => ⟨(hg ha).target, (hg ha).size, (hg ha).offset⟩

end Handlers

/-- Every frame but COMMIT stays inside the idle slot. -/
theorem frame_contained {c : Ctl} {g : BlOtaCtx} {m : OtaMetadata} {f : Frame} (hm : Settled m)
    (hg : g.active = true → SessionOk g m) (hf : f.type ≠ blDnOtaCommit)
    (hc : g.active = true → f.type = blDnOtaPrepare → 12 ≤ f.payload.length →
      read32 f.payload 2 ≤ blAppASize) :
    Contained c m (blOtaLoopFrame c g m f) := by
  have hr : blCtxReset.active = true → SessionOk blCtxReset m := fun ha => absurd ha (by decide)
  unfold blOtaLoopFrame
  split_ifs with hp
  · exact prepare_contained hm hg fun ha => hc ha hp
  · exact data_contained f.short hg
  · exact verify_contained hg
  · exact contained_answer c _ hr
  · exact contained_answer c _ hr
  · exact contained_answer c _ hg
  · exact ⟨Ctl.Touches.refl _ _ _, hg, rfl⟩

def ModeOk (v : Prop) (fl : Mem) (cur : OtaMetadata) : Mode → Prop
  | .off => True
  | .app slot => (slot = blSlotA ∨ slot = blSlotB) ∧ (v → blSlotImageValid fl cur slot = true)
  | .loop g m _ => Kept cur m ∧ Settled m ∧ (g.active = true → SessionOk g m)

structure Guarded (v : Prop) (cur : OtaMetadata) (d : Device) : Prop where
  settled : Settled cur
  image : v → blSlotImageValid d.flash cur cur.activeSlot = true
  mode : ModeOk v d.flash cur d.mode

def Safe (v : Prop) (d : Device) : Prop :=
  ∃ slots cur, InForce d.flash slots cur ∧ Guarded v cur d

/-- Every erase of PREPARE and every program of DATA lies in the slot that is neither active nor
confirmed. -/
def TouchesIdle (d : Device) (e : Event) : Prop :=
  let m := blMetadataLoadOrDefault d.flash
  ∃ slot, (slot = blSlotA ∨ slot = blSlotB) ∧ slot ≠ m.activeSlot ∧ slot ≠ m.confirmedSlot ∧
    ∀ op ∈ (step d e).2.slotOps,
      op.Inside (blSlotBase slot).toNat ((blSlotBase slot).toNat + blAppASize.toNat)

/-- If the step boots, it jumps to a slot that is valid under the metadata then in force. -/
def BootsValid (d : Device) (e : Event) : Prop :=
  ∀ exit, (step d e).2.boot = some exit → ∃ slot pending, exit = .jump slot pending ∧
    (slot = blSlotA ∨ slot = blSlotB) ∧
    blSlotImageValid (step d e).1.flash (blMetadataLoadOrDefault (step d e).1.flash) slot = true

/-- A PREPARE that arrives in an open session does not ask for more than a slot holds. -/
def PrepareFits (d : Device) : Event → Prop
  | .frame f _ =>
    match d.mode with
    | .loop g _ _ => g.active = true → f.type = blDnOtaPrepare → 12 ≤ f.payload.length →
        read32 f.payload 2 ≤ blAppASize
    | _ => True
  | _ => True

section Steps

variable {v : Prop} {fl : Mem} {slots : List Bytes} {cur m : OtaMetadata}

/-- The verdict on an image survives a commit of bookkeeping. -/
theorem valid_after_commit (h : InForce fl slots cur) (hk : Kept cur m) {m₁ m₂ : OtaMetadata}
    (hsame : SameImages m₁ m₂) (slot : UInt8) :
    blSlotImageValid fl m₁ slot =
      blSlotImageValid (blMetadataCommit (Ctl.start fl none) m).1.mem m₂ slot :=
  hsame.valid slot (commit_slots h.shaped (hk.tagged h.tagged) slot)

/-- Where the end of `main` leads. -/
theorem fallback_mode (hk : Kept cur m) (hm : Settled m) :
    ModeOk v fl cur (exitMode m (blMainFallback fl m)) ∧
      (blSlotImageValid fl cur cur.activeSlot = true → ∃ slot pending,
        blMainFallback fl m = .jump slot pending ∧ (slot = blSlotA ∨ slot = blSlotB) ∧
          blSlotImageValid fl cur slot = true) := by
  have hval : ∀ slot, blSlotImageValid fl m slot = blSlotImageValid fl cur slot :=
    fun slot => hk.toSameImages.symm.valid slot fun _ _ _ => rfl
  rcases fallback_cases fl m with ⟨slot, hx, hs, hok⟩ | ⟨hx, hno⟩
  · rw [hval] at hok
    rw [hx]
    exact ⟨⟨hs, fun _ => hok⟩, fun _ => ⟨slot, false, rfl, hs, hok⟩⟩
  · rw [hx]
    refine ⟨⟨hk, hm, fun ha => absurd ha (by decide)⟩, fun hok => ?_⟩
    rw [hval, hk.active] at hno
    exact absurd ⟨hk.active ▸ hm.slot, hok⟩ hno

/-- What `main` does from the pending-slot branch on. -/
theorem boot_safe (healed : List (OtaMetadata × Mem)) (h : InForce fl slots cur)
    (hs : Settled cur) (hv : v → blSlotImageValid fl cur cur.activeSlot = true) (hk : Kept cur m)
    (hm : Settled m) :
    let r := boot (Ctl.start fl none) m healed
    Safe v r.1 ∧ (v → ∃ slot pending, r.2.boot = some (.jump slot pending) ∧
      (slot = blSlotA ∨ slot = blSlotB) ∧
      blSlotImageValid r.1.flash (blMetadataLoadOrDefault r.1.flash) slot = true) := by
  dsimp only [boot]
  rcases mainBoot_cases (Ctl.start fl none) m with ⟨-, hb⟩ | ⟨hp, -, hb⟩ | ⟨hp, hok, -, hb⟩
  · rw [hb]
    obtain ⟨hmode, hjump⟩ := @fallback_mode v fl cur m hk hm
    refine ⟨⟨slots, cur, h, hs, hv, hmode⟩, fun hv' => ?_⟩
    obtain ⟨slot, pending, hx, hsl, hval⟩ := hjump (hv hv')
    exact ⟨slot, pending, congrArg some hx, hsl, h.load.symm ▸ hval⟩
  · rw [hb]
    have hk' := hk.trans (kept_rollback m)
    have hm' := settled_rollback hm hp
    obtain ⟨slots', cur', hf, hkc, hkr, hset⟩ := h.commit_kept hk'
    have hs' := hset hs hm'
    have hv' : v → blSlotImageValid (blMetadataCommit (Ctl.start fl none) (rollback m)).1.mem cur'
        cur'.activeSlot = true := by
      intro hv'
      rw [hkc.active, ← valid_after_commit h hk' hkc.toSameImages]
      exact hv hv'
    obtain ⟨hmode, hjump⟩ := @fallback_mode v _ cur' (rollback m) hkr hm'
    refine ⟨⟨slots', cur', hf, hs', hv', hmode⟩, fun hw => ?_⟩
    obtain ⟨slot, pending, hx, hsl, hval⟩ := hjump (hv' hw)
    exact ⟨slot, pending, congrArg some hx, hsl, hf.load.symm ▸ hval⟩
  · rw [hb]
    have hk' := hk.trans (kept_attempt m)
    obtain ⟨slots', cur', hf, hkc, hkr, hset⟩ := h.commit_kept hk'
    have hs' := hset hs (settled_attempt hm)
    have hv' : v → blSlotImageValid (blMetadataCommit (Ctl.start fl none) (attempt m)).1.mem cur'
        cur'.activeSlot = true := by
      intro hv'
      rw [hkc.active, ← valid_after_commit h hk' hkc.toSameImages]
      exact hv hv'
    have hpend : blSlotImageValid (blMetadataCommit (Ctl.start fl none) (attempt m)).1.mem cur'
        m.pendingSlot = true := by
      rw [← valid_after_commit h hk' (hk.toSameImages.symm.trans hkc.toSameImages)]
      exact hok
    exact ⟨⟨slots', cur', hf, hs', hv', hp, fun _ => hpend⟩,
      fun _ => ⟨m.pendingSlot, true, rfl, hp, hf.load.symm ▸ hpend⟩⟩

/-- The idle slot is disjoint from the metadata sector and from the active slot. -/
theorem touches_idle {c c' : Ctl} (hm : Settled m)
    (h : c.Touches (blPickTargetSlot m).toNat
      ((blPickTargetSlot m).toNat + blAppASize.toNat) c') :
    AgreeOn c.mem c'.mem blMetadataBase.toNat blMetadataSize ∧
      AgreeOn c.mem c'.mem (blSlotBase m.activeSlot).toNat blAppASize.toNat := by
  have hidle := slot_disjoint (idleSlot m)
  rw [idleSlot_base] at hidle
  refine ⟨h.agreeOn (Or.inl hidle), h.agreeOn ?_⟩
  rw [← idleSlot_base]
  unfold idleSlot
  rcases hm.slot with ha | ha <;> rw [ha] <;> decide

theorem receive_safe {g : BlOtaCtx} {f : Frame} (final : Bool) (life : Option ℕ)
    (h : InForce fl slots cur) (hs : Settled cur)
    (hv : v → blSlotImageValid fl cur cur.activeSlot = true) (hk : Kept cur m) (hm : Settled m)
    (hg : g.active = true → SessionOk g m)
    (hc : g.active = true → f.type = blDnOtaPrepare → 12 ≤ f.payload.length →
      read32 f.payload 2 ≤ blAppASize) :
    let r := receive fl g m final f life
    Safe v r.1 ∧ ∀ op ∈ r.2.slotOps, op.Inside (blPickTargetSlot m).toNat
      ((blPickTargetSlot m).toNat + blAppASize.toNat) := by
  by_cases hf : f.type = blDnOtaCommit
  · rcases receive_commit final life h.shaped (hk.tagged h.tagged) hf with
      ⟨seq, err, hr⟩ | ⟨ha, -, fl', hfl', hr⟩
    · rw [hr]
      exact ⟨⟨slots, cur, h, hs, hv, hk, hm, hg⟩, by simp⟩
    · have htag : WellTagged (commitNext g m) := commitNext_tagged (hk.tagged h.tagged)
      have hsl := commit_slots h.shaped htag cur.activeSlot
      obtain ⟨cur', hfl, hcur⟩ := h.commit htag
      rw [← hfl'] at hsl hfl
      rw [hr]
      have ht := (hg ha).target
      have hne : commitSlot g ≠ cur.activeSlot := by
        rw [commitSlot_idle ht, ← hk.active]
        exact idleSlot_ne hm
      obtain ⟨-, -, hsz, hcrc⟩ := @commitNext_other g m cur.activeSlot hs.slot hne
      have hact := (commitNext_active g m).1
      -- the record of the active image is the old one in either case
      have hkeep : cur'.activeSlot = cur.activeSlot ∧
          blSlotImageSize cur' cur.activeSlot = blSlotImageSize cur cur.activeSlot ∧
          blSlotCrc cur' cur.activeSlot = blSlotCrc cur cur.activeSlot ∧ Settled cur' := by
        rcases hcur with hcur | hcur
        · have hw := kept_commitWork (commitNext g m)
          have hsame := hk.toSameImages.symm
          rw [hcur]
          refine ⟨hw.active.trans (hact.trans hk.active), ?_, ?_,
            settled_commitWork (settled_commitNext hm ht)⟩
          · rw [← hw.toSameImages.size, hsz, hsame.size]
          · rw [← hw.toSameImages.crc, hcrc, hsame.crc]
        · rw [hcur]
          exact ⟨rfl, rfl, rfl, hs⟩
      refine ⟨⟨_, cur', hfl, hkeep.2.2.2, fun hv' => ?_, trivial⟩, by simp⟩
      rw [hkeep.1, ← slotImageValid_congr hsl hkeep.2.1.symm hkeep.2.2.1.symm]
      exact hv hv'
  · obtain ⟨ht, hses, hstay⟩ :=
      @frame_contained (Ctl.start fl (frameLife f life)) g m f hm hg hf hc
    obtain ⟨hmeta, hact⟩ := touches_idle hm ht
    rw [hk.active] at hact
    dsimp only [receive]
    rw [hstay]
    refine ⟨⟨slots, cur, h.congr hmeta, hs, fun hv' => ?_, hk, hm, hses⟩, ?_⟩
    · rw [← (SameImages.refl cur).valid cur.activeSlot hact]
      exact hv hv'
    · intro op hop
      split_ifs at hop
      · exact ht.of_start op hop
      · exact absurd hop (by simp)

theorem confirm_safe {slot : UInt8} (h : InForce fl slots cur) (hs : Settled cur)
    (hv : v → blSlotImageValid fl cur cur.activeSlot = true)
    (hsl : slot = blSlotA ∨ slot = blSlotB) (happ : v → blSlotImageValid fl cur slot = true) :
    Safe v (confirm fl slot).1 := by
  rcases h.confirm slot with hc | ⟨hp, -, hc⟩
  · rw [hc]
    exact ⟨slots, cur, h, hs, hv, hsl, happ⟩
  · rw [currentSlot_base hsl] at hp hc
    rw [hc]
    have htag : WellTagged (confirmNext cur slot) := confirmNext_tagged h.tagged
    have hagree := otaCommit_slots h.shaped htag slot
    obtain ⟨cur', hfl, hcur⟩ := h.otaCommit htag
    have hsame : SameImages cur cur' := by
      rcases hcur with hcur | hcur
      · have hn := confirmNext_same cur slot
        rw [hcur]
        exact ⟨hn.sizeA, hn.crcA, hn.sizeB, hn.crcB⟩
      · rw [hcur]
        exact SameImages.refl cur
    have hval : v → blSlotImageValid (otaMetaCommit (Ctl.start fl none)
        (confirmNext cur slot)).1.mem cur' slot = true := by
      intro hv'
      rw [← hsame.valid slot hagree]
      exact happ hv'
    refine ⟨_, cur', hfl, ?_, fun hv' => ?_, hsl, hval⟩
    · rcases hcur with hcur | hcur
      · rw [hcur]
        exact settled_updateCrc (settled_confirmNext hsl)
      · exact hcur ▸ hs
    · rcases hcur with hcur | hcur
      · have hact : cur'.activeSlot = slot := by
          rw [hcur]
          exact confirmNext_active cur slot
        rw [hact]
        exact hval hv'
      · rw [hcur, ← (SameImages.refl cur).valid _
          (otaCommit_slots h.shaped htag cur.activeSlot)]
        exact hv hv'

end Steps

/-- Nothing but a frame touches a slot. -/
theorem touchesIdle_nil {d : Device} {e : Event} {slots : List Bytes} {cur : OtaMetadata}
    (h : InForce d.flash slots cur) (hs : Settled cur) (ho : (step d e).2.slotOps = []) :
    TouchesIdle d e := by
  dsimp only [TouchesIdle]
  rw [h.load, ho]
  exact ⟨idleSlot cur, idleSlot_cases cur, idleSlot_ne hs, hs.confirmed ▸ idleSlot_ne hs, by simp⟩

theorem step_safe {v : Prop} {d : Device} {e : Event} (hd : Safe v d) (hc : PrepareFits d e) :
    Safe v (step d e).1 ∧ TouchesIdle d e ∧ (v → BootsValid d e) := by
  obtain ⟨fl, mode⟩ := d
  obtain ⟨slots, cur, h, hs, hv, hmode⟩ := hd
  dsimp only at h hv hmode
  have hquiet : ∀ r : Device × Output, step ⟨fl, mode⟩ e = r → r.2.boot = none →
      v → BootsValid ⟨fl, mode⟩ e := by
    intro r hr hb _ exit hx
    rw [hr, hb] at hx
    cases hx
  -- a reset without the pin and the end of the wait both lead to the boot
  have hbooted : ∀ m, Kept cur m → Settled m →
      step ⟨fl, mode⟩ e = boot (Ctl.start fl none) m [] →
      Safe v (step ⟨fl, mode⟩ e).1 ∧ TouchesIdle ⟨fl, mode⟩ e ∧ (v → BootsValid ⟨fl, mode⟩ e) := by
    intro m hk hm hb
    obtain ⟨hsafe, hjump⟩ := boot_safe [] h hs hv hk hm
    refine ⟨hb ▸ hsafe, touchesIdle_nil h hs (by rw [hb]; rfl), fun hv' exit hx => ?_⟩
    obtain ⟨slot, pending, hj, hrest⟩ := hjump hv'
    rw [hb] at hx ⊢
    exact ⟨slot, pending, Option.some.inj (hx.symm.trans hj), hrest⟩
  have hstill : step ⟨fl, mode⟩ e = (⟨fl, mode⟩, silent) →
      Safe v (step ⟨fl, mode⟩ e).1 ∧ TouchesIdle ⟨fl, mode⟩ e ∧ (v → BootsValid ⟨fl, mode⟩ e) := by
    intro hst
    exact ⟨hst ▸ ⟨slots, cur, h, hs, hv, hmode⟩, touchesIdle_nil h hs (by rw [hst]; rfl),
      hquiet _ hst rfl⟩
  cases e with
  | reset flag =>
    cases flag with
    | false => exact hbooted cur (Kept.refl cur) hs (h.reset false)
    | true =>
      have hr : step ⟨fl, mode⟩ (.reset true) = (⟨fl, .loop blCtxReset cur false⟩, silent) :=
        h.reset true
      refine ⟨?_, touchesIdle_nil h hs (by rw [hr]; rfl), hquiet _ hr rfl⟩
      rw [hr]
      exact ⟨slots, cur, h, hs, hv, Kept.refl cur, hs, fun ha => absurd ha (by decide)⟩
  | frame f life =>
    cases mode with
    | off => exact hstill rfl
    | app slot => exact hstill rfl
    | loop g m final =>
      obtain ⟨hk, hm, hg⟩ := hmode
      obtain ⟨hsafe, hops⟩ := receive_safe final life h hs hv hk hm hg hc
      refine ⟨hsafe, ?_, hquiet _ rfl rfl⟩
      dsimp only [TouchesIdle]
      rw [h.load]
      refine ⟨idleSlot m, idleSlot_cases m, hk.active ▸ idleSlot_ne hm, ?_, ?_⟩
      · rw [hs.confirmed, ← hk.active]
        exact idleSlot_ne hm
      · rw [idleSlot_base]
        exact hops
  | idle =>
    cases mode with
    | off => exact hstill rfl
    | app slot => exact hstill rfl
    | loop g m final =>
      cases final with
      | true => exact hstill rfl
      | false => exact hbooted m hmode.1 hmode.2.1 rfl
  | confirm =>
    cases mode with
    | off => exact hstill rfl
    | loop g m final => exact hstill rfl
    | app slot =>
      exact ⟨confirm_safe h hs hv hmode.1 hmode.2, touchesIdle_nil h hs rfl, hquiet _ rfl rfl⟩

/-- While no PREPARE of an open session asks for more than a slot holds, frames only ever touch
the slot that is neither active nor confirmed. -/
theorem frames_touch_idle_slot {fl : Mem} {slots : List Bytes} {cur : OtaMetadata}
    (h : InForce fl slots cur) (hs : Settled cur) (es : List Event)
    (hc : Always step PrepareFits ⟨fl, .off⟩ es) : Always step TouchesIdle ⟨fl, .off⟩ es := by
  have hstart : Safe False ⟨fl, .off⟩ := ⟨slots, cur, h, hs, False.elim, trivial⟩
  refine Always.of_invariant (fun d e hd hf => ?_) hstart hc
  obtain ⟨hsafe, ht, -⟩ := step_safe hd hf
  exact ⟨hsafe, ht⟩

/-- Under the same condition every boot ends in a valid image. -/
theorem boots_valid_image {fl : Mem} {slots : List Bytes} {cur : OtaMetadata}
    (h : InForce fl slots cur) (hs : Settled cur)
    (hv : blSlotImageValid fl cur cur.activeSlot = true) (es : List Event)
    (hc : Always step PrepareFits ⟨fl, .off⟩ es) : Always step BootsValid ⟨fl, .off⟩ es := by
  have hstart : Safe True ⟨fl, .off⟩ := ⟨slots, cur, h, hs, fun _ => hv, trivial⟩
  refine Always.of_invariant (fun d e hd hf => ?_) hstart hc
  obtain ⟨hsafe, -, hb⟩ := step_safe hd hf
  exact ⟨hsafe, hb trivial⟩

def shipped : OtaMetadata :=
  blMetadataUpdateCrc { blMetadataDefault with
    activeSlot := blSlotB, confirmedSlot := blSlotB, appBState := imgValid,
    appBSize := 8, appBCrc32 := blCrc32 imageB }

def shippedFlash : Mem := boardFlash shipped

theorem shipped_inForce : InForce shippedFlash [encode shipped] shipped := by
  apply boardFlash_inForce
  rw [shipped, validate_updateCrc]
  rfl

theorem shipped_settled : Settled shipped :=
  ⟨Or.inr rfl, rfl, by decide, Or.inl rfl⟩

theorem shipped_valid : blSlotImageValid shippedFlash shipped shipped.activeSlot = true := by
  decide +kernel

def erasedChunk : Bytes := List.replicate 192 0xFF

theorem erasedChunk_length : erasedChunk.length = 192 := List.length_replicate

/-- A session that has filled the first `192 * k` bytes of slot A with erased bytes. -/
def filled (k : ℕ) : BlOtaCtx :=
  ⟨true, UInt16.ofNat (k + 2), blAppABase, blAppASize, 0, 192, 0, UInt32.ofNat (192 * k)⟩

def fillFrame (k : ℕ) : Frame :=
  dataFrame (UInt16.ofNat (k + 2)) (UInt32.ofNat (192 * k)) erasedChunk
    (by rw [erasedChunk_length]; omega)

theorem filled_succ (k : ℕ) :
    { filled k with
      writeOffset := (filled k).writeOffset + (UInt16.ofNat erasedChunk.length).toUInt32
      expectedSeq := (filled k).expectedSeq + 1 } = filled (k + 1) := by
  have hseq : UInt16.ofNat (k + 2) + 1 = UInt16.ofNat (k + 1 + 2) := by
    apply UInt16.toNat.inj
    rw [UInt16.toNat_add, UInt16.toNat_ofNat', UInt16.toNat_ofNat', UInt16.toNat_one]
    omega
  have hoff : UInt32.ofNat (192 * k) + (UInt16.ofNat 192).toUInt32 = UInt32.ofNat (192 * (k + 1)) := by
    apply UInt32.toNat.inj
    rw [UInt32.toNat_add, UInt32.toNat_ofNat', UInt32.toNat_ofNat', UInt16.toNat_toUInt32,
      UInt16.toNat_ofNat']
    omega
  rw [erasedChunk_length]
  simp only [filled, hseq, hoff]

theorem fill_chunk {fl : Mem} {m : OtaMetadata} {k : ℕ} (hk : k < 2048)
    (hb : Blank fl blAppABase.toNat blAppASize.toNat) :
    (step ⟨fl, .loop (filled k) m false⟩ (.frame (fillFrame k) none)).1 =
      ⟨fl, .loop (filled (k + 1)) m false⟩ := by
  have hA : blAppABase.toNat = 0x08020000 := by decide
  have hS : blAppASize.toNat = 393216 := by decide
  have hoff : (UInt32.ofNat (192 * k)).toNat = 192 * k := by
    rw [UInt32.toNat_ofNat']
    omega
  have haddr : ((filled k).targetBase + (filled k).writeOffset).toNat = 0x08020000 + 192 * k := by
    simp only [filled]
    rw [UInt32.toNat_add, hoff, hA]
    omega
  have hwin : (filled k).writeOffset + (UInt16.ofNat erasedChunk.length).toUInt32 ≤
      (filled k).imageSize := by
    rw [erasedChunk_length]
    change (UInt32.ofNat (192 * k) + (UInt16.ofNat 192).toUInt32).toNat ≤ blAppASize.toNat
    rw [UInt32.toNat_add, hoff, UInt16.toNat_toUInt32, UInt16.toNat_ofNat', hS,
      Nat.mod_eq_of_lt (by omega : 192 < 2 ^ 16), Nat.mod_eq_of_lt (by omega)]
    omega
  have hchunk : UInt16.ofNat erasedChunk.length ≤ (filled k).chunkSize := by
    rw [erasedChunk_length]
    exact UInt16.le_refl 192
  have hblank : Blank fl ((filled k).targetBase + (filled k).writeOffset).toNat
      erasedChunk.length := by
    rw [haddr, erasedChunk_length]
    exact hb.mono (by omega) (by omega)
  have hnext := (receive_data_blank (m := m) false (by rw [erasedChunk_length]; omega)
    (by decide) rfl hchunk hwin (by rw [haddr, flashLo]; omega)
    (by rw [haddr, flashHi, erasedChunk_length]; omega) hblank).1
  have hsame : ∀ a, program fl a erasedChunk = fl := fun a => program_ff fl a 192
  rw [filled_succ, hsame] at hnext
  exact hnext

theorem fill_slot {fl : Mem} (m : OtaMetadata) (hb : Blank fl blAppABase.toNat blAppASize.toNat)
    {n : ℕ} (hn : n ≤ 2048) :
    run step ⟨fl, .loop (filled 0) m false⟩ ((List.range n).map fun k => .frame (fillFrame k) none) =
      ⟨fl, .loop (filled n) m false⟩ := by
  induction n with
  | zero => rfl
  | succ n ih =>
    rw [List.range_succ, List.map_append, run_append, ih (by omega)]
    exact fill_chunk (by omega) hb

/-- An update session that asks for the whole of slot A, fills it, is refused when it asks for
more, and goes on with one byte behind the end of the slot. -/
def fillRun : List Event :=
  .reset true :: .frame (prepareFrame 1 blAppASize 0 192) none ::
    ((List.range 2048).map fun k => .frame (fillFrame k) none)

def refusedFrame : Frame := prepareFrame 0 0xFFFFFFFF 0 192

def strayFrame : Frame := dataFrame 2050 blAppASize [0] (by decide)

def overrun : List Event := fillRun ++ [.frame refusedFrame none, .frame strayFrame none]

/-- A boot, the session above, a request and a frame in the open session, and another boot. -/
def sessionRun : List Event :=
  .reset false :: fillRun ++
    [.frame (prepareFrame 0 0x1000 0 192) none, .frame (fillFrame 0) none, .reset false]

theorem sessionRun_fits (d : Device) : Always step PrepareFits d sessionRun := by
  have hfits : ∀ (f : Frame) (life : Option ℕ),
      (f.type = blDnOtaPrepare → read32 f.payload 2 ≤ blAppASize) →
      ∀ d, PrepareFits d (.frame f life) := by
    intro f life hf d
    obtain ⟨fl, mode⟩ := d
    cases mode with
    | off => trivial
    | app slot => trivial
    | loop g m final => exact fun _ hp _ => hf hp
  have hdata : ∀ k d, PrepareFits d (.frame (fillFrame k) none) := fun k =>
    hfits _ _ fun hp => absurd hp (by decide : blDnOtaData ≠ blDnOtaPrepare)
  apply Always.of_forall
  intro e he
  rcases List.mem_append.mp he with he | he
  · rcases List.mem_cons.mp he with rfl | he
    · exact fun _ => trivial
    rcases List.mem_cons.mp he with rfl | he
    · exact fun _ => trivial
    rcases List.mem_cons.mp he with rfl | he
    · exact hfits _ _ fun _ => by decide
    · obtain ⟨k, -, rfl⟩ := List.mem_map.mp he
      exact hdata k
  · simp only [List.mem_cons, List.not_mem_nil, or_false] at he
    rcases he with rfl | rfl | rfl
    · exact hfits _ _ fun _ => by decide
    · exact hdata 0
    · exact fun _ => trivial

theorem shipped_frames_touch_idle_slot : Always step TouchesIdle ⟨shippedFlash, .off⟩ sessionRun :=
  frames_touch_idle_slot shipped_inForce shipped_settled sessionRun (sessionRun_fits _)

theorem shipped_boots_valid_image : Always step BootsValid ⟨shippedFlash, .off⟩ sessionRun :=
  boots_valid_image shipped_inForce shipped_settled shipped_valid sessionRun (sessionRun_fits _)

theorem shipped_blank : Blank shippedFlash blAppABase.toNat blAppASize.toNat := by
  have hA : blAppABase.toNat = 0x08020000 := by decide
  have hB : blAppBBase.toNat = 0x08080000 := by decide
  have hM : blMetadataBase.toNat = 0x08010000 := by decide
  have hS : blAppASize.toNat = 393216 := by decide
  have hr : blMetaRecordSize = 60 := rfl
  intro x hx hx'
  rw [shippedFlash, boardFlash, program_outside (Or.inl (by omega)), recordFlash,
    program_outside (Or.inr (by rw [encode_length]; omega))]
  rfl

theorem fillRun_end :
    run step ⟨shippedFlash, .off⟩ fillRun = ⟨shippedFlash, .loop (filled 2048) shipped false⟩ := by
  have hr : step ⟨shippedFlash, .off⟩ (.reset true) =
      (⟨shippedFlash, .loop blCtxReset shipped false⟩, silent) := shipped_inForce.reset true
  have hnone : prepareError shipped (prepareFields blCtxReset
      (prepareFrame 1 blAppASize 0 192).payload)
      (prepareTarget shipped (prepareFrame 1 blAppASize 0 192).payload) = none := by decide
  have hp : (step ⟨shippedFlash, .loop blCtxReset shipped false⟩
      (.frame (prepareFrame 1 blAppASize 0 192) none)).1 =
      ⟨shippedFlash, .loop (filled 0) shipped false⟩ :=
    (receive_prepare_blank false rfl le_rfl hnone shipped_blank).1
  rw [fillRun, run_cons, run_cons, hr, hp]
  exact fill_slot shipped shipped_blank le_rfl

/-- After the refused request the window reaches beyond the slot. -/
def overfull : BlOtaCtx := { filled 2048 with imageSize := 0xFFFFFFFF }

theorem refused_step : step ⟨shippedFlash, .loop (filled 2048) shipped false⟩
    (.frame refusedFrame none) =
      (⟨shippedFlash, .loop overfull shipped false⟩,
        ⟨[], [], none, some (.nack 0 blErrBadPayload)⟩) := rfl

theorem stray_step : (step ⟨shippedFlash, .loop overfull shipped false⟩
    (.frame strayFrame none)).2.slotOps = [.program blAppBBase.toNat [0]] := by
  decide +kernel

theorem stray_flash : (step ⟨shippedFlash, .loop overfull shipped false⟩
    (.frame strayFrame none)).1.flash = program shippedFlash blAppBBase.toNat [0] := by
  have hnext := @data_next (Ctl.start shippedFlash none) overfull [0] shipped (by decide) rfl
    (by decide) (by decide)
  obtain ⟨hmem, -⟩ := @blFlashWrite_mem (Ctl.start shippedFlash none) blAppBBase.toNat [0] rfl
    (by decide) (by decide) (by decide)
  have haddr : (overfull.targetBase + overfull.writeOffset).toNat = blAppBBase.toNat := by decide
  rw [haddr] at hnext
  rcases hw : blFlashWrite (Ctl.start shippedFlash none) blAppBBase.toNat [0] with ⟨c', ok⟩
  rw [hw] at hmem hnext
  have hlife : frameLife strayFrame none = none := rfl
  have hframe : (blOtaLoopFrame (Ctl.start shippedFlash none) overfull shipped strayFrame).ctl =
      c' := by
    have hstray : strayFrame = dataFrame overfull.expectedSeq overfull.writeOffset [0]
      (by decide) := rfl
    rw [hstray, hnext]
    cases ok <;> rfl
  change (receive shippedFlash overfull shipped false strayFrame none).1.flash = _
  unfold receive
  rw [hlife]
  dsimp only
  rw [hframe]
  exact hmem

theorem overrun_writes_active_slot :
    InForce shippedFlash [encode shipped] shipped ∧ Settled shipped ∧
      ¬ Always step TouchesIdle ⟨shippedFlash, .off⟩ overrun := by
  refine ⟨shipped_inForce, shipped_settled, fun h => ?_⟩
  rw [overrun, always_append, fillRun_end] at h
  have hlast := h.2.2.1
  rw [refused_step] at hlast
  obtain ⟨slot, hslot, hne, -, hops⟩ := hlast
  rw [stray_step] at hops
  have hin := hops _ (List.mem_singleton_self _)
  rw [shipped_inForce.load] at hne
  rcases hslot with rfl | rfl
  · exact absurd hin (by decide)
  · exact hne rfl

theorem overrun_bricks :
    InForce shippedFlash [encode shipped] shipped ∧ Settled shipped ∧
      blSlotImageValid shippedFlash shipped shipped.activeSlot = true ∧
      ¬ Always step BootsValid ⟨shippedFlash, .off⟩ (overrun ++ [.reset false]) := by
  refine ⟨shipped_inForce, shipped_settled, shipped_valid, fun h => ?_⟩
  have hbad : blSlotImageValid (program shippedFlash blAppBBase.toNat [0]) shipped
      shipped.activeSlot = false := by decide +kernel
  have hmeta : InForce (program shippedFlash blAppBBase.toNat [0]) [encode shipped] shipped := by
    refine shipped_inForce.congr fun x _ hx => ?_
    have hb : blMetadataBase.toNat + blMetadataSize ≤ blAppBBase.toNat := by decide
    exact (program_outside (Or.inl (by omega))).symm
  rw [always_append, overrun, run_append, fillRun_end, run_cons, refused_step, run_cons] at h
  have hlast := h.2.1
  have hstate : (step ⟨shippedFlash, .loop overfull shipped false⟩ (.frame strayFrame none)).1 =
      ⟨program shippedFlash blAppBBase.toNat [0], (step ⟨shippedFlash, .loop overfull shipped
        false⟩ (.frame strayFrame none)).1.mode⟩ := by
    rw [← stray_flash]
  rw [run_nil, hstate] at hlast
  have hp : ¬ (shipped.pendingSlot = blSlotA ∨ shipped.pendingSlot = blSlotB) := by decide
  obtain ⟨slot, pending, hx, -⟩ :=
    hlast .stay (hmeta.reset_stays _ hp shipped_settled.confirmed hbad)
  cases hx

end EdgeLink.Bootloader
