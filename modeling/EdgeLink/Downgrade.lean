import EdgeLink.SessionFrames
import EdgeLink.SlotPolicy

namespace EdgeLink.Bootloader
open LittleEndian Nor Machine App Journal

/-- A version that the floor of `m` admits; 0 stands for "not given". -/
def Admitted (m : OtaMetadata) (version : UInt32) : Prop :=
  version = 0 ∨ blMetadataMinAllowedVersion m ≤ version

/-- No event lowers the floor of the metadata in force. -/
def FloorKept (d : Device) (e : Event) : Prop :=
  (blMetadataLoadOrDefault d.flash).minAllowedVersion ≤
    (blMetadataLoadOrDefault (step d e).1.flash).minAllowedVersion

/-- A slot that a commit leaves pending was so before, with the same version, or `ok` holds of the
metadata in force and the version recorded now. -/
def PendingVersions (ok : OtaMetadata → UInt32 → Prop) (d : Device) (e : Event) : Prop :=
  let cur := blMetadataLoadOrDefault d.flash
  ∀ p ∈ (step d e).2.written, ∀ slot, slot = blSlotA ∨ slot = blSlotB →
    slotState p.1 slot = imgPending →
    (slotState cur slot = imgPending ∧ slotVersion p.1 slot = slotVersion cur slot) ∨
      ok cur (slotVersion p.1 slot)

def PendingAdmitted : Device → Event → Prop := PendingVersions Admitted

/-- A PREPARE that arrives in an open session does not name a version below the floor. -/
def VersionFits (d : Device) : Event → Prop
  | .frame f _ =>
    match d.mode with
    | .loop g _ _ => g.active = true → f.type = blDnOtaPrepare → 20 ≤ f.payload.length →
        Admitted (blMetadataLoadOrDefault d.flash) (read32 f.payload 16)
    | _ => True
  | _ => True

/-- A session is anchored, and under the condition `v` its version is admitted. -/
structure SessionFloor (v : Prop) (g : BlOtaCtx) (cur : OtaMetadata) : Prop where
  anchored : Anchored g
  admitted : v → Admitted cur g.imageVersion

def Tracked (v : Prop) (d : Device) : Prop :=
  ∃ slots cur, InForce d.flash slots cur ∧ ∀ g m final, d.mode = .loop g m final →
    Kept cur m ∧ (g.active = true → SessionFloor v g cur)

variable {v : Prop} {fl : Mem} {slots : List Bytes} {cur m : OtaMetadata} {g : BlOtaCtx}
  {payload : Bytes}

theorem Kept.admitted (h : Kept cur m) (version : UInt32) :
    Admitted m version ↔ Admitted cur version := by
  unfold Admitted blMetadataMinAllowedVersion
  rw [h.floor]

/-- Bookkeeping makes no slot pending. -/
theorem Kept.pending (h : Kept cur m) {slot : UInt8} (hp : slotState m slot = imgPending) :
    slotState cur slot = imgPending ∧ slotVersion m slot = slotVersion cur slot := by
  refine ⟨?_, h.version slot⟩
  rcases h.state slot with hs | hs
  · exact hs.symm.trans hp
  · rw [hs] at hp
    exact absurd hp (by decide)

/-- The version that a PREPARE stores. -/
theorem fields_version (hv : 20 ≤ payload.length → Admitted cur (read32 payload 16)) :
    Admitted cur (prepareFields g payload).imageVersion := by
  unfold prepareFields
  dsimp only
  split_ifs with hl
  · exact hv hl
  · exact Or.inl rfl

theorem prepare_floor {c : Ctl} (hk : Kept cur m)
    (hg : g.active = true → v → Admitted cur g.imageVersion)
    (hc : v → g.active = true → 20 ≤ payload.length → Admitted cur (read32 payload 16)) :
    (blHandlePrepare c g payload m).ctx.active = true → v →
      Admitted cur (blHandlePrepare c g payload m).ctx.imageVersion := by
  rcases blHandlePrepare_cases c g payload m with ⟨-, h⟩ | ⟨-, err, -, h⟩ | ⟨-, he, c', ok, -, h⟩
  · rw [h]
    exact hg
  · rw [h]
    exact fun ha hv => fields_version (hc hv ha)
  · rw [h]
    cases ok with
    | false => exact fun ha hv => fields_version (hc hv ha)
    | true => exact fun _ _ => (hk.admitted _).mp (prepareError_none he).2.2.2.2.2

/-- No other frame changes the version of a session. -/
theorem frame_floor {c : Ctl} {f : Frame} (hk : Kept cur m)
    (hg : g.active = true → v → Admitted cur g.imageVersion)
    (hc : v → g.active = true → f.type = blDnOtaPrepare → 20 ≤ f.payload.length →
      Admitted cur (read32 f.payload 16)) (hf : f.type ≠ blDnOtaCommit) :
    (blOtaLoopFrame c g m f).ctx.active = true → v →
      Admitted cur (blOtaLoopFrame c g m f).ctx.imageVersion := by
  have hr : blCtxReset.active = true → v → Admitted cur blCtxReset.imageVersion :=
    fun ha => absurd ha (by decide)
  unfold blOtaLoopFrame
  split_ifs with hp
  · exact prepare_floor hk hg fun hv ha => hc hv ha hp
  · rcases blHandleData_cases c g f.payload with ⟨r, h, -⟩ | ⟨ha, -, -, -, -, -, -, c', ok, -, h⟩
    · rw [h]
      exact hg
    · rw [h]
      cases ok with
      | false => exact hg
      | true => exact fun _ => hg ha
  · rcases blHandleVerify_cases c g f.payload with ⟨seq, err, h⟩ | ⟨ha, -, -, -, -, -, -, h⟩
    · rw [h]
      exact hg
    · rw [h]
      exact fun _ => hg ha
  · exact hr
  · exact hr
  · exact hg
  · exact hg

/-- The judgement on one event from the record `cur`: the next record in force keeps the floor, and
what was written is admitted under the condition `v`. -/
structure StepFloor (v : Prop) (cur : OtaMetadata) (r : Device × Output) : Prop where
  tracked : Tracked v r.1
  floor : cur.minAllowedVersion ≤ (blMetadataLoadOrDefault r.1.flash).minAllowedVersion
  pending : ∀ p ∈ r.2.written, ∀ slot, slot = blSlotA ∨ slot = blSlotB →
    slotState p.1 slot = imgPending →
    (slotState cur slot = imgPending ∧ slotVersion p.1 slot = slotVersion cur slot) ∨
      (v → Admitted cur (slotVersion p.1 slot))

/-- A state in which no session is open. -/
theorem tracked_closed {d : Device} (h : InForce d.flash slots cur)
    (hm : ∀ g m final, d.mode = .loop g m final → Kept cur m ∧ g.active = false) : Tracked v d := by
  refine ⟨slots, cur, h, fun g m final hl => ?_⟩
  obtain ⟨hk, ha⟩ := hm g m final hl
  exact ⟨hk, fun ht => absurd (ha.symm.trans ht) (by simp)⟩

theorem exit_closed {fl' : Mem} {x : BootExit} (hk : Kept cur m) :
    ∀ g' m' final, (⟨fl', exitMode m x⟩ : Device).mode = .loop g' m' final →
      Kept cur m' ∧ g'.active = false := by
  intro g' m' final hl
  cases x with
  | jump slot pending => cases hl
  | stay =>
    cases hl
    exact ⟨hk, rfl⟩

theorem boot_floor (h : InForce fl slots cur) (hk : Kept cur m) :
    StepFloor v cur (boot (Ctl.start fl none) m []) := by
  have hcommit : ∀ x : OtaMetadata, Kept cur x → ∀ e : BootExit,
      let fl' := (blMetadataCommit (Ctl.start fl none) x).1.mem
      StepFloor v cur (⟨fl', exitMode x e⟩, ⟨[], [(blMetadataCommitWork x, fl')], some e, none⟩) := by
    intro x hx e
    obtain ⟨slots', cur', hf, hkc, hkr, -⟩ := h.commit_kept hx
    refine ⟨tracked_closed hf (exit_closed hkr), ?_, fun p hp slot _ hst => ?_⟩
    · rw [hf.load, hkc.floor]
      exact UInt32.le_refl _
    · rw [List.mem_singleton] at hp
      rw [hp] at hst ⊢
      exact Or.inl ((hx.trans (kept_commitWork x)).pending hst)
  dsimp only [boot]
  rcases mainBoot_cases (Ctl.start fl none) m with ⟨-, hb⟩ | ⟨-, -, hb⟩ | ⟨-, -, -, hb⟩
  · rw [hb]
    refine ⟨tracked_closed h (exit_closed hk), ?_, fun p hp => absurd hp (by simp [blWritten])⟩
    change _ ≤ (blMetadataLoadOrDefault fl).minAllowedVersion
    rw [h.load]
    exact UInt32.le_refl _
  · rw [hb]
    exact hcommit (rollback m) (hk.trans (kept_rollback m)) _
  · rw [hb]
    exact hcommit (attempt m) (hk.trans (kept_attempt m)) _

theorem receive_floor {f : Frame} (final : Bool) (life : Option ℕ) (h : InForce fl slots cur)
    (hk : Kept cur m) (hg : g.active = true → SessionFloor v g cur)
    (hc : v → g.active = true → f.type = blDnOtaPrepare → 20 ≤ f.payload.length →
      Admitted cur (read32 f.payload 16)) :
    StepFloor v cur (receive fl g m final f life) := by
  have hstay : ∀ o : Output, o.written = [] →
      StepFloor v cur (⟨fl, .loop g m final⟩, o) := by
    intro o ho
    refine ⟨⟨slots, cur, h, fun g' m' final' hl => ?_⟩, ?_, fun p hp => ?_⟩
    · cases hl
      exact ⟨hk, hg⟩
    · rw [h.load]
      exact UInt32.le_refl _
    · rw [ho] at hp
      exact absurd hp (by simp)
  -- only a COMMIT writes metadata; any other frame leaves the sector as it is
  by_cases hf : f.type = blDnOtaCommit
  · rcases receive_commit final life h.shaped (hk.tagged h.tagged) hf with
      ⟨seq, err, hr⟩ | ⟨ha, -, fl', hfl, hr⟩
    · rw [hr]
      exact hstay _ rfl
    · obtain ⟨cur', hf', hcur⟩ := h.commit (commitNext_tagged (g := g) (hk.tagged h.tagged))
      rw [← hfl] at hf'
      rw [hr]
      refine ⟨tracked_closed hf' (fun _ _ _ hl => by cases hl), ?_, fun p hp slot hsl hst => ?_⟩
      · rw [hf'.load]
        rcases hcur with hcur | hcur
        · rw [hcur, (kept_commitWork _).floor, (commitNext_active g m).2.2, hk.floor]
          exact UInt32.le_refl _
        · rw [hcur]
          exact UInt32.le_refl _
      · rw [List.mem_singleton] at hp
        have hw := kept_commitWork (commitNext g m)
        rw [hp] at hst ⊢
        obtain ⟨hst', hver⟩ := hw.pending hst
        by_cases hslot : commitSlot g = slot
        · refine Or.inr fun hv => ?_
          rw [hver, ← hslot, commitNext_version]
          exact (hg ha).admitted hv
        · obtain ⟨hso, hvo, -⟩ := @commitNext_other g m slot hsl hslot
          rw [hver, hvo]
          exact Or.inl (hk.pending (hso.symm.trans hst'))
  · have hfloor := @frame_floor v cur m g (Ctl.start fl (frameLife f life)) f hk
      (fun ha => (hg ha).admitted) hc hf
    have hq := @frame_quiet (Ctl.start fl (frameLife f life)) g m f (fun ha => (hg ha).anchored) hf
    have hin := h.congr fun x _ hx => (hq.frame x hx).symm
    dsimp only [receive]
    rw [hq.stays]
    refine ⟨⟨slots, cur, hin, fun g' m' final' hl => ?_⟩, ?_, fun p hp => absurd hp (by simp)⟩
    · cases hl
      exact ⟨hk, fun ha => ⟨hq.session ha, hfloor ha⟩⟩
    · rw [hin.load]
      exact UInt32.le_refl _

/-- A confirmation raises the floor to the confirmed version or leaves it. -/
theorem confirmNext_floor (m : OtaMetadata) (slot : UInt8) :
    m.minAllowedVersion ≤ (confirmNext m slot).minAllowedVersion := by
  have hmax : ∀ version : UInt32, m.minAllowedVersion ≤
      if version > m.minAllowedVersion then version else m.minAllowedVersion := by
    intro version
    split_ifs with hv
    · exact UInt32.le_of_lt hv
    · exact UInt32.le_refl _
  unfold confirmNext
  split_ifs
  · exact hmax m.appAVersion
  · exact hmax m.appBVersion

/-- It leaves the other slot as it is and confirms its own. -/
theorem confirmNext_slot {slot s : UInt8} (hslot : slot = blSlotA ∨ slot = blSlotB)
    (hs : s = blSlotA ∨ s = blSlotB) :
    slotVersion (confirmNext m slot) s = slotVersion m s ∧
      (slotState (confirmNext m slot) s = slotState m s ∨
        slotState (confirmNext m slot) s = imgConfirmed) := by
  unfold confirmNext
  rcases hslot with rfl | rfl <;> rcases hs with rfl | rfl
  · exact ⟨rfl, Or.inr rfl⟩
  · exact ⟨rfl, Or.inl rfl⟩
  · exact ⟨rfl, Or.inl rfl⟩
  · exact ⟨rfl, Or.inr rfl⟩

theorem confirm_floor (slot : UInt8) (h : InForce fl slots cur) :
    StepFloor v cur (confirm fl slot) := by
  rcases h.confirm slot with hc | ⟨-, -, hc⟩
  · rw [hc]
    refine ⟨tracked_closed h (fun _ _ _ hl => by cases hl), ?_, fun p hp => ?_⟩
    · rw [h.load]
      exact UInt32.le_refl _
    · exact absurd hp (by simp [silent])
  · have hslot := currentSlot_cases (blSlotBase slot)
    generalize otaCurrentSlot (blSlotBase slot) = s at hc hslot
    obtain ⟨cur', hf, hcur⟩ := h.otaCommit (@confirmNext_tagged _ s h.tagged)
    rw [hc]
    refine ⟨tracked_closed hf (fun _ _ _ hl => by cases hl), ?_, fun p hp t ht hst => ?_⟩
    · rw [hf.load]
      rcases hcur with hcur | hcur
      · rw [hcur, (kept_updateCrc _).floor]
        exact confirmNext_floor cur s
      · rw [hcur]
        exact UInt32.le_refl _
    · rw [List.mem_singleton] at hp
      rw [hp] at hst ⊢
      obtain ⟨hst', hver'⟩ := (kept_updateCrc (confirmNext cur s)).pending hst
      obtain ⟨hver, hstate⟩ := @confirmNext_slot cur s t hslot ht
      refine Or.inl ⟨?_, hver'.trans hver⟩
      rcases hstate with hstate | hstate
      · exact hstate.symm.trans hst'
      · rw [hstate] at hst'
        exact absurd hst' (by decide)

theorem step_floor {d : Device} {e : Event} (hd : Tracked v d) (hc : v → VersionFits d e) :
    StepFloor v (blMetadataLoadOrDefault d.flash) (step d e) := by
  obtain ⟨fl, mode⟩ := d
  obtain ⟨slots, cur, h, hloop⟩ := hd
  dsimp only at h hloop ⊢
  rw [h.load]
  have hstill : step ⟨fl, mode⟩ e = (⟨fl, mode⟩, silent) → StepFloor v cur (step ⟨fl, mode⟩ e) := by
    intro hst
    rw [hst]
    refine ⟨⟨slots, cur, h, hloop⟩, ?_, fun p hp => absurd hp (by simp [silent])⟩
    rw [h.load]
    exact UInt32.le_refl _
  cases e with
  | reset flag =>
    cases flag with
    | false =>
      have hst : step ⟨fl, mode⟩ (.reset false) = boot (Ctl.start fl none) cur [] := h.reset false
      rw [hst]
      exact boot_floor h (Kept.refl cur)
    | true =>
      have hst : step ⟨fl, mode⟩ (.reset true) =
          (⟨fl, .loop blCtxReset cur false⟩, silent) := h.reset true
      rw [hst]
      refine ⟨tracked_closed h fun g m final hl => ?_, ?_, fun p hp => ?_⟩
      · cases hl
        exact ⟨Kept.refl cur, rfl⟩
      · rw [h.load]
        exact UInt32.le_refl _
      · exact absurd hp (by simp [silent])
  | frame f life =>
    cases mode with
    | off => exact hstill rfl
    | app slot => exact hstill rfl
    | loop g m final =>
      obtain ⟨hk, hg⟩ := hloop g m final rfl
      -- only a PREPARE can bring an older version, and its fit is assumed
      apply receive_floor final life h hk hg
      intro hv ha hp hl
      have hfit := hc hv ha hp hl
      dsimp only at hfit
      rwa [h.load] at hfit
  | idle =>
    cases mode with
    | off => exact hstill rfl
    | app slot => exact hstill rfl
    | loop g m final =>
      cases final with
      | true => exact hstill rfl
      | false => exact boot_floor h (hloop g m false rfl).1
  | confirm =>
    cases mode with
    | off => exact hstill rfl
    | loop g m final => exact hstill rfl
    | app slot => exact confirm_floor slot h

/-- Over every run the floor never falls; and while no PREPARE of an open session names a version
below it, every slot that becomes pending has version 0 or one at or above the floor. -/
theorem no_downgrade (h : InForce fl slots cur) (es : List Event) :
    Always step FloorKept ⟨fl, .off⟩ es ∧
      (Always step VersionFits ⟨fl, .off⟩ es → Always step PendingAdmitted ⟨fl, .off⟩ es) := by
  have hstart : ∀ v, Tracked v ⟨fl, .off⟩ :=
    fun v => tracked_closed h fun _ _ _ hl => by cases hl
  constructor
  · apply Always.of_invariant (I := Tracked False) (C := fun _ _ => True) _ (hstart False)
    · exact Always.of_forall step (fun _ _ _ => trivial) _
    · intro d e hd _
      have hs := step_floor hd (False.elim : False → VersionFits d e)
      exact ⟨hs.tracked, hs.floor⟩
  · intro hc
    apply Always.of_invariant (I := Tracked True) _ (hstart True) hc
    intro d e hd hf
    have hs := step_floor hd fun _ => hf
    refine ⟨hs.tracked, fun p hp slot hslot hst => ?_⟩
    exact (hs.pending p hp slot hslot hst).imp_right fun ha => ha trivial

def ratified : OtaMetadata :=
  blMetadataUpdateCrc { blMetadataDefault with
    activeSlot := blSlotB, confirmedSlot := blSlotB, appBState := imgConfirmed,
    appBVersion := 1, minAllowedVersion := 1 }

def ratifiedFlash : Mem := recordFlash ratified

theorem ratified_inForce : InForce ratifiedFlash [encode ratified] ratified := by
  apply recordFlash_inForce
  rw [ratified, validate_updateCrc]
  rfl

/-- The payload of the request ends before the target and the version. -/
def unversioned : List Event :=
  [.reset true, .frame (prepareFrame 1 8 0 8) none, .frame (commitFrame 2) none]

theorem unversioned_fits (d : Device) : Always step VersionFits d unversioned := by
  have hfits : ∀ (f : Frame) (life : Option ℕ), f.payload.length < 20 →
      ∀ d, VersionFits d (.frame f life) := by
    intro f life hf d
    obtain ⟨fl, mode⟩ := d
    cases mode with
    | off => trivial
    | app slot => trivial
    | loop g m final => exact fun _ _ hl => absurd hl (by omega)
  refine ⟨trivial, ?_, ?_, trivial⟩
  · exact hfits _ _ (by decide) _
  · exact hfits _ _ (by decide) _

theorem ratified_no_downgrade : Always step FloorKept ⟨ratifiedFlash, .off⟩ unversioned ∧
    Always step PendingAdmitted ⟨ratifiedFlash, .off⟩ unversioned := by
  obtain ⟨hfloor, hpend⟩ := no_downgrade ratified_inForce unversioned
  exact ⟨hfloor, hpend (unversioned_fits _)⟩

theorem unversioned_downgrades : InForce ratifiedFlash [encode ratified] ratified ∧
    ¬ Always step (PendingVersions fun cur v => blMetadataMinAllowedVersion cur ≤ v)
      ⟨ratifiedFlash, .off⟩ unversioned := by
  refine ⟨ratified_inForce, fun h => ?_⟩
  let f := prepareFrame 1 8 0 8
  let g := prepareCtx f.payload blAppABase
  have hreset : step ⟨ratifiedFlash, .off⟩ (.reset true) =
      (⟨ratifiedFlash, .loop blCtxReset ratified false⟩, silent) := ratified_inForce.reset true
  have hnone : prepareError ratified (prepareFields blCtxReset f.payload)
      (prepareTarget ratified f.payload) = none := by decide
  have hopen : (step ⟨ratifiedFlash, .loop blCtxReset ratified false⟩ (.frame f none)).1 =
      ⟨ratifiedFlash, .loop g ratified false⟩ :=
    (receive_prepare_blank false rfl (by decide) hnone (recordFlash_blank ratified blSlotA)).1
  have hcommit := receive_commit_next (g := g) false none ratified_inForce.shaped
    ratified_inForce.tagged rfl (by decide : g.expectedSeq = 2)
  have hlast := h.2.2.1
  rw [hreset, hopen] at hlast
  have hw := hlast _ (by
    change _ ∈ (receive ratifiedFlash g ratified false (commitFrame 2) none).2.written
    rw [hcommit]
    exact List.mem_singleton_self _) blSlotA (Or.inl rfl)
  have hk := kept_commitWork (commitNext g ratified)
  dsimp only at hw
  rw [ratified_inForce.load, hk.version] at hw
  rcases hk.state blSlotA with hst | hst
  · rw [hst] at hw
    rcases hw rfl with ⟨hp, -⟩ | hv
    · exact absurd hp (by decide)
    · exact absurd hv (by decide)
  · rw [commitWork_stamp] at hst
    exact absurd hst (by decide)

end EdgeLink.Bootloader
