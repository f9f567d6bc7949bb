import EdgeLink.Stm32Ota

namespace EdgeLink.Ota
open LittleEndian Nor Bootloader

/-- The options of `Stm32OtaAdapter::run` that shape what it sends. -/
structure Stm32OtaOptions where
  chunkSize : ℕ := 240
  maxRetries : ℤ := 3
  waitBootHello : Bool := true
  targetBase : UInt32 := 0
  imageVersion : UInt32 := 0

def chunkSizeOf (opt : Stm32OtaOptions) : ℕ := min opt.chunkSize 246

/-- The optional end of the payload. -/
def prepareOptions (opt : Stm32OtaOptions) : Bytes :=
  if opt.targetBase ≠ 0 then
    bytes32 opt.targetBase ++ if opt.imageVersion ≠ 0 then bytes32 opt.imageVersion else []
  else if opt.imageVersion ≠ 0 then bytes32 0 ++ bytes32 opt.imageVersion
  else []

def preparePayload (image : Bytes) (image_crc32 : UInt32) (opt : Stm32OtaOptions) : Bytes :=
  bytes16 1 ++ (bytes32 (UInt32.ofNat image.length) ++ (bytes32 image_crc32 ++
    (bytes16 (UInt16.ofNat (chunkSizeOf opt)) ++ prepareOptions opt)))

def jobOptions (job : Stm32Ota.Job) : Stm32OtaOptions where
  chunkSize := job.chunkSize
  maxRetries := job.maxRetries
  waitBootHello := job.waitBootHello
  targetBase := job.targetBase
  imageVersion := job.imageVersion

/-- It is what a call with these options sends first. -/
theorem payload_prepare (job : Stm32Ota.Job) :
    job.payload 1 .prepare = preparePayload job.image job.imageCrc32 (jobOptions job) := by
  simp only [Stm32Ota.Job.payload, preparePayload, List.append_assoc]
  rfl

/-- The bootloader reads what the adapter meant. -/
structure PrepareAgrees (g : BlOtaCtx) (m : OtaMetadata) (image : Bytes) (image_crc32 : UInt32)
    (opt : Stm32OtaOptions) : Prop where
  size : (prepareFields g (preparePayload image image_crc32 opt)).imageSize.toNat = image.length
  crc : (prepareFields g (preparePayload image image_crc32 opt)).imageCrc32 = image_crc32
  chunk : (prepareFields g (preparePayload image image_crc32 opt)).chunkSize.toNat = chunkSizeOf opt
  version : (prepareFields g (preparePayload image image_crc32 opt)).imageVersion = opt.imageVersion
  target : prepareTarget m (preparePayload image image_crc32 opt) =
    if opt.targetBase ≠ 0 then opt.targetBase else blPickTargetSlot m

def Accepted (c : Ctl) (g : BlOtaCtx) (m : OtaMetadata) (payload : Bytes) : Prop :=
  (blHandlePrepare c g payload m).reply = some (.ack (read16 payload 0))

/-- With the target left to the bootloader, giving an admissible version costs nothing. -/
def VersionHarmless (c : Ctl) (g : BlOtaCtx) (m : OtaMetadata) (image : Bytes)
    (image_crc32 : UInt32) (opt : Stm32OtaOptions) : Prop :=
  opt.targetBase = 0 → opt.imageVersion ≠ 0 → blMetadataMinAllowedVersion m ≤ opt.imageVersion →
    Accepted c g m (preparePayload image image_crc32 { opt with imageVersion := 0 }) →
    Accepted c g m (preparePayload image image_crc32 opt)

variable (g : BlOtaCtx) (m : OtaMetadata) (image : Bytes) (image_crc32 : UInt32)
  (opt : Stm32OtaOptions)

theorem preparePayload_length :
    (preparePayload image image_crc32 opt).length = 12 + (prepareOptions opt).length := by
  simp only [preparePayload, List.length_append, bytes16_length, bytes32_length]
  omega

theorem preparePayload_fields : prepareFields g (preparePayload image image_crc32 opt) =
    { g with
      imageSize := UInt32.ofNat image.length, imageCrc32 := image_crc32
      chunkSize := UInt16.ofNat (chunkSizeOf opt)
      imageVersion := if (prepareOptions opt).length ≥ 8 then read32 (prepareOptions opt) 4 else 0 } := by
  have hlen : (preparePayload image image_crc32 opt).length ≥ 20 ↔
      (prepareOptions opt).length ≥ 8 := by
    rw [preparePayload_length]
    omega
  unfold prepareFields
  simp only [hlen]
  unfold preparePayload
  simp only [read32_skip16, read32_skip32, read32_head, read16_skip16, read16_skip32, read16_head]

theorem preparePayload_target : prepareTarget m (preparePayload image image_crc32 opt) =
    if (prepareOptions opt).length ≥ 4 then read32 (prepareOptions opt) 0
    else blPickTargetSlot m := by
  have hlen : (preparePayload image image_crc32 opt).length ≥ 16 ↔
      (prepareOptions opt).length ≥ 4 := by
    rw [preparePayload_length]
    omega
  unfold prepareTarget
  simp only [hlen]
  unfold preparePayload
  simp only [read32_skip16, read32_skip32]

theorem chunkSizeOf_toNat : (UInt16.ofNat (chunkSizeOf opt)).toNat = chunkSizeOf opt := by
  have hle : chunkSizeOf opt ≤ 246 := Nat.min_le_right _ _
  rw [UInt16.toNat_ofNat', Nat.mod_eq_of_lt (by omega)]

/-- The version survives every combination of options. -/
theorem prepareOptions_version :
    (if (prepareOptions opt).length ≥ 8 then read32 (prepareOptions opt) 4 else 0) =
      opt.imageVersion := by
  have hread : ∀ t : UInt32, read32 (bytes32 t ++ bytes32 opt.imageVersion) 4 = opt.imageVersion :=
    fun t => by
      rw [← List.append_nil (bytes32 opt.imageVersion)]
      exact read32_head opt.imageVersion []
  unfold prepareOptions
  by_cases ht : opt.targetBase ≠ 0
  · by_cases hv : opt.imageVersion ≠ 0
    · rw [if_pos ht, if_pos hv, if_pos (by simp), hread]
    · rw [if_pos ht, if_neg hv, if_neg (by simp)]
      exact (not_not.mp hv).symm
  · by_cases hv : opt.imageVersion ≠ 0
    · rw [if_neg ht, if_pos hv, if_pos (by simp), hread]
    · rw [if_neg ht, if_neg hv, if_neg (by simp)]
      exact (not_not.mp hv).symm

/-- The target does not survive when only the version is given: its filler is read as a target. -/
theorem prepareOptions_target :
    (if (prepareOptions opt).length ≥ 4 then read32 (prepareOptions opt) 0
      else blPickTargetSlot m) =
      if opt.targetBase ≠ 0 then opt.targetBase
      else if opt.imageVersion ≠ 0 then 0 else blPickTargetSlot m := by
  unfold prepareOptions
  by_cases ht : opt.targetBase ≠ 0
  · rw [if_pos ht, if_pos ht, if_pos (by simp), read32_head]
  · by_cases hv : opt.imageVersion ≠ 0
    · rw [if_neg ht, if_neg ht, if_pos hv, if_pos hv, if_pos (by simp), read32_head]
    · rw [if_neg ht, if_neg ht, if_neg hv, if_neg hv, if_neg (by simp)]

theorem pickTargetSlot_ne : blPickTargetSlot m ≠ 0 := by
  unfold blPickTargetSlot
  split_ifs <;> decide

/-- Adapter and bootloader agree on a PREPARE exactly if the version does not come alone and the
size fits its field. -/
theorem prepare_agrees_iff (c : Ctl) :
    PrepareAgrees g m image image_crc32 opt ∧ VersionHarmless c g m image image_crc32 opt ↔
      (opt.targetBase ≠ 0 ∨ opt.imageVersion = 0) ∧ image.length < 2 ^ 32 := by
  have hfields := preparePayload_fields g image image_crc32 opt
  have htarget := preparePayload_target m image image_crc32 opt
  rw [prepareOptions_version] at hfields
  rw [prepareOptions_target] at htarget
  constructor
  · rintro ⟨h, -⟩
    refine ⟨?_, ?_⟩
    · by_contra hno
      push Not at hno
      have ht := h.target
      rw [htarget, if_neg (not_not.mpr hno.1), if_pos hno.2, if_neg (not_not.mpr hno.1)] at ht
      exact pickTargetSlot_ne m ht.symm
    · have hs := h.size
      rw [hfields] at hs
      rw [← hs]
      exact UInt32.toNat_lt _
  · rintro ⟨hopt, hlen⟩
    refine ⟨⟨?_, ?_, ?_, ?_, ?_⟩, fun ht hv => ?_⟩
    · rw [hfields]
      exact UInt32.toNat_ofNat_of_lt' hlen
    · rw [hfields]
    · rw [hfields]
      exact chunkSizeOf_toNat opt
    · rw [hfields]
    · rw [htarget]
      rcases hopt with ht | hv
      · rw [if_pos ht, if_pos ht]
      · rw [if_neg (not_not.mpr hv)]
    · rcases hopt with ht' | hv'
      · exact absurd ht ht'
      · exact absurd hv' hv

/-- A version without a target is refused by a bootloader that takes the same request without it. -/
theorem version_alone_refused :
    ¬ PrepareAgrees blCtxReset blMetadataDefault [0] 0 { imageVersion := 1 } ∧
      ¬ VersionHarmless (Ctl.start blankFlash none) blCtxReset blMetadataDefault [0] 0
        { imageVersion := 1 } := by
  have herr : prepareError blMetadataDefault
      (prepareFields blCtxReset (preparePayload [0] 0 { imageVersion := 1 }))
      (prepareTarget blMetadataDefault (preparePayload [0] 0 { imageVersion := 1 })) =
        some blErrBadTarget := by decide
  have hok : prepareError blMetadataDefault
      (prepareFields blCtxReset (preparePayload [0] 0 {}))
      (prepareTarget blMetadataDefault (preparePayload [0] 0 {})) = none := by decide
  have hslot := prepareTargetAllowed_slot (prepareError_none hok).2.2.2.2.1
  obtain ⟨hgood, -⟩ := @blFlashEraseSlot_blank (Ctl.start blankFlash none) _ rfl hslot
    fun _ _ _ => rfl
  constructor
  · intro h
    exact absurd h.target (by decide)
  · intro h
    have hacc := h rfl (by decide) (by decide)
    have htaken : Accepted (Ctl.start blankFlash none) blCtxReset blMetadataDefault
        (preparePayload [0] 0 {}) := by
      rcases herase : blFlashEraseSlot (Ctl.start blankFlash none)
        (prepareTarget blMetadataDefault (preparePayload [0] 0 {})) with ⟨c', ok⟩
      rw [herase] at hgood
      obtain rfl : ok = true := hgood
      rw [Accepted, blHandlePrepare_ok blCtxReset (by decide) hok herase]
      rfl
    have hbad := hacc htaken
    rcases blHandlePrepare_cases (Ctl.start blankFlash none) blCtxReset
      (preparePayload [0] 0 { imageVersion := 1 }) blMetadataDefault with
      ⟨-, hr⟩ | ⟨-, err, -, hr⟩ | ⟨-, he, -⟩
    · rw [Accepted, hr] at hbad
      cases hbad
    · rw [Accepted, hr] at hbad
      cases hbad
    · rw [herr] at he
      cases he

end EdgeLink.Ota
