import EdgeLink.SlotPolicy

namespace EdgeLink.Bootloader
open LittleEndian Nor Machine Journal

/-- Consecutive resets without the bootloader-request flag. Between two of them the application
may write anywhere but to the metadata sector and to slot `s`. -/
structure ResetRun (s : UInt8) (fl : ℕ → Mem) : Prop where
  sector : ∀ i, AgreeOn (reset (fl i) false).1.flash (fl (i + 1)) blMetadataBase.toNat
    blMetadataSize
  slot : ∀ i, AgreeOn (reset (fl i) false).1.flash (fl (i + 1)) (blSlotBase s).toNat
    blAppASize.toNat

/-- Boot `i` jumps to `s` as the pending slot. -/
def Tries (s : UInt8) (fl : ℕ → Mem) (i : ℕ) : Prop :=
  (reset (fl i) false).2.boot = some (.jump s true)

instance (s : UInt8) (fl : ℕ → Mem) : DecidablePred (Tries s fl) :=
  fun _ => inferInstanceAs (Decidable (_ = _))

/-- After boot `i` the metadata in force says that `s` was rolled back. -/
def RolledBack (s : UInt8) (fl : ℕ → Mem) (i : ℕ) : Prop :=
  let m := blMetadataLoadOrDefault (reset (fl i) false).1.flash
  slotState m s = imgRollback ∧ m.pendingSlot = blSlotNone

/-- At most three boots try `s`, the boot after them rolls it back, and no later boot tries it. -/
def BoundedTrial (s : UInt8) (fl : ℕ → Mem) : Prop :=
  ∃ k ≤ blMaxBootAttempts.toNat, (∀ i < k, Tries s fl i) ∧ RolledBack s fl k ∧
    ∀ i, k ≤ i → ¬ Tries s fl i

/-- Slot `s` is pending before a boot and holds a valid image. -/
structure OnTrial (s : UInt8) (fl : Mem) (slots : List Bytes) (m : OtaMetadata) : Prop where
  inForce : InForce fl slots m
  slot : s = blSlotA ∨ s = blSlotB
  pending : m.pendingSlot = s
  valid : blSlotImageValid fl m s = true

variable {s : UInt8} {fl : ℕ → Mem} {slots : List Bytes} {m : OtaMetadata} {i : ℕ}

theorem OnTrial.boots (h : OnTrial s (fl i) slots m) :
    reset (fl i) false = boot (Ctl.start (fl i) none) m [] := h.inForce.reset false

theorem OnTrial.isPending (h : OnTrial s (fl i) slots m) :
    m.pendingSlot = blSlotA ∨ m.pendingSlot = blSlotB := h.pending ▸ h.slot

/-- The image of `s` is judged the same before and after a commit of bookkeeping. -/
theorem OnTrial.next (hr : ResetRun s fl) (h : OnTrial s (fl i) slots m) {m₁ m₂ : OtaMetadata}
    {slots' : List Bytes} (ht : WellTagged m₁)
    (hfl : (reset (fl i) false).1.flash =
      (blMetadataCommit (Ctl.start (fl i) none) m₁).1.mem)
    (hf : InForce (reset (fl i) false).1.flash slots' m₂) (hs : SameImages m m₂)
    (hp : m₂.pendingSlot = s) : OnTrial s (fl (i + 1)) slots' m₂ where
  inForce := hf.congr (hr.sector i)
  slot := h.slot
  pending := hp
  valid := by
    have hagree := commit_slots h.inForce.shaped ht s
    rw [← hs.valid s (hagree.trans (hfl ▸ hr.slot i))]
    exact h.valid

theorem OnTrial.attempt_step (h : OnTrial s (fl i) slots m)
    (ha : m.bootAttempts < blMaxBootAttempts) :
    Tries s fl i ∧ (reset (fl i) false).1.flash =
      (blMetadataCommit (Ctl.start (fl i) none) (attempt m)).1.mem := by
  rw [Tries, h.boots]
  rcases mainBoot_cases (Ctl.start (fl i) none) m with ⟨hn, -⟩ | ⟨-, hn, -⟩ | ⟨-, -, -, hb⟩
  · exact absurd h.isPending hn
  · rcases hn with hn | hn
    · rw [h.pending] at hn
      exact absurd (h.valid.symm.trans hn) (by simp)
    · exact absurd ha (UInt8.not_lt.mpr hn)
  · dsimp only [boot]
    rw [hb, h.pending]
    exact ⟨rfl, rfl⟩

theorem OnTrial.rollback_step (h : OnTrial s (fl i) slots m)
    (ha : blMaxBootAttempts ≤ m.bootAttempts) :
    ¬ Tries s fl i ∧ (reset (fl i) false).1.flash =
      (blMetadataCommit (Ctl.start (fl i) none) (rollback m)).1.mem := by
  rw [Tries, h.boots]
  rcases mainBoot_cases (Ctl.start (fl i) none) m with ⟨hn, -⟩ | ⟨-, -, hb⟩ | ⟨-, -, hn, -⟩
  · exact absurd h.isPending hn
  · dsimp only [boot]
    rw [hb]
    refine ⟨fun hj => ?_, rfl⟩
    rcases fallback_cases (blMetadataCommit (Ctl.start (fl i) none) (rollback m)).1.mem
      (rollback m) with ⟨slot, hx, -⟩ | ⟨hx, -⟩
    · rw [hx] at hj
      cases hj
    · rw [hx] at hj
      cases hj
  · exact absurd ha (UInt8.not_le.mpr hn)

/-- The number that a commit of bookkeeping writes is newer than the stored one only when that
one is 0. -/
theorem newer_bookkeeping {m' : OtaMetadata} (hs : m'.metaSeq = m.metaSeq) :
    recNewer (blMetadataCommitWork m') m = decide (m.metaSeq = 0) := by
  rw [recNewer, commitWork_seq, hs]
  by_cases h0 : m.metaSeq = 0
  · rw [if_pos h0, h0]
    rfl
  · rw [if_neg h0, seqIsNewer_self, decide_eq_false h0]

/-- The defect: with `meta_seq` unchanged the counted attempt is not the record in force. -/
theorem OnTrial.repeats (hr : ResetRun s fl) (h : OnTrial s (fl i) slots m)
    (ha : m.bootAttempts < blMaxBootAttempts) (h0 : m.metaSeq ≠ 0)
    (hroom : slots.length < blMetaMaxRecords) :
    Tries s fl i ∧ OnTrial s (fl (i + 1))
      (slots ++ [encode (blMetadataCommitWork (attempt m))]) m := by
  obtain ⟨htry, hfl⟩ := h.attempt_step ha
  have ht : WellTagged (attempt m) := attempt_tagged h.inForce.tagged
  have hsh := (commit_spec h.inForce.shaped ht).2.1
  have hold := latest_put_older (commitWork_valid ht) hroom h.inForce.latest
    ((newer_bookkeeping (attempt_seq m)).trans (decide_eq_false h0))
  rw [← hfl] at hsh
  rw [journalPut, if_pos hroom] at hsh hold
  exact ⟨htry, h.next hr ht hfl ⟨hsh, hold⟩ (SameImages.refl m) h.pending⟩

theorem OnTrial.advances (hr : ResetRun s fl) (h : OnTrial s (fl i) slots m)
    (ha : m.bootAttempts < blMaxBootAttempts) (h0 : m.metaSeq = 0)
    (hroom : slots.length < blMetaMaxRecords) :
    Tries s fl i ∧ OnTrial s (fl (i + 1))
      (slots ++ [encode (blMetadataCommitWork (attempt m))]) (blMetadataCommitWork (attempt m)) := by
  obtain ⟨htry, hfl⟩ := h.attempt_step ha
  have ht : WellTagged (attempt m) := attempt_tagged h.inForce.tagged
  have hsh := (commit_spec h.inForce.shaped ht).2.1
  have hnew : latest (journalPut slots (blMetadataCommitWork (attempt m))) =
      some (blMetadataCommitWork (attempt m)) := by
    apply latest_put_newer (commitWork_valid ht)
    intro b hb
    rw [h.inForce.latest] at hb
    cases hb
    exact (newer_bookkeeping (attempt_seq m)).trans (decide_eq_true h0)
  rw [← hfl] at hsh
  rw [journalPut, if_pos hroom] at hsh hnew
  have hk := (kept_attempt m).trans (kept_commitWork (attempt m))
  refine ⟨htry, h.next hr ht hfl ⟨hsh, hnew⟩ hk.toSameImages ?_⟩
  rw [commitWork_stamp]
  exact h.pending

/-- Once nothing is pending, nothing is tried any more. -/
theorem quiet_after (hr : ResetRun s fl) (h : InForce (fl i) slots m)
    (hp : m.pendingSlot = blSlotNone) {j : ℕ} (hij : i ≤ j) :
    InForce (fl j) slots m ∧ ¬ Tries s fl j := by
  have hnone : ¬ (m.pendingSlot = blSlotA ∨ m.pendingSlot = blSlotB) := by
    rw [hp]
    decide
  have hboot : ∀ j, InForce (fl j) slots m → ¬ Tries s fl j ∧ InForce (fl (j + 1)) slots m := by
    intro j hj
    have hfl := hr.sector j
    rw [Tries, hj.reset false]
    rw [hj.reset false] at hfl
    rcases mainBoot_cases (Ctl.start (fl j) none) m with ⟨-, hb⟩ | ⟨hn, -⟩ | ⟨hn, -⟩
    · dsimp only [boot, Bool.false_eq_true, if_false] at hfl ⊢
      rw [hb] at hfl ⊢
      refine ⟨fun hx => ?_, hj.congr hfl⟩
      rcases fallback_cases (fl j) m with ⟨slot, hf, -⟩ | ⟨hf, -⟩
      · rw [Ctl.start_mem, hf] at hx
        cases hx
      · rw [Ctl.start_mem, hf] at hx
        cases hx
    · exact absurd hn hnone
    · exact absurd hn hnone
  induction j, hij using Nat.le_induction with
  | base => exact ⟨h, (hboot i h).1⟩
  | succ j _ ih =>
    have hj := (hboot j ih.1).2
    exact ⟨hj, (hboot (j + 1) hj).1⟩

theorem rolledBack_work (hs : s = blSlotA ∨ s = blSlotB) (hp : m.pendingSlot = s) :
    slotState (blMetadataCommitWork (rollback m)) s = imgRollback ∧
      (blMetadataCommitWork (rollback m)).pendingSlot = blSlotNone := by
  rw [commitWork_stamp]
  unfold rollback blSetSlotState
  rw [hp]
  rcases hs with rfl | rfl <;> exact ⟨rfl, rfl⟩

section GivesUp
variable (hr : ResetRun s fl) (h : OnTrial s (fl i) slots m) (ha : blMaxBootAttempts ≤ m.bootAttempts)
include hr h ha

/-- The record of the rollback wins. -/
theorem OnTrial.rolls_back
    (hl : latest (journalPut slots (blMetadataCommitWork (rollback m))) =
      some (blMetadataCommitWork (rollback m))) :
    RolledBack s fl i ∧ ∀ j, i ≤ j → ¬ Tries s fl j := by
  obtain ⟨hnot, hfl⟩ := h.rollback_step ha
  obtain ⟨hst, hnone⟩ := rolledBack_work h.slot h.pending
  have hsh := (commit_spec h.inForce.shaped (rollback_tagged h.inForce.tagged)).2.1
  rw [← hfl] at hsh
  have hin : InForce (reset (fl i) false).1.flash _ _ := ⟨hsh, hl⟩
  constructor
  · dsimp only [RolledBack]
    rw [hin.load]
    exact ⟨hst, hnone⟩
  · intro j hj
    rcases Nat.eq_or_lt_of_le hj with rfl | hlt
    · exact hnot
    · exact (quiet_after hr (hin.congr (hr.sector i)) hnone hlt).2

/-- With a number other than 0 the record of the rollback is appended in vain. -/
theorem OnTrial.rolls_back_in_vain (h0 : m.metaSeq ≠ 0) (hroom : slots.length < blMetaMaxRecords) :
    ¬ RolledBack s fl i ∧ OnTrial s (fl (i + 1))
      (slots ++ [encode (blMetadataCommitWork (rollback m))]) m := by
  have hfl := (h.rollback_step ha).2
  have ht : WellTagged (rollback m) := rollback_tagged h.inForce.tagged
  have hsh := (commit_spec h.inForce.shaped ht).2.1
  have hold := latest_put_older (commitWork_valid ht) hroom h.inForce.latest
    ((newer_bookkeeping (rollback_seq m)).trans (decide_eq_false h0))
  rw [← hfl] at hsh
  rw [journalPut, if_pos hroom] at hsh hold
  have hin : InForce (reset (fl i) false).1.flash _ m := ⟨hsh, hold⟩
  refine ⟨fun hrb => ?_, h.next hr ht hfl hin (SameImages.refl m) h.pending⟩
  dsimp only [RolledBack] at hrb
  rw [hin.load, h.pending] at hrb
  rcases h.slot with hs | hs <;> exact absurd (hs.symm.trans hrb.2) (by decide)

theorem OnTrial.rolls_back_from_zero (h0 : m.metaSeq = 0) :
    RolledBack s fl i ∧ ∀ j, i ≤ j → ¬ Tries s fl j := by
  apply h.rolls_back hr ha
  apply latest_put_newer (commitWork_valid (rollback_tagged h.inForce.tagged))
  intro b hb
  rw [h.inForce.latest] at hb
  cases hb
  exact (newer_bookkeeping (rollback_seq m)).trans (decide_eq_true h0)

/-- No boot tries the slot again; but where the number is not 0, only the recycling of the sector
puts the rollback into force. -/
theorem OnTrial.ends : ∃ k, i ≤ k ∧ RolledBack s fl k ∧ ∀ j, i ≤ j → ¬ Tries s fl j := by
  -- induction on the free records, of which every boot in vain uses one
  induction hn : blMetaMaxRecords - slots.length using Nat.strong_induction_on
    generalizing i slots with
  | _ n ih =>
    by_cases hroom : slots.length < blMetaMaxRecords
    · by_cases h0 : m.metaSeq = 0
      · exact ⟨i, le_rfl, h.rolls_back_from_zero hr ha h0⟩
      · obtain ⟨-, hnext⟩ := h.rolls_back_in_vain hr ha h0 hroom
        have hlt : blMetaMaxRecords - (slots ++ [encode (blMetadataCommitWork (rollback m))]).length
            < n := by
          rw [List.length_append, List.length_singleton]
          omega
        obtain ⟨k, hk, hrb, hq⟩ := ih _ hlt hnext rfl
        refine ⟨k, by omega, hrb, fun j hj => ?_⟩
        rcases Nat.eq_or_lt_of_le hj with rfl | hlater
        · exact (h.rollback_step ha).1
        · exact hq j hlater
    · exact ⟨i, le_rfl, h.rolls_back hr ha
        (latest_put_full (commitWork_valid (rollback_tagged h.inForce.tagged)) hroom)⟩

end GivesUp

/-- While attempts are left and the number is not 0, the slot is tried again and again. -/
theorem OnTrial.repeated (hr : ResetRun s fl) (h : OnTrial s (fl i) slots m)
    (ha : m.bootAttempts < blMaxBootAttempts) (h0 : m.metaSeq ≠ 0) {n : ℕ}
    (hroom : slots.length + n ≤ blMetaMaxRecords) :
    ∀ j, i ≤ j → j < i + n → Tries s fl j := by
  induction n generalizing i slots with
  | zero => omega
  | succ n ih =>
    obtain ⟨htry, hnext⟩ := h.repeats hr ha h0 (by omega)
    intro j hij hj
    rcases Nat.eq_or_lt_of_le hij with rfl | hlt
    · exact htry
    · exact ih hnext (by rw [List.length_append, List.length_singleton]; omega) j hlt (by omega)

theorem not_bounded_of_four (h : ∀ j, j < 4 → Tries s fl j) : ¬ BoundedTrial s fl := by
  rintro ⟨k, hk, -, -, hq⟩
  exact hq k le_rfl (h k (Nat.lt_succ_of_le hk))

/-- A boot that neither tries the slot nor puts the rollback into force is not the end of a trial. -/
theorem not_bounded_of_vain {n : ℕ} (hn : ¬ Tries s fl n) (hrb : ¬ RolledBack s fl n)
    (h : ∀ j, j < n → Tries s fl j) : ¬ BoundedTrial s fl := by
  rintro ⟨k, -, htries, hk, hq⟩
  rcases lt_trichotomy k n with hlt | rfl | hlt
  · exact hq k le_rfl (h k hlt)
  · exact hrb hk
  · exact hn (htries n hlt)

/-- A trial with room for four more records is bounded exactly when its attempts are already used
up and the record in force has the number 0. -/
theorem trial_bounded_iff (hr : ResetRun s fl) (h : OnTrial s (fl 0) slots m)
    (hroom : slots.length + (blMaxBootAttempts.toNat + 1) ≤ blMetaMaxRecords) :
    BoundedTrial s fl ↔ blMaxBootAttempts ≤ m.bootAttempts ∧ m.metaSeq = 0 := by
  have hmax : blMaxBootAttempts.toNat = 3 := rfl
  rw [hmax] at hroom
  constructor
  · intro hb
    by_contra hno
    by_cases ha : blMaxBootAttempts ≤ m.bootAttempts
    · have h0 : m.metaSeq ≠ 0 := fun h0 => hno ⟨ha, h0⟩
      have hvain := (h.rolls_back_in_vain hr ha h0 (by omega)).1
      exact not_bounded_of_vain (h.rollback_step ha).1 hvain (fun j hj => absurd hj (by omega)) hb
    have ha : m.bootAttempts < blMaxBootAttempts := UInt8.not_le.mp ha
    -- a number 0 is replaced by 1, so that one attempt is counted; any other number stays, and the record with it
    by_cases h0 : m.metaSeq = 0
    · obtain ⟨htry, hnext⟩ := h.advances hr ha h0 (by omega)
      have hnew : (blMetadataCommitWork (attempt m)).metaSeq ≠ 0 := by
        rw [commitWork_seq, attempt_seq, if_pos h0]
        decide
      have hroom' : (slots ++ [encode (blMetadataCommitWork (attempt m))]).length + 3 ≤
          blMetaMaxRecords := by
        rw [List.length_append, List.length_singleton]
        omega
      by_cases hlast : blMaxBootAttempts ≤ (blMetadataCommitWork (attempt m)).bootAttempts
      · have hvain := (hnext.rolls_back_in_vain hr hlast hnew (by omega)).1
        refine not_bounded_of_vain (hnext.rollback_step hlast).1 hvain (fun j hj => ?_) hb
        obtain rfl : j = 0 := by omega
        exact htry
      · refine not_bounded_of_four (fun j hj => ?_) hb
        rcases Nat.eq_zero_or_pos j with rfl | hpos
        · exact htry
        · exact hnext.repeated hr (UInt8.not_le.mp hlast) hnew hroom' j hpos (by omega)
    · exact not_bounded_of_four
        (fun j hj => h.repeated hr ha h0 (n := 4) hroom j (Nat.zero_le j) (by omega)) hb
  · rintro ⟨ha, h0⟩
    obtain ⟨hrb, hq⟩ := h.rolls_back_from_zero hr ha h0
    exact ⟨0, Nat.zero_le _, fun i hi => absurd hi (Nat.not_lt_zero i), hrb, hq⟩

def trialMeta : OtaMetadata :=
  blMetadataUpdateCrc { blMetadataDefault with
    pendingSlot := blSlotB, appBState := imgPending, appBSize := 8, appBCrc32 := blCrc32 imageB }

def trialFlash : Mem := boardFlash trialMeta

/-- The flash before each boot when nothing else runs. -/
def resets (fl₀ : Mem) : ℕ → Mem
  | 0 => fl₀
  | i + 1 => (reset (resets fl₀ i) false).1.flash

theorem resets_run (s : UInt8) (fl₀ : Mem) : ResetRun s (resets fl₀) :=
  ⟨fun _ _ _ _ => rfl, fun _ _ _ _ => rfl⟩

theorem trialMeta_onTrial : OnTrial blSlotB (resets trialFlash 0) [encode trialMeta] trialMeta where
  inForce := by
    have hv : blMetadataValidate trialMeta = true := by
      rw [trialMeta, validate_updateCrc]
      rfl
    exact boardFlash_inForce hv
  slot := Or.inr rfl
  pending := rfl
  valid := by
    change blSlotImageValid trialFlash trialMeta blSlotB = true
    decide +kernel

theorem trial_bounded_iff_on_board : BoundedTrial blSlotB (resets trialFlash) ↔
    blMaxBootAttempts ≤ trialMeta.bootAttempts ∧ trialMeta.metaSeq = 0 :=
  trial_bounded_iff (resets_run blSlotB trialFlash) trialMeta_onTrial (by decide)

/-- All attempts are left, and no number of resets uses them up. -/
theorem trial_unbounded :
    OnTrial blSlotB (resets trialFlash 0) [encode trialMeta] trialMeta ∧
      slotState trialMeta blSlotB = imgPending ∧
      [encode trialMeta].length + (blMaxBootAttempts.toNat + 1) ≤ blMetaMaxRecords ∧
      ResetRun blSlotB (resets trialFlash) ∧ ¬ BoundedTrial blSlotB (resets trialFlash) := by
  have h := trialMeta_onTrial
  have hr := resets_run blSlotB trialFlash
  refine ⟨h, rfl, by decide, hr, not_bounded_of_four fun j hj => ?_⟩
  have ha : trialMeta.bootAttempts < blMaxBootAttempts := by decide
  have h0 : trialMeta.metaSeq ≠ 0 := by decide
  exact h.repeated hr ha h0 (n := 4) (by decide) j (Nat.zero_le j) (by omega)

end EdgeLink.Bootloader
