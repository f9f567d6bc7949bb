import EdgeLink.OtaDevice

namespace EdgeLink.Bootloader
open LittleEndian Nor Journal App

/-- The two programs that append to the metadata sector. -/
inductive Writer
  | bootloader
  | application
  deriving DecidableEq, Repr

def Writer.commit : Writer → Ctl → OtaMetadata → Ctl × Bool
  | .bootloader => blMetadataCommit
  | .application => otaMetaCommit

/-- The record that a commit of `m` programs. -/
def Writer.stamp : Writer → OtaMetadata → OtaMetadata
  | .bootloader => blMetadataCommitWork
  | .application => otaMetaUpdateCrc

/-- The flash that commits leave, each of them cut off anywhere or not at all, from an erased
sector on. -/
inductive Reachable : Mem → Prop
  | erased {fl : Mem} : Blank fl blMetadataBase.toNat blMetadataSize → Reachable fl
  | commit {fl : Mem} (wr : Writer) (life : Option ℕ) (m : OtaMetadata) :
    Reachable fl → Reachable (wr.commit (Ctl.start fl life) m).1.mem

/-- What is read back from the first `k` bytes of a record when the rest stays erased. -/
def torn (w : OtaMetadata) (k : ℕ) : OtaMetadata :=
  decode (pad blMetaRecordSize ((encode w).take k))

variable {fl : Mem} {slots : List Bytes} {m w : OtaMetadata}

theorem Writer.commit_mem (wr : Writer) {life : Option ℕ} (h : MetaShaped fl slots)
    (m : OtaMetadata) :
    (wr.commit (Ctl.start fl life) m).1.mem = metaPut life fl slots (wr.stamp m) := by
  cases wr with
  | bootloader => exact Bootloader.commit_mem (c := Ctl.start fl life) h m
  | application => exact Bootloader.otaCommit_mem (c := Ctl.start fl life) h m

theorem Writer.stamp_valid (wr : Writer) (hm : WellTagged m) :
    blMetadataValidate (wr.stamp m) = true := by
  cases wr with
  | bootloader => exact commitWork_valid hm
  | application => exact otaUpdateCrc_valid hm

theorem Writer.stamp_seq (wr : Writer) (h : m.metaSeq ≠ 0) : (wr.stamp m).metaSeq = m.metaSeq := by
  cases wr with
  | bootloader =>
    rw [Writer.stamp, commitWork_seq]
    exact if_neg h
  | application => rw [Writer.stamp, otaUpdateCrc_seq]

/-- However the commits were cut off, the sector holds written records and then erased ones. -/
theorem Reachable.shaped (h : Reachable fl) : ∃ slots, MetaShaped fl slots := by
  induction h with
  | erased hb => exact ⟨[], shaped_erased (hb.mono le_rfl (Nat.add_le_add_left recordSpace _))⟩
  | commit wr life m _ ih =>
    obtain ⟨slots, hs⟩ := ih
    rw [wr.commit_mem hs m]
    exact ⟨_, shaped_metaPut hs life (wr.stamp m)⟩

theorem blank_invalid : blMetadataValidate (decode (List.replicate blMetaRecordSize 0xFF)) = false := by
  decide +kernel

/-- One more record of which only `bs` was programmed. -/
theorem latest_addSlot {bs : Bytes} (hbs : bs.length ≤ blMetaRecordSize) :
    latest (addSlot blMetaRecordSize slots bs) =
      keep parseRecord recNewer (latest slots) (pad blMetaRecordSize bs) := by
  unfold addSlot
  split_ifs with hff
  · have hpad : pad blMetaRecordSize bs = List.replicate blMetaRecordSize 0xFF := by
      rw [List.eq_replicate_iff]
      refine ⟨pad_length hbs, fun b hb => ?_⟩
      rcases List.mem_append.mp hb with hb | hb
      · exact hff b hb
      · exact List.eq_of_mem_replicate hb
    have hnone : parseRecord (pad blMetaRecordSize bs) = none := by
      rw [hpad]
      exact parseRecord_invalid (by rw [blank_invalid]; simp)
    rw [keep_unreadable hnone]
  · exact pick_append_one _ _ _ _

/-- After a cut the scan keeps its record or takes what was programmed, if that is valid. -/
theorem latest_cut_room {b : OtaMetadata} {bs : Bytes} (hb : latest slots = some b)
    (hbs : bs.length ≤ blMetaRecordSize) :
    latest (addSlot blMetaRecordSize slots bs) = some b ∨
      (blMetadataValidate (decode (pad blMetaRecordSize bs)) = true ∧
        latest (addSlot blMetaRecordSize slots bs) = some (decode (pad blMetaRecordSize bs))) := by
  rw [latest_addSlot hbs, hb]
  by_cases hv : blMetadataValidate (decode (pad blMetaRecordSize bs)) = true
  · have hp := parseRecord_valid hv
    cases hn : recNewer (decode (pad blMetaRecordSize bs)) b with
    | true => exact Or.inr ⟨hv, keep_newer hp hn⟩
    | false => exact Or.inl (keep_older hp hn)
  · exact Or.inl (keep_unreadable (parseRecord_invalid hv) _)

/-- In a recycled sector there is nothing else to take. -/
theorem latest_cut_erased {bs : Bytes} (hbs : bs.length ≤ blMetaRecordSize) :
    latest (addSlot blMetaRecordSize [] bs) = parseRecord (pad blMetaRecordSize bs) := by
  rw [latest_addSlot hbs]
  cases hp : parseRecord (pad blMetaRecordSize bs) with
  | none => exact keep_unreadable hp none
  | some r => exact keep_first hp

theorem cut_pad (life : Option ℕ) (w : OtaMetadata) :
    decode (pad blMetaRecordSize (cut life (encode w))) =
      match life with
      | none => w
      | some k => torn w k := by
  cases life with
  | none => rw [cut, pad_full (encode_length w), decode_encode]
  | some k => rfl

/-- What the next boot reads from `fl'`, the flash after a commit of `m` of which `life` operations
took effect, at every fill level of the sector. -/
structure AfterCut (wr : Writer) (fl : Mem) (m : OtaMetadata) (life : Option ℕ) (fl' : Mem) :
    Prop where
  /-- with a free record: the old record, the new one, or a part of it that is itself valid -/
  room : blMetaFindAppendAddr fl ≠ none → blMetadataAnyValid fl' = true ∧
    (blMetadataLoadOrDefault fl' = blMetadataLoadOrDefault fl ∨
      blMetadataLoadOrDefault fl' = wr.stamp m ∨
      ∃ k, life = some k ∧ blMetadataValidate (torn (wr.stamp m) k) = true ∧
        blMetadataLoadOrDefault fl' = torn (wr.stamp m) k)
  /-- a full sector before the erase -/
  full_before : blMetaFindAppendAddr fl = none → life = some 0 →
    blMetadataLoadOrDefault fl' = blMetadataLoadOrDefault fl
  /-- a full sector after the erase and before the last byte -/
  full_between : blMetaFindAppendAddr fl = none → ∀ k, life = some (k + 1) →
    k < blMetaRecordSize → blMetadataLoadOrDefault fl' =
      if blMetadataValidate (torn (wr.stamp m) k) = true then torn (wr.stamp m) k
      else blMetadataDefault
  /-- a full sector after the last byte -/
  full_after : blMetaFindAppendAddr fl = none →
    (∀ k, life = some k → blMetaRecordSize < k) → blMetadataLoadOrDefault fl' = wr.stamp m
  /-- a commit that runs to its end puts a record with a number other than 0 into force -/
  complete : m.metaSeq ≠ 0 → (∀ k, life = some k → blMetaRecordSize < k) →
    blMetadataLoadOrDefault fl' = wr.stamp m

theorem load_latest {r : OtaMetadata} (h : MetaShaped fl slots) (hl : latest slots = some r) :
    blMetadataLoadOrDefault fl = r ∧ blMetadataAnyValid fl = true := by
  rw [loadOrDefault_eq h, anyValid_eq h, hl]
  exact ⟨rfl, rfl⟩

theorem cut_size (life : Option ℕ) (w : OtaMetadata) :
    (cut life (encode w)).length ≤ blMetaRecordSize := by
  have h := cut_length_le life (encode w)
  rwa [encode_length] at h

theorem cut_full {life : Option ℕ} (h : ∀ k, life = some k → blMetaRecordSize ≤ k)
    (w : OtaMetadata) : cut life (encode w) = encode w := by
  cases life with
  | none => rfl
  | some k => exact List.take_of_length_le (by rw [encode_length]; exact h k rfl)

/-- A commit that runs to its end is the step of the journal that nothing interrupts. -/
theorem metaPutSlots_full {life : Option ℕ} (h : ∀ k, life = some k → blMetaRecordSize < k)
    (hw : w.magic = blMetaMagic) : metaPutSlots life slots w = journalPut slots w := by
  have h₁ := cut_full (fun k hk => (h k hk).le) w
  have h₂ := @cut_full (life.map (· - 1)) (fun k hk => by
    obtain ⟨j, hj, rfl⟩ := Option.map_eq_some_iff.mp hk
    have := h j hj
    omega) w
  have h0 : life ≠ some 0 := fun h0 => absurd (h 0 h0) (Nat.not_lt_zero _)
  have hnone : metaPutSlots none slots w =
      if slots.length < blMetaMaxRecords then addSlot blMetaRecordSize slots (encode w)
      else addSlot blMetaRecordSize [] (encode w) := by
    unfold metaPutSlots putSlots
    rw [if_neg (Option.some_ne_none 0).symm, Option.map_none, cut]
  rw [← metaPutSlots_none slots hw, hnone, metaPutSlots, putSlots, h₁, h₂, if_neg h0]

/-- Power loss inside a commit, at every fill level and every point. -/
theorem commit_power_loss (wr : Writer) (hr : Reachable fl)
    (hb : blMetadataAnyValid fl = true) (hm : WellTagged m)
    (hn : blMetaSeqIsNewer m.metaSeq (blMetadataLoadOrDefault fl).metaSeq = true)
    (life : Option ℕ) :
    AfterCut wr fl m life (wr.commit (Ctl.start fl life) m).1.mem := by
  obtain ⟨slots, hs⟩ := hr.shaped
  rw [anyValid_eq hs] at hb
  obtain ⟨b, hl⟩ := Option.isSome_iff_exists.mp hb
  have hload : blMetadataLoadOrDefault fl = b := (load_latest hs hl).1
  rw [hload] at hn
  have hadd := findAppendAddr_eq hs
  have hv := wr.stamp_valid hm
  have hmag := (wellTagged_of_validate hv).1
  have hput := shaped_metaPut hs life (wr.stamp m)
  rw [wr.commit_mem hs m]
  have hfull : blMetaFindAppendAddr fl = none → ¬ slots.length < blMetaMaxRecords := by
    intro hno hlt
    rw [hadd, if_pos hlt] at hno
    cases hno
  refine ⟨fun hsome => ?_, fun hno h0 => ?_, fun hno k hk hlt => ?_, fun hno hend => ?_,
    fun hseq hend => ?_⟩
  · have hroom : slots.length < blMetaMaxRecords := by
      by_contra hfull
      exact hsome (by rw [hadd, if_neg hfull])
    have hslots : metaPutSlots life slots (wr.stamp m) =
        addSlot blMetaRecordSize slots (cut life (encode (wr.stamp m))) := if_pos hroom
    rw [hslots] at hput
    -- a torn record counts only if it is valid as it stands
    rcases latest_cut_room hl (cut_size life (wr.stamp m)) with hold | ⟨hval, hnew⟩
    · obtain ⟨hafter, hany⟩ := load_latest hput hold
      exact ⟨hany, Or.inl (hafter.trans hload.symm)⟩
    · obtain ⟨hafter, hany⟩ := load_latest hput hnew
      rw [cut_pad] at hval hafter
      cases life with
      | none => exact ⟨hany, Or.inr (Or.inl hafter)⟩
      | some k => exact ⟨hany, Or.inr (Or.inr ⟨k, rfl, hval, hafter⟩)⟩
  · rw [h0, put_none (hfull hno)]
  · have hslots : metaPutSlots life slots (wr.stamp m) =
        addSlot blMetaRecordSize [] (cut (some k) (encode (wr.stamp m))) := by
      rw [metaPutSlots, putSlots, if_neg (hfull hno), hk, if_neg (by simp)]
      rfl
    rw [hslots] at hput
    rw [loadOrDefault_eq hput, latest_cut_erased (cut_size _ _), parseRecord, cut_pad]
    dsimp only
    split_ifs <;> rfl
  · rw [metaPutSlots_full hend hmag] at hput
    exact (load_latest hput (latest_put_full hv (hfull hno))).1
  · rw [metaPutSlots_full hend hmag] at hput
    refine (load_latest hput (latest_put_newer hv fun b' hb' => ?_)).1
    rw [hl] at hb'
    cases hb'
    rw [recNewer, wr.stamp_seq hseq]
    exact hn

/-- The next boot reads the old record or the new one with its CRC. -/
def Atomic (wr : Writer) (fl : Mem) (m : OtaMetadata) (life : Option ℕ) : Prop :=
  let after := blMetadataLoadOrDefault (wr.commit (Ctl.start fl life) m).1.mem
  after = blMetadataLoadOrDefault fl ∨ after = blMetadataUpdateCrc m

/-- A sector to which the same metadata was committed `n` times. -/
def commits (m : OtaMetadata) : ℕ → Mem
  | 0 => blankFlash
  | n + 1 => (blMetadataCommit (Ctl.start (commits m n) none) m).1.mem

theorem commits_reachable (m : OtaMetadata) (n : ℕ) : Reachable (commits m n) := by
  induction n with
  | zero => exact Reachable.erased fun _ _ _ => rfl
  | succ n ih => exact ih.commit .bootloader none m

theorem commits_shaped (hm : WellTagged m) {n : ℕ} (hn : n ≤ blMetaMaxRecords) :
    MetaShaped (commits m n) (List.replicate n (encode (blMetadataCommitWork m))) := by
  induction n with
  | zero => exact shaped_erased fun _ _ _ => rfl
  | succ n ih =>
    have h := (commit_spec (ih (by omega)) hm).2.1
    rw [journalPut, if_pos (by rw [List.length_replicate]; omega)] at h
    rwa [List.replicate_succ']

theorem latest_replicate (hw : blMetadataValidate w = true) (n : ℕ) :
    latest (List.replicate (n + 1) (encode w)) = some w := by
  induction n with
  | zero => exact pick_singleton (parseRecord_encode hw)
  | succ n ih =>
    rw [List.replicate_succ', latest, pick_append_one]
    rw [latest] at ih
    rw [ih]
    exact keep_older (parseRecord_encode hw) (seqIsNewer_self _)

theorem commits_inForce (hm : WellTagged m) {n : ℕ} (hn : n + 1 ≤ blMetaMaxRecords) :
    InForce (commits m (n + 1)) (List.replicate (n + 1) (encode (blMetadataCommitWork m)))
      (blMetadataCommitWork m) :=
  ⟨commits_shaped hm hn, latest_replicate (commitWork_valid hm) n⟩

/-- What was programmed wins when it is valid and newer. -/
theorem load_cut_room {b : OtaMetadata} {k : ℕ} (h : InForce fl slots b)
    (hroom : slots.length < blMetaMaxRecords) (hv : blMetadataValidate (torn w k) = true)
    (hn : blMetaSeqIsNewer (torn w k).metaSeq b.metaSeq = true) :
    blMetadataLoadOrDefault (metaPut (some k) fl slots w) = torn w k := by
  have hput := shaped_metaPut h.shaped (some k) w
  have hslots : metaPutSlots (some k) slots w =
      addSlot blMetaRecordSize slots (cut (some k) (encode w)) := if_pos hroom
  rw [hslots] at hput
  refine (load_latest hput ?_).1
  rw [latest_addSlot (cut_size _ _), h.latest]
  exact keep_newer (parseRecord_valid hv) hn

def agedMeta : OtaMetadata := { blMetadataDefault with rollbackCount := 1 }

def nextMeta : OtaMetadata := { agedMeta with metaSeq := 2 }

/-- Its first 52 bytes, with 0xFF after them, have a CRC of 0xFFFFFFFF. -/
def collidingMeta : OtaMetadata := { blMetadataDefault with metaSeq := 2, appACrc32 := 0xD93F6249 }

def lastMeta : OtaMetadata := { agedMeta with metaSeq := 0xFFFF }

def wrappedMeta : OtaMetadata := { agedMeta with metaSeq := 0 }

theorem commit_power_loss_aged :
    AfterCut .application (commits agedMeta 1) nextMeta (some 7)
      (otaMetaCommit (Ctl.start (commits agedMeta 1) (some 7)) nextMeta).1.mem := by
  have h := @commits_inForce agedMeta ⟨rfl, rfl⟩ 0 (by decide)
  have hany : blMetadataAnyValid (commits agedMeta 1) = true := (load_latest h.shaped h.latest).2
  have hn : blMetaSeqIsNewer nextMeta.metaSeq
      (blMetadataLoadOrDefault (commits agedMeta 1)).metaSeq = true := by
    rw [h.load]
    decide +kernel
  exact commit_power_loss .application (commits_reachable agedMeta 1) hany ⟨rfl, rfl⟩ hn (some 7)

theorem default_tagged : WellTagged blMetadataDefault := ⟨rfl, rfl⟩

/-- Power lost between the erase of a full sector and the first byte leaves no record at all. -/
theorem load_recycled (wr : Writer) (hs : MetaShaped fl slots)
    (hfull : ¬ slots.length < blMetaMaxRecords) (m : OtaMetadata) :
    blMetadataLoadOrDefault (wr.commit (Ctl.start fl (some 1)) m).1.mem = blMetadataDefault := by
  have hput := shaped_metaPut hs (some 1) (wr.stamp m)
  have hslots : metaPutSlots (some 1) slots (wr.stamp m) = [] := by
    rw [metaPutSlots, putSlots, if_neg hfull, if_neg (by simp), Option.map_some, cut,
      List.take_zero]
    simp [addSlot]
  rw [hslots] at hput
  rw [wr.commit_mem hs m, loadOrDefault_eq hput]
  rfl

theorem colliding_torn_valid :
    blMetadataValidate (torn (Writer.stamp .bootloader collidingMeta) 52) = true := by
  let t := { torn (Writer.stamp .bootloader collidingMeta) 52 with metadataCrc32 := 0 }
  have h₁ : ((encode t).take 20).foldl crc32Byte 0xFFFFFFFF = 0x8E780AF6 := by decide +kernel
  have h₂ : (((encode t).drop 20).take 20).foldl crc32Byte 0x8E780AF6 = 0x103727CD := by
    decide +kernel
  have h₃ : (((encode t).drop 20).drop 20).foldl crc32Byte 0x103727CD = 0 := by decide +kernel
  have hcrc : blCrc32 (encode t) = 0xFFFFFFFF := by
    rw [blCrc32, crc32_split _ _ 20, h₁, crc32_split _ _ 20, h₂, h₃]
    rfl
  rw [validate_iff]
  exact ⟨by decide +kernel, by decide +kernel, hcrc.trans (by decide +kernel)⟩

theorem commit_not_atomic :
    (Reachable (commits agedMeta blMetaMaxRecords) ∧
      blMetaSeqIsNewer nextMeta.metaSeq
        (blMetadataLoadOrDefault (commits agedMeta blMetaMaxRecords)).metaSeq = true ∧
      ¬ Atomic .bootloader (commits agedMeta blMetaMaxRecords) nextMeta (some 1)) ∧
    (Reachable (commits agedMeta 1) ∧
      blMetaSeqIsNewer collidingMeta.metaSeq
        (blMetadataLoadOrDefault (commits agedMeta 1)).metaSeq = true ∧
      ¬ Atomic .bootloader (commits agedMeta 1) collidingMeta (some 52)) ∧
    (Reachable (commits lastMeta 1) ∧
      blMetaSeqIsNewer wrappedMeta.metaSeq
        (blMetadataLoadOrDefault (commits lastMeta 1)).metaSeq = true ∧
      ¬ Atomic .bootloader (commits lastMeta 1) wrappedMeta none) := by
  have hfull := @commits_inForce agedMeta default_tagged 1091 (by decide)
  have hone := @commits_inForce agedMeta default_tagged 0 (by decide)
  have hffff := @commits_inForce lastMeta default_tagged 0 (by decide)
  refine ⟨⟨commits_reachable _ _, ?_, ?_⟩, ⟨commits_reachable _ _, ?_, ?_⟩,
    ⟨commits_reachable _ _, ?_, ?_⟩⟩
  · rw [show blMetaMaxRecords = 1091 + 1 by decide, hfull.load]
    decide +kernel
  · have hcut := load_recycled .bootloader hfull.shaped (by rw [List.length_replicate]; decide)
      nextMeta
    rw [show blMetaMaxRecords = 1091 + 1 by decide, Atomic, hfull.load, hcut]
    decide +kernel
  · rw [hone.load]
    decide +kernel
  · have hcut := @load_cut_room _ _ (Writer.stamp .bootloader collidingMeta) _ 52 hone
      (by rw [List.length_replicate]; decide) colliding_torn_valid (by decide +kernel)
    rw [Atomic, hone.load, Writer.commit_mem .bootloader hone.shaped, hcut]
    decide +kernel
  · rw [hffff.load]
    decide +kernel
  · have hnew : latest (journalPut _ (blMetadataCommitWork wrappedMeta)) = _ :=
      latest_put_newer (commitWork_valid default_tagged) fun b hb => by
        rw [hffff.latest] at hb
        cases hb
        decide +kernel
    have hshaped := (commit_spec hffff.shaped (m := wrappedMeta) default_tagged).2.1
    rw [Atomic, hffff.load, Writer.commit, (load_latest hshaped hnew).1]
    decide +kernel

end EdgeLink.Bootloader
