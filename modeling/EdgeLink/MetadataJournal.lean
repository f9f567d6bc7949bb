import EdgeLink.AppMetadata

namespace EdgeLink.Bootloader
open LittleEndian Nor Journal App

def parseRecord (s : Bytes) : Option OtaMetadata :=
  if blMetadataValidate (decode s) then some (decode s) else none

def recNewer (a b : OtaMetadata) : Bool := blMetaSeqIsNewer a.metaSeq b.metaSeq

/-- The record in force of a journal. -/
abbrev latest (slots : List Bytes) : Option OtaMetadata := pick parseRecord recNewer slots

/-- The metadata sector is a journal with these written records. -/
abbrev MetaShaped (fl : Mem) (slots : List Bytes) : Prop :=
  Shaped blMetadataBase.toNat blMetaRecordSize blMetaMaxRecords fl slots

theorem recordSpace : blMetaMaxRecords * blMetaRecordSize ≤ blMetadataSize := by decide

theorem parseRecord_some {s : Bytes} {m : OtaMetadata} (h : parseRecord s = some m) :
    blMetadataValidate m = true ∧ decode s = m := by
  unfold parseRecord at h
  split_ifs at h with hv
  cases h
  exact ⟨hv, rfl⟩

theorem parseRecord_valid {s : Bytes} (h : blMetadataValidate (decode s) = true) :
    parseRecord s = some (decode s) := if_pos h

theorem parseRecord_invalid {s : Bytes} (h : ¬ blMetadataValidate (decode s) = true) :
    parseRecord s = none := if_neg h

theorem parseRecord_encode {m : OtaMetadata} (h : blMetadataValidate m = true) :
    parseRecord (encode m) = some m := by
  rw [parseRecord, decode_encode, if_pos h]

/-- A record with the magic word is never mistaken for erased flash. -/
theorem encode_written {m : OtaMetadata} (h : m.magic = blMetaMagic) :
    ∃ b ∈ encode m, b ≠ 0xFF := by
  refine ⟨0x41, ?_, by decide⟩
  have hm : (0x41 : UInt8) ∈ bytes32 blMetaMagic := by decide
  simp only [encode, List.append_assoc, h]
  exact List.mem_append_left _ hm

theorem slotIsErased_iff (fl : Mem) (addr : ℕ) :
    blMetaSlotIsErased fl addr = true ↔ Blank fl addr blMetaRecordSize := by
  rw [blank_iff_read, blMetaSlotIsErased, List.all_eq_true]
  simp only [beq_iff_eq]

variable {fl : Mem} {slots : List Bytes}

theorem erased_at (h : MetaShaped fl slots) (hroom : slots.length < blMetaMaxRecords) :
    blMetaSlotIsErased fl (recordAddr slots.length) = true :=
  (slotIsErased_iff _ _).mpr (h.slot_blank hroom)

theorem written_at (h : MetaShaped fl slots) {i : ℕ} (hi : i < slots.length) :
    blMetaSlotIsErased fl (recordAddr i) = false := by
  rw [Bool.eq_false_iff]
  exact fun he => h.slot_written hi ((slotIsErased_iff _ _).mp he)

theorem recordAt_slot (h : MetaShaped fl slots) {i : ℕ} (hi : i < slots.length) :
    recordAt fl (recordAddr i) = decode slots[i] := by
  rw [recordAt, recordAddr, h.stored i hi]

/-- The loop body is one scan step of the journal. -/
theorem better_eq (best : Option (ℕ × OtaMetadata)) (addr : ℕ) (s : Bytes) :
    (blMetaBetter best addr (decode s)).map Prod.snd =
      keep parseRecord recNewer (best.map Prod.snd) s := by
  unfold blMetaBetter
  by_cases hv : blMetadataValidate (decode s) = true
  · have hp := parseRecord_valid hv
    rw [if_neg (by simp [hv])]
    cases best with
    | none => exact (keep_first hp).symm
    | some b =>
      simp only [Option.all_some, Option.map_some]
      by_cases hb : blMetaSeqIsNewer (decode s).metaSeq b.2.metaSeq = true
      · rw [if_pos hb, keep_newer hp hb]
        rfl
      · rw [if_neg hb, keep_older hp (Bool.eq_false_iff.mpr hb)]
        rfl
  · rw [if_pos (by simp [hv]), keep_unreadable (parseRecord_invalid hv)]

theorem findLatestFrom_eq (h : MetaShaped fl slots) (n i : ℕ) (best : Option (ℕ × OtaMetadata))
    (hn : i + n = blMetaMaxRecords) (hi : i ≤ slots.length) :
    (blMetaFindLatestFrom fl i best n).map Prod.snd =
      (slots.drop i).foldl (keep parseRecord recNewer) (best.map Prod.snd) := by
  induction n generalizing i best with
  | zero =>
    have := h.room
    rw [List.drop_of_length_le (by omega)]
    rfl
  | succ n ih =>
    rw [blMetaFindLatestFrom]
    rcases Nat.lt_or_ge i slots.length with hlt | hge
    · rw [written_at h hlt, recordAt_slot h hlt, List.drop_eq_getElem_cons hlt, List.foldl_cons]
      rw [if_neg (by simp), ih (i + 1) _ (by omega) hlt, better_eq]
    · obtain rfl : i = slots.length := by omega
      rw [erased_at h (by omega), if_pos rfl, List.drop_length]
      rfl

theorem findLatest_eq (h : MetaShaped fl slots) :
    (blMetaFindLatest fl).map Prod.snd = latest slots :=
  findLatestFrom_eq h blMetaMaxRecords 0 none (by omega) (Nat.zero_le _)

theorem loadOrDefault_eq (h : MetaShaped fl slots) :
    blMetadataLoadOrDefault fl = (latest slots).getD blMetadataDefault := by
  rw [← findLatest_eq h, blMetadataLoadOrDefault]
  cases blMetaFindLatest fl <;> rfl

theorem anyValid_eq (h : MetaShaped fl slots) :
    blMetadataAnyValid fl = (latest slots).isSome := by
  rw [← findLatest_eq h, blMetadataAnyValid, Option.isSome_map]

theorem otaMetaBetter_eq (best : Option (ℕ × OtaMetadata)) (addr : ℕ) (m : OtaMetadata) :
    otaMetaBetter (best.map Prod.snd) m = (blMetaBetter best addr m).map Prod.snd := by
  change (if m.magic ≠ blMetaMagic ∨ m.schemaVersion ≠ blMetaSchemaVersion then best.map Prod.snd
    else if blCrc32 (encode { m with metadataCrc32 := 0 }) ≠ m.metadataCrc32 then
      best.map Prod.snd
    else if (best.map Prod.snd).all fun b => blMetaSeqIsNewer m.metaSeq b.metaSeq then some m
    else best.map Prod.snd) = _
  unfold blMetaBetter
  by_cases hv : blMetadataValidate m = true
  · obtain ⟨hm, hs, hc⟩ := (validate_iff m).mp hv
    rw [if_neg (by tauto), if_neg (by tauto),
      if_neg (show ¬ (!blMetadataValidate m) = true by simp [hv])]
    cases best with
    | none => rfl
    | some b =>
      simp only [Option.map_some, Option.all_some]
      split_ifs <;> rfl
  · have hf := mt (validate_iff m).mpr hv
    rw [if_pos (show (!blMetadataValidate m) = true by simp [hv])]
    split_ifs with h₁ h₂ <;> first | rfl | exact absurd ⟨by tauto, by tauto, by tauto⟩ hf

theorem otaMetaLoadFrom_eq (fl : Mem) (n i : ℕ) (best : Option (ℕ × OtaMetadata)) :
    otaMetaLoadFrom fl i (best.map Prod.snd) n =
      (blMetaFindLatestFrom fl i best n).map Prod.snd := by
  induction n generalizing i best with
  | zero => rfl
  | succ n ih =>
    rw [blMetaFindLatestFrom]
    -- the application spells the sector base and the record size out again
    change (if blMetaSlotIsErased fl (recordAddr i) = true then best.map Prod.snd
      else otaMetaLoadFrom fl (i + 1)
        (otaMetaBetter (best.map Prod.snd) (recordAt fl (recordAddr i))) n) = _
    rw [otaMetaBetter_eq _ (recordAddr i), ih]
    split_ifs <;> rfl

/-- Both readers find the same record, in any flash content. -/
theorem otaMetaLoad_eq (fl : Mem) : otaMetaLoad fl = (blMetaFindLatest fl).map Prod.snd :=
  otaMetaLoadFrom_eq fl otaMetaMaxRecords 0 none

theorem findAppendFrom_eq (h : MetaShaped fl slots) (n i : ℕ)
    (hn : i + n = blMetaMaxRecords) (hi : i ≤ slots.length) :
    blMetaFindAppendAddrFrom fl i n =
      if slots.length < blMetaMaxRecords then some (recordAddr slots.length) else none := by
  induction n generalizing i with
  | zero => rw [blMetaFindAppendAddrFrom, if_neg (by omega)]
  | succ n ih =>
    rw [blMetaFindAppendAddrFrom]
    rcases Nat.lt_or_ge i slots.length with hlt | hge
    · rw [written_at h hlt, if_neg (by simp)]
      exact ih (i + 1) (by omega) hlt
    · obtain rfl : i = slots.length := by omega
      rw [erased_at h (by omega), if_pos rfl, if_pos (by omega)]

theorem findAppendAddr_eq (h : MetaShaped fl slots) :
    blMetaFindAppendAddr fl =
      if slots.length < blMetaMaxRecords then some (recordAddr slots.length) else none :=
  findAppendFrom_eq h blMetaMaxRecords 0 (by omega) (Nat.zero_le _)

theorem otaMetaFindAppend_eq (fl : Mem) (n i : ℕ) :
    otaMetaFindAppendFrom fl i n = blMetaFindAppendAddrFrom fl i n := by
  induction n generalizing i with
  | zero => rfl
  | succ n ih =>
    rw [otaMetaFindAppendFrom, blMetaFindAppendAddrFrom, ← ih]
    rfl

theorem programRecord_eq (c : Ctl) (a : ℕ) (bs : Bytes) (h₁ : flashLo ≤ a)
    (h₂ : a + bs.length ≤ flashHi) :
    (programRecord c a bs).1.mem = program c.mem a (cut c.life bs) ∧
      ((programRecord c a bs).2 = true ↔ ∀ k, c.life = some k → bs.length ≤ k) := by
  induction bs generalizing c a with
  | nil => cases h : c.life <;> simp [programRecord, cut]
  | cons b bs ih =>
    rw [List.length_cons] at h₂
    have hin : (Op.program a [b]).Inside flashLo flashHi := ⟨h₁, by simp [Op.hi]; omega⟩
    by_cases h0 : c.life = some 0
    · have hi : halFlashProgramByte c a b = ({ c with ops := c.ops ++ [.program a [b]] }, false) :=
        Ctl.issue_fail h0
      rw [programRecord, hi]
      simp [h0, cut]
    · have hi : halFlashProgramByte c a b = (⟨program c.mem a [b], c.life.map (· - 1),
          c.ops ++ [.program a [b]]⟩, true) := Ctl.issue_ok h0 hin
      rw [programRecord, hi]
      obtain ⟨hm, hok⟩ := ih ⟨program c.mem a [b], c.life.map (· - 1), c.ops ++ [.program a [b]]⟩
        (a + 1) (by omega) (by omega)
      simp only at hm hok ⊢
      rw [hm, hok, ← program_cons]
      rcases hl : c.life with _ | _ | k
      · simp [cut]
      · exact absurd hl h0
      · simp [cut]

theorem writeRecord_mem (c : Ctl) (a : ℕ) (m : OtaMetadata) :
    (blMetadataWriteRecord c a m).1 = (programRecord c a (encode m)).1 := by
  unfold blMetadataWriteRecord
  rcases programRecord c a (encode m) with ⟨c', _ | _⟩ <;> rfl

theorem otaMetaWrite_mem (c : Ctl) (a : ℕ) (m : OtaMetadata) :
    (otaMetaWrite c a m).1 = (programRecord c a (encode m)).1 := by
  unfold otaMetaWrite
  rcases programRecord c a (encode m) with ⟨c', _ | _⟩ <;> rfl

/-- The journal after a commit of `m`, of which `life` operations took effect. -/
abbrev metaPut (life : Option ℕ) (fl : Mem) (slots : List Bytes) (m : OtaMetadata) : Mem :=
  put blMetadataBase.toNat blMetaRecordSize blMetaMaxRecords blMetadataSize life fl slots (encode m)

abbrev metaPutSlots (life : Option ℕ) (slots : List Bytes) (m : OtaMetadata) : List Bytes :=
  putSlots blMetaRecordSize blMetaMaxRecords life slots (encode m)

theorem recordAddr_inside {i : ℕ} (h : i < blMetaMaxRecords) :
    flashLo ≤ recordAddr i ∧ recordAddr i + blMetaRecordSize ≤ flashHi := by
  have hm : blMetaMaxRecords = 1092 := by decide
  simp only [recordAddr, blMetaRecordSize, flashLo, flashHi, blMetadataBase, UInt32.reduceToNat]
  omega

@[simp] theorem recordAddr_zero : recordAddr 0 = blMetadataBase.toNat := by simp [recordAddr]

theorem programEncoded_eq (c : Ctl) {i : ℕ} (h : i < blMetaMaxRecords) (m : OtaMetadata) :
    (programRecord c (recordAddr i) (encode m)).1.mem =
        program c.mem (recordAddr i) (cut c.life (encode m)) ∧
      ((programRecord c (recordAddr i) (encode m)).2 = true ↔
        ∀ k, c.life = some k → blMetaRecordSize ≤ k) := by
  obtain ⟨h₁, h₂⟩ := recordAddr_inside h
  have hp := programRecord_eq c (recordAddr i) (encode m) h₁ (by rwa [encode_length])
  rwa [encode_length] at hp

theorem eraseSector_fail {c : Ctl} (h : c.life = some 0) :
    (blMetadataEraseSector c).2 = false ∧ (blMetadataEraseSector c).1.mem = c.mem := by
  rw [blMetadataEraseSector, halFlashExErase, Ctl.issue_fail h]
  exact ⟨rfl, rfl⟩

theorem eraseSector_ok {c : Ctl} (h : c.life ≠ some 0) :
    ∃ c', blMetadataEraseSector c = (c', true) ∧
      c'.mem = erase c.mem blMetadataBase.toNat blMetadataSize ∧ c'.life = c.life.map (· - 1) := by
  have hin : (Op.erase (sectorBase 4) (sectorSize 4)).Inside flashLo flashHi := by decide
  rw [blMetadataEraseSector, halFlashExErase, Ctl.issue_ok h hin]
  exact ⟨_, rfl, rfl, rfl⟩

theorem put_room {life : Option ℕ} (h : slots.length < blMetaMaxRecords) (m : OtaMetadata) :
    metaPut life fl slots m = program fl (recordAddr slots.length) (cut life (encode m)) :=
  if_pos h

theorem put_full {life : Option ℕ} (h : ¬ slots.length < blMetaMaxRecords) (h0 : life ≠ some 0)
    (m : OtaMetadata) :
    metaPut life fl slots m = program (erase fl blMetadataBase.toNat blMetadataSize)
      (recordAddr 0) (cut (life.map (· - 1)) (encode m)) := by
  rw [metaPut, put, if_neg h, if_neg h0, recordAddr_zero]

theorem put_none (h : ¬ slots.length < blMetaMaxRecords) (m : OtaMetadata) :
    metaPut (some 0) fl slots m = fl := by
  rw [metaPut, put, if_neg h, if_pos rfl]

/-- The control flow both commits share, whatever they check after the byte loop. -/
theorem journalCommit_mem {c : Ctl} (h : MetaShaped c.mem slots) (m : OtaMetadata)
    {write : Ctl → ℕ → Ctl × Bool}
    (hw : ∀ c a, (write c a).1 = (programRecord c a (encode m)).1) :
    (match blMetaFindAppendAddr c.mem with
      | some append_addr => write c append_addr
      | none =>
        match blMetadataEraseSector c with
        | (c', false) => (c', false)
        | (c', true) => write c' blMetadataBase.toNat).1.mem = metaPut c.life c.mem slots m := by
  rw [findAppendAddr_eq h]
  by_cases hroom : slots.length < blMetaMaxRecords
  · rw [if_pos hroom, put_room hroom]
    simp only [hw]
    exact (programEncoded_eq c hroom m).1
  · rw [if_neg hroom]
    by_cases h0 : c.life = some 0
    · obtain ⟨hf, hm⟩ := eraseSector_fail h0
      rw [h0, put_none hroom]
      simp only
      split
      · rename_i c' he
        rw [he] at hm
        exact hm
      · rename_i c' he
        rw [he] at hf
        exact absurd hf (by simp)
    · obtain ⟨c', he, hm, hl⟩ := eraseSector_ok h0
      rw [he, put_full hroom h0, ← hm, ← hl, ← recordAddr_zero]
      simp only [hw]
      exact (programEncoded_eq c' (by decide) m).1

theorem commit_mem {c : Ctl} (h : MetaShaped c.mem slots) (m : OtaMetadata) :
    (blMetadataCommit c m).1.mem = metaPut c.life c.mem slots (blMetadataCommitWork m) := by
  have hj := journalCommit_mem h (blMetadataCommitWork m) fun c a => writeRecord_mem c a _
  rw [blMetadataCommit]
  exact hj

theorem otaCommit_mem {c : Ctl} (h : MetaShaped c.mem slots) (m : OtaMetadata) :
    (otaMetaCommit c m).1.mem = metaPut c.life c.mem slots (otaMetaUpdateCrc m) := by
  have ha : otaMetaFindAppendFrom c.mem 0 otaMetaMaxRecords = blMetaFindAppendAddr c.mem :=
    otaMetaFindAppend_eq c.mem _ 0
  have he : halFlashExErase c otaMetaSector 1 = blMetadataEraseSector c := rfl
  have hb : otaMetaAddr = blMetadataBase.toNat := rfl
  have hj := journalCommit_mem h (otaMetaUpdateCrc m) fun c a => otaMetaWrite_mem c a _
  rw [otaMetaCommit, ha, he, hb]
  exact hj

theorem shaped_metaPut (h : MetaShaped fl slots) (life : Option ℕ) (m : OtaMetadata) :
    MetaShaped (metaPut life fl slots m) (metaPutSlots life slots m) :=
  h.put recordSpace (by decide) life (encode_length m)

theorem metaPut_outside (life : Option ℕ) (m : OtaMetadata) {x : ℕ}
    (hx : x < blMetadataBase.toNat ∨ blMetadataBase.toNat + blMetadataSize ≤ x) :
    metaPut life fl slots m x = fl x :=
  put_outside recordSpace (by decide) life (encode_length m) hx

def journalPut (slots : List Bytes) (m : OtaMetadata) : List Bytes :=
  if slots.length < blMetaMaxRecords then slots ++ [encode m] else [encode m]

theorem metaPutSlots_none (slots : List Bytes) {m : OtaMetadata} (hm : m.magic = blMetaMagic) :
    metaPutSlots none slots m = journalPut slots m :=
  putSlots_full (encode_length m) (encode_written hm)

theorem journalPut_cases (slots : List Bytes) {m : OtaMetadata}
    (hm : blMetadataValidate m = true) :
    latest (journalPut slots m) = some m ∨
      (latest slots).isSome ∧ latest (journalPut slots m) = latest slots := by
  have hp := parseRecord_encode hm
  unfold journalPut
  split_ifs
  · rw [latest, pick_append_one]
    rcases hl : pick parseRecord recNewer slots with _ | b
    · exact Or.inl (keep_first hp)
    · cases hn : recNewer m b with
      | true => exact Or.inl (keep_newer hp hn)
      | false => exact Or.inr ⟨by rw [latest, hl]; rfl, by rw [latest, hl]; exact keep_older hp hn⟩
  · exact Or.inl (pick_singleton hp)

theorem latest_put_newer {m : OtaMetadata} (hm : blMetadataValidate m = true)
    (hn : ∀ b, latest slots = some b → recNewer m b = true) :
    latest (journalPut slots m) = some m := by
  have hp := parseRecord_encode hm
  unfold journalPut
  split_ifs
  · rw [latest, pick_append_one]
    rcases hl : pick parseRecord recNewer slots with _ | b
    · exact keep_first hp
    · exact keep_newer hp (hn b hl)
  · exact pick_singleton hp

theorem latest_put_older {m b : OtaMetadata} (hm : blMetadataValidate m = true)
    (hroom : slots.length < blMetaMaxRecords) (hb : latest slots = some b)
    (hn : recNewer m b = false) : latest (journalPut slots m) = some b := by
  rw [journalPut, if_pos hroom, latest, pick_append_one]
  rw [latest] at hb
  rw [hb]
  exact keep_older (parseRecord_encode hm) hn

theorem latest_put_full {m : OtaMetadata} (hm : blMetadataValidate m = true)
    (hroom : ¬ slots.length < blMetaMaxRecords) : latest (journalPut slots m) = some m := by
  rw [journalPut, if_neg hroom]
  exact pick_singleton (parseRecord_encode hm)

/-- The right magic word and schema: what every metadata value the firmware builds has. -/
def WellTagged (m : OtaMetadata) : Prop :=
  m.magic = blMetaMagic ∧ m.schemaVersion = blMetaSchemaVersion

theorem wellTagged_of_validate {m : OtaMetadata} (h : blMetadataValidate m = true) :
    WellTagged m := ⟨((validate_iff m).mp h).1, ((validate_iff m).mp h).2.1⟩

theorem commitWork_valid {m : OtaMetadata} (h : WellTagged m) :
    blMetadataValidate (blMetadataCommitWork m) = true := by
  rw [blMetadataCommitWork, validate_updateCrc]
  split_ifs <;> simp [h.1, h.2]

theorem otaUpdateCrc_valid {m : OtaMetadata} (h : WellTagged m) :
    blMetadataValidate (otaMetaUpdateCrc m) = true := by
  have hv := validate_updateCrc m
  simp only [h.1, h.2, beq_self_eq_true, Bool.and_self] at hv
  exact hv

theorem latest_valid {b : OtaMetadata} (h : latest slots = some b) :
    blMetadataValidate b = true := by
  obtain ⟨s, -, hs⟩ := pick_mem h
  exact (parseRecord_some hs).1

theorem writeRecord_ok {c : Ctl} {i : ℕ} {m : OtaMetadata} (hi : i < blMetaMaxRecords)
    (hb : Blank c.mem (recordAddr i) blMetaRecordSize) (hl : c.life = none)
    (hm : blMetadataValidate m = true) :
    (blMetadataWriteRecord c (recordAddr i) m).2 = true := by
  obtain ⟨hmem, hok⟩ := programEncoded_eq c hi m
  have hread := @program_blank c.mem (recordAddr i) (encode m) (by rwa [encode_length])
  rw [encode_length] at hread
  rw [hl] at hmem
  unfold blMetadataWriteRecord recordAt
  rcases hp : programRecord c (recordAddr i) (encode m) with ⟨c', ok⟩
  rw [hp] at hmem hok
  obtain rfl : ok = true := hok.mpr (by simp [hl])
  simp only at hmem ⊢
  rw [hmem, cut, hread, decode_encode]
  simp [hm]

theorem commit_ok {c : Ctl} (h : MetaShaped c.mem slots) (hl : c.life = none) {m : OtaMetadata}
    (hm : WellTagged m) : (blMetadataCommit c m).2 = true := by
  have hv := commitWork_valid hm
  rw [blMetadataCommit, findAppendAddr_eq h]
  by_cases hroom : slots.length < blMetaMaxRecords
  · rw [if_pos hroom]
    exact writeRecord_ok hroom (h.slot_blank hroom) hl hv
  · obtain ⟨c', he, hmem, hl'⟩ := eraseSector_ok (c := c) (by simp [hl])
    rw [if_neg hroom, he]
    simp only
    rw [← recordAddr_zero]
    refine writeRecord_ok (by decide) ?_ (by rw [hl', hl]; rfl) hv
    rw [hmem, recordAddr_zero]
    exact (erase_blank _ _ _).mono le_rfl (by decide)

/-- An uninterrupted commit of the bootloader, as a step of the journal. -/
theorem commit_spec (h : MetaShaped fl slots) {m : OtaMetadata} (hm : WellTagged m) :
    (blMetadataCommit (Ctl.start fl none) m).2 = true ∧
      MetaShaped (blMetadataCommit (Ctl.start fl none) m).1.mem
        (journalPut slots (blMetadataCommitWork m)) ∧
      ∀ x, x < blMetadataBase.toNat ∨ blMetadataBase.toNat + blMetadataSize ≤ x →
        (blMetadataCommit (Ctl.start fl none) m).1.mem x = fl x := by
  have hmem := commit_mem (c := Ctl.start fl none) h m
  have hmag := (wellTagged_of_validate (commitWork_valid hm)).1
  refine ⟨commit_ok h rfl hm, ?_, fun x hx => ?_⟩
  · rw [hmem, ← metaPutSlots_none slots hmag]
    exact shaped_metaPut h none _
  · rw [hmem]
    exact metaPut_outside none _ hx

/-- The application's commit is the same step with its own copy of the record. -/
theorem otaCommit_spec (h : MetaShaped fl slots) {m : OtaMetadata} (hm : WellTagged m) :
    MetaShaped (otaMetaCommit (Ctl.start fl none) m).1.mem
        (journalPut slots (otaMetaUpdateCrc m)) ∧
      ∀ x, x < blMetadataBase.toNat ∨ blMetadataBase.toNat + blMetadataSize ≤ x →
        (otaMetaCommit (Ctl.start fl none) m).1.mem x = fl x := by
  have hmem := otaCommit_mem (c := Ctl.start fl none) h m
  have hmag := (wellTagged_of_validate (otaUpdateCrc_valid hm)).1
  refine ⟨?_, fun x hx => ?_⟩
  · rw [hmem, ← metaPutSlots_none slots hmag]
    exact shaped_metaPut h none _
  · rw [hmem]
    exact metaPut_outside none _ hx

end EdgeLink.Bootloader
