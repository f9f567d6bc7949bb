import EdgeLink.OtaSession
import EdgeLink.JournalWriters

namespace EdgeLink.Bootloader
open LittleEndian Nor Machine Journal

/-- An acknowledged COMMIT of a verified session. -/
structure CommitsVerified (w : Device × Option Session) (e : Event) (t : Session) : Prop where
  noted : w.2 = some t
  verified : t.verified ≠ none
  commit : ∃ f life seq, e = .frame f life ∧ f.type = blDnOtaCommit ∧
    (step w.1 e).2.reply = some (.ack seq)

/-- Every boot that finds the slot and the metadata sector as they were left takes the image. -/
def BootAccepts (t : Session) (fl : Mem) : Prop :=
  ∀ fl' slot, slot = blSlotA ∨ slot = blSlotB → blSlotBase slot = t.base →
    AgreeOn fl fl' blMetadataBase.toNat blMetadataSize →
    AgreeOn fl fl' t.base.toNat blAppASize.toNat →
    blSlotImageValid fl' (blMetadataLoadOrDefault fl') slot = true

/-- The stack pointer lies in the first 128 KB of RAM, and the image fits the slot. -/
def Bootable (t : Session) (fl : Mem) : Prop :=
  wordAt fl t.base.toNat < 0x20020000 ∧ t.size ≠ 0 ∧ t.size ≤ blAppASize

theorem and_shiftLeft (x k n : ℕ) : x &&& (k <<< n) = ((x >>> n) &&& k) <<< n := by
  apply Nat.eq_of_testBit_eq
  intro i
  simp only [Nat.testBit_and, Nat.testBit_shiftLeft, Nat.testBit_shiftRight]
  by_cases h : n ≤ i
  · rw [Nat.add_sub_cancel' h]
    simp [h]
  · simp [h]

/-- On the addresses that VERIFY admits, the mask of `main` leaves bit 17 to decide. -/
theorem sp_mask {sp : UInt32} (h : 0x20000000 ≤ sp) (h' : sp < 0x20030000) :
    sp &&& 0x2FFE0000 = 0x20000000 ↔ sp < 0x20020000 := by
  have hlo : 0x20000000 ≤ sp.toNat := h
  have hhi : sp.toNat < 0x20030000 := h'
  have hand : (sp &&& 0x2FFE0000).toNat = ((sp.toNat >>> 17) &&& 0x17FF) <<< 17 :=
    (UInt32.toNat_and sp _).trans (and_shiftLeft sp.toNat 0x17FF 17)
  have hshift : sp.toNat >>> 17 = sp.toNat / 2 ^ 17 := Nat.shiftRight_eq_div_pow _ _
  rw [← UInt32.toNat_inj, hand, hshift]
  change _ ↔ sp.toNat < 0x20020000
  by_cases hlt : sp.toNat < 0x20020000
  · have hdiv : sp.toNat / 2 ^ 17 = 0x1000 := by omega
    rw [hdiv]
    exact ⟨fun _ => hlt, fun _ => by decide⟩
  · have hdiv : sp.toNat / 2 ^ 17 = 0x1001 := by omega
    rw [hdiv]
    exact ⟨fun he => absurd he (by decide), fun hl => absurd hl hlt⟩

variable {fl fl' : Mem} {g : BlOtaCtx} {t : Session} {m cur : OtaMetadata} {slots : List Bytes}

theorem vector_boot_iff {base : UInt32} (hb : base = blAppABase ∨ base = blAppBBase)
    (h : blVectorValidForSlot fl base blAppASize = true) :
    blIsVectorValid fl base = true ↔ wordAt fl base.toNat < 0x20020000 := by
  unfold blVectorValidForSlot at h
  dsimp only at h
  split_ifs at h with hsp hpc
  push Not at hsp hpc
  have hflash : ¬ (wordAt fl (base.toNat + 4) < blFlashBase ∨
      wordAt fl (base.toNat + 4) ≥ blFlashBase + 0x100000) := by
    have hlo : base.toNat ≤ (wordAt fl (base.toNat + 4)).toNat := UInt32.not_lt.mp hpc.1
    have hhi : (wordAt fl (base.toNat + 4)).toNat < (base + blAppASize).toNat :=
      UInt32.not_le.mp hpc.2
    have hF : (blFlashBase + 0x100000).toNat = 0x08100000 := by decide
    have hF' : blFlashBase.toNat = 0x08000000 := by decide
    rw [UInt32.lt_iff_toNat_lt, ge_iff_le, UInt32.le_iff_toNat_le, hF, hF']
    rcases hb with rfl | rfl
    · have hend : (blAppABase + blAppASize).toNat = 0x08080000 := by decide
      have hA : blAppABase.toNat = 0x08020000 := by decide
      omega
    · have hend : (blAppBBase + blAppASize).toNat = 0x080E0000 := by decide
      have hB : blAppBBase.toNat = 0x08080000 := by decide
      omega
  unfold blIsVectorValid
  dsimp only
  rw [if_neg hflash, ← sp_mask (UInt32.not_lt.mp hsp.1) (UInt32.not_le.mp hsp.2)]
  by_cases hm : wordAt fl base.toNat &&& 0x2FFE0000 = 0x20000000
  · rw [if_neg (not_not.mpr hm)]
    exact ⟨fun _ => hm, fun _ => rfl⟩
  · rw [if_pos hm]
    exact ⟨fun hf => absurd hf (by simp), fun he => absurd he hm⟩

/-- On an image that passed VERIFY, the verdict of `main` is down to the stack pointer and size. -/
theorem slotImageValid_iff {slot : UInt8} (hb : blSlotBase slot = g.targetBase)
    (hslot : g.targetBase = blAppABase ∨ g.targetBase = blAppBBase)
    (hs : blSlotImageSize m slot = g.imageSize) (hc : blSlotCrc m slot = g.imageCrc32)
    (hcrc : blCrc32 (read fl g.targetBase.toNat g.imageSize.toNat) = g.imageCrc32)
    (hv : blVectorValidForSlot fl g.targetBase blAppASize = true) :
    blSlotImageValid fl m slot = true ↔
      wordAt fl g.targetBase.toNat < 0x20020000 ∧ g.imageSize ≠ 0 ∧ g.imageSize ≤ blAppASize := by
  rw [← vector_boot_iff hslot hv]
  unfold blSlotImageValid blSlotSize
  dsimp only
  rw [hs, hc, hb, hcrc]
  by_cases hok : g.imageSize ≠ 0 ∧ g.imageSize ≤ blAppASize
  · rw [if_neg (not_not.mpr hok)]
    by_cases hvec : blIsVectorValid fl g.targetBase = true
    · rw [if_neg (not_not.mpr hvec), beq_self_eq_true]
      exact ⟨fun _ => ⟨hvec, hok⟩, fun _ => rfl⟩
    · rw [if_pos hvec]
      exact ⟨fun hf => absurd hf (by simp), fun h => absurd h.1 hvec⟩
  · rw [if_pos hok]
    exact ⟨fun hf => absurd hf (by simp), fun h => absurd h.2 hok⟩

theorem slot_of_base {slot : UInt8} (hs : slot = blSlotA ∨ slot = blSlotB)
    (hb : blSlotBase slot = g.targetBase) : slot = commitSlot g := by
  unfold commitSlot
  rw [← hb]
  rcases hs with rfl | rfl <;> rfl

theorem base_of_slot (hslot : g.targetBase = blAppABase ∨ g.targetBase = blAppBBase) :
    (commitSlot g = blSlotA ∨ commitSlot g = blSlotB) ∧ blSlotBase (commitSlot g) = g.targetBase :=
  ⟨commitSlot_cases g, commitSlot_base hslot⟩

/-- The record of a COMMIT is the one that the next boot reads. -/
theorem boot_accepts_iff_bootable {n : ℕ} (hin : InForce fl slots cur) (hm : WellTagged m)
    (hs : m.metaSeq = cur.metaSeq) (h : Follows fl g t) (hv : t.verified = some n) :
    BootAccepts t (blMetadataCommit (Ctl.start fl none) (commitNext g m)).1.mem ↔ Bootable t fl := by
  have hnew := @InForce.commitNext_wins _ _ _ _ g hin hm hs
  have hsame := commitWork_same (commitNext g m)
  have hkeep : ∀ k, AgreeOn fl (blMetadataCommit (Ctl.start fl none) (commitNext g m)).1.mem
      g.targetBase.toNat k := by
    intro k x hx _
    have htouch := blMetadataCommit_touches (Ctl.start fl none) (commitNext g m)
    exact (htouch.frame x (Or.inr (h.anchored.base.trans hx))).symm
  generalize (blMetadataCommit (Ctl.start fl none) (commitNext g m)).1.mem = fl₁ at hnew hkeep ⊢
  obtain ⟨-, -, hcrc, hvec⟩ := h.verified n hv
  -- the verdict at a later boot, about the flash that VERIFY saw
  have hverdict : ∀ fl', AgreeOn fl₁ fl' blMetadataBase.toNat blMetadataSize →
      AgreeOn fl₁ fl' g.targetBase.toNat blAppASize.toNat →
      (blSlotImageValid fl' (blMetadataLoadOrDefault fl') (commitSlot g) = true ↔
        wordAt fl g.targetBase.toNat < 0x20020000 ∧ g.imageSize ≠ 0 ∧
          g.imageSize ≤ blAppASize) := by
    intro fl' hmeta hslot
    obtain ⟨-, hbase⟩ := base_of_slot h.anchored.slot
    have hagree : AgreeOn fl fl' (blSlotBase (commitSlot g)).toNat blAppASize.toNat := by
      rw [hbase]
      exact (hkeep _).trans hslot
    have hsize := hsame.size (commitSlot g)
    have hcrc' := hsame.crc (commitSlot g)
    rw [(hnew.congr hmeta).load, ← slotImageValid_congr hagree hsize.symm hcrc'.symm]
    exact slotImageValid_iff hbase h.anchored.slot (commitNext_size g m) (commitNext_crc g m) hcrc
      hvec
  unfold BootAccepts Bootable
  rw [← h.base, ← h.size]
  constructor
  · intro hacc
    obtain ⟨hcases, hbase⟩ := base_of_slot h.anchored.slot
    exact (hverdict fl₁ (fun _ _ _ => rfl) fun _ _ _ => rfl).mp
      (hacc fl₁ (commitSlot g) hcases hbase (fun _ _ _ => rfl) fun _ _ _ => rfl)
  · intro hboot fl' slot hslot hbase hmeta hagree
    rw [slot_of_base hslot hbase]
    exact (hverdict fl' hmeta hagree).mpr hboot

theorem step_accepts_iff {w : Device × Option Session} {e : Event} (h : WellNoted w)
    (hs : Sequenced w.1) (hc : CommitsVerified w e t) :
    BootAccepts t (step w.1 e).1.flash ↔ Bootable t w.1.flash := by
  obtain ⟨⟨fl, mode⟩, s⟩ := w
  obtain ⟨hnote, hver, f, life, seq, rfl, hf, hreply⟩ := hc
  obtain ⟨n, hn⟩ := Option.ne_none_iff_exists'.mp hver
  obtain ⟨slots, hsh, -, hloop⟩ := hs
  cases mode with
  | off => cases hreply
  | app slot => cases hreply
  | loop g m final =>
    obtain ⟨-, htag, ⟨cur, hl, hseq⟩, -⟩ := hloop g m final rfl
    have hst : step ⟨fl, .loop g m final⟩ (.frame f life) = receive fl g m final f life := rfl
    rw [hst] at hreply ⊢
    rcases receive_commit final life hsh htag hf with ⟨seq', err, hr⟩ | ⟨ha, -, fl', hfl, hr⟩
    · rw [hr] at hreply
      cases hreply
    · obtain ⟨t', ht', hfol⟩ := h g m final rfl ha
      have heq : t' = t := Option.some.inj (ht'.symm.trans hnote)
      rw [hr, hfl]
      exact boot_accepts_iff_bootable ⟨hsh, hl⟩ htag hseq (heq ▸ hfol) hn

theorem step_wellNoted {w : Device × Option Session} (e : Event)
    (h : WellNoted w ∧ Sequenced w.1) :
    let w' := (watched step observe w e).1
    WellNoted w' ∧ Sequenced w'.1 :=
  ⟨step_noted e h.1, (step_sequenced h.2).1⟩

/-- In every run: when a COMMIT of a verified session is acknowledged, later boots take the image
exactly if its stack pointer lies in the first 128 KB and its size fits. -/
theorem verified_boots_iff (h : MetaShaped fl slots)
    (hn : ∀ cur, latest slots = some cur → Numbered cur) (es : List Event) :
    Always (watched step observe) (fun w e => ∀ t, CommitsVerified w e t →
      (BootAccepts t (step w.1 e).1.flash ↔ Bootable t w.1.flash)) (⟨fl, .off⟩, none) es := by
  have hnoted : WellNoted (⟨fl, .off⟩, none) := fun g m final hl => by cases hl
  have hseq : Sequenced ⟨fl, .off⟩ := ⟨slots, h, hn, fun g m final hl => by cases hl⟩
  apply Always.of_invariant (I := fun w => WellNoted w ∧ Sequenced w.1) (C := fun _ _ => True) _
    ⟨hnoted, hseq⟩
  · exact Always.of_forall _ (fun _ _ _ => trivial) _
  · exact fun w e hw _ => ⟨step_wellNoted e hw, fun t ht => step_accepts_iff hw.1 hw.2 ht⟩

def highStack : Bytes := [0x00, 0x00, 0x02, 0x20, 0x01, 0x01, 0x08, 0x08]

def highStackCrc : UInt32 := 0x96575E0E

theorem highStackCrc_eq : blCrc32 highStack = highStackCrc := by decide +kernel

theorem highStack_fits : highStack.length ≤ 246 := by decide

def highStackStart : List Event :=
  [.reset true, .frame (prepareFrame 1 8 highStackCrc 8) none,
    .frame (dataFrame 2 0 highStack highStack_fits) none]

def highStackUpdate : List Event :=
  highStackStart ++ [.frame (verifyFrame 3 highStackCrc) none, .frame (commitFrame 4) none]

theorem default_inForce : InForce (recordFlash blMetadataDefault) [encode blMetadataDefault]
    blMetadataDefault := recordFlash_inForce default_valid

theorem default_numbered {slots : List Bytes} (h : latest slots = some blMetadataDefault) :
    ∀ cur, latest slots = some cur → Numbered cur := by
  intro cur hl hp
  rw [h] at hl
  cases hl
  exact absurd hp default_pends

theorem highStackUpdate_boots : Always (watched step observe) (fun w e => ∀ t,
    CommitsVerified w e t → (BootAccepts t (step w.1 e).1.flash ↔ Bootable t w.1.flash))
    (⟨recordFlash blMetadataDefault, .off⟩, none) highStackUpdate :=
  verified_boots_iff default_inForce.shaped (default_numbered default_inForce.latest) _

theorem words_of_read {fl : Mem} {a : ℕ} {bs : Bytes} (h : read fl a 8 = bs) :
    wordAt fl a = read32 bs 0 ∧ wordAt fl (a + 4) = read32 bs 4 := by
  have hat : ∀ i < 8, bs.getD i 0 = fl (a + i) := by
    intro i hi
    rw [← h, read_getD _ _ _ _ hi]
  unfold wordAt read32
  constructor
  · simp only [read_getD, hat, Nat.zero_add, Nat.reduceLT]
  · simp only [read_getD, hat, Nat.zero_add, Nat.reduceLT, Nat.reduceAdd, Nat.add_assoc]

def highStackCtx (seq : UInt16) (offset : UInt32) : BlOtaCtx :=
  ⟨true, seq, blAppBBase, 8, highStackCrc, 8, 0, offset⟩

def highStackFlash : Mem := program (recordFlash blMetadataDefault) blAppBBase.toNat highStack

theorem highStack_stored : read highStackFlash blAppBBase.toNat 8 = highStack :=
  program_blank ((recordFlash_blank blMetadataDefault blSlotB).mono le_rfl
    (Nat.add_le_add_left (by decide : highStack.length ≤ blAppASize.toNat) _))

theorem highStack_reset : step ⟨recordFlash blMetadataDefault, .off⟩ (.reset true) =
    (⟨recordFlash blMetadataDefault, .loop blCtxReset blMetadataDefault false⟩, silent) :=
  default_inForce.reset true

theorem highStack_opened :
    let r := step ⟨recordFlash blMetadataDefault, .loop blCtxReset blMetadataDefault false⟩
      (.frame (prepareFrame 1 8 highStackCrc 8) none)
    r.1 = ⟨recordFlash blMetadataDefault, .loop (highStackCtx 2 0) blMetadataDefault false⟩ ∧
      r.2.reply = some (.ack 1) := by
  let f := prepareFrame 1 8 highStackCrc 8
  have hnone : prepareError blMetadataDefault (prepareFields blCtxReset f.payload)
      (prepareTarget blMetadataDefault f.payload) = none := by decide
  have hctx : prepareCtx f.payload blAppBBase = highStackCtx 2 0 := prepareCtx_frame _ _ _ _ _
  have hopen := receive_prepare_blank (g := blCtxReset) false rfl (by decide) hnone
    (recordFlash_blank blMetadataDefault blSlotB)
  have hseq : read16 f.payload 0 = 1 := by decide
  rw [hseq] at hopen
  rw [← hctx]
  exact hopen

theorem highStack_chunk :
    let r := step ⟨recordFlash blMetadataDefault, .loop (highStackCtx 2 0) blMetadataDefault false⟩
      (.frame (dataFrame 2 0 highStack highStack_fits) none)
    r.1 = ⟨highStackFlash, .loop (highStackCtx 3 8) blMetadataDefault false⟩ ∧
      r.2.reply = some (.ack 2) :=
  receive_data_blank (g := highStackCtx 2 0) false (by decide) (by decide) rfl (by decide)
    (by decide) (by decide) (by decide)
    ((recordFlash_blank blMetadataDefault blSlotB).mono le_rfl (by decide))

theorem highStack_received : run step ⟨recordFlash blMetadataDefault, .off⟩
    highStackStart = ⟨highStackFlash, .loop (highStackCtx 3 8) blMetadataDefault false⟩ := by
  rw [highStackStart, run_cons, highStack_reset, run_cons, highStack_opened.1, run_cons,
    highStack_chunk.1, run_nil]

theorem highStack_verified :
    let r := step ⟨highStackFlash, .loop (highStackCtx 3 8) blMetadataDefault false⟩
      (.frame (verifyFrame 3 highStackCrc) none)
    r.1 = ⟨highStackFlash, .loop (highStackCtx 4 8) blMetadataDefault false⟩ ∧
      r.2.reply = some (.ack 3) := by
  have hcrc : blCrc32 (read highStackFlash blAppBBase.toNat 8) = highStackCrc := by
    rw [highStack_stored, highStackCrc_eq]
  have hvec : blVectorValidForSlot highStackFlash blAppBBase blAppASize = true := by
    obtain ⟨hsp, hpc⟩ := words_of_read highStack_stored
    unfold blVectorValidForSlot
    dsimp only
    rw [hsp, hpc]
    decide
  have hctx : { highStackCtx 3 8 with expectedSeq := (highStackCtx 3 8).expectedSeq + 1 } =
      highStackCtx 4 8 := by decide
  have hnext := receive_verify (m := blMetadataDefault) (g := highStackCtx 3 8) false none rfl
    (rfl : (highStackCtx 3 8).expectedSeq = 3) rfl hcrc hvec
  rw [hctx] at hnext
  exact hnext

/-- VERIFY and COMMIT accept it, and the next boot does not. -/
theorem highStack_unbootable : ¬ Always (watched step observe) (fun w e => ∀ t,
    CommitsVerified w e t → BootAccepts t (step w.1 e).1.flash)
    (⟨recordFlash blMetadataDefault, .off⟩, none) highStackUpdate := by
  intro h
  let w₀ : Device × Option Session := (⟨recordFlash blMetadataDefault, .off⟩, none)
  have hstart : WellNoted w₀ ∧ Sequenced w₀.1 := by
    refine ⟨fun g m final hl => ?_, _, default_inForce.shaped,
      default_numbered default_inForce.latest, fun g m final hl => ?_⟩
    · cases hl
    · cases hl
  have hw₃ := run_invariant (I := fun w => WellNoted w ∧ Sequenced w.1) (C := fun _ _ => True)
    (fun w e hw _ => step_wellNoted e hw) hstart
    (Always.of_forall (watched step observe) (fun e (_ : e ∈ highStackStart) _ => trivial) w₀)
  have hd := (watched_run step observe w₀ highStackStart).trans highStack_received
  -- the boot after the last frame, the commit, does not accept what VERIFY did; the rest leads there
  have hlast := ((always_append _ _ _ _ _).mp h).2.2.1
  change ∀ t, CommitsVerified (watched step observe (run (watched step observe) w₀ highStackStart)
    (.frame (verifyFrame 3 highStackCrc) none)).1 (.frame (commitFrame 4) none) t → _ at hlast
  generalize run (watched step observe) w₀ highStackStart = w at hw₃ hd hlast
  obtain ⟨d, s⟩ := w
  obtain rfl : d = _ := hd
  have hw₄ := step_wellNoted (.frame (verifyFrame 3 highStackCrc) none) hw₃
  obtain ⟨t, rfl, -⟩ := hw₃.1 _ _ _ rfl rfl
  obtain ⟨hdev, hack⟩ := highStack_verified
  have hw : (watched step observe (⟨highStackFlash, .loop (highStackCtx 3 8)
      blMetadataDefault false⟩, some t) (.frame (verifyFrame 3 highStackCrc) none)).1 =
        (⟨highStackFlash, .loop (highStackCtx 4 8) blMetadataDefault false⟩,
          some { t with next := t.next + 1, verified := some t.received }) := by
    rw [watched_fst, hdev]
    dsimp only [observe]
    rw [hack]
    rfl
  have hv : { t with next := t.next + 1, verified := some t.received : Session }.verified ≠ none :=
    Option.some_ne_none _
  generalize { t with next := t.next + 1, verified := some t.received : Session } = t₄ at hw hv
  rw [hw] at hw₄ hlast
  obtain ⟨hnoted, hseq⟩ := hw₄
  obtain ⟨t', ht', hfol⟩ := hnoted _ _ _ rfl rfl
  obtain rfl := Option.some.inj ht'
  -- the metadata lies below the slot that was written
  have hin : InForce highStackFlash [encode blMetadataDefault] blMetadataDefault := by
    apply default_inForce.congr
    intro x _ hx
    have hb : blMetadataBase.toNat + blMetadataSize ≤ blAppBBase.toNat := by decide
    exact (program_outside (Or.inl (by omega))).symm
  have hreply := congrArg (fun r => r.2.reply) (receive_commit_next (g := highStackCtx 4 8) false
    none hin.shaped hin.tagged rfl (rfl : (highStackCtx 4 8).expectedSeq = 4))
  have hcommits : CommitsVerified (⟨highStackFlash, .loop (highStackCtx 4 8) blMetadataDefault
      false⟩, some t₄) (.frame (commitFrame 4) none) t₄ :=
    ⟨rfl, hv, commitFrame 4, none, 4, rfl, rfl, hreply⟩
  have hsp := ((step_accepts_iff hnoted hseq hcommits).mp (hlast _ hcommits)).1
  rw [← hfol.base] at hsp
  have hword : wordAt highStackFlash (highStackCtx 4 8).targetBase.toNat = 0x20020000 :=
    (words_of_read highStack_stored).1
  rw [hword] at hsp
  exact absurd hsp (by decide)

end EdgeLink.Bootloader
