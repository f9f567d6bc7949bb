import EdgeLink.NorFlash

namespace EdgeLink.Bootloader
open LittleEndian Nor

def blFlashBase : UInt32 := 0x08000000
def blMetadataBase : UInt32 := 0x08010000
def blMetadataSize : ℕ := 64 * 1024
def blAppABase : UInt32 := 0x08020000
def blAppASize : UInt32 := 384 * 1024
def blAppBBase : UInt32 := 0x08080000

/-- The bounds of the 1 MB array; a program outside of them faults. -/
def flashLo : ℕ := 0x08000000
def flashHi : ℕ := 0x08100000

def sectorBase (n : ℕ) : ℕ :=
  if n < 4 then 0x08000000 + n * 0x4000
  else if n = 4 then 0x08010000 else 0x08020000 + (n - 5) * 0x20000

def sectorSize (n : ℕ) : ℕ := if n < 4 then 0x4000 else if n = 4 then 0x10000 else 0x20000

def halFlashProgramByte (c : Ctl) (addr : ℕ) (b : UInt8) : Ctl × Bool :=
  c.issue flashLo flashHi (.program addr [b])

def halFlashProgramWord (c : Ctl) (addr : ℕ) (w : UInt32) : Ctl × Bool :=
  c.issue flashLo flashHi (.program addr (bytes32 w))

/-- Sector by sector, stopping at the first sector that fails. -/
def halFlashExErase (c : Ctl) (sector : ℕ) : ℕ → Ctl × Bool
  | 0 => (c, true)
  | nbSectors + 1 =>
    match c.issue flashLo flashHi (.erase (sectorBase sector) (sectorSize sector)) with
    | (c', true) => halFlashExErase c' (sector + 1) nbSectors
    | (c', false) => (c', false)

def blFlashPackWord (b₀ b₁ b₂ b₃ : UInt8) : UInt32 := word32 b₀ b₁ b₂ b₃

def blFlashIsSlotBase (base : UInt32) : Bool := base == blAppABase || base == blAppBBase

def blFlashEraseSlot (c : Ctl) (slot_base : UInt32) : Ctl × Bool :=
  if blFlashIsSlotBase slot_base then
    halFlashExErase c (if slot_base = blAppABase then 5 else 8) 3
  else (c, false)

/-- Leading bytes up to a word boundary. -/
def blFlashWriteLead (c : Ctl) (cur_addr : ℕ) : Bytes → Ctl × Option (ℕ × Bytes)
  | [] => (c, some (cur_addr, []))
  | b :: cur =>
    if cur_addr % 4 = 0 then (c, some (cur_addr, b :: cur))
    else match halFlashProgramByte c cur_addr b with
      | (c', true) => blFlashWriteLead c' (cur_addr + 1) cur
      | (c', false) => (c', none)

/-- Whole words while four bytes remain. -/
def blFlashWriteWords (c : Ctl) (cur_addr : ℕ) : Bytes → Ctl × Option (ℕ × Bytes)
  | b₀ :: b₁ :: b₂ :: b₃ :: cur =>
    match halFlashProgramWord c cur_addr (blFlashPackWord b₀ b₁ b₂ b₃) with
    | (c', true) => blFlashWriteWords c' (cur_addr + 4) cur
    | (c', false) => (c', none)
  | cur => (c, some (cur_addr, cur))

/-- Trailing bytes. -/
def blFlashWriteTail (c : Ctl) (cur_addr : ℕ) : Bytes → Ctl × Option (ℕ × Bytes)
  | [] => (c, some (cur_addr, []))
  | b :: cur =>
    match halFlashProgramByte c cur_addr b with
    | (c', true) => blFlashWriteTail c' (cur_addr + 1) cur
    | (c', false) => (c', none)

/-- The next loop starts where the last one stopped, unless a program failed. -/
def andThen (r : Ctl × Option (ℕ × Bytes)) (loop : Ctl → ℕ → Bytes → Ctl × Option (ℕ × Bytes)) :
    Ctl × Option (ℕ × Bytes) :=
  match r with
  | (c, some (cur_addr, cur)) => loop c cur_addr cur
  | (c, none) => (c, none)

def blFlashWriteLoops (c : Ctl) (address : ℕ) (data : Bytes) : Ctl × Option (ℕ × Bytes) :=
  andThen (andThen (blFlashWriteLead c address data) blFlashWriteWords) blFlashWriteTail

def blFlashWrite (c : Ctl) (address : ℕ) (data : Bytes) : Ctl × Bool :=
  if data = [] then (c, false)
  else match blFlashWriteLoops c address data with
    | (c', none) => (c', false)
    -- the read-back compares every byte
    | (c', some _) => (c', decide (read c'.mem address data.length = data))

/-- One loop of a write: `pre` of the data was programmed and `rest` is left. -/
structure Wrote (c c' : Ctl) (a : ℕ) (data : Bytes) (a' : ℕ) (rest : Bytes) : Prop where
  split : ∃ pre, data = pre ++ rest ∧ a' = a + pre.length ∧ c'.mem = program c.mem a pre ∧
    (pre ≠ [] → flashLo ≤ a ∧ a' ≤ flashHi)
  life : c.life = none → c'.life = none

theorem Wrote.refl (c : Ctl) (a : ℕ) (data : Bytes) : Wrote c c a data a data :=
  ⟨⟨[], by simp⟩, id⟩

theorem Wrote.trans {c₁ c₂ c₃ : Ctl} {a₁ a₂ a₃ : ℕ} {d₁ d₂ d₃ : Bytes}
    (h : Wrote c₁ c₂ a₁ d₁ a₂ d₂) (h' : Wrote c₂ c₃ a₂ d₂ a₃ d₃) : Wrote c₁ c₃ a₁ d₁ a₃ d₃ := by
  obtain ⟨⟨p, rfl, rfl, hm, hin⟩, hl⟩ := h
  obtain ⟨⟨q, rfl, rfl, hm', hin'⟩, hl'⟩ := h'
  refine ⟨⟨p ++ q, by simp, by simp [Nat.add_assoc], ?_, ?_⟩, fun hn => hl' (hl hn)⟩
  · rw [hm', hm, program_append]
  · intro hne
    by_cases hp : p = []
    · subst hp
      simpa using hin' (by simpa using hne)
    · by_cases hq : q = []
      · subst hq
        simpa using hin hp
      · exact ⟨(hin hp).1, (hin' hq).2⟩

theorem wrote_issue {c c' : Ctl} {a : ℕ} {bs : Bytes} (rest : Bytes)
    (h : c.issue flashLo flashHi (.program a bs) = (c', true)) :
    Wrote c c' a (bs ++ rest) (a + bs.length) rest := by
  have hin := Ctl.issue_inside (congrArg Prod.snd h)
  have hl : c.life ≠ some 0 := by
    intro h0
    rw [Ctl.issue_fail h0] at h
    exact Bool.noConfusion (congrArg Prod.snd h)
  rw [Ctl.issue_ok hl hin] at h
  obtain rfl := congrArg Prod.fst h
  exact ⟨⟨bs, rfl, rfl, rfl, fun _ => hin⟩, fun hn => by simp [hn]⟩

theorem issue_program_some {c : Ctl} {a : ℕ} {bs : Bytes} (hl : c.life = none)
    (h₁ : flashLo ≤ a) (h₂ : a + bs.length ≤ flashHi) :
    (c.issue flashLo flashHi (.program a bs)).2 = true := by
  rw [Ctl.issue_ok (by simp [hl]) ⟨h₁, h₂⟩]

/-- What every loop of a write guarantees. -/
structure LoopSpec (c : Ctl) (a : ℕ) (data : Bytes) (r : Ctl × Option (ℕ × Bytes)) : Prop where
  touches : c.Touches a (a + data.length) r.1
  wrote : ∀ a' rest, r.2 = some (a', rest) → Wrote c r.1 a data a' rest
  completes : c.life = none → flashLo ≤ a → a + data.length ≤ flashHi → r.2.isSome

theorem LoopSpec.stop (c : Ctl) (a : ℕ) (data : Bytes) : LoopSpec c a data (c, some (a, data)) where
  touches := Ctl.Touches.refl _ _ _
  wrote := by
    rintro a' rest h
    cases h
    exact Wrote.refl _ _ _
  completes _ _ _ := rfl

/-- One program followed by a loop over the rest of the data. -/
theorem LoopSpec.step {c : Ctl} {a : ℕ} {bs cur : Bytes}
    {loop : Ctl → Ctl × Option (ℕ × Bytes)}
    (h : ∀ c', LoopSpec c' (a + bs.length) cur (loop c')) :
    LoopSpec c a (bs ++ cur) (match c.issue flashLo flashHi (.program a bs) with
      | (c', true) => loop c'
      | (c', false) => (c', none)) := by
  have ht : c.Touches a (a + (bs ++ cur).length) (c.issue flashLo flashHi (.program a bs)).1 :=
    Ctl.issue_touches c ⟨le_rfl, by simp [Op.hi]⟩
  have hs : c.life = none → flashLo ≤ a → a + (bs ++ cur).length ≤ flashHi →
      (c.issue flashLo flashHi (.program a bs)).2 = true := by
    intro hl h₁ h₂
    rw [List.length_append] at h₂
    exact issue_program_some hl h₁ (by omega)
  rcases hi : c.issue flashLo flashHi (.program a bs) with ⟨c', ok⟩
  rw [hi] at ht hs
  cases ok with
  | false => exact ⟨ht, by simp, fun hl h₁ h₂ => absurd (hs hl h₁ h₂) (by simp)⟩
  | true =>
    have hw := wrote_issue cur hi
    have hc := h c'
    have htc := hc.touches
    rw [List.length_append] at ht
    refine ⟨?_, fun a' rest hr => hw.trans (hc.wrote a' rest hr), fun hl h₁ h₂ => ?_⟩
    · rw [List.length_append]
      exact ht.trans (htc.mono (by omega) (by omega))
    · rw [List.length_append] at h₂
      exact hc.completes (hw.life hl) (by omega) (by omega)

theorem LoopSpec.andThen {c : Ctl} {a : ℕ} {data : Bytes} {r : Ctl × Option (ℕ × Bytes)}
    {loop : Ctl → ℕ → Bytes → Ctl × Option (ℕ × Bytes)} (h : LoopSpec c a data r)
    (hloop : ∀ c' a' d', LoopSpec c' a' d' (loop c' a' d')) :
    LoopSpec c a data (Bootloader.andThen r loop) := by
  obtain ⟨c', _ | ⟨a', d'⟩⟩ := r
  · exact h
  · have hw := h.wrote a' d' rfl
    have hn := hloop c' a' d'
    obtain ⟨p, rfl, rfl, -⟩ := hw.split
    have ht := h.touches
    have htn := hn.touches
    rw [List.length_append] at ht
    refine ⟨?_, fun a'' rest hr => hw.trans (hn.wrote a'' rest hr), fun hl h₁ h₂ => ?_⟩
    · rw [List.length_append]
      exact ht.trans (htn.mono (by omega) (by omega))
    · rw [List.length_append] at h₂
      exact hn.completes (hw.life hl) (by omega) (by omega)

theorem blFlashWriteLead_spec (c : Ctl) (a : ℕ) (data : Bytes) :
    LoopSpec c a data (blFlashWriteLead c a data) := by
  induction data generalizing c a with
  | nil => exact LoopSpec.stop c a []
  | cons b cur ih =>
    rw [blFlashWriteLead]
    split_ifs
    · exact LoopSpec.stop c a (b :: cur)
    · exact @LoopSpec.step c a [b] cur _ fun c' => ih c' (a + 1)

theorem blFlashWriteWords_spec (c : Ctl) (a : ℕ) (data : Bytes) :
    LoopSpec c a data (blFlashWriteWords c a data) := by
  match data with
  | b₀ :: b₁ :: b₂ :: b₃ :: cur =>
    have h := @LoopSpec.step c a (bytes32 (blFlashPackWord b₀ b₁ b₂ b₃)) cur _
      fun c' => blFlashWriteWords_spec c' (a + 4) cur
    rw [blFlashPackWord, bytes32_word32] at h
    rw [blFlashWriteWords, halFlashProgramWord, blFlashPackWord, bytes32_word32]
    exact h
  | [] => exact LoopSpec.stop c a _
  | [_] => exact LoopSpec.stop c a _
  | [_, _] => exact LoopSpec.stop c a _
  | [_, _, _] => exact LoopSpec.stop c a _

theorem blFlashWriteTail_spec (c : Ctl) (a : ℕ) (data : Bytes) :
    LoopSpec c a data (blFlashWriteTail c a data) := by
  induction data generalizing c a with
  | nil => exact LoopSpec.stop c a []
  | cons b cur ih =>
    rw [blFlashWriteTail]
    exact @LoopSpec.step c a [b] cur _ fun c' => ih c' (a + 1)

theorem blFlashWriteTail_rest {c : Ctl} {a a' : ℕ} {data rest : Bytes}
    (h : (blFlashWriteTail c a data).2 = some (a', rest)) : rest = [] := by
  induction data generalizing c a with
  | nil =>
    cases h
    rfl
  | cons b cur ih =>
    rw [blFlashWriteTail] at h
    split at h
    · exact ih h
    · cases h

theorem blFlashWriteLoops_spec (c : Ctl) (a : ℕ) (data : Bytes) :
    LoopSpec c a data (blFlashWriteLoops c a data) :=
  ((blFlashWriteLead_spec c a data).andThen blFlashWriteWords_spec).andThen blFlashWriteTail_spec

theorem blFlashWriteLoops_rest {c : Ctl} {a a' : ℕ} {data rest : Bytes}
    (h : (blFlashWriteLoops c a data).2 = some (a', rest)) : rest = [] := by
  unfold blFlashWriteLoops at h
  generalize andThen (blFlashWriteLead c a data) blFlashWriteWords = r at h
  obtain ⟨c', _ | ⟨a₁, d₁⟩⟩ := r
  · cases h
  · exact blFlashWriteTail_rest h

theorem blFlashWrite_touches (c : Ctl) (a : ℕ) (data : Bytes) :
    c.Touches a (a + data.length) (blFlashWrite c a data).1 := by
  have hs := (blFlashWriteLoops_spec c a data).touches
  unfold blFlashWrite
  split_ifs
  · exact Ctl.Touches.refl _ _ _
  · generalize blFlashWriteLoops c a data = r at hs ⊢
    obtain ⟨c', _ | _⟩ := r <;> exact hs

/-- When the loops run to the end they have programmed the data byte by byte. -/
theorem blFlashWriteLoops_mem {c c' : Ctl} {a : ℕ} {data : Bytes} {r : ℕ × Bytes}
    (h : blFlashWriteLoops c a data = (c', some r)) :
    c'.mem = program c.mem a data ∧
      (data ≠ [] → flashLo ≤ a ∧ a + data.length ≤ flashHi) := by
  obtain ⟨a', rest⟩ := r
  have hr := blFlashWriteLoops_rest (congrArg Prod.snd h)
  have hw := (blFlashWriteLoops_spec c a data).wrote a' rest (congrArg Prod.snd h)
  rw [h] at hw
  obtain ⟨p, hp, rfl, hm, hin⟩ := hw.split
  rw [hr, List.append_nil] at hp
  subst hp
  exact ⟨hm, hin⟩

/-- A write that returns 1 stored exactly the data, inside the array. -/
theorem blFlashWrite_ok {c : Ctl} {a : ℕ} {data : Bytes} (h : (blFlashWrite c a data).2 = true) :
    read (blFlashWrite c a data).1.mem a data.length = data ∧ data ≠ [] ∧
      flashLo ≤ a ∧ a + data.length ≤ flashHi := by
  unfold blFlashWrite at h ⊢
  split_ifs at h ⊢ with hne
  rcases hl : blFlashWriteLoops c a data with ⟨c', _ | r⟩
  · rw [hl] at h
    exact absurd h (by simp)
  · rw [hl] at h
    exact ⟨of_decide_eq_true h, hne, (blFlashWriteLoops_mem hl).2 hne⟩

/-- With no failing operation a write programs the data and reports the read-back. -/
theorem blFlashWrite_mem {c : Ctl} {a : ℕ} {data : Bytes} (hl : c.life = none) (hne : data ≠ [])
    (h₁ : flashLo ≤ a) (h₂ : a + data.length ≤ flashHi) :
    (blFlashWrite c a data).1.mem = program c.mem a data ∧
      (blFlashWrite c a data).2 = decide (read (program c.mem a data) a data.length = data) := by
  have hs := (blFlashWriteLoops_spec c a data).completes hl h₁ h₂
  rw [blFlashWrite, if_neg hne]
  rcases hr : blFlashWriteLoops c a data with ⟨c', _ | r⟩
  · rw [hr] at hs
    exact absurd hs (by simp)
  · simp only [(blFlashWriteLoops_mem hr).1, and_self]

theorem halFlashExErase_touches (c : Ctl) (sector n lo hi : ℕ)
    (h : ∀ i < n, lo ≤ sectorBase (sector + i) ∧
      sectorBase (sector + i) + sectorSize (sector + i) ≤ hi) :
    c.Touches lo hi (halFlashExErase c sector n).1 := by
  induction n generalizing c sector with
  | zero => exact Ctl.Touches.refl _ _ _
  | succ n ih =>
    rw [halFlashExErase]
    have ht : c.Touches lo hi (c.issue flashLo flashHi
        (.erase (sectorBase sector) (sectorSize sector))).1 :=
      Ctl.issue_touches c (h 0 (Nat.succ_pos n))
    rcases hi' : c.issue flashLo flashHi (.erase (sectorBase sector) (sectorSize sector)) with
      ⟨c', ok⟩
    rw [hi'] at ht
    cases ok with
    | false => exact ht
    | true =>
      refine ht.trans (ih c' (sector + 1) fun i hi => ?_)
      rw [Nat.add_assoc, Nat.add_comm 1 i]
      exact h (i + 1) (by omega)

/-- Erasing a slot touches its 384 KB only. -/
theorem blFlashEraseSlot_touches (c : Ctl) (base : UInt32) :
    c.Touches base.toNat (base.toNat + blAppASize.toNat) (blFlashEraseSlot c base).1 := by
  unfold blFlashEraseSlot blFlashIsSlotBase
  split_ifs with h hA
  · subst hA
    exact halFlashExErase_touches c 5 3 _ _ (by decide)
  · obtain rfl : base = blAppBBase := by simpa [hA] using h
    exact halFlashExErase_touches c 8 3 _ _ (by decide)
  · exact Ctl.Touches.refl _ _ _

theorem halFlashExErase_blank {c : Ctl} {sector n : ℕ} (hl : c.life = none)
    (h : ∀ i < n, flashLo ≤ sectorBase (sector + i) ∧
      sectorBase (sector + i) + sectorSize (sector + i) ≤ flashHi ∧
      Blank c.mem (sectorBase (sector + i)) (sectorSize (sector + i))) :
    (halFlashExErase c sector n).2 = true ∧ (halFlashExErase c sector n).1.mem = c.mem ∧
      (halFlashExErase c sector n).1.life = none := by
  induction n generalizing c sector with
  | zero => exact ⟨rfl, rfl, hl⟩
  | succ n ih =>
    obtain ⟨h₁, h₂, hb⟩ := h 0 (Nat.succ_pos n)
    have hm : (Op.erase (sectorBase sector) (sectorSize sector)).apply c.mem = c.mem :=
      erase_of_blank hb
    rw [halFlashExErase, Ctl.issue_ok (by simp [hl]) ⟨h₁, h₂⟩, hm]
    apply ih
    · simp [hl]
    · intro i hi
      rw [Nat.add_assoc, Nat.add_comm 1 i]
      exact h (i + 1) (by omega)

/-- Erasing a slot that is erased already succeeds and changes nothing. -/
theorem blFlashEraseSlot_blank {c : Ctl} {base : UInt32} (hl : c.life = none)
    (hs : base = blAppABase ∨ base = blAppBBase)
    (hb : Blank c.mem base.toNat blAppASize.toNat) :
    (blFlashEraseSlot c base).2 = true ∧ (blFlashEraseSlot c base).1.mem = c.mem := by
  have hsec : ∀ lo first, base.toNat = lo → (∀ i < 3, flashLo ≤ sectorBase (first + i) ∧
      sectorBase (first + i) + sectorSize (first + i) ≤ flashHi ∧
      lo ≤ sectorBase (first + i) ∧
      sectorBase (first + i) + sectorSize (first + i) ≤ lo + blAppASize.toNat) →
      (halFlashExErase c first 3).2 = true ∧ (halFlashExErase c first 3).1.mem = c.mem := by
    intro lo first hlo hin
    have h := @halFlashExErase_blank c first 3 hl fun i hi =>
      ⟨(hin i hi).1, (hin i hi).2.1, hb.mono (hlo ▸ (hin i hi).2.2.1) (hlo ▸ (hin i hi).2.2.2)⟩
    exact ⟨h.1, h.2.1⟩
  unfold blFlashEraseSlot
  rcases hs with rfl | rfl
  · exact hsec 0x08020000 5 rfl (by decide)
  · exact hsec 0x08080000 8 rfl (by decide)

theorem blFlashEraseSlot_slot {c : Ctl} {base : UInt32} (h : (blFlashEraseSlot c base).2 = true) :
    base = blAppABase ∨ base = blAppBBase := by
  unfold blFlashEraseSlot blFlashIsSlotBase at h
  split_ifs at h with hs <;> simpa using hs

theorem erase_keeps_blank {m : Mem} {a n : ℕ} (h : Blank m a n) (b k : ℕ) :
    Blank (erase m b k) a n := by
  intro x hx hx'
  unfold erase
  split_ifs
  · rfl
  · exact h x hx hx'

theorem halFlashExErase_keeps_blank {c : Ctl} {a k : ℕ} (h : Blank c.mem a k) (sector n : ℕ) :
    Blank (halFlashExErase c sector n).1.mem a k := by
  induction n generalizing c sector with
  | zero => exact h
  | succ n ih =>
    rw [halFlashExErase]
    rcases hi : c.issue flashLo flashHi (.erase (sectorBase sector) (sectorSize sector)) with
      ⟨c', ok⟩
    have hc : Blank c'.mem a k := by
      have hmem := congrArg (fun r => r.1.mem) hi
      unfold Ctl.issue at hmem
      split_ifs at hmem
      · rw [← hmem]
        exact h
      · rw [← hmem]
        exact erase_keeps_blank h _ _
    cases ok with
    | false => exact hc
    | true => exact ih hc (sector + 1)

/-- An erase that succeeds leaves its sectors blank. -/
theorem halFlashExErase_erases {c : Ctl} {sector n : ℕ} (h : (halFlashExErase c sector n).2 = true) :
    ∀ i < n, Blank (halFlashExErase c sector n).1.mem (sectorBase (sector + i))
      (sectorSize (sector + i)) := by
  induction n generalizing c sector with
  | zero => exact fun i hi => absurd hi (Nat.not_lt_zero i)
  | succ n ih =>
    intro i hi
    rw [halFlashExErase] at h ⊢
    rcases hissue : c.issue flashLo flashHi (.erase (sectorBase sector) (sectorSize sector)) with
      ⟨c', ok⟩
    rw [hissue] at h
    cases ok with
    | false => cases h
    | true =>
      cases i with
      | zero =>
        have hfirst : c'.mem = erase c.mem (sectorBase sector) (sectorSize sector) := by
          unfold Ctl.issue at hissue
          split_ifs at hissue
          · cases hissue
          · exact congrArg (fun r => r.1.mem) hissue.symm
        have hblank : Blank c'.mem (sectorBase sector) (sectorSize sector) := by
          rw [hfirst]
          exact erase_blank _ _ _
        exact halFlashExErase_keeps_blank hblank (sector + 1) n
      | succ i =>
        rw [Nat.add_comm i 1, ← Nat.add_assoc]
        exact ih h i (by omega)

/-- How many erases the controller still has to do decides whether it does them all. -/
theorem halFlashExErase_life {c : Ctl} {sector n : ℕ}
    (h : ∀ i < n, flashLo ≤ sectorBase (sector + i) ∧
      sectorBase (sector + i) + sectorSize (sector + i) ≤ flashHi) :
    (halFlashExErase c sector n).2 = true ↔ ∀ k, c.life = some k → n ≤ k := by
  induction n generalizing c sector with
  | zero => exact iff_of_true rfl fun k _ => Nat.zero_le k
  | succ n ih =>
    rw [halFlashExErase]
    by_cases hl : c.life = some 0
    · rw [Ctl.issue_fail hl]
      exact iff_of_false Bool.false_ne_true fun hk => absurd (hk 0 hl) (Nat.not_succ_le_zero n)
    · have hin : (Op.erase (sectorBase sector) (sectorSize sector)).Inside flashLo flashHi :=
        h 0 (Nat.succ_pos n)
      rw [Ctl.issue_ok hl hin]
      have hnext := @ih ⟨erase c.mem (sectorBase sector) (sectorSize sector), c.life.map (· - 1),
        c.ops ++ [.erase (sectorBase sector) (sectorSize sector)]⟩ (sector + 1) fun i hi => by
          rw [Nat.add_assoc, Nat.add_comm 1 i]
          exact h (i + 1) (by omega)
      refine hnext.trans ?_
      cases hlife : c.life with
      | none => exact iff_of_true (fun k hk => by cases hk) fun k hk => by cases hk
      | some l =>
        have hpos : l ≠ 0 := fun h0 => hl (by rw [hlife, h0])
        simp only [Option.map_some, Option.some.injEq, forall_eq']
        omega

theorem halFlashExErase_blank_mem {c : Ctl} {sector n : ℕ}
    (h : ∀ i < n, Blank c.mem (sectorBase (sector + i)) (sectorSize (sector + i))) :
    (halFlashExErase c sector n).1.mem = c.mem := by
  induction n generalizing c sector with
  | zero => rfl
  | succ n ih =>
    rw [halFlashExErase]
    rcases hi : c.issue flashLo flashHi (.erase (sectorBase sector) (sectorSize sector)) with
      ⟨c', ok⟩
    have hmem : c'.mem = c.mem := by
      unfold Ctl.issue at hi
      split_ifs at hi
      · exact congrArg (fun r => r.1.mem) hi.symm
      · exact (congrArg (fun r => r.1.mem) hi.symm).trans (erase_of_blank (h 0 (Nat.succ_pos n)))
    cases ok with
    | false => exact hmem
    | true =>
      refine (ih fun i hi => ?_).trans hmem
      rw [hmem, Nat.add_assoc, Nat.add_comm 1 i]
      exact h (i + 1) (by omega)

/-- The first of the three sectors of a slot. -/
def slotSector (base : UInt32) : ℕ := if base = blAppABase then 5 else 8

theorem eraseSlot_eq {c : Ctl} {base : UInt32} (hs : base = blAppABase ∨ base = blAppBBase) :
    blFlashEraseSlot c base = halFlashExErase c (slotSector base) 3 := by
  unfold blFlashEraseSlot
  rw [if_pos (by rcases hs with rfl | rfl <;> rfl)]
  rfl

theorem slotSector_inside {base : UInt32} (hs : base = blAppABase ∨ base = blAppBBase) :
    ∀ i < 3, flashLo ≤ sectorBase (slotSector base + i) ∧
      sectorBase (slotSector base + i) + sectorSize (slotSector base + i) ≤ flashHi := by
  rcases hs with rfl | rfl <;> decide

theorem eraseSlot_life {c : Ctl} {base : UInt32} (hs : base = blAppABase ∨ base = blAppBBase) :
    (blFlashEraseSlot c base).2 = true ↔ ∀ k, c.life = some k → 3 ≤ k := by
  rw [eraseSlot_eq hs]
  exact halFlashExErase_life (slotSector_inside hs)

/-- A slot that was erased is left as it is by a further erase, also by one that fails. -/
theorem eraseSlot_again {c c' : Ctl} {base : UInt32} (h : (blFlashEraseSlot c base).2 = true)
    (hc : c'.mem = (blFlashEraseSlot c base).1.mem) :
    (blFlashEraseSlot c' base).1.mem = c'.mem := by
  have hs := blFlashEraseSlot_slot h
  rw [eraseSlot_eq hs] at h hc ⊢
  apply halFlashExErase_blank_mem
  rw [hc]
  exact halFlashExErase_erases h

end EdgeLink.Bootloader
