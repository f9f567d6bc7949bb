import EdgeLink.NorFlash

namespace EdgeLink.Storage
open LittleEndian Nor

/-! The serial flash, and the two regions of it that hold records. -/

def STORAGE_FLASH_SIZE : ℕ := 16 * 1024 * 1024
def STORAGE_SECTOR_SIZE : ℕ := 4096
def STORAGE_PAGE_SIZE : ℕ := 256

/-- A region of whole sectors. -/
structure Region where
  base : ℕ
  size : ℕ
  base_sector : base % STORAGE_SECTOR_SIZE = 0
  size_sector : size % STORAGE_SECTOR_SIZE = 0
  fits : base + size ≤ STORAGE_FLASH_SIZE

def Region.stop (g : Region) : ℕ := g.base + g.size

def eventRegion : Region := ⟨0x010000, 0x7F0000, by decide, by decide, by decide⟩
def cacheRegion : Region := ⟨0x800000, 0x800000, by decide, by decide, by decide⟩

def erasedFlash : Mem := fun _ => 0xFF

theorem erasedFlash_blank (a n : ℕ) : Blank erasedFlash a n := fun _ _ _ => rfl

def storageAlign4 (value : ℕ) : ℕ := (value + 3) / 4 * 4

def Region.inRange (g : Region) (addr len : ℕ) : Bool :=
  len = 0 ∨ (g.base ≤ addr ∧ addr < g.stop ∧ len ≤ g.stop - addr)

def sectorFloor (addr : ℕ) : ℕ := addr / STORAGE_SECTOR_SIZE * STORAGE_SECTOR_SIZE

def devStorageSectorErase (c : Ctl) (addr : ℕ) : Ctl × Bool :=
  c.issue 0 STORAGE_FLASH_SIZE (.erase addr STORAGE_SECTOR_SIZE)

/-- The chip takes the page byte by byte; power can fail between any two. -/
def devStoragePageProgram (c : Ctl) (addr : ℕ) : Bytes → Ctl × Bool
  | [] => (c, true)
  | b :: buf =>
    match c.issue 0 STORAGE_FLASH_SIZE (.program addr [b]) with
    | (c', true) => devStoragePageProgram c' (addr + 1) buf
    | (c', false) => (c', false)

def eraseSectors (c : Ctl) (addr : ℕ) : ℕ → Ctl × Bool
  | 0 => (c, true)
  | n + 1 =>
    match devStorageSectorErase c addr with
    | (c', true) => eraseSectors c' (addr + STORAGE_SECTOR_SIZE) n
    | (c', false) => (c', false)

/-- From the sector of the first byte to that of the last. -/
def storageEraseRange (g : Region) (c : Ctl) (start_addr len : ℕ) : Ctl × Bool :=
  if ¬ g.inRange start_addr len then (c, false)
  else
    let addr := sectorFloor start_addr
    let end_addr := storageAlign4 (start_addr + len)
    eraseSectors c addr ((end_addr - addr + (STORAGE_SECTOR_SIZE - 1)) / STORAGE_SECTOR_SIZE)

/-- Page by page; every page takes at least a byte. -/
def writePages (c : Ctl) (cur : ℕ) : ℕ → Bytes → Ctl × Bool
  | 0, _ => (c, true)
  | fuel + 1, buf =>
    if buf = [] then (c, true)
    else
      let chunk := STORAGE_PAGE_SIZE - cur % STORAGE_PAGE_SIZE
      match devStoragePageProgram c cur (buf.take chunk) with
      | (c', true) => writePages c' (cur + chunk) fuel (buf.drop chunk)
      | (c', false) => (c', false)

def storageWrite (g : Region) (c : Ctl) (addr : ℕ) (buf : Bytes) : Ctl × Bool :=
  if ¬ g.inRange addr buf.length then (c, false) else writePages c addr buf.length buf

def storageIsErased (m : Mem) (addr len : ℕ) : Bool := (read m addr len).all (· == 0xFF)

/-- The flash side of writing a record: erase if need be, program, read back. -/
def storageWriteAt (g : Region) (c : Ctl) (write_addr : ℕ) (buf : Bytes) : Ctl × Bool :=
  let erased :=
    if storageIsErased c.mem write_addr buf.length then (c, true)
    else storageEraseRange g c write_addr buf.length
  if ¬ erased.2 then (erased.1, false)
  else
    let written := storageWrite g erased.1 write_addr buf
    if ¬ written.2 then (written.1, false)
    else (written.1, decide (read written.1.mem write_addr buf.length = buf))

theorem storageIsErased_iff (m : Mem) (addr len : ℕ) :
    storageIsErased m addr len = true ↔ Blank m addr len := by
  rw [blank_iff_read, storageIsErased, List.all_eq_true]
  simp only [beq_iff_eq]

theorem sectorFloor_le (addr : ℕ) : sectorFloor addr ≤ addr := Nat.div_mul_le_self _ _

theorem sectorFloor_mono {a b : ℕ} (h : a ≤ b) : sectorFloor a ≤ sectorFloor b :=
  Nat.mul_le_mul_right _ (Nat.div_le_div_right h)

theorem Region.sectorFloor_base (g : Region) : sectorFloor g.base = g.base :=
  Nat.div_mul_cancel (Nat.dvd_of_mod_eq_zero g.base_sector)

theorem Region.inRange_of_le {g : Region} {addr len : ℕ} (hpos : 0 < len) (hbase : g.base ≤ addr)
    (hstop : addr + len ≤ g.stop) : g.inRange addr len = true := by
  unfold Region.inRange
  rw [decide_eq_true_eq]
  exact Or.inr ⟨hbase, by omega, by omega⟩

/-- The sectors that `storageEraseRange` goes through, from that of `addr` on. -/
def sectorCount (addr len : ℕ) : ℕ :=
  (storageAlign4 (addr + len) - sectorFloor addr + (STORAGE_SECTOR_SIZE - 1)) / STORAGE_SECTOR_SIZE

theorem le_sectorCount (addr len : ℕ) :
    addr + len ≤ sectorFloor addr + sectorCount addr len * STORAGE_SECTOR_SIZE := by
  unfold sectorCount sectorFloor storageAlign4 STORAGE_SECTOR_SIZE
  omega

/-- They end inside the region that holds the bytes. -/
theorem Region.sectorCount_le (g : Region) {addr len : ℕ} (h : addr + len ≤ g.stop) :
    sectorFloor addr + sectorCount addr len * STORAGE_SECTOR_SIZE ≤ g.stop := by
  obtain ⟨b, hb⟩ := Nat.dvd_of_mod_eq_zero g.base_sector
  obtain ⟨n, hn⟩ := Nat.dvd_of_mod_eq_zero g.size_sector
  have hstop : g.stop = STORAGE_SECTOR_SIZE * b + STORAGE_SECTOR_SIZE * n := by
    rw [Region.stop, hb, hn]
  rw [hstop] at h ⊢
  unfold sectorCount sectorFloor storageAlign4 STORAGE_SECTOR_SIZE at *
  omega

/-- What erasing leaves of a memory: every byte as it was, or erased, and nothing new elsewhere. -/
structure Erased (m m' : Mem) (lo hi : ℕ) : Prop where
  keeps : ∀ x, m' x = m x ∨ m' x = 0xFF
  outside : ∀ x, x < lo ∨ hi ≤ x → m' x = m x

theorem Erased.refl (m : Mem) (lo hi : ℕ) : Erased m m lo hi :=
  ⟨fun _ => Or.inl rfl, fun _ _ => rfl⟩

theorem Erased.trans {m₁ m₂ m₃ : Mem} {lo hi : ℕ} (h : Erased m₁ m₂ lo hi)
    (h' : Erased m₂ m₃ lo hi) : Erased m₁ m₃ lo hi := by
  refine ⟨fun x => ?_, fun x hx => (h'.outside x hx).trans (h.outside x hx)⟩
  obtain h₃ | h₃ := h'.keeps x
  · rw [h₃]
    exact h.keeps x
  · exact Or.inr h₃

theorem Erased.mono {m m' : Mem} {lo hi lo' hi' : ℕ} (h : Erased m m' lo hi) (hlo : lo' ≤ lo)
    (hhi : hi ≤ hi') : Erased m m' lo' hi' :=
  ⟨h.keeps, fun x hx => h.outside x (by omega)⟩

theorem sectorErase_erased (c : Ctl) (addr : ℕ) :
    Erased c.mem (devStorageSectorErase c addr).1.mem addr (addr + STORAGE_SECTOR_SIZE) := by
  unfold devStorageSectorErase Ctl.issue
  split_ifs
  · exact Erased.refl _ _ _
  · refine ⟨fun x => ?_, fun x hx => erase_outside hx⟩
    unfold Op.apply erase
    dsimp only
    split_ifs
    · exact Or.inr rfl
    · exact Or.inl rfl

theorem eraseSectors_erased (c : Ctl) (addr n : ℕ) :
    Erased c.mem (eraseSectors c addr n).1.mem addr (addr + n * STORAGE_SECTOR_SIZE) := by
  induction n generalizing c addr with
  | zero => exact Erased.refl _ _ _
  | succ n ih =>
    have hfirst := sectorErase_erased c addr
    rw [eraseSectors]
    rw [Nat.succ_mul]
    rcases hs : devStorageSectorErase c addr with ⟨c', ok⟩
    rw [hs] at hfirst
    cases ok with
    | false => exact hfirst.mono le_rfl (by omega)
    | true => exact (hfirst.mono le_rfl (by omega)).trans ((ih c' _).mono (by omega) (by omega))

/-- Without a failure all the sectors are erased. -/
theorem eraseSectors_ok {c : Ctl} (hl : c.life = none) {addr n : ℕ}
    (h : addr + n * STORAGE_SECTOR_SIZE ≤ STORAGE_FLASH_SIZE) :
    (eraseSectors c addr n).2 = true ∧ (eraseSectors c addr n).1.life = none ∧
      Blank (eraseSectors c addr n).1.mem addr (n * STORAGE_SECTOR_SIZE) := by
  induction n generalizing c addr with
  | zero => exact ⟨rfl, hl, fun x hx hx' => absurd hx' (by omega)⟩
  | succ n ih =>
    rw [Nat.succ_mul] at h ⊢
    have hissue : devStorageSectorErase c addr = (_, true) :=
      Ctl.issue_ok (by rw [hl]; simp) ⟨Nat.zero_le _, by simp only [Op.hi]; omega⟩
    rw [eraseSectors, hissue]
    obtain ⟨hok, hlife, hblank⟩ := @ih
      { mem := erase c.mem addr STORAGE_SECTOR_SIZE, life := c.life.map (· - 1),
        ops := c.ops ++ [.erase addr STORAGE_SECTOR_SIZE] } (by rw [hl]; rfl)
      (addr + STORAGE_SECTOR_SIZE) (by omega)
    refine ⟨hok, hlife, fun x hx hx' => ?_⟩
    by_cases hfar : addr + STORAGE_SECTOR_SIZE ≤ x
    · exact hblank x hfar (by omega)
    · have hkeep := (eraseSectors_erased
        { mem := erase c.mem addr STORAGE_SECTOR_SIZE, life := c.life.map (· - 1),
          ops := c.ops ++ [.erase addr STORAGE_SECTOR_SIZE] }
        (addr + STORAGE_SECTOR_SIZE) n).outside x (by omega)
      exact hkeep.trans (erase_blank _ _ _ x hx (by omega))

theorem pageProgram_outside (c : Ctl) (addr : ℕ) (buf : Bytes) {x : ℕ}
    (hx : x < addr ∨ addr + buf.length ≤ x) :
    (devStoragePageProgram c addr buf).1.mem x = c.mem x := by
  induction buf generalizing c addr with
  | nil => rfl
  | cons b buf ih =>
    rw [List.length_cons] at hx
    have hinside : (Op.program addr [b]).Inside addr (addr + 1) := ⟨le_rfl, le_rfl⟩
    have hfirst : (c.issue 0 STORAGE_FLASH_SIZE (.program addr [b])).1.mem x = c.mem x :=
      (Ctl.issue_touches c hinside).frame x (by omega)
    rw [devStoragePageProgram]
    rcases hi : c.issue 0 STORAGE_FLASH_SIZE (.program addr [b]) with ⟨c', ok⟩
    rw [hi] at hfirst
    cases ok with
    | false => exact hfirst
    | true => exact (ih c' (addr + 1) (by omega)).trans hfirst

theorem pageProgram_ok {c : Ctl} (hl : c.life = none) {addr : ℕ} {buf : Bytes}
    (h : addr + buf.length ≤ STORAGE_FLASH_SIZE) :
    (devStoragePageProgram c addr buf).2 = true ∧
      (devStoragePageProgram c addr buf).1.life = none ∧
      (devStoragePageProgram c addr buf).1.mem = program c.mem addr buf := by
  induction buf generalizing c addr with
  | nil => exact ⟨rfl, hl, (program_nil _ _).symm⟩
  | cons b buf ih =>
    rw [List.length_cons] at h
    have hissue : c.issue 0 STORAGE_FLASH_SIZE (.program addr [b]) = (_, true) :=
      Ctl.issue_ok (by rw [hl]; simp) ⟨Nat.zero_le _, by simp only [Op.hi, List.length_singleton]; omega⟩
    rw [devStoragePageProgram, hissue, program_cons]
    exact @ih { mem := program c.mem addr [b], life := c.life.map (· - 1),
                ops := c.ops ++ [.program addr [b]] } (by rw [hl]; rfl) (addr + 1) (by omega)

theorem writePages_outside (c : Ctl) (cur fuel : ℕ) (buf : Bytes) {x : ℕ}
    (hx : x < cur ∨ cur + buf.length ≤ x) : (writePages c cur fuel buf).1.mem x = c.mem x := by
  induction fuel generalizing c cur buf with
  | zero => rfl
  | succ fuel ih =>
    rw [writePages]
    split_ifs
    · rfl
    have hpage := pageProgram_outside c cur
      (buf.take (STORAGE_PAGE_SIZE - cur % STORAGE_PAGE_SIZE)) (x := x)
      (by rw [List.length_take]; omega)
    dsimp only
    rcases hp : devStoragePageProgram c cur
      (buf.take (STORAGE_PAGE_SIZE - cur % STORAGE_PAGE_SIZE)) with ⟨c', ok⟩
    rw [hp] at hpage
    cases ok with
    | false => exact hpage
    | true => exact (ih c' _ _ (by rw [List.length_drop]; omega)).trans hpage

theorem writePages_ok {c : Ctl} (hl : c.life = none) {cur fuel : ℕ} {buf : Bytes}
    (hfuel : buf.length ≤ fuel) (h : cur + buf.length ≤ STORAGE_FLASH_SIZE) :
    (writePages c cur fuel buf).2 = true ∧ (writePages c cur fuel buf).1.life = none ∧
      (writePages c cur fuel buf).1.mem = program c.mem cur buf := by
  induction fuel generalizing c cur buf with
  | zero =>
    rw [List.length_eq_zero_iff.mp (Nat.le_zero.mp hfuel)]
    exact ⟨rfl, hl, (program_nil _ _).symm⟩
  | succ fuel ih =>
    rw [writePages]
    by_cases hbuf : buf = []
    · rw [if_pos hbuf, hbuf, program_nil]
      exact ⟨rfl, hl, rfl⟩
    rw [if_neg hbuf]
    dsimp only
    have hchunk : 0 < STORAGE_PAGE_SIZE - cur % STORAGE_PAGE_SIZE :=
      Nat.sub_pos_of_lt (Nat.mod_lt _ (by decide))
    generalize STORAGE_PAGE_SIZE - cur % STORAGE_PAGE_SIZE = chunk at hchunk ⊢
    have hpos := List.length_pos_iff.mpr hbuf
    obtain ⟨hok, hlife, hmem⟩ := @pageProgram_ok c hl cur (buf.take chunk)
      (by rw [List.length_take]; omega)
    rcases hp : devStoragePageProgram c cur (buf.take chunk) with ⟨c', ok⟩
    rw [hp] at hok hlife hmem
    obtain rfl : ok = true := hok
    by_cases hlong : chunk ≤ buf.length
    · obtain ⟨hok', hlife', hmem'⟩ := @ih c' hlife (cur + chunk) (buf.drop chunk)
        (by rw [List.length_drop]; omega) (by rw [List.length_drop]; omega)
      refine ⟨hok', hlife', hmem'.trans ?_⟩
      have htake : (buf.take chunk).length = chunk := List.length_take_of_le hlong
      have happ := program_append c.mem cur (buf.take chunk) (buf.drop chunk)
      rw [htake, List.take_append_drop] at happ
      rw [hmem]
      exact happ
    · have hdrop : buf.drop chunk = [] := List.drop_eq_nil_of_le (by omega)
      have htake : buf.take chunk = buf := List.take_of_length_le (by omega)
      rw [hdrop]
      rw [htake] at hmem
      have hstop : writePages c' (cur + chunk) fuel [] = (c', true) := by
        cases fuel with
        | zero => rfl
        | succ fuel => rw [writePages, if_pos rfl]
      dsimp only
      rw [hstop]
      exact ⟨rfl, hlife, hmem⟩

/-- The write does not have to erase, or it erases nothing that stands before it. -/
def Spares (m : Mem) (write_addr n : ℕ) : Prop :=
  Blank m write_addr n ∨ Blank m (sectorFloor write_addr) (write_addr - sectorFloor write_addr)

/-- The same, for what stands at `lo` or behind it. -/
def SparesFrom (lo : ℕ) (m : Mem) (write_addr n : ℕ) : Prop :=
  Blank m write_addr n ∨ ∀ x, lo ≤ x → sectorFloor write_addr ≤ x → x < write_addr → m x = 0xFF

section WriteAt
variable (g : Region) (c : Ctl) (write_addr : ℕ) (buf : Bytes)

def eraseStage : Ctl × Bool :=
  if storageIsErased c.mem write_addr buf.length then (c, true)
  else storageEraseRange g c write_addr buf.length

theorem eraseStage_erased : Erased c.mem (eraseStage g c write_addr buf).1.mem
    (sectorFloor write_addr)
    (sectorFloor write_addr + sectorCount write_addr buf.length * STORAGE_SECTOR_SIZE) := by
  unfold eraseStage storageEraseRange
  split_ifs
  · exact Erased.refl _ _ _
  · exact eraseSectors_erased _ _ _
  · exact Erased.refl _ _ _

theorem storageWriteAt_eq : storageWriteAt g c write_addr buf =
    if ¬ (eraseStage g c write_addr buf).2 then ((eraseStage g c write_addr buf).1, false)
    else
      let written := storageWrite g (eraseStage g c write_addr buf).1 write_addr buf
      if ¬ written.2 then (written.1, false)
      else (written.1, decide (read written.1.mem write_addr buf.length = buf)) := rfl

variable {g c write_addr buf}

theorem storageWrite_outside {x : ℕ} (hx : x < write_addr ∨ write_addr + buf.length ≤ x) :
    (storageWrite g c write_addr buf).1.mem x = c.mem x := by
  unfold storageWrite
  split_ifs
  · exact writePages_outside c write_addr _ buf hx
  · rfl

/-- Programming leaves what is beside the record as erasing left it. -/
theorem writeAt_beside {x : ℕ} (hx : x < write_addr ∨ write_addr + buf.length ≤ x) :
    (storageWriteAt g c write_addr buf).1.mem x = (eraseStage g c write_addr buf).1.mem x := by
  have hout := storageWrite_outside (g := g) (c := (eraseStage g c write_addr buf).1) hx
  rw [storageWriteAt_eq]
  dsimp only
  split_ifs
  · exact hout
  · exact hout
  · rfl

theorem writeAt_keeps {x : ℕ} (hx : x < write_addr) :
    (storageWriteAt g c write_addr buf).1.mem x = c.mem x ∨
      (storageWriteAt g c write_addr buf).1.mem x = 0xFF := by
  rw [writeAt_beside (Or.inl hx)]
  exact (eraseStage_erased g c write_addr buf).keeps x

theorem writeAt_below_sector {x : ℕ} (hx : x < sectorFloor write_addr) :
    (storageWriteAt g c write_addr buf).1.mem x = c.mem x := by
  rw [writeAt_beside (Or.inl (lt_of_lt_of_le hx (sectorFloor_le _)))]
  exact (eraseStage_erased g c write_addr buf).outside x (Or.inl hx)

theorem writeAt_above_sectors {x : ℕ}
    (hx : sectorFloor write_addr + sectorCount write_addr buf.length * STORAGE_SECTOR_SIZE ≤ x) :
    (storageWriteAt g c write_addr buf).1.mem x = c.mem x := by
  rw [writeAt_beside (Or.inr ((le_sectorCount _ _).trans hx))]
  exact (eraseStage_erased g c write_addr buf).outside x (Or.inr hx)

/-- A write to erased flash changes nothing beside the record. -/
theorem writeAt_blank (h : Blank c.mem write_addr buf.length) {x : ℕ}
    (hx : x < write_addr ∨ write_addr + buf.length ≤ x) :
    (storageWriteAt g c write_addr buf).1.mem x = c.mem x := by
  rw [writeAt_beside hx, eraseStage, if_pos ((storageIsErased_iff _ _ _).mpr h)]

/-- Whenever the power fails, a write that need not erase leaves what stands before it alone, and so
does one that has nothing to erase there. -/
theorem writeAt_spares_from {lo : ℕ} (h : SparesFrom lo c.mem write_addr buf.length) {x : ℕ}
    (hlo : lo ≤ x) (hx : x < write_addr) :
    (storageWriteAt g c write_addr buf).1.mem x = c.mem x := by
  obtain hblank | hblank := h
  · exact writeAt_blank hblank (Or.inl hx)
  · by_cases hlow : x < sectorFloor write_addr
    · exact writeAt_below_sector hlow
    · have hff : c.mem x = 0xFF := hblank x hlo (Nat.not_lt.mp hlow) hx
      obtain hsame | hone := @writeAt_keeps g c write_addr buf x hx
      · exact hsame
      · exact hone.trans hff.symm

theorem writeAt_spares (h : Spares c.mem write_addr buf.length) {x : ℕ} (hx : x < write_addr) :
    (storageWriteAt g c write_addr buf).1.mem x = c.mem x := by
  refine writeAt_spares_from (h.imp_right fun hblank x _ hx hx' => ?_) (Nat.zero_le x) hx
  exact hblank x hx (by omega)

theorem writeAt_verified (h : (storageWriteAt g c write_addr buf).2 = true) :
    read (storageWriteAt g c write_addr buf).1.mem write_addr buf.length = buf := by
  rw [storageWriteAt_eq] at h ⊢
  dsimp only at h ⊢
  by_cases he : (eraseStage g c write_addr buf).2 = true
  · rw [if_neg (not_not.mpr he)] at h ⊢
    by_cases hw : (storageWrite g (eraseStage g c write_addr buf).1 write_addr buf).2 = true
    · rw [if_neg (not_not.mpr hw)] at h ⊢
      exact of_decide_eq_true h
    · rw [if_pos hw] at h
      cases h
  · rw [if_pos he] at h
    cases h

variable (hl : c.life = none) (hpos : 0 < buf.length) (hbase : g.base ≤ write_addr)
  (hstop : write_addr + buf.length ≤ g.stop)
include hl hpos hbase hstop

theorem eraseStage_ok : (eraseStage g c write_addr buf).2 = true ∧
    (eraseStage g c write_addr buf).1.life = none ∧
    Blank (eraseStage g c write_addr buf).1.mem write_addr buf.length ∧
    (¬ Blank c.mem write_addr buf.length →
      Blank (eraseStage g c write_addr buf).1.mem (sectorFloor write_addr)
        (sectorCount write_addr buf.length * STORAGE_SECTOR_SIZE)) := by
  unfold eraseStage
  by_cases hblank : Blank c.mem write_addr buf.length
  · rw [if_pos ((storageIsErased_iff _ _ _).mpr hblank)]
    exact ⟨rfl, hl, hblank, fun hno => absurd hblank hno⟩
  rw [if_neg fun h => hblank ((storageIsErased_iff _ _ _).mp h)]
  unfold storageEraseRange
  rw [if_neg (not_not.mpr (Region.inRange_of_le hpos hbase hstop))]
  have hfloor := sectorFloor_le write_addr
  have hroom := le_sectorCount write_addr buf.length
  have hend := g.sectorCount_le hstop
  obtain ⟨hok, hlife, hall⟩ := eraseSectors_ok hl (hend.trans g.fits)
  exact ⟨hok, hlife, hall.mono hfloor hroom, fun _ => hall⟩

theorem writeAt_ok : (storageWriteAt g c write_addr buf).2 = true ∧
    read (storageWriteAt g c write_addr buf).1.mem write_addr buf.length = buf := by
  obtain ⟨hok, hlife, hblank, -⟩ := eraseStage_ok hl hpos hbase hstop
  have hwritten := @writePages_ok (eraseStage g c write_addr buf).1 hlife write_addr buf.length buf
    le_rfl (hstop.trans g.fits)
  have hwrite : storageWrite g (eraseStage g c write_addr buf).1 write_addr buf =
      writePages (eraseStage g c write_addr buf).1 write_addr buf.length buf := by
    unfold storageWrite
    rw [if_neg (not_not.mpr (Region.inRange_of_le hpos hbase hstop))]
  have htrue : (storageWriteAt g c write_addr buf).2 = true := by
    rw [storageWriteAt_eq, if_neg (not_not.mpr hok)]
    dsimp only
    rw [hwrite, if_neg (not_not.mpr hwritten.1)]
    dsimp only
    rw [hwritten.2.2, program_blank hblank, decide_eq_true rfl]
  exact ⟨htrue, writeAt_verified htrue⟩

/-- A write that has to erase wipes the sectors of the record. -/
theorem writeAt_wipes (h : ¬ Blank c.mem write_addr buf.length) {x : ℕ}
    (hx : sectorFloor write_addr ≤ x)
    (hx' : x < sectorFloor write_addr + sectorCount write_addr buf.length * STORAGE_SECTOR_SIZE)
    (hbeside : x < write_addr ∨ write_addr + buf.length ≤ x) :
    (storageWriteAt g c write_addr buf).1.mem x = 0xFF := by
  obtain ⟨-, -, -, hwiped⟩ := eraseStage_ok hl hpos hbase hstop
  rw [writeAt_beside hbeside]
  exact hwiped h x hx hx'

/-- So it leaves what stands before the record alone only if there was nothing to wipe. -/
theorem writeAt_spares_iff : Spares c.mem write_addr buf.length ↔
    AgreeOn (storageWriteAt g c write_addr buf).1.mem c.mem (sectorFloor write_addr)
      (write_addr - sectorFloor write_addr) := by
  constructor
  · intro h x hx hx'
    exact writeAt_spares h (by omega)
  · intro h
    by_cases hblank : Blank c.mem write_addr buf.length
    · exact Or.inl hblank
    · have hroom := le_sectorCount write_addr buf.length
      refine Or.inr fun x hx hx' => (h x hx hx').symm.trans ?_
      exact writeAt_wipes hl hpos hbase hstop hblank hx (by omega) (Or.inl (by omega))

end WriteAt

end EdgeLink.Storage
