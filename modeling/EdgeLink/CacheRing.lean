import EdgeLink.Machine
import EdgeLink.StorageTask

namespace EdgeLink.Storage
open LittleEndian Nor Machine

/-! The cache as a ring that is written over lap by lap. -/

def writeCache (s : StorageCtx) (e : Bytes × UInt32) : StorageCtx × Bool :=
  storageWriteCacheRecord s none e.1 e.2

/-- The records written since the last wrap, with those that were there at the start. -/
def Lap.observe (s : StorageCtx) (lap : List Bytes) (e : Bytes × UInt32) (ok : Bool) :
    List Bytes :=
  if ok then
    (if cacheRegion.stop < s.cacheWriteAddr + recordLen e.1.length then [] else lap) ++
      [cacheImage s e.1 e.2]
  else lap

def writeCacheWatched := watched writeCache Lap.observe

/-- The records of the lap stand one after the other from the base of the region on, up to where the
next one goes. -/
def LapIntact (w : StorageCtx × List Bytes) : Prop :=
  w.1.cacheWriteAddr = cacheRegion.base + w.2.flatten.length ∧
    read w.1.mem cacheRegion.base w.2.flatten.length = w.2.flatten

/-- The write leaves the lap intact. -/
def KeepsLap (w : StorageCtx × List Bytes) (e : Bytes × UInt32) : Prop :=
  LapIntact (writeCacheWatched w e).1

/-- Where the record goes, the flash is erased, or else it is erased from the start of the sector up
to there. -/
def RoomAhead (w : StorageCtx × List Bytes) (e : Bytes × UInt32) : Prop :=
  Writable e.1 → Spares w.1.mem (cacheTarget w.1 e.1) (recordLen e.1.length)

/-- The part of the lap that stands before the next record. -/
def lapBefore (w : StorageCtx × List Bytes) (payload : Bytes) : List Bytes :=
  if cacheRegion.stop < w.1.cacheWriteAddr + recordLen payload.length then [] else w.2

theorem lapBefore_intact {w : StorageCtx × List Bytes} (hw : LapIntact w) (payload : Bytes) :
    cacheTarget w.1 payload = cacheRegion.base + (lapBefore w payload).flatten.length ∧
      read w.1.mem cacheRegion.base (lapBefore w payload).flatten.length =
        (lapBefore w payload).flatten := by
  unfold cacheTarget cacheWrap lapBefore
  split_ifs
  · exact ⟨rfl, rfl⟩
  · exact hw

theorem writeCacheWatched_ok {w : StorageCtx × List Bytes} {e : Bytes × UInt32}
    (hw : Writable e.1) (hbase : cacheRegion.base ≤ w.1.cacheWriteAddr) :
    (writeCacheWatched w e).1 = ((writeCache w.1 e).1, lapBefore w e.1 ++ [cacheImage w.1 e.1 e.2]) := by
  have hok : (writeCache w.1 e).2 = true := by
    unfold writeCache
    rw [storageWriteCacheRecord_ok e.2 hw hbase]
  unfold writeCacheWatched watched Lap.observe
  dsimp only
  rw [if_pos hok]
  rfl

theorem keepsLap_iff (w : StorageCtx × List Bytes) (e : Bytes × UInt32) (hw : LapIntact w) :
    RoomAhead w e ↔ KeepsLap w e := by
  by_cases hp : Writable e.1
  · have hbase : cacheRegion.base ≤ w.1.cacheWriteAddr := by
      rw [hw.1]
      exact Nat.le_add_right _ _
    obtain ⟨htarget, hread⟩ := lapBefore_intact hw e.1
    have hfloor : cacheRegion.base ≤ sectorFloor (cacheTarget w.1 e.1) := by
      rw [← cacheRegion.sectorFloor_base]
      exact sectorFloor_mono (by omega)
    have hle := sectorFloor_le (cacheTarget w.1 e.1)
    have hlen := cacheImage_length w.1 e.1 e.2
    have himg := (cacheWritten_ok (s := w.1) e.2 hp hbase).2
    have hspares : Spares w.1.mem (cacheTarget w.1 e.1) (recordLen e.1.length) ↔
        AgreeOn (cacheWritten w.1 e.1 e.2) w.1.mem (sectorFloor (cacheTarget w.1 e.1))
          (cacheTarget w.1 e.1 - sectorFloor (cacheTarget w.1 e.1)) := by
      have h := @writeAt_spares_iff cacheRegion (Ctl.start w.1.mem none) (cacheTarget w.1 e.1)
        (cacheImage w.1 e.1 e.2) rfl (by rw [hlen]; exact recordLen_pos _) (by omega)
        (by rw [hlen]; exact (cacheTarget_le hp hbase).2)
      rw [hlen] at h
      exact h
    -- only the part of the lap in the sector of the write is at stake
    have hbelow : ∀ x < sectorFloor (cacheTarget w.1 e.1), cacheWritten w.1 e.1 e.2 x = w.1.mem x :=
      fun x hx => writeAt_below_sector hx
    unfold RoomAhead KeepsLap LapIntact
    rw [imp_iff_right hp, hspares, writeCacheWatched_ok hp hbase]
    unfold writeCache
    rw [storageWriteCacheRecord_ok e.2 hp hbase]
    dsimp only
    rw [List.flatten_append, List.flatten_singleton, List.length_append, hlen, htarget,
      read_add, ← htarget, himg]
    constructor
    · intro hagree
      have hkept : AgreeOn (cacheWritten w.1 e.1 e.2) w.1.mem cacheRegion.base
          (lapBefore w e.1).flatten.length := by
        intro x hx hx'
        by_cases hlow : x < sectorFloor (cacheTarget w.1 e.1)
        · exact hbelow x hlow
        · exact hagree x (by omega) (by omega)
      refine ⟨by omega, ?_⟩
      rw [read_congr hkept, hread]
    · rintro ⟨-, hnew⟩
      have hpart : read (cacheWritten w.1 e.1 e.2) cacheRegion.base
          (lapBefore w e.1).flatten.length = (lapBefore w e.1).flatten :=
        List.append_cancel_right hnew
      exact (agreeOn_of_read_eq (hpart.trans hread.symm)).mono (by omega) (by omega)
  · have hsame : (writeCacheWatched w e).1 = w := by
      unfold writeCacheWatched watched Lap.observe writeCache
      rw [storageWriteCacheRecord_of_not_writable hp]
      rfl
    unfold RoomAhead KeepsLap
    rw [hsame]
    exact ⟨fun _ => hw, fun _ h => absurd h hp⟩

theorem storageBoot_lapIntact (m : Mem) :
    LapIntact (storageBoot m, scanned cacheAccepts (regionBytes cacheRegion m)) := by
  obtain ⟨-, hwrite, -, hread⟩ := storageBoot_cache m
  unfold LapIntact
  dsimp only
  rw [storageBoot_mem]
  exact ⟨hwrite, hread⟩

@[irreducible] def fullPayload : Bytes := List.replicate STORAGE_MAX_PAYLOAD_LEN 0

theorem fullPayload_length : fullPayload.length = STORAGE_MAX_PAYLOAD_LEN := by
  rw [fullPayload, List.length_replicate]

theorem fullPayload_getD {i : ℕ} (h : i < STORAGE_MAX_PAYLOAD_LEN) : fullPayload.getD i 0 = 0 := by
  rw [fullPayload]
  exact List.getD_replicate 0 h

theorem fullPayload_writable : Writable fullPayload := by
  refine ⟨List.ne_nil_of_length_pos ?_, fullPayload_length.le⟩
  rw [fullPayload_length]
  decide

theorem recordLen_fullPayload : recordLen fullPayload.length = 216 := by
  rw [fullPayload_length]
  rfl

theorem cacheTarget_full {s : StorageCtx} (hroom : s.cacheWriteAddr + 216 ≤ cacheRegion.stop) :
    cacheTarget s fullPayload = s.cacheWriteAddr := by
  unfold cacheTarget cacheWrap
  rw [recordLen_fullPayload, if_neg (Nat.not_lt.mpr hroom)]

theorem cacheTarget_wrap {s : StorageCtx} (hroom : cacheRegion.stop < s.cacheWriteAddr + 216) :
    cacheTarget s fullPayload = cacheRegion.base := by
  unfold cacheTarget cacheWrap
  rw [recordLen_fullPayload, if_pos hroom]

def writeFull (s : StorageCtx) : StorageCtx := (writeCache s (fullPayload, 0)).1

theorem first_sector : sectorFloor cacheRegion.base +
    sectorCount cacheRegion.base 216 * STORAGE_SECTOR_SIZE = cacheRegion.base + 4096 := by decide

section WriteFull
variable {s : StorageCtx} (hbase : cacheRegion.base ≤ s.cacheWriteAddr)
include hbase

theorem writeFull_eq : (writeFull s).mem = cacheWritten s fullPayload 0 ∧
    (writeFull s).cacheWriteAddr = cacheTarget s fullPayload + 216 := by
  unfold writeFull writeCache
  dsimp only
  rw [storageWriteCacheRecord_ok 0 fullPayload_writable hbase, recordLen_fullPayload]
  dsimp only
  exact ⟨rfl, rfl⟩

theorem writeFull_payload {x : ℕ} (hx : cacheTarget s fullPayload + headerSize ≤ x)
    (hx' : x < cacheTarget s fullPayload + 216) : (writeFull s).mem x = 0 := by
  have hread := read_payload (cacheWritten_ok 0 fullPayload_writable hbase).2
  rw [← (writeFull_eq hbase).1, fullPayload_length] at hread
  have hin : x - (cacheTarget s fullPayload + headerSize) < STORAGE_MAX_PAYLOAD_LEN := by
    unfold headerSize STORAGE_MAX_PAYLOAD_LEN at *
    omega
  have hzero := read_getD (writeFull s).mem (cacheTarget s fullPayload + headerSize) _ _ hin 0
  rw [hread, Nat.add_sub_cancel' hx] at hzero
  exact hzero.symm.trans (fullPayload_getD hin)

/-- With erased flash ahead nothing else changes. -/
theorem writeFull_fills (hroom : s.cacheWriteAddr + 216 ≤ cacheRegion.stop)
    (hblank : Blank s.mem s.cacheWriteAddr 216) :
    cacheTarget s fullPayload = s.cacheWriteAddr ∧
      (writeFull s).cacheWriteAddr = s.cacheWriteAddr + 216 ∧
      ∀ x, x < s.cacheWriteAddr ∨ s.cacheWriteAddr + 216 ≤ x → (writeFull s).mem x = s.mem x := by
  have htarget := cacheTarget_full hroom
  have hlen := cacheImage_length s fullPayload 0
  rw [recordLen_fullPayload] at hlen
  refine ⟨htarget, (writeFull_eq hbase).2.trans (congrArg (· + 216) htarget), fun x hx => ?_⟩
  rw [(writeFull_eq hbase).1]
  unfold cacheWritten
  rw [htarget]
  exact writeAt_blank (by rw [hlen]; exact hblank) (by rw [hlen]; exact hx)

theorem writeFull_many (n : ℕ) (hroom : s.cacheWriteAddr + n * 216 ≤ cacheRegion.stop)
    (hblank : Blank s.mem s.cacheWriteAddr (n * 216)) :
    (writeFull^[n] s).cacheWriteAddr = s.cacheWriteAddr + n * 216 ∧
      ∀ x, x < s.cacheWriteAddr ∨ s.cacheWriteAddr + n * 216 ≤ x →
        (writeFull^[n] s).mem x = s.mem x := by
  induction n generalizing s with
  | zero => exact ⟨(Nat.add_zero _).symm, fun _ _ => rfl⟩
  | succ n ih =>
    rw [Nat.succ_mul] at hroom hblank ⊢
    obtain ⟨-, hwrite, hkeep⟩ := writeFull_fills hbase (by omega) (hblank.mono le_rfl (by omega))
    have hnext : Blank (writeFull s).mem (writeFull s).cacheWriteAddr (n * 216) := by
      intro x hx hx'
      rw [hwrite] at hx hx'
      rw [hkeep x (Or.inr hx)]
      exact hblank x (by omega) (by omega)
    obtain ⟨hend, hrest⟩ := ih (s := writeFull s) (by omega) (by omega) hnext
    rw [Function.iterate_succ_apply]
    refine ⟨by omega, fun x hx => ?_⟩
    rw [hrest x (by omega), hkeep x (by omega)]

/-- The first record of a lap leaves the rest of its sector erased, and what is behind it alone. -/
theorem lap_first (htarget : cacheTarget s fullPayload = cacheRegion.base)
    (hclean : Blank s.mem cacheRegion.base 4096 ∨ ¬ Blank s.mem cacheRegion.base 216) :
    (writeFull s).mem (cacheRegion.base + headerSize) = 0 ∧
      Blank (writeFull s).mem (cacheRegion.base + 216) (17 * 216 + 208) ∧
      ∀ x, cacheRegion.base + 4096 ≤ x → (writeFull s).mem x = s.mem x := by
  have hlen := cacheImage_length s fullPayload 0
  rw [recordLen_fullPayload] at hlen
  have hmem : (writeFull s).mem = (storageWriteAt cacheRegion (Ctl.start s.mem none)
      cacheRegion.base (cacheImage s fullPayload 0)).1.mem := by
    rw [(writeFull_eq hbase).1, cacheWritten, htarget]
  refine ⟨?_, fun x hx hx' => ?_, fun x hx => ?_⟩
  · apply writeFull_payload hbase
    · rw [htarget]
    · rw [htarget, Nat.add_lt_add_iff_left]
      decide
  · have hnear : x < cacheRegion.base + 4096 := by omega
    have hbeside : x < cacheRegion.base ∨
        cacheRegion.base + (cacheImage s fullPayload 0).length ≤ x := by
      rw [hlen]
      exact Or.inr hx
    rw [hmem]
    obtain hblank | hdirty := hclean
    · rw [writeAt_blank (by rw [hlen]; exact hblank.mono le_rfl (Nat.add_le_add_left (by decide) _))
        hbeside]
      exact hblank x ((Nat.le_add_right _ _).trans hx) hnear
    · rw [← hlen] at hdirty
      apply writeAt_wipes rfl ?_ le_rfl ?_ hdirty ?_ ?_ hbeside
      · rw [hlen]
        decide
      · rw [hlen]
        decide
      · rw [cacheRegion.sectorFloor_base]
        exact (Nat.le_add_right _ _).trans hx
      · rw [hlen, first_sector]
        exact hnear
  · rw [hmem]
    apply writeAt_above_sectors
    rw [hlen, first_sector]
    exact hx

/-- The first eighteen records of a lap, all within the first sector. -/
theorem lap_begins (htarget : cacheTarget s fullPayload = cacheRegion.base)
    (hclean : Blank s.mem cacheRegion.base 4096 ∨ ¬ Blank s.mem cacheRegion.base 216) :
    (writeFull^[18] s).cacheWriteAddr = cacheRegion.base + 3888 ∧
      (writeFull^[18] s).mem (cacheRegion.base + headerSize) = 0 ∧
      Blank (writeFull^[18] s).mem (cacheRegion.base + 3888) 208 ∧
      ∀ x, cacheRegion.base + 4096 ≤ x → (writeFull^[18] s).mem x = s.mem x := by
  obtain ⟨hzero, hblank, hfar⟩ := lap_first hbase htarget hclean
  have hwrite := (writeFull_eq hbase).2
  rw [htarget] at hwrite
  rw [Function.iterate_succ_apply]
  clear htarget hclean hbase
  generalize writeFull s = s' at *
  have hmany := @writeFull_many s' (by rw [hwrite]; exact Nat.le_add_right _ _) 17
    (by rw [hwrite]; decide) (by rw [hwrite]; exact hblank.mono le_rfl (by omega))
  rw [hwrite] at hmany
  refine ⟨hmany.1, ?_⟩
  have hrest := hmany.2
  clear hmany hwrite
  generalize cacheRegion.base = base at *
  refine ⟨?_, fun x hx hx' => ?_, fun x hx => ?_⟩
  · rw [hrest _ (Or.inl (by unfold headerSize; omega)), hzero]
  · rw [hrest _ (Or.inr (by omega))]
    exact hblank x (by omega) (by omega)
  · rw [hrest x (Or.inr (by omega)), hfar x hx]

end WriteFull

theorem storageBoot_erased : (storageBoot erasedFlash).cacheWriteAddr = cacheRegion.base := by
  rw [(storageBoot_cache erasedFlash).2.1, regionBytes,
    scanned_blank cacheAccepts (erasedFlash_blank _ _)]
  exact Nat.add_zero _

/-- A lap fills the region up to its last 32 bytes, and the next one begins. -/
theorem two_laps : (writeFull^[38854] (storageBoot erasedFlash)).cacheWriteAddr =
      cacheRegion.base + 3888 ∧
    (writeFull^[38854] (storageBoot erasedFlash)).mem (cacheRegion.base + headerSize) = 0 ∧
    (writeFull^[38854] (storageBoot erasedFlash)).mem (cacheRegion.base + 4096) = 0 := by
  have hsplit : ∀ s, writeFull^[38854] s =
      writeFull^[18] (writeFull^[38817] (writeFull (writeFull^[18] s))) := by
    intro s
    rw [show 38854 = 18 + (38817 + (1 + 18)) from rfl, Function.iterate_add_apply,
      Function.iterate_add_apply, Function.iterate_add_apply, Function.iterate_one]
  rw [hsplit]
  -- the first eighteen records
  have hstart := storageBoot_erased
  obtain ⟨hwrite, hzero, hblank, hfar⟩ := lap_begins hstart.ge
    (cacheTarget_full (by rw [hstart]; decide) |>.trans hstart)
    (Or.inl (by rw [storageBoot_mem]; exact erasedFlash_blank _ _))
  have hblank' : Blank (writeFull^[18] (storageBoot erasedFlash)).mem (cacheRegion.base + 3888)
      (38818 * 216) := by
    intro x hx hx'
    by_cases hnear : x < cacheRegion.base + 4096
    · exact hblank x hx (by omega)
    · rw [hfar x (by omega), storageBoot_mem]
      rfl
  clear hstart hblank hfar
  generalize writeFull^[18] (storageBoot erasedFlash) = s at *
  -- the one across the end of the sector
  have hbase : cacheRegion.base ≤ s.cacheWriteAddr := by
    rw [hwrite]
    exact Nat.le_add_right _ _
  have hroom : s.cacheWriteAddr + 216 ≤ cacheRegion.stop := by
    rw [hwrite]
    decide
  have hacross : (writeFull s).mem (cacheRegion.base + 4096) = 0 := by
    apply writeFull_payload hbase
    · rw [cacheTarget_full hroom, hwrite]
      decide
    · rw [cacheTarget_full hroom, hwrite]
      decide
  obtain ⟨-, hwrite', hkeep⟩ := writeFull_fills hbase hroom
    (by rw [hwrite]; exact hblank'.mono le_rfl (Nat.add_le_add_left (by decide) _))
  rw [hwrite] at hwrite' hkeep
  replace hzero : (writeFull s).mem (cacheRegion.base + headerSize) = 0 := by
    rw [hkeep _ (Or.inl (Nat.add_lt_add_left (by decide) _)), hzero]
  replace hblank' : Blank (writeFull s).mem (cacheRegion.base + 4104) (38817 * 216) := by
    intro x hx hx'
    rw [hkeep x (Or.inr hx)]
    generalize cacheRegion.base = base at *
    exact hblank' x (by omega) (by omega)
  clear hwrite hbase hroom hkeep
  rw [Nat.add_assoc] at hwrite'
  generalize writeFull s = s at *
  -- the rest of the lap
  have hmany := @writeFull_many s (by rw [hwrite']; exact Nat.le_add_right _ _) 38817
    (by rw [hwrite']; decide) (by rw [hwrite']; exact hblank')
  rw [hwrite'] at hmany
  obtain ⟨hend, hkeep⟩ := hmany
  replace hzero := (hkeep _ (Or.inl (Nat.add_lt_add_left (by decide) _))).trans hzero
  replace hacross := (hkeep _ (Or.inl (Nat.add_lt_add_left (by decide) _))).trans hacross
  clear hwrite' hkeep hblank'
  generalize writeFull^[38817] s = s at *
  -- the next lap
  have hdirty : ¬ Blank s.mem cacheRegion.base 216 := by
    intro hblank
    have hff := hblank (cacheRegion.base + headerSize) (Nat.le_add_right _ _)
      (Nat.add_lt_add_left (by decide) _)
    rw [hzero] at hff
    exact absurd hff (by decide)
  have hbase : cacheRegion.base ≤ s.cacheWriteAddr := by
    rw [hend, Nat.add_assoc]
    exact Nat.le_add_right _ _
  obtain ⟨hwrite, hpayload, -, hfar⟩ := lap_begins hbase
    (cacheTarget_wrap (by rw [hend]; decide)) (Or.inr hdirty)
  exact ⟨hwrite, hpayload, (hfar _ le_rfl).trans hacross⟩

theorem run_writeFull (w : StorageCtx × List Bytes) (n : ℕ) :
    (run writeCacheWatched w (List.replicate n (fullPayload, 0))).1 = writeFull^[n] w.1 := by
  unfold writeCacheWatched
  rw [watched_run, run_replicate]
  rfl

/-- Over every run from a scan of whatever flash, every write leaves the lap intact, exactly as long
as every write has room ahead. -/
theorem lap_intact_iff (m : Mem) (writes : List (Bytes × UInt32)) :
    Always writeCacheWatched RoomAhead
        (storageBoot m, scanned cacheAccepts (regionBytes cacheRegion m)) writes ↔
      Always writeCacheWatched KeepsLap
        (storageBoot m, scanned cacheAccepts (regionBytes cacheRegion m)) writes := by
  apply always_iff_of_invariant (I := LapIntact)
  · exact fun w e hw hc => (keepsLap_iff w e hw).mp hc
  · exact fun w e hw => keepsLap_iff w e hw
  · exact storageBoot_lapIntact m

/-- The nineteenth record of the second lap reaches into the second sector, which is not erased. -/
theorem lap_damaged : ¬ Always writeCacheWatched KeepsLap
    (storageBoot erasedFlash, scanned cacheAccepts (regionBytes cacheRegion erasedFlash))
    (List.replicate 38855 (fullPayload, 0)) := by
  rw [List.replicate_succ', always_append]
  rintro ⟨hbefore, hlast, -⟩
  have hintact := run_invariant (fun _ _ _ h => h) (storageBoot_lapIntact erasedFlash) hbefore
  have hroom := (keepsLap_iff _ _ hintact).mpr hlast fullPayload_writable
  dsimp only at hroom
  rw [run_writeFull, recordLen_fullPayload] at hroom
  obtain ⟨hwrite, hzero, hold⟩ := two_laps
  generalize writeFull^[38854] (storageBoot erasedFlash) = s at *
  have hfull : s.cacheWriteAddr + 216 ≤ cacheRegion.stop := by
    rw [hwrite]
    decide
  rw [cacheTarget_full hfull, hwrite] at hroom
  obtain hblank | hblank := hroom
  · have hff := hblank (cacheRegion.base + 4096) (Nat.add_le_add_left (by decide) _) (by decide)
    rw [hold] at hff
    exact absurd hff (by decide)
  · have hff := hblank (cacheRegion.base + headerSize) (by decide) (by decide)
    rw [hzero] at hff
    exact absurd hff (by decide)

end EdgeLink.Storage
