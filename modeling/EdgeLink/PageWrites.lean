import EdgeLink.StorageFlash

namespace EdgeLink.Storage
open LittleEndian Nor

/-! A write to the flash as the page programs that the driver is asked for. -/

def W25QXX_PAGE_SIZE : ℕ := 256

structure Driver where
  ready : Bool
  size_bytes : ℕ

def w25qxxAddrValid (d : Driver) (addr len : ℕ) : Bool :=
  if d.size_bytes = 0 then false
  else if len = 0 then true
  else if d.size_bytes ≤ addr then false
  else if d.size_bytes - addr < len then false
  else true

/-- What `w25qxxPageProgram` checks before it sends anything. -/
def pageProgramAccepts (d : Driver) (addr len : ℕ) : Bool :=
  if d.ready = false then false
  else if len = 0 ∨ W25QXX_PAGE_SIZE < len then false
  else if W25QXX_PAGE_SIZE < addr % W25QXX_PAGE_SIZE + len then false
  else w25qxxAddrValid d addr len

/-- How the chip and the bus take a page program; `taken` are the addresses that the chip has
programmed when the page breaks off or the chip stays busy. -/
structure Answer where
  write_enable : Bool
  command : Bool
  data : Bool
  idle : Bool
  taken : ℕ → Bool

def Answer.good (w : Answer) : Bool := w.write_enable && w.command && w.data && w.idle

def programSome (taken : ℕ → Bool) (m : Mem) (a : ℕ) (bs : Bytes) : Mem := fun x =>
  if taken x then program m a bs x else m x

/-- The buffer is what the pointer points to, or none for NULL. -/
def w25qxxPageProgram (d : Driver) (w : Answer) (m : Mem) (addr : ℕ) (buf : Option Mem) (len : ℕ) :
    Mem × Bool :=
  match buf with
  | none => (m, false)
  | some buf =>
    if pageProgramAccepts d addr len = false then (m, false)
    else if w.write_enable = false then (m, false)
    else if w.command = false then (m, false)
    else if w.data = false then (programSome w.taken m addr (read buf 0 len), false)
    else if w.idle = false then (programSome w.taken m addr (read buf 0 len), false)
    else (program m addr (read buf 0 len), true)

/-- The flash, and the page programs asked for so far. -/
structure Chip where
  mem : Mem
  calls : List (ℕ × Bytes)

section Write
variable (d : Driver) (bus : ℕ → Answer)

/-- The answers stand in the order of the calls. -/
def devPageProgram (c : Chip) (addr : ℕ) (buf : Mem) (len : ℕ) : Chip × Bool :=
  let r := w25qxxPageProgram d (bus c.calls.length) c.mem addr (some buf) len
  (⟨r.1, c.calls ++ [(addr, read buf 0 len)]⟩, r.2)

def pageRemain (cur : ℕ) : ℕ := STORAGE_PAGE_SIZE - cur % STORAGE_PAGE_SIZE

theorem pageRemain_pos (cur : ℕ) : 0 < pageRemain cur :=
  Nat.sub_pos_of_lt (Nat.mod_lt _ (by decide))

/-- `written` grows with every page, so the loop ends. -/
def writeLoop (addr : ℕ) (buf : Mem) (len written : ℕ) (c : Chip) : Chip × Bool :=
  if written < len then
    let cur := addr + written
    let chunk := min (len - written) (pageRemain cur)
    match devPageProgram d bus c cur (fun i => buf (written + i)) chunk with
    | (c', true) => writeLoop addr buf len (written + chunk) c'
    | (c', false) => (c', false)
  else (c, true)
termination_by len - written
decreasing_by
  have := pageRemain_pos (addr + written)
  omega

def regionWrite (g : Region) (c : Chip) (addr : ℕ) (buf : Option Mem) (len : ℕ) : Chip × Bool :=
  match buf with
  | none => (c, false)
  | some buf => if ¬ g.inRange addr len then (c, false) else writeLoop d bus addr buf len 0 c

def storageFlashWrite (c : Chip) (addr : ℕ) (buf : Option Mem) (len : ℕ) : Chip × Bool :=
  regionWrite d bus eventRegion c addr buf len

def storageCacheWrite (c : Chip) (addr : ℕ) (buf : Option Mem) (len : ℕ) : Chip × Bool :=
  regionWrite d bus cacheRegion c addr buf len

end Write

section Driver
variable {d : Driver} {w : Answer} {m : Mem} {addr len : ℕ} {buf : Mem}

theorem w25qxxAddrValid_iff (hpos : 0 < len) :
    w25qxxAddrValid d addr len = true ↔ addr + len ≤ d.size_bytes := by
  unfold w25qxxAddrValid
  split_ifs <;> simp only [false_iff, true_iff] <;> omega

/-- Of a piece of a page the driver only asks whether it is on the chip. -/
theorem pageProgramAccepts_iff (hpos : 0 < len)
    (hpage : addr % W25QXX_PAGE_SIZE + len ≤ W25QXX_PAGE_SIZE) :
    pageProgramAccepts d addr len = true ↔ d.ready = true ∧ addr + len ≤ d.size_bytes := by
  unfold pageProgramAccepts
  by_cases hready : d.ready = false
  · simp [hready]
  · rw [if_neg hready, if_neg (by omega), if_neg (by omega), w25qxxAddrValid_iff hpos,
      Bool.not_eq_false] at *
    exact (and_iff_right hready).symm

theorem w25qxxPageProgram_ok (h : (w25qxxPageProgram d w m addr (some buf) len).2 = true) :
    pageProgramAccepts d addr len = true ∧ w.good = true ∧
      (w25qxxPageProgram d w m addr (some buf) len).1 = program m addr (read buf 0 len) := by
  unfold Answer.good
  unfold w25qxxPageProgram at h ⊢
  dsimp only at h ⊢
  split_ifs at h ⊢ with haccepts henable hcommand hdata hidle
  rw [Bool.not_eq_false] at haccepts henable hcommand hdata hidle
  rw [henable, hcommand, hdata, hidle]
  exact ⟨haccepts, rfl, rfl⟩

theorem w25qxxPageProgram_of_good (haccepts : pageProgramAccepts d addr len = true)
    (hgood : w.good = true) : (w25qxxPageProgram d w m addr (some buf) len).2 = true := by
  unfold Answer.good at hgood
  simp only [Bool.and_eq_true] at hgood
  unfold w25qxxPageProgram
  simp [haccepts, hgood]

/-- Whatever happens, a byte is as it was or as the program leaves it. -/
theorem w25qxxPageProgram_either (x : ℕ) :
    (w25qxxPageProgram d w m addr (some buf) len).1 x = m x ∨
      (w25qxxPageProgram d w m addr (some buf) len).1 x = program m addr (read buf 0 len) x := by
  have hsome : programSome w.taken m addr (read buf 0 len) x = m x ∨
      programSome w.taken m addr (read buf 0 len) x = program m addr (read buf 0 len) x := by
    unfold programSome
    split_ifs
    · exact Or.inr rfl
    · exact Or.inl rfl
  unfold w25qxxPageProgram
  dsimp only
  split_ifs
  · exact Or.inl rfl
  · exact Or.inl rfl
  · exact Or.inl rfl
  · exact hsome
  · exact hsome
  · exact Or.inr rfl

end Driver

inductive Pages : ℕ → List (ℕ × Bytes) → Bytes → Prop
  | nil (a : ℕ) : Pages a [] []
  | cons {a : ℕ} {page : Bytes} {calls : List (ℕ × Bytes)} {rest : Bytes} : 0 < page.length →
    a % W25QXX_PAGE_SIZE + page.length ≤ W25QXX_PAGE_SIZE → Pages (a + page.length) calls rest →
    Pages a ((a, page) :: calls) (page ++ rest)

def covers (x : ℕ) (call : ℕ × Bytes) : Bool := call.1 ≤ x ∧ x < call.1 + call.2.length

theorem Pages.count {a : ℕ} {calls : List (ℕ × Bytes)} {data : Bytes} (h : Pages a calls data)
    (x : ℕ) : calls.countP (covers x) = if a ≤ x ∧ x < a + data.length then 1 else 0 := by
  induction h with
  | nil a =>
    rw [if_neg (by rw [List.length_nil]; omega)]
    rfl
  | @cons a page calls rest hpos hpage _ ih =>
    have hcovers : covers x (a, page) = decide (a ≤ x ∧ x < a + page.length) := rfl
    rw [List.countP_cons, ih, hcovers, List.length_append]
    simp only [decide_eq_true_eq]
    -- the page is over before the others begin
    by_cases hin : a ≤ x ∧ x < a + page.length
    · rw [if_pos hin, if_neg (by omega), if_pos (by omega)]
    · rw [if_neg hin, Nat.add_zero]
      exact if_congr (by omega) rfl rfl

theorem Pages.mem {a : ℕ} {calls : List (ℕ × Bytes)} {data : Bytes} (h : Pages a calls data)
    {call : ℕ × Bytes} (hcall : call ∈ calls) : 0 < call.2.length ∧
      call.1 % W25QXX_PAGE_SIZE + call.2.length ≤ W25QXX_PAGE_SIZE ∧ a ≤ call.1 ∧
      call.1 + call.2.length ≤ a + data.length := by
  induction h with
  | nil a => cases hcall
  | @cons a page calls rest hpos hpage _ ih =>
    rw [List.length_append]
    rcases List.mem_cons.mp hcall with rfl | hcall
    · exact ⟨hpos, hpage, le_rfl, by dsimp only; omega⟩
    · obtain ⟨hpos', hpage', hlo, hhi⟩ := ih hcall
      exact ⟨hpos', hpage', by omega, by omega⟩

theorem Pages.length_le {a : ℕ} {calls : List (ℕ × Bytes)} {data : Bytes} (h : Pages a calls data) :
    calls.length ≤ data.length := by
  induction h with
  | nil a => exact le_rfl
  | cons hpos _ _ ih =>
    rw [List.length_cons, List.length_append]
    omega

/-- What a write of `data` to `a` leaves when the page program of `[cur, stop)` fails. -/
structure Torn (m m' : Mem) (a : ℕ) (data : Bytes) (cur stop : ℕ) : Prop where
  lo : a ≤ cur
  hi : stop ≤ a + data.length
  before : ∀ x, x < a → m' x = m x
  written : ∀ x, a ≤ x → x < cur → m' x = program m a data x
  failing : ∀ x, cur ≤ x → x < stop → m' x = m x ∨ m' x = program m a data x
  behind : ∀ x, stop ≤ x → m' x = m x

section Torn
variable {m m' : Mem} {a : ℕ} {page rest : Bytes}

theorem program_page {x : ℕ} (hx : x < a + page.length) :
    program m a (page ++ rest) x = program m a page x := by
  rw [← program_append]
  exact program_outside (Or.inl hx)

theorem Torn.of_page (h : ∀ x, m' x = m x ∨ m' x = program m a page x) :
    Torn m m' a (page ++ rest) a (a + page.length) := by
  have houter {x : ℕ} (hx : x < a ∨ a + page.length ≤ x) : m' x = m x :=
    (h x).elim id fun hprogram => hprogram.trans (program_outside hx)
  refine ⟨le_rfl, ?_, fun x hx => houter (Or.inl hx), fun x hlo hhi => absurd hlo (by omega),
    fun x _ hhi => ?_, fun x hx => houter (Or.inr hx)⟩
  · rw [List.length_append]
    omega
  · rw [program_page hhi]
    exact h x

/-- A page that is programmed comes before the failure. -/
theorem Torn.after {cur stop : ℕ}
    (h : Torn (program m a page) m' (a + page.length) rest cur stop) (hstop : cur ≤ stop) :
    Torn m m' a (page ++ rest) cur stop := by
  have hbelow : a + page.length ≤ cur := h.lo
  refine ⟨by omega, ?_, fun x hx => ?_, fun x hlo hhi => ?_, fun x hlo hhi => ?_, fun x hx => ?_⟩
  · rw [List.length_append, ← Nat.add_assoc]
    exact h.hi
  · exact (h.before x (by omega)).trans (program_outside (Or.inl hx))
  · by_cases hx : x < a + page.length
    · rw [program_page hx]
      exact h.before x hx
    · rw [← program_append]
      exact h.written x (by omega) hhi
  · have hfailing := h.failing x hlo hhi
    rw [program_append, program_outside (Or.inr (by omega) : x < a ∨ a + page.length ≤ x)] at hfailing
    exact hfailing
  · exact (h.behind x hx).trans (program_outside (Or.inr (by omega)))

end Torn

section Loop
variable {d : Driver} {bus : ℕ → Answer}

/-- From the call with the number `k` on, the driver accepts every call and the answers are good. -/
def AllGood (d : Driver) (bus : ℕ → Answer) (k : ℕ) (calls : List (ℕ × Bytes)) : Prop :=
  ∀ i call, calls[i]? = some call →
    pageProgramAccepts d call.1 call.2.length = true ∧ (bus (k + i)).good = true

theorem allGood_nil (k : ℕ) : AllGood d bus k [] := fun _ _ h => by cases h

theorem allGood_cons {k : ℕ} {call : ℕ × Bytes} {calls : List (ℕ × Bytes)} :
    AllGood d bus k (call :: calls) ↔
      (pageProgramAccepts d call.1 call.2.length = true ∧ (bus k).good = true) ∧
        AllGood d bus (k + 1) calls := by
  constructor
  · refine fun h => ⟨h 0 call rfl, fun i call' hcall => ?_⟩
    have hnext := h (i + 1) call' hcall
    rwa [← Nat.add_assoc, Nat.add_right_comm] at hnext
  · rintro ⟨hfirst, hrest⟩ i call' hcall
    cases i with
    | zero =>
      obtain rfl := Option.some.inj hcall
      exact hfirst
    | succ i =>
      have hnext := hrest i call' hcall
      rwa [Nat.add_right_comm] at hnext

theorem read_shift (buf : Mem) (a n : ℕ) : read (fun i => buf (a + i)) 0 n = read buf a n := by
  unfold Nor.read
  simp only [Nat.zero_add]

/-- What the loop has done when it ends: the calls carry the data up to where it ends. -/
structure Looped (d : Driver) (bus : ℕ → Answer) (a : ℕ) (data : Bytes) (c : Chip)
    (calls : List (ℕ × Bytes)) (c' : Chip) (ok : Bool) : Prop where
  log : c'.calls = c.calls ++ calls
  pages : ∃ carried, carried <+: data ∧ Pages a calls carried ∧ (ok = true → carried = data)
  good : ok = true ↔ AllGood d bus c.calls.length calls
  mem : ok = true → c'.mem = program c.mem a data
  torn : ok = false → ∃ call, calls.getLast? = some call ∧
    Torn c.mem c'.mem a data call.1 (call.1 + call.2.length)

theorem Looped.over (a : ℕ) (c : Chip) : Looped d bus a [] c [] c true where
  log := (List.append_nil _).symm
  pages := ⟨[], List.prefix_rfl, .nil a, fun _ => rfl⟩
  good := iff_of_true rfl (allGood_nil _)
  mem _ := (program_nil _ _).symm
  torn h := by cases h

section Page
variable {a len : ℕ} {buf : Mem} {rest : Bytes} {c c₁ c' : Chip}

theorem devPageProgram_calls (d : Driver) (bus : ℕ → Answer) (c : Chip) (a : ℕ) (buf : Mem) (len : ℕ) :
    (devPageProgram d bus c a buf len).1.calls = c.calls ++ [(a, read buf 0 len)] := rfl

theorem Looped.fails (hpos : 0 < len) (hpage : a % W25QXX_PAGE_SIZE + len ≤ W25QXX_PAGE_SIZE)
    (h : devPageProgram d bus c a buf len = (c₁, false)) :
    Looped d bus a (read buf 0 len ++ rest) c [(a, read buf 0 len)] c₁ false := by
  have hr : (w25qxxPageProgram d (bus c.calls.length) c.mem a (some buf) len).1 = c₁.mem ∧
      (w25qxxPageProgram d (bus c.calls.length) c.mem a (some buf) len).2 = false :=
    ⟨congrArg (fun r => r.1.mem) h, congrArg Prod.snd h⟩
  refine ⟨?_, ⟨read buf 0 len, List.prefix_append _ _, ?_, nofun⟩, ?_, nofun, fun _ => ?_⟩
  · rw [← devPageProgram_calls d bus c a buf len, h]
  · have hpages := @Pages.cons a (read buf 0 len) [] [] (by rwa [read_length])
      (by rwa [read_length]) (.nil _)
    rwa [List.append_nil] at hpages
  · refine iff_of_false Bool.false_ne_true fun hgood => ?_
    have hfirst := (allGood_cons.mp hgood).1
    rw [read_length] at hfirst
    have htrue := @w25qxxPageProgram_of_good d _ c.mem a len buf hfirst.1 hfirst.2
    rw [hr.2] at htrue
    cases htrue
  · refine ⟨(a, read buf 0 len), rfl, Torn.of_page fun x => ?_⟩
    rw [← hr.1]
    exact w25qxxPageProgram_either x

theorem Looped.page {calls : List (ℕ × Bytes)} {ok : Bool} (hpos : 0 < len)
    (hpage : a % W25QXX_PAGE_SIZE + len ≤ W25QXX_PAGE_SIZE)
    (h : devPageProgram d bus c a buf len = (c₁, true))
    (hrest : Looped d bus (a + len) rest c₁ calls c' ok) :
    Looped d bus a (read buf 0 len ++ rest) c ((a, read buf 0 len) :: calls) c' ok := by
  have hlog : c₁.calls = c.calls ++ [(a, read buf 0 len)] := by
    rw [← devPageProgram_calls d bus c a buf len, h]
  obtain ⟨haccepts, hanswer, hmem⟩ := w25qxxPageProgram_ok (congrArg Prod.snd h)
  have hmem' : c₁.mem = program c.mem a (read buf 0 len) :=
    (congrArg (fun r => r.1.mem) h).symm.trans hmem
  have hlen : (read buf 0 len).length = len := read_length _ _ _
  generalize read buf 0 len = page at *
  subst hlen
  obtain ⟨log, ⟨carried, hprefix, hpages, hall⟩, good, mem, torn⟩ := hrest
  refine ⟨?_, ⟨page ++ carried, ?_, .cons hpos hpage hpages, fun hok => ?_⟩, ?_, fun hok => ?_,
    fun hok => ?_⟩
  · rw [log, hlog, List.append_assoc]
    rfl
  · exact (List.prefix_append_right_inj page).mpr hprefix
  · rw [hall hok]
  · rw [good, allGood_cons, hlog, List.length_append]
    exact (and_iff_right ⟨haccepts, hanswer⟩).symm
  · rw [mem hok, hmem', program_append]
  · obtain ⟨call, hlast, htorn⟩ := torn hok
    rw [hmem'] at htorn
    refine ⟨call, ?_, htorn.after (Nat.le_add_right _ _)⟩
    rw [List.getLast?_cons, hlast]
    rfl

end Page

/-- The remainder of the page is counted from the moving address, so every page fits. -/
theorem pageRemain_fits {cur n : ℕ} (h : n ≤ pageRemain cur) :
    cur % W25QXX_PAGE_SIZE + n ≤ W25QXX_PAGE_SIZE := by
  unfold pageRemain STORAGE_PAGE_SIZE at h
  unfold W25QXX_PAGE_SIZE
  omega

theorem writeLoop_spec (addr : ℕ) (buf : Mem) (len written : ℕ) (c : Chip) (hle : written ≤ len) :
    ∃ calls, Looped d bus (addr + written) (read buf written (len - written)) c calls
      (writeLoop d bus addr buf len written c).1 (writeLoop d bus addr buf len written c).2 := by
  -- on the bytes that are left
  induction hn : len - written using Nat.strong_induction_on generalizing written c with
  | _ n ih =>
    rw [writeLoop]
    by_cases hmore : written < len
    · rw [if_pos hmore]
      dsimp only
      have hremain := pageRemain_pos (addr + written)
      have hfits := @pageRemain_fits (addr + written) (min (len - written) (pageRemain (addr + written)))
        (Nat.min_le_right _ _)
      have hchunk : min (len - written) (pageRemain (addr + written)) ≤ len - written :=
        Nat.min_le_left _ _
      have hpos : 0 < min (len - written) (pageRemain (addr + written)) := by omega
      generalize min (len - written) (pageRemain (addr + written)) = chunk at hfits hchunk hpos ⊢
      have hdata : read buf written n = read (fun i => buf (written + i)) 0 chunk ++
          read buf (written + chunk) (len - (written + chunk)) := by
        rw [read_shift, ← read_add]
        congr 1
        omega
      rw [hdata]
      rcases hcall : devPageProgram d bus c (addr + written) (fun i => buf (written + i)) chunk with
        ⟨c₁, _ | _⟩
      · exact ⟨_, .fails hpos hfits hcall⟩
      · obtain ⟨calls, hrest⟩ := ih _ (by omega) (written + chunk) c₁ (by omega) rfl
        rw [← Nat.add_assoc] at hrest
        exact ⟨_, .page hpos hfits hcall hrest⟩
    · rw [if_neg hmore]
      obtain rfl : n = 0 := by omega
      exact ⟨[], .over _ c⟩

theorem regionWrite_spec {g : Region} {addr len : ℕ} (hin : g.inRange addr len = true) (buf : Mem)
    (c : Chip) : ∃ calls, Looped d bus addr (read buf 0 len) c calls
      (regionWrite d bus g c addr (some buf) len).1 (regionWrite d bus g c addr (some buf) len).2 := by
  unfold regionWrite
  dsimp only
  rw [if_neg (not_not.mpr hin)]
  exact writeLoop_spec addr buf len 0 c (Nat.zero_le _)

end Loop

theorem Region.inRange_fits {g : Region} {addr len : ℕ} (h : g.inRange addr len = true)
    (hpos : 0 < len) : addr + len ≤ STORAGE_FLASH_SIZE := by
  unfold Region.inRange at h
  have hfits := g.fits
  have hstop : g.stop = g.base + g.size := rfl
  rw [decide_eq_true_eq] at h
  omega

/-- A write of `data` to `addr`, from the flash `m` on. A page program is on one page, and the driver
accepts it if it is ready and the chip reaches so far. -/
structure WrittenInPages (d : Driver) (bus : ℕ → Answer) (m : Mem) (addr : ℕ) (data : Bytes)
    (r : Chip × Bool) : Prop where
  length : ∀ call ∈ r.1.calls, 1 ≤ call.2.length ∧ call.2.length ≤ W25QXX_PAGE_SIZE
  page : ∀ call ∈ r.1.calls,
    call.1 / W25QXX_PAGE_SIZE = (call.1 + call.2.length - 1) / W25QXX_PAGE_SIZE
  accepts : ∀ call ∈ r.1.calls, pageProgramAccepts d call.1 call.2.length = true ↔
    d.ready = true ∧ call.1 + call.2.length ≤ d.size_bytes
  accepted : d.ready = true → STORAGE_FLASH_SIZE ≤ d.size_bytes →
    ∀ call ∈ r.1.calls, pageProgramAccepts d call.1 call.2.length = true
  ends : r.1.calls.length ≤ data.length
  no_other : ∀ x, r.1.calls.countP (covers x) ≤
    if addr ≤ x ∧ x < addr + data.length then 1 else 0
  succeeds : r.2 = true ↔ AllGood d bus 0 r.1.calls
  pages : r.2 = true → Pages addr r.1.calls data
  once : r.2 = true → ∀ x, r.1.calls.countP (covers x) =
    if addr ≤ x ∧ x < addr + data.length then 1 else 0
  mem : r.2 = true → r.1.mem = program m addr data
  equal : r.2 = true → Blank m addr data.length → read r.1.mem addr data.length = data
  outside : ∀ x, x < addr ∨ addr + data.length ≤ x → r.1.mem x = m x
  torn : r.2 = false → ∃ call, r.1.calls.getLast? = some call ∧
    Torn m r.1.mem addr data call.1 (call.1 + call.2.length)

section Region
variable (d : Driver) (bus : ℕ → Answer) (m : Mem)

theorem regionWrite_in_pages {g : Region} {addr len : ℕ} (buf : Mem)
    (hin : g.inRange addr len = true) : WrittenInPages d bus m addr (read buf 0 len)
      (regionWrite d bus g ⟨m, []⟩ addr (some buf) len) := by
  obtain ⟨calls, hlooped⟩ := @regionWrite_spec d bus g addr len hin buf ⟨m, []⟩
  have hlen : (read buf 0 len).length = len := read_length _ _ _
  generalize regionWrite d bus g ⟨m, []⟩ addr (some buf) len = r at hlooped ⊢
  generalize read buf 0 len = data at hlooped hlen ⊢
  subst hlen
  -- the calls carry a beginning of the data, and all of it if the write succeeds
  obtain ⟨log, ⟨carried, hprefix, hpages, hall⟩, hgood, hmem, htorn⟩ := hlooped
  obtain rfl : r.1.calls = calls := log
  have hshort : carried.length ≤ data.length := hprefix.length_le
  have hpage {call : ℕ × Bytes} (hcall : call ∈ r.1.calls) := hpages.mem hcall
  have haccepts : ∀ call ∈ r.1.calls, pageProgramAccepts d call.1 call.2.length = true ↔
      d.ready = true ∧ call.1 + call.2.length ≤ d.size_bytes := fun call hcall =>
    pageProgramAccepts_iff (hpage hcall).1 (hpage hcall).2.1
  have hpages' (hok : r.2 = true) : Pages addr r.1.calls data := by
    rw [← hall hok]
    exact hpages
  constructor
  case length =>
    intro call hcall
    obtain ⟨hpos, hfits, -⟩ := hpage hcall
    omega
  case page =>
    intro call hcall
    obtain ⟨hpos, hfits, -⟩ := hpage hcall
    unfold W25QXX_PAGE_SIZE at hfits ⊢
    omega
  case accepts => exact haccepts
  case accepted =>
    intro hready hsize call hcall
    obtain ⟨hpos, -, hlo, hhi⟩ := hpage hcall
    have hfits := Region.inRange_fits hin (by omega)
    exact (haccepts call hcall).mpr ⟨hready, by omega⟩
  case ends => exact hpages.length_le.trans hshort
  case no_other =>
    intro x
    rw [hpages.count]
    split_ifs <;> omega
  case succeeds => exact hgood
  case pages => exact hpages'
  case once => exact fun hok => (hpages' hok).count
  case mem => exact hmem
  case equal =>
    intro hok hblank
    rw [hmem hok]
    exact program_blank hblank
  case outside =>
    intro x hx
    cases hok : r.2 with
    | true =>
      rw [hmem hok]
      exact program_outside hx
    | false =>
      obtain ⟨call, -, hleft⟩ := htorn hok
      have hhi := hleft.hi
      exact hx.elim (hleft.before x) fun habove => hleft.behind x (by omega)
  case torn => exact htorn

/-- Without a failure the pages do what the byte by byte flash does that the records are written to. -/
theorem regionWrite_storageWrite {g : Region} {addr len : ℕ} (buf : Mem)
    (hready : d.ready = true) (hsize : STORAGE_FLASH_SIZE ≤ d.size_bytes)
    (hgood : ∀ i, (bus i).good = true) :
    (regionWrite d bus g ⟨m, []⟩ addr (some buf) len).2 =
        (storageWrite g (Ctl.start m none) addr (read buf 0 len)).2 ∧
      (regionWrite d bus g ⟨m, []⟩ addr (some buf) len).1.mem =
        (storageWrite g (Ctl.start m none) addr (read buf 0 len)).1.mem := by
  have hlen : (read buf 0 len).length = len := read_length _ _ _
  by_cases hin : g.inRange addr len = true
  · have hpages := regionWrite_in_pages d bus m buf hin
    have hok := hpages.succeeds.mpr fun i call hcall =>
      ⟨hpages.accepted hready hsize call (List.mem_of_getElem? hcall), hgood _⟩
    unfold storageWrite
    rw [hlen, if_neg (not_not.mpr hin), hok, hpages.mem hok]
    by_cases hpos : 0 < len
    · obtain ⟨hok', -, hmem⟩ := @writePages_ok (Ctl.start m none) rfl addr len (read buf 0 len)
        hlen.le (by rw [hlen]; exact Region.inRange_fits hin hpos)
      exact ⟨hok'.symm, hmem.symm⟩
    · obtain rfl : len = 0 := by omega
      exact ⟨rfl, program_nil _ _⟩
  · unfold storageWrite regionWrite
    dsimp only
    rw [hlen, if_pos hin, if_pos hin]
    exact ⟨rfl, rfl⟩

/-- For every address and length in range, every buffer and whatever fails. -/
theorem flash_written_in_pages {addr len : ℕ} (buf : Mem)
    (hin : eventRegion.inRange addr len = true) : WrittenInPages d bus m addr (read buf 0 len)
      (storageFlashWrite d bus ⟨m, []⟩ addr (some buf) len) :=
  regionWrite_in_pages d bus m buf hin

theorem cache_written_in_pages {addr len : ℕ} (buf : Mem)
    (hin : cacheRegion.inRange addr len = true) : WrittenInPages d bus m addr (read buf 0 len)
      (storageCacheWrite d bus ⟨m, []⟩ addr (some buf) len) :=
  regionWrite_in_pages d bus m buf hin

end Region

/-- Six bytes over the end of a page, whose second page breaks off behind its first byte. -/
theorem six_bytes_in_pages : WrittenInPages ⟨true, STORAGE_FLASH_SIZE⟩
    (fun i => ⟨true, true, i = 0, true, fun x => x < 0x010101⟩) erasedFlash 0x0100FE
    (read (fun i => UInt8.ofNat (i + 1)) 0 6)
    (storageFlashWrite ⟨true, STORAGE_FLASH_SIZE⟩
      (fun i => ⟨true, true, i = 0, true, fun x => x < 0x010101⟩) ⟨erasedFlash, []⟩ 0x0100FE
      (some fun i => UInt8.ofNat (i + 1)) 6) :=
  flash_written_in_pages _ _ _ _ (by decide)

end EdgeLink.Storage
