import EdgeLink.LittleEndian

namespace EdgeLink.Nor
open LittleEndian

abbrev Mem := ℕ → UInt8

def read (m : Mem) (a n : ℕ) : Bytes := (List.range n).map fun i => m (a + i)

/-- Programming can only clear bits. -/
def program (m : Mem) (a : ℕ) (bs : Bytes) : Mem := fun x =>
  if a ≤ x ∧ x < a + bs.length then m x &&& bs.getD (x - a) 0xFF else m x

def erase (m : Mem) (a n : ℕ) : Mem := fun x => if a ≤ x ∧ x < a + n then 0xFF else m x

/-- A range that holds nothing but erased bytes. -/
def Blank (m : Mem) (a n : ℕ) : Prop := ∀ x, a ≤ x → x < a + n → m x = 0xFF

def AgreeOn (m m' : Mem) (a n : ℕ) : Prop := ∀ x, a ≤ x → x < a + n → m x = m' x

@[simp] theorem read_length (m : Mem) (a n : ℕ) : (read m a n).length = n := by simp [read]

@[simp] theorem read_zero (m : Mem) (a : ℕ) : read m a 0 = [] := rfl

theorem read_getElem (m : Mem) (a n i : ℕ) (h : i < (read m a n).length) :
    (read m a n)[i] = m (a + i) := by simp [read]

theorem read_getD (m : Mem) (a n i : ℕ) (h : i < n) (d : UInt8) :
    (read m a n).getD i d = m (a + i) := by
  rw [List.getD_eq_getElem _ _ (by simpa using h), read_getElem]

theorem read_add (m : Mem) (a n k : ℕ) : read m a (n + k) = read m a n ++ read m (a + n) k := by
  simp [read, List.range_add, Nat.add_assoc, Function.comp_def]

theorem read_succ (m : Mem) (a n : ℕ) : read m a (n + 1) = m a :: read m (a + 1) n := by
  rw [Nat.add_comm n 1, read_add]
  rfl

theorem read_sub {m : Mem} {a n i k : ℕ} {b : Bytes} (h : read m a n = b) (hik : i + k ≤ n) :
    read m (a + i) k = (b.drop i).take k := by
  obtain ⟨d, rfl⟩ := Nat.exists_eq_add_of_le hik
  rw [← h, Nat.add_assoc, read_add, List.drop_left' (read_length _ _ _), read_add,
    List.take_left' (read_length _ _ _)]

theorem read_congr {m m' : Mem} {a n : ℕ} (h : AgreeOn m m' a n) : read m a n = read m' a n := by
  apply List.map_congr_left
  intro i hi
  rw [List.mem_range] at hi
  exact h _ (by omega) (by omega)

theorem agreeOn_of_read_eq {m m' : Mem} {a n : ℕ} (h : read m a n = read m' a n) :
    AgreeOn m m' a n := by
  intro x hx hx'
  have hg := congrArg (fun l => l.getD (x - a) 0) h
  simpa only [read_getD _ _ _ _ (show x - a < n by omega), Nat.add_sub_cancel' hx] using hg

theorem AgreeOn.symm {m m' : Mem} {a n : ℕ} (h : AgreeOn m m' a n) : AgreeOn m' m a n :=
  fun x hx hx' => (h x hx hx').symm

theorem AgreeOn.trans {m₁ m₂ m₃ : Mem} {a n : ℕ}
    (h : AgreeOn m₁ m₂ a n) (h' : AgreeOn m₂ m₃ a n) : AgreeOn m₁ m₃ a n :=
  fun x hx hx' => (h x hx hx').trans (h' x hx hx')

theorem AgreeOn.mono {m m' : Mem} {a n b k : ℕ} (h : AgreeOn m m' a n)
    (hab : a ≤ b) (hbk : b + k ≤ a + n) : AgreeOn m m' b k :=
  fun x hx hx' => h x (by omega) (by omega)

theorem Blank.mono {m : Mem} {a n b k : ℕ} (h : Blank m a n)
    (hab : a ≤ b) (hbk : b + k ≤ a + n) : Blank m b k :=
  fun x hx hx' => h x (by omega) (by omega)

theorem Blank.congr {m m' : Mem} {a n : ℕ} (h : Blank m a n) (hm : AgreeOn m m' a n) :
    Blank m' a n := fun x hx hx' => (hm x hx hx').symm.trans (h x hx hx')

theorem blank_iff_read (m : Mem) (a n : ℕ) : Blank m a n ↔ ∀ b ∈ read m a n, b = 0xFF := by
  simp only [read, List.forall_mem_map, List.mem_range]
  constructor
  · intro h i hi
    exact h _ (by omega) (by omega)
  · intro h x hx hx'
    have := h (x - a) (by omega)
    rwa [Nat.add_sub_cancel' hx] at this

theorem read_blank {m : Mem} {a n : ℕ} (h : Blank m a n) : read m a n = List.replicate n 0xFF := by
  rw [List.eq_replicate_iff]
  exact ⟨read_length m a n, (blank_iff_read m a n).mp h⟩

theorem program_outside {m : Mem} {a : ℕ} {bs : Bytes} {x : ℕ}
    (h : x < a ∨ a + bs.length ≤ x) : program m a bs x = m x := if_neg (by omega)

theorem erase_outside {m : Mem} {a n x : ℕ} (h : x < a ∨ a + n ≤ x) : erase m a n x = m x :=
  if_neg (by omega)

theorem erase_blank (m : Mem) (a n : ℕ) : Blank (erase m a n) a n :=
  fun _ hx hx' => if_pos ⟨hx, hx'⟩

/-- Erasing what is erased changes nothing. -/
theorem erase_of_blank {m : Mem} {a n : ℕ} (h : Blank m a n) : erase m a n = m := by
  funext x
  unfold erase
  split_ifs with hx
  · exact (h x hx.1 hx.2).symm
  · rfl

@[simp] theorem program_nil (m : Mem) (a : ℕ) : program m a [] = m := by
  funext x
  exact if_neg (by simp only [List.length_nil]; omega)

theorem program_append (m : Mem) (a : ℕ) (bs cs : Bytes) :
    program (program m a bs) (a + bs.length) cs = program m a (bs ++ cs) := by
  funext x
  simp only [program, List.length_append]
  by_cases h₁ : a ≤ x ∧ x < a + bs.length
  · rw [if_neg (by omega), if_pos h₁, if_pos (by omega),
      List.getD_append _ _ _ _ (by omega)]
  · rw [if_neg h₁]
    by_cases h₂ : a + bs.length ≤ x ∧ x < a + bs.length + cs.length
    · rw [if_pos h₂, if_pos (by omega), List.getD_append_right _ _ _ _ (by omega), Nat.sub_sub]
    · rw [if_neg h₂, if_neg (by omega)]

theorem program_cons (m : Mem) (a : ℕ) (b : UInt8) (bs : Bytes) :
    program m a (b :: bs) = program (program m a [b]) (a + 1) bs :=
  (program_append m a [b] bs).symm

theorem ff_and (b : UInt8) : 0xFF &&& b = b := by
  apply UInt8.toNat.inj
  have h := b.toNat_lt
  simpa [Nat.and_comm] using (Nat.and_two_pow_sub_one_eq_mod b.toNat 8).trans (Nat.mod_eq_of_lt h)

/-- Programming an erased range stores the bytes. -/
theorem program_blank {m : Mem} {a : ℕ} {bs : Bytes} (h : Blank m a bs.length) :
    read (program m a bs) a bs.length = bs := by
  apply List.ext_getElem (read_length _ _ _)
  intro i hi hi'
  rw [read_getElem, program, if_pos (by omega), h _ (by omega) (by omega), ff_and,
    Nat.add_sub_cancel_left, List.getD_eq_getElem _ _ hi']

/-- Programming 0xFF changes nothing. -/
theorem program_ff (m : Mem) (a n : ℕ) : program m a (List.replicate n 0xFF) = m := by
  funext x
  unfold program
  split_ifs with h
  · rw [List.length_replicate] at h
    rw [List.getD_eq_getElem _ _ (by rw [List.length_replicate]; omega), List.getElem_replicate,
      UInt8.and_comm, ff_and]
  · rfl

inductive Op
  | erase (a n : ℕ)
  | program (a : ℕ) (bs : Bytes)
  deriving DecidableEq, Repr

def Op.lo : Op → ℕ
  | .erase a _ => a
  | .program a _ => a

def Op.hi : Op → ℕ
  | .erase a n => a + n
  | .program a bs => a + bs.length

def Op.apply (m : Mem) : Op → Mem
  | .erase a n => Nor.erase m a n
  | .program a bs => Nor.program m a bs

/-- Every address the operation can change lies in `[lo, hi)`. -/
def Op.Inside (lo hi : ℕ) (op : Op) : Prop := lo ≤ op.lo ∧ op.hi ≤ hi

instance (lo hi : ℕ) (op : Op) : Decidable (op.Inside lo hi) :=
  inferInstanceAs (Decidable (_ ∧ _))

theorem Op.Inside.mono {lo hi lo' hi' : ℕ} {op : Op} (h : op.Inside lo hi)
    (hlo : lo' ≤ lo) (hhi : hi ≤ hi') : op.Inside lo' hi' := ⟨hlo.trans h.1, h.2.trans hhi⟩

theorem Op.apply_outside {lo hi : ℕ} {op : Op} (h : op.Inside lo hi) (m : Mem) {x : ℕ}
    (hx : x < lo ∨ hi ≤ x) : op.apply m x = m x := by
  obtain ⟨h₁, h₂⟩ := h
  cases op with
  | erase a n => exact erase_outside (by simp only [Op.lo, Op.hi] at h₁ h₂; omega)
  | program a bs => exact program_outside (by simp only [Op.lo, Op.hi] at h₁ h₂; omega)

structure Ctl where
  mem : Mem
  life : Option ℕ
  ops : List Op

/-- A fresh controller over `m`; with `life = none` no operation fails. -/
def Ctl.start (m : Mem) (life : Option ℕ) : Ctl := ⟨m, life, []⟩

@[simp] theorem Ctl.start_mem (m : Mem) (life : Option ℕ) : (Ctl.start m life).mem = m := rfl
@[simp] theorem Ctl.start_life (m : Mem) (life : Option ℕ) : (Ctl.start m life).life = life := rfl
@[simp] theorem Ctl.start_ops (m : Mem) (life : Option ℕ) : (Ctl.start m life).ops = [] := rfl

/-- Issue one operation to the array `[lo, hi)`. -/
def Ctl.issue (lo hi : ℕ) (c : Ctl) (op : Op) : Ctl × Bool :=
  if c.life = some 0 ∨ ¬ op.Inside lo hi then
    ({ c with ops := c.ops ++ [op] }, false)
  else
    ({ mem := op.apply c.mem, life := c.life.map (· - 1), ops := c.ops ++ [op] }, true)

theorem Ctl.issue_ok {lo hi : ℕ} {c : Ctl} {op : Op} (hl : c.life ≠ some 0)
    (hi' : op.Inside lo hi) : c.issue lo hi op =
      ({ mem := op.apply c.mem, life := c.life.map (· - 1), ops := c.ops ++ [op] }, true) :=
  if_neg (by tauto)

theorem Ctl.issue_fail {lo hi : ℕ} {c : Ctl} {op : Op} (hl : c.life = some 0) :
    c.issue lo hi op = ({ c with ops := c.ops ++ [op] }, false) := if_pos (Or.inl hl)

theorem Ctl.issue_inside {lo hi : ℕ} {c : Ctl} {op : Op} (h : (c.issue lo hi op).2 = true) :
    op.Inside lo hi := by
  by_contra hn
  rw [Ctl.issue, if_pos (Or.inr hn)] at h
  exact Bool.noConfusion h

/-- Between `c` and `c'` only operations inside `[lo, hi)` were issued, and nothing outside it
changed. -/
structure Ctl.Touches (lo hi : ℕ) (c c' : Ctl) : Prop where
  ops : ∃ new, c'.ops = c.ops ++ new ∧ ∀ op ∈ new, op.Inside lo hi
  frame : ∀ x, x < lo ∨ hi ≤ x → c'.mem x = c.mem x

theorem Ctl.Touches.refl (lo hi : ℕ) (c : Ctl) : c.Touches lo hi c :=
  ⟨⟨[], by simp⟩, fun _ _ => rfl⟩

theorem Ctl.Touches.trans {lo hi : ℕ} {c₁ c₂ c₃ : Ctl} (h : c₁.Touches lo hi c₂)
    (h' : c₂.Touches lo hi c₃) : c₁.Touches lo hi c₃ := by
  obtain ⟨new, hn, hi₁⟩ := h.ops
  obtain ⟨new', hn', hi₂⟩ := h'.ops
  refine ⟨⟨new ++ new', by rw [hn', hn, List.append_assoc], ?_⟩,
    fun x hx => (h'.frame x hx).trans (h.frame x hx)⟩
  intro op hop
  rcases List.mem_append.mp hop with hop | hop
  · exact hi₁ op hop
  · exact hi₂ op hop

theorem Ctl.Touches.mono {lo hi lo' hi' : ℕ} {c c' : Ctl} (h : c.Touches lo hi c')
    (hlo : lo' ≤ lo) (hhi : hi ≤ hi') : c.Touches lo' hi' c' := by
  obtain ⟨new, hn, hin⟩ := h.ops
  exact ⟨⟨new, hn, fun op hop => (hin op hop).mono hlo hhi⟩,
    fun x hx => h.frame x (by omega)⟩

theorem Ctl.issue_touches {lo hi lo' hi' : ℕ} (c : Ctl) {op : Op} (h : op.Inside lo' hi') :
    c.Touches lo' hi' (c.issue lo hi op).1 := by
  unfold Ctl.issue
  split_ifs
  · exact ⟨⟨[op], rfl, by simpa using h⟩, fun _ _ => rfl⟩
  · exact ⟨⟨[op], rfl, by simpa using h⟩, fun x hx => Op.apply_outside h _ hx⟩

/-- From a fresh controller, every logged operation lies in the touched range. -/
theorem Ctl.Touches.of_start {lo hi : ℕ} {m : Mem} {life : Option ℕ} {c : Ctl}
    (h : (Ctl.start m life).Touches lo hi c) : ∀ op ∈ c.ops, op.Inside lo hi := by
  obtain ⟨new, hn, hin⟩ := h.ops
  rw [Ctl.start_ops, List.nil_append] at hn
  exact hn ▸ hin

theorem Ctl.Touches.agreeOn {lo hi a n : ℕ} {c c' : Ctl} (h : c.Touches lo hi c')
    (hd : a + n ≤ lo ∨ hi ≤ a) : AgreeOn c.mem c'.mem a n :=
  fun x _ _ => (h.frame x (by omega)).symm

end EdgeLink.Nor
