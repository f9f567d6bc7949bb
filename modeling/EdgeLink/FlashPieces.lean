import EdgeLink.BootFlash

namespace EdgeLink.Bootloader
open LittleEndian Nor

/-! A write as the programs that it issues, one after the other until one fails. -/

def issueAll (c : Ctl) : List Op → Ctl × Bool
  | [] => (c, true)
  | op :: ops =>
    match c.issue flashLo flashHi op with
    | (c', true) => issueAll c' ops
    | (c', false) => (c', false)

theorem issueAll_append (c : Ctl) (ops ops' : List Op) : issueAll c (ops ++ ops') =
    match issueAll c ops with
    | (c', true) => issueAll c' ops'
    | (c', false) => (c', false) := by
  induction ops generalizing c with
  | nil => rfl
  | cons op ops ih =>
    rw [List.cons_append, issueAll, issueAll]
    rcases c.issue flashLo flashHi op with ⟨c', _ | _⟩
    · rfl
    · exact ih c'

theorem issue_apply {c c' : Ctl} {op : Op} (h : c.issue flashLo flashHi op = (c', true)) :
    c'.mem = op.apply c.mem ∧ c'.ops = c.ops ++ [op] ∧ (c.life = none → c'.life = none) := by
  unfold Ctl.issue at h
  split_ifs at h
  · cases h
  · obtain rfl := congrArg Prod.fst h
    exact ⟨rfl, rfl, fun hl => by rw [hl]; rfl⟩

theorem issue_fails {c c' : Ctl} {op : Op} (h : c.issue flashLo flashHi op = (c', false)) :
    c'.mem = c.mem ∧ c'.ops = c.ops ++ [op] := by
  unfold Ctl.issue at h
  split_ifs at h
  · obtain rfl := congrArg Prod.fst h
    exact ⟨rfl, rfl⟩
  · cases h

/-- The programs in front of the one that fails are done. -/
theorem issueAll_spec {c c' : Ctl} {ok : Bool} {ops : List Op} (h : issueAll c ops = (c', ok)) :
    match ok with
    | true => c'.mem = ops.foldl Op.apply c.mem ∧ c'.ops = c.ops ++ ops
    | false => ∃ done op rest, ops = done ++ op :: rest ∧ c'.mem = done.foldl Op.apply c.mem ∧
        c'.ops = c.ops ++ done ++ [op] := by
  induction ops generalizing c with
  | nil =>
    obtain ⟨rfl, rfl⟩ := Prod.mk.inj h
    exact ⟨rfl, (List.append_nil _).symm⟩
  | cons op ops ih =>
    rw [issueAll] at h
    rcases hissue : c.issue flashLo flashHi op with ⟨c₁, _ | _⟩
    · rw [hissue] at h
      obtain ⟨rfl, rfl⟩ := Prod.mk.inj h
      obtain ⟨hmem, hops⟩ := issue_fails hissue
      exact ⟨[], op, ops, rfl, hmem, by rw [hops, List.append_nil]⟩
    · rw [hissue] at h
      obtain ⟨hmem, hops, -⟩ := issue_apply hissue
      have hrest := ih h
      cases ok with
      | true =>
        obtain ⟨hmem', hops'⟩ := hrest
        exact ⟨by rw [hmem', hmem, List.foldl_cons], by rw [hops', hops, List.append_assoc]; rfl⟩
      | false =>
        obtain ⟨done, op', rest, rfl, hmem', hops'⟩ := hrest
        refine ⟨op :: done, op', rest, rfl, by rw [hmem', hmem, List.foldl_cons], ?_⟩
        rw [hops', hops, List.append_assoc c.ops [op] done]
        rfl

theorem issueAll_completes {c : Ctl} {ops : List Op} (hl : c.life = none)
    (hin : ∀ op ∈ ops, op.Inside flashLo flashHi) : (issueAll c ops).2 = true := by
  induction ops generalizing c with
  | nil => rfl
  | cons op ops ih =>
    obtain ⟨hop, hrest⟩ := List.forall_mem_cons.mp hin
    rw [issueAll, Ctl.issue_ok (by simp [hl]) hop]
    exact ih (by simp [hl]) hrest

def leadPlan (a : ℕ) : Bytes → List Op × ℕ × Bytes
  | [] => ([], a, [])
  | b :: cur =>
    if a % 4 = 0 then ([], a, b :: cur)
    else (.program a [b] :: (leadPlan (a + 1) cur).1, (leadPlan (a + 1) cur).2)

def wordsPlan (a : ℕ) : Bytes → List Op × ℕ × Bytes
  | b₀ :: b₁ :: b₂ :: b₃ :: cur =>
    (.program a [b₀, b₁, b₂, b₃] :: (wordsPlan (a + 4) cur).1, (wordsPlan (a + 4) cur).2)
  | cur => ([], a, cur)

def tailPlan (a : ℕ) : Bytes → List Op × ℕ × Bytes
  | [] => ([], a, [])
  | b :: cur => (.program a [b] :: (tailPlan (a + 1) cur).1, (tailPlan (a + 1) cur).2)

def plan (a : ℕ) (data : Bytes) : List Op :=
  let lead := leadPlan a data
  let words := wordsPlan lead.2.1 lead.2.2
  lead.1 ++ words.1 ++ (tailPlan words.2.1 words.2.2).1

/-- The result of a loop that issues the programs and leaves off there. -/
def ends (r : Ctl × Bool) (left : ℕ × Bytes) : Ctl × Option (ℕ × Bytes) :=
  (r.1, if r.2 then some left else none)

theorem ends_step (c : Ctl) (op : Op) (ops : List Op) (left : ℕ × Bytes) :
    ends (issueAll c (op :: ops)) left =
      match c.issue flashLo flashHi op with
      | (c', true) => ends (issueAll c' ops) left
      | (c', false) => (c', none) := by
  rw [issueAll]
  rcases c.issue flashLo flashHi op with ⟨c', _ | _⟩ <;> rfl

theorem lead_plan (c : Ctl) (a : ℕ) (data : Bytes) : blFlashWriteLead c a data =
    ends (issueAll c (leadPlan a data).1) (leadPlan a data).2 := by
  induction data generalizing c a with
  | nil => rfl
  | cons b cur ih =>
    rw [blFlashWriteLead, leadPlan]
    split_ifs
    · rfl
    · rw [ends_step, halFlashProgramByte]
      rcases c.issue flashLo flashHi (.program a [b]) with ⟨c', _ | _⟩
      · rfl
      · exact ih c' (a + 1)

theorem words_plan (c : Ctl) (a : ℕ) (data : Bytes) : blFlashWriteWords c a data =
    ends (issueAll c (wordsPlan a data).1) (wordsPlan a data).2 := by
  match data with
  | b₀ :: b₁ :: b₂ :: b₃ :: cur =>
    rw [blFlashWriteWords, wordsPlan, ends_step, halFlashProgramWord, blFlashPackWord, bytes32_word32]
    rcases c.issue flashLo flashHi (.program a [b₀, b₁, b₂, b₃]) with ⟨c', _ | _⟩
    · rfl
    · exact words_plan c' (a + 4) cur
  | [] => rfl
  | [_] => rfl
  | [_, _] => rfl
  | [_, _, _] => rfl

theorem tail_plan (c : Ctl) (a : ℕ) (data : Bytes) : blFlashWriteTail c a data =
    ends (issueAll c (tailPlan a data).1) (tailPlan a data).2 := by
  induction data generalizing c a with
  | nil => rfl
  | cons b cur ih =>
    rw [blFlashWriteTail, tailPlan, ends_step, halFlashProgramByte]
    rcases c.issue flashLo flashHi (.program a [b]) with ⟨c', _ | _⟩
    · rfl
    · exact ih c' (a + 1)

theorem andThen_ends {c : Ctl} {ops ops' : List Op} {left left' : ℕ × Bytes}
    {loop : Ctl → ℕ → Bytes → Ctl × Option (ℕ × Bytes)}
    (h : ∀ c, loop c left.1 left.2 = ends (issueAll c ops') left') :
    andThen (ends (issueAll c ops) left) loop = ends (issueAll c (ops ++ ops')) left' := by
  rw [issueAll_append]
  rcases issueAll c ops with ⟨c', _ | _⟩
  · rfl
  · exact h c'

/-- The three loops issue the plan. -/
theorem loops_plan (c : Ctl) (a : ℕ) (data : Bytes) :
    ∃ left, blFlashWriteLoops c a data = ends (issueAll c (plan a data)) left := by
  let words := wordsPlan (leadPlan a data).2.1 (leadPlan a data).2.2
  refine ⟨(tailPlan words.2.1 words.2.2).2, ?_⟩
  unfold blFlashWriteLoops plan
  rw [lead_plan, andThen_ends fun c => words_plan c _ _, andThen_ends fun c => tail_plan c _ _]

/-- Programs that lie end to end and carry the data from there on, each a byte or a word at a
multiple of four. -/
inductive Pieces : ℕ → List Op → Bytes → Prop
  | nil (a : ℕ) : Pieces a [] []
  | byte {a : ℕ} (b : UInt8) {ops : List Op} {cur : Bytes} :
    Pieces (a + 1) ops cur → Pieces a (.program a [b] :: ops) (b :: cur)
  | word {a : ℕ} (b₀ b₁ b₂ b₃ : UInt8) {ops : List Op} {cur : Bytes} : a % 4 = 0 →
    Pieces (a + 4) ops cur → Pieces a (.program a [b₀, b₁, b₂, b₃] :: ops) (b₀ :: b₁ :: b₂ :: b₃ :: cur)

theorem Pieces.append {a a' : ℕ} {ops ops' : List Op} {pre rest : Bytes} (h : Pieces a ops pre)
    (h' : Pieces a' ops' rest) (ha : a' = a + pre.length) : Pieces a (ops ++ ops') (pre ++ rest) := by
  induction h with
  | nil a =>
    obtain rfl : a' = a := ha
    exact h'
  | byte b _ ih =>
    rw [List.length_cons] at ha
    exact .byte b (ih (by omega))
  | word b₀ b₁ b₂ b₃ hword _ ih =>
    simp only [List.length_cons] at ha
    exact .word b₀ b₁ b₂ b₃ hword (ih (by omega))

theorem leadPlan_pieces (a : ℕ) (data : Bytes) : ∃ pre, data = pre ++ (leadPlan a data).2.2 ∧
    (leadPlan a data).2.1 = a + pre.length ∧ Pieces a (leadPlan a data).1 pre ∧
      ((leadPlan a data).2.1 % 4 = 0 ∨ (leadPlan a data).2.2 = []) := by
  induction data generalizing a with
  | nil => exact ⟨[], rfl, rfl, .nil a, Or.inr rfl⟩
  | cons b cur ih =>
    rw [leadPlan]
    split_ifs with haligned
    · exact ⟨[], rfl, rfl, .nil a, Or.inl haligned⟩
    · obtain ⟨pre, hdata, ha, hpieces, hend⟩ := ih (a + 1)
      refine ⟨b :: pre, congrArg (b :: ·) hdata, ?_, .byte b hpieces, hend⟩
      rw [ha, List.length_cons]
      omega

theorem wordsPlan_pieces (a : ℕ) (data : Bytes) (h : a % 4 = 0 ∨ data = []) :
    ∃ pre, data = pre ++ (wordsPlan a data).2.2 ∧ (wordsPlan a data).2.1 = a + pre.length ∧
      Pieces a (wordsPlan a data).1 pre := by
  match data with
  | b₀ :: b₁ :: b₂ :: b₃ :: cur =>
    have haligned : a % 4 = 0 := h.resolve_right (List.cons_ne_nil _ _)
    obtain ⟨pre, hdata, ha, hpieces⟩ := wordsPlan_pieces (a + 4) cur (Or.inl (by omega))
    rw [wordsPlan]
    refine ⟨b₀ :: b₁ :: b₂ :: b₃ :: pre, ?_, ?_, .word b₀ b₁ b₂ b₃ haligned hpieces⟩
    · exact congrArg (b₀ :: b₁ :: b₂ :: b₃ :: ·) hdata
    · simp only [ha, List.length_cons]
      omega
  | [] => exact ⟨[], rfl, rfl, .nil a⟩
  | [_] => exact ⟨[], rfl, rfl, .nil a⟩
  | [_, _] => exact ⟨[], rfl, rfl, .nil a⟩
  | [_, _, _] => exact ⟨[], rfl, rfl, .nil a⟩

theorem tailPlan_pieces (a : ℕ) (data : Bytes) : Pieces a (tailPlan a data).1 data := by
  induction data generalizing a with
  | nil => exact .nil a
  | cons b cur ih => exact .byte b (ih (a + 1))

theorem plan_pieces (a : ℕ) (data : Bytes) : Pieces a (plan a data) data := by
  obtain ⟨pre, hdata, ha, hpieces, haligned⟩ := leadPlan_pieces a data
  obtain ⟨pre', hdata', ha', hpieces'⟩ := wordsPlan_pieces _ _ haligned
  have htail := tailPlan_pieces (wordsPlan (leadPlan a data).2.1 (leadPlan a data).2.2).2.1
    (wordsPlan (leadPlan a data).2.1 (leadPlan a data).2.2).2.2
  have hall := (hpieces.append hpieces' ha).append htail
    (by rw [ha', ha, List.length_append, Nat.add_assoc])
  rw [List.append_assoc pre, ← hdata', ← hdata] at hall
  exact hall

/-- Where a piece is in the data. -/
theorem Pieces.mem {a : ℕ} {ops : List Op} {data : Bytes} (h : Pieces a ops data) {op : Op}
    (hop : op ∈ ops) : ∃ pre bs post, data = pre ++ (bs ++ post) ∧ op = .program (a + pre.length) bs ∧
      (bs.length = 1 ∨ bs.length = 4 ∧ (a + pre.length) % 4 = 0) := by
  induction h with
  | nil a => cases hop
  | @byte a b ops cur _ ih =>
    rcases List.mem_cons.mp hop with rfl | hop
    · exact ⟨[], [b], cur, rfl, rfl, Or.inl rfl⟩
    · obtain ⟨pre, bs, post, rfl, rfl, hwidth⟩ := ih hop
      have hplace : a + 1 + pre.length = a + (b :: pre).length := by
        rw [List.length_cons]
        omega
      rw [hplace] at hwidth
      exact ⟨b :: pre, bs, post, rfl, by rw [hplace], hwidth⟩
  | @word a b₀ b₁ b₂ b₃ ops cur hword _ ih =>
    rcases List.mem_cons.mp hop with rfl | hop
    · exact ⟨[], [b₀, b₁, b₂, b₃], cur, rfl, rfl, Or.inr ⟨rfl, hword⟩⟩
    · obtain ⟨pre, bs, post, rfl, rfl, hwidth⟩ := ih hop
      have hplace : a + 4 + pre.length = a + (b₀ :: b₁ :: b₂ :: b₃ :: pre).length := by
        simp only [List.length_cons]
        omega
      rw [hplace] at hwidth
      exact ⟨b₀ :: b₁ :: b₂ :: b₃ :: pre, bs, post, rfl, by rw [hplace], hwidth⟩

theorem Pieces.inside {a : ℕ} {ops : List Op} {data : Bytes} (h : Pieces a ops data)
    (h₁ : flashLo ≤ a) (h₂ : a + data.length ≤ flashHi) : ∀ op ∈ ops, op.Inside flashLo flashHi := by
  intro op hop
  obtain ⟨pre, bs, post, rfl, rfl, -⟩ := h.mem hop
  rw [List.length_append, List.length_append] at h₂
  exact ⟨h₁.trans (Nat.le_add_right _ _), (by omega : a + pre.length + bs.length ≤ flashHi)⟩

/-- Piece by piece is byte by byte. -/
theorem Pieces.program {a : ℕ} {ops : List Op} {data : Bytes} (h : Pieces a ops data) (m : Mem) :
    ops.foldl Op.apply m = Nor.program m a data := by
  induction h generalizing m with
  | nil a => exact (program_nil m a).symm
  | byte b _ ih =>
    rw [List.foldl_cons, ih]
    exact program_append m _ [b] _
  | word b₀ b₁ b₂ b₃ _ _ ih =>
    rw [List.foldl_cons, ih]
    exact program_append m _ [b₀, b₁, b₂, b₃] _

/-- A program that fails may have cleared some of the bits that it was to clear. -/
def Torn : Op → Mem → Mem → Prop
  | .program a bs, m, m' => ∀ x, if a ≤ x ∧ x < a + bs.length then
      ∃ kept, m' x = m x &&& (bs.getD (x - a) 0xFF ||| kept) else m' x = m x
  | .erase _ _, m, m' => m' = m

/-- A call of `blFlashWrite` that a failing program stops, and the memory that it leaves. -/
def Stopped (a : ℕ) (data : Bytes) (m m' : Mem) : Prop :=
  ∃ life op ops, (blFlashWriteLoops (Ctl.start m life) a data).2 = none ∧
    (blFlashWriteLoops (Ctl.start m life) a data).1.ops = ops ++ [op] ∧
    Torn op (blFlashWriteLoops (Ctl.start m life) a data).1.mem m'

/-- The write is not finished: no bit of the data has been cleared, and no byte elsewhere. -/
structure Partly (m₀ : Mem) (a : ℕ) (data : Bytes) (m : Mem) : Prop where
  outside : ∀ x, x < a ∨ a + data.length ≤ x → m x = m₀ x
  inside : ∀ x, a ≤ x → x < a + data.length →
    m x &&& data.getD (x - a) 0xFF = data.getD (x - a) 0xFF

theorem or_and_self (d kept : UInt8) : (d ||| kept) &&& d = d := by
  apply UInt8.toBitVec_inj.mp
  ext i hi
  simp only [UInt8.toBitVec_and, UInt8.toBitVec_or, BitVec.getElem_and, BitVec.getElem_or]
  cases d.toBitVec[i] <;> simp

section Partly

variable {m₀ m m' : Mem} {a : ℕ}

/-- What a piece has cleared, whole or in part, the data has cleared too. -/
theorem Partly.torn {pre bs post : Bytes} (h : Partly m₀ a (pre ++ (bs ++ post)) m)
    (ht : Torn (.program (a + pre.length) bs) m m') : Partly m₀ a (pre ++ (bs ++ post)) m' := by
  have hlength : (pre ++ (bs ++ post)).length = pre.length + bs.length + post.length := by
    rw [List.length_append, List.length_append, Nat.add_assoc]
  have houter {x : ℕ} (hx : ¬(a + pre.length ≤ x ∧ x < a + pre.length + bs.length)) : m' x = m x := by
    have hx' := ht x
    rwa [if_neg hx] at hx'
  constructor
  · intro x hx
    exact (houter (by omega)).trans (h.outside x hx)
  · intro x hlo hhi
    by_cases hin : a + pre.length ≤ x ∧ x < a + pre.length + bs.length
    · have hx := ht x
      rw [if_pos hin] at hx
      obtain ⟨kept, hkept⟩ := hx
      have hbyte : (pre ++ (bs ++ post)).getD (x - a) 0xFF = bs.getD (x - (a + pre.length)) 0xFF := by
        rw [List.getD_append_right _ _ _ _ (by omega), List.getD_append _ _ _ _ (by omega),
          Nat.sub_sub]
      have hold := h.inside x hlo hhi
      rw [hbyte] at hold ⊢
      rw [hkept, UInt8.and_assoc, or_and_self]
      exact hold
    · rw [houter hin]
      exact h.inside x hlo hhi

/-- A program that succeeds clears all that it is to clear. -/
theorem program_torn (m : Mem) (a : ℕ) (bs : Bytes) : Torn (.program a bs) m (program m a bs) := by
  intro x
  unfold program
  by_cases hx : a ≤ x ∧ x < a + bs.length
  · rw [if_pos hx, if_pos hx]
    refine ⟨0, ?_⟩
    rw [UInt8.or_zero]
  · rw [if_neg hx, if_neg hx]

theorem Partly.pieces {data : Bytes} {ops done : List Op} (hpieces : Pieces a ops data)
    (hdone : ∀ op ∈ done, op ∈ ops) (h : Partly m₀ a data m) :
    Partly m₀ a data (done.foldl Op.apply m) := by
  induction done generalizing m with
  | nil => exact h
  | cons op done ih =>
    obtain ⟨hop, hrest⟩ := List.forall_mem_cons.mp hdone
    refine ih hrest ?_
    obtain ⟨pre, bs, post, rfl, rfl, -⟩ := hpieces.mem hop
    exact h.torn (program_torn m _ bs)

/-- A stopped call leaves the write unfinished. -/
theorem Partly.stopped {data : Bytes} (h : Partly m₀ a data m) (hstop : Stopped a data m m') :
    Partly m₀ a data m' := by
  obtain ⟨life, op, ops, hnone, hops, htorn⟩ := hstop
  obtain ⟨left, hloops⟩ := loops_plan (Ctl.start m life) a data
  rcases hissue : issueAll (Ctl.start m life) (plan a data) with ⟨c', ok⟩
  rw [hloops, hissue] at hnone hops htorn
  have hspec := issueAll_spec hissue
  cases ok with
  | true => exact absurd hnone nofun
  | false =>
    obtain ⟨done, last, rest, hplan, hmem, hlog⟩ := hspec
    have hpieces := plan_pieces a data
    obtain rfl : last = op := by
      have hlast := congrArg List.getLast? (hlog.symm.trans hops)
      rwa [List.getLast?_concat, List.getLast?_concat, Option.some.injEq] at hlast
    have hdone : Partly m₀ a data c'.mem := by
      rw [hmem]
      refine h.pieces hpieces fun o ho => ?_
      rw [hplan]
      exact List.mem_append_left _ ho
    obtain ⟨pre, bs, post, hdata, hop, -⟩ := hpieces.mem
      (show last ∈ plan a data by rw [hplan]; exact List.mem_append_right _ List.mem_cons_self)
    rw [hop] at htorn
    rw [hdata] at hdone ⊢
    exact hdone.torn htorn

theorem Partly.program_eq {data : Bytes} (h : Partly m₀ a data m) (hblank : Blank m₀ a data.length) :
    program m a data = program m₀ a data := by
  funext x
  unfold program
  by_cases hx : a ≤ x ∧ x < a + data.length
  · rw [if_pos hx, if_pos hx, h.inside x hx.1 hx.2, hblank x hx.1 hx.2, ff_and]
  · rw [if_neg hx, if_neg hx, h.outside x (by omega)]

end Partly

/-- On an erased range, after any number of calls that a failing program has stopped, a write whose
programs succeed returns 1, has programmed as byte by byte, and has issued bytes and aligned words
that lie end to end over the range. -/
theorem write_after_stops {a : ℕ} {data : Bytes} (hne : data ≠ []) (h₁ : flashLo ≤ a)
    (h₂ : a + data.length ≤ flashHi) {m₀ m : Mem} (hblank : Blank m₀ a data.length)
    (hstops : Relation.ReflTransGen (Stopped a data) m₀ m) :
    (blFlashWrite (Ctl.start m none) a data).2 = true ∧
      (blFlashWrite (Ctl.start m none) a data).1.mem = program m₀ a data ∧
      read (blFlashWrite (Ctl.start m none) a data).1.mem a data.length = data ∧
      (∀ x, x < a ∨ a + data.length ≤ x →
        (blFlashWrite (Ctl.start m none) a data).1.mem x = m₀ x) ∧
      Pieces a (blFlashWrite (Ctl.start m none) a data).1.ops data := by
  have hpartly : Partly m₀ a data m := by
    induction hstops with
    | refl =>
      refine ⟨fun _ _ => rfl, fun x hlo hhi => ?_⟩
      rw [hblank x hlo hhi, ff_and]
    | tail _ hstop ih => exact ih.stopped hstop
  have hmem := hpartly.program_eq hblank
  have hread : read (program m₀ a data) a data.length = data := program_blank hblank
  have hpieces := plan_pieces a data
  obtain ⟨left, hloops⟩ := loops_plan (Ctl.start m none) a data
  have hall := issueAll_completes (c := Ctl.start m none) rfl (hpieces.inside h₁ h₂)
  rcases hissue : issueAll (Ctl.start m none) (plan a data) with ⟨c', ok⟩
  rw [hissue] at hloops hall
  obtain rfl : ok = true := hall
  obtain ⟨hmem', hops⟩ := issueAll_spec hissue
  rw [Ctl.start_mem, hpieces.program, hmem] at hmem'
  have hwrite : blFlashWrite (Ctl.start m none) a data = (c', true) := by
    unfold blFlashWrite
    rw [if_neg hne, hloops]
    dsimp only [ends]
    rw [if_pos rfl]
    dsimp only
    rw [hmem', hread, decide_eq_true rfl]
  rw [hwrite]
  refine ⟨rfl, hmem', by rw [hmem', hread], fun x hx => ?_, ?_⟩
  · rw [hmem']
    exact program_outside hx
  · rw [hops, Ctl.start_ops, List.nil_append]
    exact hpieces

/-- Seven bytes at an address that is no multiple of four, whose second program failed when it had
cleared its bits. -/
def interrupted : Mem :=
  program (blFlashWriteLoops (Ctl.start (fun _ => 0xFF) (some 1)) 0x08020002 [1, 2, 3, 4, 5, 6, 7]).1.mem
    0x08020003 [2]

theorem interrupted_written :
    (blFlashWrite (Ctl.start interrupted none) 0x08020002 [1, 2, 3, 4, 5, 6, 7]).2 = true ∧
      read (blFlashWrite (Ctl.start interrupted none) 0x08020002 [1, 2, 3, 4, 5, 6, 7]).1.mem
        0x08020002 7 = [1, 2, 3, 4, 5, 6, 7] := by
  have hstop : Stopped 0x08020002 [1, 2, 3, 4, 5, 6, 7] (fun _ => 0xFF) interrupted :=
    ⟨some 1, .program 0x08020003 [2], [.program 0x08020002 [1]], by decide, by decide,
      program_torn _ _ _⟩
  have h := write_after_stops (by decide) (by decide) (by decide) (fun _ _ _ => rfl)
    (Relation.ReflTransGen.single hstop)
  exact ⟨h.1, h.2.2.1⟩

end EdgeLink.Bootloader
