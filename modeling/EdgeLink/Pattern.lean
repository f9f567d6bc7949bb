import EdgeLink.JsonLookup

/-! Regular expressions that are a sequence of repeated byte classes, tried in the order in which
a backtracking matcher tries them. -/

namespace EdgeLink.Pattern

variable {α : Type}

/-- `[..]`, `[..]*`, `[..]+`, `[..]?` or `[..]*?`, inside the capture group or outside it. -/
structure Piece (α : Type) where
  cls : α → Bool
  least : ℕ
  most : Option ℕ
  greedy : Bool
  captured : Bool

/-- How many items the piece can take at most. -/
def Piece.reach (p : Piece α) (s : List α) : ℕ :=
  match p.most with
  | none => (s.takeWhile p.cls).length
  | some most => min most (s.takeWhile p.cls).length

def Piece.lengths (p : Piece α) (s : List α) : List ℕ :=
  let upward := List.range' p.least (p.reach s + 1 - p.least)
  if p.greedy then upward.reverse else upward

def Piece.kept (p : Piece α) (taken : List α) : List α := if p.captured then taken else []

/-- A match at the start of `s`: the capture and what is left of `s`. -/
def run : List (Piece α) → List α → Option (List α × List α)
  | [], s => some ([], s)
  | p :: ps, s => (p.lengths s).findSome? fun k =>
    (run ps (s.drop k)).map fun (capture, rest) => (p.kept (s.take k) ++ capture, rest)

/-- `std::regex_search` -/
def search (ps : List (Piece α)) : List α → Option (List α × List α)
  | [] => run ps []
  | a :: s => (run ps (a :: s)).or (search ps s)

/-- The captures of `std::sregex_iterator`, for a pattern that takes at least one item. -/
def searchAll (ps : List (Piece α)) : ℕ → List α → List (List α)
  | 0, _ => []
  | fuel + 1, s =>
    match search ps s with
    | none => []
    | some (capture, rest) => capture :: searchAll ps fuel rest

theorem search_skip {ps : List (Piece α)} {a : α} {s : List α} (h : run ps (a :: s) = none) :
    search ps (a :: s) = search ps s := by
  rw [search, h, Option.none_or]

theorem search_found {ps : List (Piece α)} {s : List α} {m : List α × List α}
    (h : run ps s = some m) : search ps s = some m := by
  cases s with
  | nil => exact h
  | cons a s => rw [search, h, Option.some_or]

theorem search_chunk {ps : List (Piece α)} {t : List α} (s : List α)
    (h : ∀ a ∈ t, ∀ u, run ps (a :: u) = none) : search ps (t ++ s) = search ps s := by
  induction t with
  | nil => rfl
  | cons a t ih =>
    rw [List.cons_append, search_skip (h a List.mem_cons_self _)]
    exact ih fun b hb => h b (List.mem_cons_of_mem a hb)

theorem search_some {ps : List (Piece α)} {s : List α} {m : List α × List α}
    (h : search ps s = some m) : ∃ t u, s = t ++ u ∧ run ps u = some m := by
  induction s with
  | nil => exact ⟨[], [], rfl, h⟩
  | cons a s ih =>
    rw [search] at h
    rcases Option.or_eq_some_iff.mp h with hrun | ⟨-, hrest⟩
    · exact ⟨[], a :: s, rfl, hrun⟩
    · obtain ⟨t, u, rfl, hu⟩ := ih hrest
      exact ⟨a :: t, u, rfl, hu⟩

section pieces

variable (p : Piece α) (ps : List (Piece α)) (s : List α)

theorem Piece.reach_le : p.reach s ≤ (s.takeWhile p.cls).length := by
  unfold Piece.reach
  split <;> omega

theorem Piece.mem_lengths {k : ℕ} : k ∈ p.lengths s ↔ p.least ≤ k ∧ k ≤ p.reach s := by
  have hmem : k ∈ List.range' p.least (p.reach s + 1 - p.least) ↔ p.least ≤ k ∧ k ≤ p.reach s := by
    rw [List.mem_range'_1]
    omega
  unfold Piece.lengths
  split
  · rw [List.mem_reverse]
    exact hmem
  · exact hmem

theorem Piece.taken {k : ℕ} (h : k ≤ p.reach s) : ∀ a ∈ s.take k, p.cls a = true := by
  intro a ha
  have hk : k ≤ (s.takeWhile p.cls).length := h.trans (p.reach_le s)
  have hsub : s.take k <+: s.takeWhile p.cls := by
    apply List.prefix_of_prefix_length_le (List.take_prefix k s) (List.takeWhile_prefix p.cls)
    exact (List.length_take_le k s).trans hk
  exact List.mem_takeWhile_imp (hsub.subset ha)

theorem run_cons_none : run (p :: ps) s = none ↔
    ∀ k, p.least ≤ k → k ≤ p.reach s → run ps (s.drop k) = none := by
  rw [run, List.findSome?_eq_none_iff]
  constructor
  · intro h k hleast hreach
    exact Option.map_eq_none_iff.mp (h k ((p.mem_lengths s).mpr ⟨hleast, hreach⟩))
  · intro h k hk
    obtain ⟨hleast, hreach⟩ := (p.mem_lengths s).mp hk
    exact Option.map_eq_none_iff.mpr (h k hleast hreach)

theorem run_cons_some {m : List α × List α} (h : run (p :: ps) s = some m) :
    ∃ k c, p.least ≤ k ∧ k ≤ p.reach s ∧ run ps (s.drop k) = some (c, m.2) ∧
      m.1 = p.kept (s.take k) ++ c ∧
      (p.greedy = false → ∀ j, p.least ≤ j → j < k → run ps (s.drop j) = none) := by
  rw [run, List.findSome?_eq_some_iff] at h
  obtain ⟨before, k, after, hl, hk, hbefore⟩ := h
  obtain ⟨⟨c, r⟩, hrun, rfl⟩ := Option.map_eq_some_iff.mp hk
  have hmem : k ∈ p.lengths s := hl ▸ List.mem_append_cons_self
  obtain ⟨hleast, hreach⟩ := (p.mem_lengths s).mp hmem
  refine ⟨k, c, hleast, hreach, hrun, rfl, fun hlazy j hj hjk => ?_⟩
  -- upward, the shorter lengths were tried before `k`
  have hj' : j ∈ p.lengths s := (p.mem_lengths s).mpr ⟨hj, by omega⟩
  have hsorted : (p.lengths s).Pairwise (· < ·) := by
    simp only [Piece.lengths, hlazy, Bool.false_eq_true, if_false]
    exact List.pairwise_lt_range'
  rw [hl] at hj' hsorted
  rcases List.mem_append.mp hj' with hin | hin
  · exact Option.map_eq_none_iff.mp (hbefore j hin)
  · have hle : k ≤ j := by
      rcases List.mem_cons.mp hin with rfl | hin
      · exact le_rfl
      · have := (List.pairwise_append.mp hsorted).2.1
        exact (List.rel_of_pairwise_cons this hin).le
    omega

/-- A greedy piece takes all it can if what follows it matches there. -/
theorem run_greedy_first (hg : p.greedy = true) (hleast : p.least ≤ p.reach s) {c r : List α}
    (h : run ps (s.drop (p.reach s)) = some (c, r)) :
    run (p :: ps) s = some (p.kept (s.take (p.reach s)) ++ c, r) := by
  have hlengths : p.lengths s =
      p.reach s :: (List.range' p.least (p.reach s - p.least)).reverse := by
    have hsucc : p.reach s + 1 - p.least = p.reach s - p.least + 1 := by omega
    rw [Piece.lengths, hg, if_pos rfl, hsucc, List.range'_concat, List.reverse_append]
    simp only [List.reverse_cons, List.reverse_nil, List.nil_append, List.singleton_append,
      List.cons.injEq, and_true]
    omega
  rw [run, hlengths, List.findSome?_cons, h]
  rfl

/-- A greedy piece takes all it can if what follows it matches nowhere else. -/
theorem run_greedy (hg : p.greedy = true)
    (h : ∀ k, p.least ≤ k → k < p.reach s → run ps (s.drop k) = none) :
    run (p :: ps) s = if p.least ≤ p.reach s then
      (run ps (s.drop (p.reach s))).map fun (c, r) => (p.kept (s.take (p.reach s)) ++ c, r)
    else none := by
  split_ifs with hleast
  · cases hrun : run ps (s.drop (p.reach s)) with
    | none =>
      apply (run_cons_none p ps s).mpr
      intro k hleast hk
      rcases Nat.lt_or_eq_of_le hk with hlt | rfl
      · exact h k hleast hlt
      · exact hrun
    | some m => exact run_greedy_first p ps s hg hleast hrun
  · apply (run_cons_none p ps s).mpr
    omega

theorem run_captured {m : List α × List α} (h : run ps s = some m) :
    ∀ a ∈ m.1, a ∈ s ∧ ∃ p ∈ ps, p.captured = true ∧ p.cls a = true := by
  induction ps generalizing s m with
  | nil =>
    obtain rfl := Option.some.inj h
    exact fun a ha => absurd ha List.not_mem_nil
  | cons p ps ih =>
    obtain ⟨k, c, -, hreach, hrun, hm, -⟩ := run_cons_some p ps s h
    intro a ha
    rw [hm] at ha
    rcases List.mem_append.mp ha with hin | hin
    · unfold Piece.kept at hin
      split at hin
      next hc => exact ⟨List.mem_of_mem_take hin, p, List.mem_cons_self, hc, p.taken s hreach a hin⟩
      · exact absurd hin List.not_mem_nil
    · obtain ⟨hs, q, hq, hqa⟩ := ih (s.drop k) hrun a hin
      exact ⟨List.mem_of_mem_drop hs, q, List.mem_cons_of_mem p hq, hqa⟩

/-- Pieces outside the group leave the capture to those behind them. -/
theorem run_uncaptured {qs : List (Piece α)} {m : List α × List α}
    (hps : ∀ p ∈ ps, p.captured = false) (h : run (ps ++ qs) s = some m) :
    ∃ u, run qs u = some m := by
  induction ps generalizing s with
  | nil => exact ⟨s, h⟩
  | cons p ps ih =>
    obtain ⟨k, c, -, -, hrun, hm, -⟩ := run_cons_some p (ps ++ qs) s h
    have hc : m.1 = c := by rw [hm, Piece.kept, hps p List.mem_cons_self]; rfl
    exact ih (s.drop k) (fun q hq => hps q (List.mem_cons_of_mem p hq)) (hrun.trans (by rw [← hc]))

end pieces

theorem search_captured {ps : List (Piece α)} {s : List α} {m : List α × List α}
    (h : search ps s = some m) :
    ∀ a ∈ m.1, a ∈ s ∧ ∃ p ∈ ps, p.captured = true ∧ p.cls a = true := by
  obtain ⟨t, u, rfl, hrun⟩ := search_some h
  intro a ha
  obtain ⟨hu, hp⟩ := run_captured ps u hrun a ha
  exact ⟨List.mem_append_right t hu, hp⟩

/-- An item that no piece of the group takes is not in the capture. -/
theorem search_without {ps : List (Piece α)} {s : List α} {m : List α × List α} {a : α}
    (hps : ∀ p ∈ ps, p.captured = true → p.cls a = false) (h : search ps s = some m) :
    a ∉ m.1 := by
  intro ha
  obtain ⟨-, p, hp, hc, hcls⟩ := search_captured h a ha
  exact absurd hcls (by simp [hps p hp hc])

theorem search_rest {ps : List (Piece α)} {s : List α} {m : List α × List α}
    (h : search ps s = some m) : ∀ a ∈ m.2, a ∈ s := by
  have hrun : ∀ (ps : List (Piece α)) (u : List α) (m : List α × List α),
      run ps u = some m → ∀ a ∈ m.2, a ∈ u := by
    intro ps
    induction ps with
    | nil =>
      intro u m h a ha
      obtain rfl := Option.some.inj h
      exact ha
    | cons p ps ih =>
      intro u m h a ha
      obtain ⟨k, c, -, -, hrun, -, -⟩ := run_cons_some p ps u h
      exact List.mem_of_mem_drop (ih (u.drop k) (c, m.2) hrun a ha)
  obtain ⟨t, u, rfl, hu⟩ := search_some h
  exact fun a ha => List.mem_append_right t (hrun ps u m hu a ha)

theorem searchAll_captured {ps : List (Piece α)} (fuel : ℕ) {s : List α} :
    ∀ t ∈ searchAll ps fuel s,
      ∀ a ∈ t, a ∈ s ∧ ∃ p ∈ ps, p.captured = true ∧ p.cls a = true := by
  induction fuel generalizing s with
  | zero => exact fun t ht => absurd ht List.not_mem_nil
  | succ fuel ih =>
    rw [searchAll]
    cases h : search ps s with
    | none => exact fun t ht => absurd ht List.not_mem_nil
    | some m =>
      intro t ht a ha
      rcases List.mem_cons.mp ht with rfl | ht
      · exact search_captured h a ha
      · obtain ⟨hrest, hp⟩ := ih t ht a ha
        exact ⟨search_rest h a hrest, hp⟩

section many

variable (p : Piece α) (ps : List (Piece α))

/-- An unbounded greedy piece takes the whole run of its class if what follows it never begins
with an item of the class. -/
theorem run_many (hg : p.greedy = true) (hmost : p.most = none)
    (h : ∀ a u, p.cls a = true → run ps (a :: u) = none) (s : List α) :
    run (p :: ps) s = if p.least ≤ (s.takeWhile p.cls).length then
      (run ps (s.dropWhile p.cls)).map fun (c, r) => (p.kept (s.takeWhile p.cls) ++ c, r)
    else none := by
  have hreach : p.reach s = (s.takeWhile p.cls).length := by rw [Piece.reach, hmost]
  have hsplit : s = s.takeWhile p.cls ++ s.dropWhile p.cls := List.takeWhile_append_dropWhile.symm
  have htake : s.take (p.reach s) = s.takeWhile p.cls := by
    rw [hreach]
    exact (List.prefix_iff_eq_take.mp (List.takeWhile_prefix p.cls)).symm
  have hdrop : s.drop (p.reach s) = s.dropWhile p.cls := by
    rw [hreach]
    exact (congrArg (List.drop _) hsplit).trans List.drop_left
  rw [run_greedy p ps s hg, htake, hdrop, hreach]
  intro k _ hk
  -- what is left after fewer items begins with an item of the class
  have hlt : k < (s.takeWhile p.cls).length := hreach ▸ hk
  have hcons : s.drop k = (s.takeWhile p.cls)[k] :: ((s.takeWhile p.cls).drop (k + 1) ++
      s.dropWhile p.cls) := by
    conv_lhs => rw [hsplit]
    rw [List.drop_append_of_le_length hlt.le, List.drop_eq_getElem_cons hlt, List.cons_append]
  rw [hcons]
  exact h _ _ (List.mem_takeWhile_imp (List.getElem_mem hlt))

/-- An unbounded greedy piece at the end takes the whole run of its class. -/
theorem run_last (hg : p.greedy = true) (hmost : p.most = none) {t s : List α}
    (ht : ∀ a ∈ t, p.cls a = true) (hs : ∀ a ∈ s.head?, p.cls a = false)
    (hleast : p.least ≤ t.length) : run [p] (t ++ s) = some (p.kept t, s) := by
  have htake : (t ++ s).takeWhile p.cls = t := by
    rw [List.takeWhile_append_of_pos ht]
    cases s with
    | nil => simp
    | cons a s => simp [hs a rfl]
  have hreach : p.reach (t ++ s) = t.length := by rw [Piece.reach, hmost, htake]
  rw [run_greedy_first p [] (t ++ s) hg (by rw [hreach]; exact hleast) rfl, hreach]
  simp

end many

/-- A list is cut at the first occurrence of an item in one way only. -/
theorem cut_unique {a : α} {t t' s s' : List α} (ht : a ∉ t) (ht' : a ∉ t')
    (h : t ++ a :: s = t' ++ a :: s') : t = t' ∧ s = s' := by
  induction t generalizing t' with
  | nil =>
    cases t' with
    | nil => exact ⟨rfl, (List.cons.inj h).2⟩
    | cons b t' => exact absurd ((List.cons.inj h).1 ▸ List.mem_cons_self) ht'
  | cons c t ih =>
    cases t' with
    | nil => exact absurd ((List.cons.inj h).1 ▸ List.mem_cons_self) ht
    | cons b t' =>
      obtain ⟨rfl, hrest⟩ := List.cons.inj h
      obtain ⟨rfl, rfl⟩ := ih (fun hin => ht (List.mem_cons_of_mem c hin))
        (fun hin => ht' (List.mem_cons_of_mem c hin)) hrest
      exact ⟨rfl, rfl⟩

section literals

variable [BEq α] [LawfulBEq α]

def one (a : α) : Piece α := ⟨(· == a), 1, some 1, true, false⟩

def literal (t : List α) : List (Piece α) := t.map one

variable (ps : List (Piece α))

theorem run_one (a : α) (s : List α) : run (one a :: ps) (a :: s) = run ps s := by
  have hreach : (one a).reach (a :: s) = 1 := by
    simp only [Piece.reach, one, List.takeWhile_cons, beq_self_eq_true, if_true, List.length_cons]
    omega
  rw [run_greedy (one a) ps (a :: s) rfl, hreach]
  · simp [one, Piece.kept]
  · rw [hreach]
    intro k hleast hlt
    have : 1 ≤ k := hleast
    omega

theorem run_one_none (a : α) {s : List α} (h : s.head? ≠ some a) : run (one a :: ps) s = none := by
  have hreach : (one a).reach s = 0 := by
    cases s with
    | nil => rfl
    | cons b s =>
      have hb : b ≠ a := fun hba => h (congrArg some hba)
      simp [Piece.reach, one, hb]
  apply (run_cons_none _ _ _).mpr
  intro k hleast hk
  have : 1 ≤ k := hleast
  omega

theorem run_literal (t s : List α) : run (literal t ++ ps) (t ++ s) = run ps s := by
  induction t with
  | nil => rfl
  | cons a t ih => exact (run_one _ a (t ++ s)).trans ih

theorem run_literal_none {t s : List α} (h : ¬t <+: s) : run (literal t ++ ps) s = none := by
  induction t generalizing s with
  | nil => exact absurd List.nil_prefix h
  | cons a t ih =>
    cases s with
    | nil => exact run_one_none _ a (by simp)
    | cons b s =>
      by_cases hb : b = a
      · subst hb
        rw [literal, List.map_cons, List.cons_append, run_one]
        exact ih fun hpre => h (List.cons_prefix_cons.mpr ⟨rfl, hpre⟩)
      · exact run_one_none _ a fun hhead => hb (Option.some.inj hhead)

/-- A lazy piece before a single item stops at the first of them. -/
theorem run_lazy_one (p : Piece α) (hlazy : p.greedy = false) (hleast : p.least = 0) (a : α)
    {s : List α} {m : List α × List α} (h : run [p, one a] s = some m) (hc : p.captured = true) :
    s = m.1 ++ a :: m.2 ∧ a ∉ m.1 ∧ ∀ b ∈ m.1, p.cls b = true := by
  obtain ⟨k, c, -, hreach, hrun, hm, hfirst⟩ := run_cons_some p [one a] s h
  have hhead : ∀ u : List α, run [one a] u ≠ none → ∃ v, u = a :: v := by
    intro u hu
    cases u with
    | nil => exact absurd (run_one_none [] a (by simp)) hu
    | cons b v =>
      by_cases hb : b = a
      · exact ⟨v, by rw [hb]⟩
      · have hnone : run [one a] (b :: v) = none :=
          run_one_none [] a fun hhead => hb (Option.some.inj hhead)
        exact absurd hnone hu
  obtain ⟨v, hv⟩ := hhead (s.drop k) (by rw [hrun]; simp)
  rw [hv, run_one, run] at hrun
  obtain ⟨rfl, rfl⟩ := Prod.mk.inj (Option.some.inj hrun)
  have hkept : m.1 = s.take k := by rw [hm, Piece.kept, hc, if_pos rfl, List.append_nil]
  refine ⟨?_, ?_, ?_⟩
  · rw [hkept, ← hv, List.take_append_drop]
  · intro ha
    rw [hkept] at ha
    obtain ⟨j, hj, hget⟩ := List.getElem_of_mem ha
    rw [List.length_take] at hj
    have hnone := hfirst hlazy j (by omega) (by omega)
    have hcons : s.drop j = a :: s.drop (j + 1) := by
      rw [List.drop_eq_getElem_cons (by omega : j < s.length), ← hget, List.getElem_take]
    rw [hcons, run_one] at hnone
    exact absurd hnone (by simp [run])
  · rw [hkept]
    exact p.taken s hreach

theorem run_lazy_found (p : Piece α) (hlazy : p.greedy = false) (hleast : p.least = 0)
    (hmost : p.most = none) (hc : p.captured = true) {a : α} {t : List α} (ht : a ∉ t)
    (hcls : ∀ b ∈ t, p.cls b = true) (s : List α) :
    run [p, one a] (t ++ a :: s) = some (t, s) := by
  cases hrun : run [p, one a] (t ++ a :: s) with
  | none =>
    have hreach : t.length ≤ p.reach (t ++ a :: s) := by
      rw [Piece.reach, hmost, List.takeWhile_append_of_pos hcls, List.length_append]
      exact Nat.le_add_right _ _
    have hnone := (run_cons_none p [one a] _).mp hrun t.length (by omega) hreach
    rw [List.drop_left, run_one] at hnone
    exact absurd hnone (by simp [run])
  | some m =>
    obtain ⟨hsplit, hnot, -⟩ := run_lazy_one p hlazy hleast a hrun hc
    obtain ⟨rfl, rfl⟩ := cut_unique ht hnot hsplit
    rfl

end literals

end EdgeLink.Pattern
