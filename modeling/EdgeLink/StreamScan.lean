import Mathlib

namespace EdgeLink

/-- A loop body that looks at the front of a buffer. It waits for more, or it sees `e` there and is
done with `n` items; more input does not change what it sees. -/
structure Scanner (α E : Type*) where
  next : List α → Option (ℕ × E)
  pos : ∀ {b n e}, next b = some (n, e) → 0 < n
  le_length : ∀ {b n e}, next b = some (n, e) → n ≤ b.length
  mono : ∀ {b n e} (c : List α), next b = some (n, e) → next (b ++ c) = some (n, e)

namespace Scanner

variable {α E σ : Type*} (s : Scanner α E)

/-- At most `k` rounds of the loop. -/
def rounds (f : σ → ℕ × E → σ) : ℕ → List α → σ → List α × σ
  | 0, b, x => (b, x)
  | k + 1, b, x =>
    match s.next b with
    | none => (b, x)
    | some r => rounds f k (b.drop r.1) (f x r)

/-- The loop, run until it waits. -/
def drain (f : σ → ℕ × E → σ) (b : List α) (x : σ) : List α × σ := s.rounds f b.length b x

theorem next_length {b : List α} {r : ℕ × E} (h : s.next b = some r) :
    (b.drop r.1).length < b.length := by
  have hpos := s.pos h
  have hle := s.le_length h
  rw [List.length_drop]
  omega

theorem next_nil : s.next [] = none := by
  cases h : s.next [] with
  | none => rfl
  | some r => exact absurd (s.next_length h) (Nat.not_lt_zero _)

/-- One round per item is enough. -/
theorem rounds_of_le (f : σ → ℕ × E → σ) {k : ℕ} {b : List α} (hk : b.length ≤ k) (x : σ) :
    s.rounds f k b x = s.drain f b x := by
  induction hlen : b.length using Nat.strong_induction_on generalizing k b x with
  | _ len ih =>
    subst hlen
    unfold drain
    cases b with
    | nil =>
      cases k with
      | zero => rfl
      | succ k => simp only [rounds, next_nil, List.length_nil]
    | cons a b =>
      obtain ⟨k, rfl⟩ : ∃ j, k = j + 1 := ⟨k - 1, by simp at hk; omega⟩
      simp only [List.length_cons, rounds]
      cases h : s.next (a :: b) with
      | none => rfl
      | some r =>
        have hlt := s.next_length h
        simp only [List.length_cons] at hk hlt
        exact (ih _ (by simpa using hlt) (by omega) _ rfl).trans
          (ih _ (by simpa using hlt) (by omega) _ rfl).symm

theorem drain_stop (f : σ → ℕ × E → σ) {b : List α} (x : σ) (h : s.next b = none) :
    s.drain f b x = (b, x) := by
  unfold drain
  cases b with
  | nil => rfl
  | cons a b => simp only [List.length_cons, rounds, h]

theorem drain_go (f : σ → ℕ × E → σ) {b : List α} {r : ℕ × E} (x : σ) (h : s.next b = some r) :
    s.drain f b x = s.drain f (b.drop r.1) (f x r) := by
  have hlt := s.next_length h
  obtain ⟨len, hlen⟩ : ∃ len, b.length = len + 1 := ⟨b.length - 1, by omega⟩
  rw [drain, hlen, rounds, h]
  exact s.rounds_of_le f (by omega) _

/-- Induction along the rounds of the loop. -/
theorem induct {P : List α → Prop} (stop : ∀ b, s.next b = none → P b)
    (go : ∀ b r, s.next b = some r → P (b.drop r.1) → P b) (b : List α) : P b := by
  induction hlen : b.length using Nat.strong_induction_on generalizing b with
  | _ len ih =>
    cases h : s.next b with
    | none => exact stop b h
    | some r => exact go b r h (ih _ (hlen ▸ s.next_length h) _ rfl)

theorem drain_waits (f : σ → ℕ × E → σ) (b : List α) (x : σ) :
    s.next (s.drain f b x).1 = none := by
  induction b using s.induct generalizing x with
  | stop b h => rw [s.drain_stop f x h]; exact h
  | go b r h ih => rw [s.drain_go f x h]; exact ih _

/-- Stopping to wait and going on later is as good as having all the input at once. -/
theorem drain_append (f : σ → ℕ × E → σ) (b c : List α) (x : σ) :
    s.drain f (b ++ c) x = s.drain f ((s.drain f b x).1 ++ c) (s.drain f b x).2 := by
  induction b using s.induct generalizing x with
  | stop b h => rw [s.drain_stop f x h]
  | go b r h ih =>
    rw [s.drain_go f x h, s.drain_go f x (s.mono c h), List.drop_append_of_le_length (s.le_length h)]
    exact ih _

/-- Two folds that stay related event by event end up related. -/
theorem drain_rel {τ : Type*} {f : σ → ℕ × E → σ} {g : τ → ℕ × E → τ} {R : σ → τ → Prop}
    (hR : ∀ x y b r, s.next b = some r → R x y → R (f x r) (g y r)) (b : List α) {x : σ} {y : τ}
    (h : R x y) :
    (s.drain f b x).1 = (s.drain g b y).1 ∧ R (s.drain f b x).2 (s.drain g b y).2 := by
  induction b using s.induct generalizing x y with
  | stop b hb => rw [s.drain_stop f x hb, s.drain_stop g y hb]; exact ⟨rfl, h⟩
  | go b r hb ih => rw [s.drain_go f x hb, s.drain_go g y hb]; exact ih (hR x y b r hb h)

theorem drain_suffix (f : σ → ℕ × E → σ) (b : List α) (x : σ) : (s.drain f b x).1 <:+ b := by
  induction b using s.induct generalizing x with
  | stop b h => rw [s.drain_stop f x h]
  | go b r h ih =>
    rw [s.drain_go f x h]
    exact (ih _).trans (List.drop_suffix _ _)

/-- Where a look needs no more than what it is done with, the loop does not need what it leaves. -/
theorem drain_take (hlocal : ∀ b r, s.next b = some r → s.next (b.take r.1) = some r)
    (f : σ → ℕ × E → σ) (b : List α) (x : σ) :
    s.drain f (b.take (b.length - (s.drain f b x).1.length)) x = ([], (s.drain f b x).2) := by
  induction b using s.induct generalizing x with
  | stop b h =>
    rw [s.drain_stop f x h, Nat.sub_self, List.take_zero]
    exact s.drain_stop f x s.next_nil
  | go b r h ih =>
    have hle := s.le_length h
    have hrest := (s.drain_suffix f (b.drop r.1) (f x r)).length_le
    rw [List.length_drop] at hrest
    rw [s.drain_go f x h]
    have hsplit : b.take (b.length - (s.drain f (b.drop r.1) (f x r)).1.length) = b.take r.1 ++
        (b.drop r.1).take ((b.drop r.1).length - (s.drain f (b.drop r.1) (f x r)).1.length) := by
      rw [List.length_drop, ← List.take_add]
      congr 1
      omega
    have htake : (b.take r.1).length = r.1 := List.length_take_of_le hle
    rw [hsplit, s.drain_go f x (s.mono _ (hlocal b r h)),
      List.drop_left' htake]
    exact ih (f x r)

def note (x : ℕ × List (ℕ × E)) (r : ℕ × E) : ℕ × List (ℕ × E) := (x.1 + r.1, x.2 ++ [(x.1, r.2)])

def log (b : List α) : List (ℕ × E) := (s.drain note b (0, [])).2.2

theorem note_place (b : List α) (x : ℕ × List (ℕ × E)) :
    (s.drain note b x).2.1 + (s.drain note b x).1.length = x.1 + b.length := by
  induction b using s.induct generalizing x with
  | stop b h => rw [s.drain_stop note x h]
  | go b r h ih =>
    have hle := s.le_length h
    rw [s.drain_go note x h, ih, note, List.length_drop]
    dsimp only
    omega

/-- The places that the loop looks at. -/
inductive Reach : List α → ℕ → Prop
  | here {b : List α} : Reach b 0
  | there {b : List α} {r : ℕ × E} {i : ℕ} :
    s.next b = some r → Reach (b.drop r.1) i → Reach b (r.1 + i)

variable {s}

theorem Reach.le_length {b : List α} {i : ℕ} (h : s.Reach b i) : i ≤ b.length := by
  induction h with
  | here => exact Nat.zero_le _
  | there hn _ ih =>
    have hle := s.le_length hn
    rw [List.length_drop] at ih
    omega

/-- The loop stops behind every place it has looked at. -/
theorem Reach.le_drain {b : List α} {i : ℕ} (h : s.Reach b i) (f : σ → ℕ × E → σ) (x : σ) :
    i + (s.drain f b x).1.length ≤ b.length := by
  induction h generalizing x with
  | @here b =>
    rw [Nat.zero_add]
    exact (s.drain_suffix f b x).length_le
  | @there b r i hn _ ih =>
    have hle := s.le_length hn
    have hrest := ih (f x r)
    rw [List.length_drop] at hrest
    rw [s.drain_go f x hn]
    omega

theorem Reach.step {b : List α} {i : ℕ} {r : ℕ × E} (h : s.Reach b i)
    (hn : s.next (b.drop i) = some r) : s.Reach b (i + r.1) := by
  induction h with
  | here =>
    rw [Nat.zero_add]
    exact Reach.there (i := 0) hn Reach.here
  | there hb _ ih =>
    rw [Nat.add_assoc]
    exact Reach.there hb (ih (by rw [List.drop_drop]; exact hn))

/-- The loop passes from a place straight to the next. -/
theorem Reach.jump {b : List α} {i j : ℕ} (hi : s.Reach b i) (hj : s.Reach b j) (hij : i < j) :
    ∃ r, s.next (b.drop i) = some r ∧ i + r.1 ≤ j := by
  induction hi generalizing j with
  | here =>
    cases hj with
    | here => exact absurd hij (Nat.lt_irrefl 0)
    | @there _ r k hn hk => exact ⟨r, hn, by omega⟩
  | @there b r i hn _ ih =>
    have hpos := s.pos hn
    cases hj with
    | here => exact absurd hij (Nat.not_lt_zero _)
    | @there _ r' k hn' hk =>
      obtain rfl : r = r' := Option.some.inj (hn.symm.trans hn')
      obtain ⟨q, hq, hle⟩ := ih hk (by omega)
      exact ⟨q, by rw [← List.drop_drop]; exact hq, by omega⟩

theorem mem_drain_note (b : List α) (x : ℕ × List (ℕ × E)) (p : ℕ × E) :
    p ∈ (s.drain note b x).2.2 ↔ p ∈ x.2 ∨
      ∃ i n, p.1 = x.1 + i ∧ s.Reach b i ∧ s.next (b.drop i) = some (n, p.2) := by
  induction b using s.induct generalizing x with
  | stop b h =>
    rw [s.drain_stop note x h]
    constructor
    · exact Or.inl
    · rintro (hp | ⟨i, n, -, hi, hn⟩)
      · exact hp
      · cases hi with
        | here => rw [List.drop_zero, h] at hn; cases hn
        | there hn' _ => rw [h] at hn'; cases hn'
  | go b r h ih =>
    rw [s.drain_go note x h, ih]
    simp only [note, List.mem_append, List.mem_singleton]
    constructor
    · rintro ((hp | rfl) | ⟨i, n, hp, hi, hn⟩)
      · exact Or.inl hp
      · exact Or.inr ⟨0, r.1, rfl, Reach.here, by rw [List.drop_zero, h]⟩
      · refine Or.inr ⟨r.1 + i, n, by omega, Reach.there h hi, ?_⟩
        rw [← List.drop_drop]
        exact hn
    · rintro (hp | ⟨i, n, hp, hi, hn⟩)
      · exact Or.inl (Or.inl hp)
      · cases hi with
        | here =>
          rw [List.drop_zero, h] at hn
          exact Or.inl (Or.inr (Prod.ext hp (congrArg Prod.snd (Option.some.inj hn)).symm))
        | @there _ r' k hn' hk =>
          obtain rfl : r = r' := Option.some.inj (h.symm.trans hn')
          rw [← List.drop_drop] at hn
          exact Or.inr ⟨k, n, by omega, hk, hn⟩

/-- What the loop notes is what stands at the places it looks at. -/
theorem mem_log (b : List α) (i : ℕ) (e : E) :
    (i, e) ∈ s.log b ↔ s.Reach b i ∧ ∃ n, s.next (b.drop i) = some (n, e) := by
  rw [log, mem_drain_note]
  simp only [List.not_mem_nil, false_or, Nat.zero_add]
  constructor
  · rintro ⟨j, n, rfl, hj, hn⟩
    exact ⟨hj, n, hn⟩
  · rintro ⟨hi, n, hn⟩
    exact ⟨i, n, rfl, hi, hn⟩

theorem drain_note_sorted (b : List α) (x : ℕ × List (ℕ × E))
    (h : (x.2.map Prod.fst).Pairwise (· < ·) ∧ ∀ p ∈ x.2, p.1 < x.1) :
    ((s.drain note b x).2.2.map Prod.fst).Pairwise (· < ·) := by
  induction b using s.induct generalizing x with
  | stop b hb => rw [s.drain_stop note x hb]; exact h.1
  | go b r hb ih =>
    have hpos := s.pos hb
    rw [s.drain_go note x hb]
    apply ih
    simp only [note, List.map_append, List.map_cons, List.map_nil, List.mem_append,
      List.mem_singleton]
    refine ⟨List.pairwise_append.mpr ⟨h.1, List.pairwise_singleton _ _, ?_⟩, ?_⟩
    · intro i hi j hj
      obtain ⟨p, hp, rfl⟩ := List.mem_map.mp hi
      rw [List.mem_singleton.mp hj]
      exact h.2 p hp
    · rintro p (hp | rfl)
      · exact (h.2 p hp).trans (Nat.lt_add_of_pos_right hpos)
      · exact Nat.lt_add_of_pos_right hpos

/-- The loop looks at each place once, from the front on. -/
theorem log_sorted (b : List α) : ((s.log b).map Prod.fst).Pairwise (· < ·) :=
  drain_note_sorted b _ ⟨List.Pairwise.nil, fun _ h => absurd h List.not_mem_nil⟩

end Scanner

end EdgeLink
