import Mathlib.Data.List.Chain
import Mathlib.Data.Nat.Notation
import Mathlib.Tactic.Common

namespace EdgeLink.Windows

structure Window where
  start : ℕ
  stop : ℕ
  deriving DecidableEq, Repr

/-- The windows are none too long and none empty, they move on, they leave no gap, and they are all
over `[0, n)`. -/
structure Cover (n size : ℕ) (ws : List Window) : Prop where
  lengths : ∀ w ∈ ws, 1 ≤ w.stop - w.start ∧ w.stop - w.start ≤ size
  within : ∀ w ∈ ws, w.stop ≤ n
  starts : ws.Pairwise fun w w' => w.start < w'.start
  stops : ws.Pairwise fun w w' => w.stop ≤ w'.stop
  no_gap : ws.IsChain fun w w' => w'.start ≤ w.stop
  first : ∀ w ∈ ws.head?, w.start = 0
  last : ∀ w ∈ ws.getLast?, w.stop = n
  covers : ∀ i < n, ∃ w ∈ ws, w.start ≤ i ∧ i < w.stop

theorem Cover.nil (size : ℕ) : Cover 0 size [] := by
  constructor <;> simp

/-- Windows of the given size from `a` on, the last of which may be shorter. -/
inductive Run (n size : ℕ) : ℕ → List Window → Prop
  | last {a : ℕ} : a < n → n ≤ a + size → Run n size a [⟨a, n⟩]
  | next {a b : ℕ} {ws : List Window} : a < b → b ≤ a + size → a + size < n → Run n size b ws →
    Run n size a (⟨a, a + size⟩ :: ws)

variable {n size a : ℕ} {ws : List Window}

theorem Run.head (h : Run n size a ws) : ∀ w ∈ ws.head?, w.start = a := by
  cases h <;> simp

theorem Run.mem (h : Run n size a ws) {w : Window} (hw : w ∈ ws) :
    a ≤ w.start ∧ w.start < n ∧ w.stop = min n (w.start + size) := by
  induction h with
  | last ha hlast =>
    obtain rfl := List.mem_singleton.mp hw
    exact ⟨le_rfl, ha, (Nat.min_eq_left hlast).symm⟩
  | next hab hb hnext _ ih =>
    rcases List.mem_cons.mp hw with rfl | hw
    · exact ⟨le_rfl, by dsimp only; omega, (Nat.min_eq_right hnext.le).symm⟩
    · obtain ⟨hlo, hhi, hstop⟩ := ih hw
      exact ⟨by omega, hhi, hstop⟩

theorem Run.starts (h : Run n size a ws) : ws.Pairwise fun w w' => w.start < w'.start := by
  induction h with
  | last => exact List.pairwise_singleton _ _
  | next hab _ _ hrun ih => exact List.pairwise_cons.mpr ⟨fun w hw => hab.trans_le (hrun.mem hw).1, ih⟩

theorem Run.no_gap (h : Run n size a ws) : ws.IsChain fun w w' => w'.start ≤ w.stop := by
  induction h with
  | last => exact .singleton _
  | next _ hb _ hrun ih =>
    refine List.isChain_cons.mpr ⟨fun w hw => ?_, ih⟩
    rw [hrun.head w hw]
    exact hb

theorem Run.ne_nil (h : Run n size a ws) : ws ≠ [] := by
  cases h <;> exact List.cons_ne_nil _ _

theorem Run.last_stop (h : Run n size a ws) : ∀ w ∈ ws.getLast?, w.stop = n := by
  induction h with
  | last =>
    intro w hw
    obtain rfl := Option.some.inj hw
    rfl
  | next _ _ _ hrun ih =>
    rw [List.getLast?_cons_of_ne_nil hrun.ne_nil]
    exact ih

theorem Run.covers (h : Run n size a ws) {i : ℕ} (ha : a ≤ i) (hi : i < n) :
    ∃ w ∈ ws, w.start ≤ i ∧ i < w.stop := by
  induction h with
  | last => exact ⟨_, List.mem_singleton_self _, ha, hi⟩
  | @next a b ws _ hb _ _ ih =>
    -- an index before the next window is in this one
    by_cases hnext : b ≤ i
    · obtain ⟨w, hw, hin⟩ := ih hnext
      exact ⟨w, List.mem_cons_of_mem _ hw, hin⟩
    · exact ⟨_, List.mem_cons_self, ha, by dsimp only; omega⟩

theorem Run.cover (h : Run n size 0 ws) (hsize : 1 ≤ size) : Cover n size ws where
  lengths w hw := by
    obtain ⟨-, hlt, hstop⟩ := h.mem hw
    omega
  within w hw := by
    obtain ⟨-, -, hstop⟩ := h.mem hw
    omega
  starts := h.starts
  stops := h.starts.imp_of_mem fun {w w'} hw hw' hlt => by
    obtain ⟨-, -, hstop⟩ := h.mem hw
    obtain ⟨-, -, hstop'⟩ := h.mem hw'
    omega
  no_gap := h.no_gap
  first := h.head
  last := h.last_stop
  covers _ hi := h.covers (Nat.zero_le _) hi

end EdgeLink.Windows
