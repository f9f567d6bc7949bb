import Mathlib

namespace EdgeLink.Counter

/-! How often each item of a list occurs, by first occurrence. -/

variable {α : Type*} [BEq α]

def counter (l : List α) : List (α × ℕ) := l.eraseDups.map fun a => (a, l.count a)

theorem counter_keys (l : List α) : (counter l).map Prod.fst = l.eraseDups := by
  rw [counter, List.map_map]
  exact List.map_id _

variable [LawfulBEq α]

theorem nodup_eraseDups (l : List α) : l.eraseDups.Nodup := by
  induction hn : l.length using Nat.strong_induction_on generalizing l with
  | _ n ih =>
    cases l with
    | nil => exact List.nodup_nil
    | cons a l =>
      rw [List.eraseDups_cons]
      refine List.nodup_cons.mpr ⟨fun ha => ?_, ih _ ?_ _ rfl⟩
      · have hne := (List.mem_filter.mp (List.mem_eraseDups.mp ha)).2
        simp at hne
      · rw [← hn, List.length_cons]
        exact Nat.lt_succ_of_le (List.length_filter_le _ _)

theorem counter_nodup (l : List α) : ((counter l).map Prod.fst).Nodup := by
  rw [counter_keys]
  exact nodup_eraseDups l

theorem mem_counter {l : List α} {a : α} {n : ℕ} :
    (a, n) ∈ counter l ↔ a ∈ l ∧ n = l.count a := by
  unfold counter
  rw [List.mem_map]
  constructor
  · rintro ⟨b, hb, heq⟩
    obtain ⟨rfl, rfl⟩ := Prod.mk.inj heq
    exact ⟨List.mem_eraseDups.mp hb, rfl⟩
  · rintro ⟨ha, rfl⟩
    exact ⟨a, List.mem_eraseDups.mpr ha, rfl⟩

/-- Where no list has an item twice, so many of them have it. -/
theorem count_flatMap_of_nodup {β : Type*} {f : β → List α} {l : List β}
    (h : ∀ b ∈ l, (f b).Nodup) (a : α) :
    (l.flatMap f).count a = l.countP fun b => (f b).contains a := by
  induction l with
  | nil => rfl
  | cons b l ih =>
    obtain ⟨hb, hl⟩ := List.forall_mem_cons.mp h
    rw [List.flatMap_cons, List.count_append, ih hl, hb.count, List.countP_cons, Nat.add_comm]
    simp

end EdgeLink.Counter
