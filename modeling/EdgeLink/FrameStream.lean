import EdgeLink.Machine
import EdgeLink.StreamScan

namespace EdgeLink

namespace FrameStream

variable {α β ε σ : Type*}

/-- `l` is `k` whole pieces and the beginning `p` of the next one. -/
structure Cut (pieces : List (List α)) (l : List α) (k : ℕ) (p : List α) : Prop where
  whole : k ≤ pieces.length
  parts : l = (pieces.take k).flatten ++ p
  begun : p = [] ∨ ∃ b q, pieces[k]? = some b ∧ q ≠ [] ∧ p ++ q = b

section Cut
variable {pieces : List (List α)} {l rest p q : List α} {k : ℕ}

theorem Cut.nil (pieces : List (List α)) : Cut pieces [] 0 [] :=
  ⟨Nat.zero_le _, rfl, Or.inl rfl⟩

/-- Every beginning of the stream can be cut so. -/
theorem exists_cut (h : l ++ rest = pieces.flatten) : ∃ k p, Cut pieces l k p := by
  induction pieces generalizing l with
  | nil =>
    obtain ⟨rfl, -⟩ := List.append_eq_nil_iff.mp h
    exact ⟨0, [], Cut.nil []⟩
  | cons b pieces ih =>
    rw [List.flatten_cons] at h
    rcases List.append_eq_append_iff.mp h with ⟨q, hq, hrest⟩ | ⟨c, hc, hrest⟩
    · by_cases hnil : q = []
      · subst hnil
        rw [List.append_nil] at hq
        refine ⟨1, [], Nat.succ_le_succ (Nat.zero_le _), ?_, Or.inl rfl⟩
        rw [hq, List.take_succ_cons, List.take_zero, List.flatten_singleton, List.append_nil]
      · exact ⟨0, l, Nat.zero_le _, rfl, Or.inr ⟨b, q, rfl, hnil, hq.symm⟩⟩
    · obtain ⟨k, p, hcut⟩ := ih hrest.symm
      refine ⟨k + 1, p, Nat.succ_le_succ hcut.whole, ?_, hcut.begun⟩
      rw [List.take_succ_cons, List.flatten_cons, List.append_assoc, ← hcut.parts, hc]

/-- The next item of the stream belongs to the piece that has begun, or begins the next one. -/
theorem Cut.next {a : α} (h : Cut pieces l k p) (hne : ∀ b ∈ pieces, b ≠ [])
    (hrest : l ++ a :: rest = pieces.flatten) : ∃ b q, pieces[k]? = some b ∧ p ++ a :: q = b := by
  have hsplit : pieces.flatten = (pieces.take k).flatten ++ (pieces.drop k).flatten := by
    rw [← List.flatten_append, List.take_append_drop]
  rw [h.parts, hsplit, List.append_assoc] at hrest
  have htail := List.append_cancel_left hrest
  rcases h.begun with rfl | ⟨b, q, hb, hq, rfl⟩
  · cases hk : pieces[k]? with
    | none =>
      have hlen := List.getElem?_eq_none_iff.mp hk
      rw [List.drop_eq_nil_of_le hlen] at htail
      exact absurd htail (List.cons_ne_nil _ _)
    | some b =>
      rw [List.drop_eq_getElem?_toList_append, hk] at htail
      cases b with
      | nil => exact absurd rfl (hne [] (List.mem_of_getElem? hk))
      | cons a' q =>
        have hhead : a = a' := List.head_eq_of_cons_eq htail
        subst hhead
        exact ⟨a :: q, q, rfl, rfl⟩
  · rw [List.drop_eq_getElem?_toList_append, hb] at htail
    cases q with
    | nil => exact absurd rfl hq
    | cons a' q =>
      simp only [Option.toList_some, List.flatten_cons,
        List.append_assoc, List.cons_append] at htail
      have hhead : a = a' := List.head_eq_of_cons_eq (List.append_cancel_left htail)
      subst hhead
      exact ⟨_, q, hb, rfl⟩

theorem Cut.push {a : α} (h : Cut pieces l k p) {b : List α} (hb : pieces[k]? = some b)
    (hq : p ++ a :: q = b) (hne : q ≠ []) : Cut pieces (l ++ [a]) k (p ++ [a]) := by
  refine ⟨h.whole, by rw [h.parts, List.append_assoc], Or.inr ⟨b, q, hb, hne, ?_⟩⟩
  rw [List.append_assoc]
  exact hq

theorem Cut.close {a : α} (h : Cut pieces l k p) {b : List α} (hb : pieces[k]? = some b)
    (hq : p ++ [a] = b) : Cut pieces (l ++ [a]) (k + 1) [] := by
  have hk := (List.getElem?_eq_some_iff.mp hb).1
  refine ⟨hk, ?_, Or.inl rfl⟩
  rw [List.take_add_one, hb, Option.toList_some, List.flatten_append, List.flatten_singleton,
    List.append_nil, ← hq, h.parts, List.append_assoc]

end Cut

/-- What holds at every cut, if an event without an item keeps it, an item of a piece keeps it and
the last item of a piece takes it to the next one. -/
theorem fed {step : σ → ε → σ × Unit} {items : ε → List α} {C : σ → ε → Prop}
    {pieces : List (List α)} {I : List ε → ℕ → List α → σ → Prop} (hne : ∀ b ∈ pieces, b ≠ [])
    (hone : ∀ e, (items e).length ≤ 1)
    (hquiet : ∀ es k p s e, items e = [] → C s e → I es k p s → I (es ++ [e]) k p (step s e).1)
    (hpush : ∀ es k p s e a q b, items e = [a] → C s e → pieces[k]? = some b → p ++ a :: q = b →
      q ≠ [] → I es k p s → I (es ++ [e]) k (p ++ [a]) (step s e).1)
    (hclose : ∀ es k p s e a b, items e = [a] → C s e → pieces[k]? = some b → p ++ [a] = b →
      I es k p s → I (es ++ [e]) (k + 1) [] (step s e).1)
    {s : σ} (hs : I [] 0 [] s) {es : List ε} {rest : List α}
    (hC : Machine.Always step C s es) (hrest : es.flatMap items ++ rest = pieces.flatten) :
    ∃ k p, Cut pieces (es.flatMap items) k p ∧ I es k p (Machine.run step s es) := by
  induction es using List.reverseRecOn generalizing rest with
  | nil => exact ⟨0, [], Cut.nil pieces, hs⟩
  | append_singleton es e ih =>
    rw [List.flatMap_append, List.flatMap_singleton, List.append_assoc] at hrest
    obtain ⟨hbefore, hlast, -⟩ := (Machine.always_append step C s es [e]).mp hC
    obtain ⟨k, p, hcut, hI⟩ := ih hbefore hrest
    rw [List.flatMap_append, List.flatMap_singleton, Machine.run_append]
    cases ha : items e with
    | nil =>
      rw [List.append_nil]
      exact ⟨k, p, hcut, hquiet es k p _ e ha hlast hI⟩
    | cons a as =>
      obtain rfl : as = [] := by
        have := hone e
        rw [ha, List.length_cons] at this
        exact List.length_eq_zero_iff.mp (by omega)
      rw [ha] at hrest
      obtain ⟨b, q, hb, hq⟩ := hcut.next hne hrest
      by_cases hend : q = []
      · subst hend
        exact ⟨k + 1, [], hcut.close hb hq, hclose es k p _ e a b ha hlast hb hq hI⟩
      · exact ⟨k, p ++ [a], hcut.push hb hq hend, hpush es k p _ e a q b ha hlast hb hq hend hI⟩

end FrameStream

namespace Scanner

variable {α β E σ : Type*} (s : Scanner α E) {bytes : β → List α} {see : β → E}

/-- A loop that sees each piece at once takes the stream piece by piece. -/
theorem drain_pieces {pieces : List β}
    (hsee : ∀ b ∈ pieces, s.next (bytes b) = some ((bytes b).length, see b))
    (f : σ → ℕ × E → σ) {p : List α} (hp : s.next p = none) (x : σ) :
    s.drain f (pieces.flatMap bytes ++ p) x =
      (p, pieces.foldl (fun x b => f x ((bytes b).length, see b)) x) := by
  induction pieces generalizing x with
  | nil => exact s.drain_stop f x hp
  | cons b pieces ih =>
    obtain ⟨hb, hpieces⟩ := List.forall_mem_cons.mp hsee
    have hall : (bytes b ++ (pieces.flatMap bytes ++ p)).drop (bytes b).length =
        pieces.flatMap bytes ++ p := List.drop_left
    rw [List.flatMap_cons, List.append_assoc, s.drain_go f x (s.mono _ hb), hall, ih hpieces,
      List.foldl_cons]

end Scanner

end EdgeLink
