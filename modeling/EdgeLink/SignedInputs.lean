import Mathlib

namespace EdgeLink.SignedInputs

/-! Deciding by names and signatures whether what was made of some inputs can be kept. -/

variable {K V S : Type*} {sig : V → S} {le : K → K → Prop}

def signed (sig : V → S) (inputs : List (K × V)) : List (K × S) :=
  inputs.map fun x => (x.1, sig x.2)

/-- As many inputs as then, and each has the signature that was stored last under its name. -/
def Matches [BEq K] (stored current : List (K × S)) : Prop :=
  stored.length = current.length ∧ ∀ x ∈ current, stored.reverse.lookup x.1 = some x.2

instance [BEq K] [DecidableEq S] (stored current : List (K × S)) :
    Decidable (Matches stored current) := inferInstanceAs (Decidable (_ ∧ _))

/-- Inputs of one name and one signature are the same. -/
def Determined (sig : V → S) (versions : Set (K × V)) : Prop :=
  ∀ x ∈ versions, ∀ y ∈ versions, x.1 = y.1 → sig x.2 = sig y.2 → x = y

/-- Inputs are listed by name, each name once. -/
structure Listed (le : K → K → Prop) (inputs : List (K × V)) : Prop where
  names : (inputs.map Prod.fst).Nodup
  sorted : inputs.Pairwise fun x y => le x.1 y.1

section
variable {stored current : List (K × S)} {inputs inputs' : List (K × V)}

theorem names_signed (sig : V → S) (inputs : List (K × V)) :
    (signed sig inputs).map Prod.fst = inputs.map Prod.fst := by
  rw [signed, List.map_map]
  rfl

theorem Listed.signed (h : Listed le inputs) : Listed le (signed sig inputs) := by
  constructor
  · rw [names_signed]
    exact h.names
  · exact List.pairwise_map.mpr h.sorted

theorem eq_of_signed {versions : Set (K × V)} (hdet : Determined sig versions)
    (hin : ∀ x ∈ inputs, x ∈ versions) (hin' : ∀ x ∈ inputs', x ∈ versions)
    (h : signed sig inputs = signed sig inputs') : inputs = inputs' := by
  induction inputs generalizing inputs' with
  | nil => exact (List.map_eq_nil_iff.mp h.symm).symm
  | cons x inputs ih =>
    cases inputs' with
    | nil => cases h
    | cons y inputs' =>
      obtain ⟨hhead, htail⟩ := List.cons_eq_cons.mp h
      obtain ⟨hname, hsig⟩ := Prod.mk.injEq _ _ _ _ ▸ hhead
      obtain ⟨hx, hxs⟩ := List.forall_mem_cons.mp hin
      obtain ⟨hy, hys⟩ := List.forall_mem_cons.mp hin'
      rw [hdet x hx y hy hname hsig, ih hxs hys htail]

section Names
variable [BEq K] [LawfulBEq K]

theorem mem_of_lookup {x : K × S} (h : stored.reverse.lookup x.1 = some x.2) : x ∈ stored := by
  obtain ⟨l₁, l₂, hsplit, -⟩ := List.lookup_eq_some_iff.mp h
  have hmem : x ∈ stored.reverse := by
    rw [hsplit]
    exact List.mem_append_right _ List.mem_cons_self
  exact List.mem_reverse.mp hmem

theorem Matches.perm (h : Matches stored current) (hnames : (current.map Prod.fst).Nodup) :
    current.Perm stored := by
  have hsub : current ⊆ stored := fun x hx => mem_of_lookup (h.2 x hx)
  exact (hnames.of_map.subperm hsub).perm_of_length_le h.1.le

theorem lookup_of_mem (hnames : (current.map Prod.fst).Nodup) {x : K × S} (hx : x ∈ current) :
    current.lookup x.1 = some x.2 := by
  obtain ⟨l₁, l₂, hsplit⟩ := List.append_of_mem hx
  refine List.lookup_eq_some_iff.mpr ⟨l₁, l₂, hsplit, fun y hy => ?_⟩
  rw [hsplit, List.map_append] at hnames
  have hne := List.disjoint_of_nodup_append hnames (List.mem_map_of_mem hy)
  rw [bne_iff_ne]
  intro heq
  exact hne (heq ▸ List.mem_map_of_mem List.mem_cons_self)

theorem matches_self (hnames : (current.map Prod.fst).Nodup) : Matches current current := by
  refine ⟨rfl, fun x hx => lookup_of_mem ?_ (List.mem_reverse.mpr hx)⟩
  rw [List.map_reverse]
  exact List.nodup_reverse.mpr hnames

/-- What is listed in one order and matches is the same list. -/
theorem Matches.eq (h : Matches stored current) (hstored : Listed le stored)
    (hcurrent : Listed le current) (hanti : ∀ a b, le a b → le b a → a = b) :
    stored = current := by
  have hperm := h.perm hcurrent.names
  refine hperm.symm.eq_of_pairwise (fun x y hx hy hxy hyx => ?_) hstored.sorted hcurrent.sorted
  exact List.inj_on_of_nodup_map hstored.names hx (hperm.mem_iff.mp hy) (hanti _ _ hxy hyx)

end Names

end

end EdgeLink.SignedInputs
