import EdgeLink.JsonStrings
import EdgeLink.PyText
import EdgeLink.Machine

namespace EdgeLink.MemoryMerge

open JsonStrings (dumps loads loads_dumps)
open Machine
open EdgeLink.Substring (trim trim_self trim_ends)
open PyText (Str isSpace strip strip_strip)

/-- `bool(s.strip())`. -/
def filled (s : Str) : Bool := strip s ≠ []

/-- What is created; the scores are of any ordered kind. -/
structure MemoryCandidateRecord (R : Type) where
  sessionId : Str
  content : Str
  rationale : Str
  confidence : R
  provenance : Str
  riskScore : R
  riskFlags : Option (List Str)

/-- The columns of a candidate's row that a merge sets. -/
structure Candidate (R : Type) where
  sessionId : Str
  content : Str
  rationale : Str
  confidence : R
  provenance : Str
  riskScore : R
  riskFlags : Str
  updatedAt : ℕ
  deriving DecidableEq

structure Merge (R : Type) where
  sessionId : Str
  content : Str
  rationale : Str
  confidence : R
  provenance : Str
  riskScore : R
  riskFlags : List Str
  deriving DecidableEq

def createMemoryCandidate {R : Type} (now : ℕ) (record : MemoryCandidateRecord R) : Candidate R where
  sessionId := record.sessionId
  content := record.content
  rationale := record.rationale
  confidence := record.confidence
  provenance := record.provenance
  riskScore := record.riskScore
  riskFlags := dumps (record.riskFlags.getD [])
  updatedAt := now

def mergedRationale (current incoming : Str) : Str :=
  let merged_rationale := strip current
  let incoming_rationale := strip incoming
  if incoming_rationale ≠ [] ∧ ¬incoming_rationale <:+: merged_rationale then
    trim (fun c => c = ' ' ∨ c = '|') (merged_rationale ++ ' ' :: '|' :: ' ' :: incoming_rationale)
  else merged_rationale

def mergedContent (current content : Str) : Str :=
  if filled content ∧ strip content ≠ strip current then strip content else strip current

def mergedProvenance (current provenance : Str) : Str :=
  let merged_provenance := if filled current then strip current else strip provenance
  if filled provenance ∧ strip provenance ∉ merged_provenance.splitOn '|' then
    trim (· = '|') (merged_provenance ++ '|' :: strip provenance)
  else merged_provenance

/-- The row holds a text, and to go through a text is to go through its characters. -/
def currentFlags (risk_flags : Str) : List Str := (risk_flags.map fun c => [c]).filter filled

def addFlag (merged_flags : List Str) (item : Str) : List Str :=
  if item ∈ merged_flags then merged_flags else merged_flags ++ [item]

def mergedFlags (risk_flags : Str) (incoming : List Str) : List Str :=
  (currentFlags risk_flags ++ incoming.filter filled).foldl addFlag []

section
variable {R : Type} [LinearOrder R]

def mergeMemoryCandidate (now : ℕ) (current : Candidate R) (m : Merge R) : Candidate R where
  sessionId := m.sessionId
  content := mergedContent current.content m.content
  rationale := mergedRationale current.rationale m.rationale
  confidence := max current.confidence m.confidence
  provenance := mergedProvenance current.provenance m.provenance
  riskScore := max current.riskScore m.riskScore
  riskFlags := dumps (mergedFlags current.riskFlags m.riskFlags)
  updatedAt := now

def step (current : Candidate R) (e : ℕ × Merge R) : Candidate R × Unit :=
  (mergeMemoryCandidate e.1 current e.2, ())

/-- The row of a candidate after some merges. -/
def merged (created : ℕ) (record : MemoryCandidateRecord R) (es : List (ℕ × Merge R)) : Candidate R :=
  run step (createMemoryCandidate created record) es

theorem merged_concat (created : ℕ) (record : MemoryCandidateRecord R) (es : List (ℕ × Merge R))
    (e : ℕ × Merge R) :
    merged created record (es ++ [e]) = mergeMemoryCandidate e.1 (merged created record es) e.2 :=
  run_append step _ es [e]

end

section
variable {R : Type}

def flagsOf (record : MemoryCandidateRecord R) (es : List (ℕ × Merge R)) : List Str :=
  (record.riskFlags.getD [] ++ es.flatMap fun e => e.2.riskFlags).filter filled

def provenancesOf (record : MemoryCandidateRecord R) (es : List (ℕ × Merge R)) : List Str :=
  ((record.provenance :: es.map fun e => e.2.provenance).filter filled).map strip

def contentsOf (record : MemoryCandidateRecord R) (es : List (ℕ × Merge R)) : List Str :=
  ((record.content :: es.map fun e => e.2.content).filter filled).map strip

/-- The provenances that a joined text lists. -/
def listed (provenance : Str) : List Str :=
  if filled provenance then (strip provenance).splitOn '|' else []

/-- The candidate holds what was seen, and a merge that is repeated changes nothing but its date. -/
structure Accumulated [LinearOrder R] (created : ℕ) (record : MemoryCandidateRecord R)
    (es : List (ℕ × Merge R)) : Prop where
  flags : loads (merged created record es).riskFlags = some (flagsOf record es).eraseDups
  riskScore : IsGreatest {x | x ∈ record.riskScore :: es.map fun e => e.2.riskScore}
    (merged created record es).riskScore
  confidence : IsGreatest {x | x ∈ record.confidence :: es.map fun e => e.2.confidence}
    (merged created record es).confidence
  provenance : listed (merged created record es).provenance = (provenancesOf record es).eraseDups
  content : strip (merged created record es).content = (contentsOf record es).getLast?.getD []
  repeated : ∀ before t t' m, es = before ++ [(t, m), (t', m)] →
    merged created record es = { merged created record (before ++ [(t, m)]) with updatedAt := t' }

end

theorem filled_iff (s : Str) : filled s = true ↔ strip s ≠ [] := decide_eq_true_iff

theorem filled_strip (s : Str) : filled (strip s) = filled s := by
  unfold filled
  rw [strip_strip]

theorem filled_single (s : Str) :
    ([s].filter filled).map strip = if filled s then [strip s] else [] := by
  cases hfilled : filled s <;> simp [hfilled]

theorem mergedContent_strip (current content : Str) :
    mergedContent current content = if filled content then strip content else strip current := by
  unfold mergedContent
  by_cases hsame : strip content = strip current
  · rw [if_neg (fun h => h.2 hsame), hsame, ite_self]
  · split_ifs with hboth hfilled hfilled
    · rfl
    · exact absurd hboth.1 hfilled
    · exact absurd ⟨hfilled, hsame⟩ hboth
    · rfl

section
variable {α : Type} [BEq α] [LawfulBEq α]

theorem eraseDups_concat (l : List α) (a : α) :
    (l ++ [a]).eraseDups = if a ∈ l then l.eraseDups else l.eraseDups ++ [a] := by
  rw [List.eraseDups_append]
  by_cases ha : a ∈ l
  · rw [if_pos ha]
    have hnone : [a].removeAll l = [] := by simp [List.removeAll, ha]
    rw [hnone, List.eraseDups_nil, List.append_nil]
  · rw [if_neg ha]
    have hone : [a].removeAll l = [a] := by simp [List.removeAll, ha]
    rw [hone]
    rfl

theorem eraseDups_left (l l' : List α) :
    (l.eraseDups ++ l').eraseDups = (l ++ l').eraseDups := by
  induction l' using List.reverseRecOn with
  | nil =>
    rw [List.append_nil, List.append_nil]
    induction l using List.reverseRecOn with
    | nil => rfl
    | append_singleton l a ih =>
      rw [eraseDups_concat]
      by_cases ha : a ∈ l
      · rw [if_pos ha, ih]
      · rw [if_neg ha, eraseDups_concat, if_neg (fun h => ha (List.mem_eraseDups.mp h)), ih]
  | append_singleton l' a ih =>
    rw [← List.append_assoc, ← List.append_assoc, eraseDups_concat, eraseDups_concat, ih]
    refine if_congr ?_ rfl rfl
    rw [List.mem_append, List.mem_append, List.mem_eraseDups]

/-- What is listed already is not listed again. -/
theorem eraseDups_absorb {l l' : List α} (h : ∀ a ∈ l', a ∈ l) :
    (l ++ l').eraseDups = l.eraseDups := by
  induction l' using List.reverseRecOn with
  | nil => rw [List.append_nil]
  | append_singleton l' a ih =>
    rw [← List.append_assoc, eraseDups_concat, if_pos (List.mem_append_left _ (h a (by simp)))]
    exact ih fun b hb => h b (List.mem_append_left _ hb)

end

/-- The loop of a merge lists each item where it appears first. -/
theorem foldl_addFlag (items : List Str) : items.foldl addFlag [] = items.eraseDups := by
  induction items using List.reverseRecOn with
  | nil => rfl
  | append_singleton items item ih =>
    rw [List.foldl_append, ih, eraseDups_concat]
    change addFlag items.eraseDups item = _
    unfold addFlag
    rw [if_congr List.mem_eraseDups rfl rfl]

/-- The flags that a text holds are the characters that it is written with. -/
def Spelled (risk_flags : Str) : Prop :=
  (loads risk_flags).map (fun flags => (flags.filter filled).eraseDups) =
    some (currentFlags risk_flags).eraseDups

instance (risk_flags : Str) : Decidable (Spelled risk_flags) :=
  inferInstanceAs (Decidable (_ = _))

theorem mergedFlags_eq (risk_flags : Str) (incoming : List Str) :
    mergedFlags risk_flags incoming =
      (currentFlags risk_flags ++ incoming.filter filled).eraseDups := foldl_addFlag _

theorem mergedFlags_filled (risk_flags : Str) (incoming : List Str) :
    (mergedFlags risk_flags incoming).filter filled = mergedFlags risk_flags incoming := by
  rw [List.filter_eq_self, mergedFlags_eq]
  intro item hitem
  rcases List.mem_append.mp (List.mem_eraseDups.mp hitem) with hread | hread
  · exact (List.mem_filter.mp hread).2
  · exact (List.mem_filter.mp hread).2

theorem mergedFlags_distinct (risk_flags : Str) (incoming : List Str) :
    (mergedFlags risk_flags incoming).eraseDups = mergedFlags risk_flags incoming := by
  have h := eraseDups_left (currentFlags risk_flags ++ incoming.filter filled) []
  rw [List.append_nil, List.append_nil] at h
  rw [mergedFlags_eq, h]

/-- Where the characters are the flags a merge adds what is new. -/
theorem mergedFlags_spelled {risk_flags : Str} (h : Spelled risk_flags) {known : List Str}
    (hknown : (loads risk_flags).map (fun flags => (flags.filter filled).eraseDups) =
      some known.eraseDups) (incoming : List Str) :
    mergedFlags risk_flags incoming = (known ++ incoming.filter filled).eraseDups := by
  have hread : (currentFlags risk_flags).eraseDups = known.eraseDups :=
    Option.some.inj (h.symm.trans hknown)
  rw [mergedFlags_eq, ← eraseDups_left, hread, eraseDups_left]

theorem mergedFlags_repeated (risk_flags : Str) (incoming : List Str)
    (h : Spelled (dumps (mergedFlags risk_flags incoming))) :
    mergedFlags (dumps (mergedFlags risk_flags incoming)) incoming =
      mergedFlags risk_flags incoming := by
  have hknown : (loads (dumps (mergedFlags risk_flags incoming))).map
      (fun flags => (flags.filter filled).eraseDups) =
        some (mergedFlags risk_flags incoming).eraseDups := by
    rw [loads_dumps, Option.map_some, mergedFlags_filled]
  rw [mergedFlags_spelled h hknown, eraseDups_absorb, mergedFlags_distinct]
  intro item hitem
  rw [mergedFlags_eq, List.mem_eraseDups]
  exact List.mem_append_right _ hitem

/-- A list's text begins with its bracket. -/
theorem dumps_cons (flags : List Str) : ∃ text, dumps flags = '[' :: text := by
  cases flags with
  | nil => exact ⟨_, rfl⟩
  | cons flag flags => exact ⟨_, rfl⟩

theorem bracket_mem (flags incoming : List Str) : ['['] ∈ mergedFlags (dumps flags) incoming := by
  obtain ⟨text, htext⟩ := dumps_cons flags
  rw [mergedFlags_eq, List.mem_eraseDups, htext]
  refine List.mem_append_left _ (List.mem_filter.mpr ⟨?_, by decide⟩)
  exact List.mem_map_of_mem List.mem_cons_self

theorem mem_strip {c : Char} {s : Str} (h : c ∈ strip s) : c ∈ s :=
  (List.dropWhile_suffix isSpace).subset ((List.rdropWhile_prefix isSpace _).subset h)

theorem listed_strip (provenance : Str) : listed (strip provenance) = listed provenance := by
  unfold listed
  rw [filled_strip, strip_strip]

theorem listed_single {provenance : Str} (h : '|' ∉ provenance) :
    listed provenance = if filled provenance then [strip provenance] else [] := by
  unfold listed
  rw [List.splitOn_eq_singleton fun hmem => h (mem_strip hmem)]

/-- Neither end of a joined text is the separator or a blank. -/
theorem joined_ends {current provenance : Str} (hp : '|' ∉ provenance) (hcur : [] ∉ listed current)
    (hfilled : filled current = true) (hnew : filled provenance = true) :
    (∀ a ∈ (strip current ++ '|' :: strip provenance).head?, isSpace a = false ∧ a ≠ '|') ∧
      ∀ a ∈ (strip current ++ '|' :: strip provenance).getLast?, isSpace a = false ∧ a ≠ '|' := by
  have hfront := (trim_ends isSpace current).1
  have hback := (trim_ends isSpace provenance).2
  have hlast : (strip current ++ '|' :: strip provenance).getLast? = (strip provenance).getLast? := by
    rw [← List.singleton_append, ← List.append_assoc,
      List.getLast?_append_of_ne_nil _ ((filled_iff provenance).mp hnew)]
  have hhead : (strip current ++ '|' :: strip provenance).head? = (strip current).head? :=
    List.head?_append_of_ne_nil _ ((filled_iff current).mp hfilled)
  rw [hhead, hlast]
  refine ⟨fun a ha => ⟨hfront a ha, ?_⟩, fun a ha => ⟨hback a ha, ?_⟩⟩
  · -- a text that began with the separator would list the empty text
    rintro rfl
    obtain ⟨rest, hrest⟩ := List.head?_eq_some_iff.mp ha
    apply hcur
    unfold listed
    rw [if_pos hfilled, hrest]
    have hsplit := List.splitOn_append_cons_self (a := '|') [] rest
    rw [List.nil_append] at hsplit
    rw [hsplit]
    exact List.mem_append_left _ (List.mem_singleton.mpr rfl)
  · rintro rfl
    exact hp (mem_strip (List.mem_of_getLast? ha))

/-- A text that is listed does not contain the separator. -/
theorem not_mem_of_mem_splitOn {s part : Str} (h : part ∈ s.splitOn '|') : '|' ∉ part := by
  induction s generalizing part with
  | nil =>
    rw [List.mem_singleton.mp h]
    exact List.not_mem_nil
  | cons c s ih =>
    rw [List.splitOn_cons_eq_if_modifyHead] at h
    split_ifs at h with hc
    · rcases List.mem_cons.mp h with rfl | hrest
      · exact List.not_mem_nil
      · exact ih hrest
    · cases hsplit : s.splitOn '|' with
      | nil => exact absurd hsplit (List.splitOn_ne_nil _ _)
      | cons first rest =>
        rw [hsplit, List.modifyHead_cons] at h
        rcases List.mem_cons.mp h with rfl | hrest
        · have hfirst := ih (hsplit ▸ List.mem_cons_self)
          rintro (_ | ⟨_, hin⟩)
          · exact hc (beq_self_eq_true '|')
          · exact hfirst hin
        · exact ih (hsplit ▸ List.mem_cons_of_mem _ hrest)

theorem mem_listed {provenance part : Str} (h : part ∈ listed provenance) : '|' ∉ part := by
  unfold listed at h
  split_ifs at h
  · exact not_mem_of_mem_splitOn h
  · exact absurd h List.not_mem_nil

theorem mergedProvenance_cases {current provenance : Str} (hp : '|' ∉ provenance)
    (hcur : [] ∉ listed current) :
    strip (mergedProvenance current provenance) = mergedProvenance current provenance ∧
      listed (mergedProvenance current provenance) =
        if filled provenance ∧ strip provenance ∉ listed current then
          listed current ++ [strip provenance] else listed current := by
  have hsingle := listed_single hp
  unfold mergedProvenance
  dsimp only
  by_cases hfilled : filled current = true
  · have hlisted : listed current = (strip current).splitOn '|' := if_pos hfilled
    rw [if_pos hfilled, ← hlisted]
    by_cases hnew : filled provenance = true ∧ strip provenance ∉ listed current
    · obtain ⟨hhead, hlast⟩ := joined_ends hp hcur hfilled hnew.1
      have hpiped : trim (fun c => decide (c = '|')) (strip current ++ '|' :: strip provenance) =
          strip current ++ '|' :: strip provenance :=
        trim_self (fun a ha => decide_eq_false (hhead a ha).2)
          (fun a ha => decide_eq_false (hlast a ha).2)
      have hstripped : strip (strip current ++ '|' :: strip provenance) =
          strip current ++ '|' :: strip provenance :=
        trim_self (fun a ha => (hhead a ha).1) (fun a ha => (hlast a ha).1)
      rw [if_pos hnew, if_pos hnew, hpiped]
      refine ⟨hstripped, ?_⟩
      have hwhole : filled (strip current ++ '|' :: strip provenance) = true := by
        rw [filled_iff, hstripped]
        exact List.append_ne_nil_of_right_ne_nil _ (List.cons_ne_nil _ _)
      unfold listed
      rw [if_pos hwhole, if_pos hfilled, hstripped, List.splitOn_append_cons_self,
        List.splitOn_eq_singleton fun hmem => hp (mem_strip hmem)]
    · rw [if_neg hnew, if_neg hnew]
      exact ⟨strip_strip current, listed_strip current⟩
  · have hnone : listed current = [] := if_neg hfilled
    have hself : ¬(filled provenance = true ∧
        strip provenance ∉ (strip provenance).splitOn '|') := by
      rintro ⟨-, hnot⟩
      rw [List.splitOn_eq_singleton fun hmem => hp (mem_strip hmem)] at hnot
      exact hnot (List.mem_singleton.mpr rfl)
    rw [if_neg hfilled, if_neg hself, listed_strip, hsingle, hnone]
    refine ⟨strip_strip provenance, ?_⟩
    refine if_congr ?_ rfl rfl
    exact ⟨fun h => ⟨h, List.not_mem_nil⟩, fun h => h.1⟩

theorem mergedProvenance_repeated {current provenance : Str} (hp : '|' ∉ provenance)
    (hcur : [] ∉ listed current) :
    mergedProvenance (mergedProvenance current provenance) provenance =
      mergedProvenance current provenance := by
  obtain ⟨hstrip, hlisted⟩ := mergedProvenance_cases hp hcur
  have hmem : filled provenance = true →
      strip provenance ∈ listed (mergedProvenance current provenance) := by
    intro hfilled
    rw [hlisted]
    split_ifs with hnew
    · exact List.mem_append_right _ (List.mem_singleton.mpr rfl)
    · by_contra hnot
      exact hnew ⟨hfilled, hnot⟩
  generalize mergedProvenance current provenance = merged at hstrip hlisted hmem ⊢
  unfold listed at hmem
  unfold mergedProvenance
  dsimp only
  by_cases hfilled : filled merged = true
  · rw [if_pos hfilled] at hmem ⊢
    rw [if_neg (fun h => h.2 (hmem h.1)), hstrip]
  · rw [if_neg hfilled] at hmem ⊢
    have hblank : ¬filled provenance = true := fun h => absurd (hmem h) List.not_mem_nil
    rw [if_neg (fun h => hblank h.1)]
    have hnil : strip provenance = [] := by
      by_contra hne
      exact hblank ((filled_iff provenance).mpr hne)
    have hmerged : strip merged = [] := by
      by_contra hne
      exact hfilled ((filled_iff merged).mpr hne)
    rw [hnil, ← hstrip, hmerged]

/-- A rationale neither begins nor ends with the separator. -/
def Unpiped (rationale : Str) : Prop :=
  (∀ a ∈ (strip rationale).head?, a ≠ '|') ∧ ∀ a ∈ (strip rationale).getLast?, a ≠ '|'

theorem mergedRationale_cases {current rationale : Str} (h : Unpiped rationale)
    (hcur : ∀ a ∈ (strip current).head?, a ≠ '|') :
    strip (mergedRationale current rationale) = mergedRationale current rationale ∧
      (∀ a ∈ (mergedRationale current rationale).head?, a ≠ '|') ∧
      strip rationale <:+: mergedRationale current rationale := by
  have hfront := trim_ends isSpace current
  have hback := trim_ends isSpace rationale
  have hplain {a : Char} (hspace : isSpace a = false) (hpipe : a ≠ '|') :
      decide (a = ' ' ∨ a = '|') = false := by
    apply decide_eq_false
    rintro (rfl | hbar)
    · exact absurd hspace (by decide)
    · exact hpipe hbar
  unfold mergedRationale
  dsimp only
  split_ifs with hnew
  · have hlast : (strip current ++ ' ' :: '|' :: ' ' :: strip rationale).getLast? =
        (strip rationale).getLast? := by
      rw [show strip current ++ ' ' :: '|' :: ' ' :: strip rationale =
        (strip current ++ [' ', '|', ' ']) ++ strip rationale by simp,
        List.getLast?_append_of_ne_nil _ hnew.1]
    -- without a rationale so far the separator is trimmed away again
    by_cases hnil : strip current = []
    · have hone : trim (fun c => decide (c = ' ' ∨ c = '|'))
          ([' ', '|', ' '] ++ (strip rationale ++ [])) = strip rationale :=
        EdgeLink.Substring.trim_around (by simp) nofun
          (fun a ha => hplain (hback.1 a ha) (h.1 a ha))
          (fun a ha => hplain (hback.2 a ha) (h.2 a ha))
      rw [List.append_nil, List.cons_append, List.cons_append, List.cons_append,
        List.nil_append] at hone
      rw [hnil, List.nil_append, hone]
      exact ⟨strip_strip rationale, h.1, List.infix_rfl⟩
    · have hhead : (strip current ++ ' ' :: '|' :: ' ' :: strip rationale).head? =
          (strip current).head? := List.head?_append_of_ne_nil _ hnil
      have hkept : trim (fun c => decide (c = ' ' ∨ c = '|'))
          (strip current ++ ' ' :: '|' :: ' ' :: strip rationale) =
          strip current ++ ' ' :: '|' :: ' ' :: strip rationale := by
        apply trim_self
        · rw [hhead]
          exact fun a ha => hplain (hfront.1 a ha) (hcur a ha)
        · rw [hlast]
          exact fun a ha => hplain (hback.2 a ha) (h.2 a ha)
      rw [hkept, hhead]
      refine ⟨?_, hcur, ?_⟩
      · apply trim_self
        · rw [hhead]
          exact hfront.1
        · rw [hlast]
          exact hback.2
      · exact ⟨strip current ++ [' ', '|', ' '], [], by simp⟩
  · refine ⟨strip_strip current, hcur, ?_⟩
    by_cases hnil : strip rationale = []
    · rw [hnil]
      exact List.nil_infix
    · by_contra hnot
      exact hnew ⟨hnil, hnot⟩

theorem mergedRationale_repeated {current rationale : Str} (h : Unpiped rationale)
    (hcur : ∀ a ∈ (strip current).head?, a ≠ '|') :
    mergedRationale (mergedRationale current rationale) rationale =
      mergedRationale current rationale := by
  obtain ⟨hstrip, -, hinfix⟩ := mergedRationale_cases h hcur
  generalize mergedRationale current rationale = merged at hstrip hinfix ⊢
  unfold mergedRationale
  dsimp only
  rw [hstrip, if_neg (fun hnew => hnew.2 hinfix)]

section
variable {R : Type} (created : ℕ) (record : MemoryCandidateRecord R)

theorem flagsOf_concat (es : List (ℕ × Merge R)) (e : ℕ × Merge R) :
    flagsOf record (es ++ [e]) = flagsOf record es ++ e.2.riskFlags.filter filled := by
  unfold flagsOf
  rw [List.flatMap_append, List.flatMap_singleton, ← List.append_assoc, List.filter_append]

theorem provenancesOf_concat (es : List (ℕ × Merge R)) (e : ℕ × Merge R) :
    provenancesOf record (es ++ [e]) =
      provenancesOf record es ++ if filled e.2.provenance then [strip e.2.provenance] else [] := by
  unfold provenancesOf
  rw [List.map_append, ← List.cons_append, List.filter_append, List.map_append]
  rw [List.map_singleton, filled_single]

theorem contentsOf_concat (es : List (ℕ × Merge R)) (e : ℕ × Merge R) :
    contentsOf record (es ++ [e]) =
      contentsOf record es ++ if filled e.2.content then [strip e.2.content] else [] := by
  unfold contentsOf
  rw [List.map_append, ← List.cons_append, List.filter_append, List.map_append]
  rw [List.map_singleton, filled_single]

theorem provenancesOf_filled (es : List (ℕ × Merge R)) : [] ∉ provenancesOf record es := by
  intro hmem
  obtain ⟨p, hp, hnil⟩ := List.mem_map.mp hmem
  exact (filled_iff p).mp (List.mem_filter.mp hp).2 hnil

variable [LinearOrder R]

theorem merged_content (es : List (ℕ × Merge R)) :
    strip (merged created record es).content = (contentsOf record es).getLast?.getD [] := by
  induction es using List.reverseRecOn with
  | nil =>
    change strip record.content = (contentsOf record []).getLast?.getD []
    unfold contentsOf
    rw [List.map_nil, filled_single]
    split_ifs with hfilled
    · rfl
    · by_contra hne
      exact hfilled ((filled_iff _).mpr hne)
  | append_singleton es e ih =>
    rw [merged_concat, contentsOf_concat]
    change strip (mergedContent _ _) = _
    rw [mergedContent_strip]
    split_ifs with hfilled
    · rw [strip_strip, List.getLast?_concat, Option.getD_some]
    · rw [strip_strip, List.append_nil]
      exact ih

/-- A score that grows to the greater one is the greatest of all. -/
theorem greatest_concat {a x y : R} {l : List R} (h : IsGreatest {z | z ∈ a :: l} x) :
    IsGreatest {z | z ∈ a :: (l ++ [y])} (max x y) := by
  have hset : {z | z ∈ a :: (l ++ [y])} = insert y {z | z ∈ a :: l} := by
    ext z
    simp only [Set.mem_ofPred_eq, Set.mem_insert_iff, List.mem_cons, List.mem_append, List.not_mem_nil,
      or_false]
    tauto
  rw [hset, max_comm]
  exact h.insert y

theorem merged_riskScore (es : List (ℕ × Merge R)) :
    IsGreatest {x | x ∈ record.riskScore :: es.map fun e => e.2.riskScore}
      (merged created record es).riskScore := by
  induction es using List.reverseRecOn with
  | nil => exact ⟨List.mem_cons_self, fun x hx => (List.mem_singleton.mp hx).le⟩
  | append_singleton es e ih =>
    rw [merged_concat, List.map_append]
    exact greatest_concat ih

theorem merged_confidence (es : List (ℕ × Merge R)) :
    IsGreatest {x | x ∈ record.confidence :: es.map fun e => e.2.confidence}
      (merged created record es).confidence := by
  induction es using List.reverseRecOn with
  | nil => exact ⟨List.mem_cons_self, fun x hx => (List.mem_singleton.mp hx).le⟩
  | append_singleton es e ih =>
    rw [merged_concat, List.map_append]
    exact greatest_concat ih

/-- The merge finds flags that are the characters of their text, and it brings no text with the
separator where that would be taken for one. -/
def Clear (current : Candidate R) (e : ℕ × Merge R) : Prop :=
  Spelled current.riskFlags ∧ '|' ∉ e.2.provenance ∧ Unpiped e.2.rationale

def RecordClear (record : MemoryCandidateRecord R) : Prop :=
  '|' ∉ record.provenance ∧ ∀ a ∈ (strip record.rationale).head?, a ≠ '|'

/-- What clear merges keep. -/
structure Held (es : List (ℕ × Merge R)) : Prop where
  flags : (loads (merged created record es).riskFlags).map
    (fun flags => (flags.filter filled).eraseDups) = some (flagsOf record es).eraseDups
  provenance : listed (merged created record es).provenance = (provenancesOf record es).eraseDups
  rationale : ∀ a ∈ (strip (merged created record es).rationale).head?, a ≠ '|'

theorem Held.unlisted {es : List (ℕ × Merge R)} (h : Held created record es) :
    [] ∉ listed (merged created record es).provenance := by
  rw [h.provenance, List.mem_eraseDups]
  exact provenancesOf_filled record es

theorem held_nil (h : RecordClear record) : Held created record [] := by
  refine ⟨?_, ?_, h.2⟩
  · change (loads (dumps (record.riskFlags.getD []))).map _ = _
    unfold flagsOf
    rw [loads_dumps, Option.map_some, List.flatMap_nil, List.append_nil]
  · change listed record.provenance = _
    unfold provenancesOf
    rw [listed_single h.1, List.map_nil, filled_single]
    split_ifs <;> rfl

theorem Held.flags_concat {es : List (ℕ × Merge R)} (h : Held created record es) {e : ℕ × Merge R}
    (hclear : Clear (merged created record es) e) :
    mergedFlags (merged created record es).riskFlags e.2.riskFlags =
      (flagsOf record (es ++ [e])).eraseDups := by
  rw [flagsOf_concat]
  exact mergedFlags_spelled hclear.1 h.flags e.2.riskFlags

theorem Held.concat {es : List (ℕ × Merge R)} (h : Held created record es) {e : ℕ × Merge R}
    (hclear : Clear (merged created record es) e) : Held created record (es ++ [e]) := by
  have hflags := h.flags_concat created record hclear
  obtain ⟨-, hpiped, hrationale⟩ := hclear
  refine ⟨?_, ?_, ?_⟩
  · rw [merged_concat]
    change (loads (dumps (mergedFlags (merged created record es).riskFlags e.2.riskFlags))).map _ = _
    rw [loads_dumps, Option.map_some, mergedFlags_filled, mergedFlags_distinct, hflags]
  · rw [merged_concat, provenancesOf_concat]
    change listed (mergedProvenance _ _) = _
    rw [(mergedProvenance_cases hpiped (h.unlisted created record)).2, h.provenance]
    by_cases hfilled : filled e.2.provenance = true
    · rw [if_pos hfilled, eraseDups_concat]
      by_cases hmem : strip e.2.provenance ∈ provenancesOf record es
      · rw [if_pos hmem, if_neg (fun hnew => hnew.2 (List.mem_eraseDups.mpr hmem))]
      · rw [if_neg hmem, if_pos ⟨hfilled, fun hin => hmem (List.mem_eraseDups.mp hin)⟩]
    · rw [if_neg hfilled, if_neg (fun hnew => hfilled hnew.1), List.append_nil]
  · rw [merged_concat]
    change ∀ a ∈ (strip (mergedRationale _ _)).head?, a ≠ '|'
    obtain ⟨hstrip, hhead, -⟩ := mergedRationale_cases hrationale h.rationale
    rw [hstrip]
    exact hhead

theorem held_of_clear (hrecord : RecordClear record) {es : List (ℕ × Merge R)}
    (h : Always step Clear (createMemoryCandidate created record) es) : Held created record es := by
  induction es using List.reverseRecOn with
  | nil => exact held_nil created record hrecord
  | append_singleton es e ih =>
    obtain ⟨hes, he, -⟩ := (always_append _ _ _ _ _).mp h
    exact (ih hes).concat created record he

/-- The second of two merges with the same values finds everything there. -/
theorem merge_repeated {es : List (ℕ × Merge R)} (h : Held created record es) {t t' : ℕ}
    {m : Merge R} (hclear : Clear (merged created record es) (t, m))
    (hagain : Clear (merged created record (es ++ [(t, m)])) (t', m)) :
    merged created record (es ++ [(t, m), (t', m)]) =
      { merged created record (es ++ [(t, m)]) with updatedAt := t' } := by
  rw [show es ++ [(t, m), (t', m)] = (es ++ [(t, m)]) ++ [(t', m)] by simp, merged_concat]
  rw [merged_concat] at hagain ⊢
  obtain ⟨-, hpiped, hrationale⟩ := hclear
  have hcontent : mergedContent (mergedContent (merged created record es).content m.content) m.content =
      mergedContent (merged created record es).content m.content := by
    simp only [mergedContent_strip]
    split_ifs
    · rfl
    · exact strip_strip _
  unfold mergeMemoryCandidate
  dsimp only
  rw [hcontent, mergedRationale_repeated hrationale h.rationale, max_assoc, max_self,
    mergedProvenance_repeated hpiped (h.unlisted created record), max_assoc, max_self,
    mergedFlags_repeated _ _ hagain.1]

theorem merged_text (es : List (ℕ × Merge R)) :
    ∃ flags, (merged created record es).riskFlags = dumps flags := by
  induction es using List.reverseRecOn with
  | nil => exact ⟨_, rfl⟩
  | append_singleton es e _ =>
    rw [merged_concat]
    exact ⟨_, rfl⟩

/-- Clear merges accumulate. None does whose flags are without the bracket, or whose provenances hold
the separator. -/
theorem merges_accumulate {es : List (ℕ × Merge R)} (hne : es ≠ []) :
    (RecordClear record → Always step Clear (createMemoryCandidate created record) es →
      Accumulated created record es) ∧
    (['['] ∉ flagsOf record es → ¬Accumulated created record es) ∧
    ((∃ provenance ∈ provenancesOf record es, '|' ∈ provenance) → ¬Accumulated created record es) := by
  obtain rfl | ⟨before, e, hes⟩ := List.eq_nil_or_concat es
  · exact absurd rfl hne
  rw [List.concat_eq_append] at hes
  subst hes
  refine ⟨?_, ?_, ?_⟩
  · intro hrecord hclear
    obtain ⟨hbefore, he, -⟩ := (always_append _ _ _ _ _).mp hclear
    have hheld := held_of_clear created record hrecord hbefore
    have hafter := hheld.concat created record he
    refine ⟨?_, merged_riskScore created record _, merged_confidence created record _,
      hafter.provenance, merged_content created record _, ?_⟩
    · rw [merged_concat, ← hheld.flags_concat created record he]
      exact loads_dumps _
    · intro early t t' m hes
      rw [hes] at hclear ⊢
      obtain ⟨hearly, hfirst, hsecond, -⟩ := (always_append _ _ _ _ _).mp hclear
      have hrow : merged created record (early ++ [(t, m)]) =
          (step (merged created record early) (t, m)).1 := merged_concat created record early (t, m)
      exact merge_repeated created record (held_of_clear created record hrecord hearly) hfirst
        (hrow ▸ hsecond)
  · intro hbracket haccumulated
    have hflags := haccumulated.flags
    obtain ⟨flags, htext⟩ := merged_text created record before
    rw [merged_concat] at hflags
    change loads (dumps (mergedFlags (merged created record before).riskFlags e.2.riskFlags)) = _
      at hflags
    rw [loads_dumps, htext] at hflags
    have hmem := bracket_mem flags e.2.riskFlags
    rw [Option.some.inj hflags, List.mem_eraseDups] at hmem
    exact hbracket hmem
  · rintro ⟨provenance, hmem, hpipe⟩ haccumulated
    rw [← List.mem_eraseDups, ← haccumulated.provenance] at hmem
    exact mem_listed hmem hpipe

end

/-- A candidate whose flags are the five characters that a list of them is written with. -/
def bracketRecord : MemoryCandidateRecord ℕ where
  sessionId := ['s']
  content := ['c']
  rationale := ['r']
  confidence := 6
  provenance := ['u']
  riskScore := 2
  riskFlags := some [['['], ['\x22'], [','], ['\x5c'], [']']]

def sampleMerge (flag : Char) : Merge ℕ :=
  ⟨['s'], ['d'], ['q'], 5, ['v'], 3, [[flag]]⟩

theorem sampleMerge_unpiped (flag : Char) : Unpiped (sampleMerge flag).rationale := by
  have hstrip : strip ['q'] = ['q'] := by decide +kernel
  change Unpiped ['q']
  unfold Unpiped
  rw [hstrip]
  simp

theorem bracketRecord_clear : RecordClear bracketRecord := by
  have hstrip : strip bracketRecord.rationale = ['r'] := by decide +kernel
  unfold RecordClear
  rw [hstrip]
  exact ⟨by decide, by simp⟩

theorem merges_accumulate_bracket :
    Accumulated 0 bracketRecord [(1, sampleMerge 'a'), (2, sampleMerge 'a'), (3, sampleMerge 'b')] :=
  (merges_accumulate 0 bracketRecord (List.cons_ne_nil _ _)).1 bracketRecord_clear
    ⟨⟨by decide +kernel, by decide, sampleMerge_unpiped 'a'⟩,
      ⟨by decide +kernel, by decide, sampleMerge_unpiped 'a'⟩,
      ⟨by decide +kernel, by decide, sampleMerge_unpiped 'b'⟩, trivial⟩

def plainRecord : MemoryCandidateRecord ℕ :=
  { bracketRecord with riskFlags := some [['l', 'o', 'w']] }

/-- The flag of a candidate is not found again after one merge. -/
theorem flags_misread :
    ¬∀ (created : ℕ) (record : MemoryCandidateRecord ℕ) (es : List (ℕ × Merge ℕ)), es ≠ [] →
      Accumulated created record es := by
  intro h
  have hflags := (h 0 plainRecord [(1, { sampleMerge 'a' with riskFlags := [] })]
    (List.cons_ne_nil _ _)).flags
  exact absurd hflags (by decide +kernel)

end EdgeLink.MemoryMerge
