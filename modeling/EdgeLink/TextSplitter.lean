import EdgeLink.MemoryMerge
import EdgeLink.Windows

namespace EdgeLink.TextSplitter
open PyText (Str isSpace strip strip_strip)
open Windows

section Split
variable (text : Str) (chunk_size overlap : ℕ)

/-- The loop of `split_text`; `start` moves on by at least one, whatever the overlap is. -/
def splitLoop (start : ℕ) : List Str :=
  if start < text.length then
    let stop := min text.length (start + chunk_size)
    text.extract start stop ::
      if text.length ≤ stop then [] else splitLoop (max (stop - overlap) (start + 1))
  else []
termination_by text.length - start

def splitText : List Str :=
  let text := strip text
  if text = [] then [] else splitLoop text chunk_size overlap 0

def splitLoopWithOffsets (start : ℕ) : List (Str × Window) :=
  if start < text.length then
    let stop := min text.length (start + chunk_size)
    (text.extract start stop, ⟨start, stop⟩) ::
      if text.length ≤ stop then [] else splitLoopWithOffsets (max (stop - overlap) (start + 1))
  else []
termination_by text.length - start

def splitTextWithOffsets : List (Str × Window) :=
  let text := strip text
  if text = [] then [] else splitLoopWithOffsets text chunk_size overlap 0

end Split

/-- Where `str.splitlines` ends a line. -/
def isLineEnd (c : Char) : Bool :=
  let n := c.toNat
  (10 ≤ n && n ≤ 13) || (28 ≤ n && n ≤ 30) || n = 0x85 || n = 0x2028 || n = 0x2029

/-- `line` is what has been read of the line so far. -/
def splitlines (line : Str) : Str → List Str
  | [] => if line = [] then [] else [line]
  | '\r' :: '\n' :: text => line :: splitlines [] text
  | c :: text => if isLineEnd c then line :: splitlines [] text else splitlines (line ++ [c]) text

def rstrip (s : Str) : Str := s.rdropWhile isSpace

structure Section where
  section_title : Str
  content : Str
  deriving DecidableEq

def closeSection (title : Str) (buf : List Str) : Section := ⟨title, strip (['\n'].intercalate buf)⟩

def headingTitle (stripped : Str) : Str :=
  let title := strip (stripped.dropWhile (· = '#'))
  if title = [] then "未命名章节".toList else title

def sectionsLoop (current_title : Str) (buf : List Str) : List Str → List Section
  | [] => if buf = [] then [] else [closeSection current_title buf]
  | line :: lines =>
    let stripped := strip line
    if stripped.head? = some '#' then
      if buf = [] then sectionsLoop (headingTitle stripped) [line] lines
      else closeSection current_title buf :: sectionsLoop (headingTitle stripped) [line] lines
    else sectionsLoop current_title (buf ++ [line]) lines

def sections (text : Str) : List Section :=
  sectionsLoop "文档开头".toList [] ((splitlines [] text).map rstrip)

structure ChunkItem where
  chunk_text : Str
  section_title : Str
  section_index : ℕ
  chunk_index_in_section : ℕ
  start_offset : ℕ
  end_offset : ℕ
  deriving DecidableEq

section Items
variable (chunk_size overlap : ℕ)

/-- The chunks of a section take the numbers from `chunk_seq` on. -/
def numberItems (s : Section) (section_index : ℕ) (chunk_seq : ℕ) : List (Str × Window) → List ChunkItem
  | [] => []
  | (chunk_text, w) :: chunks =>
    ⟨chunk_text, s.section_title, section_index, chunk_seq, w.start, w.stop⟩ ::
      numberItems s section_index (chunk_seq + 1) chunks

def sectionItems (s : Section) (section_index chunk_seq : ℕ) : List ChunkItem :=
  let content := strip s.content
  if content = [] then []
  else numberItems s section_index chunk_seq (splitTextWithOffsets content chunk_size overlap)

/-- The numbers run on from section to section. -/
def itemsLoop (section_index chunk_seq : ℕ) : List Section → List ChunkItem
  | [] => []
  | s :: rest =>
    let items := sectionItems chunk_size overlap s section_index chunk_seq
    items ++ itemsLoop (section_index + 1) (chunk_seq + items.length) rest

def splitMarkdownSections (text : Str) : List ChunkItem :=
  itemsLoop chunk_size overlap 0 0 (sections text)

end Items

section Split
variable {text : Str} {chunk_size overlap : ℕ}

theorem splitLoop_offsets (start : ℕ) : splitLoop text chunk_size overlap start =
    (splitLoopWithOffsets text chunk_size overlap start).map Prod.fst := by
  induction hn : text.length - start using Nat.strong_induction_on generalizing start with
  | _ n ih =>
    rw [splitLoop, splitLoopWithOffsets]
    by_cases hmore : start < text.length
    · rw [if_pos hmore, if_pos hmore]
      dsimp only
      rw [List.map_cons]
      congr 1
      split_ifs
      · rfl
      · exact ih _ (by omega) _ rfl
    · rw [if_neg hmore, if_neg hmore]
      rfl

theorem splitText_offsets : splitText text chunk_size overlap =
    (splitTextWithOffsets text chunk_size overlap).map Prod.fst := by
  unfold splitText splitTextWithOffsets
  dsimp only
  split_ifs
  · rfl
  · exact splitLoop_offsets 0

/-- A chunk is what its offsets say. -/
theorem splitLoop_extract (start : ℕ) : ∀ c ∈ splitLoopWithOffsets text chunk_size overlap start,
    c.1 = text.extract c.2.start c.2.stop := by
  induction hn : text.length - start using Nat.strong_induction_on generalizing start with
  | _ n ih =>
    rw [splitLoopWithOffsets]
    by_cases hmore : start < text.length
    · rw [if_pos hmore]
      refine List.forall_mem_cons.mpr ⟨rfl, ?_⟩
      split_ifs
      · exact fun c hc => by cases hc
      · exact ih _ (by omega) _ rfl
    · rw [if_neg hmore]
      exact fun c hc => by cases hc

theorem splitLoop_run (hsize : 1 ≤ chunk_size) {start : ℕ} (hstart : start < text.length) :
    Run text.length chunk_size start
      ((splitLoopWithOffsets text chunk_size overlap start).map Prod.snd) := by
  induction hn : text.length - start using Nat.strong_induction_on generalizing start with
  | _ n ih =>
    rw [splitLoopWithOffsets, if_pos hstart]
    dsimp only
    by_cases hlast : text.length ≤ start + chunk_size
    · rw [Nat.min_eq_left hlast, if_pos le_rfl]
      exact .last hstart hlast
    · rw [Nat.min_eq_right (by omega), if_neg hlast]
      -- the overlap cannot hold the next chunk back, nor can it leave a gap
      exact .next (by omega) (by omega) (by omega) (ih _ (by omega) (by omega) rfl)

/-- Chunks that are slices of the text, and together all of it. -/
structure Split (text : Str) (chunk_size : ℕ) (chunks : List (Str × Window)) : Prop where
  slices : ∀ c ∈ chunks, c.1 = text.extract c.2.start c.2.stop
  cover : Cover text.length chunk_size (chunks.map Prod.snd)

theorem splitTextWithOffsets_split (text : Str) (hsize : 1 ≤ chunk_size) :
    Split (strip text) chunk_size (splitTextWithOffsets text chunk_size overlap) := by
  unfold splitTextWithOffsets
  dsimp only
  by_cases hempty : strip text = []
  · rw [if_pos hempty, hempty]
    exact ⟨nofun, Cover.nil chunk_size⟩
  · rw [if_neg hempty]
    have hpos : 0 < (strip text).length := List.length_pos_iff.mpr hempty
    exact ⟨splitLoop_extract 0, (splitLoop_run hsize hpos).cover hsize⟩

end Split

/-- Every line is in one section. -/
theorem sectionsLoop_lines (title : Str) (buf lines : List Str) : ∃ groups : List (List Str),
    groups.flatten = buf ++ lines ∧ (∀ group ∈ groups, group ≠ []) ∧
      (sectionsLoop title buf lines).map Section.content =
        groups.map fun group => strip (['\n'].intercalate group) := by
  induction lines generalizing title buf with
  | nil =>
    rw [sectionsLoop]
    by_cases hbuf : buf = []
    · exact ⟨[], by rw [hbuf]; rfl, nofun, by rw [if_pos hbuf]; rfl⟩
    · refine ⟨[buf], by simp, ?_, by rw [if_neg hbuf]; rfl⟩
      exact List.forall_mem_singleton.mpr hbuf
  | cons line lines ih =>
    rw [sectionsLoop]
    by_cases hheading : (strip line).head? = some '#'
    · obtain ⟨groups, hlines, hne, hcontents⟩ := ih (headingTitle (strip line)) [line]
      rw [if_pos hheading]
      by_cases hbuf : buf = []
      · rw [if_pos hbuf, hbuf]
        exact ⟨groups, hlines, hne, hcontents⟩
      · rw [if_neg hbuf]
        refine ⟨buf :: groups, ?_, List.forall_mem_cons.mpr ⟨hbuf, hne⟩, ?_⟩
        · rw [List.flatten_cons, hlines]
          rfl
        · rw [List.map_cons, List.map_cons, hcontents]
          rfl
    · obtain ⟨groups, hlines, hne, hcontents⟩ := ih title (buf ++ [line])
      rw [if_neg hheading]
      exact ⟨groups, by rw [hlines, List.append_assoc]; rfl, hne, hcontents⟩

def ChunkItem.chunk (item : ChunkItem) : Str × Window :=
  (item.chunk_text, ⟨item.start_offset, item.end_offset⟩)

section Items
variable {chunk_size overlap : ℕ}

theorem numberItems_chunks (s : Section) (section_index chunk_seq : ℕ) (chunks : List (Str × Window)) :
    (numberItems s section_index chunk_seq chunks).map ChunkItem.chunk = chunks := by
  induction chunks generalizing chunk_seq with
  | nil => rfl
  | cons c chunks ih => exact congrArg (c :: ·) (ih (chunk_seq + 1))

theorem numberItems_mem {s : Section} {section_index chunk_seq : ℕ} {chunks : List (Str × Window)}
    {item : ChunkItem} (h : item ∈ numberItems s section_index chunk_seq chunks) :
    item.section_index = section_index ∧ item.section_title = s.section_title := by
  induction chunks generalizing chunk_seq with
  | nil => cases h
  | cons c chunks ih =>
    rcases List.mem_cons.mp h with rfl | h
    · exact ⟨rfl, rfl⟩
    · exact ih h

/-- The content is stripped again and again, to no effect. -/
theorem sectionItems_chunks (s : Section) (section_index chunk_seq : ℕ) :
    (sectionItems chunk_size overlap s section_index chunk_seq).map ChunkItem.chunk =
      splitTextWithOffsets s.content chunk_size overlap := by
  unfold sectionItems
  dsimp only
  split_ifs with hempty
  · unfold splitTextWithOffsets
    dsimp only
    rw [if_pos hempty]
    rfl
  · rw [numberItems_chunks]
    unfold splitTextWithOffsets
    rw [strip_strip]

theorem sectionItems_mem {s : Section} {section_index chunk_seq : ℕ} {item : ChunkItem}
    (h : item ∈ sectionItems chunk_size overlap s section_index chunk_seq) :
    item.section_index = section_index ∧ item.section_title = s.section_title := by
  unfold sectionItems at h
  dsimp only at h
  split_ifs at h
  · cases h
  · exact numberItems_mem h

theorem itemsLoop_mem {ss : List Section} {section_index chunk_seq : ℕ} {item : ChunkItem}
    (h : item ∈ itemsLoop chunk_size overlap section_index chunk_seq ss) : ∃ i s,
      ss[i]? = some s ∧ item.section_index = section_index + i ∧
        item.section_title = s.section_title := by
  induction ss generalizing section_index chunk_seq with
  | nil => cases h
  | cons s rest ih =>
    rcases List.mem_append.mp h with h | h
    · obtain ⟨hindex, htitle⟩ := sectionItems_mem h
      exact ⟨0, s, rfl, hindex, htitle⟩
    · obtain ⟨i, s', hs', hindex, htitle⟩ := ih h
      exact ⟨i + 1, s', hs', by omega, htitle⟩

/-- The items of the section with the number `i` are the chunks of its content. -/
theorem itemsLoop_filter {ss : List Section} {i : ℕ} {s : Section} (h : ss[i]? = some s)
    (section_index chunk_seq : ℕ) :
    ((itemsLoop chunk_size overlap section_index chunk_seq ss).filter fun item =>
      item.section_index = section_index + i).map ChunkItem.chunk =
        splitTextWithOffsets s.content chunk_size overlap := by
  induction ss generalizing i section_index chunk_seq with
  | nil => cases h
  | cons s₀ rest ih =>
    rw [itemsLoop]
    rw [List.filter_append]
    cases i with
    | zero =>
      obtain rfl := Option.some.inj h
      rw [Nat.add_zero]
      -- the items of the other sections have higher numbers
      rw [List.filter_eq_self.mpr fun item hitem => decide_eq_true (sectionItems_mem hitem).1,
        List.filter_eq_nil_iff.mpr, List.append_nil, sectionItems_chunks]
      intro item hitem
      obtain ⟨i, -, -, hindex, -⟩ := itemsLoop_mem hitem
      rw [decide_eq_true_eq]
      omega
    | succ i =>
      rw [List.filter_eq_nil_iff.mpr, List.nil_append]
      · have hrest := ih h (section_index + 1)
          (chunk_seq + (sectionItems chunk_size overlap s₀ section_index chunk_seq).length)
        rwa [Nat.add_assoc, Nat.add_comm 1 i] at hrest
      · intro item hitem
        rw [decide_eq_true_eq, (sectionItems_mem hitem).1]
        omega

end Items

/-- For every text, size and overlap: `splitTextWithOffsets` covers the stripped text, `splitText` is
its chunks, the sections are all the lines, and the items of every section cover its content. -/
theorem text_split (text : Str) {chunk_size : ℕ} (overlap : ℕ) (hsize : 1 ≤ chunk_size) :
    Split (strip text) chunk_size (splitTextWithOffsets text chunk_size overlap) ∧
      splitText text chunk_size overlap =
        (splitTextWithOffsets text chunk_size overlap).map Prod.fst ∧
      (∃ groups : List (List Str), groups.flatten = (splitlines [] text).map rstrip ∧
        (∀ group ∈ groups, group ≠ []) ∧
        (sections text).map Section.content =
          groups.map fun group => strip (['\n'].intercalate group)) ∧
      (∀ i s, (sections text)[i]? = some s → Split (strip s.content) chunk_size
        (((splitMarkdownSections chunk_size overlap text).filter fun item =>
          item.section_index = i).map ChunkItem.chunk)) ∧
      ∀ item ∈ splitMarkdownSections chunk_size overlap text, ∃ s,
        (sections text)[item.section_index]? = some s ∧ item.section_title = s.section_title := by
  refine ⟨splitTextWithOffsets_split text hsize, splitText_offsets, sectionsLoop_lines _ [] _,
    fun i s hs => ?_, fun item hitem => ?_⟩
  · have hitems := @itemsLoop_filter chunk_size overlap _ i s hs 0 0
    simp only [Nat.zero_add] at hitems
    unfold splitMarkdownSections
    rw [hitems]
    exact splitTextWithOffsets_split s.content hsize
  · obtain ⟨i, s, hs, hindex, htitle⟩ := itemsLoop_mem hitem
    rw [Nat.zero_add] at hindex
    rw [hindex]
    exact ⟨s, hs, htitle⟩

/-- Chunks of two characters, with an overlap of nine. -/
theorem heading_split : Split (strip "# a\nb\n# c".toList) 2
      (splitTextWithOffsets "# a\nb\n# c".toList 2 9) ∧
    ∀ i s, (sections "# a\nb\n# c".toList)[i]? = some s → Split (strip s.content) 2
      (((splitMarkdownSections 2 9 "# a\nb\n# c".toList).filter fun item =>
        item.section_index = i).map ChunkItem.chunk) := by
  obtain ⟨hall, -, -, hsections, -⟩ := text_split "# a\nb\n# c".toList 9 (by decide : 1 ≤ 2)
  exact ⟨hall, hsections⟩

end EdgeLink.TextSplitter
