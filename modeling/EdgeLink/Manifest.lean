import EdgeLink.JsonLaws
import EdgeLink.MemberSearch
import EdgeLink.RecordCodec

/-! The manifest of a firmware as the gateway writes and reads it. -/

namespace EdgeLink.Firmware

open Json Lookup Pattern

structure OtaManifest where
  firmwareId : Text
  deviceType : Text
  version : Text
  image : Text
  imageSize : UInt64
  crc32 : Text
  sha256 : Text
  entryAddr : Text
  imageVersion : UInt32
  slotSize : UInt64
  minBootloaderVersion : Text
  features : List Text
  deriving DecidableEq

def jsonString (text key : Text) : Option Text :=
  (search (member key (textValue 0)) text).map Prod.fst

/-- `std::stoull` of digits; it throws beyond 64 bits. -/
def stoull (digits : Text) : Option UInt64 :=
  let n := digits.foldl (fun n b => n * 10 + (b.toNat - 0x30)) 0
  if n < 2 ^ 64 then some (.ofNat n) else none

theorem digit_ne {b c : UInt8} (h : isDigit b = true) (hc : isDigit c = false) : b ≠ c := by
  rintro rfl
  exact absurd h (by rw [hc]; exact Bool.false_ne_true)

theorem isSpace_digit {b : UInt8} (h : isDigit b = true) : isSpace b = false := by
  have hlow := (Bool.and_eq_true_iff.mp h).1
  simp only [isSpace, decide_eq_true_eq, UInt8.le_iff_toNat_le] at hlow ⊢
  rw [Bool.or_eq_false_iff, beq_eq_false_iff_ne, Bool.and_eq_false_iff, decide_eq_false_iff_not,
    decide_eq_false_iff_not]
  refine ⟨digit_ne h (by decide), Or.inr ?_⟩
  change 48 ≤ b.toNat at hlow
  change ¬b.toNat ≤ 13
  omega

/-- On digits it is the reader of the other records. -/
theorem stoull_chars {digits : Text} (h : ∀ b ∈ digits, isDigit b = true) (hne : digits ≠ []) :
    Gateway.stoull (Gateway.chars digits) = stoull digits := by
  obtain ⟨b, s, rfl⟩ := List.exists_cons_of_ne_nil hne
  have hb : isDigit b = true := h b List.mem_cons_self
  -- neither space nor sign stands before a digit
  have hhead : (b :: s).dropWhile isSpace = b :: s :=
    List.dropWhile_cons_of_neg (by simp [isSpace_digit hb])
  have htake : (b :: s).takeWhile isDigit = b :: s := List.takeWhile_eq_self_iff.mpr h
  have hchars : Gateway.chars (b :: s) ≠ [] := List.cons_ne_nil _ _
  unfold Gateway.stoull Gateway.readNumber stoull
  rw [Gateway.dropWhile_chars Gateway.isSpace_char, hhead, Gateway.readSign_chars]
  simp only [List.head?_cons, Option.some.injEq, digit_ne hb (c := 0x2D) (by decide),
    digit_ne hb (c := 0x2B) (by decide), or_self, if_false, decide_false]
  rw [Gateway.takeWhile_chars Gateway.isDigit_char, htake, if_neg hchars, Option.bind_some,
    Gateway.ofDigitChars_chars]
  dsimp only
  generalize (b :: s).foldl (fun n b => n * 10 + (b.toNat - 0x30)) 0 = n
  by_cases hn : n < 2 ^ 64
  · rw [if_neg (Nat.not_le.mpr hn), if_pos hn]
    rfl
  · rw [if_pos (Nat.not_lt.mp hn), if_neg hn]

def jsonUint (text key : Text) : Option UInt64 :=
  (search (member key digitsValue) text).bind fun (digits, _) => stoull digits

/-- `\[(.*?)\]`; the dot takes neither a line feed nor a carriage return. -/
def arrayValue : List (Piece UInt8) :=
  [one 0x5B, ⟨fun b => b != 0x0A && b != 0x0D, 0, none, false, true⟩, one 0x5D]

def jsonStringArray (text key : Text) : List Text :=
  match search (member key arrayValue) text with
  | none => []
  | some (body, _) => searchAll (textValue 1) body.length body

def jsonEscape (t : Text) : Text :=
  t.flatMap fun b => if b = 0x5C then [0x5C, 0x5C] else if b = 0x22 then [0x5C, 0x22] else [b]

def parseManifestText (text : Text) : Except Text OtaManifest :=
  match jsonString text (ascii "firmware_id"), jsonString text (ascii "device_type"),
    jsonString text (ascii "version"), jsonString text (ascii "image"),
    jsonUint text (ascii "image_size"), jsonString text (ascii "crc32") with
  | some firmwareId, some deviceType, some version, some image, some imageSize, some crc32 =>
    .ok {
      firmwareId, deviceType, version, image, imageSize, crc32
      sha256 := (jsonString text (ascii "sha256")).getD []
      entryAddr := (jsonString text (ascii "entry_addr")).getD []
      imageVersion := ((jsonUint text (ascii "image_version")).getD 0).toUInt32
      slotSize := (jsonUint text (ascii "slot_size")).getD 0
      minBootloaderVersion := (jsonString text (ascii "min_bootloader_version")).getD []
      features := jsonStringArray text (ascii "features") }
  | _, _, _, _, _, _ => .error (ascii "manifest missing required fields")

/-- A member of the written manifest that has a line of its own. -/
inductive Line
  | text (name value : Text)
  | uint (name : Text) (value : ℕ)

def Line.name : Line → Text
  | text name _ => name
  | uint name _ => name

def Line.value : Line → Text
  | text _ value => quoted (jsonEscape value)
  | uint _ value => natText value

def Line.written (l : Line) : Text :=
  ascii "  " ++ quoted l.name ++ ascii ": " ++ l.value ++ ascii ",\n"

def itemsText : List Text → Text
  | [] => []
  | f :: fs => quoted (jsonEscape f) ++ fs.flatMap fun g => ascii ", " ++ quoted (jsonEscape g)

def manifestLines (m : OtaManifest) : List Line := [
  .text (ascii "firmware_id") m.firmwareId,
  .text (ascii "device_type") m.deviceType,
  .text (ascii "version") m.version,
  .text (ascii "image") m.image,
  .uint (ascii "image_size") m.imageSize.toNat,
  .text (ascii "crc32") m.crc32,
  .text (ascii "sha256") m.sha256,
  .text (ascii "entry_addr") m.entryAddr,
  .uint (ascii "image_version") m.imageVersion.toNat,
  .uint (ascii "slot_size") m.slotSize.toNat,
  .text (ascii "min_bootloader_version") m.minBootloaderVersion]

def manifestToJson (m : OtaManifest) : Text :=
  ascii "\x7b\n" ++ (manifestLines m).flatMap Line.written ++
    (ascii "  " ++ quoted (ascii "features") ++ ascii ": [" ++ itemsText m.features ++
      ascii "]\n\x7d")

theorem mem_jsonEscape {b : UInt8} {t : Text} (h : b ∈ jsonEscape t) : b ∈ t ∨ b = 0x5C := by
  obtain ⟨c, hc, hb⟩ := List.mem_flatMap.mp h
  split_ifs at hb with hback hquote
  · simp only [List.mem_cons, List.not_mem_nil, or_false, or_self] at hb
    exact Or.inr hb
  · simp only [List.mem_cons, List.not_mem_nil, or_false] at hb
    rcases hb with rfl | rfl
    · exact Or.inr rfl
    · exact Or.inl (hquote ▸ hc)
  · exact Or.inl (List.mem_singleton.mp hb ▸ hc)

theorem jsonEscape_cons (b : UInt8) (t : Text) : jsonEscape (b :: t) =
    (if b = 0x5C then [0x5C, 0x5C] else if b = 0x22 then [0x5C, 0x22] else [b]) ++ jsonEscape t :=
  List.flatMap_cons

theorem length_jsonEscape (t : Text) : t.length ≤ (jsonEscape t).length := by
  induction t with
  | nil => exact Nat.le_refl _
  | cons b t ih =>
    rw [jsonEscape_cons, List.length_append, List.length_cons]
    split_ifs <;> simp only [List.length_cons, List.length_nil] <;> omega

/-- Every escaped byte makes the text longer. -/
theorem jsonEscape_eq_iff (t : Text) : jsonEscape t = t ↔ 0x22 ∉ t ∧ 0x5C ∉ t := by
  induction t with
  | nil => simp [jsonEscape]
  | cons b t ih =>
    have hlength := length_jsonEscape t
    rw [jsonEscape_cons]
    by_cases hback : b = 0x5C
    · have hne : 0x5C :: jsonEscape t ≠ t := by
        intro h
        have := congrArg List.length h
        rw [List.length_cons] at this
        omega
      simp [hback, hne]
    · by_cases hquote : b = 0x22
      · simp [hquote]
      · simp only [hback, hquote, if_false, List.singleton_append, List.cons.injEq, true_and, ih,
          List.mem_cons, not_or]
        constructor
        · exact fun h => ⟨⟨Ne.symm hquote, h.1⟩, Ne.symm hback, h.2⟩
        · exact fun h => ⟨h.1.2, h.2.2⟩

theorem quote_jsonEscape {t : Text} (h : 0x22 ∉ t) : 0x22 ∉ jsonEscape t := by
  intro hin
  rcases mem_jsonEscape hin with hin | heq
  · exact h hin
  · exact absurd heq (by decide)

/-- No quote of the value ends it early. -/
def Line.Closed : Line → Prop
  | .text _ value => 0x22 ∉ value
  | .uint _ _ => True

section lines

variable {key : Text} (hkey : IsName key)

theorem natText_isDigit {n : ℕ} : ∀ b ∈ natText n, isDigit b = true := by
  intro b hb
  obtain ⟨d, -, rfl⟩ := List.mem_map.mp hb
  exact digitByte_isDigit d

theorem natText_ne_nil (n : ℕ) : natText n ≠ [] := by
  rw [natText, natDigits]
  split_ifs <;> simp [digitsText]

theorem natText_value (n : ℕ) :
    (natText n).foldl (fun n b => n * 10 + (b.toNat - 0x30)) 0 = n :=
  (digitsText_foldl (natDigits n) 0).trans (natDigits_value n)

theorem written_append (l : Line) (s : Text) : l.written ++ s =
    ascii "  " ++ (quoted l.name ++ 0x3A :: 0x20 :: (l.value ++ 0x2C :: 0x0A :: s)) := by
  simp only [Line.written, List.append_assoc]
  rfl

include hkey

theorem search_line {value : List (Piece UInt8)} {l : Line} (hname : IsName l.name)
    (hne : l.name ≠ key) (hl : l.Closed) (s : Text) :
    search (member key value) (l.written ++ s) = search (member key value) s := by
  have hend : search (member key value) (0x0A :: s) = search (member key value) s :=
    search_plain (t := [0x0A]) (by decide) s
  have hspace : ∀ u, search (member key value) (0x20 :: u) = search (member key value) u :=
    search_plain (t := [0x20]) (by decide)
  rw [written_append, search_plain (by decide), search_name hkey hname hne, hspace]
  cases l with
  | text name v =>
    have hcomma : 0x2C ∉ key := fun hin => (hkey.2 _ hin).2.2 rfl
    exact (search_value hkey (quote_jsonEscape hl) (by decide) hcomma _).trans hend
  | uint name n =>
    have hdigits : 0x22 ∉ natText n := fun h => absurd (natText_isDigit _ h) (by decide)
    rw [Line.value, search_plain hdigits]
    exact (search_plain (t := [0x2C]) (by decide) _).trans hend

theorem search_lines {value : List (Piece UInt8)} {ls : List Line}
    (h : ∀ l ∈ ls, IsName l.name ∧ l.name ≠ key ∧ l.Closed) (s : Text) :
    search (member key value) (ls.flatMap Line.written ++ s) = search (member key value) s := by
  induction ls with
  | nil => rfl
  | cons l ls ih =>
    obtain ⟨hname, hne, hl⟩ := h l List.mem_cons_self
    rw [List.flatMap_cons, List.append_assoc, search_line hkey hname hne hl]
    exact ih fun l' hl' => h l' (List.mem_cons_of_mem l hl')

/-- The member of the name is found behind the lines before it. -/
theorem search_member {value : List (Piece UInt8)}
    (hvalue : ∀ b u, isSpace b = true → run value (b :: u) = none) {ls : List Line} {l : Line}
    (h : ∀ l ∈ ls, IsName l.name ∧ l.Closed) (hnodup : (ls.map Line.name).Nodup) (hl : l ∈ ls)
    (hlkey : l.name = key) {c : Text} (s : Text)
    (hrun : ∀ u, ∃ r, run value (l.value ++ 0x2C :: u) = some (c, r))
    (hhead : ∀ b ∈ l.value.head?, isSpace b = false) (hne : l.value ≠ []) :
    ∃ r, search (member key value) (ls.flatMap Line.written ++ s) = some (c, r) := by
  obtain ⟨before, after, rfl⟩ := List.append_of_mem hl
  have hbefore : ∀ l' ∈ before, IsName l'.name ∧ l'.name ≠ key ∧ l'.Closed := by
    intro l' hl'
    obtain ⟨hname, hclosed⟩ := h l' (List.mem_append_left _ hl')
    refine ⟨hname, fun heq => ?_, hclosed⟩
    rw [List.map_append, List.map_cons] at hnodup
    have := (List.nodup_append.mp hnodup).2.2 l'.name (List.mem_map_of_mem hl') l.name
      List.mem_cons_self
    exact this (heq.trans hlkey.symm)
  obtain ⟨b, v, hv⟩ : ∃ b v, l.value = b :: v := List.exists_cons_of_ne_nil hne
  have hb : isSpace b = false := hhead b (by rw [hv]; rfl)
  obtain ⟨r, hr⟩ := hrun (0x0A :: (after.flatMap Line.written ++ s))
  refine ⟨r, ?_⟩
  rw [List.flatMap_append, List.flatMap_cons, List.append_assoc, List.append_assoc,
    search_lines hkey hbefore, written_append, search_plain (by decide), hlkey]
  apply search_found
  rw [hv, List.cons_append, run_member hvalue hb, ← List.cons_append, ← hv]
  exact hr

end lines

section reads

variable {ls : List Line} (h : ∀ l ∈ ls, IsName l.name ∧ l.Closed)
  (hnodup : (ls.map Line.name).Nodup)

include h hnodup

theorem jsonString_lines {key v : Text} (hl : .text key v ∈ ls) (s : Text) :
    jsonString (ls.flatMap Line.written ++ s) key = some (jsonEscape v) := by
  obtain ⟨hkey, hclosed⟩ := h _ hl
  have hhead : ∀ b ∈ (quoted (jsonEscape v)).head?, isSpace b = false := by
    intro b hb
    obtain rfl := Option.some.inj hb
    rfl
  obtain ⟨r, hr⟩ : ∃ r, search (member key (textValue 0)) (ls.flatMap Line.written ++ s) =
      some (jsonEscape v, r) :=
    search_member hkey (run_one_space (by decide) _) h hnodup hl rfl s
      (fun u => ⟨_, run_text (quote_jsonEscape hclosed) (Nat.zero_le _) _⟩) hhead
      (List.cons_ne_nil _ _)
  rw [jsonString, hr, Option.map_some]

theorem jsonUint_lines {key : Text} {n : ℕ} (hl : .uint key n ∈ ls) (hn : n < 2 ^ 64) (s : Text) :
    jsonUint (ls.flatMap Line.written ++ s) key = some (.ofNat n) := by
  obtain ⟨hkey, -⟩ := h _ hl
  have hne : natText n ≠ [] := natText_ne_nil n
  have hhead : ∀ b ∈ (natText n).head?, isSpace b = false := by
    intro b hb
    obtain ⟨d, -, rfl⟩ := List.mem_map.mp (List.mem_of_mem_head? hb)
    exact isSpace_scalar (digitByte_scalar d)
  obtain ⟨r, hr⟩ : ∃ r, search (member key Pattern.digitsValue) (ls.flatMap Line.written ++ s) =
      some (natText n, r) :=
    search_member hkey digits_space h hnodup hl rfl s
      (fun u => ⟨_, run_digits natText_isDigit hne (by simp [isDigit])⟩) hhead hne
  rw [jsonUint, hr, Option.bind_some]
  simp only [stoull, natText_value, hn, if_true]

end reads

theorem search_item {t : Text} (ht : 0x22 ∉ t) (hne : t ≠ []) (s : Text) :
    search (textValue 1) (quoted t ++ s) = some (t, s) :=
  search_found (run_text ht (List.length_pos_iff.mpr hne) s)

theorem jsonEscape_ne_nil {t : Text} (h : t ≠ []) : jsonEscape t ≠ [] := by
  have := length_jsonEscape t
  have := List.length_pos_iff.mpr h
  exact List.length_pos_iff.mp (by omega)

theorem searchAll_more {fs : List Text} (h : ∀ f ∈ fs, f ≠ [] ∧ 0x22 ∉ f) {fuel : ℕ}
    (hfuel : fs.length ≤ fuel) :
    searchAll (textValue 1) fuel (fs.flatMap fun g => ascii ", " ++ quoted (jsonEscape g)) =
      fs.map jsonEscape := by
  induction fs generalizing fuel with
  | nil =>
    cases fuel with
    | zero => rfl
    | succ fuel =>
      have hnone : search (textValue 1) [] = none := run_one_none _ _ (by simp)
      simp only [List.flatMap_nil, searchAll, hnone, List.map_nil]
  | cons f fs ih =>
    obtain ⟨fuel, rfl⟩ : ∃ n, fuel = n + 1 := ⟨fuel - 1, by rw [List.length_cons] at hfuel; omega⟩
    obtain ⟨hne, hf⟩ := h f List.mem_cons_self
    have hskip : ∀ a ∈ ascii ", ", ∀ u, run (textValue 1) (a :: u) = none := by
      intro a ha u
      apply run_one_none
      rintro heq
      obtain rfl := Option.some.inj heq
      exact absurd ha (by decide)
    rw [List.flatMap_cons, List.append_assoc, searchAll, search_chunk _ hskip,
      search_item (quote_jsonEscape hf) (jsonEscape_ne_nil hne)]
    simp only [List.map_cons]
    rw [ih (fun g hg => h g (List.mem_cons_of_mem f hg)) (by rw [List.length_cons] at hfuel; omega)]

theorem length_itemsText (fs : List Text) : fs.length ≤ (itemsText fs).length := by
  have hmore : ∀ fs : List Text, fs.length ≤
      (fs.flatMap fun g => ascii ", " ++ quoted (jsonEscape g)).length := by
    intro fs
    induction fs with
    | nil => exact Nat.le_refl _
    | cons f fs ih =>
      have hquoted : 0 < (quoted (jsonEscape f)).length := Nat.succ_pos _
      simp only [List.flatMap_cons, List.length_append, List.length_cons]
      omega
  cases fs with
  | nil => exact Nat.le_refl _
  | cons f fs =>
    have hquoted : 0 < (quoted (jsonEscape f)).length := Nat.succ_pos _
    have := hmore fs
    simp only [itemsText, List.length_append, List.length_cons]
    omega

theorem searchAll_items {fs : List Text} (h : ∀ f ∈ fs, f ≠ [] ∧ 0x22 ∉ f) {fuel : ℕ}
    (hfuel : fs.length ≤ fuel) :
    searchAll (textValue 1) fuel (itemsText fs) = fs.map jsonEscape := by
  cases fs with
  | nil => exact searchAll_more h hfuel
  | cons f fs =>
    obtain ⟨fuel, rfl⟩ : ∃ n, fuel = n + 1 := ⟨fuel - 1, by rw [List.length_cons] at hfuel; omega⟩
    obtain ⟨hne, hf⟩ := h f List.mem_cons_self
    rw [itemsText, searchAll, search_item (quote_jsonEscape hf) (jsonEscape_ne_nil hne)]
    simp only [List.map_cons]
    rw [searchAll_more (fun g hg => h g (List.mem_cons_of_mem f hg))
      (by rw [List.length_cons] at hfuel; omega)]

theorem mem_itemsText {b : UInt8} {fs : List Text} (h : b ∈ itemsText fs) :
    (∃ f ∈ fs, b ∈ f) ∨ b ∈ ascii ", " ∨ b = 0x5C ∨ b = 0x22 := by
  have hquoted : ∀ t : Text, b ∈ quoted (jsonEscape t) → b ∈ t ∨ b = 0x5C ∨ b = 0x22 := by
    intro t hb
    rw [quoted, List.mem_cons, List.mem_append, List.mem_singleton] at hb
    rcases hb with hb | hb | hb
    · exact Or.inr (Or.inr hb)
    · exact (mem_jsonEscape hb).imp_right Or.inl
    · exact Or.inr (Or.inr hb)
  cases fs with
  | nil => exact absurd h List.not_mem_nil
  | cons f fs =>
    rcases List.mem_append.mp h with hb | hb
    · exact (hquoted f hb).imp (fun hb => ⟨f, List.mem_cons_self, hb⟩) Or.inr
    · obtain ⟨g, hg, hb⟩ := List.mem_flatMap.mp hb
      rcases List.mem_append.mp hb with hb | hb
      · exact Or.inr (Or.inl hb)
      · exact (hquoted g hb).imp (fun hb => ⟨g, List.mem_cons_of_mem f hg, hb⟩) Or.inr

namespace OtaManifest

def texts (m : OtaManifest) : List Text :=
  [m.firmwareId, m.deviceType, m.version, m.image, m.crc32, m.sha256, m.entryAddr,
    m.minBootloaderVersion]

/-- What every manifest that was read from a text is. -/
structure Unbroken (m : OtaManifest) : Prop where
  texts : ∀ t ∈ m.texts, 0x22 ∉ t
  features : ∀ f ∈ m.features, f ≠ [] ∧ 0x22 ∉ f ∧ 0x5D ∉ f ∧ 0x0A ∉ f ∧ 0x0D ∉ f

def escaped (m : OtaManifest) : OtaManifest :=
  { m with
    firmwareId := jsonEscape m.firmwareId
    deviceType := jsonEscape m.deviceType
    version := jsonEscape m.version
    image := jsonEscape m.image
    crc32 := jsonEscape m.crc32
    sha256 := jsonEscape m.sha256
    entryAddr := jsonEscape m.entryAddr
    minBootloaderVersion := jsonEscape m.minBootloaderVersion
    features := m.features.map jsonEscape }

end OtaManifest

def lineNames : List Text :=
  [ascii "firmware_id", ascii "device_type", ascii "version", ascii "image", ascii "image_size",
    ascii "crc32", ascii "sha256", ascii "entry_addr", ascii "image_version", ascii "slot_size",
    ascii "min_bootloader_version"]

theorem manifestLines_names (m : OtaManifest) : (manifestLines m).map Line.name = lineNames := rfl

theorem lineNames_nodup : lineNames.Nodup := by decide

theorem lineNames_isName : ∀ name ∈ lineNames, IsName name := by decide +kernel

theorem manifestLines_closed {m : OtaManifest} (h : m.Unbroken) :
    ∀ l ∈ manifestLines m, l.Closed := by
  have htexts := h.texts
  simp only [OtaManifest.texts, List.forall_mem_cons] at htexts
  simp only [manifestLines, List.forall_mem_cons, Line.Closed]
  tauto

section written

variable {m : OtaManifest} (h : m.Unbroken)

include h

theorem manifestLines_ok : ∀ l ∈ manifestLines m, IsName l.name ∧ l.Closed := by
  intro l hl
  have hname : l.name ∈ lineNames := manifestLines_names m ▸ List.mem_map_of_mem hl
  exact ⟨lineNames_isName _ hname, manifestLines_closed h l hl⟩

/-- The text that stands behind the lines. -/
def featuresText (m : OtaManifest) : Text :=
  ascii "  " ++ quoted (ascii "features") ++ ascii ": [" ++ itemsText m.features ++ ascii "]\n\x7d"

theorem read_string {key v : Text} (hl : .text key v ∈ manifestLines m) :
    jsonString (manifestToJson m) key = some (jsonEscape v) := by
  have hread := jsonString_lines (manifestLines_ok h)
    (manifestLines_names m ▸ lineNames_nodup) hl (featuresText m)
  rw [jsonString] at hread ⊢
  rw [← hread, manifestToJson, List.append_assoc, search_plain (by decide)]
  rfl

theorem read_uint {key : Text} {n : ℕ} (hl : .uint key n ∈ manifestLines m) (hn : n < 2 ^ 64) :
    jsonUint (manifestToJson m) key = some (.ofNat n) := by
  have hread := jsonUint_lines (manifestLines_ok h)
    (manifestLines_names m ▸ lineNames_nodup) hl hn (featuresText m)
  rw [jsonUint] at hread ⊢
  rw [← hread, manifestToJson, List.append_assoc, search_plain (by decide)]
  rfl

theorem read_features :
    jsonStringArray (manifestToJson m) (ascii "features") = m.features.map jsonEscape := by
  have hlines : ∀ l ∈ manifestLines m, IsName l.name ∧ l.name ≠ ascii "features" ∧ l.Closed := by
    intro l hl
    obtain ⟨hname, hclosed⟩ := manifestLines_ok h l hl
    refine ⟨hname, fun heq => ?_, hclosed⟩
    have hin : l.name ∈ lineNames := manifestLines_names m ▸ List.mem_map_of_mem hl
    exact absurd (heq ▸ hin) (by decide)
  have hend : 0x5D ∉ itemsText m.features := by
    intro hb
    rcases mem_itemsText hb with ⟨f, hf, hb⟩ | hb | hb | hb
    · exact (h.features f hf).2.2.1 hb
    · exact absurd hb (by decide)
    · exact absurd hb (by decide)
    · exact absurd hb (by decide)
  have hdot : ∀ b ∈ itemsText m.features, (b != 0x0A && b != 0x0D) = true := by
    intro b hb
    rw [Bool.and_eq_true, bne_iff_ne, bne_iff_ne]
    rcases mem_itemsText hb with ⟨f, hf, hb⟩ | hb | rfl | rfl
    · have hfeature := (h.features f hf).2.2.2
      exact ⟨fun heq => hfeature.1 (heq ▸ hb), fun heq => hfeature.2 (heq ▸ hb)⟩
    · have hcomma : ∀ c ∈ ascii ", ", c ≠ 0x0A ∧ c ≠ 0x0D := by decide +kernel
      exact hcomma b hb
    · decide
    · decide
  have hname : IsName (ascii "features") := by decide +kernel
  have hfound : search (member (ascii "features") arrayValue) (manifestToJson m) =
      some (itemsText m.features, ascii "\n\x7d") := by
    rw [manifestToJson, List.append_assoc, search_plain (by decide),
      search_lines hname hlines, List.append_assoc, List.append_assoc, List.append_assoc,
      search_plain (by decide)]
    apply search_found
    have hmember : run (member (ascii "features") arrayValue)
        (quoted (ascii "features") ++ 0x3A :: 0x20 :: 0x5B ::
          (itemsText m.features ++ ascii "]\n\x7d")) =
        run arrayValue (0x5B :: (itemsText m.features ++ ascii "]\n\x7d")) :=
      run_member (run_one_space (by decide) _) (by decide) _
    refine hmember.trans ?_
    rw [arrayValue, run_one]
    exact run_lazy_found _ rfl rfl rfl rfl hend hdot (ascii "\n\x7d")
  rw [jsonStringArray, hfound]
  exact searchAll_items (fun f hf => ⟨(h.features f hf).1, (h.features f hf).2.1⟩)
    (length_itemsText m.features)

/-- A written manifest is read with its texts still escaped. -/
theorem parse_written : parseManifestText (manifestToJson m) = .ok m.escaped := by
  have hversion : m.imageVersion.toNat < 2 ^ 64 := by
    have := m.imageVersion.toNat_lt
    omega
  have hcast : (UInt64.ofNat m.imageVersion.toNat).toUInt32 = m.imageVersion := by
    apply UInt32.toNat_inj.mp
    have := m.imageVersion.toNat_lt
    rw [UInt64.toNat_toUInt32, UInt64.toNat_ofNat_of_lt' hversion]
    omega
  have hid : jsonString (manifestToJson m) (ascii "firmware_id") = some (jsonEscape m.firmwareId) :=
    read_string h (by simp [manifestLines])
  have htype : jsonString (manifestToJson m) (ascii "device_type") = some (jsonEscape m.deviceType) :=
    read_string h (by simp [manifestLines])
  have hver : jsonString (manifestToJson m) (ascii "version") = some (jsonEscape m.version) :=
    read_string h (by simp [manifestLines])
  have himage : jsonString (manifestToJson m) (ascii "image") = some (jsonEscape m.image) :=
    read_string h (by simp [manifestLines])
  have hcrc : jsonString (manifestToJson m) (ascii "crc32") = some (jsonEscape m.crc32) :=
    read_string h (by simp [manifestLines])
  have hsha : jsonString (manifestToJson m) (ascii "sha256") = some (jsonEscape m.sha256) :=
    read_string h (by simp [manifestLines])
  have hentry : jsonString (manifestToJson m) (ascii "entry_addr") = some (jsonEscape m.entryAddr) :=
    read_string h (by simp [manifestLines])
  have hboot : jsonString (manifestToJson m) (ascii "min_bootloader_version") =
      some (jsonEscape m.minBootloaderVersion) :=
    read_string h (by simp [manifestLines])
  have hsize : jsonUint (manifestToJson m) (ascii "image_size") = some (.ofNat m.imageSize.toNat) :=
    read_uint h (by simp [manifestLines]) m.imageSize.toNat_lt
  have hiversion : jsonUint (manifestToJson m) (ascii "image_version") =
      some (.ofNat m.imageVersion.toNat) :=
    read_uint h (by simp [manifestLines]) hversion
  have hslot : jsonUint (manifestToJson m) (ascii "slot_size") = some (.ofNat m.slotSize.toNat) :=
    read_uint h (by simp [manifestLines]) m.slotSize.toNat_lt
  rw [parseManifestText, hid, htype, hver, himage, hsize, hcrc, hsha, hentry, hiversion, hslot,
    hboot, read_features h]
  simp only [Option.getD_some, hcast, UInt64.ofNat_toNat, OtaManifest.escaped]

end written

theorem jsonString_closed {text key v : Text} (h : jsonString text key = some v) : 0x22 ∉ v := by
  obtain ⟨m, hm, rfl⟩ := Option.map_eq_some_iff.mp h
  exact search_without (fun p hp hc => textValue_captured (member_captured hp hc) hc) hm

theorem getD_closed {text key : Text} : 0x22 ∉ (jsonString text key).getD [] := by
  cases h : jsonString text key with
  | none => exact List.not_mem_nil
  | some v => exact jsonString_closed h

theorem run_textValue_length {least : ℕ} {s : Text} {m : Text × Text}
    (h : run (textValue least) s = some m) : least ≤ m.1.length := by
  obtain ⟨k, c, -, -, hrun, hm, -⟩ := run_cons_some _ _ _ h
  obtain ⟨k', c', hleast, hreach, hrun', hm', -⟩ := run_cons_some _ _ _ hrun
  have hk' : k' ≤ (s.drop k).length :=
    (hreach.trans (Piece.reach_le _ _)).trans (List.takeWhile_prefix _).length_le
  have hleast' : least ≤ k' := hleast
  have hm'' : c = (s.drop k).take k' ++ c' := hm'
  rw [hm, hm'', List.length_append, List.length_append, List.length_take]
  omega

theorem searchAll_features {fuel : ℕ} {s : Text} :
    ∀ f ∈ searchAll (textValue 1) fuel s, f ≠ [] := by
  induction fuel generalizing s with
  | zero => exact fun f hf => absurd hf List.not_mem_nil
  | succ fuel ih =>
    rw [searchAll]
    cases h : search (textValue 1) s with
    | none => exact fun f hf => absurd hf List.not_mem_nil
    | some m =>
      intro f hf
      rcases List.mem_cons.mp hf with rfl | hf
      · obtain ⟨t, u, -, hrun⟩ := search_some h
        exact List.length_pos_iff.mp (run_textValue_length hrun)
      · exact ih f hf

theorem arrayValue_closed {key text : Text} {m : Text × Text}
    (h : search (member key arrayValue) text = some m) :
    0x5D ∉ m.1 ∧ 0x0A ∉ m.1 ∧ 0x0D ∉ m.1 := by
  obtain ⟨t, u, -, hmember⟩ := search_some h
  obtain ⟨v, harray⟩ := run_member_some hmember
  have hopen : ∀ p ∈ [one (0x5B : UInt8)], p.captured = false := by
    intro p hp
    obtain rfl := List.mem_singleton.mp hp
    rfl
  obtain ⟨w, hbody⟩ := run_uncaptured [one 0x5B] v hopen harray
  obtain ⟨-, hend, hdot⟩ := run_lazy_one _ rfl rfl 0x5D hbody rfl
  refine ⟨hend, fun hb => ?_, fun hb => ?_⟩
  · exact absurd (hdot _ hb) (by decide)
  · exact absurd (hdot _ hb) (by decide)

theorem jsonStringArray_closed {text key : Text} : ∀ f ∈ jsonStringArray text key,
    f ≠ [] ∧ 0x22 ∉ f ∧ 0x5D ∉ f ∧ 0x0A ∉ f ∧ 0x0D ∉ f := by
  unfold jsonStringArray
  cases h : search (member key arrayValue) text with
  | none => exact fun f hf => absurd hf List.not_mem_nil
  | some m =>
    intro f hf
    have hbody := arrayValue_closed h
    have hfeature := searchAll_captured m.1.length f hf
    refine ⟨searchAll_features f hf, fun hb => ?_, fun hb => hbody.1 (hfeature _ hb).1,
      fun hb => hbody.2.1 (hfeature _ hb).1, fun hb => hbody.2.2 (hfeature _ hb).1⟩
    obtain ⟨-, p, hp, hc, hcls⟩ := hfeature _ hb
    exact absurd hcls (by simp [textValue_captured hp hc])

/-- Whatever was read has no quote in its texts, and no list end or line end in a feature. -/
theorem parse_unbroken {text : Text} {m : OtaManifest} (h : parseManifestText text = .ok m) :
    m.Unbroken := by
  unfold parseManifestText at h
  split at h
  next hid htype hversion himage hsize hcrc =>
    obtain rfl := Except.ok.inj h
    constructor
    · simp only [OtaManifest.texts, List.forall_mem_cons]
      exact ⟨jsonString_closed hid, jsonString_closed htype, jsonString_closed hversion,
        jsonString_closed himage, jsonString_closed hcrc, getD_closed, getD_closed, getD_closed,
        List.forall_mem_nil _⟩
    · exact jsonStringArray_closed
  next => exact absurd h (by simp)

namespace OtaManifest

/-- Nothing in the manifest has to be escaped, and nothing ends the list of features. -/
structure Plain (m : OtaManifest) : Prop where
  texts : ∀ t ∈ m.texts, 0x22 ∉ t ∧ 0x5C ∉ t
  features : ∀ f ∈ m.features, 0x22 ∉ f ∧ 0x5C ∉ f ∧ 0x5D ∉ f ∧ 0x0D ∉ f

/-- No text has a line feed, and every feature says something. -/
structure OneLine (m : OtaManifest) : Prop where
  texts : ∀ t ∈ m.texts, 0x0A ∉ t
  features : ∀ f ∈ m.features, f ≠ [] ∧ 0x0A ∉ f

theorem escaped_eq_iff (m : OtaManifest) : m.escaped = m ↔
    (∀ t ∈ m.texts, 0x22 ∉ t ∧ 0x5C ∉ t) ∧ ∀ f ∈ m.features, 0x22 ∉ f ∧ 0x5C ∉ f := by
  have hfeatures : m.features.map jsonEscape = m.features ↔
      ∀ f ∈ m.features, 0x22 ∉ f ∧ 0x5C ∉ f := by
    simp only [← jsonEscape_eq_iff]
    conv_lhs => rw [← List.map_id' m.features, List.map_map]
    exact List.map_inj_left
  obtain ⟨firmwareId, deviceType, version, image, imageSize, crc32, sha256, entryAddr,
    imageVersion, slotSize, minBootloaderVersion, features⟩ := m
  simp only [escaped, mk.injEq, true_and, jsonEscape_eq_iff, texts, List.forall_mem_cons]
    at hfeatures ⊢
  rw [hfeatures]
  tauto

end OtaManifest

/-- A manifest is read back as it was written exactly if nothing in it has to be escaped. -/
theorem parse_written_iff {m : OtaManifest} (hne : ∀ f ∈ m.features, f ≠ [] ∧ 0x0A ∉ f) :
    parseManifestText (manifestToJson m) = .ok m ↔ m.Plain := by
  constructor
  · intro h
    have hunbroken := parse_unbroken h
    have heq : m.escaped = m := Except.ok.inj ((parse_written hunbroken).symm.trans h)
    obtain ⟨htexts, hfeatures⟩ := m.escaped_eq_iff.mp heq
    refine ⟨htexts, fun f hf => ?_⟩
    obtain ⟨-, -, hend, -, hcr⟩ := hunbroken.features f hf
    exact ⟨(hfeatures f hf).1, (hfeatures f hf).2, hend, hcr⟩
  · intro h
    have hunbroken : m.Unbroken := by
      refine ⟨fun t ht => (h.texts t ht).1, fun f hf => ?_⟩
      obtain ⟨hquote, -, hend, hcr⟩ := h.features f hf
      exact ⟨(hne f hf).1, hquote, hend, (hne f hf).2, hcr⟩
    have heq : m.escaped = m :=
      m.escaped_eq_iff.mpr ⟨h.texts, fun f hf => ⟨(h.features f hf).1, (h.features f hf).2.1⟩⟩
    rw [parse_written hunbroken, heq]

end EdgeLink.Firmware
