import EdgeLink.JsonLaws
import EdgeLink.Substring

/-! The lines of the configuration file of the gateway. -/

namespace EdgeLink.Config
open Json Lookup

def trim (s : Text) : Text := Substring.trim isSpace s

def stripQuotes (s : Text) : Text :=
  if 2 ≤ s.length ∧ ((s.head? = some 0x22 ∧ s.getLast? = some 0x22) ∨
      (s.head? = some 0x27 ∧ s.getLast? = some 0x27)) then s.tail.dropLast
  else s

def parseKeyValue (line : Text) : Option (Text × Text) :=
  match line.idxOf? 0x3A with
  | none => none
  | some pos =>
    let key := trim (line.take pos)
    if key = [] then none else some (key, stripQuotes (trim (line.drop (pos + 1))))

/-- `std::stoi` that reads all of the text. -/
def toInt (s : Text) : Option ℤ :=
  match stoll s with
  | none => none
  | some (v, pos) => if -2 ^ 31 ≤ v ∧ v < 2 ^ 31 ∧ pos = s.length then some v else none

def toSize (s : Text) : Option ℕ := ((toInt s).filter (0 ≤ ·)).map Int.toNat

def lower (s : Text) : Text := s.map lowerByte

def toBool (s : Text) : Option Bool :=
  if lower s = ascii "true" ∨ lower s = ascii "1" then some true
  else if lower s = ascii "false" ∨ lower s = ascii "0" then some false
  else none

structure DeviceConfig where
  id : UInt8 := 0
  name : Text := []
  enabled : Bool := true
  topicSuffix : Text := []
  linkType : Text := ascii "serial"

structure SerialConfig where
  instanceName : Text := ascii "default"
  device : Text := ascii "/dev/ttyUSB0"
  baudrate : ℤ := 115200
  dataBits : ℤ := 8
  parity : UInt8 := 0x4E
  stopBits : ℤ := 1
  readChunkSize : ℕ := 256

/-- The value, or the error that names the field. -/
def need {α : Type} (value : Option α) (field : String) : Except Text α :=
  match value with
  | none => .error (ascii "invalid " ++ ascii field)
  | some a => .ok a

def applyDeviceValue (dev : DeviceConfig) (key val : Text) : Except Text DeviceConfig :=
  if key = ascii "id" ∨ key = ascii "device_id" then
    (need ((toInt val).filter fun i => 0 ≤ i ∧ i ≤ 255) "devices.id").map fun i =>
      { dev with id := UInt8.ofNat i.toNat }
  else if key = ascii "name" then .ok { dev with name := val }
  else if key = ascii "enabled" then
    (need (toBool val) "devices.enabled").map fun b => { dev with enabled := b }
  else if key = ascii "topic_suffix" then .ok { dev with topicSuffix := val }
  else if key = ascii "link_type" then .ok { dev with linkType := val }
  else .error (ascii "unknown devices key: " ++ key)

def applySerialValue (serial : SerialConfig) (key val : Text) : Except Text SerialConfig :=
  if key = ascii "name" ∨ key = ascii "instance_name" then .ok { serial with instanceName := val }
  else if key = ascii "device" then .ok { serial with device := val }
  else if key = ascii "baudrate" then
    (need (toInt val) "serials.baudrate").map fun i => { serial with baudrate := i }
  else if key = ascii "data_bits" then
    (need (toInt val) "serials.data_bits").map fun i => { serial with dataBits := i }
  else if key = ascii "stop_bits" then
    (need (toInt val) "serials.stop_bits").map fun i => { serial with stopBits := i }
  else if key = ascii "parity" then
    (need val.head? "serials.parity").map fun c => { serial with parity := c }
  else if key = ascii "read_chunk_size" then
    (need (toSize val) "serials.read_chunk_size").map fun z => { serial with readChunkSize := z }
  else .error (ascii "unknown serials key: " ++ key)

/-- A line in one of the two sections that are lists: the items, and which of them is filled in. -/
def itemLine {α : Type} (what : String) (apply : α → Text → Text → Except Text α) (new : α)
    (items : List α) (current : Option ℕ) (line_no : ℕ) (line : Text) :
    Except Text (List α × Option ℕ) :=
  if line.head? = some 0x2D then
    let inline_item := trim line.tail
    if inline_item = [] then .ok (items ++ [new], some items.length)
    else
      match parseKeyValue inline_item with
      | none => .error (ascii "invalid " ++ ascii what ++ ascii " item at line " ++ natText line_no)
      | some (key, val) => (apply new key val).map fun item => (items ++ [item], some items.length)
  else
    match current with
    | none => .error (ascii what ++ ascii " fields must follow '-' item at line " ++ natText line_no)
    | some i =>
      match parseKeyValue line with
      | none =>
        .error (ascii "invalid " ++ ascii what ++ ascii " line " ++ natText line_no ++ ascii ": " ++ line)
      | some (key, val) =>
        (apply (items.getD i new) key val).map fun item => (items.set i item, some i)

/-- The variables of the line loop of `loadFromFile`. -/
structure Loader where
  currentSection : Text := []
  lineNo : ℕ := 0
  kv : Text → Option Text := fun _ => none
  parsedDevices : List DeviceConfig := []
  parsedSerials : List SerialConfig := []
  currentDevice : Option ℕ := none
  currentSerial : Option ℕ := none

def entry (current_section key : Text) : Text := current_section ++ ascii "." ++ key

namespace Loader
variable (s : Loader)

def set (key val : Text) : Loader :=
  { s with kv := Function.update s.kv (entry s.currentSection key) (some val) }

def header (name : Text) : Loader :=
  if name ≠ ascii "devices" ∧ name ≠ ascii "serials" then
    { s with currentSection := name, currentDevice := none, currentSerial := none }
  else { s with currentSection := name }

/-- A line in another section. -/
def plainLine (line : Text) : Except Text Loader :=
  match parseKeyValue line with
  | none => .error (ascii "invalid config line " ++ natText s.lineNo ++ ascii ": " ++ line)
  | some (key, val) =>
    if s.currentSection = [] then .error (ascii "key outside section at line " ++ natText s.lineNo)
    else .ok (s.set key val)

/-- A line without comment and blanks around it. -/
def trimmedLine (line : Text) : Except Text Loader :=
  if line = [] then .ok s
  else if line.getLast? = some 0x3A ∧ 0x20 ∉ line then .ok (s.header (trim line.dropLast))
  else if s.currentSection = ascii "devices" then
    (itemLine "devices" applyDeviceValue {} s.parsedDevices s.currentDevice s.lineNo line).map
      fun (items, current) => { s with parsedDevices := items, currentDevice := current }
  else if s.currentSection = ascii "serials" then
    (itemLine "serials" applySerialValue {} s.parsedSerials s.currentSerial s.lineNo line).map
      fun (items, current) => { s with parsedSerials := items, currentSerial := current }
  else s.plainLine line

def next : Loader := { s with lineNo := s.lineNo + 1 }

def loadLine (line : Text) : Except Text Loader :=
  s.next.trimmedLine (trim (line.takeWhile (· ≠ 0x23)))

end Loader

def loadLines (s : Loader) (lines : List Text) : Except Text Loader := lines.foldlM Loader.loadLine s

/-- `std::getline` until the end of the file. -/
def getlines : Text → List Text
  | [] => []
  | c :: s =>
    if c = 0x0A then [] :: getlines s
    else
      match getlines s with
      | [] => [[c]]
      | line :: lines => (c :: line) :: lines

def configLine (key : Text) (quote : UInt8) (v : Text) : Text :=
  key ++ 0x3A :: 0x20 :: quote :: (v ++ [quote])

/-- The key of a line: no colon, no comment, no space. -/
structure IsKey (key : Text) : Prop where
  colon : 0x3A ∉ key
  hash : 0x23 ∉ key
  space : 0x20 ∉ key
  newline : 0x0A ∉ key

/-- A text in quotes, `"` or `'`. -/
structure IsQuoted (quote : UInt8) (v : Text) : Prop where
  mark : quote = 0x22 ∨ quote = 0x27
  unquoted : quote ∉ v
  newline : 0x0A ∉ v

section Quoted
variable {key v : Text} {quote : UInt8}

theorem IsQuoted.not_space (h : IsQuoted quote v) : ∀ a ∈ some quote, isSpace a = false := by
  intro a ha
  rw [← Option.some.inj ha]
  rcases h.mark with rfl | rfl <;> decide

theorem IsQuoted.ne (h : IsQuoted quote v) : quote ≠ 0x3A ∧ quote ≠ 0x23 := by
  rcases h.mark with rfl | rfl <;> decide

/-- Nothing is trimmed off a key that is its own. -/
theorem trim_key (h : trim key = key) :
    (∀ a ∈ key.head?, isSpace a = false) ∧ ∀ a ∈ key.getLast?, isSpace a = false := by
  have hends := Substring.trim_ends isSpace key
  unfold trim at h
  rwa [h] at hends

theorem stripQuotes_quoted (h : IsQuoted quote v) : stripQuotes (quote :: (v ++ [quote])) = v := by
  have hlast : (quote :: (v ++ [quote])).getLast? = some quote := by
    rw [← List.cons_append, List.getLast?_append, List.getLast?_singleton, Option.some_or]
  unfold stripQuotes
  rw [if_pos]
  · rw [List.tail_cons, List.dropLast_concat]
  · refine ⟨by simp, ?_⟩
    rw [hlast, List.head?_cons]
    exact h.mark.imp (fun hq => by simp [hq]) (fun hq => by simp [hq])

/-- A quote that is not closed stays. -/
theorem stripQuotes_open (h : quote ∉ v) : stripQuotes (quote :: v) = quote :: v := by
  unfold stripQuotes
  refine if_neg fun ⟨hlen, hquotes⟩ => ?_
  have hne : v ≠ [] := by
    rintro rfl
    exact absurd hlen (Nat.not_succ_le_self 1)
  have hlast : (quote :: v).getLast? = some (v.getLast hne) := by
    rw [List.getLast?_cons, List.getLast?_eq_some_getLast hne, Option.getD_some]
  have hmem := List.getLast_mem hne
  rw [hlast, List.head?_cons] at hquotes
  rcases hquotes with ⟨hq, hl⟩ | ⟨hq, hl⟩
  · rw [Option.some.inj hl, ← Option.some.inj hq] at hmem
    exact h hmem
  · rw [Option.some.inj hl, ← Option.some.inj hq] at hmem
    exact h hmem

theorem idxOf_behind {a : UInt8} {u : Text} (h : a ∉ u) (rest : Text) :
    (u ++ a :: rest).idxOf? a = some u.length := by
  induction u with
  | nil => rw [List.nil_append, List.idxOf?_cons, if_pos (beq_self_eq_true a), List.length_nil]
  | cons b u ih =>
    rw [List.mem_cons, not_or] at h
    rw [List.cons_append, List.idxOf?_cons, if_neg (by simpa using Ne.symm h.1), ih h.2]
    rfl

theorem parseKeyValue_colon (hcolon : 0x3A ∉ key) (rest : Text) :
    parseKeyValue (key ++ 0x3A :: rest) =
      if trim key = [] then none else some (trim key, stripQuotes (trim rest)) := by
  have hdrop : (key ++ 0x3A :: rest).drop (key.length + 1) = rest := by
    rw [List.drop_append, List.drop_of_length_le (Nat.le_succ _), List.nil_append,
      Nat.add_sub_cancel_left, List.drop_succ_cons, List.drop_zero]
  unfold parseKeyValue
  rw [idxOf_behind hcolon]
  dsimp only
  rw [List.take_left, hdrop]

/-- Up to the first comment. -/
theorem takeWhile_hash {u : Text} (h : 0x23 ∉ u) (rest : Text) :
    (u ++ rest).takeWhile (· ≠ 0x23) = u ++ rest.takeWhile (· ≠ 0x23) := by
  apply List.takeWhile_append_of_pos
  intro b hb
  have hne : b ≠ 0x23 := by
    rintro rfl
    exact h hb
  exact decide_eq_true hne

theorem trim_blank {rest : Text} (hhead : ∀ a ∈ rest.head?, isSpace a = false)
    (hlast : ∀ a ∈ rest.getLast?, isSpace a = false) : trim (0x20 :: rest) = rest := by
  have hblank : ∀ a ∈ [(0x20 : UInt8)], isSpace a = true := fun a ha => by
    rw [List.mem_singleton.mp ha]
    decide
  have h := @Substring.trim_around _ isSpace rest [] [0x20] hblank nofun hhead hlast
  rwa [List.append_nil] at h

/-- The key, and the value as it is. -/
theorem parse_quoted (hkey : IsKey key) (hq : IsQuoted quote v) (hown : trim key = key) (hne : key ≠ []) :
    parseKeyValue (configLine key quote v) = some (key, v) := by
  have hlast : ∀ a ∈ (quote :: (v ++ [quote])).getLast?, isSpace a = false := by
    rw [← List.cons_append, List.getLast?_append, List.getLast?_singleton, Option.some_or]
    exact hq.not_space
  unfold configLine
  rw [parseKeyValue_colon hkey.colon, hown, if_neg hne,
    @trim_blank (quote :: (v ++ [quote])) hq.not_space hlast, stripQuotes_quoted hq]

theorem configLine_clean (hkey : IsKey key) (hq : IsQuoted quote v) (hown : trim key = key)
    (hne : key ≠ []) (hv : 0x23 ∉ v) :
    trim ((configLine key quote v).takeWhile (· ≠ 0x23)) = configLine key quote v := by
  have hhash : 0x23 ∉ configLine key quote v := by
    simp only [configLine, List.mem_append, List.mem_cons, List.not_mem_nil, or_false, not_or]
    exact ⟨hkey.hash, by decide, by decide, hq.ne.2.symm, hv, hq.ne.2.symm⟩
  have hall := takeWhile_hash hhash []
  rw [List.append_nil, List.takeWhile_nil, List.append_nil] at hall
  rw [hall]
  apply Substring.trim_self
  · unfold configLine
    rw [List.head?_append_of_ne_nil _ hne]
    exact (trim_key hown).1
  · have hlast : (configLine key quote v).getLast? = some quote := by
      have hsplit : configLine key quote v = (key ++ 0x3A :: 0x20 :: quote :: v) ++ [quote] := by
        simp [configLine]
      rw [hsplit, List.getLast?_append, List.getLast?_singleton, Option.some_or]
    rw [hlast]
    exact hq.not_space

theorem trimmedLine_plain {s : Loader} {line : Text} (hne : line ≠ []) (hspace : 0x20 ∈ line)
    (hother : s.currentSection ≠ ascii "devices" ∧ s.currentSection ≠ ascii "serials") :
    s.next.trimmedLine line = s.next.plainLine line := by
  have hnext : s.next.currentSection = s.currentSection := rfl
  unfold Loader.trimmedLine
  rw [if_neg hne, if_neg fun hhead => hhead.2 hspace, hnext, if_neg hother.1, if_neg hother.2]

/-- Without a comment sign the line is taken as it stands. -/
theorem loadLine_quoted (hkey : IsKey key) (hq : IsQuoted quote v) (hown : trim key = key)
    (hne : key ≠ []) (hv : 0x23 ∉ v) {s : Loader} (hsection : s.currentSection ≠ [])
    (hother : s.currentSection ≠ ascii "devices" ∧ s.currentSection ≠ ascii "serials") :
    s.loadLine (configLine key quote v) = .ok (s.next.set key v) := by
  have hspace : 0x20 ∈ configLine key quote v := by simp [configLine]
  have hfull : configLine key quote v ≠ [] := by simp [configLine]
  unfold Loader.loadLine
  rw [configLine_clean hkey hq hown hne hv, trimmedLine_plain hfull hspace hother]
  unfold Loader.plainLine
  rw [parse_quoted hkey hq hown hne]
  exact if_neg hsection

theorem parseKeyValue_own {line k val : Text} (h : parseKeyValue line = some (k, val)) :
    k ≠ [] ∧ trim k = k := by
  unfold parseKeyValue at h
  split at h
  · cases h
  · rename_i pos _
    dsimp only at h
    split_ifs at h with hne
    obtain ⟨rfl, -⟩ := Prod.mk.inj (Option.some.inj h)
    have hends := Substring.trim_ends isSpace (line.take pos)
    exact ⟨hne, Substring.trim_self hends.1 hends.2⟩

/-- A comment sign cuts the value off, and its quote stays open. -/
theorem parse_commented (hkey : IsKey key) (hq : IsQuoted quote v) (hown : trim key = key)
    (hne : key ≠ []) (hv : 0x23 ∈ v) :
    ∃ w, parseKeyValue (trim ((configLine key quote v).takeWhile (· ≠ 0x23))) =
      some (key, quote :: w) := by
  obtain ⟨v₁, v₂, rfl, hv₁⟩ := List.eq_append_cons_of_mem hv
  have hhash : 0x23 ∉ key ++ 0x3A :: 0x20 :: quote :: v₁ := by
    simp only [List.mem_append, List.mem_cons, not_or]
    exact ⟨hkey.hash, by decide, by decide, hq.ne.2.symm, hv₁⟩
  have hcut : (configLine key quote (v₁ ++ 0x23 :: v₂)).takeWhile (· ≠ 0x23) =
      key ++ 0x3A :: 0x20 :: quote :: v₁ := by
    have hsplit : configLine key quote (v₁ ++ 0x23 :: v₂) =
        (key ++ 0x3A :: 0x20 :: quote :: v₁) ++ 0x23 :: (v₂ ++ [quote]) := by simp [configLine]
    rw [hsplit, takeWhile_hash hhash, List.takeWhile_cons_of_neg (by decide), List.append_nil]
  -- only behind the quote there may be blanks to trim
  have htrim : trim (key ++ 0x3A :: 0x20 :: quote :: v₁) =
      key ++ 0x3A :: 0x20 :: quote :: v₁.rdropWhile isSpace := by
    have hhead : ∀ a ∈ (key ++ 0x3A :: 0x20 :: quote :: v₁).head?, isSpace a = false := by
      rw [List.head?_append_of_ne_nil _ hne]
      exact (trim_key hown).1
    have hlast : ∀ a ∈ (key ++ [0x3A, 0x20, quote]).getLast?, isSpace a = false := by
      rw [List.getLast?_append]
      exact hq.not_space
    have hdrop := @Substring.dropWhile_around _ isSpace _ [] nofun hhead
    rw [List.nil_append] at hdrop
    unfold trim Substring.trim
    rw [hdrop]
    have hsplit : key ++ 0x3A :: 0x20 :: quote :: v₁ = (key ++ [0x3A, 0x20, quote]) ++ v₁ := by simp
    rw [hsplit, Substring.rdropWhile_behind hlast]
    simp
  have hopen : quote ∉ v₁.rdropWhile isSpace := fun hmem =>
    hq.unquoted (List.mem_append_left _ ((List.rdropWhile_prefix isSpace v₁).subset hmem))
  have hlast : ∀ a ∈ (quote :: v₁.rdropWhile isSpace).getLast?, isSpace a = false := by
    rw [List.getLast?_cons]
    cases hw : (v₁.rdropWhile isSpace).getLast? with
    | none => exact hq.not_space
    | some b =>
      intro a ha
      obtain rfl : b = a := Option.some.inj ha
      have hnil : v₁.rdropWhile isSpace ≠ [] := by
        intro hnil
        rw [hnil] at hw
        cases hw
      rw [List.getLast?_eq_some_getLast hnil] at hw
      rw [← Option.some.inj hw]
      exact Bool.eq_false_of_not_eq_true (List.rdropWhile_last_not isSpace v₁ hnil)
  refine ⟨v₁.rdropWhile isSpace, ?_⟩
  rw [hcut, htrim, parseKeyValue_colon hkey.colon, hown, if_neg hne,
    @trim_blank (quote :: v₁.rdropWhile isSpace) hq.not_space hlast, stripQuotes_open hopen]

/-- What a line does to the settings, outside the sections that are lists. -/
theorem loadLine_kv {s s' : Loader} {line : Text} (h : s.loadLine line = .ok s')
    (hother : s.currentSection ≠ ascii "devices" ∧ s.currentSection ≠ ascii "serials") :
    s'.kv = s.kv ∨ s.currentSection ≠ [] ∧
      ∃ k val, parseKeyValue (trim (line.takeWhile (· ≠ 0x23))) = some (k, val) ∧
        s'.kv = Function.update s.kv (entry s.currentSection k) (some val) := by
  unfold Loader.loadLine Loader.trimmedLine at h
  rw [show s.next.currentSection = s.currentSection from rfl, if_neg hother.1, if_neg hother.2] at h
  split_ifs at h
  · cases h
    exact Or.inl rfl
  · cases h
    unfold Loader.header
    split_ifs <;> exact Or.inl rfl
  · unfold Loader.plainLine at h
    split at h
    · cases h
    · rename_i k val hparse
      split_ifs at h with hsection
      cases h
      exact Or.inr ⟨hsection, k, val, hparse, rfl⟩

/-- The line sets the key to the text between the quotes, exactly if there is no comment sign in it and
both names are ones. -/
theorem loadLine_quoted_iff (hkey : IsKey key) (hq : IsQuoted quote v) {name : Text}
    (hother : name ≠ ascii "devices" ∧ name ≠ ascii "serials") :
    (∀ s : Loader, s.currentSection = name →
      s.loadLine (configLine key quote v) = .ok (s.next.set key v)) ↔
    0x23 ∉ v ∧ name ≠ [] ∧ key ≠ [] ∧ trim key = key := by
  constructor
  · intro hall
    have h := hall { currentSection := name } rfl
    have hset : (({ currentSection := name } : Loader).next.set key v).kv (entry name key) = some v :=
      Function.update_self ..
    rcases loadLine_kv h hother with hsame | ⟨hname, k, val, hparse, hkv⟩
    · rw [hsame] at hset
      cases hset
    · rw [hkv, Function.update_apply] at hset
      split_ifs at hset with hentry
      obtain rfl : key = k := List.append_cancel_left hentry
      obtain rfl := Option.some.inj hset
      obtain ⟨hne, hown⟩ := parseKeyValue_own hparse
      refine ⟨fun hv => ?_, hname, hne, hown⟩
      obtain ⟨w, hopen⟩ := parse_commented hkey hq hown hne hv
      rw [hopen] at hparse
      obtain ⟨-, rfl⟩ := Prod.mk.inj (Option.some.inj hparse)
      exact hq.unquoted List.mem_cons_self
  · rintro ⟨hv, hname, hne, hown⟩ s rfl
    exact loadLine_quoted hkey hq hown hne hv hname hother

end Quoted

end EdgeLink.Config
