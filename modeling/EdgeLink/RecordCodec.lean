import EdgeLink.JsonLookup
import EdgeLink.LittleEndian
import EdgeLink.SensorData

namespace EdgeLink.Gateway
open LittleEndian

/-! Numbers as the standard library reads them: blanks, a sign, digits, and anything after. -/

def isSpace (c : Char) : Bool := c = ' ' || (9 ≤ c.toNat && c.toNat ≤ 13)

def readSign : List Char → Bool × List Char
  | '-' :: s => (true, s)
  | '+' :: s => (false, s)
  | s => (false, s)

def readNumber (s : List Char) : Option (Bool × ℕ) :=
  let s := readSign (s.dropWhile isSpace)
  let digits := s.2.takeWhile Char.isDigit
  if digits = [] then none else some (s.1, Nat.ofDigitChars 10 digits 0)

def stoull (s : List Char) : Option UInt64 :=
  (readNumber s).bind fun r =>
    if 2 ^ 64 ≤ r.2 then none
    else some (if r.1 then - UInt64.ofNat r.2 else UInt64.ofNat r.2)

/-- `unsigned long` has 64 bits on the gateway. -/
def stoul (s : List Char) : Option UInt64 := stoull s

def stoi (s : List Char) : Option ℤ :=
  (readNumber s).bind fun r =>
    let n : ℤ := if r.1 then - r.2 else r.2
    if -2147483648 ≤ n ∧ n < 2147483648 then some n else none

/-- A number in thousandths; more than three digits behind the point are not looked at. -/
def stod (s : List Char) : Option ℤ :=
  let s := readSign (s.dropWhile isSpace)
  let int := s.2.takeWhile Char.isDigit
  let frac := match s.2.dropWhile Char.isDigit with
    | '.' :: r => r.takeWhile Char.isDigit
    | _ => []
  if int = [] ∧ frac = [] then none
  else
    let m : ℤ := Nat.ofDigitChars 10 (int ++ (frac ++ ['0', '0', '0']).take 3) 0
    some (if s.1 then - m else m)

/-- The characters of a text of bytes. -/
def chars (t : List UInt8) : List Char := t.map fun b => Char.ofNat b.toNat

theorem toNat_char (b : UInt8) : (Char.ofNat b.toNat).toNat = b.toNat := by
  have hlt := b.toNat_lt
  have hvalid : b.toNat.isValidChar := Or.inl (by omega)
  rw [Char.toNat_ofNat, if_pos hvalid]

theorem char_eq (b : UInt8) (c : Char) : Char.ofNat b.toNat = c ↔ b.toNat = c.toNat := by
  constructor
  · rintro rfl
    exact (toNat_char b).symm
  · intro h
    rw [h, Char.ofNat_toNat]

theorem isSpace_char (b : UInt8) : isSpace (Char.ofNat b.toNat) = Lookup.isSpace b := by
  have hspace : Char.ofNat b.toNat = ' ' ↔ b = 0x20 := by
    rw [char_eq, ← UInt8.toNat_inj]
    rfl
  unfold isSpace Lookup.isSpace
  rw [toNat_char, Bool.eq_iff_iff]
  simp [hspace, UInt8.le_iff_toNat_le]

theorem isDigit_char (b : UInt8) : (Char.ofNat b.toNat).isDigit = Lookup.isDigit b := by
  rw [Bool.eq_iff_iff, Char.isDigit_iff_toNat, toNat_char]
  simp [Lookup.isDigit, UInt8.le_iff_toNat_le]

theorem ofDigitChars_chars (t : List UInt8) (init : ℕ) : Nat.ofDigitChars 10 (chars t) init =
    t.foldl (fun n b => n * 10 + (b.toNat - 0x30)) init := by
  rw [Nat.ofDigitChars_eq_foldl, chars, List.foldl_map]
  simp only [toNat_char, Nat.mul_comm]
  rfl

theorem dropWhile_chars {p : Char → Bool} {q : UInt8 → Bool} (h : ∀ b, p (Char.ofNat b.toNat) = q b)
    (t : List UInt8) : (chars t).dropWhile p = chars (t.dropWhile q) := by
  have hcomp : p ∘ (fun b : UInt8 => Char.ofNat b.toNat) = q := funext h
  rw [chars, List.dropWhile_map, hcomp, chars]

theorem takeWhile_chars {p : Char → Bool} {q : UInt8 → Bool} (h : ∀ b, p (Char.ofNat b.toNat) = q b)
    (t : List UInt8) : (chars t).takeWhile p = chars (t.takeWhile q) := by
  have hcomp : p ∘ (fun b : UInt8 => Char.ofNat b.toNat) = q := funext h
  rw [chars, List.takeWhile_map, hcomp, chars]

theorem readSign_chars (u : List UInt8) : readSign (chars u) =
    (decide (u.head? = some 0x2D),
      chars (if u.head? = some 0x2D ∨ u.head? = some 0x2B then u.tail else u)) := by
  cases u with
  | nil => rfl
  | cons b u =>
    have hminus : Char.ofNat b.toNat = '-' ↔ b = 0x2D := by
      rw [char_eq, ← UInt8.toNat_inj]
      rfl
    have hplus : Char.ofNat b.toNat = '+' ↔ b = 0x2B := by
      rw [char_eq, ← UInt8.toNat_inj]
      rfl
    have hcons : chars (b :: u) = Char.ofNat b.toNat :: chars u := rfl
    rw [hcons]
    unfold readSign
    split
    · rename_i s heq
      obtain ⟨hb, hs⟩ := List.cons_eq_cons.mp heq
      simp [hminus.mp hb, hs]
    · rename_i s heq
      obtain ⟨hb, hs⟩ := List.cons_eq_cons.mp heq
      simp [hplus.mp hb, hs]
    · rename_i s hno hno'
      have hb : b ≠ 0x2D := fun h => hno (chars u) (by rw [hminus.mpr h])
      have hb' : b ≠ 0x2B := fun h => hno' (chars u) (by rw [hplus.mpr h])
      simp [hb, hb', hcons]

theorem foldl_digits {ds : List UInt8} (h : ∀ b ∈ ds, Lookup.isDigit b = true) (n : ℕ) :
    ds.foldl (fun (n : ℤ) b => n * 10 + (b.toNat - 0x30)) n =
      (ds.foldl (fun n b => n * 10 + (b.toNat - 0x30)) n : ℕ) := by
  induction ds generalizing n with
  | nil => rfl
  | cons b ds ih =>
    obtain ⟨hb, hds⟩ := List.forall_mem_cons.mp h
    have hdigit : 48 ≤ b.toNat := by
      have := (Bool.and_eq_true_iff.mp hb).1
      simpa [UInt8.le_iff_toNat_le] using this
    have hstep : (n : ℤ) * 10 + (b.toNat - 0x30) = ((n * 10 + (b.toNat - 0x30) : ℕ) : ℤ) := by
      omega
    rw [List.foldl_cons, List.foldl_cons, hstep, ih hds]

theorem sign_isSome (u : List UInt8) :
    (u.head?.filter fun b => b == 0x2D || b == 0x2B).isSome = true ↔
      u.head? = some 0x2D ∨ u.head? = some 0x2B := by
  cases u.head? with
  | none => simp
  | some b => by_cases hb : b = 0x2D <;> simp [hb, Option.filter_some, Option.isSome_iff_ne_none]

theorem sign_minus (u : List UInt8) :
    (u.head?.filter fun b => b == 0x2D || b == 0x2B) = some 0x2D ↔ u.head? = some 0x2D := by
  cases u.head? with
  | none => simp
  | some b => by_cases hb : b = 0x2D <;> simp [hb, Option.filter_some]

/-- The two readers of numbers are one. -/
theorem stoll_chars (t : List UInt8) : (Lookup.stoll t).map Prod.fst =
    (readNumber (chars t)).bind fun r =>
      let n : ℤ := if r.1 then - r.2 else r.2
      if -2 ^ 63 ≤ n ∧ n < 2 ^ 63 then some n else none := by
  unfold readNumber Lookup.stoll Lookup.skipJsonWhitespace
  rw [dropWhile_chars isSpace_char, readSign_chars]
  dsimp only
  generalize t.dropWhile Lookup.isSpace = u
  rw [takeWhile_chars isDigit_char]
  simp only [sign_isSome, sign_minus]
  -- both have taken the space and the sign, and the same digits are ahead of them
  generalize (if u.head? = some 0x2D ∨ u.head? = some 0x2B then u.tail else u) = v
  have hdigits : ∀ b ∈ v.takeWhile Lookup.isDigit, Lookup.isDigit b = true :=
    fun b hb => List.mem_takeWhile_imp hb
  have hnil : chars (v.takeWhile Lookup.isDigit) = [] ↔ v.takeWhile Lookup.isDigit = [] :=
    List.map_eq_nil_iff
  have hvalue := foldl_digits hdigits 0
  rw [ofDigitChars_chars]
  by_cases hne : v.takeWhile Lookup.isDigit = []
  · rw [if_pos hne, if_pos (hnil.mpr hne)]
    rfl
  · rw [if_neg hne, if_neg (mt hnil.mp hne), Option.bind_some]
    rw [Nat.cast_zero] at hvalue
    simp only [hvalue, decide_eq_true_eq]
    split_ifs <;> rfl

theorem isDigit_decimal {n : ℕ} {c : Char} (h : c ∈ decimal n) : c.isDigit = true :=
  Nat.isDigit_of_mem_toDigits (by decide) (by decide) h

theorem decimal_ne_nil (n : ℕ) : decimal n ≠ [] := Nat.toDigits_ne_nil

theorem isDigit_digitChar {d : ℕ} (h : d < 10) : d.digitChar.isDigit = true := by
  interval_cases d <;> rfl

theorem not_space_of_digit {c : Char} (h : c.isDigit = true) : isSpace c = false := by
  have hc : 48 ≤ c.toNat := (Char.isDigit_iff_toNat.mp h).1
  have hblank : c ≠ ' ' := by
    rintro rfl
    exact absurd h (by decide)
  have hctl : ¬ c.toNat ≤ 13 := by omega
  simp [isSpace, hblank, hctl]

theorem readSign_digit {c : Char} (h : c.isDigit = true) (s : List Char) :
    readSign (c :: s) = (false, c :: s) := by
  unfold readSign
  split
  · rename_i heq
    rw [(List.cons.inj heq).1] at h
    exact absurd h (by decide)
  · rename_i heq
    rw [(List.cons.inj heq).1] at h
    exact absurd h (by decide)
  · rfl

/-- Neither blanks nor a sign stand before a digit. -/
theorem readSign_decimal (n : ℕ) (s : List Char) :
    readSign ((decimal n ++ s).dropWhile isSpace) = (false, decimal n ++ s) := by
  obtain ⟨c, t, hct⟩ := List.exists_cons_of_ne_nil (decimal_ne_nil n)
  have hc : c.isDigit = true := isDigit_decimal (n := n) (by rw [hct]; exact List.mem_cons_self)
  rw [hct, List.cons_append, List.dropWhile_cons_of_neg (by simp [not_space_of_digit hc]),
    readSign_digit hc]

theorem readNumber_decimal (n : ℕ) : readNumber (decimal n) = some (false, n) := by
  have hs := readSign_decimal n []
  rw [List.append_nil] at hs
  have hall : (decimal n).takeWhile Char.isDigit = decimal n :=
    List.takeWhile_eq_self_iff.mpr fun c hc => isDigit_decimal hc
  simp only [readNumber, hs, hall, decimal_ne_nil, if_false]
  rw [decimal, Nat.ofDigitChars_ten_toDigits]

theorem stoull_decimal {n : ℕ} (h : n < 2 ^ 64) : stoull (decimal n) = some (UInt64.ofNat n) := by
  rw [stoull, readNumber_decimal, Option.bind_some, if_neg (not_le.mpr h),
    if_neg Bool.false_ne_true]

theorem stoi_decimal {n : ℕ} (h : n < 2147483648) : stoi (decimal n) = some (n : ℤ) := by
  have hrange : -2147483648 ≤ (n : ℤ) ∧ (n : ℤ) < 2147483648 := by omega
  rw [stoi, readNumber_decimal, Option.bind_some]
  exact if_pos hrange

def fraction (m : ℕ) : List Char :=
  [(m / 100 % 10).digitChar, (m / 10 % 10).digitChar, (m % 10).digitChar]

theorem fixed3_eq (m : ℤ) : fixed3 m =
    (if m < 0 then ['-'] else []) ++ (decimal (m.natAbs / 1000) ++ '.' :: fraction m.natAbs) := by
  rw [fixed3, List.append_assoc]
  rfl

theorem ofDigitChars_fraction (m : ℕ) :
    Nat.ofDigitChars 10 (decimal (m / 1000) ++ fraction m) 0 = m := by
  rw [Nat.ofDigitChars_append, decimal, Nat.ofDigitChars_ten_toDigits, fraction,
    Nat.ofDigitChars_cons_digitChar_of_lt_ten (by omega),
    Nat.ofDigitChars_cons_digitChar_of_lt_ten (by omega),
    Nat.ofDigitChars_cons_digitChar_of_lt_ten (by omega), Nat.ofDigitChars_nil]
  omega

theorem stod_fixed3 (m : ℤ) : stod (fixed3 m) = some m := by
  have hdigits : ∀ c ∈ fraction m.natAbs, c.isDigit = true := by
    intro c hc
    simp only [fraction, List.mem_cons, List.not_mem_nil, or_false] at hc
    rcases hc with rfl | rfl | rfl <;> exact isDigit_digitChar (Nat.mod_lt _ (by decide))
  have hpoint : ('.' :: fraction m.natAbs).takeWhile Char.isDigit = [] :=
    List.takeWhile_cons_of_neg (by decide)
  have hpoint' : ('.' :: fraction m.natAbs).dropWhile Char.isDigit = '.' :: fraction m.natAbs :=
    List.dropWhile_cons_of_neg (by decide)
  have hint : (decimal (m.natAbs / 1000) ++ '.' :: fraction m.natAbs).takeWhile Char.isDigit =
      decimal (m.natAbs / 1000) := by
    rw [List.takeWhile_append_of_pos fun c hc => isDigit_decimal hc, hpoint, List.append_nil]
  have hrest : (decimal (m.natAbs / 1000) ++ '.' :: fraction m.natAbs).dropWhile Char.isDigit =
      '.' :: fraction m.natAbs := by
    rw [List.dropWhile_append_of_pos fun c hc => isDigit_decimal hc, hpoint']
  have hfrac : (fraction m.natAbs).takeWhile Char.isDigit = fraction m.natAbs :=
    List.takeWhile_eq_self_iff.mpr hdigits
  have htake : (fraction m.natAbs ++ ['0', '0', '0']).take 3 = fraction m.natAbs := rfl
  have hsign : readSign ((fixed3 m).dropWhile isSpace) =
      (decide (m < 0), decimal (m.natAbs / 1000) ++ '.' :: fraction m.natAbs) := by
    rw [fixed3_eq]
    by_cases hneg : m < 0
    · rw [if_pos hneg, decide_eq_true hneg, List.singleton_append,
        List.dropWhile_cons_of_neg (by decide), readSign]
    · rw [if_neg hneg, decide_eq_false hneg, List.nil_append, readSign_decimal]
  simp only [stod, hsign, hint, hrest, hfrac, htake, decimal_ne_nil, false_and, if_false,
    ofDigitChars_fraction, decide_eq_true_eq]
  congr 1
  split_ifs <;> omega

def sanitize (s : String) : List Char :=
  s.toList.map fun ch => if ch = '\t' ∨ ch = '\n' ∨ ch = '\r' then ' ' else ch

def splitTab (s : List Char) : List (List Char) := s.splitOn '\t'

def columns (data : SensorData) : List (List Char) :=
  [decimal data.timestampUnixMs.toNat, decimal data.deviceId.toNat,
    decimal data.frameType.wire.toNat, sanitize data.deviceName, sanitize data.topicSuffix,
    sanitize data.payloadSummary, fixed3 data.temperature, fixed3 data.humidity,
    fixed3 data.voltage, decimal data.status.toNat, decimal data.commandId.toNat,
    decimal data.commandResult.toNat]

def encodeSensorRecord (data : SensorData) : List Char := ['\t'].intercalate (columns data)

/-- Lines of eight columns are an older format. -/
def decodeSensorRecord (line : List Char) : Option SensorData :=
  match splitTab line with
  | [timestamp, device_id, device_name, topic_suffix, temperature, humidity, voltage, status] => do
    let timestamp ← stoull timestamp
    let device_id ← stoul device_id
    let temperature ← stod temperature
    let humidity ← stod humidity
    let voltage ← stod voltage
    let status ← stoul status
    some { timestampUnixMs := timestamp, deviceId := device_id.toUInt8, frameType := .sensorData,
           deviceName := String.ofList device_name, topicSuffix := String.ofList topic_suffix,
           payloadSummary := "", temperature := temperature, humidity := humidity,
           voltage := voltage, status := status.toUInt8, commandId := 0, commandResult := 0 }
  | [timestamp, device_id, frame_type, device_name, topic_suffix, payload_summary, temperature,
      humidity, voltage, status, command_id, command_result] => do
    let timestamp ← stoull timestamp
    let device_id ← stoul device_id
    let frame_type ← stoul frame_type
    let temperature ← stod temperature
    let humidity ← stod humidity
    let voltage ← stod voltage
    let status ← stoul status
    let command_id ← stoul command_id
    let command_result ← stoul command_result
    some { timestampUnixMs := timestamp, deviceId := device_id.toUInt8,
           frameType := frameTypeFromWire frame_type.toUInt8,
           deviceName := String.ofList device_name, topicSuffix := String.ofList topic_suffix,
           payloadSummary := String.ofList payload_summary, temperature := temperature,
           humidity := humidity, voltage := voltage, status := status.toUInt8,
           commandId := command_id.toUInt16, commandResult := command_result.toUInt8 }
  | _ => none

/-- What the columns have room for. -/
def carried (data : SensorData) : SensorData :=
  { timestampUnixMs := data.timestampUnixMs, deviceId := data.deviceId,
    frameType := data.frameType, deviceName := String.ofList (sanitize data.deviceName),
    topicSuffix := String.ofList (sanitize data.topicSuffix),
    payloadSummary := String.ofList (sanitize data.payloadSummary),
    temperature := data.temperature, humidity := data.humidity, voltage := data.voltage,
    status := data.status, commandId := data.commandId, commandResult := data.commandResult }

section Separator
variable {sep : Char} (hsep : sep = '\t' ∨ sep = '\n')
include hsep

theorem not_digit_of_separator : sep.isDigit = false := by
  rcases hsep with rfl | rfl <;> rfl

theorem separator_not_mem_decimal (n : ℕ) : sep ∉ decimal n := by
  intro h
  exact Bool.false_ne_true ((not_digit_of_separator hsep).symm.trans (isDigit_decimal h))

theorem separator_not_mem_sanitize (s : String) : sep ∉ sanitize s := by
  intro h
  obtain ⟨ch, -, heq⟩ := List.mem_map.mp h
  split_ifs at heq with hch
  · subst heq
    exact absurd hsep (by decide)
  · subst heq
    exact hch (hsep.imp_right Or.inl)

theorem separator_not_mem_fixed3 (m : ℤ) : sep ∉ fixed3 m := by
  have hdigit : ∀ d < 10, sep ≠ d.digitChar := by
    rintro d hd rfl
    exact Bool.false_ne_true ((not_digit_of_separator hsep).symm.trans (isDigit_digitChar hd))
  have hsign : sep ≠ '-' ∧ sep ≠ '.' := by
    rcases hsep with rfl | rfl <;> decide
  rw [fixed3_eq]
  simp only [fraction, List.mem_append, List.mem_cons, List.not_mem_nil, or_false, not_or]
  refine ⟨?_, separator_not_mem_decimal hsep _, hsign.2, hdigit _ ?_, hdigit _ ?_, hdigit _ ?_⟩
  · split_ifs
    · rw [List.mem_singleton]
      exact hsign.1
    · exact List.not_mem_nil
  all_goals exact Nat.mod_lt _ (by decide)

theorem separator_not_mem_columns (data : SensorData) : ∀ column ∈ columns data, sep ∉ column := by
  have hd := separator_not_mem_decimal hsep
  have ht := separator_not_mem_sanitize hsep
  have hf := separator_not_mem_fixed3 hsep
  simp only [columns, List.forall_mem_cons, List.not_mem_nil, false_implies, implies_true,
    hd, ht, hf, not_false_eq_true, and_self]

end Separator

theorem splitTab_columns (data : SensorData) :
    splitTab (encodeSensorRecord data) = columns data :=
  List.splitOn_intercalate '\t' (separator_not_mem_columns (Or.inl rfl) data) (List.cons_ne_nil _ _)

theorem stoul_byte (b : UInt8) : stoul (decimal b.toNat) = some b.toUInt64 := by
  have hb := b.toNat_lt
  rw [stoul, stoull_decimal (by omega)]
  congr 1
  apply UInt64.toNat.inj
  rw [UInt64.toNat_ofNat_of_lt' (hb.trans (by decide)), UInt8.toNat_toUInt64]

theorem stoul_halfword (w : UInt16) : stoul (decimal w.toNat) = some w.toUInt64 := by
  have hw := w.toNat_lt
  rw [stoul, stoull_decimal (by omega)]
  congr 1
  apply UInt64.toNat.inj
  rw [UInt64.toNat_ofNat_of_lt' (hw.trans (by decide)), UInt16.toNat_toUInt64]

theorem stoull_word (w : UInt64) : stoull (decimal w.toNat) = some w := by
  rw [stoull_decimal w.toNat_lt, UInt64.ofNat_toNat]

/-- Reading a written record gives back what the columns carry. -/
theorem decode_encodeSensorRecord (data : SensorData) :
    decodeSensorRecord (encodeSensorRecord data) = some (carried data) := by
  unfold decodeSensorRecord
  rw [splitTab_columns]
  simp only [columns, stoull_word, stoul_byte, stoul_halfword, stod_fixed3, Option.bind_eq_bind,
    Option.bind_some, UInt8.toUInt8_toUInt64, UInt16.toUInt16_toUInt64, frameTypeFromWire_wire]
  rfl

theorem sanitize_sanitize (s : String) : sanitize (String.ofList (sanitize s)) = sanitize s := by
  unfold sanitize
  rw [String.toList_ofList, List.map_map]
  apply List.map_congr_left
  intro ch _
  rw [Function.comp_apply]
  by_cases h : ch = '\t' ∨ ch = '\n' ∨ ch = '\r'
  · rw [if_pos h, if_neg (by decide)]
  · rw [if_neg h, if_neg h]

theorem encode_carried (data : SensorData) :
    encodeSensorRecord (carried data) = encodeSensorRecord data := by
  unfold encodeSensorRecord columns carried
  simp only [sanitize_sanitize]

inductive PendingUploadKind
  | sensor | heartbeat | status | event | commandAck | otaStatus
  deriving DecidableEq, Repr

namespace PendingUploadKind

/-- The enumerator's number. -/
def number : PendingUploadKind → ℕ
  | sensor => 1
  | heartbeat => 2
  | status => 3
  | event => 4
  | commandAck => 5
  | otaStatus => 6

def ofNumber (kind : ℤ) : Option PendingUploadKind :=
  if kind = 1 then some sensor
  else if kind = 2 then some heartbeat
  else if kind = 3 then some status
  else if kind = 4 then some event
  else if kind = 5 then some commandAck
  else if kind = 6 then some otaStatus
  else none

def sensorLike : PendingUploadKind → Bool
  | sensor | status | commandAck => true
  | heartbeat | event | otaStatus => false

theorem ofNumber_number (kind : PendingUploadKind) : ofNumber kind.number = some kind := by
  cases kind <;> rfl

end PendingUploadKind

structure PendingUploadRecord where
  kind : PendingUploadKind := .sensor
  data : SensorData := {}
  payload : Bytes := []
  deriving DecidableEq

def kHex : List Char :=
  ['0', '1', '2', '3', '4', '5', '6', '7', '8', '9', 'A', 'B', 'C', 'D', 'E', 'F']

def hexEncode : Bytes → List Char
  | [] => []
  | ch :: input =>
    kHex.getD (ch.toNat / 16) '0' :: kHex.getD (ch.toNat % 16) '0' :: hexEncode input

def fromHex (ch : Char) : Option ℕ :=
  if '0' ≤ ch ∧ ch ≤ '9' then some (ch.toNat - '0'.toNat)
  else if 'a' ≤ ch ∧ ch ≤ 'f' then some (10 + (ch.toNat - 'a'.toNat))
  else if 'A' ≤ ch ∧ ch ≤ 'F' then some (10 + (ch.toNat - 'A'.toNat))
  else none

def hexDecode : List Char → Option Bytes
  | [] => some []
  | [_] => none
  | a :: b :: input =>
    match fromHex a, fromHex b with
    | some hi, some lo => (hexDecode input).map fun out => UInt8.ofNat (hi * 16 + lo) :: out
    | _, _ => none

def encodePendingRecord (record : PendingUploadRecord) : List Char :=
  decimal record.kind.number ++ '\t' ::
    (if record.kind.sensorLike then encodeSensorRecord record.data else hexEncode record.payload)

/-- A line without a tab is taken for a bare sensor record. -/
def decodePendingRecord (line : List Char) : Option PendingUploadRecord :=
  match line.dropWhile (· ≠ '\t') with
  | [] => (decodeSensorRecord line).map fun data => { kind := .sensor, data := data }
  | _ :: payload =>
    ((stoi (line.takeWhile (· ≠ '\t'))).bind PendingUploadKind.ofNumber).bind fun kind =>
      if kind.sensorLike then
        (decodeSensorRecord payload).map fun data => { kind := kind, data := data }
      else (hexDecode payload).map fun payload => { kind := kind, payload := payload }

theorem fromHex_kHex {d : ℕ} (h : d < 16) : fromHex (kHex.getD d '0') = some d := by
  interval_cases d <;> rfl

theorem hexDecode_hexEncode (payload : Bytes) : hexDecode (hexEncode payload) = some payload := by
  induction payload with
  | nil => rfl
  | cons ch payload ih =>
    have hch := ch.toNat_lt
    rw [hexEncode, hexDecode, fromHex_kHex (by omega), fromHex_kHex (by omega), ih]
    simp only [Option.map_some]
    rw [show ch.toNat / 16 * 16 + ch.toNat % 16 = ch.toNat by omega, UInt8.ofNat_toNat]

/-- What a record of its kind keeps in the file. -/
def PendingUploadRecord.kept (record : PendingUploadRecord) : PendingUploadRecord :=
  if record.kind.sensorLike then { kind := record.kind, data := carried record.data }
  else { kind := record.kind, payload := record.payload }

theorem decode_encodePendingRecord (record : PendingUploadRecord) :
    decodePendingRecord (encodePendingRecord record) = some record.kept := by
  have hkind : ∀ c ∈ decimal record.kind.number, decide (c ≠ '\t') = true := by
    intro c hc
    rw [decide_eq_true_eq]
    rintro rfl
    exact separator_not_mem_decimal (Or.inl rfl) _ hc
  have hnum : record.kind.number < 2147483648 := by
    cases record.kind <;> decide
  unfold decodePendingRecord encodePendingRecord
  rw [List.dropWhile_append_of_pos hkind, List.takeWhile_append_of_pos hkind,
    List.dropWhile_cons_of_neg (by decide), List.takeWhile_cons_of_neg (by decide)]
  simp only [List.append_nil, stoi_decimal hnum, Option.bind_some,
    PendingUploadKind.ofNumber_number, PendingUploadRecord.kept]
  by_cases hs : record.kind.sensorLike = true
  · rw [if_pos hs, if_pos hs, if_pos hs, decode_encodeSensorRecord, Option.map_some]
  · rw [if_neg hs, if_neg hs, if_neg hs, hexDecode_hexEncode, Option.map_some]

/-- The texts hold none of the characters that the file cannot. -/
def Clean (data : SensorData) : Prop :=
  ∀ s ∈ [data.deviceName, data.topicSuffix, data.payloadSummary], ∀ ch ∈ s.toList,
    ch ≠ '\t' ∧ ch ≠ '\r' ∧ ch ≠ '\n'

/-- The fields of interest upstream: all but the last error and the states of the two sensors of
the wireless node. -/
def published (data : SensorData) : SensorData :=
  { data with lastError := "", mq2Alarm := -1, ld2402Presence := -1 }

/-- The record comes back from the file with all that is of interest. -/
def Replays (record : PendingUploadRecord) : Prop :=
  ∃ r, decodePendingRecord (encodePendingRecord record) = some r ∧ r.kind = record.kind ∧
    if record.kind.sensorLike then published r.data = published record.data
    else r.payload = record.payload

/-- The fields without a column are as in a record that nobody has set. -/
def Bare (data : SensorData) : Prop :=
  data.light = -1000 ∧ data.linkType = "serial" ∧ data.wifiRssi = 0 ∧
    data.wifiConnected = false ∧ data.wifiLastSeenMs = 0 ∧ data.seq = 0 ∧ data.ledOn = -1 ∧
    data.alarmOn = -1 ∧ data.sensorValid = -1 ∧ data.autoMode = -1

theorem sanitize_clean {s : String} (h : ∀ ch ∈ s.toList, ch ≠ '\t' ∧ ch ≠ '\r' ∧ ch ≠ '\n') :
    String.ofList (sanitize s) = s := by
  have hmap : sanitize s = s.toList := by
    unfold sanitize
    rw [List.map_congr_left (g := id), List.map_id]
    intro ch hch
    obtain ⟨ht, hr, hn⟩ := h ch hch
    rw [if_neg (not_or.mpr ⟨ht, not_or.mpr ⟨hn, hr⟩⟩), id]
  rw [hmap, String.ofList_toList]

theorem published_carried_iff {data : SensorData} (h : Clean data) :
    published (carried data) = published data ↔ Bare data := by
  have hname : String.ofList (sanitize data.deviceName) = data.deviceName :=
    sanitize_clean (h _ (by simp))
  have htopic : String.ofList (sanitize data.topicSuffix) = data.topicSuffix :=
    sanitize_clean (h _ (by simp))
  have hsummary : String.ofList (sanitize data.payloadSummary) = data.payloadSummary :=
    sanitize_clean (h _ (by simp))
  unfold published carried Bare
  rw [hname, htopic, hsummary]
  simp only [SensorData.mk.injEq, true_and]
  constructor
  · rintro ⟨h₁, h₂, h₃, h₄, h₅, h₆, h₇, h₈, h₉, h₁₀⟩
    exact ⟨h₁.symm, h₂.symm, h₃.symm, h₄.symm, h₅.symm, h₆.symm, h₇.symm, h₈.symm, h₉.symm,
      h₁₀.symm⟩
  · rintro ⟨h₁, h₂, h₃, h₄, h₅, h₆, h₇, h₈, h₉, h₁₀⟩
    exact ⟨h₁.symm, h₂.symm, h₃.symm, h₄.symm, h₅.symm, h₆.symm, h₇.symm, h₈.symm, h₉.symm,
      h₁₀.symm⟩

/-- A record replays as it was submitted exactly if the fields without a column are unset. -/
theorem replays_iff (record : PendingUploadRecord)
    (h : record.kind.sensorLike = true → Clean record.data) :
    Replays record ↔ (record.kind.sensorLike = true → Bare record.data) := by
  unfold Replays
  simp only [decode_encodePendingRecord, Option.some.injEq, exists_eq_left']
  unfold PendingUploadRecord.kept
  by_cases hs : record.kind.sensorLike = true
  · rw [if_pos hs, if_pos hs]
    simp only [true_and, hs, true_implies]
    exact published_carried_iff (h hs)
  · rw [if_neg hs, if_neg hs]
    exact ⟨fun _ hs' => absurd hs' hs, fun _ => ⟨rfl, rfl⟩⟩

/-- A wired sensor's record. -/
def alphaRecord : PendingUploadRecord :=
  { kind := .sensor, data := { deviceId := 1, deviceName := "alpha", temperature := 20100 } }

theorem alpha_replays : Replays alphaRecord :=
  (replays_iff alphaRecord (fun _ => by simp [Clean, alphaRecord])).mpr
    (fun _ => by simp [Bare, alphaRecord])

/-- The same from a wireless node. -/
def betaRecord : PendingUploadRecord :=
  { kind := .sensor, data := { deviceId := 2, deviceName := "beta", linkType := "wifi" } }

theorem wifi_forgotten : Clean betaRecord.data ∧ ¬ Replays betaRecord := by
  have hclean : Clean betaRecord.data := by simp [Clean, betaRecord]
  refine ⟨hclean, ?_⟩
  rintro ⟨r, hr, -, hdata⟩
  rw [decode_encodePendingRecord] at hr
  have hkept : published (carried betaRecord.data) = published betaRecord.data := by
    rw [← Option.some.inj hr] at hdata
    exact hdata
  have hlink : betaRecord.data.linkType = "serial" := ((published_carried_iff hclean).mp hkept).2.1
  exact absurd hlink (by decide)

/-- The bare line of a record comes back as the sensor record that it is. -/
def ReplaysBare (data : SensorData) : Prop :=
  ∃ r, decodePendingRecord (encodeSensorRecord data) = some r ∧ r.kind = .sensor ∧
    decodeSensorRecord (encodeSensorRecord data) = some r.data

/-- What follows the first column. -/
def laterColumns (data : SensorData) : List (List Char) := (columns data).tail

theorem encode_split (data : SensorData) : encodeSensorRecord data =
    decimal data.timestampUnixMs.toNat ++ '\t' :: ['\t'].intercalate (laterColumns data) := rfl

theorem splitTab_later (data : SensorData) :
    splitTab (['\t'].intercalate (laterColumns data)) = laterColumns data :=
  List.splitOn_intercalate '\t' (fun column hcolumn => separator_not_mem_columns (Or.inl rfl) data
    column (List.mem_of_mem_tail hcolumn)) (List.cons_ne_nil _ _)

/-- Eleven columns are no record. -/
theorem decodeSensorRecord_later (data : SensorData) :
    decodeSensorRecord (['\t'].intercalate (laterColumns data)) = none := by
  unfold decodeSensorRecord
  rw [splitTab_later]
  rfl

theorem hexDecode_of_mem {ch : Char} (hch : fromHex ch = none) {s : List Char} (h : ch ∈ s) :
    hexDecode s = none := by
  induction s using hexDecode.induct with
  | case1 => exact absurd h List.not_mem_nil
  | case2 => rfl
  | case3 a b input hi lo hb ha ih =>
    have hin : ch ∈ input := by
      rcases List.mem_cons.mp h with rfl | h
      · rw [hch] at ha
        cases ha
      rcases List.mem_cons.mp h with rfl | h
      · rw [hch] at hb
        cases hb
      · exact h
    rw [hexDecode, ha, hb]
    dsimp only
    rw [ih hin, Option.map_none]
  | case4 a b input hnone =>
    rw [hexDecode]
    split
    · rename_i hi lo ha hb
      exact absurd hb (hnone hi lo ha)
    · rfl

theorem tab_mem_later (data : SensorData) : '\t' ∈ ['\t'].intercalate (laterColumns data) := by
  have hsplit : ['\t'].intercalate (laterColumns data) =
      decimal data.deviceId.toNat ++ '\t' :: ['\t'].intercalate (laterColumns data).tail := rfl
  rw [hsplit]
  exact List.mem_append_right _ List.mem_cons_self

/-- Its first column is taken for a kind, and whatever that gives, the rest is not what it says. -/
theorem decodePendingRecord_bare (data : SensorData) :
    decodePendingRecord (encodeSensorRecord data) = none := by
  have hfirst : ∀ c ∈ decimal data.timestampUnixMs.toNat, decide (c ≠ '\t') = true := by
    intro c hc
    rw [decide_eq_true_eq]
    rintro rfl
    exact separator_not_mem_decimal (Or.inl rfl) _ hc
  unfold decodePendingRecord
  rw [encode_split, List.dropWhile_append_of_pos hfirst, List.dropWhile_cons_of_neg (by decide)]
  dsimp only
  rw [decodeSensorRecord_later, hexDecode_of_mem (by decide) (tab_mem_later data)]
  cases (stoi _).bind PendingUploadKind.ofNumber with
  | none => rfl
  | some kind => exact ite_self none

theorem never_replays_bare (data : SensorData) : ¬ ReplaysBare data := by
  rintro ⟨r, hr, -⟩
  rw [decodePendingRecord_bare] at hr
  cases hr

theorem bare_line_lost : ¬∀ data, Clean data → ReplaysBare data := by
  intro h
  obtain ⟨r, hr, -⟩ := h alphaRecord.data (by simp [Clean, alphaRecord])
  rw [decodePendingRecord_bare] at hr
  cases hr

end EdgeLink.Gateway
