import EdgeLink.JsonLaws
import EdgeLink.Substring

/-! The requests of the HTTP console, read from a socket piece by piece. -/

namespace EdgeLink.Http
open Json Lookup

def trim (s : Text) : Text := Substring.trim isSpace s

def toLowerAscii (s : Text) : Text := s.map lowerByte

def kHttpHeaderSizeLimit : ℕ := 16 * 1024
def kHttpBodySizeLimit : ℕ := 128 * 1024

def crlf : Text := [0x0D, 0x0A]

/-- The empty line behind the headers, with the end of the line before it. -/
def blankLine : Text := crlf ++ crlf

/-- The loop of `findHttpHeaderValue`. -/
def findHeaderFrom (req : Text) (header_end : ℕ) (name : Text) (line_begin : ℕ) : Option Text :=
  if line_begin < header_end then
    match Substring.find crlf (req.drop line_begin) with
    | none => none
    | some n =>
      if header_end < line_begin + n then none
      else
        let line := (req.drop line_begin).take n
        match line.idxOf? 0x3A with
        | none => findHeaderFrom req header_end name (line_begin + n + 2)
        | some colon =>
          if toLowerAscii (trim (line.take colon)) = name then some (trim (line.drop (colon + 1)))
          else findHeaderFrom req header_end name (line_begin + n + 2)
  else none
termination_by header_end - line_begin

def findHttpHeaderValue (req : Text) (header_end : ℕ) (name : Text) : Option Text :=
  findHeaderFrom req header_end name 0

/-- `std::stoull` to the base 10: the number and how many bytes it read. A minus sign is taken too, and
the number goes on from 2^64 downwards. -/
def stoull (s : Text) : Option (ℕ × ℕ) :=
  let t := skipJsonWhitespace s
  let sign := t.head?.filter fun b => b == 0x2D || b == 0x2B
  let unsigned := if sign.isSome then t.tail else t
  let digits := unsigned.takeWhile isDigit
  let magnitude : ℕ := digits.foldl (fun n b => n * 10 + (b.toNat - 0x30)) 0
  if digits = [] then none
  else if magnitude < 2 ^ 64 then
    some (if sign = some 0x2D then (2 ^ 64 - magnitude) % 2 ^ 64 else magnitude,
      s.length - (unsigned.length - digits.length))
  else none

def parseHttpContentLength (req : Text) (header_end : ℕ) : Except Text ℕ :=
  if (findHttpHeaderValue req header_end (ascii "transfer-encoding")).any
      (toLowerAscii · ≠ ascii "identity") then
    .error (ascii "unsupported Transfer-Encoding")
  else
    match findHttpHeaderValue req header_end (ascii "content-length") with
    | none => .ok 0
    | some value =>
      if value = [] then .error (ascii "empty Content-Length")
      else
        match stoull value with
        | none => .error (ascii "invalid Content-Length")
        | some (parsed, pos) =>
          if pos ≠ value.length then .error (ascii "invalid Content-Length")
          else if kHttpBodySizeLimit < parsed then .error (ascii "http body too large")
          else .ok parsed

/-- What one `read` brings. -/
structure Chunk where
  bytes : Text
  pos : bytes ≠ []
  le : bytes.length ≤ 2048

inductive ReadResult
  | data (chunk : Chunk)
  | eof
  | interrupted
  | wouldBlock
  | failed (message : Text)

/-- The variables of `readHttpRequest`; `sizes` is `header_end` and `expected_size`. -/
structure Reading where
  req : Text := []
  sizes : Option (ℕ × ℕ) := none
  idleLoops : ℕ := 0

namespace Reading
variable (s : Reading)

def findSizes (req : Text) : Except Text (Option (ℕ × ℕ)) :=
  match s.sizes with
  | some sizes => .ok (some sizes)
  | none =>
    match Substring.find blankLine req with
    | none => .ok none
    | some p =>
      match parseHttpContentLength req p with
      | .error err => .error err
      | .ok content_length =>
        if kHttpHeaderSizeLimit + kHttpBodySizeLimit < p + 4 + content_length then
          .error (ascii "http request too large")
        else .ok (some (p + 4, p + 4 + content_length))

/-- One round with data: what the function returns, or how it goes on. -/
def append (bytes : Text) : Except Text Text ⊕ Reading :=
  let req := s.req ++ bytes
  if s.sizes = none ∧ kHttpHeaderSizeLimit < req.length then
    .inl (.error (ascii "http headers too large"))
  else
    match s.findSizes req with
    | .error err => .inl (.error err)
    | .ok sizes =>
      if sizes.any (·.2 ≤ req.length) then .inl (.ok req) else .inr ⟨req, sizes, 0⟩

def finish : Except Text Text :=
  if s.req = [] then .ok []
  else
    match s.sizes with
    | none => .error (ascii "incomplete http headers")
    | some (header_end, expected_size) =>
      if s.req.length < expected_size then
        .error (ascii "incomplete http body expected=" ++ natText (expected_size - header_end) ++
          ascii " actual=" ++ natText (s.req.length - header_end))
      else .ok s.req

end Reading

/-- The loop, over what the reads bring until `running` is taken back. -/
def readFrom : Reading → List ReadResult → Except Text Text
  | s, [] => s.finish
  | s, r :: rs =>
    if 500 ≤ s.idleLoops then s.finish
    else
      match r with
      | .data chunk =>
        match s.append chunk.bytes with
        | .inl returned => returned
        | .inr s => readFrom s rs
      | .eof => s.finish
      | .interrupted => readFrom s rs
      | .wouldBlock => readFrom { s with idleLoops := s.idleLoops + 1 } rs
      | .failed message => .error (ascii "http read failed: " ++ message)

def readHttpRequest (results : List ReadResult) : Except Text Text := readFrom {} results

def ReadResult.bytes : ReadResult → Text
  | .data chunk => chunk.bytes
  | _ => []

def sent (results : List ReadResult) : Text := results.flatMap ReadResult.bytes

/-- The bytes come in without an error or a long pause, and then the end. -/
def Steady : ℕ → List ReadResult → Prop
  | _, [] => False
  | _, .data _ :: rs => Steady 0 rs
  | _, .eof :: rs => rs = []
  | idle, .interrupted :: rs => Steady idle rs
  | idle, .wouldBlock :: rs => idle + 1 < 500 ∧ Steady (idle + 1) rs
  | _, .failed _ :: _ => False

def bytewise (b : Text) : List ReadResult :=
  b.map (fun c => .data ⟨[c], List.cons_ne_nil c [], Nat.le_add_left 1 2047⟩) ++ [.eof]

/-- The header block, and as much of the body as it declares. -/
def message (req : Text) : Text × Text :=
  match Substring.find blankLine req with
  | none => (req, [])
  | some p =>
    (req.take (p + 4), (req.drop (p + 4)).take ((parseHttpContentLength req p).toOption.getD 0))

/-- The verdict, and what is read, are those of reads of one byte. -/
def SameAsBytewise (results : List ReadResult) : Prop :=
  (readHttpRequest results).map message = (readHttpRequest (bytewise (sent results))).map message

/-- The headers declare a body of `n` bytes, or none. -/
def Declares (req : Text) (header_end n : ℕ) : Prop :=
  (∀ encoding ∈ findHttpHeaderValue req header_end (ascii "transfer-encoding"),
    toLowerAscii encoding = ascii "identity") ∧
  ((findHttpHeaderValue req header_end (ascii "content-length") = none ∧ n = 0) ∨
    ∃ ds, ds ≠ [] ∧ digitsValue ds = n ∧
      findHttpHeaderValue req header_end (ascii "content-length") = some (digitsText ds))

/-- A request of allowed size is accepted. -/
def Accepted (results : List ReadResult) : Prop :=
  ∀ p n, Substring.find blankLine (sent results) = some p → p + 4 ≤ kHttpHeaderSizeLimit →
    Declares (sent results) p n → n ≤ kHttpBodySizeLimit → p + 4 + n ≤ (sent results).length →
    (readHttpRequest results).map message =
      .ok ((sent results).take (p + 4), ((sent results).drop (p + 4)).take n)

/-- How much is there after the read that brings the `n`-th byte. -/
def reached (n : ℕ) : ℕ → List ReadResult → ℕ
  | got, [] => got
  | got, r :: rs =>
    if n ≤ got + r.bytes.length then got + r.bytes.length else reached n (got + r.bytes.length) rs

/-- The read that completes a header block of allowed size does not bring more than that size. -/
def HeadersFit (results : List ReadResult) : Prop :=
  ∀ p, Substring.find blankLine (sent results) = some p → p + 4 ≤ kHttpHeaderSizeLimit →
    reached (p + 4) 0 results ≤ kHttpHeaderSizeLimit

section Headers
variable {req rest : Text} {p : ℕ}

theorem findHeaderFrom_append (hline : crlf <+: req.drop p) (hp : p ≤ req.length) (rest name : Text)
    (line_begin : ℕ) :
    findHeaderFrom (req ++ rest) p name line_begin = findHeaderFrom req p name line_begin := by
  induction hn : p - line_begin using Nat.strong_induction_on generalizing line_begin with
  | _ n ih =>
    unfold findHeaderFrom
    split_ifs with hlt
    · -- the line ends where the header block does, at the latest
      have hend : crlf <+: (req.drop line_begin).drop (p - line_begin) := by
        rw [List.drop_drop, Nat.add_sub_cancel' hlt.le]
        exact hline
      obtain ⟨k, -, hfind⟩ := Substring.find_isSome hend (by rw [List.length_drop]; omega)
      have hfits := Substring.find_fits hfind
      rw [List.drop_append_of_le_length (by omega), hfind, Substring.find_append hfind rest]
      dsimp only
      rw [List.take_append_of_le_length (by omega), ih (p - (line_begin + k + 2)) (by omega) _ rfl]
    · rfl

theorem parseHttpContentLength_append (h : Substring.find blankLine req = some p) (rest : Text) :
    parseHttpContentLength (req ++ rest) p = parseHttpContentLength req p := by
  obtain ⟨hp, hblank, -⟩ := Substring.find_eq_some_iff.mp h
  have hline : crlf <+: req.drop p := (List.prefix_append crlf crlf).trans hblank
  have hvalue : ∀ name, findHttpHeaderValue (req ++ rest) p name = findHttpHeaderValue req p name :=
    fun name => findHeaderFrom_append hline hp rest name 0
  unfold parseHttpContentLength
  rw [hvalue, hvalue]

theorem stoull_digits {ds : List (Fin 10)} (hds : ds ≠ []) (hsmall : digitsValue ds < 2 ^ 64) :
    stoull (digitsText ds) = some (digitsValue ds, (digitsText ds).length) := by
  obtain ⟨d, ds, rfl⟩ := List.exists_cons_of_ne_nil hds
  have hcons : digitsText (d :: ds) = digitByte d :: digitsText ds := rfl
  have hspace : skipJsonWhitespace (digitsText (d :: ds)) = digitsText (d :: ds) := by
    rw [hcons, skipJsonWhitespace_cons (isSpace_scalar (digitByte_scalar d))]
  have hsign : (digitsText (d :: ds)).head?.filter (fun b => b == 0x2D || b == 0x2B) = none := by
    have hnone : ∀ d : Fin 10, (some (digitByte d)).filter
        (fun b => b == 0x2D || b == 0x2B) = none := by decide
    rw [hcons, List.head?_cons, hnone]
  have hdigits := takeWhile_digits (d :: ds) (t := []) nofun
  rw [List.append_nil] at hdigits
  have hvalue : (digitsText (d :: ds)).foldl (fun n b => n * 10 + (b.toNat - 0x30)) 0 =
      digitsValue (d :: ds) := digitsText_foldl (d :: ds) 0
  unfold stoull
  rw [hspace]
  simp only [hsign, Option.isSome_none, Bool.false_eq_true, if_false, hdigits, hvalue, if_pos hsmall,
    Nat.sub_self, Nat.sub_zero, reduceCtorEq]
  rw [if_neg (by rw [hcons]; exact List.cons_ne_nil _ _)]

theorem parse_declared {n : ℕ} (h : Declares req p n) (hn : n ≤ kHttpBodySizeLimit) :
    parseHttpContentLength req p = .ok n := by
  obtain ⟨hencoding, hlength⟩ := h
  unfold parseHttpContentLength
  rw [if_neg (by simpa [Option.any_eq_true] using hencoding)]
  rcases hlength with ⟨hnone, rfl⟩ | ⟨ds, hds, rfl, hsome⟩
  · rw [hnone]
  · have hne : digitsText ds ≠ [] := by simpa [digitsText] using hds
    rw [hsome]
    dsimp only
    rw [if_neg hne, stoull_digits hds (hn.trans_lt (by decide))]
    dsimp only
    rw [if_neg (not_not.mpr rfl), if_neg (Nat.not_lt.mpr hn)]

theorem message_append (h : Substring.find blankLine req = some p) {n : ℕ}
    (hparse : parseHttpContentLength req p = .ok n) (hlen : p + 4 + n ≤ req.length) :
    message req = ((req ++ rest).take (p + 4), ((req ++ rest).drop (p + 4)).take n) := by
  unfold message
  rw [h]
  dsimp only
  rw [hparse, List.take_append_of_le_length (by omega), List.drop_append_of_le_length (by omega),
    List.take_append_of_le_length (by rw [List.length_drop]; omega)]
  rfl

end Headers

section Loop
variable {s : Reading} {results : List ReadResult} {p n idle : ℕ}

/-- What is read in the end, once the sizes are known. -/
def bodyOutcome (total : Text) (p n : ℕ) : Except Text (Text × Text) :=
  if total.length < p + 4 + n then
    .error (ascii "incomplete http body expected=" ++ natText n ++ ascii " actual=" ++
      natText (total.length - (p + 4)))
  else .ok (total.take (p + 4), (total.drop (p + 4)).take n)

/-- Of a body that is there in full the rest does not matter. -/
theorem bodyOutcome_full {req : Text} (h : Substring.find blankLine req = some p)
    (hparse : parseHttpContentLength req p = .ok n) (hlen : p + 4 + n ≤ req.length) (rest : Text) :
    (Except.ok req : Except Text Text).map message = bodyOutcome (req ++ rest) p n := by
  unfold bodyOutcome
  rw [if_neg (by rw [List.length_append]; omega)]
  exact congrArg Except.ok (message_append h hparse hlen)

/-- With the headers in, the rest of the body is waited for. -/
structure InBody (s : Reading) (p n : ℕ) : Prop where
  blank : Substring.find blankLine s.req = some p
  parse : parseHttpContentLength s.req p = .ok n
  sizes : s.sizes = some (p + 4, p + 4 + n)
  short : s.req.length < p + 4 + n

theorem InBody.finish (h : InBody s p n) : s.finish.map message = bodyOutcome s.req p n := by
  have hfits := Substring.find_fits h.blank
  have hne : s.req ≠ [] := by
    intro hnil
    rw [hnil] at hfits
    exact absurd hfits (by simp [blankLine, crlf])
  unfold Reading.finish bodyOutcome
  rw [if_neg hne, h.sizes]
  dsimp only
  rw [if_pos h.short, if_pos h.short, Nat.add_sub_cancel_left]
  rfl

theorem InBody.append (h : InBody s p n) (bytes : Text) :
    s.append bytes = if p + 4 + n ≤ (s.req ++ bytes).length then .inl (.ok (s.req ++ bytes))
      else .inr ⟨s.req ++ bytes, some (p + 4, p + 4 + n), 0⟩ := by
  unfold Reading.append Reading.findSizes
  rw [h.sizes]
  simp only [reduceCtorEq, false_and, if_false, Option.any_some, decide_eq_true_eq]

theorem InBody.next (h : InBody s p n) {bytes : Text} (hshort : (s.req ++ bytes).length < p + 4 + n) :
    InBody ⟨s.req ++ bytes, some (p + 4, p + 4 + n), 0⟩ p n :=
  ⟨Substring.find_append h.blank bytes, by rw [← h.parse]; exact parseHttpContentLength_append h.blank _,
    rfl, hshort⟩

theorem readFrom_body (h : InBody s p n) (hsteady : Steady s.idleLoops results)
    (hidle : s.idleLoops < 500) :
    (readFrom s results).map message = bodyOutcome (s.req ++ sent results) p n := by
  induction results generalizing s with
  | nil => exact hsteady.elim
  | cons r rs ih =>
    unfold readFrom
    rw [if_neg (Nat.not_le.mpr hidle)]
    cases r with
    | data chunk =>
      have hsent : sent (.data chunk :: rs) = chunk.bytes ++ sent rs := rfl
      rw [hsent, ← List.append_assoc]
      dsimp only
      rw [h.append]
      by_cases hlen : p + 4 + n ≤ (s.req ++ chunk.bytes).length
      · have hparse : parseHttpContentLength (s.req ++ chunk.bytes) p = .ok n := by
          rw [← h.parse]
          exact parseHttpContentLength_append h.blank _
        rw [if_pos hlen]
        exact bodyOutcome_full (Substring.find_append h.blank chunk.bytes) hparse hlen _
      · rw [if_neg hlen]
        exact ih (h.next (Nat.not_le.mp hlen)) hsteady (Nat.zero_lt_succ 499)
    | eof =>
      obtain rfl : rs = [] := hsteady
      rw [show sent [.eof] = [] from rfl, List.append_nil]
      exact h.finish
    | interrupted => exact ih h hsteady hidle
    | wouldBlock =>
      refine @ih { s with idleLoops := s.idleLoops + 1 } ?_ hsteady.2 hsteady.1
      exact ⟨h.blank, h.parse, h.sizes, h.short⟩
    | failed text => exact hsteady.elim

/-- What is read in the end, when no header block is found too long. -/
def outcome (total : Text) : Except Text (Text × Text) :=
  match Substring.find blankLine total with
  | none => if total = [] then .ok ([], []) else .error (ascii "incomplete http headers")
  | some p =>
    match parseHttpContentLength total p with
    | .error err => .error err
    | .ok n => bodyOutcome total p n

/-- The size at which the end of the headers is noticed, or at which they are given up. -/
def noticed (got : ℕ) (total : Text) (results : List ReadResult) : ℕ :=
  match Substring.find blankLine total with
  | none => total.length
  | some p => reached (p + 4) got results

theorem le_reached (n got : ℕ) (results : List ReadResult) : got ≤ reached n got results := by
  induction results generalizing got with
  | nil => exact le_rfl
  | cons r rs ih =>
    unfold reached
    split_ifs
    · exact Nat.le_add_right _ _
    · exact (Nat.le_add_right _ _).trans (ih _)

theorem parse_le {req : Text} (h : parseHttpContentLength req p = .ok n) : n ≤ kHttpBodySizeLimit := by
  unfold parseHttpContentLength at h
  split_ifs at h
  split at h
  · cases h
    exact Nat.zero_le _
  · split_ifs at h
    split at h
    · cases h
    · split_ifs at h with hpos hle
      cases h
      exact Nat.not_lt.mp hle

/-- Before the headers are in. -/
structure InHeaders (s : Reading) : Prop where
  blank : Substring.find blankLine s.req = none
  sizes : s.sizes = none
  short : s.req.length ≤ kHttpHeaderSizeLimit

theorem InHeaders.finish (h : InHeaders s) : s.finish.map message = outcome s.req := by
  unfold Reading.finish outcome
  rw [h.blank, h.sizes]
  dsimp only
  split_ifs <;> rfl

/-- A read before the headers are in: too much, or what stands in the headers decides. -/
theorem InHeaders.append (h : InHeaders s) (bytes : Text) :
    s.append bytes = if kHttpHeaderSizeLimit < (s.req ++ bytes).length then
        .inl (.error (ascii "http headers too large"))
      else
        match Substring.find blankLine (s.req ++ bytes) with
        | none => .inr ⟨s.req ++ bytes, none, 0⟩
        | some p =>
          match parseHttpContentLength (s.req ++ bytes) p with
          | .error err => .inl (.error err)
          | .ok n =>
            if p + 4 + n ≤ (s.req ++ bytes).length then .inl (.ok (s.req ++ bytes))
            else .inr ⟨s.req ++ bytes, some (p + 4, p + 4 + n), 0⟩ := by
  unfold Reading.append Reading.findSizes
  rw [h.sizes]
  dsimp only
  by_cases hlarge : kHttpHeaderSizeLimit < (s.req ++ bytes).length
  · rw [if_pos ⟨rfl, hlarge⟩, if_pos hlarge]
  · rw [if_neg (fun hand => hlarge hand.2), if_neg hlarge]
    cases hfind : Substring.find blankLine (s.req ++ bytes) with
    | none => rfl
    | some p =>
      dsimp only
      cases hparse : parseHttpContentLength (s.req ++ bytes) p with
      | error err => rfl
      | ok n =>
        have hfits : p + 4 ≤ (s.req ++ bytes).length := Substring.find_fits hfind
        have hle := parse_le hparse
        dsimp only
        rw [if_neg (by omega)]
        simp only [Option.any_some, decide_eq_true_eq]

/-- A read without data does not bring the end of the headers. -/
theorem noticed_skip (h : InHeaders s) {r : ReadResult} (hr : r.bytes = []) :
    noticed s.req.length (s.req ++ sent results) (r :: results) =
      noticed s.req.length (s.req ++ sent results) results := by
  unfold noticed
  split
  · rfl
  · rename_i p hp
    have hbeyond : s.req.length < p + 4 := Substring.find_beyond h.blank hp
    rw [reached, hr, List.length_nil]
    exact if_neg (Nat.not_le.mpr hbeyond)

section Data
variable {req : Text} {chunk : Chunk} {got : ℕ} (hgot : got + chunk.bytes.length = req.length)
include hgot

theorem noticed_large (hlarge : kHttpHeaderSizeLimit < req.length) (rest : Text) :
    kHttpHeaderSizeLimit < noticed got (req ++ rest) (.data chunk :: results) := by
  have hread : got + (ReadResult.data chunk).bytes.length = req.length := hgot
  unfold noticed
  split
  · rw [List.length_append]
    omega
  · unfold reached
    rw [hread]
    split_ifs
    · exact hlarge
    · exact hlarge.trans_le (le_reached _ _ _)

theorem noticed_later (hfind : Substring.find blankLine req = none) (rest : Text) :
    noticed got (req ++ rest) (.data chunk :: results) = noticed req.length (req ++ rest) results := by
  have hread : got + (ReadResult.data chunk).bytes.length = req.length := hgot
  unfold noticed
  split
  · rfl
  · rename_i p hp
    have hbeyond : req.length < p + 4 := Substring.find_beyond hfind hp
    rw [reached, hread, if_neg (Nat.not_le.mpr hbeyond)]

theorem noticed_now (hfind : Substring.find blankLine req = some p) (rest : Text) :
    noticed got (req ++ rest) (.data chunk :: results) = req.length := by
  have hread : got + (ReadResult.data chunk).bytes.length = req.length := hgot
  have hfits : p + 4 ≤ req.length := Substring.find_fits hfind
  unfold noticed
  rw [Substring.find_append hfind rest]
  dsimp only
  rw [reached, hread, if_pos hfits]

end Data

/-- The headers have just come in: their length fields decide what is waited for. -/
theorem found_outcome {req : Text} (hfind : Substring.find blankLine req = some p)
    (hsteady : Steady 0 results) :
    ((match parseHttpContentLength req p with
      | .error err => .inl (.error err)
      | .ok n =>
        if p + 4 + n ≤ req.length then .inl (.ok req)
        else .inr ⟨req, some (p + 4, p + 4 + n), 0⟩ : Except Text Text ⊕ Reading).elim id
          fun s => readFrom s results).map message = outcome (req ++ sent results) := by
  unfold outcome
  rw [Substring.find_append hfind]
  dsimp only
  rw [parseHttpContentLength_append hfind]
  cases hparse : parseHttpContentLength req p with
  | error err => rfl
  | ok n =>
    dsimp only
    by_cases hlen : p + 4 + n ≤ req.length
    · rw [if_pos hlen]
      exact bodyOutcome_full hfind hparse hlen _
    · rw [if_neg hlen]
      have hbody : InBody ⟨req, some (p + 4, p + 4 + n), 0⟩ p n :=
        ⟨hfind, hparse, rfl, Nat.not_le.mp hlen⟩
      exact readFrom_body hbody hsteady (Nat.zero_lt_succ 499)

theorem readFrom_headers (h : InHeaders s) (hsteady : Steady s.idleLoops results)
    (hidle : s.idleLoops < 500) :
    (readFrom s results).map message =
      if kHttpHeaderSizeLimit < noticed s.req.length (s.req ++ sent results) results then
        .error (ascii "http headers too large")
      else outcome (s.req ++ sent results) := by
  induction results generalizing s with
  | nil => exact hsteady.elim
  | cons r rs ih =>
    unfold readFrom
    rw [if_neg (Nat.not_le.mpr hidle)]
    cases r with
    | data chunk =>
      have hsent : s.req ++ sent (.data chunk :: rs) = s.req ++ chunk.bytes ++ sent rs :=
        (List.append_assoc _ _ _).symm
      have hgot : s.req.length + chunk.bytes.length = (s.req ++ chunk.bytes).length :=
        List.length_append.symm
      rw [hsent]
      dsimp only
      rw [h.append]
      generalize s.req ++ chunk.bytes = req at hgot ⊢
      by_cases hlarge : kHttpHeaderSizeLimit < req.length
      · -- too much is there before the headers have been looked for
        rw [if_pos hlarge, if_pos (noticed_large hgot hlarge _)]
        rfl
      · rw [if_neg hlarge]
        cases hfind : Substring.find blankLine req with
        | none =>
          rw [noticed_later hgot hfind]
          exact ih ⟨hfind, rfl, Nat.not_lt.mp hlarge⟩ hsteady (Nat.zero_lt_succ 499)
        | some p =>
          rw [noticed_now hgot hfind, if_neg hlarge, ← found_outcome hfind hsteady]
          dsimp only
          cases parseHttpContentLength req p with
          | error err => rfl
          | ok n =>
            dsimp only
            split_ifs <;> rfl
    | eof =>
      obtain rfl : rs = [] := hsteady
      have hsent : s.req ++ sent [.eof] = s.req := List.append_nil _
      have hnoticed : noticed s.req.length s.req [.eof] = s.req.length := by
        unfold noticed
        rw [h.blank]
      rw [hsent, hnoticed, if_neg (Nat.not_lt.mpr h.short)]
      exact h.finish
    | interrupted =>
      rw [show sent (.interrupted :: rs) = sent rs from rfl, noticed_skip h rfl]
      exact ih h hsteady hidle
    | wouldBlock =>
      rw [show sent (.wouldBlock :: rs) = sent rs from rfl, noticed_skip h rfl]
      have hnext : InHeaders { s with idleLoops := s.idleLoops + 1 } := ⟨h.blank, h.sizes, h.short⟩
      exact ih hnext hsteady.2 hsteady.1
    | failed text => exact hsteady.elim

/-- Over a whole run. -/
theorem read_outcome (h : Steady 0 results) : (readHttpRequest results).map message =
    if kHttpHeaderSizeLimit < noticed 0 (sent results) results then
      .error (ascii "http headers too large")
    else outcome (sent results) :=
  readFrom_headers (s := {}) ⟨rfl, rfl, Nat.zero_le _⟩ h (Nat.zero_lt_succ 499)

theorem bytewise_steady (b : Text) : Steady 0 (bytewise b) ∧ sent (bytewise b) = b := by
  induction b with
  | nil => exact ⟨rfl, rfl⟩
  | cons c b ih => exact ⟨ih.1, congrArg (c :: ·) ih.2⟩

theorem reached_ge {got : ℕ} (hn : n ≤ got + (sent results).length) : n ≤ reached n got results := by
  induction results generalizing got with
  | nil => exact hn
  | cons r rs ih =>
    have hsent : sent (r :: rs) = r.bytes ++ sent rs := rfl
    rw [hsent, List.length_append] at hn
    unfold reached
    split_ifs with hle
    · exact hle
    · exact ih (by omega)

theorem reached_le (n got : ℕ) (results : List ReadResult) :
    reached n got results ≤ got + (sent results).length := by
  induction results generalizing got with
  | nil => exact Nat.le_add_right _ _
  | cons r rs ih =>
    have hsent : sent (r :: rs) = r.bytes ++ sent rs := rfl
    rw [hsent, List.length_append, ← Nat.add_assoc]
    unfold reached
    split_ifs
    · exact Nat.le_add_right _ _
    · exact ih _

theorem reached_append {got : ℕ} {rest : List ReadResult} (h : got + (sent results).length < n) :
    reached n got (results ++ rest) = reached n (got + (sent results).length) rest := by
  induction results generalizing got with
  | nil => rfl
  | cons r rs ih =>
    have hsent : sent (r :: rs) = r.bytes ++ sent rs := rfl
    rw [hsent, List.length_append] at h ⊢
    rw [List.cons_append, reached, if_neg (by omega), ih (by omega), Nat.add_assoc]

theorem noticed_some {total : Text} (h : Substring.find blankLine total = some p) (got : ℕ)
    (results : List ReadResult) : noticed got total results = reached (p + 4) got results := by
  unfold noticed
  rw [h]

/-- Byte by byte the headers are noticed at once. -/
theorem reached_bytewise {b : Text} {got : ℕ} (hgot : got < n) (hn : n ≤ got + b.length) :
    reached n got (bytewise b) = n := by
  induction b generalizing got with
  | nil => exact absurd hn (Nat.not_le.mpr hgot)
  | cons c b ih =>
    rw [List.length_cons] at hn
    have hcons : reached n got (bytewise (c :: b)) =
        if n ≤ got + 1 then got + 1 else reached n (got + 1) (bytewise b) := rfl
    rw [hcons]
    split_ifs with hle
    · exact Nat.le_antisymm hgot hle
    · exact ih (Nat.not_le.mp hle) (by omega)

theorem parse_error {req err : Text} (h : parseHttpContentLength req p = .error err) :
    err ≠ ascii "http headers too large" := by
  have htexts : ∀ text ∈ [ascii "unsupported Transfer-Encoding", ascii "empty Content-Length",
      ascii "invalid Content-Length", ascii "http body too large"],
      text ≠ ascii "http headers too large" := by decide +kernel
  apply htexts
  unfold parseHttpContentLength at h
  split_ifs at h
  · cases h
    simp
  · split at h
    · cases h
    · split_ifs at h
      · cases h
        simp
      · split at h
        · cases h
          simp
        · split_ifs at h <;> cases h <;> simp

theorem outcome_ne (total : Text) : outcome total ≠ .error (ascii "http headers too large") := by
  have hheaders : ascii "incomplete http headers" ≠ ascii "http headers too large" := by decide +kernel
  have hbody : (ascii "incomplete http body expected=").head? = some 0x69 ∧
      ascii "incomplete http body expected=" ≠ [] ∧
      (ascii "http headers too large").head? = some 0x68 := by decide +kernel
  unfold outcome bodyOutcome
  intro h
  split at h
  · split_ifs at h
    exact hheaders (Except.error.inj h)
  · split at h
    · rename_i hparse
      exact parse_error hparse (Except.error.inj h)
    · split_ifs at h
      -- the texts begin with different letters
      have hhead := congrArg List.head? (Except.error.inj h)
      rw [List.append_assoc, List.append_assoc, List.head?_append_of_ne_nil _ hbody.2.1, hbody.1,
        hbody.2.2] at hhead
      exact absurd hhead (by decide)

theorem same_iff (h : Steady 0 results) : SameAsBytewise results ↔ HeadersFit results := by
  obtain ⟨hsteady, hsent⟩ := bytewise_steady (sent results)
  unfold SameAsBytewise HeadersFit
  rw [read_outcome h, read_outcome hsteady, hsent]
  cases hfind : Substring.find blankLine (sent results) with
  | none =>
    have hsame : ∀ rs, noticed 0 (sent results) rs = (sent results).length := by
      intro rs
      unfold noticed
      rw [hfind]
    rw [hsame, hsame]
    exact iff_of_true rfl nofun
  | some p =>
    have hfits : p + 4 ≤ (sent results).length := Substring.find_fits hfind
    have hle : p + 4 ≤ reached (p + 4) 0 results := reached_ge (by omega)
    rw [noticed_some hfind, noticed_some hfind, reached_bytewise (Nat.succ_pos _) (by omega)]
    by_cases hlarge : kHttpHeaderSizeLimit < p + 4
    · rw [if_pos hlarge, if_pos (hlarge.trans_le hle)]
      refine iff_of_true rfl fun p' hp' hsmall => ?_
      cases hp'
      exact absurd hsmall (Nat.not_le.mpr hlarge)
    · rw [if_neg hlarge]
      constructor
      · intro hsame p' hp' _
        cases hp'
        by_contra hover
        rw [if_pos (Nat.not_le.mp hover)] at hsame
        exact outcome_ne _ hsame.symm
      · intro hreach
        rw [if_neg (Nat.not_lt.mpr (hreach p rfl (Nat.not_lt.mp hlarge)))]

theorem accepted_of_fit (h : Steady 0 results) (hfit : HeadersFit results) : Accepted results := by
  intro p n hfind hheaders hdeclares hbody hlen
  rw [read_outcome h, noticed_some hfind, if_neg (Nat.not_lt.mpr (hfit p hfind hheaders))]
  unfold outcome bodyOutcome
  rw [hfind]
  dsimp only
  rw [parse_declared hdeclares hbody]
  dsimp only
  rw [if_neg (Nat.not_lt.mpr hlen)]

end Loop

/-- The verdict and what is read do not depend on how the bytes are cut up, and a request of allowed size
is accepted, exactly if the read that completes the headers does not go beyond what they may take. -/
theorem reading_segmented_iff {results : List ReadResult} (h : Steady 0 results) :
    SameAsBytewise results ∧ Accepted results ↔ HeadersFit results :=
  ⟨fun hboth => (same_iff h).mp hboth.1, fun hfit => ⟨(same_iff h).mpr hfit, accepted_of_fit h hfit⟩⟩

/-- In two reads, with a pause between them. -/
def shortRequest : List ReadResult :=
  [.data ⟨ascii "GET / HTTP/1.1" ++ crlf, by decide +kernel, by decide +kernel⟩, .wouldBlock,
    .data ⟨crlf, by decide, by decide⟩, .eof]

theorem reading_segmented_short : SameAsBytewise shortRequest ∧ Accepted shortRequest := by
  have hsteady : Steady 0 shortRequest := ⟨by decide, rfl⟩
  refine (reading_segmented_iff hsteady).mpr fun p _ _ => ?_
  have hlen : (sent shortRequest).length ≤ kHttpHeaderSizeLimit := by decide +kernel
  exact (reached_le _ 0 _).trans (by rw [Nat.zero_add]; exact hlen)

def letters (n : ℕ) : Text := List.replicate n 0x61

/-- The first reads of a request with a long path. -/
def pathReads : List ReadResult :=
  .data ⟨ascii "GET /", by decide +kernel, by decide +kernel⟩ :: List.replicate 7
    (.data ⟨letters 2048, List.cons_ne_nil _ _, by rw [letters, List.length_replicate]⟩)

/-- Then a body comes in together with the end of the headers. -/
def longRequest : List ReadResult :=
  pathReads ++ [.data ⟨letters 1950 ++ ascii " HTTP/1.1" ++ (blankLine ++ letters 85),
    by decide +kernel, by decide +kernel⟩, .eof]

theorem pathReads_sent : (sent pathReads).length = 14341 ∧ 0x0D ∉ sent pathReads := by
  have hget : (ascii "GET /").length = 5 ∧ (0x0D : UInt8) ∉ ascii "GET /" := by decide +kernel
  have hletters : (0x0D : UInt8) ∉ letters 2048 := fun hmem =>
    absurd (List.eq_of_mem_replicate hmem) (by decide)
  have hsent : sent pathReads = ascii "GET /" ++
      (List.replicate 7 (letters 2048)).flatten := rfl
  rw [hsent]
  refine ⟨?_, fun hmem => ?_⟩
  · rw [List.length_append, hget.1, List.length_flatten, List.map_replicate, List.sum_replicate, letters,
      List.length_replicate]
    rfl
  · rcases List.mem_append.mp hmem with hfirst | hrest
    · exact hget.2 hfirst
    · obtain ⟨l, hl, hmem⟩ := List.mem_flatten.mp hrest
      rw [List.eq_of_mem_replicate hl] at hmem
      exact hletters hmem

theorem longRequest_blank : Substring.find blankLine (sent longRequest) = some 16300 := by
  obtain ⟨hlen, hno⟩ := pathReads_sent
  have hline : (ascii " HTTP/1.1").length = 9 ∧ (0x0D : UInt8) ∉ ascii " HTTP/1.1" := by decide +kernel
  have hletters : (0x0D : UInt8) ∉ letters 1950 := fun hmem =>
    absurd (List.eq_of_mem_replicate hmem) (by decide)
  have hsent : sent longRequest = (sent pathReads ++ (letters 1950 ++ ascii " HTTP/1.1")) ++
      (blankLine ++ letters 85) := by
    have hlast : sent longRequest = sent pathReads ++ (letters 1950 ++ ascii " HTTP/1.1" ++
        (blankLine ++ letters 85) ++ []) := List.flatMap_append
    rw [hlast, List.append_nil, ← List.append_assoc]
  have hbefore : (0x0D : UInt8) ∉ sent pathReads ++ (letters 1950 ++ ascii " HTTP/1.1") := by
    rw [List.mem_append, List.mem_append, not_or, not_or]
    exact ⟨hno, hletters, hline.2⟩
  rw [hsent]
  refine (Substring.find_behind hbefore [0x0A, 0x0D, 0x0A] (letters 85)).trans (congrArg some ?_)
  rw [List.length_append, List.length_append, hlen, hline.1, letters, List.length_replicate]

/-- The request is allowed in size, but too large when its end is noticed. -/
theorem reading_segmented_long : ¬ ∀ results, Steady 0 results →
    SameAsBytewise results ∧ Accepted results := by
  intro h
  have hsteady : Steady 0 longRequest := rfl
  have hfit := (same_iff hsteady).mp (h longRequest hsteady).1 16300 longRequest_blank (by decide)
  have hlast : (letters 1950 ++ ascii " HTTP/1.1" ++ (blankLine ++ letters 85)).length = 2048 := by
    decide +kernel
  rw [longRequest, reached_append (by rw [pathReads_sent.1]; decide), pathReads_sent.1, reached] at hfit
  simp only [ReadResult.bytes, hlast] at hfit
  exact absurd hfit (by decide)

end EdgeLink.Http
