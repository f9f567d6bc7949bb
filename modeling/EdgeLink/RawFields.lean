import EdgeLink.Doubles
import EdgeLink.Utf8

namespace EdgeLink.RawFields

open Json Lookup
open Doubles (Double no_value)
open Utf8 (Encoded)

/-! Objects that are written member by member, with texts put between quotes as they are. -/

inductive Field
  | int (n : ℕ)
  | text (t : Text)
  | real (d : Double)

def Field.raw : Field → Text
  | int n => natText n
  | text t => 0x22 :: (t ++ [0x22])
  | real d => d.text

def membersRaw : List (PlainName × Field) → Text
  | [] => []
  | [f] => f.1.label.text ++ f.2.raw
  | f :: g :: fs => f.1.label.text ++ (f.2.raw ++ 0x2C :: membersRaw (g :: fs))

def objectRaw (fields : List (PlainName × Field)) : Text := 0x7B :: (membersRaw fields ++ [0x7D])

/-- The value is that of the field. -/
def Field.Says : Field → Value → Prop
  | int n, v => ∃ m, v = .number m ∧ m.int? = some (n : ℤ)
  | text t, v => v.string? = some t
  | real d, v => v.text = d.text

def memberNames : Members → List Text
  | .one l _ _ => [l.name.decode]
  | .more l _ _ ms => l.name.decode :: memberNames ms

def objectNames : ObjectText → List Text
  | .empty .. => []
  | .members _ ms _ => memberNames ms

/-- The text is one line, and an object with these members and no others. -/
structure Spelled (fields : List (PlainName × Field)) (line : Text) : Prop where
  object : ∃ o : ObjectText, o.text = line ∧ objectNames o = fields.map (·.1.1) ∧
    ∀ f ∈ fields, ∃ v, o.first? f.1.1 = some v ∧ f.2.Says v
  encoded : Encoded line
  oneLine : 0x0A ∉ line

/-- A text can stand between quotes as it is, and a number has digits. -/
def Field.Sound : Field → Prop
  | int _ => True
  | text t => PlainText t ∧ Encoded t
  | real d => d.isFinite = true

theorem body_cons (c : StrChar) (s : Str) : Str.body (c :: s) = c.text ++ Str.body s :=
  List.flatMap_cons

theorem encodeUtf8_length (n : ℕ) : (encodeUtf8 n).length ≤ 4 := by
  unfold encodeUtf8
  rw [String.length_utf8EncodeChar]
  exact Char.utf8Size_le_four _

theorem unicode_length (a b c d : HexDigit) : (StrChar.unicode a b c d).text.length = 6 := rfl

/-- An escape is longer than what it says. -/
theorem decode_length (s : Str) : s.decode.length ≤ s.body.length ∧
    (s.decode.length = s.body.length → PlainText s.body ∧ s.decode = s.body) := by
  have hshorter {s : Str} (h : s.decode.length < s.body.length) :
      s.decode.length ≤ s.body.length ∧
        (s.decode.length = s.body.length → PlainText s.body ∧ s.decode = s.body) :=
    ⟨h.le, fun heq => absurd heq h.ne⟩
  induction s using Str.decode.induct with
  | case1 => exact ⟨le_rfl, fun _ => ⟨nofun, rfl⟩⟩
  | case2 b s ih =>
    rw [Str.decode, body_cons, StrChar.text, List.singleton_append, List.length_cons, List.length_cons]
    refine ⟨Nat.succ_le_succ ih.1, fun h => ?_⟩
    obtain ⟨hplain, heq⟩ := ih.2 (Nat.succ.inj h)
    exact ⟨List.forall_mem_cons.mpr ⟨b.2, hplain⟩, congrArg (b.val :: ·) heq⟩
  | case3 e s ih =>
    apply hshorter
    rw [Str.decode, body_cons, StrChar.text, List.cons_append, List.singleton_append, List.length_cons,
      List.length_cons, List.length_cons]
    omega
  | case4 a b c d a' b' c' d' s hpair ih =>
    apply hshorter
    have hcode := encodeUtf8_length
      (0x10000 + (codeUnit a b c d - 0xD800) * 0x400 + (codeUnit a' b' c' d' - 0xDC00))
    rw [Str.decode, if_pos hpair, body_cons, body_cons, List.length_append, List.length_append,
      List.length_append, unicode_length, unicode_length]
    omega
  | case5 a b c d a' b' c' d' s hpair ih =>
    apply hshorter
    have hcode := encodeUtf8_length (codeUnit a b c d)
    rw [Str.decode, if_neg hpair, body_cons, List.length_append, List.length_append, unicode_length]
    omega
  | case6 a b c d s hnext ih =>
    apply hshorter
    have hcode := encodeUtf8_length (codeUnit a b c d)
    rw [Str.decode, body_cons, List.length_append, List.length_append, unicode_length]
    · omega
    · exact hnext

/-- The only quote that a character is written with is the one behind a backslash. -/
theorem quote_in_char {c : StrChar} {p r : Text} (h : c.text = p ++ 0x22 :: r) :
    p.getLast? = some 0x5C := by
  cases c with
  | plain b =>
    have hmem : (0x22 : UInt8) ∈ (StrChar.plain b).text := by
      rw [h]
      exact List.mem_append_right _ List.mem_cons_self
    exact absurd (List.mem_singleton.mp hmem).symm b.2.2.1
  | escape e =>
    rcases p with _ | ⟨b, _ | ⟨b', p⟩⟩
    · exact absurd (List.cons.inj h).1 (by decide)
    · obtain rfl : 0x5C = b := (List.cons.inj h).1
      rfl
    · exact absurd (List.cons.inj (List.cons.inj h).2).2.symm
        (List.append_ne_nil_of_right_ne_nil _ (List.cons_ne_nil _ _))
  | unicode a b c d =>
    have hmem : (0x22 : UInt8) ∈ (StrChar.unicode a b c d).text := by
      rw [h]
      exact List.mem_append_right _ List.mem_cons_self
    simp only [StrChar.text, List.mem_cons, List.not_mem_nil, or_false] at hmem
    rcases hmem with h5c | hu | ha | hb | hc | hd
    · exact absurd h5c (by decide)
    · exact absurd hu (by decide)
    · exact absurd ha.symm (HexDigit.ordinary a).1
    · exact absurd hb.symm (HexDigit.ordinary b).1
    · exact absurd hc.symm (HexDigit.ordinary c).1
    · exact absurd hd.symm (HexDigit.ordinary d).1

/-- Between the quotes a quote has a backslash before it. -/
theorem quote_escaped {s : Str} {p q : Text} (h : s.body = p ++ 0x22 :: q) :
    p.getLast? = some 0x5C := by
  induction s generalizing p with
  | nil => exact absurd h.symm (List.append_ne_nil_of_right_ne_nil _ (List.cons_ne_nil _ _))
  | cons c s ih =>
    rw [body_cons] at h
    rcases List.append_eq_append_iff.mp h with ⟨r, hp, hr⟩ | ⟨r, hc, hr⟩
    · have hrest := ih hr
      have hne : r ≠ [] := by
        rintro rfl
        cases hrest
      rw [hp, List.getLast?_append_of_ne_nil _ hne]
      exact hrest
    · cases r with
      | nil =>
        have hnone := ih (p := []) hr.symm
        cases hnone
      | cons b r =>
        obtain rfl : b = 0x22 := (List.cons.inj hr).1.symm
        exact quote_in_char hc

theorem decode_concat_plain (s : Str) (b : PlainByte) :
    Str.decode (s ++ [.plain b]) = s.decode ++ [b.val] := by
  induction s using Str.decode.induct with
  | case1 => rfl
  | case2 b' s ih => exact congrArg (b'.val :: ·) ih
  | case3 e s ih => exact congrArg (e.value :: ·) ih
  | case4 a b₁ c d a' b₂ c' d' s hpair ih =>
    rw [List.cons_append, List.cons_append, Str.decode, if_pos hpair, Str.decode, if_pos hpair, ih,
      List.append_assoc]
  | case5 a b₁ c d a' b₂ c' d' s hpair ih =>
    rw [List.cons_append, List.cons_append] at *
    rw [Str.decode, if_neg hpair, Str.decode, if_neg hpair, ih, List.append_assoc]
  | case6 a b₁ c d s hnext ih =>
    have hnext' : ∀ a' b' c' d' s', s ++ [StrChar.plain b] = .unicode a' b' c' d' :: s' → False := by
      intro a' b' c' d' s' heq
      cases s with
      | nil => cases heq
      | cons c s => exact hnext a' b' c' d' s (by rw [(List.cons.inj heq).1])
    rw [List.cons_append, Str.decode, Str.decode, ih, List.append_assoc]
    · exact hnext
    · exact hnext'

theorem comma_in_char {c : StrChar} {p : Text} (h : c.text = p ++ [0x2C]) :
    ∃ b : PlainByte, b.val = 0x2C ∧ c = .plain b := by
  have hlast : c.text.getLast? = some 0x2C := by rw [h, List.getLast?_concat]
  cases c with
  | plain b => exact ⟨b, Option.some.inj hlast, rfl⟩
  | escape e => cases e <;> exact absurd hlast (by decide)
  | unicode a b c d =>
    have hdigit : ∀ d : HexDigit, d.byte ≠ 0x2C := by
      rintro ⟨v, upper⟩
      revert v upper
      decide
    exact absurd (Option.some.inj hlast) (hdigit d)

/-- What ends in a comma says so. -/
theorem decode_comma {s : Str} {p : Text} (h : s.body = p ++ [0x2C]) :
    s.decode.getLast? = some 0x2C := by
  rcases List.eq_nil_or_concat s with rfl | ⟨s, c, rfl⟩
  · exact absurd h.symm (List.append_ne_nil_of_right_ne_nil _ (List.cons_ne_nil _ _))
  · rw [List.concat_eq_append] at h ⊢
    have hne : c.text ≠ [] := by cases c <;> exact List.cons_ne_nil _ _
    have hlast : c.text.getLast? = some 0x2C := by
      have hbody : Str.body (s ++ [c]) = Str.body s ++ c.text := by
        unfold Str.body
        rw [List.flatMap_append, List.flatMap_singleton]
      rw [← List.getLast?_append_of_ne_nil (Str.body s) hne, ← hbody, h, List.getLast?_concat]
    obtain ⟨p', hp'⟩ := List.getLast?_eq_some_iff.mp hlast
    obtain ⟨b, hb, rfl⟩ := comma_in_char hp'
    rw [decode_concat_plain, List.getLast?_concat, hb]

/-- A string that says what was put between its quotes holds plain bytes, and ends where they do. -/
theorem plain_of_says {s : Str} {t rest u : Text}
    (h : s.text ++ u = 0x22 :: (t ++ [0x22]) ++ rest) (hs : s.decode = t)
    (hrest : (∃ r, rest = 0x2C :: 0x22 :: r) ∨ 0x22 ∉ rest) : PlainText t ∧ u = rest := by
  have hbody : s.body ++ 0x22 :: u = t ++ 0x22 :: rest := by
    have hcons : 0x22 :: (s.body ++ 0x22 :: u) = 0x22 :: (t ++ 0x22 :: rest) := by
      simpa [Str.text] using h
    exact (List.cons.inj hcons).2
  obtain ⟨hle, heq⟩ := decode_length s
  rw [hs] at hle heq
  have hsame (ht : t = s.body) : PlainText t ∧ u = rest := by
    refine ⟨ht ▸ (heq (congrArg List.length ht)).1, ?_⟩
    rw [ht] at hbody
    exact (List.cons.inj (List.append_cancel_left hbody)).2
  rcases List.append_eq_append_iff.mp hbody with ⟨r, ht, -⟩ | ⟨r, hb, hr⟩
  · -- the string cannot say more than it is written with
    have hlen := congrArg List.length ht
    rw [List.length_append] at hlen
    have hnil : r = [] := List.length_eq_zero_iff.mp (by omega)
    exact hsame (by rw [ht, hnil, List.append_nil])
  · cases r with
    | nil => exact hsame (by rw [hb, List.append_nil])
    | cons b x =>
      -- the closing quote is escaped, and the string goes on behind it
      obtain ⟨rfl, hx⟩ := List.cons.inj hr
      exfalso
      rcases hrest with ⟨r, rfl⟩ | hnone
      · cases x with
        | nil => exact absurd (List.cons.inj hx).1 (by decide)
        | cons comma y =>
          obtain ⟨rfl, hy⟩ := List.cons.inj hx
          cases y with
          | nil =>
            have hend := decode_comma (p := t ++ [0x22]) (by rw [hb, List.append_assoc]; rfl)
            rw [hs, quote_escaped hb] at hend
            exact absurd hend (by decide)
          | cons b y =>
            obtain rfl : 0x22 = b := (List.cons.inj hy).1
            have hend := @quote_escaped s (t ++ [0x22, 0x2C]) y (by rw [hb, List.append_assoc]; rfl)
            rw [List.getLast?_append_of_ne_nil _ (List.cons_ne_nil _ _)] at hend
            exact absurd hend (by decide)
      · exact hnone (by rw [hx]; exact List.mem_append_right _ List.mem_cons_self)

/-- The field has a text for a value. -/
def Field.Plain : Field → Prop
  | int _ => True
  | text t => PlainText t
  | real d => d.isFinite = true

def Unspaced (s : Text) : Prop := ∀ b ∈ s.head?, isSpace b = false

theorem skipJsonWhitespace_unspaced {s : Text} (h : Unspaced s) : skipJsonWhitespace s = s := by
  cases s with
  | nil => rfl
  | cons b s => exact skipJsonWhitespace_cons (h b rfl) s

/-- A label is found from its text, whatever blanks there are. -/
theorem label_scan (l : Label) (z : Text) :
    skipJsonWhitespace (l.text ++ z) =
      l.name.text ++ (l.beforeColon.text ++ 0x3A :: (l.afterColon.text ++ z)) := by
  unfold Label.text
  rw [List.append_assoc, skipJsonWhitespace_ws, List.append_assoc, List.append_assoc, Str.text,
    List.cons_append, skipJsonWhitespace_cons (by decide)]
  rfl

theorem label_peel {l : Label} {name : PlainName} {z w : Text} (hz : Unspaced z) (hw : Unspaced w)
    (h : l.text ++ z = name.label.text ++ w) : l.name.decode = name.1 ∧ z = w := by
  have hscan := congrArg skipJsonWhitespace h
  rw [label_scan, label_scan] at hscan
  have hrest := congrArg skipJsonStringToken hscan
  rw [skipJsonStringToken_text, skipJsonStringToken_text] at hrest
  have hrest := Option.some.inj hrest
  constructor
  · rw [hrest] at hscan
    have htoken := congrArg decodeJsonStringToken (List.append_cancel_right hscan)
    have hsimple : name.label.name.Simple := Str.simple_ofPlain name.2
    rw [decodeJsonStringToken_text, decodeJsonStringToken_text, if_pos hsimple] at htoken
    split_ifs at htoken
    exact (Option.some.inj htoken).trans (Str.decode_ofPlain name.2)
  · have hcolon := congrArg skipJsonWhitespace hrest
    rw [skipJsonWhitespace_ws, skipJsonWhitespace_ws, skipJsonWhitespace_cons (by decide),
      skipJsonWhitespace_cons (by decide)] at hcolon
    have hvalue := congrArg skipJsonWhitespace (List.cons.inj hcolon).2
    rw [skipJsonWhitespace_ws, skipJsonWhitespace_ws, skipJsonWhitespace_unspaced hz,
      skipJsonWhitespace_unspaced hw] at hvalue
    exact hvalue

theorem natText_number (n : ℕ) : natText n = (Value.number (.ofInt (n : ℤ))).text := by
  rw [Value.text, Number.text_ofInt]
  rfl

/-- A value that says what the field does shows that the field was written soundly. -/
theorem value_peel {f : Field} {v : Value} {s rest : Text} (h : v.text ++ s = f.raw ++ rest)
    (hs : Delimited s) (hrest : Delimited rest) (hsaid : f.Says v)
    (hquote : (∃ r, rest = 0x2C :: 0x22 :: r) ∨ 0x22 ∉ rest) : f.Plain ∧ s = rest := by
  have hscan (v' : Value) (hraw : f.raw = v'.text) : s = rest := by
    rw [hraw] at h
    have hskip := congrArg skipJsonValue h
    rw [skipJsonValue_text v hs, skipJsonValue_text v' hrest] at hskip
    exact Option.some.inj hskip
  cases f with
  | int n => exact ⟨trivial, hscan _ (natText_number n)⟩
  | real d =>
    cases hfinite : d.isFinite with
    | false => exact absurd h (no_value hfinite v s rest)
    | true =>
      obtain ⟨n, hn⟩ := Double.text_finite hfinite
      exact ⟨hfinite, hscan (.number n) hn⟩
  | text t =>
    change v.string? = some t at hsaid
    cases v with
    | string l => exact plain_of_says h (Option.some.inj hsaid) hquote
    | _ => cases hsaid

theorem ws_nil {w : Ws} {s rest : Text} (hrest : Unspaced rest) (h : w.text ++ s = rest) :
    s = rest := by
  cases w with
  | nil => exact h
  | cons c w =>
    have hspace := hrest c.byte (by rw [← h]; rfl)
    rw [isSpace_byte] at hspace
    cases hspace

/-- What stands behind the first of some members that were written. -/
def behind : List (PlainName × Field) → Text
  | [] => [0x7D]
  | g :: fs => 0x2C :: (membersRaw (g :: fs) ++ [0x7D])

theorem membersRaw_cons (f : PlainName × Field) (fs : List (PlainName × Field)) :
    membersRaw (f :: fs) ++ [0x7D] = f.1.label.text ++ (f.2.raw ++ behind fs) := by
  cases fs with
  | nil =>
    unfold membersRaw behind
    rw [List.append_assoc]
  | cons g fs =>
    conv_lhs => unfold membersRaw
    unfold behind
    rw [List.append_assoc, List.append_assoc]
    rfl

theorem behind_spec (fs : List (PlainName × Field)) : Unspaced (behind fs) ∧ Delimited (behind fs) ∧
    ((∃ r, behind fs = 0x2C :: 0x22 :: r) ∨ 0x22 ∉ behind fs) := by
  cases fs with
  | nil =>
    have hhead {P : UInt8 → Prop} (h : P 0x7D) : ∀ b ∈ (behind []).head?, P b := by
      intro b hb
      rw [← Option.some.inj hb]
      exact h
    exact ⟨hhead (by decide), hhead (by decide), Or.inr (by decide)⟩
  | cons g fs =>
    have hhead {P : UInt8 → Prop} (h : P 0x2C) : ∀ b ∈ (behind (g :: fs)).head?, P b := by
      intro b hb
      rw [← Option.some.inj hb]
      exact h
    refine ⟨hhead (by decide), hhead (by decide), Or.inl ?_⟩
    change ∃ r, 0x2C :: (membersRaw (g :: fs) ++ [0x7D]) = 0x2C :: 0x22 :: r
    rw [membersRaw_cons, PlainName.label_text]
    exact ⟨_, rfl⟩

theorem raw_unspaced (f : Field) (rest : Text) : Unspaced (f.raw ++ rest) := by
  obtain ⟨b, t, hraw, hb⟩ : ∃ b t, f.raw = b :: t ∧ isSpace b = false := by
    cases f with
    | int n =>
      change ∃ b t, natText n = b :: t ∧ isSpace b = false
      rw [natText_number]
      exact Value.text_cons _
    | text t => exact ⟨_, _, rfl, by decide⟩
    | real d =>
      cases d with
      | finite minus q => exact Value.text_cons (.number (Doubles.printed minus q))
      | infinite minus => cases minus <;> exact ⟨_, _, rfl, by decide⟩
      | nan minus => cases minus <;> exact ⟨_, _, rfl, by decide⟩
  rw [hraw]
  intro b' hb'
  rw [← Option.some.inj hb']
  exact hb

/-- A member, and what stands behind it. -/
theorem members_front (ms : Members) (trail : Text) :
    ∃ (l : Label) (v : Value) (after : Ws) (tl : Text),
    ms.text ++ 0x7D :: trail = l.text ++ (v.text ++ (Ws.text after ++ tl)) ∧ Delimited tl ∧
      (∀ key, l.name.decode = key → ms.first? key = some v) ∧
      ((∃ t, tl = 0x7D :: t) ∨ ∃ ms', tl = 0x2C :: (Members.text ms' ++ 0x7D :: trail) ∧
        ∀ key, l.name.decode ≠ key → ms.first? key = ms'.first? key) := by
  cases ms with
  | one l v after =>
    refine ⟨l, v, after, 0x7D :: trail, ?_, delimited_cons (by decide) _, fun key hkey => ?_,
      Or.inl ⟨trail, rfl⟩⟩
    · simp only [Members.text, List.append_assoc]
    · rw [Members.first?, if_pos hkey]
  | more l v after ms =>
    refine ⟨l, v, after, 0x2C :: (ms.text ++ 0x7D :: trail), ?_, delimited_cons (by decide) _,
      fun key hkey => ?_, Or.inr ⟨ms, rfl, fun key hkey => ?_⟩⟩
    · simp only [Members.text, List.append_assoc, List.cons_append]
    · rw [Members.first?, if_pos hkey]
    · rw [Members.first?, if_neg hkey]

theorem first_peel {f : PlainName × Field} {fs : List (PlainName × Field)} {ms : Members}
    {trail : Text} (h : ms.text ++ 0x7D :: trail = membersRaw (f :: fs) ++ [0x7D])
    (hsaid : ∀ g ∈ f :: fs, ∃ v, ms.first? g.1.1 = some v ∧ g.2.Says v) :
    f.2.Plain ∧ (fs ≠ [] → ∃ ms' : Members,
      ms'.text ++ 0x7D :: trail = membersRaw fs ++ [0x7D] ∧
        ∀ key, f.1.1 ≠ key → ms.first? key = ms'.first? key) := by
  obtain ⟨l, v, after, tl, htext, hdelimited, hfirst, htl⟩ := members_front ms trail
  obtain ⟨hunspaced, hbehind, hquote⟩ := behind_spec fs
  rw [htext, membersRaw_cons] at h
  have hvalue : Unspaced (v.text ++ (Ws.text after ++ tl)) := by
    obtain ⟨b, t, hv, hb⟩ := Value.text_cons v
    rw [hv]
    intro b' hb'
    rw [← Option.some.inj hb']
    exact hb
  obtain ⟨hname, hraw⟩ := label_peel hvalue (raw_unspaced f.2 _) h
  obtain ⟨v', hv', hvsaid⟩ := hsaid f List.mem_cons_self
  rw [hfirst f.1.1 hname] at hv'
  obtain rfl := Option.some.inj hv'
  obtain ⟨hplain, hrest⟩ := value_peel hraw (delimited_ws after hdelimited) hbehind hvsaid hquote
  have hrest := ws_nil hunspaced hrest
  refine ⟨hplain, fun hne => ?_⟩
  cases fs with
  | nil => exact absurd rfl hne
  | cons g fs =>
    rcases htl with ⟨t, ht⟩ | ⟨ms', hms', hnext⟩
    · rw [ht] at hrest
      exact absurd (List.cons.inj hrest).1 (by decide)
    · rw [hms'] at hrest
      exact ⟨ms', (List.cons.inj hrest).2, hname ▸ hnext⟩

/-- What some members say cannot be said by texts that are not plain. -/
theorem members_plain {f : PlainName × Field} {fs : List (PlainName × Field)}
    (hnodup : ((f :: fs).map (·.1.1)).Nodup) {ms : Members} {trail : Text}
    (h : ms.text ++ 0x7D :: trail = membersRaw (f :: fs) ++ [0x7D])
    (hsaid : ∀ g ∈ f :: fs, ∃ v, ms.first? g.1.1 = some v ∧ g.2.Says v) :
    ∀ g ∈ f :: fs, g.2.Plain := by
  induction fs generalizing f ms with
  | nil =>
    obtain ⟨hplain, -⟩ := first_peel h hsaid
    exact List.forall_mem_singleton.mpr hplain
  | cons g fs ih =>
    obtain ⟨hplain, hrest⟩ := first_peel h hsaid
    obtain ⟨ms', hms', hfirst⟩ := hrest (List.cons_ne_nil g fs)
    rw [List.map_cons, List.nodup_cons] at hnodup
    refine List.forall_mem_cons.mpr ⟨hplain, ih hnodup.2 hms' fun g' hg' => ?_⟩
    have hne : f.1.1 ≠ g'.1.1 := by
      intro heq
      exact hnodup.1 (heq ▸ List.mem_map_of_mem hg')
    rw [← hfirst _ hne]
    exact hsaid g' (List.mem_cons_of_mem f hg')

/-- A text that can stand in a line. -/
def Inline (t : Text) : Prop := Encoded t ∧ 0x0A ∉ t

theorem Inline.append {s t : Text} (hs : Inline s) (ht : Inline t) : Inline (s ++ t) :=
  ⟨hs.1.append ht.1, fun h => (List.mem_append.mp h).elim hs.2 ht.2⟩

theorem Inline.of_ascii {t : Text} (h : ∀ b ∈ t, b < 0x80 ∧ b ≠ 0x0A) : Inline t :=
  ⟨Encoded.of_ascii fun b hb => (h b hb).1, fun hb => (h _ hb).2 rfl⟩

theorem Inline.byte {b : UInt8} (h : b < 0x80 ∧ b ≠ 0x0A) : Inline [b] :=
  Inline.of_ascii (List.forall_mem_singleton.mpr h)

theorem Inline.of_plain {t : Text} (hplain : PlainText t) (h : Encoded t) : Inline t :=
  ⟨h, fun hb => absurd (hplain _ hb).1 (by decide)⟩

theorem Inline.quoted {t : Text} (hplain : PlainText t) (h : Encoded t) :
    Inline (0x22 :: (t ++ [0x22])) :=
  (Inline.byte (by decide)).append ((Inline.of_plain hplain h).append (Inline.byte (by decide)))

theorem digits_inline (ds : List (Fin 10)) : Inline (digitsText ds) := by
  apply Inline.of_ascii
  intro b hb
  obtain ⟨d, -, rfl⟩ := List.mem_map.mp hb
  have hdigit : ∀ d, digitByte d < 0x80 ∧ digitByte d ≠ 0x0A := by decide
  exact hdigit d

theorem number_inline (n : Number) : Inline n.text := by
  have hfrac : Inline n.fracText := by
    unfold Number.fracText
    cases n.frac with
    | none => exact Inline.of_ascii nofun
    | some f => exact (Inline.byte (by decide)).append (digits_inline (f.1 :: f.2))
  have hexp : Inline n.expText := by
    unfold Number.expText
    cases n.exp with
    | none => exact Inline.of_ascii nofun
    | some e =>
      refine Inline.append (s := [if e.upper then 0x45 else 0x65]) (Inline.byte ?_)
        (Inline.append ?_ (digits_inline (e.first :: e.rest)))
      · cases e.upper <;> decide
      · rcases e.sign with _ | sign
        · exact Inline.of_ascii nofun
        · cases sign <;> exact Inline.byte (by decide)
  refine Inline.append ?_ ((digits_inline _).append (hfrac.append hexp))
  cases n.minus
  · exact Inline.of_ascii nofun
  · exact Inline.byte (by decide)

theorem Field.Sound.inline {f : Field} (h : f.Sound) : Inline f.raw := by
  cases f with
  | int n => exact digits_inline _
  | text t => exact Inline.quoted h.1 h.2
  | real d =>
    obtain ⟨n, hn⟩ := Double.text_finite h
    change Inline d.text
    rw [hn]
    exact number_inline n

theorem label_inline {name : PlainName} (h : Encoded name.1) : Inline name.label.text := by
  rw [PlainName.label_text]
  have hend := (Inline.quoted name.2 h).append (Inline.byte (b := 0x3A) (by decide))
  rw [List.cons_append, List.append_assoc] at hend
  exact hend

theorem members_inline {fields : List (PlainName × Field)}
    (h : ∀ f ∈ fields, Encoded f.1.1 ∧ f.2.Sound) : Inline (membersRaw fields) := by
  induction fields with
  | nil => exact Inline.of_ascii nofun
  | cons f fields ih =>
    obtain ⟨⟨hname, hsound⟩, hrest⟩ := List.forall_mem_cons.mp h
    cases fields with
    | nil => exact (label_inline hname).append hsound.inline
    | cons g fields =>
      exact (label_inline hname).append (hsound.inline.append
        ((Inline.byte (by decide)).append (ih hrest)))

theorem Field.Sound.value {f : Field} (h : f.Sound) : ∃ v : Value, v.text = f.raw ∧ f.Says v := by
  cases f with
  | int n => exact ⟨_, (natText_number n).symm, _, rfl, Number.int?_ofInt n⟩
  | text t =>
    exact ⟨.string (.ofPlain t h.1), Str.text_ofPlain h.1, congrArg some (Str.decode_ofPlain h.1)⟩
  | real d =>
    obtain ⟨n, hn⟩ := Double.text_finite h
    exact ⟨.number n, hn.symm, hn.symm⟩

/-- Sound fields are the members of an object, in their order. -/
theorem sound_members {f : PlainName × Field} {fs : List (PlainName × Field)}
    (h : ∀ g ∈ f :: fs, g.2.Sound) (hnodup : ((f :: fs).map (·.1.1)).Nodup) :
    ∃ ms : Members, ms.text = membersRaw (f :: fs) ∧ memberNames ms = (f :: fs).map (·.1.1) ∧
      ∀ g ∈ f :: fs, ∃ v, ms.first? g.1.1 = some v ∧ g.2.Says v := by
  have hname (name : PlainName) : name.label.name.decode = name.1 := Str.decode_ofPlain name.2
  induction fs generalizing f with
  | nil =>
    obtain ⟨v, hv, hsaid⟩ := (h f List.mem_cons_self).value
    refine ⟨.one f.1.label v [], ?_, ?_, List.forall_mem_singleton.mpr ⟨v, if_pos (hname f.1), hsaid⟩⟩
    · rw [Members.text, hv]
      exact congrArg (f.1.label.text ++ ·) (List.append_nil _)
    · rw [memberNames, hname, List.map_singleton]
  | cons g fs ih =>
    obtain ⟨hsound, hrest⟩ := List.forall_mem_cons.mp h
    obtain ⟨v, hv, hsaid⟩ := hsound.value
    rw [List.map_cons, List.nodup_cons] at hnodup
    obtain ⟨ms, htext, hnames, hfirst⟩ := ih hrest hnodup.2
    refine ⟨.more f.1.label v [] ms, ?_, ?_,
      List.forall_mem_cons.mpr ⟨⟨v, if_pos (hname f.1), hsaid⟩, fun g' hg' => ?_⟩⟩
    · rw [Members.text, hv, htext]
      rfl
    · rw [memberNames, hname, hnames]
      rfl
    · have hne : f.1.1 ≠ g'.1.1 := by
        intro heq
        exact hnodup.1 (heq ▸ List.mem_map_of_mem hg')
      rw [Members.first?, if_neg (by rwa [hname])]
      exact hfirst g' hg'

theorem members_encoded {f : PlainName × Field} {fs : List (PlainName × Field)}
    (h : Encoded (membersRaw (f :: fs) ++ [0x7D])) : ∀ g ∈ f :: fs, Encoded g.2.raw := by
  have hfront {f : PlainName × Field} {fs : List (PlainName × Field)}
      (h : Encoded (membersRaw (f :: fs) ++ [0x7D])) : Encoded (f.2.raw ++ behind fs) := by
    rw [membersRaw_cons, PlainName.label_text] at h
    have hname := (Encoded.split (x := []) (by decide : (0x22 : UInt8) < 0x80) h).2
    change Encoded (f.1.1 ++ [0x22, 0x3A] ++ (f.2.raw ++ behind fs)) at hname
    rw [List.append_assoc] at hname
    have hcolon := (Encoded.split (by decide : (0x22 : UInt8) < 0x80) hname).2
    exact (Encoded.split (x := []) (by decide : (0x3A : UInt8) < 0x80) hcolon).2
  induction fs generalizing f with
  | nil =>
    obtain ⟨hraw, -⟩ := Encoded.split (by decide : (0x7D : UInt8) < 0x80) (hfront h)
    exact List.forall_mem_singleton.mpr hraw
  | cons g fs ih =>
    obtain ⟨hraw, hrest⟩ := Encoded.split (by decide : (0x2C : UInt8) < 0x80) (hfront h)
    exact List.forall_mem_cons.mpr ⟨hraw, ih hrest⟩

theorem Field.Plain.sound {f : Field} (h : f.Plain) (hraw : Encoded f.raw) : f.Sound := by
  cases f with
  | int n => trivial
  | text t =>
    obtain ⟨-, htext⟩ := Encoded.split (x := []) (by decide : (0x22 : UInt8) < 0x80) hraw
    exact ⟨h, (Encoded.split (by decide : (0x22 : UInt8) < 0x80) htext).1⟩
  | real d => exact h

/-- An object that is written so is spelled if and only if every text in it is a text that needs
no escape, and every number is finite. -/
theorem spelled_iff {fields : List (PlainName × Field)} (hne : fields ≠ [])
    (hnodup : (fields.map (·.1.1)).Nodup) (hnames : ∀ f ∈ fields, Encoded f.1.1) :
    Spelled fields (objectRaw fields) ↔ ∀ f ∈ fields, f.2.Sound := by
  obtain ⟨f, fs, rfl⟩ := List.exists_cons_of_ne_nil hne
  constructor
  · intro h
    obtain ⟨o, htext, hkeys, hsaid⟩ := h.object
    have hencoded : Encoded (membersRaw (f :: fs) ++ [0x7D]) :=
      (Encoded.split (x := []) (by decide : (0x7B : UInt8) < 0x80) h.encoded).2
    cases o with
    | empty lead inner trail => cases hkeys
    | members lead ms trail =>
      have hopen := ws_nil (fun b hb => by rw [← Option.some.inj hb]; decide) htext
      have hmembers := members_plain hnodup (List.cons.inj hopen).2 hsaid
      exact fun g hg => (hmembers g hg).sound (members_encoded hencoded g hg)
  · intro h
    obtain ⟨ms, htext, hkeys, hsaid⟩ := sound_members h hnodup
    have hline : Inline (objectRaw (f :: fs)) :=
      (Inline.byte (by decide)).append
        ((members_inline fun g hg => ⟨hnames g hg, h g hg⟩).append (Inline.byte (by decide)))
    exact ⟨⟨.members [] ms [], by rw [ObjectText.text, htext]; rfl, hkeys, hsaid⟩, hline.1, hline.2⟩

end EdgeLink.RawFields
