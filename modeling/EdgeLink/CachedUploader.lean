import EdgeLink.Machine
import EdgeLink.RecordCodec

namespace EdgeLink.Gateway
open LittleEndian Machine

theorem newline_not_mem_hexEncode (payload : Bytes) : '\n' ∉ hexEncode payload := by
  induction payload with
  | nil => exact List.not_mem_nil
  | cons ch payload ih =>
    have hnibble : ∀ d < 16, '\n' ≠ kHex.getD d '0' := by decide
    have hch := ch.toNat_lt
    simp only [hexEncode, List.mem_cons, not_or]
    exact ⟨hnibble _ (by omega), hnibble _ (by omega), ih⟩

theorem not_mem_intercalate {sep c : Char} (hsep : c ≠ sep) {columns : List (List Char)}
    (h : ∀ column ∈ columns, c ∉ column) : c ∉ [sep].intercalate columns := by
  induction columns with
  | nil => exact List.not_mem_nil
  | cons column columns ih =>
    obtain ⟨hc, hcs⟩ := List.forall_mem_cons.mp h
    cases columns with
    | nil =>
      rw [List.intercalate_singleton]
      exact hc
    | cons next columns =>
      rw [List.intercalate_cons_cons]
      simp only [List.mem_append, List.mem_singleton, not_or]
      exact ⟨⟨hc, hsep⟩, ih hcs⟩

theorem newline_not_mem_encode (record : PendingUploadRecord) :
    '\n' ∉ encodePendingRecord record := by
  unfold encodePendingRecord
  simp only [List.mem_append, List.mem_cons, not_or]
  refine ⟨separator_not_mem_decimal (Or.inr rfl) _, by decide, ?_⟩
  split_ifs
  · exact not_mem_intercalate (by decide) (separator_not_mem_columns (Or.inr rfl) record.data)
  · exact newline_not_mem_hexEncode _

/-- The file as `getline` sees it. -/
structure CacheFile where
  lines : List (List Char)
  noNewline : ∀ line ∈ lines, '\n' ∉ line

namespace CacheFile

def empty : CacheFile := ⟨[], fun _ h => absurd h List.not_mem_nil⟩

def readAllLines (f : CacheFile) : List (List Char) := f.lines.filter (· ≠ [])

def append (f : CacheFile) (record : PendingUploadRecord) : CacheFile :=
  ⟨f.lines ++ [encodePendingRecord record], by
    intro line h
    obtain h | h := List.mem_append.mp h
    · exact f.noNewline line h
    · rw [List.mem_singleton.mp h]
      exact newline_not_mem_encode record⟩

/-- The file rewritten with the last `n` of the lines that were read. -/
def keepLast (f : CacheFile) (n : ℕ) : CacheFile :=
  ⟨f.readAllLines.drop (f.readAllLines.length - n), fun line h =>
    f.noNewline line (List.mem_filter.mp (List.mem_of_mem_drop h)).1⟩

end CacheFile

structure UploaderConfig where
  diskCacheMaxLines : ℕ
  replayBatchSize : ℕ

structure UploadEnv where
  answers : ℕ → Bool
  rewriteOk : Bool
  appendOk : Bool

inductive Submission
  | upload (data : SensorData)
  | uploadHeartbeat (payload : Bytes)
  | uploadStatus (data : SensorData)
  | uploadEvent (payload : Bytes)
  | uploadCommandAck (data : SensorData)
  | uploadOtaStatus (payload : Bytes)

/-- What the inner uploader is given. -/
def Submission.record : Submission → PendingUploadRecord
  | upload data => { kind := .sensor, data := data }
  | uploadHeartbeat payload => { kind := .heartbeat, payload := payload }
  | uploadStatus data => { kind := .status, data := data }
  | uploadEvent payload => { kind := .event, payload := payload }
  | uploadCommandAck data => { kind := .commandAck, data := data }
  | uploadOtaStatus payload => { kind := .otaStatus, payload := payload }

structure Flushed where
  file : CacheFile
  accepted : List PendingUploadRecord
  calls : ℕ
  ok : Bool

/-- The records replayed, how often the inner uploader was called, and how many lines are left. -/
def replayLines (batch : ℕ) (answers : ℕ → Bool) (sent : ℕ) :
    List (List Char) → List PendingUploadRecord × ℕ × ℕ
  | [] => ([], sent, 0)
  | line :: lines =>
    if 0 < batch ∧ batch ≤ sent then ([], sent, lines.length + 1)
    else
      match decodePendingRecord line with
      | none => replayLines batch answers sent lines
      | some record =>
        if answers sent then
          let r := replayLines batch answers (sent + 1) lines
          (record :: r.1, r.2)
        else ([], sent + 1, lines.length + 1)

def enforceCacheLimit (cfg : UploaderConfig) (left : ℕ) : ℕ :=
  if cfg.diskCacheMaxLines = 0 ∨ left ≤ cfg.diskCacheMaxLines then left else cfg.diskCacheMaxLines

def flushPending (cfg : UploaderConfig) (file : CacheFile) (v : UploadEnv) : Flushed :=
  if file.lines = [] then ⟨file, [], 0, true⟩
  else
    let r := replayLines cfg.replayBatchSize v.answers 0 file.readAllLines
    if v.rewriteOk then ⟨file.keepLast (enforceCacheLimit cfg r.2.2), r.1, r.2.1, true⟩
    else ⟨file, r.1, r.2.1, false⟩

def appendPending (cfg : UploaderConfig) (file : CacheFile) (v : UploadEnv)
    (record : PendingUploadRecord) : CacheFile :=
  if v.appendOk then
    let file := file.append record
    if 0 < cfg.diskCacheMaxLines ∧ v.rewriteOk then
      file.keepLast (enforceCacheLimit cfg file.readAllLines.length)
    else file
  else file

/-- The file after the call, what the inner uploader accepted, and what the caller is told. -/
def uploadLike (cfg : UploaderConfig) (file : CacheFile) (v : UploadEnv)
    (record : PendingUploadRecord) : CacheFile × List PendingUploadRecord × Bool :=
  let r := flushPending cfg file v
  if ¬ r.ok then (appendPending cfg r.file v record, r.accepted, false)
  else if v.answers r.calls then (r.file, r.accepted ++ [record], true)
  else (appendPending cfg r.file v record, r.accepted, false)

/-- The records waiting in the file. -/
def cached (f : CacheFile) : List PendingUploadRecord := f.readAllLines.filterMap decodePendingRecord

/-- Of `n` waiting records `k` are replayed, after `sent` others, and then the replay stops: at the
end, at the batch limit or at a refusal. The answer to the new record is number `own`. -/
def Stops (batch : ℕ) (answers : ℕ → Bool) (sent n k own : ℕ) : Prop :=
  k ≤ n ∧ (∀ i < k, answers (sent + i) = true) ∧ (batch = 0 ∨ sent + k ≤ batch ∨ k = 0) ∧
    ((k = n ∧ own = sent + k) ∨
      (k < n ∧ 0 < batch ∧ batch ≤ sent + k ∧ own = sent + k) ∨
      (k < n ∧ (batch = 0 ∨ sent + k < batch) ∧ answers (sent + k) = false ∧ own = sent + k + 1))

theorem Stops.unique {batch : ℕ} {answers : ℕ → Bool} {sent n k own k' own' : ℕ}
    (h : Stops batch answers sent n k own) (h' : Stops batch answers sent n k' own') :
    k = k' ∧ own = own' := by
  -- of two places to stop the first is neither the end, nor the limit, nor a refusal
  have hlt : ∀ {k own k' own' : ℕ}, Stops batch answers sent n k own →
      Stops batch answers sent n k' own' → ¬ k < k' := by
    rintro k own k' own' ⟨-, -, -, h⟩ ⟨hn', hall', hbatch', -⟩ hk
    rcases h with ⟨rfl, -⟩ | ⟨-, hpos, hle, -⟩ | ⟨-, -, hno, -⟩
    · omega
    · omega
    · rw [hall' k hk] at hno
      cases hno
  have heq : k = k' := by
    have h₁ := hlt h h'
    have h₂ := hlt h' h
    omega
  subst heq
  refine ⟨rfl, ?_⟩
  obtain ⟨-, -, -, h⟩ := h
  obtain ⟨-, -, -, h'⟩ := h'
  omega

theorem replayLines_spec (batch : ℕ) (answers : ℕ → Bool) (sent : ℕ) (lines : List (List Char)) :
    (replayLines batch answers sent lines).2.2 ≤ lines.length ∧
    ∃ k, (replayLines batch answers sent lines).1 =
        (lines.filterMap decodePendingRecord).take k ∧
      (lines.drop (lines.length - (replayLines batch answers sent lines).2.2)).filterMap
        decodePendingRecord = (lines.filterMap decodePendingRecord).drop k ∧
      Stops batch answers sent (lines.filterMap decodePendingRecord).length k
        (replayLines batch answers sent lines).2.1 := by
  -- a line that is no record is passed over and counts as done
  induction lines generalizing sent with
  | nil =>
    exact ⟨le_rfl, 0, rfl, rfl, le_rfl, fun i h => absurd h (Nat.not_lt_zero i),
      Or.inr (Or.inr rfl), Or.inl ⟨rfl, rfl⟩⟩
  | cons line lines ih =>
    rw [replayLines]
    by_cases hlimit : 0 < batch ∧ batch ≤ sent
    · rw [if_pos hlimit]
      refine ⟨le_rfl, 0, rfl, by simp, Nat.zero_le _, fun i h => absurd h (Nat.not_lt_zero i), ?_⟩
      dsimp only
      omega
    rw [if_neg hlimit]
    cases hdec : decodePendingRecord line with
    | none =>
      obtain ⟨hle, k, htake, hdrop, hstops⟩ := ih sent
      dsimp only
      rw [List.filterMap_cons_none hdec, List.length_cons, Nat.succ_sub hle, List.drop_succ_cons]
      exact ⟨Nat.le_succ_of_le hle, k, htake, hdrop, hstops⟩
    | some record =>
      rw [List.filterMap_cons_some hdec]
      by_cases hanswer : answers sent = true
      · obtain ⟨hle, k, htake, hdrop, hk, hall, hbatch, hstop⟩ := ih (sent + 1)
        simp only [if_pos hanswer]
        rw [List.length_cons, Nat.succ_sub hle, List.drop_succ_cons]
        refine ⟨Nat.le_succ_of_le hle, k + 1, congrArg _ htake, hdrop, ?_, ?_, ?_, ?_⟩
        · exact Nat.succ_le_succ hk
        · intro i hi
          cases i with
          | zero => exact hanswer
          | succ i =>
            rw [show sent + (i + 1) = sent + 1 + i by omega]
            exact hall i (by omega)
        · omega
        · rw [List.length_cons, show sent + (k + 1) = sent + 1 + k by omega]
          rcases hstop with ⟨hend, hown⟩ | ⟨hlt, hfull⟩ | ⟨hlt, hrefused⟩
          · exact Or.inl ⟨congrArg Nat.succ hend, hown⟩
          · exact Or.inr (Or.inl ⟨Nat.succ_lt_succ hlt, hfull⟩)
          · exact Or.inr (Or.inr ⟨Nat.succ_lt_succ hlt, hrefused⟩)
      · rw [Bool.not_eq_true] at hanswer
        simp only [hanswer, Bool.false_eq_true, if_false]
        refine ⟨le_rfl, 0, rfl, ?_, Nat.zero_le _, fun i h => absurd h (Nat.not_lt_zero i), ?_, ?_⟩
        · rw [List.length_cons, Nat.sub_self, List.drop_zero, List.drop_zero,
            List.filterMap_cons_some hdec]
        · exact Or.inr (Or.inr rfl)
        · refine Or.inr (Or.inr ⟨Nat.succ_pos _, by omega, hanswer, rfl⟩)

theorem readAllLines_keepLast (f : CacheFile) (n : ℕ) : (f.keepLast n).readAllLines =
    f.readAllLines.drop (f.readAllLines.length - n) := by
  refine List.filter_eq_self.mpr fun line h => ?_
  exact (List.mem_filter.mp (List.mem_of_mem_drop h)).2

theorem encode_ne_nil (record : PendingUploadRecord) : encodePendingRecord record ≠ [] :=
  List.append_ne_nil_of_right_ne_nil _ (List.cons_ne_nil _ _)

theorem cached_append (f : CacheFile) (record : PendingUploadRecord) :
    cached (f.append record) = cached f ++ [record.kept] := by
  have hline : [encodePendingRecord record].filter (· ≠ []) = [encodePendingRecord record] :=
    List.filter_eq_self.mpr fun line h => by
      rw [List.mem_singleton.mp h, decide_eq_true_eq]
      exact encode_ne_nil record
  unfold cached CacheFile.readAllLines CacheFile.append
  rw [List.filter_append, hline, List.filterMap_append,
    List.filterMap_cons_some (decode_encodePendingRecord record), List.filterMap_nil]

section Unlimited
variable (batch : ℕ) (file : CacheFile) (answers : ℕ → Bool)

theorem flushPending_spec :
    (flushPending ⟨0, batch⟩ file ⟨answers, true, true⟩).ok = true ∧
    ∃ k, (flushPending ⟨0, batch⟩ file ⟨answers, true, true⟩).accepted = (cached file).take k ∧
      cached (flushPending ⟨0, batch⟩ file ⟨answers, true, true⟩).file = (cached file).drop k ∧
      Stops batch answers 0 (cached file).length k
        (flushPending ⟨0, batch⟩ file ⟨answers, true, true⟩).calls := by
  unfold flushPending
  by_cases hempty : file.lines = []
  · have hnone : cached file = [] := by
      unfold cached CacheFile.readAllLines
      rw [hempty]
      rfl
    rw [if_pos hempty, hnone]
    exact ⟨rfl, 0, rfl, rfl, le_rfl, fun i h => absurd h (Nat.not_lt_zero i),
      Or.inr (Or.inr rfl), Or.inl ⟨rfl, rfl⟩⟩
  · rw [if_neg hempty]
    obtain ⟨-, k, htake, hdrop, hstops⟩ := replayLines_spec batch answers 0 file.readAllLines
    refine ⟨rfl, k, htake, ?_, hstops⟩
    simp only [if_true, enforceCacheLimit, true_or]
    unfold cached
    rw [readAllLines_keepLast]
    exact hdrop

theorem appendPending_cached (record : PendingUploadRecord) :
    cached (appendPending ⟨0, batch⟩ file ⟨answers, true, true⟩ record) =
      cached file ++ [record.kept] := by
  simp only [appendPending, if_true, Nat.lt_irrefl, false_and, if_false]
  exact cached_append file record

/-- A call replays some of the waiting records and then gives its own to the inner uploader, who
takes it, or puts it at the end of the file. -/
theorem uploadLike_spec (record : PendingUploadRecord) :
    ∃ k own, Stops batch answers 0 (cached file).length k own ∧
      (answers own = true →
        (uploadLike ⟨0, batch⟩ file ⟨answers, true, true⟩ record).2.1 =
          (cached file).take k ++ [record] ∧
        cached (uploadLike ⟨0, batch⟩ file ⟨answers, true, true⟩ record).1 = (cached file).drop k) ∧
      (answers own = false →
        (uploadLike ⟨0, batch⟩ file ⟨answers, true, true⟩ record).2.1 = (cached file).take k ∧
        cached (uploadLike ⟨0, batch⟩ file ⟨answers, true, true⟩ record).1 =
          (cached file).drop k ++ [record.kept]) := by
  obtain ⟨hok, k, htake, hdrop, hstops⟩ := flushPending_spec batch file answers
  refine ⟨k, _, hstops, fun hyes => ?_, fun hno => ?_⟩
  · simp only [uploadLike, hok, hyes, not_true_eq_false, if_false, if_true]
    exact ⟨congrArg (· ++ [record]) htake, hdrop⟩
  · simp only [uploadLike, hok, hno, not_true_eq_false, if_false, Bool.false_eq_true]
    exact ⟨htake, (appendPending_cached batch _ answers record).trans (congrArg (· ++ _) hdrop)⟩

end Unlimited

def submit (batch : ℕ) (file : CacheFile) (c : Submission × (ℕ → Bool)) :
    CacheFile × List PendingUploadRecord × Bool :=
  uploadLike ⟨0, batch⟩ file ⟨c.2, true, true⟩ c.1.record

/-- All that was submitted, and all that the inner uploader has accepted. -/
structure Traffic where
  submitted : List PendingUploadRecord
  accepted : List PendingUploadRecord

def Traffic.observe (_ : CacheFile) (g : Traffic) (c : Submission × (ℕ → Bool))
    (out : List PendingUploadRecord × Bool) : Traffic :=
  ⟨g.submitted ++ [c.1.record], g.accepted ++ out.1⟩

def submitWatched (batch : ℕ) := watched (submit batch) Traffic.observe

def Ordered (w : CacheFile × Traffic) : Prop := w.2.accepted ++ cached w.1 = w.2.submitted

/-- The call leaves everything in order. -/
def KeepsOrder (batch : ℕ) (w : CacheFile × Traffic) (c : Submission × (ℕ → Bool)) : Prop :=
  Ordered (submitWatched batch w c).1

/-- If the new record is accepted when the replay has stopped, only equals of it are still waiting;
if it is not accepted, it is one that the file can hold. -/
def InTurn (batch : ℕ) (w : CacheFile × Traffic) (c : Submission × (ℕ → Bool)) : Prop :=
  ∀ k own, Stops batch c.2 0 (cached w.1).length k own →
    (c.2 own = true → ∀ r ∈ (cached w.1).drop k, r = c.1.record) ∧
    (c.2 own = false → c.1.record.kept = c.1.record)

/-- A list can be gone through before or after an element of it only if all are equal. -/
theorem cons_eq_concat_iff {α : Type*} (a : α) (l : List α) :
    a :: l = l ++ [a] ↔ ∀ b ∈ l, b = a := by
  constructor
  · intro h
    induction l with
    | nil => exact fun b hb => absurd hb List.not_mem_nil
    | cons x l ih =>
      rw [List.cons_append] at h
      obtain ⟨hx, hl⟩ := List.cons.inj h
      rw [← hx] at hl
      exact List.forall_mem_cons.mpr ⟨hx.symm, ih hl⟩
  · intro h
    rw [List.eq_replicate_of_mem h, ← List.replicate_succ, ← List.replicate_succ']

theorem keepsOrder_iff (batch : ℕ) (w : CacheFile × Traffic) (c : Submission × (ℕ → Bool))
    (hw : Ordered w) : InTurn batch w c ↔ KeepsOrder batch w c := by
  obtain ⟨file, g⟩ := w
  obtain ⟨k, own, hstops, hyes, hno⟩ := uploadLike_spec batch file c.2 c.1.record
  have hturn : InTurn batch (file, g) c ↔
      (c.2 own = true → ∀ r ∈ (cached file).drop k, r = c.1.record) ∧
      (c.2 own = false → c.1.record.kept = c.1.record) := by
    constructor
    · exact fun h => h k own hstops
    · intro h k' own' hstops'
      obtain ⟨rfl, rfl⟩ := hstops.unique hstops'
      exact h
  have hgoal : KeepsOrder batch (file, g) c ↔
      g.accepted ++ ((uploadLike ⟨0, batch⟩ file ⟨c.2, true, true⟩ c.1.record).2.1 ++
        cached (uploadLike ⟨0, batch⟩ file ⟨c.2, true, true⟩ c.1.record).1) =
      g.accepted ++ (cached file ++ [c.1.record]) := by
    have hbefore : g.accepted ++ (cached file ++ [c.1.record]) = g.submitted ++ [c.1.record] := by
      rw [← List.append_assoc]
      exact congrArg (· ++ [c.1.record]) hw
    rw [hbefore, ← List.append_assoc]
    rfl
  rw [hturn, hgoal, List.append_cancel_left_eq]
  cases hown : c.2 own with
  | true =>
    obtain ⟨haccepted, hfile⟩ := hyes hown
    have hsplit : cached file ++ [c.1.record] =
        (cached file).take k ++ ((cached file).drop k ++ [c.1.record]) := by
      rw [← List.append_assoc, List.take_append_drop]
    rw [haccepted, hfile, hsplit, List.append_assoc, List.append_cancel_left_eq,
      List.singleton_append, cons_eq_concat_iff]
    simp
  | false =>
    obtain ⟨haccepted, hfile⟩ := hno hown
    rw [haccepted, hfile, ← List.append_assoc, List.take_append_drop, List.append_cancel_left_eq]
    simp

/-- Over every run what was accepted, followed by what is cached, is what was submitted, after
every call, exactly as long as every call is in turn. -/
theorem store_and_forward_iff (batch : ℕ) (file : CacheFile)
    (calls : List (Submission × (ℕ → Bool))) :
    Always (submitWatched batch) (InTurn batch) (file, ⟨cached file, []⟩) calls ↔
      Always (submitWatched batch) (KeepsOrder batch) (file, ⟨cached file, []⟩) calls := by
  apply always_iff_of_invariant (I := Ordered)
  · exact fun w c hw hc => (keepsOrder_iff batch w c hw).mp hc
  · exact fun w c hw => keepsOrder_iff batch w c hw
  · exact List.nil_append _

/-- Two events: the first is refused, and so is its replay, but not the second. -/
theorem event_overtakes : ¬ Always (submitWatched 0) (KeepsOrder 0) (.empty, ⟨cached .empty, []⟩)
    [(.uploadEvent [1], fun _ => false), (.uploadEvent [2], fun i => i = 1)] := by
  rintro ⟨hfirst, hsecond, -⟩
  have hwaiting : cached (submitWatched 0 (.empty, ⟨cached .empty, []⟩)
      (.uploadEvent [1], fun _ => false)).1.1 = [{ kind := .event, payload := [1] }] := by
    decide +kernel
  have hturn := (keepsOrder_iff 0 _ _ hfirst).mpr hsecond 0 1
  rw [hwaiting] at hturn
  have hstops : Stops 0 (fun i => decide (i = 1)) 0 1 0 1 :=
    ⟨Nat.zero_le _, fun i h => absurd h (Nat.not_lt_zero i), Or.inl rfl,
      Or.inr (Or.inr ⟨Nat.one_pos, Or.inl rfl, by decide, rfl⟩)⟩
  have hequal := (hturn hstops).1 (by decide) _ (List.mem_singleton.mpr rfl)
  exact absurd (congrArg PendingUploadRecord.payload hequal) (by decide)

end EdgeLink.Gateway
