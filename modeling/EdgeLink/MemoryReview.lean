import EdgeLink.Machine
import EdgeLink.RolloutGate

namespace EdgeLink.Memory
open Machine
open Rollout (Role roleRank strip lower strip_strip)

structure Settings where
  agentAdminUsers : List String
  agentApproverUsers : List String
  agentOperatorUsers : List String
  agentViewerUsers : List String

/-- Under which name an actor is known. -/
def normalizedActor (actor : String) : String := lower (strip actor)

def resolveActorRole (settings : Settings) (actor : String) : Role :=
  let normalized := normalizedActor actor
  if normalized ∈ ["system", "service"] then .admin
  else if normalized ∈ settings.agentAdminUsers.map lower then .admin
  else if normalized ∈ settings.agentApproverUsers.map lower then .approver
  else if normalized ∈ settings.agentOperatorUsers.map lower then .operator
  else if normalized ∈ settings.agentViewerUsers.map lower then .viewer
  else if normalized = "admin" then .admin
  else if normalized ∈ ["approver", "reviewer"] then .approver
  else if normalized = "operator" then .operator
  else .viewer

def MayReview (settings : Settings) (actor : String) : Prop :=
  roleRank .approver ≤ roleRank (resolveActorRole settings actor)

instance (settings : Settings) (actor : String) : Decidable (MayReview settings actor) :=
  inferInstanceAs (Decidable (roleRank .approver ≤ roleRank (resolveActorRole settings actor)))

/-- A candidate as it is extracted; its text is made without blanks at the ends. -/
structure MemoryCandidateRecord where
  scope : String
  memoryKey : String
  content : String
  riskScore : ℚ
  trimmed : strip content = content

inductive CandidateStatus
  | pending | stage1Approved | approved | rejected
  deriving DecidableEq

structure Candidate extends MemoryCandidateRecord where
  status : CandidateStatus
  firstReviewedBy : String
  updatedAt : ℕ
  /-- who has approved it, and what it said then -/
  approvals : List (String × String)

structure World where
  /-- by candidate id -/
  candidates : List Candidate
  clock : ℕ

def getPendingMemoryCandidateByKey (w : World) (scope memory_key : String) : Option (Candidate × ℕ) :=
  (w.candidates.zipIdx.filter fun row =>
    row.1.scope = scope ∧ row.1.memoryKey = memory_key ∧ row.1.status = .pending).argmax
      fun row => row.1.updatedAt

def mergedContent (current content : String) : String :=
  if strip content ≠ "" ∧ strip content ≠ strip current then strip content else strip current

theorem mergedContent_trimmed (current content : String) :
    strip (mergedContent current content) = mergedContent current content := by
  unfold mergedContent
  split_ifs
  · exact strip_strip _
  · exact strip_strip _

def mergeMemoryCandidate (clock : ℕ) (current : Candidate) (candidate : MemoryCandidateRecord) :
    Candidate :=
  { current with
    content := mergedContent current.content candidate.content
    riskScore := max current.riskScore candidate.riskScore
    trimmed := mergedContent_trimmed _ _
    updatedAt := clock }

def newCandidate (clock : ℕ) (record : MemoryCandidateRecord) : Candidate :=
  ⟨record, .pending, "", clock, []⟩

/-- One extracted candidate; `known` says that an existing memory has its key and content. -/
def rememberCandidate (r : World × List MemoryCandidateRecord)
    (item : MemoryCandidateRecord × Bool) : World × List MemoryCandidateRecord :=
  match getPendingMemoryCandidateByKey r.1 item.1.scope item.1.memoryKey with
  | some (existing, candidate_id) =>
    ({ r.1 with
        candidates := r.1.candidates.set candidate_id
          (mergeMemoryCandidate r.1.clock existing item.1) }, r.2)
  | none => if item.2 then r else (r.1, r.2 ++ [item.1])

def rememberAgentInteraction (candidates : List (MemoryCandidateRecord × Bool)) (w : World) : World :=
  let r := candidates.foldl rememberCandidate (w, [])
  { r.1 with candidates := r.1.candidates ++ r.2.map (newCandidate w.clock) }

def requiresSecondReview (candidate : Candidate) : Bool := candidate.riskScore ≥ 2 / 5

def stage1 (clock : ℕ) (reviewed_by : String) (candidate : Candidate) : Candidate :=
  { candidate with
    status := .stage1Approved
    firstReviewedBy := reviewed_by
    updatedAt := clock
    approvals := candidate.approvals ++ [(reviewed_by, candidate.content)] }

/-- `listed` says that the memory was found again after it had been written. -/
def final (clock : ℕ) (reviewed_by : String) (listed : Bool) (candidate : Candidate) : Candidate :=
  { candidate with
    status := if listed then .approved else candidate.status
    updatedAt := if listed then clock else candidate.updatedAt
    approvals := candidate.approvals ++ [(reviewed_by, candidate.content)] }

/-- The same reviewer comes again, as far as the code can see. -/
def sameReviewer (candidate : Candidate) (reviewed_by : String) : Bool :=
  strip candidate.firstReviewedBy ≠ "" ∧ strip candidate.firstReviewedBy = reviewed_by

/-- Answers with what was written to the long-term memory. -/
def approveMemoryCandidate (settings : Settings) (w : World) (candidate_id : ℕ)
    (reviewed_by : String) (listed : Bool) : World × Option (ℕ × String) :=
  if ¬ MayReview settings reviewed_by then (w, none)
  else match w.candidates[candidate_id]? with
    | none => (w, none)
    | some candidate =>
      if ¬(candidate.status = .pending ∨ candidate.status = .stage1Approved) then (w, none)
      else if requiresSecondReview candidate ∧ candidate.status = .pending then
        ({ w with candidates := w.candidates.set candidate_id (stage1 w.clock reviewed_by candidate) },
          none)
      else if requiresSecondReview candidate ∧ candidate.status = .stage1Approved ∧
          sameReviewer candidate reviewed_by then (w, none)
      else
        ({ w with
            candidates := w.candidates.set candidate_id (final w.clock reviewed_by listed candidate) },
          some (candidate_id, strip candidate.content))

def rejectMemoryCandidate (settings : Settings) (w : World) (candidate_id : ℕ) (reviewed_by : String) :
    World :=
  if ¬ MayReview settings reviewed_by then w
  else match w.candidates[candidate_id]? with
    | none => w
    | some candidate =>
      { w with
        candidates := w.candidates.set candidate_id
          { candidate with status := .rejected, updatedAt := w.clock } }

inductive Event
  | remember (candidates : List (MemoryCandidateRecord × Bool))
  | approve (candidate_id : ℕ) (reviewed_by : String) (listed : Bool)
  | reject (candidate_id : ℕ) (reviewed_by : String)

def act (settings : Settings) (w : World) : Event → World × Option (ℕ × String)
  | .remember candidates => (rememberAgentInteraction candidates w, none)
  | .approve candidate_id reviewed_by listed =>
    approveMemoryCandidate settings w candidate_id reviewed_by listed
  | .reject candidate_id reviewed_by => (rejectMemoryCandidate settings w candidate_id reviewed_by, none)

def step (settings : Settings) (w : World) (e : Event) : World × Option (ℕ × String) :=
  let r := act settings w e
  ({ r.1 with clock := w.clock + 1 }, r.2)

def start : World := ⟨[], 0⟩

/-- A candidate of high risk is written when two different people have approved what is written. -/
def FourEyes (settings : Settings) (w : World) (e : Event) : Prop :=
  ∀ id content, (step settings w e).2 = some (id, content) →
    ∃ c, (step settings w e).1.candidates[id]? = some c ∧ (c.riskScore ≥ 2 / 5 →
      ∃ a b, (a, content) ∈ c.approvals ∧ (b, content) ∈ c.approvals ∧
        normalizedActor a ≠ normalizedActor b)

def CandidateStatus.final (status : CandidateStatus) : Prop := status = .approved ∨ status = .rejected

/-- What is approved or rejected stays so. -/
def Settled (w w' : World) : Prop :=
  ∀ (i : ℕ) (c : Candidate), w.candidates[i]? = some c →
    ∃ c', w'.candidates[i]? = some c' ∧ (c.status.final → c'.status = c.status)

def Lawful (settings : Settings) (w : World) (e : Event) : Prop :=
  FourEyes settings w e ∧ Settled w (step settings w e).1

/-- A second approval by the same person spells the name as it was stored; and nothing that is
approved is rejected. -/
def Careful (settings : Settings) (w : World) : Event → Prop
  | .remember _ => True
  | .approve id reviewed_by _ => MayReview settings reviewed_by → ∀ c ∈ w.candidates[id]?,
      c.status = .stage1Approved → requiresSecondReview c = true →
      normalizedActor reviewed_by = normalizedActor c.firstReviewedBy → sameReviewer c reviewed_by = true
  | .reject id reviewed_by => MayReview settings reviewed_by → ∀ c ∈ w.candidates[id]?,
      c.status ≠ .approved

instance (settings : Settings) : (w : World) → (e : Event) → Decidable (Careful settings w e)
  | _, .remember _ => isTrue trivial
  | w, .approve id reviewed_by _ =>
    inferInstanceAs (Decidable (MayReview settings reviewed_by → ∀ c ∈ w.candidates[id]?,
      c.status = .stage1Approved → requiresSecondReview c = true →
      normalizedActor reviewed_by = normalizedActor c.firstReviewedBy →
      sameReviewer c reviewed_by = true))
  | w, .reject id reviewed_by =>
    inferInstanceAs (Decidable (MayReview settings reviewed_by → ∀ c ∈ w.candidates[id]?,
      c.status ≠ .approved))

/-- What the first reviewer has approved is what a candidate still says at its second review. -/
def Candidate.Sound (c : Candidate) : Prop :=
  c.status = .stage1Approved → (c.firstReviewedBy, c.content) ∈ c.approvals

def Sound (w : World) : Prop := ∀ c ∈ w.candidates, c.Sound

variable {settings : Settings} {w w' w'' : World} {i : ℕ} {c c' : Candidate} {clock : ℕ}

theorem Settled.refl (w : World) : Settled w w := fun _ c hi => ⟨c, hi, fun _ => rfl⟩

theorem Settled.trans (h : Settled w w') (h' : Settled w' w'') : Settled w w'' := by
  intro i c hi
  obtain ⟨c', hi', hc'⟩ := h i c hi
  obtain ⟨c'', hi'', hc''⟩ := h' i c' hi'
  refine ⟨c'', hi'', fun hfinal => ?_⟩
  have hsame := hc' hfinal
  exact (hc'' (hsame ▸ hfinal)).trans hsame

def riskyNote (content : String) (h : strip content = content) : MemoryCandidateRecord :=
  ⟨"global", "gateway_note", content, 7 / 10, h⟩

def safeNote (content : String) (h : strip content = content) : MemoryCandidateRecord :=
  ⟨"global", "operator_note", content, 0, h⟩

def keyNote : MemoryCandidateRecord := riskyNote "keep the key" (by decide +kernel)

def nightNote : MemoryCandidateRecord := safeNote "reports at night" (by decide +kernel)

/-- The first reviewer's second try is refused, and somebody else's is not. -/
def reviewRun : List Event :=
  [.remember [(keyNote, false), (nightNote, false)], .approve 0 "approver" true,
    .approve 0 "approver" true, .approve 0 "Admin" true, .approve 1 "approver" true,
    .remember [(nightNote, true)]]

end EdgeLink.Memory
