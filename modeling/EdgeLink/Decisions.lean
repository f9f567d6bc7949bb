import EdgeLink.BatchRollout
import EdgeLink.Holders
import EdgeLink.Machine

namespace EdgeLink.Decisions
open Holders Machine Rollout

inductive ActionType
  | createTicket | pauseBatch | manualReview | other
  deriving DecidableEq

/-- A row of `decision_records`; nothing ever writes the status `approved` or `executing`. -/
structure DecisionRecord where
  alertId : ℕ
  policyId : String
  actionType : ActionType
  riskLevel : String
  requiresApproval : Bool
  status : DecisionStatus
  updatedAt : ℕ
  deriving DecidableEq

inductive ExecutionState
  | executing | executed | failed | blocked
  deriving DecidableEq

structure ExecutionRecord where
  decisionId : ℕ
  status : ExecutionState
  updatedAt : ℕ
  deriving DecidableEq

/-- What a policy proposes for an alert. -/
structure DecisionProposal where
  alertId : ℕ
  policyId : String
  actionType : ActionType
  riskLevel : String
  requiresApproval : Bool
  deriving DecidableEq

def finalized (status : DecisionStatus) : Bool := status = .executed ∨ status = .rolledBack

/-- The guardrail that blocks, if there is one. -/
def evaluateDecisionGuardrails (decision : DecisionRecord) (actor : Role) (force_execute : Bool) :
    Option String :=
  if finalized decision.status then some "already_finalized"
  else if decision.requiresApproval ∧ ¬(actor = .approver ∨ actor = .admin) ∧ !force_execute then
    some "approval_required"
  else if decision.riskLevel = "critical" ∧ !force_execute ∧ actor ≠ .admin then
    some "admin_required_for_critical"
  else none

/-- Whether `_run_decision_action` reports success; tickets and batch runs decide for themselves. -/
def runDecisionAction (action_type : ActionType) (answer : Bool) : Bool :=
  match action_type with
  | .createTicket | .pauseBatch => answer
  | .manualReview => true
  | .other => false

def runDecisionRollback (action_type : ActionType) (answer : Bool) : Bool :=
  match action_type with
  | .createTicket | .pauseBatch => answer
  | .manualReview => true
  | .other => false

/-- What a call does next, and what it has read. -/
inductive Place
  | blocked (decision_id : ℕ)
  | guarded (decision_id : ℕ) (actor : Role) (force : Bool)
  | recorded (decision_id execution_id : ℕ) (actor : Role) (force : Bool)
  | acted (decision_id execution_id : ℕ) (ok : Bool)
  | noted (decision_id : ℕ) (ok : Bool)
  | sought (decision_id : ℕ)
  | undoing (decision_id execution_id : ℕ)
  | undone (decision_id : ℕ) (ok : Bool)
  | unwinding (decision_id : ℕ)
  | found (decision_id : ℕ)
  | current (decision_id : ℕ) (status : DecisionStatus)
  | creating (proposal : DecisionProposal)
  | ended
  deriving DecidableEq

structure World where
  /-- by decision id -/
  decisions : List DecisionRecord
  /-- by execution id -/
  executions : List ExecutionRecord
  calls : List Place
  clock : ℕ
  /-- the decisions whose action has succeeded, once for each success -/
  acted : List ℕ
  /-- the executions that were rolled back successfully -/
  undone : List ℕ

def getActiveDecisionByPolicy (w : World) (alert_id : ℕ) (policy_id : String) :
    Option (DecisionRecord × ℕ) :=
  (w.decisions.zipIdx.filter fun row =>
    row.1.alertId = alert_id ∧ row.1.policyId = policy_id ∧ row.1.status = .proposed).argmax
      fun row => row.1.updatedAt

def getLatestExecutionForDecision (w : World) (decision_id : ℕ) : Option (ExecutionRecord × ℕ) :=
  (w.executions.zipIdx.filter fun row => row.1.decisionId = decision_id).argmax
    fun row => row.1.updatedAt

def World.begin (w : World) (place : Place) : World := { w with calls := w.calls ++ [place] }

def World.goto (w : World) (t : ℕ) (place : Place) : World := { w with calls := w.calls.set t place }

def World.addExecution (w : World) (decision_id : ℕ) (status : ExecutionState) : World :=
  { w with executions := w.executions ++ [⟨decision_id, status, w.clock⟩] }

def World.setExecution (w : World) (execution_id : ℕ) (status : ExecutionState) : World :=
  { w with
    executions := w.executions.modify execution_id fun row =>
      { row with status := status, updatedAt := w.clock } }

/-- The second half of `update_decision_record`. -/
def World.setDecision (w : World) (decision_id : ℕ) (status : DecisionStatus) : World :=
  { w with
    decisions := w.decisions.modify decision_id fun row =>
      { row with status := status, updatedAt := w.clock } }

def executeDecision (w : World) (decision_id : ℕ) (actor : Role) (force_execute : Bool) : World :=
  if roleRank actor < roleRank .operator then w
  else match w.decisions[decision_id]? with
    | none => w
    | some decision =>
      match evaluateDecisionGuardrails decision actor force_execute with
      | some _ => w.begin (.blocked decision_id)
      | none => w.begin (.guarded decision_id actor force_execute)

def rollbackDecisionExecution (w : World) (decision_id : ℕ) (actor : Role) : World :=
  if roleRank actor < roleRank .approver then w
  else match w.decisions[decision_id]? with
    | none => w
    | some _ => w.begin (.sought decision_id)

def ingestDecision (w : World) (proposal : DecisionProposal) : World :=
  match getActiveDecisionByPolicy w proposal.alertId proposal.policyId with
  | some (_, decision_id) => w.begin (.found decision_id)
  | none => w.begin (.creating proposal)

def World.actionType (w : World) (decision_id : ℕ) : ActionType :=
  match w.decisions[decision_id]? with
  | some decision => decision.actionType
  | none => .other

def newDecision (w : World) (proposal : DecisionProposal) : DecisionRecord :=
  ⟨proposal.alertId, proposal.policyId, proposal.actionType, proposal.riskLevel,
    proposal.requiresApproval, .proposed, w.clock⟩

/-- The next read, action or write of a call. -/
def advance (w : World) (t : ℕ) (answer : Bool) : Place → World
  | .blocked d => (w.addExecution d .blocked).goto t .ended
  | .guarded d actor force =>
    (w.addExecution d .executing).goto t (.recorded d w.executions.length actor force)
  | .recorded d x _ _ =>
    let ok := runDecisionAction (w.actionType d) answer
    { w with acted := if ok then d :: w.acted else w.acted }.goto t (.acted d x ok)
  | .acted d x ok => (w.setExecution x (if ok then .executed else .failed)).goto t (.noted d ok)
  | .noted d ok => (w.setDecision d (if ok then .executed else .failed)).goto t .ended
  | .sought d =>
    match getLatestExecutionForDecision w d with
    | none => w.goto t .ended
    | some (execution, x) =>
      if execution.status ≠ .executed then w.goto t .ended else w.goto t (.undoing d x)
  | .undoing d x =>
    let ok := runDecisionRollback (w.actionType d) answer
    { w with undone := if ok then x :: w.undone else w.undone }.goto t (.undone d ok)
  | .undone d ok => w.goto t (if ok then .unwinding d else .ended)
  | .unwinding d => (w.setDecision d .rolledBack).goto t .ended
  | .found d =>
    match w.decisions[d]? with
    | none => w.goto t .ended
    | some decision => w.goto t (.current d decision.status)
  | .current d status => (w.setDecision d status).goto t .ended
  | .creating proposal => { w with decisions := w.decisions ++ [newDecision w proposal] }.goto t .ended
  | .ended => w

inductive Event
  | executeDecision (decision_id : ℕ) (actor : Role) (force_execute : Bool)
  | rollbackDecisionExecution (decision_id : ℕ) (actor : Role)
  | ingestDecision (proposal : DecisionProposal)
  | next (t : ℕ) (answer : Bool)

def act (w : World) : Event → World
  | .executeDecision d actor force => executeDecision w d actor force
  | .rollbackDecisionExecution d actor => rollbackDecisionExecution w d actor
  | .ingestDecision proposal => ingestDecision w proposal
  | .next t answer =>
    match w.calls[t]? with
    | none => w
    | some place => advance w t answer place

def step (w : World) (e : Event) : World × Unit :=
  ({ act w e with clock := w.clock + 1 }, ())

def start : World := ⟨[], [], [], 0, [], []⟩

/-- The decision that the call has read and is going to write or to act on. -/
def Place.holds : Place → Option ℕ
  | .guarded d _ _ | .recorded d _ _ _ | .acted d _ _ | .noted d _ | .sought d | .undoing d _
  | .undone d _ | .unwinding d | .current d _ => some d
  | .blocked _ | .found _ | .creating _ | .ended => none

def World.free (w : World) (decision_id : ℕ) : Prop := Free Place.holds w.calls decision_id

instance (w : World) (d : ℕ) : Decidable (w.free d) :=
  inferInstanceAs (Decidable (Free Place.holds w.calls d))

def Place.foundId : Place → Option ℕ
  | .found d => some d
  | _ => none

/-- No call reads a decision that another call has read and not yet written, and none rolls back a
decision that is rolled back. -/
def Exclusive (w : World) : Event → Prop
  | .executeDecision d actor force => roleRank .operator ≤ roleRank actor →
      ∀ decision ∈ w.decisions[d]?, evaluateDecisionGuardrails decision actor force = none → w.free d
  | .rollbackDecisionExecution d actor => roleRank .approver ≤ roleRank actor →
      ∀ decision ∈ w.decisions[d]?, decision.status ≠ .rolledBack ∧ w.free d
  | .next t _ => ∀ p ∈ w.calls[t]?, ∀ d ∈ p.foundId, w.free d
  | .ingestDecision _ => True

instance (w : World) (e : Event) : Decidable (Exclusive w e) :=
  match e with
  | .executeDecision d actor force =>
    inferInstanceAs (Decidable (roleRank .operator ≤ roleRank actor →
      ∀ decision ∈ w.decisions[d]?, evaluateDecisionGuardrails decision actor force = none →
        w.free d))
  | .rollbackDecisionExecution d actor =>
    inferInstanceAs (Decidable (roleRank .approver ≤ roleRank actor →
      ∀ decision ∈ w.decisions[d]?, decision.status ≠ .rolledBack ∧ w.free d))
  | .next t _ => inferInstanceAs (Decidable (∀ p ∈ w.calls[t]?, ∀ d ∈ p.foundId, w.free d))
  | .ingestDecision _ => isTrue trivial

/-- The action of a decision has succeeded at most once, and each execution was rolled back at most
once. -/
def Once (w : World) (e : Event) : Prop := (step w e).1.acted.Nodup ∧ (step w e).1.undone.Nodup

/-- An action that needs approval is run for an approver, unless it is forced. -/
def Approved (w : World) (e : Event) : Prop :=
  ∀ t answer d x actor, e = .next t answer → w.calls[t]? = some (.recorded d x actor false) →
    ∀ decision ∈ w.decisions[d]?, decision.requiresApproval = true →
      roleRank .approver ≤ roleRank actor

end EdgeLink.Decisions
