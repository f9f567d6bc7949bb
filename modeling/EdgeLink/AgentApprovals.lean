import EdgeLink.Counter
import EdgeLink.Machine
import EdgeLink.MemoryMerge

namespace EdgeLink.ReActAgent
open Machine

/-! The agent's approvals where the model has no interrupts of its own: a tool that would write only
asks, `invoke` collects what has been asked, and `resume` executes it. Any number of calls may be
under way. -/

/-- The arguments of a tool, each value as its JSON text. -/
abbrev Args := Finmap fun _ : String => String

structure Action where
  name : String
  arguments : Args
  deriving DecidableEq

structure ToolOutput where
  requiresApproval : Bool
  actionName : String
  actionArgs : Args

inductive Message
  | tool (name : String) (output : ToolOutput)
  | other

/-- The action that a message asks for. -/
def Message.request : Message → Option Action
  | tool name output =>
    let action_name := if output.actionName ≠ "" then output.actionName else name
    if output.requiresApproval ∧ action_name ≠ "" then some ⟨action_name, output.actionArgs⟩ else none
  | other => none

def extractManualApprovalActions (messages : List Message) : List Action :=
  (messages.filterMap Message.request).eraseDups

/-- The actions that `_execute_write_action` hands to the service. -/
def writeTools : List String :=
  ["ota_create_request", "approve_ota_request", "pause_batch", "retry_failed_devices"]

/-- The decision of `resume` when its spelling has been normalised. -/
inductive Decision
  | approve
  | edit (edit_args : Args)
  | reject

/-- The arguments that replace those asked for, if anything is to be executed. -/
def Decision.editArgs : Decision → Option Args
  | approve => some ∅
  | edit edit_args => some edit_args
  | reject => none

def Action.edited (edit_args : Args) (a : Action) : Action :=
  { a with arguments := edit_args ∪ a.arguments }

/-- A `resume` that executes actions; `todo` is `none` when it has returned. -/
structure Call where
  session : String
  editArgs : Args
  actions : List Action
  todo : Option (List Action)
  seen : List Action

structure World where
  /-- `_pending_manual_actions` -/
  pending : String → Option (List Action)
  calls : List Call
  /-- what has been handed to the service, by which call -/
  executed : List (ℕ × Action)

def boot : World := ⟨fun _ => none, [], []⟩

inductive Event
  /-- an `invoke` ends; `messages` is the conversation as the agent's state has it -/
  | invoke (session : String) (messages : List Message)
  | resume (session : String) (decision : Decision)
  /-- the next action of a call; `raises` ends the call with an error -/
  | next (t : ℕ) (raises : Bool)

namespace World
variable (w : World)

def setPending (session : String) (actions : Option (List Action)) : World :=
  { w with pending := Function.update w.pending session actions }

def setCall (t : ℕ) (c : Call) : World := { w with calls := w.calls.set t c }

def execute (t : ℕ) (a : Action) : World :=
  if a.name ∈ writeTools then { w with executed := w.executed ++ [(t, a)] } else w

/-- One round of `_execute_pending_manual_actions`, and what follows the last one. -/
def advance (t : ℕ) (c : Call) (raises : Bool) : World :=
  match c.todo with
  | none => w
  | some [] => (w.setPending c.session none).setCall t { c with todo := none }
  | some (a :: rest) =>
    let a := a.edited c.editArgs
    if a ∈ c.seen then w.setCall t { c with todo := some rest }
    else
      (w.execute t a).setCall t
        { c with todo := if raises then none else some rest, seen := c.seen ++ [a] }

def step : Event → World × Unit
  | .invoke session messages =>
    let manual_actions := extractManualApprovalActions messages
    (w.setPending session (if manual_actions = [] then none else some manual_actions), ())
  | .resume session decision =>
    match w.pending session with
    | none => (w, ())
    | some actions =>
      match decision.editArgs with
      | none => (w.setPending session none, ())
      | some edit_args =>
        ({ w with calls := w.calls ++ [⟨session, edit_args, actions, some actions, []⟩] }, ())
  | .next t raises =>
    match w.calls[t]? with
    | none => (w, ())
    | some c => (w.advance t c raises, ())

def executedBy (t : ℕ) : List Action := (w.executed.filter (·.1 = t)).map Prod.snd

end World

def played (es : List Event) : World := run World.step boot es

/-- What the last `invoke` of the session has collected. -/
def asked (session : String) (es : List Event) : List Action :=
  es.foldl (fun actions e => match e with
    | .invoke s messages => if s = session then extractManualApprovalActions messages else actions
    | .resume _ _ => actions
    | .next _ _ => actions) []

theorem played_concat (es : List Event) (e : Event) :
    played (es ++ [e]) = ((played es).step e).1 := run_append _ _ _ _

theorem asked_concat (session : String) (es : List Event) (e : Event) :
    asked session (es ++ [e]) = match e with
      | .invoke s messages =>
        if s = session then extractManualApprovalActions messages else asked session es
      | .resume _ _ => asked session es
      | .next _ _ => asked session es := by
  unfold asked
  rw [List.foldl_append]
  rfl

section Step
variable (w : World)

theorem executedBy_execute (t t' : ℕ) (a : Action) : (w.execute t a).executedBy t' =
    w.executedBy t' ++ if t = t' then [a].filter (·.name ∈ writeTools) else [] := by
  unfold World.execute World.executedBy
  by_cases ha : a.name ∈ writeTools <;> by_cases ht : t = t' <;> simp [ha, ht]

theorem execute_pending (t : ℕ) (a : Action) : (w.execute t a).pending = w.pending := by
  unfold World.execute
  split_ifs <;> rfl

theorem execute_calls (t : ℕ) (a : Action) : (w.execute t a).calls = w.calls := by
  unfold World.execute
  split_ifs <;> rfl

theorem advance_cases (t : ℕ) (c : Call) (raises : Bool) :
    c.todo = none ∧ w.advance t c raises = w ∨
    c.todo = some [] ∧ w.advance t c raises =
      (w.setPending c.session none).setCall t { c with todo := none } ∨
    ∃ a rest, c.todo = some (a :: rest) ∧
      (a.edited c.editArgs ∈ c.seen ∧
          w.advance t c raises = w.setCall t { c with todo := some rest } ∨
        a.edited c.editArgs ∉ c.seen ∧ w.advance t c raises =
          (w.execute t (a.edited c.editArgs)).setCall t
            { c with todo := if raises then none else some rest,
                     seen := c.seen ++ [a.edited c.editArgs] }) := by
  unfold World.advance
  rcases c.todo with _ | _ | ⟨a, rest⟩
  · exact Or.inl ⟨rfl, rfl⟩
  · exact Or.inr (Or.inl ⟨rfl, rfl⟩)
  · refine Or.inr (Or.inr ⟨a, rest, rfl, ?_⟩)
    by_cases ha : a.edited c.editArgs ∈ c.seen
    · exact Or.inl ⟨ha, if_pos ha⟩
    · exact Or.inr ⟨ha, if_neg ha⟩

/-- Only an `invoke` of the session gives it pending actions. -/
theorem advance_pending {t : ℕ} {c : Call} {raises : Bool} {session : String} {actions : List Action}
    (h : (w.advance t c raises).pending session = some actions) : w.pending session = some actions := by
  rcases advance_cases w t c raises with ⟨-, heq⟩ | ⟨-, heq⟩ | ⟨a, rest, -, ⟨-, heq⟩ | ⟨-, heq⟩⟩
  · rwa [heq] at h
  · rw [heq] at h
    by_cases hs : session = c.session
    · subst hs
      cases (Function.update_self ..).symm.trans h
    · exact (Function.update_of_ne hs _ _).symm.trans h
  · rwa [heq] at h
  · rw [heq] at h
    exact (congrFun (execute_pending w t _) session).symm.trans h

/-- What a `resume` does: nothing, a rejection, or a call that executes. -/
theorem resume_cases (session : String) (decision : Decision) :
    w.pending session = none ∧ (w.step (.resume session decision)).1 = w ∨
    ∃ actions, w.pending session = some actions ∧
      (decision.editArgs = none ∧ (w.step (.resume session decision)).1 = w.setPending session none ∨
        ∃ edit_args, decision.editArgs = some edit_args ∧ (w.step (.resume session decision)).1 =
          { w with calls := w.calls ++ [⟨session, edit_args, actions, some actions, []⟩] }) := by
  cases hp : w.pending session with
  | none => exact Or.inl ⟨rfl, by simp only [World.step, hp]⟩
  | some actions =>
    refine Or.inr ⟨actions, rfl, ?_⟩
    cases hd : decision.editArgs with
    | none => exact Or.inl ⟨rfl, by simp only [World.step, hp, hd]⟩
    | some edit_args => exact Or.inr ⟨edit_args, rfl, by simp only [World.step, hp, hd]⟩

theorem next_cases (t : ℕ) (raises : Bool) :
    w.calls[t]? = none ∧ (w.step (.next t raises)).1 = w ∨
    ∃ c, w.calls[t]? = some c ∧ (w.step (.next t raises)).1 = w.advance t c raises := by
  cases hc : w.calls[t]? with
  | none => exact Or.inl ⟨rfl, by simp only [World.step, hc]⟩
  | some c => exact Or.inr ⟨c, rfl, by simp only [World.step, hc]⟩

end Step

theorem pending_asked (es : List Event) {session : String} {actions : List Action}
    (h : (played es).pending session = some actions) :
    actions = asked session es ∧ actions ≠ [] := by
  induction es using List.reverseRecOn generalizing actions with
  | nil => cases h
  | append_singleton es e ih =>
    rw [played_concat] at h
    rw [asked_concat]
    cases e with
    | invoke s messages =>
      by_cases hs : s = session
      · subst hs
        have hpending := (Function.update_self ..).symm.trans h
        split_ifs at hpending with hnil
        obtain rfl := Option.some.inj hpending
        exact ⟨(if_pos rfl).symm, hnil⟩
      · have hold := (Function.update_of_ne (Ne.symm hs) _ _).symm.trans h
        obtain ⟨hasked, hne⟩ := ih hold
        exact ⟨hasked.trans (if_neg hs).symm, hne⟩
    | resume s decision =>
      rcases resume_cases (played es) s decision with ⟨-, heq⟩ | ⟨_, -, ⟨-, heq⟩ | ⟨_, -, heq⟩⟩
      · rw [heq] at h
        exact ih h
      · rw [heq] at h
        by_cases hs : session = s
        · subst hs
          cases (Function.update_self ..).symm.trans h
        · exact ih ((Function.update_of_ne hs _ _).symm.trans h)
      · rw [heq] at h
        exact ih h
    | next t raises =>
      rcases next_cases (played es) t raises with ⟨-, heq⟩ | ⟨c, -, heq⟩
      · rw [heq] at h
        exact ih h
      · rw [heq] at h
        exact ih (advance_pending _ h)

/-- How far a call has come. -/
structure Progress (w : World) (t : ℕ) (c : Call) : Prop where
  /-- the actions it has looked at, of which it has executed each once -/
  seen : ∃ k, c.seen = ((c.actions.take k).map (Action.edited c.editArgs)).eraseDups ∧
    ∀ rest ∈ c.todo, rest = c.actions.drop k
  executed : w.executedBy t = c.seen.filter (·.name ∈ writeTools)

structure Inv (w : World) : Prop where
  progress : ∀ t c, w.calls[t]? = some c → Progress w t c
  known : ∀ x ∈ w.executed, x.1 < w.calls.length

theorem next_action {l rest : List Action} {k : ℕ} {a : Action} (h : l.drop k = a :: rest) :
    l.take (k + 1) = l.take k ++ [a] ∧ l.drop (k + 1) = rest := by
  have ha : l[k]? = some a := by
    rw [← List.head?_drop, h]
    rfl
  constructor
  · rw [List.take_add_one, ha]
    rfl
  · rw [← List.tail_drop, h]
    rfl

theorem Inv.congr {w w' : World} (h : Inv w) (hc : w'.calls = w.calls)
    (he : w'.executed = w.executed) : Inv w' := by
  refine ⟨fun t c ht => ?_, fun x hx => ?_⟩
  · obtain ⟨hseen, hexecuted⟩ := h.progress t c (hc ▸ ht)
    refine ⟨hseen, ?_⟩
    rw [← hexecuted]
    unfold World.executedBy
    rw [he]
  · rw [hc]
    exact h.known x (he ▸ hx)

/-- A call of its own is replaced, the others being left alone. -/
theorem Inv.setCall {w w' : World} (h : Inv w) {t : ℕ} {c : Call} (hcalls : w'.calls = w.calls)
    (hother : ∀ t', t ≠ t' → w'.executedBy t' = w.executedBy t')
    (hknown : ∀ x ∈ w'.executed, x.1 < w.calls.length) (hc : Progress w' t c) :
    Inv (w'.setCall t c) := by
  refine ⟨fun t' c' ht => ?_, fun x hx => ?_⟩
  · have hat : (w.calls.set t c)[t']? = some c' := hcalls ▸ ht
    by_cases htt : t = t'
    · subst htt
      obtain ⟨hlt, heq⟩ := List.getElem?_eq_some_iff.mp hat
      rw [List.getElem_set_self] at heq
      obtain rfl := heq
      exact ⟨hc.seen, hc.executed⟩
    · rw [List.getElem?_set_ne htt] at hat
      obtain ⟨hseen, hexecuted⟩ := h.progress t' c' hat
      exact ⟨hseen, (hother t' htt).trans hexecuted⟩
  · have hlen : (w'.setCall t c).calls.length = w.calls.length := by
      show (w'.calls.set t c).length = _
      rw [List.length_set, hcalls]
    rw [hlen]
    exact hknown x hx

theorem Inv.advance {w : World} (h : Inv w) {t : ℕ} {c : Call} (ht : w.calls[t]? = some c)
    (raises : Bool) : Inv (w.advance t c raises) := by
  obtain ⟨⟨k, hseen, htodo⟩, hexecuted⟩ := h.progress t c ht
  have hlt : t < w.calls.length := (List.getElem?_eq_some_iff.mp ht).choose
  rcases advance_cases w t c raises with
    ⟨-, heq⟩ | ⟨-, heq⟩ | ⟨a, rest, hc, ⟨ha, heq⟩ | ⟨ha, heq⟩⟩
  · rwa [heq]
  · rw [heq]
    exact h.setCall rfl (fun _ _ => rfl) h.known
      ⟨⟨k, hseen, fun _ hrest => by cases hrest⟩, hexecuted⟩
  · obtain ⟨htake, hdrop⟩ := next_action (htodo _ hc).symm
    rw [heq]
    refine h.setCall rfl (fun _ _ => rfl) h.known ⟨⟨k + 1, ?_, ?_⟩, hexecuted⟩
    · rw [hseen] at ha
      rw [htake, List.map_append, List.map_singleton, MemoryMerge.eraseDups_concat,
        if_pos (List.mem_eraseDups.mp ha)]
      exact hseen
    · rintro _ ⟨⟩
      exact hdrop.symm
  · obtain ⟨htake, hdrop⟩ := next_action (htodo _ hc).symm
    rw [heq]
    refine h.setCall (execute_calls w t _) (fun t' htt => ?_) (fun x hx => ?_) ⟨⟨k + 1, ?_, ?_⟩, ?_⟩
    · rw [executedBy_execute, if_neg htt, List.append_nil]
    · unfold World.execute at hx
      split_ifs at hx
      · rcases List.mem_append.mp hx with hx | hx
        · exact h.known x hx
        · obtain rfl := List.mem_singleton.mp hx
          exact hlt
      · exact h.known x hx
    · rw [hseen] at ha
      rw [htake, List.map_append, List.map_singleton, MemoryMerge.eraseDups_concat,
        if_neg (fun hmem => ha (List.mem_eraseDups.mpr hmem)), ← hseen]
    · intro rest' hrest
      dsimp only at hrest
      split_ifs at hrest with hr
      · cases hrest
      · cases hrest
        exact hdrop.symm
    · rw [executedBy_execute, if_pos rfl, hexecuted, List.filter_append]

theorem Inv.start {w : World} (h : Inv w) (session : String) (edit_args : Args)
    (actions : List Action) :
    Inv { w with calls := w.calls ++ [⟨session, edit_args, actions, some actions, []⟩] } := by
  refine ⟨fun t c ht => ?_, fun x hx => ?_⟩
  · rw [List.getElem?_append] at ht
    split_ifs at ht with hlt
    · exact ⟨(h.progress t c ht).seen, (h.progress t c ht).executed⟩
    · obtain ⟨hzero, rfl⟩ : t - w.calls.length = 0 ∧ (⟨session, edit_args, actions, some actions, []⟩ : Call) = c := by
        rw [List.getElem?_singleton] at ht
        split_ifs at ht with hz
        exact ⟨hz, Option.some.inj ht⟩
      refine ⟨⟨0, rfl, fun rest hrest => (Option.some.inj hrest).symm⟩, ?_⟩
      -- nothing has been executed under the number of a call to come
      have hnone : w.executed.filter (·.1 = t) = [] := by
        refine List.filter_eq_nil_iff.mpr fun x hx hxt => ?_
        have := h.known x hx
        have : x.1 = t := by simpa using hxt
        omega
      show (w.executed.filter (·.1 = t)).map Prod.snd = _
      rw [hnone]
      rfl
  · have := h.known x hx
    rw [List.length_append]
    exact Nat.lt_add_right _ this

theorem Inv.step {w : World} (h : Inv w) (e : Event) : Inv (w.step e).1 := by
  cases e with
  | invoke session messages => exact h.congr rfl rfl
  | resume session decision =>
    rcases resume_cases w session decision with
      ⟨-, heq⟩ | ⟨actions, -, ⟨-, heq⟩ | ⟨edit_args, -, heq⟩⟩
    · rwa [heq]
    · rw [heq]
      exact h.congr rfl rfl
    · rw [heq]
      exact h.start session edit_args actions
  | next t raises =>
    rcases next_cases w t raises with ⟨-, heq⟩ | ⟨c, hc, heq⟩
    · rwa [heq]
    · rw [heq]
      exact h.advance hc raises

theorem Inv.played (es : List Event) : Inv (played es) :=
  run_keeps (I := Inv) (fun _ e h => h.step e) ⟨fun _ _ h => (by cases h), fun _ h => (by cases h)⟩ es

/-- Two states of one call. -/
structure Call.Same (c c' : Call) : Prop where
  session : c.session = c'.session
  editArgs : c.editArgs = c'.editArgs
  actions : c.actions = c'.actions

theorem set_same {l : List Call} {t t' : ℕ} {c c' : Call} (c₁ : Call) (hc : l[t]? = some c)
    (hs : c.Same c₁) (h : (l.set t c₁)[t']? = some c') : ∃ c₀, l[t']? = some c₀ ∧ c₀.Same c' := by
  by_cases htt : t = t'
  · subst htt
    obtain ⟨hlt, heq⟩ := List.getElem?_eq_some_iff.mp h
    rw [List.getElem_set_self] at heq
    exact ⟨c, hc, heq ▸ hs⟩
  · rw [List.getElem?_set_ne htt] at h
    exact ⟨c', h, ⟨rfl, rfl, rfl⟩⟩

theorem advance_calls {w : World} {t t' : ℕ} {c c' : Call} {raises : Bool}
    (hc : w.calls[t]? = some c) (h : (w.advance t c raises).calls[t']? = some c') :
    ∃ c₀, w.calls[t']? = some c₀ ∧ c₀.Same c' := by
  rcases advance_cases w t c raises with ⟨-, heq⟩ | ⟨-, heq⟩ | ⟨a, rest, -, ⟨-, heq⟩ | ⟨-, heq⟩⟩
  · exact ⟨c', heq ▸ h, ⟨rfl, rfl, rfl⟩⟩
  · rw [heq] at h
    exact set_same { c with todo := none } hc ⟨rfl, rfl, rfl⟩ h
  · rw [heq] at h
    exact set_same { c with todo := some rest } hc ⟨rfl, rfl, rfl⟩ h
  · rw [heq] at h
    rw [World.setCall, execute_calls] at h
    exact set_same { c with todo := if raises then none else some rest,
                            seen := c.seen ++ [a.edited c.editArgs] } hc ⟨rfl, rfl, rfl⟩ h

/-- A call is an old one, or comes from a `resume`. -/
theorem step_calls {w : World} {e : Event} {t : ℕ} {c : Call} (h : (w.step e).1.calls[t]? = some c) :
    (∃ c₀, w.calls[t]? = some c₀ ∧ c₀.Same c) ∨
    ∃ decision, e = .resume c.session decision ∧ decision.editArgs = some c.editArgs ∧
      w.calls.length = t ∧ w.pending c.session = some c.actions := by
  cases e with
  | invoke session messages => exact Or.inl ⟨c, h, ⟨rfl, rfl, rfl⟩⟩
  | resume session decision =>
    rcases resume_cases w session decision with
      ⟨-, heq⟩ | ⟨actions, hp, ⟨-, heq⟩ | ⟨edit_args, hd, heq⟩⟩
    · exact Or.inl ⟨c, heq ▸ h, ⟨rfl, rfl, rfl⟩⟩
    · rw [heq] at h
      exact Or.inl ⟨c, h, ⟨rfl, rfl, rfl⟩⟩
    · rw [heq] at h
      dsimp only at h
      rw [List.getElem?_append] at h
      split_ifs at h with hlt
      · exact Or.inl ⟨c, h, ⟨rfl, rfl, rfl⟩⟩
      · rw [List.getElem?_singleton] at h
        split_ifs at h with hz
        obtain rfl := Option.some.inj h
        exact Or.inr ⟨decision, rfl, hd, by omega, hp⟩
  | next t' raises =>
    rcases next_cases w t' raises with ⟨-, heq⟩ | ⟨c', hc, heq⟩
    · exact Or.inl ⟨c, heq ▸ h, ⟨rfl, rfl, rfl⟩⟩
    · rw [heq] at h
      exact Or.inl (advance_calls hc h)

theorem origin (es : List Event) {t : ℕ} {c : Call} (h : (played es).calls[t]? = some c) :
    ∃ before after decision, es = before ++ .resume c.session decision :: after ∧
      decision.editArgs = some c.editArgs ∧ (played before).calls.length = t ∧
      (played before).pending c.session = some c.actions := by
  induction es using List.reverseRecOn generalizing c with
  | nil => cases h
  | append_singleton es e ih =>
    rw [played_concat] at h
    rcases step_calls h with ⟨c₀, hc₀, hs⟩ | ⟨decision, rfl, hd, hlen, hp⟩
    · obtain ⟨before, after, decision, rfl, hd, hlen, hp⟩ := ih hc₀
      rw [hs.session] at hp
      exact ⟨before, after ++ [e], decision, by simp [hs.session], hs.editArgs ▸ hd, hlen,
        hs.actions ▸ hp⟩
    · exact ⟨es, [], decision, rfl, hd, hlen, hp⟩

/-- However the calls interleave and fail, where the model has no interrupts of its own: what a call has
handed to the service is, in order and once each, what the session was asked for at its last `invoke`
before a `resume` that approved it, with the arguments that the `resume` replaced, as far as the call
has come. -/
theorem writes_approved (es : List Event) (t : ℕ) :
    (played es).executedBy t = [] ∨
    ∃ before after session decision edit_args k,
      es = before ++ .resume session decision :: after ∧ decision.editArgs = some edit_args ∧
      (played before).calls.length = t ∧
      (played es).executedBy t = ((((asked session before).take k).map
        (Action.edited edit_args)).eraseDups.filter (·.name ∈ writeTools)) := by
  have hinv := Inv.played es
  by_cases ht : t < (played es).calls.length
  · obtain ⟨c, hc⟩ : ∃ c, (played es).calls[t]? = some c := ⟨_, List.getElem?_eq_getElem ht⟩
    obtain ⟨⟨k, hseen, -⟩, hexecuted⟩ := hinv.progress t c hc
    obtain ⟨before, after, decision, hes, hd, hlen, hp⟩ := origin es hc
    obtain ⟨hasked, -⟩ := pending_asked before hp
    refine Or.inr ⟨before, after, c.session, decision, c.editArgs, k, hes, hd, hlen, ?_⟩
    rw [hexecuted, hseen, hasked]
  · refine Or.inl ?_
    unfold World.executedBy
    rw [List.map_eq_nil_iff, List.filter_eq_nil_iff]
    intro x hx hxt
    have := hinv.known x hx
    have : x.1 = t := by simpa using hxt
    omega

/-- A call that nothing fails executes what it has left. -/
theorem advance_all {w : World} {t : ℕ} {c : Call} {rest : List Action}
    (hc : w.calls[t]? = some c) (htodo : c.todo = some rest)
    (hnew : (c.seen ++ rest.map (Action.edited c.editArgs)).Nodup) :
    let w' := run World.step w (List.replicate (rest.length + 1) (.next t false))
    w'.executed = w.executed ++
      ((rest.map (Action.edited c.editArgs)).filter (·.name ∈ writeTools)).map (t, ·) ∧
    w'.pending = Function.update w.pending c.session none := by
  -- one step for each action, and one more that forgets the pending ones
  induction rest generalizing w c with
  | nil =>
    have hstep : (w.step (.next t false)).1 =
        (w.setPending c.session none).setCall t { c with todo := none } := by
      simp only [World.step, hc, World.advance, htodo]
    intro w'
    have hw' : w' = _ := hstep
    rw [hw']
    exact ⟨(List.append_nil _).symm, rfl⟩
  | cons a rest ih =>
    have ha : a.edited c.editArgs ∉ c.seen := by
      intro hmem
      exact (List.nodup_append.mp hnew).2.2 _ hmem _ (by simp) rfl
    have hstep : (w.step (.next t false)).1 =
        (w.execute t (a.edited c.editArgs)).setCall t
          { c with todo := some rest, seen := c.seen ++ [a.edited c.editArgs] } := by
      simp only [World.step, hc, World.advance, htodo, if_neg ha]
      rfl
    have hexecuted : (w.execute t (a.edited c.editArgs)).executed = w.executed ++
        ([a.edited c.editArgs].filter (·.name ∈ writeTools)).map (t, ·) := by
      unfold World.execute
      by_cases hw : (a.edited c.editArgs).name ∈ writeTools
      · simp [hw]
      · simp [hw]
    have hlt := (List.getElem?_eq_some_iff.mp hc).choose
    have hc' : ((w.execute t (a.edited c.editArgs)).setCall t
        { c with todo := some rest, seen := c.seen ++ [a.edited c.editArgs] }).calls[t]? =
        some { c with todo := some rest, seen := c.seen ++ [a.edited c.editArgs] } := by
      show ((w.execute t _).calls.set t _)[t]? = _
      rw [execute_calls]
      exact List.getElem?_set_self hlt
    obtain ⟨hex, hpend⟩ := ih hc' rfl (by simpa using hnew)
    intro w'
    have hw' : w' = run World.step (w.step (.next t false)).1
        (List.replicate (rest.length + 1) (.next t false)) := rfl
    rw [hw', hstep]
    refine ⟨hex.trans ?_, hpend.trans ?_⟩
    · show (w.execute t _).executed ++ _ = _
      rw [hexecuted, List.append_assoc, ← List.map_append, ← List.filter_append]
      rfl
    · show Function.update (w.execute t _).pending c.session none = _
      rw [execute_pending]

theorem edited_empty (l : List Action) : l.map (Action.edited ∅) = l := by
  have hsame (a : Action) : a.edited ∅ = a := by
    rw [Action.edited, Finmap.empty_union]
  rw [List.map_congr_left (fun a _ => hsame a), List.map_id']

theorem resume_nothing {w : World} {session : String} (hpending : w.pending session = none)
    (decision : Decision) : (w.step (.resume session decision)).1 = w := by
  simp only [World.step, hpending]

theorem next_nothing {w : World} {t : ℕ} (hc : w.calls[t]? = none) (failed : Bool) :
    (w.step (.next t failed)).1 = w := by
  simp only [World.step, hc]

section Pending
variable {w : World} {session : String} {actions : List Action}
  (hpending : w.pending session = some actions)
include hpending

theorem reject_drops :
    (w.step (.resume session .reject)).1 = w.setPending session none := by
  simp only [World.step, hpending, Decision.editArgs]

theorem approve_runs (hnodup : actions.Nodup) :
    let w' := run World.step (w.step (.resume session .approve)).1
      (List.replicate (actions.length + 1) (.next w.calls.length false))
    w'.executed =
      w.executed ++ (actions.filter (·.name ∈ writeTools)).map (w.calls.length, ·) ∧
    w'.pending session = none := by
  have hstep : (w.step (.resume session .approve)).1 =
      { w with calls := w.calls ++ [⟨session, ∅, actions, some actions, []⟩] } := by
    simp only [World.step, hpending, Decision.editArgs]
  have hcall : (w.calls ++ [⟨session, ∅, actions, some actions, []⟩])[w.calls.length]? =
      some (⟨session, ∅, actions, some actions, []⟩ : Call) := List.getElem?_concat_length
  have hnew : ([] ++ actions.map (Action.edited ∅)).Nodup := by
    rw [edited_empty]
    exact hnodup
  rw [hstep]
  obtain ⟨hex, hpend⟩ := advance_all
    (w := { w with calls := w.calls ++ [⟨session, ∅, actions, some actions, []⟩] }) hcall rfl hnew
  refine ⟨?_, ?_⟩
  · rw [hex, edited_empty]
  · rw [hpend]
    exact Function.update_self ..

end Pending

/-- The conversation keeps what was asked for, and what has been done with it is not noted: whatever
happened before, an `invoke` collects every request that the messages hold, and an approval executes
them all, those that had been executed or rejected already among them; a rejection drops them until
the next `invoke`. -/
theorem requests_return (es : List Event) (session : String) (messages : List Message) :
    let actions := extractManualApprovalActions messages
    let t := (played es).calls.length
    let approved := played (es ++ .invoke session messages :: .resume session .approve ::
      List.replicate (actions.length + 1) (.next t false))
    let rejected := played (es ++ [.invoke session messages, .resume session .reject])
    approved.executed =
        (played es).executed ++ (actions.filter (·.name ∈ writeTools)).map (t, ·) ∧
      approved.pending session = none ∧
      rejected.executed = (played es).executed ∧ rejected.pending session = none := by
  intro actions t approved rejected
  have happroved : approved = run World.step
      ((((played es).step (.invoke session messages)).1.step (.resume session .approve)).1)
      (List.replicate (actions.length + 1) (.next t false)) := run_append _ _ _ _
  have hrejected : rejected =
      (((played es).step (.invoke session messages)).1.step (.resume session .reject)).1 :=
    run_append _ _ _ _
  rw [happroved, hrejected]
  generalize hw : ((played es).step (.invoke session messages)).1 = w
  have hcalls : t = w.calls.length := by rw [← hw]; rfl
  have hexecuted : (played es).executed = w.executed := by rw [← hw]; rfl
  have hpending : w.pending session = if actions = [] then none else some actions := by
    rw [← hw]
    exact Function.update_self ..
  rw [hexecuted, hcalls]
  by_cases hnil : actions = []
  · rw [if_pos hnil] at hpending
    have hout : w.calls[w.calls.length]? = none := List.getElem?_eq_none le_rfl
    rw [resume_nothing hpending, resume_nothing hpending, hnil]
    show (w.step (.next w.calls.length false)).1.executed = _ ∧
      (w.step (.next w.calls.length false)).1.pending session = _ ∧ _
    rw [next_nothing hout]
    exact ⟨(List.append_nil _).symm, hpending, rfl, hpending⟩
  · rw [if_neg hnil] at hpending
    obtain ⟨hex, hpend⟩ := approve_runs hpending (Counter.nodup_eraseDups _)
    rw [reject_drops hpending]
    exact ⟨hex, hpend, rfl, Function.update_self ..⟩

end EdgeLink.ReActAgent
