import EdgeLink.Decisions

namespace EdgeLink.Decisions
open Holders Machine Rollout

def World.statusOf (w : World) (d : ℕ) : Option DecisionStatus := w.decisions[d]?.map (·.status)

def World.owner (w : World) (x : ℕ) : Option ℕ := w.executions[x]?.map (·.decisionId)

/-- An execution of the decision was rolled back. -/
def World.wasUndone (w : World) (d : ℕ) : Prop := ∃ x ∈ w.undone, w.owner x = some d

/-- The status that a call is going to write because its action or its rollback succeeded. -/
def Place.promise : Place → Option (ℕ × DecisionStatus)
  | .acted d _ true | .noted d true => some (d, .executed)
  | .undone d true | .unwinding d => some (d, .rolledBack)
  | _ => none

theorem promise_holds {p : Place} {d : ℕ} {s : DecisionStatus} (h : p.promise = some (d, s)) :
    p.holds = some d := by
  cases p with
  | acted d' x ok =>
    cases ok with
    | false => cases h
    | true =>
      cases h
      rfl
  | noted d' ok =>
    cases ok with
    | false => cases h
    | true =>
      cases h
      rfl
  | undone d' ok =>
    cases ok with
    | false => cases h
    | true =>
      cases h
      rfl
  | unwinding d' =>
    cases h
    rfl
  | _ => cases h

/-- What is known while a call is at a place. -/
def Place.Ok (w : World) : Place → Prop
  | .guarded d _ _ | .recorded d _ _ _ => d ∉ w.acted ∧ ¬ w.wasUndone d
  | .acted d _ ok | .noted d ok => (ok = false → d ∉ w.acted) ∧ ¬ w.wasUndone d
  | .sought d => ¬ w.wasUndone d
  | .undoing d x => ¬ w.wasUndone d ∧ w.owner x = some d
  | .undone d ok => ok = false → ¬ w.wasUndone d
  | .current d status => w.statusOf d = some status
  | _ => True

structure Sound (w : World) : Prop where
  single : Single Place.holds w.calls
  places : ∀ p ∈ w.calls, p.Ok w
  known : ∀ p ∈ w.calls, ∀ d, p.holds = some d → ∃ s, w.statusOf d = some s
  acted : ∀ d ∈ w.acted, (∃ s, w.statusOf d = some s ∧ finalized s = true) ∨
    ∃ p ∈ w.calls, ∃ s, finalized s = true ∧ p.promise = some (d, s)
  undone : ∀ d, w.wasUndone d → w.statusOf d = some .rolledBack ∨
    ∃ p ∈ w.calls, p.promise = some (d, .rolledBack)
  owned : ∀ x ∈ w.undone, ∃ d, w.owner x = some d
  actedOnce : w.acted.Nodup
  undoneOnce : w.undone.Nodup

/-- Nothing about the decision changes, but that it may be new. -/
structure Untouched (w w' : World) (d : ℕ) : Prop where
  status : ∀ s, w.statusOf d = some s → w'.statusOf d = some s
  acted : d ∈ w'.acted ↔ d ∈ w.acted
  undone : w'.wasUndone d ↔ w.wasUndone d

theorem Place.Ok.untouched {w w' : World} {p : Place} (hp : p.Ok w)
    (howner : ∀ x d, w.owner x = some d → w'.owner x = some d)
    (h : ∀ d, p.holds = some d → Untouched w w' d) : p.Ok w' := by
  cases p with
  | guarded d actor force | recorded d x actor force =>
    have hd := h d rfl
    exact ⟨fun hin => hp.1 (hd.acted.mp hin), fun hin => hp.2 (hd.undone.mp hin)⟩
  | acted d x ok | noted d ok =>
    have hd := h d rfl
    exact ⟨fun hok hin => hp.1 hok (hd.acted.mp hin), fun hin => hp.2 (hd.undone.mp hin)⟩
  | sought d => exact fun hin => hp ((h d rfl).undone.mp hin)
  | undoing d x => exact ⟨fun hin => hp.1 ((h d rfl).undone.mp hin), howner x d hp.2⟩
  | undone d ok => exact fun hok hin => hp hok ((h d rfl).undone.mp hin)
  | current d status => exact (h d rfl).status status hp
  | _ => trivial

/-- One call moves, and only the decision that it holds is touched. -/
theorem moves_sound {w w' : World} (hw : Sound w) {t : ℕ} {p' : Place}
    (hm : Moves w.calls w'.calls t p')
    (hholds : ∀ d, p'.holds = some d → heldAt Place.holds w.calls t = some d ∨ w.free d)
    (hframe : ∀ d, heldAt Place.holds w.calls t ≠ some d → Untouched w w' d)
    (howner : ∀ x d, w.owner x = some d → w'.owner x = some d)
    (hplace : p'.Ok w')
    (hknown : ∀ d, p'.holds = some d → ∃ s, w'.statusOf d = some s)
    (hacted : ∀ d, heldAt Place.holds w.calls t = some d → d ∈ w'.acted →
      (∃ s, w'.statusOf d = some s ∧ finalized s = true) ∨
        ∃ s, finalized s = true ∧ p'.promise = some (d, s))
    (hundone : ∀ d, heldAt Place.holds w.calls t = some d → w'.wasUndone d →
      w'.statusOf d = some .rolledBack ∨ p'.promise = some (d, .rolledBack))
    (howned : ∀ x ∈ w'.undone, ∃ d, w'.owner x = some d)
    (hactedOnce : w'.acted.Nodup) (hundoneOnce : w'.undone.Nodup) : Sound w' := by
  have hin : p' ∈ w'.calls := List.mem_of_getElem? hm.new
  have hstill : ∀ {q : Place} {d : ℕ} {s : DecisionStatus}, q ∈ w.calls → q.promise = some (d, s) →
      heldAt Place.holds w.calls t ≠ some d → q ∈ w'.calls := by
    intro q d s hq hpromise hnot
    refine hm.still hq fun hqt => hnot ?_
    rw [heldAt_some hqt, promise_holds hpromise]
  refine ⟨hw.single.moves hm hholds, ?_, ?_, fun d hd => ?_, fun d hd => ?_, howned, hactedOnce,
    hundoneOnce⟩
  · refine hm.all hw.places hplace fun j q hj hq hok => ?_
    -- the call that moves holds its decision alone, so the others see nothing of it
    refine hok.untouched howner fun d hqd => hframe d fun hheld => ?_
    exact hw.single.others hj hq hheld hqd
  · refine hm.all hw.known hknown fun j q hj hq hold d hqd => ?_
    obtain ⟨s, hs⟩ := hold d hqd
    exact ⟨s, (hframe d fun hheld => hw.single.others hj hq hheld hqd).status s hs⟩
  · by_cases hheld : heldAt Place.holds w.calls t = some d
    · rcases hacted d hheld hd with hstatus | ⟨s, hs, hpromise⟩
      · exact Or.inl hstatus
      · exact Or.inr ⟨p', hin, s, hs, hpromise⟩
    · have hd' := hframe d hheld
      rcases hw.acted d (hd'.acted.mp hd) with ⟨s, hstatus, hs⟩ | ⟨q, hq, s, hs, hpromise⟩
      · exact Or.inl ⟨s, hd'.status s hstatus, hs⟩
      · exact Or.inr ⟨q, hstill hq hpromise hheld, s, hs, hpromise⟩
  · by_cases hheld : heldAt Place.holds w.calls t = some d
    · rcases hundone d hheld hd with hstatus | hpromise
      · exact Or.inl hstatus
      · exact Or.inr ⟨p', hin, hpromise⟩
    · have hd' := hframe d hheld
      rcases hw.undone d (hd'.undone.mp hd) with hstatus | ⟨q, hq, hpromise⟩
      · exact Or.inl (hd'.status _ hstatus)
      · exact Or.inr ⟨q, hstill hq hpromise hheld, hpromise⟩

theorem statusOf_setDecision_self {w : World} {d : ℕ} {old : DecisionStatus}
    (h : w.statusOf d = some old) (s : DecisionStatus) : (w.setDecision d s).statusOf d = some s := by
  obtain ⟨row, hrow, -⟩ := Option.map_eq_some_iff.mp h
  unfold World.statusOf World.setDecision
  dsimp only
  rw [List.getElem?_modify_eq, hrow]
  rfl

theorem statusOf_setDecision_ne {w : World} {d e : ℕ} (h : e ≠ d) (s : DecisionStatus) :
    (w.setDecision d s).statusOf e = w.statusOf e := by
  unfold World.statusOf World.setDecision
  dsimp only
  rw [List.getElem?_modify_ne _ _ (Ne.symm h)]

theorem owner_setExecution (w : World) (x y : ℕ) (s : ExecutionState) :
    (w.setExecution x s).owner y = w.owner y := by
  unfold World.owner World.setExecution
  dsimp only
  rw [List.getElem?_modify]
  cases w.executions[y]? with
  | none => rfl
  | some row =>
    simp only [Option.map_eq_map, Option.map_some]
    split_ifs <;> rfl

theorem owner_addExecution {w : World} {x d : ℕ} (h : w.owner x = some d) (e : ℕ)
    (s : ExecutionState) : (w.addExecution e s).owner x = some d := by
  obtain ⟨row, hrow, hd⟩ := Option.map_eq_some_iff.mp h
  unfold World.owner World.addExecution
  dsimp only
  rw [List.getElem?_append_left (List.getElem?_eq_some_iff.mp hrow).1, hrow, Option.map_some, hd]

theorem latest_owner {w : World} {d x : ℕ} {row : ExecutionRecord}
    (h : getLatestExecutionForDecision w d = some (row, x)) : w.owner x = some d := by
  have hmem := List.mem_filter.mp (List.argmax_mem (Option.mem_def.mpr h))
  have hrow : w.executions[x]? = some row := List.mem_zipIdx_iff_getElem?.mp hmem.1
  have hd : row.decisionId = d := of_decide_eq_true hmem.2
  unfold World.owner
  rw [hrow, Option.map_some, hd]

section Step
variable {w : World} {t : ℕ} {p : Place} {d : ℕ}

/-- Rows of executions are never taken away from their decision. -/
theorem Sound.wasUndone_iff (hw : Sound w) {w' : World} (hundone : w'.undone = w.undone)
    (howner : ∀ x d, w.owner x = some d → w'.owner x = some d) (d : ℕ) :
    w'.wasUndone d ↔ w.wasUndone d := by
  unfold World.wasUndone
  rw [hundone]
  constructor
  · rintro ⟨x, hx, hd⟩
    obtain ⟨e, he⟩ := hw.owned x hx
    obtain rfl := Option.some.inj ((howner x e he).symm.trans hd)
    exact ⟨x, hx, he⟩
  · rintro ⟨x, hx, hd⟩
    exact ⟨x, hx, howner x d hd⟩

/-- The only call that could have promised a status has not. -/
theorem Sound.acted_status (hw : Sound w) (ht : w.calls[t]? = some p) (hp : p.holds = some d)
    (hno : p.promise = none) (hd : d ∈ w.acted) : ∃ s, w.statusOf d = some s ∧ finalized s = true := by
  rcases hw.acted d hd with hstatus | ⟨q, hq, s, -, hpromise⟩
  · exact hstatus
  · obtain ⟨j, hj⟩ := List.mem_iff_getElem?.mp hq
    obtain rfl := hw.single j t q p d hj ht (promise_holds hpromise) hp
    obtain rfl := Option.some.inj (ht.symm.trans hj)
    cases hno.symm.trans hpromise

theorem Sound.undone_status (hw : Sound w) (ht : w.calls[t]? = some p) (hp : p.holds = some d)
    (hno : p.promise = none) (hd : w.wasUndone d) : w.statusOf d = some .rolledBack := by
  rcases hw.undone d hd with hstatus | ⟨q, hq, hpromise⟩
  · exact hstatus
  · obtain ⟨j, hj⟩ := List.mem_iff_getElem?.mp hq
    obtain rfl := hw.single j t q p d hj ht (promise_holds hpromise) hp
    obtain rfl := Option.some.inj (ht.symm.trans hj)
    cases hno.symm.trans hpromise

/-- A new call, before it has done anything but reading. -/
theorem begin_sound (hw : Sound w) {p' : Place} (hfree : ∀ d, p'.holds = some d → w.free d)
    (hok : p'.Ok w) (hknown : ∀ d, p'.holds = some d → ∃ s, w.statusOf d = some s) :
    Sound (w.begin p') := by
  have hnone := heldAt_length Place.holds w.calls
  refine moves_sound hw (Moves.concat w.calls p') (fun d hd => Or.inr (hfree d hd))
    (fun d _ => ⟨fun _ h => h, Iff.rfl, Iff.rfl⟩) (fun _ _ h => h) ?_ hknown
    (fun d hd => nomatch hnone.symm.trans hd) (fun d hd => nomatch hnone.symm.trans hd) hw.owned
    hw.actedOnce hw.undoneOnce
  exact hok.untouched (fun _ _ h => h) fun _ _ => ⟨fun _ h => h, Iff.rfl, Iff.rfl⟩

/-- A step that acts on nothing: it may write a status and rows of executions. -/
theorem write_sound (hw : Sound w) (ht : w.calls[t]? = some p) {w' : World} {p' : Place}
    (hcalls : w'.calls = w.calls.set t p') (hacted : w'.acted = w.acted)
    (hundone : w'.undone = w.undone) (howner : ∀ x d, w.owner x = some d → w'.owner x = some d)
    (hstatus : ∀ d s, p.holds ≠ some d → w.statusOf d = some s → w'.statusOf d = some s)
    (hholds : ∀ d, p'.holds = some d → p.holds = some d ∨ w.free d) (hplace : p'.Ok w')
    (hknown : ∀ d, p'.holds = some d → ∃ s, w'.statusOf d = some s)
    (hdone : ∀ d, p.holds = some d → d ∈ w.acted →
      (∃ s, w'.statusOf d = some s ∧ finalized s = true) ∨
        ∃ s, finalized s = true ∧ p'.promise = some (d, s))
    (hback : ∀ d, p.holds = some d → w.wasUndone d →
      w'.statusOf d = some .rolledBack ∨ p'.promise = some (d, .rolledBack)) : Sound w' := by
  have hiff := hw.wasUndone_iff hundone howner
  have hheld : heldAt Place.holds w.calls t = _ := heldAt_some ht
  have hmoves : Moves w.calls w'.calls t p' := hcalls ▸ Moves.set ht p'
  refine moves_sound hw hmoves ?_ ?_ howner hplace hknown ?_ ?_ ?_
    (hacted ▸ hw.actedOnce) (hundone ▸ hw.undoneOnce)
  · rw [hheld]
    exact hholds
  · rw [hheld]
    exact fun d hd => ⟨fun s => hstatus d s hd, by rw [hacted], hiff d⟩
  · rw [hheld, hacted]
    exact hdone
  · rw [hheld]
    exact fun d hd hback' => hback d hd ((hiff d).mp hback')
  · rw [hundone]
    intro x hx
    obtain ⟨e, he⟩ := hw.owned x hx
    exact ⟨e, howner x e he⟩

/-- The call writes a status to the decision that it holds, and ends. -/
theorem setDecision_sound (hw : Sound w) (ht : w.calls[t]? = some p) (hp : p.holds = some d)
    (s : DecisionStatus) (hdone : d ∈ w.acted → finalized s = true)
    (hback : w.wasUndone d → s = .rolledBack) : Sound ((w.setDecision d s).goto t .ended) := by
  obtain ⟨old, hold⟩ := hw.known p (List.mem_of_getElem? ht) d hp
  have hself : (w.setDecision d s).statusOf d = some s := statusOf_setDecision_self hold s
  refine write_sound hw ht rfl rfl rfl (fun _ _ h => h) (fun e s' he hstatus => ?_) nofun trivial nofun
    (fun e he hacted => ?_) (fun e he hundone => ?_)
  · have hne : e ≠ d := by
      rintro rfl
      exact he hp
    exact (statusOf_setDecision_ne hne s).trans hstatus
  · obtain rfl := Option.some.inj (hp.symm.trans he)
    exact Or.inl ⟨s, hself, hdone hacted⟩
  · obtain rfl := Option.some.inj (hp.symm.trans he)
    exact Or.inl (hself.trans (congrArg some (hback hundone)))

/-- The call ends without having written anything. -/
theorem end_sound (hw : Sound w) (ht : w.calls[t]? = some p) (hno : p.promise = none) :
    Sound (w.goto t .ended) :=
  write_sound hw ht rfl rfl rfl (fun _ _ h => h) (fun _ _ _ h => h) nofun trivial nofun
    (fun _ hd hacted => Or.inl (hw.acted_status ht hd hno hacted))
    (fun _ hd hundone => Or.inl (hw.undone_status ht hd hno hundone))

theorem recorded_sound (hw : Sound w) {x : ℕ} {actor : Role} {force : Bool}
    (ht : w.calls[t]? = some (.recorded d x actor force)) (ok : Bool) :
    Sound ({ w with acted := if ok then d :: w.acted else w.acted }.goto t (.acted d x ok)) := by
  obtain ⟨hnot, hno⟩ := hw.places _ (List.mem_of_getElem? ht)
  have hheld : heldAt Place.holds w.calls t = _ := heldAt_some ht
  refine moves_sound hw (Moves.set ht _) ?_ ?_ (fun _ _ h => h) ⟨?_, hno⟩
    (fun e he => hw.known _ (List.mem_of_getElem? ht) e he) ?_ ?_ hw.owned ?_ hw.undoneOnce
  · rw [hheld]
    exact fun e he => Or.inl he
  · rw [hheld]
    refine fun e he => ⟨fun _ h => h, ?_, Iff.rfl⟩
    have hne : e ≠ d := fun h => he (congrArg some h.symm)
    cases ok with
    | false => exact Iff.rfl
    | true => exact (List.mem_cons.trans (or_iff_right hne))
  · rintro rfl
    exact hnot
  -- the device has acted; the status follows in the next step, and the call promises it
  · rw [hheld]
    intro e he hin
    obtain rfl := Option.some.inj he
    cases ok with
    | false => exact absurd hin hnot
    | true => exact Or.inr ⟨.executed, rfl, rfl⟩
  · rw [hheld]
    intro e he hback
    obtain rfl := Option.some.inj he
    exact absurd hback hno
  · cases ok with
    | false => exact hw.actedOnce
    | true => exact List.nodup_cons.mpr ⟨hnot, hw.actedOnce⟩

theorem undoing_sound (hw : Sound w) {x : ℕ} (ht : w.calls[t]? = some (.undoing d x)) (ok : Bool) :
    Sound ({ w with undone := if ok then x :: w.undone else w.undone }.goto t (.undone d ok)) := by
  obtain ⟨hno, howner⟩ := hw.places _ (List.mem_of_getElem? ht)
  have hheld : heldAt Place.holds w.calls t = _ := heldAt_some ht
  refine moves_sound hw (Moves.set ht _) ?_ ?_ (fun _ _ h => h) ?_
    (fun e he => hw.known _ (List.mem_of_getElem? ht) e he) ?_ ?_ ?_ hw.actedOnce ?_
  · rw [hheld]
    exact fun e he => Or.inl he
  · rw [hheld]
    refine fun e he => ⟨fun _ h => h, Iff.rfl, ?_⟩
    cases ok with
    | false => exact Iff.rfl
    | true =>
      constructor
      -- the execution that is undone belongs to the decision of this call
      · rintro ⟨y, hy, hye⟩
        rcases List.mem_cons.mp hy with rfl | hy
        · exact absurd (howner.symm.trans hye) he
        · exact ⟨y, hy, hye⟩
      · rintro ⟨y, hy, hye⟩
        exact ⟨y, List.mem_cons_of_mem _ hy, hye⟩
  · rintro rfl
    exact hno
  · rw [hheld]
    intro e he hin
    obtain rfl := Option.some.inj he
    exact Or.inl (hw.acted_status ht rfl rfl hin)
  · rw [hheld]
    intro e he hback
    obtain rfl := Option.some.inj he
    cases ok with
    | false => exact absurd hback hno
    | true => exact Or.inr rfl
  · intro y hy
    cases ok with
    | false => exact hw.owned y hy
    | true =>
      rcases List.mem_cons.mp hy with rfl | hy
      · exact ⟨d, howner⟩
      · exact hw.owned y hy
  · cases ok with
    | false => exact hw.undoneOnce
    | true => exact List.nodup_cons.mpr ⟨fun hin => hno ⟨x, hin, howner⟩, hw.undoneOnce⟩

theorem advance_sound (hw : Sound w) (ht : w.calls[t]? = some p) (answer : Bool)
    (hfree : ∀ d ∈ p.foundId, w.free d) : Sound (advance w t answer p) := by
  have hok := hw.places p (List.mem_of_getElem? ht)
  have hknown := hw.known p (List.mem_of_getElem? ht)
  cases p with
  | blocked d =>
    exact write_sound hw ht rfl rfl rfl (fun x e h => owner_addExecution h d .blocked)
      (fun _ _ _ h => h) nofun trivial nofun nofun nofun
  | guarded d actor force =>
    have howner : ∀ x e, w.owner x = some e → (w.addExecution d .executing).owner x = some e :=
      fun x e h => owner_addExecution h d .executing
    have hiff : ∀ e, (w.addExecution d .executing).wasUndone e ↔ w.wasUndone e :=
      hw.wasUndone_iff rfl howner
    refine write_sound hw ht rfl rfl rfl howner (fun _ _ _ h => h) (fun e he => Or.inl he) ?_ hknown
      (fun e he hin => ?_) (fun e he hback => ?_)
    · exact ⟨hok.1, fun h => hok.2 ((hiff d).mp h)⟩
    · obtain rfl := Option.some.inj he
      exact absurd hin hok.1
    · obtain rfl := Option.some.inj he
      exact absurd hback hok.2
  | recorded d x actor force => exact recorded_sound hw ht _
  | acted d x ok =>
    have howner : ∀ y e, w.owner y = some e →
        (w.setExecution x (if ok then .executed else .failed)).owner y = some e :=
      fun y e h => (owner_setExecution w x y _).trans h
    have hiff : ∀ e, (w.setExecution x (if ok then .executed else .failed)).wasUndone e ↔
        w.wasUndone e := hw.wasUndone_iff rfl howner
    refine write_sound hw ht rfl rfl rfl howner (fun _ _ _ h => h) (fun e he => Or.inl he) ?_ hknown
      (fun e he hin => ?_) (fun e he hback => ?_)
    · exact ⟨hok.1, fun h => hok.2 ((hiff d).mp h)⟩
    -- an action that failed has not been in effect
    · obtain rfl := Option.some.inj he
      cases ok with
      | false => exact absurd hin (hok.1 rfl)
      | true => exact Or.inr ⟨.executed, rfl, rfl⟩
    · obtain rfl := Option.some.inj he
      exact absurd hback hok.2
  | noted d ok =>
    refine setDecision_sound hw ht rfl _ (fun hin => ?_) fun hback => absurd hback hok.2
    cases ok with
    | false => exact absurd hin (hok.1 rfl)
    | true => rfl
  | sought d =>
    dsimp only [advance]
    cases hlatest : getLatestExecutionForDecision w d with
    | none => exact end_sound hw ht rfl
    | some r =>
      obtain ⟨execution, x⟩ := r
      dsimp only
      by_cases hexecuted : execution.status ≠ .executed
      · rw [if_pos hexecuted]
        exact end_sound hw ht rfl
      · rw [if_neg hexecuted]
        exact write_sound hw ht rfl rfl rfl (fun _ _ h => h) (fun _ _ _ h => h)
          (fun e he => Or.inl he) ⟨hok, latest_owner hlatest⟩ hknown
          (fun e he hin => Or.inl (hw.acted_status ht he rfl hin))
          (fun e he hback => Or.inl (hw.undone_status ht he rfl hback))
  | undoing d x => exact undoing_sound hw ht _
  | undone d ok =>
    cases ok with
    | false => exact end_sound hw ht rfl
    | true =>
      refine write_sound hw ht rfl rfl rfl (fun _ _ h => h) (fun _ _ _ h => h)
        (fun e he => Or.inl he) trivial hknown (fun e he _ => ?_) (fun e he _ => ?_)
      · obtain rfl := Option.some.inj he
        exact Or.inr ⟨.rolledBack, rfl, rfl⟩
      · obtain rfl := Option.some.inj he
        exact Or.inr rfl
  | unwinding d => exact setDecision_sound hw ht rfl _ (fun _ => rfl) fun _ => rfl
  | found d =>
    dsimp only [advance]
    cases hrow : w.decisions[d]? with
    | none => exact end_sound hw ht rfl
    | some decision =>
      have hstatus : w.statusOf d = some decision.status := by
        unfold World.statusOf
        rw [hrow, Option.map_some]
      refine write_sound hw ht rfl rfl rfl (fun _ _ h => h) (fun _ _ _ h => h) (fun e he => ?_)
        hstatus (fun e he => ?_) nofun nofun
      · obtain rfl := Option.some.inj he
        exact Or.inr (hfree d rfl)
      · obtain rfl := Option.some.inj he
        exact ⟨decision.status, hstatus⟩
  | current d status =>
    refine setDecision_sound hw ht rfl _ (fun hin => ?_) fun hback => ?_
    -- the status is written back as it was read, and the invariant speaks of that one
    · obtain ⟨s, hs, hfinal⟩ := hw.acted_status ht rfl rfl hin
      obtain rfl := Option.some.inj (hok.symm.trans hs)
      exact hfinal
    · exact Option.some.inj (hok.symm.trans (hw.undone_status ht rfl rfl hback))
  | creating proposal =>
    refine write_sound hw ht rfl rfl rfl (fun _ _ h => h) (fun e s _ h => ?_) nofun trivial nofun nofun
      nofun
    obtain ⟨row, hrow, hs⟩ := Option.map_eq_some_iff.mp h
    change (w.decisions ++ [newDecision w proposal])[e]?.map (·.status) = some s
    rw [List.getElem?_append_left (List.getElem?_eq_some_iff.mp hrow).1, hrow, Option.map_some, hs]
  | ended => exact hw

end Step

theorem guardrails_none {decision : DecisionRecord} {actor : Role} {force : Bool}
    (h : evaluateDecisionGuardrails decision actor force = none) :
    finalized decision.status = false ∧ (force = false → decision.requiresApproval = true →
      roleRank .approver ≤ roleRank actor) := by
  unfold evaluateDecisionGuardrails at h
  by_cases hfinal : finalized decision.status = true
  · rw [if_pos hfinal] at h
    cases h
  rw [if_neg hfinal] at h
  refine ⟨Bool.eq_false_iff.mpr hfinal, ?_⟩
  rintro rfl hneeds
  by_cases hrole : actor = .approver ∨ actor = .admin
  · rcases hrole with rfl | rfl <;> decide
  · rw [if_pos ⟨hneeds, hrole, rfl⟩] at h
    cases h

/-- A decision that nobody holds, and whose status is not final, has not been acted on. -/
theorem Sound.unacted {w : World} (hw : Sound w) {d : ℕ} (hfree : w.free d) {s : DecisionStatus}
    (hs : w.statusOf d = some s) (hnot : finalized s = false) : d ∉ w.acted := by
  intro hin
  rcases hw.acted d hin with ⟨s', hs', hfinal⟩ | ⟨q, hq, s', -, hpromise⟩
  · obtain rfl := Option.some.inj (hs.symm.trans hs')
    exact Bool.noConfusion (hnot.symm.trans hfinal)
  · exact hfree q hq (promise_holds hpromise)

theorem Sound.notUndone {w : World} (hw : Sound w) {d : ℕ} (hfree : w.free d)
    (hs : w.statusOf d ≠ some .rolledBack) : ¬ w.wasUndone d := by
  intro hback
  rcases hw.undone d hback with hstatus | ⟨q, hq, hpromise⟩
  · exact hs hstatus
  · exact hfree q hq (promise_holds hpromise)

theorem executeDecision_sound {w : World} (hw : Sound w) {d : ℕ} {actor : Role} {force : Bool}
    (hfree : Exclusive w (.executeDecision d actor force)) :
    Sound (executeDecision w d actor force) := by
  unfold executeDecision
  by_cases hrole : roleRank actor < roleRank .operator
  · rw [if_pos hrole]
    exact hw
  rw [if_neg hrole]
  cases hrow : w.decisions[d]? with
  | none => exact hw
  | some decision =>
    dsimp only
    cases hguard : evaluateDecisionGuardrails decision actor force with
    | some reason => exact begin_sound hw nofun trivial nofun
    | none =>
      have hunheld := hfree (not_lt.mp hrole) decision hrow hguard
      have hstatus : w.statusOf d = some decision.status := by
        unfold World.statusOf
        rw [hrow, Option.map_some]
      have hopen := (guardrails_none hguard).1
      refine begin_sound hw (fun e he => ?_) ⟨hw.unacted hunheld hstatus hopen, ?_⟩ fun e he => ?_
      · obtain rfl := Option.some.inj he
        exact hunheld
      · refine hw.notUndone hunheld fun hback => ?_
        rw [Option.some.inj (hstatus.symm.trans hback)] at hopen
        cases hopen
      · obtain rfl := Option.some.inj he
        exact ⟨_, hstatus⟩

theorem rollback_sound {w : World} (hw : Sound w) {d : ℕ} {actor : Role}
    (hfree : Exclusive w (.rollbackDecisionExecution d actor)) :
    Sound (rollbackDecisionExecution w d actor) := by
  unfold rollbackDecisionExecution
  by_cases hrole : roleRank actor < roleRank .approver
  · rw [if_pos hrole]
    exact hw
  rw [if_neg hrole]
  cases hrow : w.decisions[d]? with
  | none => exact hw
  | some decision =>
    obtain ⟨hnot, hunheld⟩ := hfree (not_lt.mp hrole) decision hrow
    have hstatus : w.statusOf d = some decision.status := by
      unfold World.statusOf
      rw [hrow, Option.map_some]
    refine begin_sound hw (fun e he => ?_) ?_ fun e he => ?_
    · obtain rfl := Option.some.inj he
      exact hunheld
    · refine hw.notUndone hunheld fun hback => ?_
      exact hnot (Option.some.inj (hstatus.symm.trans hback))
    · obtain rfl := Option.some.inj he
      exact ⟨_, hstatus⟩

theorem act_sound {w : World} {e : Event} (hw : Sound w) (he : Exclusive w e) : Sound (act w e) := by
  cases e with
  | executeDecision d actor force => exact executeDecision_sound hw he
  | rollbackDecisionExecution d actor => exact rollback_sound hw he
  | ingestDecision proposal =>
    dsimp only [act, ingestDecision]
    cases getActiveDecisionByPolicy w proposal.alertId proposal.policyId with
    | none => exact begin_sound hw nofun trivial nofun
    | some row => exact begin_sound hw nofun trivial nofun
  | next t answer =>
    dsimp only [act]
    cases ht : w.calls[t]? with
    | none => exact hw
    | some p => exact advance_sound hw ht answer (he p ht)

theorem step_sound (w : World) (e : Event) (hw : Sound w) (he : Exclusive w e) :
    Sound (step w e).1 ∧ Once w e := by
  have hact := act_sound hw he
  exact ⟨⟨hact.single, hact.places, hact.known, hact.acted, hact.undone, hact.owned, hact.actedOnce,
    hact.undoneOnce⟩, hact.actedOnce, hact.undoneOnce⟩

theorem start_sound : Sound start := by
  refine ⟨fun i j p q d hi => ?_, nofun, nofun, nofun, fun d hd => ?_, nofun, List.nodup_nil,
    List.nodup_nil⟩
  · cases hi
  · obtain ⟨x, hx, -⟩ := hd
    cases hx

def World.needs (w : World) (d : ℕ) : Option Bool := w.decisions[d]?.map (·.requiresApproval)

/-- A call that is about to act has passed the guardrail for approvals. -/
def Place.Permitted (w : World) : Place → Prop
  | .guarded d actor force | .recorded d _ actor force => ∃ needs, w.needs d = some needs ∧
      (force = false → needs = true → roleRank .approver ≤ roleRank actor)
  | _ => True

def Permitted (w : World) : Prop := ∀ p ∈ w.calls, p.Permitted w

/-- Decisions keep whether they need approval. -/
def NeedsKept (w w' : World) : Prop := ∀ d needs, w.needs d = some needs → w'.needs d = some needs

theorem Place.Permitted.kept {w w' : World} {p : Place} (hp : p.Permitted w) (h : NeedsKept w w') :
    p.Permitted w' := by
  cases p with
  | guarded d actor force | recorded d x actor force =>
    obtain ⟨needs, hneeds, hrole⟩ := hp
    exact ⟨needs, h d needs hneeds, hrole⟩
  | _ => trivial

theorem needs_setDecision (w : World) (d : ℕ) (s : DecisionStatus) :
    NeedsKept w (w.setDecision d s) := by
  intro e needs h
  obtain ⟨row, hrow, hneeds⟩ := Option.map_eq_some_iff.mp h
  unfold World.needs World.setDecision
  dsimp only
  rw [List.getElem?_modify, hrow]
  simp only [Option.map_eq_map, Option.map_some]
  split_ifs
  · exact congrArg some hneeds
  · exact congrArg some hneeds

theorem needs_creating (w : World) (proposal : DecisionProposal) :
    NeedsKept w { w with decisions := w.decisions ++ [newDecision w proposal] } := by
  intro e needs h
  obtain ⟨row, hrow, hneeds⟩ := Option.map_eq_some_iff.mp h
  unfold World.needs
  dsimp only
  rw [List.getElem?_append_left (List.getElem?_eq_some_iff.mp hrow).1, hrow, Option.map_some, hneeds]

theorem permitted_moves {w w' : World} (hw : Permitted w) {t : ℕ} {p' : Place}
    (hm : Moves w.calls w'.calls t p') (hkept : NeedsKept w w') (hp' : p'.Permitted w) :
    Permitted w' :=
  hm.all hw (hp'.kept hkept) fun _ _ _ _ hq => hq.kept hkept

theorem permitted_goto {w : World} (hw : Permitted w) {t : ℕ} {p p' : Place}
    (ht : w.calls[t]? = some p) (hp' : p'.Permitted w) : Permitted (w.goto t p') :=
  permitted_moves hw (Moves.set ht p') (fun _ _ h => h) hp'

theorem advance_permitted {w : World} (hw : Permitted w) {t : ℕ} {p : Place}
    (ht : w.calls[t]? = some p) (answer : Bool) : Permitted (advance w t answer p) := by
  have hp := hw p (List.mem_of_getElem? ht)
  cases p with
  | blocked d => exact permitted_moves hw (Moves.set ht _) (fun _ _ h => h) trivial
  | guarded d actor force => exact permitted_moves hw (Moves.set ht _) (fun _ _ h => h) hp
  | recorded d x actor force => exact permitted_moves hw (Moves.set ht _) (fun _ _ h => h) trivial
  | acted d x ok => exact permitted_moves hw (Moves.set ht _) (fun _ _ h => h) trivial
  | noted d ok => exact permitted_moves hw (Moves.set ht _) (needs_setDecision w d _) trivial
  | sought d =>
    dsimp only [advance]
    cases getLatestExecutionForDecision w d with
    | none => exact permitted_goto hw ht trivial
    | some r =>
      dsimp only
      split_ifs
      · exact permitted_goto hw ht trivial
      · exact permitted_goto hw ht trivial
  | undoing d x => exact permitted_moves hw (Moves.set ht _) (fun _ _ h => h) trivial
  | undone d ok =>
    dsimp only [advance]
    split_ifs
    · exact permitted_goto hw ht trivial
    · exact permitted_goto hw ht trivial
  | unwinding d => exact permitted_moves hw (Moves.set ht _) (needs_setDecision w d _) trivial
  | found d =>
    dsimp only [advance]
    cases w.decisions[d]? with
    | none => exact permitted_goto hw ht trivial
    | some decision => exact permitted_goto hw ht trivial
  | current d status => exact permitted_moves hw (Moves.set ht _) (needs_setDecision w d _) trivial
  | creating proposal => exact permitted_moves hw (Moves.set ht _) (needs_creating w proposal) trivial
  | ended => exact hw

theorem permitted_begin {w : World} (hw : Permitted w) {p' : Place} (hp' : p'.Permitted w) :
    Permitted (w.begin p') :=
  permitted_moves hw (Moves.concat w.calls p') (fun _ _ h => h) hp'

theorem act_permitted {w : World} (hw : Permitted w) (e : Event) : Permitted (act w e) := by
  cases e with
  | executeDecision d actor force =>
    dsimp only [act, executeDecision]
    split_ifs
    · exact hw
    · cases hrow : w.decisions[d]? with
      | none => exact hw
      | some decision =>
        dsimp only
        cases hguard : evaluateDecisionGuardrails decision actor force with
        | some reason => exact permitted_begin hw trivial
        | none =>
          refine permitted_begin hw ⟨decision.requiresApproval, ?_, (guardrails_none hguard).2⟩
          unfold World.needs
          rw [hrow, Option.map_some]
  | rollbackDecisionExecution d actor =>
    dsimp only [act, rollbackDecisionExecution]
    split_ifs
    · exact hw
    · cases w.decisions[d]? with
      | none => exact hw
      | some decision => exact permitted_begin hw trivial
  | ingestDecision proposal =>
    dsimp only [act, ingestDecision]
    cases getActiveDecisionByPolicy w proposal.alertId proposal.policyId with
    | none => exact permitted_begin hw trivial
    | some row => exact permitted_begin hw trivial
  | next t answer =>
    dsimp only [act]
    cases ht : w.calls[t]? with
    | none => exact hw
    | some p => exact advance_permitted hw ht answer

theorem step_permitted (w : World) (e : Event) (hw : Permitted w) (_ : True) :
    Permitted (step w e).1 ∧ Approved w e := by
  refine ⟨act_permitted hw e, ?_⟩
  rintro t answer d x actor rfl ht decision hrow hneeds
  obtain ⟨needs, hnd, hrole⟩ := hw _ (List.mem_of_getElem? ht)
  have hdecision : w.needs d = some decision.requiresApproval := by
    unfold World.needs
    rw [Option.mem_def.mp hrow, Option.map_some]
  exact hrole rfl ((Option.some.inj (hnd.symm.trans hdecision)).trans hneeds)

/-- When the calls on a decision exclude one another each decision acts once and is undone once;
and approvals are respected in every run. -/
theorem acts_once (es : List Event) :
    (Always step Exclusive start es → Always step Once start es) ∧ Always step Approved start es := by
  constructor
  · intro h
    exact Always.of_invariant (I := Sound) step_sound start_sound h
  · have hall : Always step (fun _ _ => True) start es :=
      Always.of_forall step (fun _ _ _ => trivial) _
    exact Always.of_invariant (I := Permitted) step_permitted nofun hall

theorem once_run {es : List Event} (h : Always step Once start es) :
    (run step start es).acted.Nodup ∧ (run step start es).undone.Nodup :=
  run_invariant (I := fun w : World => w.acted.Nodup ∧ w.undone.Nodup) (fun _ _ _ hc => hc)
    ⟨List.nodup_nil, List.nodup_nil⟩ h

/-- A proposal that only asks for a manual review. -/
def review : DecisionProposal := ⟨0, "manual_review_policy", .manualReview, "medium", false⟩

/-- The decision is made, executed and rolled back, one call after the other. -/
def reviewRun : List Event :=
  [.ingestDecision review, .next 0 true] ++ .executeDecision 0 .operator false ::
    List.replicate 4 (.next 1 true) ++ .rollbackDecisionExecution 0 .approver ::
    List.replicate 4 (.next 2 true)

theorem reviewRun_once :
    (run step start reviewRun).acted = [0] ∧ (run step start reviewRun).undone = [0] ∧
      Always step Once start reviewRun ∧ Always step Approved start reviewRun := by
  have h := acts_once reviewRun
  exact ⟨by decide +kernel, by decide +kernel, h.1 (by decide +kernel), h.2⟩

/-- Two calls pass the guardrails before either has written the decision. -/
def twoExecutions : List Event :=
  [.ingestDecision review, .next 0 true, .executeDecision 0 .operator false,
    .executeDecision 0 .operator false, .next 1 true, .next 1 true, .next 2 true, .next 2 true]

/-- The second roll-back finds the execution record as the first one did. -/
def secondRollback : List Event :=
  reviewRun ++ .rollbackDecisionExecution 0 .approver :: List.replicate 2 (.next 3 true)

theorem twoExecutions_act_twice :
    ¬ Always step Once start twoExecutions ∧ ¬ Always step Once start secondRollback := by
  constructor
  · intro h
    have hacted : (run step start twoExecutions).acted = [0, 0] := by decide +kernel
    have hnodup := (once_run h).1
    rw [hacted] at hnodup
    exact absurd hnodup (by decide)
  · intro h
    have hundone : (run step start secondRollback).undone = [0, 0] := by decide +kernel
    have hnodup := (once_run h).2
    rw [hundone] at hnodup
    exact absurd hnodup (by decide)

end EdgeLink.Decisions
