import RaytSystem.HeartbeatRuns
import RaytSystem.PreflightBlocks

/-! A heartbeat whose preflight is blocked leaves its task blocked and its assignment bound, where
it moves the task at all. -/
namespace RaytSystem.Execution
open Control Tasking Interleaving RecordTable

section
variable {env : HeartbeatEnv} {call : Caller} {w w' : HeartbeatWorld} {α : Type}

theorem returns_toExcept_ok {p : HeartbeatProg α} {a : α} :
    Returns p.toExcept w (.ok a) w' ↔ Returns p w a w' := by
  induction p generalizing w with
  | pure b => simp [Prog.toExcept]
  | fail e => simp [Prog.toExcept]
  | act l f k ih => simp only [Prog.toExcept, returns_act, ih]
  | choose input k ih => simp only [Prog.toExcept, returns_choose, ih]

theorem returns_mayFail {e : HeartbeatError} {u : Unit} : Returns (mayFail e) w u w' ↔ w = w' := by
  simp only [mayFail, Prog.bind_eq, returns_bind, returns_any, returns_require]
  constructor
  · rintro ⟨failed, v, rfl, -, hv⟩
    exact hv
  · rintro rfl
    exact ⟨false, w, rfl, rfl, rfl⟩

theorem returns_noting {l : HeartbeatAccess}
    {f : HeartbeatStores → Except HeartbeatError (α × HeartbeatStores)}
    {note : HeartbeatStores → α → Observer → Observer} {a : α}
    (h : Returns (noting l f note) w a w') : f w.stores = .ok (a,w'.stores) := by
  obtain ⟨_, v, hfail, hattempt⟩ := returns_bind.mp h
  obtain rfl := returns_mayFail.mp hfail
  have hf := returns_attempt.mp hattempt
  split at hf
  next b s hok =>
    cases hf
    exact hok
  next => cases hf

theorem returns_readStores {f : HeartbeatStores → α} {a : α} (h : Returns (readStores f) w a w') :
    a = f w.stores ∧ w'.stores = w.stores := by
  have hread := returns_noting (show Returns (noting .other (fun s => .ok (f s, s))
    fun _ _ o => o) w a w' from h)
  simp only [Except.ok.injEq, Prod.mk.injEq] at hread
  exact ⟨hread.1.symm, hread.2.symm⟩

theorem returns_taskSnapshot {b : TaskBoard} (h : Returns taskSnapshot w b w') :
    b = w.stores.board ∧ w'.stores = w.stores := by
  obtain ⟨_, v, hfail, hread⟩ := returns_bind.mp h
  obtain rfl := returns_mayFail.mp hfail
  exact returns_readStores hread

theorem returns_put {record : ExecutionRecord} {expected : Option Nat} {revision : Nat}
    (h : Returns (put env record expected) w revision w') :
    putStores record expected w.stores = .ok (revision,w'.stores) := by
  obtain ⟨_, v, hrequire, haccess⟩ := returns_bind.mp h
  obtain ⟨-, rfl⟩ := returns_require.mp hrequire
  exact returns_noting haccess

theorem returns_assignment {a : TaskAssignment} (h : Returns (assignment env) w a w') :
    w'.stores = w.stores ∧ .assignment a ∈ w.stores.records (.assignment,env.assignmentId) := by
  obtain ⟨found, v, hget, hrest⟩ := returns_bind.mp h
  obtain ⟨hfound, hv⟩ := returns_readStores hget
  split at hrest
  next b hassignment =>
    split at hrest
    · obtain ⟨rfl, rfl⟩ := returns_pure.mp hrest
      refine ⟨hv, ?_⟩
      unfold assignmentOf at hassignment
      split at hassignment
      next c =>
        cases hassignment
        obtain ⟨stored, hstored, hvalue⟩ := Option.map_eq_some_iff.mp hfound.symm
        rw [← hvalue]
        exact head_mem hstored
      next => cases hassignment
    · exact absurd hrest returns_fail
  next => exact absurd hrest returns_fail
end

section
variable {env : HeartbeatEnv} {call : Caller} {w w' : HeartbeatWorld} {c : TransitionCommand}

theorem findOperation_fresh {events : List BoardEvent}
    (h : ∀ e ∈ events, ¬(e.command.actor = c.actor ∧ e.command.idempotencyKey = c.idempotencyKey)) :
    findOperation c events = .ok none := by
  induction events with
  | nil => rfl
  | cons e older ih =>
    have hfirst := h e List.mem_cons_self
    have hcommand : e.command ≠ c := by
      rintro rfl
      exact hfirst ⟨rfl, rfl⟩
    have hkey : e.command.sameKey c = false := by
      rw [Bool.eq_false_iff]
      intro hsame
      simp only [TransitionCommand.sameKey, Bool.and_eq_true, beq_iff_eq] at hsame
      exact hfirst hsame
    rw [findOperation, if_neg hcommand, hkey, if_neg (by decide)]
    exact ih fun e' he' => h e' (List.mem_cons_of_mem e he')

variable {generationId : Nat} {result : TransitionResult}

theorem transitionTask_cases {b b' : TaskBoard} {now : Time}
    (h : transitionTask b c generationId now = .ok (result,b')) :
    (b' = b ∧ findOperation c b.events ≠ .ok none) ∨
      result.task.status = c.target ∧ b'.task = result.task ∧
        b'.generationId = result.generationId ∧ b'.events = ⟨c,result⟩ :: b.events := by
  unfold transitionTask at h
  split at h
  · cases h
  next hfound =>
    cases h
    refine Or.inl ⟨rfl, ?_⟩
    rw [hfound]
    simp
  next =>
    split_ifs at h
    cases h
    exact Or.inr ⟨rfl, rfl, rfl, rfl⟩

theorem returns_transition {now : Time}
    (h : Returns (transition call c generationId now) w result w') :
    ∃ b, transitionTask w.stores.board c generationId now = .ok (result,b) ∧
      w'.stores = {w.stores with board := b} := by
  obtain ⟨_, v, hfail, hrest⟩ := returns_bind.mp h
  obtain rfl := returns_mayFail.mp hfail
  obtain ⟨moved, v', hnoting, hrest⟩ := returns_bind.mp hrest
  obtain ⟨_, v'', hfail, hpure⟩ := returns_bind.mp hrest
  obtain rfl := returns_mayFail.mp hfail
  obtain ⟨rfl, rfl⟩ := returns_pure.mp hpure
  have hmoved := returns_noting hnoting
  split at hmoved
  next result' b hok =>
    simp only [Except.ok.injEq, Prod.mk.injEq] at hmoved
    obtain ⟨rfl, hstores⟩ := hmoved
    exact ⟨b, hok, hstores.symm⟩
  next => cases hmoved

theorem stateKey_ne (env : HeartbeatEnv) : stateKey env .running ≠ stateKey env .blocked := by
  intro h
  have hlist := congrArg String.toList h
  simp only [stateKey, String.toList_append, List.append_assoc, List.append_cancel_left_eq] at hlist
  exact absurd hlist (by decide)

theorem running_follows (env : HeartbeatEnv) (call : Caller) (actor : String)
    (generationId : Nat) (now : Time) :
    Following env false false (transition call ⟨.running, actor, stateKey env .running, none⟩
      generationId now) := by
  unfold transition
  refine .andThen fun _ => ?_
  refine @Within.bind _ _ _ _ _ _ _ _ ?_ fun _ => inferInstance
  apply noting_follows
  intro s result s' h
  split at h
  next moved b hok =>
    cases h
    refine ⟨id, ?_, ?_, Bool.false_ne_true.elim, Bool.false_ne_true.elim⟩
    · intro hfresh e he
      rcases transitionTask_cases hok with ⟨rfl, -⟩ | ⟨-, -, -, hevents⟩
      · exact hfresh e he
      · rw [hevents] at he
        rcases List.mem_cons.mp he with rfl | he
        · exact fun hkey => stateKey_ne env hkey.2
        · exact hfresh e he
    · rcases transitionTask_cases hok with ⟨rfl, -⟩ | ⟨hstatus, htask, -⟩
      · exact Or.inl rfl
      · exact Or.inr (by rw [htask, hstatus])
  next => cases h

def Bound (env : HeartbeatEnv) (s : HeartbeatStores) : Prop :=
  ∃ revision a, head s.records (.assignment,env.assignmentId) =
      some ⟨revision,.assignment a⟩ ∧
    a.taskGenerationId = s.board.generationId ∧ a.taskRevision = s.board.task.revision

theorem head_after_put {t t' : RecordHistory} {record : ExecutionRecord} {expected : Option Nat}
    {revision : Nat} (h : putRecord t record expected = .ok (revision,t')) :
    ∃ revision, head t' record.key = some ⟨revision,record⟩ := by
  rcases putRecord_cases h with ⟨rfl, hhead⟩ | ⟨rfl, -⟩
  · obtain ⟨stored, hstored, hvalue⟩ := Option.map_eq_some_iff.mp hhead
    refine ⟨stored.revision, ?_⟩
    rw [hstored, ← hvalue]
  · exact ⟨_, head_push ..⟩

theorem returns_rebindAssignment {task : BoardTask} {at_ : Time} {u : Unit}
    (hkeyed : Keyed w.stores.records)
    (h : Returns (rebindAssignment env generationId task at_) w u w') :
    w'.stores.board = w.stores.board ∧ ∃ revision a,
      head w'.stores.records (.assignment,env.assignmentId) =
        some ⟨revision,.assignment a⟩ ∧
      a.taskGenerationId = generationId ∧ a.taskRevision = task.revision := by
  obtain ⟨current, v, hcurrent, hrest⟩ := returns_bind.mp h
  obtain ⟨hv, hmem⟩ := returns_assignment hcurrent
  have hkey : current.assignmentId = env.assignmentId := by
    have hkey := hkeyed _ _ hmem
    simp only [ExecutionRecord.key, Prod.mk.injEq, true_and] at hkey
    exact hkey
  obtain ⟨_, v', hput, hpure⟩ := returns_bind.mp hrest
  obtain ⟨-, rfl⟩ := returns_pure.mp hpure
  have hfollows := returns_follows env true false hput
  obtain ⟨expected, v'', hread, hput⟩ := returns_bind.mp hput
  obtain ⟨revision, hhead⟩ := head_after_put (putStores_cases (returns_put hput))
  rw [ExecutionRecord.key, hkey] at hhead
  exact ⟨(hfollows.still rfl).trans (by rw [hv]), revision, _, hhead, rfl, rfl⟩
end

section
variable {env : HeartbeatEnv} {call : Caller} {w w' v v' : HeartbeatWorld} {r : HeartbeatResult}

abbrev Movable (status : TaskStatus) : Prop :=
  status = .planned ∨ status = .ready ∨ status = .running

def reportBlocked (env : HeartbeatEnv) (a : TaskAssignment) (b : Blocked) (at_ : Time) :
    HeartbeatProg HeartbeatResult := do
  comment env .blocked a.employeeId (b.detail.elim b.errorCode fun d => b.errorCode ++ ":" ++ d) at_
  let result : HeartbeatResult :=
    ⟨env.runId, .blocked, a.assignmentId, none, none, b.policy, b.approvalRequired, false,
      some b.errorCode⟩
  updateOperation "blocked" (some result.receipt) (some b.errorCode)
  pure result

theorem blockedPreflight_eq (env : HeartbeatEnv) (call : Caller) (a : TaskAssignment) (b : Blocked)
    (at_ : Time) : blockedPreflight env call a b at_ =
      if b.transitionTask = true then taskSnapshot.bind fun snapshot =>
        if Movable snapshot.task.status then
          (transitionBlocked env call snapshot b.errorCode (some at_)).bind fun transitioned =>
            (rebindAssignment env transitioned.generationId transitioned.task at_).bind fun _ =>
              reportBlocked env a b at_
        else reportBlocked env a b at_
      else reportBlocked env a b at_ := rfl

instance reportBlocked_follows (a : TaskAssignment) (b : Blocked) (at_ : Time) :
    Following env true true (reportBlocked env a b at_) := by
  unfold reportBlocked comment
  infer_instance

variable {a : TaskAssignment} {b : Blocked} {at_ : Time}

theorem blockedPreflight_moves (htransition : b.transitionTask = true)
    (hkeyed : Keyed v.stores.records) (hfresh : Fresh env v.stores.board)
    (h : Returns (blockedPreflight env call a b at_) v r v') : (Movable v.stores.board.task.status →
      v'.stores.board.task.status = .blocked ∧ Bound env v'.stores) ∧
      (¬Movable v.stores.board.task.status → v'.stores.board = v.stores.board) := by
  rw [blockedPreflight_eq, if_pos htransition] at h
  obtain ⟨snapshot, v₁, hsnapshot, hmove⟩ := returns_bind.mp h
  obtain ⟨rfl, hv₁⟩ := returns_taskSnapshot hsnapshot
  constructor
  · intro hmovable
    rw [if_pos hmovable] at hmove
    obtain ⟨result, v₂, hblocked, hrest⟩ := returns_bind.mp hmove
    obtain ⟨_, u, hrebind, hreport⟩ := returns_bind.mp hrest
    have hreported := following_returns (reportBlocked_follows a b at_) hreport
    obtain ⟨now, v₃, htime, hmoved⟩ := returns_bind.mp hblocked
    have hv₃ := returns_follows env true true htime
    obtain ⟨board, hboard, hv₂⟩ := returns_transition hmoved
    have hstart : v₃.stores.board = v.stores.board := (hv₃.still rfl).trans (by rw [hv₁])
    rw [hstart] at hboard
    rcases transitionTask_cases hboard with ⟨-, hfound⟩ | ⟨hstatus, htask, hgeneration, -⟩
    · exact (hfound (findOperation_fresh hfresh)).elim
    · have hkeyed₂ : Keyed v₂.stores.records := by
        rw [hv₂]
        exact hv₃.keyed (by rw [hv₁]; exact hkeyed)
      obtain ⟨hsame, revision, bound, hhead, hbound, hrevision⟩ :=
        returns_rebindAssignment hkeyed₂ hrebind
      have hend : v'.stores.board = board := by rw [hreported.still rfl, hsame, hv₂]
      refine ⟨by rw [hend, htask, hstatus], revision, bound, ?_, ?_, ?_⟩
      · rw [← hhead, head, head, hreported.keep rfl]
      · rw [hend, hbound, hgeneration]
      · rw [hend, hrevision, htask]
  · intro hother
    rw [if_neg hother] at hmove
    have hreported := following_returns (reportBlocked_follows a b at_) hmove
    rw [hreported.still rfl, hv₁]

def Settles (env : HeartbeatEnv) (w w' : HeartbeatWorld) : Prop :=
  (Movable w.stores.board.task.status →
    w'.stores.board.task.status = .blocked ∧ Bound env w'.stores) ∧
  (w.stores.board.task.status = .blocked → w'.stores.board.task.status = .blocked) ∧
  (¬Movable w.stores.board.task.status → w.stores.board.task.status ≠ .blocked →
    w'.stores.board = w.stores.board)

theorem settles_of_blocked (htransition : b.transitionTask = true) (hkeyed : Keyed w.stores.records)
    (hfresh : Fresh env w.stores.board) (hbefore : Follows env false false w.stores v.stores)
    (hstill : v.stores.board = w.stores.board ∨
      w.stores.board.task.status = .ready ∨ w.stores.board.task.status = .blocked)
    (h : Returns (blockedPreflight env call a b at_) v r v')
    (hafter : Follows env true true v'.stores w'.stores) : Settles env w w' := by
  obtain ⟨hmove, hstay⟩ :=
    blockedPreflight_moves htransition (hbefore.keyed hkeyed) (hbefore.fresh hfresh) h
  have hboard := hafter.still rfl
  have hbound : Bound env v'.stores → Bound env w'.stores := by
    rintro ⟨revision, bound, hhead, hgeneration, hrevision⟩
    refine ⟨revision, bound, ?_, by rw [hboard, hgeneration], by rw [hboard, hrevision]⟩
    rw [← hhead, head, head, hafter.keep rfl]
  refine ⟨?_, ?_, ?_⟩
  · intro hmovable
    have hmovable' : Movable v.stores.board.task.status := by
      rcases hbefore.status with hsame | hrunning
      · rwa [hsame]
      · exact Or.inr (Or.inr hrunning)
    rw [hboard]
    exact ⟨(hmove hmovable').1, hbound (hmove hmovable').2⟩
  · intro hblocked
    rw [hboard]
    rcases hbefore.status with hsame | hrunning
    · have hother : ¬Movable v.stores.board.task.status := by
        rw [hsame, hblocked, Movable]
        decide
      rw [hstay hother, hsame, hblocked]
    · exact (hmove (Or.inr (Or.inr hrunning))).1
  · intro hother hblocked
    have hsame : v.stores.board = w.stores.board := by
      rcases hstill with hsame | hready | hblocked'
      · exact hsame
      · exact absurd (Or.inr (Or.inl hready)) hother
      · exact absurd hblocked' hblocked
    rw [hboard, hstay (by rwa [hsame]), hsame]

theorem returns_reportBlocked (h : Returns (reportBlocked env a b at_) v r v') :
    r.errorCode = some b.errorCode := by
  obtain ⟨_, v₁, -, hrest⟩ := returns_bind.mp h
  obtain ⟨_, v₂, -, hpure⟩ := returns_bind.mp hrest
  obtain ⟨rfl, -⟩ := returns_pure.mp hpure
  rfl

theorem blockedPreflight_code (h : Returns (blockedPreflight env call a b at_) v r v') :
    r.errorCode = some b.errorCode := by
  rw [blockedPreflight_eq] at h
  split at h
  · obtain ⟨snapshot, v₁, -, hmove⟩ := returns_bind.mp h
    split at hmove
    · obtain ⟨_, v₂, -, hrest⟩ := returns_bind.mp hmove
      obtain ⟨_, v₃, -, hreport⟩ := returns_bind.mp hrest
      exact returns_reportBlocked hreport
    · exact returns_reportBlocked hmove
  · exact returns_reportBlocked h
end

section
variable {env : HeartbeatEnv} {call : Caller} {w w' v v' : HeartbeatWorld} {r : HeartbeatResult}

theorem Follows.weaken {still keep : Bool} {s s' : HeartbeatStores}
    (h : Follows env still keep s s') : Follows env false false s s' :=
  ⟨h.keyed, h.fresh, h.status, Bool.false_ne_true.elim, Bool.false_ne_true.elim⟩

theorem returns_resultForRun {run : ExecutionRun} {noOp : Bool}
    (h : Returns (resultForRun env run noOp) w r w') : r.run = some run := by
  obtain ⟨_, v₁, -, h⟩ := returns_bind.mp h
  obtain ⟨_, v₂, -, h⟩ := returns_bind.mp h
  obtain ⟨_, v₃, -, h⟩ := returns_bind.mp h
  split at h
  · obtain ⟨rfl, -⟩ := returns_pure.mp h
    rfl
  · exact absurd h returns_fail

variable {st : Started} {outcome : ProcessOutcome}

theorem returns_recordEnd {ended : RunEnd} {files : List String} {endedAt : Time}
    (h : Returns (recordEnd env st outcome ended files endedAt) w r w') : r.run ≠ none := by
  obtain ⟨_, v₁, -, h⟩ := returns_bind.mp h
  obtain ⟨_, v₂, -, h⟩ := returns_bind.mp h
  obtain ⟨_, v₃, -, h⟩ := returns_bind.mp h
  obtain ⟨_, v₄, -, h⟩ := returns_bind.mp h
  obtain ⟨_, v₅, -, h⟩ := returns_bind.mp h
  obtain ⟨rfl, -⟩ := returns_pure.mp h
  simp

variable {c : Checkout}

theorem returns_finishRun {intent : Option Intent} {endedAt : Time}
    (h : Returns (finishRun env call st c outcome intent endedAt) w r w') : r.run ≠ none := by
  obtain ⟨_, v₁, -, h⟩ := returns_bind.mp h
  obtain ⟨_, v₂, -, h⟩ := returns_bind.mp h
  obtain ⟨_, v₃, -, h⟩ := returns_bind.mp h
  obtain ⟨_, v₄, -, h⟩ := returns_bind.mp h
  obtain ⟨_, v₅, -, h⟩ := returns_bind.mp h
  obtain ⟨_, v₆, -, h⟩ := returns_bind.mp h
  obtain ⟨_, v₇, -, h⟩ := returns_bind.mp h
  obtain ⟨_, v₈, -, h⟩ := returns_bind.mp h
  exact returns_recordEnd h

theorem returns_guarded {α : Type} {handler : HeartbeatError → HeartbeatProg HeartbeatResult}
    {p : HeartbeatProg α} {k : α → HeartbeatProg HeartbeatResult}
    (h : Returns (guarded env call handler c p k) w r w') :
    (∃ a v, Returns p.toExcept w (.ok a) v ∧ Returns (k a) v r w') ∨
      ∃ e v v', Returns p.toExcept w (.error e) v ∧ Returns (handler e) v r v' ∧
        Returns (releaseCheckout env call c) v' () w' := by
  obtain ⟨result, v, hp, hrest⟩ := returns_bind.mp h
  cases result with
  | ok a => exact Or.inl ⟨a, v, hp, hrest⟩
  | error e =>
    obtain ⟨v', hhandler, hrelease⟩ := returns_tryFinally.mp hrest
    exact Or.inr ⟨e, v, v', hp, hhandler, hrelease⟩

variable {p : Preflight} {decision : PolicyDecision} {startedAt : Time}

theorem handleError_run {run : ExecutionRun} {e : HeartbeatError}
    (h : Returns (handleError env call p decision startedAt (some run) e) w r w') :
    r.run ≠ none := by
  unfold handleError at h
  simp only at h
  split at h
  · obtain ⟨_, v, -, hthrow⟩ := returns_bind.mp h
    exact absurd hthrow returns_fail
  · obtain ⟨failed, v, -, hresult⟩ := returns_bind.mp h
    rw [returns_resultForRun hresult]
    simp

theorem runStarted_run (h : Returns (runStarted env call st c startedAt) w r w') :
    r.run ≠ none := by
  rcases returns_guarded h with ⟨_, v, -, hrest⟩ | ⟨e, v, v', -, hhandler, -⟩
  · obtain ⟨executed, v₁, -, hrest⟩ := returns_bind.mp hrest
    rcases returns_guarded hrest with ⟨result, v₂, hfinish, hend⟩ | ⟨e, v₂, v₃, -, hhandler, -⟩
    · obtain ⟨outcome, v₃, -, hfinish⟩ := returns_bind.mp (returns_toExcept_ok.mp hfinish)
      obtain ⟨endedAt, v₄, -, hfinish⟩ := returns_bind.mp hfinish
      obtain ⟨v₅, hpure, -⟩ := returns_tryFinally.mp hend
      obtain ⟨rfl, -⟩ := returns_pure.mp hpure
      exact returns_finishRun hfinish
    · exact handleError_run hhandler
  · exact handleError_run hhandler

theorem handleError_settles {e : HeartbeatError} (hkeyed : Keyed w.stores.records)
    (hfresh : Fresh env w.stores.board)
    (hready : w.stores.board.task.status = .ready ∨ w.stores.board.task.status = .blocked)
    (hbefore : Follows env false false w.stores v.stores)
    (h : Returns (handleError env call p decision startedAt none e) v r v')
    (hafter : Follows env true true v'.stores w'.stores) : Settles env w w' := by
  unfold handleError at h
  simp only at h
  split at h
  · exact absurd h returns_fail
  · obtain ⟨at_, v₁, htime, hblocked⟩ := returns_bind.mp h
    have htime := returns_follows env true false htime
    exact settles_of_blocked rfl hkeyed hfresh (hbefore.trans htime.weaken) (Or.inr hready)
      hblocked hafter

theorem runHeartbeat_settles {budget : Option (String × Option BudgetUsage)}
    {existing : Option ExecutionSession} (hkeyed : Keyed w.stores.records)
    (hfresh : Fresh env w.stores.board)
    (hready : w.stores.board.task.status = .ready ∨ w.stores.board.task.status = .blocked)
    (hbefore : Follows env false false w.stores v.stores) (hrun : r.run = none)
    (h : Returns (runHeartbeat env call p decision budget existing startedAt) v r w') :
    Settles env w w' := by
  obtain ⟨acquired, v₁, hcheckout, hrest⟩ := returns_bind.mp h
  have hcheckout : Follows env true false v.stores v₁.stores :=
    following_returns inferInstance hcheckout
  have hbefore := hbefore.trans hcheckout.weaken
  cases acquired with
  | error e =>
    exact handleError_settles hkeyed hfresh hready hbefore hrest (follows_refl env true true _)
  | ok c =>
    have hrunning := running_follows env call ("employee:" ++ p.employee.employeeId)
      p.snapshot.generationId startedAt
    rcases returns_guarded hrest with
      ⟨lease, v₂, hrebind, hrest⟩ | ⟨e, v₂, v₃, hrebind, hhandler, hrelease⟩
    · have hrebind : Follows env false false v₁.stores v₂.stores :=
        following_returns inferInstance hrebind
      rcases returns_guarded hrest with
        ⟨session, v₃, -, hrest⟩ | ⟨e, v₃, v₄, hstart, hhandler, hrelease⟩
      · rcases returns_guarded hrest with ⟨_, v₄, -, hstarted⟩ | ⟨e, v₄, v₅, -, hhandler, -⟩
        · exact absurd hrun (runStarted_run hstarted)
        · exact absurd hrun (handleError_run hhandler)
      · have hstart : Follows env false false v₂.stores v₃.stores :=
          following_returns inferInstance hstart
        have hrelease : Follows env true true v₄.stores w'.stores :=
          following_returns inferInstance hrelease
        exact handleError_settles hkeyed hfresh hready ((hbefore.trans hrebind).trans hstart)
          hhandler hrelease
    · have hrebind : Follows env false false v₁.stores v₂.stores :=
        following_returns inferInstance hrebind
      have hrelease : Follows env true true v₃.stores w'.stores :=
        following_returns inferInstance hrelease
      exact handleError_settles hkeyed hfresh hready (hbefore.trans hrebind) hhandler hrelease
end

section
variable {env : HeartbeatEnv} {call : Caller} {w w' v v' : HeartbeatWorld} {r : HeartbeatResult}

def movingCodes : List String :=
  ["workspace_preflight_failed", "policy_denied", "checkout_failed"]

theorem not_moving {a : TaskAssignment} {b : Blocked} {at_ : Time} {P : Prop}
    (hcode : b.errorCode ∉ movingCodes) (hmoving : ∃ code ∈ movingCodes, r.errorCode = some code)
    (h : Returns (blockedPreflight env call a b at_) v r v') : P := by
  obtain ⟨code, hmem, hsome⟩ := hmoving
  rw [blockedPreflight_code h, Option.some.injEq] at hsome
  exact absurd (hsome ▸ hmem) hcode

theorem decideHeartbeat_settles {p : Preflight} {startedAt : Time}
    (hkeyed : Keyed w.stores.records) (hfresh : Fresh env w.stores.board)
    (hready : w.stores.board.task.status = .ready ∨ w.stores.board.task.status = .blocked)
    (hbefore : Follows env false false w.stores v.stores) (hrun : r.run = none)
    (hmoving : ∃ code ∈ movingCodes, r.errorCode = some code)
    (h : Returns (decideHeartbeat env call p startedAt) v r w') : Settles env w w' := by
  unfold decideHeartbeat at h
  simp only at h
  split at h
  · exact not_moving (by decide) hmoving h
  obtain ⟨budget, v₁, hbudget, h⟩ := returns_bind.mp h
  have hbudget := returns_follows env true false hbudget
  obtain ⟨approval, v₂, happroval, h⟩ := returns_bind.mp h
  have happroval := returns_follows env true false happroval
  split at h
  · exact not_moving (by decide) hmoving h
  obtain ⟨_, v₃, hput, h⟩ := returns_bind.mp h
  have hput : Follows env true false v₂.stores v₃.stores := following_returns inferInstance hput
  have hbefore := ((hbefore.trans hbudget.weaken).trans happroval.weaken).trans hput.weaken
  split at h
  · exact not_moving (show "approval_required" ∉ movingCodes by decide) hmoving h
  split at h
  · exact settles_of_blocked rfl hkeyed hfresh hbefore (Or.inr hready) h
      (follows_refl env true true _)
  obtain ⟨available, v₄, havailable, h⟩ := returns_bind.mp h
  obtain rfl := returns_any.mp havailable
  split at h
  · exact not_moving (show "runtime_adapter_unhealthy" ∉ movingCodes by decide) hmoving h
  obtain ⟨existing, v₅, hexisting, h⟩ := returns_bind.mp h
  have hexisting := returns_follows env true false hexisting
  obtain ⟨_, v₆, hfail, h⟩ := returns_bind.mp h
  obtain rfl := returns_mayFail.mp hfail
  exact runHeartbeat_settles hkeyed hfresh hready (hbefore.trans hexisting.weaken) hrun h

theorem preflightWorkspace_ready {a : TaskAssignment} {startedAt : Time} {p : Preflight}
    (h : Returns (preflightWorkspace env a startedAt) v p v') :
    v.stores.board.task.status = .ready ∨ v.stores.board.task.status = .blocked := by
  obtain ⟨snapshot, v₁, hsnapshot, h⟩ := returns_bind.mp h
  obtain ⟨rfl, -⟩ := returns_taskSnapshot hsnapshot
  obtain ⟨_, v₂, -, h⟩ := returns_bind.mp h
  obtain ⟨_, v₃, hrequire, -⟩ := returns_bind.mp h
  exact (returns_require.mp hrequire).1

theorem startHeartbeat_settles (hkeyed : Keyed w.stores.records)
    (hfresh : Fresh env w.stores.board) (hbefore : Follows env true false w.stores v.stores)
    (hrun : r.run = none) (hmoving : ∃ code ∈ movingCodes, r.errorCode = some code)
    (h : Returns (startHeartbeat env call) v r w') : Settles env w w' := by
  obtain ⟨startedAt, v₁, htime, h⟩ := returns_bind.mp h
  have htime := returns_follows env true false htime
  obtain ⟨a, v₂, hassignment, h⟩ := returns_bind.mp h
  have hassignment := returns_follows env true false hassignment
  have hbefore := (hbefore.trans htime).trans hassignment
  simp only at h
  split at h
  · exact not_moving (by decide) hmoving h
  split at h
  · exact not_moving (by decide) hmoving h
  obtain ⟨allowed, v₃, hallowed, h⟩ := returns_bind.mp h
  have hallowed : Follows env true false v₂.stores v₃.stores :=
    following_returns inferInstance hallowed
  have hbefore := hbefore.trans hallowed
  cases allowed with
  | error e => exact not_moving (by decide) hmoving h
  | ok allowed =>
    obtain ⟨preflight, v₄, hpreflight, h⟩ := returns_bind.mp h
    have hprepared : Follows env true false v₃.stores v₄.stores :=
      following_returns inferInstance hpreflight
    cases preflight with
    | ok p =>
      have hready := preflightWorkspace_ready (returns_toExcept_ok.mp hpreflight)
      rw [hbefore.still rfl] at hready
      exact decideHeartbeat_settles hkeyed hfresh hready (hbefore.trans hprepared).weaken hrun
        hmoving h
    | error e =>
      simp only at h
      split at h
      · exact settles_of_blocked rfl hkeyed hfresh (hbefore.trans hprepared).weaken
          (Or.inl ((hbefore.trans hprepared).still rfl)) h (follows_refl env true true _)
      · exact absurd h returns_fail

theorem manualHeartbeat_settles (hkeyed : Keyed w.stores.records)
    (hfresh : Fresh env w.stores.board) (hrun : r.run = none)
    (hmoving : ∃ code ∈ movingCodes, r.errorCode = some code)
    (h : Returns (manualHeartbeat env call) w r w') : Settles env w w' := by
  obtain ⟨receipt, v₁, hread, h⟩ := returns_bind.mp h
  have hstart : Follows env true false w.stores v₁.stores := by
    refine following_returns ?_ hread
    apply Quiet.aside
    intro s a s' hs
    split at hs
    · cases hs
      exact ⟨rfl, rfl⟩
    · split at hs <;> cases hs
      exact ⟨rfl, rfl⟩
  split at h
  · obtain ⟨run, v₂, -, h⟩ := returns_bind.mp h
    split at h
    · exact absurd h returns_fail
    · rw [returns_resultForRun h] at hrun
      cases hrun
  · obtain ⟨_, v₂, htime, h⟩ := returns_bind.mp h
    have htime := returns_follows env true false htime
    obtain ⟨claimed, v₃, hclaim, h⟩ := returns_bind.mp h
    have hclaim := returns_follows env true false hclaim
    obtain ⟨_, v₄, hrequire, h⟩ := returns_bind.mp h
    obtain ⟨-, rfl⟩ := returns_require.mp hrequire
    obtain ⟨existing, v₅, hcheck, h⟩ := returns_bind.mp h
    have hchecked := returns_follows env true false hcheck
    cases existing with
    | some run =>
      obtain ⟨result, v₆, hresult, h⟩ := returns_bind.mp h
      simp only at h
      have hsame : result = r := by
        split at h
        · obtain ⟨_, v₇, -, hpure⟩ := returns_bind.mp h
          exact (returns_pure.mp hpure).1
        · exact (returns_pure.mp h).1
      rw [← hsame, returns_resultForRun hresult] at hrun
      cases hrun
    | none =>
      exact startHeartbeat_settles hkeyed hfresh (((hstart.trans htime).trans hclaim).trans hchecked)
        hrun hmoving h

/-- A heartbeat that ends in a blocked outcome of the moving kinds, of a run that has blocked no
task before, leaves a task that was planned, ready or running blocked and its assignment bound to
the board, leaves a blocked task blocked, and leaves the board of any other task. -/
theorem blocked_outcome_settles (env : HeartbeatEnv) (call : Caller) (w w' : HeartbeatWorld)
    (r : HeartbeatResult) (hkeyed : Keyed w.stores.records) (hfresh : Fresh env w.stores.board)
    (h : Returns (manualHeartbeat env call) w r w') (hrun : r.run = none)
    (hmoving : ∃ code ∈ movingCodes, r.errorCode = some code) :
    (Movable w.stores.board.task.status →
      w'.stores.board.task.status = .blocked ∧ Bound env w'.stores) ∧
    (w.stores.board.task.status = .blocked → w'.stores.board.task.status = .blocked) ∧
    (¬Movable w.stores.board.task.status → w.stores.board.task.status ≠ .blocked →
      w'.stores.board = w.stores.board) :=
  manualHeartbeat_settles hkeyed hfresh hrun hmoving h

def unstaffedEnv : HeartbeatEnv := {demoEnv with employee := none}

variable (status : TaskStatus)

def taskIn : HeartbeatWorld :=
  ⟨{demoStores with board := ⟨1, ⟨status, 1, 0⟩, true, []⟩}, .initial⟩

def unstaffedPlay : HeartbeatProg HeartbeatResult × HeartbeatWorld :=
  Prog.play 60 (List.replicate 40 0) (manualHeartbeat unstaffedEnv .first) (taskIn status)

theorem demo_keyed : Keyed (taskIn status).stores.records := by
  intro id r hr
  by_cases hkey : (RecordKind.assignment, id) = (.assignment, "assignment")
  · rw [hkey] at hr ⊢
    have hr : r ∈ push (fun _ => []) (RecordKind.assignment, "assignment")
        (.assignment demoAssignment) (.assignment, "assignment") := hr
    rw [push_same, List.nil_append, List.mem_singleton] at hr
    rw [hr]
    rfl
  · have hr : r ∈ push (fun _ => []) (RecordKind.assignment, "assignment")
        (.assignment demoAssignment) (.assignment, id) := hr
    rw [push_other _ _ hkey] at hr
    cases hr

/-- The ready task of a missing employee is blocked. -/
theorem ready_task_settles :
    (unstaffedPlay .ready).1.value?.map HeartbeatResult.errorCode =
        some (some "workspace_preflight_failed") ∧
      (unstaffedPlay .ready).2.stores.board.task.status = .blocked ∧
      Bound unstaffedEnv (unstaffedPlay .ready).2.stores := by
  have hcode : (unstaffedPlay .ready).1.value?.map HeartbeatResult.errorCode =
      some (some "workspace_preflight_failed") := by decide +kernel
  have hrun : (unstaffedPlay .ready).1.value?.map HeartbeatResult.run = some none := by
    decide +kernel
  obtain ⟨r, hr, hrcode⟩ := Option.map_eq_some_iff.mp hcode
  rw [hr, Option.map_some, Option.some.injEq] at hrun
  refine ⟨hcode, ?_⟩
  exact (blocked_outcome_settles unstaffedEnv .first (taskIn .ready) _ r (demo_keyed .ready)
    (fun e he => absurd he List.not_mem_nil) (exec_play_returned hr) hrun
    ⟨_, by decide, hrcode⟩).1 (Or.inr (Or.inl rfl))

/-- A heartbeat for a task that is done is answered as blocked, and the task stays done. -/
theorem done_task_stays :
    ¬∀ (env : HeartbeatEnv) (call : Caller) (w w' : HeartbeatWorld) (r : HeartbeatResult),
      Returns (manualHeartbeat env call) w r w' → r.run = none →
        (∃ code ∈ movingCodes, r.errorCode = some code) →
          w'.stores.board.task.status = .blocked ∧ Bound env w'.stores := by
  intro hclaim
  have hcode : (unstaffedPlay .done).1.value?.map HeartbeatResult.errorCode =
      some (some "workspace_preflight_failed") := by decide +kernel
  have hrun : (unstaffedPlay .done).1.value?.map HeartbeatResult.run = some none := by
    decide +kernel
  have hstatus : (unstaffedPlay .done).2.stores.board.task.status = .done := by decide +kernel
  obtain ⟨r, hr, hrcode⟩ := Option.map_eq_some_iff.mp hcode
  rw [hr, Option.map_some, Option.some.injEq] at hrun
  have hblocked := (hclaim unstaffedEnv .first (taskIn .done) _ r (exec_play_returned hr) hrun
    ⟨_, by decide, hrcode⟩).1
  have hboth := hstatus.symm.trans hblocked
  cases hboth
end
end RaytSystem.Execution
