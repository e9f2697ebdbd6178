import RaytSystem.HeartbeatRules

/-! Two heartbeats of one request. As long as neither checks for the run record while the
other is between its own check and its own record, one of them runs the adapter at most
once and is left undisturbed. -/
namespace RaytSystem.Execution
open Control Tasking Interleaving

def since (start stop : HeartbeatEvent → Bool) : List HeartbeatEvent → Bool
  | [] => false
  | e :: older => start e || (!stop e && since start stop older)

def HeartbeatEvent.acquiredBy (c : Caller) : HeartbeatEvent → Bool
  | acquired c' _ => c' == c
  | _ => false

def HeartbeatEvent.isExecution : HeartbeatEvent → Bool
  | executed _ => true
  | _ => false

def holdsLease (c : Caller) (partitionKey : String) : List HeartbeatEvent → Bool :=
  since (· == .acquired c partitionKey) fun e => e == .left c || e == .released c partitionKey

def checkedOut (c : Caller) : List HeartbeatEvent → Bool :=
  since (HeartbeatEvent.acquiredBy c) (· == .left c)

def disturbs (c : Caller) (e : HeartbeatEvent) (older : List HeartbeatEvent) : Bool :=
  match e with
  | .released _ partitionKey => holdsLease c partitionKey older
  | .moved _ source _ => source == .running && checkedOut c older
  | _ => false

def undisturbed (c : Caller) : List HeartbeatEvent → Bool
  | [] => true
  | e :: older => (e.call == c || !disturbs c e older) && undisturbed c older

def executions (log : List HeartbeatEvent) : Nat := log.countP HeartbeatEvent.isExecution

def OneExecution (log : List HeartbeatEvent) : Prop :=
  executions log ≤ 1 ∧ ∀ c, .executed c ∈ log → undisturbed c log = true

instance (log : List HeartbeatEvent) : Decidable (OneExecution log) :=
  have : Decidable (∀ c, HeartbeatEvent.executed c ∈ log → undisturbed c log = true) :=
    decidable_of_iff
      ((HeartbeatEvent.executed .first ∈ log → undisturbed .first log = true) ∧
        (HeartbeatEvent.executed .second ∈ log → undisturbed .second log = true))
      ⟨fun h c => by cases c with
        | first => exact h.1
        | second => exact h.2, fun h => ⟨h .first, h .second⟩⟩
  inferInstanceAs (Decidable (_ ∧ _))

def CallStage.active (s : CallStage) : Bool := s == .window || s == .recorded

def CheckedAlone (call : Caller) (l : HeartbeatAccess) (w : HeartbeatWorld) : Prop :=
  l = .checkRun → ∀ c, c ≠ call → w.seen.stage c ≠ .window

variable (env : HeartbeatEnv)

def RunExists (w : HeartbeatWorld) : Prop :=
  RecordTable.head w.stores.records (.run,env.runId) ≠ none

structure Exclusive (env : HeartbeatEnv) (w : HeartbeatWorld) : Prop where
  alone : ∀ i j, (w.seen.stage i).active = true → (w.seen.stage j).active = true → i = j
  recorded : ∀ i, w.seen.stage i = .recorded → RunExists env w
  fresh : ∀ i, w.seen.stage i = .window → executions w.seen.log = 0
  ran : executions w.seen.log ≠ 0 → RunExists env w
  once : executions w.seen.log ≤ 1
  holder : ∀ i, checkedOut i w.seen.log = true → (w.seen.stage i).active = true
  quiet : ∀ i, undisturbed i w.seen.log = true

theorem exclusive_safe {env : HeartbeatEnv} {w : HeartbeatWorld} (h : Exclusive env w) :
    OneExecution w.seen.log := ⟨h.once, fun c _ => h.quiet c⟩

def StaysFor (c : Caller) (w w' : HeartbeatWorld) : Prop :=
  w'.seen.stage c = w.seen.stage c ∧
    ((w.seen.stage c).active = true → executions w.seen.log = 0 → executions w'.seen.log = 0)

def heartbeatRule (call : Caller) : Discipline HeartbeatWorld HeartbeatAccess where
  inv := Exclusive env
  rely := StaysFor call
  assume := CheckedAlone call
  guar _ w w' := ∀ c, c ≠ call → StaysFor c w w'

theorem heartbeatRule_preorder (call : Caller) : (heartbeatRule env call).Preorder where
  refl w := ⟨rfl, fun _ h => h⟩
  trans := by
    rintro a b c ⟨hab, hab'⟩ ⟨hbc, hbc'⟩
    refine ⟨hbc.trans hab, ?_⟩
    intro hactive hnone
    exact hbc' (by rw [hab]; exact hactive) (hab' hactive hnone)

theorem executions_cons (e : HeartbeatEvent) (log : List HeartbeatEvent) :
    executions (e :: log) = executions log + if e.isExecution then 1 else 0 :=
  List.countP_cons

variable {c : Caller} {log : List HeartbeatEvent}

theorem holdsLease_checkedOut {p : String} (h : holdsLease c p log = true) :
    checkedOut c log = true := by
  induction log with
  | nil => cases h
  | cons e older ih =>
    simp only [holdsLease, checkedOut, since, Bool.or_eq_true, Bool.and_eq_true,
      Bool.not_eq_true', Bool.or_eq_false_iff, beq_iff_eq] at h ih ⊢
    rcases h with rfl | ⟨⟨hleft, _⟩, h⟩
    · exact Or.inl (by simp [HeartbeatEvent.acquiredBy])
    · exact Or.inr ⟨hleft, ih h⟩

theorem not_disturbs (h : checkedOut c log = false) (e : HeartbeatEvent) :
    disturbs c e log = false := by
  cases e with
  | released c' p =>
    rw [disturbs, Bool.eq_false_iff]
    intro hholds
    rw [holdsLease_checkedOut hholds] at h
    cases h
  | moved c' source target => simp [disturbs, h]
  | _ => rfl

theorem checkedOut_other {e : HeartbeatEvent} (h : e.call ≠ c) (log : List HeartbeatEvent) :
    checkedOut c (e :: log) = checkedOut c log := by
  have hstart : e.acquiredBy c = false := by
    cases e <;> simp_all [HeartbeatEvent.acquiredBy, HeartbeatEvent.call]
  have hstop : (e == .left c) = false := by
    rw [beq_eq_false_iff_ne]
    rintro rfl
    exact h rfl
  simp [checkedOut, since, hstart, hstop]

theorem runExists_extends {env : HeartbeatEnv} {w w' : HeartbeatWorld} (h : RunExists env w)
    (hext : RecordTable.Extends w.stores.records w'.stores.records) : RunExists env w' := by
  unfold RunExists at h ⊢
  rw [Ne, RecordTable.head_eq_none] at h ⊢
  intro hnil
  have hprefix := hext (.run,env.runId)
  rw [hnil, List.prefix_nil] at hprefix
  exact h hprefix

section
variable {env : HeartbeatEnv} {call : Caller} {w w' : HeartbeatWorld}

theorem exclusive_note (h : Exclusive env w) {e : HeartbeatEvent} (hcall : e.call = call)
    (hstage : w'.seen.stage = w.seen.stage) (hlog : w'.seen.log = e :: w.seen.log)
    (hactive : (w.seen.stage call).active = true)
    (hext : RecordTable.Extends w.stores.records w'.stores.records)
    (hexec : e.isExecution = true → w.seen.stage call = .recorded ∧ executions w.seen.log = 0) :
    Exclusive env w' := by
  have hcount : executions w'.seen.log =
      executions w.seen.log + if e.isExecution then 1 else 0 := by rw [hlog, executions_cons]
  have hother : ∀ i, i ≠ call → checkedOut i w.seen.log = false := by
    intro i hi
    rw [Bool.eq_false_iff]
    intro hc
    exact hi (h.alone i call (h.holder i hc) hactive)
  constructor
  · intro i j hi hj
    rw [hstage] at hi hj
    exact h.alone i j hi hj
  · intro i hi
    rw [hstage] at hi
    exact runExists_extends (h.recorded i hi) hext
  · intro i hi
    rw [hstage] at hi
    cases hx : e.isExecution with
    | false =>
      rw [hcount, hx, h.fresh i hi]
      rfl
    | true =>
      have hic : i = call := h.alone i call (by rw [hi]; rfl) hactive
      rw [hic, (hexec hx).1] at hi
      cases hi
  · intro hne
    cases hx : e.isExecution with
    | false =>
      rw [hcount, hx] at hne
      exact runExists_extends (h.ran hne) hext
    | true => exact runExists_extends (h.recorded call (hexec hx).1) hext
  · have honce := h.once
    cases hx : e.isExecution with
    | false =>
      rw [hcount, hx]
      exact honce
    | true => rw [hcount, hx, (hexec hx).2, if_pos rfl]
  · intro i hi
    rw [hstage]
    by_cases hic : i = call
    · rw [hic]
      exact hactive
    · rw [hlog, checkedOut_other (by rw [hcall]; exact fun he => hic he.symm)] at hi
      exact h.holder i hi
  · intro i
    rw [hlog, undisturbed, h.quiet i, Bool.and_true, hcall]
    by_cases hic : i = call
    · simp [hic]
    · simp [not_disturbs (hother i hic)]

theorem exclusive_unnoted (h : Exclusive env w) (hseen : w'.seen.stage = w.seen.stage)
    (hlog : w'.seen.log = w.seen.log)
    (hext : RecordTable.Extends w.stores.records w'.stores.records) : Exclusive env w' where
  alone := by
    rw [hseen]
    exact h.alone
  recorded i hi := runExists_extends (h.recorded i (by rw [← hseen]; exact hi)) hext
  fresh := by
    rw [hseen, hlog]
    exact h.fresh
  ran hne := runExists_extends (h.ran (by rw [← hlog]; exact hne)) hext
  once := by
    rw [hlog]
    exact h.once
  holder := by
    rw [hseen, hlog]
    exact h.holder
  quiet := by
    rw [hlog]
    exact h.quiet

def At (call : Caller) (s : CallStage) (fresh : Bool) (w : HeartbeatWorld) : Prop :=
  w.seen.stage call = s ∧ (fresh = true → executions w.seen.log = 0)

theorem at_rely {s : CallStage} {fresh : Bool} (h : At call s fresh w)
    (hr : StaysFor call w w') (hs : fresh = true → s.active = true) : At call s fresh w' := by
  obtain ⟨hstage, hfresh⟩ := h
  refine ⟨hr.1.trans hstage, ?_⟩
  intro hf
  exact hr.2 (by rw [hstage]; exact hs hf) (hfresh hf)

theorem routine_keeps {s : CallStage} {fresh loud : Bool} {β : Type} {l : HeartbeatAccess}
    {f : HeartbeatWorld → β × HeartbeatWorld} (hs : loud = true → s.active = true)
    (hf : Routine call loud β l f) (h : Exclusive env w) (hat : At call s fresh w) :
    Exclusive env (f w).2 ∧ (∀ c, c ≠ call → StaysFor c w (f w).2) ∧
      At call s fresh (f w).2 := by
  obtain ⟨_, hkeep⟩ := hf
  obtain ⟨hstage, hext, hlog⟩ := hkeep w
  rcases hlog with hlog | ⟨hloud, e, hcall, hroutine, hlog⟩
  · refine ⟨exclusive_unnoted h hstage hlog hext, ?_, ?_⟩
    · intro c _
      exact ⟨by rw [hstage], fun _ hn => by rw [hlog]; exact hn⟩
    · exact ⟨by rw [hstage]; exact hat.1, fun hfr => by rw [hlog]; exact hat.2 hfr⟩
  · have hexec : e.isExecution = false := by cases e <;> first | rfl | cases hroutine
    have hcount : executions (f w).2.seen.log = executions w.seen.log := by
      rw [hlog, executions_cons, hexec]
      rfl
    have hactive : (w.seen.stage call).active = true := by
      rw [hat.1]
      exact hs hloud
    refine ⟨exclusive_note h hcall hstage hlog hactive hext ?_, ?_, ?_⟩
    · intro hx
      rw [hexec] at hx
      cases hx
    · intro c _
      exact ⟨by rw [hstage], fun _ hn => by rw [hcount]; exact hn⟩
    · exact ⟨by rw [hstage]; exact hat.1, fun hfr => by rw [hcount]; exact hat.2 hfr⟩
end

section
variable {env : HeartbeatEnv} {call : Caller} {w : HeartbeatWorld} {α β : Type}
variable {s : CallStage} {fresh : Bool}

theorem routine_wp (hw : At call s fresh w) (loud : Bool) (hloud : loud = true → s.active = true)
    (hfresh : fresh = true → s.active = true) (p : HeartbeatProg α) [IsRoutine call loud p] :
    wp (heartbeatRule env call) p (fun _ => At call s fresh) (fun _ => At call s fresh) w :=
  @wp_within _ _ _ _ (heartbeatRule env call) (Routine call loud) (At call s fresh)
    (fun _ _ hr hat => at_rely hat hr hfresh)
    (fun _ _ _ hf _ hinv hat _ => routine_keeps hloud hf hinv hat) p _ w hw

theorem loud_wp (hw : At call s false w) (hs : s.active = true) (p : HeartbeatProg α)
    [IsRoutine call true p] :
    wp (heartbeatRule env call) p (fun _ => At call s false) (fun _ => At call s false) w :=
  routine_wp hw true (fun _ => hs) Bool.false_ne_true.elim p

theorem quiet_wp (hw : At call s false w) (p : HeartbeatProg α) [IsRoutine call false p] :
    wp (heartbeatRule env call) p (fun _ => At call s false) (fun _ => At call s false) w :=
  routine_wp hw false Bool.false_ne_true.elim Bool.false_ne_true.elim p

attribute [local irreducible] wp

def Safe (env : HeartbeatEnv) (call : Caller) (p : HeartbeatProg α) (w : HeartbeatWorld) : Prop :=
  wp (heartbeatRule env call) p (fun _ _ => True) (fun _ _ => True) w

variable {Q : α → HeartbeatWorld → Prop}

theorem safe_bind {p : HeartbeatProg α} {g : α → HeartbeatProg β}
    {X : HeartbeatError → HeartbeatWorld → Prop} (hp : wp (heartbeatRule env call) p Q X w)
    (hg : ∀ a w', Q a w' → Safe env call (g a) w') : Safe env call (p >>= g) w := by
  unfold Safe
  rw [wp_seq]
  exact wp_mono _ hp hg fun _ _ _ => trivial

theorem routine_safe (hs : s.active = true) (p : HeartbeatProg α) [IsRoutine call true p]
    (hw : At call s fresh w) : Safe env call p w :=
  wp_mono _ (routine_wp hw true (fun _ => hs) (fun _ => hs) p) (fun _ _ _ => trivial)
    fun _ _ _ => trivial

theorem guarded_safe (hs : s.active = true)
    {handler : HeartbeatError → HeartbeatProg HeartbeatResult} {c : Checkout} {p : HeartbeatProg α}
    {k : α → HeartbeatProg HeartbeatResult}
    (hp : wp (heartbeatRule env call) p Q (fun _ => At call s fresh) w)
    (hh : ∀ e, IsRoutine call true (handler e)) (hk : ∀ a w', Q a w' → Safe env call (k a) w') :
    Safe env call (guarded env call handler c p k) w := by
  unfold guarded
  apply safe_bind ((wp_toExcept _ p (fun r w' => (∀ a, r = .ok a → Q a w') ∧
    (∀ e, r = .error e → At call s fresh w')) (fun _ _ => True) w).mpr ?_)
  · intro r w' hr
    cases r with
    | ok a => exact hk a w' (hr.1 a rfl)
    | error e =>
      have := hh e
      exact routine_safe hs _ (hr.2 e rfl)
  · refine wp_mono _ hp (fun a w' ha => ⟨?_, ?_⟩) fun e w' hat => ⟨?_, fun _ _ => hat⟩
    · intro b hb
      exact Except.ok.inj hb ▸ ha
    · intro e he
      cases he
    · intro a he
      cases he

theorem executeWithRenewal_wp {run : ExecutionRun} {c : Checkout} (hw : At call .recorded true w) :
    wp (heartbeatRule env call) (executeWithRenewal env call run c)
      (fun _ => At call .recorded false) (fun _ => At call .recorded false) w := by
  unfold executeWithRenewal
  rw [wp_seq]
  have hstart : wp (heartbeatRule env call)
      (Prog.set .other fun w => {w with seen := w.seen.note (.executed call)})
      (fun _ => At call .recorded false)
      (fun _ : HeartbeatError => At call .recorded false) w := by
    unfold wp Prog.set Prog.step
    intro w' hinv hrely _
    obtain ⟨hstage, hnone⟩ := at_rely hw hrely (fun _ => rfl)
    have hactive : (w'.seen.stage call).active = true := by
      rw [hstage]
      rfl
    refine ⟨?_, ?_, ?_⟩
    · exact exclusive_note hinv rfl rfl rfl hactive (RecordTable.extends_refl _)
        fun _ => ⟨hstage, hnone rfl⟩
    · intro c hc
      refine ⟨rfl, ?_⟩
      intro hca
      exact absurd (hinv.alone c call hca hactive) hc
    · unfold wp
      exact ⟨hstage, Bool.false_ne_true.elim⟩
  refine wp_mono _ hstart ?_ fun _ _ h => h
  intro _ w' hw'
  exact routine_wp hw' true (fun _ => rfl) Bool.false_ne_true.elim _
end

end RaytSystem.Execution
