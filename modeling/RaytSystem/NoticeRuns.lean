import RaytSystem.NoticeSafety

/-! Emits of one key, one after another, while any number of transitions run and are lost. -/
namespace RaytSystem.Notices
open Interleaving RecordTable
variable {rules : NoticeRules} {key pid : String} {w : NoticeWorld}

section

def Fresh : NoticeAccess → NoticeWorld → Prop
  | .lookup id, w => w.notices id = []
  | .other, _ => True

def noticeRule {ι : Type} (pid : String) (i : Option ι) : Discipline NoticeWorld NoticeAccess where
  inv := Sound pid
  rely := match i with
    | none => Moves pid
    | some _ => Grows
  assume := Fresh
  guar _ := match i with
    | none => Grows
    | some _ => Moves pid

theorem noticeRule_compatible {ι : Type} :
    Pool.Compatible (fun i : Option ι => noticeRule pid i) (fun _ w => w) (Sound pid) where
  inv_eq _ := rfl
  preorder i := by
    cases i with
    | none => exact ⟨moves_refl pid, moves_trans⟩
    | some i => exact ⟨grows_refl, grows_trans⟩
  guar i j _ _ _ hij _ hg := by
    cases i with
    | none =>
      cases j with
      | none => exact absurd rfl hij
      | some j => exact hg
    | some i =>
      cases j with
      | none => exact hg
      | some j => exact Moves.toGrows hg
  lost_inv _ _ h := h
  lost_rely _ j w _ _ := by
    cases j with
    | none => exact moves_refl pid w
    | some j => exact grows_refl w

theorem sound_events (h : Sound pid w) (events : List NoticeEvent) :
    Sound pid {w with events := events} :=
  ⟨h.named, h.shown, h.aimed, h.target, h.counted, h.known, h.returned⟩

theorem moves_events (pid : String) (w : NoticeWorld) (events : List NoticeEvent) :
    Moves pid w {w with events := events} :=
  ⟨⟨extends_refl _, extends_refl _, fun _ h => h⟩, rfl, rfl, fun _ h => h, Or.inl rfl⟩

variable {expected : Option ℕ}

theorem appendPointer_eq_ok {recordId : String} {pointer : Pointer} {w' : NoticeWorld}
    (h : appendPointer recordId expected pointer w = .ok ((), w')) :
    append w.pointers recordId expected pointer = some w'.pointers ∧
      w' = {w with pointers := w'.pointers} := by
  unfold appendPointer at h
  split at h
  next pointers happend =>
    obtain ⟨-, rfl⟩ := Prod.mk.inj (Except.ok.inj h)
    exact ⟨happend, rfl⟩
  · cases h

theorem emitNotice_eq_ok {row : NoticeRow} {severity : Severity} {w' : NoticeWorld}
    (h : emitNotice expected row severity w = .ok ((), w')) :
    append w.notices row.notice.notificationId expected row = some w'.notices ∧
      w' = { w with
        notices := w'.notices
        pending := some (row.notice.notificationId, severity) } := by
  unfold emitNotice at h
  split at h
  next notices happend =>
    obtain ⟨-, rfl⟩ := Prod.mk.inj (Except.ok.inj h)
    exact ⟨happend, rfl⟩
  · cases h
end

section
variable {ι : Type} {i : ι}

theorem moves_guar (w : NoticeWorld) (_ : Sound pid w) :
    (noticeRule pid (some i)).guar .other w w := moves_refl pid w

theorem ensures_releaseDedup {deduplicationKey id : String} (hw : Resolved w id) :
    Ensures (noticeRule pid (some i)) (releaseDedup rules deduplicationKey id)
      (fun _ _ => True) w := by
  refine ensures_bind (ensures_get moves_guar ?_)
  intro w₁ _ hr₁ _
  split
  · exact ensures_pure trivial
  next pointer hpointer =>
    split
    next hactive =>
      obtain ⟨hactive, rfl⟩ := hactive
      refine ensures_attempt moves_guar ?_
      rintro w₂ ⟨⟩ w₃ hw₂ hr₂ _ hf
      obtain ⟨happend, hw₃⟩ := appendPointer_eq_ok hf
      obtain ⟨hhead, hpush⟩ := append_seen
        (seen_extends (seen_head hpointer) (Grows.pointers hr₂)) happend
      rw [hw₃, hpush]
      obtain ⟨hsound, hmoves⟩ := sound_released hw₂ hhead hactive
        (Grows.resolved hr₂ _ (Grows.resolved hr₁ _ hw))
      exact ⟨hsound, hmoves, trivial⟩
    next => exact ensures_pure trivial

theorem moved_resolved (n : Notification) (now : Int) : (n.moved .resolved now).state = .resolved :=
  rfl

theorem allows_open {a b : NoticeState} (h : a.allows b = true) : a ≠ .resolved := by
  rintro rfl
  cases b <;> cases h

theorem moved_severity (n : Notification) (state : NoticeState) (now : Int) :
    (n.moved state now).severity = n.severity ∧
      (n.moved state now).notificationId = n.notificationId := by
  cases state <;> exact ⟨rfl, rfl⟩

theorem ensures_transition (id : String) (state : NoticeState) (actorId : String) :
    Ensures (noticeRule pid (some i)) (transition rules id state actorId) (fun _ _ => True) w := by
  refine ensures_guard fun _ => ?_
  refine ensures_bind (ensures_get moves_guar ?_)
  intro w₁ _ _ _
  refine ensures_bind (ensures_ofOption ?_)
  intro prior hprior
  refine ensures_bind (ensures_require ?_)
  intro hallows
  refine ensures_bind (ensures_any fun now => ?_)
  refine ensures_bind (ensures_attempt moves_guar ?_)
  rintro w₂ ⟨⟩ w₃ hw₂ hr₂ _ hf
  unfold appendNotice at hf
  split at hf
  next notices happend =>
    obtain ⟨-, rfl⟩ := Prod.mk.inj (Except.ok.inj hf)
    obtain ⟨hhead, rfl⟩ := append_seen
      (seen_extends (seen_head hprior) (Grows.notices hr₂)) happend
    obtain ⟨hseverity, hid⟩ := moved_severity prior.value.notice state now
    obtain ⟨hsound, hmoves⟩ := sound_moved
      {prior.value with notice := prior.value.notice.moved state now} hw₂ hhead
      (allows_open hallows) hid rfl hseverity
    refine ⟨hsound, hmoves, ?_⟩
    refine ensures_bind (ensures_set ?_)
    intro w₄ hw₄ hr₄ _
    refine ⟨sound_events hw₄ _, moves_events pid w₄ _, ?_⟩
    split
    next hstate =>
      subst hstate
      refine ensures_releaseDedup ?_
      exact Grows.resolved hr₄ _ ⟨_, head_push _ _ _, moved_resolved _ now⟩
    next => exact ensures_pure trivial
  · cases hf
end

section
variable {ι : Type}
attribute [local irreducible] makeNotice prepare

def Idle (w : NoticeWorld) : Prop := w.pending = none

structure Quiet (pid : String) (w : NoticeWorld) : Prop where
  idle : Idle w
  pointer : ∀ id, ¬ Pointing pid w id

structure Owed (pid : String) (n : Notification) (severity : Severity) (w : NoticeWorld) :
    Prop where
  pending : w.pending = some (n.notificationId, severity)
  stored : w.notices n.notificationId ≠ []
  pointed : Pointing pid w n.notificationId ∨ Resolved w n.notificationId
  state : n.state ≠ .resolved

theorem idle_moves {w w' : NoticeWorld} (h : Idle w) (hw : Moves pid w w') : Idle w' :=
  hw.pending.trans h

theorem quiet_moves {w w' : NoticeWorld} (h : Quiet pid w) (hw : Moves pid w w') : Quiet pid w' :=
  ⟨idle_moves h.idle hw, moves_not_pointing hw h.pointer⟩

theorem stored_extends {t t' : Table String NoticeRow} {id : String} (h : t id ≠ [])
    (ht : Extends t t') : t' id ≠ [] := fun hnil => h (List.prefix_nil.mp (hnil ▸ ht id))

variable {n : Notification} {severity : Severity}

theorem owed_moves {w w' : NoticeWorld} (h : Owed pid n severity w) (hw : Moves pid w w') :
    Owed pid n severity w' :=
  ⟨hw.pending.trans h.pending, stored_extends h.stored hw.notices, moves_pointing hw h.pointed,
    h.state⟩

def Emits (ι : Type) (pid : String) {α : Type} (p : NoticeProg α)
    (Q : α → NoticeWorld → Prop) (w : NoticeWorld) : Prop :=
  wp (noticeRule pid (none : Option ι)) p Q (fun _ w' => Idle w') w

theorem emits_bind {α β : Type} {p : NoticeProg α} {g : α → NoticeProg β}
    {Q : β → NoticeWorld → Prop} (h : Emits ι pid p (fun a w' => Emits ι pid (g a) Q w') w) :
    Emits ι pid (p.bind g) Q w := (wp_bind _ p g Q _ w).mpr h

variable {α : Type}

theorem emits_mono {p : NoticeProg α} {Q Q' : α → NoticeWorld → Prop} (h : Emits ι pid p Q w)
    (hQ : ∀ a w, Q a w → Q' a w) : Emits ι pid p Q' w :=
  wp_mono _ h hQ fun _ _ hX => hX

theorem emits_get {l : NoticeAccess} {f : NoticeWorld → α} {Q : α → NoticeWorld → Prop}
    (h : ∀ w', Sound pid w' → Moves pid w w' → Fresh l w' → Q (f w') w') :
    Emits ι pid (.get l f) Q w :=
  fun w' hw' hr ha => ⟨hw', grows_refl w', h w' hw' hr ha⟩

theorem emits_ofExcept {x : Except String α} {Q : α → NoticeWorld → Prop} (hw : Idle w)
    (h : ∀ a, x = .ok a → Q a w) : Emits ι pid (.ofExcept x) Q w :=
  wp_ofExcept _ h fun _ _ => hw

theorem emits_any {Q : Int → NoticeWorld → Prop} (h : ∀ now, Q now w) :
    Emits ι pid (.any Int) Q w := h

variable {Q : Unit → NoticeWorld → Prop}

theorem emits_set {f : NoticeWorld → NoticeWorld}
    (h : ∀ w', Sound pid w' → Moves pid w w' → Sound pid (f w') ∧ Grows w' (f w') ∧ Q () (f w')) :
    Emits ι pid (.set .other f) Q w := fun w' hw' hr _ => h w' hw' hr

theorem emits_attempt {f : NoticeWorld → Except String (Unit × NoticeWorld)}
    (h : ∀ w' w'', Sound pid w' → Moves pid w w' → f w' = .ok ((), w'') →
      Sound pid w'' ∧ Grows w' w'' ∧ Q () w'')
    (hX : ∀ w' e, Moves pid w w' → f w' = .error e → Idle w') :
    Emits ι pid (.attempt .other f) Q w := by
  intro w' hw' hr _
  unfold Prog.attemptStep
  split
  next u w'' hf =>
    obtain ⟨hsound, hgrows, hQ⟩ := h w' w'' hw' hr hf
    exact ⟨hsound, hgrows, hQ⟩
  next e hf => exact ⟨hw', grows_refl w', hX w' e hr hf⟩

theorem emits_appendEvent {e : NoticeEvent} {P : NoticeWorld → Prop}
    (hstable : ∀ w w', Moves pid w w' → P w → P w') (hw : P w) :
    Emits ι pid (appendEvent e) (fun _ w' => P w') w := by
  refine emits_set ?_
  intro w' hw' hr
  have hmoves := moves_events pid w' (w'.events ++ [e])
  exact ⟨sound_events hw' _, hmoves.toGrows, hstable _ _ hmoves (hstable _ _ hr hw)⟩

def Bumped (pid : String) (severity : Severity) : Option Notification → NoticeWorld → Prop
  | none, w => Quiet pid w
  | some n, w => Owed pid n severity w

variable {call : EmitCall}

theorem emits_bumpTarget {pointer : Stored Pointer} {prior : Stored NoticeRow} (hw : Sound pid w)
    (hidle : Idle w) (hpid : rules.dedupRecordId key = pid) (hactive : pointer.value.active = true)
    (hpointer : Seen w.pointers pid pointer)
    (hprior : head w.notices pointer.value.notificationId = some prior)
    (hpoint : Pointing pid w pointer.value.notificationId ∨
      Resolved w pointer.value.notificationId) :
    Emits ι pid (bumpTarget rules key call pointer prior) (Bumped pid call.severity) w := by
  subst hpid
  unfold bumpTarget
  split
  next hresolved =>
    refine emits_bind (emits_attempt ?_ fun w' _ hr _ => idle_moves hidle hr)
    intro w₁ w₂ hw₁ hr₁ hf
    obtain ⟨happend, hw₂⟩ := appendPointer_eq_ok hf
    obtain ⟨hhead, hpush⟩ := append_seen (seen_extends hpointer hr₁.pointers) happend
    obtain ⟨hsound, hmoves⟩ := sound_released hw₁ hhead hactive
      (hr₁.resolved _ ⟨prior, hprior, hresolved⟩)
    rw [hw₂, hpush]
    exact ⟨hsound, hmoves.toGrows, show Idle w₁ from idle_moves hidle hr₁,
      not_pointing_released w₁ _ _⟩
  next hopen =>
    have hnamed : prior.value.notice.notificationId = pointer.value.notificationId :=
      hw.named _ _ (head_mem hprior)
    refine emits_bind (emits_attempt ?_ fun w' _ hr _ => idle_moves hidle hr)
    intro w₁ w₂ hw₁ hr₁ hf
    obtain ⟨happend, hw₂⟩ := emitNotice_eq_ok hf
    change append w₁.notices prior.value.notice.notificationId _ _ = _ at happend
    change w₂ = { w₁ with
      notices := w₂.notices
      pending := some (prior.value.notice.notificationId, call.severity) } at hw₂
    rw [hnamed] at happend hw₂
    obtain ⟨hhead, hpush⟩ := append_seen (seen_extends (seen_head hprior) hr₁.notices) happend
    have hnot : ¬ Resolved w₁ pointer.value.notificationId := fun h =>
      not_resolved_unresolved h ⟨prior, hhead, hopen⟩
    rw [hpush] at hw₂
    rw [hw₂]
    refine ⟨sound_bumped hw₁ (idle_moves hidle hr₁) hhead hopen, grows_push hnot, ?_⟩
    -- the notification is not resolved yet, so the pointer still names it
    have hpointing := (moves_pointing hr₁ hpoint).resolve_right hnot
    have howed : Owed (rules.dedupRecordId key) (bumpRow prior.value call.severity).notice
        call.severity { w₁ with
          notices := push w₁.notices pointer.value.notificationId (bumpRow prior.value call.severity)
          pending := some (pointer.value.notificationId, call.severity) } := by
      have hid : (bumpRow prior.value call.severity).notice.notificationId =
          pointer.value.notificationId := hnamed
      refine ⟨by rw [hid], ?_, ?_, hopen⟩
      · rw [hid]
        simp
      · rw [hid]
        exact Or.inl hpointing
    refine emits_bind (emits_mono (emits_appendEvent (fun _ _ hm ho => owed_moves ho hm) howed) ?_)
    intro _ w₃ hw₃
    exact hw₃

theorem emits_bumpUnresolved (hidle : Idle w) (hpid : rules.dedupRecordId key = pid) :
    Emits ι pid (bumpUnresolved rules key call) (Bumped pid call.severity) w := by
  refine emits_bind (emits_get ?_)
  intro w₁ hw₁ hr₁ _
  rw [hpid]
  split
  next hnone =>
    refine ⟨idle_moves hidle hr₁, ?_⟩
    rintro id ⟨s, hs, -⟩
    cases hnone.symm.trans hs
  next pointer hpointer =>
    split
    next hactive =>
      have hpoint : Pointing pid w₁ pointer.value.notificationId := ⟨_, hpointer, hactive, rfl⟩
      refine emits_bind (emits_get ?_)
      intro w₂ hw₂ hr₂ _
      split
      next hnone =>
        exact absurd (head_eq_none.mp hnone) (stored_extends (hw₁.target _ hpoint) hr₂.notices)
      next prior hprior =>
        exact emits_bumpTarget hw₂ (idle_moves (idle_moves hidle hr₁) hr₂) hpid hactive
          (seen_extends (seen_head hpointer) hr₂.pointers) hprior
          (moves_pointing hr₂ (Or.inl hpoint))
    next hinactive =>
      refine ⟨idle_moves hidle hr₁, ?_⟩
      rintro id ⟨s, hs, hactive, -⟩
      obtain rfl := Option.some.inj (hpointer.symm.trans hs)
      exact hinactive hactive

structure Unpointed (pid : String) (n : Notification) (severity : Severity) (w : NoticeWorld) :
    Prop where
  pending : w.pending = some (n.notificationId, severity)
  stored : w.notices n.notificationId ≠ []
  pointer : ∀ id, ¬ Pointing pid w id

theorem unpointed_moves {n : Notification} {severity : Severity} {w w' : NoticeWorld}
    (hw : Moves pid w w') (h : Unpointed pid n severity w) : Unpointed pid n severity w' :=
  ⟨hw.pending.trans h.pending, stored_extends h.stored hw.notices, moves_not_pointing hw h.pointer⟩

theorem emits_pointDedup (h : Unpointed pid n severity w) (hstate : n.state ≠ .resolved)
    (hpid : rules.dedupRecordId key = pid) :
    Emits ι pid (pointDedup rules key n.notificationId) (fun _ w' => Owed pid n severity w') w := by
  refine emits_bind (emits_get ?_)
  intro w₁ hw₁ hr₁ _
  rw [hpid]
  have hw₁' := unpointed_moves hr₁ h
  refine emits_attempt ?_ ?_
  · intro w₂ w₃ hw₂ hr₂ hf
    have hw₂' := unpointed_moves hr₂ hw₁'
    obtain ⟨happend, hw₃⟩ := appendPointer_eq_ok hf
    obtain ⟨-, hpush⟩ := append_eq_some.mp happend
    rw [hw₃, hpush]
    refine ⟨sound_pointed hw₂ hw₂'.pending hw₂'.pointer hw₂'.stored,
      ⟨extends_refl _, push_extends _ _ _, fun _ hr => hr⟩, hw₂'.pending, hw₂'.stored, ?_, hstate⟩
    exact Or.inl ⟨_, head_push _ _ _, rfl, rfl⟩
  · -- no transition touches an inactive pointer, so the append meets the revision it names
    intro w₂ e hr₂ hf
    have hsame := moves_inactive hr₂ hw₁'.pointer
    have happend : append w₂.pointers pid ((head w₁.pointers pid).map Stored.revision)
        ⟨true, n.notificationId⟩ = some (push w₂.pointers pid ⟨true, n.notificationId⟩) :=
      append_eq_some.mpr ⟨by simp only [head, hsame], rfl⟩
    unfold appendPointer at hf
    rw [happend] at hf
    cases hf

variable {body : Body}

theorem makeNotice_eq_ok {id kind origin : String} {now : Int}
    (h : makeNotice call body id kind origin key now = .ok n) :
    n.notificationId = id ∧ n.severity = call.severity ∧ n.state = .unread := by
  unfold makeNotice at h
  split at h
  · obtain rfl := Except.ok.inj h
    exact ⟨rfl, rfl, rfl⟩
  · cases h

theorem emits_storeNotice (hw : Quiet pid w) (hseverity : n.severity = call.severity)
    (hstate : n.state = .unread) (hpid : rules.dedupRecordId key = pid) :
    Emits ι pid (storeNotice rules key call body n)
      (fun n' w' => Owed pid n' call.severity w') w := by
  refine emits_bind (emits_attempt ?_ fun w' _ hr _ => idle_moves hw.idle hr)
  intro w₁ w₂ hw₁ hr₁ hf
  have hquiet := quiet_moves hw hr₁
  obtain ⟨happend, hw₂⟩ := emitNotice_eq_ok hf
  obtain ⟨hfresh, hpush⟩ := append_first happend
  rw [hpush] at hw₂
  rw [hw₂]
  have hnot : ¬ Resolved w₁ n.notificationId := by
    rintro ⟨s, hs, -⟩
    cases (head_eq_none.mpr hfresh).symm.trans hs
  refine ⟨sound_created hw₁ hquiet.idle hquiet.pointer hfresh rfl rfl hseverity,
    grows_push hnot, ?_⟩
  have hunpointed : Unpointed pid n call.severity { w₁ with
      notices := push w₁.notices n.notificationId ⟨n, body.redacted, 1, body.payload⟩
      pending := some (n.notificationId, call.severity) } :=
    ⟨rfl, by simp, hquiet.pointer⟩
  refine emits_bind (emits_mono (emits_appendEvent (fun _ _ => unpointed_moves) hunpointed) ?_)
  intro _ w₃ hw₃
  refine emits_bind (emits_mono (emits_pointDedup hw₃ (by simp [hstate]) hpid) ?_)
  intro _ w₄ hw₄
  exact hw₄

theorem emits_createFresh {id kind origin : String} (hw : Quiet pid w)
    (hpid : rules.dedupRecordId key = pid) :
    Emits ι pid (createFresh rules key call body id kind origin)
      (fun n w' => Owed pid n call.severity w') w := by
  refine emits_bind (emits_any fun now => ?_)
  refine emits_bind (emits_ofExcept hw.idle ?_)
  intro n hn
  obtain ⟨-, hseverity, hstate⟩ := makeNotice_eq_ok hn
  exact emits_storeNotice hw hseverity hstate hpid

theorem emits_createNotice (hw : Quiet pid w) (hpid : rules.dedupRecordId key = pid) :
    Emits ι pid (createNotice rules key call body)
      (fun n w' => Owed pid n call.severity w') w := by
  refine emits_bind (emits_get ?_)
  intro w₁ _ hr₁ _
  refine emits_bind (emits_get ?_)
  intro w₂ _ hr₂ hfresh
  have hquiet := quiet_moves (quiet_moves hw hr₁) hr₂
  split
  next row hrow => cases (head_eq_none.mpr hfresh).symm.trans hrow
  next => exact emits_createFresh hquiet hpid

theorem emits_emit (hidle : Idle w) (hpid : rules.dedupRecordId key = pid) :
    Emits ι pid (emit rules key call) (fun _ w' => Idle w') w := by
  have hbody : Emits ι pid (emitBody rules key call)
      (fun n w' => Owed pid n call.severity w') w := by
    refine emits_bind (wp_require _ (fun _ => ?_) fun _ => hidle)
    refine emits_bind (emits_ofExcept hidle fun body _ => ?_)
    refine emits_bind (emits_mono (emits_bumpUnresolved hidle hpid) ?_)
    intro bumped w₁ hbumped
    cases bumped with
    | none => exact emits_createNotice hbumped hpid
    | some n => exact hbumped
  refine emits_bind (emits_mono hbody ?_)
  intro n w₁ howed
  refine emits_set ?_
  intro w₂ hw₂ hr₂
  have howed₂ := owed_moves howed hr₂
  exact ⟨sound_returned hw₂ howed₂.pending howed₂.state howed₂.stored howed₂.pointed,
    ⟨extends_refl _, extends_refl _, fun _ hr => hr⟩, rfl⟩

theorem emits_emitAll {calls : List EmitCall} (hidle : Idle w)
    (hpid : rules.dedupRecordId key = pid) :
    Emits ι pid (emitAll rules key calls) (fun _ w' => Idle w') w := by
  induction calls generalizing w with
  | nil => exact hidle
  | cons call rest ih =>
    refine emits_bind ((wp_toExcept _ _ _ _ _).mpr ?_)
    exact wp_mono _ (emits_emit hidle hpid) (fun _ _ => ih) fun _ _ => ih
end

structure TransitionCall where
  notificationId : String
  state : NoticeState
  actorId : String

def emptyWorld : NoticeWorld := ⟨fun _ => [], fun _ => [], [], [], none⟩

def noticePool {ι : Type} (rules : NoticeRules) (key : String) (calls : List EmitCall)
    (transitions : ι → TransitionCall) : Pool (Option ι) NoticeWorld NoticeAccess String Unit where
  thread
    | none => some (emitAll rules key calls)
    | some i => some (transition rules (transitions i).notificationId (transitions i).state
        (transitions i).actorId)
  world := emptyWorld

def returnedBy (w : NoticeWorld) (id : String) : List Severity :=
  (w.completed.filter fun r => r.notificationId = id).map Returned.severity

structure Deduplicated (w : NoticeWorld) : Prop where
  unique : ∀ id id', Unresolved w id → Unresolved w id' → id = id'
  counted : w.pending = none → ∀ id s, head w.notices id = some s →
    s.value.occurrenceCount = (returnedBy w id).length ∧
      s.value.notice.severity = highest (returnedBy w id)
  returned : ∀ r ∈ w.completed, r.state ≠ .resolved

theorem sound_empty (pid : String) : Sound pid emptyWorld where
  named _ _ h := by cases h
  shown id h := by
    obtain ⟨s, hs, -⟩ := h
    cases hs
  aimed _ _ h := by
    obtain ⟨severity, hs⟩ := h
    cases hs
  target id h := by
    obtain ⟨s, hs, -⟩ := h
    cases hs
  counted _ _ h := by cases h
  known _ h := by cases h
  returned _ h := by cases h

/-- Where emits of a key do not overlap, none is lost between storing and returning, and none
derives the id of a stored notification, the notifications of the key are deduplicated. -/
theorem notices_deduplicated {ι : Type} [DecidableEq ι] (calls : List EmitCall)
    (transitions : ι → TransitionCall)
    {c : Pool (Option ι) NoticeWorld NoticeAccess String Unit}
    (h : Pool.Reachable (fun _ => Fresh) (fun _ w => w)
      (noticePool rules key calls transitions) c) : Deduplicated c.world := by
  have hstart : Pool.Disciplined (fun i : Option ι => noticeRule (rules.dedupRecordId key) i)
      (Sound (rules.dedupRecordId key)) (noticePool rules key calls transitions) := by
    refine ⟨sound_empty _, ?_⟩
    rintro i p hp
    cases i with
    | none =>
      obtain rfl := Option.some.inj hp
      exact wp_mono _ (emits_emitAll rfl rfl) (fun _ _ _ => trivial) fun _ _ _ => trivial
    | some i =>
      obtain rfl := Option.some.inj hp
      exact ensures_transition _ _ _
  have hsound := (Pool.reachable_disciplined noticeRule_compatible hstart h).1
  refine ⟨fun _ _ => unresolved_unique hsound, ?_, hsound.returned⟩
  intro hpending id s hs
  have hcounted := hsound.counted id s hs
  simpa only [returnedBy, sources, hpending, List.nil_append] using hcounted

instance (l : NoticeAccess) (w : NoticeWorld) : Decidable (Fresh l w) :=
  match l with
  | .lookup id => decidable_of_iff ((w.notices id).isEmpty = true) List.isEmpty_iff
  | .other => inferInstanceAs (Decidable True)

def sampleRules : NoticeRules where
  enabled := true
  canonical := ⟨id, toString, fun _ _ => "", fun _ => ""⟩
  pyStr := fun _ => ""
  blocksProcessing := fun _ => false
  maxBytes := 16384
  dedupRecordId := id
  originId := fun _ sequence => "norigin_" ++ toString sequence
  noticeId := fun _ _ origin _ => "notice_" ++ origin

def sampleEmit (severity : Severity) : EmitCall :=
  ⟨"run_failed", severity, "run_demo", "operator", [], none, none⟩

def samplePool : Pool (Option Unit) NoticeWorld NoticeAccess String Unit :=
  noticePool sampleRules "run_failed:run_demo" [sampleEmit .low, sampleEmit .critical]
    fun _ => ⟨"notice_norigin_0", .resolved, "operator"⟩

def sampleRun : Pool (Option Unit) NoticeWorld NoticeAccess String Unit :=
  (samplePool.advance (fun _ l w => decide (Fresh l w)) none 30 [0, 0]).advance
    (fun _ l w => decide (Fresh l w)) (some ()) 30 [0]

theorem sampleRun_reachable :
    Pool.Reachable (fun _ => Fresh) (fun _ w => w) samplePool sampleRun := by
  have hok : ∀ (_ : Option Unit) l w, decide (Fresh l w) = true → Fresh l w :=
    fun _ _ _ h => of_decide_eq_true h
  exact (Pool.advance_reachable hok samplePool none 30 [0, 0]).trans
    (Pool.advance_reachable hok _ (some ()) 30 [0])

/-- Two emits, and then the notice is resolved. -/
theorem sample_deduplicated : Deduplicated sampleRun.world ∧
    returnedBy sampleRun.world "notice_norigin_0" = [.critical, .low] :=
  ⟨notices_deduplicated _ _ sampleRun_reachable, by decide +kernel⟩

def overlapPool : Pool Bool NoticeWorld NoticeAccess String Unit where
  thread _ := some (emit sampleRules "run_failed:run_demo" (sampleEmit .low))
  world := emptyWorld

def overlapRun : Pool Bool NoticeWorld NoticeAccess String Unit :=
  ((overlapPool.advance (fun _ _ _ => true) false 1 []).advance (fun _ _ _ => true) true 30
    [0]).advance (fun _ _ _ => true) false 30 [0]

def openNotice (w : NoticeWorld) (id : String) : Bool :=
  ((head w.notices id).map fun s => s.value.notice.state) == some .unread

theorem openNotice_unresolved {id : String} (h : openNotice w id = true) : Unresolved w id := by
  obtain ⟨s, hs, hstate⟩ := Option.map_eq_some_iff.mp (beq_iff_eq.mp h)
  exact ⟨s, hs, by simp [hstate]⟩

/-- Two emits look for the notice before either stores it. -/
theorem overlapping_emits : ∃ c : Pool Bool NoticeWorld NoticeAccess String Unit,
    Pool.Reachable (fun _ _ _ => True) (fun _ w => w) overlapPool c ∧
      ∃ id id', id ≠ id' ∧ Unresolved c.world id ∧ Unresolved c.world id' := by
  have hok : ∀ (_ : Bool) (_ : NoticeAccess) (_ : NoticeWorld), true = true → True :=
    fun _ _ _ _ => trivial
  have hopen : (openNotice overlapRun.world "notice_norigin_0" &&
      openNotice overlapRun.world "notice_norigin_1") = true := by decide +kernel
  rw [Bool.and_eq_true] at hopen
  refine ⟨overlapRun, ?_, "notice_norigin_0", "notice_norigin_1", by decide,
    openNotice_unresolved hopen.1, openNotice_unresolved hopen.2⟩
  exact ((Pool.advance_reachable hok overlapPool false 1 []).trans
    (Pool.advance_reachable hok _ true 30 [0])).trans (Pool.advance_reachable hok _ false 30 [0])

end RaytSystem.Notices
