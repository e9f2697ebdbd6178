import RaytSystem.NoticeModel
import RaytSystem.RelyGuarantee

/-! What keeps the notifications of one key apart: an unresolved one is what the active pointer
names, or what an emit is about to point to. -/
namespace RaytSystem.Notices
open Interleaving RecordTable
variable {rules : NoticeRules} {pid : String} {w w' w'' : NoticeWorld}

def Resolved (w : NoticeWorld) (id : String) : Prop :=
  ∃ s, head w.notices id = some s ∧ s.value.notice.state = .resolved

def Unresolved (w : NoticeWorld) (id : String) : Prop :=
  ∃ s, head w.notices id = some s ∧ s.value.notice.state ≠ .resolved

def Pointing (pid : String) (w : NoticeWorld) (id : String) : Prop :=
  ∃ s, head w.pointers pid = some s ∧ s.value.active = true ∧ s.value.notificationId = id

def Pending (w : NoticeWorld) (id : String) : Prop := ∃ severity, w.pending = some (id, severity)

def sources (w : NoticeWorld) (id : String) : List Severity :=
  (match w.pending with
    | some (id', severity) => if id' = id then [severity] else []
    | none => []) ++ (w.completed.filter fun r => r.notificationId = id).map Returned.severity

def highest (severities : List Severity) : Severity := severities.foldr maxSeverity .info

theorem not_resolved_unresolved {id : String} (h : Resolved w id) : ¬ Unresolved w id := by
  rintro ⟨s, hs, hstate⟩
  obtain ⟨s', hs', hstate'⟩ := h
  obtain rfl := Option.some.inj (hs.symm.trans hs')
  exact hstate hstate'

theorem maxSeverity_comm (a b : Severity) : maxSeverity a b = maxSeverity b a := by
  cases a <;> cases b <;> rfl

theorem highest_cons (severity : Severity) (severities : List Severity) :
    highest (severity :: severities) = maxSeverity (highest severities) severity := by
  rw [maxSeverity_comm]
  rfl

structure Sound (pid : String) (w : NoticeWorld) : Prop where
  named : ∀ id, ∀ row ∈ w.notices id, row.notice.notificationId = id
  shown : ∀ id, Unresolved w id → Pointing pid w id ∨ Pending w id
  aimed : ∀ id id', Pending w id → Pointing pid w id' → id' = id
  target : ∀ id, Pointing pid w id → w.notices id ≠ []
  counted : ∀ id s, head w.notices id = some s →
    s.value.occurrenceCount = (sources w id).length ∧
      s.value.notice.severity = highest (sources w id)
  known : ∀ r ∈ w.completed, w.notices r.notificationId ≠ []
  returned : ∀ r ∈ w.completed, r.state ≠ .resolved

theorem unresolved_unique (h : Sound pid w) {id id' : String} (hid : Unresolved w id)
    (hid' : Unresolved w id') : id = id' := by
  rcases h.shown id hid with hp | hp <;> rcases h.shown id' hid' with hp' | hp'
  · obtain ⟨s, hs, -, rfl⟩ := hp
    obtain ⟨s', hs', -, rfl⟩ := hp'
    obtain rfl := Option.some.inj (hs.symm.trans hs')
    rfl
  · exact h.aimed _ _ hp' hp
  · exact (h.aimed _ _ hp hp').symm
  · obtain ⟨severity, hs⟩ := hp
    obtain ⟨severity', hs'⟩ := hp'
    exact (Prod.mk.inj (Option.some.inj (hs.symm.trans hs'))).1

structure Grows (w w' : NoticeWorld) : Prop where
  notices : Extends w.notices w'.notices
  pointers : Extends w.pointers w'.pointers
  resolved : ∀ id, Resolved w id → Resolved w' id

structure Moves (pid : String) (w w' : NoticeWorld) : Prop extends Grows w w' where
  completed : w'.completed = w.completed
  pending : w'.pending = w.pending
  unresolved : ∀ id, Unresolved w' id → Unresolved w id
  pointer : w'.pointers pid = w.pointers pid ∨
    (∃ id, Pointing pid w id ∧ Resolved w' id) ∧ ∀ id, ¬ Pointing pid w' id

theorem grows_refl (w : NoticeWorld) : Grows w w := ⟨extends_refl _, extends_refl _, fun _ h => h⟩

theorem grows_trans (h : Grows w w') (h' : Grows w' w'') : Grows w w'' :=
  ⟨extends_trans h.notices h'.notices, extends_trans h.pointers h'.pointers,
    fun id hid => h'.resolved id (h.resolved id hid)⟩

theorem pointing_congr (h : w'.pointers pid = w.pointers pid) {id : String} :
    Pointing pid w' id ↔ Pointing pid w id := by
  simp only [Pointing, head, h]

theorem moves_refl (pid : String) (w : NoticeWorld) : Moves pid w w :=
  ⟨grows_refl w, rfl, rfl, fun _ h => h, Or.inl rfl⟩

theorem moves_trans (h : Moves pid w w') (h' : Moves pid w' w'') : Moves pid w w'' := by
  refine ⟨grows_trans h.toGrows h'.toGrows, h'.completed.trans h.completed,
    h'.pending.trans h.pending, fun id hid => h.unresolved id (h'.unresolved id hid), ?_⟩
  rcases h'.pointer with hsame' | ⟨⟨id, hid, hresolved⟩, hnone⟩
  · rcases h.pointer with hsame | ⟨⟨id, hid, hresolved⟩, hnone⟩
    · exact Or.inl (hsame'.trans hsame)
    · refine Or.inr ⟨⟨id, hid, h'.resolved id hresolved⟩, fun id' hid' => ?_⟩
      exact hnone id' ((pointing_congr hsame').mp hid')
  · rcases h.pointer with hsame | ⟨-, hnone'⟩
    · exact Or.inr ⟨⟨id, (pointing_congr hsame).mp hid, hresolved⟩, hnone⟩
    · exact absurd hid (hnone' id)

theorem moves_inactive (h : Moves pid w w') (hw : ∀ id, ¬ Pointing pid w id) :
    w'.pointers pid = w.pointers pid := by
  rcases h.pointer with hsame | ⟨⟨id, hid, -⟩, -⟩
  · exact hsame
  · exact absurd hid (hw id)

theorem moves_not_pointing (h : Moves pid w w') (hw : ∀ id, ¬ Pointing pid w id) :
    ∀ id, ¬ Pointing pid w' id := fun id hid =>
  hw id ((pointing_congr (moves_inactive h hw)).mp hid)

theorem moves_pointing {id : String} (h : Moves pid w w')
    (hw : Pointing pid w id ∨ Resolved w id) : Pointing pid w' id ∨ Resolved w' id := by
  rcases hw with hw | hw
  · rcases h.pointer with hsame | ⟨⟨id', hid', hresolved⟩, -⟩
    · exact Or.inl ((pointing_congr hsame).mpr hw)
    · obtain ⟨s, hs, -, rfl⟩ := hw
      obtain ⟨s', hs', -, rfl⟩ := hid'
      obtain rfl := Option.some.inj (hs.symm.trans hs')
      exact Or.inr hresolved
  · exact Or.inr (h.resolved id hw)

section

theorem head_push_iff {ρ : Type} {t : Table String ρ} {id id' : String} {row : ρ} {s : Stored ρ}
    (h : head (push t id row) id' = some s) :
    (id' = id ∧ s.value = row) ∨ (id' ≠ id ∧ head t id' = some s) := by
  by_cases hid : id' = id
  · subst hid
    rw [head_push] at h
    exact Or.inl ⟨rfl, (congrArg Stored.value (Option.some.inj h)).symm⟩
  · rw [head_push_other t row hid] at h
    exact Or.inr ⟨hid, h⟩

variable {row : NoticeRow} {pending : Option (String × Severity)}

theorem resolved_push {id : String} (hid : ¬ Resolved w id) {id' : String} (h : Resolved w id') :
    Resolved {w with notices := push w.notices id row, pending := pending} id' := by
  obtain ⟨s, hs, hstate⟩ := h
  have hne : id' ≠ id := by
    rintro rfl
    exact hid ⟨s, hs, hstate⟩
  exact ⟨s, (head_push_other _ _ hne).trans hs, hstate⟩

theorem grows_push {id : String} (hid : ¬ Resolved w id) :
    Grows w {w with notices := push w.notices id row, pending := pending} :=
  ⟨push_extends _ _ _, extends_refl _, fun _ h => resolved_push hid h⟩

theorem push_ne_nil {κ ρ : Type} [DecidableEq κ] {t : Table κ ρ} {k k' : κ} {r : ρ}
    (h : t k' ≠ []) : push t k r k' ≠ [] := fun hnil =>
  h (List.prefix_nil.mp (hnil ▸ push_extends t k r k'))

theorem sound_moved {id : String} {s : Stored NoticeRow} (row : NoticeRow) (h : Sound pid w)
    (hs : head w.notices id = some s) (hstate : s.value.notice.state ≠ .resolved)
    (hid : row.notice.notificationId = s.value.notice.notificationId)
    (hcount : row.occurrenceCount = s.value.occurrenceCount)
    (hseverity : row.notice.severity = s.value.notice.severity) :
    Sound pid {w with notices := push w.notices id row} ∧
      Moves pid w {w with notices := push w.notices id row} := by
  have hnot : ¬ Resolved w id := fun hr => not_resolved_unresolved hr ⟨s, hs, hstate⟩
  have hunresolved : ∀ id', Unresolved {w with notices := push w.notices id row} id' →
      Unresolved w id' := by
    rintro id' ⟨s', hs', hstate'⟩
    rcases head_push_iff hs' with ⟨rfl, -⟩ | ⟨-, hs'⟩
    · exact ⟨s, hs, hstate⟩
    · exact ⟨s', hs', hstate'⟩
  refine ⟨⟨?_, fun id' hid' => h.shown id' (hunresolved id' hid'), h.aimed,
    fun id' hid' => push_ne_nil (h.target id' hid'), ?_, fun r hr => push_ne_nil (h.known r hr),
    h.returned⟩, ⟨grows_push hnot, rfl, rfl, hunresolved, Or.inl rfl⟩⟩
  · intro id' row' hrow'
    rcases mem_push hrow' with hrow' | ⟨rfl, rfl⟩
    · exact h.named id' row' hrow'
    · exact hid.trans (h.named id' _ (head_mem hs))
  · intro id' s' hs'
    rcases head_push_iff hs' with ⟨rfl, hvalue⟩ | ⟨-, hs'⟩
    · rw [hvalue, hcount, hseverity]
      exact h.counted id' s hs
    · exact h.counted id' s' hs'

theorem not_pointing_released (w : NoticeWorld) (pid : String) (p : Pointer) (id : String) :
    ¬ Pointing pid {w with pointers := push w.pointers pid {p with active := false}} id := by
  rintro ⟨s, hs, hactive, -⟩
  rcases head_push_iff hs with ⟨-, hvalue⟩ | ⟨hne, -⟩
  · rw [hvalue] at hactive
    cases hactive
  · exact hne rfl

theorem sound_released {pid' : String} {s : Stored Pointer} (h : Sound pid w)
    (hs : head w.pointers pid' = some s) (hactive : s.value.active = true)
    (hresolved : Resolved w s.value.notificationId) :
    Sound pid {w with pointers := push w.pointers pid' {s.value with active := false}} ∧
      Moves pid w {w with pointers := push w.pointers pid' {s.value with active := false}} := by
  by_cases hp : pid' = pid
  · subst hp
    have hnone := not_pointing_released w pid' s.value
    have hpointing : Pointing pid' w s.value.notificationId := ⟨s, hs, hactive, rfl⟩
    refine ⟨⟨h.named, ?_, fun id id' _ hid' => absurd hid' (hnone id'),
      fun id hid => absurd hid (hnone id), h.counted, h.known, h.returned⟩,
      ⟨⟨extends_refl _, push_extends _ _ _, fun _ hr => hr⟩, rfl, rfl, fun _ hu => hu,
        Or.inr ⟨⟨_, hpointing, hresolved⟩, hnone⟩⟩⟩
    intro id hid
    rcases h.shown id hid with hpoint | hpend
    · -- the pointer names the resolved notification, so it names no unresolved one
      obtain ⟨s', hs', -, rfl⟩ := hpoint
      obtain rfl := Option.some.inj (hs.symm.trans hs')
      exact absurd hid (not_resolved_unresolved hresolved)
    · exact Or.inr hpend
  · have hsame : push w.pointers pid' {s.value with active := false} pid = w.pointers pid :=
      push_other _ _ (Ne.symm hp)
    have hiff : ∀ id, Pointing pid
        {w with pointers := push w.pointers pid' {s.value with active := false}} id ↔
        Pointing pid w id := fun id => pointing_congr hsame
    refine ⟨⟨h.named, fun id hid => (h.shown id hid).imp_left (hiff id).mpr,
      fun id id' hid hid' => h.aimed id id' hid ((hiff id').mp hid'),
      fun id hid => h.target id ((hiff id).mp hid), h.counted, h.known, h.returned⟩,
      ⟨⟨extends_refl _, push_extends _ _ _, fun _ hr => hr⟩, rfl, rfl, fun _ hu => hu,
        Or.inl hsame⟩⟩

variable {severity : Severity}

theorem sound_bumped {s : Stored NoticeRow} {id : String} (h : Sound pid w)
    (hpending : w.pending = none) (hs : head w.notices id = some s)
    (hstate : s.value.notice.state ≠ .resolved) : Sound pid {w with
      notices := push w.notices id (bumpRow s.value severity), pending := some (id, severity)} := by
  have hpointing : ∀ id', Unresolved w id' → Pointing pid w id' := by
    intro id' hid'
    rcases h.shown id' hid' with hp | ⟨severity', hp⟩
    · exact hp
    · cases hpending.symm.trans hp
  have htarget := hpointing id ⟨s, hs, hstate⟩
  refine ⟨?_, ?_, ?_, fun id' hid' => push_ne_nil (h.target id' hid'), ?_,
    fun r hr => push_ne_nil (h.known r hr), h.returned⟩
  · intro id' row' hrow'
    rcases mem_push hrow' with hrow' | ⟨rfl, rfl⟩
    · exact h.named id' row' hrow'
    · exact h.named id' s.value (head_mem hs)
  · rintro id' ⟨s', hs', hstate'⟩
    rcases head_push_iff hs' with ⟨rfl, -⟩ | ⟨-, hs'⟩
    · exact Or.inr ⟨severity, rfl⟩
    · exact Or.inl (hpointing id' ⟨s', hs', hstate'⟩)
  · rintro id₁ id₂ ⟨severity', hp⟩ hpoint
    obtain ⟨rfl, -⟩ := Prod.mk.inj (Option.some.inj hp)
    obtain ⟨s₁, hs₁, -, rfl⟩ := htarget
    obtain ⟨s₂, hs₂, -, rfl⟩ := hpoint
    obtain rfl := Option.some.inj (hs₁.symm.trans hs₂)
    rfl
  · intro id' s' hs'
    have hold : ∀ id, sources w id =
        (w.completed.filter fun r => r.notificationId = id).map Returned.severity := by
      intro id
      simp only [sources, hpending, List.nil_append]
    rcases head_push_iff hs' with ⟨rfl, hvalue⟩ | ⟨hne, hs'⟩
    · obtain ⟨hcount, hseverity⟩ := h.counted id' s hs
      rw [hold] at hcount hseverity
      rw [hvalue]
      simp only [sources, if_true, List.singleton_append, List.length_cons, highest_cons,
        bumpRow, hcount, hseverity]
      exact ⟨trivial, trivial⟩
    · have hcounted := h.counted id' s' hs'
      rw [hold] at hcounted
      simpa only [sources, if_neg (Ne.symm hne), List.nil_append] using hcounted

theorem sound_created {id : String} (h : Sound pid w) (hpending : w.pending = none)
    (hpointer : ∀ id, ¬ Pointing pid w id) (hfresh : w.notices id = [])
    (hid : row.notice.notificationId = id) (hcount : row.occurrenceCount = 1)
    (hseverity : row.notice.severity = severity) :
    Sound pid {w with notices := push w.notices id row, pending := some (id, severity)} := by
  have hnone : ∀ id', ¬ Unresolved w id' := by
    intro id' hid'
    rcases h.shown id' hid' with hp | ⟨severity', hp⟩
    · exact hpointer id' hp
    · cases hpending.symm.trans hp
  have hold : ∀ id, sources w id =
      (w.completed.filter fun r => r.notificationId = id).map Returned.severity := by
    intro id
    simp only [sources, hpending, List.nil_append]
  refine ⟨?_, ?_, fun id₁ id₂ _ hpoint => absurd hpoint (hpointer id₂),
    fun id' hid' => absurd hid' (hpointer id'), ?_, fun r hr => push_ne_nil (h.known r hr),
    h.returned⟩
  · intro id' row' hrow'
    rcases mem_push hrow' with hrow' | ⟨rfl, rfl⟩
    · exact h.named id' row' hrow'
    · exact hid
  · rintro id' ⟨s', hs', hstate'⟩
    rcases head_push_iff hs' with ⟨rfl, -⟩ | ⟨-, hs'⟩
    · exact Or.inr ⟨severity, rfl⟩
    · exact absurd ⟨s', hs', hstate'⟩ (hnone id')
  · intro id' s' hs'
    rcases head_push_iff hs' with ⟨rfl, hvalue⟩ | ⟨hne, hs'⟩
    · -- no completed emit can have returned an id that was not stored
      have hnil : (w.completed.filter fun r => r.notificationId = id') = [] := by
        rw [List.filter_eq_nil_iff]
        intro r hr hrid
        rw [decide_eq_true_eq] at hrid
        exact h.known r hr (hrid ▸ hfresh)
      rw [hvalue, hcount, hseverity]
      simp only [sources, if_true, hnil, List.map_nil, List.append_nil, List.length_singleton]
      exact ⟨trivial, by cases severity <;> rfl⟩
    · have hcounted := h.counted id' s' hs'
      rw [hold] at hcounted
      simpa only [sources, if_neg (Ne.symm hne), List.nil_append] using hcounted

theorem sound_pointed {id : String} (h : Sound pid w) (hpending : w.pending = some (id, severity))
    (hpointer : ∀ id, ¬ Pointing pid w id) (hid : w.notices id ≠ []) :
    Sound pid {w with pointers := push w.pointers pid ⟨true, id⟩} := by
  have hpoint : ∀ id', Pointing pid {w with pointers := push w.pointers pid ⟨true, id⟩} id' →
      id' = id := by
    rintro id' ⟨s, hs, -, rfl⟩
    rcases head_push_iff hs with ⟨-, hvalue⟩ | ⟨hne, -⟩
    · rw [hvalue]
    · exact absurd rfl hne
  refine ⟨h.named, ?_, ?_, ?_, h.counted, h.known, h.returned⟩
  · intro id' hid'
    rcases h.shown id' hid' with hp | hp
    · exact absurd hp (hpointer id')
    · exact Or.inr hp
  · rintro id₁ id₂ ⟨severity', hp⟩ hp'
    obtain ⟨rfl, -⟩ := Prod.mk.inj (Option.some.inj (hpending.symm.trans hp))
    exact hpoint id₂ hp'
  · intro id' hid'
    rw [hpoint id' hid']
    exact hid

theorem sound_returned {id : String} {state : NoticeState} (h : Sound pid w)
    (hpending : w.pending = some (id, severity)) (hstate : state ≠ .resolved)
    (hid : w.notices id ≠ []) (hpoint : Pointing pid w id ∨ Resolved w id) :
    Sound pid {w with completed := ⟨id, severity, state⟩ :: w.completed, pending := none} := by
  refine ⟨h.named, ?_, ?_, h.target, ?_, ?_, ?_⟩
  · intro id' hid'
    rcases h.shown id' hid' with hp | ⟨severity', hp⟩
    · exact Or.inl hp
    · obtain ⟨rfl, -⟩ := Prod.mk.inj (Option.some.inj (hpending.symm.trans hp))
      rcases hpoint with hp | hr
      · exact Or.inl hp
      · exact absurd hid' (not_resolved_unresolved hr)
  · rintro id₁ id₂ ⟨severity', hp⟩
    cases hp
  · intro id' s hs
    have hcounted := h.counted id' s hs
    have hsources : sources {w with
        completed := ⟨id, severity, state⟩ :: w.completed, pending := none} id' = sources w id' := by
      simp only [sources, hpending, List.nil_append, List.filter_cons, decide_eq_true_eq]
      split <;> rfl
    rw [hsources]
    exact hcounted
  · intro r hr
    rcases List.mem_cons.mp hr with rfl | hr
    · exact hid
    · exact h.known r hr
  · intro r hr
    rcases List.mem_cons.mp hr with rfl | hr
    · exact hstate
    · exact h.returned r hr
end
end RaytSystem.Notices
