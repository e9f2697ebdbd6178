import Mathlib
import RaytSystem.WorkspaceReducer

/-! Unsaved text in the document workspace: which actions keep it, step by step and over runs
in which a save is answered after any number of further edits. -/
namespace RaytSystem.Workspace
open List

structure EditedWorkspace where
  state : DocumentWorkspaceState
  latest : String → Option String

variable (w : EditedWorkspace)

def latestEdit : WorkspaceAction → String → Option String
  | .draft documentId content _ =>
    if (w.state.drafts documentId).isSome then Function.update w.latest documentId (some content)
    else w.latest
  | .load detail =>
    if (w.state.drafts detail.documentId).any (·.dirty) then w.latest
    else Function.update w.latest detail.documentId none
  | .hydrate _ => fun _ => none
  | .close documentId force => fun d =>
    if ((reduceClose w.state documentId force).drafts d).isSome then w.latest d else none
  | .closeOthers documentId force => fun d =>
    if ((reduceCloseOthers w.state documentId force).drafts d).isSome then w.latest d else none
  | _ => w.latest

variable (a : WorkspaceAction)

def EditedWorkspace.next : EditedWorkspace :=
  ⟨documentWorkspaceReducer w.state a, latestEdit w a⟩

def AskedFor (d : String) : Prop :=
  match a with
  | .draft documentId _ _ => documentId = d
  | .close documentId force => documentId = d ∧ force = true
  | .closeOthers documentId force => documentId ≠ d ∧ force = true
  | _ => False

def KeepsDirty : Prop :=
  ∀ d draft, w.state.drafts d = some draft → draft.dirty = true → ¬AskedFor a d →
    ∃ draft', (w.next a).state.drafts d = some draft' ∧ draft'.content = draft.content

def KeepsSaved : Prop :=
  ∀ d content sha256 snapshotId, a = .saved d content sha256 snapshotId →
    ∀ draft, w.state.drafts d = some draft →
      ∃ draft', (w.next a).state.drafts d = some draft' ∧
        (∀ edit, w.latest d = some edit → draft'.content = edit) ∧
        (draft'.dirty = true ↔ draft'.content ≠ content)

def KeepsEdits : Prop :=
  KeepsDirty w a ∧ KeepsSaved w a

variable (state : DocumentWorkspaceState)

def ClosesClean (documentId : String) : Prop :=
  ∀ tab, state.tabs.find? (·.documentId == documentId) = some tab → tab.dirty = false →
    ∀ draft, state.drafts documentId = some draft → draft.dirty = false

def ClosesOthersClean (documentId : String) : Prop :=
  state.tabs.any (·.documentId == documentId) = true →
    (othersOf state documentId).any (·.dirty) = false →
      ∀ tab ∈ othersOf state documentId, ∀ draft,
        state.drafts tab.documentId = some draft → draft.dirty = false

def Expected : WorkspaceAction → Prop
  | .saved d content _ _ => ∀ draft, w.state.drafts d = some draft →
      (draft.dirty = true → content = draft.content) ∧
        ∀ edit, w.latest d = some edit → content = edit
  | .close d force => force = true ∨ ClosesClean w.state d
  | .closeOthers d force => force = true ∨ ClosesOthersClean w.state d
  | .hydrate state => ∀ d draft, w.state.drafts d = some draft → draft.dirty = true →
      ∃ draft', state.drafts d = some draft' ∧ draft'.content = draft.content
  | _ => True

section
variable {w : EditedWorkspace}

theorem keepsDirty_of_eq {a : WorkspaceAction}
    (h : ∀ d, ¬AskedFor a d → (w.next a).state.drafts d = w.state.drafts d) : KeepsDirty w a :=
  fun d draft hd _ hasked => ⟨draft, (h d hasked).trans hd, rfl⟩

theorem keepsSaved_of_ne {a : WorkspaceAction}
    (h : ∀ d content sha256 snapshotId, a ≠ .saved d content sha256 snapshotId) : KeepsSaved w a :=
  fun d content sha256 snapshotId ha => absurd ha (h d content sha256 snapshotId)

theorem keeps_load (detail : DocumentDetail) : KeepsDirty w (.load detail) := by
  intro d draft hd hdirty _
  by_cases hdoc : d = detail.documentId
  · subst hdoc
    exact drafts_load_dirty w.state detail hd hdirty
  · exact ⟨draft, (drafts_load_other w.state detail hdoc).trans hd, rfl⟩

variable {drafts : String → Option DocumentDraft} {documentIds : List String} {d : String}

theorem dropDrafts_other (h : d ∉ documentIds) :
    dropDrafts drafts documentIds d = drafts d := if_neg h

theorem dropDrafts_mem (h : d ∈ documentIds) : dropDrafts drafts documentIds d = none := if_pos h

theorem not_mem_othersOf {state : DocumentWorkspaceState} {documentId : String} :
    documentId ∉ (othersOf state documentId).map DocumentTabState.documentId := by
  intro hmem
  obtain ⟨tab, htab, hid⟩ := mem_map.mp hmem
  have hne : tab.documentId ≠ documentId := by
    have hkept := (mem_filter.mp htab).2
    simp only [ne_eq, decide_not, Bool.and_eq_true, Bool.not_eq_true', decide_eq_false_iff_not]
      at hkept
    exact hkept.1
  exact hne hid

theorem drafts_close_dirty
    (h : ∀ tab, w.state.tabs.find? (·.documentId == d) = some tab → tab.dirty = true) :
    (reduceClose w.state d false).drafts = w.state.drafts := by
  unfold reduceClose
  split
  · rfl
  next closing hclosing => rw [if_pos ⟨h closing hclosing, rfl⟩]

theorem drafts_close_clean {tab : DocumentTabState}
    (h : w.state.tabs.find? (·.documentId == d) = some tab) (hclean : tab.dirty = false) :
    (reduceClose w.state d false).drafts = dropDrafts w.state.drafts [d] := by
  unfold reduceClose
  rw [h]
  dsimp only
  rw [if_neg (by simp [hclean])]

theorem keeps_close_iff {force : Bool} :
    KeepsDirty w (.close d force) ↔ force = true ∨ ClosesClean w.state d := by
  cases force with
  | true =>
    simp only [true_or, iff_true]
    apply keepsDirty_of_eq
    intro d' hasked
    have hne : d' ≠ d := fun he => hasked ⟨he.symm, rfl⟩
    rcases drafts_close w.state d true with he | he
    · exact congrFun he d'
    · exact (congrFun he d').trans (dropDrafts_other (by simpa using hne))
  | false =>
    simp only [Bool.false_eq_true, false_or]
    constructor
    · intro h tab htab hclean draft hd
      by_contra hdirty
      obtain ⟨draft', hd', _⟩ := h d draft hd (by simpa using hdirty) fun hasked => by
        simp [AskedFor] at hasked
      have hdropped : (reduceClose w.state d false).drafts d = none := by
        rw [drafts_close_clean htab hclean]
        exact dropDrafts_mem mem_cons_self
      exact absurd (hdropped.symm.trans hd') (by simp)
    · intro h d' draft hd hdirty _
      by_cases hne : d' = d
      · subst hne
        have hmarked : ∀ tab, w.state.tabs.find? (·.documentId == d') = some tab →
            tab.dirty = true := by
          intro tab htab
          by_contra hclean
          rw [h tab htab (by simpa using hclean) draft hd] at hdirty
          cases hdirty
        exact ⟨draft, (congrFun (drafts_close_dirty hmarked) d').trans hd, rfl⟩
      · rcases drafts_close w.state d false with he | he
        · exact ⟨draft, (congrFun he d').trans hd, rfl⟩
        · have hother : dropDrafts w.state.drafts [d] d' = w.state.drafts d' :=
            dropDrafts_other (by simpa using hne)
          exact ⟨draft, (congrFun he d').trans (hother.trans hd), rfl⟩

theorem drafts_closeOthers_dirty
    (h : w.state.tabs.any (·.documentId == d) = true → (othersOf w.state d).any (·.dirty) = true) :
    (reduceCloseOthers w.state d false).drafts = w.state.drafts := by
  unfold reduceCloseOthers
  dsimp only
  split
  · rfl
  next hkeep => rw [if_pos ⟨rfl, h (by simpa using hkeep)⟩]

theorem drafts_closeOthers_clean (hkeep : w.state.tabs.any (·.documentId == d) = true)
    (hclean : (othersOf w.state d).any (·.dirty) = false) :
    (reduceCloseOthers w.state d false).drafts =
      dropDrafts w.state.drafts ((othersOf w.state d).map DocumentTabState.documentId) := by
  unfold reduceCloseOthers
  dsimp only
  rw [if_neg (by simp [hkeep]), if_neg (by simp [hclean])]

theorem keeps_closeOthers_iff {force : Bool} :
    KeepsDirty w (.closeOthers d force) ↔ force = true ∨ ClosesOthersClean w.state d := by
  cases force with
  | true =>
    simp only [true_or, iff_true]
    apply keepsDirty_of_eq
    intro d' hasked
    have he : d' = d := by
      by_contra hne
      exact hasked ⟨fun he => hne he.symm, rfl⟩
    subst he
    rcases drafts_closeOthers w.state d' true with he | he
    · exact congrFun he d'
    · exact (congrFun he d').trans (dropDrafts_other not_mem_othersOf)
  | false =>
    simp only [Bool.false_eq_true, false_or]
    constructor
    · intro h hkeep hclean tab htab draft hd
      by_contra hdirty
      obtain ⟨draft', hd', _⟩ := h tab.documentId draft hd (by simpa using hdirty) fun hasked => by
        simp [AskedFor] at hasked
      have hdropped : (reduceCloseOthers w.state d false).drafts tab.documentId = none := by
        rw [drafts_closeOthers_clean hkeep hclean]
        exact dropDrafts_mem (mem_map_of_mem htab)
      exact absurd (hdropped.symm.trans hd') (by simp)
    · intro h d' draft hd hdirty _
      by_cases hmem : d' ∈ (othersOf w.state d).map DocumentTabState.documentId
      · obtain ⟨tab, htab, rfl⟩ := mem_map.mp hmem
        have hmarked : w.state.tabs.any (·.documentId == d) = true →
            (othersOf w.state d).any (·.dirty) = true := by
          intro hkeep
          by_contra hclean
          rw [h hkeep (by simpa using hclean) tab htab draft hd] at hdirty
          cases hdirty
        exact ⟨draft, (congrFun (drafts_closeOthers_dirty hmarked) _).trans hd, rfl⟩
      · rcases drafts_closeOthers w.state d false with he | he
        · exact ⟨draft, (congrFun he d').trans hd, rfl⟩
        · exact ⟨draft, (congrFun he d').trans ((dropDrafts_other hmem).trans hd), rfl⟩

theorem keeps_saved_iff {d content sha256 snapshotId : String} :
    KeepsEdits w (.saved d content sha256 snapshotId) ↔
      ∀ draft, w.state.drafts d = some draft →
        (draft.dirty = true → content = draft.content) ∧
          ∀ edit, w.latest d = some edit → content = edit := by
  constructor
  · rintro ⟨hkept, hsaved⟩ draft hd
    have hnext : (reduceSaved w.state d content sha256 snapshotId).drafts d =
        some (savedDraft draft content sha256 snapshotId) := drafts_saved w.state hd
    constructor
    · intro hdirty
      obtain ⟨draft', hd', hcontent⟩ := hkept d draft hd hdirty fun hasked => hasked
      obtain rfl := Option.some.inj (hnext.symm.trans hd')
      exact hcontent
    · intro edit hedit
      obtain ⟨draft', hd', hlatest, _⟩ := hsaved d content sha256 snapshotId rfl draft hd
      obtain rfl := Option.some.inj (hnext.symm.trans hd')
      exact hlatest edit hedit
  · intro h
    constructor
    · intro d' draft hd hdirty _
      by_cases hne : d' = d
      · subst hne
        exact ⟨_, drafts_saved w.state hd, (h draft hd).1 hdirty⟩
      · exact ⟨draft, (drafts_saved_other w.state hne).trans hd, rfl⟩
    · intro d' content' sha256' snapshotId' ha draft hd
      cases ha
      exact ⟨_, drafts_saved w.state hd, (h draft hd).2, by simp [savedDraft]⟩
end

theorem keepsEdits_iff : KeepsEdits w a ↔ Expected w a := by
  have hframe : ∀ b : WorkspaceAction, (∀ d, (w.next b).state.drafts d = w.state.drafts d) →
      (∀ d content sha256 snapshotId, b ≠ .saved d content sha256 snapshotId) →
      (KeepsEdits w b ↔ True) :=
    fun b hdrafts hne =>
      iff_true_intro ⟨keepsDirty_of_eq fun d _ => hdrafts d, keepsSaved_of_ne hne⟩
  cases a with
  | hydrate state =>
    have hsaved : KeepsSaved w (.hydrate state) := keepsSaved_of_ne nofun
    simp only [KeepsEdits, hsaved, and_true, Expected]
    exact ⟨fun h d draft hd hdirty => h d draft hd hdirty fun hasked => hasked,
      fun h d draft hd hdirty _ => h d draft hd hdirty⟩
  | openTab tab => exact hframe _ (fun _ => rfl) nofun
  | activate d =>
    exact hframe _ (fun d' => congrFun (drafts_activate w.state d) d') nofun
  | close d force =>
    have hsaved : KeepsSaved w (.close d force) := keepsSaved_of_ne nofun
    simp only [KeepsEdits, hsaved, and_true, Expected]
    exact keeps_close_iff
  | closeOthers d force =>
    have hsaved : KeepsSaved w (.closeOthers d force) := keepsSaved_of_ne nofun
    simp only [KeepsEdits, hsaved, and_true, Expected]
    exact keeps_closeOthers_iff
  | reopen => exact hframe _ (fun d => congrFun (drafts_reopen w.state) d) nofun
  | pin d pinned => exact hframe _ (fun _ => rfl) nofun
  | mode d mode => exact hframe _ (fun _ => rfl) nofun
  | load detail => exact iff_true_intro ⟨keeps_load detail, keepsSaved_of_ne nofun⟩
  | draft d content warnings =>
    apply iff_true_intro
    constructor
    · apply keepsDirty_of_eq
      intro d' hasked
      have hne : d' ≠ d := fun he => hasked he.symm
      exact drafts_draft_other w.state hne
    · exact keepsSaved_of_ne nofun
  | saved d content sha256 snapshotId => exact keeps_saved_iff
  | title d title => exact hframe _ (fun _ => rfl) nofun
  | view view => exact hframe _ (fun _ => rfl) nofun
  | inspector inspectorSection => exact hframe _ (fun _ => rfl) nofun
  | drawer drawer => exact hframe _ (fun _ => rfl) nofun

def Along (P : EditedWorkspace → WorkspaceAction → Prop) :
    EditedWorkspace → List WorkspaceAction → Prop
  | _, [] => True
  | w, a :: rest => P w a ∧ Along P (w.next a) rest

/-- A run keeps every unsaved edit exactly when each of its actions finds the workspace as it
expects it. -/
theorem run_keepsEdits_iff (w : EditedWorkspace) (actions : List WorkspaceAction) :
    Along KeepsEdits w actions ↔ Along Expected w actions := by
  induction actions generalizing w with
  | nil => exact Iff.rfl
  | cons a rest ih => simp only [Along, keepsEdits_iff, ih]

def noteDetail : DocumentDetail :=
  ⟨"doc_a", "Note", "note.md", "internal", true, some "base", true, "sha-base", "snap-1", []⟩

def noteTab : DocumentTabState := ⟨"doc_a", "Note", .source, false, false, false⟩

def lateAnswer : List WorkspaceAction :=
  [.openTab noteTab, .load noteDetail, .draft "doc_a" "first" none,
    .draft "doc_a" "second" none, .saved "doc_a" "first" "sha-first" "snap-2"]

def freshWorkspace : EditedWorkspace := ⟨initialDocumentWorkspaceState, fun _ => none⟩

/-- An answer to an earlier save arrives after a later edit. -/
theorem late_answer_loses_edit :
    ¬Along KeepsEdits freshWorkspace lateAnswer ∧
      ((lateAnswer.foldl EditedWorkspace.next freshWorkspace).state.drafts "doc_a").map
        DocumentDraft.content = some "first" := by
  refine ⟨?_, by decide⟩
  rintro ⟨_, _, _, _, hsaved, _⟩
  obtain ⟨draft, hdraft, hlatest, _⟩ := hsaved.2 "doc_a" "first" "sha-first" "snap-2" rfl _ rfl
  have hcontent : draft.content = "second" := hlatest "second" rfl
  obtain rfl := Option.some.inj hdraft
  exact absurd hcontent (by decide)

abbrev tabIds (tabs : List DocumentTabState) : List String :=
  tabs.map DocumentTabState.documentId

def Drafted (documentId : String) (draft : DocumentDraft) : Prop :=
  draft.documentId = documentId ∧ (draft.dirty = true ↔ draft.content ≠ draft.baseContent)

def ActiveAmong (ids : List String) : Option String → Prop
  | none => ids = []
  | some d => d ∈ ids

structure Whole (state : DocumentWorkspaceState) : Prop where
  distinct : (tabIds state.tabs).Nodup
  active : ActiveAmong (tabIds state.tabs) state.activeDocumentId
  closed : state.recentlyClosed.length ≤ maxRecentlyClosed
  drafts : ∀ d draft, state.drafts d = some draft → Drafted d draft

variable {state : DocumentWorkspaceState} {tabs : List DocumentTabState} {d : String}

theorem mem_tabIds : tabs.any (·.documentId == d) = true ↔ d ∈ tabIds tabs := by
  simp only [any_eq_true, beq_iff_eq, mem_map]

theorem tabIds_updateTab (documentId : String) {update : DocumentTabState → DocumentTabState}
    (h : ∀ tab, (update tab).documentId = tab.documentId) :
    tabIds (updateTab tabs documentId update) = tabIds tabs := by
  rw [tabIds, updateTab, map_map]
  apply map_congr_left
  intro tab _
  dsimp only [Function.comp_apply]
  split
  · exact h tab
  · rfl

theorem mem_filterIds {p : DocumentTabState → Bool} (hd : d ∈ tabIds tabs)
    (hp : ∀ tab, tab.documentId = d → p tab = true) : d ∈ tabIds (tabs.filter p) := by
  obtain ⟨tab, htab, rfl⟩ := mem_map.mp hd
  exact mem_map_of_mem (mem_filter.mpr ⟨htab, hp tab rfl⟩)

theorem nodup_filterIds {p : DocumentTabState → Bool} (h : (tabIds tabs).Nodup) :
    (tabIds (tabs.filter p)).Nodup := h.sublist (filter_sublist.map _)

theorem nodup_snocIds (h : (tabIds tabs).Nodup) {tab : DocumentTabState}
    (hnew : tab.documentId ∉ tabIds tabs) : (tabIds (tabs ++ [tab])).Nodup := by
  rw [tabIds, map_append, map_singleton]
  exact nodup_append_comm.mpr (nodup_cons.mpr ⟨hnew, h⟩)

theorem Whole.retab (h : Whole state) {documentId : String}
    {update : DocumentTabState → DocumentTabState}
    (hid : ∀ tab, (update tab).documentId = tab.documentId) :
    Whole {state with tabs := updateTab state.tabs documentId update} :=
  ⟨(tabIds_updateTab documentId hid).symm ▸ h.distinct,
    (tabIds_updateTab documentId hid).symm ▸ h.active, h.closed, h.drafts⟩

theorem Whole.put (h : Whole state) {documentId : String} {draft : DocumentDraft}
    (hdraft : Drafted documentId draft) :
    Whole {state with drafts := Function.update state.drafts documentId (some draft)} := by
  refine ⟨h.distinct, h.active, h.closed, fun d x hput => ?_⟩
  have hx : Function.update state.drafts documentId (some draft) d = some x := hput
  by_cases hd : d = documentId
  · subst hd
    rw [Function.update_self] at hx
    exact Option.some.inj hx ▸ hdraft
  · rw [Function.update_of_ne hd] at hx
    exact h.drafts d x hx

theorem whole_open (h : Whole state) (tab : DocumentTabState) : Whole (reduceOpen state tab) := by
  unfold reduceOpen
  dsimp only
  split
  next hknown =>
    rw [mem_tabIds] at hknown
    refine ⟨?_, ?_, h.closed, h.drafts⟩
    · rw [tabIds_updateTab]
      · exact h.distinct
      · exact fun _ => rfl
    · rw [tabIds_updateTab]
      · exact hknown
      · exact fun _ => rfl
  next hnew =>
    rw [mem_tabIds] at hnew
    exact ⟨nodup_snocIds h.distinct hnew, by simp [ActiveAmong], h.closed, h.drafts⟩

theorem nextActive_among (hdistinct : (tabIds tabs).Nodup) {index : Nat}
    (hindex : index < tabs.length) (hid : tabs[index].documentId = d) :
    ActiveAmong (tabIds (tabs.filter (·.documentId ≠ d))) (nextActiveAfterClose tabs index) := by
  have hkept : ∀ j (hj : j < tabs.length), j ≠ index →
      tabs[j].documentId ∈ tabIds (tabs.filter (·.documentId ≠ d)) := by
    intro j hj hne
    refine mem_map_of_mem (mem_filter.mpr ⟨getElem_mem hj, ?_⟩)
    have hinj := nodup_iff_injective_getElem.mp hdistinct
    have hids := mt (@hinj ⟨j, by simpa using hj⟩ ⟨index, by simpa using hindex⟩) (by simpa using hne)
    simpa [hid] using hids
  unfold nextActiveAfterClose
  by_cases hafter : index + 1 < tabs.length
  · rw [getElem?_eq_getElem hafter]
    exact hkept (index + 1) hafter (by omega)
  · by_cases hfirst : index = 0
    · subst hfirst
      obtain ⟨tab, rfl⟩ := length_eq_one_iff.mp (by omega : tabs.length = 1)
      simpa [ActiveAmong] using hid
    · have hbefore : index - 1 < tabs.length := by omega
      rw [if_neg hfirst, getElem?_eq_none (Nat.le_of_not_lt hafter),
        getElem?_eq_getElem hbefore]
      exact hkept (index - 1) hbefore (by omega)

theorem dropDrafts_some {drafts : String → Option DocumentDraft} {documentIds : List String}
    {draft : DocumentDraft} (h : dropDrafts drafts documentIds d = some draft) :
    drafts d = some draft := by
  unfold dropDrafts at h
  split at h
  · cases h
  · exact h

theorem whole_close (h : Whole state) (documentId : String) (force : Bool) :
    Whole (reduceClose state documentId force) := by
  unfold reduceClose
  split
  · exact h
  next closing hfound =>
    split
    · exact h
    · have hindex := findIdx_lt_length_of_exists
        ⟨closing, mem_of_find?_eq_some hfound, find?_some hfound⟩
      have hid := eq_of_beq (findIdx_getElem (w := hindex))
      refine ⟨nodup_filterIds h.distinct, ?_, length_take_le _ _,
        fun d draft hd => h.drafts d draft (dropDrafts_some hd)⟩
      dsimp only
      split
      · exact nextActive_among h.distinct hindex hid
      next hother =>
        have hopen := h.active
        cases hactive : state.activeDocumentId with
        | none =>
          rw [hactive] at hopen
          simp [ActiveAmong, map_eq_nil_iff.mp hopen]
        | some d =>
          rw [hactive] at hopen hother
          refine mem_filterIds hopen fun tab htab => ?_
          simpa [htab] using hother

theorem whole_closeOthers (h : Whole state) (documentId : String) (force : Bool) :
    Whole (reduceCloseOthers state documentId force) := by
  unfold reduceCloseOthers
  dsimp only
  split
  · exact h
  next hopen =>
    split
    · exact h
    · rw [Bool.not_eq_false, mem_tabIds] at hopen
      exact ⟨nodup_filterIds h.distinct, mem_filterIds hopen fun tab htab => by simp [htab],
        length_take_le _ _, fun d draft hd => h.drafts d draft (dropDrafts_some hd)⟩

theorem whole_reopen (h : Whole state) : Whole (reduceReopen state) := by
  unfold reduceReopen
  split
  · exact h
  next tab rest hrecent =>
    have hclosed : rest.length ≤ maxRecentlyClosed := by
      have hlength := h.closed
      rw [hrecent, length_cons] at hlength
      omega
    split
    next hknown => exact ⟨h.distinct, mem_tabIds.mp hknown, hclosed, h.drafts⟩
    next hnew =>
      rw [mem_tabIds] at hnew
      exact ⟨nodup_snocIds h.distinct hnew, by simp [ActiveAmong], hclosed, h.drafts⟩


theorem whole_load (h : Whole state) (detail : DocumentDetail) : Whole (reduceLoad state detail) := by
  refine (h.put ?_).retab fun _ => rfl
  unfold loadedDraft
  dsimp only
  split
  · exact ⟨rfl, by simp⟩
  next restored hrestored =>
    split
    · exact ⟨rfl, by simp⟩
    · exact h.drafts _ restored hrestored

theorem whole_draft (h : Whole state) (documentId content : String)
    (warnings : Option (List String)) : Whole (reduceDraft state documentId content warnings) := by
  unfold reduceDraft
  split
  · exact h
  next current hcurrent =>
    refine (h.put ?_).retab fun _ => rfl
    exact ⟨(h.drafts _ current hcurrent).1, decide_eq_true_iff⟩

theorem whole_saved (h : Whole state) (documentId content sha256 snapshotId : String) :
    Whole (reduceSaved state documentId content sha256 snapshotId) := by
  unfold reduceSaved
  split
  · exact h
  next current hcurrent =>
    refine (h.put ?_).retab fun _ => rfl
    exact ⟨(h.drafts _ current hcurrent).1, by simp [savedDraft]⟩

theorem whole_action (h : Whole state) (a : WorkspaceAction)
    (hydrated : ∀ s, a = .hydrate s → Whole s) : Whole (documentWorkspaceReducer state a) := by
  cases a with
  | hydrate s => exact hydrated s rfl
  | openTab tab => exact whole_open h tab
  | activate documentId =>
    unfold documentWorkspaceReducer
    dsimp only
    split
    next hopen => exact ⟨h.distinct, mem_tabIds.mp hopen, h.closed, h.drafts⟩
    next => exact h
  | close documentId force => exact whole_close h documentId force
  | closeOthers documentId force => exact whole_closeOthers h documentId force
  | reopen => exact whole_reopen h
  | pin documentId pinned => exact h.retab fun _ => rfl
  | mode documentId mode => exact h.retab fun _ => rfl
  | load detail => exact whole_load h detail
  | draft documentId content warnings => exact whole_draft h documentId content warnings
  | saved documentId content sha256 snapshotId =>
    exact whole_saved h documentId content sha256 snapshotId
  | title documentId title => exact h.retab fun _ => rfl
  | view view => exact ⟨h.distinct, h.active, h.closed, h.drafts⟩
  | inspector inspectorSection => exact ⟨h.distinct, h.active, h.closed, h.drafts⟩
  | drawer drawer => exact ⟨h.distinct, h.active, h.closed, h.drafts⟩

structure Session where
  state : DocumentWorkspaceState
  storage : Option PersistedWorkspace

inductive SessionEvent where
  | act (a : WorkspaceAction)
  | persist (order : List String)
  | reload

def Session.next (s : Session) : SessionEvent → Session
  | .act a => {s with state := documentWorkspaceReducer s.state a}
  | .persist order => {s with storage := some (persistDocumentWorkspace order s.state)}
  | .reload => {s with state := restoreDocumentWorkspace s.storage}

def freshSession : Session := ⟨initialDocumentWorkspaceState, none⟩

def HydratesWhole (events : List SessionEvent) : Prop :=
  ∀ s, .act (.hydrate s) ∈ events → Whole s

theorem whole_initial : Whole initialDocumentWorkspaceState :=
  ⟨nodup_nil, rfl, Nat.zero_le _, nofun⟩

theorem restored_drafts (tabs : List DocumentTabState) (d : String) (parsed : List PersistedDraft)
    (found : String → Option DocumentDraft) : parsed.foldl (restoreDraft tabs) found d =
      if d ∈ tabIds tabs then
        ((parsed.reverse.find? (·.documentId == d)).map restoredDraft).or (found d)
      else found d := by
  induction parsed generalizing found with
  | nil => simp
  | cons p rest ih =>
    have hnext : restoreDraft tabs found p d = if d ∈ tabIds tabs ∧ p.documentId = d then
        some (restoredDraft p) else found d := by
      unfold restoreDraft
      by_cases hid : p.documentId = d
      · by_cases hopen : d ∈ tabIds tabs
        · rw [hid, if_pos (mem_tabIds.mpr hopen), if_pos ⟨hopen, rfl⟩, Function.update_self]
        · rw [hid, if_neg (mt mem_tabIds.mp hopen), if_neg fun h => hopen h.1]
      · split
        · rw [Function.update_of_ne (Ne.symm hid), if_neg fun h => hid h.2]
        · rw [if_neg fun h => hid h.2]
    rw [foldl_cons, ih, hnext, reverse_cons, find?_append]
    by_cases hopen : d ∈ tabIds tabs
    · by_cases hid : p.documentId = d
      · cases hlast : rest.reverse.find? (·.documentId == d) <;> simp [hopen, hid]
      · simp [hopen, hid]
    · simp [hopen]

def reloaded (order : List String) (state : DocumentWorkspaceState) : DocumentWorkspaceState :=
  restoreDocumentWorkspace (some (persistDocumentWorkspace order state))

theorem tabIds_restored (tabs : List DocumentTabState) :
    tabIds ((tabs.map (·.persisted)).map restoredTab) = tabIds tabs := by
  simp [restoredTab, DocumentTabState.persisted]

theorem reloaded_active (h : Whole state) (order : List String) :
    (reloaded order state).activeDocumentId = state.activeDocumentId := by
  have hactive := h.active
  obtain ⟨tabs, active⟩ := state
  simp only [reloaded, restoreDocumentWorkspace, persistDocumentWorkspace]
  cases active with
  | none =>
    obtain rfl : tabs = [] := map_eq_nil_iff.mp hactive
    rfl
  | some d =>
    obtain ⟨tab, htab, rfl⟩ := mem_map.mp hactive
    exact if_pos (any_eq_true.mpr ⟨restoredTab tab.persisted,
      mem_map_of_mem (mem_map_of_mem htab), decide_eq_true rfl⟩)

theorem whole_reloaded (h : Whole state) (order : List String) : Whole (reloaded order state) := by
  have hids : tabIds (reloaded order state).tabs = tabIds state.tabs := by
    rw [← tabIds_restored state.tabs]
    simp [reloaded, restoreDocumentWorkspace, persistDocumentWorkspace]
  refine ⟨hids ▸ h.distinct, ?_, length_take_le _ _, fun d draft hd => ?_⟩
  · rw [hids, reloaded_active h]
    exact h.active
  · simp only [reloaded, restoreDocumentWorkspace, restored_drafts, Option.or_none] at hd
    split at hd
    · obtain ⟨p, hp, rfl⟩ := Option.map_eq_some_iff.mp hd
      have hid := find?_some hp
      exact ⟨beq_iff_eq.mp hid, decide_eq_true_iff⟩
    · cases hd

def Session.Whole (s : Session) : Prop :=
  Workspace.Whole s.state ∧ ∀ p ∈ s.storage, ∃ order state,
    Workspace.Whole state ∧ p = persistDocumentWorkspace order state

theorem session_next {s : Session} (h : s.Whole) (e : SessionEvent)
    (hydrated : ∀ s', e = .act (.hydrate s') → Whole s') : (s.next e).Whole := by
  cases e with
  | act a => exact ⟨whole_action h.1 a fun s' hs' => hydrated s' (congrArg _ hs'), h.2⟩
  | persist order =>
    refine ⟨h.1, fun p hp => ⟨order, s.state, h.1, ?_⟩⟩
    exact (Option.some.inj hp).symm
  | reload =>
    refine ⟨?_, h.2⟩
    unfold Session.next
    cases hstored : s.storage with
    | none => exact whole_initial
    | some p =>
      obtain ⟨order, state, hstate, rfl⟩ := h.2 p hstored
      exact whole_reloaded hstate order

/-- Whatever is done to a page, and whenever it is reloaded, its tabs and drafts are in order. -/
theorem session_whole (events : List SessionEvent) (h : HydratesWhole events) :
    Whole (events.foldl Session.next freshSession).state := by
  suffices hrun : ∀ s : Session, s.Whole → (events.foldl Session.next s).Whole from
    (hrun freshSession ⟨whole_initial, nofun⟩).1
  induction events with
  | nil => exact fun s hs => hs
  | cons e rest ih =>
    intro s hs
    exact ih (fun s' hs' => h s' (mem_cons_of_mem e hs')) _
      (session_next hs e fun s' he => h s' (he ▸ mem_cons_self))

def Unsaved (draft : DocumentDraft) : Bool := draft.persistable && draft.dirty

theorem Drafted.reloaded {d : String} {draft : DocumentDraft} (h : Drafted d draft)
    (hunsaved : Unsaved draft = true) : restoredDraft draft.persisted = draft := by
  rw [Unsaved, Bool.and_eq_true] at hunsaved
  have hchanged := h.2.mp hunsaved.2
  cases draft
  simp_all [restoredDraft, DocumentDraft.persisted]

def unsavedNote : List SessionEvent :=
  [.act (.openTab noteTab), .act (.load noteDetail), .act (.draft "doc_a" "first" none)]

/-- A note is opened and edited. -/
theorem unsavedNote_whole : Whole (unsavedNote.foldl Session.next freshSession).state :=
  session_whole unsavedNote (by simp [HydratesWhole, unsavedNote])

end RaytSystem.Workspace
