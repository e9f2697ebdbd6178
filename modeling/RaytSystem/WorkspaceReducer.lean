import Mathlib.Logic.Function.Basic

/-! The reducer of the document workspace: tabs, drafts, what each action does to them, and what
the session storage keeps of them. -/
namespace RaytSystem.Workspace

inductive DocumentMode where
  | read | visual | source | diff
  deriving DecidableEq, Repr

inductive DocumentView where
  | files | recent | added | modified | favorites
  deriving DecidableEq, Repr

inductive InspectorSection where
  | properties | links | backlinks | history
  deriving DecidableEq, Repr

inductive MobileDrawer where
  | navigation | inspector
  deriving DecidableEq, Repr

structure DocumentTabState where
  documentId : String
  title : String
  mode : DocumentMode
  pinned : Bool
  dirty : Bool
  readOnly : Bool
  deriving DecidableEq

structure DocumentDraft where
  documentId : String
  content : String
  baseContent : String
  baseSha256 : String
  baseSnapshotId : String
  dirty : Bool
  persistable : Bool
  warnings : List String
  deriving DecidableEq

structure DocumentWorkspaceState where
  tabs : List DocumentTabState
  activeDocumentId : Option String
  recentlyClosed : List DocumentTabState
  drafts : String → Option DocumentDraft
  view : DocumentView
  inspectorSection : InspectorSection
  mobileDrawer : Option MobileDrawer

def initialDocumentWorkspaceState : DocumentWorkspaceState where
  tabs := []
  activeDocumentId := none
  recentlyClosed := []
  drafts := fun _ => none
  view := .files
  inspectorSection := .properties
  mobileDrawer := none

structure DocumentDetail where
  documentId : String
  title : String
  filename : String
  sensitivity : String
  canEdit : Bool
  content : Option String
  markdown : Bool
  contentSha256 : String
  snapshotId : String
  warnings : List String

inductive WorkspaceAction where
  | hydrate (state : DocumentWorkspaceState)
  | openTab (tab : DocumentTabState)
  | activate (documentId : String)
  | close (documentId : String) (force : Bool)
  | closeOthers (documentId : String) (force : Bool)
  | reopen
  | pin (documentId : String) (pinned : Option Bool)
  | mode (documentId : String) (mode : DocumentMode)
  | load (detail : DocumentDetail)
  | draft (documentId content : String) (warnings : Option (List String))
  | saved (documentId content sha256 snapshotId : String)
  | title (documentId title : String)
  | view (view : DocumentView)
  | inspector (section_ : InspectorSection)
  | drawer (drawer : Option MobileDrawer)

def updateTab (tabs : List DocumentTabState) (documentId : String)
    (update : DocumentTabState → DocumentTabState) : List DocumentTabState :=
  tabs.map fun tab => if tab.documentId = documentId then update tab else tab

def nextActiveAfterClose (tabs : List DocumentTabState) (index : Nat) : Option String :=
  let before := if index = 0 then none else tabs[index - 1]?
  (tabs[index + 1]?.or before).map DocumentTabState.documentId

def maxRecentlyClosed : Nat := 12

def orText (a b : String) : String := if a = "" then b else a

def persistable (sensitivity : String) : Bool :=
  !(["confidential", "restricted", "secret"].contains sensitivity.toLower)

def driftWarning : String :=
  "Файл изменился после сохранения session draft. Сохранение потребует ручного merge."

def dropDrafts (drafts : String → Option DocumentDraft) (documentIds : List String) :
    String → Option DocumentDraft :=
  fun d => if d ∈ documentIds then none else drafts d

variable (state : DocumentWorkspaceState)

def reduceOpen (tab : DocumentTabState) : DocumentWorkspaceState :=
  let known := state.tabs.any (·.documentId == tab.documentId)
  let update (t : DocumentTabState) : DocumentTabState :=
    {t with title := orText tab.title t.title, readOnly := tab.readOnly}
  {state with
    tabs := if known then updateTab state.tabs tab.documentId update else state.tabs ++ [tab]
    activeDocumentId := some tab.documentId
    mobileDrawer := none}

variable (documentId : String)

def reduceClose (force : Bool) : DocumentWorkspaceState :=
  match state.tabs.find? (·.documentId == documentId) with
  | none => state
  | some closing =>
    if closing.dirty = true ∧ force = false then state
    else
      let index := state.tabs.findIdx (·.documentId == documentId)
      let closed := closing :: state.recentlyClosed.filter (·.documentId ≠ closing.documentId)
      {state with
        tabs := state.tabs.filter (·.documentId ≠ documentId)
        drafts := dropDrafts state.drafts [documentId]
        activeDocumentId :=
          if state.activeDocumentId = some documentId then nextActiveAfterClose state.tabs index
          else state.activeDocumentId
        recentlyClosed := closed.take maxRecentlyClosed}

def othersOf : List DocumentTabState :=
  state.tabs.filter fun tab => tab.documentId ≠ documentId && !tab.pinned

def reduceCloseOthers (force : Bool) : DocumentWorkspaceState :=
  let closing := othersOf state documentId
  if state.tabs.any (·.documentId == documentId) = false then state
  else if force = false ∧ closing.any (·.dirty) = true then state
  else {state with
    tabs := state.tabs.filter fun tab => tab.documentId = documentId || tab.pinned
    drafts := dropDrafts state.drafts (closing.map DocumentTabState.documentId)
    activeDocumentId := some documentId
    recentlyClosed := (closing.reverse ++ state.recentlyClosed).take maxRecentlyClosed}

def reduceReopen : DocumentWorkspaceState :=
  match state.recentlyClosed with
  | [] => state
  | tab :: rest =>
    {state with
      tabs := if state.tabs.any (·.documentId == tab.documentId) then state.tabs
        else state.tabs ++ [{tab with dirty := false}]
      activeDocumentId := some tab.documentId
      recentlyClosed := rest}

def loadedDraft (detail : DocumentDetail) (restored : Option DocumentDraft) : DocumentDraft :=
  let content := detail.content.getD ""
  let fresh : DocumentDraft := ⟨detail.documentId, content, content, detail.contentSha256,
    detail.snapshotId, false, persistable detail.sensitivity, detail.warnings⟩
  match restored with
  | none => fresh
  | some draft =>
    if draft.dirty = false then fresh
    else
      let unchangedBase := draft.baseSha256 == detail.contentSha256
      let drift := if unchangedBase then [] else [driftWarning]
      {draft with
        baseSnapshotId := if unchangedBase then detail.snapshotId else draft.baseSnapshotId
        persistable := persistable detail.sensitivity
        warnings := (draft.warnings ++ detail.warnings ++ drift).eraseDups}

def reduceLoad (detail : DocumentDetail) : DocumentWorkspaceState :=
  let draft := loadedDraft detail (state.drafts detail.documentId)
  let update (tab : DocumentTabState) : DocumentTabState :=
    {tab with
      title := orText detail.title detail.filename
      mode := if detail.markdown then tab.mode else .read
      dirty := draft.dirty
      readOnly := !detail.canEdit || !detail.markdown}
  {state with
    drafts := Function.update state.drafts detail.documentId (some draft)
    tabs := updateTab state.tabs detail.documentId update}

def reduceDraft (documentId content : String) (warnings : Option (List String)) :
    DocumentWorkspaceState :=
  match state.drafts documentId with
  | none => state
  | some current =>
    let dirty := decide (content ≠ current.baseContent)
    let draft := {current with content, dirty, warnings := warnings.getD current.warnings}
    {state with
      drafts := Function.update state.drafts documentId (some draft)
      tabs := updateTab state.tabs documentId fun tab => {tab with dirty}}

def savedDraft (current : DocumentDraft) (content sha256 snapshotId : String) : DocumentDraft :=
  {current with
    content := content
    baseContent := content
    baseSha256 := sha256
    baseSnapshotId := snapshotId
    dirty := false
    warnings := []}

def reduceSaved (documentId content sha256 snapshotId : String) : DocumentWorkspaceState :=
  match state.drafts documentId with
  | none => state
  | some current =>
    {state with
      drafts := Function.update state.drafts documentId
        (some (savedDraft current content sha256 snapshotId))
      tabs := updateTab state.tabs documentId fun tab => {tab with dirty := false}}

def documentWorkspaceReducer : WorkspaceAction → DocumentWorkspaceState
  | .hydrate hydrated => hydrated
  | .openTab tab => reduceOpen state tab
  | .activate documentId =>
    if state.tabs.any (·.documentId == documentId) then
      {state with activeDocumentId := some documentId, mobileDrawer := none}
    else state
  | .close documentId force => reduceClose state documentId force
  | .closeOthers documentId force => reduceCloseOthers state documentId force
  | .reopen => reduceReopen state
  | .pin documentId pinned =>
    {state with
      tabs := updateTab state.tabs documentId fun tab =>
        {tab with pinned := pinned.getD (!tab.pinned)}}
  | .mode documentId mode =>
    {state with tabs := updateTab state.tabs documentId fun tab => {tab with mode}}
  | .load detail => reduceLoad state detail
  | .draft documentId content warnings => reduceDraft state documentId content warnings
  | .saved documentId content sha256 snapshotId =>
    reduceSaved state documentId content sha256 snapshotId
  | .title documentId title =>
    {state with tabs := updateTab state.tabs documentId fun tab => {tab with title}}
  | .view view => {state with view, mobileDrawer := none}
  | .inspector inspectorSection => {state with inspectorSection}
  | .drawer mobileDrawer => {state with mobileDrawer}

structure PersistedTab where
  documentId : String
  mode : DocumentMode
  pinned : Bool
  deriving DecidableEq

structure PersistedDraft where
  documentId : String
  content : String
  baseContent : String
  baseSha256 : String
  baseSnapshotId : String
  warnings : List String
  deriving DecidableEq

structure PersistedWorkspace where
  tabs : List PersistedTab
  activeDocumentId : Option String
  recentlyClosed : List PersistedTab
  drafts : List PersistedDraft
  view : DocumentView
  deriving DecidableEq

def maxPersistedDraftBytes : Nat := 512 * 1024

def DocumentTabState.persisted (tab : DocumentTabState) : PersistedTab :=
  ⟨tab.documentId, tab.mode, tab.pinned⟩

def DocumentDraft.persisted (draft : DocumentDraft) : PersistedDraft :=
  ⟨draft.documentId, draft.content, draft.baseContent, draft.baseSha256, draft.baseSnapshotId,
    draft.warnings⟩

def persistedDrafts : Nat → List DocumentDraft → List PersistedDraft
  | _, [] => []
  | draftBytes, draft :: rest =>
    let bytes := draft.content.utf8ByteSize
    if draft.persistable = false ∨ draft.dirty = false then persistedDrafts draftBytes rest
    else if maxPersistedDraftBytes < bytes ∨ maxPersistedDraftBytes < draftBytes + bytes then
      persistedDrafts draftBytes rest
    else draft.persisted :: persistedDrafts (draftBytes + bytes) rest

/-- What is written to the session storage, with the document ids of the drafts in the order in
which `Object.values` goes through them. -/
def persistDocumentWorkspace (order : List String) (state : DocumentWorkspaceState) :
    PersistedWorkspace where
  tabs := state.tabs.map (·.persisted)
  activeDocumentId := state.activeDocumentId
  recentlyClosed := state.recentlyClosed.map (·.persisted)
  drafts := persistedDrafts 0 (order.filterMap state.drafts)
  view := state.view

def restoredTab (tab : PersistedTab) : DocumentTabState :=
  ⟨tab.documentId, "Документ", tab.mode, tab.pinned, false, true⟩

def restoredDraft (draft : PersistedDraft) : DocumentDraft :=
  ⟨draft.documentId, draft.content, draft.baseContent, draft.baseSha256, draft.baseSnapshotId,
    decide (draft.content ≠ draft.baseContent), true, draft.warnings⟩

def restoreDraft (tabs : List DocumentTabState) (drafts : String → Option DocumentDraft)
    (draft : PersistedDraft) : String → Option DocumentDraft :=
  if tabs.any (·.documentId == draft.documentId) then
    Function.update drafts draft.documentId (some (restoredDraft draft))
  else drafts

def restoreDocumentWorkspace : Option PersistedWorkspace → DocumentWorkspaceState
  | none => initialDocumentWorkspaceState
  | some parsed =>
    let tabs := parsed.tabs.map restoredTab
    let drafts := parsed.drafts.foldl (restoreDraft tabs) fun _ => none
    {initialDocumentWorkspaceState with
      tabs := tabs.map fun tab => {tab with dirty := (drafts tab.documentId).any (·.dirty)}
      activeDocumentId :=
        if tabs.any fun tab => some tab.documentId = parsed.activeDocumentId then
          parsed.activeDocumentId
        else tabs.head?.map DocumentTabState.documentId
      recentlyClosed := (parsed.recentlyClosed.map restoredTab).take maxRecentlyClosed
      drafts := drafts
      view := parsed.view}

section
variable (state : DocumentWorkspaceState)

theorem drafts_reopen : (reduceReopen state).drafts = state.drafts := by
  unfold reduceReopen
  split
  · rfl
  · rfl

variable (documentId : String)

theorem drafts_activate :
    (documentWorkspaceReducer state (.activate documentId)).drafts = state.drafts := by
  unfold documentWorkspaceReducer
  dsimp only
  split
  · rfl
  · rfl

theorem drafts_close (force : Bool) : (reduceClose state documentId force).drafts = state.drafts ∨
      (reduceClose state documentId force).drafts = dropDrafts state.drafts [documentId] := by
  unfold reduceClose
  split
  · exact Or.inl rfl
  · split
    · exact Or.inl rfl
    · exact Or.inr rfl

theorem drafts_closeOthers (force : Bool) :
    (reduceCloseOthers state documentId force).drafts = state.drafts ∨
      (reduceCloseOthers state documentId force).drafts =
        dropDrafts state.drafts ((othersOf state documentId).map DocumentTabState.documentId) := by
  unfold reduceCloseOthers
  dsimp only
  split
  · exact Or.inl rfl
  · split
    · exact Or.inl rfl
    · exact Or.inr rfl

theorem drafts_load_other (detail : DocumentDetail) {d : String} (h : d ≠ detail.documentId) :
    (reduceLoad state detail).drafts d = state.drafts d := Function.update_of_ne h _ _

variable {draft : DocumentDraft}

theorem drafts_load_dirty (detail : DocumentDetail)
    (h : state.drafts detail.documentId = some draft) (hdirty : draft.dirty = true) :
    ∃ draft', (reduceLoad state detail).drafts detail.documentId = some draft' ∧
      draft'.content = draft.content := by
  refine ⟨_, Function.update_self _ _ _, ?_⟩
  simp only [h, loadedDraft, hdirty, Bool.true_eq_false, if_false]

theorem drafts_draft_other {documentId content : String} {warnings : Option (List String)}
    {d : String} (h : d ≠ documentId) :
    (reduceDraft state documentId content warnings).drafts d = state.drafts d := by
  unfold reduceDraft
  split
  · rfl
  · exact Function.update_of_ne h _ _

theorem drafts_saved_other {documentId content sha256 snapshotId d : String} (h : d ≠ documentId) :
    (reduceSaved state documentId content sha256 snapshotId).drafts d = state.drafts d := by
  unfold reduceSaved
  split
  · rfl
  · exact Function.update_of_ne h _ _

theorem drafts_saved {documentId content sha256 snapshotId : String}
    (h : state.drafts documentId = some draft) :
    (reduceSaved state documentId content sha256 snapshotId).drafts documentId =
      some (savedDraft draft content sha256 snapshotId) := by
  simp [reduceSaved, h]
end

end RaytSystem.Workspace
