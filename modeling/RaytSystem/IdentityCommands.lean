import RaytSystem.IndexProjection
import RaytSystem.RelyGuarantee

/-! The commands keep the records, the files and the index together. -/
namespace RaytSystem.Identity
open Interleaving RecordTable

variable {env : IdentityEnv}

def Ends {α : Type} (p : DocumentProg α) (Q : α → Workspace → Prop)
    (X : DocumentFault → Workspace → Prop) (w : Workspace) : Prop :=
  wp (sequential Unit fun _ => True) p Q X w

section
variable {α β : Type} {w : Workspace} {X : DocumentFault → Workspace → Prop}

theorem ends_pure {a : α} {Q : α → Workspace → Prop} (h : Q a w) :
    Ends (pure a : DocumentProg α) Q X w := h

variable {p : DocumentProg α} {Q : β → Workspace → Prop}

theorem ends_bind {g : α → DocumentProg β} (h : Ends p (fun a w' => Ends (g a) Q X w') X w) :
    Ends (p >>= g) Q X w :=
  (wp_bind _ p g Q X w).mpr h

variable {e : DocumentFault}

theorem ends_fail {Q : α → Workspace → Prop} (h : X e w) :
    Ends (.fail e : DocumentProg α) Q X w := h

theorem ends_any [Input β] (h : ∀ b, Q b w) : Ends (.any β : DocumentProg β) Q X w := h

theorem ends_require {b : Prop} [Decidable b] {Q : Unit → Workspace → Prop} (h : b → Q () w)
    (hX : ¬b → X e w) : Ends (.require b e : DocumentProg Unit) Q X w :=
  wp_require _ h hX

theorem ends_get {f : Workspace → β} (h : Q (f w) w) :
    Ends (.get () f : DocumentProg β) Q X w := wp_sequential_get trivial h

theorem ends_ofOption {x : Option β} (h : ∀ b, x = some b → Q b w) (hX : x = none → X e w) :
    Ends (.ofOption x e : DocumentProg β) Q X w := wp_ofOption _ h hX

theorem ends_attempt {f : Workspace → Except DocumentFault (β × Workspace)}
    (h : ∀ b w', f w = .ok (b, w') → Q b w') (hX : ∀ e, f w = .error e → X e w) :
    Ends (.attempt () f : DocumentProg β) Q X w :=
  wp_sequential_attempt trivial (fun b w' hf => ⟨trivial, h b w' hf⟩) hX

theorem ends_toExcept {Q : Except DocumentFault α → Workspace → Prop}
    (h : Ends p (fun a w' => Q (.ok a) w') (fun e w' => Q (.error e) w') w) :
    Ends p.toExcept Q X w := (wp_toExcept _ p Q X w).mpr h

theorem ends_mono {Q Q' : α → Workspace → Prop} {X' : DocumentFault → Workspace → Prop}
    (h : Ends p Q X w) (hQ : ∀ a w, Q a w → Q' a w) (hX : ∀ e w, X e w → X' e w) :
    Ends p Q' X' w := wp_mono _ h hQ hX
end

section
variable {w w' : Workspace} {X : DocumentFault → Workspace → Prop}

structure SameDocuments (w w' : Workspace) : Prop where
  files : w'.files = w.files
  identities : w'.identities = w.identities
  index : w'.index = w.index
  receipts : w'.receipts = w.receipts

theorem SameDocuments.sound (h : SameDocuments w w') (hw : Sound env w) : Sound env w' where
  identities := h.identities ▸ hw.identities
  unmoved := by
    rw [h.files, h.identities]
    exact hw.unmoved
  rows := by
    rw [h.index, h.identities]
    exact hw.rows

variable {Q : Unit → Workspace → Prop}

theorem ends_rebuildIndex (h : Sound env w) {Q : Unit → Workspace → Prop}
    (hQ : ∀ w', Indexed env (fun _ => True) w w' → Q () w') : Ends (rebuildIndex env) Q X w := by
  refine ends_bind (ends_any fun now => ?_)
  obtain ⟨rebuilt, hrebuild, hindexed⟩ := rebuild_indexed h.identities h.unmoved now
  apply ends_attempt
  · intro b w' hf
    rw [hrebuild] at hf
    cases hf
    exact hQ rebuilt hindexed
  · intro e hf
    rw [hrebuild] at hf
    cases hf

theorem ends_ensureIndex (h : Sound env w)
    (hQ : ∀ w', Sound env w' → Grows w.identities w'.identities → (w.index ≠ none → w' = w) →
      Q () w') :
    Ends (ensureIndex env) Q X w := by
  refine ends_bind (ends_get ?_)
  cases hindex : w.index with
  | none =>
    refine ends_rebuildIndex h fun w' hindexed => ?_
    exact hQ w' hindexed.sound hindexed.grows fun hne => absurd hindex hne
  | some rows => exact ends_pure (hQ w h (grows_refl _) fun _ => rfl)

theorem ends_refresh {paths : List Path} (h : SoundIdentities env w.identities)
    (hunmoved : Unmoved env w.files w.identities)
    (hrows : ∀ rows, w.index = some rows → ∀ row ∈ rows,
      ActiveAt w.identities row.relativePath row.documentId ∨
        row.relativePath ∉ w.files ∧ paths.head? = some row.relativePath)
    (hQ : ∀ w', Indexed env (fun p => paths.getLast? = some p) w w' → Q () w') :
    Ends (refresh env paths) Q X w := by
  refine ends_bind (ends_any fun current => ends_bind (ends_any fun now => ends_bind ?_))
  obtain ⟨w', hrefresh, hindexed⟩ :=
    refreshWorkspace_indexed h hunmoved hrows current now
  have hstep : Ends (.step () (refreshWorkspace env current now paths)) (fun outcome w' =>
      Ends (.ofExcept outcome) Q X w') X w := by
    rintro _ _ rfl _
    rw [hrefresh]
    exact ⟨trivial, trivial, hQ w' hindexed⟩
  exact hstep

variable {key : String} {request : Request}

theorem ends_prepareOperation {Q : Stored OperationRecord → Workspace → Prop}
    (hnew : head w.operations key = none → ∀ w', SameDocuments w w' →
      head w'.operations key = some ⟨1, ⟨.prepared, request, none⟩⟩ →
      Q ⟨1, ⟨.prepared, request, none⟩⟩ w')
    (hold : ∀ prepared, head w.operations key = some prepared → Q prepared w)
    (hX : head w.operations key ≠ none → ∀ e, X e w) :
    Ends (prepareOperation key request) Q X w := by
  apply ends_attempt
  · intro prepared w' hf
    split at hf
    next hnone =>
      cases hf
      refine hnew hnone _ ⟨rfl, rfl, rfl, rfl⟩ ?_
      simp [head_push, head_eq_none.mp hnone]
    next prepared' hsome =>
      split at hf
      · cases hf
        exact hold _ hsome
      · cases hf
  · intro e hf
    split at hf
    next => cases hf
    next prepared' hsome => exact hX (by simp [hsome]) e

theorem ends_appendOperation {record : OperationRecord} {revision : ℕ}
    {Q : Stored OperationRecord → Workspace → Prop}
    (hQ : ∀ w', SameDocuments w w' → head w'.operations key = some ⟨revision + 1, record⟩ →
      Q ⟨revision + 1, record⟩ w')
    (hX : (head w.operations key).map Stored.revision ≠ some revision → ∀ e, X e w) :
    Ends (appendOperation key record revision) Q X w := by
  apply ends_attempt
  · intro stored w' hf
    split at hf
    next operations happend =>
      cases hf
      obtain ⟨hrevision, rfl⟩ := append_eq_some.mp happend
      obtain ⟨stored, hstored, rfl⟩ := Option.map_eq_some_iff.mp hrevision
      obtain ⟨older, holder, hlength⟩ := head_eq_some.mp hstored
      have hlength' : (w.operations key).length = stored.revision := by simp [holder, hlength]
      refine hQ _ ⟨rfl, rfl, rfl, rfl⟩ ?_
      rw [head_push, hlength']
    next => cases hf
  · intro e hf
    split at hf
    next => cases hf
    next happend =>
      refine hX (fun hrevision => ?_) e
      simp [append, hrevision] at happend

theorem ends_publishOperation {prepared : Stored OperationRecord}
    {Q : Stored OperationRecord → Workspace → Prop} (hkeep : Q prepared w)
    (hQ : ∀ w' publishing, SameDocuments w w' → head w'.operations key = some publishing →
      Q publishing w') (hX : head w.operations key ≠ some prepared → ∀ e, X e w) :
    Ends (publishOperation key request prepared) Q X w := by
  unfold publishOperation
  split
  · exact ends_pure hkeep
  · apply ends_appendOperation
    · exact fun w' hsame hhead => hQ w' _ hsame hhead
    · intro hrevision e
      exact hX (fun hhead => hrevision (by rw [hhead]; rfl)) e

theorem ends_idempotentReceipt {Q : Option Receipt → Workspace → Prop}
    (hnone : w.receipts key = none → Q none w) (hsome : ∀ receipt, Q (some receipt) w)
    (hX : w.receipts key ≠ none → ∀ e, X e w) : Ends (idempotentReceipt key request) Q X w := by
  apply ends_attempt
  · intro receipt w' hf
    split at hf
    next hreceipt =>
      cases hf
      exact hnone hreceipt
    next request' receipt' hreceipt =>
      split at hf
      · cases hf
        exact hsome receipt'
      · cases hf
  · intro e hf
    split at hf
    next => cases hf
    next request' receipt' hreceipt => exact hX (by simp [hreceipt]) e

theorem ends_storeReceipt {receipt : Receipt}
    (hQ : ∀ w', w'.files = w.files → w'.identities = w.identities → w'.index = w.index → Q () w')
    (hX : w.receipts key ≠ none → ∀ e, X e w) : Ends (storeReceipt key request receipt) Q X w := by
  apply ends_attempt
  · intro _ w' hf
    split at hf
    next =>
      cases hf
      exact hQ _ rfl rfl rfl
    next =>
      split at hf
      · cases hf
        exact hQ _ rfl rfl rfl
      · cases hf
  · intro e hf
    split at hf
    next => cases hf
    next request' receipt' hreceipt => exact hX (by simp [hreceipt]) e

theorem ends_requireSnapshot {value : String} {allowRebase : Bool} (hQ : w.index ≠ none → Q () w)
    (hX : ∀ e, ¬(env.safeSnapshot value = true ∧
      ∃ rows, w.index = some rows ∧ (value = env.snapshotId rows ∨ allowRebase = true)) → X e w) :
    Ends (requireSnapshot env value allowRebase) Q X w := by
  refine ends_bind (ends_require (fun hsafe => ?_) fun hsafe => hX _ fun h => hsafe h.1)
  refine ends_bind (ends_get (ends_bind (ends_ofOption (fun rows hrows => ?_) fun hnone => ?_)))
  · refine ends_require (fun _ => hQ (by simp [hrows])) fun hchanged => hX _ fun h => ?_
    obtain ⟨rows', hrows', hvalue⟩ := h.2
    obtain rfl := Option.some.inj (hrows.symm.trans hrows')
    exact hchanged hvalue
  · refine hX _ fun h => ?_
    obtain ⟨rows', hrows', -⟩ := h.2
    rw [hnone] at hrows'
    cases hrows'
end

section
variable {w : Workspace}

theorem ends_writeResult {d : DocumentId} {C : Prop} (h : Sound env w)
    (hC : C → ∃ p rows data, w.index = some rows ∧ ActiveAt w.identities p d ∧
      FreshAt env w.files rows p ∧ env.visible p = true ∧ w.files.lookup p = some data ∧
      data.length ≤ env.maxFileBytes ∧ env.restricted p data = false)
    {Q : Receipt → Workspace → Prop} {X : DocumentFault → Workspace → Prop}
    (hQ : ∀ receipt, Q receipt w) (hX : ∀ e, ¬C → X e w) : Ends (writeResult env d) Q X w := by
  apply ends_attempt
  · intro receipt w' hf
    have hsame : w' = w := by
      repeat' split at hf
      all_goals cases hf
      rfl
    exact hsame ▸ hQ receipt
  · intro e hf
    refine hX e fun hc => ?_
    obtain ⟨p, rows, data, hindex, hactive, hfresh, hvisible, hdata, hlength, hopen⟩ := hC hc
    obtain ⟨⟨row, hrow, hpath⟩, hshown⟩ := hfresh data hvisible hdata hlength
    have hrowId : row.documentId = d :=
      activeAt_unique (h.rows rows hindex row hrow) (hpath ▸ hactive)
    cases hfind : rows.find? fun row => row.documentId = d with
    | none =>
      have hno := List.find?_eq_none.mp hfind row hrow
      simp [hrowId] at hno
    | some found =>
      have hfoundId : found.documentId = d := by simpa using List.find?_some hfind
      have hfoundMem := List.mem_of_find?_eq_some hfind
      have hfoundPath : found.relativePath = p :=
        h.identities.distinct _ p d (hfoundId ▸ h.rows rows hindex found hfoundMem) hactive
      obtain ⟨hsha, hrestricted⟩ := hshown found hfoundMem hfoundPath
      subst hfoundPath
      simp [hindex, hfind, hrestricted, hopen, hdata, hlength, hsha] at hf

theorem ends_completeOperation {key : String} {request : Request}
    {prepared : Stored OperationRecord} {paths : List Path} {d : DocumentId}
    {createdId : Option DocumentId} {C : Prop} (h : SoundIdentities env w.identities)
    (hunmoved : Unmoved env w.files w.identities)
    (hrows : ∀ rows, w.index = some rows → ∀ row ∈ rows,
      ActiveAt w.identities row.relativePath row.documentId ∨
        row.relativePath ∉ w.files ∧ paths.head? = some row.relativePath)
    (hC : C → head w.operations key = some prepared ∧ w.receipts key = none ∧
      ∃ p data, paths.getLast? = some p ∧ ActiveAt w.identities p d ∧ env.visible p = true ∧
        w.files.lookup p = some data ∧ data.length ≤ env.maxFileBytes ∧
        env.restricted p data = false) :
    Ends (completeOperation env key request prepared paths d createdId)
      (fun _ w' => Sound env w') (fun _ w' => Sound env w' ∧ ¬C) w := by
  refine ends_bind (ends_refresh h hunmoved hrows fun w₁ hindexed => ?_)
  have hsound := hindexed.sound
  refine ends_bind (ends_writeResult (C := C) hsound (fun hc => ?_) (fun receipt => ?_)
    fun e hc => ⟨hsound, hc⟩)
  · obtain ⟨-, -, p, data, hlast, hactive, hvisible, hdata, hlength, hopen⟩ := hC hc
    obtain ⟨rows, hindex, hfresh⟩ := hindexed.shown
    exact ⟨p, rows, data, hindex, hindexed.grows.activeAt hactive,
      by rw [hindexed.files]; exact hfresh p hlast, hvisible, by rw [hindexed.files]; exact hdata,
      hlength, hopen⟩
  · refine ends_bind (ends_appendOperation (fun w₂ hsame _ => ?_) fun hrevision e =>
      ⟨hsound, fun hc => hrevision ?_⟩)
    · have hsound₂ := hsame.sound hsound
      refine ends_bind (ends_storeReceipt (fun w₃ hfiles hidentities hindex => ?_)
        fun hreceipt e => ⟨hsound₂, fun hc => hreceipt ?_⟩)
      · refine ends_pure ⟨hidentities ▸ hsound₂.identities, ?_, ?_⟩
        · rw [hfiles, hidentities]
          exact hsound₂.unmoved
        · rw [hindex, hidentities]
          exact hsound₂.rows
      · rw [hsame.receipts, hindexed.receipts]
        exact (hC hc).2.1
    · rw [hindexed.operations, (hC hc).1]
      rfl
end

end RaytSystem.Identity
