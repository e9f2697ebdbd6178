import RaytSystem.ExceptRules
import RaytSystem.PrepareModel
import RaytSystem.RelyGuarantee

/-! Runs of `prepare`: any number of calls with the same arguments, in any order of their
accesses and lost anywhere. -/
namespace RaytSystem.Preparation
open Interleaving ImmutableStore
variable {κ : Type} {rules : PrepareRules} {sources : Sources} {call : PrepareCall} {plan : Plan}
  {me : κ} {alone : Prop} {t : Tree}

section

structure Complete (call : PrepareCall) (plan : Plan) (t : Tree) : Prop where
  repo : repoReady call plan.payload.gitCommit t.repo = true
  artifacts : t.artifacts = true
  logs : t.logs = true
  manifest : t.manifest = some plan.manifest
  single : manifestPath ∉ t.spare
  context : ∃ files, t.context = some files ∧
    ∀ item ∈ plan.documents.items, files item.1 = some item.2 ∧ contextPath item.1 ∉ t.spare

def Filled (call : PrepareCall) (plan : Plan) (w : PrepareWorld κ) : Prop :=
  ∃ t, w.trees plan.id = some t ∧ Complete call plan t

def Settled (call : PrepareCall) (plan : Plan) (w : PrepareWorld κ) : Prop :=
  w.trees plan.id = none ∨ Filled call plan w

def Sound (plan : Plan) (w : PrepareWorld κ) : Prop :=
  w.trees plan.id = none ↔ w.makers plan.id = none

structure Undisturbed (call : PrepareCall) (plan : Plan) (me : κ) (alone : Prop)
    (w w' : PrepareWorld κ) : Prop where
  owned : w.makers plan.id = some me →
    w'.trees plan.id = w.trees plan.id ∧ w'.makers plan.id = some me
  filled : Filled call plan w → w'.trees plan.id = w.trees plan.id
  alone : alone → w'.trees plan.id = w.trees plan.id

def Writes (call : PrepareCall) (plan : Plan) (me : κ) (w w' : PrepareWorld κ) : Prop :=
  (w'.trees plan.id = w.trees plan.id ∧ w'.makers plan.id = w.makers plan.id) ∨
    (w.makers plan.id = some me ∧ w'.makers plan.id = some me ∧ ¬ Filled call plan w) ∨
    (w.trees plan.id = none ∧ w'.makers plan.id = some me)

variable {w w' : PrepareWorld κ}

theorem filled_same (h : Filled call plan w) (he : w'.trees plan.id = w.trees plan.id) :
    Filled call plan w' := by
  obtain ⟨t, ht, hcomplete⟩ := h
  exact ⟨t, he.trans ht, hcomplete⟩

theorem settled_same (h : Settled call plan w) (he : w'.trees plan.id = w.trees plan.id) :
    Settled call plan w' := h.imp he.trans fun hf => filled_same hf he

theorem undisturbed_refl (w : PrepareWorld κ) : Undisturbed call plan me alone w w :=
  ⟨fun h => ⟨rfl, h⟩, fun _ => rfl, fun _ => rfl⟩

theorem undisturbed_trans {a b c : PrepareWorld κ} (hab : Undisturbed call plan me alone a b)
    (hbc : Undisturbed call plan me alone b c) : Undisturbed call plan me alone a c where
  owned h := by
    obtain ⟨htree, hmaker⟩ := hab.owned h
    obtain ⟨htree', hmaker'⟩ := hbc.owned hmaker
    exact ⟨htree'.trans htree, hmaker'⟩
  filled h := (hbc.filled (filled_same h (hab.filled h))).trans (hab.filled h)
  alone h := (hbc.alone h).trans (hab.alone h)

theorem undisturbed_writes {other : κ} (hne : me ≠ other) (hw : Sound plan w)
    (h : Writes call plan me w w') : Undisturbed call plan other False w w' := by
  rcases h with ⟨htree, hmaker⟩ | ⟨hmine, -, hopen⟩ | ⟨hnone, -⟩
  · exact ⟨fun h => ⟨htree, hmaker.trans h⟩, fun _ => htree, False.elim⟩
  · refine ⟨fun h => ?_, fun h => absurd h hopen, False.elim⟩
    exact absurd (Option.some.inj (hmine.symm.trans h)) hne
  · refine ⟨fun h => ?_, ?_, False.elim⟩
    · cases (hw.mp hnone).symm.trans h
    · rintro ⟨t, ht, -⟩
      cases hnone.symm.trans ht

structure Owned (plan : Plan) (me : κ) (t : Tree) (w : PrepareWorld κ) : Prop where
  tree : w.trees plan.id = some t
  maker : w.makers plan.id = some me

theorem owned_undisturbed (h : Owned plan me t w)
    (hr : Undisturbed call plan me alone w w') : Owned plan me t w' := by
  obtain ⟨htree, hmaker⟩ := hr.owned h.maker
  exact ⟨htree.trans h.tree, hmaker⟩
end

section

def Meets (call : PrepareCall) (plan : Plan) : PrepareAccess → PrepareWorld κ → Prop
  | .probe _, w => Settled call plan w
  | .make _, w => w.trees plan.id = none
  | .other, _ => True

def prepareRule (call : PrepareCall) (plan : Plan) (me : κ) (alone : Prop) :
    Discipline (PrepareWorld κ) PrepareAccess where
  inv := Sound plan
  rely := Undisturbed call plan me alone
  assume l w := alone ∨ Meets call plan l w
  guar _ := Writes call plan me

def Prepares (call : PrepareCall) (plan : Plan) (me : κ) (alone : Prop) {α : Type}
    (p : PrepareProg κ α) (Q : α → PrepareWorld κ → Prop) (w : PrepareWorld κ) : Prop :=
  wp (prepareRule call plan me alone) p Q (fun _ _ => False) w

variable {α β : Type} {w : PrepareWorld κ} {p : PrepareProg κ α}

theorem prepares_bind {g : α → PrepareProg κ β} {Q : β → PrepareWorld κ → Prop}
    (h : Prepares call plan me alone p (fun a w' => Prepares call plan me alone (g a) Q w') w) :
    Prepares call plan me alone (p.bind g) Q w := (wp_bind _ p g Q _ w).mpr h

theorem prepares_mono {Q Q' : α → PrepareWorld κ → Prop} (h : Prepares call plan me alone p Q w)
    (hQ : ∀ a w, Q a w → Q' a w) :
    Prepares call plan me alone p Q' w := wp_mono _ h hQ fun _ _ hX => hX

theorem prepares_require {b : Prop} [Decidable b] {e : String} {Q : Unit → PrepareWorld κ → Prop}
    (hb : b) (h : Q () w) : Prepares call plan me alone (.require b e) Q w := by
  rw [Prog.require, if_pos hb]
  exact h

theorem prepares_ofOption {x : Option α} {a : α} {e : String} {Q : α → PrepareWorld κ → Prop}
    (hx : x = some a) (h : Q a w) : Prepares call plan me alone (.ofOption x e) Q w := by
  subst hx
  exact h

theorem prepares_ofExcept {x : Except String α} {a : α} {Q : α → PrepareWorld κ → Prop}
    (hx : x = .ok a) (h : Q a w) : Prepares call plan me alone (.ofExcept x) Q w := by
  subst hx
  exact h

variable {Q : Option Tree → PrepareWorld κ → Prop}

theorem prepares_treeOf (hw : Owned plan me t w) (h : ∀ w', Owned plan me t w' → Q (some t) w') :
    Prepares call plan me alone (treeOf plan.id) Q w := by
  intro w' hw' hr _
  have howned := owned_undisturbed hw hr
  refine ⟨hw', Or.inl ⟨rfl, rfl⟩, ?_⟩
  have hQ := h w' howned
  rwa [← howned.tree] at hQ

theorem prepares_treeOf_complete (hw : w.trees plan.id = some t) (hcomplete : Complete call plan t)
    (h : ∀ w', w'.trees plan.id = some t → Q (some t) w') :
    Prepares call plan me alone (treeOf plan.id) Q w := by
  intro w' hw' hr _
  have ht := (hr.filled ⟨t, hw, hcomplete⟩).trans hw
  refine ⟨hw', Or.inl ⟨rfl, rfl⟩, ?_⟩
  have hQ := h w' ht
  rwa [← ht] at hQ

def Tree.Open (t : Tree) : Prop := t.manifest = none ∨ manifestPath ∈ t.spare

theorem not_filled (ht : w.trees plan.id = some t) (h : t.Open) : ¬ Filled call plan w := by
  rintro ⟨t', ht', hcomplete⟩
  obtain rfl := Option.some.inj (ht.symm.trans ht')
  rcases h with h | h
  · cases h.symm.trans hcomplete.manifest
  · exact hcomplete.single h

variable {f : Tree → Tree}

theorem edit_owned (hw : Owned plan me t w) (h : t.Open) :
    Sound plan (edit plan.id f w) ∧ Writes call plan me w (edit plan.id f w) ∧
      Owned plan me (f t) (edit plan.id f w) := by
  have htree : (edit plan.id f w).trees plan.id = some (f t) := by
    simp only [edit, Function.update_self, hw.tree, Option.getD_some]
  refine ⟨?_, Or.inr (Or.inl ⟨hw.maker, hw.maker, not_filled hw.tree h⟩), htree, hw.maker⟩
  constructor
  · intro hnone
    cases htree.symm.trans hnone
  · intro hnone
    cases hw.maker.symm.trans hnone

theorem prepares_edit {Q : Unit → PrepareWorld κ → Prop} (hw : Owned plan me t w)
    (hopen : t.Open) (h : ∀ w', Owned plan me (f t) w' → Q () w') :
    Prepares call plan me alone (.set .other (edit plan.id f)) Q w := by
  intro w' _ hr _
  obtain ⟨hsound, hwrites, howned⟩ := edit_owned (f := f) (owned_undisturbed hw hr) hopen
  exact ⟨hsound, hwrites, h _ howned⟩

theorem prepares_attempt {b : β} {access : PrepareWorld κ → Except String (β × PrepareWorld κ)}
    {Q : β → PrepareWorld κ → Prop} (hw : Owned plan me t w) (hopen : t.Open)
    (haccess : ∀ w', Owned plan me t w' → access w' = .ok (b, edit plan.id f w'))
    (h : ∀ w', Owned plan me (f t) w' → Q b w') :
    Prepares call plan me alone (.attempt .other access) Q w := by
  intro w' _ hr _
  have howned := owned_undisturbed hw hr
  obtain ⟨hsound, hwrites, howned'⟩ := edit_owned (f := f) howned hopen
  unfold Prog.attemptStep
  rw [haccess w' howned]
  exact ⟨hsound, hwrites, h _ howned'⟩

theorem unlink_link {path : String} (ht : t.spare = []) : (t.link path).unlink path = t := by
  cases t
  subst ht
  simp [Tree.link, Tree.unlink]

theorem prepares_publish {path : String} {data : Bytes} {found : Option Tree → Option Bytes}
    {Q : Bool → PrepareWorld κ → Prop} (hw : Owned plan me t w) (hopen : t.Open)
    (hfound : found (some t) = none) (hspare : (f t).spare = []) (hlinked : ((f t).link path).Open)
    (h : ∀ w', Owned plan me (f t) w' → Q true w') :
    Prepares call plan me alone (publishFile plan.id path found data f) Q w := by
  refine prepares_bind (prepares_attempt hw hopen (f := fun t => (f t).link path) (b := true) ?_ ?_)
  · intro w' hw'
    simp only [hw'.tree, hfound]
  intro w₁ hw₁
  refine prepares_bind (prepares_attempt hw₁ hlinked (f := Tree.unlink path) (b := ()) ?_ ?_)
  · intro w' hw'
    have hlinks : linksOf (some ((f t).link path)) path = 2 := if_pos List.mem_cons_self
    rw [hw'.tree, hlinks, if_pos rfl]
  intro w₂ hw₂
  rw [unlink_link hspare] at hw₂
  exact h w₂ hw₂
end

section
variable {w : PrepareWorld κ}

theorem readBounded_self {path : String} (data : Bytes) (h : path ∉ t.spare) :
    readBounded data.length (linksOf (some t) path) (some data) = some data :=
  if_pos ⟨if_neg h, le_max_right _ _⟩

theorem readBounded_some {size : ℕ} {path : String} {x : Option Bytes} {data : Bytes}
    (h : readBounded size (linksOf (some t) path) x = some data) :
    x = some data ∧ path ∉ t.spare := by
  unfold readBounded at h
  split at h
  · split at h
    next hread =>
      refine ⟨h, fun hmem => ?_⟩
      have hlinks : linksOf (some t) path = 2 := if_pos hmem
      rw [hlinks] at hread
      exact absurd hread.1 (by decide)
    · cases h
  · cases h

theorem prepares_readDocuments {items : List (String × Bytes)} (hw : w.trees plan.id = some t)
    (hcomplete : Complete call plan t)
    (h : ∀ item ∈ items, documentAt (some t) item.1 = some item.2 ∧
      contextPath item.1 ∉ t.spare) :
    Prepares call plan me alone (readDocuments plan.id items)
      (fun documents w' => documents = items.map Prod.snd ∧ w'.trees plan.id = some t) w := by
  induction items generalizing w with
  | nil => exact ⟨rfl, hw⟩
  | cons item rest ih =>
    refine prepares_bind (prepares_treeOf_complete hw hcomplete ?_)
    intro w₁ hw₁
    refine prepares_bind (prepares_ofOption (a := item.2) ?_ ?_)
    · obtain ⟨hdata, hsingle⟩ := h item List.mem_cons_self
      rw [hdata]
      exact readBounded_self item.2 hsingle
    · refine prepares_bind (prepares_mono
        (ih hw₁ fun i hi => h i (List.mem_cons_of_mem _ hi)) ?_)
      rintro documents w₂ ⟨rfl, hw₂⟩
      exact ⟨rfl, hw₂⟩

theorem prepares_validate (hw : w.trees plan.id = some t) (h : Complete call plan t) :
    Prepares call plan me alone (validateExisting call plan)
      (fun _ w' => w'.trees plan.id = some t) w := by
  obtain ⟨files, hfiles, hdocuments⟩ := h.context
  refine prepares_bind (prepares_treeOf_complete hw h ?_)
  intro w₁ hw₁
  have hrepo : t.repo.isSome = true := by
    cases hr : t.repo with
    | none =>
      have hready := h.repo
      rw [hr] at hready
      cases hready
    | some _ => rfl
  refine prepares_bind (prepares_require ?_ ?_)
  · simp [hasDirectories, hrepo, hfiles, h.artifacts, h.logs]
  refine prepares_bind (prepares_mono (prepares_readDocuments hw₁ h ?_) ?_)
  · intro item hitem
    simpa [documentAt, hfiles] using hdocuments item hitem
  rintro documents w₂ ⟨hread, hw₂⟩
  refine prepares_bind (prepares_treeOf_complete hw₂ h ?_)
  intro w₃ hw₃
  refine prepares_bind (prepares_ofOption (a := plan.manifest) ?_ ?_)
  · rw [Option.bind_some, h.manifest]
    exact readBounded_self plan.manifest h.single
  refine prepares_bind (prepares_require ⟨hread, rfl⟩ ?_)
  refine prepares_bind (prepares_treeOf_complete hw₃ h ?_)
  intro w₄ hw₄
  exact prepares_require h.repo hw₄
end

section
variable {w : PrepareWorld κ}

theorem prepares_publishAll {items : List (String × Bytes)} (files : Store String Bytes)
    (hw : Owned plan me t w) (hopen : t.manifest = none) (hspare : t.spare = [])
    (hfiles : t.context = some files)
    (hnodup : (items.map Prod.fst).Nodup) (hfree : ∀ item ∈ items, files item.1 = none) :
    Prepares call plan me alone (publishAll plan.id items)
      (fun created w' => created = true ∧ ∃ files', Owned plan me {t with context := some files'} w' ∧
        (∀ item ∈ items, files' item.1 = some item.2) ∧
        ∀ name ∉ items.map Prod.fst, files' name = files name) w := by
  induction items generalizing t files w with
  | nil =>
    refine ⟨rfl, files, ?_, by simp, fun _ _ => rfl⟩
    rw [← hfiles]
    exact hw
  | cons item rest ih =>
    obtain ⟨hfresh, hrest⟩ := List.nodup_cons.mp hnodup
    refine prepares_bind (prepares_publish hw (Or.inl hopen) ?_ hspare (Or.inl hopen) ?_)
    · rw [documentAt, Option.bind_some, hfiles, Option.bind_some]
      exact hfree item List.mem_cons_self
    · intro w₁ hw₁
      have hother : ∀ i ∈ rest, i.1 ≠ item.1 := by
        intro i hi heq
        exact hfresh (heq ▸ List.mem_map_of_mem hi)
      refine prepares_mono (ih (Function.update files item.1 (some item.2)) hw₁ hopen
        hspare ?_ hrest ?_) ?_
      · rw [addDocument, hfiles]
        rfl
      · intro i hi
        rw [Function.update_of_ne (hother i hi)]
        exact hfree i (List.mem_cons_of_mem _ hi)
      · rintro created w₂ ⟨hcreated, files', howned, hall, hrest'⟩
        refine ⟨hcreated, files', howned, ?_, ?_⟩
        · intro i hi
          rcases List.mem_cons.mp hi with rfl | hi
          · rw [hrest' _ hfresh, Function.update_self]
          · exact hall i hi
        · intro name hname
          rw [List.map_cons, List.mem_cons, not_or] at hname
          rw [hrest' name hname.2, Function.update_of_ne hname.1]

theorem prepares_gitWorktreeAdd {commit : String} (hw : Owned plan me t w)
    (hopen : t.Open) (hrepo : t.repo = none) :
    Prepares call plan me alone (gitWorktreeAdd plan.id commit)
      (fun _ w' => Owned plan me {t with repo := some (.worktree commit)} w') w := by
  refine prepares_bind (prepares_treeOf hw ?_)
  intro w₁ hw₁
  refine prepares_bind (prepares_require hrepo ?_)
  refine prepares_bind (prepares_attempt hw₁ hopen
    (f := fun t => {t with repo := some .unfinished}) (b := ()) ?_ ?_)
  · intro w' hw'
    simp only [hw'.tree, Option.bind_some, hrepo]
  · intro w₂ hw₂
    exact prepares_edit hw₂ hopen fun _ hw₃ => hw₃

theorem prepares_makeRepo {commit : String} (hw : Owned plan me t w) (hopen : t.Open)
    (hrepo : t.repo = none) : Prepares call plan me alone (makeRepo call plan.id commit)
      (fun _ w' => ∃ repo, repoReady call commit (some repo) = true ∧
        Owned plan me {t with repo := some repo} w') w := by
  unfold makeRepo
  split
  next hfixture =>
    refine prepares_edit hw hopen ?_
    intro w₁ hw₁
    rw [hrepo] at hw₁
    exact ⟨.empty, hfixture, hw₁⟩
  next hworktree =>
    refine prepares_bind (prepares_mono (prepares_gitWorktreeAdd hw hopen hrepo) ?_)
    intro _ w₁ hw₁
    refine prepares_bind (prepares_treeOf hw₁ ?_)
    intro w₂ hw₂
    exact prepares_require rfl ⟨.worktree commit, by simp [repoReady, hworktree], hw₂⟩

theorem items_nodup (documents : ContextDocuments) : (documents.items.map Prod.fst).Nodup := by
  change ["AGENT.md", "GRAPH_CONTEXT.json", "GRAPH_REPORT.md", "POLICY.md", "SOURCES.md", "TASK.md",
    "bundle.json"].Nodup
  decide

theorem prepares_materialize (hw : alone → w.trees plan.id = none) :
    Prepares call plan me alone (materialize call me plan)
      (fun _ w' => Filled call plan w') w := by
  refine prepares_bind ?_
  intro w₁ hw₁ hr₁ ha
  have hnone : w₁.trees plan.id = none := by
    rcases ha with ha | ha
    · exact (hr₁.alone ha).trans (hw ha)
    · exact ha
  have howned : Owned plan me .bare (makeDirectory me plan.id w₁) := by
    constructor
    · simp only [makeDirectory, Function.update_self, hnone, Option.getD_none]
    · simp only [makeDirectory, hnone, Function.update_self]
  have hsound : Sound plan (makeDirectory me plan.id w₁) := by
    constructor
    · intro h
      cases howned.tree.symm.trans h
    · intro h
      cases howned.maker.symm.trans h
  refine ⟨hsound, Or.inr (Or.inr ⟨hnone, howned.maker⟩), ?_⟩
  refine prepares_bind (prepares_mono (prepares_makeRepo howned (Or.inl rfl) rfl) ?_)
  rintro _ w₂ ⟨repo, hrepo, hw₂⟩
  refine prepares_bind (prepares_edit hw₂ (Or.inl rfl) ?_)
  intro w₃ hw₃
  refine prepares_bind (prepares_edit hw₃ (Or.inl rfl) ?_)
  intro w₄ hw₄
  refine prepares_bind (prepares_edit hw₄ (Or.inl rfl) ?_)
  intro w₅ hw₅
  refine prepares_bind (prepares_mono (prepares_publishAll (fun _ => none) hw₅ rfl rfl
    rfl (items_nodup plan.documents) fun _ _ => rfl) ?_)
  rintro created w₆ ⟨rfl, files, hw₆, hfiles, -⟩
  refine prepares_bind (prepares_publish hw₆ (Or.inl rfl) rfl rfl
    (Or.inr List.mem_cons_self) ?_)
  intro w₇ hw₇
  have hcomplete : Complete call plan
      ⟨some repo, some files, true, true, some plan.manifest, []⟩ :=
    ⟨hrepo, rfl, rfl, rfl, List.not_mem_nil, files, rfl,
      fun item hitem => ⟨hfiles item hitem, List.not_mem_nil⟩⟩
  refine prepares_bind (prepares_require ⟨rfl, rfl⟩ ?_)
  refine prepares_bind (prepares_mono (prepares_validate hw₇.tree hcomplete) ?_)
  intro _ w₈ hw₈
  exact ⟨_, hw₈, hcomplete⟩
end

section
variable {w : PrepareWorld κ}

theorem prepares_probe {Q : Bool → PrepareWorld κ → Prop} (hw : alone → Settled call plan w)
    (hfilled : ∀ w', Filled call plan w' → Q true w')
    (hnone : ∀ w', w'.trees plan.id = none → Q false w') :
    Prepares call plan me alone (probe plan.id) Q w := by
  intro w' hw' hr ha
  have hsettled : Settled call plan w' := by
    rcases ha with ha | ha
    · exact settled_same (hw ha) (hr.alone ha)
    · exact ha
  refine ⟨hw', Or.inl ⟨rfl, rfl⟩, ?_⟩
  change Q (w'.trees plan.id).isSome w'
  rcases hsettled with hn | hf
  · rw [hn]
    exact hnone w' hn
  · obtain ⟨t, ht, hcomplete⟩ := hf
    rw [ht]
    exact hfilled w' ⟨t, ht, hcomplete⟩

theorem prepares_found (hw : Filled call plan w) :
    Prepares call plan me alone ((validateExisting call plan).bind fun _ => pure true)
      (fun _ w' => Filled call plan w') w := by
  obtain ⟨t, ht, hcomplete⟩ := hw
  refine prepares_bind (prepares_mono (prepares_validate ht hcomplete) ?_)
  intro _ w₁ hw₁
  exact ⟨t, hw₁, hcomplete⟩

theorem prepares_persist (hw : alone → Settled call plan w) :
    Prepares call plan me alone (persist call me plan) (fun _ w' => Filled call plan w') w := by
  refine prepares_bind (prepares_probe hw (fun w₁ hw₁ => prepares_found hw₁) ?_)
  intro w₁ hw₁
  refine prepares_bind ?_
  intro w₂ hw₂ hr₂ _
  refine ⟨hw₂, Or.inl ⟨rfl, rfl⟩, ?_⟩
  have hnone : alone → w₂.trees plan.id = none := fun ha => (hr₂.alone ha).trans hw₁
  refine prepares_bind (prepares_probe (fun ha => Or.inl (hnone ha))
    (fun w₃ hw₃ => prepares_found hw₃) ?_)
  intro w₃ hw₃
  exact prepares_materialize fun _ => hw₃

theorem stable_plan (h : makePlan rules sources call = .ok plan) :
    assertSourcesStable sources call plan.payload = .ok () := by
  obtain ⟨payload, hpayload, h⟩ := bind_eq_ok.mp h
  simp only at h
  split at h
  · cases h
  obtain rfl := Except.ok.inj h
  obtain ⟨_, -, h⟩ := bind_eq_ok.mp hpayload
  obtain ⟨⟨generationId, generationSha256, task⟩, htask, h⟩ := bind_eq_ok.mp h
  obtain ⟨⟨definition, employee⟩, -, h⟩ := bind_eq_ok.mp h
  obtain ⟨commit, hcommit, h⟩ := bind_eq_ok.mp h
  obtain ⟨graph, -, h⟩ := bind_eq_ok.mp h
  obtain ⟨fitted, -, h⟩ := bind_eq_ok.mp h
  obtain rfl := Except.ok.inj h
  have hboard : sources.board.generationId = some generationId ∧
      sources.board.generationSha256 = some generationSha256 := by
    unfold boardTask at htask
    split at htask
    next hid hsha =>
      split at htask
      · obtain ⟨rfl, hrest⟩ := Prod.mk.inj (Except.ok.inj htask)
        obtain ⟨rfl, -⟩ := Prod.mk.inj hrest
        exact ⟨hid, hsha⟩
      · cases htask
    · cases htask
  have hhead : call.fixtureMode = false → sources.gitHead = some commit := by
    intro hfixture
    unfold gitBinding at hcommit
    rw [if_neg (by simp [hfixture])] at hcommit
    split at hcommit
    · cases hcommit
    split at hcommit
    · cases hcommit
    split at hcommit
    next hgit =>
      obtain rfl := Except.ok.inj hcommit
      exact hgit
    · cases hcommit
  unfold assertSourcesStable
  rw [if_neg (by simp [hboard]), if_neg (by simp), if_neg]
  rintro ⟨hfixture, hne⟩
  exact hne (hhead hfixture)

theorem prepares_prepare (hplan : makePlan rules sources call = .ok plan)
    (hw : alone → Settled call plan w) : Prepares call plan me alone (prepare rules sources call me)
      (fun r w' => r.1 = plan.prepared ∧ Filled call plan w') w := by
  refine prepares_bind (prepares_ofExcept hplan ?_)
  refine prepares_bind (prepares_ofExcept (stable_plan hplan) ?_)
  refine prepares_bind (prepares_mono (prepares_persist hw) ?_)
  intro noOp w₁ hw₁
  refine prepares_bind (prepares_ofExcept (stable_plan hplan) ?_)
  exact ⟨rfl, hw₁⟩
end
end RaytSystem.Preparation
