import RaytSystem.TaskClosing
import RaytSystem.UniverseModel

/-! What the planes draw: the nodes and edges of all calls, when a drawing is made of them, and which
of the drawn nodes their models accept; and the ends of the edges: which references of the planes are
closed by their loaders, and which are not. -/
namespace RaytSystem.Universe
open PyText Catalog Corpus Tasking CodeGraph ImmutableStore Check KeyedUnion List

section
variable {α : Type} (items : List α) (node : α → NodeSpec)

@[simp] theorem nodesOf_append (a b : List Call) : nodesOf (a ++ b) = nodesOf a ++ nodesOf b :=
  filterMap_append

@[simp] theorem edgesOf_append (a b : List Call) : edgesOf (a ++ b) = edgesOf a ++ edgesOf b :=
  filterMap_append

@[simp] theorem nodesOf_edges (es : List EdgeSpec) : nodesOf (es.map .edge) = [] := by
  induction es with
  | nil => rfl
  | cons e rest ih => exact ih

@[simp] theorem edgesOf_edges (es : List EdgeSpec) : edgesOf (es.map .edge) = es := by
  induction es with
  | nil => rfl
  | cons e rest ih => exact congrArg (cons e) ih

@[simp] theorem nodesOf_nodes : nodesOf (items.map fun a => .node (node a)) = items.map node := by
  induction items with
  | nil => rfl
  | cons a rest ih => exact congrArg (cons (node a)) ih

@[simp] theorem edgesOf_nodes : edgesOf (items.map fun a => .node (node a)) = [] := by
  induction items with
  | nil => rfl
  | cons a rest ih => exact ih

@[simp] theorem nodesOf_drawEach (edges : α → List EdgeSpec) :
    nodesOf (drawEach items node edges) = items.map node := by
  induction items with
  | nil => rfl
  | cons a rest ih =>
    have hfirst : drawEach (a :: rest) node edges =
        (.node (node a) :: (edges a).map .edge) ++ drawEach rest node edges := rfl
    have hnode : nodesOf (Call.node (node a) :: (edges a).map .edge) = [node a] := by
      change node a :: nodesOf ((edges a).map .edge) = _
      rw [nodesOf_edges]
    rw [hfirst, nodesOf_append, hnode, ih, map_cons, singleton_append]

@[simp] theorem edgesOf_drawEach (edges : α → List EdgeSpec) :
    edgesOf (drawEach items node edges) = items.flatMap edges := by
  induction items with
  | nil => rfl
  | cons a rest ih =>
    have hfirst : drawEach (a :: rest) node edges =
        (.node (node a) :: (edges a).map .edge) ++ drawEach rest node edges := rfl
    have hedges : edgesOf (Call.node (node a) :: (edges a).map .edge) = edges a :=
      edgesOf_edges (edges a)
    rw [hfirst, edgesOf_append, hedges, ih, flatMap_cons]

theorem flatMap_one (edge : α → EdgeSpec) : (items.flatMap fun a => [edge a]) = items.map edge :=
  map_eq_flatMap.symm

theorem draw_eq_ok {d d' : Drawing} {cs : List Call} : draw d cs = .ok d' ↔
    insertAll NodeSpec.nodeId d.nodes (nodesOf cs) = some d'.nodes ∧
      keepAll edgeKey d.edges (edgesOf cs) = d'.edges := by
  induction cs generalizing d with
  | nil =>
    obtain ⟨nodes, edges⟩ := d'
    obtain ⟨nodes₀, edges₀⟩ := d
    simp [draw, nodesOf, edgesOf, insertAll, keepAll]
  | cons c rest ih =>
    cases c with
    | node n =>
      have hnodes : nodesOf (.node n :: rest) = n :: nodesOf rest := rfl
      have hedges : edgesOf (.node n :: rest) = edgesOf rest := rfl
      rw [hnodes, hedges, insertAll, draw, bind_eq_ok]
      unfold addNode
      cases insert NodeSpec.nodeId d.nodes n with
      | none => simp
      | some nodes => simpa using ih
    | edge e =>
      have hnodes : nodesOf (.edge e :: rest) = nodesOf rest := rfl
      have hedges : edgesOf (.edge e :: rest) = e :: edgesOf rest := rfl
      rw [hnodes, hedges, draw, ih]
      rfl
end

section
variable (w : Planes)

def taskGenerationNodes : List NodeSpec := w.tasks.generationId.toList.map (taskGenerationNode w)

def viewedNodes : List CodeNode :=
  w.code.elim [] fun c => (codeSlice w.viewNodes w.viewEdges c.1).1

def codeNodes : List NodeSpec :=
  w.code.elim [] fun c => (codeSlice w.viewNodes w.viewEdges c.1).1.map (codeNode w c.1)

theorem nodesOf_taskGeneration : nodesOf (taskGenerationCalls w) = taskGenerationNodes w := by
  unfold taskGenerationCalls taskGenerationNodes
  cases w.tasks.generationId <;> rfl

theorem nodesOf_code : nodesOf (codeCalls w) = codeNodes w := by
  unfold codeCalls codeNodes
  cases w.code with
  | none => rfl
  | some c => simp

def objectNodes : List NodeSpec :=
  w.catalog.parts.instructions.map instructionNode ++ w.catalog.parts.adapters.map adapterNode ++
    w.catalog.parts.packs.map packNode ++ w.catalog.parts.skills.map skillNode ++
    w.catalog.parts.agents.map agentNode ++ w.tasks.tasks.map taskNode ++ w.runs.map runNode ++
    w.corpus.sources.map sourceNode ++ w.corpus.evidence.map evidenceNode ++
    w.corpus.entities.map entityNode ++ w.corpus.claims.map claimNode

theorem nodesOf_calls : nodesOf (calls w) =
    [workspaceNode w, generationNode w] ++ taskGenerationNodes w ++ objectNodes w ++
      codeNodes w := by
  have hcore : nodesOf (coreCalls w) = [workspaceNode w, generationNode w] := rfl
  simp [calls, firstCalls, hcore, nodesOf_taskGeneration, nodesOf_code, instructionCalls,
    adapterCalls, packCalls, skillCalls, agentCalls, taskCalls, runCalls, sourceCalls,
    evidenceCalls, entityCalls, claimCalls, objectNodes]

def taskGenerationEdges : List EdgeSpec :=
  w.tasks.generationId.toList.map fun id =>
    {source := workspaceId, target := id, kind := "activates"}

def codePlaneEdges : List EdgeSpec :=
  w.code.elim [] fun c =>
    (codeSlice w.viewNodes w.viewEdges c.1).2.flatMap
      (codeEdges c.1 (codeSlice w.viewNodes w.viewEdges c.1).1) ++
      repositoryEdges c.1 (codeSlice w.viewNodes w.viewEdges c.1).1

theorem edgesOf_taskGeneration : edgesOf (taskGenerationCalls w) = taskGenerationEdges w := by
  unfold taskGenerationCalls taskGenerationEdges
  cases w.tasks.generationId <;> rfl

theorem edgesOf_code : edgesOf (codeCalls w) = codePlaneEdges w := by
  unfold codeCalls codePlaneEdges
  cases w.code with
  | none => rfl
  | some c => simp

def offered {α : Type} (source kind : String) (id : α → String) (items : List α) : List EdgeSpec :=
  items.map fun a => {source := source, target := id a, kind := kind}

theorem edgesOf_calls : edgesOf (calls w) =
    [{source := workspaceId, target := generationId w, kind := "activates"}] ++
      taskGenerationEdges w ++
      offered workspaceId "governed_by" (fun d => d.documentId.val) w.catalog.parts.instructions ++
      offered workspaceId "offers" (fun d => d.adapterId.val) w.catalog.parts.adapters ++
      offered workspaceId "contains" (fun p => p.packId.val) w.catalog.parts.packs ++
      (w.catalog.parts.skills.map fun s =>
        {source := s.packId.val, target := s.skillId.val, kind := "contains"}) ++
      w.catalog.parts.packs.flatMap (packEdges w (knownIds w)) ++
      w.catalog.parts.agents.flatMap (agentEdges w) ++ w.tasks.tasks.flatMap (taskEdges w) ++
      w.runs.flatMap (runEdges w) ++
      offered (generationId w) "contains" (fun s => s.sourceId.val) w.corpus.sources ++
      (w.corpus.evidence.map fun e =>
        {source := e.source.sourceId.val, target := e.segment.segmentId.val,
          kind := "contains"}) ++
      w.corpus.entities.flatMap (entityEdges w) ++ w.corpus.claims.flatMap (claimEdges w) ++
      w.corpus.relations.flatMap (relationEdges w) ++ codePlaneEdges w := by
  have hcore : edgesOf (coreCalls w) =
      [{source := workspaceId, target := generationId w, kind := "activates"}] := rfl
  simp [calls, firstCalls, hcore, edgesOf_taskGeneration, edgesOf_code, instructionCalls,
    adapterCalls, packCalls, skillCalls, agentCalls, taskCalls, runCalls, sourceCalls,
    evidenceCalls, entityCalls, claimCalls, offered, flatMap_one]
end

section

theorem length_stripList_le (p : Char → Bool) (cs : List Char) :
    (stripList p cs).length ≤ cs.length := by
  have hfront := (cs.dropWhile_suffix p).length_le
  have hback := ((cs.dropWhile p).reverse.dropWhile_suffix p).length_le
  rw [length_reverse] at hback
  rw [stripList, length_reverse]
  exact hback.trans hfront

theorem length_trim_le (s : String) : (trim s).length ≤ s.length := by
  rw [trim, String.length_ofList, ← String.length_toList]
  exact length_stripList_le _ _

variable {c : Char}

theorem mem_dropWhile {p : Char → Bool} {cs : List Char} (hc : c ∈ cs) (hp : p c = false) :
    c ∈ cs.dropWhile p := by
  have hsplit := takeWhile_append_dropWhile (p := p) (l := cs)
  rw [← hsplit] at hc
  rcases mem_append.mp hc with hc | hc
  · rw [mem_takeWhile_imp hc] at hp
    cases hp
  · exact hc

theorem mem_stripList {p : Char → Bool} {cs : List Char} (hc : c ∈ cs) (hp : p c = false) :
    c ∈ stripList p cs := by
  rw [stripList, mem_reverse]
  refine mem_dropWhile (mem_reverse.mpr ?_) hp
  exact mem_dropWhile hc hp

variable {s : String}

theorem isNonEmptyStr_trim (hc : c ∈ s.toList) (hblank : isWhiteSpace c = false)
    (hlength : s.length ≤ 4096) : isNonEmptyStr (trim s) = true := by
  have hmem : c ∈ (trim s).toList := by
    rw [trim, String.toList_ofList]
    exact mem_stripList hc hblank
  have hpositive : 0 < (trim s).length := by
    rw [← String.length_toList]
    exact length_pos_of_mem hmem
  have hle := (length_trim_le s).trans hlength
  simp only [isNonEmptyStr, Bool.and_eq_true, decide_eq_true_eq]
  omega

theorem length_shortId (s : String) : (shortId s).length ≤ 18 := by
  simp only [shortId]
  split
  next h => rwa [String.length_toList] at h
  next h =>
    simp only [String.length_ofList, length_append, length_take, length_cons,
      length_drop]
    omega

theorem isNonEmptyStr_evidence (id : String) :
    isNonEmptyStr (trim ("Evidence " ++ shortId id)) = true := by
  have hlength := length_shortId id
  have hword : ("Evidence ").length = 9 := by decide
  refine isNonEmptyStr_trim (c := 'E') ?_ (by decide) ?_
  · rw [String.toList_append]
    exact mem_append_left _ (by decide)
  · rw [String.length_append]
    omega

theorem length_titleList (after : Bool) (cs : List Char) :
    (titleList after cs).length = cs.length := by
  induction cs generalizing after with
  | nil => rfl
  | cons c rest ih =>
    unfold titleList
    split <;> simp [ih]

theorem toUpper_not_blank (h : 'a' ≤ c ∧ c ≤ 'z') : isWhiteSpace c.toUpper = false := by
  have hrange : 97 ≤ c.toNat ∧ c.toNat ≤ 122 := h
  have hall : ∀ n : Fin 123, 97 ≤ n.val → isWhiteSpace (Char.ofNat n.val).toUpper = false := by
    decide
  have hc := hall ⟨c.toNat, by omega⟩ hrange.1
  rwa [Char.ofNat_toNat] at hc

theorem isNonEmptyStr_title (h : isIdentifier s = true) :
    isNonEmptyStr (trim (operationTitle s)) = true := by
  have hlength := length_identifier h
  unfold isIdentifier at h
  split at h
  · cases h
  next c cs hs =>
    simp only [Bool.and_eq_true, decide_eq_true_eq] at h
    obtain ⟨⟨⟨hletter, -⟩, -⟩, -⟩ := h
    have hne : c ≠ '_' := by
      rintro rfl
      exact absurd hletter (by decide)
    have halpha : c.isAlpha = true := by
      have hlower : c.isLower = true := by
        have hrange : 97 ≤ c.val ∧ c.val ≤ 122 := hletter
        simp [Char.isLower, hrange]
      simp [Char.isAlpha, hlower]
    refine isNonEmptyStr_trim (c := c.toUpper) ?_ (toUpper_not_blank hletter) ?_
    · rw [operationTitle, String.toList_ofList, hs, map_cons, if_neg hne, titleList,
        if_pos halpha]
      exact mem_cons_self
    · rw [operationTitle, String.length_ofList, length_titleList, length_map,
        String.length_toList]
      omega

theorem isNonEmptyStr_truncate (h : isNonEmptyStr s = true ∧ trim s = s) :
    isNonEmptyStr (trim (truncate s 180)) = true := by
  unfold truncate
  dsimp only
  split
  · rw [h.2]
    exact h.1
  · refine isNonEmptyStr_trim (c := '…') ?_ (by decide) ?_
    · rw [String.toList_ofList]
      exact mem_append_right _ mem_cons_self
    · rw [String.length_ofList, length_append, length_reverse, length_singleton]
      have hdrop := ((s.toList.take 179).reverse.dropWhile_suffix isSpace).length_le
      rw [length_reverse, length_take] at hdrop
      have hle : min 179 s.toList.length ≤ 179 := Nat.min_le_left _ _
      have hshort : ((s.toList.take (180 - 1)).reverse.dropWhile isSpace).length ≤ 179 :=
        hdrop.trans hle
      omega
end

section
variable {env : TaskEnv} {s : TaskStore}

structure ValidBoard (b : TaskBoardSnapshot) : Prop where
  generation : ∀ id ∈ b.generationId, isIdentifier id = true
  taskId : ∀ t ∈ b.tasks, isIdentifier t.taskId = true
  title : ∀ t ∈ b.tasks, isNonEmptyStr t.title = true ∧ trim t.title = t.title

theorem readTask_title {taskId : String} {sha : Sha256} {t : AgentTask}
    (h : readTask env taskId sha s = .ok t) :
    isIdentifier t.taskId = true ∧ isNonEmptyStr t.title = true ∧ trim t.title = t.title := by
  simp only [readTask, bind_ok, read_ok, ofOption_ok, ensure_ok,
    pure_ok] at h
  obtain ⟨data, -, -, -, task, hvalid, -, -, rfl⟩ := h
  obtain ⟨rfl, hfields, -⟩ := task_validate hvalid
  have hid := (task_identifiers hfields).1
  simp only [AgentTask.fieldsValid, Bool.and_eq_true] at hfields
  obtain ⟨⟨⟨⟨⟨⟨⟨⟨-, htitle⟩, -⟩, -⟩, -⟩, -⟩, -⟩, -⟩, -⟩ := hfields
  exact ⟨hid, htitle, trim_trim data.title⟩

theorem readCurrentGeneration_id {g : TaskBoardGeneration}
    (h : readCurrentGeneration env s = .ok (some g)) : isIdentifier g.generationId = true := by
  simp only [readCurrentGeneration, bind_ok] at h
  obtain ⟨pointer, -, h⟩ := h
  cases pointer with
  | none =>
    rw [pure_ok] at h
    cases h
  | some id =>
    simp only [bind_ok, pure_ok] at h
    obtain ⟨-, -, g', hread, -, -, hg⟩ := h
    obtain rfl := Option.some.inj hg
    obtain ⟨-, hfields, -⟩ := readGeneration_fields hread
    simp only [TaskBoardGeneration.fieldsValid, Bool.and_eq_true] at hfields
    exact hfields.1.1.1.1.1.1

theorem snapshot_valid {b : TaskBoardSnapshot} (h : Tasking.snapshot env s = .ok b) :
    ValidBoard b := by
  simp only [Tasking.snapshot, bind_ok] at h
  obtain ⟨generation, hgeneration, h⟩ := h
  cases generation with
  | none =>
    simp only [snapshotOf, pure_ok] at h
    subst h
    exact ⟨by simp, by simp, by simp⟩
  | some g =>
    simp only [snapshotOf, bind_ok, pure_ok] at h
    obtain ⟨tasks, htasks, rfl⟩ := h
    have hall := collect_ok.mp htasks
    have hread : ∀ t ∈ tasks, ∃ kv : String × Sha256, readTask env kv.1 kv.2 s = .ok t := by
      intro t ht
      obtain ⟨i, hi, rfl⟩ := mem_iff_getElem.mp ht
      have hentry : i < (sortedItems g.taskHashes).length := hall.length_eq ▸ hi
      exact ⟨(sortedItems g.taskHashes)[i], hall.get hentry hi⟩
    refine ⟨?_, ?_, ?_⟩
    · intro id hid
      obtain rfl := Option.some.inj hid
      exact readCurrentGeneration_id hgeneration
    · intro t ht
      obtain ⟨kv, hkv⟩ := hread t ht
      exact (readTask_title hkv).1
    · intro t ht
      obtain ⟨kv, hkv⟩ := hread t ht
      exact (readTask_title hkv).2
end

section
variable {w : Planes}

structure Wellformed (n : NodeSpec) : Prop where
  nodeId : isIdentifier n.nodeId = true
  kind : isIdentifier n.kind = true
  label : isNonEmptyStr (trim n.label) = true
  status : isIdentifier n.status = true
  ring : isIdentifier n.ring = true
  importance : 1 ≤ n.importance ∧ n.importance ≤ 100
  sourceRef : n.sourceRef.all isIdentifier = true

def Fits (n : NodeSpec) : Prop := (trim n.subtitle).length ≤ 4096

theorem label_text (t : NonEmptyStr) : isNonEmptyStr (trim t.val) = true := by
  rw [t.property.2]
  exact t.property.1

theorem label_identifier {s : String} (h : isIdentifier s = true) :
    isNonEmptyStr (trim s) = true := by
  rw [trim_identifier h]
  exact isNonEmptyStr_identifier h

variable {n : NodeSpec}

theorem fits_of_length (h : n.subtitle.length ≤ 4096) : Fits n :=
  (length_trim_le n.subtitle).trans h

theorem fits_identifier (h : isIdentifier n.subtitle = true) : Fits n := by
  have hlength := length_identifier h
  exact fits_of_length (by omega)

theorem fits_text (t : NonEmptyStr) (h : n.subtitle = t.val) : Fits n := by
  have hlength := t.property.1
  simp only [isNonEmptyStr, Bool.and_eq_true, decide_eq_true_eq] at hlength
  exact fits_of_length (h ▸ hlength.2)

theorem fits_shortId {id : String} (h : n.subtitle = shortId id) : Fits n := by
  have hlength := length_shortId id
  exact fits_of_length (by rw [h]; omega)

theorem sensitivity_status (s : Sensitivity) : isIdentifier (sensitivityValue s) = true := by
  cases s <;> decide

theorem wellformed_workspace : Wellformed (workspaceNode w) where
  nodeId := show isIdentifier workspaceId = true from by decide
  kind := show isIdentifier "workspace" = true from by decide
  label := show isNonEmptyStr (trim "raytsystem workspace") = true from by decide
  status := show isIdentifier "local_only" = true from by decide
  ring := show isIdentifier "core" = true from by decide
  importance := show 1 ≤ 100 ∧ 100 ≤ 100 from by decide
  sourceRef := rfl

theorem wellformed_generation : Wellformed (generationNode w) where
  nodeId := w.corpus.generation.generationId.property
  kind := show isIdentifier "generation" = true from by decide
  label := show isNonEmptyStr (trim "Knowledge generation") = true from by decide
  status := show isIdentifier "active" = true from by decide
  ring := show isIdentifier "core" = true from by decide
  importance := show 1 ≤ 92 ∧ 92 ≤ 100 from by decide
  sourceRef := rfl

theorem wellformed_taskGeneration {id : String} (h : isIdentifier id = true) :
    Wellformed (taskGenerationNode w id) where
  nodeId := h
  kind := show isIdentifier "task_generation" = true from by decide
  label := show isNonEmptyStr (trim "Task generation") = true from by decide
  status := show isIdentifier "active" = true from by decide
  ring := show isIdentifier "work" = true from by decide
  importance := show 1 ≤ 78 ∧ 78 ≤ 100 from by decide
  sourceRef := rfl

theorem wellformed_instruction (d : InstructionDocument) : Wellformed (instructionNode d) where
  nodeId := d.documentId.property
  kind := show isIdentifier "instruction" = true from by decide
  label := label_text d.label
  status := sensitivity_status d.sensitivity
  ring := show isIdentifier "instruction" = true from by decide
  importance := show 1 ≤ 72 ∧ 72 ≤ 100 from by decide
  sourceRef := rfl

theorem wellformed_adapter (d : RuntimeAdapterDefinition) : Wellformed (adapterNode d) where
  nodeId := d.adapterId.property
  kind := show isIdentifier "adapter" = true from by decide
  label := label_text d.name
  status := by
    change isIdentifier d.state.value = true
    cases d.state <;> decide
  ring := show isIdentifier "application" = true from by decide
  importance := show 1 ≤ 54 ∧ 54 ≤ 100 from by decide
  sourceRef := rfl

theorem wellformed_pack (p : PackManifest) : Wellformed (packNode p) where
  nodeId := p.packId.property
  kind := show isIdentifier "pack" = true from by decide
  label := label_text p.name
  status := by
    change isIdentifier (packStatus p) = true
    unfold packStatus
    split <;> decide
  ring := show isIdentifier "instruction" = true from by decide
  importance := show 1 ≤ 64 ∧ 64 ≤ 100 from by decide
  sourceRef := rfl

theorem wellformed_skill (s : SkillDefinition) : Wellformed (skillNode s) where
  nodeId := s.skillId.property
  kind := show isIdentifier "skill" = true from by decide
  label := label_text s.name
  status := by
    change isIdentifier (skillStatus s) = true
    unfold skillStatus
    split <;> decide
  ring := show isIdentifier "capability" = true from by decide
  importance := show 1 ≤ 68 ∧ 68 ≤ 100 from by decide
  sourceRef := rfl

theorem wellformed_agent (a : AgentDefinition) : Wellformed (agentNode a) where
  nodeId := a.agentId.property
  kind := show isIdentifier "agent" = true from by decide
  label := label_text a.name
  status := by
    change isIdentifier (agentStatus a) = true
    unfold agentStatus
    split <;> decide
  ring := show isIdentifier "capability" = true from by decide
  importance := show 1 ≤ 76 ∧ 76 ≤ 100 from by decide
  sourceRef := rfl

theorem wellformed_task {t : AgentTask} (hid : isIdentifier t.taskId = true)
    (htitle : isNonEmptyStr t.title = true ∧ trim t.title = t.title) : Wellformed (taskNode t) where
  nodeId := hid
  kind := show isIdentifier "task" = true from by decide
  label := label_text ⟨t.title, htitle⟩
  status := by
    change isIdentifier t.status.value = true
    cases t.status <;> decide
  ring := show isIdentifier "work" = true from by decide
  importance := by
    unfold taskNode
    dsimp only
    split <;> decide
  sourceRef := rfl

theorem wellformed_run (r : RunSummary) : Wellformed (runNode r) where
  nodeId := r.runId.property
  kind := show isIdentifier "run" = true from by decide
  label := isNonEmptyStr_title r.operationType.property
  status := r.state.property
  ring := show isIdentifier "work" = true from by decide
  importance := show 1 ≤ 58 ∧ 58 ≤ 100 from by decide
  sourceRef := rfl

theorem wellformed_source (s : Source) : Wellformed (sourceNode s) where
  nodeId := s.sourceId.property
  kind := show isIdentifier "source" = true from by decide
  label := by
    unfold sourceNode
    cases s.displayName with
    | none => exact label_identifier s.sourceType.property
    | some name => exact label_text name
  status := sensitivity_status s.sensitivity
  ring := show isIdentifier "evidence" = true from by decide
  importance := show 1 ≤ 64 ∧ 64 ≤ 100 from by decide
  sourceRef := rfl

theorem wellformed_evidence (e : ResolvedEvidence) : Wellformed (evidenceNode e) where
  nodeId := e.segment.segmentId.property
  kind := show isIdentifier "evidence" = true from by decide
  label := isNonEmptyStr_evidence e.segment.segmentId.val
  status := show isIdentifier "verified" = true from by decide
  ring := show isIdentifier "evidence" = true from by decide
  importance := show 1 ≤ 70 ∧ 70 ≤ 100 from by decide
  sourceRef := e.source.sourceId.property

theorem lifecycle_status (s : LifecycleStatus) : isIdentifier s.value = true := by
  cases s <;> decide

theorem wellformed_entity (e : Entity) : Wellformed (entityNode e) where
  nodeId := e.entityId.property
  kind := show isIdentifier "entity" = true from by decide
  label := label_text e.canonicalLabel
  status := lifecycle_status e.lifecycleStatus
  ring := show isIdentifier "knowledge" = true from by decide
  importance := show 1 ≤ 62 ∧ 62 ≤ 100 from by decide
  sourceRef := rfl

theorem wellformed_claim (c : Claim) : Wellformed (claimNode c) where
  nodeId := c.claimId.property
  kind := show isIdentifier "claim" = true from by decide
  label := isNonEmptyStr_truncate c.statement.property
  status := by
    change isIdentifier c.status.value = true
    cases c.status <;> decide
  ring := show isIdentifier "knowledge" = true from by decide
  importance := by
    unfold claimNode
    dsimp only
    split <;> decide
  sourceRef := rfl

theorem codeImportance_range (n : CodeNode) : 1 ≤ codeImportance n ∧ codeImportance n ≤ 100 := by
  unfold codeImportance
  refine ⟨?_, Nat.min_le_left _ _⟩
  rw [Nat.le_min]
  cases n.kind <;> simp <;> omega

theorem wellformed_code {s : CodeSnapshot} {n : CodeNode} (h : validCodeNode n = true) :
    Wellformed (codeNode w s n) := by
  simp only [validCodeNode, Bool.and_eq_true, decide_eq_true_eq, beq_iff_eq] at h
  obtain ⟨⟨⟨⟨hid, hlow⟩, hhigh⟩, htrim⟩, -⟩ := h
  refine ⟨hid, ?_, ?_, ?_, ?_, codeImportance_range n, rfl⟩
  · change isIdentifier n.kind.value = true
    cases n.kind <;> decide
  · change isNonEmptyStr (trim n.label) = true
    rw [htrim]
    simp only [isNonEmptyStr, Bool.and_eq_true, decide_eq_true_eq]
    omega
  · change isIdentifier w.codeState.value = true
    cases w.codeState <;> decide
  · change isIdentifier "code" = true
    decide
end

section
variable {w : Planes}

structure EachNode (w : Planes) (p : NodeSpec → Prop) : Prop where
  workspace : p (workspaceNode w)
  generation : p (generationNode w)
  taskGeneration : ∀ id ∈ w.tasks.generationId, p (taskGenerationNode w id)
  instructions : ∀ d ∈ w.catalog.parts.instructions, p (instructionNode d)
  adapters : ∀ d ∈ w.catalog.parts.adapters, p (adapterNode d)
  packs : ∀ d ∈ w.catalog.parts.packs, p (packNode d)
  skills : ∀ s ∈ w.catalog.parts.skills, p (skillNode s)
  agents : ∀ a ∈ w.catalog.parts.agents, p (agentNode a)
  tasks : ∀ t ∈ w.tasks.tasks, p (taskNode t)
  runs : ∀ r ∈ w.runs, p (runNode r)
  sources : ∀ s ∈ w.corpus.sources, p (sourceNode s)
  evidence : ∀ e ∈ w.corpus.evidence, p (evidenceNode e)
  entities : ∀ e ∈ w.corpus.entities, p (entityNode e)
  claims : ∀ c ∈ w.corpus.claims, p (claimNode c)
  code : ∀ n ∈ codeNodes w, p n

theorem forall_nodes {p : NodeSpec → Prop} : (∀ n ∈ nodesOf (calls w), p n) ↔ EachNode w p := by
  rw [nodesOf_calls]
  simp only [objectNodes, taskGenerationNodes, forall_mem_append, forall_mem_map,
    forall_mem_cons, Option.mem_toList]
  constructor
  · rintro ⟨⟨⟨⟨h1, h2, -⟩, h3⟩, ⟨⟨⟨⟨⟨⟨⟨⟨⟨⟨h4, h5⟩, h6⟩, h7⟩, h8⟩, h9⟩, h10⟩, h11⟩, h12⟩, h13⟩, h14⟩⟩,
      h15⟩
    exact ⟨h1, h2, h3, h4, h5, h6, h7, h8, h9, h10, h11, h12, h13, h14, h15⟩
  · rintro ⟨h1, h2, h3, h4, h5, h6, h7, h8, h9, h10, h11, h12, h13, h14, h15⟩
    exact ⟨⟨⟨⟨h1, h2, by simp⟩, h3⟩, ⟨⟨⟨⟨⟨⟨⟨⟨⟨⟨h4, h5⟩, h6⟩, h7⟩, h8⟩, h9⟩, h10⟩, h11⟩, h12⟩, h13⟩,
      h14⟩⟩, h15⟩

def planeIds (w : Planes) : List String :=
  [workspaceId, generationId w] ++ w.tasks.generationId.toList ++
    (w.catalog.parts.instructions.map fun d => d.documentId.val) ++
    (w.catalog.parts.adapters.map fun d => d.adapterId.val) ++
    (w.catalog.parts.packs.map fun p => p.packId.val) ++
    (w.catalog.parts.skills.map fun s => s.skillId.val) ++
    (w.catalog.parts.agents.map fun a => a.agentId.val) ++
    (w.tasks.tasks.map fun t => t.taskId) ++ (w.runs.map fun r => r.runId.val) ++
    (w.corpus.sources.map fun s => s.sourceId.val) ++
    (w.corpus.evidence.map fun e => e.segment.segmentId.val) ++
    (w.corpus.entities.map fun e => e.entityId.val) ++
    (w.corpus.claims.map fun c => c.claimId.val) ++ (viewedNodes w).map fun n => n.nodeId

theorem codeNodes_ids : (codeNodes w).map NodeSpec.nodeId = (viewedNodes w).map fun n => n.nodeId := by
  unfold codeNodes viewedNodes
  cases w.code with
  | none => rfl
  | some c =>
    simp only [Option.elim, map_map]
    rfl

theorem nodeIds_calls : (nodesOf (calls w)).map NodeSpec.nodeId = planeIds w := by
  rw [nodesOf_calls]
  simp only [objectNodes, taskGenerationNodes, planeIds, map_append, map_map, codeNodes_ids,
    append_assoc, map_cons, map_nil]
  have hgeneration : NodeSpec.nodeId ∘ taskGenerationNode w = id := rfl
  rw [hgeneration, map_id]
  rfl

theorem mem_planeIds : EachNode w fun n => n.nodeId ∈ planeIds w :=
  forall_nodes.mp fun _ hn => nodeIds_calls (w := w) ▸ mem_map_of_mem hn

theorem mem_knownIds {id : String} (h : id ∈ knownIds w) : id ∈ planeIds w := by
  rw [← nodeIds_calls]
  obtain ⟨n, hn, rfl⟩ := mem_map.mp h
  refine mem_map_of_mem ?_
  simp only [calls, nodesOf_append, mem_append]
  exact Or.inl (Or.inl (Or.inl (Or.inl (Or.inl (Or.inl (Or.inl (Or.inl (Or.inl (Or.inl hn)))))))))

theorem wellformed_nodes (hboard : ValidBoard w.tasks) : ∀ n ∈ nodesOf (calls w), Wellformed n := by
  rw [forall_nodes]
  exact {
    workspace := wellformed_workspace
    generation := wellformed_generation
    taskGeneration := fun id hid => wellformed_taskGeneration (hboard.generation id hid)
    instructions := fun d _ => wellformed_instruction d
    adapters := fun d _ => wellformed_adapter d
    packs := fun p _ => wellformed_pack p
    skills := fun s _ => wellformed_skill s
    agents := fun a _ => wellformed_agent a
    tasks := fun t ht => wellformed_task (hboard.taskId t ht) (hboard.title t ht)
    runs := fun r _ => wellformed_run r
    sources := fun s _ => wellformed_source s
    evidence := fun e _ => wellformed_evidence e
    entities := fun e _ => wellformed_entity e
    claims := fun c _ => wellformed_claim c
    code := by
      intro n hn
      unfold codeNodes at hn
      cases hcode : w.code with
      | none => simp [hcode] at hn
      | some c =>
        simp only [hcode, Option.elim] at hn
        obtain ⟨m, hm, rfl⟩ := mem_map.mp hn
        have hmem : m ∈ c.1.nodes :=
          ((c.1.nodes.perm_insertionSort _).mem_iff).mp (mem_of_mem_take hm)
        exact wellformed_code (c.1.validNodes m hmem) }

def Short (w : Planes) : Prop :=
  (∀ c ∈ w.corpus.claims, (trim c.language).length ≤ 4096) ∧
    ∀ n ∈ viewedNodes w, (trim (codeSubtitle n)).length ≤ 4096

theorem fits_code : (∀ n ∈ codeNodes w, Fits n) ↔
    ∀ n ∈ viewedNodes w, (trim (codeSubtitle n)).length ≤ 4096 := by
  unfold codeNodes viewedNodes
  cases w.code with
  | none => simp
  | some c => exact forall_mem_map

theorem fits_nodes : (∀ n ∈ nodesOf (calls w), Fits n) ↔ Short w := by
  rw [forall_nodes]
  constructor
  · intro h
    exact ⟨h.claims, fits_code.mp h.code⟩
  · rintro ⟨hclaims, hcode⟩
    have hlocator : ∀ k : LocatorKind, k.value.length ≤ 4096 := by
      intro k
      cases k <;> decide
    have hpriority : ∀ p : TaskPriority, (taskPriorityValue p).length ≤ 4096 := by
      intro p
      cases p <;> decide
    exact {
      workspace := fits_of_length (show ("Local control plane").length ≤ 4096 by decide)
      generation := fits_shortId rfl
      taskGeneration := fun _ _ => fits_shortId rfl
      instructions := fun d _ => fits_identifier d.kind.property
      adapters := fun d _ => fits_identifier d.isolationMode.property
      packs := fun p _ => fits_text p.description rfl
      skills := fun s _ => fits_text s.description rfl
      agents := fun a _ => fits_text a.description rfl
      tasks := fun t _ => fits_of_length (hpriority t.priority)
      runs := fun _ _ => fits_shortId rfl
      sources := fun s _ => fits_identifier s.sourceType.property
      evidence := fun e _ => fits_of_length (hlocator e.segment.locatorKind)
      entities := fun e _ => fits_identifier e.entityType.property
      claims := hclaims
      code := fits_code.mpr hcode }

def Ends (w : Planes) (e : EdgeSpec) : Prop := e.source ∈ planeIds w ∧ e.target ∈ planeIds w

def RelationsClosed (w : Planes) : Prop :=
  ∀ r ∈ w.corpus.relations,
    ((∃ id ∈ r.claimIds, id ∈ liveClaims w) → r.subjectEntityId.val ∈ planeIds w) ∧
      ∀ id, r.object = .entity id →
        r.subjectEntityId.val ∈ planeIds w ∧ id.val ∈ planeIds w

theorem mem_liveClaims {id : Identifier} (h : id ∈ liveClaims w) : id.val ∈ planeIds w := by
  obtain ⟨c, hc, rfl⟩ := mem_map.mp h
  exact mem_planeIds.claims c hc

theorem ends_relation {r : Relation} : (∀ e ∈ relationEdges w r, Ends w e) ↔
    ((∃ id ∈ r.claimIds, id ∈ liveClaims w) → r.subjectEntityId.val ∈ planeIds w) ∧
      ∀ id, r.object = .entity id →
        r.subjectEntityId.val ∈ planeIds w ∧ id.val ∈ planeIds w := by
  rw [relationEdges, forall_mem_append, forall_mem_map]
  refine and_congr ?_ ?_
  · constructor
    · rintro h ⟨id, hid, hlive⟩
      exact (h id (mem_filter.mpr ⟨hid, by simpa using hlive⟩)).2
    · intro h id hid
      obtain ⟨hclaim, hlive⟩ := mem_filter.mp hid
      have hlive' : id ∈ liveClaims w := by simpa using hlive
      exact ⟨mem_liveClaims hlive', h ⟨id, hclaim, hlive'⟩⟩
  · cases r.object with
    | entity id => simp [Ends]
    | literal value => simp

theorem ends_context {source : String} (hsource : source ∈ planeIds w) (paths : List String) :
    ∀ e ∈ contextEdges w source paths, Ends w e := by
  intro e he
  obtain ⟨target, htarget, rfl⟩ := mem_map.mp he
  obtain ⟨path, -, hpath⟩ := mem_filterMap.mp htarget
  obtain ⟨d, hd, rfl⟩ := Option.map_eq_some_iff.mp hpath
  exact ⟨hsource, mem_planeIds.instructions d (mem_reverse.mp (mem_of_find?_eq_some hd))⟩

theorem ends_pack {p : PackManifest} (hp : p ∈ w.catalog.parts.packs) :
    ∀ e ∈ packEdges w (knownIds w) p, Ends w e := by
  rw [packEdges, forall_mem_append, forall_mem_map]
  refine ⟨?_, ends_context (mem_planeIds.packs p hp) p.contextPaths⟩
  intro id hid
  have hknown : id ∈ knownIds w := by simpa using (mem_filter.mp hid).2
  exact ⟨mem_planeIds.packs p hp, mem_knownIds hknown⟩

theorem ends_agent (hlinked : Linked w.catalog.parts) {a : AgentDefinition}
    (ha : a ∈ w.catalog.parts.agents) : ∀ e ∈ agentEdges w a, Ends w e := by
  have hself := mem_planeIds.agents a ha
  obtain ⟨p, hp, hpack⟩ := hlinked.agentPacks a ha
  obtain ⟨d, hd, hadapter⟩ := hlinked.agentAdapters a ha
  rw [agentEdges, forall_mem_append, forall_mem_append, forall_mem_map,
    forall_mem_cons, forall_mem_singleton]
  refine ⟨⟨⟨⟨?_, hself⟩, ⟨hself, ?_⟩⟩, ?_⟩, ends_context hself a.contextPaths⟩
  · exact hpack ▸ mem_planeIds.packs p hp
  · exact hadapter ▸ mem_planeIds.adapters d hd
  · intro id hid
    obtain ⟨s, hs, rfl⟩ := hlinked.agentSkills a ha id hid
    exact ⟨hself, mem_planeIds.skills s hs⟩

theorem ends_task {t : AgentTask} (ht : t ∈ w.tasks.tasks) : ∀ e ∈ taskEdges w t, Ends w e := by
  have hself := mem_planeIds.tasks t ht
  have hboard : w.tasks.generationId.getD workspaceId ∈ planeIds w := by
    cases hid : w.tasks.generationId with
    | none => exact mem_planeIds.workspace
    | some id => exact mem_planeIds.taskGeneration id hid
  rw [taskEdges, forall_mem_cons, forall_mem_append, forall_mem_append,
    forall_mem_map, forall_mem_map, forall_mem_map]
  refine ⟨⟨hboard, hself⟩, ⟨?_, ?_⟩, ?_⟩
  · intro id hid
    have hmem : id ∈ w.catalog.parts.agents.map fun a => a.agentId.val := by
      simpa using (mem_filter.mp hid).2
    obtain ⟨a, ha, rfl⟩ := mem_map.mp hmem
    exact ⟨hself, mem_planeIds.agents a ha⟩
  · intro id hid
    have hmem : id ∈ w.catalog.parts.skills.map fun s => s.skillId.val := by
      simpa using (mem_filter.mp hid).2
    obtain ⟨s, hs, rfl⟩ := mem_map.mp hmem
    exact ⟨hself, mem_planeIds.skills s hs⟩
  · intro id hid
    have hmem : id ∈ w.tasks.tasks.map fun t => t.taskId := by
      simpa using (mem_filter.mp hid).2
    obtain ⟨t', ht', rfl⟩ := mem_map.mp hmem
    exact ⟨hself, mem_planeIds.tasks t' ht'⟩

theorem ends_run {r : RunSummary} (hr : r ∈ w.runs) : ∀ e ∈ runEdges w r, Ends w e := by
  have hself := mem_planeIds.runs r hr
  rw [runEdges, forall_mem_cons]
  refine ⟨⟨mem_planeIds.workspace, hself⟩, ?_⟩
  split
  · rw [forall_mem_singleton]
    exact ⟨hself, mem_planeIds.generation⟩
  · simp

theorem ends_entity {x : Entity} (hx : x ∈ w.corpus.entities) :
    ∀ e ∈ entityEdges w x, Ends w e := by
  have hself := mem_planeIds.entities x hx
  rw [entityEdges, forall_mem_cons, forall_mem_map]
  refine ⟨⟨mem_planeIds.generation, hself⟩, ?_⟩
  intro id hid
  have hmem : id ∈ w.corpus.entities.map fun e => e.entityId := by
    simpa using (mem_filter.mp hid).2
  obtain ⟨y, hy, rfl⟩ := mem_map.mp hmem
  exact ⟨hself, mem_planeIds.entities y hy⟩

theorem ends_claim (hresolved : Resolved w.corpus) {c : Claim} (hc : c ∈ w.corpus.claims) :
    ∀ e ∈ claimEdges w c, Ends w e := by
  have hself := mem_planeIds.claims c hc
  have hlive : ∀ ids : List Identifier, ∀ id ∈ ids.filter (· ∈ liveClaims w),
      id.val ∈ planeIds w := by
    intro ids id hid
    exact mem_liveClaims (by simpa using (mem_filter.mp hid).2)
  rw [claimEdges, forall_mem_cons, forall_mem_append, forall_mem_append,
    forall_mem_map, forall_mem_map, forall_mem_map]
  refine ⟨⟨mem_planeIds.generation, hself⟩, ⟨?_, ?_⟩, ?_⟩
  · intro id hid
    obtain ⟨e, he, rfl⟩ := hresolved.evidence c hc id hid
    exact ⟨mem_planeIds.evidence e he, hself⟩
  · intro id hid
    exact ⟨hself, hlive c.supersedes id hid⟩
  · intro id hid
    exact ⟨hself, hlive c.contradicts id hid⟩

theorem viewed_mem {c : CodeSnapshot × Sha256} (hcode : w.code = some c) {id : String}
    (h : id ∈ (codeSlice w.viewNodes w.viewEdges c.1).1.map fun n => n.nodeId) :
    id ∈ planeIds w := by
  have hviewed : viewedNodes w = (codeSlice w.viewNodes w.viewEdges c.1).1 := by
    simp [viewedNodes, hcode]
  rw [planeIds, hviewed]
  exact mem_append_right _ h

theorem ends_code : ∀ e ∈ codePlaneEdges w, Ends w e := by
  unfold codePlaneEdges
  cases hcode : w.code with
  | none => simp
  | some c =>
    rw [Option.elim, forall_mem_append]
    refine ⟨?_, ?_⟩
    · intro e he
      obtain ⟨x, hx, he⟩ := mem_flatMap.mp he
      let ids := (codeSlice w.viewNodes w.viewEdges c.1).1.map fun n => n.nodeId
      have hends : x.source ∈ ids ∧ x.target ∈ ids :=
        of_decide_eq_true (mem_filter.mp (mem_of_mem_take hx)).2
      have hsame : e.source = x.source ∧ e.target = x.target := by
        simp only [codeEdges, mem_cons, mem_append] at he
        rcases he with rfl | he | he
        · exact ⟨rfl, rfl⟩
        · split at he
          · obtain rfl := mem_singleton.mp he
            exact ⟨rfl, rfl⟩
          · cases he
        · split at he
          · obtain rfl := mem_singleton.mp he
            exact ⟨rfl, rfl⟩
          · cases he
      rw [Ends, hsame.1, hsame.2]
      exact ⟨viewed_mem hcode hends.1, viewed_mem hcode hends.2⟩
    · intro e he
      obtain ⟨n, hn, rfl⟩ := mem_map.mp he
      refine ⟨mem_planeIds.workspace, viewed_mem hcode ?_⟩
      exact mem_map_of_mem (f := fun n => n.nodeId) (mem_filter.mp hn).1

theorem ends_offered {α : Type} {source kind : String} {id : α → String} {items : List α}
    (hsource : source ∈ planeIds w) (hitems : ∀ a ∈ items, id a ∈ planeIds w) :
    ∀ e ∈ offered source kind id items, Ends w e := by
  intro e he
  obtain ⟨a, ha, rfl⟩ := mem_map.mp he
  exact ⟨hsource, hitems a ha⟩

theorem ends_edges (hlinked : Linked w.catalog.parts) (hresolved : Resolved w.corpus) :
    (∀ e ∈ edgesOf (calls w), Ends w e) ↔ RelationsClosed w := by
  have hworkspace := (mem_planeIds (w := w)).workspace
  have hgeneration := (mem_planeIds (w := w)).generation
  rw [edgesOf_calls]
  simp only [forall_mem_append]
  constructor
  · rintro ⟨⟨-, h⟩, -⟩ r hr
    exact ends_relation.mp fun e he => h e (mem_flatMap.mpr ⟨r, hr, he⟩)
  · intro h
    refine ⟨⟨⟨⟨⟨⟨⟨⟨⟨⟨⟨⟨⟨⟨⟨?_, ?_⟩, ?_⟩, ?_⟩, ?_⟩, ?_⟩, ?_⟩, ?_⟩, ?_⟩, ?_⟩, ?_⟩, ?_⟩, ?_⟩, ?_⟩, ?_⟩, ?_⟩
    · rw [forall_mem_singleton]
      exact ⟨hworkspace, hgeneration⟩
    · intro e he
      obtain ⟨id, hid, rfl⟩ := mem_map.mp he
      exact ⟨hworkspace, mem_planeIds.taskGeneration id (Option.mem_toList.mp hid)⟩
    · exact ends_offered hworkspace mem_planeIds.instructions
    · exact ends_offered hworkspace mem_planeIds.adapters
    · exact ends_offered hworkspace mem_planeIds.packs
    · intro e he
      obtain ⟨s, hs, rfl⟩ := mem_map.mp he
      obtain ⟨p, hp, hpack⟩ := hlinked.skillPacks s hs
      exact ⟨hpack ▸ mem_planeIds.packs p hp, mem_planeIds.skills s hs⟩
    · intro e he
      obtain ⟨p, hp, he⟩ := mem_flatMap.mp he
      exact ends_pack hp e he
    · intro e he
      obtain ⟨a, ha, he⟩ := mem_flatMap.mp he
      exact ends_agent hlinked ha e he
    · intro e he
      obtain ⟨t, ht, he⟩ := mem_flatMap.mp he
      exact ends_task ht e he
    · intro e he
      obtain ⟨r, hr, he⟩ := mem_flatMap.mp he
      exact ends_run hr e he
    · exact ends_offered hgeneration mem_planeIds.sources
    · intro e he
      obtain ⟨x, hx, rfl⟩ := mem_map.mp he
      obtain ⟨s, hs, hsource⟩ := hresolved.sources x hx
      exact ⟨hsource ▸ mem_planeIds.sources s hs, mem_planeIds.evidence x hx⟩
    · intro e he
      obtain ⟨x, hx, he⟩ := mem_flatMap.mp he
      exact ends_entity hx e he
    · intro e he
      obtain ⟨c, hc, he⟩ := mem_flatMap.mp he
      exact ends_claim hresolved hc e he
    · intro e he
      obtain ⟨r, hr, he⟩ := mem_flatMap.mp he
      exact ends_relation.mpr (h r hr) e he
    · exact ends_code
end

end RaytSystem.Universe
