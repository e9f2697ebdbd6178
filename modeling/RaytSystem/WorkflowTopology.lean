import RaytSystem.WorkflowDag

/-! A workflow graph is accepted exactly when it has no cycle: what is left over when the queue is
empty has a dependency that is left over as well. -/
namespace RaytSystem.Workflow
open PyText List

def WorkflowRevision.Edge (rev : WorkflowRevision) (source target : String) : Prop :=
  ∃ e ∈ rev.edges, e.sourceNodeId = source ∧ e.targetNodeId = target

def WorkflowRevision.Acyclic (rev : WorkflowRevision) : Prop :=
  ∀ nodeId, ¬Relation.TransGen rev.Edge nodeId nodeId

def WorkflowRevision.Registered (registered : String → Bool) (rev : WorkflowRevision) : Prop :=
  ∀ node ∈ rev.nodes, node.nodeType = .deterministicCommand →
    ∃ operationId, node.operationId = some operationId ∧ registered operationId = true

section
variable {rev : WorkflowRevision}

theorem releaseTargets_zero (targets : List String) (indegree : String → Int) (n : String)
    (hpos : 0 < indegree n) (hzero : (releaseTargets targets indegree).1 n ≤ 0) :
    n ∈ (releaseTargets targets indegree).2 := by
  induction targets generalizing indegree with
  | nil =>
    change indegree n ≤ 0 at hzero
    omega
  | cons target rest ih =>
    rw [releaseTargets] at hzero ⊢
    dsimp only at hzero ⊢
    generalize hnext : Function.update indegree target (indegree target - 1) = next at hzero ⊢
    by_cases hn : 0 < next n
    · have hmem := ih next hn hzero
      split
      · exact mem_cons_of_mem _ hmem
      · exact hmem
    · have htarget : n = target := by
        by_contra hne
        rw [← hnext, Function.update_of_ne hne] at hn
        exact hn hpos
      subst htarget
      have hself : next n = indegree n - 1 := by rw [← hnext, Function.update_self]
      have hdone : next n = 0 := by omega
      rw [if_pos hdone]
      exact mem_cons_self

structure Drained (rev : WorkflowRevision) (indegree : String → Int)
    (ordered queue : List String) : Prop where
  queued : Queued (rev.nodes.map WorkflowNode.nodeId) indegree (ordered ++ queue)
  counts : ∀ n, indegree n = openEdges rev ordered n
  met : ∀ n ∈ rev.nodes.map WorkflowNode.nodeId, indegree n ≤ 0 → n ∈ ordered ++ queue

theorem drained_first (rev : WorkflowRevision) : Drained rev (fun n => (rev.indegree n : Int)) []
      (sorted ((rev.nodes.map WorkflowNode.nodeId).filter (rev.indegree · == 0))) := by
  refine ⟨queued_first rev, ?_, ?_⟩
  · intro n
    simp [openEdges, WorkflowRevision.indegree]
  · intro n hn hzero
    rw [nil_append, mem_sorted]
    refine mem_filter.mpr ⟨hn, ?_⟩
    rw [beq_iff_eq]
    omega

variable {indegree : String → Int} {ordered queue : List String}

theorem drained_step {nodeId : String} (h : Drained rev indegree ordered (nodeId :: queue)) :
    let released := releaseTargets (sorted (rev.outgoing nodeId)) indegree
    Drained rev released.1 (ordered ++ [nodeId]) (queue ++ released.2) := by
  intro released
  have htargets : ∀ t ∈ sorted (rev.outgoing nodeId),
      t ∈ rev.nodes.map WorkflowNode.nodeId :=
    fun t ht => outgoing_known rev nodeId t (mem_sorted.mp ht)
  have hsplit : ordered ++ nodeId :: queue ++ released.2 =
      ordered ++ [nodeId] ++ (queue ++ released.2) := by simp
  have hnew : nodeId ∉ ordered := by
    intro hmem
    exact (nodup_append.mp h.queued.unique).2.2 nodeId hmem nodeId mem_cons_self rfl
  have hcount : ∀ n, (sorted (rev.outgoing nodeId)).count n = (rev.outgoing nodeId).count n :=
    fun n => (perm_insertionSort _ _).count_eq n
  refine ⟨?_, ?_, ?_⟩
  · have hnext := queued_release h.queued htargets
    rwa [hsplit] at hnext
  · intro n
    have hclosed : openEdges rev (ordered ++ [nodeId]) n + (rev.outgoing nodeId).count n =
        openEdges rev ordered n := openEdges_snoc_eq hnew n
    rw [releaseTargets_count, hcount, h.counts]
    omega
  · intro n hn hzero
    rw [← hsplit]
    by_cases hpos : 0 < indegree n
    · exact mem_append_right _ (releaseTargets_zero _ _ _ hpos hzero)
    · exact mem_append_left _ (h.met n hn (by omega))

theorem drainQueue_rest (fuel : Nat) (h : Drained rev indegree ordered queue)
    (hfuel : ordered.length + fuel = rev.nodes.length) :
    (drainQueue rev.outgoing fuel queue indegree ordered).length = rev.nodes.length ∨
      ∀ n ∈ rev.nodes.map WorkflowNode.nodeId,
        n ∉ drainQueue rev.outgoing fuel queue indegree ordered →
          ∃ source, rev.Edge source n ∧
            source ∉ drainQueue rev.outgoing fuel queue indegree ordered := by
  induction fuel generalizing queue ordered indegree with
  | zero =>
    rw [drainQueue]
    exact Or.inl hfuel
  | succ fuel ih =>
    cases queue with
    | nil =>
      rw [drainQueue]
      refine Or.inr ?_
      intro n hn hrest
      have hopen : openEdges rev ordered n ≠ 0 := by
        intro hzero
        have hcount := h.counts n
        have hmet := h.met n hn (by omega)
        rw [append_nil] at hmet
        exact hrest hmet
      obtain ⟨e, he, hends⟩ := countP_pos_iff.mp (Nat.pos_of_ne_zero hopen)
      simp only [Bool.and_eq_true, beq_iff_eq, Bool.not_eq_true', contains_eq_mem,
        decide_eq_false_iff_not] at hends
      exact ⟨e.sourceNodeId, ⟨e, he, rfl, hends.1⟩, hends.2⟩
    | cons nodeId queue =>
      rw [drainQueue]
      refine ih (drained_step h) ?_
      rw [length_append, length_singleton]
      omega
end

section
variable {rev : WorkflowRevision} {source target : String}

theorem edge_known (h : rev.Edge source target) :
    source ∈ rev.nodes.map WorkflowNode.nodeId ∧ target ∈ rev.nodes.map WorkflowNode.nodeId := by
  obtain ⟨e, he, rfl, rfl⟩ := h
  exact rev.known e he

theorem waiting_empty (hacyclic : rev.Acyclic) (waiting : String → Prop)
    (hknown : ∀ n, waiting n → n ∈ rev.nodes.map WorkflowNode.nodeId)
    (hwaits : ∀ n, waiting n → ∃ source, rev.Edge source n ∧ waiting source) (n : String) :
    ¬waiting n := by
  intro hn
  let Node := {n : String // n ∈ rev.nodes.map WorkflowNode.nodeId}
  have hfinite : Finite Node := (rev.nodes.map WorkflowNode.nodeId).finite_toSet
  let before : Node → Node → Prop := fun a b => Relation.TransGen rev.Edge a.val b.val
  have htrans : IsTrans Node before := ⟨fun _ _ _ hab hbc => hab.trans hbc⟩
  have hirrefl : Std.Irrefl before := ⟨fun a => hacyclic a.val⟩
  have hwf : WellFounded before := Finite.wellFounded_of_trans_of_irrefl before
  obtain ⟨m, hm, hmin⟩ := hwf.has_min {a : Node | waiting a.val} ⟨⟨n, hknown n hn⟩, hn⟩
  obtain ⟨source, hedge, hsource⟩ := hwaits m.val hm
  exact hmin ⟨source, hknown source hsource⟩ hsource (Relation.TransGen.single hedge)

theorem idxOf_lt {order : List String} (hperm : order.Perm (rev.nodes.map WorkflowNode.nodeId))
    (hafter : AfterDependencies rev order) (h : rev.Edge source target) :
    order.idxOf source < order.idxOf target := by
  have hnodup : order.Nodup := hperm.nodup_iff.mpr rev.unique
  have htarget : target ∈ order := hperm.mem_iff.mpr (edge_known h).2
  obtain ⟨pre, post, rfl⟩ := append_of_mem htarget
  have hsource : source ∈ pre := by
    obtain ⟨e, he, hs, ht⟩ := h
    exact hafter pre target post rfl source (WorkflowRevision.mem_dependencies.mpr ⟨e, he, ht, hs⟩)
  have hnew : target ∉ pre := by
    intro hmem
    exact (nodup_append.mp hnodup).2.2 target hmem target mem_cons_self rfl
  have hlast : (pre ++ target :: post).idxOf target = pre.length := by
    rw [idxOf_append_of_notMem hnew, idxOf_cons_self, Nat.add_zero]
  rw [hlast, idxOf_append_of_mem hsource]
  exact idxOf_lt_length_of_mem hsource

theorem acyclic_of_order {order : List String}
    (hperm : order.Perm (rev.nodes.map WorkflowNode.nodeId))
    (hafter : AfterDependencies rev order) : rev.Acyclic := by
  intro n hcycle
  have hlt : ∀ a b, Relation.TransGen rev.Edge a b → order.idxOf a < order.idxOf b := by
    intro a b h
    induction h with
    | single h => exact idxOf_lt hperm hafter h
    | tail _ h ih => exact ih.trans (idxOf_lt hperm hafter h)
  exact (hlt n n hcycle).false
end

section
variable {registered : String → Bool} {rev : WorkflowRevision}

def drainOrder (rev : WorkflowRevision) : List String :=
  drainQueue rev.outgoing rev.nodes.length
    (sorted ((rev.nodes.map WorkflowNode.nodeId).filter (rev.indegree · == 0)))
    (fun n => rev.indegree n) []

theorem drainOrder_length (hacyclic : rev.Acyclic) : (drainOrder rev).length = rev.nodes.length := by
  rcases drainQueue_rest rev.nodes.length (drained_first rev) (Nat.zero_add _) with h | hrest
  · exact h
  · obtain ⟨hnodup, hsub⟩ := drainQueue_queued (outgoing_known rev) rev.nodes.length
      (queued_first rev)
    have hall : rev.nodes.map WorkflowNode.nodeId ⊆ drainOrder rev := by
      intro n hn
      by_contra hout
      refine waiting_empty hacyclic
        (fun n => n ∈ rev.nodes.map WorkflowNode.nodeId ∧ n ∉ drainOrder rev)
        (fun n h => h.1) ?_ n ⟨hn, hout⟩
      rintro n ⟨hn, hout⟩
      obtain ⟨source, hedge, hsource⟩ := hrest n hn hout
      exact ⟨source, hedge, (edge_known hedge).1, hsource⟩
    have hle := (subperm_of_subset hnodup hsub).length_le
    have hge := (subperm_of_subset rev.unique hall).length_le
    rw [length_map] at hle hge
    exact le_antisymm hle hge

theorem validateDag_acyclic
    (hpairs : (rev.edges.map fun e => (e.sourceNodeId, e.targetNodeId)).Nodup)
    (hacyclic : rev.Acyclic) (hchecks : checkNodes registered rev.nodes = .ok ()) :
    validateDag registered rev = .ok (drainOrder rev) := by
  have hlength : ¬(drainOrder rev).length ≠ rev.nodes.length :=
    not_not.mpr (drainOrder_length hacyclic)
  unfold validateDag
  rw [if_neg (not_not.mpr hpairs)]
  dsimp only
  unfold drainOrder at hlength
  rw [if_neg hlength, hchecks]
  rfl

theorem validateDag_checks {order : List String} (h : validateDag registered rev = .ok order) :
    (rev.edges.map fun e => (e.sourceNodeId, e.targetNodeId)).Nodup ∧
      checkNodes registered rev.nodes = .ok () := by
  unfold validateDag at h
  split at h
  · cases h
  next hpairs =>
    dsimp only at h
    split at h
    · cases h
    · split at h
      next hchecks => exact ⟨not_not.mp hpairs, hchecks⟩
      next => cases h
end

section
variable {registered : String → Bool}

theorem mem_identifier {s : String} {c : Char} (h : isIdentifier s = true)
    (hc : c ∈ s.toList) : isIdentifierChar c = true := by
  unfold isIdentifier at h
  split at h
  · cases h
  next first rest hs =>
    rw [hs] at hc
    simp only [Bool.and_eq_true, all_eq_true, decide_eq_true_eq] at h
    rcases mem_cons.mp hc with rfl | hc
    · simp [isIdentifierChar, h]
    · exact h.2 c hc

theorem identifier_noToken {operationId : String} (h : isIdentifier operationId = true) :
    operationId.toList.any (forbiddenTokens.contains ·) = false := by
  have htokens : ∀ c ∈ forbiddenTokens, isIdentifierChar c = false := by
    intro c hc
    simp only [forbiddenTokens, mem_cons, not_mem_nil, or_false] at hc
    rcases hc with rfl | rfl | rfl | rfl | rfl | rfl <;> simp [isIdentifierChar]
  rw [any_eq_false]
  intro c hc htoken
  have hchar := mem_identifier h hc
  rw [htokens c (by simpa using htoken)] at hchar
  cases hchar

theorem checkNode_ok {node : WorkflowNode}
    (hid : ∀ operationId, node.operationId = some operationId →
      isIdentifier operationId = true) :
    checkNode registered node = .ok () ↔ (node.nodeType = .deterministicCommand →
      ∃ operationId, node.operationId = some operationId ∧ registered operationId = true) := by
  unfold checkNode
  by_cases htype : node.nodeType = .deterministicCommand
  · rw [if_pos htype]
    cases hop : node.operationId with
    | none => simp [htype]
    | some operationId =>
      have htoken := identifier_noToken (hid operationId hop)
      by_cases hreg : registered operationId = true
      · simp only [hreg, htoken]
        simp [hreg]
      · simp [htype, hreg]
  · simp [htype]

theorem checkNodes_ok {nodes : List WorkflowNode} : checkNodes registered nodes = .ok () ↔
      ∀ node ∈ nodes, checkNode registered node = .ok () := by
  induction nodes with
  | nil => simp [checkNodes]
  | cons node rest ih =>
    rw [checkNodes, forall_mem_cons, ← ih]
    cases hfirst : checkNode registered node with
    | ok u => simp
    | error e => simp
end

theorem validateDag_ok {registered : String → Bool} {rev : WorkflowRevision}
    (hcommands : ∀ node ∈ rev.nodes, ∀ operationId,
      node.operationId = some operationId → PyText.isIdentifier operationId = true) :
    (∃ order, validateDag registered rev = .ok order) ↔
      (rev.edges.map fun e => (e.sourceNodeId, e.targetNodeId)).Nodup ∧ rev.Acyclic ∧
        rev.Registered registered := by
  have hchecks : checkNodes registered rev.nodes = .ok () ↔ rev.Registered registered := by
    rw [checkNodes_ok]
    exact forall₂_congr fun node hnode => checkNode_ok (hcommands node hnode)
  constructor
  · rintro ⟨order, horder⟩
    have hacyclic := acyclic_of_order (validateDag_perm horder) (validateDag_after horder)
    obtain ⟨hpairs, hregistered⟩ := validateDag_checks horder
    exact ⟨hpairs, hacyclic, hchecks.mp hregistered⟩
  · rintro ⟨hpairs, hacyclic, hregistered⟩
    exact ⟨_, validateDag_acyclic hpairs hacyclic (hchecks.mpr hregistered)⟩

structure EdgeFields where
  edgeId : String
  sourceNodeId : String
  targetNodeId : String
  deriving DecidableEq, Repr

def edgeInvariants (e : EdgeFields) : Except WorkflowFault WorkflowEdge :=
  if h : e.sourceNodeId = e.targetNodeId then
    .error (.valueError "Workflow self-cycles are forbidden")
  else .ok ⟨e.sourceNodeId, e.targetNodeId, h⟩

def buildEdges : List EdgeFields → Except WorkflowFault (List WorkflowEdge)
  | [] => .ok []
  | e :: rest => match edgeInvariants e with
    | .error fault => .error fault
    | .ok edge => match buildEdges rest with
      | .error fault => .error fault
      | .ok edges => .ok (edge :: edges)

/-- A workflow graph as it is written down, before the contract has looked at it. -/
structure RevisionFields where
  revisionId : String
  workflowId : String
  nodes : List WorkflowNode
  edges : List EdgeFields

namespace RevisionFields

variable (d : RevisionFields)

def nodeIds : List String := d.nodes.map WorkflowNode.nodeId

def revisionInvariants (edges : List WorkflowEdge) : Except WorkflowFault WorkflowRevision :=
  if hnodes : d.nodes = [] ∨ ¬d.nodeIds.Nodup then
    .error (.valueError "Workflow node IDs must be non-empty and unique")
  else if ¬(d.edges.map EdgeFields.edgeId).Nodup then
    .error (.valueError "Workflow edge IDs must be unique")
  else if hknown : ∃ e ∈ edges, e.sourceNodeId ∉ d.nodeIds ∨ e.targetNodeId ∉ d.nodeIds then
    .error (.valueError "Workflow edges must reference known nodes")
  else .ok {
    revisionId := d.revisionId, workflowId := d.workflowId, nodes := d.nodes, edges
    nonempty := fun h => hnodes (Or.inl h)
    unique := not_not.mp fun h => hnodes (Or.inr h)
    known := by
      intro e he
      simp only [not_exists, not_and, not_or, not_not] at hknown
      exact hknown e he }

def revision : Except WorkflowFault WorkflowRevision :=
  match buildEdges d.edges with
  | .error fault => .error fault
  | .ok edges => d.revisionInvariants edges

def validate (registered : String → Bool) : Except WorkflowFault (List String) :=
  match d.revision with
  | .error fault => .error fault
  | .ok rev => validateDag registered rev

def Edge (source target : String) : Prop :=
  ∃ e ∈ d.edges, e.sourceNodeId = source ∧ e.targetNodeId = target

def Acyclic : Prop := ∀ nodeId, ¬Relation.TransGen d.Edge nodeId nodeId

def Registered (registered : String → Bool) : Prop :=
  ∀ node ∈ d.nodes, node.nodeType = .deterministicCommand →
    ∃ operationId, node.operationId = some operationId ∧ registered operationId = true

/-- A graph that can be ordered: it has nodes, each with an identifier of its own, its edges join
them, none is there twice, they close no cycle, and its commands are registered. -/
structure Orderable (registered : String → Bool) : Prop where
  nonempty : d.nodes ≠ []
  unique : d.nodeIds.Nodup
  known : ∀ e ∈ d.edges, e.sourceNodeId ∈ d.nodeIds ∧ e.targetNodeId ∈ d.nodeIds
  edgeIds : (d.edges.map EdgeFields.edgeId).Nodup
  pairs : (d.edges.map fun e => (e.sourceNodeId, e.targetNodeId)).Nodup
  acyclic : d.Acyclic
  registered : d.Registered registered

end RevisionFields

section
variable {d : RevisionFields} {rev : WorkflowRevision} {registered : String → Bool}

theorem buildEdges_ok {fields : List EdgeFields} {edges : List WorkflowEdge}
    (h : buildEdges fields = .ok edges) :
    (edges.map fun e => (e.sourceNodeId, e.targetNodeId)) =
      fields.map fun e => (e.sourceNodeId, e.targetNodeId) := by
  induction fields generalizing edges with
  | nil =>
    obtain rfl := Except.ok.inj h
    rfl
  | cons e rest ih =>
    unfold buildEdges edgeInvariants at h
    split at h
    · cases h
    next edge hedge =>
      split at h
      · cases h
      next tail htail =>
        obtain rfl := Except.ok.inj h
        split at hedge
        · cases hedge
        · obtain rfl := Except.ok.inj hedge
          simp [ih htail]

theorem buildEdges_total {fields : List EdgeFields}
    (h : ∀ e ∈ fields, e.sourceNodeId ≠ e.targetNodeId) : ∃ edges, buildEdges fields = .ok edges := by
  induction fields with
  | nil => exact ⟨[], rfl⟩
  | cons e rest ih =>
    obtain ⟨hne, hrest⟩ := forall_mem_cons.mp h
    obtain ⟨edges, hedges⟩ := ih hrest
    exact ⟨⟨e.sourceNodeId, e.targetNodeId, hne⟩ :: edges, by
      rw [buildEdges, edgeInvariants, dif_neg hne, hedges]⟩

/-- What a built revision keeps of the fields, and what they have passed. -/
theorem revision_ok (h : d.revision = .ok rev) : rev.nodes = d.nodes ∧
    (rev.edges.map fun e => (e.sourceNodeId, e.targetNodeId)) =
      (d.edges.map fun e => (e.sourceNodeId, e.targetNodeId)) ∧
    (d.edges.map EdgeFields.edgeId).Nodup := by
  unfold RevisionFields.revision at h
  split at h
  · cases h
  next edges hedges =>
    unfold RevisionFields.revisionInvariants at h
    split at h
    · cases h
    split at h
    · cases h
    next hids =>
      split at h
      · cases h
      · obtain rfl := Except.ok.inj h
        exact ⟨rfl, buildEdges_ok hedges, not_not.mp hids⟩

theorem mem_pairs_iff (h : (rev.edges.map fun e => (e.sourceNodeId, e.targetNodeId)) =
      d.edges.map fun e => (e.sourceNodeId, e.targetNodeId)) (source target : String) :
    rev.Edge source target ↔ d.Edge source target := by
  have hmem := congrArg ((source, target) ∈ ·) h
  simp only [mem_map, Prod.mk.injEq, eq_iff_iff] at hmem
  exact hmem

theorem revision_acyclic (h : d.revision = .ok rev) : rev.Acyclic ↔ d.Acyclic := by
  have hedge : rev.Edge = d.Edge := by
    funext source target
    exact propext (mem_pairs_iff (revision_ok h).2.1 source target)
  rw [WorkflowRevision.Acyclic, RevisionFields.Acyclic, hedge]

theorem revision_known (h : d.revision = .ok rev) :
    ∀ e ∈ d.edges, e.sourceNodeId ∈ d.nodeIds ∧ e.targetNodeId ∈ d.nodeIds := by
  intro e he
  obtain ⟨hnodes, hpairs, -⟩ := revision_ok h
  have hedge := (mem_pairs_iff hpairs e.sourceNodeId e.targetNodeId).mpr ⟨e, he, rfl, rfl⟩
  rw [RevisionFields.nodeIds, ← hnodes]
  exact edge_known hedge

theorem revision_total (h : d.Orderable registered) : ∃ rev, d.revision = .ok rev := by
  have hloops : ∀ e ∈ d.edges, e.sourceNodeId ≠ e.targetNodeId := by
    intro e he hloop
    exact h.acyclic e.sourceNodeId (.single ⟨e, he, rfl, hloop.symm⟩)
  obtain ⟨edges, hedges⟩ := buildEdges_total hloops
  have hknown : ¬∃ e ∈ edges, e.sourceNodeId ∉ d.nodeIds ∨ e.targetNodeId ∉ d.nodeIds := by
    rintro ⟨e, he, hout⟩
    have hmem := mem_map_of_mem (f := fun e => (e.sourceNodeId, e.targetNodeId)) he
    rw [buildEdges_ok hedges] at hmem
    obtain ⟨raw, hraw, hsame⟩ := mem_map.mp hmem
    obtain ⟨hsource, htarget⟩ := Prod.mk.inj hsame
    rcases hout with hout | hout
    · exact hout (hsource ▸ (h.known raw hraw).1)
    · exact hout (htarget ▸ (h.known raw hraw).2)
  have hnodes : ¬(d.nodes = [] ∨ ¬d.nodeIds.Nodup) :=
    not_or.mpr ⟨h.nonempty, not_not.mpr h.unique⟩
  unfold RevisionFields.revision RevisionFields.revisionInvariants
  rw [hedges]
  dsimp only
  rw [dif_neg hnodes, if_neg (not_not.mpr h.edgeIds), dif_neg hknown]
  exact ⟨_, rfl⟩
end

/-- The contract's checks and `validate_dag` accept exactly the graphs that can be ordered, order
them, and raise on every other one. -/
theorem validate_dag_exact (registered : String → Bool) (d : RevisionFields)
    (hcommands : ∀ node ∈ d.nodes, ∀ operationId, node.operationId = some operationId →
      PyText.isIdentifier operationId = true) :
    ((∃ order, d.validate registered = .ok order) ↔ d.Orderable registered) ∧
    (∀ order, d.validate registered = .ok order →
      order.Perm d.nodeIds ∧ order.Nodup ∧
        ∀ e ∈ d.edges, order.idxOf e.sourceNodeId < order.idxOf e.targetNodeId) ∧
    (¬d.Orderable registered → ∃ fault, d.validate registered = .error fault) := by
  have hexact : (∃ order, d.validate registered = .ok order) ↔ d.Orderable registered := by
    constructor
    · rintro ⟨order, horder⟩
      unfold RevisionFields.validate at horder
      split at horder
      · cases horder
      next rev hrev =>
        obtain ⟨hnodes, hpairs, hids⟩ := revision_ok hrev
        obtain ⟨hunrepeated, hacyclic, hregistered⟩ :=
          (validateDag_ok (hnodes ▸ hcommands)).mp ⟨order, horder⟩
        refine ⟨hnodes ▸ rev.nonempty, ?_, revision_known hrev, hids, hpairs ▸ hunrepeated,
          (revision_acyclic hrev).mp hacyclic, ?_⟩
        · rw [RevisionFields.nodeIds, ← hnodes]
          exact rev.unique
        · rw [RevisionFields.Registered, ← hnodes]
          exact hregistered
    · intro h
      obtain ⟨rev, hrev⟩ := revision_total h
      obtain ⟨hnodes, hpairs, -⟩ := revision_ok hrev
      have hregistered : rev.Registered registered := by
        rw [WorkflowRevision.Registered, hnodes]
        exact h.registered
      rw [RevisionFields.validate, hrev]
      exact (validateDag_ok (hnodes ▸ hcommands)).mpr
        ⟨hpairs ▸ h.pairs, (revision_acyclic hrev).mpr h.acyclic, hregistered⟩
  refine ⟨hexact, ?_, ?_⟩
  · intro order horder
    unfold RevisionFields.validate at horder
    split at horder
    · cases horder
    next rev hrev =>
      obtain ⟨hnodes, hpairs, -⟩ := revision_ok hrev
      have hperm := validateDag_perm horder
      refine ⟨?_, hperm.nodup_iff.mpr rev.unique, ?_⟩
      · rw [RevisionFields.nodeIds, ← hnodes]
        exact hperm
      · intro e he
        exact idxOf_lt hperm (validateDag_after horder)
          ((mem_pairs_iff hpairs _ _).mpr ⟨e, he, rfl, rfl⟩)
  · intro hnot
    cases hvalidate : d.validate registered with
    | ok order => exact absurd (hexact.mp ⟨order, hvalidate⟩) hnot
    | error fault => exact ⟨fault, rfl⟩

def draftNode : WorkflowNode := ⟨"draft", .task, none, none, none, 300⟩
def lintNode : WorkflowNode := ⟨"lint", .deterministicCommand, some "lint_document", none, none, 300⟩

def lintFields : RevisionFields where
  revisionId := "wrev_lint"
  workflowId := "workflow_lint"
  nodes := [lintNode, draftNode]
  edges := [⟨"wedge_1", "draft", "lint"⟩]

theorem lint_commands : ∀ node ∈ lintFields.nodes, ∀ operationId,
    node.operationId = some operationId → PyText.isIdentifier operationId = true := by
  intro node hnode operationId hop
  rcases List.mem_cons.mp hnode with rfl | hnode
  · obtain rfl := Option.some.inj hop
    decide +kernel
  · obtain rfl := List.mem_singleton.mp hnode
    cases hop

/-- Two nodes, the second with a registered command. -/
theorem lint_validated : lintFields.Orderable fun operationId => operationId == "lint_document" := by
  have horder : lintFields.validate (fun operationId => operationId == "lint_document") =
      .ok ["draft", "lint"] := by decide +kernel
  exact (validate_dag_exact _ lintFields lint_commands).1.mp ⟨_, horder⟩

/-- A workflow without nodes repeats nothing and has no cycle, and is refused. -/
theorem empty_workflow_refused :
    let empty : RevisionFields := ⟨"wrev_empty", "workflow_empty", [], []⟩
    empty.nodeIds.Nodup ∧ empty.Acyclic ∧ empty.validate (fun _ => true) =
      .error (.valueError "Workflow node IDs must be non-empty and unique") := by
  refine ⟨List.nodup_nil, ?_, by decide +kernel⟩
  intro nodeId hcycle
  obtain ⟨_, ⟨e, he, -⟩, -⟩ := Relation.TransGen.head'_iff.mp hcycle
  cases he

end RaytSystem.Workflow
