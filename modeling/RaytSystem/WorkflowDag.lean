import RaytSystem.WorkflowModel

/-! The accepted order of a workflow graph lists every node of its revision once, after the
nodes it depends on. A node enters the queue when its in-degree falls to zero, and it falls
to zero only once. -/
namespace RaytSystem.Workflow
open PyText WorkflowRevision List

theorem releaseTargets_spec (targets : List String) (indegree : String → Int) :
    (∀ n, (releaseTargets targets indegree).1 n ≤ indegree n) ∧
      (releaseTargets targets indegree).2.Nodup ∧
      ∀ n ∈ (releaseTargets targets indegree).2,
        n ∈ targets ∧ 0 < indegree n ∧ (releaseTargets targets indegree).1 n ≤ 0 := by
  induction targets generalizing indegree with
  | nil => exact ⟨fun n => le_refl _, nodup_nil, fun n hn => absurd hn not_mem_nil⟩
  | cons target rest ih =>
    rw [releaseTargets]
    dsimp only
    generalize hnext : Function.update indegree target (indegree target - 1) = next
    have hle : ∀ n, next n ≤ indegree n := by
      intro n
      rw [← hnext, Function.update_apply]
      split
      next he =>
        rw [he]
        omega
      next => exact le_refl _
    have htarget : next target = indegree target - 1 := by rw [← hnext, Function.update_self]
    obtain ⟨hfall, hnodup, hreleased⟩ := ih next
    have hrest : ∀ n ∈ (releaseTargets rest next).2,
        n ∈ target :: rest ∧ 0 < indegree n ∧ (releaseTargets rest next).1 n ≤ 0 := by
      intro n hn
      obtain ⟨hmem, hpos, hzero⟩ := hreleased n hn
      exact ⟨mem_cons_of_mem _ hmem, hpos.trans_le (hle n), hzero⟩
    refine ⟨fun n => (hfall n).trans (hle n), ?_, ?_⟩
    · split
      next hz =>
        refine nodup_cons.mpr ⟨?_, hnodup⟩
        intro hn
        have hpos := (hreleased target hn).2.1
        omega
      next => exact hnodup
    · intro n hn
      split at hn
      next hz =>
        rcases mem_cons.mp hn with rfl | hn
        · have hpos : 0 < indegree n := by omega
          have hfallen := hfall n
          exact ⟨mem_cons_self, hpos, by omega⟩
        · exact hrest n hn
      next => exact hrest n hn

structure Queued (ids : List String) (indegree : String → Int) (met : List String) : Prop where
  unique : met.Nodup
  known : ∀ n ∈ met, n ∈ ids
  free : ∀ n ∈ met, indegree n ≤ 0

variable {indegree : String → Int}

theorem queued_release {ids targets met : List String} (h : Queued ids indegree met)
    (htargets : ∀ n ∈ targets, n ∈ ids) : Queued ids (releaseTargets targets indegree).1
      (met ++ (releaseTargets targets indegree).2) := by
  obtain ⟨hfall, hnodup, hreleased⟩ := releaseTargets_spec targets indegree
  refine ⟨?_, ?_, ?_⟩
  · rw [nodup_append]
    refine ⟨h.unique, hnodup, ?_⟩
    rintro a ha b hb rfl
    have hfree := h.free a ha
    have hpos := (hreleased a hb).2.1
    omega
  · intro n hn
    rcases mem_append.mp hn with hn | hn
    · exact h.known n hn
    · exact htargets n (hreleased n hn).1
  · intro n hn
    rcases mem_append.mp hn with hn | hn
    · exact (hfall n).trans (h.free n hn)
    · exact (hreleased n hn).2.2

variable {queue ordered : List String}

theorem drainQueue_queued {ids : List String} {outgoing : String → List String}
    (hout : ∀ n, ∀ t ∈ outgoing n, t ∈ ids) (fuel : Nat)
    (h : Queued ids indegree (ordered ++ queue)) :
    (drainQueue outgoing fuel queue indegree ordered).Nodup ∧
      ∀ n ∈ drainQueue outgoing fuel queue indegree ordered, n ∈ ids := by
  induction fuel generalizing queue ordered indegree with
  | zero =>
    rw [drainQueue]
    refine ⟨(nodup_append.mp h.unique).1, ?_⟩
    intro n hn
    exact h.known n (mem_append_left _ hn)
  | succ fuel ih =>
    cases queue with
    | nil =>
      rw [drainQueue]
      rw [append_nil] at h
      exact ⟨h.unique, h.known⟩
    | cons nodeId queue =>
      rw [drainQueue]
      apply ih
      have htargets : ∀ t ∈ sorted (outgoing nodeId), t ∈ ids :=
        fun t ht => hout nodeId t (mem_sorted.mp ht)
      have hnext := queued_release h htargets
      have hsplit : ∀ released, ordered ++ nodeId :: queue ++ released =
          ordered ++ [nodeId] ++ (queue ++ released) := by simp
      rw [hsplit] at hnext
      exact hnext

theorem outgoing_known (rev : WorkflowRevision) (nodeId : String) :
    ∀ t ∈ rev.outgoing nodeId, t ∈ rev.nodes.map WorkflowNode.nodeId := by
  intro t ht
  obtain ⟨e, he, rfl⟩ := mem_map.mp ht
  exact (rev.known e (mem_filter.mp he).1).2

theorem queued_first (rev : WorkflowRevision) :
    Queued (rev.nodes.map WorkflowNode.nodeId) (fun n => (rev.indegree n : Int))
      ([] ++ sorted ((rev.nodes.map WorkflowNode.nodeId).filter
        (rev.indegree · == 0))) := by
  rw [nil_append]
  refine ⟨nodup_sorted (rev.unique.filter _), ?_, ?_⟩
  · intro n hn
    exact (mem_filter.mp (mem_sorted.mp hn)).1
  · intro n hn
    have hzero := (mem_filter.mp (mem_sorted.mp hn)).2
    rw [beq_iff_eq] at hzero
    omega

variable {registered : String → Bool} {rev : WorkflowRevision} {order : List String}

theorem validateDag_perm (h : validateDag registered rev = .ok order) :
    order.Perm (rev.nodes.map WorkflowNode.nodeId) := by
  unfold validateDag at h
  split at h
  · cases h
  next =>
    dsimp only at h
    split at h
    · cases h
    next hlength =>
      split at h
      next =>
        obtain rfl := Except.ok.inj h
        obtain ⟨hnodup, hsub⟩ := drainQueue_queued (outgoing_known rev) rev.nodes.length
          (queued_first rev)
        apply (subperm_of_subset hnodup hsub).perm_of_length_le
        rw [length_map]
        omega
      next => cases h

def AfterDependencies (rev : WorkflowRevision) (order : List String) : Prop :=
  ∀ pre nodeId post, order = pre ++ nodeId :: post →
    ∀ parent ∈ rev.dependencies nodeId, parent ∈ pre

variable {nodeId : String}

theorem afterDependencies_snoc (h : AfterDependencies rev order)
    (hnode : ∀ parent ∈ rev.dependencies nodeId, parent ∈ order) :
    AfterDependencies rev (order ++ [nodeId]) := by
  intro pre n post he parent hparent
  rcases eq_nil_or_concat post with rfl | ⟨post, last, rfl⟩
  · obtain ⟨rfl, hn⟩ := append_inj' he rfl
    obtain rfl : nodeId = n := head_eq_of_cons_eq hn
    exact hnode parent hparent
  · rw [concat_eq_append, ← cons_append, ← append_assoc] at he
    obtain ⟨ho, -⟩ := append_inj' he rfl
    exact h pre n post ho parent hparent

def openEdges (rev : WorkflowRevision) (listed : List String) (nodeId : String) : Nat :=
  rev.edges.countP fun e => e.targetNodeId == nodeId && !listed.contains e.sourceNodeId

theorem dependencies_listed {listed : List String} (h : openEdges rev listed nodeId = 0) :
    ∀ parent ∈ rev.dependencies nodeId, parent ∈ listed := by
  intro parent hparent
  obtain ⟨e, he, htarget, rfl⟩ := mem_dependencies.mp hparent
  have hclosed := countP_eq_zero.mp h e he
  simpa [htarget] using hclosed

theorem openEdges_snoc_eq {rev : WorkflowRevision} {listed : List String}
    (hnew : nodeId ∉ listed) (n : String) :
    openEdges rev (listed ++ [nodeId]) n + (rev.outgoing nodeId).count n =
      openEdges rev listed n := by
  unfold openEdges outgoing
  induction rev.edges with
  | nil => simp
  | cons e rest ih =>
    by_cases hs : e.sourceNodeId = nodeId
    · by_cases ht : e.targetNodeId = n
      · simp [hs, ht, hnew] at ih ⊢
        omega
      · simpa [hs, ht] using ih
    · by_cases ht : e.targetNodeId = n <;> by_cases hl : e.sourceNodeId ∈ listed <;>
        simp [hs, ht, hl] at ih ⊢ <;> omega

theorem openEdges_snoc (rev : WorkflowRevision) {listed : List String} (hnew : nodeId ∉ listed)
    (n : String) : openEdges rev (listed ++ [nodeId]) n + (rev.outgoing nodeId).count n ≤
      openEdges rev listed n :=
  (openEdges_snoc_eq hnew n).le

theorem releaseTargets_count (targets : List String) (indegree : String → Int) (n : String) :
    (releaseTargets targets indegree).1 n = indegree n - targets.count n := by
  induction targets generalizing indegree with
  | nil => simp [releaseTargets]
  | cons target rest ih =>
    rw [releaseTargets]
    dsimp only
    rw [ih, Function.update_apply, count_cons]
    by_cases h : n = target
    · subst h
      simp
      omega
    · have h' : (target == n) = false := by simpa using Ne.symm h
      simp [h, h']

theorem drainQueue_after {rev : WorkflowRevision} (fuel : Nat) {queue ordered : List String}
    {indegree : String → Int}
    (hqueued : Queued (rev.nodes.map WorkflowNode.nodeId) indegree (ordered ++ queue))
    (hopen : ∀ n, (openEdges rev ordered n : Int) ≤ indegree n)
    (h : AfterDependencies rev ordered) :
    AfterDependencies rev (drainQueue rev.outgoing fuel queue indegree ordered) := by
  induction fuel generalizing queue ordered indegree with
  | zero =>
    rw [drainQueue]
    exact h
  | succ fuel ih =>
    cases queue with
    | nil =>
      rw [drainQueue]
      exact h
    | cons nodeId queue =>
      rw [drainQueue]
      have htargets : ∀ t ∈ sorted (rev.outgoing nodeId),
          t ∈ rev.nodes.map WorkflowNode.nodeId :=
        fun t ht => outgoing_known rev nodeId t (mem_sorted.mp ht)
      have hsplit : ∀ released, ordered ++ nodeId :: queue ++ released =
          ordered ++ [nodeId] ++ (queue ++ released) := by simp
      have hnew : nodeId ∉ ordered := by
        intro hmem
        exact (nodup_append.mp hqueued.unique).2.2 nodeId hmem nodeId mem_cons_self rfl
      have hfree : indegree nodeId ≤ 0 := hqueued.free nodeId (by simp)
      have hzero : openEdges rev ordered nodeId = 0 := by
        have hle := hopen nodeId
        omega
      apply ih
      · have hnext := queued_release hqueued htargets
        rw [hsplit] at hnext
        exact hnext
      · intro n
        have hcount : (sorted (rev.outgoing nodeId)).count n =
            (rev.outgoing nodeId).count n :=
          (perm_insertionSort _ _).count_eq n
        rw [releaseTargets_count, hcount]
        have hclosed := openEdges_snoc rev hnew n
        have hle := hopen n
        omega
      · exact afterDependencies_snoc h (dependencies_listed hzero)

theorem validateDag_after (h : validateDag registered rev = .ok order) :
    AfterDependencies rev order := by
  unfold validateDag at h
  split at h
  · cases h
  next =>
    dsimp only at h
    split at h
    · cases h
    next =>
      split at h
      next =>
        obtain rfl := Except.ok.inj h
        refine drainQueue_after _ (queued_first rev) ?_ ?_
        · intro n
          simp [openEdges, indegree]
        · intro pre n post he
          simp at he
      next => cases h

end RaytSystem.Workflow
