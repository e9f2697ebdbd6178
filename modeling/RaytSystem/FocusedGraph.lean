import RaytSystem.MetadataInsertion

/-! The graph around one document: which documents and links it shows under the two budgets, and
when its `truncated` flag tells the truth. -/
namespace RaytSystem.Extraction
open List

section
variable {α : Type} [BEq α] [LawfulBEq α] [DecidableEq α]

def gatherUntil (limit : ℕ) : List α → List α → List α
  | [], seen => seen
  | x :: rest, seen =>
    let seen := seen.insert x
    if limit ≤ seen.length then seen else gatherUntil limit rest seen

theorem subset_gatherUntil (limit : ℕ) (xs seen : List α) : seen ⊆ gatherUntil limit xs seen := by
  induction xs generalizing seen with
  | nil => exact fun _ h => h
  | cons x rest ih =>
    have hinsert : seen ⊆ seen.insert x := fun y hy => mem_insert_of_mem hy
    unfold gatherUntil
    dsimp only
    split
    · exact hinsert
    · exact fun y hy => ih _ (hinsert hy)

variable {limit : ℕ} {xs seen : List α}

theorem gatherUntil_subset {y : α} (h : y ∈ gatherUntil limit xs seen) : y ∈ seen ∨ y ∈ xs := by
  induction xs generalizing seen with
  | nil => exact Or.inl h
  | cons x rest ih =>
    have hinsert : y ∈ seen.insert x → y ∈ seen ∨ y ∈ x :: rest := by
      intro hy
      rcases mem_insert_iff.mp hy with rfl | hy
      · exact Or.inr mem_cons_self
      · exact Or.inl hy
    unfold gatherUntil at h
    dsimp only at h
    split at h
    · exact hinsert h
    · rcases ih h with hy | hy
      · exact hinsert hy
      · exact Or.inr (mem_cons_of_mem _ hy)

theorem nodup_gatherUntil (h : seen.Nodup) : (gatherUntil limit xs seen).Nodup := by
  induction xs generalizing seen with
  | nil => exact h
  | cons x rest ih =>
    unfold gatherUntil
    dsimp only
    split
    · exact h.insert
    · exact ih h.insert

theorem length_insert_le (seen : List α) (x : α) : (seen.insert x).length ≤ seen.length + 1 := by
  by_cases hx : x ∈ seen
  · rw [insert_of_mem hx]
    omega
  · rw [insert_of_not_mem hx, length_cons]

theorem length_gatherUntil (h : seen.length < limit) :
    (gatherUntil limit xs seen).length ≤ limit := by
  induction xs generalizing seen with
  | nil => exact h.le
  | cons x rest ih =>
    have hone := length_insert_le seen x
    unfold gatherUntil
    dsimp only
    split
    · omega
    · exact ih (by omega)

theorem gatherUntil_all (h : (gatherUntil limit xs seen).length < limit) :
    xs ⊆ gatherUntil limit xs seen := by
  induction xs generalizing seen with
  | nil => exact fun _ h => by cases h
  | cons x rest ih =>
    have hhead : x ∈ gatherUntil limit rest (seen.insert x) :=
      subset_gatherUntil limit rest _ (mem_insert_self)
    unfold gatherUntil at h ⊢
    dsimp only at h ⊢
    split at h
    next hfull => omega
    next hfull =>
      rw [if_neg hfull]
      intro y hy
      rcases mem_cons.mp hy with rfl | hy
      · exact hhead
      · exact ih h hy

theorem subset_of_length {xs ys : List α} (hnodup : xs.Nodup) (hsub : xs ⊆ ys)
    (hlength : ys.dedup.length ≤ xs.length) : ys ⊆ xs := by
  have hfinset : xs.toFinset = ys.toFinset := by
    apply Finset.eq_of_subset_of_card_le
    · intro y hy
      simpa using hsub (mem_toFinset.mp hy)
    · rw [card_toFinset, card_toFinset, hnodup.dedup]
      exact hlength
  intro y hy
  have hmem : y ∈ ys.toFinset := mem_toFinset.mpr hy
  rw [← hfinset] at hmem
  exact mem_toFinset.mp hmem

theorem length_dedup_le {xs ys : List α} (h : ys ⊆ xs) : ys.dedup.length ≤ xs.length := by
  rw [← card_toFinset]
  refine le_trans (Finset.card_le_card ?_) (toFinset_card_le xs)
  intro y hy
  exact mem_toFinset.mpr (h (mem_toFinset.mp hy))

theorem gatherUntil_all_iff (hnodup : seen.Nodup) (h : (gatherUntil limit xs seen).length ≤ limit) :
    xs ⊆ gatherUntil limit xs seen ↔ (seen ++ xs).dedup.length ≤ limit := by
  have hseen := subset_gatherUntil limit xs seen
  constructor
  · intro hall
    have hsub : seen ++ xs ⊆ gatherUntil limit xs seen := append_subset.mpr ⟨hseen, hall⟩
    exact le_trans (length_dedup_le hsub) h
  · intro hfits
    rcases Nat.lt_or_ge (gatherUntil limit xs seen).length limit with hlt | hge
    · exact gatherUntil_all hlt
    · have hsub : gatherUntil limit xs seen ⊆ seen ++ xs := fun y hy =>
        mem_append.mpr (gatherUntil_subset hy)
      have hback := subset_of_length (nodup_gatherUntil hnodup) hsub (hfits.trans hge)
      exact fun y hy => hback (mem_append_right _ hy)
end

section

inductive GraphFault
  | invalidBudget
  | notFound
  deriving DecidableEq, Repr

structure GraphNode where
  document : IndexedDocument
  place : ℕ × ℕ

structure GraphEdge where
  edgeId : Text
  source : DocumentId
  target : DocumentId
  embed : Bool
  heading : Text
  linkType : LinkType
  deriving DecidableEq, Repr

structure DocumentGraph where
  focusDocumentId : DocumentId
  nodes : List GraphNode
  edges : List GraphEdge
  truncated : Bool

def isPublicId (documentId : DocumentId) : Bool :=
  (chars "doc_").isPrefixOf documentId && documentId.length = 68 &&
    (documentId.drop 4).all fun c => (0x30 ≤ c && c ≤ 0x39) || (0x61 ≤ c && c ≤ 0x66)

def documentRow (index : Index) (documentId : DocumentId) : Except GraphFault IndexedDocument :=
  if isPublicId documentId = false then .error .notFound
  else (index.documents.find? fun item => item.documentId = documentId).elim
    (.error .notFound) .ok

def linksOf (index : Index) (documentId : DocumentId) : List (LinkRow × DocumentId) :=
  (index.links.insertionSort fun a b => a.linkId ≤ b.linkId).filterMap fun row =>
    match row.found.target with
    | none => none
    | some target =>
      if row.source = documentId ∨ target = documentId then some (row, target) else none

def gatherNodes (maxNodes : ℕ) : List (LinkRow × DocumentId) → List DocumentId → List DocumentId
  | [], nodeIds => nodeIds
  | (link, target) :: rest, nodeIds =>
    let nodeIds := (nodeIds.insert link.source).insert target
    if maxNodes ≤ nodeIds.length then nodeIds else gatherNodes maxNodes rest nodeIds

def edgeOf (link : LinkRow × DocumentId) : GraphEdge where
  edgeId := link.1.linkId
  source := link.1.source
  target := link.2
  embed := link.1.link.embed
  heading := link.1.link.heading.getD []
  linkType := link.1.link.linkType

attribute [local instance] text_lawful in
def focusedGraph (index : Index) (documentId : DocumentId) (maxNodes maxEdges : ℕ) :
    Except GraphFault DocumentGraph :=
  if 1 ≤ maxNodes ∧ maxNodes ≤ 500 ∧ 1 ≤ maxEdges ∧ maxEdges ≤ 2000 then do
    let focusRow ← documentRow index documentId
    let linkRows := (linksOf index documentId).take (maxEdges + 1)
    let nodeIds := gatherNodes maxNodes (linkRows.take maxEdges) [documentId]
    let nodeRows := (index.documents.filter fun item => item.documentId ∈ nodeIds).insertionSort
      fun a b => a.documentId ≤ b.documentId
    let selected := nodeRows.take maxNodes
    let orderedIds := documentId :: ((selected.map IndexedDocument.documentId).filter
      (· ≠ documentId)).insertionSort (· ≤ ·)
    pure
      { focusDocumentId := focusRow.documentId
        nodes := orderedIds.zipIdx.filterMap fun (nodeId, index) =>
          (selected.find? fun item => item.documentId = nodeId).map fun item =>
            ⟨item, index, orderedIds.length⟩
        edges := ((linkRows.take maxEdges).filter fun link =>
          (selected.any fun item => item.documentId = link.1.source) &&
            selected.any fun item => item.documentId = link.2).map edgeOf
        truncated := decide (maxEdges < linkRows.length) || decide (maxNodes < nodeIds.length) }
  else .error .invalidBudget

def DocumentGraph.nodeIds (g : DocumentGraph) : List DocumentId :=
  g.nodes.map fun node => node.document.documentId

def otherEnd (focus : DocumentId) (link : LinkRow × DocumentId) : DocumentId :=
  if link.1.source = focus then link.2 else link.1.source

structure Shows (index : Index) (focus : DocumentId) (maxNodes maxEdges : ℕ) (g : DocumentGraph) :
    Prop where
  focus_mem : focus ∈ g.nodeIds
  nodes_le : g.nodes.length ≤ maxNodes
  edges_le : g.edges.length ≤ maxEdges
  ends : ∀ edge ∈ g.edges, edge.source ∈ g.nodeIds ∧ edge.target ∈ g.nodeIds
  complete : g.truncated = false → ∀ row ∈ index.links, ∀ target, row.found.target = some target →
    row.source = focus ∨ target = focus →
      row.source ∈ g.nodeIds ∧ target ∈ g.nodeIds ∧ edgeOf (row, target) ∈ g.edges

structure Referential (index : Index) : Prop where
  distinct : (index.documents.map IndexedDocument.documentId).Nodup
  source : ∀ row ∈ index.links, row.source ∈ index.documents.map IndexedDocument.documentId
  target : ∀ row ∈ index.links, ∀ target, row.found.target = some target →
    target ∈ index.documents.map IndexedDocument.documentId

def joined (index : Index) (focus : DocumentId) : List DocumentId :=
  ([focus] ++ (linksOf index focus).map (otherEnd focus)).dedup

def SoleFirst (index : Index) (focus : DocumentId) (maxNodes : ℕ) (other : DocumentId) : Prop :=
  maxNodes = 1 ∧ ((linksOf index focus).map (otherEnd focus)).head? = some other

theorem mem_linksOf {index : Index} {focus : DocumentId} {row : LinkRow} {target : DocumentId} :
    (row, target) ∈ linksOf index focus ↔
      row ∈ index.links ∧ row.found.target = some target ∧
        (row.source = focus ∨ target = focus) := by
  simp only [linksOf, mem_filterMap, mem_insertionSort]
  constructor
  · rintro ⟨row', hrow', h⟩
    split at h
    next => cases h
    next target' htarget =>
      split at h
      next hend =>
        cases h
        exact ⟨hrow', htarget, hend⟩
      next => cases h
  · intro h
    refine ⟨row, h.1, ?_⟩
    rw [h.2.1]
    simp [h.2.2]

theorem gatherNodes_eq {index : Index} {focus : DocumentId} (maxNodes : ℕ)
    {links : List (LinkRow × DocumentId)} (h : ∀ link ∈ links, link ∈ linksOf index focus)
    {nodeIds : List DocumentId} (hfocus : focus ∈ nodeIds) : gatherNodes maxNodes links nodeIds =
      gatherUntil maxNodes (links.map (otherEnd focus)) nodeIds := by
  induction links generalizing nodeIds with
  | nil => rfl
  | cons link rest ih =>
    obtain ⟨row, target⟩ := link
    have hends := (mem_linksOf.mp (h _ mem_cons_self)).2.2
    have hinsert : (nodeIds.insert row.source).insert target =
        nodeIds.insert (otherEnd focus (row, target)) := by
      unfold otherEnd
      split
      next hsource =>
        change row.source = focus at hsource
        rw [hsource, insert_of_mem hfocus]
      next hsource =>
        have htarget : target = focus := hends.resolve_left hsource
        rw [htarget, insert_of_mem (mem_insert_of_mem hfocus)]
    rw [map_cons, gatherNodes, gatherUntil, hinsert,
      ih (fun link hlink => h link (mem_cons_of_mem _ hlink)) (mem_insert_of_mem hfocus)]

theorem placed_ids (selected : List IndexedDocument) (count : ℕ) (orderedIds : List DocumentId)
    (start : ℕ) : ((orderedIds.zipIdx start).filterMap fun (nodeId, index) =>
      (selected.find? fun item => item.documentId = nodeId).map fun item =>
        (⟨item, index, count⟩ : GraphNode)).map (fun node => node.document.documentId) =
      orderedIds.filter fun d => d ∈ selected.map IndexedDocument.documentId := by
  induction orderedIds generalizing start with
  | nil => rfl
  | cons d rest ih =>
    rw [zipIdx_cons, filterMap_cons, filter_cons]
    cases hfind : selected.find? fun item => item.documentId = d with
    | none =>
      have hout : d ∉ selected.map IndexedDocument.documentId := by
        intro hmem
        obtain ⟨item, hitem, hid⟩ := mem_map.mp hmem
        exact find?_eq_none.mp hfind item hitem (by simpa using hid)
      simp only [hfind, Option.map_none, hout, decide_false]
      exact ih _
    | some item =>
      have hid : item.documentId = d := by simpa using find?_some hfind
      have hin : d ∈ selected.map IndexedDocument.documentId :=
        hid ▸ mem_map_of_mem (mem_of_find?_eq_some hfind)
      simp only [hfind, Option.map_some, map_cons, hin, decide_true, if_true, hid]
      exact congrArg _ (ih _)

variable {ids : List DocumentId}

theorem rows_ids {documents : List IndexedDocument}
    (hdistinct : (documents.map IndexedDocument.documentId).Nodup) (hnodup : ids.Nodup)
    (hsub : ids ⊆ documents.map IndexedDocument.documentId) :
    ((documents.filter fun item => item.documentId ∈ ids).insertionSort
      fun a b => a.documentId ≤ b.documentId).map IndexedDocument.documentId =
      ids.insertionSort (· ≤ ·) := by
  have hperm : ((documents.filter fun item => item.documentId ∈ ids).insertionSort
      fun a b => a.documentId ≤ b.documentId).map IndexedDocument.documentId |>.Perm ids := by
    refine ((perm_insertionSort _ _).map _).trans ?_
    rw [perm_ext_iff_of_nodup (hdistinct.sublist (filter_sublist.map _)) hnodup]
    intro d
    simp only [mem_map, mem_filter, decide_eq_true_eq]
    constructor
    · rintro ⟨item, ⟨-, hitem⟩, rfl⟩
      exact hitem
    · intro hd
      obtain ⟨item, hitem, rfl⟩ := mem_map.mp (hsub hd)
      exact ⟨item, ⟨hitem, hd⟩, rfl⟩
  refine List.Perm.eq_of_pairwise (fun (a b : DocumentId) _ _ (hab : a ≤ b) hba =>
    le_antisymm hab hba) ?_ ?_ ?_
  · rw [pairwise_map]
    exact pairwise_insertionSort _ _
  · exact pairwise_insertionSort _ _
  · exact hperm.trans (perm_insertionSort _ _).symm

def found (index : Index) (focus : DocumentId) (maxNodes maxEdges : ℕ) : List DocumentId :=
  gatherUntil maxNodes (((linksOf index focus).take maxEdges).map (otherEnd focus)) [focus]

structure Draws (index : Index) (focus : DocumentId) (maxNodes maxEdges : ℕ) (g : DocumentGraph) :
    Prop where
  mem_nodeIds : ∀ d, d ∈ g.nodeIds ↔
    d ∈ ((found index focus maxNodes maxEdges).insertionSort (· ≤ ·)).take maxNodes
  nodes_le : g.nodes.length ≤ maxNodes
  mem_edges : ∀ edge, edge ∈ g.edges ↔ ∃ link ∈ (linksOf index focus).take maxEdges,
    link.1.source ∈ g.nodeIds ∧ link.2 ∈ g.nodeIds ∧ edgeOf link = edge
  edges_le : g.edges.length ≤ maxEdges
  truncated : g.truncated = false ↔ (linksOf index focus).length ≤ maxEdges ∧
    (found index focus maxNodes maxEdges).length ≤ maxNodes

variable {index : Index} {focus : DocumentId} {maxNodes maxEdges : ℕ}

theorem otherEnd_mem (h : Referential index) {link : LinkRow × DocumentId}
    (hlink : link ∈ linksOf index focus) :
    otherEnd focus link ∈ index.documents.map IndexedDocument.documentId := by
  obtain ⟨hrow, htarget, -⟩ := mem_linksOf.mp hlink
  unfold otherEnd
  split
  · exact h.target _ hrow _ htarget
  · exact h.source _ hrow

theorem nodup_found : (found index focus maxNodes maxEdges).Nodup :=
  nodup_gatherUntil (nodup_singleton focus)

theorem found_subset (h : Referential index)
    (hfocus : focus ∈ index.documents.map IndexedDocument.documentId) :
    found index focus maxNodes maxEdges ⊆ index.documents.map IndexedDocument.documentId := by
  intro d hd
  rcases gatherUntil_subset hd with hd | hd
  · rw [mem_singleton.mp hd]
    exact hfocus
  · obtain ⟨link, hlink, rfl⟩ := mem_map.mp hd
    exact otherEnd_mem h (mem_of_mem_take hlink)

theorem placed_drawn {drawn : List DocumentId} (hdrawn : drawn.Nodup)
    (hids : ids = (focus :: (drawn.filter (· ≠ focus)).insertionSort (· ≤ ·)).filter
      fun d => d ∈ drawn) : (∀ d, d ∈ ids ↔ d ∈ drawn) ∧ ids.length ≤ drawn.length := by
  have hmem : ∀ d, d ∈ ids ↔ d ∈ drawn := by
    intro d
    rw [hids]
    simp only [mem_filter, mem_cons, mem_insertionSort, decide_eq_true_eq]
    by_cases hd : d = focus <;> simp [hd]
  have hnodup : ids.Nodup := by
    rw [hids]
    apply List.Nodup.filter
    rw [nodup_cons]
    constructor
    · simp [mem_insertionSort]
    · exact (perm_insertionSort _ _).nodup_iff.mpr (hdrawn.filter _)
  refine ⟨hmem, ?_⟩
  exact (hnodup.subperm fun d hd => (hmem d).mp hd).length_le

theorem focusedGraph_draws (h : Referential index) (hrow : ∃ row, documentRow index focus = .ok row)
    (hbudget : 1 ≤ maxNodes ∧ maxNodes ≤ 500 ∧ 1 ≤ maxEdges ∧ maxEdges ≤ 2000) :
    ∃ g, focusedGraph index focus maxNodes maxEdges = .ok g ∧
      Draws index focus maxNodes maxEdges g := by
  obtain ⟨row, hrow⟩ := hrow
  have hfocus : focus ∈ index.documents.map IndexedDocument.documentId := by
    unfold documentRow at hrow
    split at hrow
    · cases hrow
    · cases hfind : index.documents.find? fun item => item.documentId = focus with
      | none => simp [hfind] at hrow
      | some item =>
        have hid : item.documentId = focus := by simpa using find?_some hfind
        exact hid ▸ mem_map_of_mem (mem_of_find?_eq_some hfind)
  have hnodeIds : gatherNodes maxNodes ((linksOf index focus).take maxEdges) [focus] =
      found index focus maxNodes maxEdges :=
    gatherNodes_eq maxNodes (fun link hlink => mem_of_mem_take hlink) mem_cons_self
  have hstarts : ((linksOf index focus).take (maxEdges + 1)).take maxEdges =
      (linksOf index focus).take maxEdges := by
    rw [take_take, Nat.min_eq_left (Nat.le_succ maxEdges)]
  let selected := ((index.documents.filter fun item =>
    item.documentId ∈ found index focus maxNodes maxEdges).insertionSort
      fun a b => a.documentId ≤ b.documentId).take maxNodes
  have hselected : selected.map IndexedDocument.documentId =
      ((found index focus maxNodes maxEdges).insertionSort (· ≤ ·)).take maxNodes := by
    rw [map_take, rows_ids h.distinct nodup_found (found_subset h hfocus)]
  have hdrawn : (selected.map IndexedDocument.documentId).Nodup := by
    rw [hselected]
    exact (((perm_insertionSort _ _).nodup_iff).mpr nodup_found).sublist
      (take_sublist _ _)
  have hlength : (selected.map IndexedDocument.documentId).length ≤ maxNodes := by
    rw [hselected, length_take]
    exact Nat.min_le_left _ _
  have hany : ∀ d, (selected.any fun item => item.documentId = d) = true ↔
      d ∈ selected.map IndexedDocument.documentId := by
    intro d
    simp [any_eq_true]
  unfold focusedGraph
  rw [if_pos hbudget, hrow]
  refine ⟨_, rfl, ?_⟩
  rw [hstarts, hnodeIds]
  obtain ⟨hmem, hplaced⟩ := placed_drawn hdrawn (placed_ids selected _ _ 0)
  have hnodes := fun d => (hmem d).trans (by rw [hselected])
  constructor
  · exact hnodes
  · rw [length_map] at hplaced
    exact hplaced.trans hlength
  · intro edge
    simp only [mem_map, mem_filter, Bool.and_eq_true]
    constructor
    · rintro ⟨link, ⟨hlink, hsource, htarget⟩, rfl⟩
      exact ⟨link, hlink, (hmem _).mpr ((hany _).mp hsource), (hmem _).mpr ((hany _).mp htarget),
        rfl⟩
    · rintro ⟨link, hlink, hsource, htarget, rfl⟩
      exact ⟨link, ⟨hlink, (hany _).mpr ((hmem _).mp hsource), (hany _).mpr ((hmem _).mp htarget)⟩,
        rfl⟩
  · rw [length_map]
    exact (length_filter_le _ _).trans (by rw [length_take]; exact Nat.min_le_left _ _)
  · simp only [Bool.or_eq_false_iff, decide_eq_false_iff_not, length_take]
    omega

theorem found_one (hedges : 1 ≤ maxEdges) : found index focus 1 maxEdges =
    (((linksOf index focus).map (otherEnd focus)).head?.elim [focus] fun other =>
      [focus].insert other) := by
  unfold found
  cases hlinks : linksOf index focus with
  | nil => rw [take_nil]; rfl
  | cons link rest =>
    obtain ⟨n, rfl⟩ : ∃ n, maxEdges = n + 1 := ⟨maxEdges - 1, by omega⟩
    have hpos : 1 ≤ ([focus].insert (otherEnd focus link)).length :=
      length_pos_of_mem (mem_insert_self)
    rw [take_succ_cons, map_cons, gatherUntil]
    rw [if_pos hpos]
    rfl

theorem found_length_one {other : DocumentId} (hother : other ≠ focus) :
    [focus].insert other = [other, focus] :=
  insert_of_not_mem (by simpa using hother)

theorem focus_kept_iff (hbudget : 1 ≤ maxNodes ∧ 1 ≤ maxEdges) :
    focus ∈ ((found index focus maxNodes maxEdges).insertionSort (· ≤ ·)).take maxNodes ↔
      ∀ other, SoleFirst index focus maxNodes other → focus ≤ other := by
  have hself : focus ∈ found index focus maxNodes maxEdges :=
    subset_gatherUntil _ _ _ mem_cons_self
  rcases Nat.lt_or_ge 1 maxNodes with hmany | hone
  · have hlength : (found index focus maxNodes maxEdges).length ≤ maxNodes :=
      length_gatherUntil (by simpa using hmany)
    rw [take_of_length_le (by rwa [length_insertionSort])]
    refine iff_of_true ((mem_insertionSort _).mpr hself) fun other hother => ?_
    exact absurd hother.1 (by omega)
  · obtain rfl : maxNodes = 1 := by omega
    rw [found_one hbudget.2]
    simp only [SoleFirst, true_and]
    cases ((linksOf index focus).map (otherEnd focus)).head? with
    | none => simp
    | some other =>
      simp only [Option.elim_some, Option.some.injEq, forall_eq']
      by_cases hother : other = focus
      · rw [hother, insert_of_mem mem_cons_self]
        simp
      · rw [found_length_one hother]
        by_cases hle : other ≤ focus
        · have hsorted : [other, focus].insertionSort (· ≤ ·) = [other, focus] := by
            simp [insertionSort, hle]
          have hless : ¬focus ≤ other := fun h => hother (le_antisymm hle h)
          rw [hsorted]
          simp [hless, Ne.symm hother]
        · have hsorted : [other, focus].insertionSort (· ≤ ·) = [focus, other] := by
            simp [insertionSort, hle]
          have hless : focus ≤ other := le_of_not_ge hle
          rw [hsorted]
          simp [hless]

theorem overfull_iff (hbudget : 1 ≤ maxNodes ∧ 1 ≤ maxEdges) :
    maxNodes < (found index focus maxNodes maxEdges).length ↔
      ∃ other, SoleFirst index focus maxNodes other ∧ other ≠ focus := by
  rcases Nat.lt_or_ge 1 maxNodes with hmany | hone
  · have hlength : (found index focus maxNodes maxEdges).length ≤ maxNodes :=
      length_gatherUntil (by simpa using hmany)
    refine iff_of_false (by omega) ?_
    rintro ⟨other, hother, -⟩
    exact absurd hother.1 (by omega)
  · obtain rfl : maxNodes = 1 := by omega
    rw [found_one hbudget.2]
    simp only [SoleFirst, true_and]
    cases ((linksOf index focus).map (otherEnd focus)).head? with
    | none => simp
    | some other =>
      simp only [Option.elim_some, Option.some.injEq, exists_eq_left']
      by_cases hother : other = focus
      · rw [hother, insert_of_mem mem_cons_self]
        simp
      · rw [found_length_one hother]
        simp [hother]

theorem complete_iff (hbudget : 1 ≤ maxNodes ∧ 1 ≤ maxEdges) {g : DocumentGraph}
    (h : Draws index focus maxNodes maxEdges g) :
    (g.truncated = false → ∀ row ∈ index.links, ∀ target, row.found.target = some target →
      row.source = focus ∨ target = focus →
        row.source ∈ g.nodeIds ∧ target ∈ g.nodeIds ∧ edgeOf (row, target) ∈ g.edges) ↔
      maxEdges < (linksOf index focus).length ∨ (joined index focus).length ≤ maxNodes ∨
        ∃ other, SoleFirst index focus maxNodes other ∧ other ≠ focus := by
  rw [← overfull_iff hbudget, h.truncated]
  rcases Nat.lt_or_ge maxEdges (linksOf index focus).length with hcut | hall
  · exact iff_of_true (fun hwhole => absurd hwhole.1 (by omega)) (Or.inl hcut)
  rcases Nat.lt_or_ge maxNodes (found index focus maxNodes maxEdges).length with hover | hfits
  · exact iff_of_true (fun hwhole => absurd hwhole.2 (by omega)) (Or.inr (Or.inr hover))
  have htake : (linksOf index focus).take maxEdges = linksOf index focus :=
    take_of_length_le hall
  have hdrawn : ∀ d, d ∈ g.nodeIds ↔ d ∈ found index focus maxNodes maxEdges := by
    intro d
    rw [h.mem_nodeIds, take_of_length_le (by rwa [length_insertionSort])]
    exact mem_insertionSort _
  have hroom : (linksOf index focus).map (otherEnd focus) ⊆ found index focus maxNodes maxEdges ↔
      (joined index focus).length ≤ maxNodes := by
    unfold found at hfits ⊢
    rw [htake] at hfits ⊢
    exact gatherUntil_all_iff (nodup_singleton focus) hfits
  have hself : focus ∈ found index focus maxNodes maxEdges :=
    subset_gatherUntil _ _ _ mem_cons_self
  have hleft : ¬maxEdges < (linksOf index focus).length := by omega
  have hright : ¬maxNodes < (found index focus maxNodes maxEdges).length := by omega
  simp only [hleft, hright, false_or, or_false, ← hroom, hall, hfits, and_self, true_implies]
  constructor
  · intro hshown d hd
    obtain ⟨⟨row, target⟩, hlink, rfl⟩ := mem_map.mp hd
    obtain ⟨hmem, htarget, hend⟩ := mem_linksOf.mp hlink
    obtain ⟨hsource, htargetIn, -⟩ := hshown row hmem target htarget hend
    unfold otherEnd
    split
    · exact (hdrawn _).mp htargetIn
    · exact (hdrawn _).mp hsource
  · intro hothers row hmem target htarget hend
    have hlink := mem_linksOf.mpr ⟨hmem, htarget, hend⟩
    have hother : otherEnd focus (row, target) ∈ found index focus maxNodes maxEdges :=
      hothers (mem_map_of_mem hlink)
    have hboth : row.source ∈ g.nodeIds ∧ target ∈ g.nodeIds := by
      rw [hdrawn, hdrawn]
      unfold otherEnd at hother
      split at hother
      next hsource => exact ⟨hsource ▸ hself, hother⟩
      next hsource => exact ⟨hother, (hend.resolve_left hsource) ▸ hself⟩
    refine ⟨hboth.1, hboth.2, (h.mem_edges _).mpr ⟨(row, target), ?_, hboth.1, hboth.2, rfl⟩⟩
    rw [htake]
    exact hlink

/-- The graph shows what it should exactly when the flag that it computes tells of every document
and link that it leaves out, and the sole place is not given away. -/
theorem focused_graph_iff (hindex : Referential index)
    (hrow : ∃ row, documentRow index focus = .ok row)
    (hbudget : 1 ≤ maxNodes ∧ maxNodes ≤ 500 ∧ 1 ≤ maxEdges ∧ maxEdges ≤ 2000) :
    (∃ g, focusedGraph index focus maxNodes maxEdges = .ok g ∧
      Shows index focus maxNodes maxEdges g) ↔
      (∀ other, SoleFirst index focus maxNodes other → focus ≤ other) ∧
        (maxEdges < (linksOf index focus).length ∨ (joined index focus).length ≤ maxNodes ∨
          ∃ other, SoleFirst index focus maxNodes other ∧ other ≠ focus) := by
  obtain ⟨g, hg, hdraws⟩ := focusedGraph_draws hindex hrow hbudget
  have hpositive : 1 ≤ maxNodes ∧ 1 ≤ maxEdges := ⟨hbudget.1, hbudget.2.2.1⟩
  rw [← focus_kept_iff hpositive, ← hdraws.mem_nodeIds, ← complete_iff hpositive hdraws]
  constructor
  · rintro ⟨g', hg', hshows⟩
    obtain rfl := Except.ok.inj (hg.symm.trans hg')
    exact ⟨hshows.focus_mem, hshows.complete⟩
  · rintro ⟨hfocus, hcomplete⟩
    refine ⟨g, hg, hfocus, hdraws.nodes_le, hdraws.edges_le, ?_, hcomplete⟩
    intro edge hedge
    obtain ⟨link, -, hsource, htarget, rfl⟩ := (hdraws.mem_edges edge).mp hedge
    exact ⟨hsource, htarget⟩
end

def sampleId (c : CodePoint) : DocumentId := chars "doc_" ++ replicate 64 c

def sampleDocument (c : CodePoint) : IndexedDocument where
  documentId := sampleId c
  relativePath := c :: chars ".md"
  sizeBytes := 0
  contentSha256 := []
  metadata := { title := [c] }
  mtime := 0
  firstSeen := []
  gitStatus := []
  text := none

def sampleLink (source target : CodePoint) : LinkRow where
  linkId := [source, target]
  source := sampleId source
  link := ⟨[target], [target], none, none, .wikilink, false, []⟩
  found := ⟨some (sampleId target), .resolved, [sampleId target], 1⟩

def forkIndex : Index where
  documents := [0x61, 0x62, 0x63].map sampleDocument
  links := [sampleLink 0x62 0x61, sampleLink 0x62 0x63]

theorem fork_referential : Referential forkIndex :=
  ⟨by decide, by decide, by decide⟩

/-- With room for two documents the second neighbour is left out, and the flag does not say so. -/
theorem second_neighbour_unflagged : ¬∃ g, focusedGraph forkIndex (sampleId 0x62) 2 10 = .ok g ∧
    Shows forkIndex (sampleId 0x62) 2 10 g := by
  rintro ⟨g, hg, hshows⟩
  have hrun : (focusedGraph forkIndex (sampleId 0x62) 2 10).toOption.map
      (fun g => (g.truncated, g.nodeIds)) = some (false, [sampleId 0x62, sampleId 0x61]) := by
    decide
  rw [hg] at hrun
  obtain ⟨hwhole, hnodes⟩ := Prod.mk.inj (Option.some.inj hrun)
  have hthird := (hshows.complete hwhole (sampleLink 0x62 0x63) (by simp [forkIndex]) _ rfl
    (Or.inl rfl)).2.1
  rw [hnodes] at hthird
  exact absurd hthird (by decide)

/-- With room for three it is shown. -/
theorem fork_shown : (∃ g, focusedGraph forkIndex (sampleId 0x62) 3 10 = .ok g ∧
      Shows forkIndex (sampleId 0x62) 3 10 g) ↔
      (∀ other, SoleFirst forkIndex (sampleId 0x62) 3 other → sampleId 0x62 ≤ other) ∧
        (10 < (linksOf forkIndex (sampleId 0x62)).length ∨
          (joined forkIndex (sampleId 0x62)).length ≤ 3 ∨
          ∃ other, SoleFirst forkIndex (sampleId 0x62) 3 other ∧ other ≠ sampleId 0x62) :=
  focused_graph_iff fork_referential ⟨_, rfl⟩ (by decide)

end RaytSystem.Extraction
