import RaytSystem.TaskIdempotency
import RaytSystem.UniverseNodes

/-! The universe graph: which nodes and edges the models accept, what stays of them in the rendered
snapshot, and when it has one node for everything that is drawn. -/
namespace RaytSystem.Universe
open PyText Catalog Corpus Tasking CodeGraph KeyedUnion List
variable {w : Planes} {env : UniverseEnv}

def Marked (e : EdgeSpec) : Prop := isIdentifier e.kind = true ∧ isIdentifier e.status = true

def edgeKinds : List String :=
  ["activates", "governed_by", "offers", "contains", "includes", "configured_for", "uses",
    "assigned_to", "depends_on", "recorded", "produced", "superseded_by", "supports", "supersedes",
    "contradicts", "asserts_about"]

def Plain (e : EdgeSpec) : Prop := e.kind ∈ edgeKinds ∧ e.status = "active"

theorem marked_plain {e : EdgeSpec} (h : Plain e) : Marked e := by
  have hkinds : ∀ k ∈ edgeKinds, isIdentifier k = true := by decide
  refine ⟨hkinds e.kind h.1, ?_⟩
  rw [h.2]
  decide

theorem plain_context {source : String} {paths : List String} :
    ∀ e ∈ contextEdges w source paths, Plain e := by
  rw [contextEdges, forall_mem_map]
  simp [Plain, edgeKinds]

theorem plain_pack {known : List String} {p : PackManifest} :
    ∀ e ∈ packEdges w known p, Plain e := by
  rw [packEdges, forall_mem_append, forall_mem_map]
  exact ⟨by simp [Plain, edgeKinds], plain_context⟩

theorem plain_agent {a : AgentDefinition} : ∀ e ∈ agentEdges w a, Plain e := by
  rw [agentEdges, forall_mem_append, forall_mem_append, forall_mem_map]
  exact ⟨by simp [Plain, edgeKinds], plain_context⟩

theorem plain_task {t : AgentTask} : ∀ e ∈ taskEdges w t, Plain e := by
  rw [taskEdges, forall_mem_cons, forall_mem_append, forall_mem_append,
    forall_mem_map, forall_mem_map, forall_mem_map]
  simp [Plain, edgeKinds]

theorem plain_run {r : RunSummary} : ∀ e ∈ runEdges w r, Plain e := by
  rw [runEdges, forall_mem_cons]
  refine ⟨by simp [Plain, edgeKinds], ?_⟩
  split <;> simp [Plain, edgeKinds]

theorem plain_entity {x : Entity} : ∀ e ∈ entityEdges w x, Plain e := by
  rw [entityEdges, forall_mem_cons, forall_mem_map]
  simp [Plain, edgeKinds]

theorem plain_claim {c : Claim} : ∀ e ∈ claimEdges w c, Plain e := by
  rw [claimEdges, forall_mem_cons, forall_mem_append, forall_mem_append,
    forall_mem_map, forall_mem_map, forall_mem_map]
  simp [Plain, edgeKinds]

theorem plain_offered {α : Type} {source kind : String} {id : α → String} {items : List α}
    (h : kind ∈ edgeKinds) : ∀ e ∈ offered source kind id items, Plain e := by
  intro e he
  obtain ⟨a, -, rfl⟩ := mem_map.mp he
  exact ⟨h, rfl⟩

theorem marked_relation {r : Relation} : ∀ e ∈ relationEdges w r, Marked e := by
  rw [relationEdges, forall_mem_append, forall_mem_map]
  refine ⟨?_, ?_⟩
  · intro id _
    exact marked_plain ⟨by simp [edgeKinds], rfl⟩
  · cases r.object with
    | entity id =>
      rw [forall_mem_singleton]
      exact ⟨r.predicate.property, lifecycle_status r.lifecycleStatus⟩
    | literal value => simp

theorem marked_code : ∀ e ∈ codePlaneEdges w, Marked e := by
  have hstatus : ∀ c : EdgeConfidence, isIdentifier (confidenceStatus c) = true := by
    intro c
    cases c <;> decide
  unfold codePlaneEdges
  cases w.code with
  | none => simp
  | some c =>
    rw [Option.elim, forall_mem_append]
    refine ⟨?_, ?_⟩
    · intro e he
      obtain ⟨x, -, he⟩ := mem_flatMap.mp he
      simp only [codeEdges, mem_cons, mem_append] at he
      rcases he with rfl | he | he
      · refine ⟨?_, hstatus x.confidence⟩
        change isIdentifier x.relation.value = true
        cases x.relation <;> decide
      · split at he
        · obtain rfl := mem_singleton.mp he
          exact ⟨show isIdentifier "verifies" = true by decide, hstatus x.confidence⟩
        · cases he
      · split at he
        · obtain rfl := mem_singleton.mp he
          exact ⟨show isIdentifier "explains" = true by decide, hstatus x.confidence⟩
        · cases he
    · intro e he
      obtain ⟨n, -, rfl⟩ := mem_map.mp he
      exact marked_plain ⟨by simp [edgeKinds], rfl⟩

theorem marked_edges : ∀ e ∈ edgesOf (calls w), Marked e := by
  rw [edgesOf_calls]
  simp only [forall_mem_append]
  refine ⟨⟨⟨⟨⟨⟨⟨⟨⟨⟨⟨⟨⟨⟨⟨?_, ?_⟩, ?_⟩, ?_⟩, ?_⟩, ?_⟩, ?_⟩, ?_⟩, ?_⟩, ?_⟩, ?_⟩, ?_⟩, ?_⟩, ?_⟩, ?_⟩, marked_code⟩
  · rw [forall_mem_singleton]
    exact marked_plain ⟨by simp [edgeKinds], rfl⟩
  · intro e he
    obtain ⟨id, -, rfl⟩ := mem_map.mp he
    exact marked_plain ⟨by simp [edgeKinds], rfl⟩
  · exact fun e he => marked_plain (plain_offered (by simp [edgeKinds]) e he)
  · exact fun e he => marked_plain (plain_offered (by simp [edgeKinds]) e he)
  · exact fun e he => marked_plain (plain_offered (by simp [edgeKinds]) e he)
  · intro e he
    obtain ⟨s, -, rfl⟩ := mem_map.mp he
    exact marked_plain ⟨by simp [edgeKinds], rfl⟩
  · intro e he
    obtain ⟨p, -, he⟩ := mem_flatMap.mp he
    exact marked_plain (plain_pack e he)
  · intro e he
    obtain ⟨a, -, he⟩ := mem_flatMap.mp he
    exact marked_plain (plain_agent e he)
  · intro e he
    obtain ⟨t, -, he⟩ := mem_flatMap.mp he
    exact marked_plain (plain_task e he)
  · intro e he
    obtain ⟨r, -, he⟩ := mem_flatMap.mp he
    exact marked_plain (plain_run e he)
  · exact fun e he => marked_plain (plain_offered (by simp [edgeKinds]) e he)
  · intro e he
    obtain ⟨x, -, rfl⟩ := mem_map.mp he
    exact marked_plain ⟨by simp [edgeKinds], rfl⟩
  · intro e he
    obtain ⟨x, -, he⟩ := mem_flatMap.mp he
    exact marked_plain (plain_entity e he)
  · intro e he
    obtain ⟨c, -, he⟩ := mem_flatMap.mp he
    exact marked_plain (plain_claim e he)
  · intro e he
    obtain ⟨r, -, he⟩ := mem_flatMap.mp he
    exact marked_relation e he

section

abbrev NodeView := {v : GraphNodeView // v.valid}
abbrev EdgeView := {v : GraphEdgeView // v.valid}

def specKey (n : NodeSpec) : String × String × String := (n.nodeId, n.kind, n.status)

def viewKey (v : NodeView) : String × String × String := (v.val.nodeId, v.val.kind, v.val.status)

def Placed (place : Int × Int) : Prop :=
  (-100000 ≤ place.1 ∧ place.1 ≤ 100000) ∧ -100000 ≤ place.2 ∧ place.2 ≤ 100000

theorem ringRadius_le (ring : String) : ringRadius ring ≤ 1140 := by
  unfold ringRadius
  simp only [lookup_cons, lookup_nil]
  repeat' split
  all_goals decide

theorem placed_point {radius parts : ℕ} {part : Int} {quarter : Bool} (h : radius ≤ 1140) :
    Placed (env.point radius part parts quarter) := by
  have hle := env.point_le radius part parts quarter
  unfold Placed
  omega

theorem placed_position (ring : String) (index count : ℕ) :
    Placed (position env ring index count) := by
  unfold position
  split
  · split
    · exact placed_point (by omega)
    · exact placed_point (by omega)
  · exact placed_point (ringRadius_le ring)

theorem renderNode_ok {n : NodeSpec} {place : Int × Int} (hn : Wellformed n)
    (hplace : Placed place) : (∃ v, renderNode n place = .ok v) ↔ Fits n := by
  obtain ⟨hx, hy⟩ := hplace
  have hsource : (n.sourceRef.map trim).all isIdentifier = true := by
    cases href : n.sourceRef with
    | none => rfl
    | some s =>
      have hs : isIdentifier s = true := by simpa [href] using hn.sourceRef
      simpa [trim_identifier hs] using hs
  have hvalid : GraphNodeView.valid {
      nodeId := trim n.nodeId, kind := trim n.kind, label := trim n.label
      subtitle := trim n.subtitle, status := trim n.status, ring := trim n.ring
      importance := n.importance, x := place.1, y := place.2, recordedAt := n.recordedAt
      sourceRef := n.sourceRef.map trim
      metadata := n.metadata.map fun kv => (trim kv.1, trim kv.2) } ↔ Fits n := by
    simp only [GraphNodeView.valid, trim_identifier hn.nodeId, trim_identifier hn.kind,
      trim_identifier hn.status, trim_identifier hn.ring, hn.nodeId, hn.kind, hn.label, hn.status,
      hn.ring, hn.importance.1, hn.importance.2, hx.1, hx.2, hy.1, hy.2, hsource, true_and, and_true]
    rfl
  unfold renderNode
  dsimp only
  split
  next h => exact ⟨fun _ => hvalid.mp h, fun _ => ⟨_, rfl⟩⟩
  next h => exact ⟨fun hv => absurd hv.choose_spec (by simp), fun hfit => absurd (hvalid.mpr hfit) h⟩

theorem renderNode_key {n : NodeSpec} {place : Int × Int} {v : NodeView} (hn : Wellformed n)
    (h : renderNode n place = .ok v) : viewKey v = specKey n := by
  unfold renderNode at h
  dsimp only at h
  split at h
  · obtain rfl := Except.ok.inj h
    simp only [viewKey, specKey, trim_identifier hn.nodeId, trim_identifier hn.kind,
      trim_identifier hn.status]
  · cases h

theorem placeRing_nodes (nodes : List NodeSpec) (ring : String) :
    ((placeRing env nodes ring).map Prod.fst).Perm (nodes.filter fun n => n.ring = ring) := by
  have hfst : (placeRing env nodes ring).map Prod.fst =
      (nodes.filter fun n => n.ring = ring).insertionSort fun a b => ringOrder a b = true := by
    rw [placeRing, map_map]
    exact zipIdx_map_fst _ _
  rw [hfst]
  exact perm_insertionSort _ _

def placedNodes (env : UniverseEnv) (nodes : List NodeSpec) : List (NodeSpec × (Int × Int)) :=
  (sortedSet (nodes.map fun n => n.ring)).flatMap (placeRing env nodes)

theorem placedNodes_nodes (nodes : List NodeSpec) :
    ((placedNodes env nodes).map Prod.fst).Perm nodes := by
  have hrings : ∀ n ∈ nodes, n.ring ∈ sortedSet (nodes.map fun n => n.ring) :=
    fun n hn => mem_sortedSet.mpr (mem_map_of_mem hn)
  rw [placedNodes, map_flatMap]
  calc (sortedSet (nodes.map fun n => n.ring)).flatMap
        (fun ring => (placeRing env nodes ring).map Prod.fst)
      |>.Perm ((sortedSet (nodes.map fun n => n.ring)).flatMap
        fun ring => nodes.filter fun n => n.ring = ring) :=
        List.Perm.flatMap_left _ fun ring _ => placeRing_nodes nodes ring
    _ |>.Perm (nodes.filter fun n => n.ring ∈ sortedSet (nodes.map fun n => n.ring)) :=
        perm_groups (nodup_sortedSet _)
    _ = nodes := filter_eq_self.mpr fun n hn => by simpa using hrings n hn

theorem placedNodes_placed (nodes : List NodeSpec) : ∀ p ∈ placedNodes env nodes, Placed p.2 := by
  intro p hp
  obtain ⟨ring, -, hp⟩ := mem_flatMap.mp hp
  obtain ⟨ni, -, rfl⟩ := mem_map.mp hp
  exact placed_position ring ni.2 _

variable {nodes : List NodeSpec}

theorem layout_ok (hnodes : ∀ n ∈ nodes, Wellformed n) :
    (∃ vs, layout env nodes = .ok vs) ↔ ∀ n ∈ nodes, Fits n := by
  have hperm : ((placedNodes env nodes).map Prod.fst).Perm nodes := placedNodes_nodes nodes
  have hmem : ∀ p ∈ placedNodes env nodes, p.1 ∈ nodes :=
    fun p hp => hperm.mem_iff.mp (mem_map_of_mem hp)
  have hlayout : (∃ vs, layout env nodes = .ok vs) ↔
      ∃ vs, (placedNodes env nodes).mapM (fun p => renderNode p.1 p.2) = .ok vs := by
    simp only [layout, bind_eq_ok, return_eq_ok]
    constructor
    · rintro ⟨_, vs, hvs, -⟩
      exact ⟨vs, hvs⟩
    · rintro ⟨vs, hvs⟩
      exact ⟨_, vs, hvs, rfl⟩
  rw [hlayout, mapM_exists_ok]
  constructor
  · intro h n hn
    obtain ⟨p, hp, rfl⟩ := mem_map.mp (hperm.mem_iff.mpr hn)
    exact (renderNode_ok (hnodes p.1 (hmem p hp)) (placedNodes_placed nodes p hp)).mp (h p hp)
  · intro h p hp
    exact (renderNode_ok (hnodes p.1 (hmem p hp)) (placedNodes_placed nodes p hp)).mpr
      (h p.1 (hmem p hp))

theorem map_eq_of_mapM {α β γ ε : Type} {f : α → Except ε β} {g : β → γ} {k : α → γ}
    {items : List α} {found : List β} (h : items.mapM f = .ok found)
    (hk : ∀ a ∈ items, ∀ b, f a = .ok b → g b = k a) : found.map g = items.map k := by
  have hall := mapM_eq_ok.mp h
  clear h
  induction hall with
  | nil => rfl
  | @cons a b as bs hab _ ih =>
    have hrest := ih fun a ha => hk a (mem_cons_of_mem _ ha)
    rw [map_cons, map_cons, hk a mem_cons_self b hab, hrest]

theorem layout_keys {vs : List NodeView} (hnodes : ∀ n ∈ nodes, Wellformed n)
    (h : layout env nodes = .ok vs) : (vs.map viewKey).Perm (nodes.map specKey) := by
  simp only [layout, bind_eq_ok, return_eq_ok] at h
  obtain ⟨rendered, hrendered, rfl⟩ := h
  have hperm : ((placedNodes env nodes).map Prod.fst).Perm nodes := placedNodes_nodes nodes
  have hkeys : rendered.map viewKey = (placedNodes env nodes).map fun p => specKey p.1 := by
    apply map_eq_of_mapM hrendered
    intro p hp v hv
    have hmem : p.1 ∈ nodes := hperm.mem_iff.mp (mem_map_of_mem hp)
    exact renderNode_key (hnodes p.1 hmem) hv
  have hspecs : ((placedNodes env nodes).map fun p => specKey p.1).Perm (nodes.map specKey) := by
    have hmap := hperm.map specKey
    rwa [map_map] at hmap
  exact ((perm_insertionSort _ _).map viewKey).trans (hkeys ▸ hspecs)

theorem renderEdge_ok {e : EdgeSpec} (hmarked : Marked e) (hsource : isIdentifier e.source = true)
    (htarget : isIdentifier e.target = true) : ∃ v, renderEdge env e = .ok v := by
  have hid : isIdentifier (derivedId "gedge" (env.edgeDigest (edgeKey e))) = true :=
    @isIdentifier_derivedId 'g' ['e', 'd', 'g', 'e'] _ _ rfl (by decide) (by decide)
      (by decide)
  unfold renderEdge
  dsimp only
  rw [dif_pos]
  · exact ⟨_, rfl⟩
  · simp only [GraphEdgeView.valid, trim_identifier hsource, trim_identifier htarget,
      trim_identifier hmarked.1, trim_identifier hmarked.2]
    exact ⟨hid, hsource, htarget, hmarked.1, hmarked.2⟩

theorem renderEdge_ends {e : EdgeSpec} {v : EdgeView} (hsource : isIdentifier e.source = true)
    (htarget : isIdentifier e.target = true) (h : renderEdge env e = .ok v) :
    v.val.source = e.source ∧ v.val.target = e.target := by
  unfold renderEdge at h
  dsimp only at h
  split at h
  · obtain rfl := Except.ok.inj h
    exact ⟨trim_identifier hsource, trim_identifier htarget⟩
  · cases h
end

structure Complete (w : Planes) (g : GraphSnapshot) : Prop where
  unique : (g.nodes.map fun v => v.val.nodeId).Nodup
  nodes : (g.nodes.map viewKey).Perm ((nodesOf (calls w)).map specKey)
  edges : ∀ v ∈ g.edges, v.val.source ∈ (g.nodes.map fun v => v.val.nodeId) ∧
    v.val.target ∈ g.nodes.map fun v => v.val.nodeId

section
attribute [local irreducible] calls planeIds

theorem ensure_eq_ok {b : Prop} [Decidable b] {message : String} {u : Unit} :
    ensure b message = .ok u ↔ b := by
  unfold ensure
  split
  next h => exact iff_of_true rfl h
  next h => exact iff_of_false nofun h

theorem snapshot_parts {g : GraphSnapshot} (h : snapshot env w = .ok g) :
    ∃ d : Drawing, draw ⟨[], []⟩ (calls w) = .ok d ∧
      (∀ e ∈ d.edges, e.source ∈ (d.nodes.map fun n => n.nodeId) ∧
        e.target ∈ d.nodes.map fun n => n.nodeId) ∧
      layout env d.nodes = .ok g.nodes ∧
      (d.edges.insertionSort fun a b => edgeOrder a b = true).mapM (renderEdge env) =
        .ok g.edges := by
  simp only [snapshot, bind_eq_ok, return_eq_ok, ensure_eq_ok] at h
  obtain ⟨d, hdraw, _, -, _, hends, nodes, hnodes, edges, hedges, rfl⟩ := h
  exact ⟨d, hdraw, hends, hnodes, hedges⟩

theorem snapshot_of_parts {d : Drawing} {nodes : List NodeView} {edges : List EdgeView}
    (hdraw : draw ⟨[], []⟩ (calls w) = .ok d)
    (hsize : d.nodes.length ≤ maxNodes ∧ d.edges.length ≤ maxEdges)
    (hends : ∀ e ∈ d.edges, e.source ∈ (d.nodes.map fun n => n.nodeId) ∧
      e.target ∈ d.nodes.map fun n => n.nodeId) (hnodes : layout env d.nodes = .ok nodes)
    (hedges : (d.edges.insertionSort fun a b => edgeOrder a b = true).mapM (renderEdge env) =
      .ok edges) : ∃ g, snapshot env w = .ok g ∧ g.nodes = nodes ∧ g.edges = edges := by
  let seed := assemble w nodes edges
  refine ⟨{seed with graphSnapshotId := derivedId "graph" (env.graphDigest seed)}, ?_, rfl, rfl⟩
  simp only [snapshot, bind_eq_ok, return_eq_ok, ensure_eq_ok]
  exact ⟨d, hdraw, (), hsize, (), hends, nodes, hnodes, edges, hedges, rfl⟩

theorem viewKey_ids {views : List NodeView} {specs : List NodeSpec}
    (h : (views.map viewKey).Perm (specs.map specKey)) :
    (views.map fun v => v.val.nodeId).Perm (specs.map NodeSpec.nodeId) := by
  have hids := h.map Prod.fst
  rwa [map_map, map_map] at hids

theorem ends_kept {edges : List EdgeSpec}
    (h : keepAll edgeKey [] (edgesOf (calls w)) = edges) :
    (∀ e ∈ edges, Ends w e) ↔ ∀ e ∈ edgesOf (calls w), Ends w e := by
  subst h
  constructor
  · intro hkept e he
    have hkey : edgeKey e ∈ (keepAll edgeKey [] (edgesOf (calls w))).map edgeKey :=
      (keys_keepAll _).mpr (Or.inr (mem_map_of_mem he))
    obtain ⟨e', he', hsame⟩ := mem_map.mp hkey
    have hends := hkept e' he'
    simp only [edgeKey, Prod.mk.injEq] at hsame
    obtain ⟨hsource, htarget, -, -⟩ := hsame
    unfold Ends at hends ⊢
    rwa [hsource, htarget] at hends
  · intro hall e he
    rcases mem_keepAll he with he | he
    · cases he
    · exact hall e he

theorem draw_distinct (h : (planeIds w).Nodup) : draw ⟨[], []⟩ (calls w) =
    .ok ⟨nodesOf (calls w), keepAll edgeKey [] (edgesOf (calls w))⟩ := by
  have hnodup : (([] ++ nodesOf (calls w)).map NodeSpec.nodeId).Nodup := by
    rw [nil_append, nodeIds_calls]
    exact h
  have hall := insertAll_new hnodup
  rw [nil_append] at hall
  exact draw_eq_ok.mpr ⟨hall, rfl⟩

theorem draw_mem {d : Drawing} (h : draw ⟨[], []⟩ (calls w) = .ok d) (n : NodeSpec) :
    n ∈ d.nodes ↔ n ∈ nodesOf (calls w) := by
  have hnil : (([] : List NodeSpec).map NodeSpec.nodeId).Nodup := nodup_nil
  have hmem := (insertAll_held hnil (draw_eq_ok.mp h).1).2 n
  simpa using hmem

theorem identifier_of_mem (hboard : ValidBoard w.tasks) {id : String} (h : id ∈ planeIds w) :
    isIdentifier id = true := by
  rw [← nodeIds_calls] at h
  obtain ⟨n, hn, rfl⟩ := mem_map.mp h
  exact (wellformed_nodes hboard n hn).nodeId

section
variable (hboard : ValidBoard w.tasks) (hlinked : Linked w.catalog.parts)
  (hresolved : Resolved w.corpus)
include hboard hlinked hresolved

theorem conditions_of_complete {g : GraphSnapshot} (h : snapshot env w = .ok g)
    (hcomplete : Complete w g) : (planeIds w).Nodup ∧ RelationsClosed w ∧ Short w := by
  obtain ⟨d, hdraw, hends, hlayout, -⟩ := snapshot_parts h
  have hids : ∀ id ∈ d.nodes.map fun n => n.nodeId, id ∈ planeIds w := by
    intro id hid
    obtain ⟨n, hn, rfl⟩ := mem_map.mp hid
    rw [← nodeIds_calls]
    exact mem_map_of_mem ((draw_mem hdraw n).mp hn)
  refine ⟨?_, ?_, ?_⟩
  · rw [← nodeIds_calls]
    exact (viewKey_ids hcomplete.nodes).nodup_iff.mp hcomplete.unique
  · apply (ends_edges hlinked hresolved).mp
    apply (ends_kept (draw_eq_ok.mp hdraw).2).mp
    intro e he
    obtain ⟨hsource, htarget⟩ := hends e he
    exact ⟨hids e.source hsource, hids e.target htarget⟩
  · apply fits_nodes.mp
    intro n hn
    have hwellformed : ∀ n ∈ d.nodes, Wellformed n :=
      fun n hn => wellformed_nodes hboard n ((draw_mem hdraw n).mp hn)
    exact (layout_ok hwellformed).mp ⟨_, hlayout⟩ n ((draw_mem hdraw n).mpr hn)

theorem complete_of_conditions (hids : (planeIds w).Nodup) (hclosed : RelationsClosed w)
    (hshort : Short w) (hnodes : (planeIds w).length ≤ maxNodes)
    (hedges : ((edgesOf (calls w)).map edgeKey).dedup.length ≤ maxEdges) :
    ∃ g, snapshot env w = .ok g ∧ Complete w g := by
  have hends : ∀ e ∈ keepAll edgeKey [] (edgesOf (calls w)), Ends w e :=
    (ends_kept rfl).mpr ((ends_edges hlinked hresolved).mpr hclosed)
  have hwellformed := wellformed_nodes hboard
  obtain ⟨views, hviews⟩ := (@layout_ok env _ hwellformed).mpr (fits_nodes.mpr hshort)
  have hkeys := layout_keys hwellformed hviews
  have hviewIds : (views.map fun v => v.val.nodeId).Perm (planeIds w) := by
    have hperm := viewKey_ids hkeys
    rwa [nodeIds_calls] at hperm
  have hsorted : ∀ e ∈ (keepAll edgeKey [] (edgesOf (calls w))).insertionSort
      (fun a b => edgeOrder a b = true), e ∈ keepAll edgeKey [] (edgesOf (calls w)) :=
    fun e he => (perm_insertionSort _ _).mem_iff.mp he
  have hrendered : ∃ edges, ((keepAll edgeKey [] (edgesOf (calls w))).insertionSort
      fun a b => edgeOrder a b = true).mapM (renderEdge env) = .ok edges := by
    apply mapM_exists_ok.mpr
    intro e he
    have hkept := hsorted e he
    have hdrawn : e ∈ edgesOf (calls w) := by
      rcases mem_keepAll hkept with h | h
      · cases h
      · exact h
    exact renderEdge_ok (marked_edges e hdrawn) (identifier_of_mem hboard (hends e hkept).1)
      (identifier_of_mem hboard (hends e hkept).2)
  obtain ⟨edges, hedgeViews⟩ := hrendered
  obtain ⟨g, hg, hgNodes, hgEdges⟩ := snapshot_of_parts (draw_distinct hids)
    ⟨by rw [← length_map (f := NodeSpec.nodeId), nodeIds_calls]; exact hnodes,
      by rw [length_keepAll]; exact hedges⟩
    (fun e he => by
      have h := hends e he
      unfold Ends at h
      rwa [← nodeIds_calls] at h) hviews hedgeViews
  refine ⟨g, hg, ?_⟩
  subst hgNodes hgEdges
  refine ⟨hviewIds.nodup_iff.mpr hids, hkeys, ?_⟩
  intro v hv
  obtain ⟨e, he, hrender⟩ := mapM_ok hedgeViews v hv
  have hkept := hends e (hsorted e he)
  obtain ⟨hsource, htarget⟩ := renderEdge_ends (identifier_of_mem hboard hkept.1)
    (identifier_of_mem hboard hkept.2) hrender
  rw [hsource, htarget]
  exact ⟨hviewIds.mem_iff.mpr hkept.1, hviewIds.mem_iff.mpr hkept.2⟩
end

end

/-- Of planes that their own loaders accept, and within the limits of the projection, a complete
graph is made exactly when no two objects have one id, the relations stay among the drawn objects,
and the texts that become subtitles are short. -/
theorem universe_complete_iff (env : UniverseEnv) (w : Planes) (ledger : LedgerFiles)
    (files : CatalogFiles) (fingerprint : CatalogParts → Sha256) (taskEnv : TaskEnv)
    (store : TaskStore) (hcorpus : Corpus.load ledger = .ok w.corpus)
    (hcatalog : Catalog.load fingerprint files = .ok w.catalog)
    (htasks : Tasking.snapshot taskEnv store = .ok w.tasks)
    (hnodes : (planeIds w).length ≤ maxNodes)
    (hedges : ((edgesOf (calls w)).map edgeKey).dedup.length ≤ maxEdges) :
    (∃ g, snapshot env w = .ok g ∧ Complete w g) ↔
      (planeIds w).Nodup ∧ RelationsClosed w ∧ Short w := by
  have hboard := snapshot_valid htasks
  have hlinked := load_linked hcatalog
  have hresolved := load_resolved hcorpus
  constructor
  · rintro ⟨g, hg, hcomplete⟩
    exact conditions_of_complete hboard hlinked hresolved hg hcomplete
  · rintro ⟨hids, hclosed, hshort⟩
    exact complete_of_conditions hboard hlinked hresolved hids hclosed hshort hnodes hedges

def sampleEntityId : Identifier := ⟨"ent_demo", by decide⟩

def sampleEntity : Entity :=
  ⟨sampleEntityId, ⟨"topic", by decide⟩, ⟨"Demo", by decide⟩, .active, []⟩

def sampleRelation : Relation where
  relationId := ⟨"rel_demo", by decide⟩
  subjectEntityId := sampleEntityId
  predicate := ⟨"relates_to", by decide⟩
  object := .entity sampleEntityId
  claimIds := [⟨"claim_demo", by decide⟩]
  lifecycleStatus := .active
  claimed := cons_ne_nil _ _

variable (retired : Bool)

def sampleLedger : LedgerFiles where
  generation := {
    generationId := ⟨"gen_demo", by decide⟩
    records := ⟨[("entity:ent_demo", ⟨"entity", "ent_demo", zeroDigest, retired⟩),
      ("relation:rel_demo", ⟨"relation", "rel_demo", oneDigest, false⟩)],
      show ["entity:ent_demo", "relation:rel_demo"].Nodup by decide⟩
    createdAt := 0 }
  generationSha256 := zeroDigest
  objects sha := if sha = zeroDigest then some (.entity sampleEntity) else some (.relation sampleRelation)
  sources := []
  revisions := []
  normalized := []

def sampleCorpus : ActiveCorpus where
  generation := (sampleLedger retired).generation
  generationSha256 := zeroDigest
  claims := []
  entities := if retired then [] else [sampleEntity]
  relations := [sampleRelation]
  sources := []
  evidence := []

def emptyFiles : CatalogFiles := ⟨[], [], [], fun _ => none, []⟩

def samplePlanes : Planes where
  corpus := sampleCorpus retired
  tasks := ⟨none, none, none, []⟩
  catalog := ⟨zeroDigest, ⟨[], [], [], [], []⟩⟩
  runs := []
  code := none
  codeState := .missing
  viewNodes := 100
  viewEdges := 100

def sampleUniverse : UniverseEnv where
  point _ _ _ _ := (0, 0)
  point_le _ _ _ _ := ⟨Nat.zero_le _, Nat.zero_le _⟩
  edgeDigest _ := zeroDigest
  graphDigest _ := zeroDigest

theorem sample_corpus : Corpus.load (sampleLedger retired) = .ok (sampleCorpus retired) := by
  have hapart : oneDigest ≠ zeroDigest := by decide
  have hentity : loadRecord (sampleLedger retired).objects "entity:ent_demo"
      ⟨"entity", "ent_demo", zeroDigest, retired⟩ = .ok (.entity sampleEntity) := by
    simp only [loadRecord, sampleLedger, if_true, bind_eq_ok, require_eq_ok]
    exact ⟨(), by decide, (), rfl, (), rfl, rfl⟩
  have hrelation : loadRecord (sampleLedger retired).objects "relation:rel_demo"
      ⟨"relation", "rel_demo", oneDigest, false⟩ = .ok (.relation sampleRelation) := by
    simp only [loadRecord, sampleLedger, if_neg hapart, bind_eq_ok, require_eq_ok]
    exact ⟨(), by decide, (), rfl, (), rfl, rfl⟩
  have horder : ("entity:ent_demo" : String) ≤ "relation:rel_demo" := by decide
  have hrecords : loadRecords (sampleLedger retired).objects (sampleLedger retired).generation =
      .ok (if retired then [.relation sampleRelation]
        else [.entity sampleEntity, .relation sampleRelation]) := by
    have hsorted : ((sampleLedger retired).generation.records.entries.insertionSort
        fun a b => a.1 ≤ b.1) = (sampleLedger retired).generation.records.entries := by
      simp [sampleLedger, horder]
    unfold loadRecords
    rw [hsorted]
    apply mapM_eq_ok.mpr
    cases retired with
    | true => exact .cons hrelation .nil
    | false => exact .cons hentity (.cons hrelation .nil)
  simp only [Corpus.load, hrecords, bind_eq_ok, return_eq_ok, require_eq_ok]
  cases retired with
  | true =>
    have hclaims : claimsOf [.relation sampleRelation] = [] := rfl
    have hresolved : ∀ c ∈ claimsOf [.relation sampleRelation], ∀ id ∈ c.evidenceIds,
        ∃ e ∈ ([] : List ResolvedEvidence), e.segment.segmentId = id := by
      simp [hclaims]
    exact ⟨_, rfl, (), nodup_nil, (), nodup_nil, [], rfl, (), hresolved, rfl⟩
  | false =>
    have hclaims : claimsOf [.entity sampleEntity, .relation sampleRelation] = [] := rfl
    have hresolved : ∀ c ∈ claimsOf [.entity sampleEntity, .relation sampleRelation],
        ∀ id ∈ c.evidenceIds, ∃ e ∈ ([] : List ResolvedEvidence), e.segment.segmentId = id := by
      simp [hclaims]
    exact ⟨_, rfl, (), nodup_nil, (), nodup_nil, [], rfl, (), hresolved, rfl⟩

theorem sample_catalog : Catalog.load (fun _ => zeroDigest) emptyFiles =
    .ok (samplePlanes retired).catalog := rfl

theorem sample_tasks : Tasking.snapshot plainEnv .empty = .ok (samplePlanes retired).tasks := rfl

theorem sample_ids : planeIds (samplePlanes retired) =
    [workspaceId, "gen_demo"] ++ if retired then [] else ["ent_demo"] := by
  cases retired <;> rfl

theorem sample_size : (planeIds (samplePlanes retired)).length ≤ maxNodes ∧
    ((edgesOf (calls (samplePlanes retired))).map edgeKey).dedup.length ≤ maxEdges := by
  have hlength : (edgesOf (calls (samplePlanes retired))).length ≤ 8 := by
    cases retired <;> decide
  refine ⟨?_, ?_⟩
  · rw [sample_ids]
    cases retired <;> decide
  · have hdedup := (dedup_sublist ((edgesOf (calls (samplePlanes retired))).map edgeKey)).length_le
    rw [length_map] at hdedup
    have hmax : maxEdges = 50000 := rfl
    omega

/-- A relation whose entity was retired leaves the workspace without a graph. -/
theorem retired_entity_stops_graph :
    ¬∀ (env : UniverseEnv) (w : Planes) (ledger : LedgerFiles) (files : CatalogFiles)
      (fingerprint : CatalogParts → Sha256) (taskEnv : TaskEnv) (store : TaskStore),
      Corpus.load ledger = .ok w.corpus → Catalog.load fingerprint files = .ok w.catalog →
      Tasking.snapshot taskEnv store = .ok w.tasks → (planeIds w).length ≤ maxNodes →
      ((edgesOf (calls w)).map edgeKey).dedup.length ≤ maxEdges →
      ∃ g, snapshot env w = .ok g ∧ Complete w g := by
  intro hclaim
  obtain ⟨hnodes, hedges⟩ := sample_size true
  obtain ⟨g, hg, hcomplete⟩ := hclaim sampleUniverse (samplePlanes true) (sampleLedger true)
    emptyFiles (fun _ => zeroDigest) plainEnv .empty (sample_corpus true) (sample_catalog true)
    (sample_tasks true) hnodes hedges
  obtain ⟨-, hclosed, -⟩ := conditions_of_complete (snapshot_valid (sample_tasks true))
    (load_linked (sample_catalog true)) (load_resolved (sample_corpus true)) hg hcomplete
  have hknown := ((hclosed sampleRelation (List.mem_singleton_self _)).2 sampleEntityId rfl).2
  rw [sample_ids] at hknown
  exact absurd hknown (by decide)

/-- With its entity in place the relation is drawn. -/
theorem living_entity_drawn :
    ∃ g, snapshot sampleUniverse (samplePlanes false) = .ok g ∧ Complete (samplePlanes false) g := by
  obtain ⟨hnodes, hedges⟩ := sample_size false
  have hids : (planeIds (samplePlanes false)).Nodup := by
    rw [sample_ids]
    decide
  have hclosed : RelationsClosed (samplePlanes false) := by
    intro r hr
    obtain rfl := List.mem_singleton.mp hr
    have hdrawn : sampleEntityId.val ∈ planeIds (samplePlanes false) := by
      rw [sample_ids]
      decide
    have hsubject : sampleRelation.subjectEntityId = sampleEntityId := rfl
    constructor
    · intro _
      rw [hsubject]
      exact hdrawn
    · intro id hid
      have hid : id = sampleEntityId := (RelationObject.entity.inj hid).symm
      rw [hsubject, hid]
      exact ⟨hdrawn, hdrawn⟩
  have hclaims : (samplePlanes false).corpus.claims = [] := rfl
  have hviewed : viewedNodes (samplePlanes false) = [] := rfl
  have hshort : Short (samplePlanes false) := by
    rw [Short, hclaims, hviewed]
    constructor
    · intro c hc
      exact absurd hc List.not_mem_nil
    · intro n hn
      exact absurd hn List.not_mem_nil
  exact (universe_complete_iff sampleUniverse (samplePlanes false) (sampleLedger false) emptyFiles
    (fun _ => zeroDigest) plainEnv .empty (sample_corpus false) (sample_catalog false)
    (sample_tasks false) hnodes hedges).mpr ⟨hids, hclosed, hshort⟩

end RaytSystem.Universe
