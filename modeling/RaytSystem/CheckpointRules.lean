import RaytSystem.CheckpointModel
import RaytSystem.ExceptRules
import RaytSystem.RelyGuarantee

/-! What a checkpoint's records say when they are read again, and what `create` relies on. -/
namespace RaytSystem.Checkpoints
open Interleaving ImmutableStore PyText
variable {rules : CheckpointRules} {disk : Provenance} {call : CheckpointCall}
  {event : PromotionEvent} {normalized : List String}

section
variable {value relative : String}

theorem validateRelativePath_again (h : validateRelativePath value = .ok relative) :
    validateRelativePath relative = .ok relative := by
  unfold validateRelativePath at h ⊢
  split at h
  next hpath =>
    obtain rfl := Except.ok.inj h
    rw [(relativePath_settled hpath).2]
  · cases h
  · cases h

theorem validatePath_again (h : validatePath value = .ok relative) :
    validatePath relative = .ok relative := by
  obtain ⟨path, hpath, h⟩ := bind_eq_ok.mp h
  split at h
  · cases h
  next hallowed =>
    obtain rfl := Except.ok.inj h
    unfold validatePath
    rw [validateRelativePath_again hpath]
    exact if_neg hallowed

theorem mapM_validated {paths validated : List String} (h : paths.mapM validatePath = .ok validated) :
    ∀ path ∈ validated, validatePath path = .ok path := by
  induction paths generalizing validated with
  | nil =>
    obtain rfl := Except.ok.inj h
    simp
  | cons path rest ih =>
    rw [List.mapM_cons] at h
    obtain ⟨relative, hpath, h⟩ := bind_eq_ok.mp h
    obtain ⟨more, hrest, h⟩ := bind_eq_ok.mp h
    obtain rfl := Except.ok.inj h
    intro p hp
    rcases List.mem_cons.mp hp with rfl | hp
    · exact validatePath_again hpath
    · exact ih hrest p hp

theorem mapM_fixed {paths : List String} (h : ∀ path ∈ paths, validatePath path = .ok path) :
    paths.mapM validatePath = .ok paths := by
  induction paths with
  | nil => rfl
  | cons path rest ih =>
    rw [List.mapM_cons, h path List.mem_cons_self,
      ih fun p hp => h p (List.mem_cons_of_mem _ hp)]
    rfl

theorem sortedSet_again (paths : List String) : sortedSet (sortedSet paths) = sortedSet paths := by
  rw [sortedSet, (nodup_sortedSet paths).dedup]
  exact (List.pairwise_insertionSort (· ≤ ·) paths.dedup).insertionSort_eq

theorem normalizePaths_again {paths : List String} (h : normalizePaths paths = .ok normalized) :
    normalizePaths normalized = .ok normalized := by
  obtain ⟨validated, hvalidated, h⟩ := bind_eq_ok.mp h
  obtain rfl := Except.ok.inj h
  have hfixed := mapM_fixed fun path hpath =>
    mapM_validated hvalidated path (mem_sortedSet.mp hpath)
  unfold normalizePaths
  rw [hfixed]
  exact congrArg Except.ok (sortedSet_again validated)
end

section

structure CheckpointLaws (rules : CheckpointRules) : Prop where
  normal : ∀ s, rules.nfc (rules.nfc s) = rules.nfc s
  ascii : ∀ s, (∀ c ∈ s.toList, c.toNat < 128) → rules.nfc s = s
  digest : ∀ m, isSha256 (rules.digest m) = true
  commit : ∀ tree parent date message, isCommitId (rules.commitTree tree parent date message) = true

theorem ascii_of_isHexDigit {c : Char} (h : isHexDigit c = true) : c.toNat < 128 := by
  have hrange : (48 ≤ c.toNat ∧ c.toNat ≤ 57) ∨ (97 ≤ c.toNat ∧ c.toNat ≤ 102) := by
    simp only [isHexDigit, Bool.or_eq_true, Bool.and_eq_true, decide_eq_true_eq] at h
    exact h
  omega

variable {s : String}

theorem nfc_sha256 (laws : CheckpointLaws rules) (h : isSha256 s = true) : rules.nfc s = s := by
  simp only [isSha256, Bool.and_eq_true, List.all_eq_true] at h
  exact laws.ascii s fun c hc => ascii_of_isHexDigit (h.2 c hc)

theorem nfc_commit (laws : CheckpointLaws rules) (h : isCommitId s = true) : rules.nfc s = s := by
  simp only [isCommitId, Bool.and_eq_true, List.all_eq_true] at h
  exact laws.ascii s fun c hc => ascii_of_isHexDigit (h.2 c hc)

theorem ascii_of_all (h : s.toList.all (fun c => c.toNat < 128) = true) :
    ∀ c ∈ s.toList, c.toNat < 128 := by simpa using h

theorem ascii_append {a b : String} (ha : ∀ c ∈ a.toList, c.toNat < 128)
    (hb : ∀ c ∈ b.toList, c.toNat < 128) : ∀ c ∈ (a ++ b).toList, c.toNat < 128 := by
  intro c hc
  rw [String.toList_append, List.mem_append] at hc
  exact hc.elim (ha c) (hb c)

theorem ascii_hasDigest {pre s : String} (hpre : ∀ c ∈ pre.toList, c.toNat < 128)
    (h : hasDigest pre s = true) : ∀ c ∈ s.toList, c.toNat < 128 := by
  simp only [hasDigest, Bool.and_eq_true, List.isPrefixOf_iff_prefix] at h
  obtain ⟨rest, hrest⟩ := h.1
  have hdigest := h.2
  rw [← hrest, List.drop_left, isSha256, Bool.and_eq_true, List.all_eq_true,
    String.toList_ofList] at hdigest
  intro c hc
  rw [← hrest, List.mem_append] at hc
  exact hc.elim (hpre c) fun hc => ascii_of_isHexDigit (hdigest.2 c hc)

structure Settled (rules : CheckpointRules) (call : CheckpointCall) (normalized : List String) :
    Prop where
  event : rules.nfc call.eventId = call.eventId
  generation : rules.nfc call.generationId = call.generationId
  reference : rules.nfc (referenceOf call.eventId) = referenceOf call.eventId
  paths : normalized.map rules.nfc = normalized
  prepared : rules.nfc "prepared" = "prepared"
  completed : rules.nfc "completed" = "completed"

variable {eventId generationId : String}

theorem checkIds_ok (h : checkIds eventId generationId = .ok ()) :
    hasDigest "evt_" eventId = true ∧ hasDigest "gen_" generationId = true := by
  unfold checkIds at h
  split at h
  · cases h
  next hevent =>
    split at h
    · cases h
    next hgeneration => exact ⟨by simpa using hevent, by simpa using hgeneration⟩

theorem settled_of_ids (laws : CheckpointLaws rules)
    (h : checkIds call.eventId call.generationId = .ok ())
    (hpaths : ∀ path ∈ normalized, rules.nfc path = path) : Settled rules call normalized := by
  obtain ⟨hevent, hgeneration⟩ := checkIds_ok h
  have hascii : ∀ c ∈ call.eventId.toList, c.toNat < 128 := ascii_hasDigest (ascii_of_all (by decide)) hevent
  exact {
    event := laws.ascii _ hascii
    generation := laws.ascii _ (ascii_hasDigest (ascii_of_all (by decide)) hgeneration)
    reference := laws.ascii _ (ascii_append (ascii_of_all (by decide)) hascii)
    paths := (List.map_congr_left hpaths).trans (List.map_id normalized)
    prepared := laws.ascii _ (ascii_of_all (by decide))
    completed := laws.ascii _ (ascii_of_all (by decide)) }

theorem canonical_again (laws : CheckpointLaws rules) (m : Material) :
    (m.canonical rules).canonical rules = m.canonical rules := by
  have hstate : (m.state.map rules.nfc).map rules.nfc = m.state.map rules.nfc := by
    cases m.state with
    | none => rfl
    | some s => exact congrArg some (laws.normal s)
  have hpaths : (m.paths.map rules.nfc).map rules.nfc = m.paths.map rules.nfc := by
    rw [List.map_map]
    exact List.map_congr_left fun s _ => laws.normal s
  simp only [Material.canonical, laws.normal, hstate, hpaths]

theorem verify_stored (laws : CheckpointLaws rules) (m : Material) :
    verifyCheckpointRecord rules ((checkpointRecord rules m).stored rules) = .ok () := by
  refine if_neg ?_
  simp only [CheckpointRecord.stored, checkpointRecord, nfc_sha256 laws (laws.digest _),
    canonical_again laws, ne_eq, not_true_eq_false, not_false_eq_true]

theorem stored_material (hset : Settled rules call normalized) {state commit : String} {t : Int}
    (hstate : rules.nfc state = state) (hcommit : rules.nfc commit = commit) :
    ((checkpointRecord rules (materialOf rules call state commit normalized t)).stored
      rules).material = {materialOf rules call state commit normalized t with
        createdAt := rules.nfc (rules.zulu t)} := by
  simp only [CheckpointRecord.stored, checkpointRecord, Material.canonical, materialOf,
    Option.map_some, hstate, hcommit, hset.event, hset.generation, hset.reference, hset.paths]

theorem matchRecord_stored (laws : CheckpointLaws rules) (hset : Settled rules call normalized)
    {states : List (Option String)} {message state commit : String} {t : Int}
    (hstates : some state ∈ states) (hstate : rules.nfc state = state)
    (hcommit : rules.nfc commit = commit) : matchRecord rules states message call normalized
      ((checkpointRecord rules (materialOf rules call state commit normalized t)).stored rules) =
      .ok commit := by
  unfold matchRecord
  rw [verify_stored laws, stored_material hset hstate hcommit]
  refine if_neg ?_
  simp [materialOf, hstates]

theorem recheck_stored (laws : CheckpointLaws rules) (hset : Settled rules call normalized)
    (hnormal : normalizePaths normalized = .ok normalized)
    (hrequired : ∀ path ∈ requiredPaths call.generationId call.eventId event.runId,
      path ∈ normalized) {commit : String} {t : Int} (hcommit : rules.nfc commit = commit) :
    recheckCompleted rules event call.eventId call.generationId
      ((completedRecord rules call commit normalized t).stored rules) =
      .ok (commit, normalized) := by
  unfold recheckCompleted completedRecord
  rw [verify_stored laws, stored_material hset hset.completed hcommit]
  change (normalizePaths normalized).bind _ = _
  rw [hnormal]
  refine if_neg ?_
  simp only [materialOf]
  push Not
  exact ⟨by simp, rfl, rfl, rfl, rfl, hrequired⟩

theorem verifyProvenance_weaker
    (h : verifyProvenance rules disk eventId generationId true = .ok event) :
    verifyProvenance rules disk eventId generationId false = .ok event := by
  obtain ⟨⟨generationText, eventText, found⟩, hobjects, h⟩ := bind_eq_ok.mp h
  obtain ⟨_, hrun, h⟩ := bind_eq_ok.mp h
  obtain ⟨_, -, h⟩ := bind_eq_ok.mp h
  exact bind_eq_ok.mpr ⟨_, hobjects, bind_eq_ok.mpr ⟨_, hrun, h⟩⟩

theorem admitRequest_ok (h : admitRequest rules disk call = .ok (event, normalized)) :
    checkIds call.eventId call.generationId = .ok () ∧
      verifyProvenance rules disk call.eventId call.generationId true = .ok event ∧
      normalizePaths normalized = .ok normalized := by
  obtain ⟨_, hids, h⟩ := bind_eq_ok.mp h
  obtain ⟨found, hevent, h⟩ := bind_eq_ok.mp h
  obtain ⟨paths, hpaths, h⟩ := bind_eq_ok.mp h
  split at h
  · cases h
  · obtain ⟨rfl, rfl⟩ := Prod.mk.inj (Except.ok.inj h)
    exact ⟨hids, hevent, normalizePaths_again hpaths⟩

theorem admitVerify_ok (h : admitRequest rules disk call = .ok (event, normalized)) :
    admitVerify rules disk call.eventId call.generationId = .ok event := by
  obtain ⟨hids, hevent, -⟩ := admitRequest_ok h
  unfold admitVerify
  rw [hids]
  exact verifyProvenance_weaker hevent
end
end RaytSystem.Checkpoints
