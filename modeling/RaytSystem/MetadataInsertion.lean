import RaytSystem.ExceptRules
import RaytSystem.MetadataIndex

/-! Which documents can be inserted into the index, and what a scan inserts. -/
namespace RaytSystem.Extraction
open List IndexedDocument

variable {env : IndexEnv} {ctx : ScanContext}

section
variable {ρ κ : Type} [DecidableEq κ] {key : ρ → κ}

end

section
variable {index index' : Index} {item : IndexedDocument}

structure Storable (env : IndexEnv) (item : IndexedDocument) (entries : List (Text × Text)) :
    Prop where
  printed : propertyEntries env item.metadata.properties = .ok entries
  texts : (storedTexts item entries).all encodable = true
  tags : (item.metadata.tags.map env.casefold).Nodup
  properties : (entries.map fun entry => (env.casefold entry.1, env.casefold entry.2)).Nodup

structure Built (env : IndexEnv) (index : Index) : Prop where
  documents : ∀ d ∈ index.documents, env.visible d.relativePath = true
  distinct : (index.documents.map documentId).Nodup
  tags : ∀ row ∈ index.tags, row.1 ∈ index.documents.map documentId
  properties : ∀ row ∈ index.properties, row.1 ∈ index.documents.map documentId
  links : ∀ row ∈ index.links, row.source ∈ index.documents.map documentId ∧
    ∃ i r c, row.linkId = env.linkId row.source i r c

def added (env : IndexEnv) (index : Index) (item : IndexedDocument)
    (entries : List (Text × Text)) : Index := { index with
  documents := index.documents ++ [item]
  tags := index.tags ++ item.metadata.tags.map fun tag => (item.documentId, env.casefold tag)
  properties := index.properties ++
    entries.map fun entry => (item.documentId, env.casefold entry.1, env.casefold entry.2)
  links := index.links ++ linkRows env item }

theorem mem_linkRows {row : LinkRow} (h : row ∈ linkRows env item) :
    row.source = item.documentId ∧ row.link ∈ item.metadata.links ∧
      ∃ i r c, row.linkId = env.linkId row.source i r c := by
  obtain ⟨⟨link, i⟩, hlink, rfl⟩ := mem_map.mp h
  exact ⟨rfl, (mem_zipIdx' hlink).2 ▸ getElem_mem _, i, _, _, rfl⟩

theorem Built.added (h : Built env index)
    (hfresh : item.documentId ∉ index.documents.map documentId)
    (hvisible : env.visible item.relativePath = true) (entries : List (Text × Text)) :
    Built env (added env index item entries) where
  documents d hd := by
    rcases mem_append.mp hd with hd | hd
    · exact h.documents d hd
    · obtain rfl := mem_singleton.mp hd
      exact hvisible
  distinct := by
    simp only [Extraction.added, map_append, map_singleton]
    exact (nodup_append_comm).mp (nodup_cons.mpr ⟨hfresh, h.distinct⟩)
  tags row hrow := by
    simp only [Extraction.added, map_append, mem_append] at hrow ⊢
    rcases hrow with hrow | hrow
    · exact Or.inl (h.tags row hrow)
    · obtain ⟨tag, -, rfl⟩ := mem_map.mp hrow
      exact Or.inr (by simp)
  properties row hrow := by
    simp only [Extraction.added, map_append, mem_append] at hrow ⊢
    rcases hrow with hrow | hrow
    · exact Or.inl (h.properties row hrow)
    · obtain ⟨entry, -, rfl⟩ := mem_map.mp hrow
      exact Or.inr (by simp)
  links row hrow := by
    simp only [Extraction.added, map_append, mem_append] at hrow ⊢
    rcases hrow with hrow | hrow
    · exact ⟨Or.inl (h.links row hrow).1, (h.links row hrow).2⟩
    · obtain ⟨hsource, -, hlinkId⟩ := mem_linkRows hrow
      exact ⟨Or.inr (by simp [hsource]), hlinkId⟩

theorem linkRows_links (item : IndexedDocument) :
    (linkRows env item).map LinkRow.link = item.metadata.links := by
  rw [linkRows, map_map]
  exact zipIdx_map_fst _ _
end

section
variable {index index' : Index} {files : List SourceFile} {items : List IndexedDocument}
  {totals : Totals}

def Readable (env : IndexEnv) (file : SourceFile) : Prop :=
  ∃ data, file.content = some data ∧ env.visible file.relative = true ∧
    data.length ≤ env.maxFileBytes

section
variable {git : Option (Text → Option Text)} {file : SourceFile} {firstSeen : Text}
  {documentId : Option DocumentId} {previous : Option Prior}

theorem scanFile_none :
    scanFile env git file firstSeen documentId previous = .ok none ↔ ¬Readable env file := by
  unfold scanFile Readable
  cases hcontent : file.content with
  | none => simp
  | some data =>
    dsimp only
    split
    next hreadable =>
      refine iff_of_false (fun h => ?_) fun h => h ⟨data, rfl, hreadable⟩
      cases hmetadata : fileMetadata env file.relative (indexedText env file.relative data) with
      | error fault =>
        rw [hmetadata] at h
        cases h
      | ok metadata =>
        rw [hmetadata] at h
        cases h
    next hreadable =>
      refine iff_of_true rfl ?_
      rintro ⟨data', hdata, hvisible⟩
      cases hdata
      exact hreadable hvisible

theorem scanFile_some {item : IndexedDocument} :
    scanFile env git file firstSeen documentId previous = .ok (some item) ↔
      ∃ data metadata, file.content = some data ∧
        (env.visible file.relative = true ∧ data.length ≤ env.maxFileBytes) ∧
        fileMetadata env file.relative (indexedText env file.relative data) = .ok metadata ∧
        item = shownDocument env git file firstSeen documentId previous data metadata := by
  unfold scanFile
  cases hcontent : file.content with
  | none => simp
  | some data =>
    dsimp only
    split
    next hreadable =>
      cases hmetadata : fileMetadata env file.relative (indexedText env file.relative data) with
      | error fault =>
        refine iff_of_false (fun h => by cases h) ?_
        rintro ⟨data', metadata, hdata, -, hmetadata', -⟩
        cases hdata
        rw [hmetadata] at hmetadata'
        cases hmetadata'
      | ok metadata =>
        constructor
        · intro h
          cases h
          exact ⟨data, metadata, rfl, hreadable, hmetadata, rfl⟩
        · rintro ⟨data', metadata', hdata, -, hmetadata', rfl⟩
          cases hdata
          rw [hmetadata] at hmetadata'
          cases hmetadata'
          rfl
    next hreadable =>
      refine iff_of_false (fun h => by cases h) ?_
      rintro ⟨data', metadata, hdata, hvisible, -⟩
      cases hdata
      exact hreadable hvisible
end

variable {file : SourceFile} {item : IndexedDocument}

theorem scan_some (h : ctx.scan env file = .ok (some item)) : item.relativePath = file.relative ∧
      item.documentId = ctx.documentId env item.relativePath ∧
      env.visible item.relativePath = true ∧ Readable env file := by
  obtain ⟨data, metadata, hdata, hvisible, -, rfl⟩ := scanFile_some.mp h
  exact ⟨rfl, rfl, hvisible.1, data, hdata, hvisible⟩

theorem scan_none : ctx.scan env file = .ok none ↔ ¬Readable env file :=
  scanFile_none

inductive Scanned (env : IndexEnv) (ctx : ScanContext) :
    List SourceFile → List IndexedDocument → Prop
  | nil : Scanned env ctx [] []
  | skip {file : SourceFile} {files items} (hscan : ctx.scan env file = .ok none)
      (h : Scanned env ctx files items) : Scanned env ctx (file :: files) items
  | take {file : SourceFile} {item files items} (hscan : ctx.scan env file = .ok (some item))
      (h : Scanned env ctx files items) : Scanned env ctx (file :: files) (item :: items)

theorem Scanned.paths (h : Scanned env ctx files items) :
    (items.map relativePath).Sublist (files.map SourceFile.relative) ∧
      ∀ p, p ∈ items.map relativePath ↔
        ∃ file ∈ files, file.relative = p ∧ Readable env file := by
  induction h with
  | nil => simp
  | skip hscan _ ih =>
    refine ⟨ih.1.cons _, fun p => ?_⟩
    rw [ih.2 p]
    simp [scan_none.mp hscan]
  | @take file item _ _ hscan _ ih =>
    obtain ⟨hpath, -, -, hreadable⟩ := scan_some hscan
    refine ⟨?_, fun p => ?_⟩
    · simp only [map_cons, hpath]
      exact ih.1.cons_cons _
    · simp only [map_cons, mem_cons, ih.2 p, hpath, exists_eq_or_imp, hreadable, and_true]
      exact or_congr_left eq_comm

theorem Scanned.mem (h : Scanned env ctx files items) :
    ∀ item ∈ items, ∃ file ∈ files, ctx.scan env file = .ok (some item) := by
  induction h with
  | nil => simp
  | skip _ _ ih =>
    intro item hitem
    obtain ⟨file, hfile, hscan⟩ := ih item hitem
    exact ⟨file, mem_cons_of_mem _ hfile, hscan⟩
  | take hscan _ ih =>
    intro item hitem
    rcases mem_cons.mp hitem with rfl | hitem
    · exact ⟨_, mem_cons_self, hscan⟩
    · obtain ⟨file, hfile, hscan⟩ := ih item hitem
      exact ⟨file, mem_cons_of_mem _ hfile, hscan⟩

structure ScanResult (env : IndexEnv) (index : Index) (files : List SourceFile)
    (items : List IndexedDocument) (index' : Index) : Prop where
  built : Built env index'
  documents : index'.documents = index.documents ++ items
  storable : ∀ item ∈ items, ∃ entries, Storable env item entries
  links : index'.links = index.links ++ items.flatMap (linkRows env)
  folders : index'.folders = index.folders
  errors : index'.errorCount + items.length = index.errorCount + files.length

theorem Built.failed (h : Built env index) :
    Built env {index with errorCount := index.errorCount + 1} :=
  ⟨h.documents, h.distinct, h.tags, h.properties, h.links⟩

end

end RaytSystem.Extraction
