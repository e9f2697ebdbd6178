import RaytSystem.MarkdownMetadata

/-! The index of the documents' metadata: what a rebuild inserts for each document, and how it
resolves the links. -/
namespace RaytSystem.Extraction

abbrev DocumentId := Text
abbrev Bytes := List UInt8

/-- Names the proof that a membership test of texts carries. -/
theorem text_lawful : LawfulBEq (List CodePoint) := inferInstance

structure PurePath where
  root : Text
  tail : List Text
  deriving DecidableEq, Repr

def isComponent (part : Text) : Bool := part ≠ [] && part ≠ [0x2e]

def parsePath (path : Text) : PurePath where
  root := match (path.takeWhile (· = 0x2f)).length with
    | 0 => []
    | 2 => [0x2f, 0x2f]
    | _ => [0x2f]
  tail := (splitOn 0x2f path).filter isComponent

namespace PurePath

def asPosix (p : PurePath) : Text :=
  if p.root = [] ∧ p.tail = [] then [0x2e] else p.root ++ (p.tail.intersperse [0x2f]).flatten

def join (p q : PurePath) : PurePath :=
  if q.root = [] then {p with tail := p.tail ++ q.tail} else q

def parent (p : PurePath) : PurePath := {p with tail := p.tail.dropLast}

def name (p : PurePath) : Text := p.tail.getLast?.getD []

end PurePath

def stemOf (name : Text) : Text :=
  let extension := name.reverse.takeWhile (· ≠ 0x2e)
  if extension ≠ [] ∧ extension.length + 1 < name.length then
    name.take (name.length - extension.length - 1)
  else name

def suffixOf (name : Text) : Text := name.drop (stemOf name).length

def withoutSuffix (p : PurePath) : Except Fault PurePath :=
  if p.name = [] then .error .emptyName
  else .ok {p with tail := p.tail.dropLast ++ [stemOf p.name]}

abbrev Folder := List Text

def components (relative : Text) : Folder := (parsePath relative).tail

structure FolderInfo where
  rootId : Text
  mode : Text
  canCreate : Bool
  deriving DecidableEq, Repr

structure IndexEnv extends ExtractionEnv where
  visible : Text → Bool
  rootPath : Text → Folder
  folderInfo : Folder → FolderInfo
  contentAllowed : Text → Bytes → Bool
  decode : Bytes → Option Text
  sha256Hex : Bytes → Text
  derived : Text → DocumentId
  folderId : Folder → Text
  linkId : DocumentId → ℕ → Text → Text → Text
  maxFileBytes : ℕ
  maxTotalBytes : ℕ
  maxFiles : ℕ
  visible_name : ∀ p, visible p = true → (parsePath p).name ≠ []
  linkId_inj : ∀ d d' i i' r r' c c', linkId d i r c = linkId d' i' r' c' → d = d' ∧ i = i'

structure SourceFile where
  relative : Text
  content : Option Bytes
  mtime : ℕ
  deriving DecidableEq, Repr

structure Tree where
  files : List SourceFile
  folders : List Folder
  rootErrors : ℕ
  nodup : (files.map SourceFile.relative).Nodup
  folders_nodup : folders.Nodup

structure IndexedDocument where
  documentId : DocumentId
  relativePath : Text
  sizeBytes : ℕ
  contentSha256 : Text
  metadata : MarkdownMetadata
  mtime : ℕ
  firstSeen : Text
  gitStatus : Text
  text : Option Text

structure Prior where
  firstSeen : Text
  contentSha256 : Text
  mtime : ℕ
  gitStatus : Text

structure ScanContext where
  identities : Text → Option (DocumentId × Text)
  previous : Text → Option Prior
  git : Option (Text → Option Text)
  now : Text

inductive Resolution
  | resolved
  | ambiguous
  | unresolved
  deriving DecidableEq, Repr

structure LinkTarget where
  target : Option DocumentId := none
  resolution : Resolution := .unresolved
  candidates : List DocumentId := []
  count : ℕ := 0

structure LinkRow where
  linkId : Text
  source : DocumentId
  link : ExtractedLink
  found : LinkTarget := {}

structure FolderRow where
  folderId : Text
  path : Folder
  name : Text
  parentPath : Option Folder
  info : FolderInfo
  documentCount : ℕ
  descendantCount : ℕ
  deriving DecidableEq, Repr

structure Index where
  documents : List IndexedDocument := []
  tags : List (DocumentId × Text) := []
  properties : List (DocumentId × Text × Text) := []
  links : List LinkRow := []
  folders : List FolderRow := []
  errorCount : ℕ := 0

variable (env : IndexEnv)

def insertRows {ρ κ : Type} [DecidableEq κ] (key : ρ → κ) : List ρ → List ρ → Except Fault (List ρ)
  | rows, [] => .ok rows
  | rows, row :: rest =>
    if key row ∈ rows.map key then .error .integrity else insertRows key (rows ++ [row]) rest

def propertyEntries : List (Text × Value) → Except Fault (List (Text × Text))
  | [] => .ok []
  | (key, value) :: rest => do
    let texts ← (match value with
      | .list items => items
      | value => [value]).mapM (strOf env.toExtractionEnv)
    let entries ← propertyEntries rest
    pure (texts.map (key, ·) ++ entries)

variable (item : IndexedDocument)

def storedTexts (entries : List (Text × Text)) : List Text :=
  item.metadata.title :: item.metadata.headings ++ item.metadata.tags ++ item.metadata.aliases ++
    entries.flatMap (fun entry => [entry.1, entry.2]) ++ item.metadata.warnings ++
    item.text.toList ++ item.metadata.links.flatMap fun link =>
      [link.rawTarget, link.target, link.context] ++ link.heading.toList ++ link.aliasText.toList

def linkRows : List LinkRow :=
  item.metadata.links.zipIdx.map fun (link, index) =>
    { linkId := env.linkId item.documentId index link.rawTarget link.context
      source := item.documentId
      link }

def insertDocument (index : Index) (item : IndexedDocument) : Except Fault Index := do
  let entries ← propertyEntries env item.metadata.properties
  if (storedTexts item entries).all encodable = false then .error .unencodable else
  if index.documents.any (fun row => row.documentId = item.documentId ||
      row.relativePath = item.relativePath) = true then .error .integrity else
  let tags ← insertRows id index.tags
    (item.metadata.tags.map fun tag => (item.documentId, env.casefold tag))
  let properties ← insertRows id index.properties
    (entries.map fun entry => (item.documentId, env.casefold entry.1, env.casefold entry.2))
  let links ← insertRows LinkRow.linkId index.links (linkRows env item)
  pure {index with documents := index.documents ++ [item], tags, properties, links}

section

variable (relative : Text)

def bareMetadata : MarkdownMetadata := { title := stemOf (parsePath relative).name }

def maxTotalLinks : ℕ := 2000000

def maxFolders : ℕ := 200000

def markdownSuffixes : List String := [".md", ".markdown", ".mdx"]

def isMarkdown : Bool :=
  markdownSuffixes.any fun suffix =>
    chars suffix = env.casefold (suffixOf (parsePath relative).name)

def decoded (data : Bytes) : Option Text :=
  if env.contentAllowed relative data then env.decode data else none

def indexedText (data : Bytes) : Option Text :=
  (decoded env relative data).filter fun text => !text.contains 0

def fileMetadata : Option Text → Except Fault MarkdownMetadata
  | some text =>
    if isMarkdown env relative then
      extractMarkdownMetadata env.toExtractionEnv text (stemOf (parsePath relative).name)
    else .ok (bareMetadata relative)
  | none => .ok (bareMetadata relative)

variable (git : Option (Text → Option Text))

def gitStatusOf (previous : Option Prior) (relative digest : Text) (mtime : ℕ) : Text :=
  match git with
  | some status => (status relative).getD (chars "clean")
  | none =>
    match previous with
    | none => chars "first_seen"
    | some prior =>
      if prior.contentSha256 ≠ digest then chars "hash_modified"
      else if prior.mtime ≠ mtime then chars "mtime_modified"
      else if prior.gitStatus = chars "hash_modified" ∨ prior.gitStatus = chars "mtime_modified" then
        prior.gitStatus
      else chars "clean"

def shownDocument (file : SourceFile) (firstSeen : Text) (documentId : Option DocumentId)
    (previous : Option Prior) (data : Bytes) (metadata : MarkdownMetadata) : IndexedDocument :=
  let malformed := env.contentAllowed file.relative data && (env.decode data).isNone
  let digest := env.sha256Hex data
  { documentId := documentId.getD (env.derived file.relative)
    relativePath := file.relative
    sizeBytes := data.length
    contentSha256 := digest
    metadata := {metadata with
      warnings := (if malformed then [chars "malformed_utf8"] else []) ++ metadata.warnings}
    mtime := file.mtime
    firstSeen
    gitStatus := gitStatusOf git previous file.relative digest file.mtime
    text := indexedText env file.relative data }

def scanFile (file : SourceFile) (firstSeen : Text) (documentId : Option DocumentId)
    (previous : Option Prior) : Except Fault (Option IndexedDocument) :=
  match file.content with
  | none => .ok none
  | some data =>
    if env.visible file.relative = true ∧ data.length ≤ env.maxFileBytes then
      (fileMetadata env file.relative (indexedText env file.relative data)).map fun metadata =>
        some (shownDocument env git file firstSeen documentId previous data metadata)
    else .ok none

def ScanContext.scan (ctx : ScanContext) (file : SourceFile) :
    Except Fault (Option IndexedDocument) :=
  let identity := ctx.identities file.relative
  let previous := ctx.previous file.relative
  let firstSeen := identity.elim (previous.elim ctx.now Prior.firstSeen) Prod.snd
  scanFile env ctx.git file firstSeen (identity.map Prod.fst) previous

def ScanContext.documentId (ctx : ScanContext) (relative : Text) : DocumentId :=
  ((ctx.identities relative).map Prod.fst).getD (env.derived relative)

structure Totals where
  bytes : ℕ := 0
  links : ℕ := 0

variable (ctx : ScanContext)

def scanStream : List SourceFile → Totals → Index → Except Fault Index
  | [], _, index => .ok index
  | file :: files, totals, index =>
    match ctx.scan env file with
    | .error fault => .error fault
    | .ok none => scanStream files totals {index with errorCount := index.errorCount + 1}
    | .ok (some item) =>
      let bytes := totals.bytes + item.sizeBytes
      let links := totals.links + item.metadata.links.length
      if env.maxTotalBytes < bytes then .error .byteLimit
      else if maxTotalLinks < links then .error .linkLimit
      else
        match insertDocument env index item with
        | .error fault => .error fault
        | .ok index' =>
          if env.maxFiles < index'.documents.length then .error .fileLimit
          else scanStream files ⟨bytes, links⟩ index'

def folderRow (root : Folder) (folder : Folder) (info : FolderInfo) (documentCount : ℕ)
    (descendantCount : ℕ) : FolderRow where
  folderId := env.folderId folder
  path := folder
  name := folder.getLast?.getD []
  parentPath := if folder.dropLast = root then none else some folder.dropLast
  info
  documentCount
  descendantCount

variable (documents : List IndexedDocument) (folder : Folder)

def directCount : ℕ :=
  documents.countP fun item => (components item.relativePath).dropLast = folder

def descendantCount : ℕ :=
  documents.countP fun item => folder <+: (components item.relativePath).dropLast

def folderText : Text := (folder.intersperse [0x2f]).flatten

def scanFolders (tree : Tree) (documents : List IndexedDocument) : List FolderRow :=
  tree.folders.map fun folder =>
    folderRow env (env.rootPath (folderText folder)) folder (env.folderInfo folder)
      (directCount documents folder) (descendantCount documents folder)
end

abbrev Keys := List (DocumentId × List Text)

def Keys.lookup (keys : Keys) (key : Text) : List DocumentId :=
  keys.flatMap fun entry => (entry.2.filter (· = key)).map fun _ => entry.1

def pathKeys : Except Fault (DocumentId × List Text) := do
  let bare ← withoutSuffix (parsePath item.relativePath)
  pure (item.documentId, [env.casefold item.relativePath, env.casefold bare.asPosix])

def nameKeys : DocumentId × List Text :=
  let name := (parsePath item.relativePath).name
  (item.documentId, [env.casefold name, env.casefold (stemOf name),
    env.casefold item.metadata.title] ++ item.metadata.aliases.map env.casefold)

inductive KeyKind
  | path
  | name
  deriving DecidableEq, Repr

structure Bucket where
  object : KeyKind × Text
  ids : List DocumentId

def Keys.bucket (kind : KeyKind) (keys : Keys) (key : Text) : Bucket := ⟨(kind, key), keys.lookup key⟩

def uniqueSources : List Bucket → List Bucket
  | [] => []
  | source :: rest =>
    if source.ids = [] then uniqueSources rest
    else source :: (uniqueSources rest).filter fun other => other.object ≠ source.object

def mergeSources (sources : List (List DocumentId)) : List DocumentId :=
  sources.foldr (fun source merged => source.merge merged) []

def skipRepeats : Option DocumentId → List DocumentId → List DocumentId
  | _, [] => []
  | previous, candidate :: rest =>
    if some candidate = previous then skipRepeats previous rest
    else candidate :: skipRepeats (some candidate) rest

def retainedLimit : ℕ := 20

def boundedCandidateUnion (sources : List Bucket) : List DocumentId × ℕ :=
  let union := skipRepeats none (mergeSources ((uniqueSources sources).map Bucket.ids))
  (union.take retainedLimit, union.length)

def linkText (link : ExtractedLink) : Text :=
  (strip link.target).map fun c => if c = 0x5c then 0x2f else c

def relativeLookups (byPath : Keys) (candidate : PurePath) (linkType : LinkType) :
    Except Fault (List Bucket) :=
  if linkType ≠ .wikilink ∧ [0x2e, 0x2e] ∉ candidate.tail then
    (withoutSuffix candidate).map fun bare =>
      [byPath.bucket .path (env.casefold candidate.asPosix),
        byPath.bucket .path (env.casefold bare.asPosix)]
  else .ok []

def lookupTarget (byPath byName : Keys) (parent : PurePath) (linkType : LinkType)
    (target : Text) : Except Fault LinkTarget := do
  let path := parsePath target
  let relative ← relativeLookups env byPath (parent.join path) linkType
  let bare ← withoutSuffix path
  let lookups := [byPath.bucket .path (env.casefold target),
    byPath.bucket .path (env.casefold bare.asPosix),
    byName.bucket .name (env.casefold path.name),
    byName.bucket .name (env.casefold (stemOf path.name))]
  let relative := boundedCandidateUnion relative
  let found := if relative.2 ≠ 0 then relative else boundedCandidateUnion lookups
  pure (if found.2 = 1 then ⟨found.1.head?, .resolved, found.1, found.2⟩
    else if found.2 ≠ 0 then ⟨none, .ambiguous, found.1, found.2⟩ else {})

abbrev CacheKey := LinkType × Text × Text

def cacheKey (parent : PurePath) (linkType : LinkType) (target : Text) : CacheKey :=
  (linkType, if linkType = .wikilink then [] else env.casefold parent.asPosix, env.casefold target)

def parentOf (documents : List IndexedDocument) (source : DocumentId) : PurePath :=
  (documents.find? fun item => item.documentId = source).elim ⟨[], []⟩ fun item =>
    (parsePath item.relativePath).parent

def resolveRows (documents : List IndexedDocument) (byPath byName : Keys) :
    List LinkRow → List (CacheKey × LinkTarget) → Except Fault (List LinkRow)
  | [], _ => .ok []
  | row :: rows, cache =>
    let parent := parentOf documents row.source
    let target := linkText row.link
    let key := cacheKey env parent row.link.linkType target
    match cache.find? fun entry => entry.1 = key with
    | some cached => do
      let rest ← resolveRows documents byPath byName rows cache
      pure ({row with found := cached.2} :: rest)
    | none =>
      match lookupTarget env byPath byName parent row.link.linkType target with
      | .error fault => .error fault
      | .ok found => do
        let rest ← resolveRows documents byPath byName rows ((key, found) :: cache)
        pure ({row with found} :: rest)

def resolveLinks (index : Index) : Except Fault Index := do
  let documents := index.documents.insertionSort fun a b => a.documentId ≤ b.documentId
  let byPath ← documents.mapM (pathKeys env)
  let rows := index.links.insertionSort fun a b => a.linkId ≤ b.linkId
  let links ← resolveRows env documents byPath (documents.map (nameKeys env)) rows []
  pure {index with links}

def rebuild (ctx : ScanContext) (tree : Tree) : Except Fault Index := do
  let index ← scanStream env ctx tree.files {} { errorCount := tree.rootErrors }
  if maxFolders < tree.folders.length then .error .folderLimit else
  let folders ← insertRows FolderRow.folderId [] (scanFolders env tree index.documents)
  resolveLinks env {index with folders}

end RaytSystem.Extraction
