import RaytSystem.ExceptRules
import RaytSystem.PyText

/-! The catalog of a workspace: packs, skills, agents, instructions and runtime adapters, with the
checks between them. -/
namespace RaytSystem.Catalog
open PyText

abbrev Identifier := {s : String // isIdentifier s = true}

abbrev NonEmptyStr := {s : String // isNonEmptyStr s = true ∧ trim s = s}

theorem length_identifier {s : String} (h : isIdentifier s = true) :
    2 ≤ s.length ∧ s.length ≤ 256 := by
  rw [← String.length_toList]
  unfold isIdentifier at h
  split at h
  · cases h
  next c cs hs =>
    rw [hs]
    simp only [Bool.and_eq_true, decide_eq_true_eq] at h
    obtain ⟨⟨⟨-, hlow⟩, hhigh⟩, -⟩ := h
    rw [List.length_cons]
    omega

theorem isNonEmptyStr_identifier {s : String} (h : isIdentifier s = true) :
    isNonEmptyStr s = true := by
  have hlength := length_identifier h
  simp only [isNonEmptyStr, Bool.and_eq_true, decide_eq_true_eq]
  omega

def textOf (id : Identifier) : NonEmptyStr :=
  ⟨id.val, isNonEmptyStr_identifier id.property, trim_identifier id.property⟩

inductive TrustClass
  | primary | official | research | user | community | generated | untrusted
  deriving DecidableEq, Repr

def TrustClass.value : TrustClass → String
  | primary => "primary"
  | official => "official"
  | research => "research"
  | user => "user"
  | community => "community"
  | generated => "generated"
  | untrusted => "untrusted"

def sensitivityValue : Sensitivity → String
  | .publicData => "public"
  | .internal => "internal"
  | .confidential => "confidential"
  | .restricted => "restricted"
  | .secret => "secret"

inductive RuntimeAdapterState
  | disabled | available | configured | degraded
  deriving DecidableEq, Repr

def RuntimeAdapterState.value : RuntimeAdapterState → String
  | disabled => "disabled"
  | available => "available"
  | configured => "configured"
  | degraded => "degraded"

inductive TestStatus
  | pass | pending | unavailable
  deriving DecidableEq, Repr

def TestStatus.value : TestStatus → String
  | pass => "pass"
  | pending => "pending"
  | unavailable => "unavailable"

inductive FilesystemMode
  | nothing | readOnly | stagingOnly
  deriving DecidableEq, Repr

def FilesystemMode.value : FilesystemMode → String
  | nothing => "none"
  | readOnly => "read_only"
  | stagingOnly => "staging_only"

structure PackManifest where
  packId : Identifier
  name : NonEmptyStr
  version : NonEmptyStr
  description : NonEmptyStr
  licenseExpression : NonEmptyStr
  trustClass : TrustClass
  agentIds : List Identifier
  skillIds : List Identifier
  contextPaths : List String
  optional : Bool
  deriving DecidableEq

structure AgentDefinition where
  agentId : Identifier
  name : NonEmptyStr
  role : Identifier
  description : NonEmptyStr
  version : NonEmptyStr
  packId : Identifier
  runtimeAdapterId : Identifier
  skillIds : List Identifier
  contextPaths : List String
  requestedFilesystemMode : FilesystemMode
  egressDestination : Option NonEmptyStr
  enabled : Bool
  deriving DecidableEq

structure SkillDefinition where
  skillId : Identifier
  name : NonEmptyStr
  description : NonEmptyStr
  version : NonEmptyStr
  sourcePath : String
  sourceSha256 : Sha256
  packId : Identifier
  trustClass : TrustClass
  sensitivity : Sensitivity
  permissions : List Identifier
  testStatus : TestStatus
  enabled : Bool
  deriving DecidableEq

structure InstructionDocument where
  documentId : Identifier
  kind : Identifier
  label : NonEmptyStr
  path : String
  contentSha256 : Sha256
  sizeBytes : ℕ
  sensitivity : Sensitivity
  deriving DecidableEq

structure RuntimeAdapterDefinition where
  adapterId : Identifier
  name : NonEmptyStr
  version : NonEmptyStr
  state : RuntimeAdapterState
  isolationMode : Identifier
  egressDestination : Option NonEmptyStr
  reason : Option NonEmptyStr
  deriving DecidableEq

structure SkillFrontmatter where
  name : Option NonEmptyStr
  description : Option NonEmptyStr
  version : Option NonEmptyStr
  permissions : List Identifier
  testStatus : TestStatus

structure SkillFile where
  skillId : Identifier
  sourceSha256 : Sha256
  sensitivity : Sensitivity
  frontmatter : Option SkillFrontmatter

structure InstructionFile where
  contentSha256 : Sha256
  sizeBytes : ℕ
  sensitivity : Sensitivity

structure CatalogFiles where
  packs : List (String × PackManifest)
  agents : List (String × AgentDefinition)
  skills : List SkillFile
  instruction : String → Option InstructionFile
  adapters : List RuntimeAdapterDefinition

structure CatalogParts where
  packs : List PackManifest
  agents : List AgentDefinition
  skills : List SkillDefinition
  instructions : List InstructionDocument
  adapters : List RuntimeAdapterDefinition
  deriving DecidableEq

structure CatalogSnapshot where
  catalogSha256 : Sha256
  parts : CatalogParts
  deriving DecidableEq

def require (b : Prop) [Decidable b] (message : String) : Except String Unit :=
  if b then .ok () else .error message

theorem require_eq_ok {b : Prop} [Decidable b] {message : String} {u : Unit} :
    require b message = .ok u ↔ b := by
  unfold require
  split
  next h => simp [h]
  next h => simp [h]

def builtinPacks : List (String × String) := [("core", "pack_core"), ("starter", "pack_starter")]

def loadPack (directory : String) (pack : PackManifest) : Except String PackManifest :=
  match builtinPacks.lookup directory with
  | some expected => do
    require (pack.packId.val = expected) "Built-in pack directory and pack ID disagree"
    pure pack
  | none =>
    pure (if pack.trustClass = .official then {pack with trustClass := .user} else pack)

def packLocal : Identifier := ⟨"pack_local", by decide⟩

def text (s : String) (h : isNonEmptyStr s = true ∧ trim s = s) : NonEmptyStr := ⟨s, h⟩

def localPack (unowned : List Identifier) : PackManifest where
  packId := packLocal
  name := text "Local workspace skills" (by decide)
  version := text "unversioned" (by decide)
  description :=
    text "Allowlisted skills discovered in this workspace but not assigned to a pack."
      (by decide)
  licenseExpression := text "Unspecified" (by decide)
  trustClass := .user
  agentIds := []
  skillIds := unowned
  contextPaths := []
  optional := true

variable (packs : List PackManifest)

def ownerOf (skillId : Identifier) : Option Identifier :=
  (packs.find? fun p => skillId ∈ p.skillIds).map fun p => p.packId

def trustOf (packId : Identifier) : TrustClass :=
  ((packs.reverse.find? fun p => p.packId = packId).map fun p => p.trustClass).getD .user

def loadSkill (file : SkillFile) : SkillDefinition :=
  let owner := (ownerOf packs file.skillId).getD packLocal
  { skillId := file.skillId
    name := (file.frontmatter.bind fun m => m.name).getD (textOf file.skillId)
    description := match file.frontmatter with
      | some m => m.description.getD (text "No description supplied." (by decide))
      | none => text "Content withheld by the sensitivity policy." (by decide)
    version := match file.frontmatter with
      | some m => m.version.getD (text "unversioned" (by decide))
      | none => text "withheld" (by decide)
    sourcePath := "skills/" ++ file.skillId.val ++ "/SKILL.md"
    sourceSha256 := file.sourceSha256
    packId := owner
    trustClass := trustOf packs owner
    sensitivity := file.sensitivity
    permissions := file.frontmatter.elim [] fun m => m.permissions
    testStatus := file.frontmatter.elim .unavailable fun m => m.testStatus
    enabled := file.frontmatter.isSome }

def instructionFiles : List (Identifier × Identifier × NonEmptyStr × String) := [
  (⟨"instruction_agents", by decide⟩, ⟨"agent_routing", by decide⟩,
    text "Agent routing" (by decide), "AGENTS.md"),
  (⟨"instruction_work", by decide⟩, ⟨"work_bootstrap", by decide⟩,
    text "Work bootstrap" (by decide), "WORK.md"),
  (⟨"instruction_claude", by decide⟩, ⟨"claude_instructions", by decide⟩,
    text "Claude instructions" (by decide), "CLAUDE.md")]

def loadInstructions (files : CatalogFiles) : List InstructionDocument :=
  instructionFiles.filterMap fun (documentId, kind, label, path) =>
    (files.instruction path).map fun f =>
      ⟨documentId, kind, label, path, f.contentSha256, f.sizeBytes, f.sensitivity⟩

variable (c : CatalogParts)

def checkPack (paths : List String) (pack : PackManifest) : Except String Unit := do
  require ((∀ id ∈ pack.agentIds, ∃ a ∈ c.agents, a.agentId = id) ∧
      ∀ id ∈ pack.skillIds, ∃ s ∈ c.skills, s.skillId = id)
    "Pack references an unknown agent or skill"
  require ((∀ a ∈ c.agents, a.packId = pack.packId → a.agentId ∈ pack.agentIds) ∧
      ∀ id ∈ pack.agentIds, ∃ a ∈ c.agents, a.agentId = id ∧ a.packId = pack.packId)
    "Pack agent index disagrees with agent definitions"
  require (∀ path ∈ pack.contextPaths, path ∈ paths) "Pack references unavailable context"

def checkAgent (paths : List String) (agent : AgentDefinition) : Except String Unit := do
  require (∃ p ∈ c.packs, p.packId = agent.packId) "Agent references an unknown pack"
  require (∃ d ∈ c.adapters, d.adapterId = agent.runtimeAdapterId)
    "Agent references an unknown runtime adapter"
  require (∀ id ∈ agent.skillIds, ∃ s ∈ c.skills, s.skillId = id)
    "Agent references an unknown skill"
  require (∀ path ∈ agent.contextPaths, path ∈ paths) "Agent references unavailable context"

def validateReferences : Except String Unit := do
  let paths := c.instructions.map (fun d => d.path) ++ c.skills.map fun s => s.sourcePath
  c.packs.forM (checkPack c paths)
  c.agents.forM (checkAgent c paths)

def byId {α : Type} (id : α → Identifier) (items : List α) : List α :=
  items.insertionSort fun a b => (id a).val ≤ (id b).val

def CatalogParts.sorted : CatalogParts where
  packs := byId (fun p => p.packId) c.packs
  agents := byId (fun a => a.agentId) c.agents
  skills := byId (fun s => s.skillId) c.skills
  instructions := byId (fun d => d.documentId) c.instructions
  adapters := byId (fun d => d.adapterId) c.adapters

def withLocalPack (skills : List SkillFile) : List PackManifest :=
  let unowned := byId id ((skills.map fun s => s.skillId).filter fun s => ownerOf packs s = none)
  if unowned = [] then packs else packs ++ [localPack unowned]

def loadAgents (agents : List (String × AgentDefinition)) : Except String (List AgentDefinition) := do
  require (∀ a ∈ agents, a.1 = a.2.agentId.val) "Agent filename and agent ID disagree"
  require (agents.map fun a => a.2.agentId).Nodup "Duplicate agent ID"
  pure (agents.map Prod.snd)

def load (fingerprint : CatalogParts → Sha256) (files : CatalogFiles) :
    Except String CatalogSnapshot := do
  let packs ← files.packs.mapM fun entry => loadPack entry.1 entry.2
  require (packs.map fun p => p.packId).Nodup "Duplicate pack ID"
  require (packs.flatMap fun p => p.skillIds).Nodup "Skill cannot be owned by multiple packs"
  require (files.skills.map fun s => s.skillId).Nodup "Duplicate skill ID"
  let packs := withLocalPack packs files.skills
  let skills := files.skills.map (loadSkill packs)
  require (files.adapters.map fun d => d.adapterId).Nodup "Duplicate runtime adapter ID"
  let agents ← loadAgents files.agents
  let parts : CatalogParts := ⟨packs, agents, skills, loadInstructions files, files.adapters⟩
  validateReferences parts
  pure ⟨fingerprint parts.sorted, parts.sorted⟩

structure Linked (c : CatalogParts) : Prop where
  skillPacks : ∀ s ∈ c.skills, ∃ p ∈ c.packs, p.packId = s.packId
  agentPacks : ∀ a ∈ c.agents, ∃ p ∈ c.packs, p.packId = a.packId
  agentAdapters : ∀ a ∈ c.agents, ∃ d ∈ c.adapters, d.adapterId = a.runtimeAdapterId
  agentSkills : ∀ a ∈ c.agents, ∀ id ∈ a.skillIds, ∃ s ∈ c.skills, s.skillId = id

theorem mem_byId {α : Type} {id : α → Identifier} {items : List α} {a : α} :
    a ∈ byId id items ↔ a ∈ items :=
  (items.perm_insertionSort _).mem_iff

theorem forM_ok {α : Type} {f : α → Except String Unit} {items : List α}
    (h : items.forM f = .ok ()) : ∀ a ∈ items, f a = .ok () := by
  induction items with
  | nil => simp
  | cons b rest ih =>
    have hseq : (f b >>= fun _ => rest.forM f) = .ok () := h
    obtain ⟨_, hb, hrest⟩ := bind_eq_ok.mp hseq
    intro a ha
    rcases List.mem_cons.mp ha with rfl | ha
    · exact hb
    · exact ih hrest a ha

theorem checkAgent_ok {c : CatalogParts} {paths : List String} {a : AgentDefinition}
    (h : checkAgent c paths a = .ok ()) : (∃ p ∈ c.packs, p.packId = a.packId) ∧
      (∃ d ∈ c.adapters, d.adapterId = a.runtimeAdapterId) ∧
      ∀ id ∈ a.skillIds, ∃ s ∈ c.skills, s.skillId = id := by
  simp only [checkAgent, bind_eq_ok, require_eq_ok] at h
  obtain ⟨_, hpack, _, hadapter, _, hskills, -⟩ := h
  exact ⟨hpack, hadapter, hskills⟩

theorem ownerOf_local {packs : List PackManifest} {skills : List SkillFile} {s : SkillFile}
    (hs : s ∈ skills) : ∃ p ∈ withLocalPack packs skills,
      p.packId = (ownerOf (withLocalPack packs skills) s.skillId).getD packLocal := by
  have howned : ∃ p ∈ withLocalPack packs skills, s.skillId ∈ p.skillIds := by
    by_cases howner : ownerOf packs s.skillId = none
    · let unowned := byId id ((skills.map fun s => s.skillId).filter fun s =>
        ownerOf packs s = none)
      have hmem : s.skillId ∈ unowned := by
        refine mem_byId.mpr (List.mem_filter.mpr ⟨List.mem_map_of_mem hs, ?_⟩)
        simpa using howner
      have hlocal : withLocalPack packs skills = packs ++ [localPack unowned] := by
        rw [withLocalPack, if_neg (List.ne_nil_of_mem hmem)]
      rw [hlocal]
      exact ⟨localPack unowned, by simp, hmem⟩
    · rw [ownerOf, Option.map_eq_none_iff, List.find?_eq_none] at howner
      push Not at howner
      obtain ⟨p, hp, hskill⟩ := howner
      refine ⟨p, ?_, by simpa using hskill⟩
      simp only [withLocalPack]
      split
      · exact hp
      · exact List.mem_append_left _ hp
  obtain ⟨p, hp, hskill⟩ := howned
  cases hfind : (withLocalPack packs skills).find? fun p => s.skillId ∈ p.skillIds with
  | none =>
    rw [List.find?_eq_none] at hfind
    exact absurd (by simpa using hskill) (hfind p hp)
  | some q =>
    refine ⟨q, List.mem_of_find?_eq_some hfind, ?_⟩
    rw [ownerOf, hfind, Option.map_some, Option.getD_some]

theorem load_linked {fingerprint : CatalogParts → Sha256} {files : CatalogFiles}
    {c : CatalogSnapshot} (h : load fingerprint files = .ok c) : Linked c.parts := by
  simp only [load, bind_eq_ok, return_eq_ok] at h
  obtain ⟨packs, -, -, -, -, -, -, -, -, -, agents, -, ⟨⟩, hrefs, rfl⟩ := h
  have hagents : ∀ a ∈ agents, _ := fun a ha => checkAgent_ok (forM_ok (by
    simp only [validateReferences, bind_eq_ok] at hrefs
    exact hrefs.choose_spec.2) a ha)
  refine ⟨?_, ?_, ?_, ?_⟩
  · intro s hs
    obtain ⟨file, hfile, rfl⟩ := List.mem_map.mp (mem_byId.mp hs)
    obtain ⟨p, hp, howner⟩ := @ownerOf_local packs _ _ hfile
    exact ⟨p, mem_byId.mpr hp, howner⟩
  · intro a ha
    obtain ⟨⟨p, hp, hid⟩, -, -⟩ := hagents a (mem_byId.mp ha)
    exact ⟨p, mem_byId.mpr hp, hid⟩
  · intro a ha
    obtain ⟨-, ⟨d, hd, hid⟩, -⟩ := hagents a (mem_byId.mp ha)
    exact ⟨d, mem_byId.mpr hd, hid⟩
  · intro a ha id hmem
    obtain ⟨-, -, hskills⟩ := hagents a (mem_byId.mp ha)
    obtain ⟨s, hs, hid⟩ := hskills id hmem
    exact ⟨s, mem_byId.mpr hs, hid⟩

end RaytSystem.Catalog
