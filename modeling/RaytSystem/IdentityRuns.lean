import RaytSystem.IdentityLifecycle

/-! Histories of creations, renames, moves, external changes and rebuilds: what they keep as long
as no command leads to a path that a document was moved away from. -/
namespace RaytSystem.Identity
open Interleaving RecordTable

inductive Command
  | create (r : CreateRequest)
  | rename (documentId : DocumentId) (newName expectedSha256 expectedSnapshotId key : String)
  | move (documentId : DocumentId) (destinationFolder : Path)
      (expectedSha256 expectedSnapshotId key : String)
  | rebuild
  | place (relative : Path) (data : Bytes)
  | remove (relative : Path)

namespace Command

def program (env : IdentityEnv) : Command → DocumentProg Unit
  | create r => do
    let _ ← Identity.create env r
  | rename documentId newName expectedSha256 expectedSnapshotId key => do
    let _ ← Identity.rename env documentId newName expectedSha256 expectedSnapshotId key
  | move documentId destinationFolder expectedSha256 expectedSnapshotId key => do
    let _ ← Identity.move env documentId destinationFolder expectedSha256 expectedSnapshotId key
  | rebuild => rebuildIndex env
  | place relative data => .set () fun w => {w with files := w.files.insert relative data}
  | remove relative => .set () fun w => {w with files := w.files.erase relative}

def Demanded (env : IdentityEnv) (w : Workspace) : Command → Prop
  | create r => Creatable env w r
  | rename documentId newName expectedSha256 expectedSnapshotId key =>
    Relocatable env w .rename documentId (fun old => old.dropLast ++ [newName]) expectedSha256
      expectedSnapshotId key
  | move documentId destinationFolder expectedSha256 expectedSnapshotId key =>
    Relocatable env w .move documentId (fun old => destinationFolder ++ old.getLast?.toList)
      expectedSha256 expectedSnapshotId key
  | _ => True

def Clear (w : Workspace) : Command → Prop
  | create r => ¬MovedAt w.identities r.relativePath ∧
    ∀ rows, w.index = some rows → rowForPath rows r.relativePath = none
  | rename documentId newName expectedSha256 expectedSnapshotId key => ∀ old new,
    Concerns w documentId (fun old => old.dropLast ++ [newName]) key old new →
    Unleft w ⟨.rename, documentId, old, new, expectedSha256, expectedSnapshotId, key⟩
  | move documentId destinationFolder expectedSha256 expectedSnapshotId key => ∀ old new,
    Concerns w documentId (fun old => destinationFolder ++ old.getLast?.toList) key old new →
    Unleft w ⟨.move, documentId, old, new, expectedSha256, expectedSnapshotId, key⟩
  | place relative _ => ¬MovedAt w.identities relative
  | _ => True

end Command

def untouched (files : AList fun _ : Path => Bytes) : Workspace where
  files := files
  identities := fun _ => []
  index := none
  operations := fun _ => []
  receipts := fun _ => none

def Reached (env : IdentityEnv) (allowed : Workspace → Command → Prop) (w : Workspace) : Prop :=
  ∃ files, Calls (Command.program env) allowed (untouched files) w

variable {env : IdentityEnv} {w : Workspace}

theorem sound_untouched (files : AList fun _ : Path => Bytes) : Sound env (untouched files) where
  identities :=
    { visible := fun p h hp => by cases hp
      origin := fun p h hp => by cases hp
      distinct := fun p q d hp => by
        obtain ⟨revision, payload, hhead, -⟩ := hp
        cases hhead }
  unmoved p _ _ := not_movedAt_of_head rfl
  rows rows hrows := by cases hrows

theorem ends_command (h : Sound env w) (c : Command) (hc : c.Clear w) :
    Ends (c.program env) (fun _ w' => Sound env w')
      (fun _ w' => Sound env w' ∧ ¬c.Demanded env w) w := by
  cases c with
  | create r =>
    refine ends_bind (ends_mono (ends_create h hc.1) (fun _ _ hw => ends_pure hw) ?_)
    rintro e w' ⟨hw, hnot⟩
    exact ⟨hw, fun hdemanded => hnot ⟨hdemanded, hc.2⟩⟩
  | rename documentId newName expectedSha256 expectedSnapshotId key =>
    exact ends_bind (ends_mono (ends_relocate h hc) (fun _ _ hw => ends_pure hw) fun _ _ hx => hx)
  | move documentId destinationFolder expectedSha256 expectedSnapshotId key =>
    exact ends_bind (ends_mono (ends_relocate h hc) (fun _ _ hw => ends_pure hw) fun _ _ hx => hx)
  | rebuild => exact ends_rebuildIndex h fun w' hindexed => hindexed.sound
  | place relative data => exact wp_sequential_set trivial (h.insert hc data)
  | remove relative => exact wp_sequential_set trivial (h.erase relative)

theorem Reached.sound (h : Reached env (fun w c => c.Clear w) w) : Sound env w := by
  obtain ⟨files, hcalls⟩ := h
  refine calls_invariant (fun c w hw hc => ?_) (sound_untouched files) hcalls
  exact ends_mono (ends_command hw c hc) (fun _ _ hsound => hsound) fun _ _ hx => hx.1

def pathChars : Path → List Char
  | [] => []
  | component :: path => component.toList.flatMap (fun c => ['x', c]) ++ '.' :: pathChars path

theorem marked_injective {s t u v : List Char}
    (h : s.flatMap (fun c => ['x', c]) ++ '.' :: u = t.flatMap (fun c => ['x', c]) ++ '.' :: v) :
    s = t ∧ u = v := by
  induction s generalizing t with
  | nil => cases t with
    | nil => simpa using h
    | cons c t => simp at h
  | cons c s ih => cases t with
    | nil => simp at h
    | cons d t =>
      simp only [List.flatMap_cons, List.cons_append, List.nil_append, List.cons.injEq,
        true_and] at h
      obtain ⟨rfl, rfl⟩ := ih h.2
      exact ⟨by rw [h.1], rfl⟩

theorem pathChars_injective {p q : Path} (h : pathChars p = pathChars q) : p = q := by
  induction p generalizing q with
  | nil => cases q with
    | nil => rfl
    | cons component q => simp [pathChars] at h
  | cons component p ih => cases q with
    | nil => simp [pathChars] at h
    | cons component' q =>
      obtain ⟨hcomponent, hrest⟩ := marked_injective h
      rw [String.toList_inj.mp hcomponent, ih hrest]

def plainEnv : IdentityEnv where
  decide _ := some ⟨"docs", true, true⟩
  deriveDocument root path := String.ofList (pathChars (root :: path))
  publicId _ := true
  sha256Hex data := String.ofList (data.map fun b => Char.ofNat b.toNat)
  restricted _ _ := false
  maxFileBytes := 10
  snapshotId _ := "snapshot"
  safeSnapshot _ := true
  safeKey _ := true
  derive_path _ _ _ _ h :=
    (List.cons.inj (pathChars_injective (String.ofList_injective h))).2
  derive_public _ _ := rfl
  snapshot_safe _ := rfl

def playCommand (c : Command) (w : Workspace) : DocumentProg Unit × Workspace :=
  (c.program plainEnv).play 40 [0, 0, 0, 0, 0, 0] w

def oneFile : Workspace := untouched (AList.singleton ["a"] [65])

def noteId : DocumentId := plainEnv.derived ["a"]

def awayCommand : Command := .rename noteId "b" "A" "snapshot" "k1"

def indexedFile : Workspace := (playCommand .rebuild oneFile).2

def renamedAway : Workspace := (playCommand awayCommand indexedFile).2

def replaced : Workspace := {renamedAway with files := renamedAway.files.insert ["a"] [66]}

end RaytSystem.Identity
