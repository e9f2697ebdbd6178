import Mathlib.Data.List.Sort
import Mathlib.Data.Nat.Notation

/-! Directory trees as `os.walk`, `lstat` and path lookups see them. -/
namespace RaytSystem.Backup

abbrev Path := List String

inductive WorkspaceNode
  | file (data : List UInt8) (links : ℕ)
  | symlink (target : WorkspaceNode)
  | dangling
  | special
  | directory (names : List String) (child : String → WorkspaceNode)

namespace WorkspaceNode

def isSymlink : WorkspaceNode → Bool
  | symlink _ => true
  | dangling => true
  | _ => false

def follow : WorkspaceNode → WorkspaceNode
  | symlink target => target.follow
  | node => node

def isDirectory (node : WorkspaceNode) : Bool :=
  match node.follow with
  | directory _ _ => true
  | _ => false

def pathExists (node : WorkspaceNode) : Bool :=
  match node.follow with
  | dangling => false
  | _ => true

def locate : Path → WorkspaceNode → Option (Bool × WorkspaceNode)
  | [], node => some (false, node)
  | name :: rest, node =>
    match node.follow with
    | directory names child =>
      if name ∈ names then
        (locate rest (child name)).map fun found => (node.isSymlink || found.1, found.2)
      else none
    | _ => none

def walk : Path → WorkspaceNode → List (Path × WorkspaceNode)
  | path, directory names child =>
    let names := names.insertionSort (· ≤ ·)
    let linked := names.filter fun name => (child name).isDirectory && (child name).isSymlink
    let files := names.filter fun name => !(child name).isDirectory
    let safe := names.filter fun name => (child name).isDirectory && !(child name).isSymlink
    (linked ++ files).map (fun name => (path ++ [name], child name)) ++
      safe.flatMap fun name => walk (path ++ [name]) (child name)
  | _, _ => []

section
variable {node m : WorkspaceNode} {p q : Path} {name : String} {names : List String}
  {child : String → WorkspaceNode} {crossed : Bool}

@[simp] theorem locate_nil : locate [] node = some (false,node) := rfl

theorem locate_directory : locate (name :: p) (directory names child) =
    if name ∈ names then locate p (child name) else none := by
  simp only [locate, follow, isSymlink, Bool.false_or]
  split
  · exact Option.map_id'
  · rfl

theorem locate_append (p q : Path) (node : WorkspaceNode) : locate (p ++ q) node =
    (locate p node).bind fun found =>
      (locate q found.2).map fun last => (found.1 || last.1, last.2) := by
  induction p generalizing node with
  | nil => simp
  | cons name p ih =>
    simp only [List.cons_append, locate]
    split
    next names child hfollow =>
      split
      next hmem =>
        rw [ih]
        cases locate p (child name) with
        | none => rfl
        | some found => simp [Function.comp_def, Bool.or_assoc]
      next => rfl
    next => rfl

theorem locate_below_file {data : List UInt8} {links : ℕ} {d : Bool}
    (h : locate p node = some (d,file data links)) (hne : q ≠ []) : locate (p ++ q) node = none := by
  rw [locate_append, h]
  cases q with
  | nil => exact absurd rfl hne
  | cons name q => rfl

theorem locate_symlink_crossed (hs : node.isSymlink = true)
    (h : locate (name :: p) node = some (crossed,m)) : crossed = true := by
  simp only [locate] at h
  split at h
  next =>
    split at h
    · obtain ⟨found, -, hfound⟩ := Option.map_eq_some_iff.mp h
      rw [hs, Bool.true_or] at hfound
      exact (congrArg Prod.fst hfound).symm
    · cases h
  next => cases h
end

section
variable {node : WorkspaceNode} {path : Path}

theorem locate_of_walk {entry : Path × WorkspaceNode} (h : entry ∈ walk path node) :
    ∃ rest, entry.1 = path ++ rest ∧ locate rest node = some (false,entry.2) := by
  induction node generalizing path entry with
  | directory names child ih =>
    simp only [walk, List.mem_append, List.mem_map, List.mem_filter, List.mem_flatMap,
      List.mem_insertionSort] at h
    rcases h with ⟨name, hname, rfl⟩ | ⟨name, ⟨hname, -⟩, h⟩
    · have hlisted : name ∈ names := by
        rcases hname with hname | hname
        · exact hname.1
        · exact hname.1
      exact ⟨[name], rfl, by rw [locate_directory, if_pos hlisted, locate_nil]⟩
    · obtain ⟨rest, hrest, hlocate⟩ := ih name h
      refine ⟨name :: rest, ?_, by rw [locate_directory, if_pos hname, hlocate]⟩
      rw [hrest, List.append_assoc, List.singleton_append]
  | _ => cases h

theorem walk_of_locate {rest : Path} {data : List UInt8} {links : ℕ} (hne : rest ≠ [])
    (h : locate rest node = some (false,file data links)) :
    (path ++ rest,file data links) ∈ walk path node := by
  induction node generalizing path rest with
  | directory names child ih =>
    obtain ⟨name, rest, rfl⟩ := List.exists_cons_of_ne_nil hne
    rw [locate_directory] at h
    split at h
    next hname =>
      simp only [walk, List.mem_append, List.mem_map, List.mem_filter, List.mem_flatMap,
        List.mem_insertionSort]
      cases rest with
      | nil =>
        rw [locate_nil, Option.some.injEq, Prod.mk.injEq] at h
        exact Or.inl ⟨name, Or.inr ⟨hname, by rw [h.2]; rfl⟩, by rw [h.2]⟩
      | cons next rest =>
        have hdirectory : (child name).isDirectory = true := by
          simp only [locate] at h
          unfold isDirectory
          split at h
          next => rfl
          next => cases h
        have hplain : (child name).isSymlink = false := by
          by_contra hs
          have hcrossed := locate_symlink_crossed (Bool.not_eq_false _ ▸ hs) h
          cases hcrossed
        refine Or.inr ⟨name, ⟨hname, by rw [hdirectory, hplain]; rfl⟩, ?_⟩
        have hin : (path ++ [name] ++ next :: rest, file data links) ∈
            walk (path ++ [name]) (child name) := ih name (List.cons_ne_nil next rest) h
        rwa [List.append_assoc, List.singleton_append] at hin
    next => cases h
  | symlink target =>
    obtain ⟨name, rest, rfl⟩ := List.exists_cons_of_ne_nil hne
    cases locate_symlink_crossed rfl h
  | _ =>
    obtain ⟨name, rest, rfl⟩ := List.exists_cons_of_ne_nil hne
    cases h
end

end WorkspaceNode

end RaytSystem.Backup
