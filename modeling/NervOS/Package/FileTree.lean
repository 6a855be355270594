/-
A file system as the paths of its directories and of its files, over any type of names: making
the directories above a path, creating a file, and writing files one by one.
-/
import Mathlib.Data.List.Infix

structure FileTree (ν β : Type) where
  directories : List (List ν)
  files : List (List ν × β)

namespace FileTree

def empty {ν β : Type} : FileTree ν β :=
  ⟨[], []⟩

section Operations

variable {ν β : Type} [DecidableEq ν]

/-- `mkdir(exist_ok=True)`: a directory that is there is kept, a file in its place is refused. -/
def makeDirectory (tree : FileTree ν β) (path : List ν) : Option (FileTree ν β) :=
  if path ∈ tree.files.map Prod.fst then none
  else if path ∈ tree.directories then some tree
  else some { tree with directories := tree.directories ++ [path] }

def parents (path : List ν) : List (List ν) :=
  path.inits.filter fun above => above ≠ [] ∧ above ≠ path

/-- `open("xb")`: create a file where nothing is. -/
def create (tree : FileTree ν β) (path : List ν) (content : β) : Option (FileTree ν β) :=
  if path = [] ∨ path ∈ tree.directories ∨ path ∈ tree.files.map Prod.fst then none
  else some { tree with files := tree.files ++ [(path, content)] }

def write (tree : FileTree ν β) (file : List ν × β) : Option (FileTree ν β) := do
  let tree ← (parents file.1).foldlM makeDirectory tree
  tree.create file.1 file.2

def writeAll (tree : FileTree ν β) (files : List (List ν × β)) : Option (FileTree ν β) :=
  files.foldlM write tree

end Operations

/-- Neither path is the other or a directory above it. -/
def Apart {ν : Type} (left right : List ν) : Prop :=
  ¬ left <+: right ∧ ¬ right <+: left

/-- Every directory lies above a file. -/
def Grown {ν β : Type} (tree : FileTree ν β) : Prop :=
  ∀ path ∈ tree.directories, ∃ file ∈ tree.files, path <+: file.1

theorem grown_empty {ν β : Type} : (empty : FileTree ν β).Grown := by
  intro path hpath
  cases hpath

variable {ν β : Type} [DecidableEq ν] {tree : FileTree ν β}

theorem mem_parents {above path : List ν} :
    above ∈ parents path ↔ above <+: path ∧ above ≠ [] ∧ above ≠ path := by
  rw [parents, List.mem_filter, List.mem_inits, decide_eq_true_iff]

theorem makeDirectories_ok {above : List (List ν)} {path : List ν}
    (hpath : ∀ file ∈ tree.files, ¬ file.1 <+: path) (habove : ∀ made ∈ above, made <+: path) :
    ∃ grown, above.foldlM makeDirectory tree = some grown ∧ grown.files = tree.files ∧
      ∀ made ∈ grown.directories, made ∈ tree.directories ∨ made ∈ above := by
  induction above generalizing tree with
  | nil => exact ⟨tree, rfl, rfl, fun made hmade => .inl hmade⟩
  | cons first rest ih =>
    rw [List.forall_mem_cons] at habove
    have hfile : first ∉ tree.files.map Prod.fst := by
      rw [List.mem_map]
      rintro ⟨file, hmem, rfl⟩
      exact hpath file hmem habove.1
    rw [List.foldlM_cons, makeDirectory, if_neg hfile]
    by_cases hheld : first ∈ tree.directories
    · obtain ⟨grown, hgrown, hfiles, hmade⟩ := ih hpath habove.2
      rw [if_pos hheld]
      exact ⟨grown, hgrown, hfiles, fun made hmem =>
        (hmade made hmem).imp id (List.mem_cons_of_mem _)⟩
    · have hpath' : ∀ file ∈ (FileTree.mk (tree.directories ++ [first]) tree.files).files,
          ¬ file.1 <+: path := hpath
      obtain ⟨grown, hgrown, hfiles, hmade⟩ := ih hpath' habove.2
      rw [if_neg hheld]
      refine ⟨grown, hgrown, hfiles, fun made hmem => ?_⟩
      rcases hmade made hmem with hbefore | hrest
      · rcases List.mem_append.mp hbefore with hkept | hnew
        · exact .inl hkept
        · exact .inr (List.mem_singleton.mp hnew ▸ List.mem_cons_self)
      · exact .inr (List.mem_cons_of_mem _ hrest)

theorem write_ok {file : List ν × β} (hgrown : tree.Grown) (hne : file.1 ≠ [])
    (hapart : ∀ other ∈ tree.files, Apart other.1 file.1) :
    ∃ grown, tree.write file = some grown ∧ grown.files = tree.files ++ [file] ∧
      grown.Grown := by
  have habove : ∀ above ∈ parents file.1, above <+: file.1 :=
    fun above habove => (mem_parents.mp habove).1
  obtain ⟨made, hmade, hfiles, hdirectories⟩ :=
    makeDirectories_ok (fun other hother => (hapart other hother).1) habove
  have hdirectory : file.1 ∉ made.directories := by
    intro hmem
    rcases hdirectories _ hmem with hbefore | habove
    · obtain ⟨other, hother, hprefix⟩ := hgrown _ hbefore
      exact (hapart other hother).2 hprefix
    · exact (mem_parents.mp habove).2.2 rfl
  have hfile : file.1 ∉ made.files.map Prod.fst := by
    rw [hfiles, List.mem_map]
    rintro ⟨other, hother, heq⟩
    exact (hapart other hother).1 (heq ▸ List.prefix_refl _)
  refine ⟨{ made with files := made.files ++ [file] }, ?_, ?_, ?_⟩
  · rw [write, hmade]
    exact if_neg fun h => h.elim hne fun h => h.elim hdirectory hfile
  · exact congrArg (· ++ [file]) hfiles
  · intro path hpath
    rcases hdirectories path hpath with hbefore | habove
    · obtain ⟨other, hother, hprefix⟩ := hgrown path hbefore
      exact ⟨other, List.mem_append_left _ (hfiles ▸ hother), hprefix⟩
    · exact ⟨file, List.mem_append_right _ List.mem_cons_self, (mem_parents.mp habove).1⟩

theorem writeAll_ok {files : List (List ν × β)} (hgrown : tree.Grown)
    (hne : ∀ file ∈ files, file.1 ≠ [])
    (hapart : ∀ other ∈ tree.files, ∀ file ∈ files, Apart other.1 file.1)
    (hfiles : files.Pairwise fun left right => Apart left.1 right.1) :
    ∃ grown, tree.writeAll files = some grown ∧ grown.files = tree.files ++ files := by
  induction files generalizing tree with
  | nil => exact ⟨tree, rfl, (List.append_nil _).symm⟩
  | cons file rest ih =>
    rw [List.forall_mem_cons] at hne
    rw [List.pairwise_cons] at hfiles
    obtain ⟨written, hwritten, hheld, hkept⟩ := write_ok hgrown hne.1 fun other hother =>
      hapart other hother file List.mem_cons_self
    have hrest : ∀ other ∈ written.files, ∀ next ∈ rest, Apart other.1 next.1 := by
      intro other hother next hnext
      rw [hheld, List.mem_append, List.mem_singleton] at hother
      rcases hother with hbefore | rfl
      · exact hapart other hbefore next (List.mem_cons_of_mem _ hnext)
      · exact hfiles.1 next hnext
    obtain ⟨grown, hall, hfound⟩ := ih hkept hne.2 hrest hfiles.2
    refine ⟨grown, ?_, ?_⟩
    · rw [writeAll, List.foldlM_cons, hwritten]
      exact hall
    · rw [hfound, hheld, List.append_assoc, List.singleton_append]

end FileTree
