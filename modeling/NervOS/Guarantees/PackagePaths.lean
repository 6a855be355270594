/-
Accepted package paths on a file system that folds the names it compares: when all of them can
be written, one by one and in any order.
-/
import NervOS.Package.FileTree
import NervOS.Refinement.PackageArchive
import NervOS.Text.Split

namespace NervOS

namespace PackageFormat

open Relational (bind_eq_ok)

section Comparison

/-- One pass that a file system makes over a name before it compares it. -/
inductive Folding where
  | nfc
  | casefold
deriving DecidableEq, Repr

variable (unicode : Unicode)

def Folding.apply : Folding → String → String
  | .nfc => unicode.nfc
  | .casefold => unicode.casefold

def foldName : List Folding → String → String
  | [], name => name
  | pass :: passes, name => pass.apply unicode (foldName passes name)

def components (path : String) : List String :=
  (path.toList.splitOn '/').map String.ofList

def place (passes : List Folding) (path : String) : List String :=
  (components path).map (foldName unicode passes)

/-- Follow the names from a directory down; nothing when they lead out of it. -/
def resolveBelow : List String → List String → Option (List String)
  | below, [] => some below
  | below, name :: rest =>
    if name = "" ∨ name = "." then resolveBelow below rest
    else if name = ".." then
      if below = [] then none else resolveBelow below.dropLast rest
    else resolveBelow (below ++ [name]) rest

/-- Write one member under the payload root: its path may not leave the root, the directories
above it are made, and nothing is overwritten. -/
def materializeMember (passes : List Folding) (tree : FileTree String Bytes)
    (member : String × Bytes) : Option (FileTree String Bytes) := do
  let below ← resolveBelow [] (components member.1)
  tree.write (below.map (foldName unicode passes), member.2)

def materialize (passes : List Folding) (members : Members) : Option (FileTree String Bytes) :=
  members.foldlM (materializeMember unicode passes) .empty

structure Materializable (paths : List String) (passes : List Folding) : Prop where
  distinct : (paths.map (place unicode passes)).Nodup
  noDirectory : ∀ path ∈ paths, ∀ other ∈ paths, path ≠ other →
    ¬ place unicode passes path <+: place unicode passes other
  below : ∀ path ∈ paths, resolveBelow [] (components path) = some (components path)
  written : ∀ members : Members, (members.map Prod.fst).Perm paths →
    ∃ tree, materialize unicode passes members = some tree ∧
      tree.files = members.map fun member => (place unicode passes member.1, member.2)

end Comparison

section Keys

variable (unicode : Unicode)

def foldCase (path : String) : String :=
  "/".intercalate ((path.toList.splitOn '/').map fun component =>
    unicode.casefold (String.ofList component))

def iteratedKey (rounds : Nat) (caseFirst : Bool) (path : String) : String :=
  (collisionKey unicode)^[rounds] (if caseFirst then foldCase unicode path else path)

/-- However often it is taken, the collision key of no path is that of another, or of a directory
above another. -/
def KeysApart (paths : List String) : Prop :=
  ∀ rounds caseFirst, ∀ path ∈ paths, ∀ other ∈ paths, path ≠ other →
    ¬ components (iteratedKey unicode rounds caseFirst path) <+:
      components (iteratedKey unicode rounds caseFirst other)

/-- What the Unicode standard says of composition and of case folding: a second pass changes
nothing, and neither passes over or brings a separator. -/
structure Unicode.Lawful : Prop where
  nfc_nfc : ∀ text, unicode.nfc (unicode.nfc text) = unicode.nfc text
  casefold_casefold : ∀ text, unicode.casefold (unicode.casefold text) = unicode.casefold text
  nfc_components : ∀ path,
    components (unicode.nfc path) = (components path).map unicode.nfc
  casefold_separator : ∀ text, '/' ∉ text.toList → '/' ∉ (unicode.casefold text).toList

variable {unicode}

theorem components_intercalate {names : List String} (hne : names ≠ [])
    (hnames : ∀ name ∈ names, '/' ∉ name.toList) :
    components ("/".intercalate names) = names := by
  have hparts : ∀ part ∈ names.map String.toList, '/' ∉ part := by
    intro part hpart
    obtain ⟨name, hname, rfl⟩ := List.mem_map.mp hpart
    exact hnames name hname
  have hslash : ("/" : String).toList = ['/'] := rfl
  have hmap : names.map String.toList ≠ [] := fun h => hne (List.map_eq_nil_iff.mp h)
  rw [components, String.toList_intercalate, hslash, List.splitOn_intercalate _ hparts hmap,
    List.map_map]
  exact (List.map_congr_left fun name _ => String.ofList_toList).trans (List.map_id names)

theorem separator_notMem {path name : String} (h : name ∈ components path) :
    '/' ∉ name.toList := by
  rw [components, List.mem_map] at h
  obtain ⟨component, hcomponent, rfl⟩ := h
  rw [String.toList_ofList]
  exact Text.not_mem_of_mem_splitOn hcomponent

theorem components_ne_nil (path : String) : components path ≠ [] := by
  rw [components, ne_eq, List.map_eq_nil_iff]
  exact List.splitOn_ne_nil _ _

theorem components_foldCase (hlawful : unicode.Lawful) (path : String) :
    components (foldCase unicode path) = (components path).map unicode.casefold := by
  have hfold : foldCase unicode path =
      "/".intercalate ((components path).map unicode.casefold) := by
    rw [foldCase, components, List.map_map]
    rfl
  rw [hfold, components_intercalate]
  · rw [ne_eq, List.map_eq_nil_iff]
    exact components_ne_nil path
  · intro name hname
    obtain ⟨component, hcomponent, rfl⟩ := List.mem_map.mp hname
    exact hlawful.casefold_separator component (separator_notMem hcomponent)

theorem components_collisionKey (hlawful : unicode.Lawful) (path : String) :
    components (collisionKey unicode path) =
      (components path).map fun name => unicode.casefold (unicode.nfc name) := by
  have hkey : collisionKey unicode path = foldCase unicode (unicode.nfc path) := rfl
  rw [hkey, components_foldCase hlawful, hlawful.nfc_components, List.map_map]
  rfl

/-- The pass that the last round leaves open, if any. -/
def passesOf (rounds : Nat) (caseFirst : Bool) : List Folding :=
  (List.replicate rounds [Folding.casefold, Folding.nfc]).flatten ++
    if caseFirst then [.casefold] else []

theorem place_passesOf (hlawful : unicode.Lawful) (rounds : Nat) (caseFirst : Bool)
    (path : String) :
    place unicode (passesOf rounds caseFirst) path =
      components (iteratedKey unicode rounds caseFirst path) := by
  induction rounds with
  | zero =>
    cases caseFirst with
    | false => exact List.map_id _
    | true => exact (components_foldCase hlawful path).symm
  | succ rounds ih =>
    rw [iteratedKey, Function.iterate_succ_apply', components_collisionKey hlawful,
      ← iteratedKey, ← ih, place, place, List.map_map]
    rfl

theorem exists_rounds (hlawful : unicode.Lawful) (passes : List Folding) :
    ∃ rounds caseFirst,
      (∀ name, foldName unicode passes name =
        foldName unicode (passesOf rounds caseFirst) name) ∨
      ∀ name, foldName unicode passes name =
        unicode.nfc (foldName unicode (passesOf rounds caseFirst) name) := by
  induction passes with
  | nil => exact ⟨0, false, .inl fun _ => rfl⟩
  | cons pass passes ih =>
    obtain ⟨rounds, caseFirst, hwhole | hhalf⟩ := ih
    · cases pass with
      | nfc => exact ⟨rounds, caseFirst, .inr fun name => congrArg unicode.nfc (hwhole name)⟩
      | casefold =>
        cases rounds with
        | zero =>
          refine ⟨0, true, .inl fun name => ?_⟩
          have hname := congrArg unicode.casefold (hwhole name)
          cases caseFirst with
          | false => exact hname
          | true => exact hname.trans (hlawful.casefold_casefold name)
        | succ rounds =>
          refine ⟨rounds + 1, caseFirst, .inl fun name => ?_⟩
          exact (congrArg unicode.casefold (hwhole name)).trans
            (hlawful.casefold_casefold _)
    · cases pass with
      | nfc =>
        refine ⟨rounds, caseFirst, .inr fun name => ?_⟩
        exact (congrArg unicode.nfc (hhalf name)).trans (hlawful.nfc_nfc _)
      | casefold =>
        refine ⟨rounds + 1, caseFirst, .inl fun name => ?_⟩
        exact congrArg unicode.casefold (hhalf name)

theorem KeysApart.place (hlawful : unicode.Lawful) {paths : List String}
    (hapart : KeysApart unicode paths) (passes : List Folding) :
    ∀ path ∈ paths, ∀ other ∈ paths, path ≠ other →
      ¬ place unicode passes path <+: PackageFormat.place unicode passes other := by
  intro path hpath other hother hne hprefix
  obtain ⟨rounds, caseFirst, hwhole | hhalf⟩ := exists_rounds hlawful passes
  · have hplace : ∀ path, PackageFormat.place unicode passes path =
        components (iteratedKey unicode rounds caseFirst path) := fun path =>
      (List.map_congr_left fun name _ => hwhole name).trans
        (place_passesOf hlawful rounds caseFirst path)
    rw [hplace, hplace] at hprefix
    exact hapart rounds caseFirst path hpath other hother hne hprefix
  · have hplace : ∀ path, (PackageFormat.place unicode passes path).map unicode.casefold =
        components (iteratedKey unicode (rounds + 1) caseFirst path) := by
      intro path
      rw [← place_passesOf hlawful, PackageFormat.place, PackageFormat.place, List.map_map]
      exact List.map_congr_left fun name _ => congrArg unicode.casefold (hhalf name)
    have hfolded := hprefix.map unicode.casefold
    rw [hplace, hplace] at hfolded
    exact hapart (rounds + 1) caseFirst path hpath other hother hne hfolded

end Keys

section Writing

variable {unicode : Unicode} {passes : List Folding}

theorem resolveBelow_eq {below names : List String}
    (h : ∀ name ∈ names, name ≠ "" ∧ name ≠ "." ∧ name ≠ "..") :
    resolveBelow below names = some (below ++ names) := by
  induction names generalizing below with
  | nil => rw [resolveBelow, List.append_nil]
  | cons name rest ih =>
    rw [List.forall_mem_cons] at h
    rw [resolveBelow, if_neg (not_or.mpr ⟨h.1.1, h.1.2.1⟩), if_neg h.1.2.2, ih h.2,
      List.append_assoc, List.singleton_append]

theorem names_of_canonical {path : String} (h : canonicalPackagePath unicode path = .ok ()) :
    ∀ name ∈ components path, name ≠ "" ∧ name ≠ "." ∧ name ≠ ".." := by
  simp only [canonicalPackagePath, bind_eq_ok, require_eq_ok, forEach_eq_ok] at h
  obtain ⟨-, -, -, -, -, -, -, -, -, -, -, -, hcomponents⟩ := h
  intro name hname
  obtain ⟨component, hcomponent, rfl⟩ := List.mem_map.mp hname
  have hvalid := hcomponents component hcomponent
  simp only [validateComponent, bind_eq_ok, require_eq_ok] at hvalid
  obtain ⟨-, hempty, -, hdots, -⟩ := hvalid
  refine ⟨fun heq => hempty ?_, fun heq => hdots.1 ?_, fun heq => hdots.2 ?_⟩
  · rw [← String.toList_ofList (l := component), heq]
    rfl
  · rw [← String.toList_ofList (l := component), heq]
    rfl
  · rw [← String.toList_ofList (l := component), heq]
    rfl

variable {paths : List String}

theorem canonical_of_claimPaths {message : String → String → String}
    {claimed : List (String × String)} (h : claimPaths unicode message paths claimed = .ok ()) :
    ∀ path ∈ paths, canonicalPackagePath unicode path = .ok () := by
  induction paths generalizing claimed with
  | nil => exact List.forall_mem_nil _
  | cons path rest ih =>
    rw [claimPaths, bind_eq_ok] at h
    obtain ⟨_, hcanonical, hrest⟩ := h
    cases hlookup : claimed.lookup (collisionKey unicode path) with
    | some existing =>
      rw [hlookup] at hrest
      cases hrest
    | none =>
      rw [hlookup] at hrest
      exact List.forall_mem_cons.mpr ⟨hcanonical, ih hrest⟩

theorem materialize_eq {tree : FileTree String Bytes} {members : Members}
    (hbelow : ∀ member ∈ members,
      resolveBelow [] (components member.1) = some (components member.1)) :
    members.foldlM (materializeMember unicode passes) tree =
      tree.writeAll (members.map fun member => (place unicode passes member.1, member.2)) := by
  induction members generalizing tree with
  | nil => rfl
  | cons member rest ih =>
    rw [List.forall_mem_cons] at hbelow
    rw [List.map_cons, FileTree.writeAll, List.foldlM_cons, List.foldlM_cons, materializeMember,
      hbelow.1]
    change (tree.write (place unicode passes member.1, member.2)).bind _ = Option.bind _ _
    congr 1
    funext written
    exact ih hbelow.2

theorem place_ne_nil (path : String) : place unicode passes path ≠ [] := by
  rw [place, ne_eq, List.map_eq_nil_iff]
  exact components_ne_nil path

theorem pairwise_of_perm {members : Members} (hnodup : paths.Nodup)
    (hperm : (members.map Prod.fst).Perm paths)
    (hapart : ∀ path ∈ paths, ∀ other ∈ paths, path ≠ other →
      ¬ place unicode passes path <+: place unicode passes other) :
    (members.map fun member => (place unicode passes member.1, member.2)).Pairwise
      fun left right => FileTree.Apart left.1 right.1 := by
  have hdistinct : (members.map Prod.fst).Nodup := hperm.nodup_iff.mpr hnodup
  rw [List.Nodup, List.pairwise_map] at hdistinct
  rw [List.pairwise_map]
  refine hdistinct.imp_of_mem fun hleft hright hne => ?_
  have hleft' := hperm.subset (List.mem_map_of_mem hleft)
  have hright' := hperm.subset (List.mem_map_of_mem hright)
  exact ⟨hapart _ hleft' _ hright' hne, hapart _ hright' _ hleft' hne.symm⟩

theorem Materializable.of_apart (hnodup : paths.Nodup)
    (hbelow : ∀ path ∈ paths, resolveBelow [] (components path) = some (components path))
    (hapart : ∀ path ∈ paths, ∀ other ∈ paths, path ≠ other →
      ¬ place unicode passes path <+: place unicode passes other) :
    Materializable unicode paths passes where
  distinct := hnodup.map_on fun path hpath other hother heq => by
    by_contra hne
    exact hapart path hpath other hother hne (heq ▸ List.prefix_refl _)
  noDirectory := hapart
  below := hbelow
  written := by
    intro members hperm
    have hstay : ∀ member ∈ members,
        resolveBelow [] (components member.1) = some (components member.1) := fun member hmember =>
      hbelow member.1 (hperm.subset (List.mem_map_of_mem hmember))
    have hne : ∀ file ∈ members.map fun member => (place unicode passes member.1, member.2),
        file.1 ≠ [] := by
      intro file hfile
      obtain ⟨member, -, rfl⟩ := List.mem_map.mp hfile
      exact place_ne_nil member.1
    obtain ⟨tree, htree, hfiles⟩ := FileTree.writeAll_ok FileTree.grown_empty hne
      (fun other hother => absurd hother List.not_mem_nil) (pairwise_of_perm hnodup hperm hapart)
    exact ⟨tree, (materialize_eq hstay).trans htree, hfiles⟩

end Writing

variable (unicode : Unicode)

/-- Paths that the validation or the reader of an archive accepts can be materialized on every
file system that composes and case-folds the names it compares, exactly where iterating the
collision key brings no two of them together. -/
theorem package_paths (hlawful : unicode.Lawful) (paths : List String)
    (haccepted : validateUniquePackagePaths unicode paths = .ok () ∨
      ∃ archive, scanArchive unicode archive = .ok () ∧ archive.map Prod.fst = paths) :
    (∀ passes, Materializable unicode paths passes) ↔ KeysApart unicode paths := by
  have hclaimed : ∃ message, claimPaths unicode message paths [] = .ok () := by
    rcases haccepted with hvalid | ⟨archive, hscan, rfl⟩
    · exact ⟨_, hvalid⟩
    · rw [scanArchive, bind_eq_ok] at hscan
      obtain ⟨-, -, hscan⟩ := hscan
      obtain ⟨_, hclaim, -⟩ := bind_eq_ok.mp hscan
      exact ⟨_, hclaim⟩
  obtain ⟨message, hclaim⟩ := hclaimed
  constructor
  · intro hall rounds caseFirst path hpath other hother hne
    rw [← place_passesOf hlawful, ← place_passesOf hlawful]
    exact (hall (passesOf rounds caseFirst)).noDirectory path hpath other hother hne
  · intro hapart passes
    refine .of_apart (nodup_of_claimPaths hclaim).1 (fun path hpath => ?_)
      (hapart.place hlawful passes)
    exact resolveBelow_eq (names_of_canonical (canonical_of_claimPaths hclaim path hpath))

/-- The tables on lower-case ASCII names: nothing to compose and nothing to fold. -/
def lowerUnicode : Unicode :=
  ⟨id, id, Char.isAlpha⟩

theorem lowerUnicode_lawful : lowerUnicode.Lawful where
  nfc_nfc := fun _ => rfl
  casefold_casefold := fun _ => rfl
  nfc_components := fun _ => (List.map_id _).symm
  casefold_separator := fun _ hnone => hnone

theorem package_paths_sample :
    (∀ passes, Materializable lowerUnicode ["agent.whl", "assets/icon.png"] passes) ↔
      KeysApart lowerUnicode ["agent.whl", "assets/icon.png"] :=
  package_paths lowerUnicode lowerUnicode_lawful _ (.inl (by decide +kernel))

/-- A file and a directory of one name are accepted together. -/
theorem package_paths_collide :
    ¬ ∀ unicode : Unicode, unicode.Lawful → ∀ paths : List String,
      validateUniquePackagePaths unicode paths = .ok () →
      ∀ passes, Materializable unicode paths passes := by
  intro hall
  have haccepted : validateUniquePackagePaths lowerUnicode ["assets", "assets/icon.png"] =
      .ok () := by
    decide +kernel
  have hapart := (hall lowerUnicode lowerUnicode_lawful _ haccepted []).noDirectory "assets"
    (by decide) "assets/icon.png" (by decide) (by decide)
  exact hapart ⟨["icon.png"], by decide +kernel⟩

end PackageFormat

end NervOS
