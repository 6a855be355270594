/-
Python values: scalars, and the sequences and mappings built from them, each in a mutable
and in a frozen kind.
-/
import Mathlib.Data.List.Induction
import Mathlib.Data.List.Nodup
import NervOS.Json.Text

namespace Python

/-- A string is any sequence of code points, lone surrogates included. -/
abbrev Text : Type := List (Char ⊕ Fin 2048)

def text (source : String) : Text :=
  source.toList.map Sum.inl

/-- The string that `encode("utf-8")` writes; a lone surrogate is refused. -/
def encode? (source : Text) : Option String :=
  (source.mapM Sum.getLeft?).map String.ofList

theorem mapM_getLeft?_eq_some (source : Text) (characters : List Char) :
    source.mapM Sum.getLeft? = some characters ↔ source = characters.map Sum.inl := by
  induction source generalizing characters with
  | nil => cases characters <;> simp
  | cons first rest ih =>
    cases first with
    | inl character =>
      cases characters with
      | nil => simp [Option.bind_eq_some_iff]
      | cons other tail =>
        simp only [List.mapM_cons, Sum.getLeft?_inl, Option.bind_eq_bind, Option.bind_some,
          Option.bind_eq_some_iff, ih, List.map_cons, List.cons.injEq, Sum.inl.injEq]
        constructor
        · rintro ⟨read, rfl, hread⟩
          cases hread
          exact ⟨rfl, rfl⟩
        · rintro ⟨rfl, hrest⟩
          exact ⟨tail, hrest, rfl⟩
    | inr surrogate => cases characters <;> simp

theorem encode?_eq_some {source : Text} {value : String} :
    encode? source = some value ↔ source = text value := by
  rw [encode?, Option.map_eq_some_iff]
  constructor
  · rintro ⟨characters, hread, rfl⟩
    rw [(mapM_getLeft?_eq_some source characters).mp hread, text, String.toList_ofList]
  · intro heq
    exact ⟨value.toList, (mapM_getLeft?_eq_some source value.toList).mpr heq, String.ofList_toList⟩

@[simp] theorem encode?_text (value : String) : encode? (text value) = some value :=
  encode?_eq_some.mpr rfl

theorem text_injective : Function.Injective text := by
  intro left right heq
  have hencode := encode?_text left
  rw [heq, encode?_text] at hencode
  exact (Option.some.inj hencode).symm

/-- `str` of an integer stops at so many digits. -/
def maxIntDigits : Nat := 4300

inductive Key (κ : Type) where
  | str (text : Text)
  | other (object : κ)
deriving DecidableEq

/-- `isinstance(key, str)` -/
def Key.string? {κ : Type} : Key κ → Option Text
  | .str text => some text
  | .other _ => none

/-- A value without parts; an object of a foreign class counts as one. -/
inductive Scalar where
  | none
  | bool (value : Bool)
  | int (value : Int)
  | float (value : Json.FloatText)
  | nonFinite
  | str (text : Text)
  | foreign
deriving DecidableEq

/-- `list` and `dict`, or `tuple` and `MappingProxyType`. -/
inductive Kind where
  | plain
  | frozen
deriving DecidableEq

inductive Value (K : Type) where
  | scalar (scalar : Scalar)
  | sequence (kind : Kind) (items : List (Value K))
  | mapping (kind : Kind) (members : List (K × Value K))

section Dict

variable {K V : Type} [DecidableEq K]

/-- Assign a key of a `dict`: a held key keeps its place, a new one goes to the end. -/
def assign (key : K) (value : V) : List (K × V) → List (K × V)
  | [] => [(key, value)]
  | member :: rest =>
    if member.1 = key then (member.1, value) :: rest else member :: assign key value rest

/-- The `dict` that a comprehension builds from the members in turn. -/
def dict (members : List (K × V)) : List (K × V) :=
  members.foldl (fun object member => assign member.1 member.2 object) []

variable {key : K} {value : V} {members : List (K × V)}

theorem assign_of_new (hnew : key ∉ members.map Prod.fst) :
    assign key value members = members ++ [(key, value)] := by
  induction members with
  | nil => rfl
  | cons member rest ih =>
    rw [List.map_cons, List.mem_cons, not_or] at hnew
    rw [assign, if_neg fun heq => hnew.1 heq.symm, ih hnew.2, List.cons_append]

theorem dict_of_nodup (hnodup : (members.map Prod.fst).Nodup) :
    dict members = members := by
  have hfold : ∀ rest object : List (K × V), ((object ++ rest).map Prod.fst).Nodup →
      rest.foldl (fun object member => assign member.1 member.2 object) object =
        object ++ rest := by
    intro rest
    induction rest with
    | nil => simp
    | cons member rest ih =>
      intro object hobject
      have hnew : member.1 ∉ object.map Prod.fst := by
        rw [List.map_append, List.nodup_append] at hobject
        intro hmem
        exact hobject.2.2 _ hmem member.1 (by simp) rfl
      rw [List.foldl_cons, assign_of_new hnew, ih]
      · rw [List.append_assoc, List.singleton_append]
      · rwa [List.append_assoc, List.singleton_append]
  exact hfold members [] hnodup

theorem keys_assign :
    (assign key value members).map Prod.fst =
      if key ∈ members.map Prod.fst then members.map Prod.fst
      else members.map Prod.fst ++ [key] := by
  induction members with
  | nil => rfl
  | cons member rest ih =>
    rw [assign]
    by_cases hkey : member.1 = key
    · simp [hkey]
    · rw [if_neg hkey, List.map_cons, ih]
      have hne : ¬ key = member.1 := fun heq => hkey heq.symm
      by_cases hmem : key ∈ rest.map Prod.fst
      · simp [hmem]
      · simp [hmem, hne]

variable {member : K × V}

theorem mem_assign (hmem : member ∈ assign key value members) :
    member = (key, value) ∨ member ∈ members := by
  induction members with
  | nil => exact Or.inl (List.mem_singleton.mp hmem)
  | cons first rest ih =>
    rw [assign] at hmem
    by_cases hkey : first.1 = key
    · rw [if_pos hkey, hkey, List.mem_cons] at hmem
      exact hmem.imp id (List.mem_cons_of_mem first)
    · rw [if_neg hkey, List.mem_cons] at hmem
      rcases hmem with heq | hmem
      · exact Or.inr (heq ▸ List.mem_cons_self)
      · exact (ih hmem).imp id (List.mem_cons_of_mem first)

theorem nodup_assign (hnodup : (members.map Prod.fst).Nodup) :
    ((assign key value members).map Prod.fst).Nodup := by
  rw [keys_assign]
  by_cases hmem : key ∈ members.map Prod.fst
  · rwa [if_pos hmem]
  · rw [if_neg hmem, List.nodup_append]
    refine ⟨hnodup, by simp, ?_⟩
    intro held hheld other hother heq
    rw [List.mem_singleton.mp hother] at heq
    exact hmem (heq ▸ hheld)

theorem nodup_dict (members : List (K × V)) : ((dict members).map Prod.fst).Nodup := by
  have hfold : ∀ rest object : List (K × V), (object.map Prod.fst).Nodup →
      ((rest.foldl (fun object member => assign member.1 member.2 object) object).map
        Prod.fst).Nodup := by
    intro rest
    induction rest with
    | nil => exact fun _ hobject => hobject
    | cons member rest ih => exact fun object hobject => ih _ (nodup_assign hobject)
  exact hfold members [] List.nodup_nil

theorem mem_of_mem_dict (hmem : member ∈ dict members) : member ∈ members := by
  have hfold : ∀ rest object : List (K × V),
      member ∈ rest.foldl (fun object member => assign member.1 member.2 object) object →
        member ∈ object ∨ member ∈ rest := by
    intro rest
    induction rest with
    | nil => exact fun _ hobject => Or.inl hobject
    | cons first rest ih =>
      intro object hobject
      rcases ih _ hobject with hassigned | hrest
      · rcases mem_assign hassigned with heq | hold
        · exact Or.inr (heq ▸ List.mem_cons_self)
        · exact Or.inl hold
      · exact Or.inr (List.mem_cons_of_mem first hrest)
  exact (hfold members [] hmem).resolve_left List.not_mem_nil

theorem mem_assign_iff (hnodup : (members.map Prod.fst).Nodup) :
    member ∈ assign key value members ↔
      member = (key, value) ∨ (member ∈ members ∧ member.1 ≠ key) := by
  induction members with
  | nil => simp [assign]
  | cons first rest ih =>
    rw [List.map_cons, List.nodup_cons] at hnodup
    rw [assign, List.mem_cons]
    by_cases hkey : first.1 = key
    · have hrest : member ∈ rest → member.1 ≠ key := by
        intro hmem heq
        exact hnodup.1 (hkey.trans heq.symm ▸ List.mem_map_of_mem hmem)
      rw [if_pos hkey, hkey, List.mem_cons]
      constructor
      · rintro (heq | hmem)
        · exact Or.inl heq
        · exact Or.inr ⟨Or.inr hmem, hrest hmem⟩
      · rintro (heq | ⟨rfl | hmem, hne⟩)
        · exact Or.inl heq
        · exact absurd hkey hne
        · exact Or.inr hmem
    · rw [if_neg hkey, List.mem_cons, ih hnodup.2]
      constructor
      · rintro (rfl | heq | ⟨hmem, hne⟩)
        · exact Or.inr ⟨Or.inl rfl, hkey⟩
        · exact Or.inl heq
        · exact Or.inr ⟨Or.inr hmem, hne⟩
      · rintro (heq | ⟨rfl | hmem, hne⟩)
        · exact Or.inr (Or.inl heq)
        · exact Or.inl rfl
        · exact Or.inr (Or.inr ⟨hmem, hne⟩)

theorem dict_concat (members : List (K × V)) (member : K × V) :
    dict (members ++ [member]) = assign member.1 member.2 (dict members) :=
  List.foldl_concat _ _ _ _

theorem mem_keys_dict :
    key ∈ (dict members).map Prod.fst ↔ key ∈ members.map Prod.fst := by
  induction members using List.reverseRecOn with
  | nil => rfl
  | append_singleton members member ih =>
    rw [dict_concat, keys_assign, List.map_append, List.mem_append, ← ih]
    by_cases hheld : member.1 ∈ (dict members).map Prod.fst
    · rw [if_pos hheld]
      constructor
      · exact Or.inl
      · rintro (hmem | hmem)
        · exact hmem
        · rw [List.mem_singleton.mp hmem]
          exact hheld
    · rw [if_neg hheld, List.mem_append]
      rfl

theorem mem_dict_append {front back : List (K × V)} :
    member ∈ dict (front ++ back) ↔
      member ∈ dict back ∨ (member ∈ dict front ∧ member.1 ∉ back.map Prod.fst) := by
  induction back using List.reverseRecOn with
  | nil => simp [dict]
  | append_singleton back last ih =>
    rw [← List.append_assoc, dict_concat, mem_assign_iff (nodup_dict _), ih, dict_concat,
      mem_assign_iff (nodup_dict _), List.map_append, List.mem_append, not_or]
    simp only [List.map_cons, List.map_nil, List.mem_singleton]
    tauto

omit [DecidableEq K] in
theorem eq_of_key (hnodup : (members.map Prod.fst).Nodup) {first second : K × V}
    (hfirst : first ∈ members) (hsecond : second ∈ members) (hkey : first.1 = second.1) :
    first = second :=
  List.inj_on_of_nodup_map hnodup hfirst hsecond hkey

theorem mem_dict_iff_all :
    (∀ member, member ∈ dict members ↔ member ∈ members) ↔
      ∀ first ∈ members, ∀ second ∈ members, first.1 = second.1 → first.2 = second.2 := by
  constructor
  · intro hall first hfirst second hsecond hkey
    have heq := eq_of_key (nodup_dict members) ((hall first).mpr hfirst)
      ((hall second).mpr hsecond) hkey
    rw [heq]
  · intro hvalues member
    refine ⟨mem_of_mem_dict, ?_⟩
    intro hmem
    obtain ⟨held, hheld, hkey⟩ := List.mem_map.mp
      (mem_keys_dict.mpr (List.mem_map_of_mem hmem))
    have hvalue := hvalues held (mem_of_mem_dict hheld) member hmem hkey
    rwa [← Prod.ext hkey hvalue]

end Dict

namespace Value

variable {K K' : Type}

/-- A property of every scalar that passes from the parts to the whole. -/
@[elab_as_elim, induction_eliminator]
theorem parts_induction {P : Value K → Prop} (scalar : ∀ s, P (.scalar s))
    (sequence : ∀ kind items, (∀ item ∈ items, P item) → P (.sequence kind items))
    (mapping : ∀ kind members, (∀ member ∈ members, P member.2) → P (.mapping kind members)) :
    ∀ value, P value
  | .scalar s => scalar s
  | .sequence kind items => sequence kind items (hitems items)
  | .mapping kind members => mapping kind members (hmembers members)
where
  hitems : ∀ items : List (Value K), ∀ item ∈ items, P item
    | [], _, hmem => by cases hmem
    | first :: rest, item, hmem => by
      rcases List.mem_cons.mp hmem with heq | hmem
      · rw [heq]
        exact parts_induction scalar sequence mapping first
      · exact hitems rest item hmem
  hmembers : ∀ members : List (K × Value K), ∀ member ∈ members, P member.2
    | [], _, hmem => by cases hmem
    | (key, value) :: rest, member, hmem => by
      rcases List.mem_cons.mp hmem with heq | hmem
      · rw [heq]
        exact parts_induction scalar sequence mapping value
      · exact hmembers rest member hmem

mutual

/-- The depth of the deepest node; a scalar and an empty container are one deep. -/
def depth : Value K → Nat
  | .scalar _ => 1
  | .sequence _ items => depthItems items + 1
  | .mapping _ members => depthMembers members + 1

def depthItems : List (Value K) → Nat
  | [] => 0
  | item :: rest => max item.depth (depthItems rest)

def depthMembers : List (K × Value K) → Nat
  | [] => 0
  | (_, value) :: rest => max value.depth (depthMembers rest)

end

mutual

def nodes : Value K → Nat
  | .scalar _ => 1
  | .sequence _ items => nodesItems items + 1
  | .mapping _ members => nodesMembers members + 1

def nodesItems : List (Value K) → Nat
  | [] => 0
  | item :: rest => item.nodes + nodesItems rest

def nodesMembers : List (K × Value K) → Nat
  | [] => 0
  | (_, value) :: rest => value.nodes + nodesMembers rest

end

mutual

def All (scalars : Scalar → Prop) (kinds : Kind → Prop) (keys : List K → Prop) :
    Value K → Prop
  | .scalar s => scalars s
  | .sequence kind items => kinds kind ∧ AllItems scalars kinds keys items
  | .mapping kind members =>
    kinds kind ∧ keys (members.map Prod.fst) ∧ AllMembers scalars kinds keys members

def AllItems (scalars : Scalar → Prop) (kinds : Kind → Prop) (keys : List K → Prop) :
    List (Value K) → Prop
  | [] => True
  | item :: rest => item.All scalars kinds keys ∧ AllItems scalars kinds keys rest

def AllMembers (scalars : Scalar → Prop) (kinds : Kind → Prop) (keys : List K → Prop) :
    List (K × Value K) → Prop
  | [] => True
  | (_, value) :: rest => value.All scalars kinds keys ∧ AllMembers scalars kinds keys rest

end

section All

variable {scalars : Scalar → Prop} {kinds : Kind → Prop} {keys : List K → Prop}

theorem allItems_iff {items : List (Value K)} :
    AllItems scalars kinds keys items ↔ ∀ item ∈ items, item.All scalars kinds keys := by
  induction items with
  | nil => simp [AllItems]
  | cons item rest ih => rw [AllItems, ih, List.forall_mem_cons]

theorem allMembers_iff {members : List (K × Value K)} :
    AllMembers scalars kinds keys members ↔
      ∀ member ∈ members, member.2.All scalars kinds keys := by
  induction members with
  | nil => simp [AllMembers]
  | cons member rest ih => rw [AllMembers, ih, List.forall_mem_cons]

@[simp] theorem all_scalar {s : Scalar} :
    (Value.scalar (K := K) s).All scalars kinds keys ↔ scalars s := by
  rw [All]

@[simp] theorem all_sequence {kind : Kind} {items : List (Value K)} :
    (Value.sequence kind items).All scalars kinds keys ↔
      kinds kind ∧ ∀ item ∈ items, item.All scalars kinds keys := by
  rw [All, allItems_iff]

@[simp] theorem all_mapping {kind : Kind} {members : List (K × Value K)} :
    (Value.mapping kind members).All scalars kinds keys ↔
      kinds kind ∧ keys (members.map Prod.fst) ∧
        ∀ member ∈ members, member.2.All scalars kinds keys := by
  rw [All, allMembers_iff]

end All

/-- No mapping holds a key twice. -/
def Distinct (value : Value K) : Prop :=
  value.All (fun _ => True) (fun _ => True) List.Nodup

/-- Every scalar is a JSON scalar. -/
def Admissible (value : Value K) : Prop :=
  value.All (fun s => s ≠ .nonFinite ∧ s ≠ .foreign) (fun _ => True) (fun _ => True)

def OfKind (kind : Kind) (value : Value K) : Prop :=
  value.All (fun _ => True) (fun other => other = kind) (fun _ => True)

mutual

/-- The value under other keys, with every container of one kind. -/
def rebuilt (f : K → K') (kind : Kind → Kind) : Value K → Value K'
  | .scalar s => .scalar s
  | .sequence k items => .sequence (kind k) (rebuiltItems f kind items)
  | .mapping k members => .mapping (kind k) (rebuiltMembers f kind members)

def rebuiltItems (f : K → K') (kind : Kind → Kind) : List (Value K) → List (Value K')
  | [] => []
  | item :: rest => item.rebuilt f kind :: rebuiltItems f kind rest

def rebuiltMembers (f : K → K') (kind : Kind → Kind) :
    List (K × Value K) → List (K' × Value K')
  | [] => []
  | (key, value) :: rest => (f key, value.rebuilt f kind) :: rebuiltMembers f kind rest

end

section Rebuilt

variable {f : K → K'} {kind : Kind → Kind}

theorem rebuiltItems_eq {items : List (Value K)} :
    rebuiltItems f kind items = items.map (rebuilt f kind) := by
  induction items with
  | nil => rfl
  | cons item rest ih => rw [rebuiltItems, ih, List.map_cons]

theorem rebuiltMembers_eq {members : List (K × Value K)} :
    rebuiltMembers f kind members =
      members.map fun member => (f member.1, member.2.rebuilt f kind) := by
  induction members with
  | nil => rfl
  | cons member rest ih => rw [rebuiltMembers, ih, List.map_cons]

@[simp] theorem rebuilt_scalar (s : Scalar) :
    (Value.scalar s).rebuilt f kind = .scalar s := by
  rw [rebuilt]

@[simp] theorem rebuilt_sequence (k : Kind) (items : List (Value K)) :
    (Value.sequence k items).rebuilt f kind =
      .sequence (kind k) (items.map (rebuilt f kind)) := by
  rw [rebuilt, rebuiltItems_eq]

@[simp] theorem rebuilt_mapping (k : Kind) (members : List (K × Value K)) :
    (Value.mapping k members).rebuilt f kind =
      .mapping (kind k) (members.map fun member => (f member.1, member.2.rebuilt f kind)) := by
  rw [rebuilt, rebuiltMembers_eq]

theorem rebuilt_rebuilt {K'' : Type} (g : K' → K'') (other : Kind → Kind) (value : Value K) :
    (value.rebuilt f kind).rebuilt g other = value.rebuilt (g ∘ f) (other ∘ kind) := by
  induction value with
  | scalar s => simp
  | sequence k items ih =>
    simp only [rebuilt_sequence, List.map_map, Function.comp_apply, sequence.injEq, true_and]
    exact List.map_congr_left ih
  | mapping k members ih =>
    simp only [rebuilt_mapping, List.map_map, Function.comp_apply, mapping.injEq, true_and]
    apply List.map_congr_left
    intro member hmember
    rw [Function.comp_apply, ih member hmember]

theorem depth_rebuilt (value : Value K) : (value.rebuilt f kind).depth = value.depth := by
  induction value with
  | scalar s => simp [depth]
  | sequence k items ih =>
    rw [rebuilt_sequence, depth, depth]
    congr 1
    induction items with
    | nil => rfl
    | cons item rest ihrest =>
      rw [List.map_cons, depthItems, depthItems, ih item List.mem_cons_self, ihrest]
      exact fun other hother => ih other (List.mem_cons_of_mem item hother)
  | mapping k members ih =>
    rw [rebuilt_mapping, depth, depth]
    congr 1
    induction members with
    | nil => rfl
    | cons member rest ihrest =>
      rw [List.map_cons, depthMembers, depthMembers, ih member List.mem_cons_self, ihrest]
      exact fun other hother => ih other (List.mem_cons_of_mem member hother)

theorem nodes_rebuilt (value : Value K) : (value.rebuilt f kind).nodes = value.nodes := by
  induction value with
  | scalar s => simp [nodes]
  | sequence k items ih =>
    rw [rebuilt_sequence, nodes, nodes]
    congr 1
    induction items with
    | nil => rfl
    | cons item rest ihrest =>
      rw [List.map_cons, nodesItems, nodesItems, ih item List.mem_cons_self, ihrest]
      exact fun other hother => ih other (List.mem_cons_of_mem item hother)
  | mapping k members ih =>
    rw [rebuilt_mapping, nodes, nodes]
    congr 1
    induction members with
    | nil => rfl
    | cons member rest ihrest =>
      rw [List.map_cons, nodesMembers, nodesMembers, ih member List.mem_cons_self, ihrest]
      exact fun other hother => ih other (List.mem_cons_of_mem member hother)

theorem all_rebuilt {scalars : Scalar → Prop} {kinds : Kind → Prop} {keys : List K' → Prop}
    (value : Value K) : (value.rebuilt f kind).All scalars kinds keys ↔
      value.All scalars (kinds ∘ kind) (keys ∘ List.map f) := by
  induction value with
  | scalar s => simp
  | sequence k items ih =>
    simp only [rebuilt_sequence, all_sequence, List.forall_mem_map, Function.comp_apply]
    exact and_congr_right fun _ => forall₂_congr ih
  | mapping k members ih =>
    simp only [rebuilt_mapping, all_mapping, List.forall_mem_map, Function.comp_apply,
      List.map_map]
    exact and_congr_right fun _ => and_congr_right fun _ => forall₂_congr ih

theorem all_imp {scalars scalars' : Scalar → Prop} {kinds kinds' : Kind → Prop}
    {keys keys' : List K → Prop} (hscalars : ∀ s, scalars s → scalars' s)
    (hkinds : ∀ k, kinds k → kinds' k) (hkeys : ∀ k, keys k → keys' k) (value : Value K)
    (h : value.All scalars kinds keys) : value.All scalars' kinds' keys' := by
  induction value with
  | scalar s => exact all_scalar.mpr (hscalars s (all_scalar.mp h))
  | sequence k items ih =>
    obtain ⟨hkind, hitems⟩ := all_sequence.mp h
    exact all_sequence.mpr ⟨hkinds k hkind, fun item hitem => ih item hitem (hitems item hitem)⟩
  | mapping k members ih =>
    obtain ⟨hkind, hkey, hmembers⟩ := all_mapping.mp h
    exact all_mapping.mpr ⟨hkinds k hkind, hkeys _ hkey,
      fun member hmember => ih member hmember (hmembers member hmember)⟩

end Rebuilt

def ofKind (kind : Kind) (value : Value K) : Value K :=
  value.rebuilt id fun _ => kind

def keyed {κ : Type} (value : Value Text) : Value (Key κ) :=
  value.rebuilt Key.str id

theorem ofKind_ofKind (kind other : Kind) (value : Value K) :
    (value.ofKind other).ofKind kind = value.ofKind kind :=
  rebuilt_rebuilt _ _ value

theorem ofKind_isOfKind (kind : Kind) (value : Value K) : (value.ofKind kind).OfKind kind := by
  rw [ofKind, OfKind, all_rebuilt]
  induction value with
  | scalar s => simp
  | sequence k items ih => exact all_sequence.mpr ⟨rfl, ih⟩
  | mapping k members ih => exact all_mapping.mpr ⟨rfl, trivial, ih⟩

theorem distinct_ofKind {kind : Kind} {value : Value K} :
    (value.ofKind kind).Distinct ↔ value.Distinct := by
  rw [ofKind, Distinct, all_rebuilt, Distinct]
  simp [Function.comp_def]

theorem distinct_keyed {κ : Type} {value : Value Text} :
    (value.keyed (κ := κ)).Distinct ↔ value.Distinct := by
  have hinjective : Function.Injective (Key.str (κ := κ)) := by
    intro left right heq
    cases heq
    rfl
  rw [keyed, Distinct, all_rebuilt, Distinct]
  simp only [Function.comp_def, List.nodup_map_iff hinjective]

end Value

end Python
