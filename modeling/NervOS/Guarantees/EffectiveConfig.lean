/-
The effective configuration under its own schema: it is a fixpoint exactly when no default that
was filled in is an object with defaults of its own left to fill.
-/
import NervOS.Application.PackageInstallation
import NervOS.Json.Objects
import NervOS.Relational.Fallible

namespace NervOS

open Json Relational

def property? (schema : Value) (name : String) : Option Value :=
  (schema.get "properties").get? name

/-- Only an object under `"type": "object"` is filled inside. -/
def isObjectSchema (schema : Value) : Bool :=
  (schema.get "type").pyEq (fun _ => none) (.str "object")

inductive Filled : Value → Value → Prop
  | intro {schema config : Value}
      (hpresent : ∀ name child, property? schema name = some child → config.get? name = none →
        child.get? "default" = none)
      (hnested : ∀ name child nested, property? schema name = some child →
        config.get? name = some (.obj nested) → isObjectSchema child = true →
          Filled child (.obj nested)) :
      Filled schema config

inductive ConfigSettled : Value → Value → Prop
  | intro {schema config : Value}
      (hdefault : ∀ name child nested, property? schema name = some child →
        config.get? name = none → child.get? "default" = some (.obj nested) →
          isObjectSchema child = true → Filled child (.obj nested))
      (hnested : ∀ name child nested, property? schema name = some child →
        config.get? name = some (.obj nested) → isObjectSchema child = true →
          ConfigSettled child (.obj nested)) :
      ConfigSettled schema config

structure MayCarry (system : PackageSystem) (ownerUserId : Nat) (targetPackageVersion : String)
    (expectedConfigRevision : Nat) (schema : Value) : Prop where
  owned : ∃ detail, system.owned ownerUserId = .ok detail
  target : ∃ detail, system.rebindTarget targetPackageVersion = .ok detail ∧
    detail.configSchema = schema
  revision : system.binding.configRevision = expectedConfigRevision

section Trees

variable {key : String} {value : Value}

theorem depth_of_lookup {members : List (String × Value)} (h : members.lookup key = some value) :
    value.depth ≤ Value.depthMembers members := by
  induction members with
  | nil => cases h
  | cons member rest ih =>
    obtain ⟨name, other⟩ := member
    rw [List.lookup_cons] at h
    rw [Value.depthMembers]
    by_cases hname : (key == name) = true
    · rw [hname] at h
      obtain rfl := Option.some.inj h
      exact le_max_left _ _
    · rw [Bool.eq_false_of_not_eq_true hname] at h
      exact (ih h).trans (le_max_right _ _)

theorem wellFormed_of_get? {value member : Value} (hvalue : value.WellFormed)
    (h : value.get? key = some member) : member.WellFormed := by
  cases value with
  | obj members => exact (Value.wellFormed_obj_iff.mp hvalue).2 key member h
  | null | bool _ | int _ | float _ | str _ | arr _ => cases h

theorem wellFormed_get (hvalue : value.WellFormed) :
    (value.get key).WellFormed := by
  rw [Value.get]
  cases hmember : value.get? key with
  | none => trivial
  | some member => exact wellFormed_of_get? hvalue hmember

theorem wellFormed_property {schema child : Value} {name : String} (hschema : schema.WellFormed)
    (h : property? schema name = some child) : child.WellFormed :=
  wellFormed_of_get? (wellFormed_get hschema) h

theorem members_ascending (hvalue : value.WellFormed) :
    (value.members.map Prod.fst).Pairwise (· < ·) := by
  cases value with
  | obj members => exact hvalue.1
  | null | bool _ | int _ | float _ | str _ | arr _ => exact List.Pairwise.nil

variable {whole : FloatText → Option Int}

mutual

theorem pyEq_self : ∀ {value : Value}, value.WellFormed → value.pyEq whole value = true
  | .null, _ => by simp [Value.pyEq]
  | .bool _, _ => by simp [Value.pyEq, Value.number?]
  | .int _, _ => by simp [Value.pyEq, Value.number?]
  | .float value, _ => by cases h : whole value <;> simp [Value.pyEq, Value.number?, h]
  | .str _, _ => by simp [Value.pyEq]
  | .arr _, h => by
    rw [Value.pyEq]
    exact pyEqItems_self h
  | .obj members, h => by
    have hnodup : (members.map Prod.fst).Nodup := h.1.imp fun hlt => hlt.ne
    rw [Value.pyEq, decide_eq_true rfl, Bool.true_and]
    exact pyEqMembers_self h.2 fun member hmember =>
      (Value.lookup_eq_some_iff hnodup).mpr hmember

theorem pyEqItems_self : ∀ {items : List Value}, Value.WellFormedItems items →
    Value.pyEqItems whole items items = true
  | [], _ => rfl
  | _ :: _, h => by rw [Value.pyEqItems, pyEq_self h.1, pyEqItems_self h.2, Bool.and_self]

theorem pyEqMembers_self : ∀ {rest members : List (String × Value)},
    Value.WellFormedMembers rest → (∀ member ∈ rest, members.lookup member.1 = some member.2) →
      Value.pyEqMembers whole rest members = true
  | [], _, _, _ => by rw [Value.pyEqMembers]
  | (key, value) :: rest, members, h, hlookup => by
    obtain ⟨hfirst, hrest⟩ := List.forall_mem_cons.mp hlookup
    rw [Value.pyEqMembers, hfirst]
    dsimp only
    rw [pyEq_self h.1, pyEqMembers_self h.2 hrest, Bool.and_self]

end

end Trees

section Defaults

/-- What a pass makes of one declared property. -/
def fillProperty (fuel : Nat) (child : Value) : Option Value → Option Value
  | none => child.get? "default"
  | some (.obj nested) =>
    if isObjectSchema child then some (.obj (applyDefaults fuel child nested))
    else some (.obj nested)
  | some member => some member

theorem lookup_foldl {fill : Value → Option Value → Option Value}
    {step : List (String × Value) → String × Value → List (String × Value)}
    (hstep : ∀ effective property name, (step effective property).lookup name =
      if name = property.1 then fill property.2 (effective.lookup name) else effective.lookup name)
    {properties effective : List (String × Value)} (hnodup : (properties.map Prod.fst).Nodup)
    (name : String) : (properties.foldl step effective).lookup name =
      (properties.lookup name).elim (effective.lookup name) fun child =>
        fill child (effective.lookup name) := by
  induction properties generalizing effective with
  | nil => rfl
  | cons property rest ih =>
    obtain ⟨key, child⟩ := property
    obtain ⟨hnew, hrest⟩ := List.nodup_cons.mp hnodup
    rw [List.foldl_cons, ih hrest, hstep, List.lookup_cons]
    by_cases hname : name = key
    · subst hname
      have hnone : rest.lookup name = none := by
        rw [List.lookup_eq_none_iff]
        exact fun member hmember => bne_iff_ne.mpr fun heq =>
          hnew (List.mem_map.mpr ⟨member, hmember, heq.symm⟩)
      simp [hnone]
    · rw [beq_false_of_ne hname, if_neg hname]

variable {fuel : Nat} {schema : Value} {config : List (String × Value)}

theorem lookup_applyDefaults (hschema : schema.WellFormed) (name : String) :
    (applyDefaults (fuel + 1) schema config).lookup name =
      (property? schema name).elim (config.lookup name) fun child =>
        fillProperty fuel child (config.lookup name) := by
  have hnodup : ((schema.get "properties").members.map Prod.fst).Nodup :=
    (members_ascending (wellFormed_get hschema)).imp fun hlt => hlt.ne
  rw [applyDefaults]
  refine @lookup_foldl (fillProperty fuel) _ ?_ _ _ hnodup name
  intro effective property name
  by_cases hname : name = property.1
  · subst hname
    rw [if_pos rfl]
    cases hmember : effective.lookup property.1 with
    | none =>
      cases hdefault : property.2.get? "default" with
      | none => simp [fillProperty, hmember, hdefault]
      | some value => simp [fillProperty, hdefault, Value.lookup_assign]
    | some member =>
      cases member with
      | obj nested =>
        rw [fillProperty]
        dsimp only
        by_cases htype : isObjectSchema property.2 = true
        · rw [if_pos htype, if_pos (by exact htype), Value.lookup_assign, if_pos rfl]
        · rw [if_neg htype, if_neg (by exact htype), hmember]
      | null | bool _ | int _ | float _ | str _ | arr _ => simpa [fillProperty] using hmember
  · rw [if_neg hname]
    split
    · rw [Value.lookup_assign, if_neg hname]
    · split_ifs
      · rw [Value.lookup_assign, if_neg hname]
      · rfl
    · rfl

theorem ascending_applyDefaults (hconfig : (config.map Prod.fst).Pairwise (· < ·)) :
    ((applyDefaults fuel schema config).map Prod.fst).Pairwise (· < ·) := by
  cases fuel with
  | zero => exact hconfig
  | succ fuel =>
    rw [applyDefaults]
    generalize (schema.get "properties").members = properties
    induction properties generalizing config with
    | nil => exact hconfig
    | cons property rest ih =>
      rw [List.foldl_cons]
      apply ih
      split
      · exact Value.ascending_assign hconfig
      · split_ifs
        · exact Value.ascending_assign hconfig
        · exact hconfig
      · exact hconfig

section

variable (hschema : schema.WellFormed)

include hschema

theorem wellFormed_applyDefaults (hconfig : (Value.obj config).WellFormed) :
    (Value.obj (applyDefaults fuel schema config)).WellFormed := by
  induction fuel generalizing schema config with
  | zero => exact hconfig
  | succ fuel ih =>
    obtain ⟨hascending, hmembers⟩ := Value.wellFormed_obj_iff.mp hconfig
    refine Value.wellFormed_obj_iff.mpr ⟨ascending_applyDefaults hascending, ?_⟩
    intro key value hvalue
    rw [lookup_applyDefaults hschema] at hvalue
    cases hchild : property? schema key with
    | none =>
      rw [hchild] at hvalue
      exact hmembers key value hvalue
    | some child =>
      have hwell := wellFormed_property hschema hchild
      rw [hchild, Option.elim] at hvalue
      cases hmember : config.lookup key with
      | none =>
        rw [hmember] at hvalue
        exact wellFormed_of_get? hwell hvalue
      | some member =>
        have hold := hmembers key member hmember
        rw [hmember] at hvalue
        cases member with
        | obj nested =>
          rw [fillProperty] at hvalue
          split_ifs at hvalue
          · exact Option.some.inj hvalue ▸ ih hwell hold
          · exact Option.some.inj hvalue ▸ hold
        | null | bool _ | int _ | float _ | str _ | arr _ =>
          exact Option.some.inj hvalue ▸ hold

theorem applyDefaults_eq_iff (hconfig : (config.map Prod.fst).Pairwise (· < ·)) :
    applyDefaults (fuel + 1) schema config = config ↔
      ∀ name child, property? schema name = some child →
        fillProperty fuel child (config.lookup name) = config.lookup name := by
  constructor
  · intro heq name child hchild
    have hlookup := @lookup_applyDefaults fuel schema config hschema name
    rw [heq, hchild] at hlookup
    exact hlookup.symm
  · intro h
    refine Value.eq_of_lookup (ascending_applyDefaults hconfig) hconfig fun name => ?_
    rw [lookup_applyDefaults hschema]
    cases hchild : property? schema name with
    | none => rfl
    | some child => exact h name child hchild

theorem applyDefaults_eq_self_iff (hconfig : (Value.obj config).WellFormed)
    (hfuel : (Value.obj config).depth ≤ fuel) :
    applyDefaults fuel schema config = config ↔ Filled schema (.obj config) := by
  induction fuel generalizing schema config with
  | zero => simp [Value.depth] at hfuel
  | succ fuel ih =>
    rw [Value.depth, Nat.succ_le_succ_iff] at hfuel
    obtain ⟨hascending, hmembers⟩ := Value.wellFormed_obj_iff.mp hconfig
    have hobject : ∀ name child nested, property? schema name = some child →
        config.lookup name = some (.obj nested) →
          (applyDefaults fuel child nested = nested ↔ Filled child (.obj nested)) :=
      fun name child nested hchild hmember => ih (wellFormed_property hschema hchild)
        (hmembers name _ hmember) ((depth_of_lookup hmember).trans hfuel)
    rw [applyDefaults_eq_iff hschema hascending]
    constructor
    · intro h
      refine .intro ?_ ?_
      · intro name child hchild habsent
        have hfill := h name child hchild
        rwa [show config.lookup name = none from habsent, fillProperty] at hfill
      · intro name child nested hchild hmember htype
        have hfill := h name child hchild
        rw [show config.lookup name = some (.obj nested) from hmember, fillProperty,
          if_pos htype] at hfill
        exact (hobject name child nested hchild hmember).mp
          (Value.obj.inj (Option.some.inj hfill))
    · rintro ⟨hpresent, hnested⟩ name child hchild
      cases hmember : config.lookup name with
      | none => exact hpresent name child hchild hmember
      | some member =>
        cases member with
        | obj nested =>
          rw [fillProperty]
          split_ifs with htype
          · rw [(hobject name child nested hchild hmember).mpr
              (hnested name child nested hchild hmember htype)]
          · rfl
        | null | bool _ | int _ | float _ | str _ | arr _ => rfl

theorem applyDefaults_settled_iff {fuel second : Nat} (hconfig : (Value.obj config).WellFormed)
    (hfuel : (Value.obj config).depth ≤ fuel)
    (hsecond : (Value.obj (applyDefaults fuel schema config)).depth ≤ second) :
    applyDefaults second schema (applyDefaults fuel schema config) =
        applyDefaults fuel schema config ↔ ConfigSettled schema (.obj config) := by
  induction fuel generalizing schema config second with
  | zero => simp [Value.depth] at hfuel
  | succ fuel ih =>
    cases second with
    | zero => simp [Value.depth] at hsecond
    | succ second =>
      rw [Value.depth, Nat.succ_le_succ_iff] at hfuel hsecond
      obtain ⟨hascending, hmembers⟩ := Value.wellFormed_obj_iff.mp hconfig
      have hfilled : ∀ {name child}, property? schema name = some child →
          (applyDefaults (fuel + 1) schema config).lookup name =
            fillProperty fuel child (config.lookup name) := by
        intro name child hchild
        rw [lookup_applyDefaults hschema, hchild, Option.elim]
      have hdefault : ∀ name child nested, property? schema name = some child →
          config.lookup name = none → child.get? "default" = some (.obj nested) →
            (applyDefaults second child nested = nested ↔ Filled child (.obj nested)) := by
        intro name child nested hchild habsent hvalue
        have hwell := wellFormed_property hschema hchild
        have hlookup := hfilled hchild
        rw [habsent, fillProperty, hvalue] at hlookup
        exact applyDefaults_eq_self_iff hwell (wellFormed_of_get? hwell hvalue)
          ((depth_of_lookup hlookup).trans hsecond)
      have hobject : ∀ name child nested, property? schema name = some child →
          config.lookup name = some (.obj nested) → isObjectSchema child = true →
            (applyDefaults second child (applyDefaults fuel child nested) =
              applyDefaults fuel child nested ↔ ConfigSettled child (.obj nested)) := by
        intro name child nested hchild hmember htype
        have hlookup := hfilled hchild
        rw [hmember, fillProperty, if_pos htype] at hlookup
        exact ih (wellFormed_property hschema hchild) (hmembers name _ hmember)
          ((depth_of_lookup hmember).trans hfuel) ((depth_of_lookup hlookup).trans hsecond)
      rw [applyDefaults_eq_iff hschema (ascending_applyDefaults hascending)]
      constructor
      · intro h
        refine .intro ?_ ?_
        · intro name child nested hchild habsent hvalue htype
          have hfill := h name child hchild
          rw [hfilled hchild, show config.lookup name = none from habsent, fillProperty, hvalue,
            fillProperty, if_pos htype] at hfill
          exact (hdefault name child nested hchild habsent hvalue).mp
            (Value.obj.inj (Option.some.inj hfill))
        · intro name child nested hchild hmember htype
          have hfill := h name child hchild
          rw [hfilled hchild, show config.lookup name = some (.obj nested) from hmember,
            fillProperty, if_pos htype, fillProperty, if_pos htype] at hfill
          exact (hobject name child nested hchild hmember htype).mp
            (Value.obj.inj (Option.some.inj hfill))
      · rintro ⟨hdefaults, hnested⟩ name child hchild
        rw [hfilled hchild]
        cases hmember : config.lookup name with
        | none =>
          rw [fillProperty]
          cases hvalue : child.get? "default" with
          | none => exact hvalue
          | some value =>
            cases value with
            | obj nested =>
              rw [fillProperty]
              split_ifs with htype
              · rw [(hdefault name child nested hchild hmember hvalue).mpr
                  (hdefaults name child nested hchild hmember hvalue htype)]
              · rfl
            | null | bool _ | int _ | float _ | str _ | arr _ => rfl
        | some member =>
          cases member with
          | obj nested =>
            rw [fillProperty]
            split_ifs with htype
            · rw [fillProperty, if_pos htype, (hobject name child nested hchild hmember
                htype).mpr (hnested name child nested hchild hmember htype)]
            · rw [fillProperty, if_neg htype]
          | null | bool _ | int _ | float _ | str _ | arr _ => rfl

end

end Defaults

section Validation

variable {py : PythonRuntime} {schema config effective : Value}

theorem validateConfig_eq_ok (h : validateConfig py schema config = .ok effective) :
    ∃ members, config = .obj members ∧
      effective = .obj (applyDefaults config.depth schema members) ∧
      ensureDepthWithinLimit .configuration effective = .ok () ∧
      ensureEffectiveSize .configuration "configuration" effective = .ok () ∧
      validateInstance py (effective.depth + 1) schema effective "$" = .ok () := by
  cases config with
  | obj members =>
    simp only [validateConfig, bind_eq_ok, pure_eq_ok] at h
    obtain ⟨_, -, _, -, _, hdepth, _, hsize, _, hinstance, rfl⟩ := h
    exact ⟨members, rfl, rfl, hdepth, hsize, hinstance⟩
  | null | bool _ | int _ | float _ | str _ | arr _ => cases h

theorem validateConfig_effective_iff (hschema : schema.WellFormed) (hconfig : config.WellFormed)
    (h : validateConfig py schema config = .ok effective) :
    validateConfig py schema effective = .ok effective ↔ ConfigSettled schema config := by
  obtain ⟨members, rfl, heffective, hdepth, hsize, hinstance⟩ := validateConfig_eq_ok h
  rw [← applyDefaults_settled_iff hschema hconfig le_rfl le_rfl, ← heffective]
  constructor
  · intro hagain
    obtain ⟨again, hsame, hpass, -⟩ := validateConfig_eq_ok hagain
    obtain rfl := Value.obj.inj (heffective.symm.trans hsame)
    exact Value.obj.inj (hpass.symm.trans heffective)
  · intro hpass
    rw [heffective, validateConfig, ← heffective]
    dsimp only
    rw [hdepth, hsize, hpass, ← heffective, hdepth, hsize, hinstance]
    rfl

theorem checkImmutableFields_self (heffective : effective.WellFormed) (fields : List String) :
    checkImmutableFields py effective effective fields = .ok () := by
  rw [checkImmutableFields, List.forM_eq_forM]
  induction fields with
  | nil => rfl
  | cons field rest ih =>
    rw [List.forM_cons, if_neg, ih]
    · rfl
    · rw [pyEq_self (wellFormed_get heffective)]
      simp

variable {system : PackageSystem} {ownerUserId expectedConfigRevision : Nat}
  {targetPackageVersion : String}

theorem rebindInstance_iff (haccepted : validateConfigSchema py schema = .ok ())
    (heffective : effective.WellFormed) (hcurrent : system.binding.effectiveConfig = effective)
    (hmay : MayCarry system ownerUserId targetPackageVersion expectedConfigRevision schema) :
    system.rebindInstance py ownerUserId targetPackageVersion none expectedConfigRevision =
        .ok (schema, { system.binding with
          packageVersion := targetPackageVersion
          configRevision := expectedConfigRevision + 1 }) ↔
      validateConfig py schema effective = .ok effective := by
  obtain ⟨⟨current, howned⟩, ⟨target, htarget, rfl⟩, hrevision⟩ := hmay
  simp only [PackageSystem.rebindInstance, liftConfig, bind_eq_ok, pure_eq_ok, mapError_eq_ok,
    howned, htarget, Except.ok.injEq, PackageSystem.rebindConfig, hcurrent,
    PackageSystem.bindConfig, if_pos hrevision]
  constructor
  · rintro ⟨_, -, _, rfl, _, -, carried, hcarried, _, -, bound, hbound, hresult⟩
    subst hbound
    obtain ⟨-, hbinding⟩ := Prod.mk.inj hresult
    obtain rfl : carried = effective := congrArg (·.effectiveConfig) hbinding
    unfold carryForward at hcarried
    split at hcarried
    · cases hcarried
    · exact hcarried
  · intro hvalid
    refine ⟨current, rfl, target, rfl, (), haccepted, effective, by rw [hvalid]; rfl, (),
      checkImmutableFields_self heffective _, _, rfl, ?_⟩
    rw [← hcurrent]

end Validation

/-- For an accepted schema and a configuration that validates, a second validation, and a
carry-forward to a version of the same schema, keep the effective configuration exactly when
every default object that was filled in came filled. -/
theorem effective_config_fixpoint {py : PythonRuntime} {schema config effective : Value}
    (hschema : schema.WellFormed) (hconfig : config.WellFormed)
    (haccepted : validateConfigSchema py schema = .ok ())
    (heffective : validateConfig py schema config = .ok effective) :
    (validateConfig py schema effective = .ok effective ↔ ConfigSettled schema config) ∧
      ∀ (system : PackageSystem) (ownerUserId : Nat) (targetPackageVersion : String)
        (expectedConfigRevision : Nat), system.binding.effectiveConfig = effective →
          MayCarry system ownerUserId targetPackageVersion expectedConfigRevision schema →
            (system.rebindInstance py ownerUserId targetPackageVersion none
                expectedConfigRevision = .ok (schema, { system.binding with
                  packageVersion := targetPackageVersion
                  configRevision := expectedConfigRevision + 1 }) ↔
              ConfigSettled schema config) := by
  have hfixpoint := validateConfig_effective_iff hschema hconfig heffective
  refine ⟨hfixpoint, ?_⟩
  intro system ownerUserId targetPackageVersion expectedConfigRevision hcurrent hmay
  have hwell : effective.WellFormed := by
    obtain ⟨members, rfl, rfl, -⟩ := validateConfig_eq_ok heffective
    exact wellFormed_applyDefaults hschema hconfig
  rw [rebindInstance_iff haccepted hwell hcurrent hmay, hfixpoint]

/-- A runtime for schemas without numeric, text and format keywords. -/
def plainPython : PythonRuntime where
  whole _ := none
  less _ _ := false
  isMultiple _ _ := some true
  compiles _ := true
  search _ _ := false
  fullmatch _ _ := false
  reads _ _ := false
  copyDepth := 200

def retriesSchema : Value := .obj [("default", .int 1), ("type", .str "integer")]

def limitsSchema (default : List (String × Value)) : Value :=
  .obj [("properties", .obj [("limits", .obj [("default", .obj default),
    ("properties", .obj [("retries", retriesSchema)]), ("type", .str "object")])]),
    ("type", .str "object")]

theorem lookup_single {key name : String} {value found : Value}
    (h : List.lookup name [(key, value)] = some found) : name = key ∧ found = value := by
  rw [List.lookup_cons] at h
  by_cases hname : name = key
  · rw [hname, beq_self_eq_true] at h
    exact ⟨hname, (Option.some.inj h).symm⟩
  · rw [beq_false_of_ne hname] at h
    cases h

theorem settled_limitsSchema : ConfigSettled (limitsSchema [("retries", .int 2)]) (.obj []) := by
  refine .intro ?_ ?_
  · intro name child nested hchild _ hdefault _
    have hlimits : (limitsSchema [("retries", .int 2)]).get "properties" =
      .obj [("limits", .obj [("default", .obj [("retries", .int 2)]),
        ("properties", .obj [("retries", retriesSchema)]), ("type", .str "object")])] := rfl
    rw [property?, hlimits] at hchild
    obtain ⟨rfl, rfl⟩ := lookup_single hchild
    obtain rfl : nested = [("retries", .int 2)] :=
      (Value.obj.inj (Option.some.inj hdefault)).symm
    refine .intro ?_ ?_
    · intro name child hretries habsent
      obtain ⟨rfl, rfl⟩ := lookup_single hretries
      cases habsent
    · intro name child inner _ hmember _
      obtain ⟨-, ⟨⟩⟩ := lookup_single hmember
  · intro name child nested _ hmember _
    cases hmember

theorem effective_config_fixpoint_limits :
    (validateConfig plainPython (limitsSchema [("retries", .int 2)])
        (.obj [("limits", .obj [("retries", .int 2)])]) =
          .ok (.obj [("limits", .obj [("retries", .int 2)])]) ↔
      ConfigSettled (limitsSchema [("retries", .int 2)]) (.obj [])) ∧
    ConfigSettled (limitsSchema [("retries", .int 2)]) (.obj []) :=
  ⟨(effective_config_fixpoint (by decide +kernel) (by decide +kernel) (by decide +kernel)
    (by decide +kernel)).1, settled_limitsSchema⟩

/-- An empty default is filled only by the second validation. -/
theorem default_not_settled : ¬ ∀ (py : PythonRuntime) (schema config effective : Value),
    schema.WellFormed → config.WellFormed → validateConfigSchema py schema = .ok () →
      validateConfig py schema config = .ok effective →
        validateConfig py schema effective = .ok effective := by
  intro h
  have hagain := h plainPython (limitsSchema []) (.obj []) (.obj [("limits", .obj [])])
    (by decide +kernel) (by decide +kernel) (by decide +kernel) (by decide +kernel)
  exact absurd hagain (by decide +kernel)

end NervOS
