/-
Annotated properties keep their value over every sequence of updates and rebinds, as long as
every annotation is at or below an annotated property of the root.
-/
import NervOS.Application.PackageInstallation
import NervOS.Relational.Fallible

namespace NervOS

open Json Relational

def childSchema? (schema : Value) : Step → Option Value
  | .member name => (schema.get "properties").get? name
  | .item _ => schema.get? "items"

/-- The path ends at a property that the schema annotates, at whatever depth. -/
def Annotates (schema : Value) : List Step → Prop
  | [] => False
  | [.member name] => ∃ child ∈ childSchema? schema (.member name),
      (child.get "x-nervos-immutable").isTrue = true
  | step :: rest => ∃ child ∈ childSchema? schema step, Annotates child rest

/-- Every annotated property keeps its value, in every item where it is inside an array. -/
def ConfigChange.KeepsImmutable (change : ConfigChange) : Prop :=
  ∀ path, Annotates change.schema path → change.after.at? path = change.before.at? path

def AnnotatesFromRoot (schema : Value) : Prop :=
  ∀ path, Annotates schema path →
    ∃ name rest, path = .member name :: rest ∧ name ∈ extractImmutablePropertyNames schema

/-- No annotated property of the root goes from a value to another one that Python calls
equal: null and absent, a boolean and an integer, an integer and a float. -/
def NoLookalike (py : PythonRuntime) (schema current effective : Value) : Prop :=
  ∀ name ∈ extractImmutablePropertyNames schema,
    (current.get name).pyEq py.whole (effective.get name) = true →
      effective.get? name = current.get? name

instance (py : PythonRuntime) (schema current effective : Value) :
    Decidable (NoLookalike py schema current effective) :=
  inferInstanceAs (Decidable (∀ name ∈ extractImmutablePropertyNames schema, _))

/-- The condition of one call, on the schema in force and on what is submitted or carried. -/
def Guarded (py : PythonRuntime) (schema current config : Value) : Prop :=
  AnnotatesFromRoot schema ∧
    ∀ effective, validateConfig py schema config = .ok effective →
      NoLookalike py schema current effective

/-- The condition of one step. -/
def CallGuarded (py : PythonRuntime) (system : PackageSystem) : PackageOp → Prop
  | .updateConfig _ config _ =>
    ∀ detail ∈ system.version? system.binding.packageVersion,
      Guarded py detail.configSchema system.binding.effectiveConfig config
  | .rebind _ target config _ =>
    ∀ detail ∈ system.version? target,
      Guarded py detail.configSchema system.binding.effectiveConfig
        (config.getD system.binding.effectiveConfig)
  | .registry _ => True

section Calls

variable {py : PythonRuntime} {system : PackageSystem}

theorem pyEq_of_checkImmutableFields {current effective : Value} {fields : List String}
    (h : checkImmutableFields py current effective fields = .ok ()) :
    ∀ name ∈ fields, (current.get name).pyEq py.whole (effective.get name) = true ∨
      (current.get? name = none ∧ effective.get? name = none) := by
  induction fields with
  | nil => simp
  | cons field rest ih =>
    rw [checkImmutableFields, List.forM_eq_forM, List.forM_cons, bind_eq_ok] at h
    obtain ⟨_, hfield, hrest⟩ := h
    intro name hname
    rcases List.mem_cons.mp hname with rfl | hmem
    · by_cases hpresent : (current.get? name).isSome || (effective.get? name).isSome
      · left
        by_contra hdiffers
        rw [if_pos (by simp [hpresent, hdiffers])] at hfield
        cases hfield
      · right
        simpa using hpresent
    · exact ih hrest name hmem

theorem keepsImmutable_of_guarded {schema current config effective : Value}
    (hguarded : Guarded py schema current config)
    (hvalid : validateConfig py schema config = .ok effective)
    (hchecked : checkImmutableFields py current effective
      (extractImmutablePropertyNames schema) = .ok ()) :
    (ConfigChange.mk schema current effective).KeepsImmutable := by
  intro path hannotated
  obtain ⟨name, rest, rfl, hname⟩ := hguarded.1 path hannotated
  have hkept : effective.get? name = current.get? name := by
    rcases pyEq_of_checkImmutableFields hchecked name hname with hequal | ⟨hcurrent, heffective⟩
    · exact hguarded.2 effective hvalid name hname hequal
    · rw [hcurrent, heffective]
  simp only [Value.at?_cons, Value.step?, hkept]

variable {target : String}

theorem carryForward_eq_ok {outcome : Except ConfigError Value} {effective : Value}
    (h : carryForward target outcome = .ok effective) :
    outcome = .ok effective := by
  unfold carryForward at h
  split at h
  · cases h
  · exact h

variable {detail : PackageVersion}

theorem owned_eq_ok {ownerUserId : Nat} (h : system.owned ownerUserId = .ok detail) :
    system.version? system.binding.packageVersion = some detail := by
  unfold PackageSystem.owned at h
  by_cases howner : ownerUserId = system.binding.ownerUserId
  · rw [if_pos howner] at h
    cases hversion : system.version? system.binding.packageVersion with
    | none =>
      rw [hversion] at h
      cases h
    | some version =>
      rw [hversion] at h
      exact congrArg some (Except.ok.inj h)
  · rw [if_neg howner] at h
    cases h

theorem rebindTarget_eq_ok (h : system.rebindTarget target = .ok detail) :
    system.version? target = some detail := by
  unfold PackageSystem.rebindTarget at h
  split at h
  · cases h
  · split_ifs at h
    obtain rfl := Except.ok.inj h
    assumption

variable {binding : PackageInstance}

theorem bindConfig_eq_ok {packageVersion : String} {effective : Value}
    {expectedConfigRevision : Nat}
    (h : system.bindConfig packageVersion effective expectedConfigRevision = .ok binding) :
    binding.effectiveConfig = effective := by
  unfold PackageSystem.bindConfig at h
  split_ifs at h
  obtain rfl := Except.ok.inj h
  rfl

variable {ownerUserId expectedConfigRevision : Nat}

theorem updateInstanceConfig_eq_ok {config : Value} {schema : Value}
    (h : system.updateInstanceConfig py ownerUserId config expectedConfigRevision =
      .ok (schema, binding)) :
    ∃ detail ∈ system.version? system.binding.packageVersion, schema = detail.configSchema ∧
      validateConfig py schema config = .ok binding.effectiveConfig ∧
      checkImmutableFields py system.binding.effectiveConfig binding.effectiveConfig
        (extractImmutablePropertyNames schema) = .ok () := by
  simp only [PackageSystem.updateInstanceConfig, liftConfig, bind_eq_ok, pure_eq_ok,
    mapError_eq_ok] at h
  obtain ⟨detail, howned, _, -, effective, hvalid, _, hchecked, updated, hbound, hresult⟩ := h
  obtain ⟨hversion, rfl, heffective⟩ : system.version? system.binding.packageVersion =
      some detail ∧ schema = detail.configSchema ∧ binding.effectiveConfig = effective := by
    obtain ⟨rfl, rfl⟩ := Prod.mk.inj hresult
    exact ⟨owned_eq_ok howned, rfl, bindConfig_eq_ok hbound⟩
  subst heffective
  exact ⟨detail, hversion, rfl, hvalid, hchecked⟩

theorem rebindInstance_eq_ok {config : Option Value} {schema : Value}
    (h : system.rebindInstance py ownerUserId target config expectedConfigRevision =
      .ok (schema, binding)) :
    ∃ detail ∈ system.version? target, schema = detail.configSchema ∧
      validateConfig py schema (config.getD system.binding.effectiveConfig) =
        .ok binding.effectiveConfig ∧
      checkImmutableFields py system.binding.effectiveConfig binding.effectiveConfig
        (extractImmutablePropertyNames schema) = .ok () := by
  simp only [PackageSystem.rebindInstance, liftConfig, bind_eq_ok, pure_eq_ok,
    mapError_eq_ok] at h
  obtain ⟨_, -, detail, htarget, _, -, effective, hconfig, _, hchecked, updated, hbound,
    hresult⟩ := h
  obtain ⟨rfl, heffective⟩ : schema = detail.configSchema ∧
      binding.effectiveConfig = effective := by
    obtain ⟨rfl, rfl⟩ := Prod.mk.inj hresult
    exact ⟨rfl, bindConfig_eq_ok hbound⟩
  subst heffective
  refine ⟨detail, rebindTarget_eq_ok htarget, rfl, ?_, hchecked⟩
  cases config with
  | some config => exact hconfig
  | none => exact carryForward_eq_ok hconfig

theorem keepsImmutable_exec {op : PackageOp} (hguarded : CallGuarded py system op)
    (h : ∀ change ∈ system.changes, change.KeepsImmutable) :
    ∀ change ∈ (system.exec py op).changes, change.KeepsImmutable := by
  cases op with
  | updateConfig ownerUserId config expectedConfigRevision =>
    change ∀ change ∈ (system.succeed _).changes, change.KeepsImmutable
    cases hresult : system.updateInstanceConfig py ownerUserId config
        expectedConfigRevision with
    | error error => exact h
    | ok result =>
      obtain ⟨schema, binding⟩ := result
      obtain ⟨detail, hversion, rfl, hvalid, hchecked⟩ := updateInstanceConfig_eq_ok hresult
      exact List.forall_mem_cons.mpr
        ⟨keepsImmutable_of_guarded (hguarded detail hversion) hvalid hchecked, h⟩
  | rebind ownerUserId target config expectedConfigRevision =>
    change ∀ change ∈ (system.succeed _).changes, change.KeepsImmutable
    cases hresult : system.rebindInstance py ownerUserId target config
        expectedConfigRevision with
    | error error => exact h
    | ok result =>
      obtain ⟨schema, binding⟩ := result
      obtain ⟨detail, hversion, rfl, hvalid, hchecked⟩ := rebindInstance_eq_ok hresult
      exact List.forall_mem_cons.mpr
        ⟨keepsImmutable_of_guarded (hguarded detail hversion) hvalid hchecked, h⟩
  | registry versions => exact h

end Calls

/-- In every sequence of calls that are guarded, every annotated property keeps its value in
every call that succeeded. -/
theorem immutable_configuration {py : PythonRuntime} {versions : List PackageVersion}
    {binding : PackageInstance} {system : PackageSystem}
    (h : (packageInstances py versions binding).ReachableAlong (CallGuarded py) system) :
    ∀ change ∈ system.changes, change.KeepsImmutable := by
  apply h.invariant
  · exact List.forall_mem_nil _
  · intro system op hkept hguarded
    exact keepsImmutable_exec hguarded hkept

/-- A runtime for configurations without floats, patterns and formats. -/
def samplePython : PythonRuntime where
  whole _ := none
  less _ _ := false
  isMultiple _ _ := some true
  compiles _ := true
  search _ _ := false
  fullmatch _ _ := false
  reads _ _ := false
  copyDepth := 200

def sampleObjectSchema (name : String) (child : Value) : Value :=
  .obj [("properties", .obj [(name, child)]), ("type", .str "object")]

/-- An annotated text. -/
def sampleImmutable : Value :=
  .obj [("type", .str "string"), ("x-nervos-immutable", .bool true)]

/-- The annotation is on a property of a property. -/
def nestedSchema : Value :=
  sampleObjectSchema "account" (sampleObjectSchema "id" sampleImmutable)

def nestedConfig (id : String) : Value :=
  .obj [("account", .obj [("id", .str id)])]

def sampleInstances (schema config : Value) : Machine PackageSystem PackageOp :=
  packageInstances samplePython [⟨"1.0.0", true, true, schema⟩] ⟨1, "1.0.0", config, 1⟩

def sampleInstancesRun (schema config : Value) (ops : List PackageOp) : PackageSystem :=
  (sampleInstances schema config).run ops (sampleInstances schema config).init

theorem sampleInstancesRun_reachable (schema config : Value) (ops : List PackageOp) :
    (sampleInstances schema config).Reachable (sampleInstancesRun schema config ops) :=
  ⟨ops, rfl⟩

theorem annotatesFromRoot_sample (name : String) :
    AnnotatesFromRoot (sampleObjectSchema name sampleImmutable) := by
  intro path hannotated
  have hextracted :
      extractImmutablePropertyNames (sampleObjectSchema name sampleImmutable) = [name] := rfl
  have hchild : ∀ step child,
      childSchema? (sampleObjectSchema name sampleImmutable) step = some child →
        step = .member name := by
    intro step child h
    cases step with
    | item index => cases h
    | member key =>
      change List.lookup key [(name, sampleImmutable)] = some child at h
      by_cases hkey : key = name
      · rw [hkey]
      · rw [List.lookup_cons, beq_false_of_ne hkey] at h
        cases h
  cases path with
  | nil => exact hannotated.elim
  | cons step rest =>
    obtain ⟨child, hmem⟩ : ∃ child,
        childSchema? (sampleObjectSchema name sampleImmutable) step = some child := by
      cases step <;> cases rest <;> exact ⟨_, hannotated.choose_spec.1⟩
    exact ⟨name, rest, by rw [hchild step child hmem], by rw [hextracted]; simp⟩

def flatSchema : Value := sampleObjectSchema "id" sampleImmutable

def flatConfig : Value := .obj [("id", .str "a")]

/-- An update that repeats the annotated text. -/
def repeatedUpdate : List PackageOp := [.updateConfig 1 flatConfig 1]

theorem repeatedUpdate_guarded :
    (sampleInstances flatSchema flatConfig).ReachableAlong (CallGuarded samplePython)
      (sampleInstancesRun flatSchema flatConfig repeatedUpdate) := by
  have hvalid : validateConfig samplePython flatSchema flatConfig = .ok flatConfig := by
    decide +kernel
  have hguarded : Guarded samplePython flatSchema flatConfig flatConfig := by
    refine ⟨annotatesFromRoot_sample "id", ?_⟩
    intro effective heffective
    obtain rfl := Except.ok.inj (hvalid.symm.trans heffective)
    decide +kernel
  refine ⟨repeatedUpdate, ⟨?_, trivial⟩, rfl⟩
  intro detail hdetail
  obtain rfl := Option.some.inj hdetail
  exact hguarded

theorem immutable_configuration_repeatedUpdate :
    (sampleInstancesRun flatSchema flatConfig repeatedUpdate).changes.length = 1 ∧
      ∀ change ∈ (sampleInstancesRun flatSchema flatConfig repeatedUpdate).changes,
        change.KeepsImmutable :=
  ⟨by decide +kernel, immutable_configuration repeatedUpdate_guarded⟩

/-- An annotated property of a property is replaced by a successful update. -/
theorem nestedImmutable_replaced :
    validateConfigSchema samplePython nestedSchema = .ok () ∧
      (sampleInstances nestedSchema (nestedConfig "a")).Reachable
        (sampleInstancesRun nestedSchema (nestedConfig "a")
          [.updateConfig 1 (nestedConfig "b") 1]) ∧
      ¬ ∀ change ∈ (sampleInstancesRun nestedSchema (nestedConfig "a")
          [.updateConfig 1 (nestedConfig "b") 1]).changes, change.KeepsImmutable := by
  refine ⟨by decide +kernel, sampleInstancesRun_reachable _ _ _, ?_⟩
  intro h
  have hchanges : (sampleInstancesRun nestedSchema (nestedConfig "a")
      [.updateConfig 1 (nestedConfig "b") 1]).changes =
        [⟨nestedSchema, nestedConfig "a", nestedConfig "b"⟩] := by decide +kernel
  rw [hchanges, List.forall_mem_singleton] at h
  have hkept := h [.member "account", .member "id"]
    ⟨sampleObjectSchema "id" sampleImmutable, rfl, sampleImmutable, rfl, rfl⟩
  exact absurd hkept (by decide +kernel)

end NervOS
