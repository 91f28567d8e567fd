/-
# Overriding has one meaning

What the environment says takes effect in two ways: it is read as settings that are given in
part, with defaults for the rest, or it is assigned key by key to a copy of settings that are
held. Main statement: both come to the same. Overriding fails exactly if the version that is
given is no whole number; otherwise just the values are replaced whose variables are set and
not empty; doing it again changes nothing; the environment by itself makes what it makes of
the defaults; and whatever is held stays as it is, for everyone who holds it.

Settings are of free form, so that all of this is said of settings with values of any kind.
-/

import Vesting.Settings.InPlace

namespace Vesting

variable {env : Environment} {o : Overrides} {s t : Settings} {name : String}

/-! ## What a variable says -/

/-- What becomes of a value under a variable: unless it is set and not empty, nothing. -/
def Environment.Gives (env : Environment) (name : String) (reads : String → Value → Prop)
    (old new : Value) : Prop :=
  match env.get? name with
  | none => new = old
  | some text => reads text new

/-- A variable that gives a value gives the same in place of it. -/
theorem Environment.Gives.again {reads : String → Value → Prop} {old new : Value}
    (gives : env.Gives name reads old new) : env.Gives name reads new new := by
  unfold Environment.Gives at gives ⊢
  split at gives
  · rfl
  · exact gives

/-- A variable leaves no choice, if no text is read as two values. -/
theorem Environment.Gives.unique {reads : String → Value → Prop} {old new other : Value}
    (single : ∀ text v w, reads text v → reads text w → v = w)
    (gives : env.Gives name reads old new) (also : env.Gives name reads old other) :
    new = other := by
  unfold Environment.Gives at gives also
  cases given : env.get? name with
  | none =>
      simp only [given] at gives also
      rw [gives, also]
  | some text =>
      simp only [given] at gives also
      exact single text new other gives also

/-- Settings with the values replaced that the environment gives: of the version the number
that its text is read as, of the audits whether the text is the word `true`, and of all others
the text itself. -/
structure Settings.OverriddenBy (env : Environment) (s t : Settings) : Prop where
  version : env.Gives "ROOTLOCK_TREE_VERSION"
    (fun text v => ∃ n : Int, Text.readNumber text = .ok n ∧ v = .int n)
    s.tree.version t.tree.version
  outputDirectory : env.Gives "ROOTLOCK_OUTPUT_DIR" (fun text v => v = .text text)
    s.tree.outputDirectory t.tree.outputDirectory
  strict : env.Gives "ROOTLOCK_STRICT_MODE" (fun text v => v = .bool (text.toLower == "true"))
    s.tree.strict t.tree.strict
  level : env.Gives "ROOTLOCK_LOG_LEVEL" (fun text v => v = .text text) s.log.level t.log.level
  file : env.Gives "ROOTLOCK_LOG_FILE" (fun text v => v = .text text) s.log.file t.log.file
  fileName : t.tree.fileName = s.tree.fileName
  extra : t.extra = s.extra

theorem Settings.OverriddenBy.again (overridden : s.OverriddenBy env t) :
    t.OverriddenBy env t where
  version := overridden.version.again
  outputDirectory := overridden.outputDirectory.again
  strict := overridden.strict.again
  level := overridden.level.again
  file := overridden.file.again
  fileName := rfl
  extra := rfl

theorem Settings.OverriddenBy.unique {u : Settings} (overridden : s.OverriddenBy env t)
    (also : s.OverriddenBy env u) : t = u := by
  have copied (text : String) (v w : Value) (read : v = .text text) (other : w = .text text) :
      v = w := read.trans other.symm
  obtain ⟨⟨version, directory, fileName, strict⟩, ⟨level, file⟩, extra⟩ := t
  obtain ⟨⟨version', directory', fileName', strict'⟩, ⟨level', file'⟩, extra'⟩ := u
  obtain rfl : version = version' := by
    refine overridden.version.unique ?_ also.version
    rintro text v w ⟨n, read, rfl⟩ ⟨m, other, rfl⟩
    rw [read] at other
    rw [Except.ok.inj other]
  obtain rfl : directory = directory' :=
    overridden.outputDirectory.unique copied also.outputDirectory
  obtain rfl : strict = strict' :=
    overridden.strict.unique (fun _ _ _ read other => read.trans other.symm) also.strict
  obtain rfl : level = level' := overridden.level.unique copied also.level
  obtain rfl : file = file' := overridden.file.unique copied also.file
  obtain rfl : fileName = fileName' := overridden.fileName.trans also.fileName.symm
  obtain rfl : extra = extra' := overridden.extra.trans also.extra.symm
  rfl

/-! ## What is assigned -/

namespace Overrides

/-- Assigning what is said replaces those values and no others. -/
theorem apply_eq (o : Overrides) (s : Settings) : o.apply s =
    { tree := {
        version := (o.version.map .int).getD s.tree.version
        outputDirectory := (o.outputDirectory.map .text).getD s.tree.outputDirectory
        fileName := s.tree.fileName
        strict := (o.strict.map .bool).getD s.tree.strict }
      log := {
        level := (o.level.map .text).getD s.log.level
        file := (o.file.map .text).getD s.log.file }
      extra := s.extra } := by
  obtain ⟨version, directory, strict, level, file⟩ := o
  cases version <;> cases directory <;> cases strict <;> cases level <;> cases file <;> rfl

theorem fields_eq_nil_iff : o.fields = [] ↔ o.treeFields = [] ∧ o.logFields = [] := by
  simp [fields, part]

/-- Where nothing is overridden the settings stay as they are. -/
theorem apply_of_isEmpty (nothing : o.isEmpty = true) (s : Settings) : o.apply s = s := by
  obtain ⟨tree, log⟩ := fields_eq_nil_iff.1 (List.isEmpty_iff.1 nothing)
  rw [apply, tree, log]
  rfl

/-! ## What is read -/

theorem readSection_part (o : Overrides) :
    Settings.readSection "TreeConfig" TreeSettings.keys (Fields.get? o.fields "tree") =
        .ok o.treeFields ∧
      Settings.readSection "LoggingConfig" LogSettings.keys (Fields.get? o.fields "logging") =
        .ok o.logFields ∧
      Fields.get? o.fields "extra" = none := by
  obtain ⟨version, directory, strict, level, file⟩ := o
  cases version <;> cases directory <;> cases strict <;> cases level <;> cases file <;>
    exact ⟨rfl, rfl, rfl⟩

/-- A section that is read from what is said has defaults for the rest, and so has a default
section that it is assigned to. -/
theorem ofFields_treeFields (o : Overrides) :
    TreeSettings.ofFields o.treeFields = o.treeFields.foldl TreeSettings.assign .default := by
  obtain ⟨version, directory, strict, level, file⟩ := o
  cases version <;> cases directory <;> cases strict <;> rfl

theorem ofFields_logFields (o : Overrides) :
    LogSettings.ofFields o.logFields = o.logFields.foldl LogSettings.assign .default := by
  obtain ⟨version, directory, strict, level, file⟩ := o
  cases level <;> cases file <;> rfl

/-- Settings that are given in part are the defaults with that part assigned. -/
theorem ofValue_fields (o : Overrides) :
    Settings.ofValue (.object o.fields) = .ok (o.apply .default) := by
  obtain ⟨tree, log, extra⟩ := readSection_part o
  have assigned : o.apply .default =
      ⟨.ofFields o.treeFields, .ofFields o.logFields, .object []⟩ := by
    rw [ofFields_treeFields, ofFields_logFields]
    rfl
  simp only [Settings.ofValue, tree, log, extra, assigned]
  rfl

/-! ## What the environment says -/

/-- What the environment says, with the version that it has been read as. -/
def said (env : Environment) (version : Option Int) : Overrides where
  version := version
  outputDirectory := env.get? "ROOTLOCK_OUTPUT_DIR"
  strict := (env.get? "ROOTLOCK_STRICT_MODE").map (·.toLower == "true")
  level := env.get? "ROOTLOCK_LOG_LEVEL"
  file := env.get? "ROOTLOCK_LOG_FILE"

/-- Only the version can be at fault. -/
theorem ofEnvironment_eq (env : Environment) : ofEnvironment env =
    (readVersion (env.get? "ROOTLOCK_TREE_VERSION")).map (said env) := by
  unfold ofEnvironment
  cases readVersion (env.get? "ROOTLOCK_TREE_VERSION") <;> rfl

/-- The version is what its text is read as, if there is one. -/
theorem readVersion_cases (given : Option String) :
    (∃ (text : String) (fault : Text.WholeFault), given = some text ∧
        Text.readNumber text = .error fault ∧ readVersion given = .error (.notWhole text fault)) ∨
      (∃ (text : String) (n : Int), given = some text ∧ Text.readNumber text = .ok n ∧
        readVersion given = .ok (some n)) ∨
      given = none ∧ readVersion given = .ok none := by
  cases given with
  | none => exact Or.inr (Or.inr ⟨rfl, rfl⟩)
  | some text =>
      cases read : Text.readNumber text with
      | error fault =>
          refine Or.inl ⟨text, fault, rfl, read, ?_⟩
          rw [readVersion, read]
          rfl
      | ok n =>
          refine Or.inr (Or.inl ⟨text, n, rfl, read, ?_⟩)
          rw [readVersion, read]
          rfl

end Overrides

theorem Environment.gives_getD {reads : String → Value → Prop} {write : String → Value}
    (written : ∀ text, reads text (write text)) (old : Value) :
    env.Gives name reads old (((env.get? name).map write).getD old) := by
  unfold Environment.Gives
  cases env.get? name with
  | none => rfl
  | some text => exact written text

theorem Environment.gives_text (env : Environment) (name : String) (old : Value) :
    env.Gives name (fun text v => v = .text text) old (((env.get? name).map .text).getD old) := by
  refine gives_getD ?_ old
  intro text
  rfl

theorem Settings.overriddenBy_said {version : Option Int}
    (read : Overrides.readVersion (env.get? "ROOTLOCK_TREE_VERSION") = .ok version)
    (s : Settings) : s.OverriddenBy env ((Overrides.said env version).apply s) := by
  rw [Overrides.apply_eq]
  refine ⟨?_, env.gives_text _ _, ?_, env.gives_text _ _, env.gives_text _ _, rfl, rfl⟩
  · unfold Environment.Gives
    rcases Overrides.readVersion_cases (env.get? "ROOTLOCK_TREE_VERSION") with
      ⟨text, fault, -, -, failed⟩ | ⟨text, n, given, number, done⟩ | ⟨given, done⟩
    · rw [failed] at read
      cases read
    · rw [done] at read
      obtain rfl := Except.ok.inj read
      rw [given]
      exact ⟨n, number, rfl⟩
    · rw [done] at read
      obtain rfl := Except.ok.inj read
      rw [given]
      rfl
  · simp only [Overrides.said, Option.map_map]
    refine Environment.gives_getD ?_ _
    intro text
    rfl

namespace Settings

/-- Overriding fails for the version and for nothing else. -/
theorem within_eq_error_iff {failure : Failure} : s.within env = .error failure ↔
    ∃ (text : String) (fault : Text.WholeFault), env.get? "ROOTLOCK_TREE_VERSION" = some text ∧
      Text.readNumber text = .error fault ∧ failure = .notWhole text fault := by
  rw [within, Overrides.ofEnvironment_eq]
  rcases Overrides.readVersion_cases (env.get? "ROOTLOCK_TREE_VERSION") with
    ⟨text, fault, given, number, failed⟩ | ⟨text, n, given, number, done⟩ | ⟨given, done⟩
  · rw [failed, given]
    constructor
    · rintro ⟨⟩
      exact ⟨text, fault, rfl, number, rfl⟩
    · rintro ⟨text', fault', same, number', rfl⟩
      obtain rfl := Option.some.inj same
      rw [number] at number'
      cases number'
      rfl
  · rw [done, given]
    refine ⟨nofun, ?_⟩
    rintro ⟨text', fault, same, number', -⟩
    obtain rfl := Option.some.inj same
    rw [number] at number'
    cases number'
  · rw [done, given]
    exact ⟨nofun, nofun⟩

/-- What overriding gives are the settings with just the given values replaced. -/
theorem within_eq_ok_iff : s.within env = .ok t ↔ s.OverriddenBy env t := by
  constructor
  · intro done
    rw [within, Overrides.ofEnvironment_eq] at done
    cases read : Overrides.readVersion (env.get? "ROOTLOCK_TREE_VERSION") with
    | error failure =>
        rw [read] at done
        cases done
    | ok version =>
        rw [read] at done
        cases done
        exact overriddenBy_said read s
  · intro overridden
    have version := overridden.version
    unfold Environment.Gives at version
    cases read : Overrides.readVersion (env.get? "ROOTLOCK_TREE_VERSION") with
    | error failure =>
        rcases Overrides.readVersion_cases (env.get? "ROOTLOCK_TREE_VERSION") with
          ⟨text, fault, given, number, -⟩ | ⟨_, _, _, _, done⟩ | ⟨_, done⟩
        · rw [given] at version
          obtain ⟨n, done, -⟩ := version
          rw [number] at done
          cases done
        · rw [done] at read
          cases read
        · rw [done] at read
          cases read
    | ok version =>
        rw [within, Overrides.ofEnvironment_eq, read]
        exact congrArg Except.ok ((overriddenBy_said read s).unique overridden)

end Settings

end Vesting
