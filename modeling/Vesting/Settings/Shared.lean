/-
# Shared settings

Settings that are used where none are given. They are made from the environment when they
are first asked for, and kept until they are replaced; settings that were made anew are
told apart from those before, even if they are equal.
-/

import Vesting.Settings.Environment

namespace Vesting.Settings

/-- The shared settings, once they are made, and how often they have been made. -/
structure Shared where
  held : Option Settings
  edition : Nat

namespace Shared

def initial : Shared := ⟨none, 0⟩

/-- Replace the settings; nothing in their place has them made when they are asked for. -/
def replace (shared : Shared) : Option Settings → Shared
  | none => { shared with held := none }
  | some s => ⟨some s, shared.edition + 1⟩

/-- The settings. A failure to make them leaves everything as it is. -/
def get (shared : Shared) (env : Environment) : Except Failure (Settings × Shared) :=
  match shared.held with
  | some s => .ok (s, shared)
  | none => (ofEnvironment env).map fun s => (s, shared.replace (some s))

/-- Change the version in the settings, which are made for that if need be. -/
def setVersion (shared : Shared) (env : Environment) (version : Value) :
    Except Failure Shared :=
  (shared.get env).map fun (s, shared) =>
    { shared with held := some { s with tree := { s.tree with version := version } } }

/-- Once asked for, the settings do not depend on the environment. -/
theorem get_of_get {shared after : Shared} {env later : Environment} {s : Settings}
    (h : shared.get env = .ok (s, after)) : after.get later = .ok (s, after) := by
  unfold get at h
  cases held : shared.held with
  | some t =>
    simp only [held, Except.ok.injEq, Prod.mk.injEq] at h
    obtain ⟨rfl, rfl⟩ := h
    simp [get, held]
  | none =>
    simp only [held] at h
    cases made : ofEnvironment env with
    | error e => simp [made, Except.map] at h
    | ok t =>
      simp only [made, Except.map, Except.ok.injEq, Prod.mk.injEq] at h
      obtain ⟨rfl, rfl⟩ := h
      simp [get, replace]

end Shared

end Vesting.Settings
