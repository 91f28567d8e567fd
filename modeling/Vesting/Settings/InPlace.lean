/-
# Settings that are held in places

Settings are handed around by the places that their sections stand in. Whoever assigns a value
to a key changes the section for everyone who holds it, and two settings may hold the same
section. So settings are copied before the environment overrides them, and only the copy is
assigned to; where nothing is overridden, the settings themselves are given back.
-/

import Vesting.Settings.Environment

namespace Vesting.Settings

/-- Settings as they are held: the places of their sections, and what else is given. -/
structure Held where
  tree : Nat
  log : Nat
  extra : Value

/-- The sections in all places. -/
structure Places where
  trees : List TreeSettings
  logs : List LogSettings

/-- The settings that are held, as they are by now. -/
def Places.view (p : Places) (h : Held) : Settings :=
  ⟨p.trees.getD h.tree .default, p.logs.getD h.log .default, h.extra⟩

/-- Something that is done to settings in their places. A failure ends it but undoes nothing. -/
abbrev InPlace (α : Type) := ExceptT Failure (StateM Places) α

namespace InPlace

/-- Copy settings into places of their own. -/
def copy (h : Held) : InPlace Held := do
  let p ← get
  let s := p.view h
  set (⟨p.trees ++ [s.tree], p.logs ++ [s.log]⟩ : Places)
  return ⟨p.trees.length, p.logs.length, s.extra⟩

def assignTree (h : Held) (field : String × Value) : InPlace Unit :=
  modify fun p => { p with trees := p.trees.modify h.tree (·.assign field) }

def assignLog (h : Held) (field : String × Value) : InPlace Unit :=
  modify fun p => { p with logs := p.logs.modify h.log (·.assign field) }

/-- The settings as the environment overrides them. -/
def override (env : Environment) (h : Held) : InPlace Held := do
  let o ← ofExcept (Overrides.ofEnvironment env)
  if o.isEmpty then return h
  let fresh ← copy h
  o.treeFields.forM (assignTree fresh)
  o.logFields.forM (assignLog fresh)
  return fresh

end InPlace

end Vesting.Settings
