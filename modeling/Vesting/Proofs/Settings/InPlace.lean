/-
# What is held stays as it is

The environment overrides settings that are held by copying them and assigning to the copy.
Main statements: the copy holds what the settings come to as values, whoever held settings
before finds them as they were, and a failure changes nothing at all. With what overriding
comes to, settings have one meaning on every path: made of the environment, overridden by it
once or more often, or read back from their own fields.

A section can be held by several settings at once, so that it takes the copy to keep them
apart; the places of the copy are new.
-/

import Vesting.Proofs.Settings.Overriding

namespace Vesting.Settings

variable {env : Environment} {p q : Places} {h k g : Held} {s t : Settings} {o : Overrides}
  {failure : Failure}

/-- Both sections stand in places that there are. -/
structure Held.Within (h : Held) (p : Places) : Prop where
  tree : h.tree < p.trees.length
  log : h.log < p.logs.length

/-- Whatever was held is as it was. -/
def Places.Keeps (p q : Places) : Prop := ∀ k : Held, k.Within p → q.view k = p.view k

namespace InPlace

/-! ## One thing after another -/

/-- What comes of something that is done in places, and the places that are left. -/
def on {α : Type} (action : InPlace α) (p : Places) : Except Failure α × Places :=
  action.run.run p

theorem on_bind_of_ok {α β : Type} {action : InPlace α} {next : α → InPlace β} {a : α}
    (done : action.on p = (.ok a, q)) : (action >>= next).on p = (next a).on q := by
  simp only [on, ExceptT.run_bind, StateT.run_bind] at done ⊢
  rw [done]
  rfl

theorem on_ofExcept_ok {α : Type} (a : α) (p : Places) :
    (ofExcept (.ok a : Except Failure α) : InPlace α).on p = (.ok a, p) := by rfl

/-- What cannot fail changes the places once for every item of a list, in order. -/
theorem on_forM {β : Type} {f : β → InPlace Unit} {change : Places → β → Places}
    (step : ∀ (b : β) (p : Places), (f b).on p = (.ok (), change p b)) (bs : List β)
    (p : Places) : (bs.forM f).on p = (.ok (), bs.foldl change p) := by
  induction bs generalizing p with
  | nil => rfl
  | cons b bs ih =>
      show (f b >>= fun _ => bs.forM f).on p = _
      rw [on_bind_of_ok (step b p), ih, List.foldl_cons]

/-- Changes of one item of a list add up to one change of it. -/
theorem foldl_modify {α β : Type} (f : α → β → α) (i : Nat) (bs : List β) (as : List α) :
    bs.foldl (fun as b => as.modify i (f · b)) as = as.modify i (bs.foldl f) := by
  induction bs generalizing as with
  | nil => exact (List.modify_id i as).symm
  | cons b bs ih =>
      rw [List.foldl_cons, ih, List.modify_modify_eq]
      rfl

theorem modify_length_concat {α : Type} (f : α → α) (as : List α) (a : α) :
    (as ++ [a]).modify as.length f = as ++ [f a] := by
  induction as with
  | nil => rfl
  | cons b as ih => rw [List.cons_append, List.length_cons, List.modify_succ_cons, ih]; rfl

theorem on_assignTree (h : Held) (field : String × Value) (p : Places) :
    (assignTree h field).on p =
      (.ok (), ⟨p.trees.modify h.tree (·.assign field), p.logs⟩) := by rfl

theorem on_assignLog (h : Held) (field : String × Value) (p : Places) :
    (assignLog h field).on p =
      (.ok (), ⟨p.trees, p.logs.modify h.log (·.assign field)⟩) := by rfl

theorem on_assignTrees (h : Held) (fields : Fields) (p : Places) :
    (fields.forM (assignTree h)).on p =
      (.ok (), ⟨p.trees.modify h.tree (fields.foldl TreeSettings.assign), p.logs⟩) := by
  rw [on_forM (on_assignTree h), ← foldl_modify]
  congr 1
  exact List.foldl_hom (fun trees => (⟨trees, p.logs⟩ : Places)) fun _ _ => rfl

theorem on_assignLogs (h : Held) (fields : Fields) (p : Places) :
    (fields.forM (assignLog h)).on p =
      (.ok (), ⟨p.trees, p.logs.modify h.log (fields.foldl LogSettings.assign)⟩) := by
  rw [on_forM (on_assignLog h), ← foldl_modify]
  congr 1
  exact List.foldl_hom (fun logs => (⟨p.trees, logs⟩ : Places)) fun _ _ => rfl

/-! ## Overriding -/

/-- The places with one more of each, for a copy. -/
def extended (p : Places) (s : Settings) : Places := ⟨p.trees ++ [s.tree], p.logs ++ [s.log]⟩

theorem on_override_of_error (failed : Overrides.ofEnvironment env = .error failure)
    (h : Held) (p : Places) : (override env h).on p = (.error failure, p) := by
  unfold override
  rw [failed]
  rfl

theorem on_override_of_isEmpty (said : Overrides.ofEnvironment env = .ok o)
    (nothing : o.isEmpty = true) (h : Held) (p : Places) :
    (override env h).on p = (.ok h, p) := by
  unfold override
  rw [said, on_bind_of_ok (on_ofExcept_ok o p), if_pos nothing]
  rfl

/-- The copy is put behind all places, and what the environment says is assigned there. -/
theorem on_override_of_not_isEmpty (said : Overrides.ofEnvironment env = .ok o)
    (something : o.isEmpty = false) (h : Held) (p : Places) :
    (override env h).on p = (.ok ⟨p.trees.length, p.logs.length, h.extra⟩,
      extended p (o.apply (p.view h))) := by
  have copied : (copy h).on p =
      (.ok ⟨p.trees.length, p.logs.length, h.extra⟩, extended p (p.view h)) := rfl
  unfold override
  rw [said, on_bind_of_ok (on_ofExcept_ok o p), if_neg (Bool.not_eq_true _ ▸ something),
    on_bind_of_ok copied, on_bind_of_ok (on_assignTrees _ _ _),
    on_bind_of_ok (on_assignLogs _ _ _)]
  simp only [extended, modify_length_concat]
  rfl

theorem keeps_extended (p : Places) (s : Settings) : p.Keeps (extended p s) := by
  rintro k ⟨tree, log⟩
  simp only [Places.view, extended, List.getD_eq_getElem?_getD, List.getElem?_append_left tree,
    List.getElem?_append_left log]

theorem view_extended (p : Places) (s : Settings) :
    (extended p s).view ⟨p.trees.length, p.logs.length, s.extra⟩ = s := by
  simp only [Places.view, extended, List.getD_eq_getElem?_getD, List.getElem?_concat_length,
    Option.getD_some]

/-- What overriding settings that are held comes to, if it gives an outcome for them as values:
a failure leaves all places as they were; otherwise the outcome is held, in places of its own
unless nothing is overridden, and whatever was held before is as it was. -/
inductive ComesTo (h : Held) (p : Places) :
    Except Failure Settings → Except Failure Held × Places → Prop
  | failed (failure : Failure) : ComesTo h p (.error failure) (.error failure, p)
  | untouched : ComesTo h p (.ok (p.view h)) (.ok h, p)
  | copied {t : Settings} {g : Held} {q : Places} (viewed : q.view g = t) (kept : p.Keeps q)
      (tree : p.trees.length ≤ g.tree) (log : p.logs.length ≤ g.log) :
      ComesTo h p (.ok t) (.ok g, q)

theorem override_comesTo (env : Environment) (h : Held) (p : Places) :
    ComesTo h p ((p.view h).within env) ((override env h).on p) := by
  cases said : Overrides.ofEnvironment env with
  | error failure =>
      rw [within, said, on_override_of_error said]
      exact .failed failure
  | ok o =>
      rw [within, said]
      show ComesTo h p (.ok (o.apply (p.view h))) _
      cases nothing : o.isEmpty with
      | true =>
          rw [on_override_of_isEmpty said nothing, Overrides.apply_of_isEmpty nothing]
          exact .untouched
      | false =>
          rw [on_override_of_not_isEmpty said nothing]
          exact .copied (view_extended p (o.apply (p.view h))) (keeps_extended p _)
            (Nat.le_refl p.trees.length) (Nat.le_refl p.logs.length)

end InPlace

/-! ## One meaning -/

theorem ofEnvironment_eq (env : Environment) : ofEnvironment env = default.within env := by
  unfold ofEnvironment within
  cases Overrides.ofEnvironment env with
  | error failure => rfl
  | ok o =>
      show (ofValue (.object o.fields)).mapError Failure.settings = .ok (o.apply default)
      rw [Overrides.ofValue_fields]
      rfl

theorem within_of_within (done : s.within env = .ok t) : t.within env = .ok t :=
  within_eq_ok_iff.2 (within_eq_ok_iff.1 done).again

/-- Settings are read back from their fields. -/
theorem ofValue_fields (s : Settings) : ofValue (.object s.fields) = .ok s := by
  have tree : readSection "TreeConfig" TreeSettings.keys (Fields.get? s.fields "tree") =
      .ok s.tree.fields := rfl
  have log : readSection "LoggingConfig" LogSettings.keys (Fields.get? s.fields "logging") =
      .ok s.log.fields := rfl
  simp only [ofValue, tree, log]
  rfl

/-- Overriding has one meaning on every path. It fails exactly if the version is given a text
that is no whole number, and for this; otherwise just the values are replaced that are given.
A second time it changes nothing. The environment alone makes of settings what it makes of the
defaults, or fails as there; and settings are read back from their fields. Settings that are
held are overridden in a copy, and for everyone else they stay as they are. -/
theorem overriding_consistent (env : Environment) (s : Settings) :
    (∀ failure : Failure, s.within env = .error failure ↔
        ∃ (text : String) (fault : Text.WholeFault),
          env.get? "ROOTLOCK_TREE_VERSION" = some text ∧
          Text.readNumber text = .error fault ∧ failure = .notWhole text fault) ∧
      (∀ t : Settings, s.within env = .ok t ↔ s.OverriddenBy env t) ∧
      (s.within env >>= fun t => t.within env) = s.within env ∧
      ofEnvironment env = default.within env ∧
      ofValue (.object s.fields) = .ok s ∧
      ∀ (h : Held) (p : Places),
        InPlace.ComesTo h p ((p.view h).within env) ((InPlace.override env h).on p) := by
  refine ⟨fun _ => within_eq_error_iff, fun _ => within_eq_ok_iff, ?_, ofEnvironment_eq env,
    ofValue_fields s, InPlace.override_comesTo env⟩
  cases done : s.within env with
  | error failure => rfl
  | ok t => exact within_of_within done

example : default.within [("ROOTLOCK_TREE_VERSION", " +1_2 "), ("ROOTLOCK_STRICT_MODE", "TRUE"),
      ("ROOTLOCK_LOG_LEVEL", ""), ("ROOTLOCK_LOG_FILE", " ")] =
    .ok { default with
      tree := { TreeSettings.default with version := .int 12 }
      log := { LogSettings.default with file := .text " " } } := by
  cbv

end Vesting.Settings
