/-
# What is written is there

What rests on files assumes no more of the world than that a file that was created holds
what it was given. Main statement: a volume in memory is such a world. A write changes
one entry, which is no directory, so the same path still leads to it.
-/

import Vesting.Storage

namespace Vesting

/-- A world whose files hold what they were created with. -/
def Storage.KeepsFiles (m : Type → Type) [Monad m] [Storage m] : Prop :=
  ∀ (path : Path) (content : Bytes),
    (do create path content; load path : ExceptT Failure m (Option Bytes)) =
      (do create path content; return some content)

namespace Volume

variable {v : Volume} {parts other here rest : List String} {e : Entry}

/-! ## Entries -/

/-- Entries with the one at some parts replaced. -/
def replaced (entries : List (List String × Entry)) (parts : List String) (e : Entry) :
    List (List String × Entry) :=
  entries.map fun old => if old.1 == parts then (parts, e) else old

theorem find?_replaced_self {entries : List (List String × Entry)}
    (present : entries.any (·.1 == parts) = true) :
    (replaced entries parts e).find? (·.1 == parts) = some (parts, e) := by
  induction entries with
  | nil => cases present
  | cons old entries ih =>
      rw [replaced, List.map_cons, List.find?_cons]
      by_cases here : old.1 == parts
      · simp [here]
      · rw [if_neg here]
        simp only [here]
        exact ih (by simpa [here] using present)

theorem find?_replaced_of_ne (differ : other ≠ parts) (entries : List (List String × Entry)) :
    (replaced entries parts e).find? (·.1 == other) = entries.find? (·.1 == other) := by
  induction entries with
  | nil => rfl
  | cons old entries ih =>
      rw [replaced, List.map_cons, List.find?_cons, List.find?_cons]
      by_cases here : old.1 == parts
      · have elsewhere : (parts == other) = false := by simpa using differ.symm
        have same : old.1 = parts := beq_iff_eq.1 here
        rw [if_pos here, same]
        simp only [elsewhere]
        exact ih
      · rw [if_neg here]
        cases old.1 == other
        · exact ih
        · rfl

/-- What was put somewhere is there. -/
theorem entry?_put_self (below : parts ≠ []) : entry? (v.put parts e) parts = some e := by
  unfold entry? put
  rw [if_neg (by simpa using below)]
  by_cases present : v.entries.any (·.1 == parts)
  · rw [if_pos present]
    exact congrArg (Option.map Prod.snd) (find?_replaced_self present)
  · rw [if_neg present]
    have none : v.entries.find? (·.1 == parts) = none :=
      List.find?_eq_none.2 fun old member here =>
        present (List.any_eq_true.2 ⟨old, member, here⟩)
    simp [none]

/-- Nothing else changes. -/
theorem entry?_put_of_ne (differ : other ≠ parts) :
    entry? (v.put parts e) other = v.entry? other := by
  unfold entry? put
  split
  · rfl
  by_cases present : v.entries.any (·.1 == parts)
  · rw [if_pos present]
    exact congrArg (Option.map Prod.snd) (find?_replaced_of_ne differ v.entries)
  · rw [if_neg present]
    simp [List.find?_append, differ.symm]

/-! ## Places -/

theorem outside_ne_below : outside rest ≠ .ok (.below parts) := by
  unfold outside
  split <;> nofun

/-- Putting a file where no directory is changes no way, since ways pass directories only. At
most it changes why there is none. -/
theorem follow_put (noDirectory : v.entry? parts ≠ some .directory) (content : Bytes) :
    (v.put parts (.file content)).follow here rest = v.follow here rest ∨
      (∃ fault, v.follow here rest = .error fault) ∧
        ∃ fault, (v.put parts (.file content)).follow here rest = .error fault := by
  have onTheWay {here : List String} (passed : v.entry? here = some .directory) :
      entry? (v.put parts (.file content)) here = some .directory := by
    have differ : here ≠ parts := by
      rintro rfl
      exact noDirectory passed
    exact passed ▸ entry?_put_of_ne differ
  have below : parts ≠ [] := by
    rintro rfl
    exact noDirectory rfl
  have blocked {here : List String} (part : String) (rest : List String)
      (closed : v.entry? here ≠ some .directory) :
      ∃ fault, (v.put parts (.file content)).follow here (part :: rest) = .error fault := by
    rw [follow]
    by_cases same : here = parts
    · rw [same, entry?_put_self below]
      exact ⟨.notDirectory, rfl⟩
    · rw [entry?_put_of_ne same]
      rcases entry : v.entry? here with - | ⟨file⟩ | -
      · exact ⟨.missing, rfl⟩
      · exact ⟨.notDirectory, rfl⟩
      · exact absurd entry closed
  fun_induction follow v here rest with
  | case1 here => exact .inl rfl
  | case2 here part rest missing =>
      exact .inr ⟨⟨.missing, rfl⟩, blocked part rest (by rw [missing]; nofun)⟩
  | case3 here part rest file entry =>
      exact .inr ⟨⟨.notDirectory, rfl⟩, blocked part rest (by rw [entry]; nofun)⟩
  | case4 here part rest passed down ih =>
      rw [follow, onTheWay passed]
      simp only [if_pos down]
      exact ih
  | case5 here part rest passed up top =>
      rw [follow, onTheWay passed]
      simp only [if_neg up, if_pos top]
      exact .inl trivial
  | case6 here part rest passed up inside ih =>
      rw [follow, onTheWay passed]
      simp only [if_neg up, if_neg inside]
      exact ih

theorem locate_put (noDirectory : v.entry? parts ≠ some .directory) (content : Bytes)
    (path : Path) :
    (v.put parts (.file content)).locate path = v.locate path ∨
      (∃ fault, v.locate path = .error fault) ∧
        ∃ fault, (v.put parts (.file content)).locate path = .error fault := by
  unfold locate
  by_cases relative : path.root.isEmpty
  · rw [if_pos relative, if_pos relative]
    exact follow_put noDirectory content
  · rw [if_neg relative, if_neg relative]
    exact .inl rfl

/-- A file is written where its path leads, and no directory is there. -/
theorem exists_of_update_eq_ok {path : Path} {content : Bytes} {after : Volume}
    (written : v.update path (fun _ => content) = (.ok (), after)) :
    ∃ parts, v.locate path = .ok (.below parts) ∧ v.entry? parts ≠ some .directory ∧
      after = v.put parts (.file content) := by
  unfold update at written
  split at written
  · cases written
  · cases written
  next parts found =>
    refine ⟨parts, found, ?_⟩
    split at written
    next => cases written
    next entry => cases written; simp [entry]
    next entry => cases written; simp [entry]

/-- Where a file was written, its content is what was written. -/
theorem of_update_eq_ok {path : Path} {content : Bytes} {after : Volume}
    (written : v.update path (fun _ => content) = (.ok (), after)) :
    after.find? path = some (.file content) ∧ after.content path = .ok content := by
  obtain ⟨parts, found, noDirectory, changed⟩ := exists_of_update_eq_ok written
  have below : parts ≠ [] := by
    rintro rfl
    exact noDirectory rfl
  have leads : after.locate path = .ok (.below parts) := by
    rcases locate_put noDirectory content path with same | ⟨⟨fault, lost⟩, -⟩
    · rw [changed, same, found]
    · rw [found] at lost
      cases lost
  have entry : after.entry? parts = some (.file content) := changed ▸ entry?_put_self below
  simp [find?, Volume.content, leads, entry]

end Volume

/-! ## A volume as a world -/

/-- What is loaded from a path is the content of the file there. -/
theorem Volume.run_load {v : Volume} {path : Path} {content : Bytes}
    (found : v.find? path = some (.file content)) (kept : v.content path = .ok content) :
    (Storage.load path : ExceptT Failure (StateM Volume) (Option Bytes)).run.run v =
      (.ok (some content), v) := by
  have kind : (liftM (Storage.kind? path : StateM Volume (Option FileKind)) :
      ExceptT Failure (StateM Volume) (Option FileKind)).run.run v = (.ok (some .file), v) := by
    show (Except.ok ((v.find? path).map _), v) = _
    rw [found]
    rfl
  have read : (ExceptT.mk (Storage.atPath path.toString <$> Storage.read path) :
      ExceptT Failure (StateM Volume) Bytes).run.run v = (.ok content, v) := by
    show (Storage.atPath path.toString (v.content path), v) = _
    rw [kept]
    rfl
  rw [Storage.load, ExceptT.run_bind, StateT.run_bind, kind]
  show (ExceptT.mk (Storage.atPath path.toString <$> Storage.read path) >>= fun content =>
    return some content : ExceptT Failure (StateM Volume) (Option Bytes)).run.run v = _
  rw [ExceptT.run_bind, StateT.run_bind, read]
  rfl

/-- Whether a file can be written or not, what stands behind the write may take it to be there
with the content that was given. -/
theorem Volume.write_load (path : Path) (content : Bytes) :
    (do
      ExceptT.mk (Storage.atPath path.toString <$>
        (Storage.write path content : StateM Volume (Except FileFault Unit)))
      Storage.load path : ExceptT Failure (StateM Volume) (Option Bytes)) =
    (do
      ExceptT.mk (Storage.atPath path.toString <$>
        (Storage.write path content : StateM Volume (Except FileFault Unit)))
      return some content) := by
  apply ExceptT.ext
  apply StateT.ext
  intro v
  simp only [ExceptT.run_bind, StateT.run_bind, ExceptT.run_mk, StateT.run_map]
  have run : (Storage.write path content : StateM Volume (Except FileFault Unit)).run v =
      v.update path (fun _ => content) := rfl
  rw [run]
  rcases written : v.update path (fun _ => content) with ⟨fault | done, after⟩
  · rfl
  · obtain ⟨found, kept⟩ := of_update_eq_ok written
    exact run_load found kept

/-- A volume in memory keeps its files. -/
theorem Volume.keepsFiles : Storage.KeepsFiles (StateM Volume) := by
  intro path content
  simp only [Storage.create, bind_assoc, write_load]

end Vesting
