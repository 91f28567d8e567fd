/-
# File systems

A world is a file system if looking at it does not change it, a file that was written has
the content that it was written with, and directories are created without removing
anything. Nothing is said about a write that fails, nor about what else a write changes:
that two paths lead to different files is a property of the two, and it is what a
statement about a second file has to assume.

A volume in memory is a file system, in which paths that lead to different places lead to
different files.
-/

import Vesting.Proofs.Storage

namespace Vesting

/-- What kind of entry there is. -/
def Entry.kind : Entry → FileKind
  | .file _ => .file
  | .directory => .directory

/-- A world with files that keep what was written last, and with results that are printed. -/
structure FileSystem (W : Type) [Storage (StateM W)] where
  /-- What there is at a path. -/
  find? : W → Path → Option Entry
  /-- The results so far. -/
  printed : W → String
  looks (path : Path) (w : W) :
    (Storage.kind? path : StateM W _).run w = ((find? w path).map Entry.kind, w)
  reads (path : Path) (w : W) : ∃ r, (Storage.read path : StateM W _).run w = (r, w) ∧
    ∀ content, r = .ok content ↔ find? w path = some (.file content)
  writes {path : Path} {content : Bytes} {w later : W}
    (written : (Storage.write path content : StateM W _).run w = (.ok (), later)) :
    find? later path = some (.file content)
  /-- Creating a directory leaves what there is. -/
  keeps {path other : Path} {w : W} {e : Entry} (present : find? w other = some e) :
    find? ((Storage.makeDirectory path : StateM W _).run w).2 other = some e
  names (path : Path) (w : W) : ((Storage.absolute path : StateM W _).run w).2 = w
  prints (text : String) (w : W) :
    find? ((Storage.print text : StateM W _).run w).2 = find? w ∧
      printed ((Storage.print text : StateM W _).run w).2 = printed w ++ text
  complains (text : String) (w : W) :
    find? ((Storage.complain text : StateM W _).run w).2 = find? w ∧
      printed ((Storage.complain text : StateM W _).run w).2 = printed w
  /-- Only printing adds to the results. -/
  writesSilently (path : Path) (content : Bytes) (w : W) :
    printed ((Storage.write path content : StateM W _).run w).2 = printed w
  appendsSilently (path : Path) (content : Bytes) (w : W) :
    printed ((Storage.append path content : StateM W _).run w).2 = printed w
  createsSilently (path : Path) (w : W) :
    printed ((Storage.makeDirectory path : StateM W _).run w).2 = printed w

namespace FileSystem

variable {W : Type} [Storage (StateM W)] (fs : FileSystem W)

/-- Whatever is written to one path, or added there, what there is at another stays. -/
structure Apart (path other : Path) : Prop where
  writes (content : Bytes) (w : W) :
    fs.find? ((Storage.write path content : StateM W _).run w).2 other = fs.find? w other
  appends (content : Bytes) (w : W) :
    fs.find? ((Storage.append path content : StateM W _).run w).2 other = fs.find? w other

end FileSystem

/-! ## A volume as a file system -/

namespace Volume

variable {v u : Volume} {parts here rest : List String}

theorem content_eq_ok_iff {path : Path} {content : Bytes} :
    v.content path = .ok content ↔ v.find? path = some (.file content) := by
  unfold Volume.content find?
  cases v.locate path with
  | error fault => simp
  | ok place =>
      cases place with
      | above => simp
      | below parts => rcases entry : v.entry? parts with - | ⟨file⟩ | - <;> simp [entry]

/-- Where a path leads below the working directory depends on the path alone. -/
theorem eq_of_follow (found : v.follow here rest = .ok (.below parts)) :
    parts = (rest.foldl (fun done part => if part == ".." then done.tail else part :: done)
      here.reverse).reverse := by
  fun_induction follow v here rest with
  | case1 here =>
      cases found
      exact (List.reverse_reverse _).symm
  | case2 here part rest missing => cases found
  | case3 here part rest file entry => cases found
  | case4 here part rest passed down ih =>
      have onwards : (part == "..") = false := by simpa using down
      rw [ih found, List.foldl_cons, onwards, List.reverse_append]
      rfl
  | case5 here part rest passed up top => exact absurd found outside_ne_below
  | case6 here part rest passed up inside ih =>
      have upwards : (part == "..") = true := by simpa using up
      rw [ih found, List.foldl_cons, upwards, if_pos rfl, List.tail_reverse]

theorem eq_settled_of_locate {path : Path} (found : v.locate path = .ok (.below parts)) :
    parts = Path.settled path.parts := by
  unfold locate at found
  by_cases relative : path.root.isEmpty
  · rw [if_pos relative] at found
    exact eq_of_follow found
  · rw [if_neg relative] at found
    exact absurd found outside_ne_below

/-- A file is changed at the place that its path names, or nowhere. -/
theorem update_cases (path : Path) (change : Bytes → Bytes) :
    (v.update path change).2 = v ∨ ∃ parts content, v.locate path = .ok (.below parts) ∧
      v.entry? parts ≠ some .directory ∧
      (v.update path change).2 = v.put parts (.file content) := by
  unfold update
  cases found : v.locate path with
  | error fault => exact .inl rfl
  | ok place =>
      cases place with
      | above => exact .inl rfl
      | below parts =>
          dsimp only
          cases entry : v.entry? parts with
          | none => exact .inr ⟨parts, change [], rfl, by rw [entry]; nofun, rfl⟩
          | some e =>
              cases e with
              | file content => exact .inr ⟨parts, change content, rfl, by rw [entry]; nofun, rfl⟩
              | directory => exact .inl rfl

/-- Changing a file leaves what there is at paths that name other places. -/
theorem find?_update {path other : Path} (change : Bytes → Bytes)
    (apart : Path.settled path.parts ≠ Path.settled other.parts) :
    (v.update path change).2.find? other = v.find? other := by
  rcases update_cases path change with same | ⟨parts, content, found, noDirectory, changed⟩
  · rw [same]
  rw [changed]
  unfold find?
  rcases locate_put noDirectory content other with same | ⟨⟨fault, lost⟩, fault', lost'⟩
  · rw [same]
    cases leads : v.locate other with
    | error fault => rfl
    | ok place =>
        cases place with
        | above => rfl
        | below place =>
            have elsewhere : place ≠ parts := by
              rw [eq_settled_of_locate found, eq_settled_of_locate leads]
              exact apart.symm
            exact entry?_put_of_ne elsewhere
  · rw [lost, lost']

/-- Creating a directory where nothing is leaves every way that there is. -/
theorem follow_put_of_none {place : Place} (missing : v.entry? parts = none)
    (found : v.follow here rest = .ok place) :
    (v.put parts .directory).follow here rest = .ok place := by
  have onTheWay {here : List String} (passed : v.entry? here = some .directory) :
      entry? (v.put parts .directory) here = some .directory := by
    have differ : here ≠ parts := by
      rintro rfl
      rw [missing] at passed
      cases passed
    exact passed ▸ entry?_put_of_ne differ
  fun_induction follow v here rest with
  | case1 here => exact found
  | case2 here part rest missing => cases found
  | case3 here part rest file entry => cases found
  | case4 here part rest passed down ih =>
      rw [follow, onTheWay passed]
      simp only [if_pos down]
      exact ih found
  | case5 here part rest passed up top =>
      rw [follow, onTheWay passed]
      simp only [if_neg up, if_pos top]
      exact found
  | case6 here part rest passed up inside ih =>
      rw [follow, onTheWay passed]
      simp only [if_neg up, if_neg inside]
      exact ih found

theorem locate_put_of_none {path : Path} {place : Place} (missing : v.entry? parts = none)
    (found : v.locate path = .ok place) :
    (v.put parts .directory).locate path = .ok place := by
  unfold locate at *
  by_cases relative : path.root.isEmpty
  · rw [if_pos relative] at found ⊢
    exact follow_put_of_none missing found
  · rw [if_neg relative] at found ⊢
    exact found

/-- A directory is created where nothing is, or not at all. -/
theorem addDirectory_cases (path : Path) :
    (v.addDirectory path).2 = v ∨ ∃ parts, v.entry? parts = none ∧
      (v.addDirectory path).2 = v.put parts .directory := by
  unfold addDirectory
  cases found : v.locate path with
  | error fault => exact .inl rfl
  | ok place =>
      cases place with
      | above => exact .inl rfl
      | below parts =>
          dsimp only
          cases entry : v.entry? parts with
          | none => exact .inr ⟨parts, entry, rfl⟩
          | some e => exact .inl rfl

/-- Creating a directory leaves what there is. -/
theorem find?_addDirectory (path : Path) {other : Path} {e : Entry}
    (present : v.find? other = some e) : (v.addDirectory path).2.find? other = some e := by
  rcases addDirectory_cases path with same | ⟨parts, missing, changed⟩
  · rw [same, present]
  rw [changed]
  unfold find? at *
  cases leads : v.locate other with
  | error fault => rw [leads] at present; cases present
  | ok place =>
      rw [leads] at present
      rw [locate_put_of_none missing leads]
      cases place with
      | above => exact present
      | below place =>
          have there : v.entry? place = some e := present
          have elsewhere : place ≠ parts := by
            rintro rfl
            rw [missing] at there
            cases there
          exact (entry?_put_of_ne elsewhere).trans there

/-! ### What is printed -/

theorem find?_of_entries (same : v.entries = u.entries) : v.find? = u.find? := by
  have entry (parts : List String) : v.entry? parts = u.entry? parts := by
    unfold entry?
    rw [same]
  have follow (here rest : List String) : v.follow here rest = u.follow here rest := by
    fun_induction Volume.follow v here rest <;> simp_all [Volume.follow]
  funext path
  simp only [find?, locate, follow, entry]

theorem results_put (e : Entry) : (v.put parts e).results = v.results := by
  unfold put
  split <;> rfl

theorem results_update (path : Path) (change : Bytes → Bytes) :
    (v.update path change).2.results = v.results := by
  rcases update_cases path change with same | ⟨parts, content, -, -, changed⟩
  · rw [same]
  · rw [changed, results_put]

theorem results_addDirectory (path : Path) : (v.addDirectory path).2.results = v.results := by
  rcases addDirectory_cases path with same | ⟨parts, -, changed⟩
  · rw [same]
  · rw [changed, results_put]

/-- A volume in memory keeps what was written. -/
def fileSystem : FileSystem Volume where
  find? := find?
  printed := results
  looks path v := by
    show ((v.find? path).map _, v) = _
    congr 2
  reads path v := ⟨v.content path, rfl, fun _ => content_eq_ok_iff⟩
  writes written := (of_update_eq_ok written).1
  keeps := find?_addDirectory _
  names _ _ := rfl
  prints _ _ := ⟨find?_of_entries rfl, rfl⟩
  complains _ _ := ⟨find?_of_entries rfl, rfl⟩
  writesSilently path _ _ := results_update path _
  appendsSilently path _ _ := results_update path _
  createsSilently path _ := results_addDirectory path

/-- Paths that name different places lead to different files. -/
theorem apart {path other : Path}
    (differ : Path.settled path.parts ≠ Path.settled other.parts) :
    fileSystem.Apart path other where
  writes _ _ := find?_update _ differ
  appends _ _ := find?_update _ differ

end Volume

end Vesting
