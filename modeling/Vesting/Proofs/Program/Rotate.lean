/-
# Rotations are planned completely or not at all

A request to rotate reads a distribution and a table, plans the rotation, keeps the new
distribution, and reports the plan. Main statement: the program ends well exactly if both
inputs can be read, the records of the table are a batch that is built, and the root of
what is built is a new one; then the file that is named holds it, and the report tells its
root and the one before. Otherwise no file is changed.

A write that fails is left out of account, so the file that is named is one that can be
created, and so are files that the log does not spare.
-/

import Vesting.Proofs.Amendment.Difference
import Vesting.Proofs.Csv.Records
import Vesting.Proofs.Program.Effects

namespace Vesting

/-- The records of a table are a batch if they pass its checks. -/
theorem Csv.batchOfFile_eq_ok_iff {path : String} {content : Bytes} {records : List Record} :
    batchOfFile path content = .ok records ↔
      recordsOfFile path content = .ok records ∧ Batch.check records = .ok () := by
  unfold batchOfFile
  cases recordsOfFile path content with
  | error failure => simp
  | ok read =>
      dsimp only
      cases checked : Batch.check read with
      | error refusal =>
          refine ⟨nofun, ?_⟩
          rintro ⟨same, passed⟩
          cases same
          rw [checked] at passed
          cases passed
      | ok done =>
          refine ⟨fun same => ⟨same, ?_⟩, And.left⟩
          cases same
          exact checked

/-- What is built of a batch has passed its checks. -/
theorem Batch.check_of_buildAs {records : List Record} {version : Value} {d : Distribution}
    (built : Distribution.buildAs records version = .ok d) : check records = .ok () := by
  obtain ⟨acceptable, -, -⟩ := Distribution.exists_ofTree_of_buildAs_eq_ok built
  exact check_of_acceptable acceptable

namespace Program

variable {W : Type} [Storage (StateM W)] {fs : FileSystem W} {log : Log}
  {args : RotateArguments} {w : W} {current : Distribution} {new : List Record}

/-! ## The command -/

/-- What a rotation starts from. -/
def rotateInputs (args : RotateArguments) :
    ExceptT Failure (StateM W) (Distribution × List Record) := do
  let current ← Distribution.load (.ofString args.distribution)
  let new ← Csv.loadBatch (.ofString args.table)
  return (current, new)

/-- The version of the new distribution. -/
def rotateVersion (args : RotateArguments) (current : Distribution) : Value :=
  (args.version.map .int).getD (Record.ofWord current.version)

/-- The inputs are read exactly if each file is, and reading them changes nothing. -/
theorem result_rotateInputs_eq_ok_iff (fs : FileSystem W) :
    result (rotateInputs args) w = .ok (current, new) ↔
      fs.ReadsAs w (.ofString args.distribution) Distribution.ofFile current ∧
        fs.ReadsAs w (.ofString args.table) Csv.batchOfFile new := by
  obtain ⟨unchanged, loads⟩ := run_load_distribution fs (.ofString args.distribution) w
  obtain ⟨-, parses⟩ := run_load_table fs Csv.batchOfFile (.ofString args.table) w
  unfold rotateInputs Csv.loadBatch
  constructor
  · intro ok
    obtain ⟨d, loaded, rest⟩ := exists_of_result_bind_eq_ok ok
    rw [unchanged] at rest
    obtain ⟨records, parsed, done⟩ := exists_of_result_bind_eq_ok rest
    cases done
    exact ⟨(loads _).1 loaded, (parses _).1 parsed⟩
  · rintro ⟨loaded, parsed⟩
    rw [result_bind_of_ok ((loads current).2 loaded), unchanged,
      result_bind_of_ok ((parses new).2 parsed)]
    rfl

theorem after_rotateInputs (fs : FileSystem W) (args : RotateArguments) (w : W) :
    after (rotateInputs args) w = w := by
  obtain ⟨unchanged, -⟩ := run_load_distribution fs (.ofString args.distribution) w
  obtain ⟨unchanged', -⟩ := run_load_table fs Csv.batchOfFile (.ofString args.table) w
  unfold rotateInputs Csv.loadBatch
  cases loaded : result (Distribution.load (.ofString args.distribution) :
      ExceptT Failure (StateM W) Distribution) w with
  | error failure => rw [after_bind_of_error loaded, unchanged]
  | ok d =>
      rw [after_bind_of_ok loaded, unchanged]
      cases parsed : result (Csv.loadWith Csv.batchOfFile (.ofString args.table) :
          ExceptT Failure (StateM W) (List Record)) w with
      | error failure => rw [after_bind_of_error parsed, unchanged']
      | ok records => rw [after_bind_of_ok parsed, unchanged']; rfl

theorem reports_rotateInputs (args : RotateArguments) :
    Reports fs log "" (rotateInputs args : ExceptT Failure (StateM W) _) := by
  intro w
  rw [after_rotateInputs fs]
  exact .refl w

theorem fails_rejectPlan (refusal : Refusal) (w : W) :
    Fails fs log (rejectPlan log refusal) w := by
  cases refusal with
  | duplicateRoot root =>
      have ends : result (rejectPlan log (.duplicateRoot root)) w = .ok .failure :=
        (unfailing_note log _ _ _).result_bind_eq (fun _ => rfl) w
      refine ⟨by rw [ends]; rfl, "", ?_⟩
      exact (reports_note _ _ _).bind (fun _ => reports_complainAndFail _) w
  | _ => exact fails_complainAndFail _ w

/-- Without a plan the command fails. -/
theorem rotate_of_no_plan (fs : FileSystem W) (log : Log)
    (none : ∀ current new a, result (rotateInputs args) w = .ok (current, new) →
      Amendment.planAs current.root new (rotateVersion args current) (some current.records) ≠
        .ok a) : Fails fs log (rotate log args) w := by
  cases inputs : result (rotateInputs args) w with
  | error failure =>
      exact fails_of_error (reports_rotateInputs args w) inputs fun refusal w =>
        fails_complainAndFail _ w
  | ok both =>
      obtain ⟨current, new⟩ := both
      refine fails_of_ok (reports_rotateInputs args w) inputs ?_
      have planned := result_planNoting log current new (rotateVersion args current)
        (after (rotateInputs args) w)
      cases plan : Amendment.planAs current.root new (rotateVersion args current)
          (some current.records) with
      | ok a => exact absurd plan (none current new a inputs)
      | error failure =>
          rw [plan] at planned
          exact fails_of_error (reports_planNoting current new _ _) planned fails_rejectPlan

/-- The text of the report about a plan whose distribution is kept in a file. -/
def planReport (args : RotateArguments) (a : Amendment) (out : Path) : String :=
  reportText args.json (planFields a (some out)) (planLines a (some out))

/-- It tells both roots. -/
theorem tells_roots_planReport (args : RotateArguments) (a : Amendment) (out : Path) :
    Tells args.json (planReport args a out) "old_root" (.text (toHex a.oldRoot))
        s!"old_root: {toHex a.oldRoot}" ∧
      Tells args.json (planReport args a out) "new_root" (.text (toHex a.distribution.root))
        s!"new_root: {toHex a.distribution.root}" :=
  ⟨tells_reportText rfl (by simp [planLines]), tells_reportText rfl (by simp [planLines])⟩

/-- With a plan the new distribution is kept where it can be, and the plan is printed. -/
theorem rotate_of_plan (fs : FileSystem W) {a : Amendment} {out : Path}
    (inputs : result (rotateInputs args) w = .ok (current, new))
    (plan : Amendment.planAs current.root new (rotateVersion args current)
      (some current.records) = .ok a)
    (named : (nonempty args.output).map .ofString = some out) (spared : fs.Spared log out)
    (writable : Writable fs log out w) :
    result (rotate log args) w = .ok .success ∧
      fs.find? (after (rotate log args) w) out =
        some (.file (Text.toUtf8 a.distribution.toText)) ∧
      fs.printed (after (rotate log args) w) = fs.printed w ++ planReport args a out := by
  have planned : result (planNoting log current new (rotateVersion args current)) w = .ok a := by
    rw [result_planNoting, plan]
  have noted : fs.Adds log "" w
      (after (planNoting log current new (rotateVersion args current)) w) :=
    reports_planNoting current new _ w
  have kept : result (keepPlan log a (some out))
      (after (planNoting log current new (rotateVersion args current)) w) = .ok () :=
    writable.result_keep noted a.distribution
  have run : (rotate log args : ExceptT Failure (StateM W) ExitStatus).run.run w =
      (keepPlan log a (some out) >>= fun _ =>
        tell args.json (planFields a (some out)) (planLines a (some out)) .success :
        ExceptT Failure (StateM W) ExitStatus).run.run
          (after (planNoting log current new (rotateVersion args current)) w) := by
    unfold rotate
    refine (run_refusable_bind_of_ok _ inputs).trans ?_
    rw [after_rotateInputs fs, ← named]
    exact run_refusable_bind_of_ok _ planned
  rw [run_bind_of_ok kept] at run
  have ends : result (rotate log args) w = _ := congrArg Prod.fst run
  have leads : after (rotate log args) w = _ := congrArg Prod.snd run
  have told := reports_tell fs log args.json (planFields a (some out)) (planLines a (some out))
    .success
  refine ⟨ends.trans (result_tell _ _ _ _ _), ?_, ?_⟩
  · rw [leads]
    exact ((told _).files out spared).trans (find?_keep fs kept spared)
  · have silent := printed_keep fs log a.distribution out
      (after (planNoting log current new (rotateVersion args current)) w)
    rw [noted.results, String.append_empty] at silent
    rw [leads]
    exact (told _).results.trans (congrArg (· ++ _) silent)

/-! ## The program -/

/-- What a request to rotate comes to: the distribution and the records that it reads, and the
distribution that is built of them, whose root is a new one. -/
structure Rotation (fs : FileSystem W) (args : RotateArguments) (w : W) (current : Distribution)
    (records : List Record) (d : Distribution) : Prop where
  loads : fs.ReadsAs w (.ofString args.distribution) Distribution.ofFile current
  parses : fs.ReadsAs w (.ofString args.table) Csv.recordsOfFile records
  builds : Distribution.buildAs records (rotateVersion args current) = .ok d
  differs : d.root ≠ current.root

/-- A rotation is planned exactly if its inputs are read and its distribution is built. -/
theorem rotation_iff (fs : FileSystem W) {d : Distribution} :
    Rotation fs args w current new d ↔ result (rotateInputs args) w = .ok (current, new) ∧
      ∃ a, Amendment.planAs current.root new (rotateVersion args current)
        (some current.records) = .ok a ∧ a.oldRoot = current.root ∧ a.distribution = d := by
  rw [result_rotateInputs_eq_ok_iff fs]
  constructor
  · intro rotation
    obtain ⟨content, present, parsed⟩ := rotation.parses
    have passed := Batch.check_of_buildAs rotation.builds
    refine ⟨⟨rotation.loads, content, present, Csv.batchOfFile_eq_ok_iff.2 ⟨parsed, passed⟩⟩, ?_⟩
    exact ⟨_, Amendment.planAs_eq_ok_iff.2 ⟨d, rotation.builds, rotation.differs, rfl⟩, rfl, rfl⟩
  · rintro ⟨⟨loads, content, present, parsed⟩, a, plan, -, rfl⟩
    obtain ⟨d, builds, differs, rfl⟩ := Amendment.planAs_eq_ok_iff.1 plan
    exact ⟨loads, ⟨content, present, (Csv.batchOfFile_eq_ok_iff.1 parsed).1⟩, builds, differs⟩

theorem Rotation.of_find?_eq {later : W} {d : Distribution}
    (rotation : Rotation fs args w current new d)
    (tree : fs.find? later (.ofString args.distribution) =
      fs.find? w (.ofString args.distribution))
    (table : fs.find? later (.ofString args.table) = fs.find? w (.ofString args.table)) :
    Rotation fs args later current new d where
  loads := rotation.loads.of_find?_eq tree
  parses := rotation.parses.of_find?_eq table
  builds := rotation.builds
  differs := rotation.differs

variable {env : Environment} {settings level : Option String} {line : List String}
  {s : Settings} {out : String} {before : W}

/-- Without a rotation the program fails. -/
theorem run_of_no_rotation (fs : FileSystem W)
    (asks : Invocation.read line = .run ⟨settings, level, .rotate args⟩)
    (started : result (startUp env settings level) before = .ok (s, log))
    (tree : fs.Spared log (.ofString args.distribution))
    (table : fs.Spared log (.ofString args.table))
    (none : ¬ ∃ current records d, Rotation fs args before current records d) :
    ExitsWith 1 (run env line) before ∧ ∀ path, fs.Spared log path →
      fs.find? (after (run env line) before) path = fs.find? before path := by
  have opened := adds_startUp fs started
  refine run_of_fails asks started (rotate_of_no_plan fs log ?_)
  intro current new a inputs plan
  obtain ⟨d, -, -, rfl⟩ := Amendment.planAs_eq_ok_iff.1 plan
  have rotation := (rotation_iff fs).2 ⟨inputs, _, plan, rfl, rfl⟩
  exact none ⟨current, new, d,
    rotation.of_find?_eq (opened.files _ tree).symm (opened.files _ table).symm⟩

/-- With a rotation the new distribution is kept and reported. -/
theorem run_of_rotation (fs : FileSystem W) {records : List Record} {d : Distribution}
    {out : Path} (asks : Invocation.read line = .run ⟨settings, level, .rotate args⟩)
    (started : result (startUp env settings level) before = .ok (s, log))
    (tree : fs.Spared log (.ofString args.distribution))
    (table : fs.Spared log (.ofString args.table))
    (named : (nonempty args.output).map .ofString = some out) (spared : fs.Spared log out)
    (writable : Writable fs log out before)
    (rotation : Rotation fs args before current records d) :
    ExitsWith 0 (run env line) before ∧
      fs.find? (after (run env line) before) out = some (.file (Text.toUtf8 d.toText)) ∧
      ∃ a : Amendment, a.oldRoot = current.root ∧ a.distribution = d ∧
        fs.printed (after (run env line) before) =
          fs.printed before ++ planReport args a out := by
  have opened := adds_startUp fs started
  have finished := adds_run fs asks started
  obtain ⟨inputs, a, plan, old, rfl⟩ := (rotation_iff fs).1
    (rotation.of_find?_eq (opened.files _ tree) (opened.files _ table))
  obtain ⟨ends, kept, printed⟩ := rotate_of_plan fs inputs plan named spared
    (writable.of_adds opened)
  refine ⟨exitsWith_run asks started (congrArg statusOf ends),
    (finished.files _ spared).trans kept, a, old, rfl, ?_⟩
  rw [finished.results, String.append_empty]
  exact printed.trans (congrArg (· ++ _) (opened.results.trans String.append_empty))

/-- A rotation is carried out completely or not at all. The program ends well exactly if the
distribution and the table are read, the records of the table are built under the version that
is chosen, and the root is not the one of the distribution. Otherwise it fails, and no file is
changed that the log spares. If it ends well, the distribution that was built is read from the
file that is named, whatever was there before, it passes its audit, has the records of the
table in order, and its root, which is a new one, is reported together with the old one. -/
theorem rotate_all_or_nothing (fs : FileSystem W)
    (asks : Invocation.read line = .run ⟨settings, level, .rotate args⟩)
    (started : result (startUp env settings level) before = .ok (s, log))
    (named : args.output = some out) (present : out ≠ "")
    (spared : ∀ path ∈ [args.distribution, args.table, out], fs.Spared log (.ofString path))
    (writable : Writable fs log (.ofString out) before) :
    (ExitsWith 0 (run env line) before ↔
      ∃ current records d, Rotation fs args before current records d) ∧
    (¬ ExitsWith 0 (run env line) before → ExitsWith 1 (run env line) before ∧
      ∀ path, fs.Spared log path →
        fs.find? (after (run env line) before) path = fs.find? before path) ∧
    ∀ current records d, Rotation fs args before current records d →
      fs.ReadsAs (after (run env line) before) (.ofString out) Distribution.ofFile d ∧
      d.audit.ok = true ∧ d.root ≠ current.root ∧ d.records = records ∧
      ∃ a : Amendment, a.oldRoot = current.root ∧ a.distribution = d ∧
        fs.printed (after (run env line) before) =
          fs.printed before ++ planReport args a (.ofString out) ∧
        Tells args.json (planReport args a (.ofString out)) "old_root"
          (.text (toHex current.root)) s!"old_root: {toHex current.root}" ∧
        Tells args.json (planReport args a (.ofString out)) "new_root"
          (.text (toHex d.root)) s!"new_root: {toHex d.root}" := by
  have output : (nonempty args.output).map Path.ofString = some (.ofString out) := by
    simp [named, nonempty, Option.filter, present]
  have tree := spared args.distribution (by simp)
  have table := spared args.table (by simp)
  have sparedOut := spared out (by simp)
  have failed := run_of_no_rotation fs asks started tree table
  refine ⟨⟨?_, ?_⟩, ?_, ?_⟩
  · intro ends
    by_cases possible : ∃ current records d, Rotation fs args before current records d
    · exact possible
    · exact absurd ((failed possible).1.code_eq ends) (by decide)
  · rintro ⟨current, records, d, rotation⟩
    exact (run_of_rotation fs asks started tree table output sparedOut writable rotation).1
  · intro ends
    refine failed fun ⟨current, records, d, rotation⟩ => ends ?_
    exact (run_of_rotation fs asks started tree table output sparedOut writable rotation).1
  · intro current records d rotation
    obtain ⟨-, kept, reported⟩ :=
      run_of_rotation fs asks started tree table output sparedOut writable rotation
    obtain ⟨-, consistent, tree, number, built, same⟩ :=
      Distribution.exists_ofTree_of_buildAs_eq_ok rotation.builds
    have size := Distribution.length_root_of_buildAs rotation.builds
    obtain ⟨a, old, rfl, printed⟩ := reported
    refine ⟨⟨_, kept, Distribution.ofFile_toText size _⟩, Distribution.ok_audit_iff.2 consistent,
      rotation.differs, ?_, a, old, rfl, printed, ?_⟩
    · rw [same, Distribution.records_ofTree built]
    · exact old ▸ tells_roots_planReport args a (.ofString out)

/-- A distribution with another root. -/
def astray (d : Distribution) : Distribution := { d with root := d.root.map (· + 1) }

theorem root_ne_astray {d : Distribution} (size : d.root.length = hashSize) :
    d.root ≠ (astray d).root := by
  intro same
  obtain ⟨first, rest, root⟩ := List.exists_cons_of_length_eq_add_one size
  rw [astray, root] at same
  have shifted : first = first + 1 := (List.cons.inj same).1
  grind

/-- A volume with a distribution that has another root than it should, and with the table of
its records. -/
def amending (d : Distribution) (records : List Record) : Volume :=
  ⟨"", [(["tree.json"], .file (Text.toUtf8 (astray d).toText)),
    (["grants.csv"], .file (Text.toUtf8 (Csv.tableOf records)))], "", ""⟩

/-- The distribution is replaced in its file by the one that is built of the table. -/
theorem rotate_all_or_nothing_twins :
    ∃ d : Distribution, Distribution.buildAs Distribution.twins (.int 0) = .ok d ∧
      ExitsWith 0 (run [] ["rotate", "--tree", "tree.json", "--csv", "grants.csv", "--out",
        "tree.json"]) (amending d Distribution.twins) ∧
      Volume.fileSystem.ReadsAs (after (run [] ["rotate", "--tree", "tree.json", "--csv",
        "grants.csv", "--out", "tree.json"]) (amending d Distribution.twins))
        (.ofString "tree.json") Distribution.ofFile d := by
  obtain ⟨tree, -, built⟩ :=
    Distribution.buildAs_of_acceptable Distribution.acceptable_twins (by decide) 0
  obtain ⟨d, given, version⟩ : ∃ d, Distribution.buildAs Distribution.twins (Record.ofWord 0) =
    .ok d ∧ d.version = 0 := ⟨_, built, rfl⟩
  have size := Distribution.length_root_of_buildAs given
  have asks : Invocation.read ["rotate", "--tree", "tree.json", "--csv", "grants.csv", "--out",
      "tree.json"] = .run ⟨none, none, .rotate ⟨"tree.json", "grants.csv", some "tree.json", none,
        false⟩⟩ := rfl
  obtain ⟨s, log, started, unlogged⟩ : ∃ s log, result (startUp [] none none)
      (amending d Distribution.twins) = .ok (s, log) ∧ log.file = none := ⟨_, _, rfl, rfl⟩
  have there : Path.ofString "tree.json" = ⟨"", ["tree.json"]⟩ := by decide
  have free : (amending d Distribution.twins).find? ⟨"", ["tree.json"]⟩ ≠ some .directory := nofun
  have writable := writable_volume (by decide) unlogged free
  rw [← there] at writable
  have rotation : Rotation Volume.fileSystem ⟨"tree.json", "grants.csv", some "tree.json", none,
      false⟩ (amending d Distribution.twins) (astray d) Distribution.twins d := by
    refine ⟨⟨_, rfl, Distribution.ofFile_toText ?_ _⟩, ⟨_, rfl, Csv.recordsOfFile_tableOf _ _⟩,
      ?_, root_ne_astray size⟩
    · exact (List.length_map _).trans size
    · show Distribution.buildAs Distribution.twins (Record.ofWord d.version) = .ok d
      rw [version, given]
  obtain ⟨ends, -, kept⟩ := rotate_all_or_nothing Volume.fileSystem asks started rfl (by decide)
    (fun path _ => spared_of_no_file unlogged _) writable
  exact ⟨d, given, ends.2 ⟨_, _, _, rotation⟩, (kept _ _ _ rotation).1⟩

end Program

end Vesting
