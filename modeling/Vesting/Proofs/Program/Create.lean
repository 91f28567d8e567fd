/-
# Distributions are created as they are built

A request to create a distribution reads a table, builds the distribution of its records,
keeps it in a file, and, if it is asked for, reads the file back and audits it. Main
statement: the program never finds a mismatch. It fails without touching the file if the
distribution is not built, and if it ends well the file holds what was built, the report
tells the depth of its tree, and every later run finds the distribution usable.

The table is read after the program has started, so it may even be the file of the log. The
log has to spare the file that is kept.
-/

import Vesting.Proofs.Program.Kept

namespace Vesting

/-- The distribution that is built of a table. -/
def Distribution.ofTable (path : String) (content : Bytes) (version : Value) :
    Except Failure Distribution :=
  match Csv.recordsOfFile path content with
  | .error failure => .error failure
  | .ok records => buildAs records version

theorem Distribution.ofTable_eq_ok_iff {path : String} {content : Bytes} {version : Value}
    {d : Distribution} : ofTable path content version = .ok d ↔
      ∃ records, Csv.recordsOfFile path content = .ok records ∧
        buildAs records version = .ok d := by
  unfold ofTable
  cases Csv.recordsOfFile path content with
  | error failure => simp
  | ok records => simp

namespace Program

/-! ## Requests -/

/-- The version of the distribution. -/
def createVersion (s : Settings) (args : CreateArguments) : Value :=
  (args.version.map .int).getD s.tree.version

/-- The distribution that is asked for: the one of the table at the path that is given. -/
def requested (s : Settings) (args : CreateArguments) (content : Bytes) :
    Except Failure Distribution :=
  Distribution.ofTable (Path.ofString args.table).toString content (createVersion s args)

/-- Whether the distribution is read back and audited. -/
def strictFor (s : Settings) (args : CreateArguments) : Bool :=
  args.strict.getD !s.tree.strict.isBlank

/-- Where the distribution is kept. -/
def outputOf (s : Settings) (asked : Option String) : Except Failure Path :=
  match nonempty asked with
  | some path => .ok (.ofString path)
  | none => s.tree.outputPath.mapError .settings

theorem outputPath_eq {m : Type → Type} [Monad m] (s : Settings) (asked : Option String) :
    (outputPath s asked : ExceptT Failure m Path) = outcome (outputOf s asked) := by
  unfold outputPath outputOf
  cases nonempty asked <;> rfl

theorem run_outputPath {W : Type} {s : Settings} {asked : Option String} {out : Path}
    (leads : outputOf s asked = .ok out) (w : W) :
    result (outputPath s asked : ExceptT Failure (StateM W) Path) w = .ok out ∧
      after (outputPath s asked : ExceptT Failure (StateM W) Path) w = w := by
  rw [outputPath_eq, leads]
  exact ⟨rfl, rfl⟩

variable {W : Type} [Storage (StateM W)] {fs : FileSystem W} {log : Log} {s : Settings}
  {args : CreateArguments} {d : Distribution} {out : Path} {content : Bytes} {w : W}

/-! ## Building and keeping -/

/-- The distribution of the table at a path. -/
def buildTable (log : Log) (table : Path) (version : Value) :
    ExceptT Failure (StateM W) Distribution := do
  build log (← Csv.load table) version

/-- The distribution of a table, kept in a file. -/
def makeTree (log : Log) (table : Path) (version : Value) (out : Path) :
    ExceptT Failure (StateM W) Distribution := do
  let d ← build log (← Csv.load table) version
  keep log d out
  return d

theorem makeTree_eq (log : Log) (table : Path) (version : Value) (out : Path) :
    (makeTree log table version out : ExceptT Failure (StateM W) Distribution) =
      (do let d ← buildTable log table version; keep log d out; return d) := by
  rw [makeTree, buildTable, bind_assoc]

/-- What is built of a table depends on its content alone. -/
theorem result_buildTable {table : Path} (present : fs.find? w table = some (.file content))
    (log : Log) (version : Value) :
    result (buildTable log table version) w =
      Distribution.ofTable table.toString content version := by
  have read : result (Csv.load table : ExceptT Failure (StateM W) (List Record)) w =
      Csv.recordsOfFile table.toString content := result_reading present
  unfold buildTable Distribution.ofTable
  cases parsed : Csv.recordsOfFile table.toString content with
  | error failure => rw [parsed] at read; exact result_bind_of_error read
  | ok records =>
      rw [parsed] at read
      rw [result_bind_of_ok read]
      exact result_build log records version _

theorem reports_buildTable (table : Path) (version : Value) : Reports fs log ""
    (buildTable log table version : ExceptT Failure (StateM W) Distribution) := by
  have loads : Reports fs log "" (Csv.load table : ExceptT Failure (StateM W) (List Record)) := by
    intro w
    obtain ⟨unchanged, -⟩ := run_load_table fs Csv.recordsOfFile table w
    rw [Csv.load, unchanged]
    exact .refl w
  exact loads.bind fun records => reports_build records version

/-! ## The command -/

theorem result_reportRefusal (tried : String) (refusal : Refusal) (json : Bool) (w : W) :
    result (reportRefusal tried refusal json : ExceptT Failure (StateM W) ExitStatus) w =
      .ok .failure := by
  cases json <;> rfl

theorem fails_reportRefusal (tried : String) (refusal : Refusal) (json : Bool) (w : W) :
    Fails fs log (reportRefusal tried refusal json) w := by
  cases json with
  | true => exact ⟨rfl, _, Moves.bind_pure (reports_printLine _) _ w⟩
  | false => exact fails_complainAndFail _ w

/-- Without a distribution the command fails. -/
theorem create_of_error {failure : Failure} (leads : outputOf s args.output = .ok out)
    (present : fs.find? w (.ofString args.table) = some (.file content))
    (failed : requested s args content = .error failure) :
    Fails fs log (create log s args) w := by
  have built := (result_buildTable present log (createVersion s args)).trans failed
  have made : result (makeTree log (.ofString args.table) (createVersion s args) out) w =
      .error failure := by rw [makeTree_eq, result_bind_of_error built]
  have noted : fs.Adds log "" w
      (after (makeTree log (.ofString args.table) (createVersion s args) out) w) := by
    rw [makeTree_eq, after_bind_of_error built]
    exact reports_buildTable _ _ w
  obtain ⟨named, unchanged⟩ := run_outputPath leads w
  unfold create
  refine Fails.bind (by rw [unchanged]; exact .refl w) named ?_
  rw [unchanged]
  exact fails_of_error noted made fun refusal w => fails_reportRefusal _ _ _ w

/-- What is told about a distribution that was kept, if nothing is wrong with it. -/
def createSummary (s : Settings) (args : CreateArguments) (out : Path) (d : Distribution)
    (strict : Bool) : CreateSummary :=
  ⟨.ofString args.table, out, createVersion s args, d, strict, []⟩

/-- The text of the report about it. -/
def createReport (s : Settings) (args : CreateArguments) (out : Path) (d : Distribution)
    (strict : Bool) : String :=
  reportText args.json (createSummary s args out d strict).fields
    (createSummary s args out d strict).lines

/-- Read the distribution back if it is asked for, and report it. -/
def reportCreated (log : Log) (s : Settings) (args : CreateArguments) (out : Path)
    (d : Distribution) (strict : Bool) : ExceptT Failure (StateM W) ExitStatus := do
  let verdict ← if strict then auditKept log out else pure (Verdict.success [])
  if !verdict.ok then
    log.note .warning createSource s!"Written tree failed its audit: {out.toString}"
  let summary : CreateSummary :=
    ⟨.ofString args.table, out, createVersion s args, d, strict, verdict.messages⟩
  if args.json then printFields summary.fields else printLines summary.lines
  return if verdict.ok then .success else .mismatch

/-- A consistent distribution that lies in its file is found as it is. -/
theorem run_auditKept (fs : FileSystem W) (log : Log) (consistent : d.Consistent)
    (size : d.root.length = hashSize)
    (present : fs.find? w out = some (.file (Text.toUtf8 d.toText))) :
    result (auditKept log out) w = .ok (.success (Distribution.checkNames.map .passed)) ∧
      fs.Adds log "" w (after (auditKept log out) w) := by
  obtain ⟨unchanged, loads⟩ := run_load_distribution fs out w
  have loaded := (loads d).2 ⟨_, present, Distribution.ofFile_toText size _⟩
  unfold auditKept
  rw [result_bind_of_ok loaded, after_bind_of_ok loaded, unchanged, result_auditNoting,
    consistent.audit_eq]
  exact ⟨rfl, Moves.bind_pure (reports_of_note_cases (noteTree_cases log d.records)) _ w⟩

/-- Nothing is found wrong with it, and it is reported. -/
theorem run_reportCreated (fs : FileSystem W) (log : Log) (s : Settings) (args : CreateArguments)
    (strict : Bool) (consistent : d.Consistent) (size : d.root.length = hashSize)
    (present : fs.find? w out = some (.file (Text.toUtf8 d.toText))) :
    result (reportCreated log s args out d strict) w = .ok .success ∧
      fs.Adds log (createReport s args out d strict) w
        (after (reportCreated log s args out d strict) w) := by
  have ends (w : W) := result_tell args.json (createSummary s args out d strict).fields
    (createSummary s args out d strict).lines .success w
  have told (w : W) := reports_tell fs log args.json (createSummary s args out d strict).fields
    (createSummary s args out d strict).lines .success w
  cases strict with
  | true =>
      obtain ⟨audited, noted⟩ := run_auditKept fs log consistent size present
      unfold reportCreated
      exact ⟨(result_bind_of_ok audited).trans (ends _), adds_bind noted audited (told _)⟩
  | false => exact ⟨ends w, told w⟩

/-- With a distribution the command ends well exactly if it can be kept, and otherwise it
fails. -/
theorem create_of_ok (fs : FileSystem W) (leads : outputOf s args.output = .ok out)
    (present : fs.find? w (.ofString args.table) = some (.file content))
    (built : requested s args content = .ok d) (spared : fs.Spared log out) :
    ∃ mid, fs.Adds log "" w mid ∧
      (∀ failure, result (keep log d out) mid = .error failure →
        statusOf (result (create log s args) w) = .failure) ∧
      (result (keep log d out) mid = .ok () →
        result (create log s args) w = .ok .success ∧
        fs.Adds log (createReport s args out d (strictFor s args))
          (after (keep log d out) mid) (after (create log s args) w)) := by
  have ends : result (buildTable log (.ofString args.table) (createVersion s args)) w = .ok d :=
    (result_buildTable present log _).trans built
  obtain ⟨named, unchanged⟩ := run_outputPath leads w
  refine ⟨_, reports_buildTable (.ofString args.table) (createVersion s args) w, ?_, ?_⟩
  · intro failure failed
    have made : result (makeTree log (.ofString args.table) (createVersion s args) out) w =
        .error failure := by
      rw [makeTree_eq, result_bind_of_ok ends, result_bind_of_error failed]
    unfold create
    rw [result_bind_of_ok named, unchanged]
    refine statusOf_of_error made fun refusal w => ?_
    rw [result_reportRefusal]
    rfl
  · intro kept
    have made : result (makeTree log (.ofString args.table) (createVersion s args) out) w =
        .ok d := by
      rw [makeTree_eq, result_bind_of_ok ends, result_bind_of_ok kept]
      rfl
    have leaves : after (makeTree log (.ofString args.table) (createVersion s args) out) w =
        after (keep log d out)
          (after (buildTable log (.ofString args.table) (createVersion s args)) w) := by
      rw [makeTree_eq, after_bind_of_ok ends, after_bind_of_ok kept]
      rfl
    have run : (create log s args : ExceptT Failure (StateM W) ExitStatus).run.run w =
        (reportCreated log s args out d (strictFor s args)).run.run (after (keep log d out)
          (after (buildTable log (.ofString args.table) (createVersion s args)) w)) := by
      unfold create
      refine (run_bind_of_ok named).trans ?_
      rw [unchanged]
      refine (run_refusable_bind_of_ok _ made).trans ?_
      rw [leaves]
      rfl
    obtain ⟨records, -, given⟩ := Distribution.ofTable_eq_ok_iff.1 built
    obtain ⟨-, consistent, -⟩ := Distribution.exists_ofTree_of_buildAs_eq_ok given
    have size := Distribution.length_root_of_buildAs given
    obtain ⟨good, told⟩ := run_reportCreated fs log s args (strictFor s args) consistent size
      (find?_keep fs kept spared)
    have finishes : after (create log s args) w = _ := congrArg Prod.snd run
    exact ⟨(congrArg Prod.fst run).trans good, finishes ▸ told⟩

/-! ## The program -/

/-- The depth that is reported is the one of the tree over the records. -/
theorem depth_createSummary (consistent : d.Consistent) (strict : Bool) {tree : Merkle.Tree}
    (grown : d.tree = .ok tree) : (createSummary s args out d strict).depth = tree.depth := by
  have leaves : tree.leaves.length = d.maxEscrows.toNat :=
    (Batch.count_of_tree_eq_ok grown).trans ((List.length_map _).trans consistent.count)
  have some : ¬ ((d.maxEscrows.toNat : Int) ≤ 0) := by
    have := List.length_pos_iff.2 tree.nonempty
    omega
  have layers : tree.depth = Merkle.depthOver d.maxEscrows.toNat := by
    rw [Merkle.Tree.depth, tree.layers_eq, Merkle.length_layers, leaves]
  rw [layers, createSummary, CreateSummary.depth, Merkle.depthFor, if_neg some, Int.toNat_natCast]

theorem tells_depth_createReport (s : Settings) (args : CreateArguments) (out : Path)
    (d : Distribution) (strict : Bool) :
    Tells args.json (createReport s args out d strict) "depth"
      (.int (createSummary s args out d strict).depth)
      s!"depth: {(createSummary s args out d strict).depth}" := by
  refine tells_reportText ?_ ?_
  · simp [CreateSummary.fields, createSummary, Fields.get?]
  · simp [CreateSummary.lines]

/-- What is left after a distribution has been created: it is the one that is asked for and has
the records of the table, it is read from its file, the report has been printed and tells the
depth of the tree over the records, the distribution is usable, and the table is still there
unless it is the file of the distribution or the log. -/
structure Created (fs : FileSystem W) (log : Log) (s : Settings) (args : CreateArguments)
    (out : Path) (content : Bytes) (before later : W) (d : Distribution) : Prop where
  built : requested s args content = .ok d
  records : Csv.recordsOfFile (Path.ofString args.table).toString content = .ok d.records
  kept : fs.ReadsAs later out Distribution.ofFile d
  depth : ∃ tree : Merkle.Tree, d.tree = .ok tree ∧
    (createSummary s args out d (strictFor s args)).depth = tree.depth ∧
    Tells args.json (createReport s args out d (strictFor s args)) "depth" (.int tree.depth)
      s!"depth: {tree.depth}"
  printed : fs.printed later = fs.printed before ++ createReport s args out d (strictFor s args)
  usable : Usable fs later out (.ofString args.table) content d
  table : fs.Apart out (.ofString args.table) → fs.Spared log (.ofString args.table) →
    fs.find? later (.ofString args.table) = some (.file content)

/-- What was kept is usable, and the rest of the run only reports it. -/
theorem created_of_kept {before mid later : W} (built : requested s args content = .ok d)
    (opened : fs.Adds log "" before w)
    (present : fs.find? w (.ofString args.table) = some (.file content))
    (noted : fs.Adds log "" w mid) (spared : fs.Spared log out)
    (kept : result (keep log d out) mid = .ok ())
    (told : fs.Adds log (createReport s args out d (strictFor s args))
      (after (keep log d out) mid) later) :
    Created fs log s args out content before later d := by
  obtain ⟨records, parsed, given⟩ := Distribution.ofTable_eq_ok_iff.1 built
  obtain ⟨-, consistent, tree, number, grown, same⟩ :=
    Distribution.exists_ofTree_of_buildAs_eq_ok given
  have listed : d.records = records := by rw [same, Distribution.records_ofTree grown]
  rw [← listed] at parsed given grown
  have there : fs.find? later out = some (.file (Text.toUtf8 d.toText)) :=
    (told.files out spared).trans (find?_keep fs kept spared)
  have depth : (createSummary s args out d (strictFor s args)).depth = tree.depth :=
    depth_createSummary consistent _ grown
  refine ⟨built, parsed, ⟨_, there, Distribution.ofFile_toText ?_ _⟩, ⟨tree, grown, depth, ?_⟩,
    ?_, usable_of_kept fs parsed given there, ?_⟩
  · exact Distribution.length_root_of_buildAs given
  · exact depth ▸ tells_depth_createReport s args out d (strictFor s args)
  · rw [told.results, printed_keep, noted.results, opened.results]
    simp only [String.append_empty]
  · intro apart sparedTable
    rw [told.files _ sparedTable]
    exact find?_keep_of_apart apart sparedTable ((noted.files _ sparedTable).trans present)

variable {env : Environment} {settings level : Option String} {line : List String} {before : W}

/-- A distribution is created as it is built, and nothing is found wrong with it afterwards.
The program ends well or fails; it never ends with a mismatch, whether it has looked at the
file again or not. If the distribution of the table is not built, it fails, and no file is
changed that the log spares. If it is built and its file can be created, it ends well. And if
it ends well, a distribution has been created. -/
theorem create_consistent (fs : FileSystem W)
    (asks : Invocation.read line = .run ⟨settings, level, .create args⟩)
    (started : result (startUp env settings level) before = .ok (s, log))
    (leads : outputOf s args.output = .ok out)
    (present : fs.find? (after (startUp env settings level) before) (.ofString args.table) =
      some (.file content))
    (spared : fs.Spared log out) :
    (ExitsWith 0 (run env line) before ∨ ExitsWith 1 (run env line) before) ∧
    ¬ ExitsWith 2 (run env line) before ∧
    (∀ failure, requested s args content = .error failure →
      ExitsWith 1 (run env line) before ∧ ∀ path, fs.Spared log path →
        fs.find? (after (run env line) before) path = fs.find? before path) ∧
    (∀ d, requested s args content = .ok d → Writable fs log out before →
      ExitsWith 0 (run env line) before) ∧
    (ExitsWith 0 (run env line) before →
      ∃ d, Created fs log s args out content before (after (run env line) before) d) := by
  have opened := adds_startUp fs started
  have finished := adds_run fs asks started
  have fails (ends : ExitsWith 1 (run env line) before) {code : Nat} (other : 1 ≠ code) :
      ¬ ExitsWith code (run env line) before := fun ends' => other (ends.code_eq ends')
  cases built : requested s args content with
  | error failure =>
      have failed := run_of_fails asks started (create_of_error leads present built)
      exact ⟨.inr failed.1, fails failed.1 (by decide), fun _ _ => failed, nofun,
        fun ends => absurd ends (fails failed.1 (by decide))⟩
  | ok d =>
      obtain ⟨mid, noted, bad, good⟩ := create_of_ok fs leads present built spared
      cases kept : result (keep log d out) mid with
      | error failure =>
          have failed : ExitsWith 1 (run env line) before :=
            exitsWith_run asks started (bad failure kept)
          refine ⟨.inr failed, fails failed (by decide), nofun, fun e same writable => ?_,
            fun ends => absurd ends (fails failed (by decide))⟩
          have possible := (writable.of_adds opened).result_keep noted d
          rw [kept] at possible
          cases possible
      | ok done =>
          obtain ⟨status, told⟩ := good kept
          have ends : ExitsWith 0 (run env line) before :=
            exitsWith_run asks started (congrArg statusOf status)
          refine ⟨.inl ends, fun ends' => absurd (ends.code_eq ends') (by decide), nofun,
            fun _ _ _ => ends, fun _ => ⟨d, ?_⟩⟩
          have report := told.trans finished
          rw [String.append_empty] at report
          exact created_of_kept built opened present noted spared kept report

/-- A volume with the table of some records. -/
def listing (records : List Record) : Volume :=
  ⟨"", [(["grants.csv"], .file (Text.toUtf8 (Csv.tableOf records)))], "", ""⟩

/-- A command line that asks for a distribution of the table, and for an audit. -/
def creating : List String :=
  ["create-merkle-tree", "--csv", "grants.csv", "--out", "tree.json", "--strict"]

/-- The distribution of a table is created and kept. A second run that audits it ends well, and
one that rotates it to the same table fails. -/
theorem create_consistent_twins :
    ∃ (d : Distribution) (later : Volume), d.records = Distribution.twins ∧
      ExitsWith 0 (run [] creating) (listing Distribution.twins) ∧
      after (run [] creating) (listing Distribution.twins) = later ∧
      Volume.fileSystem.ReadsAs later (.ofString "tree.json") Distribution.ofFile d ∧
      ExitsWith 0 (run [] ["verify-tree", "tree.json"]) later ∧
      ExitsWith 1 (run [] ["rotate", "--tree", "tree.json", "--csv", "grants.csv"]) later := by
  obtain ⟨tree, -, built⟩ :=
    Distribution.buildAs_of_acceptable Distribution.acceptable_twins (by decide) 0
  have asks : Invocation.read creating =
    .run ⟨none, none, .create ⟨"grants.csv", some "tree.json", none, some true, false⟩⟩ := rfl
  obtain ⟨s, log, started, unlogged, numbered⟩ : ∃ s log, (∀ v : Volume,
      result (startUp [] none none) v = .ok (s, log)) ∧ log.file = none ∧
        s.tree.version = Record.ofWord 0 := ⟨_, _, fun _ => rfl, rfl, rfl⟩
  have unchanged (v : Volume) : after (startUp [] none none) v = v := rfl
  have present : Volume.fileSystem.find? (listing Distribution.twins) (.ofString "grants.csv") =
    some (.file (Text.toUtf8 (Csv.tableOf Distribution.twins))) := rfl
  have there : Path.ofString "tree.json" = ⟨"", ["tree.json"]⟩ := by decide
  have free : (listing Distribution.twins).find? ⟨"", ["tree.json"]⟩ ≠ some .directory := nofun
  have writable := writable_volume (by decide) unlogged free
  rw [← there] at writable
  have spared (path : Path) : Volume.fileSystem.Spared log path := spared_of_no_file unlogged path
  have asked : requested s ⟨"grants.csv", some "tree.json", none, some true, false⟩
      (Text.toUtf8 (Csv.tableOf Distribution.twins)) =
        .ok (Distribution.ofTree tree Distribution.twins 0) := by
    refine Distribution.ofTable_eq_ok_iff.2 ⟨_, Csv.recordsOfFile_tableOf _ _, ?_⟩
    exact (congrArg (Distribution.buildAs Distribution.twins) numbered).trans built
  obtain ⟨-, -, -, ends, created⟩ :=
    create_consistent Volume.fileSystem asks (started _) rfl present (spared _)
  have done := ends _ asked writable
  obtain ⟨d, holds⟩ := created done
  have records := holds.records
  rw [Csv.recordsOfFile_tableOf] at records
  have table := holds.table (Volume.apart (by decide)) (spared _)
  have audits : Invocation.read ["verify-tree", "tree.json"] =
    .run ⟨none, none, .audit ⟨"tree.json", false, false⟩⟩ := rfl
  have rotates : Invocation.read ["rotate", "--tree", "tree.json", "--csv", "grants.csv"] =
    .run ⟨none, none, .rotate ⟨"tree.json", "grants.csv", none, none, false⟩⟩ := rfl
  exact ⟨d, _, (Except.ok.inj records).symm, done, rfl, holds.kept,
    holds.usable.audited audits rfl (started _) (spared _),
    (holds.usable.settled rotates rfl rfl (started _) (spared _) (by rw [unchanged, table])).1⟩

end Program

end Vesting
