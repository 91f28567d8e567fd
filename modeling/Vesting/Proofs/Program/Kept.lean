/-
# What can be done with a distribution that is kept

A distribution that was built of a table lies in a file. Main statement: the program finds
nothing wrong with it, whichever of its commands looks at it. The audit is passed, every
recipient is verified, and there is nothing to rotate to as long as the table is the same.

Each run may have settings and a log of its own, as long as its log spares the file.
-/

import Vesting.Proofs.Program.Agreement
import Vesting.Proofs.Program.Rotate

namespace Vesting.Program

variable {W : Type} [Storage (StateM W)] {fs : FileSystem W} {log : Log} {d : Distribution}
  {w : W}

theorem result_auditNoting (log : Log) (d : Distribution) (w : W) :
    result (auditNoting log d) w = .ok d.audit :=
  (unfailing_of_note_cases (noteTree_cases log d.records)).result_bind_eq (fun _ => rfl) w

/-- The command that audits ends as the audit does. -/
theorem result_audit (log : Log) {args : AuditArguments}
    (loaded : result (Distribution.load (.ofString args.distribution)) w = .ok d) :
    result (audit log args) w = .ok (if d.audit.ok then .success else .mismatch) := by
  unfold audit
  refine (congrArg Prod.fst (run_refusable_bind_of_ok _ loaded)).trans ?_
  refine (result_bind_of_ok (result_auditNoting log d _)).trans ?_
  refine (unfailing_print _ _).result_bind_eq (fun w => ?_) _
  cases d.audit.ok with
  | true => exact (unfailing_note log _ _ _).result_bind_eq (fun _ => rfl) w
  | false => exact (unfailing_note log _ _ _).result_bind_eq (fun _ => rfl) w

/-- What a run of the program makes of a distribution that is kept in a file and was built of a
table: it passes its audit, each of its recipients is verified, however the key is spelled, and
a rotation to the same table fails and changes no file that the log spares. -/
structure Usable (fs : FileSystem W) (w : W) (out table : Path) (content : Bytes)
    (d : Distribution) : Prop where
  audited {env : Environment} {line : List String} {settings level : Option String}
    {s : Settings} {log : Log} {args : AuditArguments}
    (asks : Invocation.read line = .run ⟨settings, level, .audit args⟩)
    (kept : Path.ofString args.distribution = out)
    (started : result (startUp env settings level) w = .ok (s, log))
    (spared : fs.Spared log out) : ExitsWith 0 (run env line) w
  verified {env : Environment} {line : List String} {settings level : Option String}
    {s : Settings} {log : Log} {args : VerifyArguments} {r : Record} (listed : r ∈ d.records)
    (asks : Invocation.read line = .run ⟨settings, level, .verify args⟩)
    (spelled : ofHex args.recipient = .ok r.recipient.bytes) (unrooted : args.root = none)
    (kept : Path.ofString args.distribution = out)
    (started : result (startUp env settings level) w = .ok (s, log))
    (spared : fs.Spared log out) : ExitsWith 0 (run env line) w
  settled {env : Environment} {line : List String} {settings level : Option String}
    {s : Settings} {log : Log} {args : RotateArguments}
    (asks : Invocation.read line = .run ⟨settings, level, .rotate args⟩)
    (kept : Path.ofString args.distribution = out)
    (same : Path.ofString args.table = table)
    (started : result (startUp env settings level) w = .ok (s, log))
    (spared : fs.Spared log out)
    (present : fs.find? (after (startUp env settings level) w) table = some (.file content)) :
    ExitsWith 1 (run env line) w ∧ ∀ path, fs.Spared log path →
      fs.find? (after (run env line) w) path = fs.find? w path

/-- A distribution that is kept in a file is loaded once the program has started. -/
theorem ready_of_kept (fs : FileSystem W) {env : Environment} {settings level : Option String}
    {s : Settings} {path : String} (size : d.root.length = hashSize)
    (present : fs.find? w (.ofString path) = some (.file (Text.toUtf8 d.toText)))
    (started : result (startUp env settings level) w = .ok (s, log))
    (spared : fs.Spared log (.ofString path)) : Ready env settings level path d w where
  starts := ⟨s, log, started⟩
  loads := by
    obtain ⟨-, loads⟩ := run_load_distribution fs (.ofString path)
      (after (startUp env settings level) w)
    have still := (adds_startUp fs started).files _ spared
    exact (loads d).2 ⟨_, still.trans present, Distribution.ofFile_toText size _⟩

/-- The version has no part in the root. -/
theorem root_eq_of_buildAs {records : List Record} {version version' : Value}
    {d' : Distribution} (built : Distribution.buildAs records version = .ok d)
    (built' : Distribution.buildAs records version' = .ok d') : d.root = d'.root := by
  obtain ⟨-, -, tree, number, grown, rfl⟩ := Distribution.exists_ofTree_of_buildAs_eq_ok built
  obtain ⟨-, -, tree', number', grown', rfl⟩ := Distribution.exists_ofTree_of_buildAs_eq_ok built'
  obtain rfl : tree = tree' := Except.ok.inj (grown.symm.trans grown')
  rfl

/-- A distribution that was built of a table is usable where it is kept. -/
theorem usable_of_kept (fs : FileSystem W) {out table : Path} {content : Bytes}
    {records : List Record} {version : Value}
    (parsed : Csv.recordsOfFile table.toString content = .ok records)
    (built : Distribution.buildAs records version = .ok d)
    (present : fs.find? w out = some (.file (Text.toUtf8 d.toText))) :
    Usable fs w out table content d := by
  have size := Distribution.length_root_of_buildAs built
  obtain ⟨-, consistent, -⟩ := Distribution.exists_ofTree_of_buildAs_eq_ok built
  refine ⟨?_, ?_, ?_⟩
  · intro env line settings level s log args asks kept started spared
    subst kept
    have ready := ready_of_kept fs size present started spared
    have ends := result_audit log ready.loads
    rw [Distribution.ok_audit_iff.2 consistent] at ends
    exact exitsWith_run asks started (congrArg statusOf ends)
  · intro env line settings level s log args r listed asks spelled unrooted kept started spared
    subst kept
    have ready := ready_of_kept fs size present started spared
    obtain ⟨n, member, rfl⟩ := List.mem_map.1 listed
    obtain ⟨siblings, proof, holds⟩ := consistent.proofs n member
    have found := Distribution.node_of_ofHex consistent.distinct member spelled
    refine (exitsWith_zero_iff asks unrooted ready found).2 ?_
    rw [reached, proof]
    exact (beq_iff_eq.1 holds).symm
  · intro env line settings level s log args asks kept same started spared there
    subst kept same
    have still := (adds_startUp fs started).files _ spared
    refine run_of_fails asks started (rotate_of_no_plan fs log ?_)
    intro current new a inputs plan
    obtain ⟨⟨text, found, read⟩, bytes, found', read'⟩ :=
      (result_rotateInputs_eq_ok_iff fs).1 inputs
    obtain ⟨d', built', differs, -⟩ := Amendment.planAs_eq_ok_iff.1 plan
    rw [still, present] at found
    rw [there] at found'
    cases found
    cases found'
    rw [Distribution.ofFile_toText size] at read
    obtain rfl := Except.ok.inj read
    obtain rfl := Except.ok.inj (parsed.symm.trans (Csv.batchOfFile_eq_ok_iff.1 read').1)
    exact differs (root_eq_of_buildAs built' built)

end Vesting.Program
