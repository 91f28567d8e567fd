/-
# Files of distributions hold what was kept

Main statement: a distribution whose root has the size of a hash is what its file holds, with
any number of nodes, any amounts, and any proofs; every distribution that is built or loaded
has such a root; and so loading, keeping and loading again leaves a distribution and its file
as they are.

The file is indented JSON in UTF-8. What is read at each of the three steps is what was
written: bytes are read as their text, the text as the value, the value as the distribution.
Of the world it is only assumed that it keeps its files.
-/

import Vesting.Distribution.File
import Vesting.Proofs.Distribution.Reading
import Vesting.Proofs.Storage
import Vesting.Proofs.Text.Utf8

namespace Vesting.Distribution

variable {d : Distribution}

/-! ## Contents of files -/

/-- The text of a distribution is the content of a file that holds it. -/
theorem ofFile_toText (size : d.root.length = hashSize) (path : String) :
    ofFile path (Text.toUtf8 d.toText) = .ok d := by
  rw [ofFile, Text.ofUtf8_toUtf8]
  simp only [ofJson_toText size]
  rfl

theorem length_root_of_ofFile {path : String} {content : Bytes}
    (loaded : ofFile path content = .ok d) : d.root.length = hashSize := by
  unfold ofFile at loaded
  split at loaded
  next => cases loaded
  next text _ =>
    cases parsed : ofJson text with
    | error _ => rw [parsed] at loaded; cases loaded
    | ok e =>
        rw [parsed] at loaded
        cases loaded
        exact length_root_of_ofJson parsed

theorem length_root_of_buildAs {records : List Record} {version : Value}
    (built : buildAs records version = .ok d) : d.root.length = hashSize := by
  obtain ⟨-, -, tree, number, -, rfl⟩ := exists_ofTree_of_buildAs_eq_ok built
  exact tree.length_root

/-! ## Files -/

section World

variable {m : Type → Type} [Monad m] [LawfulMonad m] [Storage m]

/-- What is kept in a file is what is loaded from it. -/
theorem save_load (keeps : Storage.KeepsFiles m) (size : d.root.length = hashSize) (path : Path) :
    (do d.save path; load path : ExceptT Failure m Distribution) =
      (do d.save path; return d) := by
  unfold save load
  rw [← bind_assoc, keeps, bind_assoc]
  simp only [pure_bind, ofFile_toText size]
  rfl

/-- What stands behind loading has to agree only on distributions whose root has the size of a
hash. -/
theorem load_bind_congr {α : Type} (path : Path)
    {next other : Distribution → ExceptT Failure m α}
    (same : ∀ d : Distribution, d.root.length = hashSize → next d = other d) :
    (load path >>= next : ExceptT Failure m α) = load path >>= other := by
  unfold load
  rw [bind_assoc, bind_assoc]
  congr 1
  funext content?
  cases content? with
  | none =>
      apply ExceptT.ext
      simp
  | some content =>
      cases loaded : ofFile path.toString content with
      | error failure =>
          apply ExceptT.ext
          simp [ExceptT.run_bind, loaded]
      | ok d =>
          have done : (ExceptT.mk (pure (.ok d)) : ExceptT Failure m Distribution) = pure d := rfl
          simp only [loaded, done, pure_bind]
          exact same d (length_root_of_ofFile loaded)

/-- Files of distributions hold what was kept in them. With a root of the size of a hash, a
distribution is read back from its text and from its file, in every world that keeps its
files. Every distribution that is built or loaded has such a root, so that a file that is
loaded and kept holds the same distribution again, and the same text if that is kept. -/
theorem files_round_trip (keeps : Storage.KeepsFiles m) :
    (∀ d : Distribution, d.root.length = hashSize →
      ofJson d.toText = .ok d ∧
      (∀ path : String, ofFile path (Text.toUtf8 d.toText) = .ok d) ∧
      ∀ path : Path, (do d.save path; load path : ExceptT Failure m Distribution) =
        (do d.save path; return d)) ∧
    (∀ (records : List Record) (version : Value) (d : Distribution),
      buildAs records version = .ok d → d.root.length = hashSize) ∧
    (∀ (path : String) (content : Bytes) (d : Distribution), ofFile path content = .ok d →
      d.root.length = hashSize ∧
      ∀ other : String, ∃ again, ofFile other (Text.toUtf8 d.toText) = .ok again ∧
        again = d ∧ again.toText = d.toText) ∧
    ∀ source target : Path,
      (do let d ← load source; d.save target; load target : ExceptT Failure m Distribution) =
        (do let d ← load source; d.save target; return d) := by
  refine ⟨?_, ?_, ?_, ?_⟩
  · intro d size
    exact ⟨ofJson_toText size, ofFile_toText size, save_load keeps size⟩
  · intro records version d built
    exact length_root_of_buildAs built
  · intro path content d loaded
    have size := length_root_of_ofFile loaded
    exact ⟨size, fun other => ⟨d, ofFile_toText size other, rfl, rfl⟩⟩
  · intro source target
    exact load_bind_congr source fun d size => save_load keeps size target

end World

/-- A record with the largest words and modes. -/
def largestRecord : Record where
  recipient := ⟨List.replicate 32 0, rfl⟩
  start := 0xffffffffffffffff
  cliff := 0xffffffffffffffff
  frequency := 0xffffffffffffffff
  cliffAmount := 0xffffffffffffffff
  periodAmount := 0xffffffffffffffff
  periods := 0xffffffffffffffff
  updateMode := 0xff
  cancelMode := 0xff

/-- A distribution with proofs of every kind: none, an empty one, and one whose siblings have
no bytes, one byte and more than a hash. It is not consistent. -/
def oddProofs : Distribution where
  root := List.replicate 32 0xab
  version := 0xffffffffffffffff
  maxClaim := 0xffffffffffffffff
  maxEscrows := 0
  nodes := [⟨largestRecord, none⟩, ⟨largestRecord, some []⟩,
    ⟨largestRecord, some [[], [0], List.replicate 33 0xff]⟩]

/-- In an empty volume, it is kept in a file and loaded from there. -/
theorem files_round_trip_oddProofs :
    Storage.KeepsFiles (StateM Volume) ∧ oddProofs.root.length = hashSize ∧
      ofJson oddProofs.toText = .ok oddProofs ∧
      (do oddProofs.save ⟨"", ["tree.json"]⟩; load ⟨"", ["tree.json"]⟩ :
        ExceptT Failure (StateM Volume) Distribution).run.run (.empty "") =
          (.ok oddProofs,
            ⟨"", [(["tree.json"], .file (Text.toUtf8 oddProofs.toText))], "", ""⟩) := by
  obtain ⟨kept, -⟩ := files_round_trip Volume.keepsFiles
  obtain ⟨parsed, -, loaded⟩ := kept oddProofs rfl
  refine ⟨Volume.keepsFiles, rfl, parsed, ?_⟩
  rw [loaded]
  rfl

end Vesting.Distribution
