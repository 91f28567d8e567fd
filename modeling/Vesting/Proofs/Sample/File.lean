/-
# Sample records can be used

Sample records serve to try things out, so they have to pass whatever a batch is put through:
they are written to a table, read from it, checked, put into a tree and summed. Main
statement: whatever the seed, any number of sample records is made, each in order and with a
small total; fewer are the first of more; and unless a recipient happens to be drawn twice,
the table of at most as many as a tree may have becomes a distribution that passes its audit.
-/

import Vesting.Proofs.Csv.Records
import Vesting.Proofs.Sample.Drawing
import Vesting.Sample.File

namespace Vesting

theorem Batch.amount_le_mul {records : List Record} {bound : Nat}
    (small : ∀ r ∈ records, r.amount ≤ bound) : amount records ≤ records.length * bound := by
  have sum := List.sum_le_card_nsmul (records.map Record.amount) bound
    (List.forall_mem_map.2 small)
  rwa [List.length_map, smul_eq_mul] at sum

namespace Sample

variable {rs : List Record} {count seed : Int}

theorem acceptable_of_usable (nonempty : rs ≠ []) (distinct : (rs.map (·.recipient)).Nodup)
    (few : rs.length ≤ Distribution.maxNodes) (usable : ∀ r ∈ rs, Usable r) :
    Batch.Acceptable rs where
  nonempty := nonempty
  distinct := distinct
  sensible r member := Record.violations_eq_nil_iff.1 (usable r member).violations
  amount_pos r member := (usable r member).amount_pos
  amount_le :=
    calc Batch.amount rs
      _ ≤ rs.length * 999000 := Batch.amount_le_mul fun r member => (usable r member).amount_le
      _ ≤ Distribution.maxNodes * 999000 := Nat.mul_le_mul_right _ few
      _ ≤ Record.wordMax := by decide

/-- Of usable records with distinct recipients a distribution is built, under the version that
is taken if none is given. -/
theorem exists_buildAs_eq_ok (nonempty : rs ≠ []) (distinct : (rs.map (·.recipient)).Nodup)
    (few : rs.length ≤ Distribution.maxNodes) (usable : ∀ r ∈ rs, Usable r) :
    ∃ d : Distribution, Distribution.buildAs rs (.int 0) = .ok d ∧
      d.maxEscrows.toNat = rs.length ∧ d.audit.ok = true := by
  have acceptable := acceptable_of_usable nonempty distinct few usable
  obtain ⟨tree, built, given⟩ := Distribution.buildAs_of_acceptable acceptable few 0
  have consistent :=
    @Distribution.consistent_ofTree rs tree 0 distinct acceptable.amount_le few built
  exact ⟨_, given, Distribution.toNat_maxEscrows_ofTree few,
    Distribution.ok_audit_iff.2 consistent⟩

section World

variable {m : Type → Type} [Monad m] [LawfulMonad m] [Storage m]

/-- Once the records are made, only the table remains to be written. -/
theorem save_of_ok (made : records count seed = .ok rs) (path : Path) :
    (save count seed path : ExceptT Failure m Unit) = Csv.save rs path := by
  rw [save, made]
  exact pure_bind (m := ExceptT Failure m) rs fun records => Csv.save records path

theorem save_loadTable (keeps : Storage.KeepsFiles m) {d : Distribution}
    (built : Distribution.buildAs rs (.int 0) = .ok d) (path : Path) :
    (do Csv.save rs path; Distribution.loadTable path (.int 0) :
      ExceptT Failure m Distribution) = (do Csv.save rs path; return d) := by
  unfold Distribution.loadTable
  rw [← bind_assoc, Csv.save_load keeps, bind_assoc]
  simp only [pure_bind, built]
  rfl

end World

/-- Sample records can be used, whatever the seed is. Any number of them is made, none for a
number below zero, out of draws that are repeated for as long as it takes, and no record is
rejected; each is in order and has a total from one to 999000. Fewer of them are the first of
more. And if their recipients are distinct and there are at least one and at most as many as a
tree may have, then in every world that keeps its files, writing them to a table comes to
nothing but the writing, and the table is read as a distribution of as many nodes that passes
its audit. -/
theorem samples_usable (seed : Int) :
    (∀ count : Int, ∃ rs, records count seed = .ok rs ∧ Generated (.ofSeed seed) rs ∧
      (rs.length : Int) = max count 0 ∧ ∀ r ∈ rs, r.violations = [] ∧
        ∃ total : Nat, r.total = .ok total ∧ 1 ≤ total ∧ total ≤ 999000) ∧
    (∀ few many : Int, few ≤ many → ∀ rs, records many seed = .ok rs →
      records few seed = .ok (rs.take few.toNat)) ∧
    ∀ (count : Int) (rs : List Record), 1 ≤ count → count ≤ 2 ^ 32 - 1 →
      records count seed = .ok rs → (rs.map (·.recipient)).Nodup →
      ∃ d : Distribution, (d.maxEscrows.toNat : Int) = count ∧ d.audit.ok = true ∧
        ∀ {m : Type → Type} [Monad m] [LawfulMonad m] [Storage m], Storage.KeepsFiles m →
          ∀ path : Path,
            (do save count seed path; Distribution.loadTable path (.int 0) :
              ExceptT Failure m Distribution) = (do Csv.save rs path; return d) := by
  have whole := Twister.whole_ofSeed seed
  refine ⟨?_, ?_, ?_⟩
  · intro count
    obtain ⟨rs, made, generated, counted⟩ := exists_draw_eq_ok whole count.toNat
    refine ⟨rs, made, generated, ?_, fun r member => ?_⟩
    · rw [counted, Int.toNat_eq_max]
    · have usable := generated.usable r member
      exact ⟨usable.violations, r.amount, usable.total, usable.amount_pos, usable.amount_le⟩
  · intro few many fewer rs made
    exact draw_take (Int.toNat_le_toNat fewer) made
  · intro count rs positive few made distinct
    obtain ⟨rs', made', generated, counted⟩ := exists_draw_eq_ok whole count.toNat
    obtain rfl : rs' = rs := Except.ok.inj (made'.symm.trans made)
    have nonempty : rs' ≠ [] := List.ne_nil_of_length_pos (by omega)
    have within : rs'.length ≤ Distribution.maxNodes := by
      unfold Distribution.maxNodes
      omega
    obtain ⟨d, built, escrows, audited⟩ :=
      exists_buildAs_eq_ok nonempty distinct within generated.usable
    refine ⟨d, by omega, audited, ?_⟩
    intro m _ _ _ keeps path
    rw [save_of_ok made, save_loadTable keeps built]

/-- Of three records for the seed seven the first is the one that is made alone. In an empty
volume it is kept in a table, and read from there as a distribution of one node.

It is one node because recipients of several records are known to differ only once they are
drawn. The words for a seed come out of more than a thousand steps, each of which needs the
words of the one before, and a proof that reduces them takes minutes for a single word. -/
theorem samples_usable_three :
    Storage.KeepsFiles (StateM Volume) ∧ ∃ (three : List Record) (r : Record) (d : Distribution),
      records 3 7 = .ok three ∧ three.length = 3 ∧ three.take 1 = [r] ∧ records 1 7 = .ok [r] ∧
      ([r].map (·.recipient)).Nodup ∧ d.maxEscrows.toNat = 1 ∧ d.audit.ok = true ∧
      (do save 1 7 ⟨"", ["sample.csv"]⟩; Distribution.loadTable ⟨"", ["sample.csv"]⟩ (.int 0) :
        ExceptT Failure (StateM Volume) Distribution).run.run (.empty "") =
          (.ok d, ⟨"", [(["sample.csv"], .file (Text.toUtf8 (Csv.tableOf [r])))], "", ""⟩) := by
  obtain ⟨makes, begins, builds⟩ := samples_usable 7
  obtain ⟨three, made, -, counted, -⟩ := makes 3
  have length : three.length = 3 := Int.ofNat.inj counted
  have first := begins 1 3 (by decide) three made
  obtain ⟨r, others, rfl⟩ := List.exists_cons_of_length_pos (l := three) (by omega)
  have distinct : ([r].map (·.recipient)).Nodup := List.nodup_singleton _
  obtain ⟨d, escrows, audited, loaded⟩ := builds 1 [r] (by decide) (by decide) first distinct
  refine ⟨Volume.keepsFiles, r :: others, r, d, made, length, rfl, first, distinct,
    Int.ofNat.inj escrows, audited, ?_⟩
  rw [loaded Volume.keepsFiles]
  rfl

end Sample

end Vesting
