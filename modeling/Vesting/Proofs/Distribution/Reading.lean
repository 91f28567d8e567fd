/-
# Distributions read back

A distribution is written with its bytes in `0x` form and its words as whole numbers, and the
fields of a node are those of its record and one for the proof. Main statements: the fields of
a distribution can be stored as JSON and read as the distribution, whatever its amounts and
proofs are, if the root is a hash; and no other root is ever read from JSON or built.
-/

import Vesting.Proofs.Distribution.Construction
import Vesting.Proofs.Json.RoundTrip
import Vesting.Proofs.Json.Textual
import Vesting.Distribution.Reading

namespace Vesting

variable {α : Type}

/-! ## Fields -/

/-- Items that are read back one by one are read back together. -/
theorem Reading.items_map {read : Value → Reading α} {write : α → Value}
    (back : ∀ a, read (write a) = .done a) (index : Nat) (as : List α) :
    items read index (as.map write) = .done as := by
  induction as generalizing index with
  | nil => rfl
  | cons a as ih => rw [List.map_cons, items, back, ih]; rfl

namespace Schema

variable {fields : Fields} {name : String} {v : Value} {a : α} {read : Value → Reading α}

theorem required_eq_done (present : fields.get? name = some v) (reads : read v = .done a) :
    required fields name read = .done a := by
  simp only [required, present, reads, Reading.under]

theorem optional_eq_done {default : α} (present : fields.get? name = some v)
    (reads : read v = .done a) : optional fields name default read = .done a := by
  simp only [optional, present, reads, Reading.under]

theorem only_eq_done {names : List String} (known : ∀ field ∈ fields, field.1 ∈ names) :
    only fields names = .done () := by
  have none : fields.filter (fun field => !names.contains field.1) = [] := by
    rw [List.filter_eq_nil_iff]
    intro field member
    simpa using known field member
  rw [only, none]

theorem byte_toNat (b : UInt8) : byte (.int b.toNat) = .done b := by
  have positive : ¬ (b.toNat : Int) < 0 := by omega
  have small : ¬ 0xff < b.toNat := by have := b.toNat_lt; omega
  simp only [byte, natural, whole, Reading.andThen, if_neg positive, Int.toNat_natCast,
    if_neg small, Reading.map, UInt8.ofNat_toNat]

theorem recipient_toHex (r : Recipient) : recipient (.text r.toHex) = .done r := by
  simp only [recipient, bytesFrom, Recipient.toHex, ofHex_toHex, Reading.andThen, dif_pos r.size]

theorem decodeSiblings_texts (siblings : List Bytes) :
    decodeSiblings (siblings.map fun sibling => .text (toHex sibling)) =
      .ok (siblings.map .bytes) := by
  induction siblings with
  | nil => rfl
  | cons sibling siblings ih =>
      rw [List.map_cons, decodeSiblings, ofHex_toHex, ih]
      rfl

/-- A proof is read back: none, an empty one, and siblings of any size. -/
theorem siblings_proofValue (origin : Origin) (proof : Option (List Bytes)) :
    siblings origin (proofValue proof) = .done proof := by
  cases proof with
  | none => rfl
  | some proof =>
      have back : Reading.items bytes 0 (proof.map .bytes) = .done proof :=
        @Reading.items_map _ bytes .bytes (fun _ => rfl) 0 proof
      simp only [proofValue, siblings, decodeSiblings_texts, back, Reading.map]

end Schema

/-- A record is read back from its fields, whatever stands behind them. -/
theorem Record.readFields_fields (r : Record) (more : Fields) :
    readFields (r.fields ++ more) = .done r := by
  simp [readFields, Schema.required, Schema.optional, Fields.get?, fields, Schema.recipient_toHex,
    Schema.word_ofWord, Schema.byte_toNat, Reading.under]
  rfl

theorem Node.readValue_fields (origin : Origin) (n : Node) :
    readValue origin (.object n.fields) = .done n := by
  have record : Record.readFields n.fields = .done n.record :=
    Record.readFields_fields n.record _
  have proof : Schema.optional n.fields "proof" none (Schema.siblings origin) = .done n.proof :=
    Schema.optional_eq_done (by simp [Fields.get?, fields, Record.fields])
      (Schema.siblings_proofValue origin n.proof)
  have known : Schema.only n.fields (Record.columns ++ ["proof"]) = .done () :=
    Schema.only_eq_done (by simp [fields, Record.fields, Record.columns])
  simp only [readValue, Schema.fieldsOf, Reading.andThen, read, record, proof, known]
  rfl

namespace Distribution

theorem readNodes_fields (origin : Origin) (nodes : List Node) :
    readNodes origin (.list (nodes.map fun n => .object n.fields)) = .done nodes :=
  Reading.items_map (Node.readValue_fields origin) 0 nodes

/-- A distribution is read back from its fields if its root has the size of a hash. -/
theorem read_fields (origin : Origin) {d : Distribution} (size : d.root.length = hashSize) :
    read origin d.fields = .done d := by
  have hash : Schema.bytesFrom hashOfHex (.text (toHex d.root)) = .done d.root := by
    rw [Schema.bytesFrom, hashOfHex_toHex size]
  have root : Schema.required d.fields "merkle_root" (Schema.bytesFrom hashOfHex) = .done d.root :=
    Schema.required_eq_done (by simp [Fields.get?, fields]) hash
  have version : Schema.optional d.fields "version" 0 Schema.word = .done d.version :=
    Schema.optional_eq_done (by simp [Fields.get?, fields]) (Schema.word_ofWord _)
  have claim : Schema.required d.fields "max_claim_amount" Schema.word = .done d.maxClaim :=
    Schema.required_eq_done (by simp [Fields.get?, fields]) (Schema.word_ofWord _)
  have escrows : Schema.required d.fields "max_escrow" Schema.word = .done d.maxEscrows :=
    Schema.required_eq_done (by simp [Fields.get?, fields]) (Schema.word_ofWord _)
  have nodes : Schema.optional d.fields "tree_nodes" [] (readNodes origin) = .done d.nodes :=
    Schema.optional_eq_done (by simp [Fields.get?, fields]) (readNodes_fields origin _)
  have known : Schema.only d.fields
      ["merkle_root", "version", "max_claim_amount", "max_escrow", "tree_nodes"] = .done () :=
    Schema.only_eq_done (by simp [fields])
  simp only [read, root, version, claim, escrows, nodes, known]
  rfl

end Distribution

/-! ## Storing -/

/-- The digits of a word are at most twenty. -/
theorem length_toDigits_le {n : Nat} (word : n ≤ Record.wordMax) :
    (Nat.toDigits 10 n).length ≤ 20 :=
  (Nat.length_toDigits_le_iff (by decide) (by decide)).2 (Nat.lt_of_le_of_lt word (by decide))

namespace Json

variable {levels : Nat}

theorem storable_nat {n : Nat} (word : n ≤ Record.wordMax) : Storable levels (.int n) := by
  refine .int ?_
  rw [writeInt, if_neg (by omega), Int.natAbs_natCast]
  exact Nat.le_trans (length_toDigits_le word) (by decide)

theorem storable_word (w : UInt64) : Storable levels (Record.ofWord w) :=
  storable_nat (word_le_wordMax w)

theorem storable_byte (b : UInt8) : Storable levels (.int b.toNat) :=
  storable_nat (Nat.le_trans (Nat.le_of_lt b.toNat_lt) (by decide))

theorem storable_proof (proof : Option (List Bytes)) :
    Storable (levels + 1) (proofValue proof) := by
  cases proof with
  | none => exact .null
  | some proof =>
      refine .list ?_
      intro item member
      obtain ⟨sibling, -, rfl⟩ := List.mem_map.1 member
      exact .text _

theorem storable_recordField (r : Record) : ∀ field ∈ r.fields, Storable levels field.2 := by
  simp only [Record.fields, List.forall_mem_cons]
  exact ⟨.text _, storable_word _, storable_word _, storable_word _, storable_word _,
    storable_word _, storable_word _, storable_byte _, storable_byte _, nofun⟩

theorem storable_node (n : Node) : Storable (levels + 2) (.object n.fields) := by
  refine .object ?_ ?_
  · show (Record.columns ++ ["proof"]).Nodup
    decide
  · simp only [Node.fields, List.forall_mem_append, List.forall_mem_singleton]
    exact ⟨storable_recordField n.record, storable_proof n.proof⟩

/-- A distribution can be stored with at most four lists and objects open: its own fields, its
nodes, their fields and their proofs. -/
theorem storable_distribution (d : Distribution) : Storable (levels + 4) (.object d.fields) := by
  have nodes : Storable (levels + 3) (.list (d.nodes.map fun n => .object n.fields)) := by
    refine .list ?_
    intro item member
    obtain ⟨n, -, rfl⟩ := List.mem_map.1 member
    exact storable_node n
  refine .object ?_ ?_
  · show ["merkle_root", "version", "max_claim_amount", "max_escrow", "tree_nodes"].Nodup
    decide
  · simp only [Distribution.fields, List.forall_mem_cons]
    exact ⟨.text _, storable_word _, storable_word _, storable_word _, nodes, nofun⟩

end Json

/-- A distribution whose root has the size of a hash is read back from its text. -/
theorem Distribution.ofJson_toText {d : Distribution} (size : d.root.length = hashSize) :
    ofJson d.toText = .ok d := by
  have stored : Value.ofJson? d.toText = some (.object d.fields) :=
    Value.ofJson?_toJson (Json.storable_distribution d) .file
  simp only [ofJson, stored, Schema.fieldsOf, Reading.andThen, read_fields .jsonText size,
    Reading.toExcept]

/-! ## What was read -/

namespace Reading

variable {β : Type}

/-- A function is applied only if both parts were read. -/
theorem of_seq_eq_done {f : Reading (α → β)} {x : Reading α} {b : β}
    (reads : f <*> x = .done b) : ∃ g a, f = .done g ∧ x = .done a ∧ g a = b := by
  cases f with
  | issues _ => cases x <;> cases reads
  | done g =>
      cases x with
      | issues _ => cases reads
      | done a =>
          cases reads
          exact ⟨g, a, rfl, rfl, rfl⟩

theorem of_map_eq_done {f : α → β} {x : Reading α} {b : β} (reads : f <$> x = .done b) :
    ∃ a, x = .done a ∧ f a = b := by
  cases x with
  | issues _ => cases reads
  | done a =>
      cases reads
      exact ⟨a, rfl, rfl⟩

theorem of_seqLeft_eq_done {x : Reading α} {y : Reading β} {a : α} (reads : x <* y = .done a) :
    x = .done a := by
  obtain ⟨g, b, first, -, rfl⟩ := of_seq_eq_done reads
  obtain ⟨a, rfl, rfl⟩ := of_map_eq_done first
  rfl

theorem of_under_eq_done {step : Step} {x : Reading α} {a : α} (reads : x.under step = .done a) :
    x = .done a := by
  cases x with
  | issues _ => cases reads
  | done a =>
      cases reads
      rfl

end Reading

namespace Schema

variable {fields : Fields} {name : String} {a : α} {read : Value → Reading α}

theorem of_required_eq_done (reads : required fields name read = .done a) :
    ∃ v, fields.get? name = some v ∧ read v = .done a := by
  unfold required at reads
  cases present : fields.get? name with
  | none => simp [present] at reads
  | some v =>
      rw [present] at reads
      exact ⟨v, rfl, Reading.of_under_eq_done reads⟩

theorem of_optional_eq_done {default : α} (reads : optional fields name default read = .done a) :
    (fields.get? name = none ∧ a = default) ∨
      ∃ v, fields.get? name = some v ∧ read v = .done a := by
  unfold optional at reads
  cases present : fields.get? name with
  | none =>
      rw [present] at reads
      cases reads
      exact Or.inl ⟨rfl, rfl⟩
  | some v =>
      rw [present] at reads
      exact Or.inr ⟨v, rfl, Reading.of_under_eq_done reads⟩

theorem optional_of_required {default : α} (reads : required fields name read = .done a) :
    optional fields name default read = .done a := by
  obtain ⟨v, present, given⟩ := of_required_eq_done reads
  exact optional_eq_done present given

theorem exists_of_required_eq_done (reads : required fields name read = .done a) :
    ∃ field ∈ fields, read field.2 = .done a := by
  obtain ⟨v, present, given⟩ := of_required_eq_done reads
  obtain ⟨field, found, rfl⟩ := Option.map_eq_some_iff.1 present
  exact ⟨field, List.mem_of_find?_eq_some found, given⟩

end Schema

/-! ## Roots -/

theorem length_of_hashOfHex_eq_ok {text : String} {b : Bytes} (reads : hashOfHex text = .ok b) :
    b.length = hashSize := by
  unfold hashOfHex at reads
  split at reads
  · split at reads
    next size => cases reads; exact size
    next => cases reads
  · cases reads

namespace Distribution

/-- A root that is read from text has the size of a hash. -/
theorem length_root_of_read {origin : Origin} {fields : Fields} {d : Distribution}
    (textual : ∀ field ∈ fields, field.2.Textual) (reads : read origin fields = .done d) :
    d.root.length = hashSize := by
  -- the parts in front of each `<*>` in turn, from the last one back to the root
  unfold read at reads
  obtain ⟨_, _, toNodes, -, rfl⟩ := Reading.of_seq_eq_done (Reading.of_seqLeft_eq_done reads)
  obtain ⟨_, _, toEscrows, -, rfl⟩ := Reading.of_seq_eq_done toNodes
  obtain ⟨_, _, toClaim, -, rfl⟩ := Reading.of_seq_eq_done toEscrows
  obtain ⟨_, _, toVersion, -, rfl⟩ := Reading.of_seq_eq_done toClaim
  obtain ⟨root, toRoot, rfl⟩ := Reading.of_map_eq_done toVersion
  obtain ⟨field, member, read⟩ := Schema.exists_of_required_eq_done toRoot
  show root.length = hashSize
  unfold Schema.bytesFrom at read
  split at read
  next s value =>
    split at read
    next b decoded =>
      cases read
      exact length_of_hashOfHex_eq_ok decoded
    next => cases read
  next b value =>
    have textual := textual field member
    rw [value] at textual
    cases textual
  next => cases read

theorem length_root_of_ofJson {text : String} {d : Distribution} (reads : ofJson text = .ok d) :
    d.root.length = hashSize := by
  unfold ofJson at reads
  split at reads
  next => cases reads
  next v parsed =>
    cases v with
    | object fields =>
        cases Value.textual_of_ofJson? parsed with
        | object textual =>
            simp only [Schema.fieldsOf, Reading.andThen] at reads
            cases found : read .jsonText fields with
            | issues _ => simp [found, Reading.toExcept] at reads
            | done e =>
                rw [found] at reads
                cases reads
                exact length_root_of_read textual found
    | _ => cases reads

end Distribution

end Vesting
