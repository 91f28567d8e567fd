/-
# Recipients that are added and dropped

Records are added behind a batch if none of their recipients is listed before its place, and
recipients are dropped if all of them are listed, however they are named and in whatever order
or number. Main statement: dropping the recipients of the records that were added gives the
batch back, and what dropping leaves is decided by the set of recipients that the names spell.
-/

import Mathlib.Data.List.Forall2
import Vesting.Amendment
import Vesting.Proofs.Batch
import Vesting.Proofs.Hex

namespace Vesting

/-! ## Names -/

namespace Hex

variable {text : String} {b : Bytes}

/-- A text of the form that is meant says the bytes whose digits it has. -/
theorem ofHex_of_isForm (form : IsForm text) (digits : lower text = toHex b) :
    ofHex text = .ok b := by
  obtain ⟨cs, spelled, even, hexadecimal⟩ := form
  have plain := settled_of_no_gap fun c member =>
    isGap_of_mem_hexDigitChars (hexadecimal c member)
  have written : encode b = settled cs := by
    rw [lower, spelled, toHex, String.ofList_inj] at digits
    rw [plain]
    exact (List.cons.inj (List.cons.inj digits).2).2.symm
  exact ofHex_eq_ok_iff_decode.2
    ⟨cs, spelled, even, decode_eq_some_iff.2 ⟨spaced_of_digits even hexadecimal, written⟩⟩

theorem exists_lower_eq_toHex (form : IsForm text) : ∃ b : Bytes, lower text = toHex b := by
  obtain ⟨cs, spelled, even, hexadecimal⟩ := form
  obtain ⟨b, reads⟩ := exists_decode_of_spaced (spaced_of_digits even hexadecimal)
  have plain := settled_of_no_gap fun c member =>
    isGap_of_mem_hexDigitChars (hexadecimal c member)
  refine ⟨b, ?_⟩
  rw [lower, spelled, toHex, (decode_eq_some_iff.1 reads).2, plain]
  rfl

end Hex

namespace Key

/-- A name as it is meant to be given: bytes, or a text of the form of byte strings. -/
def WellFormed : Key → Prop
  | text s => Hex.IsForm s
  | bytes _ => True

/-- What a well-formed name says. The digits of a text may be of either case. -/
inductive Spells : Key → Bytes → Prop
  | bytes (b : Bytes) : Spells (.bytes b) b
  | text {s : String} {b : Bytes} (form : Hex.IsForm s) (digits : Hex.lower s = toHex b) :
      Spells (.text s) b

variable {key : Key} {keys : List Key} {b : Bytes} {listed : List Bytes}

theorem Spells.bytes?_eq (spells : key.Spells b) : key.bytes? = .ok b := by
  cases spells with
  | bytes => rfl
  | text form digits => exact Hex.ofHex_of_isForm form digits

theorem WellFormed.exists_spells (wellFormed : key.WellFormed) : ∃ b, key.Spells b := by
  cases key with
  | bytes b => exact ⟨b, .bytes b⟩
  | text s =>
      obtain ⟨b, digits⟩ := Hex.exists_lower_eq_toHex wellFormed
      exact ⟨b, .text wellFormed digits⟩

theorem exists_forall₂_spells (wellFormed : ∀ key ∈ keys, key.WellFormed) :
    ∃ listed, List.Forall₂ Spells keys listed := by
  induction keys with
  | nil => exact ⟨[], .nil⟩
  | cons key keys ih =>
      rw [List.forall_mem_cons] at wellFormed
      obtain ⟨b, spells⟩ := wellFormed.1.exists_spells
      obtain ⟨listed, others⟩ := ih wellFormed.2
      exact ⟨b :: listed, .cons spells others⟩

/-- What names are read as. -/
abbrev ReadAs (keys : List Key) (listed : List Bytes) : Prop :=
  List.Forall₂ (fun key b => key.bytes? = .ok b) keys listed

theorem mapM_bytes?_eq_ok_iff : keys.mapM bytes? = .ok listed ↔ ReadAs keys listed := by
  induction keys generalizing listed with
  | nil =>
      rw [ReadAs, List.forall₂_nil_left_iff, List.mapM_nil]
      exact ⟨fun same => (Except.ok.inj same).symm, fun same => congrArg Except.ok same.symm⟩
  | cons key keys ih =>
      rw [List.mapM_cons, ReadAs, List.forall₂_cons_left_iff]
      cases first : key.bytes? with
      | error fault => exact ⟨nofun, nofun⟩
      | ok b =>
          cases others : keys.mapM bytes? with
          | error fault =>
              refine ⟨nofun, ?_⟩
              rintro ⟨c, rest, -, more, -⟩
              rw [ih.2 more] at others
              cases others
          | ok rest =>
              constructor
              · intro same
                obtain rfl := Except.ok.inj same
                exact ⟨b, rest, rfl, ih.1 others, rfl⟩
              · rintro ⟨c, rest', same, more, rfl⟩
                cases same
                rw [ih.2 more] at others
                cases others
                rfl

/-- A byte string is among those that are read exactly if some name is read as it. -/
theorem ReadAs.mem_iff (read : ReadAs keys listed) :
    b ∈ listed ↔ ∃ key ∈ keys, key.bytes? = .ok b := by
  induction read with
  | nil => simp
  | @cons key c keys listed first _ ih =>
      rw [List.mem_cons, List.exists_mem_cons_iff, ih, first, Except.ok.injEq, eq_comm]

theorem readAs_of_spells (spelled : List.Forall₂ Spells keys listed) : ReadAs keys listed :=
  spelled.imp fun _ _ => Spells.bytes?_eq

end Key

namespace Batch

variable {records extra rest : List Record} {present : List Recipient} {r : Record}
  {keys : List Key} {listed : List Bytes}

/-! ## Adding -/

/-- Records that can be added behind others with the recipients `present`. -/
structure Addable (present : List Recipient) (extra : List Record) : Prop where
  unlisted : ∀ r ∈ extra, r.recipient ∉ present
  distinct : (extra.map (·.recipient)).Nodup

/-- The first of some records whose recipient is listed before its place. -/
def FirstRepeated (present : List Recipient) (extra : List Record) (r : Record) : Prop :=
  ∃ front rest, extra = front ++ r :: rest ∧ Addable present front ∧
    r.recipient ∈ present ++ front.map (·.recipient)

theorem addable_cons : Addable present (r :: extra) ↔
    r.recipient ∉ present ∧ Addable (r.recipient :: present) extra := by
  constructor
  · rintro ⟨unlisted, distinct⟩
    rw [List.forall_mem_cons] at unlisted
    rw [List.map_cons, List.nodup_cons] at distinct
    refine ⟨unlisted.1, fun q member => ?_, distinct.2⟩
    rw [List.mem_cons, not_or]
    refine ⟨fun same => distinct.1 ?_, unlisted.2 q member⟩
    exact same ▸ List.mem_map_of_mem member
  · rintro ⟨fresh, unlisted, distinct⟩
    simp only [List.mem_cons, not_or] at unlisted
    refine ⟨List.forall_mem_cons.2 ⟨fresh, fun q member => (unlisted q member).2⟩, ?_⟩
    rw [List.map_cons, List.nodup_cons]
    refine ⟨fun repeated => ?_, distinct⟩
    obtain ⟨q, member, same⟩ := List.mem_map.1 repeated
    exact (unlisted q member).1 same

theorem Addable.not_firstRepeated (addable : Addable present extra) :
    ¬ FirstRepeated present extra r := by
  rintro ⟨front, rest, rfl, -, listed⟩
  rcases List.mem_append.1 listed with before | among
  · exact addable.unlisted r (by simp) before
  · have distinct := addable.distinct
    rw [List.map_append, List.map_cons, List.nodup_append] at distinct
    exact distinct.2.2 _ among _ List.mem_cons_self rfl

/-- The refusal of a record is the one of the whole from its place on. -/
theorem FirstRepeated.cons {q : Record} (fresh : q.recipient ∉ present)
    (repeated : FirstRepeated (q.recipient :: present) extra r) :
    FirstRepeated present (q :: extra) r := by
  obtain ⟨front, rest, rfl, addable, listed⟩ := repeated
  refine ⟨q :: front, rest, rfl, addable_cons.2 ⟨fresh, addable⟩, ?_⟩
  simp only [List.cons_append, List.mem_cons, List.mem_append, List.map_cons] at listed ⊢
  tauto

theorem appendFrom_cases (present : List Recipient) (extra : List Record) :
    (Addable present extra ∧ appendFrom present extra = .ok extra) ∨
      ∃ r, FirstRepeated present extra r ∧
        appendFrom present extra = .error (.duplicateRecipient r.recipient.toHex) := by
  induction extra generalizing present with
  | nil => exact .inl ⟨⟨nofun, List.nodup_nil⟩, rfl⟩
  | cons q extra ih =>
      rw [appendFrom]
      by_cases repeated : q.recipient ∈ present
      · rw [if_pos (List.contains_iff_mem.2 repeated)]
        exact .inr ⟨q, ⟨[], extra, rfl, ⟨nofun, List.nodup_nil⟩, by simpa using repeated⟩, rfl⟩
      rw [if_neg (mt List.contains_iff_mem.1 repeated)]
      rcases ih (q.recipient :: present) with ⟨addable, added⟩ | ⟨r, first, refused⟩
      · rw [added]
        exact .inl ⟨addable_cons.2 ⟨repeated, addable⟩, rfl⟩
      · rw [refused]
        exact .inr ⟨r, first.cons repeated, rfl⟩

theorem add_cases (records extra : List Record) :
    (Addable (records.map (·.recipient)) extra ∧ add records extra = .ok (records ++ extra)) ∨
      ∃ r, FirstRepeated (records.map (·.recipient)) extra r ∧
        add records extra = .error (.duplicateRecipient r.recipient.toHex) := by
  unfold add
  rcases appendFrom_cases (records.map (·.recipient)) extra with
    ⟨addable, added⟩ | ⟨r, first, refused⟩
  · rw [added]
    exact .inl ⟨addable, rfl⟩
  · rw [refused]
    exact .inr ⟨r, first, rfl⟩

theorem add_eq_ok_iff {result : List Record} : add records extra = .ok result ↔
    Addable (records.map (·.recipient)) extra ∧ result = records ++ extra := by
  rcases add_cases records extra with ⟨addable, added⟩ | ⟨r, first, refused⟩
  · rw [added, Except.ok.injEq, eq_comm]
    exact (and_iff_right addable).symm
  · rw [refused]
    exact ⟨nofun, fun possible => absurd first possible.1.not_firstRepeated⟩

/-! ## Dropping -/

/-- All of some byte strings are recipients of records. -/
def AllListed (records : List Record) (listed : List Bytes) : Prop :=
  ∀ b ∈ listed, b ∈ records.map (·.recipient.bytes)

/-- The records whose recipients are not among some byte strings. -/
def without (records : List Record) (listed : List Bytes) : List Record :=
  records.filter fun r => r.recipient.bytes ∉ listed

theorem drop_cases (records : List Record) (listed : List Bytes) :
    (AllListed records listed ∧ drop records listed = .ok (without records listed)) ∨
      ∃ absent ∈ listed, absent ∉ records.map (·.recipient.bytes) ∧
        drop records listed = .error (.recipientNotFound (toHex absent)) := by
  unfold drop
  dsimp only
  split
  · next absent found =>
      have missing := List.find?_some found
      exact .inr ⟨absent, List.mem_of_find?_eq_some found, by simpa using missing, rfl⟩
  · next none =>
      left
      refine ⟨fun b member => ?_, ?_⟩
      · simpa using List.find?_eq_none.1 none b member
      · simp only [without, List.contains_eq_mem, decide_not]

theorem remove_of_readAs (read : Key.ReadAs keys listed) :
    remove records keys = (drop records listed).mapError .refused := by
  rw [remove, Key.mapM_bytes?_eq_ok_iff.2 read]

theorem remove_eq_ok_iff_of_readAs (read : Key.ReadAs keys listed) :
    remove records keys = .ok rest ↔
      AllListed records listed ∧ rest = without records listed := by
  rw [remove_of_readAs read]
  rcases drop_cases records listed with ⟨all, dropped⟩ | ⟨absent, member, missing, refused⟩
  · rw [dropped, and_iff_right all, eq_comm (a := rest)]
    exact ⟨Except.ok.inj, congrArg Except.ok⟩
  · rw [refused]
    exact ⟨nofun, fun whole => absurd (whole.1 absent member) missing⟩

theorem remove_eq_ok_iff : remove records keys = .ok rest ↔
    ∃ listed, Key.ReadAs keys listed ∧ AllListed records listed ∧
      rest = without records listed := by
  constructor
  · intro removed
    cases read : keys.mapM Key.bytes? with
    | error fault =>
        rw [remove, read] at removed
        cases removed
    | ok listed =>
        have readAs := Key.mapM_bytes?_eq_ok_iff.1 read
        exact ⟨listed, readAs, (remove_eq_ok_iff_of_readAs readAs).1 removed⟩
  · rintro ⟨listed, readAs, whole⟩
    exact (remove_eq_ok_iff_of_readAs readAs).2 whole

theorem exists_absent_of_not_allListed (spelled : Key.ReadAs keys listed)
    (missing : ¬ AllListed records listed) :
    ∃ absent ∈ listed, absent ∉ records.map (·.recipient.bytes) ∧
      remove records keys = .error (.refused (.recipientNotFound (toHex absent))) := by
  rcases drop_cases records listed with ⟨all, -⟩ | ⟨absent, member, unlisted, refused⟩
  · exact absurd all missing
  · refine ⟨absent, member, unlisted, ?_⟩
    rw [remove_of_readAs spelled, refused]
    rfl

/-! ## Dropping what was added -/

/-- Of records and those that can be added behind them, the former stay without the recipients
of the latter. -/
theorem without_append (addable : Addable (records.map (·.recipient)) extra)
    (same : ∀ b, b ∈ listed ↔ b ∈ extra.map (·.recipient.bytes)) :
    without (records ++ extra) listed = records := by
  have kept : without records listed = records := by
    refine List.filter_eq_self.2 fun r member => decide_eq_true fun dropped => ?_
    obtain ⟨q, added, bytes⟩ := List.mem_map.1 ((same _).1 dropped)
    have listed : q.recipient ∈ records.map (·.recipient) :=
      Recipient.eq_of_bytes_eq bytes ▸ List.mem_map_of_mem member
    exact addable.unlisted q added listed
  have gone : without extra listed = [] := by
    refine List.filter_eq_nil_iff.2 fun q added => ?_
    have dropped : q.recipient.bytes ∈ listed := (same _).2 (List.mem_map_of_mem added)
    simpa using dropped
  rw [without, List.filter_append, ← without, ← without, kept, gone, List.append_nil]

theorem remove_add {result : List Record} (added : add records extra = .ok result)
    (read : Key.ReadAs keys listed)
    (same : ∀ b, b ∈ listed ↔ b ∈ extra.map (·.recipient.bytes)) :
    remove result keys = .ok records := by
  obtain ⟨addable, rfl⟩ := add_eq_ok_iff.1 added
  refine remove_eq_ok_iff.2 ⟨listed, read, fun b member => ?_, (without_append addable same).symm⟩
  rw [List.map_append, List.mem_append]
  exact .inr ((same b).1 member)

/-- Names that are read as the same set of byte strings leave the same records. -/
theorem remove_congr {keys' : List Key} {listed' : List Bytes} (read : Key.ReadAs keys listed)
    (read' : Key.ReadAs keys' listed') (same : ∀ b, b ∈ listed' ↔ b ∈ listed) :
    remove records keys' = .ok rest ↔ remove records keys = .ok rest := by
  rw [remove_eq_ok_iff_of_readAs read, remove_eq_ok_iff_of_readAs read']
  simp only [AllListed, without, same]

/-- Adding and dropping undo each other and keep the order. Records are added behind a batch
exactly if none of their recipients is listed before its place, and otherwise the first that is
gets the refusal; dropping the recipients of what was added, however they are named, gives the
batch. Well-formed names spell recipients, and all of these are dropped exactly if all are
listed; the other records stay in order, and one that is absent is refused otherwise. What
stays depends on the set of the recipients alone, and not on their order or spelling nor on
how often each is named. -/
theorem add_remove_inverse (records extra : List Record) :
    (∀ result, add records extra = .ok result ↔
      Addable (records.map (·.recipient)) extra ∧ result = records ++ extra) ∧
    (¬ Addable (records.map (·.recipient)) extra →
      ∃ r, FirstRepeated (records.map (·.recipient)) extra r ∧
        add records extra = .error (.duplicateRecipient r.recipient.toHex)) ∧
    (∀ result keys listed, add records extra = .ok result →
      List.Forall₂ Key.Spells keys listed →
      (∀ b, b ∈ listed ↔ b ∈ extra.map (·.recipient.bytes)) →
      remove result keys = .ok records) ∧
    ∀ keys, (∀ key ∈ keys, key.WellFormed) →
      ∃ listed, List.Forall₂ Key.Spells keys listed ∧
        (∀ rest, remove records keys = .ok rest ↔
          AllListed records listed ∧ rest = without records listed) ∧
        (¬ AllListed records listed →
          ∃ absent ∈ listed, absent ∉ records.map (·.recipient.bytes) ∧
            remove records keys = .error (.refused (.recipientNotFound (toHex absent)))) ∧
        ∀ keys' listed', List.Forall₂ Key.Spells keys' listed' →
          (∀ b, b ∈ listed' ↔ b ∈ listed) →
          ∀ rest, remove records keys' = .ok rest ↔ remove records keys = .ok rest := by
  refine ⟨fun result => add_eq_ok_iff, ?_, ?_, ?_⟩
  · intro impossible
    rcases add_cases records extra with ⟨addable, -⟩ | refused
    · exact absurd addable impossible
    · exact refused
  · intro result keys listed added spelled same
    exact remove_add added (Key.readAs_of_spells spelled) same
  · intro keys wellFormed
    obtain ⟨listed, spelled⟩ := Key.exists_forall₂_spells wellFormed
    have read := Key.readAs_of_spells spelled
    refine ⟨listed, spelled, fun rest => remove_eq_ok_iff_of_readAs read,
      exists_absent_of_not_allListed read, ?_⟩
    intro keys' listed' spelled' same rest
    exact remove_congr read (Key.readAs_of_spells spelled') same

/-- A batch in which a recipient occurs twice. -/
def reprise : List Record := [.ofAccount 1, .ofAccount 2, .ofAccount 1]

/-- The recipient of thirty-two equal bytes in digits of both cases. -/
def mixedCase : String := String.ofList ('0' :: 'x' :: (List.replicate 32 ['A', 'b']).flatten)

theorem spells_mixedCase :
    Key.Spells (.text mixedCase) (Record.ofAccount 0xab).recipient.bytes := by
  have digits : (List.replicate 32 ['A', 'b']).flatten.all Text.hexDigitChars.contains = true := by
    decide
  refine .text ⟨_, String.toList_ofList, rfl, fun c member => ?_⟩ (by decide)
  exact List.contains_iff_mem.1 (List.all_eq_true.1 digits c member)

/-- A recipient is added and dropped again, named twice and in two spellings. -/
theorem add_remove_inverse_reprise :
    Addable (reprise.map (·.recipient)) [.ofAccount 0xab] ∧
      add reprise [.ofAccount 0xab] = .ok (reprise ++ [.ofAccount 0xab]) ∧
      remove (reprise ++ [.ofAccount 0xab])
        [.text mixedCase, .bytes (Record.ofAccount 0xab).recipient.bytes] = .ok reprise := by
  obtain ⟨adds, -, undoes, -⟩ := add_remove_inverse reprise [.ofAccount 0xab]
  have addable : Addable (reprise.map (·.recipient)) [.ofAccount 0xab] :=
    ⟨by decide, by decide⟩
  have added := (adds _).2 ⟨addable, rfl⟩
  refine ⟨addable, added, undoes _ _ _ added (.cons spells_mixedCase (.cons (.bytes _) .nil)) ?_⟩
  simp

end Batch

end Vesting
