/-
# JSON spells no bytes

Values of free form may hold bytes, and some fields take bytes as they are. Main statement:
no value that is read from JSON holds bytes anywhere, so that what such a field gets there has
been spelt out. The three parts of the reader call each other with less fuel, so it is one
induction on the fuel for all of them.
-/

import Vesting.Json.Parser

namespace Vesting

/-- A value that holds no bytes. -/
inductive Value.Textual : Value → Prop
  | null : Textual .null
  | bool (b : Bool) : Textual (.bool b)
  | int (n : Int) : Textual (.int n)
  | float (x : Binary64) : Textual (.float x)
  | text (s : String) : Textual (.text s)
  | list {items : List Value} (inner : ∀ item ∈ items, Textual item) : Textual (.list items)
  | object {fields : Fields} (inner : ∀ field ∈ fields, Textual field.2) :
    Textual (.object fields)

namespace Fields

theorem mem_put {fields : Fields} {key : String} {value : Value} {field : String × Value}
    (member : field ∈ put fields key value) : field ∈ fields ∨ field = (key, value) := by
  unfold put at member
  split at member
  · obtain ⟨old, before, rfl⟩ := List.mem_map.1 member
    split
    · exact .inr rfl
    · exact .inl before
  · simpa using member

/-- An object has no other fields than it was given. -/
theorem mem_of_mem_ofPairs {pairs : List (String × Value)} {field : String × Value}
    (member : field ∈ ofPairs pairs) : field ∈ pairs := by
  suffices ∀ fields : Fields,
      field ∈ pairs.foldl (fun fields pair => put fields pair.1 pair.2) fields →
        field ∈ fields ∨ field ∈ pairs by
    rcases this [] member with nothing | given
    · cases nothing
    · exact given
  clear member
  induction pairs with
  | nil => intro fields member; exact .inl member
  | cons pair pairs ih =>
      intro fields member
      rcases ih _ member with before | later
      · rcases mem_put before with old | rfl
        · exact .inl old
        · exact .inr List.mem_cons_self
      · exact .inr (List.mem_cons_of_mem _ later)

end Fields

namespace Json

variable {v : Value} {cs rest : List Char}

theorem readNumber_textual {negative : Bool} (reads : readNumber negative cs = some (v, rest)) :
    v.Textual := by
  simp only [readNumber] at reads
  split at reads
  · cases reads
  split at reads
  · cases reads
  split at reads
  · cases reads
  split at reads
  · obtain ⟨-, same⟩ := Option.ite_none_left_eq_some.1 reads
    cases same
    exact .int _
  · cases reads
    exact .float _

theorem readWord_textual {word : String} {value : Value} (textual : value.Textual)
    (reads : readWord word value cs = some (v, rest)) : v.Textual := by
  unfold readWord at reads
  split at reads
  · cases reads
    exact textual
  · cases reads

theorem readScalar_textual (reads : readScalar cs = some (v, rest)) : v.Textual := by
  unfold readScalar at reads
  split at reads
  · obtain ⟨⟨s, rest'⟩, -, same⟩ := Option.map_eq_some_iff.1 reads
    cases same
    exact .text s
  · exact readWord_textual (.bool true) reads
  · exact readWord_textual (.bool false) reads
  · exact readWord_textual .null reads
  · exact readWord_textual (.float _) reads
  · exact readWord_textual (.float _) reads
  · exact readWord_textual (.float _) reads
  · exact readNumber_textual reads
  · exact readNumber_textual reads

/-- Nothing with bytes is read with some fuel. -/
structure ReadsTextual (fuel : Nat) : Prop where
  value : ∀ levels cs v rest, readValue fuel levels cs = some (v, rest) → v.Textual
  items : ∀ levels read cs items rest, (∀ item ∈ read, item.Textual) →
    readItems fuel levels read cs = some (items, rest) → ∀ item ∈ items, item.Textual
  fields : ∀ levels (read : Fields) cs pairs rest, (∀ field ∈ read, field.2.Textual) →
    readFields fuel levels read cs = some (pairs, rest) → ∀ field ∈ pairs, field.2.Textual

theorem ReadsTextual.succ {fuel : Nat} (less : ReadsTextual fuel) : ReadsTextual (fuel + 1) where
  value levels cs v rest reads := by
    unfold readValue at reads
    split at reads
    · split at reads
      · cases reads
        exact .list (List.forall_mem_nil _)
      · split at reads
        · cases reads
        split at reads
        next items _ read =>
          cases reads
          exact .list (less.items _ _ _ _ _ (List.forall_mem_nil _) read)
        · cases reads
    · split at reads
      · cases reads
        exact .object (List.forall_mem_nil _)
      · split at reads
        · cases reads
        split at reads
        next pairs _ read =>
          cases reads
          exact .object fun field member =>
            less.fields _ _ _ _ _ (List.forall_mem_nil _) read field (Fields.mem_of_mem_ofPairs member)
        · cases reads
    · exact readScalar_textual reads
  items levels read cs items rest before reads := by
    unfold readItems at reads
    split at reads
    · cases reads
    next item rest' first =>
      have before : ∀ one ∈ item :: read, one.Textual :=
        List.forall_mem_cons.2 ⟨less.value _ _ _ _ first, before⟩
      split at reads
      · exact less.items _ _ _ _ _ before reads
      · cases reads
        exact fun item member => before item (List.mem_reverse.1 member)
      · cases reads
  fields levels read cs pairs rest before reads := by
    unfold readFields at reads
    split at reads
    · split at reads
      · cases reads
      next key behindKey _ =>
        split at reads
        · split at reads
          · cases reads
          next value behindValue first =>
            have before : ∀ one ∈ (key, value) :: read, one.2.Textual :=
              List.forall_mem_cons.2 ⟨less.value _ _ _ _ first, before⟩
            split at reads
            · exact less.fields _ _ _ _ _ before reads
            · cases reads
              exact fun field member => before field (List.mem_reverse.1 member)
            · cases reads
        · cases reads
    · cases reads

theorem readsTextual (fuel : Nat) : ReadsTextual fuel := by
  induction fuel with
  | zero => constructor <;> intros <;> simp_all [readValue, readItems, readFields]
  | succ fuel ih => exact ih.succ

end Json

/-- A value that is read from JSON holds no bytes. -/
theorem Value.textual_of_ofJson? {s : String} {v : Value} (reads : ofJson? s = some v) :
    v.Textual := by
  simp only [ofJson?] at reads
  split at reads
  next value rest read =>
    split at reads
    · cases reads
      exact (Json.readsTextual _).value _ _ _ _ read
    · cases reads
  · cases reads

end Vesting
