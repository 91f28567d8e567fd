/-
# JSON values read back

Main statement: a value that is free of floating-point numbers and bytes reads back from its
text in every style, if its whole numbers are not too long, its objects have no field twice,
and its lists and objects are not nested too deep.

The statement about a value is proved for its text in front of anything that does not
continue a number, by induction on the value; for the items of a list and the fields of an
object there is one more induction each, on what stands behind the first. Fuel is counted
against the characters that are read: a list takes two more than its items, and there are
two more characters for its brackets.
-/

import Vesting.Proofs.Json.Number
import Vesting.Proofs.Json.Text

namespace Vesting

namespace Fields

theorem put_of_absent {fields : Fields} {key : String} (absent : key ∉ fields.map Prod.fst)
    (value : Value) : put fields key value = fields ++ [(key, value)] := by
  have none : has fields key = false := by
    simp only [has, List.any_eq_false, beq_iff_eq]
    rintro field member rfl
    exact absent (List.mem_map_of_mem member)
  rw [put, none, if_neg Bool.false_ne_true]

/-- Fields with different names are an object as they stand. -/
theorem ofPairs_of_nodup {pairs : List (String × Value)}
    (distinct : (pairs.map Prod.fst).Nodup) : ofPairs pairs = pairs := by
  suffices ∀ fields : Fields, ((fields ++ pairs).map Prod.fst).Nodup →
      pairs.foldl (fun fields pair => put fields pair.1 pair.2) fields = fields ++ pairs
    from this [] distinct
  clear distinct
  induction pairs with
  | nil => simp
  | cons pair pairs ih =>
      intro fields distinct
      have absent : pair.1 ∉ fields.map Prod.fst := by
        rw [List.map_append, List.map_cons] at distinct
        exact fun member => (List.nodup_append.1 distinct).2.2 _ member _ List.mem_cons_self rfl
      rw [List.foldl_cons, put_of_absent absent, ih _ (by simpa using distinct), List.append_assoc,
        List.singleton_append]

end Fields

namespace Json

variable {style : Style} {level levels fuel : Nat} {rest : List Char} {v : Value}

/-! ## White space -/

theorem skipSpace_append {pad : List Char} (blank : ∀ c ∈ pad, isSpace c = true) :
    skipSpace (pad ++ rest) = skipSpace rest := List.dropWhile_append_of_pos blank

@[simp] theorem skipSpace_cons {c : Char} (visible : isSpace c = false) :
    skipSpace (c :: rest) = c :: rest := List.dropWhile_cons_of_neg (by simp [visible])

theorem isSpace_of_mem_lineBreak : ∀ c ∈ lineBreak style level, isSpace c = true := by
  unfold lineBreak
  split
  · simp only [List.mem_cons, List.mem_replicate]
    rintro c (rfl | ⟨-, rfl⟩) <;> rfl
  · simp

@[simp] theorem skipSpace_lineBreak :
    skipSpace (lineBreak style level ++ rest) = skipSpace rest :=
  skipSpace_append isSpace_of_mem_lineBreak

/-! Every part of the reader passes over white space first. -/

theorem readValue_append (pad : List Char) (blank : ∀ c ∈ pad, isSpace c = true) :
    readValue fuel levels (pad ++ rest) = readValue fuel levels rest := by
  cases fuel <;> simp [readValue, skipSpace_append blank]

@[simp] theorem readItems_lineBreak {read : List Value} :
    readItems fuel levels read (lineBreak style level ++ rest) =
      readItems fuel levels read rest := by
  cases fuel <;> simp [readItems, readValue_append _ isSpace_of_mem_lineBreak]

@[simp] theorem readFields_lineBreak {read : List (String × Value)} :
    readFields fuel levels read (lineBreak style level ++ rest) =
      readFields fuel levels read rest := by
  cases fuel <;> simp [readFields]

/-! ## What stands behind an item -/

/-- What is written behind the first item of a list or object. -/
def remainder (style : Style) (level : Nat) (closing : Char) (pieces : List (List Char)) :
    List Char :=
  pieces.flatMap (fun piece => ',' :: lineBreak style (level + 1) ++ piece) ++
    lineBreak style level ++ [closing]

theorem enclose_cons (opening closing : Char) (first : List Char) (pieces : List (List Char)) :
    enclose style level opening closing (first :: pieces) =
      opening :: (lineBreak style (level + 1) ++
        (first ++ remainder style level closing pieces)) := by
  simp [enclose, remainder]

theorem remainder_nil (closing : Char) :
    remainder style level closing [] ++ rest = lineBreak style level ++ closing :: rest := by
  simp [remainder]

theorem remainder_cons (closing : Char) (piece : List Char) (pieces : List (List Char)) :
    remainder style level closing (piece :: pieces) ++ rest =
      ',' :: (lineBreak style (level + 1) ++
        (piece ++ (remainder style level closing pieces ++ rest))) := by
  simp [remainder]

theorem length_remainder_cons (closing : Char) (piece : List Char) (pieces : List (List Char)) :
    (remainder style level closing (piece :: pieces)).length =
      1 + (lineBreak style (level + 1)).length + piece.length +
        (remainder style level closing pieces).length := by
  simp only [remainder, List.flatMap_cons, List.length_append, List.length_cons]
  omega

theorem endsNumber_remainder {closing : Char} (bracket : closing = ']' ∨ closing = '\x7d')
    (pieces : List (List Char)) : EndsNumber (remainder style level closing pieces ++ rest) := by
  cases pieces with
  | cons piece pieces =>
      rw [remainder_cons]
      exact .cons rfl (by decide) (by decide)
  | nil =>
      rw [remainder_nil, lineBreak]
      split
      · exact .cons rfl (by decide) (by decide)
      · rcases bracket with rfl | rfl <;> exact .cons rfl (by decide) (by decide)

/-! ## Values -/

/-- Values that read back once written; `levels` lists and objects may be opened around an
item. -/
inductive Storable : Nat → Value → Prop
  | null {levels : Nat} : Storable levels .null
  | bool {levels : Nat} (b : Bool) : Storable levels (.bool b)
  | int {levels : Nat} {n : Int} (short : (writeInt n).length ≤ longestInteger) :
    Storable levels (.int n)
  | text {levels : Nat} (s : String) : Storable levels (.text s)
  | emptyList {levels : Nat} : Storable levels (.list [])
  | list {levels : Nat} {items : List Value} (inner : ∀ item ∈ items, Storable levels item) :
    Storable (levels + 1) (.list items)
  | emptyObject {levels : Nat} : Storable levels (.object [])
  | object {levels : Nat} {fields : Fields} (distinct : (fields.map Prod.fst).Nodup)
      (inner : ∀ field ∈ fields, Storable levels field.2) :
    Storable (levels + 1) (.object fields)

/-- At any level, the text of a value reads as the value in front of what does not continue
a number, with twice as much fuel as there are characters. -/
def ReadsBack (style : Style) (levels : Nat) (v : Value) : Prop :=
  ∀ level fuel rest, EndsNumber rest → 2 * (write style level v).length ≤ fuel →
    readValue fuel levels (write style level v ++ rest) = some (v, rest)

/-! What a written value starts with. -/

theorem isSpace_of_isDigit {c : Char} (digit : isDigit c = true) : isSpace c = false := by
  simp only [isSpace, Bool.or_eq_false_iff, beq_eq_false_iff_ne]
  refine ⟨⟨⟨?_, ?_⟩, ?_⟩, ?_⟩ <;> rintro rfl <;> simp [isDigit] at digit

theorem enclose_head (opening closing : Char) (pieces : List (List Char)) :
    ∃ cs, enclose style level opening closing pieces = opening :: cs := by
  cases pieces with
  | nil => exact ⟨_, rfl⟩
  | cons piece pieces => exact ⟨_, enclose_cons opening closing piece pieces⟩

/-- It is neither white space nor the end of a list. -/
theorem Storable.write_head (storable : Storable levels v) (style : Style) (level : Nat) :
    ∃ c cs, write style level v = c :: cs ∧ isSpace c = false ∧ c ≠ ']' := by
  cases storable with
  | null => exact ⟨'n', "ull".toList, rfl, rfl, by decide⟩
  | bool b =>
      cases b
      · exact ⟨'f', "alse".toList, rfl, rfl, by decide⟩
      · exact ⟨'t', "rue".toList, rfl, rfl, by decide⟩
  | @int _ n _ =>
      obtain ⟨c, cs, same, start⟩ := writeInt_head n
      refine ⟨c, cs, same, ?_⟩
      rcases start with rfl | digit
      · exact ⟨rfl, by decide⟩
      · refine ⟨isSpace_of_isDigit digit, ?_⟩
        rintro rfl
        simp [isDigit] at digit
  | text s => exact ⟨'"', _, rfl, rfl, by decide⟩
  | emptyList => exact ⟨'[', _, rfl, rfl, by decide⟩
  | emptyObject => exact ⟨'\x7b', _, rfl, rfl, by decide⟩
  | @list _ items _ =>
      obtain ⟨cs, same⟩ := enclose_head '[' ']' (writeItems style (level + 1) items)
      exact ⟨'[', cs, same, rfl, by decide⟩
  | @object _ fields _ _ =>
      obtain ⟨cs, same⟩ := enclose_head '\x7b' '\x7d' (writeFields style (level + 1) fields)
      exact ⟨'\x7b', cs, same, rfl, by decide⟩

/-! ## Items -/

variable {read : List Value}

/-- The last item leaves what stands behind the bracket. -/
theorem readItems_last (reads : ReadsBack style levels v)
    (enough : 2 * (write style (level + 1) v).length ≤ fuel) :
    readItems (fuel + 1) levels read
        (write style (level + 1) v ++ (remainder style level ']' [] ++ rest)) =
      some (read.reverse ++ [v], rest) := by
  rw [readItems, reads _ _ _ (endsNumber_remainder (.inl rfl) _) enough, remainder_nil]
  simp [isSpace]

/-- Behind any other item the next one is read. -/
theorem readItems_next (reads : ReadsBack style levels v)
    (enough : 2 * (write style (level + 1) v).length ≤ fuel) (piece : List Char)
    (pieces : List (List Char)) :
    readItems (fuel + 1) levels read
        (write style (level + 1) v ++ (remainder style level ']' (piece :: pieces) ++ rest)) =
      readItems fuel levels (v :: read)
        (piece ++ (remainder style level ']' pieces ++ rest)) := by
  rw [readItems, reads _ _ _ (endsNumber_remainder (.inl rfl) _) enough, remainder_cons]
  simp [isSpace]

theorem readItems_remainder {items : List Value}
    (readsFirst : ReadsBack style levels v)
    (reads : ∀ item ∈ items, ReadsBack style levels item)
    (enough : 2 * (write style (level + 1) v ++
      remainder style level ']' (writeItems style (level + 1) items)).length < fuel) :
    readItems fuel levels read (write style (level + 1) v ++
      (remainder style level ']' (writeItems style (level + 1) items) ++ rest)) =
        some (read.reverse ++ v :: items, rest) := by
  obtain ⟨fuel, rfl⟩ := Nat.exists_eq_add_one.2 (by omega : 0 < fuel)
  induction items generalizing v fuel read with
  | nil =>
      rw [List.length_append] at enough
      exact readItems_last readsFirst (by omega)
  | cons item items ih =>
      obtain ⟨readsItem, reads⟩ := List.forall_mem_cons.1 reads
      rw [List.length_append, writeItems, length_remainder_cons] at enough
      rw [writeItems, readItems_next readsFirst (by omega)]
      obtain ⟨fuel, rfl⟩ := Nat.exists_eq_add_one.2 (by omega : 0 < fuel)
      rw [ih readsItem reads _ (by rw [List.length_append]; omega)]
      simp

/-! ## Fields -/

variable {before : List (String × Value)} {field : String × Value}

/-- What is written for a field at the level of the object's items. -/
def writeField (style : Style) (level : Nat) (field : String × Value) : List Char :=
  writeText style field.1 ++ colon style ++ write style level field.2

theorem writeFields_cons (fields : Fields) :
    writeFields style level (field :: fields) =
      writeField style level field :: writeFields style level fields := rfl

/-- Behind a key and its colon the value is read. -/
theorem readValue_colon (reads : ReadsBack style levels v) (ends : EndsNumber rest)
    (enough : 2 * (write style level v).length ≤ fuel) :
    ∃ tail, skipSpace (colon style ++ (write style level v ++ rest)) = ':' :: tail ∧
      readValue fuel levels tail = some (v, rest) := by
  have value := reads level fuel rest ends enough
  unfold colon
  split
  · refine ⟨' ' :: (write style level v ++ rest), skipSpace_cons rfl, ?_⟩
    rw [← value]
    exact readValue_append [' '] (by simp [isSpace])
  · exact ⟨write style level v ++ rest, skipSpace_cons rfl, value⟩

/-- A field is read up to the end of its value, and then what follows decides. -/
theorem readFields_writeField (reads : ReadsBack style levels field.2) (ends : EndsNumber rest)
    (enough : 2 * (writeField style level field).length ≤ fuel) :
    (∀ more, skipSpace rest = ',' :: more →
      readFields (fuel + 1) levels before (writeField style level field ++ rest) =
        readFields fuel levels (field :: before) more) ∧
    ∀ more, skipSpace rest = '\x7d' :: more →
      readFields (fuel + 1) levels before (writeField style level field ++ rest) =
        some (before.reverse ++ [field], more) := by
  have enough : 2 * (write style level field.2).length ≤ fuel := by
    simp only [writeField, List.length_append] at enough
    omega
  obtain ⟨tail, colon, value⟩ := readValue_colon reads ends enough
  have quote : skipSpace (writeField style level field ++ rest) =
      '"' :: (field.1.toList.flatMap (escape style) ++
        '"' :: (Json.colon style ++ (write style level field.2 ++ rest))) := by
    simp [writeField, writeText, isSpace]
  constructor
  · intro more next
    simp [readFields, quote, readString_escape, colon, value, next]
  · intro more last
    simp [readFields, quote, readString_escape, colon, value, last]

theorem readFields_last (reads : ReadsBack style levels field.2)
    (enough : 2 * (writeField style (level + 1) field).length ≤ fuel) :
    readFields (fuel + 1) levels before
        (writeField style (level + 1) field ++ (remainder style level '\x7d' [] ++ rest)) =
      some (before.reverse ++ [field], rest) := by
  refine (readFields_writeField reads (endsNumber_remainder (.inr rfl) _) enough).2 rest ?_
  rw [remainder_nil, skipSpace_lineBreak]
  exact skipSpace_cons rfl

theorem readFields_next (reads : ReadsBack style levels field.2)
    (enough : 2 * (writeField style (level + 1) field).length ≤ fuel) (piece : List Char)
    (pieces : List (List Char)) :
    readFields (fuel + 1) levels before (writeField style (level + 1) field ++
        (remainder style level '\x7d' (piece :: pieces) ++ rest)) =
      readFields fuel levels (field :: before)
        (piece ++ (remainder style level '\x7d' pieces ++ rest)) := by
  rw [(readFields_writeField reads (endsNumber_remainder (.inr rfl) _) enough).1 _
    (by rw [remainder_cons]; exact skipSpace_cons rfl)]
  exact readFields_lineBreak

theorem readFields_remainder {fields : Fields} (readsFirst : ReadsBack style levels field.2)
    (reads : ∀ field ∈ fields, ReadsBack style levels field.2)
    (enough : 2 * (writeField style (level + 1) field ++
      remainder style level '\x7d' (writeFields style (level + 1) fields)).length < fuel) :
    readFields fuel levels before (writeField style (level + 1) field ++
      (remainder style level '\x7d' (writeFields style (level + 1) fields) ++ rest)) =
        some (before.reverse ++ field :: fields, rest) := by
  obtain ⟨fuel, rfl⟩ := Nat.exists_eq_add_one.2 (by omega : 0 < fuel)
  induction fields generalizing field fuel before with
  | nil =>
      rw [List.length_append] at enough
      exact readFields_last readsFirst (by omega)
  | cons second fields ih =>
      obtain ⟨readsSecond, reads⟩ := List.forall_mem_cons.1 reads
      rw [List.length_append, writeFields_cons, length_remainder_cons] at enough
      rw [writeFields_cons, readFields_next readsFirst (by omega)]
      obtain ⟨fuel, rfl⟩ := Nat.exists_eq_add_one.2 (by omega : 0 < fuel)
      rw [ih readsSecond reads _ (by rw [List.length_append]; omega)]
      simp

/-! ## Whole values -/

/-- What starts with neither bracket is read as a scalar. -/
theorem readsBack_of_scalar
    (head : ∀ level, ∃ c cs, write style level v = c :: cs ∧
      isSpace c = false ∧ c ≠ '[' ∧ c ≠ '\x7b')
    (scalar : ∀ level rest, EndsNumber rest →
      readScalar (write style level v ++ rest) = some (v, rest)) : ReadsBack style levels v := by
  intro level fuel rest ends enough
  have scalar := scalar level rest ends
  obtain ⟨c, cs, same, visible, noList, noObject⟩ := head level
  rw [same, List.cons_append] at scalar ⊢
  rw [same, List.length_cons] at enough
  obtain ⟨fuel, rfl⟩ := Nat.exists_eq_add_one.2 (by omega : 0 < fuel)
  rw [readValue, skipSpace_cons visible]
  split <;> simp_all

theorem readsBack_int {n : Int} (short : (writeInt n).length ≤ longestInteger) :
    ReadsBack style levels (.int n) := by
  apply readsBack_of_scalar
  · intro level
    obtain ⟨c, cs, same, start⟩ := writeInt_head n
    refine ⟨c, cs, same, ?_⟩
    rcases start with rfl | digit
    · exact ⟨rfl, by decide⟩
    · refine ⟨isSpace_of_isDigit digit, ?_, ?_⟩ <;> rintro rfl <;> simp [isDigit] at digit
  · intro level rest ends
    exact readScalar_writeInt n ends short

theorem readsBack_text (s : String) : ReadsBack style levels (.text s) := by
  apply readsBack_of_scalar
  · intro level
    exact ⟨'"', _, rfl, rfl, by decide⟩
  · intro level rest _
    simp [write, writeText, readScalar, readString_escape]

theorem readsBack_emptyList : ReadsBack style levels (.list []) := by
  intro level fuel rest _ enough
  have enough : 2 * 2 ≤ fuel := enough
  obtain ⟨fuel, rfl⟩ := Nat.exists_eq_add_one.2 (by omega : 0 < fuel)
  rfl

theorem readsBack_emptyObject : ReadsBack style levels (.object []) := by
  intro level fuel rest _ enough
  have enough : 2 * 2 ≤ fuel := enough
  obtain ⟨fuel, rfl⟩ := Nat.exists_eq_add_one.2 (by omega : 0 < fuel)
  rfl

/-- A list that is not closed at once is read item by item, one level further in. -/
theorem readValue_list {c : Char} (visible : isSpace c = false) (isOpen : c ≠ ']') :
    readValue (fuel + 1) (levels + 1) ('[' :: (lineBreak style level ++ c :: rest)) =
      (readItems fuel levels [] (c :: rest)).map fun (items, rest) => (.list items, rest) := by
  rw [readValue, skipSpace_cons rfl]
  simp only [skipSpace_lineBreak, skipSpace_cons visible]
  split
  next tail closed => exact absurd (List.cons.inj closed).1 isOpen
  next => cases items : readItems fuel levels [] (c :: rest) <;> simp [items]

/-- An object that is not closed at once is read field by field, one level further in. -/
theorem readValue_object :
    readValue (fuel + 1) (levels + 1) ('\x7b' :: (lineBreak style level ++ '"' :: rest)) =
      (readFields fuel levels [] ('"' :: rest)).map fun (pairs, rest) =>
        (.object (Fields.ofPairs pairs), rest) := by
  rw [readValue, skipSpace_cons rfl]
  simp only [skipSpace_lineBreak, skipSpace_cons (show isSpace '"' = false from rfl)]
  cases fields : readFields fuel levels [] ('"' :: rest) <;> simp [fields]

theorem readsBack_list {items : List Value} (first : Storable levels v)
    (readsFirst : ReadsBack style levels v)
    (reads : ∀ item ∈ items, ReadsBack style levels item) :
    ReadsBack style (levels + 1) (.list (v :: items)) := by
  intro level fuel rest _ enough
  rw [write, writeItems, enclose_cons] at enough ⊢
  simp only [List.length_cons, List.length_append] at enough
  obtain ⟨fuel, rfl⟩ := Nat.exists_eq_add_one.2 (by omega : 0 < fuel)
  obtain ⟨c, cs, head, visible, isOpen⟩ := first.write_head style (level + 1)
  have items : readItems fuel levels [] (write style (level + 1) v ++
      (remainder style level ']' (writeItems style (level + 1) items) ++ rest)) =
        some (v :: items, rest) :=
    readItems_remainder readsFirst reads (by rw [List.length_append]; omega)
  simp only [head, List.cons_append, List.append_assoc] at items ⊢
  rw [readValue_list visible isOpen, items]
  rfl

theorem readsBack_object {fields : Fields}
    (distinct : ((field :: fields).map Prod.fst).Nodup)
    (readsFirst : ReadsBack style levels field.2)
    (reads : ∀ field ∈ fields, ReadsBack style levels field.2) :
    ReadsBack style (levels + 1) (.object (field :: fields)) := by
  intro level fuel rest _ enough
  rw [write, writeFields_cons, enclose_cons] at enough ⊢
  simp only [List.length_cons, List.length_append] at enough
  obtain ⟨fuel, rfl⟩ := Nat.exists_eq_add_one.2 (by omega : 0 < fuel)
  obtain ⟨cs, head⟩ : ∃ cs, writeField style (level + 1) field = '"' :: cs := ⟨_, rfl⟩
  have fields : readFields fuel levels [] (writeField style (level + 1) field ++
      (remainder style level '\x7d' (writeFields style (level + 1) fields) ++ rest)) =
        some (field :: fields, rest) :=
    readFields_remainder readsFirst reads (by rw [List.length_append]; omega)
  simp only [head, List.cons_append, List.append_assoc] at fields ⊢
  rw [readValue_object, fields]
  simp [Fields.ofPairs_of_nodup distinct]

/-- What is written for a value that can be stored reads back, in every style. -/
theorem Storable.readsBack (storable : Storable levels v) (style : Style) :
    ReadsBack style levels v := by
  induction storable with
  | null =>
      exact readsBack_of_scalar (fun _ => ⟨'n', _, rfl, rfl, by decide⟩) fun _ rest _ => rfl
  | bool b =>
      cases b
      · exact readsBack_of_scalar (fun _ => ⟨'f', _, rfl, rfl, by decide⟩) fun _ rest _ => rfl
      · exact readsBack_of_scalar (fun _ => ⟨'t', _, rfl, rfl, by decide⟩) fun _ rest _ => rfl
  | int short => exact readsBack_int short
  | text s => exact readsBack_text s
  | emptyList => exact readsBack_emptyList
  | emptyObject => exact readsBack_emptyObject
  | @list _ items inner ih =>
      cases items with
      | nil => exact readsBack_emptyList
      | cons first items =>
          obtain ⟨readsFirst, reads⟩ := List.forall_mem_cons.1 ih
          exact readsBack_list (inner first List.mem_cons_self) readsFirst reads
  | @object _ fields distinct inner ih =>
      cases fields with
      | nil => exact readsBack_emptyObject
      | cons first fields =>
          obtain ⟨readsFirst, reads⟩ := List.forall_mem_cons.1 ih
          exact readsBack_object distinct readsFirst reads

end Json

/-- A value that can be stored is read back from its text. -/
theorem Value.ofJson?_toJson {v : Value} (storable : Json.Storable Json.deepestNesting v)
    (style : Json.Style) : Value.ofJson? (v.toJson style) = some v := by
  have reads := storable.readsBack style 0 (2 * (Json.write style 0 v).length + 2) [] .nil
    (by omega)
  simp only [List.append_nil] at reads
  simp [ofJson?, toJson, reads, Json.skipSpace]

end Vesting
