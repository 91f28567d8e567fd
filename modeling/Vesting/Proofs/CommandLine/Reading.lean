/-
# Command lines read back

What is written with a form is read with it as it was meant. Arguments are marked one by one,
so a line is marked by marking its parts; reading then goes from argument to argument, and a
line of switches and operands is read by reading its first argument and the rest.

A value behind an equals sign can be any text. It is what the switch is given, whether it is
empty, begins with a dash or holds more equals signs. That rests on the names of a form, none
of which holds an equals sign.
-/

import Vesting.CommandLine.Arguments

namespace Vesting.CommandLine

variable {f : Form} {items rest : List Item} {a b : Arguments} {operands : List Operand}

/-! ## Marks -/

/-- The names of a form's switches hold no equals sign. -/
def Form.Unsigned (f : Form) : Prop := ∀ entry ∈ f.names, '=' ∉ entry.1.toList

instance (f : Form) : Decidable f.Unsigned := inferInstanceAs (Decidable (∀ entry ∈ f.names, _))

theorem Form.Unsigned.find?_eq_none (unsigned : f.Unsigned) {arg : String}
    (signed : '=' ∈ arg.toList) : f.find? arg = none := by
  have none : f.names.find? (·.1 == arg) = none :=
    List.find?_eq_none.2 fun entry member same =>
      unsigned entry member ((beq_iff_eq.1 same) ▸ signed)
  rw [Form.find?, none]
  rfl

theorem splitAtSign_append {front : List Char} (unsigned : '=' ∉ front) (value : List Char) :
    splitAtSign (front ++ '=' :: value) = (front, some value) := by
  induction front with
  | nil => rfl
  | cons c front ih =>
      have other : c ≠ '=' := fun same => unsigned (same ▸ List.mem_cons_self)
      have later : '=' ∉ front := fun member => unsigned (List.mem_cons_of_mem _ member)
      rw [List.cons_append, splitAtSign, ih later]
      exact fun h => other h

theorem splitAtSign_prefix (cs : List Char) : (splitAtSign cs).1 <+: cs := by
  fun_induction splitAtSign cs with
  | case1 => exact List.prefix_rfl
  | case2 rest => exact List.nil_prefix
  | case3 c rest _ front back split ih =>
      rw [split] at ih
      exact List.cons_prefix_cons.2 ⟨rfl, ih⟩

/-- The switch that is named before an equals sign. -/
theorem named?_signed (f : Form) {name : String} (plain : '=' ∉ name.toList) (value : String) :
    named? f (name ++ "=" ++ value).toList =
      (f.find? name).map fun s => (name, s, some ⟨true, value⟩) := by
  have text : (name ++ "=" ++ value).toList = name.toList ++ '=' :: value.toList := by simp
  rw [text, named?, splitAtSign_append plain]
  simp

theorem ne_dashes_of_plain {arg : String} (plain : arg.toList.head? ≠ some '-') : arg ≠ "--" := by
  rintro rfl
  exact plain rfl

theorem mark_operand {arg : String} (plain : arg.toList.head? ≠ some '-') :
    mark f arg = .ok .operand := by
  have begins : (arg.toList.head? != some '-') = true := by simpa using plain
  simp only [mark, begins, if_true]

theorem mark_named {name : String} {s : Switch} (dash : name.toList.head? = some '-')
    (known : f.find? name = some s) : mark f name = .ok (.switch s name none) := by
  simp only [mark, dash, known]
  rfl

/-- A switch with a value behind an equals sign is marked as such, whatever the value is. -/
theorem mark_signed (unsigned : f.Unsigned) {name : String} {s : Switch}
    (dash : name.toList.head? = some '-') (plain : '=' ∉ name.toList)
    (known : f.find? name = some s) (value : String) :
    mark f (name ++ "=" ++ value) = .ok (.switch s name (some ⟨true, value⟩)) := by
  have head : (name ++ "=" ++ value).toList.head? = some '-' := by simp [dash]
  have whole : f.find? (name ++ "=" ++ value) = none := unsigned.find?_eq_none (by simp)
  have named := named?_signed f plain value
  rw [known] at named
  simp only [mark, head, whole, named]
  rfl

theorem find?_eq_none_of_strange {name : String} {front : List Char}
    (begins : front <+: name.toList) (strange : ∀ entry ∈ f.names, ¬ front <+: entry.1.toList) :
    f.find? name = none := by
  have none : f.names.find? (·.1 == name) = none :=
    List.find?_eq_none.2 fun entry member same =>
      strange entry member ((beq_iff_eq.1 same) ▸ begins)
  rw [Form.find?, none]
  rfl

/-- Behind two dashes, what no name begins with is not taken for a switch, nor for several. -/
theorem exists_mark_strange {arg : String} {letters : List Char}
    (spelled : (splitAtSign arg.toList).1 = '-' :: '-' :: letters)
    (strange : ∀ entry ∈ f.names, ¬ '-' :: '-' :: letters <+: entry.1.toList) :
    ∃ m : Mark, mark f arg = .ok m := by
  have begins : '-' :: '-' :: letters <+: arg.toList := spelled ▸ splitAtSign_prefix arg.toList
  have whole : f.find? arg = none := find?_eq_none_of_strange begins strange
  have unknown : f.find? (String.ofList ('-' :: '-' :: letters)) = none :=
    find?_eq_none_of_strange (by simp) strange
  rcases parts : splitAtSign arg.toList with ⟨front, back⟩
  obtain rfl : front = '-' :: '-' :: letters := by rw [← spelled, parts]
  have named : named? f arg.toList = none := by
    rw [named?, parts]
    cases back with
    | none => rfl
    | some text => simp only [unknown, Option.map_none]
  obtain ⟨more, text⟩ := begins
  have behind : arg.toList.tail.head? = some '-' := by rw [← text]; rfl
  have none : candidates f arg.toList = [] := by
    rw [candidates, parts, behind, if_pos BEq.rfl]
    apply List.filterMap_eq_nil_iff.2
    rintro ⟨other, s⟩ member
    simp only [List.isPrefixOf_iff_prefix, strange _ member, if_false]
  simp only [mark, whole, named, none]
  simp [← text]

/-! ## Marked lines -/

theorem markAll_cons {arg : String} {args : List String} {m : Mark} (single : arg ≠ "--")
    (first : mark f arg = .ok m) (others : markAll f args = .ok items) :
    markAll f (arg :: args) = .ok (⟨arg, m⟩ :: items) := by
  rw [markAll, if_neg (by simpa using single), first, others]
  rfl

/-- The marks of a line are that of its first argument and those of the rest. -/
theorem exists_of_markAll_cons {arg : String} {args : List String} (single : arg ≠ "--")
    (marked : markAll f (arg :: args) = .ok items) :
    ∃ (m : Mark) (others : List Item), mark f arg = .ok m ∧ markAll f args = .ok others ∧
      items = ⟨arg, m⟩ :: others := by
  rw [markAll, if_neg (by simpa using single)] at marked
  cases first : mark f arg with
  | error message => rw [first] at marked; cases marked
  | ok m =>
      rw [first] at marked
      cases later : markAll f args with
      | error message => rw [later] at marked; cases marked
      | ok others =>
          rw [later] at marked
          cases marked
          exact ⟨m, others, rfl, rfl, rfl⟩

theorem exists_markAll {args : List String}
    (markable : ∀ arg ∈ args, arg ≠ "--" ∧ ∃ m : Mark, mark f arg = .ok m) :
    ∃ items : List Item, markAll f args = .ok items := by
  induction args with
  | nil => exact ⟨[], rfl⟩
  | cons arg args ih =>
      obtain ⟨⟨single, m, first⟩, later⟩ := List.forall_mem_cons.1 markable
      obtain ⟨items, others⟩ := ih later
      exact ⟨⟨arg, m⟩ :: items, markAll_cons single first others⟩

/-- Marks leave the texts of the arguments as they are. -/
theorem map_text_of_markAll {args : List String} (marked : markAll f args = .ok items) :
    items.map (·.text) = args := by
  induction args generalizing items with
  | nil => cases marked; rfl
  | cons arg args ih =>
      by_cases dashes : arg = "--"
      · rw [markAll, if_pos (by simpa using dashes)] at marked
        cases marked
        simp [Function.comp_def]
      · obtain ⟨m, others, -, later, rfl⟩ := exists_of_markAll_cons dashes marked
        rw [List.map_cons, ih later]

/-! ## Reading -/

/-- From some arguments on, with some operands not read yet, a marked line is read. There is
fuel enough if there is some for every argument. -/
def Reads (f : Form) (operands : List Operand) (items : List Item) (a b : Arguments) : Prop :=
  ∀ fuel, items.length ≤ fuel → readItems f fuel operands items a = .ok b

namespace Reads

theorem nil (f : Form) (operands : List Operand) (a : Arguments) :
    Reads f operands [] a a := by
  intro fuel _
  cases fuel <;> rfl

/-- A switch without a value is set, and the rest is read. -/
theorem flag {s : Switch} {value : Bool} (effect : s.effect = .flag value) {text name : String}
    (reads : Reads f operands rest (a.put s.field (.flag value)) b) :
    Reads f operands (⟨text, .switch s name none⟩ :: rest) a b := by
  intro fuel enough
  obtain _ | fuel := fuel
  · simp at enough
  · rw [← reads fuel (by simpa using enough)]
    simp [readItems, readSwitch, Switch.takesValue, effect, applyAll, Switch.apply]
    rfl

/-- A switch keeps the text behind its equals sign, and the rest is read. -/
theorem text {s : Switch} (effect : s.effect = .text) {text name value : String}
    (reads : Reads f operands rest (a.put s.field (.text value)) b) :
    Reads f operands (⟨text, .switch s name (some ⟨true, value⟩)⟩ :: rest) a b := by
  intro fuel enough
  obtain _ | fuel := fuel
  · simp at enough
  · rw [← reads fuel (by simpa using enough)]
    simp [readItems, readSwitch, Switch.takesValue, effect, applyAll, Switch.apply]
    rfl

end Reads

/-- A single operand is kept under its name. -/
theorem readOperand_plain {o : Operand} {value : String} (single : o.takesRest = false)
    (dashes : value ≠ "--") (behind : items.takeWhile Item.isDashes = []) (a : Arguments) :
    readOperand o (⟨value, .operand⟩ :: items) a = some (a.put o.name (.text value), items) := by
  have other : [value].erase "--" = [value] := List.erase_of_not_mem (by simpa using dashes.symm)
  have front : (⟨value, .operand⟩ :: items : List Item).takeWhile Item.isDashes = [] := by
    simp [Item.isDashes]
  rw [readOperand, front]
  simp [single, behind, other]

theorem readOperands_cons {o : Operand} {left : List Operand} {value : String}
    (single : o.takesRest = false) (dashes : value ≠ "--")
    (behind : items.takeWhile Item.isDashes = []) (a : Arguments) :
    readOperands (o :: left) (⟨value, .operand⟩ :: items) a =
      readOperands left items (a.put o.name (.text value)) := by
  rw [readOperands, readOperand_plain single dashes behind]

/-- Operands that stand in front are read at once, and then the rest. -/
theorem Reads.front {left : List Operand} {value : String} {read : Arguments}
    (front : readOperands operands (⟨value, .operand⟩ :: items) a = (left, rest, read))
    (fewer : left.length < operands.length) (shorter : rest.length ≤ items.length)
    (reads : Reads f left rest read b) :
    Reads f operands (⟨value, .operand⟩ :: items) a b := by
  intro fuel enough
  obtain _ | fuel := fuel
  · simp at enough
  · have room : items.length ≤ fuel := by simpa using enough
    rw [← reads fuel (Nat.le_trans shorter room), readItems]
    simp only [front, fewer, if_true]

/-- A line is read with a form if its marks are and nothing is missing. -/
theorem read_of_reads {args : List String} (marked : markAll f args = .ok items)
    (reads : Reads f f.operands items ⟨[], [], []⟩ a) (complete : missing f a = []) :
    read f args = .ok a := by
  rw [read, marked]
  simp only [reads (items.length + 1) (Nat.le_succ _), complete]

/-! ## Switches that may be left out -/

/-- A switch without a value is written by its name if it is to be set. -/
def flagWords (given : Bool) (name : String) : List String := if given then [name] else []

/-- A switch with a value is written by its name, an equals sign and the value, if there is one. -/
def textWords (given : Option String) (name : String) : List String :=
  (given.map (name ++ "=" ++ ·)).toList

def flagItems (given : Bool) (s : Switch) (name : String) : List Item :=
  if given then [⟨name, .switch s name none⟩] else []

def textItems (given : Option String) (s : Switch) (name : String) : List Item :=
  (given.map fun value =>
    (⟨name ++ "=" ++ value, .switch s name (some ⟨true, value⟩)⟩ : Item)).toList

/-- What is given by a switch without a value. -/
def flagGiven (given : Bool) (s : Switch) : List (String × Given) :=
  if given then [(s.field, .flag true)] else []

/-- What is given by a switch with a value. -/
def textGiven (given : Option String) (s : Switch) : List (String × Given) :=
  (given.map fun value => (s.field, Given.text value)).toList

theorem mem_flagWords {given : Bool} {name arg : String} :
    arg ∈ flagWords given name ↔ given = true ∧ arg = name := by
  cases given <;> simp [flagWords]

theorem signed_ne_dashes (name value : String) : name ++ "=" ++ value ≠ "--" := by
  intro same
  have signed : '=' ∈ (name ++ "=" ++ value).toList := by simp
  rw [same] at signed
  simp at signed

section Written

variable {s : Switch} {name : String}

theorem markAll_flagWords (single : name ≠ "--") (dash : name.toList.head? = some '-')
    (known : f.find? name = some s) {args : List String} (others : markAll f args = .ok rest)
    (given : Bool) :
    markAll f (flagWords given name ++ args) = .ok (flagItems given s name ++ rest) := by
  cases given with
  | false => exact others
  | true => exact markAll_cons single (mark_named dash known) others

theorem markAll_textWords (unsigned : f.Unsigned) (dash : name.toList.head? = some '-')
    (plain : '=' ∉ name.toList) (known : f.find? name = some s) {args : List String}
    (others : markAll f args = .ok rest) (given : Option String) :
    markAll f (textWords given name ++ args) = .ok (textItems given s name ++ rest) := by
  cases given with
  | none => exact others
  | some value =>
      have first := mark_signed unsigned dash plain known value
      exact markAll_cons (signed_ne_dashes name value) first others

theorem Reads.flags (effect : s.effect = .flag true) {given : Bool}
    (reads : Reads f operands rest { a with given := flagGiven given s ++ a.given } b) :
    Reads f operands (flagItems given s name ++ rest) a b := by
  cases given with
  | false => exact reads
  | true => exact .flag effect reads

theorem Reads.texts (effect : s.effect = .text) {given : Option String}
    (reads : Reads f operands rest { a with given := textGiven given s ++ a.given } b) :
    Reads f operands (textItems given s name ++ rest) a b := by
  cases given with
  | none => exact reads
  | some value => exact .text effect reads

theorem takeWhile_isDashes_flagItems (given : Bool) (s : Switch) (name : String)
    (behind : items.takeWhile Item.isDashes = []) :
    (flagItems given s name ++ items).takeWhile Item.isDashes = [] := by
  cases given with
  | false => exact behind
  | true => rfl

theorem takeWhile_isDashes_textItems (given : Option String) (s : Switch) (name : String)
    (behind : items.takeWhile Item.isDashes = []) :
    (textItems given s name ++ items).takeWhile Item.isDashes = [] := by
  cases given with
  | none => exact behind
  | some value => rfl

end Written

end Vesting.CommandLine
