/-
# The stream of words

A twister keeps its words in one array that it refreshes in place, so that a word is made of
words some of which have been made anew by then and some of which have not. In the order in
which they are made, the words obey one recurrence: each is the word 227 places before it,
mixed with the top bit of the one 624 places before and the other bits of the next. Main
statement: what is given out is the stream of the array, each word tempered.
-/

import Mathlib.Logic.Function.Iterate
import Vesting.Twister

namespace Vesting.Twister

variable {words : Array UInt32} {t : Twister}

/-- The top bit of one word and the other bits of another. -/
def joint (upper lower : UInt32) : UInt32 := (upper &&& 0x80000000) ||| (lower &&& 0x7fffffff)

/-- What two words contribute to a new one. -/
def twisted (upper lower : UInt32) : UInt32 :=
  (joint upper lower >>> 1) ^^^ if joint upper lower &&& 1 == 0 then 0 else 0x9908b0df

theorem twist_eq (words : Array UInt32) (i : Nat) : twist words i =
    word words ((i + distance) % size) ^^^
      twisted (word words i) (word words ((i + 1) % size)) := by
  rw [twist, UInt32.xor_assoc]
  rfl

theorem word_setIfInBounds (words : Array UInt32) {i : Nat} (inside : i < words.size)
    (w : UInt32) (j : Nat) :
    word (words.setIfInBounds i w) j = if i = j then w else word words j := by
  simp only [word, Array.getD_eq_getD_getElem?, Array.getElem?_setIfInBounds, inside]
  split <;> simp

/-! ## Refreshing -/

/-- The array with the first places refreshed. -/
def refreshed (words : Array UInt32) (count : Nat) : Array UInt32 :=
  (List.range count).foldl (fun words i => words.setIfInBounds i (twist words i)) words

theorem refreshed_succ (words : Array UInt32) (i : Nat) : refreshed words (i + 1) =
    (refreshed words i).setIfInBounds i (twist (refreshed words i) i) := by
  rw [refreshed, List.range_succ, List.foldl_append]
  rfl

@[simp] theorem size_refreshed (words : Array UInt32) (count : Nat) :
    (refreshed words count).size = words.size := by
  induction count with
  | zero => rfl
  | succ i ih => rw [refreshed_succ, Array.size_setIfInBounds, ih]

theorem size_refresh (words : Array UInt32) : (refresh words).size = words.size :=
  size_refreshed words size

theorem word_refreshed_succ (sized : words.size = size) {i : Nat} (inside : i < size) (j : Nat) :
    word (refreshed words (i + 1)) j =
      if i = j then twist (refreshed words i) i else word (refreshed words i) j := by
  rw [refreshed_succ, word_setIfInBounds _ (by rwa [size_refreshed, sized])]

/-- A place behind those that have been refreshed has its old word. -/
theorem word_refreshed_of_le (sized : words.size = size) {count j : Nat} (few : count ≤ size)
    (behind : count ≤ j) : word (refreshed words count) j = word words j := by
  induction count with
  | zero => rfl
  | succ i ih =>
      rw [word_refreshed_succ sized few, if_neg (by omega), ih (by omega) (by omega)]

/-- A place that has been refreshed keeps its word. -/
theorem word_refreshed_of_lt (sized : words.size = size) {count j : Nat} (few : count ≤ size)
    (before : j < count) : word (refreshed words count) j = word (refresh words) j := by
  have kept (more : Nat) (within : count + more ≤ size) :
      word (refreshed words (count + more)) j = word (refreshed words count) j := by
    induction more with
    | zero => rfl
    | succ more ih =>
        rw [← Nat.add_assoc, word_refreshed_succ sized (by omega), if_neg (by omega),
          ih (by omega)]
  have all := kept (size - count) (by omega)
  rw [Nat.add_sub_cancel' few] at all
  exact all.symm

/-- The words of an array, followed by those that it is refreshed with. -/
def cell (words : Array UInt32) (k : Nat) : UInt32 :=
  if k < size then word words k else word (refresh words) (k - size)

/-- While a place is refreshed, the places up to it have their old words, and what would lie
behind the end has been refreshed. -/
theorem word_refreshed_mod (sized : words.size = size) {i k : Nat} (inside : i < size)
    (ahead : i ≤ k) (near : k < i + size) :
    word (refreshed words i) (k % size) = cell words k := by
  unfold cell
  split
  · next old =>
      rw [Nat.mod_eq_of_lt old, word_refreshed_of_le sized (Nat.le_of_lt inside) ahead]
  · next new =>
      have wrapped : k % size = k - size := by
        rw [Nat.mod_eq_sub_mod (by omega), Nat.mod_eq_of_lt (by omega)]
      rw [wrapped, word_refreshed_of_lt sized (Nat.le_of_lt inside) (by omega)]

/-- Each refreshed word is made of three of the words before it. -/
theorem word_refresh (sized : words.size = size) {i : Nat} (inside : i < size) :
    word (refresh words) i =
      cell words (i + distance) ^^^ twisted (cell words i) (cell words (i + 1)) := by
  have near : i + distance < i + size := by unfold distance size; omega
  have next : i + 1 < i + size := by unfold size; omega
  rw [← word_refreshed_of_lt sized inside (Nat.lt_succ_self i), word_refreshed_succ sized inside,
    if_pos rfl, twist_eq, word_refreshed_mod sized inside (Nat.le_add_right i distance) near,
    word_refreshed_mod sized inside (Nat.le_add_right i 1) next,
    word_refreshed_of_le sized (Nat.le_of_lt inside) (Nat.le_refl i), cell, cell, cell,
    if_pos inside]

/-! ## The stream -/

/-- The words of an array and of all that it is refreshed with, in the order in which they are
made. -/
def stream (words : Array UInt32) (k : Nat) : UInt32 :=
  word (refresh^[k / size] words) (k % size)

theorem size_iterate_refresh (words : Array UInt32) (rounds : Nat) :
    (refresh^[rounds] words).size = words.size := by
  induction rounds with
  | zero => rfl
  | succ rounds ih => rw [Function.iterate_succ_apply', size_refresh, ih]

theorem stream_eq_cell (words : Array UInt32) (rounds : Nat) {i : Nat} (near : i < size + size) :
    stream words (size * rounds + i) = cell (refresh^[rounds] words) i := by
  have positive : 0 < size := by decide
  unfold stream cell
  split
  · next old =>
      rw [Nat.mul_add_div positive, Nat.div_eq_of_lt old, Nat.mul_add_mod, Nat.mod_eq_of_lt old,
        Nat.add_zero]
  · next new =>
      have quotient : i / size = 1 := by
        rw [Nat.div_eq_iff positive]
        omega
      have remainder : i % size = i - size := by
        rw [Nat.mod_eq_sub_mod (by omega), Nat.mod_eq_of_lt (by omega)]
      rw [Nat.mul_add_div positive, quotient, Nat.mul_add_mod, remainder,
        Function.iterate_succ_apply']

/-- The recurrence of the stream. -/
theorem stream_add_size (sized : words.size = size) (k : Nat) :
    stream words (k + size) =
      stream words (k + distance) ^^^ twisted (stream words k) (stream words (k + 1)) := by
  have inside : k % size < size := Nat.mod_lt k (by decide)
  have near : k % size + distance < size + size := by unfold distance size at *; omega
  have next : k % size + 1 < size + size := by unfold size at *; omega
  have split (ahead : Nat) : k + ahead = size * (k / size) + (k % size + ahead) := by
    rw [← Nat.add_assoc, Nat.div_add_mod]
  have here : k = size * (k / size) + k % size := (Nat.div_add_mod k size).symm
  have made := word_refresh ((size_iterate_refresh words (k / size)).trans sized) inside
  rw [← stream_eq_cell words _ near, ← stream_eq_cell words _ (Nat.lt_add_left size inside),
    ← stream_eq_cell words _ next, ← split, ← split, ← here] at made
  rw [← made, split size, stream_eq_cell words _ (Nat.add_lt_add_right inside size), cell,
    if_neg (Nat.not_lt.2 (Nat.le_add_left _ _)), Nat.add_sub_cancel]

/-! ## What is given out -/

/-- A twister with all its words. -/
structure Whole (t : Twister) : Prop where
  sized : t.words.size = size
  used_le : t.used ≤ size

/-- The twister when some more words have been given out. -/
def skip (count : Nat) (t : Twister) : Twister := (fun t : Twister => t.next.2)^[count] t

theorem skip_succ (count : Nat) (t : Twister) : skip (count + 1) t = (skip count t).next.2 :=
  Function.iterate_succ_apply' _ _ _

theorem skip_add (more count : Nat) (t : Twister) :
    skip more (skip count t) = skip (more + count) t :=
  (Function.iterate_add_apply _ _ _ _).symm

/-- What the twister gives out as the next word, and how it goes on. -/
theorem next_eq {rounds used : Nat} (few : used ≤ size) :
    ∃ rounds' used' : Nat, used' ≤ size ∧ size * rounds' + used' = size * rounds + used + 1 ∧
      next ⟨refresh^[rounds] words, used⟩ =
        (temper (stream words (size * rounds + used)), ⟨refresh^[rounds'] words, used'⟩) := by
  unfold next
  split
  · next inside =>
      refine ⟨rounds, used + 1, inside, rfl, ?_⟩
      rw [stream_eq_cell words rounds (Nat.lt_add_left size inside), cell, if_pos inside]
  · next spent =>
      obtain rfl : used = size := Nat.le_antisymm few (Nat.not_lt.1 spent)
      refine ⟨rounds + 1, 1, by decide, by rw [Nat.mul_succ], ?_⟩
      rw [stream_eq_cell words rounds (by decide), cell, if_neg (Nat.lt_irrefl size),
        Nat.sub_self, Function.iterate_succ_apply']

theorem skip_eq (whole : t.Whole) (count : Nat) :
    ∃ rounds used : Nat, used ≤ size ∧ size * rounds + used = t.used + count ∧
      skip count t = ⟨refresh^[rounds] t.words, used⟩ := by
  induction count with
  | zero => exact ⟨0, t.used, whole.used_le, by rw [Nat.mul_zero, Nat.zero_add]; rfl, rfl⟩
  | succ count ih =>
      obtain ⟨rounds, used, few, counted, same⟩ := ih
      obtain ⟨rounds', used', few', counted', given⟩ := @next_eq t.words rounds used few
      refine ⟨rounds', used', few', by rw [counted', counted]; rfl, ?_⟩
      rw [skip_succ, same, given]

/-- What a twister gives out is its stream, tempered, from the place that it has reached. -/
theorem next_skip (whole : t.Whole) (count : Nat) :
    (skip count t).next.1 = temper (stream t.words (t.used + count)) := by
  obtain ⟨rounds, used, few, counted, same⟩ := skip_eq whole count
  obtain ⟨_, _, -, -, given⟩ := @next_eq t.words rounds used few
  rw [same, given, counted]

theorem whole_skip (whole : t.Whole) (count : Nat) : (skip count t).Whole := by
  obtain ⟨rounds, used, few, -, same⟩ := skip_eq whole count
  rw [same]
  exact ⟨(size_iterate_refresh _ _).trans whole.sized, few⟩

end Vesting.Twister
