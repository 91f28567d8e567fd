/-
# A Mersenne twister

Test data has to be the same for the same seed everywhere, so the generator is fixed: the
Mersenne twister of 624 words of thirty-two bits, filled from a key of words, with its
usual tempering. Numbers below a bound are drawn by taking as many bits as the bound has
and drawing again while the result is too large.

Main statement: a number drawn below a positive bound is below it.
-/

import Vesting.Bytes

namespace Vesting

/-- The state of the generator: its words, and how many of them have been given out. -/
structure Twister where
  words : Array UInt32
  used : Nat

namespace Twister

def size : Nat := 624

/-- The distance of the word that is mixed into another. -/
def distance : Nat := 397

def word (words : Array UInt32) (i : Nat) : UInt32 := words.getD i 0

/-- Words that each depend on the one before. -/
def fill (seed : UInt32) : Array UInt32 :=
  (List.range (size - 1)).foldl
    (fun words i =>
      let last := word words i
      words.push ((1812433253 : UInt32) * (last ^^^ (last >>> 30)) + UInt32.ofNat (i + 1)))
    #[seed]

/-- Store a word at place `i`. The last word is also the first of the next pass. -/
def store (words : Array UInt32) (i : Nat) (w : UInt32) : Array UInt32 :=
  let words := words.setIfInBounds i w
  if i + 1 < size then words else words.setIfInBounds 0 w

/-- The place after `i`; the first place is passed over. -/
def after (i : Nat) : Nat := if i + 1 < size then i + 1 else 1

/-- The word at place `i` mixed with the one before it. -/
def mixed (words : Array UInt32) (factor : UInt32) (i : Nat) : UInt32 :=
  let last := word words (i - 1)
  word words i ^^^ ((last ^^^ (last >>> 30)) * factor)

/-- Mix the words of a key into the state, `steps` times from place `i` and key word `j`. -/
def mixKey (key : Array UInt32) : Nat → Nat → Nat → Array UInt32 → Nat × Array UInt32
  | 0, i, _, words => (i, words)
  | steps + 1, i, j, words =>
    let w := mixed words 1664525 i + word key j + UInt32.ofNat j
    mixKey key steps (after i) (if j + 1 < key.size then j + 1 else 0) (store words i w)

/-- Mix the places of the words into the state, `steps` times from place `i`. -/
def mixPlaces : Nat → Nat → Array UInt32 → Array UInt32
  | 0, _, words => words
  | steps + 1, i, words =>
    let w := mixed words 1566083941 i - UInt32.ofNat i
    mixPlaces steps (after i) (store words i w)

/-- The generator for a key of at least one word. -/
def ofKey (key : Array UInt32) : Twister :=
  let (i, words) := mixKey key (max size key.size) 1 0 (fill 19650218)
  ⟨(mixPlaces (size - 1) i words).setIfInBounds 0 0x80000000, size⟩

/-- The words of a number, least significant first, at least one. The fuel is the number
of words. -/
def keyWords : Nat → Nat → List UInt32
  | 0, n => [UInt32.ofNat n]
  | fuel + 1, n =>
    if n < 0x100000000 then [UInt32.ofNat n]
    else UInt32.ofNat n :: keyWords fuel (n / 0x100000000)

/-- The generator for a seed, whose sign does not matter. -/
def ofSeed (seed : Int) : Twister :=
  ofKey (keyWords (seed.natAbs.log2 / 32) seed.natAbs).toArray

/-- The next value of the word at place `i`. -/
def twist (words : Array UInt32) (i : Nat) : UInt32 :=
  let y := (word words i &&& 0x80000000) ||| (word words ((i + 1) % size) &&& 0x7fffffff)
  let odd : UInt32 := if y &&& 1 == 0 then 0 else 0x9908b0df
  word words ((i + distance) % size) ^^^ (y >>> 1) ^^^ odd

def refresh (words : Array UInt32) : Array UInt32 :=
  (List.range size).foldl (fun words i => words.setIfInBounds i (twist words i)) words

/-- A word as it is given out. -/
def temper (y : UInt32) : UInt32 :=
  let y := y ^^^ (y >>> 11)
  let y := y ^^^ ((y <<< 7) &&& 0x9d2c5680)
  let y := y ^^^ ((y <<< 15) &&& 0xefc60000)
  y ^^^ (y >>> 18)

def next (t : Twister) : UInt32 × Twister :=
  let t := if t.used < size then t else ⟨refresh t.words, 0⟩
  (temper (word t.words t.used), { t with used := t.used + 1 })

/-- Draw the leading `count` bits of a word. -/
def bits (count : Nat) (t : Twister) : Nat × Twister :=
  let (w, t) := t.next
  (w.toNat / Nat.pow 2 (32 - count), t)

/-- Draw `count` words as one number, least significant word first. -/
def wide : Nat → Twister → Nat × Twister
  | 0, t => (0, t)
  | count + 1, t =>
    let (w, t) := t.next
    let (high, t) := wide count t
    (w.toNat + 0x100000000 * high, t)

/-- Draw `count` bits until the result is below a bound, at most `tries` times. -/
def reject (bound count : Nat) : Nat → Twister → Nat × Twister
  | 0, t => (0, t)
  | tries + 1, t =>
    let (n, t) := t.bits count
    if n < bound then (n, t) else reject bound count tries t

/-- Far more draws than it takes to get a number below a bound. -/
def patience : Nat := 0x100000000

def below (bound : Nat) (t : Twister) : Nat × Twister :=
  reject bound (bound.log2 + 1) patience t

/-- Draw a number from `low` to just below `high`. -/
def range (low high : Nat) (t : Twister) : Nat × Twister :=
  let (n, t) := t.below (high - low)
  (low + n, t)

/-- A number drawn below a bound is below it. -/
theorem below_lt {bound : Nat} (positive : 0 < bound) (t : Twister) :
    (t.below bound).1 < bound := by
  unfold below
  induction patience generalizing t with
  | zero => exact positive
  | succ tries ih =>
    rw [reject]
    split
    split
    · assumption
    · exact ih _

end Twister

end Vesting
