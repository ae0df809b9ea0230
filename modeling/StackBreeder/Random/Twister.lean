import StackBreeder.Random.Source

/-!
# The Mersenne Twister

The generator MT19937: 624 words of 32 bits, each replaced in turn by a linear recurrence over
three of them and given out tempered. Seeds are integers of any size; a seed and its negative give
the same stream. A number of the unit interval takes two words and has 53 bits. A number below a
bound takes as many bits as the bound has, again and again until they are below it.
-/

namespace StackBreeder

/-- The state of the generator: its words, and the position of the one to be replaced next. -/
structure Twister where
  words : Vector UInt32 624
  position : Fin 624

namespace Twister

/-- Spreads the bits of a word of the state over the word that is given out. -/
def temper (w : UInt32) : UInt32 :=
  let w := w ^^^ (w >>> 11)
  let w := w ^^^ ((w <<< 7) &&& 0x9d2c5680)
  let w := w ^^^ ((w <<< 15) &&& 0xefc60000)
  w ^^^ (w >>> 18)

/-- The recurrence: the top bit of one word and the other bits of the next one, shifted and masked,
are added to the word 397 places on. -/
def recur (word following distant : UInt32) : UInt32 :=
  let joined := (word &&& 0x80000000) ||| (following &&& 0x7fffffff)
  distant ^^^ (joined >>> 1) ^^^ (if joined &&& 1 = 1 then 0x9908b0df else 0)

/-- Draws a word of 32 bits. Positions wrap around. -/
def next : Twister → UInt32 × Twister
  | ⟨words, i⟩ =>
    let following := i + 1
    let distant := i + 397
    let w := recur words[i] words[following] words[distant]
    (temper w, ⟨words.set i w, following⟩)

/-! ## Seeding -/

/-- How a word of the state enters its successor while a state is filled. -/
def mix (w : UInt32) : UInt32 := w ^^^ (w >>> 30)

/-- A sequence of words in which each follows from the one before it and its position. -/
def fill (first : UInt32) : Vector UInt32 624 :=
  (Nat.fold 623 (fun t h (words, last) =>
    let w := 1812433253 * mix last + UInt32.ofNat (t + 1)
    (words.set (t + 1) w, w)) ((Vector.replicate 624 first, first) : Vector UInt32 624 × UInt32)).1

/-- The words of a seed's magnitude, least significant first, at least one. -/
def key (seed : Int) : Array UInt32 :=
  Array.ofFn fun i : Fin (seed.natAbs.log2 / 32 + 1) => UInt32.ofNat (seed.natAbs >>> (32 * i.val))

/-- Changes the words after the first in turn, `count` times, starting `start` places on. A word
becomes what `change` makes of the step, its position, itself and the word written before it. -/
def sweep (start count : Nat) (change : Nat → Nat → UInt32 → UInt32 → UInt32)
    (state : Vector UInt32 624 × UInt32) : Vector UInt32 624 × UInt32 :=
  Nat.fold count (fun t _ (words, last) =>
    let position := (start + t) % 623 + 1
    have inside : position < 624 := by omega
    let w := change t position words[position] last
    (words.set position w, w)) state

/-- The state that the words of a key lead to: a fixed sequence is swept with the key, which is
repeated as often as needed, and then with the positions. -/
def ofKey (key : Array UInt32) : Twister :=
  let rounds := max 624 key.size
  let stir (t _ : Nat) (w last : UInt32) : UInt32 :=
    let j := t % key.size
    (w ^^^ (mix last * 1664525)) + key.getD j 0 + UInt32.ofNat j
  let settle (_ position : Nat) (w last : UInt32) : UInt32 :=
    (w ^^^ (mix last * 1566083941)) - UInt32.ofNat position
  let words := fill 19650218
  let (words, _) := sweep rounds 623 settle (sweep 0 rounds stir (words, words[0]))
  ⟨words.set 0 0x80000000, 0⟩

/-- The generator of a seed. -/
def ofSeed (seed : Int) : Twister := ofKey (key seed)

/-! ## Draws -/

/-- Draws a number of the given count of bits, 32 at a time, the low ones first. What is left over
comes from the high bits of a word. -/
def bits (count : Nat) (g : Twister) : Nat × Twister :=
  let (w, g) := g.next
  if count ≤ 32 then (w.toNat >>> (32 - count), g)
  else
    let (high, g) := bits (count - 32) g
    (w.toNat + high <<< 32, g)
termination_by count

/-- Draws numbers of the given count of bits until one is below the bound, `tries` times at most;
after that, zero. -/
def accept (count bound : Nat) (h : 0 < bound) : (tries : Nat) → Twister → Fin bound × Twister
  | 0, g => (⟨0, h⟩, g)
  | tries + 1, g =>
    let (r, g) := g.bits count
    if inside : r < bound then (⟨r, inside⟩, g) else accept count bound h tries g

/-- Draws a number below a bound, from numbers with as many bits as the bound. A try succeeds with a
chance of at least one half, so all tries fail with a chance of at most `2 ^ -1024`. -/
def below (bound : Nat) (h : 0 < bound) (g : Twister) : Fin bound × Twister :=
  accept (bound.log2 + 1) bound h 1024 g

/-- Draws a number of the unit interval, a multiple of `2 ^ -53`. -/
def unit (g : Twister) : Rat × Twister :=
  let (a, g) := g.next
  let (b, g) := g.next
  (mkRat ((a >>> 5).toNat * 67108864 + (b >>> 6).toNat) 9007199254740992, g)

instance : RandomSource Twister := ⟨unit, below⟩

end Twister

end StackBreeder
