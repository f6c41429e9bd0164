/-
  The pseudo-random generator behind the jitter of retry delays: the Mersenne twister with
  624 words of 32 bits. It is seeded with the words of the seed's absolute value, least
  significant first. A draw in [0, 1) is made from two outputs: 27 bits of the first and 26 of
  the second, over 2^53.
-/

namespace StakeLedger

-- Powers of naturals are those of core, whatever else is imported.
attribute [local instance (high)] instPowNat

/-- The state of the generator: its words, and how many of them were given out. -/
structure Twister where
  words : Array UInt32
  used : Nat

namespace Twister

/-- The number of words. -/
def size : Nat := 624

/-- A word of the state. -/
def word (words : Array UInt32) (i : Nat) : UInt32 := words.getD i 0

/-- The state filled from a single word. -/
def fill (seed : UInt32) : Array UInt32 :=
  (List.range (size - 1)).foldl (fun words i =>
    let last := word words i
    words.push ((1812433253 : UInt32) * (last ^^^ (last >>> 30)) + UInt32.ofNat (i + 1))) #[seed]

/-- One step of a seeding round: the word at `i` is changed by `change`, and past the last word
the first becomes a copy of it. -/
def seedStep (change : UInt32 → UInt32 → UInt32) (words : Array UInt32) (i : Nat) :
    Array UInt32 × Nat :=
  let last := word words (i - 1)
  let words := words.setIfInBounds i (change (word words i) (last ^^^ (last >>> 30)))
  if i + 1 < size then (words, i + 1)
  else (words.setIfInBounds 0 (word words (size - 1)), 1)

/-- The 32-bit words of a number, least significant first; a single zero for zero. The first
argument bounds their number. -/
def wordsOf : Nat → Nat → List UInt32
  | 0, _ => []
  | fuel + 1, n =>
    UInt32.ofNat (n % 2 ^ 32) :: (if n / 2 ^ 32 = 0 then [] else wordsOf fuel (n / 2 ^ 32))

/-- The state seeded with a key of one word or more. -/
def ofKey (key : Array UInt32) : Twister :=
  let mixKey := fun (state : Array UInt32 × Nat) step =>
    let j := step % key.size
    seedStep (fun old mix => (old ^^^ (mix * 1664525)) + key.getD j 0 + UInt32.ofNat j)
      state.1 state.2
  let (words, i) := (List.range (max size key.size)).foldl mixKey (fill 19650218, 1)
  let mixPlace := fun (state : Array UInt32 × Nat) (_ : Nat) =>
    seedStep (fun old mix => (old ^^^ (mix * 1566083941)) - UInt32.ofNat state.2)
      state.1 state.2
  let (words, _) := (List.range (size - 1)).foldl mixPlace (words, i)
  ⟨words.setIfInBounds 0 0x80000000, size⟩

/-- The state for an integer seed, whose sign does not matter. -/
def ofSeed (seed : Int) : Twister :=
  ofKey (wordsOf (seed.natAbs.log2 / 32 + 1) seed.natAbs).toArray

/-- All words renewed. -/
def renew (words : Array UInt32) : Array UInt32 :=
  (List.range size).foldl (fun words i =>
    let mixed := (word words i &&& 0x80000000) ||| (word words ((i + 1) % size) &&& 0x7FFFFFFF)
    let twist : UInt32 := if mixed &&& 1 = 0 then 0 else 0x9908B0DF
    words.setIfInBounds i (word words ((i + 397) % size) ^^^ (mixed >>> 1) ^^^ twist)) words

/-- The bits of a word spread before it is given out. -/
def temper (x : UInt32) : UInt32 :=
  let x := x ^^^ (x >>> 11)
  let x := x ^^^ ((x <<< 7) &&& 0x9D2C5680)
  let x := x ^^^ ((x <<< 15) &&& 0xEFC60000)
  x ^^^ (x >>> 18)

/-- The next output. -/
def next (t : Twister) : UInt32 × Twister :=
  let t := if t.used < size then t else ⟨renew t.words, 0⟩
  (temper (word t.words t.used), { t with used := t.used + 1 })

/-- The next draw, as the numerator of a fraction of 2^53. -/
def draw (t : Twister) : Nat × Twister :=
  let (a, t) := t.next
  let (b, t) := t.next
  ((a >>> 5).toNat * 2 ^ 26 + (b >>> 6).toNat, t)

end Twister

end StakeLedger
