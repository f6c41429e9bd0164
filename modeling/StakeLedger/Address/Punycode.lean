/-
  Punycode: any text written with letters, digits and hyphens of ASCII.
  The ASCII characters come first, then a hyphen, then the others in ascending order, each as
  the distance that a counter has to go to reach its value and place. Distances are written in
  digits of a mixed base, whose thresholds follow the distances written so far. Reading goes
  the same way and puts every character into its place; each distance takes at least a digit
  (`length_lt_of_distance?`).
-/

namespace StakeLedger.Address.Punycode

/-- The character of a digit: a letter below 26, a decimal digit from there. -/
def digitChar (d : Nat) : Char :=
  if d < 26 then Char.ofNat (0x61 + d) else Char.ofNat (0x16 + d)

/-- The threshold of the digit at a position that is counted in steps of 36. -/
def threshold (position bias : Nat) : Nat := max 1 (min 26 (position - bias))

/-- The digits of a distance from a position on. -/
def digits (bias position distance : Nat) : List Char :=
  let t := threshold position bias
  if distance < t then [digitChar distance]
  else
    digitChar (t + (distance - t) % (36 - t))
      :: digits bias (position + 36) ((distance - t) / (36 - t))
  termination_by distance
  decreasing_by
    have h1 : 1 ≤ threshold position bias := Nat.le_max_left _ _
    have h2 := Nat.div_le_self (distance - threshold position bias) (36 - threshold position bias)
    omega

/-- The steps that bring a distance into the middle range, and what is left of it. -/
def settle (distance : Nat) : Nat × Nat :=
  if 455 < distance then
    let (steps, rest) := settle (distance / 35)
    (steps + 36, rest)
  else (0, distance)
  termination_by distance
  decreasing_by omega

/-- The bias after a distance; `count` characters have been written with it. -/
def adapted (distance count : Nat) (first : Bool) : Nat :=
  let distance := if first then distance / 700 else distance / 2
  let (steps, rest) := settle (distance + distance / count)
  steps + 36 * rest / (rest + 38)

/-- What has been written: the digits, the distance gone since the last of them, the number of
characters behind them, and the bias. -/
structure Writer where
  out : List Char
  distance : Nat
  count : Nat
  bias : Nat

/-- Goes past a character of the text when the counter stands at `value`. -/
def Writer.pass (basics value : Nat) (w : Writer) (c : Char) : Writer :=
  if c.toNat < value then { w with distance := w.distance + 1 }
  else if c.toNat = value then
    ⟨w.out ++ digits w.bias 36 w.distance, 0, w.count + 1,
      adapted w.distance (w.count + 1) (w.count = basics)⟩
  else w

/-- Writes the characters of the values in ascending order; the counter stands at `value`. -/
def Writer.finish (basics : Nat) (cs : List Char) : Nat → List Nat → Writer → Writer
  | _, [], w => w
  | value, next :: rest, w =>
    let w := { w with distance := w.distance + (next - value) * (w.count + 1) }
    let w := cs.foldl (Writer.pass basics next) w
    finish basics cs (next + 1) rest { w with distance := w.distance + 1 }

/-- The values of the characters beyond ASCII, ascending, each once. -/
def values (cs : List Char) : List Nat :=
  (((cs.map Char.toNat).filter (0x80 ≤ ·)).mergeSort (· ≤ ·)).eraseDups

/-- The text of a label in ASCII, without the mark in front of it. -/
def encode (cs : List Char) : List Char :=
  let basic := cs.filter (·.toNat < 0x80)
  let start := if basic = [] then [] else basic ++ ['-']
  (Writer.finish basic.length cs 0x80 (values cs) ⟨start, 0, basic.length, 72⟩).out

/-- The value of a digit. -/
def digitValue? (c : Char) : Option Nat :=
  if 'a' ≤ c ∧ c ≤ 'z' then some (c.toNat - 0x61)
  else if '0' ≤ c ∧ c ≤ '9' then some (c.toNat - 0x16)
  else none

/-- Reads a distance from a position on, where a digit counts `weight`, and what follows it. -/
def distance? (bias position weight : Nat) : List Char → Option (Nat × List Char)
  | [] => none
  | c :: rest =>
    match digitValue? c with
    | none => none
    | some d =>
      let t := threshold position bias
      if d < t then some (d * weight, rest)
      else
        (distance? bias (position + 36) (weight * (36 - t)) rest).map fun (n, rest) =>
          (d * weight + n, rest)

theorem length_lt_of_distance? {bias position weight : Nat} {cs : List Char} {n : Nat}
    {rest : List Char} (h : distance? bias position weight cs = some (n, rest)) :
    rest.length < cs.length := by
  induction cs generalizing position weight n with
  | nil => simp [distance?] at h
  | cons c cs ih =>
    unfold distance? at h
    split at h
    · simp at h
    · dsimp only at h
      split at h
      · obtain ⟨-, rfl⟩ := Prod.mk.inj (Option.some.inj h)
        simp
      · obtain ⟨⟨m, tail⟩, hm, heq⟩ := Option.map_eq_some_iff.1 h
        obtain ⟨-, rfl⟩ := Prod.mk.inj heq
        exact Nat.lt_succ_of_lt (ih hm)

/-- What has been read: the text, the value of the character put last and the place behind it,
and the bias. -/
structure Reading where
  text : List Char
  value : Nat
  place : Nat
  bias : Nat

/-- Puts the next character into its place, a distance further on. -/
def Reading.put? (r : Reading) (basics distance : Nat) : Option Reading :=
  let count := r.text.length + 1
  let value := r.value + (r.place + distance) / count
  let place := (r.place + distance) % count
  if value.isValidChar then
    some ⟨r.text.take place ++ Char.ofNat value :: r.text.drop place, value, place + 1,
      adapted distance count (r.text.length = basics)⟩
  else none

/-- Reads the digits of all distances. -/
def Reading.finish? (basics : Nat) (r : Reading) (cs : List Char) : Option (List Char) :=
  if cs = [] then some r.text
  else
    match h : distance? r.bias 36 1 cs with
    | none => none
    | some (n, rest) =>
      have := length_lt_of_distance? h
      (r.put? basics n).bind (finish? basics · rest)
  termination_by cs.length

/-- The text that a label stands for, of which `written` is what follows the mark in front. -/
def decode? (written : List Char) : Option (List Char) :=
  let digits := (written.reverse.takeWhile (· ≠ '-')).reverse
  let basic := written.take (written.length - digits.length - 1)
  Reading.finish? basic.length ⟨basic, 0x80, 0, 72⟩ digits

end StakeLedger.Address.Punycode
