import StakeLedger.Calendar
import StakeLedger.Fault
import StakeLedger.Text.Upper

/-
  Dates as mail headers write them: `Tue, 14 Nov 2023 22:13:20 GMT`.
  The reader is lenient. The weekday may be missing and is not checked; day and month may
  stand in either order, and so may year and time, and year and zone; the date may be written
  with hyphens; the seconds may be missing; the parts of the time may be divided by points.
  A year below 100 lies between 1969 and 2068. A zone is one of a few names or a signed number
  of hours and minutes, and anything else means UTC.
  A text that is no such date has no value; a number beyond the machine's integers in one of
  the fields is a fault.
-/

namespace StakeLedger.MailDate

/-- The names of the months, short and long. -/
def monthNames : List String :=
  ["jan", "feb", "mar", "apr", "may", "jun", "jul", "aug", "sep", "oct", "nov", "dec",
   "january", "february", "march", "april", "may", "june", "july", "august", "september",
   "october", "november", "december"]

/-- The names of the weekdays. -/
def dayNames : List String := ["mon", "tue", "wed", "thu", "fri", "sat", "sun"]

/-- The named zones, as signed hours and minutes. -/
def zoneNames : List (String × Int) :=
  [("UT", 0), ("UTC", 0), ("GMT", 0), ("Z", 0), ("AST", -400), ("ADT", -300), ("EST", -500),
   ("EDT", -400), ("CST", -600), ("CDT", -500), ("MST", -700), ("MDT", -600), ("PST", -800),
   ("PDT", -700)]

/-- The five words of a date, in the order in which they stand. -/
structure Words where
  first : List Char
  second : List Char
  third : List Char
  fourth : List Char
  fifth : List Char

/-- The numbers of a date; the zone is in seconds, if there is one. -/
structure Numbers where
  year : Int
  month : Nat
  day : Int
  hour : Int
  minute : Int
  second : Int
  zone : Option Int

/-- The word in lower case. -/
def lower (word : List Char) : String := String.ofList (word.map Char.toLower)

/-- The word without a comma at its end. -/
def dropComma (word : List Char) : List Char :=
  if word.getLast? = some ',' then word.dropLast else word

/-- The words without the weekday, which is a word of its own or joined to the next by a
comma. -/
def dropWeekday : List (List Char) → List (List Char)
  | [] => []
  | word :: rest =>
    if word.getLast? = some ',' ∨ lower word ∈ dayNames then rest
    else (word.reverse.takeWhile (· ≠ ',')).reverse :: rest

/-- The words with a hyphenated date taken apart. -/
def splitHyphens : List (List Char) → List (List Char)
  | [date, second, third] =>
    match Text.piecesBy (· = '-') date with
    | [a, b, c] => [a, b, c, second, third]
    | _ => [date, second, third]
  | ws => ws

/-- The words with a zone joined to the time taken apart; a missing zone is empty. -/
def splitZone : List (List Char) → List (List Char)
  | [a, b, c, time] =>
    let mark := if '+' ∈ time then '+' else '-'
    let front := time.takeWhile (· ≠ mark)
    if front = [] ∨ front.length = time.length then [a, b, c, time, []]
    else [a, b, c, front, time.drop front.length]
  | ws => ws

/-- The five words of a date. -/
def wordsOf? (s : String) : Option Words :=
  match splitZone (splitHyphens (dropWeekday (Text.words s.toList))) with
  | a :: b :: c :: d :: e :: _ =>
    if a = [] ∨ b = [] ∨ c = [] then none else some ⟨a, b, c, d, e⟩
  | _ => none

/-- The integer that a word writes. -/
def number? (word : List Char) : Option Int :=
  (Text.readInt (String.ofList word)).toOption

/-- The month that a word names. -/
def month? (word : List Char) : Option Nat :=
  (monthNames.idxOf? (lower word)).map (· % 12 + 1)

/-- Month and day, in either order. -/
def monthAndDay? (first second : List Char) : Option (Nat × List Char) :=
  match month? second with
  | some month => some (month, first)
  | none => (month? first).map fun month => (month, second.map Char.toLower)

/-- Hour, minute and second, divided by colons or points. -/
def time? (word : List Char) : Option (List Char × List Char × List Char) :=
  match Text.piecesBy (· = ':') word with
  | [hour, minute] => some (hour, minute, ['0'])
  | [hour, minute, second] => some (hour, minute, second)
  | [whole] =>
    match Text.piecesBy (· = '.') whole with
    | [hour, minute] => some (hour, minute, ['0'])
    | [hour, minute, second] => some (hour, minute, second)
    | _ => none
  | _ => none

/-- A year written with less than three digits lies between 1969 and 2068. -/
def fullYear (year : Int) : Int :=
  if 100 ≤ year then year else if 68 < year then year + 1900 else year + 2000

/-- The offset of a zone in seconds. -/
def zone? (word : List Char) : Option Int :=
  let name := Text.toUpper (String.ofList word)
  ((zoneNames.lookup name).or (number? name.toList)).map fun n =>
    let size : Int := n.natAbs
    n.sign * (size / 100 * 3600 + size % 100 * 60)

/-- The numbers of a date. -/
def numbersOf? (w : Words) : Option Numbers := do
  let (month, day) ← monthAndDay? w.first w.second
  let (year, time) :=
    if ':' ∈ w.third ∧ w.third.head? ≠ some ':' then (w.fourth, w.third) else (w.third, w.fourth)
  let year := dropComma year
  let start ← year.head?
  let (year, zone) := if Text.showsDigit start then (year, w.fifth) else (w.fifth, year)
  let (hour, minute, second) ← time? (dropComma time)
  let year ← number? year
  pure ⟨fullYear year, month, ← number? (dropComma day), ← number? hour, ← number? minute,
    ← number? second, zone? zone⟩

/-- A zone must be shorter than a day, and its span of time must exist. -/
def checkZone (zone : Int) : Except Fault Bool :=
  let days := zone / 86400
  if days < -2147483648 ∨ 2147483647 < days then .error .zoneTooLarge
  else if days < -999999999 ∨ 999999999 < days then .error (.zoneTooLong days)
  else .ok (-86400 < zone ∧ zone < 86400)

/-- A field of a date must be a machine integer. -/
def checkField (n : Int) : Except Fault Unit :=
  if n < -9223372036854775808 ∨ 9223372036854775807 < n then
    .error (.dateFieldTooLarge true (n < 0))
  else if n < -2147483648 ∨ 2147483647 < n then .error (.dateFieldTooLarge false (n < 0))
  else .ok ()

/-- The instant of a date in its own zone, if the calendar has it. -/
def instant? (n : Numbers) : Option Instant :=
  let date : Date := ⟨n.year, n.month, n.day.toNat⟩
  if 1 ≤ n.year ∧ n.year ≤ 9999 ∧ 1 ≤ n.day ∧ date.isValid ∧ 0 ≤ n.hour ∧ n.hour < 24 ∧
      0 ≤ n.minute ∧ n.minute < 60 ∧ 0 ≤ n.second ∧ n.second < 60 then
    some ⟨date, n.hour.toNat, n.minute.toNat, n.second.toNat⟩
  else none

/-- The unix time of the numbers of a date. -/
def unixOf? (n : Numbers) : Except Fault (Option Int) := do
  let zone := n.zone.getD 0
  if ← checkZone zone then
    [n.year, n.day, n.hour, n.minute, n.second].forM checkField
    pure ((instant? n).map fun t => t.toUnix - zone)
  else pure none

/-- The unix time of a date. -/
def read? (s : String) : Except Fault (Option Int) :=
  match (wordsOf? s).bind numbersOf? with
  | some n => unixOf? n
  | none => .ok none

end StakeLedger.MailDate
