import StakeLedger.Text.Numeral
import StakeLedger.Text.Quoted
import StakeLedger.Text.Shortest

/-
  Values of the output format and the line that writes them.
  An object keeps its fields in the order in which their names first arrived. A line has
  `", "` between members and `": "` after a name, and holds ASCII only: a character outside
  the printable ASCII range is written as one or two escapes of four hexadecimal digits.
-/

namespace StakeLedger

/-- A value of the output format. -/
inductive Json where
  | null
  | bool (b : Bool)
  | int (n : Int)
  | float (x : Float)
  | text (s : String)
  | list (items : List Json)
  | object (fields : List (String × Json))

namespace Json

/-- Puts a field: in its place if the name is there, at the end otherwise. -/
def put (name : String) (value : Json) : List (String × Json) → List (String × Json)
  | [] => [(name, value)]
  | field :: rest =>
    if field.1 = name then (name, value) :: rest else field :: put name value rest

/-- Puts several fields, one after another. -/
def putAll (fields news : List (String × Json)) : List (String × Json) :=
  news.foldl (fun acc field => put field.1 field.2 acc) fields

/-- An escape of four hexadecimal digits. -/
def unitEscape (n : Nat) : List Char :=
  '\\' :: 'u' :: Text.hex 4 n

/-- One character inside a string. -/
def escapeChar (c : Char) : List Char :=
  if c = '"' ∨ c = '\\' then ['\\', c]
  else if c = '\n' then ['\\', 'n']
  else if c = '\r' then ['\\', 'r']
  else if c = '\t' then ['\\', 't']
  else if c = '\x08' then ['\\', 'b']
  else if c = '\x0c' then ['\\', 'f']
  else if 0x20 ≤ c.toNat ∧ c.toNat ≤ 0x7E then [c]
  else if c.toNat < 0x10000 then unitEscape c.toNat
  else
    let n := c.toNat - 0x10000
    unitEscape (0xD800 + n / 0x400) ++ unitEscape (0xDC00 + n % 0x400)

/-- A string in double quotes. -/
def stringText (s : String) : String :=
  String.ofList ('"' :: s.toList.flatMap escapeChar ++ ['"'])

mutual

/-- The value on one line. -/
def line : Json → String
  | .null => "null"
  | .bool b => if b then "true" else "false"
  | .int n => toString n
  | .float x => Text.writeFloat x
  | .text s => stringText s
  | .list items => "[" ++ ", ".intercalate (lines items) ++ "]"
  | .object fields => "\x7b" ++ ", ".intercalate (fieldLines fields) ++ "\x7d"

/-- The lines of a list's items. -/
def lines : List Json → List String
  | [] => []
  | item :: rest => item.line :: lines rest

/-- The lines of an object's fields. -/
def fieldLines : List (String × Json) → List String
  | [] => []
  | (name, value) :: rest => (stringText name ++ ": " ++ value.line) :: fieldLines rest

end

mutual

/-- Has every integer of the value a numeral? -/
def isWritable : Json → Bool
  | .int n => Text.fitsNumeral n
  | .list items => areWritable items
  | .object fields => haveWritable fields
  | _ => true

/-- Has every integer of a list's items a numeral? -/
def areWritable : List Json → Bool
  | [] => true
  | item :: rest => item.isWritable && areWritable rest

/-- Has every integer of an object's fields a numeral? -/
def haveWritable : List (String × Json) → Bool
  | [] => true
  | (_, value) :: rest => value.isWritable && haveWritable rest

end

/-- Inserts a field before the first one with a greater name. -/
def insertField (field : String × Json) : List (String × Json) → List (String × Json)
  | [] => [field]
  | other :: rest =>
    if field.1 < other.1 then field :: other :: rest else other :: insertField field rest

mutual

/-- The value with the fields of every object in ascending order of their names. -/
def sorted : Json → Json
  | .list items => .list (sortedItems items)
  | .object fields => .object (sortedFields fields)
  | value => value

/-- The items of a list, each with its fields in order. -/
def sortedItems : List Json → List Json
  | [] => []
  | item :: rest => item.sorted :: sortedItems rest

/-- The fields of an object in order, and inside each value as well. -/
def sortedFields : List (String × Json) → List (String × Json)
  | [] => []
  | (name, value) :: rest => insertField (name, value.sorted) (sortedFields rest)

end

end Json

end StakeLedger
