import StakeLedger.Fault
import StakeLedger.Text.Blank

/-
  Places of stores: where the path of a store leads.
  Stores are files of one directory, which holds no other directory, and of those that hold it.
  A path is cleared of empty names and of steps to the same and to the upper directory before
  it is followed; only such steps out of the directory are left, at its front. A path that
  leads to a directory, into one that does not exist, or begins at the root cannot be opened,
  and no more can a file whose name leaves no room for those of the files beside it. Two paths
  lead to a store that lasts no longer than a unit of work.
-/

namespace StakeLedger

/-- Where the path of a store leads. -/
inductive StorePlace where
  /-- To a store that lasts no longer than a unit of work. -/
  | passing
  /-- To the file of a name, with steps out of the directory in front. -/
  | file (name : String)
  | nowhere (fault : Fault)
  deriving DecidableEq, Repr

namespace StorePlace

/-- The most bytes of a name. -/
def nameLimit : Nat := 255

/-- The most bytes that the name of a file beside a store's adds to it. -/
def besideLength : Nat := 8

/-- The step to the upper directory. -/
def upward : String := ".."

/-- The names of a path behind those done, without empty ones and without steps to the same and
to the upper directory; steps out of the directory stay at the front. -/
def names? (done : List String) : List String → Option (List String)
  | [] => some done
  | name :: rest =>
    if name = "" ∨ name = "." then names? done rest
    else if nameLimit < name.utf8ByteSize then none
    else if name = upward ∧ done.getLast?.any (· ≠ upward) then names? done.dropLast rest
    else names? (done ++ [name]) rest

/-- The name of the file that a path leads to, behind the steps out of the directory. -/
def fileName? (path : String) : Option String :=
  let pieces := (Text.piecesBy (· = '/') path.toList).map String.ofList
  if path.toList.head? = some '/' then none
  else
    match (names? [] pieces).map fun names => (names, names.dropWhile (· = upward)) with
    | some (names, [name]) =>
      if nameLimit < name.utf8ByteSize + besideLength then none
      else some ("/".intercalate names)
    | _ => none

/-- Where a path leads. -/
def ofPath (path : String) : StorePlace :=
  if path = "" ∨ path = ":memory:" then .passing
  else if '\x00' ∈ path.toList then .nowhere .pathWithZero
  else
    match fileName? path with
    | some name => .file name
    | none => .nowhere .storeUnopened

/-- The name of the file, if the place is one. -/
def name? : StorePlace → Option String
  | .file name => some name
  | _ => none

/-- Can a store be opened there? -/
def check : StorePlace → Except Fault Unit
  | .nowhere fault => .error fault
  | _ => .ok ()

end StorePlace

end StakeLedger
