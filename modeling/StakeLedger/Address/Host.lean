import StakeLedger.Address.Domain
import StakeLedger.Address.Problem
import StakeLedger.Text.Numeral
import StakeLedger.Text.Percent

/-
  Hosts of addresses.
  A host is an address of version 4 or of version 6, the latter in brackets, or a name. What
  consists of four runs of digits with a character between them has to be an address of
  version 4. A name is written in lower case, with escapes for characters that may not stand in
  it; one with characters beyond ASCII is a domain name.
-/

namespace StakeLedger.Address

/-- Is the text the number of a byte, without leading zeros? -/
def isByteNumber (cs : List Char) : Bool :=
  cs ≠ [] && cs.length ≤ 3 && cs.all Char.isDigit && (cs = ['0'] || cs.head? ≠ some '0')
    && Text.valueOfDigits (cs.map fun c => c.toNat - 0x30) ≤ 255

/-- Is the text an address of version 4? -/
def isVersion4 (cs : List Char) : Bool :=
  let parts := Text.piecesBy (· = '.') cs
  parts.length = 4 && parts.all isByteNumber

/-- Has the text four runs of digits with any one character between each two? A digit may
stand between them too, so that a run of `n` digits counts as up to `(n + 1) / 2` runs. -/
def looksNumeric (cs : List Char) : Bool :=
  let runs := Text.piecesBy (!·.isDigit) cs
  runs.length ≤ 4 && runs.all (· ≠ [])
    && 4 ≤ runs.foldl (fun n run => n + (run.length + 1) / 2) 0

/-- Is the text a group of an address of version 6: one to four hexadecimal digits? -/
def isGroup (cs : List Char) : Bool :=
  cs ≠ [] && cs.length ≤ 4 && cs.all fun c => (Text.hexValue? c).isSome

/-- The parts of an address of version 6 with a last part of version 4 taken as two groups. -/
def spreadVersion4 (parts : List (List Char)) : Option (List (List Char)) :=
  match parts.getLast? with
  | none => none
  | some last =>
    if '.' ∈ last then
      if isVersion4 last then some (parts.dropLast ++ [['0'], ['0']]) else none
    else some parts

/-- The groups on one side of a gap, of which the outer one is empty only where the gap ends the
address. -/
def gapSide? (parts : List (List Char)) : Option (List (List Char)) :=
  if parts = [[]] then some [] else if parts.all isGroup then some parts else none

/-- Are the parts those of an address of version 6: eight groups, or fewer with one gap? -/
def areGroups (parts : List (List Char)) : Bool :=
  let inner := (parts.drop 1).dropLast
  match inner.idxOf? [] with
  | none => parts.length = 8 && parts.all isGroup
  | some n =>
    match gapSide? (parts.take (n + 1)), gapSide? (parts.drop (n + 2)) with
    | some front, some back => front.length + back.length < 8
    | _, _ => false

/-- Is the text an address of version 6? A zone may follow it behind a percent sign. -/
def isVersion6 (cs : List Char) : Bool :=
  let parts := Text.piecesBy (· = ':') (cs.takeWhile (· ≠ '%'))
  let zoneFits := match cs.dropWhile (· ≠ '%') with
    | [] => true
    | _ :: zone => zone ≠ [] && '%' ∉ zone
  zoneFits && '/' ∉ cs && 3 ≤ parts.length
    && match spreadVersion4 parts with
      | some parts => areGroups parts
      | none => false

/-- Characters that are kept in every part of an address. -/
def isUnreserved (c : Char) : Bool := c.isAlphanum || "-._~".toList.contains c

/-- Characters that are kept in a name. -/
def isHostChar (c : Char) : Bool :=
  isUnreserved c || "!$&'()*+,;=\"\x60\x7b\x7d%|\\".toList.contains c

/-- The text between the brackets around it. -/
def unbracket? (cs : List Char) : Option (List Char) :=
  match cs with
  | '[' :: rest => if rest.getLast? = some ']' then some rest.dropLast else none
  | _ => none

/-- Reads a host; brackets are left out. -/
def readHost (cs : List Char) : Except Problem (List Char) :=
  if cs = [] then .ok []
  else if looksNumeric cs then
    if isVersion4 cs then .ok cs else .error (.badVersion4 (String.ofList cs))
  else
    match unbracket? cs with
    | some inner =>
      if isVersion6 inner then .ok inner else .error (.badVersion6 (String.ofList cs))
    | none =>
      if cs.all (·.toNat < 0x80) then
        .ok (Text.percentEncode isHostChar (cs.map Char.toLower))
      else
        match Domain.ascii? cs with
        | some name => .ok name
        | none => .error (.badDomain (String.ofList cs))

end StakeLedger.Address
