import StakeLedger.Address.Host

/-
  Addresses of services, and of what lies below them.
  An address has a scheme, an authority with user, host and port, a path, a query and a
  fragment, of which all may be missing. Reading it escapes what may not stand in it, leaves out
  a port that is usual for the scheme, and takes steps to the same and to the upper directory
  out of its path, unless it has neither scheme nor authority. Addresses below a base are made
  by appending to its path and query, and the result is read anew.
-/

namespace StakeLedger

/-- An address. The host has no brackets. -/
structure Address where
  scheme : String := ""
  user : String := ""
  host : String := ""
  port : Option Int := none
  path : String := ""
  query : Option String := none
  fragment : Option String := none
  deriving DecidableEq, Repr

namespace Address

/-- The most characters of an address, or of one of its parts. -/
def lengthLimit : Nat := 65536

/-- The parts of an address as they are written. -/
structure Written where
  scheme : List Char := []
  authority : List Char := []
  path : List Char := []
  query : Option (List Char) := none
  fragment : Option (List Char) := none

/-- May the character follow the first letter of a scheme? -/
def isSchemeChar (c : Char) : Bool := c.isAlphanum || "+.-".toList.contains c

/-- A scheme, and what follows its colon. -/
def splitScheme (cs : List Char) : List Char × List Char :=
  let run := match cs with
    | c :: _ => if c.isAlpha then cs.takeWhile isSchemeChar else []
    | [] => []
  match cs.drop run.length with
  | ':' :: rest => (run, rest)
  | _ => ([], cs)

/-- An authority, and what follows it. -/
def splitAuthority (cs : List Char) : List Char × List Char :=
  let inside := fun c => c ≠ '/' && c ≠ '?' && c ≠ '#'
  match cs with
  | '/' :: '/' :: rest => (rest.takeWhile inside, rest.dropWhile inside)
  | _ => ([], cs)

/-- What stands before the first character `mark`, and what stands behind it. -/
def splitMark (mark : Char) (cs : List Char) : List Char × Option (List Char) :=
  (cs.takeWhile (· ≠ mark), match cs.dropWhile (· ≠ mark) with
    | [] => none
    | _ :: rest => some rest)

/-- Takes an address apart. -/
def split (cs : List Char) : Written :=
  let (cs, fragment) := splitMark '#' cs
  let (cs, query) := splitMark '?' cs
  let (scheme, cs) := splitScheme cs
  let (authority, path) := splitAuthority cs
  ⟨scheme, authority, path, query, fragment⟩

/-- User, host and port of an authority; what follows the host may lack its colon. -/
def splitUser (cs : List Char) : List Char × List Char × List Char :=
  let place := (cs.reverse.takeWhile (· ≠ '@')).reverse
  let user := if place.length = cs.length then [] else cs.take (cs.length - place.length - 1)
  let bracketed := (place.reverse.dropWhile (· ≠ ']')).reverse
  let host := if place.head? = some '[' && bracketed ≠ [] then bracketed
    else place.takeWhile (· ≠ ':')
  let rest := place.drop host.length
  (user, host, if rest.head? = some ':' then rest.drop 1 else rest)

/-- The ports that are usual for some schemes. -/
def usualPorts : List (String × Int) :=
  [("ftp", 21), ("http", 80), ("https", 443), ("ws", 80), ("wss", 443)]

/-- Reads a port; one that is usual for the scheme is left out. -/
def readPort (scheme : String) (cs : List Char) : Except Problem (Option Int) :=
  if cs = [] then .ok none
  else
    match Text.readInt (String.ofList cs) with
    | .ok n => .ok (if usualPorts.lookup scheme = some n then none else some n)
    | .error _ => .error (.badPort (String.ofList cs))

/-- Is the character one of visible ASCII, and none of those left out? -/
def isKept (leftOut : List Char) (c : Char) : Bool :=
  0x20 < c.toNat && c.toNat < 0x7F && !leftOut.contains c

/-- Characters that are kept in a query. -/
def isQueryChar : Char → Bool := isKept ['"', '#', '<', '>']

/-- Characters that are kept in a fragment. -/
def isFragmentChar : Char → Bool := isKept ['"', '<', '>', '\x60']

/-- Characters that are kept in a path. -/
def isPathChar : Char → Bool := isKept ['"', '#', '<', '>', '?', '\x60', '\x7b', '\x7d']

/-- Characters that are kept in the name of a user. -/
def isUserChar : Char → Bool :=
  isKept ['"', '#', '<', '>', '?', '\x60', '\x7b', '\x7d', '/', ';', '=', '@', '[', '\\', ']',
    '^', '|']

/-- The directories of a path without steps to the same and to the upper one. -/
def dropSteps (done : List (List Char)) : List (List Char) → List (List Char)
  | [] => done
  | name :: rest =>
    if name = ['.'] then dropSteps done rest
    else if name = ['.', '.'] then dropSteps (if done = [[]] then done else done.dropLast) rest
    else dropSteps (done ++ [name]) rest

/-- A path without steps to the same and to the upper directory. -/
def plainPath (cs : List Char) : List Char :=
  ['/'].intercalate (dropSteps [] (Text.piecesBy (· = '/') cs))

/-- Checks how a path begins. -/
def checkPath (hasScheme hasAuthority : Bool) (path : List Char) : Except Problem Unit :=
  if hasAuthority && path ≠ [] && path.head? ≠ some '/' then .error .pathWithoutSlash
  else if hasScheme || hasAuthority then .ok ()
  else if path.take 2 = ['/', '/'] then .error .pathWithTwoSlashes
  else if path.head? = some ':' then .error .pathWithColon
  else .ok ()

/-- The address of written parts; the host is checked before the port, and that before the
path. -/
def ofWritten (w : Written) : Except Problem Address := do
  let (user, host, port) := splitUser w.authority
  let user := Text.percentEncode isUserChar user
  let host ← readHost host
  let port ← readPort (String.ofList w.scheme) port
  let hasScheme := w.scheme ≠ []
  let hasAuthority := user ≠ [] || host ≠ [] || port.isSome
  checkPath hasScheme hasAuthority w.path
  let path := if hasScheme || hasAuthority then plainPath w.path else w.path
  let escaped := fun keep cs => String.ofList (Text.percentEncode keep cs)
  pure
    { scheme := String.ofList (w.scheme.map Char.toLower)
      user := String.ofList user
      host := String.ofList host
      port := port
      path := escaped isPathChar path
      query := w.query.map (escaped isQueryChar)
      fragment := w.fragment.map (escaped isFragmentChar) }

/-- Is the character a control character of ASCII? -/
def isControl (c : Char) : Bool := c.toNat < 0x20 || c = '\x7f'

/-- Reads an address. -/
def read (s : String) : Except Problem Address :=
  let cs := s.toList
  if lengthLimit < cs.length then .error .tooLong
  else
    match cs.find? isControl with
    | some c => .error (.unprintable c (cs.takeWhile (!isControl ·)).length)
    | none => ofWritten (split cs)

/-- Host and port of an address. -/
def place (a : Address) : String :=
  (if ':' ∈ a.host.toList then "[" ++ a.host ++ "]" else a.host)
    ++ (match a.port with
      | some port => ":" ++ Text.writeInt port
      | none => "")

/-- The authority of an address. -/
def authority (a : Address) : String :=
  (if a.user = "" then "" else a.user ++ "@") ++ a.place

/-- A part of an address behind its mark, if there is one. -/
def marked (mark : String) : Option String → String
  | some part => mark ++ part
  | none => ""

/-- The text of an address. -/
def text (a : Address) : String :=
  (if a.scheme = "" then "" else a.scheme ++ ":")
    ++ (if a.authority = "" then "" else "//" ++ a.authority)
    ++ a.path ++ marked "?" a.query ++ marked "#" a.fragment

/-- Path and query of an address; a missing path counts as the upmost directory. -/
def target (a : Address) : String :=
  (if a.path = "" then "/" else a.path) ++ marked "?" a.query

/-- The path of an address as it is shown, without escapes. -/
def shownPath (a : Address) : String :=
  Text.percentDecode (if a.path = "" then ['/'] else a.path.toList)

/-- Checks the length of a part. -/
def checkPart (part : Part) (cs : List Char) : Except Problem Unit :=
  if lengthLimit < cs.length then .error (.partTooLong part) else .ok ()

/-- The address with other path and query. -/
def withTarget (a : Address) (target : String) : Except Problem Address := do
  let (path, query) := splitMark '?' target.toList
  let scheme := a.scheme.toList
  let authority := a.authority.toList
  checkPart .scheme scheme
  checkPart .authority authority
  checkPart .path path
  checkPart .query (query.getD [])
  checkPart .fragment ((a.fragment.map String.toList).getD [])
  ofWritten ⟨scheme, authority, path, query, a.fragment.map String.toList⟩

/-- Reads an address that others lie below: path and query together end in a slash. -/
def readBase (s : String) : Except Problem Address := do
  let a ← read s
  if a.target.toList.getLast? = some '/' then pure a else a.withTarget (a.target ++ "/")

/-- The address below a base that a path with a query leads to. -/
def below (base : Address) (s : String) : Except Problem Address := do
  let a ← read s
  base.withTarget (base.target ++ String.ofList (a.target.toList.dropWhile (· = '/')))

/-- Checks that host and port are ASCII, as a request has to name them. -/
def checkPlace (a : Address) : Except Problem Unit :=
  let isPlain := fun c => decide (Char.toNat c < 0x80)
  let cs := a.place.toList
  match cs.dropWhile isPlain with
  | [] => .ok ()
  | c :: rest =>
    let length := 1 + (rest.takeWhile (!isPlain ·)).length
    .error (.beyondAscii c (cs.takeWhile isPlain).length length)

/-- The text of an address as cookies are looked up by it: without a mark of addresses in
front, and without an empty fragment. -/
def cookieText (a : Address) : String :=
  let cs := a.text.toList
  let cs := if "URL:".toList.isPrefixOf cs then cs.drop 4 else cs
  String.ofList (if cs.getLast? = some '#' then cs.dropLast else cs)

/-- Has the authority of a text only one of the two square brackets? A path that begins with
two slashes reads as an authority, if nothing but a scheme stands in front. -/
def hasLoneBracket (s : String) : Bool :=
  let authority := (split s.toList).authority
  authority.contains '[' != authority.contains ']'

/-- Begins a text with a scheme, in which only slashes and colons may not stand? -/
def beginsWithScheme (s : String) : Bool :=
  let run := s.toList.takeWhile fun c => c ≠ '/' && c ≠ ':'
  run ≠ [] && (s.toList.drop run.length).head? = some ':'

end Address

end StakeLedger
