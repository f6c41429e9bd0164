import StakeLedger.Text.Blank

/-
  Files of variables: one `NAME=value` a line.
  A line may begin with `export`, and a comment may follow. A value in quotes may run over
  several lines and hold escapes, and a backslash in it always takes the next character with
  it; one without quotes ends before a comment that has a blank in front of it. A line that
  breaks the rules is left out, and so is a byte order mark in front of the first line. A value
  may name variables as `${NAME}` or `${NAME:-default}`: the earlier lines of the file are
  asked first, then the environment.
-/

namespace StakeLedger.EnvFile

/-- A blank within a line. -/
def isInner (c : Char) : Bool := Text.isBlank c && c ≠ '\n' && c ≠ '\r'

/-- The text with one kind of line end. -/
def unifyLineEnds : List Char → List Char
  | '\r' :: '\n' :: rest => '\n' :: unifyLineEnds rest
  | '\r' :: rest => '\n' :: unifyLineEnds rest
  | c :: rest => c :: unifyLineEnds rest
  | [] => []

/-- The value up to the closing quote, and what follows the quote. A quote behind a backslash
does not close. -/
def quotedValue (quote : Char) : List Char → Option (List Char × List Char)
  | [] => none
  | c :: rest =>
    if c = quote then some ([], rest)
    else if c = '\\' then
      match rest with
      | [] => none
      | d :: rest => (quotedValue quote rest).map fun found => (c :: d :: found.1, found.2)
    else (quotedValue quote rest).map fun found => (c :: found.1, found.2)

/-- The character that an escape stands for. -/
def escapes : List (Char × Char) :=
  [('\\', '\\'), ('\x27', '\x27'), ('"', '"'), ('a', '\x07'), ('b', '\x08'), ('f', '\x0c'),
   ('n', '\n'), ('r', '\r'), ('t', '\t'), ('v', '\x0b')]

/-- The text with its escapes carried out, of which `allowed` are known. -/
def unescape (allowed : Char → Bool) : List Char → List Char
  | '\\' :: c :: rest =>
    match escapes.lookup c with
    | some d =>
      if allowed c then d :: unescape allowed rest else '\\' :: unescape allowed (c :: rest)
    | none => '\\' :: unescape allowed (c :: rest)
  | c :: rest => c :: unescape allowed rest
  | [] => []

/-- The text before the first comment that has a blank in front of it. -/
def cutComment : List Char → List Char
  | [] => []
  | c :: rest =>
    if Text.isBlank c && (rest.dropWhile Text.isBlank).head? = some '#' then []
    else c :: cutComment rest

/-- A name, and its value if the line gives one. -/
structure Binding where
  name : String
  value : Option String
  deriving DecidableEq, Repr

/-- What follows the line at whose inside a rule was broken. -/
def skipLine (cs : List Char) : List Char := (cs.dropWhile (· ≠ '\n')).drop 1

/-- What follows an `export` in front of a name. -/
def skipExport (cs : List Char) : List Char :=
  match cs with
  | 'e' :: 'x' :: 'p' :: 'o' :: 'r' :: 't' :: c :: rest =>
    if isInner c then rest.dropWhile isInner else cs
  | _ => cs

/-- What follows the end of a line, after an optional comment. -/
def endLine (cs : List Char) : Except (List Char) (List Char) :=
  let inner := cs.dropWhile isInner
  let inner := if inner.head? = some '#' then inner.dropWhile (· ≠ '\n') else inner
  match inner with
  | [] => .ok []
  | '\n' :: rest => .ok rest
  | _ => .error cs

/-- A name and what follows it; a comment has no name. Broken rules give the place. -/
def readName (cs : List Char) : Except (List Char) (Option String × List Char) :=
  match cs with
  | '#' :: _ => .ok (none, cs)
  | '\x27' :: rest =>
    let name := rest.takeWhile (· ≠ '\x27')
    match name, rest.dropWhile (· ≠ '\x27') with
    | [], _ => .error cs
    | _, [] => .error cs
    | _, _ :: after => .ok (some (String.ofList name), after)
  | _ =>
    let inName := fun c => c ≠ '=' && c ≠ '#' && !Text.isBlank c
    match cs.takeWhile inName with
    | [] => .error cs
    | name => .ok (some (String.ofList name), cs.dropWhile inName)

/-- A value without quotes, and the line end that follows it; `spaced` says whether a blank
stands in front. -/
def plainValue (spaced : Bool) (cs : List Char) : String × List Char :=
  let line := cs.takeWhile (· ≠ '\n')
  let value := if spaced && line.head? = some '#' then [] else cutComment line
  (String.ofList (Text.trimEndBy Text.isBlank value), cs.dropWhile (· ≠ '\n'))

/-- The value behind an equals sign, and what follows it. -/
def readValue (behind : List Char) : Except (List Char) (String × List Char) :=
  let cs := behind.dropWhile isInner
  match cs with
  | '\x27' :: rest =>
    match quotedValue '\x27' rest with
    | some (value, after) =>
      .ok (String.ofList (unescape (fun c => c = '\\' || c = '\x27') value), after)
    | none => .error cs
  | '"' :: rest =>
    match quotedValue '"' rest with
    | some (value, after) => .ok (String.ofList (unescape (fun _ => true) value), after)
    | none => .error cs
  | _ => .ok (plainValue (cs.length < behind.length) cs)

/-- The first line of a text that begins with a line, and what follows it. -/
def readLine (cs : List Char) : Except (List Char) (Option Binding × List Char) := do
  let (name, rest) ← readName (skipExport cs)
  let (value, rest) ←
    match rest.dropWhile isInner with
    | '=' :: rest => do
      let (value, rest) ← readValue rest
      pure (some value, rest)
    | rest => pure (none, rest)
  let rest ← endLine rest
  pure (name.map (⟨·, value⟩), rest)

/-- The bindings of a text; the first argument bounds the number of lines. -/
def readLines : Nat → List Char → List Binding
  | 0, _ => []
  | fuel + 1, cs =>
    match cs.dropWhile Text.isBlank with
    | [] => []
    | cs =>
      match readLine cs with
      | .ok (binding, rest) => binding.toList ++ readLines fuel rest
      | .error rest => readLines fuel (skipLine rest)

/-- The text without a byte order mark at its start. -/
def dropMark : List Char → List Char
  | '\ufeff' :: rest => rest
  | cs => cs

/-- The bindings of a file, in their order. -/
def bindings (text : String) : List Binding :=
  let cs := unifyLineEnds (dropMark text.toList)
  readLines (cs.length + 1) cs

/-- The name and the default of a reference whose opening brace has been read, and what
follows its closing brace. -/
def readReference (cs : List Char) : Option (String × String × List Char) :=
  let inName := fun c => c ≠ '\x7d' && c ≠ ':'
  let name := String.ofList (cs.takeWhile inName)
  match cs.dropWhile inName with
  | '\x7d' :: rest => some (name, "", rest)
  | ':' :: '-' :: rest =>
    match rest.dropWhile (· ≠ '\x7d') with
    | _ :: after => some (name, String.ofList (rest.takeWhile (· ≠ '\x7d')), after)
    | [] => none
  | _ => none

/-- The names that a value refers to. -/
def references : List Char → List String
  | '$' :: '\x7b' :: body =>
    match readReference body with
    | some (name, _, _) => name :: references body
    | none => references body
  | _ :: rest => references rest
  | [] => []

/-- The names that the values of a file refer to. -/
def referred (text : String) : List String :=
  (bindings text).flatMap fun binding => references (binding.value.getD "").toList

/-- A value with its references replaced; the first argument bounds its length. -/
def resolve (lookup : String → Option String) : Nat → List Char → List Char
  | 0, cs => cs
  | _, [] => []
  | fuel + 1, c :: rest =>
    match c, rest with
    | '$', '\x7b' :: body =>
      match readReference body with
      | some (name, default, after) =>
        ((lookup name).getD default).toList ++ resolve lookup fuel after
      | none => c :: resolve lookup fuel rest
    | _, _ => c :: resolve lookup fuel rest

/-- The variables of a file in the order of their first lines, each with the value of its last
line; a name without a value counts as empty where it is referred to. -/
def read (env : String → Option String) (text : String) :
    List (String × Option String) :=
  (bindings text).foldl (fun known binding =>
    let lookup := fun name => ((known.lookup name).map (·.getD "")).or (env name)
    let value := binding.value.map fun value =>
      String.ofList (resolve lookup value.length value.toList)
    if known.any (·.1 = binding.name) then
      known.map fun entry => if entry.1 = binding.name then (entry.1, value) else entry
    else known ++ [(binding.name, value)]) []

end StakeLedger.EnvFile
