import StakeLedger.Text.Numeral
import StakeLedger.Text.Quoted

/-
  The arguments of a command line.
  A grammar names the arguments that a program takes: options, whose names begin with two
  dashes, and at most one argument that is told by its place. An option's name may be cut short
  as long as it stays the only one with that beginning, and its value may be joined to it by an
  equals sign. What looks like a negative number, or has a blank in it, is never an option, and
  nothing is one behind two dashes. Two dashes joined to an option are no value: they leave it
  hollow. Of an option given twice the last value counts. Arguments that the grammar does not
  know are collected, for the caller to judge.
-/

namespace StakeLedger.CommandLine

/-- What an argument may be. -/
inductive ArgumentKind where
  | text
  | integer
  | choice (allowed : List String)
  /-- One of some words, with everything that follows it. -/
  | command (allowed : List String)
  deriving DecidableEq, Repr

/-- The value of an argument. -/
inductive ArgumentValue where
  | text (s : String)
  | int (n : Int)
  | hollow
  deriving DecidableEq, Repr

/-- An argument of a grammar. -/
structure Argument where
  name : String
  kind : ArgumentKind := .text
  required : Bool := true
  deriving DecidableEq, Repr

/-- Is the argument an option, by its name? -/
def Argument.isOption (a : Argument) : Bool := a.name.toList.head? = some '-'

/-- The arguments that a program takes, in the order in which they are reported missing. -/
structure Grammar where
  program : String
  arguments : List Argument
  deriving DecidableEq, Repr

/-- Why a command line is not carried out. -/
inductive Refusal where
  /-- The line breaks the program's grammar. -/
  | usage (program message : String)
  /-- The line asks for help. -/
  | help
  deriving DecidableEq, Repr

/-- The line that reports a refusal. -/
def Refusal.line : Refusal → String
  | .usage program message => program ++ ": error: " ++ message
  | .help => ""

/-- What an argument of a line is taken for. -/
inductive Token where
  | word
  /-- Two dashes. -/
  | separator
  /-- An option, with the value that is joined to it. -/
  | option (a : Argument) (joined : Option String)
  /-- The option that asks for help, with a value that it does not take. -/
  | help (joined : Option String)
  | unknown
  deriving DecidableEq, Repr

/-- The option that asks for help, as messages name it. -/
def helpName : String := "-h/--help"

/-- A text before its first equals sign and, if there is one, what follows the sign. -/
def splitJoined (cs : List Char) : List Char × Option String :=
  match cs.dropWhile (· ≠ '=') with
  | [] => (cs, none)
  | _ :: rest => (cs.takeWhile (· ≠ '='), some (String.ofList rest))

/-- Does a text look like a negative number? A line feed may end it. -/
def isNegativeNumber (cs : List Char) : Bool :=
  match cs with
  | '-' :: body =>
    let body := if body.getLast? = some '\n' then body.dropLast else body
    let fraction := body.dropWhile Text.isDecimalDigit
    match fraction with
    | [] => body ≠ []
    | '.' :: digits => digits ≠ [] && digits.all Text.isDecimalDigit
    | _ => false
  | _ => false

/-- What follows the letter of the help option in one word with it: the same letter may follow
it, and nothing else. -/
def helpTail : List Char → Token
  | [] => .help none
  | c :: rest => if c = 'h' then helpTail rest else .help (some (String.ofList (c :: rest)))

/-- The help option with what is joined to it; behind its letter, the same letter may follow. -/
def helpOption (letter : Bool) (joined : Option String) : Token :=
  match joined with
  | none => .help none
  | some s => if letter && s ≠ "" then helpTail s.toList else .help joined

namespace Grammar

/-- The options of a grammar. -/
def options (g : Grammar) : List Argument := g.arguments.filter Argument.isOption

/-- The argument told by its place. -/
def placed? (g : Grammar) : Option Argument := g.arguments.find? (!·.isOption)

/-- The option of an exact name, with the value joined to it. -/
def exactOption? (g : Grammar) (name : String) (joined : Option String) : Option Token :=
  if name = "-h" ∨ name = "--help" then some (helpOption (name = "-h") joined)
  else (g.options.find? (·.name = name)).map (.option · joined)

/-- The names of the options that begin with a text. -/
def optionsFrom (g : Grammar) (start : List Char) : List String :=
  ("--help" :: g.options.map (·.name)).filter fun name => start.isPrefixOf name.toList

/-- What is said of an option's name that is cut too short. -/
def ambiguous (g : Grammar) (s : String) (names : List String) : Refusal :=
  .usage g.program ("ambiguous option: " ++ s ++ " could match " ++ ", ".intercalate names)

/-- What an argument is that begins with a dash and is no option by its exact name. -/
def tokenOfDashed (g : Grammar) (s : String) (cs : List Char) : Except Refusal Token :=
  let (name, joined) := splitJoined cs
  let otherwise := if isNegativeNumber cs || cs.contains ' ' then Token.word else .unknown
  match cs with
  | '-' :: '-' :: _ =>
    match g.optionsFrom name with
    | [] => .ok otherwise
    | [full] => .ok ((g.exactOption? full joined).getD .unknown)
    | names => .error (g.ambiguous s names)
  | '-' :: 'h' :: rest => .ok (helpTail rest)
  | _ => .ok otherwise

/-- What an argument is taken for. -/
def token (g : Grammar) (s : String) : Except Refusal Token :=
  match s.toList with
  | '-' :: rest =>
    let (name, joined) := splitJoined ('-' :: rest)
    match g.exactOption? s none with
    | some token => .ok token
    | none =>
      if rest = [] then .ok .word
      else
        match joined.bind fun _ => g.exactOption? (String.ofList name) joined with
        | some token => .ok token
        | none => g.tokenOfDashed s ('-' :: rest)
  | _ => .ok .word

/-- What the arguments of a line are taken for, each with its text. -/
def tokens (g : Grammar) : List String → Except Refusal (List (String × Token))
  | [] => .ok []
  | s :: rest =>
    if s = "--" then .ok ((s, .separator) :: rest.map (·, .word))
    else do
      let token ← g.token s
      let more ← g.tokens rest
      pure ((s, token) :: more)

end Grammar

/-- The arguments found so far: values with the latest in front, texts that the grammar does
not know, and what follows a command. -/
structure Found where
  values : List (String × ArgumentValue) := []
  extras : List String := []
  rest : List String := []
  deriving DecidableEq, Repr

namespace Found

/-- Is there a value for an argument? -/
def has (f : Found) (name : String) : Bool := f.values.any (·.1 = name)

/-- The text given for an argument. -/
def text? (f : Found) (name : String) : Option String :=
  match f.values.lookup name with
  | some (.text s) => some s
  | _ => none

/-- The integer given for an argument. -/
def int? (f : Found) (name : String) : Option Int :=
  match f.values.lookup name with
  | some (.int n) => some n
  | _ => none

/-- The text given for an argument, or a default. -/
def text (f : Found) (name : String) (default : String := "") : String :=
  (f.text? name).getD default

/-- The integer given for an argument, or a default. -/
def int (f : Found) (name : String) (default : Int := 0) : Int := (f.int? name).getD default

/-- The arguments that are left hollow. -/
def hollow (f : Found) : List String :=
  (f.values.map (·.1)).filter fun name => f.values.lookup name = some .hollow

end Found

/-- What is said of a value that an argument does not take. -/
def badValue (program name message : String) : Refusal :=
  .usage program ("argument " ++ name ++ ": " ++ message)

/-- What is said of a value that is none of the choices. -/
def badChoice (s : String) (allowed : List String) : String :=
  "invalid choice: " ++ Text.quote s ++ " (choose from "
    ++ ", ".intercalate (allowed.map Text.quote) ++ ")"

/-- Reads the value of an argument. -/
def Argument.read (program : String) (a : Argument) (s : String) : Except Refusal ArgumentValue :=
  match a.kind with
  | .text => .ok (.text s)
  | .integer =>
    match Text.readInt s with
    | .ok n => .ok (.int n)
    | .error _ => .error (badValue program a.name ("invalid int value: " ++ Text.quote s))
  | .choice allowed | .command allowed =>
    if allowed.contains s then .ok (.text s)
    else .error (badValue program a.name (badChoice s allowed))

namespace Grammar

/-- Finds a value of an argument. -/
def find (g : Grammar) (f : Found) (a : Argument) (s : String) : Except Refusal Found := do
  let value ← a.read g.program s
  pure { f with values := (a.name, value) :: f.values }

/-- Finds the value joined to an option. -/
def findJoined (g : Grammar) (f : Found) (a : Argument) (s : String) : Except Refusal Found :=
  if s = "--" then pure { f with values := (a.name, .hollow) :: f.values } else g.find f a s

/-- Whether the argument told by its place is still to come. -/
inductive Place where
  | awaited (a : Argument)
  /-- It was the last thing read, so that two dashes behind it belong to it. -/
  | taken
  | closed

/-- What another argument leaves of the place: two dashes no longer belong to what was taken. -/
def Place.after : Place → Place
  | .awaited a => .awaited a
  | _ => .closed

/-- Takes the argument told by its place from a text that more texts follow. -/
def takePlaced (g : Grammar) (f : Found) (a : Argument) (s : String) (rest : List String) :
    Except Refusal Found := do
  let f ← g.find f a s
  match a.kind with
  | .command _ => pure { f with rest := rest }
  | _ => pure f

/-- Does the argument take everything that follows it? -/
def takesAll (a : Argument) : Bool :=
  match a.kind with
  | .command _ => true
  | _ => false

/-- Takes the arguments of a line one after another. -/
def take (g : Grammar) : Place → Found → List (String × Token) → Except Refusal Found
  | _, f, [] => .ok f
  | .awaited a, f, (s, .word) :: rest => do
    let f ← g.takePlaced f a s (rest.map (·.1))
    if takesAll a then pure f else g.take .taken f rest
  | _, f, (s, .word) :: rest => g.take .closed { f with extras := f.extras ++ [s] } rest
  | .awaited a, f, (s, .separator) :: (first, _) :: rest => do
    let f ← g.takePlaced f a (if takesAll a then s else first) (rest.map (·.1))
    g.take .closed f rest
  | .taken, f, (_, .separator) :: rest => g.take .closed f rest
  | place, f, (s, .separator) :: rest =>
    g.take place { f with extras := f.extras ++ [s] } rest
  | place, f, (_, .option a (some joined)) :: rest => do
    g.take place.after (← g.findJoined f a joined) rest
  | place, f, (_, .option a none) :: (s, .word) :: rest => do
    g.take place.after (← g.find f a s) rest
  | _, _, (_, .option a none) :: _ =>
    .error (badValue g.program a.name "expected one argument")
  | _, _, (_, .help (some joined)) :: _ =>
    .error (badValue g.program helpName ("ignored explicit argument " ++ Text.quote joined))
  | _, _, (_, .help none) :: _ => .error .help
  | place, f, (s, .unknown) :: rest =>
    g.take place.after { f with extras := f.extras ++ [s] } rest

/-- The required arguments that are missing. -/
def missing (g : Grammar) (f : Found) : List String :=
  ((g.arguments.filter (·.required)).map (·.name)).filter (!f.has ·)

/-- Reads a line: every token is told first, then the values are taken in order, and last it is
checked that no required one is missing. -/
def read (g : Grammar) (line : List String) : Except Refusal Found := do
  let place := (g.placed?.map Place.awaited).getD .closed
  let found ← g.take place {} (← g.tokens line)
  match g.missing found with
  | [] => pure found
  | names => throw (.usage g.program
      ("the following arguments are required: " ++ ", ".intercalate names))

end Grammar

end StakeLedger.CommandLine
