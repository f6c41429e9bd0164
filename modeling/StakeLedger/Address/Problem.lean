import StakeLedger.Text.Quoted

/-
  What can be wrong with the address of a service.
-/

namespace StakeLedger.Address

/-- The parts of an address that have a limit of their own. -/
inductive Part where
  | scheme
  | authority
  | path
  | query
  | fragment
  deriving DecidableEq, Repr

/-- The text of a part's name. -/
def Part.text : Part → String
  | .scheme => "scheme"
  | .authority => "authority"
  | .path => "path"
  | .query => "query"
  | .fragment => "fragment"

/-- Why a text is no address. -/
inductive Problem where
  | tooLong
  | partTooLong (part : Part)
  /-- A control character of ASCII, and its place counted from zero. -/
  | unprintable (c : Char) (place : Nat)
  | badVersion4 (host : String)
  | badVersion6 (host : String)
  | badDomain (host : String)
  | badPort (port : String)
  | pathWithoutSlash
  | pathWithTwoSlashes
  | pathWithColon
  /-- A run of characters beyond ASCII: the first of them, its place counted from zero, and how
  many there are. -/
  | beyondAscii (c : Char) (place length : Nat)
  /-- A square bracket in an authority without its counterpart. -/
  | loneBracket
  deriving DecidableEq, Repr

/-- The escape of a character that ASCII does not have, with the fewest digits of two, four or
eight. -/
def escapeOf (c : Char) : String :=
  let (mark, width) :=
    if c.toNat < 0x100 then ('x', 2) else if c.toNat < 0x10000 then ('u', 4) else ('U', 8)
  String.ofList ('\\' :: mark :: Text.hex width c.toNat)

/-- The message of a problem. -/
def Problem.message : Problem → String
  | .tooLong => "URL too long"
  | .partTooLong part => "URL component " ++ Text.quote part.text ++ " too long"
  | .unprintable c place =>
    "Invalid non-printable ASCII character in URL, " ++ Text.quote (String.singleton c)
      ++ " at position " ++ toString place ++ "."
  | .badVersion4 host => "Invalid IPv4 address: " ++ Text.quote host
  | .badVersion6 host => "Invalid IPv6 address: " ++ Text.quote host
  | .badDomain host => "Invalid IDNA hostname: " ++ Text.quote host
  | .badPort port => "Invalid port: " ++ Text.quote port
  | .pathWithoutSlash => "For absolute URLs, path must be empty or begin with '/'"
  | .pathWithTwoSlashes => "Relative URLs cannot have a path starting with '//'"
  | .pathWithColon => "Relative URLs cannot have a path starting with ':'"
  | .beyondAscii c place length =>
    "'ascii' codec can't encode character"
      ++ (if length = 1 then " '" ++ escapeOf c ++ "' in position " ++ toString place
        else "s in position " ++ toString place ++ "-" ++ toString (place + length - 1))
      ++ ": ordinal not in range(128)"
  | .loneBracket => "Invalid IPv6 URL"

/-- Is it the text that is at fault, and not its meaning as an address? -/
def Problem.isOfText : Problem → Bool
  | .beyondAscii _ _ _ => true
  | .loneBracket => true
  | _ => false

end StakeLedger.Address
