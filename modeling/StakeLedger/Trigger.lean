import StakeLedger.Digest
import StakeLedger.Text.Numeral

/-
  Keys of purge triggers.
  A key names one deposit entry of one position: it is made from the digest of the text
  "position, colon, label", of which sixteen hexadecimal digits are kept. The label holds the
  entry's index in decimal and no colon, so that different pairs have different texts.
-/

namespace StakeLedger.Trigger

/-- The label of a deposit entry. -/
def label (index : Int) : String := "purge-" ++ Text.writeInt index

/-- The text whose digest makes the key. -/
def subject (position : String) (index : Int) : String := position ++ ":" ++ label index

/-- The first sixteen hexadecimal digits of the digest of a text in UTF-8. -/
def shortHash (text : String) : String :=
  String.ofList ((Digest.hexDigest text.toUTF8.toList).take 16)

/-- The key of the purge trigger of a deposit entry. -/
def key (position : String) (index : Int) : String := "trg:" ++ shortHash (subject position index)

end StakeLedger.Trigger
