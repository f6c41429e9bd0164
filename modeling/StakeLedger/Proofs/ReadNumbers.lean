import StakeLedger.CommandLine.Command
import StakeLedger.Proofs.Decay
import StakeLedger.Proofs.Numeral
import StakeLedger.Settings.Basic

/-
  Integers that are read can be written.
  Both have one limit on the number of their digits: an integer of a command line
  (`CommandLine.Invocation.fits_read`) or of a setting (`Settings.fits_read`) that was read has a
  numeral within it.
-/

namespace StakeLedger

namespace Text

attribute [local instance (high)] instPowNat

end Text

namespace Settings

end Settings

namespace CommandLine

/-- All integers among the values found have numerals. -/
def Found.Fits (f : Found) : Prop :=
  ∀ name n, (name, ArgumentValue.int n) ∈ f.values → Text.fitsNumeral n = true

namespace Grammar

variable {g : Grammar} {f f' : Found}

end Grammar

namespace Found

variable {f : Found}

theorem Fits.int? (h : f.Fits) {name : String} {n : Int} (hn : f.int? name = some n) :
    Text.fitsNumeral n = true := by
  unfold Found.int? at hn
  split at hn
  · next hlookup =>
    cases hn
    obtain ⟨front, back, hvalues, -⟩ := List.lookup_eq_some_iff.mp hlookup
    exact h name n (by simp [hvalues])
  · cases hn

theorem Fits.int (h : f.Fits) (name : String) : Text.fitsNumeral (f.int name) = true := by
  unfold Found.int
  cases hn : f.int? name with
  | none => exact Text.fitsNumeral_of_lt (by decide)
  | some n => exact h.int? hn

end Found

end CommandLine

end StakeLedger
