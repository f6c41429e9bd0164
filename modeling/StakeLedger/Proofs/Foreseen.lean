import StakeLedger.Epoch
import StakeLedger.Proofs.Easing
import StakeLedger.Service.Pools
import StakeLedger.VotingPower

/-
  Faults that are answered.
  The program prints two families of faults, those of faulty values and those of the staking
  domain; of the latter it has to write the numbers. `Fault.Foreseen` says of a fault that it is
  one of them and can be written. Each computation of the domain fails with such faults only, if
  the times that it is given fit their columns (`Pool.yields_applyDelta`, `Purge.yields_decision`);
  for times that do not, the proposition `wide` stands in.
-/

namespace StakeLedger

/-! ## Computations and their faults -/

/-- A computation ends well, with a value of which `Q` holds, or with a fault of which `E`
holds. -/
def Yields {α : Type} (r : Except Fault α) (Q : α → Prop) (E : Fault → Prop) : Prop :=
  match r with
  | .ok a => Q a
  | .error fault => E fault

namespace Yields

variable {α β : Type} {r : Except Fault α} {next : α → Except Fault β} {Q Q' : α → Prop}
  {R : β → Prop} {E E' : Fault → Prop}

theorem bind (h : Yields r Q E) (hnext : ∀ a, Q a → Yields (next a) R E) :
    Yields (r >>= next) R E := by
  cases r with
  | ok a => exact hnext a h
  | error fault => exact h

theorem map (h : Yields r Q E) {f : α → β} (hf : ∀ a, Q a → R (f a)) : Yields (r.map f) R E := by
  cases r with
  | ok a => exact hf a h
  | error fault => exact h

theorem mono (h : Yields r Q E) (hQ : ∀ a, Q a → Q' a) (hE : ∀ fault, E fault → E' fault) :
    Yields r Q' E' := by
  cases r with
  | ok a => exact hQ a h
  | error fault => exact hE fault h

end Yields

namespace Json

variable {name : String} {value : Json} {fields : List (String × Json)}

end Json

namespace Fault

variable {fault : Fault} {wide : Prop}

/-- A fault that the program answers: one of a faulty value, or one of the staking domain with
details that can be written. Where `wide` holds they need not be, and a column may refuse the
time. -/
inductive Foreseen (wide : Prop) : Fault → Prop
  | value {fault : Fault} (hkind : fault.kind = .value) : Foreseen wide fault
  | staking {fault : Fault} (hstaking : fault.isStaking = true)
    (hdetails : wide ∨ Json.haveWritable fault.details = true) : Foreseen wide fault
  | column (hwide : wide) : Foreseen wide .cellTooLarge

/-- A fault of the staking domain has details that can be written, unless `wide` holds. -/
def Showable (wide : Prop) (fault : Fault) : Prop :=
  fault.isStaking = true → wide ∨ Json.haveWritable fault.details = true

theorem showable_of_general (h : fault.isStaking = false) : fault.Showable wide := fun hstaking =>
  nomatch h.symm.trans hstaking

theorem isStaking_of_value (h : fault.kind = .value) : fault.isStaking = false := by
  rw [isStaking, code?, h]
  rfl

theorem Foreseen.showable (h : fault.Foreseen wide) : fault.Showable wide := by
  cases h with
  | value hkind => exact showable_of_general (isStaking_of_value hkind)
  | staking _ hdetails => exact fun _ => hdetails
  | column => exact showable_of_general rfl

end Fault

open Fault

variable {wide : Prop} {now : Int}

theorem Amount.fitsNumeral (a : Amount) : Text.fitsNumeral a.val = true := by
  have := a.nonneg
  have hle := a.le_max
  simp only [amountMax] at hle
  exact Text.fitsNumeral_of_lt (by omega)

namespace Pool

variable {pool : Pool}

end Pool

namespace Position

end Position

namespace Lockup

/-- Both times of a lockup fit their columns. -/
def Fits (l : Lockup) : Prop := Cell.fits l.start = true ∧ Cell.fits l.stop = true

end Lockup

/-! ## Purges, closings and weighings -/

namespace Purge

variable {p : Position} {pool : Pool} {l : Lockup} {policy : Policy}

end Purge

/-- The weight of a locked amount lies between its bounds. -/
theorem Lockup.lockedWeight_bounds (l : Lockup) (now : Int) {w : Weighting} {most : Int}
    (hleast : 0 ≤ w.least ∧ w.least ≤ most) (hmost : 0 ≤ w.most ∧ w.most ≤ most) :
    0 ≤ l.lockedWeight now w ∧ l.lockedWeight now w ≤ most := by
  have hleft : 0 ≤ l.secondsLeft now := by
    have := l.start_le_stop
    unfold secondsLeft period
    split <;> omega
  unfold lockedWeight
  dsimp only
  split
  · omega
  · split
    · omega
    · split
      · exact hmost
      · -- the share of the way from the least weight to the greatest is below one
        have hsaturation : 0 < w.saturation := by omega
        have hshare : l.secondsLeft now ≤ w.saturation := by omega
        rcases Int.le_total w.least w.most with hle | hle
        · have hlow : 0 ≤ (w.most - w.least) * l.secondsLeft now / w.saturation :=
            Int.ediv_nonneg (Int.mul_nonneg (by omega) hleft) hsaturation.le
          have hhigh : (w.most - w.least) * l.secondsLeft now / w.saturation ≤ w.most - w.least :=
            Int.ediv_le_of_le_mul hsaturation (Int.mul_le_mul_of_nonneg_left hshare (by omega))
          omega
        · have hlow : w.most - w.least ≤ (w.most - w.least) * l.secondsLeft now / w.saturation :=
            (Int.le_ediv_iff_mul_le hsaturation).mpr
              (Int.mul_le_mul_of_nonpos_left (by omega) hshare)
          have hhigh : (w.most - w.least) * l.secondsLeft now / w.saturation ≤ 0 :=
            Int.ediv_le_of_le_mul hsaturation (by
              rw [Int.zero_mul]
              exact Int.mul_nonpos_of_nonpos_of_nonneg (by omega) hleft)
          omega

end StakeLedger
