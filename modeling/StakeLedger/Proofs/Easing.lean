import StakeLedger.Proofs.Finalization
import StakeLedger.Proofs.Ledger

/-
  Pools under purges.
  A purge takes a rate away and gives an amount back (`Delta.Purges`). A pool that has been
  through purges at one time has less of a rate and more of an amount than it would have
  otherwise (`Pool.Eased`), so that what it refused once it refuses again, and with a fault of
  the same code (`Pool.Eased.error_of_error`): the numbers of all these faults can be shown.
-/

namespace StakeLedger

/-! ## Faults of the ledger's arithmetic -/

theorem Amount.error_of_check {field : String} {value : Int} {fault : Fault}
    (h : check field value = .error fault) : fault = .outOfRange field value := by
  unfold check at h
  split at h
  · cases h
  · cases h
    rfl

/-- A value out of range is a fault of the staking domain, unless the value cannot be shown. -/
theorem Fault.code?_outOfRange (field : String) (value : Int) :
    (Fault.outOfRange field value).code? =
      if Text.fitsNumeral value then some .arithmetic else none := by
  have hkind : (Fault.outOfRange field value).kind =
      if Text.fitsNumeral value then .staking .arithmetic else .value := rfl
  rw [code?, hkind]
  by_cases h : Text.fitsNumeral value = true
  · rw [if_pos h, if_pos h]
  · rw [if_neg h, if_neg h]

theorem Fault.code?_outOfRange_of_lt {field : String} {value : Int} (h : value.natAbs < 10 ^ 40) :
    (Fault.outOfRange field value).code? = some .arithmetic := by
  rw [code?_outOfRange, if_pos (Text.fitsNumeral_of_lt h)]

theorem Fault.code?_productTooLarge_of_lt {field : String} {value : Int}
    (h : value.natAbs < 10 ^ 40) :
    (Fault.productTooLarge field value).code? = some .arithmetic := by
  have hkind : (Fault.productTooLarge field value).kind =
      if Text.fitsNumeral value then .staking .arithmetic else .value := rfl
  rw [code?, hkind, if_pos (Text.fitsNumeral_of_lt h)]

/-- The delta of a purge: a rate goes, and an amount comes back. -/
structure Delta.Purges (delta : Delta) : Prop where
  rate_le : delta.rate ≤ 0
  le_rate : -amountMax ≤ delta.rate
  staked_nonneg : 0 ≤ delta.staked
  staked_le : delta.staked ≤ amountMax

theorem Purge.purges_expiredDelta {p : Position} {view : Lockup.View} {now : Int} {delta : Delta}
    (h : expiredDelta p view now = .ok delta) : delta.Purges := by
  obtain ⟨⟨hnonneg, hle⟩, rfl⟩ := expiredDelta_eq_ok_iff.mp h
  have := p.rate.nonneg
  have := p.rate.le_max
  refine ⟨?_, ?_, hnonneg, hle⟩ <;> dsimp only <;> omega

namespace Pool

variable {a b c : Pool} {now : Int} {delta : Delta} {fault : Fault}

/-- Rolling forward within the times of the columns fails with one code only. -/
theorem code?_of_rollForward (hasOf : Cell.fits a.asOf = true) (hnow : Cell.fits now = true)
    (h : a.rollForward now = .error fault) : fault.code? = some .arithmetic := by
  obtain ⟨hlow, hhigh⟩ := Cell.fits_iff.mp hasOf
  obtain ⟨hlow', hhigh'⟩ := Cell.fits_iff.mp hnow
  have := a.rate.nonneg
  have := a.rate.le_max
  have := a.staked.nonneg
  have := a.staked.le_max
  simp only [signedMin, signedMax, amountMax] at *
  have hproduct : ((now - a.asOf) * a.rate.val).natAbs < 10 ^ 40 := by
    have helapsed : (now - a.asOf).natAbs < 10 ^ 20 := by omega
    have hrate : a.rate.val.natAbs < 10 ^ 20 := by omega
    calc ((now - a.asOf) * a.rate.val).natAbs
        = (now - a.asOf).natAbs * a.rate.val.natAbs := Int.natAbs_mul _ _
      _ < 10 ^ 20 * 10 ^ 20 := Nat.mul_lt_mul'' helapsed hrate
      _ = 10 ^ 40 := by norm_num
  unfold rollForward at h
  dsimp only at h
  split at h
  · cases h
  · split at h
    · cases h
      rfl
    · unfold signedProduct at h
      split at h
      · next hdecay =>
        simp only [signedMin, signedMax] at hdecay
        cases hdifference : Amount.difference "staked_amount" a.staked.val
            ((now - a.asOf) * a.rate.val) with
        | ok staked =>
          simp only [bind, Except.bind, hdifference] at h
          cases h
        | error fault' =>
          simp only [bind, Except.bind, hdifference] at h
          cases h
          rw [Amount.error_of_check hdifference]
          exact Fault.code?_outOfRange_of_lt (by omega)
      · cases h
        exact Fault.code?_productTooLarge_of_lt hproduct

/-- A pool that can be rolled forward refuses the delta of a purge with one code only. -/
theorem code?_of_applyDelta {rolled : Pool} (hroll : a.rollForward now = .ok rolled)
    (hdelta : delta.Purges) (h : a.applyDelta now delta = .error fault) :
    fault.code? = some .arithmetic := by
  obtain ⟨hrate, hrate', hstaked, hstaked'⟩ := hdelta
  have := rolled.rate.nonneg
  have := rolled.rate.le_max
  have := rolled.staked.nonneg
  have := rolled.staked.le_max
  simp only [amountMax] at *
  unfold applyDelta at h
  rw [hroll] at h
  change (Amount.sum "fall_rate" rolled.rate.val delta.rate >>= fun rate =>
    Amount.sum "staked_amount" rolled.staked.val delta.staked >>= fun staked =>
      pure { rolled with rate := rate, staked := staked }) = _ at h
  cases hsum : Amount.sum "fall_rate" rolled.rate.val delta.rate with
  | error fault' =>
    rw [hsum] at h
    cases h
    rw [Amount.error_of_check hsum]
    exact Fault.code?_outOfRange_of_lt (by omega)
  | ok rate =>
    rw [hsum] at h
    cases hsum' : Amount.sum "staked_amount" rolled.staked.val delta.staked with
    | ok staked =>
      simp only [bind, Except.bind, hsum'] at h
      cases h
    | error fault' =>
      simp only [bind, Except.bind, hsum'] at h
      cases h
      rw [Amount.error_of_check hsum']
      exact Fault.code?_outOfRange_of_lt (by omega)

/-- Within the times of the columns a pool refuses the delta of a purge with one code only. -/
theorem code?_of_applyDelta_of_fits (hasOf : Cell.fits a.asOf = true)
    (hnow : Cell.fits now = true) (hdelta : delta.Purges)
    (h : a.applyDelta now delta = .error fault) : fault.code? = some .arithmetic := by
  cases hroll : a.rollForward now with
  | ok rolled => exact code?_of_applyDelta hroll hdelta h
  | error fault' =>
    unfold applyDelta at h
    rw [hroll] at h
    cases h
    exact code?_of_rollForward hasOf hnow hroll

/-- A pool and what purges at one time have made of it: if anything, it has been rolled forward
to that time, and has lost of its rate and gained in its amount. -/
def Eased (now : Int) (a b : Pool) : Prop :=
  a = b ∨ Cell.fits now = true ∧ ∃ rolled, a.rollForward now = .ok rolled ∧ b.asOf = now ∧
    b.rate.val ≤ rolled.rate.val ∧ rolled.staked.val ≤ b.staked.val

theorem Eased.refl (now : Int) (a : Pool) : a.Eased now a := Or.inl rfl

theorem Eased.trans (h : a.Eased now b) (h' : b.Eased now c) : a.Eased now c := by
  rcases h with rfl | ⟨hfits, rolled, hroll, hasOf, hrate, hstaked⟩
  · exact h'
  · rcases h' with rfl | ⟨-, rolled', hroll', hasOf', hrate', hstaked'⟩
    · exact Or.inr ⟨hfits, rolled, hroll, hasOf, hrate, hstaked⟩
    · rw [rollForward_of_asOf hasOf] at hroll'
      cases hroll'
      exact Or.inr ⟨hfits, rolled, hroll, hasOf', hrate'.trans hrate, hstaked.trans hstaked'⟩

theorem eased_of_applyDelta (hfits : Cell.fits now = true) (hdelta : delta.Purges)
    (h : a.applyDelta now delta = .ok b) : a.Eased now b := by
  obtain ⟨hle, hmax, hs, hrate, hstaked, hasOf⟩ := applyDelta_eq_ok_iff.mp h
  obtain ⟨rolled, hroll⟩ := exists_rollForward_iff.mpr ⟨hle, hmax, hs⟩
  obtain ⟨-, -, hs', hr', -⟩ := rollForward_eq_ok_iff.mp hroll
  have := hdelta.rate_le
  have := hdelta.staked_nonneg
  refine Or.inr ⟨hfits, rolled, hroll, hasOf, ?_, ?_⟩
  · rw [hrate, hr']
    omega
  · rw [hstaked, hs']
    omega

/-- A delta that fits a pool after purges would have fitted it before them. -/
theorem Eased.exists_applyDelta (h : a.Eased now b) (hdelta : delta.Purges)
    (hb : ∃ changed, b.applyDelta now delta = .ok changed) :
    ∃ changed, a.applyDelta now delta = .ok changed := by
  rcases h with rfl | ⟨-, rolled, hroll, hasOf, hrate, hstaked⟩
  · exact hb
  · obtain ⟨hle, hmax, hs, hr, -⟩ := rollForward_eq_ok_iff.mp hroll
    obtain ⟨-, -, -, ⟨hrates, -⟩, -, hmost⟩ := exists_applyDelta_iff.mp hb
    have hdecay : b.decay now = 0 := by rw [← hasOf, decay_asOf]
    rw [hdecay, sub_zero] at hmost
    rw [hr] at hrate
    have := rolled.staked.nonneg
    have := a.rate.le_max
    have := hdelta.rate_le
    have := hdelta.staked_nonneg
    exact exists_applyDelta_iff.mpr
      ⟨hle, hmax, by omega, ⟨by omega, by omega⟩, by omega, by omega⟩

/-- What a pool refuses it refuses after purges as well, with a fault of the same code. -/
theorem Eased.error_of_error (h : a.Eased now b) (hdelta : delta.Purges)
    (ha : a.applyDelta now delta = .error fault) :
    a = b ∨ fault.code? = some .arithmetic ∧
      ∃ fault', b.applyDelta now delta = .error fault' ∧ fault'.code? = some .arithmetic := by
  have hrefused : ¬∃ changed, a.applyDelta now delta = .ok changed := by
    rintro ⟨changed, hchanged⟩
    rw [ha] at hchanged
    cases hchanged
  have hrefused' := mt (h.exists_applyDelta hdelta) hrefused
  rcases h with rfl | ⟨-, rolled, hroll, hasOf, -, -⟩
  · exact Or.inl rfl
  · cases hb : b.applyDelta now delta with
    | ok changed => exact absurd ⟨changed, hb⟩ hrefused'
    | error fault' =>
      exact Or.inr ⟨code?_of_applyDelta hroll hdelta ha, fault', rfl,
        code?_of_applyDelta (rollForward_of_asOf hasOf) hdelta hb⟩

end Pool

end StakeLedger
