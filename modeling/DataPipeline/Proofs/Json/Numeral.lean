import DataPipeline.Json.Numeral
import DataPipeline.Proofs.Decimal.Finite

namespace DataPipeline.Json

open Decimal Float.Model Float.Model.UnpackedFloat

section Powers

variable {e : Nat}

theorem power_lt (h : e ≤ 307) : ∃ b ≤ 1021, 10 ^ e < 2 ^ b := by
  have hmono {n : Nat} (h : e ≤ n) : 10 ^ e ≤ 10 ^ n := Nat.pow_le_pow_right (by decide) h
  refine ⟨103 * 9 + 94, Nat.le_refl _, ?_⟩
  calc
    10 ^ e ≤ 10 ^ (31 * 9 + 28) := hmono h
    _ = (10 ^ 31) ^ 9 * 10 ^ 28 := by rw [Nat.pow_add 10 (31 * 9) 28, Nat.pow_mul 10 31 9]
    _ < (2 ^ 103) ^ 9 * 2 ^ 94 :=
      Nat.mul_lt_mul'' (Nat.pow_lt_pow_left (by decide) (by decide)) (by decide)
    _ = 2 ^ (103 * 9 + 94) := by rw [Nat.pow_add 2 (103 * 9) 94, Nat.pow_mul 2 103 9]

/-- A power of ten that is not too large is rounded to a normal double of about its size. -/
theorem unpack_power (hlow : 0 < e) (hhigh : e ≤ 307) :
    ∃ s m k h, (Float.Model.ofScientific 1 e).unpack = .finite s m k h ∧
      m.log2 = 52 ∧ -49 ≤ k ∧ k ≤ 969 := by
  have hlower : 2 ^ 56 ≤ (1 <<< 53) * 10 ^ e := by
    have hpower : 10 ^ 1 ≤ 10 ^ e := Nat.pow_le_pow_right (by decide) hlow
    omega
  obtain ⟨bits, hbits, hpower⟩ := power_lt hhigh
  have hupper : (1 <<< 53) * 10 ^ e < 2 ^ (53 + bits) := by
    rw [Nat.pow_add 2 53]
    exact Nat.mul_lt_mul_of_pos_left hpower (by decide)
  have hne : (1 <<< 53) * 10 ^ e ≠ 0 := by omega
  have hlog := (Nat.le_log2 hne).2 hlower
  have hlog' := (Nat.log2_lt hne).2 hupper
  obtain ⟨m, k, hm, hround, hfull, hk, hk'⟩ := roundWithAccuracy_full (.positive * .positive)
    (m := (1 <<< 53) * 10 ^ e) (e := -53 + 0) .exact (by omega) (by omega)
  obtain ⟨s', m', h, hunpack, hfull'⟩ := unpack_pack (.positive * .positive) (e := k) hm hfull
    (by omega) (by omega)
  have hscientific : UnpackedFloat.ofScientific Format.binary64 1 e =
      roundWithAccuracy Format.binary64 (.positive * .positive) ((1 <<< 53) * 10 ^ e)
        (-53 + 0) .exact := by
    have hsmall : ¬ (e : Int) > 2 ^ 11 := by omega
    have hnotTiny : ¬ (e : Int) < -(2 ^ 11 + Nat.log2 1) := by omega
    rw [UnpackedFloat.ofScientific, dif_neg Nat.one_ne_zero, if_neg hsmall, if_neg hnotTiny,
      if_pos (Int.natCast_nonneg e)]
    rfl
  refine ⟨s', m', k, h, ?_, hfull', by omega, by omega⟩
  rw [Float.Model.ofScientific, hscientific, hround, hunpack]

theorem bounded_tenTo (h : e ≤ 308) :
    Bounded (tenTo e).toModel.unpack ∧ (e = 0 ∨ Large (tenTo e).toModel.unpack) := by
  -- The first powers are taken from a table; the last is too close to infinity for the bound of
  -- rounding.
  by_cases hsmall : e ≤ 22
  · have hexact : ∀ e ≤ 22,
        Bounded (tenTo e).toModel.unpack ∧ (e = 0 ∨ Large (tenTo e).toModel.unpack) := by
      decide +kernel
    exact hexact e hsmall
  · by_cases hlast : e = 308
    · subst hlast
      decide +kernel
    · have hslow : tenTo e = Float.ofModel (Float.Model.ofScientific 1 e) := dif_neg (by omega)
      obtain ⟨s, m, k, hm, hunpack, hlog, hlow, hhigh⟩ :=
        unpack_power (e := e) (by omega) (by omega)
      rw [hslow, hunpack, bounded_finite, large_finite]
      omega

theorem large_tenTo (he : 0 < e) (h : e ≤ 308) : Large (tenTo e).toModel.unpack :=
  (bounded_tenTo h).2.resolve_left (Nat.ne_of_gt he)

end Powers

section Scaling

variable {x y : Float} {e : Nat}

theorem isFinite_scaleUp (hx : x.isFinite = true) (h : scaleUp x e = some y) :
    y.isFinite = true := by
  unfold scaleUp at h
  split at h
  next he =>
    dsimp only at h
    split at h
    · cases h
    next hinf =>
      cases h
      exact isFinite_mul hx (bounded_tenTo he).1 (Bool.eq_false_iff.2 hinf)
  · split at h
    · cases h
      exact hx
    · cases h

theorem isFinite_scaleDown (hx : x.isFinite = true) (he : 0 < e) :
    (scaleDown x e).isFinite = true := by
  induction e using Nat.strongRecOn generalizing x with
  | ind e ih =>
    rw [scaleDown]
    split
    next hlast => exact isFinite_div hx (large_tenTo he hlast)
    · split
      · exact hx
      · have hlarge : Large (tenTo 308).toModel.unpack :=
          large_tenTo (by decide) (Nat.le_refl 308)
        have hstep : (x / tenTo 308).isFinite = true := isFinite_div hx hlarge
        exact ih (e - 308) (by omega) hstep (by omega)

theorem isFinite_scale {significand : Nat} {e : Int} (h : scale significand e = some y) :
    y.isFinite = true := by
  unfold scale at h
  dsimp only at h
  split at h
  · exact isFinite_scaleUp (isFinite_toFloat _) h
  · cases h
    exact isFinite_scaleDown (isFinite_toFloat _) (by omega)

theorem isFinite_signed {negative : Bool} (h : x.isFinite = true) :
    (signed negative x).isFinite = true := by
  cases negative with
  | false => exact h
  | true => exact isFinite_neg h

end Scaling

/-- A numeral never stands for an infinite double or for none. -/
theorem Numeral.isFinite_of_value {numeral : Numeral} {x : Float}
    (h : numeral.value = .ok (.double x)) :
    x.isFinite = true := by
  unfold value at h
  dsimp only at h
  split at h
  · unfold ofWhole at h
    split at h
    · cases h
    · split at h
      · cases h
      · cases h
        exact isFinite_neg (isFinite_toFloat _)
  · split at h
    · split at h
      next hscale =>
        cases h
        exact isFinite_signed (isFinite_scale hscale)
      · cases h
    · split at h
      · split at h
        next hscale =>
          cases h
          exact isFinite_signed (isFinite_scale hscale)
        · cases h
      · split at h
        · cases h
        · cases h
          exact isFinite_signed (by decide)

end DataPipeline.Json
