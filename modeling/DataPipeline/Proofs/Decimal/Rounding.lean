import DataPipeline.Proofs.Decimal.Finite
import DataPipeline.Decimal.Shortest

namespace DataPipeline.Decimal

namespace Ratio

/-- The value of a fraction. -/
def value (r : Ratio) : ℚ := r.num / r.den

theorem den_scaleTwo_pos (n : Nat) (e : Int) : 0 < (scaleTwo n e).den := by
  unfold scaleTwo
  split
  · exact Nat.one_pos
  · exact Nat.pow_pos (by decide)

theorem den_scaleTen_pos {r : Ratio} (h : 0 < r.den) (e : Int) : 0 < (r.scaleTen e).den := by
  unfold scaleTen
  split
  · exact h
  · exact Nat.mul_pos h (Nat.pow_pos (by decide))

theorem value_scaleTwo (n : Nat) (e : Int) : (scaleTwo n e).value = n * 2 ^ e := by
  unfold scaleTwo value
  split
  next he =>
    obtain ⟨k, rfl⟩ := Int.eq_ofNat_of_zero_le he
    simp
  next he =>
    obtain ⟨k, rfl⟩ : ∃ k : Nat, e = -k := ⟨(-e).toNat, by omega⟩
    simp [div_eq_mul_inv]

theorem value_scaleTen (r : Ratio) (e : Int) : (r.scaleTen e).value = r.value * 10 ^ e := by
  unfold scaleTen value
  split
  next he =>
    obtain ⟨k, rfl⟩ := Int.eq_ofNat_of_zero_le he
    simp [mul_div_right_comm]
  next he =>
    obtain ⟨k, rfl⟩ : ∃ k : Nat, e = -k := ⟨(-e).toNat, by omega⟩
    simp [div_eq_mul_inv, mul_assoc, mul_comm]

theorem num_eq {r : Ratio} (h : 0 < r.den) : (r.num : ℚ) = r.value * r.den := by
  have hden : (r.den : ℚ) ≠ 0 := by positivity
  rw [value, div_mul_cancel₀ _ hden]

theorem round_eq (r : Ratio) : r.round = r.num / r.den ∨ r.round = r.num / r.den + 1 := by
  rw [round]
  split
  · exact .inl rfl
  split
  · exact .inr rfl
  · omega

end Ratio

/-- The number that digits stand for. -/
def Digits.value (d : Digits) : ℚ := d.digits * 10 ^ d.exponent

section Rounding

variable {r : Rounding} {n m : Nat} {e : Int} {d : Digits} {v : ℚ}

/-- A number rounds to the double. -/
def Rounding.Holds (r : Rounding) (v : ℚ) : Prop :=
  if r.closed = true then r.low * 2 ^ r.scale ≤ v ∧ v ≤ r.high * 2 ^ r.scale
  else r.low * 2 ^ r.scale < v ∧ v < r.high * 2 ^ r.scale

theorem Rounding.Holds.bounds (h : r.Holds v) :
    r.low * 2 ^ r.scale ≤ v ∧ v ≤ r.high * 2 ^ r.scale := by
  unfold Holds at h
  split at h
  · exact h
  · exact ⟨h.1.le, h.2.le⟩

theorem Rounding.Holds.closed_of_eq (h : r.Holds v)
    (hv : v = r.low * 2 ^ r.scale ∨ v = r.high * 2 ^ r.scale) :
    r.closed = true := by
  unfold Holds at h
  split at h
  · assumption
  · exfalso
    rcases hv with rfl | rfl
    · exact lt_irrefl _ h.1
    · exact lt_irrefl _ h.2

theorem Rounding.holds_of_lt (hlow : r.low * 2 ^ r.scale < v)
    (hhigh : v < r.high * 2 ^ r.scale) : r.Holds v := by
  unfold Holds
  split
  · exact ⟨hlow.le, hhigh.le⟩
  · exact ⟨hlow, hhigh⟩

theorem scaled_eq (m n : Nat) (s e : Int) : ∃ c : ℚ, 0 < c ∧
    (((Ratio.scaleTwo m s).scaleTen (-e)).num : ℚ) = m * 2 ^ s * c ∧
    ((n * ((Ratio.scaleTwo m s).scaleTen (-e)).den : Nat) : ℚ) = n * 10 ^ e * c := by
  have hden := Ratio.den_scaleTen_pos (Ratio.den_scaleTwo_pos m s) (-e)
  have hten : (0 : ℚ) < 10 ^ e := by positivity
  refine ⟨10 ^ (-e) * ((Ratio.scaleTwo m s).scaleTen (-e)).den, by positivity, ?_, ?_⟩
  · rw [Ratio.num_eq hden, Ratio.value_scaleTen, Ratio.value_scaleTwo, mul_assoc]
  · rw [zpow_neg, Nat.cast_mul]
    field_simp

theorem Rounding.admits_iff : r.admits n e = true ↔ r.Holds (n * 10 ^ e) := by
  obtain ⟨c, hc, hlow, hlow'⟩ := scaled_eq r.low n r.scale e
  obtain ⟨c', hc', hhigh, hhigh'⟩ := scaled_eq r.high n r.scale e
  unfold admits Holds
  dsimp only
  split
  · rw [Bool.and_eq_true, decide_eq_true_eq, decide_eq_true_eq, ← Nat.cast_le (α := ℚ),
      ← Nat.cast_le (α := ℚ) (n := Ratio.num _), hlow, hlow', hhigh, hhigh',
      mul_le_mul_iff_left₀ hc, mul_le_mul_iff_left₀ hc']
  · rw [Bool.and_eq_true, decide_eq_true_eq, decide_eq_true_eq, ← Nat.cast_lt (α := ℚ),
      ← Nat.cast_lt (α := ℚ) (n := Ratio.num _), hlow, hlow', hhigh, hhigh',
      mul_lt_mul_iff_left₀ hc, mul_lt_mul_iff_left₀ hc']

theorem Rounding.holds_onGrid (h : r.onGrid? e = some d) : r.Holds d.value := by
  unfold onGrid? at h
  dsimp only at h
  split at h
  next hbelow habove =>
    cases h
    rw [Digits.value, ← admits_iff]
    rcases Ratio.round_eq ((Ratio.scaleTwo r.value r.scale).scaleTen (-e)) with hround | hround
    · rw [hround]
      exact hbelow
    · rw [hround]
      exact habove
  next hbelow _ =>
    cases h
    exact admits_iff.1 hbelow
  next _ habove =>
    cases h
    exact admits_iff.1 habove
  · cases h

theorem Rounding.isSome_onGrid_of_admits
    (h : r.admits (((Ratio.scaleTwo r.value r.scale).scaleTen (-e)).num /
      ((Ratio.scaleTwo r.value r.scale).scaleTen (-e)).den + 1) e = true) :
      (r.onGrid? e).isSome := by
  unfold onGrid?
  dsimp only
  rw [h]
  split <;> first | rfl | contradiction

/-- On a grid that is finer than half the gap to the next double there is a number. -/
theorem Rounding.isSome_onGrid (hlow : r.low ≤ r.value) (hhigh : r.value + 2 ≤ r.high)
    (hfine : (10 : ℚ) ^ e < 2 * 2 ^ r.scale) : (r.onGrid? e).isSome := by
  apply isSome_onGrid_of_admits
  have hden := Ratio.den_scaleTen_pos (Ratio.den_scaleTwo_pos r.value r.scale) (-e)
  obtain ⟨below, hbelow⟩ :
      ∃ below, below = ((Ratio.scaleTwo r.value r.scale).scaleTen (-e)).num /
    ((Ratio.scaleTwo r.value r.scale).scaleTen (-e)).den := ⟨_, rfl⟩
  rw [← hbelow]
  obtain ⟨c, hc, hvalue, hfloor⟩ := scaled_eq r.value below r.scale e
  obtain ⟨c', hc', hvalue', hceil⟩ := scaled_eq r.value (below + 1) r.scale e
  have hle : (below : ℚ) * 10 ^ e ≤ r.value * 2 ^ r.scale := by
    rw [← mul_le_mul_iff_left₀ hc, ← hvalue, ← hfloor, Nat.cast_le, hbelow]
    exact Nat.div_mul_le_self _ _
  have hlt : (r.value : ℚ) * 2 ^ r.scale < (below + 1 : Nat) * 10 ^ e := by
    rw [← mul_lt_mul_iff_left₀ hc', ← hvalue', ← hceil, Nat.cast_lt, hbelow, Nat.mul_comm]
    exact Nat.lt_mul_div_succ _ hden
  have htwo : (0 : ℚ) < 2 ^ r.scale := by positivity
  have hlow : (r.low : ℚ) * 2 ^ r.scale ≤ r.value * 2 ^ r.scale := by gcongr
  have hhigh : ((r.value + 2 : Nat) : ℚ) * 2 ^ r.scale ≤ r.high * 2 ^ r.scale := by gcongr
  rw [admits_iff]
  apply holds_of_lt (hlow.trans_lt hlt)
  push_cast at hhigh ⊢
  linarith

theorem Rounding.holds_search {k : Nat} (hk : k < n) (h : (r.onGrid? (e - k)).isSome) :
    r.Holds (r.search e n).value := by
  induction n generalizing e k with
  | zero => omega
  | succ n ih =>
    rw [search]
    cases hgrid : r.onGrid? e with
    | some d => exact holds_onGrid hgrid
    | none =>
      cases k with
      | zero =>
        rw [Nat.cast_zero, sub_zero, hgrid] at h
        cases h
      | succ k =>
        apply ih (k := k) (by omega)
        have hexponent : e - 1 - (k : Int) = e - (k + 1 : Nat) := by omega
        rwa [hexponent]

end Rounding

section Size

theorem length_toDigits_bounds {n : Nat} (h : 0 < n) :
    10 ^ ((Nat.toDigits 10 n).length - 1) ≤ n ∧ n < 10 ^ (Nat.toDigits 10 n).length := by
  have hpos : 0 < (Nat.toDigits 10 n).length := Nat.length_toDigits_pos
  constructor
  · by_cases hone : (Nat.toDigits 10 n).length = 1
    · rw [hone]
      exact h
    · rw [← Nat.not_lt, ← Nat.length_toDigits_le_iff (by decide) (by omega)]
      omega
  · exact (Nat.length_toDigits_le_iff (by decide) hpos).1 (Nat.le_refl _)

/-- The size of a number is not overrated. -/
theorem tenTo_integerDigits_le {r : Ratio} (hnum : 0 < r.num) (hden : 0 < r.den) :
    (10 : ℚ) ^ (integerDigits r - 1) ≤ r.value := by
  have hden' : (0 : ℚ) < r.den := by exact_mod_cast hden
  rw [integerDigits, Ratio.value, le_div_iff₀ hden']
  split
  next hle =>
    have hpos : 0 < (Nat.toDigits 10 (r.num / r.den)).length := Nat.length_toDigits_pos
    obtain ⟨hsize, _⟩ := length_toDigits_bounds (Nat.div_pos hle hden)
    obtain ⟨k, hk⟩ : ∃ k, (Nat.toDigits 10 (r.num / r.den)).length = k + 1 :=
      ⟨_, (Nat.sub_add_cancel hpos).symm⟩
    rw [hk, Nat.add_sub_cancel] at hsize
    have hmul : 10 ^ k * r.den ≤ r.num := (Nat.le_div_iff_mul_le hden).1 hsize
    rw [hk, Nat.cast_add, Nat.cast_one, add_sub_cancel_right, zpow_natCast]
    exact_mod_cast hmul
  next hlt =>
    have hpos : 0 < (Nat.toDigits 10 (r.den / r.num)).length := Nat.length_toDigits_pos
    obtain ⟨_, hsize⟩ := length_toDigits_bounds (Nat.div_pos (Nat.le_of_not_le hlt) hnum)
    obtain ⟨k, hk⟩ : ∃ k, (Nat.toDigits 10 (r.den / r.num)).length = k + 1 :=
      ⟨_, (Nat.sub_add_cancel hpos).symm⟩
    rw [hk] at hsize
    have hmul : r.den < 10 ^ (k + 1) * r.num := (Nat.div_lt_iff_lt_mul hnum).1 hsize
    rw [hk, Nat.add_sub_cancel]
    split
    next heq =>
      have hexponent : 1 - ((k + 1 : Nat) : Int) + 1 - 1 = -(k : Int) := by omega
      rw [hexponent, zpow_neg, zpow_natCast, inv_mul_le_iff₀ (by positivity), mul_comm]
      have heq' : r.num * 10 ^ k = r.den := heq
      exact_mod_cast heq'.ge
    next =>
      have hexponent : 1 - ((k + 1 : Nat) : Int) + 0 - 1 = -((k + 1 : Nat) : Int) := by omega
      rw [hexponent, zpow_neg, zpow_natCast, inv_mul_le_iff₀ (by positivity)]
      exact_mod_cast hmul.le

theorem value_stripZeros (d : Digits) (n : Nat) : (stripZeros d n).value = d.value := by
  induction n generalizing d with
  | zero => rfl
  | succ n ih =>
    rw [stripZeros]
    split
    next h =>
      have hdigits : d.digits = d.digits / 10 * 10 :=
        (Nat.div_mul_cancel (Nat.dvd_of_mod_eq_zero h.1)).symm
      rw [ih, Digits.value, Digits.value, zpow_add_one₀ (by decide), ← mul_assoc,
        mul_right_comm]
      congr 1
      exact_mod_cast hdigits.symm
    · rfl

end Size

/-- A magnitude as a double holds it. -/
structure Binary.Normal (b : Binary) : Prop where
  bits : b.significand < 2 ^ 53
  least : -1074 ≤ b.exponent
  full : b.exponent = -1074 ∨ 2 ^ 52 ≤ b.significand

section Binary

variable {b b' : Binary} {v : ℚ}

/-- The fewest digits of a double stand for a number that rounds to it. -/
theorem Binary.holds_shortest (hb : b.Normal) (hpos : 0 < b.significand) :
    b.rounding.Holds b.shortest.value := by
  rw [shortest, value_stripZeros]
  apply Rounding.holds_search (k := 18) (by decide)
  apply Rounding.isSome_onGrid
  · unfold rounding
    dsimp only
    split <;> omega
  · exact Nat.le_refl _
  · have hden := Ratio.den_scaleTwo_pos b.significand b.exponent
    have hnum : 0 < (Ratio.scaleTwo b.significand b.exponent).num := by
      unfold Ratio.scaleTwo
      split
      · exact Nat.mul_pos hpos (Nat.pow_pos (by decide))
      · exact hpos
    have hsize := tenTo_integerDigits_le hnum hden
    rw [Ratio.value_scaleTwo] at hsize
    have hbits : (b.significand : ℚ) < 2 ^ 53 := by exact_mod_cast hb.bits
    have htwo : (0 : ℚ) < 2 ^ b.exponent := by positivity
    have hscale : (2 : ℚ) ^ b.rounding.scale = 2 ^ b.exponent / 4 := by
      rw [rounding, zpow_sub₀ (by decide)]
      norm_num
    rw [hscale]
    -- A grid whose spacing has seventeen places less than the number itself is fine enough.
    obtain ⟨size, hsize'⟩ :
        ∃ size, size = integerDigits (Ratio.scaleTwo b.significand b.exponent) := ⟨_, rfl⟩
    rw [← hsize'] at hsize ⊢
    have hplaces : (10 : ℚ) ^ (size - (18 : Nat)) = 10 ^ (size - 1) / 10 ^ 17 := by
      rw [← zpow_natCast, ← zpow_sub₀ (by decide)]
      congr 1
      push_cast
      ring
    rw [hplaces]
    have hlarge : (10 : ℚ) ^ (size - 1) < 2 ^ 53 * 2 ^ b.exponent :=
      hsize.trans_lt (mul_lt_mul_of_pos_right hbits htwo)
    rw [div_lt_iff₀ (by positivity)]
    norm_num at hlarge ⊢
    linarith

/-- What rounds to a double is not beyond what rounds to a larger one. -/
theorem Binary.high_le_low (hb : b.Normal) (hb' : b'.Normal) {k : Nat}
    (hk : b'.exponent = b.exponent + k) (hlt : k = 0 → b.significand < b'.significand) :
    b.rounding.high ≤ b'.rounding.low * 2 ^ k ∧
      (b.rounding.high = b'.rounding.low * 2 ^ k → b.rounding.closed = true →
        b'.rounding.closed = false) := by
  obtain ⟨hbits, hleast, _⟩ := hb
  obtain ⟨_, _, hfull⟩ := hb'
  rw [rounding, rounding, beq_iff_eq, beq_eq_false_iff_ne]
  dsimp only
  by_cases hzero : k = 0
  · subst hzero
    rw [Nat.pow_zero, Nat.mul_one]
    specialize hlt rfl
    split <;> omega
  · -- A larger exponent goes with a full significand, and below the least of these the gap is
    -- half as wide.
    have htwo : 2 ^ 1 ≤ 2 ^ k := Nat.pow_le_pow_right (by decide) (by omega)
    have hsignificand : 2 ^ 52 ≤ b'.significand := hfull.resolve_left (by omega)
    obtain ⟨low, hlow⟩ : ∃ low, low = if b'.gapHalvesBelow = true then 4 * b'.significand - 1
      else 4 * b'.significand - 2 := ⟨_, rfl⟩
    have hmul : low * 2 ^ 1 ≤ low * 2 ^ k := Nat.mul_le_mul_left low htwo
    have hleast : 2 ^ 54 - 1 ≤ low := by
      by_cases hgap : b'.gapHalvesBelow = true
      · rw [if_pos hgap] at hlow
        omega
      · have hgap' : b'.significand ≠ 2 ^ 52 := by
          intro heq
          apply hgap
          rw [gapHalvesBelow, Bool.and_eq_true, beq_iff_eq, decide_eq_true_eq]
          exact ⟨heq, by omega⟩
        rw [if_neg hgap] at hlow
        omega
    rw [← hlow]
    omega

/-- No number rounds to a double and to a larger one. -/
theorem Binary.not_holds_of_lt (hb : b.Normal) (hb' : b'.Normal)
    (hlt : b.exponent < b'.exponent ∨ b.exponent = b'.exponent ∧ b.significand < b'.significand)
    (h : b.rounding.Holds v) : ¬b'.rounding.Holds v := by
  intro h'
  obtain ⟨k, hk⟩ : ∃ k : Nat, b'.exponent = b.exponent + k :=
    ⟨(b'.exponent - b.exponent).toNat, by omega⟩
  obtain ⟨hle, hopen⟩ := high_le_low hb hb' hk (by omega)
  have htwo : (0 : ℚ) < 2 ^ b.rounding.scale := by positivity
  have hscale : (b'.rounding.low : ℚ) * 2 ^ b'.rounding.scale =
      (b'.rounding.low * 2 ^ k : Nat) * 2 ^ b.rounding.scale := by
    have hexponent : b'.rounding.scale = k + b.rounding.scale := by
      change b'.exponent - 2 = k + (b.exponent - 2)
      omega
    rw [hexponent, zpow_add₀ (by decide), zpow_natCast]
    push_cast
    ring
  have hcross : b.rounding.high * 2 ^ b.rounding.scale ≤
      (b'.rounding.low : ℚ) * 2 ^ b'.rounding.scale := by
    rw [hscale]
    gcongr
  have hhigh := h.bounds.2.antisymm (hcross.trans h'.bounds.1)
  have hlow := h'.bounds.1.antisymm (h.bounds.2.trans hcross)
  have heq : b.rounding.high = b'.rounding.low * 2 ^ k := by
    rw [← hlow, hscale] at hhigh
    have heq := mul_right_cancel₀ htwo.ne' hhigh
    exact_mod_cast heq.symm
  have hclosed := hopen heq (h.closed_of_eq (.inr hhigh))
  rw [h'.closed_of_eq (.inl hlow.symm)] at hclosed
  cases hclosed

theorem Binary.eq_of_holds (hb : b.Normal) (hb' : b'.Normal) (h : b.rounding.Holds v)
    (h' : b'.rounding.Holds v) :
    b = b' := by
  rcases Int.lt_trichotomy b.exponent b'.exponent with hexponent | hexponent | hexponent
  · exact absurd h' (not_holds_of_lt hb hb' (.inl hexponent) h)
  · rcases Nat.lt_trichotomy b.significand b'.significand with hlt | heq | hgt
    · exact absurd h' (not_holds_of_lt hb hb' (.inr ⟨hexponent, hlt⟩) h)
    · obtain ⟨_, _⟩ := b
      obtain ⟨_, _⟩ := b'
      rw [Binary.mk.injEq]
      exact ⟨heq, hexponent⟩
    · exact absurd h (not_holds_of_lt hb' hb (.inr ⟨hexponent.symm, hgt⟩) h')
  · exact absurd h (not_holds_of_lt hb' hb (.inl hexponent) h')

end Binary

end DataPipeline.Decimal
