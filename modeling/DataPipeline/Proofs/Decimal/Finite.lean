import DataPipeline.Decimal.Binary
import Mathlib

namespace DataPipeline.Decimal

open Float.Model Float.Model.UnpackedFloat

/-- Zero, or a magnitude that a double can hold. -/
inductive Bounded : UnpackedFloat → Prop
  | zero {s : Sign} : Bounded (.zero s)
  | finite {s : Sign} {m : Nat} {e : Int} {hm : 0 < m} (bits : m.log2 ≤ 52)
      (exponent : e ≤ 971) :
    Bounded (.finite s m e hm)

/-- A magnitude of at least two. -/
inductive Large : UnpackedFloat → Prop
  | finite {s : Sign} {m : Nat} {e : Int} {hm : 0 < m} (magnitude : 1 ≤ m.log2 + e) :
    Large (.finite s m e hm)

theorem bounded_finite {s : Sign} {m : Nat} {e : Int} {hm : 0 < m} :
    Bounded (.finite s m e hm) ↔ m.log2 ≤ 52 ∧ e ≤ 971 :=
  ⟨fun | .finite bits exponent => ⟨bits, exponent⟩, fun h => .finite h.1 h.2⟩

theorem large_finite {s : Sign} {m : Nat} {e : Int} {hm : 0 < m} :
    Large (.finite s m e hm) ↔ 1 ≤ m.log2 + e :=
  ⟨fun | .finite magnitude => magnitude, .finite⟩

instance : DecidablePred Bounded
  | .zero _ => isTrue .zero
  | .finite _ _ _ _ => decidable_of_iff' _ bounded_finite
  | .infinity _ | .notANumber => isFalse nofun

instance : DecidablePred Large
  | .finite _ _ _ _ => decidable_of_iff' _ large_finite
  | .zero _ | .infinity _ | .notANumber => isFalse nofun

section Bits

variable {b : BitVec Format.binary64.numBits}

theorem isFinite_unpack :
    (UnpackedFloat.unpack Format.binary64 b).isFinite = true ↔ unpackExponent b ≠ -1#_ := by
  rw [UnpackedFloat.unpack]
  dsimp only
  split
  next h => split <;> exact iff_of_false Bool.false_ne_true (not_not_intro h)
  next h =>
    split
    · split <;> exact iff_of_true rfl h
    · exact iff_of_true rfl h

theorem toNat_implicit (v : BitVec 52) : (1#1 ++ v).toNat = 2 ^ 52 + v.toNat := by
  change 2 ^ 52 ||| v.toNat = _
  rw [Nat.or_comm, Nat.or_two_pow_eq_add_of_lt v.isLt, Nat.add_comm]

theorem log2_implicit (v : BitVec 52) : (1#1 ++ v).toNat.log2 = 52 := by
  have hv : v.toNat < 2 ^ 52 := v.isLt
  rw [toNat_implicit, Nat.log2_eq_iff (by omega)]
  omega

theorem bounded_unpack (h : (UnpackedFloat.unpack Format.binary64 b).isFinite = true) :
    Bounded (UnpackedFloat.unpack Format.binary64 b) := by
  rw [isFinite_unpack] at h
  have hexponent : (unpackExponent b).toNat ≠ 2047 := fun heq => h (BitVec.eq_of_toNat_eq heq)
  have hbits : (unpackExponent b).toNat < 2 ^ 11 := (unpackExponent b).isLt
  rw [UnpackedFloat.unpack]
  dsimp only
  rw [if_neg h]
  split
  next hsubnormal =>
    split
    · exact .zero
    next hzero =>
      -- The exponent of a subnormal double is the least one, though its field is zero.
      have hleast : (unpackExponent b).toNat = 0 := congrArg BitVec.toNat hsubnormal
      have hmantissa : (unpackMantissa b).toNat < 2 ^ 52 := (unpackMantissa b).isLt
      have hpositive : (unpackMantissa b).toNat ≠ 0 :=
        fun heq => hzero (BitVec.eq_of_toNat_eq heq)
      have hlog := (Nat.log2_lt hpositive).2 hmantissa
      apply Bounded.finite (Nat.le_of_lt hlog)
      change ((unpackExponent b).toNat : Int) - (1023 + 52) + 1 ≤ 971
      omega
  · apply Bounded.finite (log2_implicit (unpackMantissa b)).le
    change ((unpackExponent b).toNat : Int) - (1023 + 52) ≤ 971
    omega

end Bits

theorem isFinite_pack {f : UnpackedFloat} (h : Bounded f) :
    (Float.ofModel (.pack f)).isFinite = true := by
  change (UnpackedFloat.unpack Format.binary64
    (UnpackedFloat.pack Format.binary64 f)).isFinite = true
  rw [isFinite_unpack]
  cases h with
  | zero => simp [UnpackedFloat.pack, packedZero]
  | @finite s m e hm hlog he =>
    have hfits : ¬ 2 ^ 11 ≤ (e + 1023 + 52).toNat + 1 := by omega
    change unpackExponent (if 2 ^ 11 ≤ (e + 1023 + 52).toNat + 1 then _ else _) ≠ _
    rw [if_neg hfits]
    split
    · rw [unpackExponent_packComponents, ne_eq, ← BitVec.toNat_inj, BitVec.toNat_ofNat]
      change ¬ (e + 1023 + 52).toNat % 2 ^ 11 = 2047
      omega
    · simp

theorem isInf_pack {s : Sign} {m : Nat} {e : Int} (hm : 0 < m) (he : 971 < e) :
    (Float.ofModel (.pack (.finite s m e hm))).isInf = true := by
  have hlarge : 2 ^ 11 ≤ (e + 1023 + 52).toNat + 1 := by omega
  have hpack : UnpackedFloat.pack Format.binary64 (.finite s m e hm) = packedInfinity _ s :=
    if_pos hlarge
  change (UnpackedFloat.unpack Format.binary64 (UnpackedFloat.pack Format.binary64 _)).isInf =
    true
  rw [hpack, packedInfinity, UnpackedFloat.unpack]
  simp only [unpackExponent_packComponents, unpackMantissa_packComponents]
  rfl

/-- A normal double is unpacked with the exponent it was packed with. -/
theorem unpack_pack (s : Sign) {m : Nat} {e : Int} (hm : 0 < m) (hlog : m.log2 = 52)
    (hlow : -1074 ≤ e) (hhigh : e ≤ 971) :
    ∃ s' m' h, (Float.Model.pack (.finite s m e hm)).unpack = .finite s' m' e h ∧
      m'.log2 = 52 := by
  obtain ⟨biased, hbiased⟩ : ∃ biased : Nat, e = biased - 1075 := ⟨(e + 1075).toNat, by omega⟩
  have hto : (e + 1023 + 52).toNat = biased := by omega
  have hpack : UnpackedFloat.pack Format.binary64 (.finite s m e hm) =
      packComponents Format.binary64 s (BitVec.ofNat 11 biased) (BitVec.ofNat 52 m) := by
    change (if 2 ^ 11 ≤ (e + 1023 + 52).toNat + 1 then _
      else if m.log2 + 1 = 53 then
        packComponents Format.binary64 s (BitVec.ofNat 11 (e + 1023 + 52).toNat)
          (BitVec.ofNat 52 m)
      else _) = _
    rw [hto, if_neg (by omega), if_pos (by omega)]
  have htoNat : (BitVec.ofNat 11 biased).toNat = biased := by
    rw [BitVec.toNat_ofNat]
    exact Nat.mod_eq_of_lt (by omega)
  have hother (field : BitVec 11) (h : field.toNat ≠ biased) :
      BitVec.ofNat 11 biased ≠ field := by
    rintro rfl
    exact h htoNat
  have hones : BitVec.ofNat 11 biased ≠ -1#11 := hother _ (by change 2047 ≠ biased; omega)
  have hzero : BitVec.ofNat 11 biased ≠ 0#11 := hother _ (by change 0 ≠ biased; omega)
  change ∃ s' m' h, UnpackedFloat.unpack Format.binary64
    (UnpackedFloat.pack Format.binary64 (.finite s m e hm)) = .finite s' m' e h ∧ m'.log2 = 52
  rw [hpack, UnpackedFloat.unpack]
  simp only [unpackExponent_packComponents, unpackMantissa_packComponents,
    if_neg hones, if_neg hzero, htoNat]
  subst hbiased
  refine ⟨_, _, ?_, rfl, log2_implicit _⟩
  rw [toNat_implicit]
  omega

section Rounding

theorem log2_div_pow (m n : Nat) : (m / 2 ^ n).log2 = m.log2 - n := by
  rw [Nat.log2_eq_log_two, Nat.log2_eq_log_two, Nat.log_div_base_pow]

theorem log2_le_of_le {m r : Nat} (h : m ≤ r) : m.log2 ≤ r.log2 := by
  rw [Nat.log2_eq_log_two, Nat.log2_eq_log_two]
  exact Nat.log_mono_right h

theorem log2_le_succ {m r : Nat} (h : r ≤ m + 1) : r.log2 ≤ m.log2 + 1 := by
  by_cases hm : m = 0
  · subst hm
    have hr : r.log2 ≤ Nat.log2 1 := log2_le_of_le h
    exact hr.trans (Nat.zero_le _)
  · have hr : r ≤ 2 * m := by omega
    rw [← Nat.log2_two_mul hm]
    exact log2_le_of_le hr

theorem log2_shiftLeft_le (m n : Nat) : (m <<< n).log2 ≤ m.log2 + n := by
  have h := log2_div_pow (m <<< n) n
  rw [Nat.shiftLeft_eq, Nat.mul_div_cancel _ (Nat.two_pow_pos n)] at h
  rw [Nat.shiftLeft_eq]
  omega

theorem log2_div_le (m : Nat) {n : Nat} (h : 0 < n) : (m / n).log2 ≤ m.log2 - n.log2 := by
  rw [← log2_div_pow]
  exact log2_le_of_le
    (Nat.div_le_div_left (Nat.log2_self_le (Nat.ne_of_gt h)) (Nat.two_pow_pos _))

theorem mantissa_shiftRight (em : ExtendedMantissa) (n : Nat) :
    (em >>> n).mantissa = em.mantissa / 2 ^ n := by
  change (n.repeat ExtendedMantissa.shiftRightOne em).mantissa = _
  induction n with
  | zero => rw [Nat.repeat, Nat.pow_zero, Nat.div_one]
  | succ n ih =>
    rw [Nat.repeat, ExtendedMantissa.shiftRightOne, ih, Nat.div_div_eq_div_mul, ← Nat.pow_succ]

theorem mantissa_ofMantissaAndAccuracy (m : Nat) (acc : Accuracy) :
    (ExtendedMantissa.ofMantissaAndAccuracy m acc).mantissa = m := by
  unfold ExtendedMantissa.ofMantissaAndAccuracy
  split <;> rfl

theorem roundedMantissa_bounds (em : ExtendedMantissa) :
    em.mantissa ≤ em.roundedMantissa ∧ em.roundedMantissa ≤ em.mantissa + 1 := by
  rw [ExtendedMantissa.roundedMantissa]
  unfold Accuracy.roundToNearestEven
  split <;> omega

/-- How many bits of a magnitude a double leaves out. -/
def surplus (m : Nat) (e : Int) : Nat :=
  (Format.binary64.targetExponent (totalExponent m e) - e).toNat

theorem surplus_eq (m : Nat) (e : Int) : surplus m e = max (m.log2 - 52) (-1074 - e).toNat := by
  change (max ((m.log2 : Int) + 1 + e - (1 + 52 : Nat))
    (3 - 2 ^ 10 - (1 + 52 : Nat)) - e).toNat = _
  omega

/-- Surplus bits are dropped, what is left is rounded down or up, and if it takes one bit more
then, that is dropped as well. -/
theorem roundWithAccuracy_spec (s : Sign) (m : Nat) (e : Int) (acc : Accuracy) :
    ∃ r, m / 2 ^ surplus m e ≤ r ∧ r ≤ m / 2 ^ surplus m e + 1 ∧
      roundWithAccuracy Format.binary64 s m e acc =
        if h : r / 2 ^ surplus r (e + surplus m e) = 0 then .zero s
        else .finite s (r / 2 ^ surplus r (e + surplus m e))
          (e + surplus m e + surplus r (e + surplus m e)) (Nat.pos_of_ne_zero h) := by
  let em := ExtendedMantissa.ofMantissaAndAccuracy m acc >>> surplus m e
  have hem : em.mantissa = m / 2 ^ surplus m e := by
    rw [mantissa_shiftRight, mantissa_ofMantissaAndAccuracy]
  obtain ⟨hlow, hhigh⟩ := roundedMantissa_bounds em
  rw [hem] at hlow hhigh
  refine ⟨em.roundedMantissa, hlow, hhigh, ?_⟩
  -- Nothing is rounded the second time: the bit that is dropped is a zero.
  let last := ExtendedMantissa.ofMantissaAndAccuracy em.roundedMantissa .exact >>>
    surplus em.roundedMantissa (e + surplus m e)
  have hlast : last.mantissa =
      em.roundedMantissa / 2 ^ surplus em.roundedMantissa (e + surplus m e) := by
    rw [mantissa_shiftRight, mantissa_ofMantissaAndAccuracy]
  change (if h : last.mantissa = 0 then _ else UnpackedFloat.finite s last.mantissa _ _) = _
  simp only [hlast]
  rfl

theorem roundWithAccuracy_bounds (s : Sign) (m : Nat) (e : Int) (acc : Accuracy) :
    roundWithAccuracy Format.binary64 s m e acc = .zero s ∨
      ∃ m' e' h, roundWithAccuracy Format.binary64 s m e acc = .finite s m' e' h ∧
        m'.log2 ≤ 52 ∧
        (e' ≤ e ∨ e' ≤ -1074 ∨ e' ≤ e + m.log2 - 51) := by
  obtain ⟨r, _, hhigh, heq⟩ := roundWithAccuracy_spec s m e acc
  have hlog := log2_le_succ hhigh
  rw [log2_div_pow] at hlog
  have hfirst := surplus_eq m e
  have hlast := surplus_eq r (e + surplus m e)
  rw [heq]
  split
  · exact .inl rfl
  next hne =>
    have hbits : (r / 2 ^ surplus r (e + surplus m e)).log2 ≤ 52 := by
      rw [log2_div_pow]
      omega
    exact .inr ⟨_, _, Nat.pos_of_ne_zero hne, rfl, hbits, by omega⟩

theorem roundWithAccuracy_full (s : Sign) {m : Nat} {e : Int} (acc : Accuracy)
    (hm : 52 ≤ m.log2) (he : -1074 ≤ e + m.log2 - 52) :
    ∃ m' e' h, roundWithAccuracy Format.binary64 s m e acc = .finite s m' e' h ∧
      m'.log2 = 52 ∧ e + m.log2 - 52 ≤ e' ∧ e' ≤ e + m.log2 - 51 := by
  obtain ⟨r, hlow, hhigh, heq⟩ := roundWithAccuracy_spec s m e acc
  have hlower := log2_le_of_le hlow
  have hupper := log2_le_succ hhigh
  rw [log2_div_pow] at hlower hupper
  have hfirst := surplus_eq m e
  have hlast := surplus_eq r (e + surplus m e)
  have hlog : (r / 2 ^ surplus r (e + surplus m e)).log2 = 52 := by
    rw [log2_div_pow]
    omega
  have hne : r / 2 ^ surplus r (e + surplus m e) ≠ 0 := by
    intro hzero
    rw [hzero] at hlog
    cases hlog
  rw [dif_neg hne] at heq
  exact ⟨_, _, _, heq, hlog, by omega, by omega⟩

theorem bounded_roundWithAccuracy (s : Sign) {m : Nat} {e : Int} (acc : Accuracy)
    (hm : m.log2 + 1 + e ≤ 1023) (he : e ≤ 971) :
    Bounded (roundWithAccuracy Format.binary64 s m e acc) := by
  rcases roundWithAccuracy_bounds s m e acc with heq | ⟨m', e', h, heq, hbits, hexponent⟩
  · rw [heq]
    exact .zero
  · rw [heq]
    exact .finite hbits (by omega)

theorem isFinite_roundWithAccuracy {s : Sign} {m : Nat} {e : Int} {acc : Accuracy}
    (h : (Float.ofModel (.pack (roundWithAccuracy Format.binary64 s m e acc))).isInf = false) :
    (Float.ofModel (.pack (roundWithAccuracy Format.binary64 s m e acc))).isFinite = true := by
  rcases roundWithAccuracy_bounds s m e acc with heq | ⟨m', e', hm, heq, hbits, _⟩
  · rw [heq]
    exact isFinite_pack .zero
  · rw [heq] at h ⊢
    by_cases he : e' ≤ 971
    · exact isFinite_pack (.finite hbits he)
    · rw [isInf_pack hm (by omega)] at h
      cases h

end Rounding

section Operations

variable {x y : Float}

theorem bounded_of_isFinite (h : x.isFinite = true) : Bounded x.toModel.unpack :=
  bounded_unpack h

theorem isFinite_neg (h : x.isFinite = true) : (-x).isFinite = true := by
  have hx := bounded_of_isFinite h
  change (Float.ofModel (.pack x.toModel.unpack.neg)).isFinite = true
  generalize x.toModel.unpack = u at hx ⊢
  cases hx with
  | zero => exact isFinite_pack .zero
  | finite bits exponent => exact isFinite_pack (.finite bits exponent)

theorem isFinite_mul (hx : x.isFinite = true) (hy : Bounded y.toModel.unpack)
    (h : (x * y).isInf = false) : (x * y).isFinite = true := by
  have hx := bounded_of_isFinite hx
  change (Float.ofModel (.pack (UnpackedFloat.mul _ x.toModel.unpack y.toModel.unpack))).isInf =
    false at h
  change (Float.ofModel
    (.pack (UnpackedFloat.mul _ x.toModel.unpack y.toModel.unpack))).isFinite = true
  generalize x.toModel.unpack = u at hx h ⊢
  generalize y.toModel.unpack = v at hy h ⊢
  cases hx with
  | zero => cases hy <;> exact isFinite_pack .zero
  | finite =>
    cases hy with
    | zero => exact isFinite_pack .zero
    | finite => exact isFinite_roundWithAccuracy h

/-- A number that is divided by two or more stays a number. -/
theorem isFinite_div (hx : x.isFinite = true) (hy : Large y.toModel.unpack) :
    (x / y).isFinite = true := by
  have hx := bounded_of_isFinite hx
  change (Float.ofModel
    (.pack (UnpackedFloat.div _ x.toModel.unpack y.toModel.unpack))).isFinite = true
  generalize x.toModel.unpack = u at hx ⊢
  generalize y.toModel.unpack = v at hy ⊢
  apply isFinite_pack
  cases hy with
  | @finite s' n e' hn hlarge =>
    cases hx with
    | zero => exact .zero
    | @finite s m e hm hlog he =>
      -- The quotient is computed to so many bits that its exponent is the one below.
      obtain ⟨target, htarget⟩ : ∃ target, target = min (e - e')
        (max (((m.log2 : Int) + 1 + e) - (n.log2 + 1 + e') - 53) (-1074)) := ⟨_, rfl⟩
      have hdiv : UnpackedFloat.div Format.binary64 (.finite s m e hm) (.finite s' n e' hn) =
          roundWithAccuracy Format.binary64 (s / s')
            ((m <<< (e - e' - target).toNat) / n) target
            (accuracyOfFraction ((m <<< (e - e' - target).toNat) % n) n) := by
        rw [htarget]
        rfl
      have hquotient := log2_div_le (m <<< (e - e' - target).toNat) hn
      have hshift := log2_shiftLeft_le m (e - e' - target).toNat
      rw [hdiv]
      apply bounded_roundWithAccuracy <;> omega

theorem bounded_round (s : Sign) {m : Nat} (h : m < 2 ^ 64) :
    Bounded (UnpackedFloat.round Format.binary64 s m 0) := by
  have hlog : m.log2 < 64 := by
    by_cases hm : m = 0
    · subst hm
      decide
    · exact (Nat.log2_lt hm).2 h
  have hshift := log2_shiftLeft_le m
    (0 - Format.binary64.targetExponent (totalExponent m 0)).toNat
  apply bounded_roundWithAccuracy <;> omega

theorem isFinite_toFloat (n : UInt64) : n.toFloat.isFinite = true := by
  have hn : n.toNat < 2 ^ 64 := n.toNat_lt
  apply isFinite_pack
  change Bounded (UnpackedFloat.normalize Format.binary64 (n.toNat : Int) 0 .positive)
  unfold UnpackedFloat.normalize
  split
  · exact bounded_round _ (by omega)
  · exact .zero
  · exact bounded_round _ (by omega)

end Operations

end DataPipeline.Decimal
