import DataPipeline.Proofs.Decimal.Rounding

namespace DataPipeline.Decimal

open Float.Model

section Text

variable {cs ds fraction exponent rest : List Char} {place : Int} {c stop : Char}

/-- A signed whole number. -/
def signedOf : List Char → Int
  | '-' :: ds => -(Nat.ofDigitChars 10 ds 0 : Int)
  | '+' :: ds => Nat.ofDigitChars 10 ds 0
  | ds => Nat.ofDigitChars 10 ds 0

/-- The number that a text stands for: digits before and after a point, and an exponent. -/
def magnitude (cs : List Char) : ℚ :=
  let mantissa := cs.takeWhile (· ≠ 'e')
  let exponent := (cs.dropWhile (· ≠ 'e')).tail
  let whole := mantissa.takeWhile (· ≠ '.')
  let fraction := (mantissa.dropWhile (· ≠ '.')).tail
  Nat.ofDigitChars 10 (whole ++ fraction) 0 * 10 ^ (signedOf exponent - fraction.length)

/-- What may follow characters that are read up to one. -/
def Stops (stop : Char) (rest tail : List Char) : Prop :=
  rest = [] ∧ tail = [] ∨ rest = stop :: tail

theorem Stops.takeWhile {tail : List Char} (h : Stops stop rest tail) (hcs : stop ∉ cs) :
    (cs ++ rest).takeWhile (· ≠ stop) = cs ∧
    ((cs ++ rest).dropWhile (· ≠ stop)).tail = tail := by
  have hall : ∀ c ∈ cs, decide (c ≠ stop) = true := by
    intro c hc
    rw [decide_eq_true_eq]
    rintro rfl
    exact hcs hc
  rw [List.takeWhile_append_of_pos hall, List.dropWhile_append_of_pos hall]
  rcases h with ⟨rfl, rfl⟩ | rfl <;> simp

theorem Stops.notMem {tail : List Char} (h : Stops stop rest tail) (hstop : c ≠ stop)
    (htail : c ∉ tail) :
    c ∉ rest := by
  rcases h with ⟨rfl, rfl⟩ | rfl
  · exact htail
  · rw [List.mem_cons, not_or]
    exact ⟨hstop, htail⟩

theorem magnitude_eq (whole : List Char) {point power : List Char}
    (hpoint : Stops '.' point fraction) (hpower : Stops 'e' power exponent)
    (hwhole : '.' ∉ whole) (he : 'e' ∉ whole) (he' : 'e' ∉ fraction) :
    magnitude (whole ++ point ++ power) =
      Nat.ofDigitChars 10 (whole ++ fraction) 0 * 10 ^
        (signedOf exponent - fraction.length) := by
  have hmark : 'e' ∉ whole ++ point := by
    rw [List.mem_append, not_or]
    exact ⟨he, hpoint.notMem (by decide) he'⟩
  obtain ⟨hmantissa, hexponent⟩ := hpower.takeWhile hmark
  obtain ⟨hfront, hback⟩ := hpoint.takeWhile hwhole
  rw [magnitude, hmantissa, hexponent, hfront, hback]

theorem notMem_of_isDigit (hds : ∀ c ∈ ds, c.isDigit = true) (hc : c.isDigit = false) :
    c ∉ ds := by
  intro hmem
  rw [hds c hmem] at hc
  cases hc

theorem isDigit_of_mem_natChars {n : Nat} (h : c ∈ natChars n) : c.isDigit = true := by
  rw [natChars, Nat.toString_eq_repr, Nat.toList_repr] at h
  exact Nat.isDigit_of_mem_toDigits (by decide) (by decide) h

theorem ofDigitChars_natChars (n : Nat) : Nat.ofDigitChars 10 (natChars n) 0 = n := by
  rw [natChars, Nat.toString_eq_repr, Nat.toList_repr, Nat.ofDigitChars_ten_toDigits]

theorem natChars_ne_nil (n : Nat) : natChars n ≠ [] := by
  rw [natChars, Nat.toString_eq_repr, Nat.toList_repr]
  exact Nat.toDigits_ne_nil

theorem ofDigitChars_zeros (ds : List Char) (before after : Nat) :
    Nat.ofDigitChars 10 (List.replicate before '0' ++ ds ++ List.replicate after '0') 0 =
      Nat.ofDigitChars 10 ds 0 * 10 ^ after := by
  rw [Nat.ofDigitChars_append, Nat.ofDigitChars_append, Nat.ofDigitChars_replicate_zero,
    Nat.ofDigitChars_replicate_zero, Nat.mul_zero, Nat.mul_comm]

theorem signedOf_natAbs (place : Int) :
    signedOf ((if place < 0 then ['-'] else ['+']) ++ natChars place.natAbs) = place := by
  split
  · change -(Nat.ofDigitChars 10 (natChars place.natAbs) 0 : Int) = place
    rw [ofDigitChars_natChars]
    omega
  · change (Nat.ofDigitChars 10 (natChars place.natAbs) 0 : Int) = place
    rw [ofDigitChars_natChars]
    omega

section Layout

variable (hds : ∀ c ∈ ds, c.isDigit = true)

include hds

theorem magnitude_scientific (hne : ds ≠ []) (place : Int) :
    magnitude (ds.take 1 ++ (if ds.tail.isEmpty then [] else '.' :: ds.tail) ++
        ('e' :: ((if place < 0 then ['-'] else ['+']) ++ natChars place.natAbs))) =
      Nat.ofDigitChars 10 ds 0 * 10 ^ (place + 1 - ds.length) := by
  have hlength : 0 < ds.length := List.length_pos_iff.2 hne
  have htail : Stops '.' (if ds.tail.isEmpty then [] else '.' :: ds.tail) ds.tail := by
    split
    next h => exact .inl ⟨rfl, List.isEmpty_iff.1 h⟩
    next h => exact .inr rfl
  have hpoint : '.' ∉ ds := notMem_of_isDigit hds rfl
  have he : 'e' ∉ ds := notMem_of_isDigit hds rfl
  rw [magnitude_eq (ds.take 1) htail (.inr rfl) (fun h => hpoint (List.mem_of_mem_take h))
    (fun h => he (List.mem_of_mem_take h)) (fun h => he (List.mem_of_mem_tail h)),
    signedOf_natAbs, List.length_tail, ← List.drop_one, List.take_append_drop,
    Nat.cast_sub hlength]
  congr 2
  omega

theorem magnitude_small (k : Nat) :
    magnitude (['0', '.'] ++ List.replicate k '0' ++ ds) =
      Nat.ofDigitChars 10 ds 0 * 10 ^ (-(k : Int) - ds.length) := by
  have hfraction : Stops '.' ('.' :: (List.replicate k '0' ++ ds)) _ := .inr rfl
  have he : 'e' ∉ ds := notMem_of_isDigit hds rfl
  have hvalue :=
    magnitude_eq ['0'] hfraction (.inl ⟨rfl, rfl⟩) (by decide) (by decide) (by simp [he])
  have hzeros := ofDigitChars_zeros ds (k + 1) 0
  rw [List.replicate_succ, List.replicate_zero, List.append_nil, Nat.pow_zero,
    Nat.mul_one] at hzeros
  rw [List.append_nil, List.length_append, List.length_replicate] at hvalue
  refine hvalue.trans (congrArg₂ (· * ·) (congrArg Nat.cast hzeros) (congrArg _ ?_))
  change (0 : Int) - _ = _
  omega

theorem magnitude_whole (k : Nat) :
    magnitude (ds ++ List.replicate k '0' ++ ['.', '0']) =
      Nat.ofDigitChars 10 ds 0 * 10 ^ (k : Int) := by
  have hfraction : Stops '.' ['.', '0'] ['0'] := .inr rfl
  have hpoint : '.' ∉ ds := notMem_of_isDigit hds rfl
  have he : 'e' ∉ ds := notMem_of_isDigit hds rfl
  have hvalue :=
    magnitude_eq (ds ++ List.replicate k '0') hfraction (.inl ⟨rfl, rfl⟩) (by simp [hpoint])
      (by simp [he]) (by decide)
  have hzeros := ofDigitChars_zeros ds 0 (k + 1)
  rw [List.replicate_zero, List.nil_append, List.replicate_succ', ← List.append_assoc] at hzeros
  rw [List.append_nil, hzeros] at hvalue
  refine hvalue.trans ?_
  rw [Nat.cast_mul, Nat.cast_pow, mul_assoc, ← zpow_natCast, Nat.cast_ofNat,
    ← zpow_add₀ (by decide)]
  congr 2
  change ((k + 1 : Nat) : Int) + (0 - 1) = k
  omega

theorem magnitude_pointed (k : Nat) :
    magnitude (ds.take k ++ ['.'] ++ ds.drop k) =
      Nat.ofDigitChars 10 ds 0 * 10 ^ (-((ds.length - k : Nat) : Int)) := by
  have hfraction : Stops '.' ('.' :: ds.drop k) _ := .inr rfl
  have he : 'e' ∉ ds := notMem_of_isDigit hds rfl
  have hpoint : '.' ∉ ds := notMem_of_isDigit hds rfl
  have hvalue :=
    magnitude_eq (ds.take k) hfraction (.inl ⟨rfl, rfl⟩)
      (fun h => hpoint (List.mem_of_mem_take h))
    (fun h => he (List.mem_of_mem_take h)) (fun h => he (List.mem_of_mem_drop h))
  rw [List.append_nil, List.take_append_drop, List.length_drop] at hvalue
  rw [List.append_assoc]
  refine hvalue.trans ?_
  congr 2
  exact Int.zero_sub _

/-- However digits are laid out, they stand for the same number. -/
theorem magnitude_layout (hne : ds ≠ []) (place : Int) :
    magnitude (layout ds place) = Nat.ofDigitChars 10 ds 0 * 10 ^ (place + 1 - ds.length) := by
  unfold layout
  split
  · simpa using magnitude_scientific hds hne place
  split
  next hplace =>
    rw [magnitude_small hds]
    congr 2
    omega
  next hplace =>
    dsimp only
    split
    next hle =>
      rw [magnitude_whole hds]
      congr 2
      omega
    next hgt =>
      rw [magnitude_pointed hds]
      congr 2
      omega

end Layout

theorem magnitude_shortest (d : Digits) :
    magnitude (layout (natChars d.digits) (d.exponent + (natChars d.digits).length - 1)) =
      d.value := by
  rw [magnitude_layout (fun c => isDigit_of_mem_natChars) (natChars_ne_nil _),
    ofDigitChars_natChars, Digits.value]
  congr 2
  omega

end Text

section Double

variable {x y : Float} {b b' : Binary} {v : ℚ}

/-- The bits of a double but for its sign, from its magnitude. -/
def Binary.bits (b : Binary) : Nat :=
  if b.significand < 2 ^ 52 then b.significand
  else (b.exponent + 1074).toNat * 2 ^ 52 + b.significand

theorem Binary.ofFloat?_eq_some (h : ofFloat? x = some b) :
    b.Normal ∧ x.toBits.toNat % 2 ^ 63 = b.bits := by
  have hlimit : Word.limit 52 = 2 ^ 52 := rfl
  have hlimit' : Word.limit 11 = 2 ^ 11 := rfl
  unfold ofFloat? at h
  rw [hlimit, hlimit'] at h
  dsimp only at h
  split at h
  · cases h
  split at h
  · cases h
    have hfraction : x.toBits.toNat % 2 ^ 52 < 2 ^ 52 := Nat.mod_lt _ (by decide)
    have hbits : (⟨x.toBits.toNat % 2 ^ 52, -1074⟩ : Binary).bits = x.toBits.toNat % 2 ^ 52 :=
      if_pos hfraction
    rw [hbits]
    exact ⟨⟨hfraction.trans (by decide), Int.le_refl _, .inl rfl⟩, by omega⟩
  next hfield =>
    cases h
    rw [bits, if_neg (Nat.not_lt.2 (Nat.le_add_right _ _))]
    refine ⟨⟨?_, ?_, .inr (Nat.le_add_right _ _)⟩, ?_⟩ <;> dsimp only <;> omega

theorem isNegative_iff : isNegative x = true ↔ 2 ^ 63 ≤ x.toBits.toNat := by
  have hbits := x.toBits.toNat_lt
  have hshift : (x.toBits >>> 63).toNat = x.toBits.toNat / 2 ^ 63 := by
    rw [UInt64.toNat_shiftRight, Nat.shiftRight_eq_div_pow]
    rfl
  rw [isNegative, beq_iff_eq, ← UInt64.toNat_inj, hshift]
  change x.toBits.toNat / 2 ^ 63 = 1 ↔ _
  omega

theorem eq_of_ofFloat? (hx : Binary.ofFloat? x = some b) (hy : Binary.ofFloat? y = some b)
    (hsign : isNegative x = isNegative y) : x = y := by
  have hx := (Binary.ofFloat?_eq_some hx).2
  have hy := (Binary.ofFloat?_eq_some hy).2
  have hbits := x.toBits.toNat_lt
  have hbits' := y.toBits.toNat_lt
  rw [Bool.eq_iff_iff, isNegative_iff, isNegative_iff] at hsign
  have heq : x.toBits = y.toBits := by
    rw [← UInt64.toNat_inj]
    omega
  obtain ⟨⟨bits, _⟩⟩ := x
  obtain ⟨⟨bits', _⟩⟩ := y
  cases heq
  rfl

theorem ofFloat?_of_isFinite (h : x.isFinite = true) : ∃ b, Binary.ofFloat? x = some b := by
  have hexponent := (isFinite_unpack (b := x.toBits.toBitVec)).1 h
  have hfield : x.toBits.toNat / Word.limit 52 % Word.limit 11 ≠ 2047 := by
    intro heq
    apply hexponent
    apply BitVec.eq_of_toNat_eq
    change (BitVec.cast _ (BitVec.extractLsb (52 + 11 - 1) 52 x.toBits.toBitVec)).toNat = 2047
    rw [BitVec.toNat_cast, BitVec.extractLsb_toNat, Nat.shiftRight_eq_div_pow]
    exact heq
  unfold Binary.ofFloat?
  dsimp only
  rw [if_neg hfield]
  split <;> exact ⟨_, rfl⟩

/-- The text of a double without its sign. -/
def bodyChars (b : Binary) : List Char :=
  if b.significand = 0 then ['0', '.', '0']
  else layout (natChars b.shortest.digits)
    (b.shortest.exponent + (natChars b.shortest.digits).length - 1)

theorem shortestChars_eq (h : Binary.ofFloat? x = some b) :
    shortestChars x = (if isNegative x then ['-'] else []) ++ bodyChars b := by
  unfold shortestChars bodyChars
  rw [h]
  dsimp only
  split <;> rfl

theorem Binary.magnitude_bodyChars (hb : b.Normal) (hpos : 0 < b.significand) :
    b.rounding.Holds (magnitude (bodyChars b)) := by
  rw [bodyChars, if_neg hpos.ne', magnitude_shortest]
  exact holds_shortest hb hpos

theorem Binary.magnitude_pos (hb : b.Normal) (hpos : 0 < b.significand) :
    0 < magnitude (bodyChars b) := by
  have hlow : 0 < b.rounding.low := by
    unfold rounding
    dsimp only
    split <;> omega
  have hlow' : (0 : ℚ) < b.rounding.low * 2 ^ b.rounding.scale := by positivity
  exact hlow'.trans_le (magnitude_bodyChars hb hpos).bounds.1

theorem magnitude_zero : magnitude ['0', '.', '0'] = 0 := by
  have hfraction : Stops '.' ['.', '0'] ['0'] := .inr rfl
  have hvalue :=
    magnitude_eq ['0'] hfraction (.inl ⟨rfl, rfl⟩) (by decide) (by decide) (by decide)
  refine hvalue.trans ?_
  change ((0 : Nat) : ℚ) * _ = 0
  rw [Nat.cast_zero, zero_mul]

/-- No two magnitudes have the same text. -/
theorem Binary.eq_of_bodyChars (hb : b.Normal) (hb' : b'.Normal)
    (h : bodyChars b = bodyChars b') : b = b' := by
  have hzero {b : Binary} (hb : b.significand = 0) : magnitude (bodyChars b) = 0 := by
    rw [bodyChars, if_pos hb, magnitude_zero]
  rcases Nat.eq_zero_or_pos b.significand with hb₀ | hpos
  · rcases Nat.eq_zero_or_pos b'.significand with hb₀' | hpos'
    · obtain ⟨_, _⟩ := b
      obtain ⟨_, _⟩ := b'
      have hexponent := hb.full.resolve_right (by omega)
      have hexponent' := hb'.full.resolve_right (by omega)
      rw [Binary.mk.injEq]
      exact ⟨hb₀.trans hb₀'.symm, hexponent.trans hexponent'.symm⟩
    · have hlt := magnitude_pos hb' hpos'
      rw [← h, hzero hb₀] at hlt
      exact absurd hlt (lt_irrefl 0)
  · rcases Nat.eq_zero_or_pos b'.significand with hb₀' | hpos'
    · have hlt := magnitude_pos hb hpos
      rw [h, hzero hb₀'] at hlt
      exact absurd hlt (lt_irrefl 0)
    · apply eq_of_holds hb hb' (magnitude_bodyChars hb hpos)
      rw [h]
      exact magnitude_bodyChars hb' hpos'

end Double

section Characters

/-- The characters that numbers are written with. -/
def isNumeric (c : Char) : Bool := c.isDigit || c ∈ ['-', '+', '.', 'e']

theorem isNumeric_of_isDigit {c : Char} (h : c.isDigit = true) : isNumeric c = true := by
  rw [isNumeric, h, Bool.true_or]

section Layout

variable {ds : List Char}

theorem layout_head (hds : ∀ c ∈ ds, c.isDigit = true) (hne : ds ≠ []) (place : Int) :
    ∃ c cs, layout ds place = c :: cs ∧ c.isDigit = true := by
  obtain ⟨d, tail, rfl⟩ := List.exists_cons_of_ne_nil hne
  have hd := hds d List.mem_cons_self
  unfold layout
  dsimp only
  split
  · exact ⟨d, _, rfl, hd⟩
  split
  · exact ⟨'0', _, rfl, rfl⟩
  split
  · exact ⟨d, _, rfl, hd⟩
  · exact ⟨d, _, rfl, hd⟩

theorem isNumeric_of_mem_layout (hds : ∀ c ∈ ds, c.isDigit = true) (place : Int) :
    ∀ c ∈ layout ds place, isNumeric c = true := by
  have hdigits : ∀ c ∈ ds, isNumeric c = true := fun c hc => isNumeric_of_isDigit (hds c hc)
  have hfront (k : Nat) : ∀ c ∈ ds.take k, isNumeric c = true :=
    fun c hc => hdigits c (List.mem_of_mem_take hc)
  have hback (k : Nat) : ∀ c ∈ ds.drop k, isNumeric c = true :=
    fun c hc => hdigits c (List.mem_of_mem_drop hc)
  have hpower (n : Nat) : ∀ c ∈ natChars n, isNumeric c = true :=
    fun c hc => isNumeric_of_isDigit (isDigit_of_mem_natChars hc)
  have hzeros (n : Nat) : ∀ c ∈ List.replicate n '0', isNumeric c = true := by
    intro c hc
    rw [List.eq_of_mem_replicate hc]
    rfl
  unfold layout
  dsimp only
  rw [← List.drop_one]
  split
  · simp only [List.forall_mem_append]
    refine ⟨⟨⟨⟨hfront 1, ?_⟩, List.forall_mem_singleton.2 rfl⟩, ?_⟩, hpower _⟩
    · split
      · nofun
      · exact List.forall_mem_cons.2 ⟨rfl, hback 1⟩
    · split <;> exact List.forall_mem_singleton.2 rfl
  split
  · simp only [List.forall_mem_append]
    exact ⟨⟨by simp [isNumeric], hzeros _⟩, hdigits⟩
  split
  · simp only [List.forall_mem_append]
    exact ⟨⟨hdigits, hzeros _⟩, by simp [isNumeric]⟩
  · simp only [List.forall_mem_append]
    exact ⟨⟨hfront _, List.forall_mem_singleton.2 rfl⟩, hback _⟩

theorem mark_mem_layout (ds : List Char) (place : Int) :
    '.' ∈ layout ds place ∨ 'e' ∈ layout ds place := by
  unfold layout
  dsimp only
  split
  · exact .inr (by simp)
  split
  · exact .inl (by simp)
  split
  · exact .inl (by simp)
  · exact .inl (by simp)

end Layout

variable {b : Binary} {x y : Float}

theorem bodyChars_head (b : Binary) : ∃ c cs, bodyChars b = c :: cs ∧ c.isDigit = true := by
  unfold bodyChars
  split
  · exact ⟨'0', _, rfl, rfl⟩
  · exact layout_head (fun c => isDigit_of_mem_natChars) (natChars_ne_nil _) _

theorem isNumeric_of_mem_bodyChars (b : Binary) : ∀ c ∈ bodyChars b, isNumeric c = true := by
  unfold bodyChars
  split
  · simp [isNumeric]
  · exact isNumeric_of_mem_layout (fun c => isDigit_of_mem_natChars) _

theorem mark_mem_bodyChars (b : Binary) : '.' ∈ bodyChars b ∨ 'e' ∈ bodyChars b := by
  unfold bodyChars
  split
  · exact .inl (by decide)
  · exact mark_mem_layout _ _

theorem isNumeric_of_mem_shortestChars (hx : x.isFinite = true) :
    ∀ c ∈ shortestChars x, isNumeric c = true := by
  obtain ⟨b, hb⟩ := ofFloat?_of_isFinite hx
  rw [shortestChars_eq hb, List.forall_mem_append]
  refine ⟨?_, isNumeric_of_mem_bodyChars b⟩
  split
  · exact List.forall_mem_singleton.2 rfl
  · nofun

theorem mark_mem_shortestChars (hx : x.isFinite = true) :
    '.' ∈ shortestChars x ∨ 'e' ∈ shortestChars x := by
  obtain ⟨b, hb⟩ := ofFloat?_of_isFinite hx
  rw [shortestChars_eq hb, List.mem_append, List.mem_append]
  exact (mark_mem_bodyChars b).imp .inr .inr

theorem shortestChars_inj (hx : x.isFinite = true) (hy : y.isFinite = true)
    (h : shortestChars x = shortestChars y) : x = y := by
  obtain ⟨b, hb⟩ := ofFloat?_of_isFinite hx
  obtain ⟨b', hb'⟩ := ofFloat?_of_isFinite hy
  rw [shortestChars_eq hb, shortestChars_eq hb'] at h
  obtain ⟨c, cs, hbody, hc⟩ := bodyChars_head b
  obtain ⟨c', cs', hbody', hc'⟩ := bodyChars_head b'
  have hminus (c : Char) (hc : c.isDigit = true) : '-' ≠ c := by
    rintro rfl
    cases hc
  have hparts : isNegative x = isNegative y ∧ bodyChars b = bodyChars b' := by
    cases hsign : isNegative x <;> cases hsign' : isNegative y <;>
      simp [hsign, hsign', hbody, hbody'] at h ⊢
    · exact h
    · exact hminus c hc h.1.symm
    · exact hminus c' hc' h.1
    · exact h
  have heq := Binary.eq_of_bodyChars (Binary.ofFloat?_eq_some hb).1
    (Binary.ofFloat?_eq_some hb').1 hparts.2
  subst heq
  exact eq_of_ofFloat? hb hb' hparts.1

end Characters

end DataPipeline.Decimal
