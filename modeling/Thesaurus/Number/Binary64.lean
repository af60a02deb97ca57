/-!
# Binary numbers of double precision

Finite numbers `± mantissa · 2 ^ exponent` with 53 significant bits, and the few
operations that reading a decimal needs, all in exact integer arithmetic: a
quotient of natural numbers is rounded once, to the nearest such number, and a
tie goes to the even mantissa.

Of all decimals that read back as a given number the one with the fewest digits is
written, and of those the nearest. A decimal reads back when it lies in the interval of
reals that round to the number; the ends of the interval belong to it exactly when the
mantissa is even. For a given number of digits only the two neighbours of the number on
the grid of such decimals have to be tried: if any point of the grid lies in the
interval, so does one of them.

## Main results

* `canonical_of_ofQuotient?`: what a quotient is rounded to has one form.
-/

namespace Thesaurus

/-- A finite number of double precision. Zero has the mantissa `0`. -/
structure Binary64 where
  negative : Bool := false
  mantissa : Nat
  exponent : Int
deriving DecidableEq, Repr, Inhabited

namespace Binary64

/-- A power of two. -/
def twoTo (k : Nat) : Nat := Nat.pow 2 k

theorem twoTo_succ (k : Nat) : twoTo (k + 1) = twoTo k * 2 := rfl

theorem twoTo_add (j k : Nat) : twoTo (j + k) = twoTo j * twoTo k := Nat.pow_add 2 j k

theorem twoTo_pos (k : Nat) : 0 < twoTo k := Nat.two_pow_pos k

theorem twoTo_log2_le {n : Nat} (h : n ≠ 0) : twoTo n.log2 ≤ n := Nat.log2_self_le h

theorem lt_twoTo_log2 (n : Nat) : n < twoTo (n.log2 + 1) := Nat.lt_log2_self

/-- A power of ten. -/
def tenTo (k : Nat) : Nat := Nat.pow 10 k

/-- The least mantissa of 53 bits. -/
def hiddenBit : Nat := twoTo 52

/-- The exponent of the smallest positive number. -/
def minExponent : Int := -1074

/-- The largest exponent of a finite number. -/
def maxExponent : Int := 971

/-- The quotient rounded to the nearest integer, a tie to the even one. -/
def roundDiv (a b : Nat) : Nat :=
  let quotient := a / b
  let rest := a % b
  if b < 2 * rest || (2 * rest == b && quotient % 2 == 1) then quotient + 1 else quotient

theorem roundDiv_bounds (a b : Nat) : a / b ≤ roundDiv a b ∧ roundDiv a b ≤ a / b + 1 := by
  unfold roundDiv
  dsimp only
  split <;> omega

/-- The numerator and denominator of `num / den · 2 ^ -exponent`. -/
def scaled (num den : Nat) (exponent : Int) : Nat × Nat :=
  if 0 ≤ exponent then (num, den * twoTo exponent.toNat)
  else (num * twoTo (-exponent).toNat, den)

/-- The number nearest to `num / den`, where `den` is positive; none if that is
beyond the largest finite number. -/
def ofQuotient? (num den : Nat) : Option Binary64 :=
  if num = 0 then some { mantissa := 0, exponent := minExponent }
  else
    let guess : Int := (Nat.log2 num : Int) - (Nat.log2 den : Int) - 53
    let wide := scaled num den guess
    let exponent := max minExponent (if 2 * hiddenBit ≤ wide.1 / wide.2 then guess + 1 else guess)
    let fraction := scaled num den exponent
    let mantissa := roundDiv fraction.1 fraction.2
    let number : Binary64 :=
      if mantissa = 2 * hiddenBit then { mantissa := hiddenBit, exponent := exponent + 1 }
      else { mantissa := mantissa, exponent := exponent }
    if maxExponent < number.exponent then none else some number

/-- The size of a number as a quotient. -/
def toQuotient (x : Binary64) : Nat × Nat :=
  if 0 ≤ x.exponent then (x.mantissa * twoTo x.exponent.toNat, 1)
  else (x.mantissa, twoTo (-x.exponent).toNat)

/-- The number nearest to a natural number of at most 64 bits. -/
def ofNat64 (n : Nat) : Binary64 :=
  (ofQuotient? n 1).getD default

/-- The product of the sizes, none beyond the finite numbers. -/
def mul? (x y : Binary64) : Option Binary64 :=
  let p := x.toQuotient
  let q := y.toQuotient
  ofQuotient? (p.1 * q.1) (p.2 * q.2)

/-- The quotient of the sizes, for a divisor that is not zero. -/
def div? (x y : Binary64) : Option Binary64 :=
  let p := x.toQuotient
  let q := y.toQuotient
  ofQuotient? (p.1 * q.2) (p.2 * q.1)

/-- The number nearest to a power of ten, for exponents up to 308. -/
def powerOfTen (k : Nat) : Binary64 :=
  (ofQuotient? (tenTo k) 1).getD default

/-- Whether the size is zero. -/
def isZero (x : Binary64) : Bool := x.mantissa == 0

/-! ## Canonical form -/

/-- The integer part of `num / den · 2 ^ -exponent`. -/
def scaledQuotient (num den : Nat) (exponent : Int) : Nat :=
  (scaled num den exponent).1 / (scaled num den exponent).2

theorem scaledQuotient_natCast (num den k : Nat) :
    scaledQuotient num den k = num / (den * twoTo k) := by
  rw [scaledQuotient, scaled, if_pos (Int.natCast_nonneg k)]
  rfl

theorem scaledQuotient_neg (num den k : Nat) :
    scaledQuotient num den (-k) = num * twoTo k / den := by
  cases k with
  | zero => simp [scaledQuotient, scaled, twoTo]
  | succ k =>
      have hneg : ¬ 0 ≤ -((k + 1 : Nat) : Int) := by omega
      rw [scaledQuotient, scaled, if_neg hneg, Int.neg_neg, Int.toNat_natCast]

/-- An exponent that is greater by one halves the quotient. -/
theorem scaledQuotient_succ (num den : Nat) (e : Int) :
    scaledQuotient num den (e + 1) = scaledQuotient num den e / 2 := by
  obtain ⟨k, rfl | rfl⟩ := e.eq_nat_or_neg
  · rw [← Int.natCast_add_one, scaledQuotient_natCast, scaledQuotient_natCast, twoTo_succ,
      ← Nat.mul_assoc, Nat.div_div_eq_div_mul]
  · cases k with
    | zero =>
        show scaledQuotient num den (1 : Nat) = scaledQuotient num den (0 : Nat) / 2
        rw [scaledQuotient_natCast, scaledQuotient_natCast, twoTo_succ, ← Nat.mul_assoc,
          Nat.div_div_eq_div_mul]
    | succ k =>
        have hsucc : -((k + 1 : Nat) : Int) + 1 = -(k : Int) := by omega
        rw [hsucc, scaledQuotient_neg, scaledQuotient_neg, twoTo_succ, ← Nat.mul_assoc,
          Nat.div_div_eq_div_mul, Nat.mul_div_mul_right _ _ (by decide)]

theorem scaledQuotient_le (num den : Nat) {e e' : Int} (h : e ≤ e') :
    scaledQuotient num den e' ≤ scaledQuotient num den e := by
  obtain ⟨j, rfl⟩ := Int.le.dest h
  induction j with
  | zero => simp
  | succ j ih =>
      rw [Int.natCast_add_one, ← Int.add_assoc, scaledQuotient_succ]
      exact Nat.le_trans (Nat.div_le_self _ _) (ih (by omega))

/-- The first guess at the exponent leaves 53 or 54 bits. -/
theorem scaledQuotient_guess {num den : Nat} (hnum : num ≠ 0) (hden : den ≠ 0) :
    let guess : Int := (Nat.log2 num : Int) - (Nat.log2 den : Int) - 53
    hiddenBit ≤ scaledQuotient num den guess ∧ scaledQuotient num den guess < 4 * hiddenBit := by
  intro guess
  have hnumLow := twoTo_log2_le hnum
  have hnumHigh := lt_twoTo_log2 num
  have hdenLow := twoTo_log2_le hden
  have hdenHigh := Nat.le_of_lt (lt_twoTo_log2 den)
  have hpos : 0 < den := Nat.pos_of_ne_zero hden
  have hfour : 4 * hiddenBit = twoTo 54 := by decide
  rw [hfour, hiddenBit]
  obtain ⟨k, hk | hk⟩ := guess.eq_nat_or_neg
  · have hlog : num.log2 = 52 + (den.log2 + 1 + k) := by omega
    have hlog' : num.log2 + 1 = 54 + (den.log2 + k) := by omega
    have hscaled : 0 < den * twoTo k := Nat.mul_pos hpos (twoTo_pos k)
    rw [hk, scaledQuotient_natCast, Nat.le_div_iff_mul_le hscaled,
      Nat.div_lt_iff_lt_mul hscaled]
    constructor
    · calc
        twoTo 52 * (den * twoTo k) ≤ twoTo 52 * (twoTo (den.log2 + 1) * twoTo k) :=
          Nat.mul_le_mul_left _ (Nat.mul_le_mul_right _ hdenHigh)
        _ = twoTo num.log2 := by rw [hlog, twoTo_add 52, twoTo_add (den.log2 + 1)]
        _ ≤ num := hnumLow
    · calc
        num < twoTo (num.log2 + 1) := hnumHigh
        _ = twoTo 54 * (twoTo den.log2 * twoTo k) := by rw [hlog', twoTo_add, twoTo_add]
        _ ≤ twoTo 54 * (den * twoTo k) :=
          Nat.mul_le_mul_left _ (Nat.mul_le_mul_right _ hdenLow)
  · have hlog : 52 + (den.log2 + 1) = num.log2 + k := by omega
    have hlog' : num.log2 + 1 + k = 54 + den.log2 := by omega
    rw [hk, scaledQuotient_neg, Nat.le_div_iff_mul_le hpos, Nat.div_lt_iff_lt_mul hpos]
    constructor
    · calc
        twoTo 52 * den ≤ twoTo 52 * twoTo (den.log2 + 1) := Nat.mul_le_mul_left _ hdenHigh
        _ = twoTo num.log2 * twoTo k := by rw [← twoTo_add, hlog, twoTo_add]
        _ ≤ num * twoTo k := Nat.mul_le_mul_right _ hnumLow
    · calc
        num * twoTo k < twoTo (num.log2 + 1) * twoTo k :=
          Nat.mul_lt_mul_of_pos_right hnumHigh (twoTo_pos k)
        _ = twoTo 54 * twoTo den.log2 := by rw [← twoTo_add, hlog', twoTo_add]
        _ ≤ twoTo 54 * den := Nat.mul_le_mul_left _ hdenLow

/-- The exponent that is chosen leaves 53 bits, or fewer if it is the smallest. -/
theorem scaledQuotient_chosen {num den : Nat} (hnum : num ≠ 0) (hden : den ≠ 0) :
    let guess : Int := (Nat.log2 num : Int) - (Nat.log2 den : Int) - 53
    let exponent := max minExponent
      (if 2 * hiddenBit ≤ scaledQuotient num den guess then guess + 1 else guess)
    scaledQuotient num den exponent < 2 * hiddenBit ∧
      (hiddenBit ≤ scaledQuotient num den exponent ∨ exponent = minExponent) := by
  intro guess exponent
  have hguess : hiddenBit ≤ scaledQuotient num den guess ∧
      scaledQuotient num den guess < 4 * hiddenBit := scaledQuotient_guess hnum hden
  have hnormal : ∃ e, exponent = max minExponent e ∧
      hiddenBit ≤ scaledQuotient num den e ∧ scaledQuotient num den e < 2 * hiddenBit := by
    by_cases hwide : 2 * hiddenBit ≤ scaledQuotient num den guess
    · refine ⟨guess + 1, congrArg (max minExponent) (if_pos hwide), ?_⟩
      rw [scaledQuotient_succ]
      omega
    · exact ⟨guess, congrArg (max minExponent) (if_neg hwide), hguess.1, by omega⟩
  obtain ⟨e, hexponent, hbit, hfits⟩ := hnormal
  rw [hexponent]
  by_cases hsmall : e ≤ minExponent
  · rw [Int.max_eq_left hsmall]
    exact ⟨Nat.lt_of_le_of_lt (scaledQuotient_le num den hsmall) hfits, .inr rfl⟩
  · rw [Int.max_eq_right (by omega)]
    exact ⟨hfits, .inl hbit⟩

/-- A number in the one form that it has: 53 bits, of which the first is set unless the
exponent is the smallest. -/
structure Canonical (x : Binary64) : Prop where
  mantissa_lt : x.mantissa < 2 * hiddenBit
  normal : hiddenBit ≤ x.mantissa ∨ x.exponent = minExponent
  exponent_ge : minExponent ≤ x.exponent
  exponent_le : x.exponent ≤ maxExponent

/-- What a quotient is rounded to is in canonical form. -/
theorem canonical_of_ofQuotient? {num den : Nat} (hden : den ≠ 0) {x : Binary64}
    (h : ofQuotient? num den = some x) : x.Canonical := by
  unfold ofQuotient? at h
  split at h
  · obtain rfl := Option.some.inj h
    exact ⟨by decide, .inr rfl, by decide, by decide⟩
  · next hnum =>
      extract_lets guess wide exponent fraction mantissa number at h
      obtain ⟨hfits, hnormal⟩ := scaledQuotient_chosen hnum hden
      obtain ⟨hdown, hup⟩ := roundDiv_bounds fraction.1 fraction.2
      split at h
      · cases h
      · next hfinite =>
          obtain rfl := Option.some.inj h
          have hsmallest : minExponent ≤ exponent := Int.le_max_left ..
          have hquotient : fraction.1 / fraction.2 < 2 * hiddenBit := hfits
          -- A quotient of nothing but ones is rounded up to the next power of two.
          by_cases hcarry : mantissa = 2 * hiddenBit
          · have hnumber : number = { mantissa := hiddenBit, exponent := exponent + 1 } :=
              if_pos hcarry
            rw [hnumber] at hfinite ⊢
            have hbit : hiddenBit < 2 * hiddenBit := by decide
            exact ⟨hbit, .inl (Nat.le_refl _), Int.le_add_one hsmallest, Int.not_lt.1 hfinite⟩
          · have hnumber : number = { mantissa := mantissa, exponent := exponent } :=
              if_neg hcarry
            have hbound : mantissa ≤ fraction.1 / fraction.2 + 1 := hup
            rw [hnumber] at hfinite ⊢
            refine ⟨?_, hnormal.imp (fun hbit => Nat.le_trans hbit hdown) id, hsmallest,
              Int.not_lt.1 hfinite⟩
            show mantissa < 2 * hiddenBit
            omega

theorem toQuotient_snd_ne_zero (x : Binary64) : x.toQuotient.2 ≠ 0 := by
  unfold toQuotient
  split
  · exact Nat.one_ne_zero
  · exact Nat.ne_of_gt (twoTo_pos _)

theorem toQuotient_fst_ne_zero {x : Binary64} (h : x.mantissa ≠ 0) : x.toQuotient.1 ≠ 0 := by
  unfold toQuotient
  split
  · exact Nat.mul_ne_zero h (Nat.ne_of_gt (twoTo_pos _))
  · exact h

theorem canonical_of_mul? {x y z : Binary64} (h : x.mul? y = some z) : z.Canonical :=
  canonical_of_ofQuotient?
    (Nat.mul_ne_zero x.toQuotient_snd_ne_zero y.toQuotient_snd_ne_zero) h

theorem canonical_of_div? {x y z : Binary64} (hy : y.mantissa ≠ 0) (h : x.div? y = some z) :
    z.Canonical :=
  canonical_of_ofQuotient?
    (Nat.mul_ne_zero x.toQuotient_snd_ne_zero (toQuotient_fst_ne_zero hy)) h

example : ofQuotient? 3 2 = some ⟨false, 3 * twoTo 51, -52⟩ := by decide +kernel
example : ofQuotient? (twoTo 64) 1 = some ⟨false, hiddenBit, 12⟩ := by decide +kernel
example : ofQuotient? 1 (tenTo 400) = some ⟨false, 0, -1074⟩ := by decide +kernel
example : ofQuotient? (tenTo 309) 1 = none := by decide +kernel

/-! ## The shortest decimal -/

/-- A decimal `digits · 10 ^ scale`. -/
structure Decimal where
  digits : Nat
  scale : Int
deriving DecidableEq, Repr

/-- The number, half the way down and half the way up to its neighbours, each as
a numerator over the common denominator that comes last. -/
def interval (x : Binary64) : Nat × Nat × Nat × Nat :=
  let down := if x.mantissa = hiddenBit && minExponent < x.exponent then 1 else 2
  let unit := x.exponent - 2
  let up := if 0 ≤ unit then twoTo unit.toNat else 1
  let den := if 0 ≤ unit then 1 else twoTo (-unit).toNat
  (4 * x.mantissa * up, (4 * x.mantissa - down) * up, (4 * x.mantissa + 2) * up, den)

/-- Whether `digits · 10 ^ scale` lies in the interval. -/
def readsBack (x : Binary64) (d : Decimal) : Bool :=
  let (_, low, high, den) := x.interval
  let num := if 0 ≤ d.scale then d.digits * tenTo d.scale.toNat * den else d.digits * den
  let factor := if 0 ≤ d.scale then 1 else tenTo (-d.scale).toNat
  if x.mantissa % 2 = 0 then low * factor ≤ num && num ≤ high * factor
  else low * factor < num && num < high * factor

/-- The two neighbours of the number among the multiples of `10 ^ scale`, and
whether the upper one is nearer. -/
def neighbours (x : Binary64) (scale : Int) : Decimal × Decimal × Bool :=
  let (value, _, _, den) := x.interval
  let num := if 0 ≤ scale then value else value * tenTo (-scale).toNat
  let unit := if 0 ≤ scale then den * tenTo scale.toNat else den
  let below := num / unit
  (⟨below, scale⟩, ⟨below + 1, scale⟩, unit < 2 * (num % unit)
    || (2 * (num % unit) == unit && below % 2 == 1))

/-- The decimal of grid `10 ^ scale` that reads back, the nearer if both do. -/
def onGrid? (x : Binary64) (scale : Int) : Option Decimal :=
  let (below, above, upper) := x.neighbours scale
  match below.digits != 0 && x.readsBack below, x.readsBack above with
  | true, true => some (if upper then above else below)
  | true, false => some below
  | false, true => some above
  | false, false => none

/-- The power of ten above the number: `10 ^ (k - 1) ≤ x < 10 ^ k`. -/
def decimalPoint (x : Binary64) : Int :=
  let (value, _, _, den) := x.interval
  if den ≤ value then (Nat.toDigits 10 (value / den)).length
  else
    let whole := (Nat.toDigits 10 (den / value)).length
    let k : Int := 1 - (whole : Int)
    if value * tenTo (-k).toNat < den then k else k + 1

/-- The first grid with a decimal that reads back, from coarse to fine. -/
def search (x : Binary64) (point : Int) : Nat → Nat → Option Decimal
  | _, 0 => none
  | digits, more + 1 =>
    match x.onGrid? (point - digits) with
    | some d => some d
    | none => search x point (digits + 1) more

/-- Drops the zeros at the end of the digits. -/
def Decimal.stripped (d : Decimal) : Nat → Decimal
  | 0 => d
  | fuel + 1 =>
    if d.digits != 0 && d.digits % 10 == 0 then stripped ⟨d.digits / 10, d.scale + 1⟩ fuel else d

/-- The shortest decimal of the size of a number; seventeen digits always
suffice. -/
def shortest (x : Binary64) : Decimal :=
  if x.isZero then ⟨0, 0⟩
  else ((x.search x.decimalPoint 1 17).getD ⟨0, 0⟩).stripped 17

example : shortest ⟨false, 3 * twoTo 51, -52⟩ = ⟨15, -1⟩ := by decide +kernel
example : shortest ⟨false, 1, -1074⟩ = ⟨5, -324⟩ := by decide +kernel
example : shortest ⟨false, hiddenBit, 12⟩ = ⟨18446744073709552, 3⟩ := by decide +kernel

end Binary64

end Thesaurus
