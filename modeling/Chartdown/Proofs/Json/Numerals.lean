import Chartdown.Json.Encode
import Chartdown.Proofs.Json.Reading
import Chartdown.Proofs.Number.Shortest

/-!
# The literals of written numbers

What is written for a number is a literal that means the number. For whole numbers that is told by
their digits. A double is written by the digits of its shortest decimal, with the point at one of
four places, and each of these literals is a decimal that rounds to the double.

## Key results

- `exists_integerText`: the literal of a whole number
- `exists_doubleText`: the literal of a double
-/

namespace Chartdown.Json

/-! ### Digits -/

theorem naturalOf_eq (ds : List Char) : naturalOf ds = Nat.ofDigitChars 10 ds 0 := by
  simp only [naturalOf, Nat.ofDigitChars, Nat.mul_comm]

@[simp] theorem naturalOf_digitsOf (n : Nat) : naturalOf (digitsOf n) = n := by
  rw [naturalOf_eq, digitsOf, Nat.ofDigitChars_toDigits (by decide) (by decide)]

theorem isDigit_of_mem_digitsOf {n : Nat} {c : Char} (h : c ∈ digitsOf n) : c.isDigit = true :=
  Nat.isDigit_of_mem_toDigits (by decide) (by decide) h

theorem digitsOf_ne_nil (n : Nat) : digitsOf n ≠ [] := Nat.toDigits_ne_nil

/-- The digits of a number other than zero do not start with a zero. -/
theorem head?_digitsOf {n : Nat} (hn : n ≠ 0) : (digitsOf n).head? ≠ some '0' := by
  induction n using Nat.strongRecOn with
  | ind n ih =>
    rw [digitsOf]
    by_cases hlt : n < 10
    · have hdigit : ∀ d < 10, d ≠ 0 → [d.digitChar].head? ≠ some '0' := by decide
      rw [Nat.toDigits_of_lt_base hlt]
      exact hdigit n hlt hn
    · have hne := ih (n / 10) (by omega) (by omega)
      rw [Nat.toDigits_of_base_le (by decide) (Nat.not_lt.mp hlt)]
      obtain ⟨d, ds, hcons⟩ := List.exists_cons_of_ne_nil (digitsOf_ne_nil (n / 10))
      rw [hcons] at hne
      rw [show Nat.toDigits 10 (n / 10) = d :: ds from hcons]
      simpa using hne

theorem exists_digitsOf_eq_cons {n : Nat} (hn : n ≠ 0) :
    ∃ d ds, digitsOf n = d :: ds ∧ d ≠ '0' ∧ ∀ c ∈ d :: ds, c.isDigit = true := by
  obtain ⟨d, ds, hcons⟩ := List.exists_cons_of_ne_nil (digitsOf_ne_nil n)
  have hhead := head?_digitsOf hn
  rw [hcons] at hhead
  exact ⟨d, ds, hcons, fun h => hhead (congrArg some h), fun c hc =>
    isDigit_of_mem_digitsOf (hcons ▸ hc)⟩

/-- Digits are a whole part if the first is another than zero. -/
theorem isWhole_cons {d : Char} {ds : List Char} (hd : d ≠ '0')
    (hdigits : ∀ c ∈ d :: ds, c.isDigit = true) : IsWhole (d :: ds) :=
  .inr ⟨List.cons_ne_nil d ds, fun h => hd (Option.some.inj h), hdigits⟩

theorem isWhole_digitsOf (n : Nat) : IsWhole (digitsOf n) := by
  by_cases hn : n = 0
  · exact .inl (by rw [hn]; rfl)
  · obtain ⟨d, ds, hcons, hd, hdigits⟩ := exists_digitsOf_eq_cons hn
    exact hcons ▸ isWhole_cons hd hdigits

theorem naturalOf_append_zeros (ds : List Char) (k : Nat) :
    naturalOf (ds ++ List.replicate k '0') = tenTo k * naturalOf ds := by
  induction k with
  | zero => simp [tenTo]
  | succ k ih =>
    rw [List.replicate_succ', ← List.append_assoc, tenTo_succ, Nat.mul_assoc, ← ih]
    simp [naturalOf, List.foldl_append, Nat.mul_comm]

theorem naturalOf_zeros_append (ds : List Char) (k : Nat) :
    naturalOf (List.replicate k '0' ++ ds) = naturalOf ds := by
  induction k with
  | zero => rfl
  | succ k ih =>
    rw [List.replicate_succ, List.cons_append, ← ih]
    rfl

/-! ### Whole numbers -/

/-- A whole number is written as a literal that means it. -/
theorem exists_integerText (i : Int) (hdigits : (digitsOf i.natAbs).length ≤ digitLimit) :
    ∃ n : NumberText, n.text = integerText i ∧ n.value = .integer i ∧ n.IsReadable := by
  refine ⟨{ negative := i < 0, whole := digitsOf i.natAbs, isWhole := isWhole_digitsOf _ },
    ?_, ?_, fun _ => hdigits⟩
  · simp only [NumberText.text, NumberText.magnitude, NumberText.fractionText,
      NumberText.exponentText, integerText]
    by_cases hneg : i < 0
    all_goals simp [hneg]
  · have hvalue : (if i < 0 then -(i.natAbs : Int) else i.natAbs) = i := by
      split
      all_goals omega
    simp only [NumberText.value, NumberText.IsInteger, and_self, if_true, naturalOf_digitsOf,
      decide_eq_true_eq, hvalue]

/-! ### Doubles -/

/-- The digits and the power of ten that a literal gives. -/
def NumberText.decimal (n : NumberText) : Decimal :=
  ⟨naturalOf (n.whole ++ n.fraction), (n.exponent.map Exponent.value).getD 0 - n.fraction.length⟩

/-- A literal with a fraction or an exponent gives a decimal, or the same one down to its tenths. -/
structure Spells (n : NumberText) (d : Decimal) : Prop where
  not_isInteger : ¬ n.IsInteger
  decimal_eq : n.decimal = d ∨ ∃ k : Nat, d.exponent = k ∧ n.decimal = ⟨tenTo (k + 1) * d.digits, -1⟩

section Doubles
variable {digits : Nat}

theorem isDigit_of_mem_zeros {c : Char} {k : Nat} (h : c ∈ List.replicate k '0') :
    c.isDigit = true := by
  rw [List.eq_of_mem_replicate h]
  rfl

/-- The point behind all digits, which zeros fill up. -/
theorem exists_positional_natCast (hdigits : digits ≠ 0) (negative : Bool) (k : Nat) :
    ∃ n : NumberText, n.negative = negative ∧
      n.magnitude = Decimal.positional true (digitsOf digits) k ∧ Spells n ⟨digits, k⟩ := by
  obtain ⟨d, ds, hcons, hd, hall⟩ := exists_digitsOf_eq_cons hdigits
  have hwhole : IsWhole (digitsOf digits ++ List.replicate k '0') := by
    rw [hcons]
    exact isWhole_cons hd fun c hc => (List.mem_append.mp hc).elim (hall c) isDigit_of_mem_zeros
  have hdecimal : naturalOf (digitsOf digits ++ List.replicate k '0' ++ ['0']) =
      tenTo (k + 1) * digits := by
    rw [List.append_assoc, ← List.replicate_succ', naturalOf_append_zeros, naturalOf_digitsOf]
  refine ⟨{ negative, whole := _, fraction := ['0'], isWhole := hwhole }, rfl, ?_, ?_, ?_⟩
  · simp [NumberText.magnitude, NumberText.fractionText, NumberText.exponentText,
      Decimal.positional]
  · simp [NumberText.IsInteger]
  · exact .inr ⟨k, rfl, by simp only [NumberText.decimal, hdecimal]; rfl⟩

/-- The point among the digits or before them, where zeros fill up. -/
theorem exists_positional_negSucc (hdigits : digits ≠ 0) (negative : Bool) (k : Nat) :
    ∃ n : NumberText, n.negative = negative ∧
      n.magnitude = Decimal.positional true (digitsOf digits) (.negSucc k) ∧
      Spells n ⟨digits, .negSucc k⟩ := by
  obtain ⟨d, ds, hcons, hd, hall⟩ := exists_digitsOf_eq_cons hdigits
  have hdecimal : naturalOf (d :: ds) = digits := by rw [← hcons, naturalOf_digitsOf]
  by_cases hplaces : k + 1 < (digitsOf digits).length
  · -- The point stands among the digits, behind the first `m + 1` of them.
    obtain ⟨m, hm⟩ : ∃ m, (digitsOf digits).length = m + 1 + (k + 1) :=
      ⟨(digitsOf digits).length - (k + 1) - 1, by omega⟩
    have hlength : ds.length = m + (k + 1) := by
      rw [hcons, List.length_cons] at hm
      omega
    have hfraction : ds.drop m ≠ [] := fun h => by simpa [hlength] using congrArg List.length h
    refine ⟨{ negative, whole := d :: ds.take m, fraction := ds.drop m,
              isWhole := isWhole_cons hd fun c hc => hall c ?_,
              isDigit_of_mem_fraction := fun c hc =>
                hall c (List.mem_cons_of_mem d (List.mem_of_mem_drop hc)) }, rfl, ?_, ?_, ?_⟩
    · exact (List.mem_cons.mp hc).elim (fun h => h ▸ List.mem_cons_self)
        fun h => List.mem_cons_of_mem d (List.mem_of_mem_take h)
    · have hcut : m + 1 + (k + 1) - (k + 1) = m + 1 := Nat.add_sub_cancel ..
      simp only [NumberText.magnitude, NumberText.fractionText, NumberText.exponentText,
        Decimal.positional, hplaces, if_true, hfraction, if_false]
      rw [hm, hcut, hcons]
      simp
    · exact fun h => hfraction h.1
    · refine .inl ?_
      simp only [NumberText.decimal, List.cons_append, List.take_append_drop, hdecimal]
      rw [List.length_drop, hlength, Nat.add_sub_cancel_left]
      simp [Int.negSucc_eq]
  · -- All digits stand behind the point, with `m` zeros in front of them.
    obtain ⟨m, hm⟩ : ∃ m, k + 1 = m + (digitsOf digits).length :=
      ⟨k + 1 - (digitsOf digits).length, by omega⟩
    have hfraction : List.replicate m '0' ++ digitsOf digits ≠ [] := by simp [digitsOf_ne_nil]
    refine ⟨{ negative, whole := ['0'], fraction := List.replicate m '0' ++ digitsOf digits,
              isDigit_of_mem_fraction := fun c hc =>
                (List.mem_append.mp hc).elim isDigit_of_mem_zeros isDigit_of_mem_digitsOf },
            rfl, ?_, ?_, ?_⟩
    · simp only [NumberText.magnitude, NumberText.fractionText, NumberText.exponentText,
        Decimal.positional, hplaces, hfraction, if_false]
      rw [hm, Nat.add_sub_cancel]
      simp
    · exact fun h => hfraction h.1
    · refine .inl ?_
      have hwhole := naturalOf_zeros_append (digitsOf digits) (m + 1)
      rw [naturalOf_digitsOf, List.replicate_succ, List.cons_append] at hwhole
      simp only [NumberText.decimal, List.singleton_append, hwhole, List.length_append,
        List.length_replicate, ← hm]
      simp [Int.negSucc_eq]

/-- An exponent, as it is written. -/
theorem exists_exponentText (power : Int) :
    ∃ e : Exponent, e.text = 'e' :: Decimal.exponentText power ∧ e.value = power := by
  -- A digit alone has a zero in front of it.
  have hpadded : ∃ k, (if (digitsOf power.natAbs).length < 2
      then '0' :: digitsOf power.natAbs else digitsOf power.natAbs) =
        List.replicate k '0' ++ digitsOf power.natAbs := by
    split
    · exact ⟨1, rfl⟩
    · exact ⟨0, rfl⟩
  obtain ⟨k, hpadded⟩ := hpadded
  have hnatural : naturalOf (List.replicate k '0' ++ digitsOf power.natAbs) = power.natAbs := by
    rw [naturalOf_zeros_append, naturalOf_digitsOf]
  refine ⟨{ mark := 'e', sign := [if power < 0 then '-' else '+'],
            digits := List.replicate k '0' ++ digitsOf power.natAbs,
            sign_mem := by split <;> simp
            digits_ne_nil := by simp [digitsOf_ne_nil]
            isDigit_of_mem_digits := fun c hc =>
              (List.mem_append.mp hc).elim isDigit_of_mem_zeros isDigit_of_mem_digitsOf }, ?_, ?_⟩
  · simp only [Exponent.text, Decimal.exponentText, hpadded, List.singleton_append]
  · simp only [Exponent.value, hnatural]
    by_cases hneg : power < 0
    · simp only [hneg, if_true]
      omega
    · simp [hneg]
      omega

/-- One digit before the point, and an exponent. -/
theorem exists_scientific (hdigits : digits ≠ 0) (negative : Bool) (exponent : Int) :
    ∃ n : NumberText, n.negative = negative ∧
      n.magnitude = Decimal.scientific (digitsOf digits)
        (exponent + (digitsOf digits).length - 1) ∧
      Spells n ⟨digits, exponent⟩ := by
  obtain ⟨d, ds, hcons, hd, hall⟩ := exists_digitsOf_eq_cons hdigits
  have hdecimal : naturalOf (d :: ds) = digits := by rw [← hcons, naturalOf_digitsOf]
  obtain ⟨e, htext, hvalue⟩ := exists_exponentText (exponent + (digitsOf digits).length - 1)
  refine ⟨{ negative, whole := [d], fraction := ds, exponent := some e,
            isWhole := isWhole_cons hd fun c hc => hall c (by simpa using .inl (by simpa using hc)),
            isDigit_of_mem_fraction := fun c hc => hall c (List.mem_cons_of_mem d hc) },
          rfl, ?_, ?_, ?_⟩
  · simp only [NumberText.magnitude, NumberText.fractionText, NumberText.exponentText,
      Option.map_some, Option.getD_some, htext]
    rw [hcons]
    cases ds with
    | nil => rfl
    | cons c ds => rfl
  · simp [NumberText.IsInteger]
  · refine .inl ?_
    simp only [NumberText.decimal, List.singleton_append, hdecimal, Option.map_some,
      Option.getD_some, hvalue]
    rw [hcons, List.length_cons]
    congr 1
    omega

/-- A decimal is written as a literal that gives it. -/
theorem exists_decimalText {d : Decimal} (hd : d.digits ≠ 0) (negative : Bool) :
    ∃ n : NumberText, n.negative = negative ∧ n.magnitude = d.text Decimal.dataStyle ∧
      Spells n d := by
  obtain ⟨digits, exponent⟩ := d
  simp only [Decimal.text, hd, if_false]
  split
  · cases exponent with
    | ofNat k => exact exists_positional_natCast hd negative k
    | negSucc k => exact exists_positional_negSucc hd negative k
  · exact exists_scientific hd negative exponent

end Doubles

theorem NumberText.value_of_not_isInteger {n : NumberText} (h : ¬ n.IsInteger) :
    n.value = .double (Double.ofDecimal n.negative n.decimal.digits n.decimal.exponent) := by
  rw [NumberText.value, if_neg h]
  rfl

/-- Literals that give the shortest decimal of a double mean the double. -/
theorem Spells.value_eq {n : NumberText} {v : FiniteDouble} (hunits : 0 < v.units)
    (hnegative : n.negative = v.negative) (h : Spells n (FiniteDouble.shortest v.units)) :
    n.value = .double (.finite v) := by
  rw [NumberText.value_of_not_isInteger h.not_isInteger, hnegative]
  rcases h.decimal_eq with hdecimal | ⟨k, hk, hdecimal⟩
  · rw [hdecimal, FiniteDouble.ofDecimal_shortest hunits]
  · -- With the tenth written out it is another decimal, which rounds to the same double.
    rw [hdecimal]
    have hrounds := (FiniteDouble.rounds_shortest hunits).1
    rw [hk] at hrounds
    have hdigits := Nat.mul_ne_zero (Nat.ne_of_gt (tenTo_pos (k + 1)))
      (FiniteDouble.digits_shortest_ne_zero hunits)
    have htenths : FiniteDouble.Rounds v.units
        (tenTo (k + 1) * (FiniteDouble.shortest v.units).digits) (-1) :=
      FiniteDouble.Rounds.shiftBy (n := k + 1) (by simpa using hrounds)
    rw [FiniteDouble.ofDecimal_eq hunits hdigits (by decide) (by decide) htenths]

/-- A double is written as a literal that means it. -/
theorem exists_doubleText (v : FiniteDouble) :
    ∃ n : NumberText, n.text = v.text ∧ n.value = .double (.finite v) ∧ n.IsReadable := by
  rcases Nat.eq_zero_or_pos v.units with hzero | hunits
  · refine ⟨{ negative := v.negative, whole := ['0'], fraction := ['0'] }, ?_, ?_,
      fun h => absurd h.1 (List.cons_ne_nil _ _)⟩
    · rw [NumberText.text, FiniteDouble.text, hzero]
      cases v.negative
      all_goals rfl
    · rw [NumberText.value_of_not_isInteger fun h => absurd h.1 (List.cons_ne_nil _ _)]
      exact congrArg Number.double (FiniteDouble.ofDecimal_zero hzero _)
  · obtain ⟨n, hnegative, hmagnitude, hspells⟩ :=
      exists_decimalText (FiniteDouble.digits_shortest_ne_zero hunits) v.negative
    refine ⟨n, ?_, hspells.value_eq hunits hnegative, fun h => absurd h hspells.not_isInteger⟩
    rw [NumberText.text, FiniteDouble.text, hnegative, hmagnitude]
    cases v.negative
    all_goals rfl

end Chartdown.Json
