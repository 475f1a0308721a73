import Dashboard.Number
import Mathlib.Algebra.Ring.Int.Defs
import Mathlib.Algebra.Ring.Nat
import Mathlib.Data.List.Basic
import Mathlib.Data.List.Induction

/-!
# The numbers that tokens stand for

A token is a number if it reads as a numeral, and its value is then the integer in decimal. Reading a number
never computes the value of a long numeral; it looks at the count of the significant digits instead. The
lemmas here relate that count to the value, so that `Number.read` is an ordinary comparison of integers,
apart from numerals of more than `Number.digitLimit` digits that are almost all zeros.
-/

namespace Dashboard

/-! ### Digits and their value -/

namespace Decimal

def IsDigits (digits : Text) : Prop := digits ≠ [] ∧ ∀ d ∈ digits, Text.isDigit d = true

theorem value_nil : value [] = 0 := rfl

theorem value_append_digit (digits : Text) (d : UInt8) :
    value (digits ++ [d]) = 10 * value digits + (d.toNat - Text.zeroDigit.toNat) := by
  simp only [value, List.foldl_append, List.foldl_cons, List.foldl_nil]

theorem toNat_of_isDigit {d : UInt8} (hd : Text.isDigit d = true) :
    48 ≤ d.toNat ∧ d.toNat ≤ 57 := by
  simp only [Text.isDigit, Text.zeroDigit, Text.nineDigit, Bool.and_eq_true, decide_eq_true_eq,
    UInt8.le_iff_toNat_le] at hd
  exact hd

theorem toNat_digit {n : Nat} (hn : n < 10) : (digit n).toNat = 48 + n := by
  simp only [digit, Text.zeroDigit, UInt8.toNat_add, Nat.toUInt8, UInt8.toNat_ofNat']
  have h : (0x30 : UInt8).toNat = 48 := rfl
  omega

theorem isDigit_digit {n : Nat} (hn : n < 10) : Text.isDigit (digit n) = true := by
  have h := toNat_digit hn
  have h0 : (0x30 : UInt8).toNat = 48 := rfl
  have h9 : (0x39 : UInt8).toNat = 57 := rfl
  simp only [Text.isDigit, Text.zeroDigit, Text.nineDigit, Bool.and_eq_true, decide_eq_true_eq,
    UInt8.le_iff_toNat_le]
  omega

theorem value_ofNat (n : Nat) : value (ofNat n) = n := by
  fun_induction ofNat n with
  | case1 n hn =>
      have h := toNat_digit hn
      have h0 : Text.zeroDigit.toNat = 48 := rfl
      simp only [value, List.foldl_cons, List.foldl_nil]
      omega
  | case2 n hn ih =>
      have h := toNat_digit (Nat.mod_lt n (by decide : 0 < 10))
      have h0 : Text.zeroDigit.toNat = 48 := rfl
      rw [value_append_digit, ih]
      omega

theorem isDigits_ofNat (n : Nat) : IsDigits (ofNat n) := by
  fun_induction ofNat n with
  | case1 n hn => exact ⟨by simp, by simpa using isDigit_digit hn⟩
  | case2 n hn ih =>
      refine ⟨by simp, ?_⟩
      intro d hd
      rcases List.mem_append.mp hd with hd | hd
      · exact ih.2 d hd
      · rw [List.mem_singleton.mp hd]
        exact isDigit_digit (Nat.mod_lt n (by decide))

/-- Only zero is written with a zero in front. -/
theorem head?_ofNat_ne_zero {n : Nat} (hn : 0 < n) : (ofNat n).head? ≠ some Text.zeroDigit := by
  fun_induction ofNat n with
  | case1 n h10 =>
      intro heq
      have h := toNat_digit h10
      have h0 : Text.zeroDigit.toNat = 48 := rfl
      have hdigit : digit n = Text.zeroDigit := by simpa using heq
      rw [hdigit] at h
      omega
  | case2 n h10 ih =>
      have hne : ofNat (n / 10) ≠ [] := (isDigits_ofNat (n / 10)).1
      rw [List.head?_append_of_ne_nil _ hne]
      exact ih (by omega)

/-- A row of digits without a zero in front is at least the power of ten of its length. -/
theorem le_value {digits : Text} (hne : digits ≠ [])
    (hdigits : ∀ d ∈ digits, Text.isDigit d = true)
    (hhead : digits.head? ≠ some Text.zeroDigit) :
    10 ^ (digits.length - 1) ≤ value digits := by
  induction digits using List.reverseRecOn with
  | nil => exact absurd rfl hne
  | append_singleton digits d ih =>
      have hd := toNat_of_isDigit (hdigits d (by simp))
      have h0 : Text.zeroDigit.toNat = 48 := rfl
      rw [value_append_digit, List.length_append, List.length_singleton, Nat.add_sub_cancel]
      by_cases hinit : digits = []
      · subst hinit
        -- a single digit, which is not zero
        have hdne : d ≠ Text.zeroDigit := by simpa using hhead
        have hdne' : d.toNat ≠ 48 := fun h => hdne (UInt8.toNat_inj.mp (h.trans h0.symm))
        simp only [List.length_nil, Nat.pow_zero, value_nil]
        omega
      · have hprefix := ih hinit (fun e he => hdigits e (by simp [he]))
          (by rwa [List.head?_append_of_ne_nil _ hinit] at hhead)
        have hlength : digits.length = digits.length - 1 + 1 := by
          have := List.length_pos_iff.mpr hinit
          omega
        rw [hlength, Nat.pow_succ]
        omega

theorem value_dropWhile_zero (digits : Text) :
    value (digits.dropWhile (· == Text.zeroDigit)) = value digits := by
  induction digits with
  | nil => rfl
  | cons d digits ih =>
      by_cases hd : d = Text.zeroDigit
      · subst hd
        rw [List.dropWhile_cons_of_pos (by simp), ih]
        simp [value]
      · rw [List.dropWhile_cons_of_neg (by simpa using hd)]

end Decimal

/-! ### Numerals -/

namespace Numeral

/-- A numeral is written as its digits, after a minus sign if it is negative; a plus sign may stand before
the others. -/
inductive SpelledAs : Numeral → Text → Prop
  | plain {digits : Text} : Decimal.IsDigits digits → SpelledAs ⟨false, digits⟩ digits
  | plus {digits : Text} :
      Decimal.IsDigits digits → SpelledAs ⟨false, digits⟩ (Text.plusSign :: digits)
  | minus {digits : Text} :
      Decimal.IsDigits digits → SpelledAs ⟨true, digits⟩ (Text.minusSign :: digits)

theorem ofDigits?_eq_some_iff {negative : Bool} {digits : Text} {n : Numeral} :
    ofDigits? negative digits = some n ↔ Decimal.IsDigits digits ∧ n = ⟨negative, digits⟩ := by
  unfold ofDigits?
  split <;> rename_i h
  · rw [Option.some.injEq, eq_comm]
    simp only [List.all_eq_true] at h
    exact ⟨fun heq => ⟨h, heq⟩, fun heq => heq.2⟩
  · constructor
    · intro heq
      cases heq
    · rintro ⟨hdigits, -⟩
      exact absurd ⟨hdigits.1, List.all_eq_true.mpr hdigits.2⟩ h

/-- Reading a text as a numeral finds the one numeral that it spells. -/
theorem ofText?_eq_some_iff {t : Text} {n : Numeral} : ofText? t = some n ↔ n.SpelledAs t := by
  constructor
  · intro h
    cases t with
    | nil => cases h
    | cons b rest =>
        simp only [ofText?] at h
        split at h
        · rename_i hplus
          obtain ⟨hdigits, rfl⟩ := ofDigits?_eq_some_iff.mp h
          subst hplus
          exact .plus hdigits
        · split at h
          · rename_i hminus
            obtain ⟨hdigits, rfl⟩ := ofDigits?_eq_some_iff.mp h
            subst hminus
            exact .minus hdigits
          · obtain ⟨hdigits, rfl⟩ := ofDigits?_eq_some_iff.mp h
            exact .plain hdigits
  · intro h
    cases h with
    | plain hdigits =>
        cases t with
        | nil => exact absurd rfl hdigits.1
        | cons b rest =>
            -- a sign is no digit
            have hb : Text.isDigit b = true := hdigits.2 b (by simp)
            have hplus : b ≠ Text.plusSign := fun h => by
              subst h
              exact absurd hb (by decide)
            have hminus : b ≠ Text.minusSign := fun h => by
              subst h
              exact absurd hb (by decide)
            simp only [ofText?, if_neg hplus, if_neg hminus]
            exact ofDigits?_eq_some_iff.mpr ⟨hdigits, rfl⟩
    | plus hdigits => exact ofDigits?_eq_some_iff.mpr ⟨hdigits, rfl⟩
    | minus hdigits => exact ofDigits?_eq_some_iff.mpr ⟨hdigits, rfl⟩

theorem SpelledAs.isDigits {n : Numeral} {t : Text} (h : n.SpelledAs t) : Decimal.IsDigits n.digits := by
  cases h <;> assumption

/-- A numeral that is cut short lies beyond every number of ten digits, on the side of its sign. -/
theorem value_of_significantLimit_lt {n : Numeral} (hdigits : Decimal.IsDigits n.digits)
    (hlong : Number.significantLimit < n.significant.length) :
    if n.negative then n.value ≤ -(10 : Int) ^ 10 else (10 : Int) ^ 10 ≤ n.value := by
  have hne : n.significant ≠ [] := by
    intro h
    rw [h] at hlong
    exact absurd hlong (by decide)
  have hhead : n.significant.head? ≠ some Text.zeroDigit := by
    intro h
    have hfirst := List.head?_dropWhile_not (· == Text.zeroDigit) n.digits
    rw [show n.digits.dropWhile (· == Text.zeroDigit) = n.significant from rfl, h] at hfirst
    exact absurd hfirst (by decide)
  have hvalue := Decimal.le_value hne
    (fun d hd => hdigits.2 d ((List.dropWhile_sublist _).subset hd)) hhead
  have hpow : 10 ^ 10 ≤ 10 ^ (n.significant.length - 1) :=
    Nat.pow_le_pow_right (by decide) (by unfold Number.significantLimit at hlong; omega)
  have hsame : Decimal.value n.significant = Decimal.value n.digits :=
    Decimal.value_dropWhile_zero n.digits
  unfold value
  split <;> omega

/-- A numeral that is short without its leading zeros, but too long with them. -/
def IsOverlong (n : Numeral) : Prop :=
  Number.digitLimit < n.digits.length ∧ n.significant.length ≤ Number.significantLimit

instance (n : Numeral) : Decidable n.IsOverlong := inferInstanceAs (Decidable (_ ∧ _))

end Numeral

/-! ### Reading a number -/

namespace Number

theorem read_of_not_numeral (what : Text) (least greatest : Int) {t : Text}
    (h : ∀ n : Numeral, ¬n.SpelledAs t) : read what least greatest t = bad what "invalid" t := by
  have hnone : Numeral.ofText? t = none := by
    cases hread : Numeral.ofText? t with
    | none => rfl
    | some n => exact absurd (Numeral.ofText?_eq_some_iff.mp hread) (h n)
  simp only [read, hnone]

/-- Reading a numeral compares its value with the bounds, unless the numeral is overlong. -/
theorem read_of_spelledAs (what : Text) {least greatest : Int} (hleast : -(10 : Int) ^ 10 < least)
    (hleast' : least ≤ (10 : Int) ^ 10) (hgreatest : greatest < (10 : Int) ^ 10)
    {n : Numeral} {t : Text} (h : n.SpelledAs t) :
    read what least greatest t =
      if n.IsOverlong then .error (.tooManyDigits n.digits.length)
      else if n.value < least then bad what "too small" t
      else if greatest < n.value then bad what "too large" t
      else .ok n.value := by
  simp only [read, Numeral.ofText?_eq_some_iff.mpr h]
  by_cases hlong : significantLimit < n.significant.length
  · -- the value is beyond ten digits, and so beyond the bound on its side
    have hvalue := Numeral.value_of_significantLimit_lt h.isDigits hlong
    have hnot : ¬n.IsOverlong := fun hover => absurd hover.2 (Nat.not_le.mpr hlong)
    rw [if_pos hlong, if_neg hnot]
    cases hsign : n.negative with
    | true =>
        rw [hsign, if_pos rfl] at hvalue
        have hsmall : n.value < least := by omega
        rw [if_pos rfl, if_pos hsmall]
    | false =>
        rw [hsign, if_neg Bool.false_ne_true] at hvalue
        have hbig : greatest < n.value := by omega
        have hnotSmall : ¬n.value < least := by omega
        rw [if_neg Bool.false_ne_true, if_neg hnotSmall, if_pos hbig]
  · rw [if_neg hlong]
    by_cases hdigits : digitLimit < n.digits.length
    · have hover : n.IsOverlong := ⟨hdigits, Nat.not_lt.mp hlong⟩
      rw [if_pos hdigits, if_pos hover]
    · have hnot : ¬n.IsOverlong := fun hover => hdigits hover.1
      rw [if_neg hdigits, if_neg hnot]

/-- A token is a number from `least` on: a numeral of at most `digitLimit` digits, with a value up to
`greatest`. -/
def SpelledAs (least value : Int) (t : Text) : Prop :=
  ∃ n : Numeral, n.SpelledAs t ∧ n.digits.length ≤ digitLimit ∧ n.value = value ∧
    least ≤ value ∧ value ≤ greatest

/-- A lower bound that the language uses for a number. -/
def IsBound (least : Int) : Prop := -(10 : Int) ^ 10 < least ∧ least ≤ (10 : Int) ^ 10

theorem isBound_leastWaittime : IsBound leastWaittime := ⟨by decide, by decide⟩

theorem isBound_zero : IsBound 0 := ⟨by decide, by decide⟩

/-- Reading succeeds exactly on the spellings of the numbers between the bounds. -/
theorem read_eq_ok_iff (what : Text) {least : Int} (hleast : IsBound least) {t : Text}
    {value : Int} : read what least greatest t = .ok value ↔ SpelledAs least value t := by
  constructor
  · intro h
    by_cases hnumeral : ∃ n : Numeral, n.SpelledAs t
    · obtain ⟨n, hn⟩ := hnumeral
      rw [read_of_spelledAs what hleast.1 hleast.2 (by decide) hn] at h
      split at h
      · cases h
      · rename_i hover
        split at h
        · cases h
        · split at h
          · cases h
          · cases h
            refine ⟨n, hn, ?_, rfl, by omega, by omega⟩
            -- a numeral with too many digits would be cut short and out of bounds
            by_contra hdigits
            have hlong : significantLimit < n.significant.length := by
              by_contra hshort
              exact hover ⟨Nat.not_le.mp hdigits, Nat.not_lt.mp hshort⟩
            have hvalue := Numeral.value_of_significantLimit_lt hn.isDigits hlong
            obtain ⟨hlow, -⟩ := hleast
            have hgreatest : greatest < (10 : Int) ^ 10 := by decide
            split at hvalue <;> omega
    · rw [read_of_not_numeral what least greatest fun n hn => hnumeral ⟨n, hn⟩] at h
      cases h
  · rintro ⟨n, hn, hdigits, rfl, hlow, hhigh⟩
    have hnot : ¬n.IsOverlong := fun hover => absurd hover.1 (Nat.not_lt.mpr hdigits)
    rw [read_of_spelledAs what hleast.1 hleast.2 (by decide) hn, if_neg hnot,
      if_neg (Int.not_lt.mpr hlow), if_neg (Int.not_lt.mpr hhigh)]

/-- Reading gives up exactly on overlong numerals, whatever they stand for. -/
theorem read_eq_tooManyDigits_iff (what : Text) {least : Int} (hleast : IsBound least) {t : Text}
    {count : Nat} :
    read what least greatest t = .error (.tooManyDigits count) ↔
      ∃ n : Numeral, n.SpelledAs t ∧ n.IsOverlong ∧ n.digits.length = count := by
  constructor
  · intro h
    by_cases hnumeral : ∃ n : Numeral, n.SpelledAs t
    · obtain ⟨n, hn⟩ := hnumeral
      rw [read_of_spelledAs what hleast.1 hleast.2 (by decide) hn] at h
      split at h
      · rename_i hover
        cases h
        exact ⟨n, hn, hover, rfl⟩
      · split at h
        · cases h
        · split at h <;> cases h
    · rw [read_of_not_numeral what least greatest fun n hn => hnumeral ⟨n, hn⟩] at h
      cases h
  · rintro ⟨n, hn, hover, rfl⟩
    rw [read_of_spelledAs what hleast.1 hleast.2 (by decide) hn, if_pos hover]

/-! ### Numbers as they are written -/

theorem spelledAs_ofInt (value : Int) :
    Numeral.SpelledAs ⟨decide (value < 0), Decimal.ofNat value.natAbs⟩ (Decimal.ofInt value) := by
  cases value with
  | ofNat n =>
      have hsign : decide (Int.ofNat n < 0) = false := decide_eq_false (by simp)
      rw [hsign]
      exact .plain (Decimal.isDigits_ofNat n)
  | negSucc n =>
      have hsign : decide (Int.negSucc n < 0) = true := decide_eq_true (Int.negSucc_lt_zero n)
      rw [hsign]
      exact .minus (Decimal.isDigits_ofNat (n + 1))

theorem value_ofInt (value : Int) :
    Numeral.value ⟨decide (value < 0), Decimal.ofNat value.natAbs⟩ = value := by
  simp only [Numeral.value, Decimal.value_ofNat, decide_eq_true_eq]
  split <;> omega

/-- A number is written without leading zeros, so it is never overlong. -/
theorem not_isOverlong_ofNat (negative : Bool) (n : Nat) :
    ¬Numeral.IsOverlong ⟨negative, Decimal.ofNat n⟩ := by
  rintro ⟨hdigits, hsignificant⟩
  rcases Nat.eq_zero_or_pos n with rfl | hn
  · exact absurd hdigits (by unfold Decimal.ofNat; decide)
  · have hsame : Numeral.significant ⟨negative, Decimal.ofNat n⟩ = Decimal.ofNat n := by
      unfold Numeral.significant
      have hhead := Decimal.head?_ofNat_ne_zero hn
      cases hdigits : Decimal.ofNat n with
      | nil => rfl
      | cons d digits =>
          rw [hdigits] at hhead
          exact List.dropWhile_cons_of_neg (by simpa using hhead)
    rw [hsame] at hsignificant
    unfold digitLimit at hdigits
    unfold significantLimit at hsignificant
    simp only at hdigits
    omega

/-- A number that was written is read as itself if it lies between the bounds, and refused otherwise. -/
theorem read_ofInt (what : Text) {least : Int} (hleast : IsBound least) (value : Int) :
    read what least greatest (Decimal.ofInt value) =
      if value < least then bad what "too small" (Decimal.ofInt value)
      else if greatest < value then bad what "too large" (Decimal.ofInt value)
      else .ok value := by
  rw [read_of_spelledAs what hleast.1 hleast.2 (by decide) (spelledAs_ofInt value),
    if_neg (not_isOverlong_ofNat _ _), value_ofInt]

end Number

end Dashboard
