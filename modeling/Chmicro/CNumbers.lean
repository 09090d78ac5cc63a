import Mathlib
import Chmicro.MetricsExposition

set_option autoImplicit false

namespace Chmicro

/-- The white space of the C locale. -/
def isSpace (byte : UInt8) : Bool := byte = 32 || (9 ≤ byte && byte ≤ 13)

def isDigit (byte : UInt8) : Bool := 48 ≤ byte && byte ≤ 57

def plusSign : UInt8 := 43

def hyphen : UInt8 := 45

/-- The value of decimal digits, the first one the highest. -/
def digitsValue (digits : Bytes) : Nat :=
  digits.foldl (fun value digit => 10 * value + (digit.toNat - 48)) 0

/-- What `strtol` and its kin read: the sign and the digits after white space, up to the first
byte that is no digit. -/
def readNumber (text : Bytes) : Bool × Nat :=
  let rest := text.dropWhile isSpace
  match rest with
  | sign :: digits =>
      if sign = hyphen then (true, digitsValue (digits.takeWhile isDigit))
      else if sign = plusSign then (false, digitsValue (digits.takeWhile isDigit))
      else (false, digitsValue (rest.takeWhile isDigit))
  | [] => (false, 0)

def signedNumber (text : Bytes) : Int :=
  let (negative, value) := readNumber text
  if negative then -value else value

/-- An `int` holds the number that is read. -/
def FitsInt (text : Bytes) : Prop := -2 ^ 31 ≤ signedNumber text ∧ signedNumber text < 2 ^ 31

instance (text : Bytes) : Decidable (FitsInt text) := inferInstanceAs (Decidable (_ ∧ _))

/-- `std::atoi`. The standard leaves open what it returns for a number that no `int` holds. -/
def atoi (beyond : Bytes → Int) (text : Bytes) : Int :=
  if FitsInt text then signedNumber text else beyond text

/-- `std::strtoull` in base 10. -/
def strtoull (text : Bytes) : UInt64 :=
  let (negative, value) := readNumber text
  if 2 ^ 64 ≤ value then UInt64.ofNat (2 ^ 64 - 1)
  else if negative then -UInt64.ofNat value
  else UInt64.ofNat value

section Digits

theorem digitsValue_concat (digits : Bytes) (digit : UInt8) :
    digitsValue (digits ++ [digit]) = 10 * digitsValue digits + (digit.toNat - 48) := by
  rw [digitsValue, List.foldl_append]
  rfl

theorem isDigit_of_mem_decimal {n : Nat} {byte : UInt8} (member : byte ∈ decimal n) :
    isDigit byte := by
  have range := mem_decimal member
  simp only [isDigit, Bool.and_eq_true, decide_eq_true_eq, UInt8.le_iff_toNat_le]
  exact range

theorem decimal_ne_nil (n : Nat) : decimal n ≠ [] := by
  rw [decimal, ne_eq, List.map_eq_nil_iff]
  exact Nat.toDigits_ne_nil

/-- The digits of a number are read as the number. -/
theorem digitsValue_decimal (n : Nat) : digitsValue (decimal n) = n := by
  have byte (d : Nat) (small : d < 10) : (d.digitChar.toNat.toUInt8).toNat - 48 = d := by
    interval_cases d <;> rfl
  induction n using Nat.strongRecOn with
  | ind n ih =>
      rcases Nat.lt_or_ge n 10 with small | large
      · rw [decimal, Nat.toDigits_of_lt_base small, List.map_singleton]
        show 10 * 0 + _ = n
        rw [byte n small, Nat.mul_zero, Nat.zero_add]
      · have tens : n / 10 < n := by omega
        have split : decimal n = decimal (n / 10) ++ [(n % 10).digitChar.toNat.toUInt8] := by
          rw [decimal, Nat.toDigits_of_base_le (by decide) large, List.map_append]
          rfl
        rw [split, digitsValue_concat, ih (n / 10) tens, byte _ (Nat.mod_lt n (by decide))]
        omega

/-- A number that is not negative: blanks, a plus sign or none, digits, and whatever comes after
them. -/
structure Spells (blanks sign digits after : Bytes) (number : Nat) : Prop where
  blank : ∀ byte ∈ blanks, isSpace byte
  signed : sign = [] ∨ sign = [plusSign]
  some_ : digits ≠ []
  digit : ∀ byte ∈ digits, isDigit byte
  ends : ∀ byte ∈ after.head?, ¬ isDigit byte
  value : digitsValue digits = number

theorem toNat_of_isDigit {byte : UInt8} (digit : isDigit byte) :
    48 ≤ byte.toNat ∧ byte.toNat ≤ 57 := by
  simp only [isDigit, Bool.and_eq_true, decide_eq_true_eq, UInt8.le_iff_toNat_le] at digit
  exact digit

/-- A digit is neither blank nor a sign. -/
theorem plain_of_isDigit {byte : UInt8} (digit : isDigit byte) :
    isSpace byte = false ∧ byte ≠ hyphen ∧ byte ≠ plusSign := by
  have range := toNat_of_isDigit digit
  refine ⟨?_, ?_, ?_⟩
  · simp only [isSpace, Bool.or_eq_false_iff, Bool.and_eq_false_iff, decide_eq_false_iff_not,
      ← UInt8.toNat_inj, UInt8.le_iff_toNat_le]
    exact ⟨by show ¬ byte.toNat = 32; omega, .inr (by show ¬ byte.toNat ≤ 13; omega)⟩
  all_goals
    rintro rfl
    exact absurd range (by decide)

theorem takeWhile_isDigit {digits after : Bytes} (all : ∀ byte ∈ digits, isDigit byte)
    (ends : ∀ byte ∈ after.head?, ¬ isDigit byte) : (digits ++ after).takeWhile isDigit = digits := by
  rw [List.takeWhile_append_of_pos all]
  cases after with
  | nil => simp
  | cons byte rest => rw [List.takeWhile_cons_of_neg (ends byte rfl), List.append_nil]

theorem Spells.readNumber {blanks sign digits after : Bytes} {number : Nat}
    (spells : Spells blanks sign digits after number) :
    readNumber (blanks ++ (sign ++ (digits ++ after))) = (false, number) := by
  obtain ⟨first, rest, spelt⟩ := List.exists_cons_of_ne_nil spells.some_
  have plain := plain_of_isDigit (spells.digit first (spelt ▸ List.mem_cons_self))
  have read := takeWhile_isDigit spells.digit spells.ends
  rw [Chmicro.readNumber, List.dropWhile_append_of_pos spells.blank]
  rcases spells.signed with rfl | rfl
  · have start : (digits ++ after).dropWhile isSpace = first :: (rest ++ after) := by
      rw [spelt, List.cons_append, List.dropWhile_cons_of_neg (by simp [plain.1])]
    rw [List.nil_append, start]
    dsimp only
    rw [if_neg plain.2.1, if_neg plain.2.2, ← List.cons_append, ← spelt, read, spells.value]
  · have start : ([plusSign] ++ (digits ++ after)).dropWhile isSpace =
        plusSign :: (digits ++ after) := rfl
    rw [start]
    dsimp only
    rw [if_neg (by decide), if_pos rfl, read, spells.value]

/-- Whatever is read as a positive number spells it. -/
theorem spells_of_readNumber {text : Bytes} {number : Nat} (positive : 0 < number)
    (read : Chmicro.readNumber text = (false, number)) :
    ∃ blanks sign digits after, text = blanks ++ (sign ++ (digits ++ after)) ∧
      Spells blanks sign digits after number := by
  have cut := @List.takeWhile_append_dropWhile _ isSpace text
  have blank : ∀ byte ∈ text.takeWhile isSpace, isSpace byte := fun byte member =>
    List.mem_takeWhile_imp member
  have spells (sign rest : Bytes) (signed : sign = [] ∨ sign = [plusSign])
      (split : text.dropWhile isSpace = sign ++ rest)
      (value : digitsValue (rest.takeWhile isDigit) = number) :
      ∃ blanks sign digits after, text = blanks ++ (sign ++ (digits ++ after)) ∧
        Spells blanks sign digits after number := by
    refine ⟨text.takeWhile isSpace, sign, rest.takeWhile isDigit, rest.dropWhile isDigit, ?_, blank,
      signed, ?_, fun byte member => List.mem_takeWhile_imp member, ?_, value⟩
    · rw [List.takeWhile_append_dropWhile, ← split, cut]
    · intro empty
      rw [empty] at value
      exact absurd value (Nat.ne_of_lt positive)
    · intro byte next digit
      have stops := List.head?_dropWhile_not isDigit rest
      rw [Option.mem_def] at next
      rw [next] at stops
      simp [digit] at stops
  unfold Chmicro.readNumber at read
  dsimp only at read
  split at read
  · rename_i sign rest start
    split_ifs at read with minus plus
    · cases read
    · exact spells [plusSign] rest (.inr rfl) (plus ▸ start) (congrArg Prod.snd read)
    · exact spells [] (sign :: rest) (.inl rfl) start (start ▸ congrArg Prod.snd read)
  · have zero := congrArg Prod.snd read
    exact absurd zero (Nat.ne_of_lt positive)

theorem spells_decimal (n : Nat) : Spells [] [] (decimal n) [] n where
  blank _ impossible := by cases impossible
  signed := .inl rfl
  some_ := decimal_ne_nil n
  digit _ member := isDigit_of_mem_decimal member
  ends _ impossible := by cases impossible
  value := digitsValue_decimal n

/-- The texts that spell a positive number are those that are read as it. -/
theorem signedNumber_pos_iff {text : Bytes} {number : Nat} (positive : 0 < number) :
    signedNumber text = (number : Int) ↔
      ∃ blanks sign digits after, text = blanks ++ (sign ++ (digits ++ after)) ∧
        Spells blanks sign digits after number := by
  constructor
  · intro read
    refine spells_of_readNumber positive ?_
    rcases same : readNumber text with ⟨negative, value⟩
    rw [signedNumber, same] at read
    cases negative with
    | true =>
        simp only [↓reduceIte] at read
        omega
    | false =>
        simp only [Bool.false_eq_true, ↓reduceIte] at read
        rw [Int.ofNat_inj.mp read]
  · rintro ⟨blanks, sign, digits, after, rfl, spells⟩
    rw [signedNumber, spells.readNumber]
    rfl

/-- `std::atoi` returns a positive number for the texts that spell it, and maybe for some that
are beyond an `int`. -/
theorem atoi_eq_pos_iff {beyond : Bytes → Int} {text : Bytes} {number : Nat}
    (positive : 0 < number) (small : number < 2 ^ 31) : atoi beyond text = (number : Int) ↔
      (∃ blanks sign digits after, text = blanks ++ (sign ++ (digits ++ after)) ∧
        Spells blanks sign digits after number) ∨
      ¬ FitsInt text ∧ beyond text = (number : Int) := by
  rw [← signedNumber_pos_iff positive, atoi]
  by_cases fits : FitsInt text
  · rw [if_pos fits]
    simp [fits]
  · have other : signedNumber text ≠ (number : Int) := by
      intro same
      apply fits
      rw [FitsInt, same]
      omega
    rw [if_neg fits]
    simp [fits, other]

end Digits

end Chmicro
