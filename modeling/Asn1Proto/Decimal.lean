import Mathlib

namespace Asn1Proto

/-- Greedy reading of decimal digits after the value `acc` of those already read. -/
def readDigits (acc : Nat) : List Char → Nat × List Char
  | [] => (acc, [])
  | c :: rest => if c.isDigit then readDigits (acc * 10 + (c.toNat - 48)) rest else (acc, c :: rest)

/-- A decimal natural number: at least one digit, then as many as follow. -/
def readNat (s : List Char) : Option (Nat × List Char) :=
  match s with
  | c :: _ => if c.isDigit then some (readDigits 0 s) else none
  | [] => none

/-- A decimal integer, `%d` style: an optional minus sign, then a natural number. -/
def readInt : List Char → Option (Int × List Char)
  | '-' :: rest => (readNat rest).map fun (n, r) => (-(n : Int), r)
  | s => (readNat s).map fun (n, r) => ((n : Int), r)

/-- Text that does not continue a number. -/
def NoDigitFirst (rest : List Char) : Prop :=
  ∀ c ∈ rest.head?, c.isDigit = false

theorem digitChar_spec {d : Nat} (small : d < 10) :
    (Nat.digitChar d).isDigit = true ∧ (Nat.digitChar d).toNat - 48 = d ∧ Nat.digitChar d ≠ '-' := by
  have all : ∀ d : Fin 10, (Nat.digitChar d).isDigit = true ∧ (Nat.digitChar d).toNat - 48 = d ∧
      Nat.digitChar d ≠ '-' := by decide
  exact all ⟨d, small⟩

theorem toDigitsCore_append (fuel n : Nat) (ds : List Char) (enough : n < fuel) :
    Nat.toDigitsCore 10 fuel n ds = Nat.toDigitsCore 10 fuel n [] ++ ds := by
  induction fuel generalizing n ds with
  | zero => omega
  | succ fuel ih =>
    simp only [Nat.toDigitsCore]
    split
    · rfl
    · rw [ih _ _ (by omega), ih (n / 10) [_] (by omega), List.append_assoc, List.singleton_append]

theorem toDigitsCore_fuel (fuel fuel' n : Nat) (enough : n < fuel) (enough' : n < fuel') :
    Nat.toDigitsCore 10 fuel n [] = Nat.toDigitsCore 10 fuel' n [] := by
  induction fuel generalizing fuel' n with
  | zero => omega
  | succ fuel ih =>
    obtain ⟨fuel', rfl⟩ : ∃ k, fuel' = k + 1 := ⟨fuel' - 1, by omega⟩
    simp only [Nat.toDigitsCore]
    split
    · rfl
    · rw [toDigitsCore_append _ _ _ (by omega), toDigitsCore_append fuel' _ _ (by omega),
        ih fuel' _ (by omega) (by omega)]

theorem toDigits_small {n : Nat} (small : n < 10) : Nat.toDigits 10 n = [Nat.digitChar n] := by
  simp [Nat.toDigits, Nat.toDigitsCore, Nat.div_eq_of_lt small, Nat.mod_eq_of_lt small]

theorem toDigits_large {n : Nat} (large : 10 ≤ n) :
    Nat.toDigits 10 n = Nat.toDigits 10 (n / 10) ++ [Nat.digitChar (n % 10)] := by
  have positive : n / 10 ≠ 0 := by omega
  show Nat.toDigitsCore 10 (n + 1) n [] = Nat.toDigitsCore 10 (n / 10 + 1) (n / 10) [] ++ _
  conv_lhs => simp only [Nat.toDigitsCore, positive, if_false]
  rw [toDigitsCore_append _ _ _ (by omega), toDigitsCore_fuel n (n / 10 + 1) _ (by omega) (by omega)]

/-- The rendering of a natural number starts with a digit, not a sign. -/
theorem toDigits_cons (n : Nat) :
    ∃ c cs, Nat.toDigits 10 n = c :: cs ∧ c.isDigit = true ∧ c ≠ '-' := by
  induction n using Nat.strong_induction_on with
  | _ n ih =>
    by_cases small : n < 10
    · exact ⟨_, [], toDigits_small small, (digitChar_spec small).1, (digitChar_spec small).2.2⟩
    · obtain ⟨c, cs, eq, digit, sign⟩ := ih (n / 10) (by omega)
      exact ⟨c, cs ++ _, by rw [toDigits_large (by omega), eq, List.cons_append], digit, sign⟩

/-- Reading the digits of `n` goes on from `acc` shifted past them plus `n`. -/
theorem readDigits_toDigits (n acc : Nat) (rest : List Char) :
    readDigits acc (Nat.toDigits 10 n ++ rest) =
      readDigits (acc * 10 ^ (Nat.toDigits 10 n).length + n) rest := by
  induction n using Nat.strong_induction_on generalizing acc rest with
  | _ n ih =>
    by_cases small : n < 10
    · obtain ⟨digit, value, _⟩ := digitChar_spec small
      simp [toDigits_small small, readDigits, digit, value]
    · obtain ⟨digit, value, _⟩ := digitChar_spec (Nat.mod_lt n (by omega : 10 > 0))
      rw [toDigits_large (by omega), List.append_assoc, List.singleton_append,
        ih _ (by omega), List.length_append, List.length_singleton]
      simp only [readDigits, digit, if_true, value]
      congr 1
      rw [Nat.pow_succ]
      have split := Nat.div_add_mod n 10
      set shifted := acc * 10 ^ (Nat.toDigits 10 (n / 10)).length
      calc (shifted + n / 10) * 10 + n % 10 = shifted * 10 + (10 * (n / 10) + n % 10) := by ring
        _ = acc * (10 ^ (Nat.toDigits 10 (n / 10)).length * 10) + n := by rw [split, Nat.mul_assoc]

theorem readDigits_stop (acc : Nat) {rest : List Char} (stop : NoDigitFirst rest) :
    readDigits acc rest = (acc, rest) := by
  cases rest with
  | nil => rfl
  | cons c rest => simp [readDigits, stop c rfl]

theorem readNat_toDigits (n : Nat) {rest : List Char} (stop : NoDigitFirst rest) :
    readNat (Nat.toDigits 10 n ++ rest) = some (n, rest) := by
  obtain ⟨c, cs, eq, digit, _⟩ := toDigits_cons n
  have read := readDigits_toDigits n 0 rest
  simp only [Nat.zero_mul, Nat.zero_add, readDigits_stop n stop] at read
  simp only [readNat, eq, List.cons_append, digit, if_true, ← read]

theorem readInt_of_ne_minus {c : Char} (sign : c ≠ '-') (rest : List Char) :
    readInt (c :: rest) = (readNat (c :: rest)).map fun (n, r) => ((n : Int), r) := by
  unfold readInt
  split
  · simp_all
  · rfl

/-- `%d` and `asn1p_itoa` text reads back as the integer it renders. -/
theorem readInt_toString (v : Int) {rest : List Char} (stop : NoDigitFirst rest) :
    readInt ((toString v).toList ++ rest) = some (v, rest) := by
  cases v with
  | ofNat n =>
    have text : (toString (Int.ofNat n)).toList = Nat.toDigits 10 n := rfl
    obtain ⟨c, cs, eq, _, sign⟩ := toDigits_cons n
    have read := readNat_toDigits n stop
    rw [eq, List.cons_append] at read
    rw [text, eq, List.cons_append, readInt_of_ne_minus sign, read]
    rfl
  | negSucc n =>
    have text : (toString (Int.negSucc n)).toList = '-' :: Nat.toDigits 10 (n + 1) := rfl
    rw [text, List.cons_append]
    simp only [readInt, readNat_toDigits (n + 1) stop, Option.map_some']
    rfl

/-- The text of an integer starts with a digit or a minus sign. -/
theorem toString_int_cons (v : Int) :
    ∃ c cs, (toString v).toList = c :: cs ∧ (c.isDigit = true ∨ c = '-') := by
  cases v with
  | ofNat n =>
    obtain ⟨c, cs, eq, digit, _⟩ := toDigits_cons n
    exact ⟨c, cs, eq, .inl digit⟩
  | negSucc n => exact ⟨'-', Nat.toDigits 10 (n + 1), rfl, .inr rfl⟩

theorem toString_int_injective {v w : Int} (same : toString v = toString w) : v = w := by
  have stop : NoDigitFirst [] := by simp [NoDigitFirst]
  have read := readInt_toString v stop
  rw [same, readInt_toString w stop] at read
  simpa using read.symm

end Asn1Proto
