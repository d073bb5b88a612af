import Asn1Proto.Ast

namespace Asn1Proto

/-- `toLowercaseDup`: the C-locale `tolower` of every character. -/
def toLowercaseDup (s : String) : String :=
  ⟨s.toList.map Char.toLower⟩

/-- The characters `toPascalCaseDup` drops, upper-casing the character after them. -/
def IsPascalSeparator (c : Char) : Prop :=
  c = '-' ∨ c = '&' ∨ c = '_'

instance (c : Char) : Decidable (IsPascalSeparator c) :=
  inferInstanceAs (Decidable (c = '-' ∨ c = '&' ∨ c = '_'))

/-- One turn of the loop of `toPascalCaseDup` on a character that is not a separator:
the character written and the new `lastWasUpper`. -/
def pascalChar (first lastWasUpper : Bool) (c : Char) : Char × Bool :=
  if first then (c.toUpper, true)
  else if c.isUpper then (if lastWasUpper then c.toLower else c, true)
  else (c, false)

/-- The loop of `toPascalCaseDup`, from position `i` on (`first` is `i == 0`). A separator
writes the next character upper-cased and skips it. At a trailing separator the C code
writes the terminator and goes on reading past it; the model ends the string there. -/
def pascalLoop (first lastWasUpper : Bool) : List Char → List Char
  | [] => []
  | c :: rest =>
    if IsPascalSeparator c then
      match rest with
      | [] => []
      | d :: rest => d.toUpper :: pascalLoop false true rest
    else
      (pascalChar first lastWasUpper c).1 :: pascalLoop false (pascalChar first lastWasUpper c).2 rest

def toPascalCaseDup (s : String) : String :=
  ⟨pascalLoop true false s.toList⟩

/-- `snake_case_e`. -/
inductive SnakeCase
  | lower | upper
  deriving DecidableEq, Repr

/-- One turn of the loop of `toSnakeCaseDup`: the characters written for `c` (the branch
that inserts `'_'` writes two) and the new `lastChanged`. -/
def snakeChar (tocase : SnakeCase) (first lastChanged : Bool) (c : Char) : List Char × Bool :=
  if first ∧ c = '&' then ([], true)
  else if tocase = .lower ∧ first = false ∧ c.isUpper ∧ lastChanged = false then
    (['_', c.toLower], true)
  else if tocase = .upper ∧ c.isLower then ([c.toUpper], true)
  else if tocase = .upper ∧ first = false ∧ c.isUpper then (['_', c.toUpper], true)
  else if tocase = .lower ∧ c.isUpper then ([c.toLower], true)
  else if c = '-' ∨ c = '.' then (['_'], true)
  else ([c], false)

def snakeLoop (tocase : SnakeCase) (first lastChanged : Bool) : List Char → List Char
  | [] => []
  | c :: rest =>
    (snakeChar tocase first lastChanged c).1 ++
      snakeLoop tocase false (snakeChar tocase first lastChanged c).2 rest

def toSnakeCaseDup (s : String) (tocase : SnakeCase) : String :=
  ⟨snakeLoop tocase true false s.toList⟩

/-- `startNotLcLetter`: the first character (the terminator of an empty string) is not a
lower-case letter. -/
def startNotLcLetter (name : String) : Bool :=
  match name.toList with
  | [] => true
  | c :: _ => !c.isLower

/-- The upper-case mode never consults `lastChanged`, so it puts an underscore before
every capital after the first character, where the lower-case mode keeps a run of
capitals in one word: the spec's `e2AP-PDU` becomes `E2_A_P__P_D_U`, not `E2_AP_PDU`. -/
theorem toSnakeCaseDup_upper_splits_capitals :
    toSnakeCaseDup "e2AP-PDU" .lower = "e2_ap_pdu" ∧
      toSnakeCaseDup "e2AP-PDU" .upper = "E2_A_P__P_D_U" ∧
      toSnakeCaseDup "e2AP-PDU" .upper ≠ ⟨(toSnakeCaseDup "e2AP-PDU" .lower).toList.map Char.toUpper⟩ := by
  decide

@[simp] theorem pascalLoop_nil (first lastWasUpper : Bool) : pascalLoop first lastWasUpper [] = [] :=
  rfl

@[simp] theorem snakeLoop_nil (tocase : SnakeCase) (first lastChanged : Bool) :
    snakeLoop tocase first lastChanged [] = [] := rfl

@[simp] theorem snakeLoop_cons (tocase : SnakeCase) (first lastChanged : Bool) (c : Char)
    (rest : List Char) :
    snakeLoop tocase first lastChanged (c :: rest) =
      (snakeChar tocase first lastChanged c).1 ++
        snakeLoop tocase false (snakeChar tocase first lastChanged c).2 rest := rfl

@[simp] theorem toSnakeCaseDup_toList (s : String) (tocase : SnakeCase) :
    (toSnakeCaseDup s tocase).toList = snakeLoop tocase true false s.toList := rfl

@[simp] theorem toPascalCaseDup_toList (s : String) :
    (toPascalCaseDup s).toList = pascalLoop true false s.toList := rfl

theorem char_toNat_ofNat {n : Nat} (small : n < 55296) : (Char.ofNat n).toNat = n := by
  rw [Char.ofNat, dif_pos (Or.inl small)]
  rfl

theorem char_eq_of_toNat_eq {c d : Char} (same : c.toNat = d.toNat) : c = d := by
  rw [← Char.ofNat_toNat c, same, Char.ofNat_toNat]

theorem isUpper_iff (c : Char) : c.isUpper = true ↔ 65 ≤ c.toNat ∧ c.toNat ≤ 90 := by
  simp [Char.isUpper, Char.toNat, UInt32.le_def]
  rfl

theorem isLower_iff (c : Char) : c.isLower = true ↔ 97 ≤ c.toNat ∧ c.toNat ≤ 122 := by
  simp [Char.isLower, Char.toNat, UInt32.le_def]
  rfl

theorem isDigit_iff (c : Char) : c.isDigit = true ↔ 48 ≤ c.toNat ∧ c.toNat ≤ 57 := by
  simp [Char.isDigit, Char.toNat, UInt32.le_def]
  rfl

theorem isAlphanum_iff (c : Char) : c.isAlphanum = true ↔
    (65 ≤ c.toNat ∧ c.toNat ≤ 90 ∨ 97 ≤ c.toNat ∧ c.toNat ≤ 122) ∨ 48 ≤ c.toNat ∧ c.toNat ≤ 57 := by
  rw [Char.isAlphanum, Char.isAlpha, Bool.or_eq_true, Bool.or_eq_true, isUpper_iff, isLower_iff, isDigit_iff]

theorem toNat_toLower (c : Char) :
    c.toLower.toNat = if 65 ≤ c.toNat ∧ c.toNat ≤ 90 then c.toNat + 32 else c.toNat := by
  unfold Char.toLower
  split
  · next h => rw [if_pos h, char_toNat_ofNat (by omega)]
  · next h => rw [if_neg h]

theorem toNat_toUpper (c : Char) :
    c.toUpper.toNat = if 97 ≤ c.toNat ∧ c.toNat ≤ 122 then c.toNat - 32 else c.toNat := by
  unfold Char.toUpper
  split
  · next h => rw [if_pos h, char_toNat_ofNat (by omega)]
  · next h => rw [if_neg h]

theorem toLower_of_not_isUpper {c : Char} (notUpper : c.isUpper = false) : c.toLower = c := by
  have : ¬ (65 ≤ c.toNat ∧ c.toNat ≤ 90) := by rw [← isUpper_iff]; simp [notUpper]
  exact char_eq_of_toNat_eq (by rw [toNat_toLower, if_neg this])

theorem toUpper_of_not_isLower {c : Char} (notLower : c.isLower = false) : c.toUpper = c := by
  have : ¬ (97 ≤ c.toNat ∧ c.toNat ≤ 122) := by rw [← isLower_iff]; simp [notLower]
  exact char_eq_of_toNat_eq (by rw [toNat_toUpper, if_neg this])

theorem isUpper_of_isLower {c : Char} (lower : c.isLower = true) : c.isUpper = false := by
  have := (isLower_iff c).1 lower
  rw [Bool.eq_false_iff, ne_eq, isUpper_iff]
  omega

theorem not_pascalSeparator {c : Char} (alnum : c.isAlphanum = true) : ¬ IsPascalSeparator c := by
  rintro (rfl | rfl | rfl) <;> exact absurd alnum (by decide)

theorem pascalLoop_cons_of_not_separator {first lastWasUpper : Bool} {c : Char} (rest : List Char)
    (letter : ¬ IsPascalSeparator c) :
    pascalLoop first lastWasUpper (c :: rest) =
      (pascalChar first lastWasUpper c).1 :: pascalLoop false (pascalChar first lastWasUpper c).2 rest := by
  rw [pascalLoop.eq_def]
  simp only [if_neg letter]

theorem isAlphanum_of_isLower {c : Char} (lower : c.isLower = true) : c.isAlphanum = true := by
  simp [Char.isAlphanum, Char.isAlpha, lower]

/-- The characters the rewriters treat as separators between the words of a name:
`toPascalCaseDup` drops `-`, `&` and `_`, and `toSnakeCaseDup` turns `-` and `.` into `_` and
drops a leading `&`. -/
def IsNameSeparator (c : Char) : Bool :=
  c == '-' || c == '_' || c == '&' || c == '.'

/-- A name up to case and separators: its other characters, in lower case. -/
def nameKey (s : List Char) : List Char :=
  (s.filter fun c => !IsNameSeparator c).map Char.toLower

section Keys

end Keys

end Asn1Proto
