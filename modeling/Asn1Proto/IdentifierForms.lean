import Asn1Proto.NameRewrite

namespace Asn1Proto

/-- Letters and digits in which every hyphen stands alone and is followed by a letter or
digit: what follows the first letter of an ASN.1 identifier. -/
def identTail : List Char → Bool
  | [] => true
  | [c] => c.isAlphanum
  | c :: d :: rest => (c.isAlphanum || c == '-' && d.isAlphanum) && identTail (d :: rest)

/-- An ASN.1 identifier: a letter, then letters, digits and single hyphens, not ending in a
hyphen; the fields of information object classes carry a leading `&`. -/
def isAsn1Identifier (s : String) : Bool :=
  match s.toList with
  | '&' :: c :: rest => c.isAlpha && identTail rest
  | c :: rest => c.isAlpha && identTail rest
  | [] => false

/-- A class field named with a capital after its `&`, as type fields are. -/
def ampersandCapital (s : String) : Bool :=
  match s.toList with
  | '&' :: c :: _ => c.isUpper
  | _ => false

/-- A proto3 identifier: a letter, then letters, digits and underscores. -/
def isProtoIdent (s : String) : Bool :=
  match s.toList with
  | c :: rest => c.isAlpha && rest.all fun d => d.isAlphanum || d == '_'
  | [] => false

section Characters

variable {c : Char}

theorem isAlpha_iff : c.isAlpha = true ↔ 65 ≤ c.toNat ∧ c.toNat ≤ 90 ∨ 97 ≤ c.toNat ∧ c.toNat ≤ 122 := by
  rw [Char.isAlpha, Bool.or_eq_true, isUpper_iff, isLower_iff]

theorem isUpper_toUpper (alpha : c.isAlpha = true) : c.toUpper.isUpper = true := by
  have range := isAlpha_iff.1 alpha
  rw [isUpper_iff, toNat_toUpper]
  split <;> omega

theorem isLower_toLower (alpha : c.isAlpha = true) : c.toLower.isLower = true := by
  have range := isAlpha_iff.1 alpha
  rw [isLower_iff, toNat_toLower]
  split <;> omega

theorem isAlphanum_toUpper (alnum : c.isAlphanum = true) : c.toUpper.isAlphanum = true := by
  have range := (isAlphanum_iff c).1 alnum
  rw [isAlphanum_iff, toNat_toUpper]
  split <;> omega

theorem isAlphanum_toLower (alnum : c.isAlphanum = true) : c.toLower.isAlphanum = true := by
  have range := (isAlphanum_iff c).1 alnum
  rw [isAlphanum_iff, toNat_toLower]
  split <;> omega

theorem isAlphanum_of_isAlpha (alpha : c.isAlpha = true) : c.isAlphanum = true := by
  rw [Char.isAlphanum, alpha, Bool.true_or]

theorem isAlpha_of_isUpper (upper : c.isUpper = true) : c.isAlpha = true := by
  rw [Char.isAlpha, upper, Bool.true_or]

end Characters

theorem identTail_tail {c : Char} {rest : List Char} (ident : identTail (c :: rest) = true) :
    identTail rest = true := by
  cases rest with
  | nil => rfl
  | cons d rest =>
    rw [identTail, Bool.and_eq_true] at ident
    exact ident.2

theorem identTail_head {c : Char} {rest : List Char} (ident : identTail (c :: rest) = true) :
    c.isAlphanum = true ∨ c = '-' ∧ ∃ d r, rest = d :: r ∧ d.isAlphanum = true := by
  cases rest with
  | nil => exact Or.inl ident
  | cons d rest =>
    simp only [identTail, Bool.and_eq_true, Bool.or_eq_true, beq_iff_eq] at ident
    rcases ident.1 with alnum | ⟨dash, next⟩
    · exact Or.inl alnum
    · exact Or.inr ⟨dash, d, rest, rfl, next⟩

theorem ne_of_isAlphanum {c d : Char} (alnum : c.isAlphanum = true) (other : d.isAlphanum = false) :
    c ≠ d := by
  rintro rfl
  rw [alnum] at other
  cases other

theorem isAsn1Identifier_cases {s : String} (ident : isAsn1Identifier s = true) :
    ∃ c rest, c.isAlpha = true ∧ identTail rest = true ∧
      (s.toList = c :: rest ∨ s.toList = '&' :: c :: rest) := by
  unfold isAsn1Identifier at ident
  split at ident
  next c rest same =>
    rw [Bool.and_eq_true] at ident
    exact ⟨c, rest, ident.1, ident.2, Or.inr same⟩
  next c rest _ same =>
    rw [Bool.and_eq_true] at ident
    exact ⟨c, rest, ident.1, ident.2, Or.inl same⟩
  next => cases ident

theorem ampersandCapital_of_isAlpha {c : Char} {rest : List Char} (alpha : c.isAlpha = true) :
    ampersandCapital ⟨c :: rest⟩ = false := by
  unfold ampersandCapital
  split
  next same =>
    obtain ⟨rfl, -⟩ := List.cons.inj same
    cases alpha
  next => rfl

/-- On a letter or digit after the first character, a turn of the lower-case `toSnakeCaseDup`
writes the character in lower case, after an underscore when it is a capital and the turn
before changed nothing. -/
theorem snakeChar_lower_alnum {c : Char} (lastChanged : Bool) (alnum : c.isAlphanum = true) :
    (snakeChar .lower false lastChanged c).1 =
      (if c.isUpper ∧ lastChanged = false then ['_'] else []) ++ [c.toLower] := by
  have notDash := ne_of_isAlphanum alnum (by decide : '-'.isAlphanum = false)
  have notDot := ne_of_isAlphanum alnum (by decide : '.'.isAlphanum = false)
  cases upper : c.isUpper
  · simp [snakeChar, upper, notDash, notDot, toLower_of_not_isUpper upper]
  · cases lastChanged <;> simp [snakeChar, upper]

/-- On a letter or digit after the first character, a turn of the upper-case `toSnakeCaseDup`
writes the character in upper case, after an underscore when it is a capital. -/
theorem snakeChar_upper_alnum {c : Char} (lastChanged : Bool) (alnum : c.isAlphanum = true) :
    (snakeChar .upper false lastChanged c).1 = (if c.isUpper then ['_'] else []) ++ [c.toUpper] := by
  have notDash := ne_of_isAlphanum alnum (by decide : '-'.isAlphanum = false)
  have notDot := ne_of_isAlphanum alnum (by decide : '.'.isAlphanum = false)
  cases lower : c.isLower
  · cases upper : c.isUpper <;>
      simp [snakeChar, lower, upper, notDash, notDot, toUpper_of_not_isLower lower]
  · simp [snakeChar, lower, isUpper_of_isLower lower]

theorem snakeChar_first {c : Char} (tocase : SnakeCase) (alpha : c.isAlpha = true) :
    (snakeChar tocase true false c).1 = [if tocase = .lower then c.toLower else c.toUpper] := by
  have alnum := isAlphanum_of_isAlpha alpha
  have notAmp := ne_of_isAlphanum alnum (by decide : '&'.isAlphanum = false)
  have notDash := ne_of_isAlphanum alnum (by decide : '-'.isAlphanum = false)
  have notDot := ne_of_isAlphanum alnum (by decide : '.'.isAlphanum = false)
  have letter := alpha
  rw [Char.isAlpha, Bool.or_eq_true] at letter
  rcases letter with upper | lower
  · have notLower : c.isLower = false := Bool.eq_false_iff.2 fun lower => by
      rw [isUpper_of_isLower lower] at upper
      cases upper
    cases tocase <;> simp [snakeChar, notAmp, upper, notLower, notDash, notDot,
      toUpper_of_not_isLower notLower]
  · cases tocase <;> simp [snakeChar, notAmp, lower, isUpper_of_isLower lower, notDash, notDot,
      toLower_of_not_isUpper (isUpper_of_isLower lower)]

section Forms

variable {s : String} {c : Char} {rest : List Char} (same : s.toList = c :: rest)
include same

end Forms

/-- The first turns of the three rewriters on an identifier: the first letter comes out upper-
or lower-cased, after the `&` is dropped; the upper-case mode puts an underscore before it
when it is a capital after `&`. -/
theorem identifier_first_turns {s : String} (ident : isAsn1Identifier s = true) :
    ∃ (c : Char) (rest : List Char) (lowerChanged upperChanged : Bool),
      c.isAlpha = true ∧ identTail rest = true ∧
      (toPascalCaseDup s).toList = c.toUpper :: pascalLoop false true rest ∧
      (toSnakeCaseDup s .lower).toList = c.toLower :: snakeLoop .lower false lowerChanged rest ∧
      (toSnakeCaseDup s .upper).toList = (if ampersandCapital s then ['_'] else []) ++
        c.toUpper :: snakeLoop .upper false upperChanged rest := by
  obtain ⟨c, rest, alpha, tail, form⟩ := isAsn1Identifier_cases ident
  have alnum := isAlphanum_of_isAlpha alpha
  obtain ⟨chars⟩ := s
  rcases form with rfl | rfl
  · refine ⟨c, rest, (snakeChar .lower true false c).2, (snakeChar .upper true false c).2, alpha, tail,
      ?_, ?_, ?_⟩
    · show pascalLoop true false (c :: rest) = _
      rw [pascalLoop_cons_of_not_separator rest (not_pascalSeparator alnum)]
      rfl
    · show snakeLoop .lower true false (c :: rest) = _
      rw [snakeLoop_cons, snakeChar_first .lower alpha]
      rfl
    · show snakeLoop .upper true false (c :: rest) = _
      rw [snakeLoop_cons, snakeChar_first .upper alpha, ampersandCapital_of_isAlpha alpha]
      rfl
  · have ampersand (tocase : SnakeCase) : snakeChar tocase true false '&' = ([], true) := by
      cases tocase <;> rfl
    have sep : IsPascalSeparator '&' := Or.inr (Or.inl rfl)
    refine ⟨c, rest, (snakeChar .lower false true c).2, (snakeChar .upper false true c).2, alpha, tail,
      ?_, ?_, ?_⟩
    · show pascalLoop true false ('&' :: c :: rest) = _
      rw [pascalLoop, if_pos sep]
    · show snakeLoop .lower true false ('&' :: c :: rest) = _
      rw [snakeLoop_cons, ampersand, snakeLoop_cons, snakeChar_lower_alnum true alnum,
        if_neg (fun both => Bool.noConfusion both.2)]
      rfl
    · show snakeLoop .upper true false ('&' :: c :: rest) = _
      rw [snakeLoop_cons, ampersand, snakeLoop_cons, snakeChar_upper_alnum true alnum]
      simp only [List.append_assoc, List.singleton_append]
      rfl

end Asn1Proto
