import Asn1Proto.ProtoRead
import Asn1Proto.IdentifierForms

namespace Asn1Proto

/-- The characters of the names the printer writes for ASN.1 identifiers. -/
def isNameChar (c : Char) : Bool :=
  c.isAlphanum || c == '_' || c == '-' || c == '&'

/-- A word of a printed line: a name, not empty. -/
def IsWord (w : List Char) : Prop :=
  w ≠ [] ∧ ∀ c ∈ w, isNameChar c = true

theorem isNameChar_toUpper {c : Char} (name : isNameChar c = true) : isNameChar c.toUpper = true := by
  by_cases lower : c.isLower = true
  · simp only [isNameChar, isAlphanum_toUpper (isAlphanum_of_isLower lower), Bool.true_or]
  · rwa [toUpper_of_not_isLower (Bool.eq_false_iff.2 lower)]

theorem isNameChar_toLower {c : Char} (name : isNameChar c = true) : isNameChar c.toLower = true := by
  by_cases upper : c.isUpper = true
  · simp only [isNameChar, isAlphanum_toLower (isAlphanum_of_isAlpha (isAlpha_of_isUpper upper)),
      Bool.true_or]
  · rwa [toLower_of_not_isUpper (Bool.eq_false_iff.2 upper)]

/-- A character other than a letter is its own upper and lower case. -/
theorem eq_of_toUpper_eq {c d : Char} (same : c.toUpper = d) (notLetter : d.isAlpha = false) :
    c = d := by
  by_cases lower : c.isLower = true
  · rw [← same, isAlpha_of_isUpper (isUpper_toUpper (by rw [Char.isAlpha, lower, Bool.or_true]))] at notLetter
    cases notLetter
  · rwa [toUpper_of_not_isLower (Bool.eq_false_iff.2 lower)] at same

theorem pascalChar_fst (first lastWasUpper : Bool) (c : Char) :
    (pascalChar first lastWasUpper c).1 = c ∨ (pascalChar first lastWasUpper c).1 = c.toUpper ∨
      (pascalChar first lastWasUpper c).1 = c.toLower := by
  unfold pascalChar
  split
  · exact .inr (.inl rfl)
  · split
    · split
      · exact .inr (.inr rfl)
      · exact .inl rfl
    · exact .inl rfl

theorem snakeChar_fst (tocase : SnakeCase) (first lastChanged : Bool) (c : Char) :
    ∀ d ∈ (snakeChar tocase first lastChanged c).1, d = '_' ∨ d = c ∨ d = c.toUpper ∨ d = c.toLower := by
  unfold snakeChar
  split_ifs <;> simp

section Rewriting

variable (P : Char → Prop) (upper : ∀ {c}, P c → P c.toUpper) (lower : ∀ {c}, P c → P c.toLower)
include upper lower

/-- The characters `toPascalCaseDup` writes are those of its argument, some of them with
their case changed: a class of characters closed under case mapping is kept. -/
theorem pascalLoop_chars (first lastWasUpper : Bool) (s : List Char) (all : ∀ c ∈ s, P c) :
    ∀ d ∈ pascalLoop first lastWasUpper s, P d := by
  induction first, lastWasUpper, s using pascalLoop.induct with
  | case1 => exact fun _ none => absurd none (List.not_mem_nil _)
  | case2 first lastWasUpper c sep =>
    rw [pascalLoop, if_pos sep]
    exact fun _ none => absurd none (List.not_mem_nil _)
  | case3 first lastWasUpper c sep d rest ih =>
    rw [pascalLoop, if_pos sep, List.forall_mem_cons]
    exact ⟨upper (all d (by simp)), ih fun e member => all e (by simp [member])⟩
  | case4 first lastWasUpper c rest notSep ih =>
    rw [pascalLoop_cons_of_not_separator rest notSep, List.forall_mem_cons]
    have here := all c (List.mem_cons_self _ _)
    refine ⟨?_, ih fun e member => all e (List.mem_cons_of_mem _ member)⟩
    rcases pascalChar_fst first lastWasUpper c with same | same | same <;> rw [same]
    · exact here
    · exact upper here
    · exact lower here

/-- The characters `toSnakeCaseDup` writes are those of its argument, some of them with their
case changed, and underscores. -/
theorem snakeLoop_chars (underscore : P '_') (tocase : SnakeCase) (first lastChanged : Bool)
    (s : List Char) (all : ∀ c ∈ s, P c) : ∀ d ∈ snakeLoop tocase first lastChanged s, P d := by
  induction s generalizing first lastChanged with
  | nil => exact fun _ none => absurd none (List.not_mem_nil _)
  | cons c s ih =>
    have here := all c (List.mem_cons_self _ _)
    intro d member
    rw [snakeLoop_cons, List.mem_append] at member
    rcases member with written | later
    · rcases snakeChar_fst tocase first lastChanged c d written with rfl | rfl | rfl | rfl
      · exact underscore
      · exact here
      · exact upper here
      · exact lower here
    · exact ih _ _ (fun e member => all e (List.mem_cons_of_mem _ member)) d later

end Rewriting

theorem identTail_nameChars {rest : List Char} (tail : identTail rest = true) :
    ∀ d ∈ rest, isNameChar d = true := by
  induction rest with
  | nil => exact fun _ none => absurd none (List.not_mem_nil _)
  | cons d rest ih =>
    refine List.forall_mem_cons.2 ⟨?_, ih (identTail_tail tail)⟩
    rcases identTail_head tail with alnum | ⟨rfl, -⟩
    · simp only [isNameChar, alnum, Bool.true_or]
    · rfl

theorem isNameChar_of_identifier {s : String} (ident : isAsn1Identifier s = true) :
    ∀ c ∈ s.toList, isNameChar c = true := by
  obtain ⟨c, rest, alpha, tail, form⟩ := isAsn1Identifier_cases ident
  have restChars := identTail_nameChars tail
  have first : isNameChar c = true := by simp only [isNameChar, isAlphanum_of_isAlpha alpha, Bool.true_or]
  rcases form with same | same <;> rw [same]
  · exact List.forall_mem_cons.2 ⟨first, restChars⟩
  · exact List.forall_mem_cons.2 ⟨rfl, List.forall_mem_cons.2 ⟨first, restChars⟩⟩

/-- The names the printer writes for an ASN.1 identifier are words. -/
theorem identifier_words {s : String} (ident : isAsn1Identifier s = true) :
    IsWord (toPascalCaseDup s).toList ∧ IsWord (toSnakeCaseDup s .lower).toList ∧
      IsWord (toSnakeCaseDup s .upper).toList := by
  obtain ⟨c, rest, lowerChanged, upperChanged, -, -, pascal, lower, upper⟩ := identifier_first_turns ident
  have chars := isNameChar_of_identifier ident
  refine ⟨⟨by rw [pascal]; exact List.cons_ne_nil _ _, ?_⟩, ⟨by rw [lower]; exact List.cons_ne_nil _ _, ?_⟩,
    ⟨by rw [upper]; simp, ?_⟩⟩
  · exact pascalLoop_chars (fun c => isNameChar c = true) isNameChar_toUpper isNameChar_toLower true false _ chars
  · exact snakeLoop_chars (fun c => isNameChar c = true) isNameChar_toUpper isNameChar_toLower rfl .lower true false _ chars
  · exact snakeLoop_chars (fun c => isNameChar c = true) isNameChar_toUpper isNameChar_toLower rfl .upper true false _ chars

theorem printedType_word (host : Host) {type : String} (ident : isAsn1Identifier type = true) :
    IsWord (printedType host type).toList := by
  unfold printedType
  split
  · obtain ⟨c, rest, -, -, form⟩ := isAsn1Identifier_cases ident
    exact ⟨by rcases form with same | same <;> rw [same] <;> exact List.cons_ne_nil _ _,
      isNameChar_of_identifier ident⟩
  · exact (identifier_words ident).1

theorem IsWord.not_mem {w : List Char} (word : IsWord w) {c : Char} (other : isNameChar c = false) :
    c ∉ w := fun member => by
  rw [word.2 c member] at other
  cases other

theorem IsWord.cons {w : List Char} (word : IsWord w) :
    ∃ c rest, w = c :: rest ∧ isNameChar c = true ∧ ∀ d ∈ rest, isNameChar d = true := by
  obtain ⟨nonempty, chars⟩ := word
  obtain ⟨c, rest, rfl⟩ := List.exists_cons_of_ne_nil nonempty
  exact ⟨c, rest, rfl, chars c (List.mem_cons_self _ _), fun d member => chars d (List.mem_cons_of_mem _ member)⟩

theorem toDigits_isDigit (n : Nat) : ∀ c ∈ Nat.toDigits 10 n, c.isDigit = true := by
  induction n using Nat.strong_induction_on with
  | _ n ih =>
    by_cases small : n < 10
    · rw [toDigits_small small]
      simpa using (digitChar_spec small).1
    · rw [toDigits_large (by omega), List.forall_mem_append]
      exact ⟨ih _ (by omega), by simpa using (digitChar_spec (Nat.mod_lt n (by omega))).1⟩

theorem newline_not_mem_toString_nat (n : Nat) : '\n' ∉ (toString n).toList := fun member => by
  have digit := toDigits_isDigit n _ member
  cases digit

theorem newline_not_mem_toString_int (v : Int) : '\n' ∉ (toString v).toList := by
  cases v with
  | ofNat n => exact newline_not_mem_toString_nat n
  | negSucc n =>
    show '\n' ∉ '-' :: Nat.toDigits 10 (n + 1)
    exact List.not_mem_cons_of_ne_of_not_mem (by decide) (newline_not_mem_toString_nat (n + 1))

theorem indent_blank (flags : Flags) (level : Nat) : ∀ c ∈ (indent flags level).toList, c = ' ' := by
  unfold indent
  split
  · exact fun _ none => absurd none (List.not_mem_nil _)
  · intro c member
    simp only [String.join_eq, String.toList, List.map_replicate, List.mem_flatten, List.mem_replicate] at member
    obtain ⟨_, ⟨_, rfl⟩, inside⟩ := member
    simpa using inside

/-- The rule option of a field line, when the field has a rule. -/
def fieldRule (rules : String) : List Char :=
  if rules = "" then [] else " [(validate.v1.rules).".toList ++ rules.toList ++ [']']

/-- The end of a field line: `;`, then the comment. -/
def fieldEnd (comments : String) : List Char :=
  if comments = "" then [';'] else "; // ".toList ++ comments.toList

/-- The line `print_entries` writes for a field, after its indentation and before its
newline. -/
def FieldLine.line (l : FieldLine) : List Char :=
  (if l.repeated then "repeated ".toList else []) ++ l.type.toList ++ ' ' :: l.name.toList ++
    " = ".toList ++ (toString l.number).toList ++ fieldRule l.rules ++ fieldEnd l.comments

theorem FieldLine.text_toList (flags : Flags) (level : Nat) (l : FieldLine) :
    (l.text flags level).toList = (indent flags level).toList ++ l.line ++ ['\n'] := by
  simp only [FieldLine.text, FieldLine.line, fieldRule, fieldEnd, String.toList, String.data_append,
    List.append_assoc]
  split_ifs <;> rfl

/-- The line `proto_print_single_enum` writes for a constant. -/
def EnumLine.line (l : EnumLine) : List Char :=
  l.name.toList ++ " = ".toList ++ (toString l.value).toList ++
    (if l.auto then "; // auto generated".toList else [';'])

theorem EnumLine.text_toList (flags : Flags) (level : Nat) (l : EnumLine) :
    (l.text flags level).toList = (indent flags level).toList ++ l.line ++ ['\n'] := by
  simp only [EnumLine.text, EnumLine.line, String.toList, String.data_append, List.append_assoc]
  split_ifs <;> rfl

/-- What a field line needs to read back: its type and name are words, its rule and comment
stay on the line, and its comment, which follows the rule's closing bracket, has no `]`. -/
structure FieldLine.Readable (l : FieldLine) : Prop where
  type : IsWord l.type.toList
  name : IsWord l.name.toList
  rules : '\n' ∉ l.rules.toList
  comments : '\n' ∉ l.comments.toList
  noBracket : ']' ∉ l.comments.toList

theorem readFieldEnd_fieldEnd (comments : String) : readFieldEnd (fieldEnd comments) = some comments := by
  unfold fieldEnd
  split
  · next empty => rw [empty]; rfl
  · rfl

theorem readFieldTail_line {rules comments : String} (noBracket : ']' ∉ comments.toList) :
    readFieldTail (fieldRule rules ++ fieldEnd comments) = some (rules, comments) := by
  have endOutside : ']' ∉ fieldEnd comments := by
    unfold fieldEnd
    split
    · decide
    · simpa using noBracket
  unfold fieldRule
  split
  · next empty =>
    have start : afterPrefix " [(validate.v1.rules).".toList (fieldEnd comments) = none := by
      unfold fieldEnd
      split <;> rfl
    rw [List.nil_append, readFieldTail, start, readFieldEnd_fieldEnd, empty]
    rfl
  · simp only [List.append_assoc, readFieldTail, afterPrefix_append, List.singleton_append,
      splitLast_append endOutside, readFieldEnd_fieldEnd, Option.map_some']
    rfl

theorem noDigitFirst_tail (rules comments : String) : NoDigitFirst (fieldRule rules ++ fieldEnd comments) := by
  unfold fieldRule fieldEnd
  split <;> split <;> (intro c first; simp at first; subst first; rfl)

theorem fieldFrom_line (repeated : Bool) (l : FieldLine) (noBracket : ']' ∉ l.comments.toList) :
    fieldFrom repeated l.type.toList l.name.toList
      ((toString l.number).toList ++ fieldRule l.rules ++ fieldEnd l.comments) = some { l with repeated } := by
  rw [fieldFrom, List.append_assoc, show (toString l.number).toList = Nat.toDigits 10 l.number from rfl,
    readNat_toDigits l.number (noDigitFirst_tail l.rules l.comments)]
  simp only [readFieldTail_line noBracket, Option.map_some']
  rfl

theorem afterPrefix_equals (x : List Char) : afterPrefix " = ".toList (' ' :: ("= ".toList ++ x)) = some x :=
  afterPrefix_append _ x

/-- A field line reads back as the field, `repeated` label included. -/
theorem readField_line (l : FieldLine) (readable : l.Readable) : readField l.line = some l := by
  have typeBlank : ' ' ∉ l.type.toList := readable.type.not_mem rfl
  have nameBlank : ' ' ∉ l.name.toList := readable.name.not_mem rfl
  have tail := fieldFrom_line l.repeated l readable.noBracket
  rw [List.append_assoc] at tail
  have body : l.line = (if l.repeated then "repeated".toList ++ [' '] else []) ++ l.type.toList ++
      ' ' :: (l.name.toList ++ ' ' :: ("= ".toList ++
        ((toString l.number).toList ++ fieldRule l.rules ++ fieldEnd l.comments))) := by
    simp only [FieldLine.line, List.append_assoc]
    rfl
  obtain ⟨c, rest, same, name, -⟩ := readable.name.cons
  have notNumber (x : List Char) : afterPrefix "= ".toList (l.name.toList ++ x) = none := by
    rw [same, List.cons_append]
    exact afterPrefix_cons_ne (fun eq => by rw [← eq] at name; cases name) _ _
  rw [body]
  cases repeated : l.repeated
  · simp only [Bool.false_eq_true, if_false, List.nil_append, List.append_assoc, readField,
      span_append_cons typeBlank,
      span_append_cons nameBlank, afterPrefix_append]
    rw [← repeated]
    exact tail
  · simp only [if_true, List.append_assoc, List.singleton_append, List.cons_append, List.nil_append,
      readField, span_append_cons (by decide : ' ' ∉ "repeated".toList), span_append_cons typeBlank,
      notNumber, span_append_cons nameBlank, afterPrefix_equals, Option.some_bind]
    rw [← repeated]
    exact tail

/-- A constant line reads back as the constant, the auto-generated mark included. -/
theorem readEnumLine_line (l : EnumLine) (word : IsWord l.name.toList) : readEnumLine l.line = some l := by
  have nameBlank : ' ' ∉ l.name.toList := word.not_mem rfl
  have stop : NoDigitFirst (if l.auto then "; // auto generated".toList else [';']) := by
    split <;> (intro c first; simp at first; subst first; rfl)
  have body : l.line = l.name.toList ++ ' ' :: ("= ".toList ++
      ((toString l.value).toList ++ (if l.auto then "; // auto generated".toList else [';']))) := by
    simp only [EnumLine.line, List.append_assoc]
    rfl
  rw [body, readEnumLine, span_append_cons nameBlank]
  simp only [afterPrefix_equals, Option.some_bind, readInt_toString l.value stop]
  cases auto : l.auto
  · simp only [Bool.false_eq_true, if_false, if_true]
    rw [← auto]
    rfl
  · simp only [if_true, show "; // auto generated".toList ≠ [';'] by decide, if_false]
    rw [← auto]
    rfl

/-- A line that starts with neither a blank nor `//` is a declaration line. -/
theorem readLine_of_decl {r : Reader} {c : Char} {rest : List Char} (notBlank : c ≠ ' ') (notSlash : c ≠ '/')
    (pad : List Char) (blank : ∀ d ∈ pad, d = ' ') :
    readLine r (pad ++ c :: rest) = readDecl r (c :: rest) := by
  rw [readLine, skipWs_blanks blank, skipWs_cons notBlank]
  split
  · next same => cases same
  · next text same => exact absurd (List.cons.inj same).1 notSlash
  · rfl

theorem readLine_cons_of_decl {r : Reader} {c : Char} {rest : List Char} (notBlank : c ≠ ' ')
    (notSlash : c ≠ '/') : readLine r (c :: rest) = readDecl r (c :: rest) :=
  readLine_of_decl notBlank notSlash [] fun _ none => absurd none (List.not_mem_nil _)

theorem FieldLine.Readable.head {l : FieldLine} (readable : l.Readable) :
    ∃ c rest, l.line = c :: rest ∧ c ≠ ' ' ∧ c ≠ '/' := by
  unfold FieldLine.line
  split
  · exact ⟨'r', _, rfl, by decide, by decide⟩
  · obtain ⟨c, rest, same, name, -⟩ := readable.type.cons
    refine ⟨c, _, by rw [List.nil_append, same]; rfl, fun blank => ?_, fun slash => ?_⟩ <;>
      · subst_vars
        cases name

theorem cons_ne_of_head_ne {c d : Char} {s t : List Char} (differ : c ≠ d) : c :: s ≠ d :: t :=
  fun same => differ (List.cons.inj same).1

/-- A word starts with a character that is neither a blank, a slash nor a closing brace. -/
theorem IsWord.start {w : List Char} (word : IsWord w) :
    ∃ c rest, w = c :: rest ∧ c ≠ ' ' ∧ c ≠ '/' ∧ c ≠ '\x7d' := by
  obtain ⟨c, rest, same, name, -⟩ := word.cons
  refine ⟨c, rest, same, ?_, ?_, ?_⟩ <;> (rintro rfl; cases name)

theorem EnumLine.line_start {l : EnumLine} (word : IsWord l.name.toList) :
    ∃ c rest, l.line = c :: rest ∧ c ≠ ' ' ∧ c ≠ '/' ∧ c ≠ '\x7d' := by
  obtain ⟨c, rest, same, notBlank, notSlash, notClose⟩ := word.start
  exact ⟨c, _, by rw [EnumLine.line, same]; rfl, notBlank, notSlash, notClose⟩

theorem EnumLine.oneLine {l : EnumLine} (word : IsWord l.name.toList) : '\n' ∉ l.line := by
  have name := word.not_mem (show isNameChar '\n' = false from rfl)
  have value := newline_not_mem_toString_int l.value
  simp only [EnumLine.line, List.mem_append, not_or]
  split_ifs <;> exact ⟨⟨⟨name, by decide⟩, value⟩, by decide⟩

theorem FieldLine.Readable.oneLine {l : FieldLine} (readable : l.Readable) : '\n' ∉ l.line := by
  have type := readable.type.not_mem (show isNameChar '\n' = false from rfl)
  have name := readable.name.not_mem (show isNameChar '\n' = false from rfl)
  have number := newline_not_mem_toString_nat l.number
  have rules := readable.rules
  have comments := readable.comments
  simp only [FieldLine.line, fieldRule, fieldEnd, List.mem_append, List.mem_cons, not_or]
  split_ifs <;> simp_all

theorem FieldLine.equals_mem_line (l : FieldLine) : '=' ∈ l.line := by
  simp [FieldLine.line]

end Asn1Proto
