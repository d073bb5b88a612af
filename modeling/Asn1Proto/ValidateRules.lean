import Asn1Proto.Decimal

namespace Asn1Proto

/-- A value in a validation rule written in protobuf text format: a number or a list. -/
inductive RuleValue
  | num (v : Int)
  | list (vs : List Int)
  deriving DecidableEq, Repr

/-- One `key: value` of a rule. -/
structure RuleField where
  key : String
  value : RuleValue
  deriving DecidableEq, Repr

def skipWs : List Char → List Char
  | ' ' :: rest => skipWs rest
  | s => s

/-- The characters of a field name: lowercase letters, digits and underscores. -/
def isKeyChar (c : Char) : Bool :=
  c.isLower || c.isDigit || c == '_'

def readKey (s : List Char) : List Char × List Char :=
  (s.takeWhile isKeyChar, s.dropWhile isKeyChar)

/-- The rest of a list after one of its numbers: `]`, or `,` and the next number. -/
def readIntsTail : Nat → List Char → Option (List Int × List Char)
  | 0, _ => none
  | fuel + 1, s =>
    match skipWs s with
    | ']' :: rest => some ([], rest)
    | ',' :: rest =>
      match readInt (skipWs rest) with
      | some (v, r) => (readIntsTail fuel r).map fun (vs, r') => (v :: vs, r')
      | none => none
    | _ => none

/-- A list `[v, …]` after its opening bracket. -/
def readIntList (fuel : Nat) (s : List Char) : Option (List Int × List Char) :=
  match skipWs s with
  | ']' :: rest => some ([], rest)
  | s' =>
    match readInt s' with
    | some (v, r) => (readIntsTail fuel r).map fun (vs, r') => (v :: vs, r')
    | none => none

def readValue (fuel : Nat) : List Char → Option (RuleValue × List Char)
  | '[' :: rest => (readIntList fuel rest).map fun (vs, r) => (.list vs, r)
  | s => (readInt s).map fun (v, r) => (.num v, r)

/-- The comma that may separate two fields. -/
def dropComma : List Char → List Char
  | ',' :: rest => rest
  | s => s

/-- The fields of a message literal up to and including its closing brace. -/
def readFields : Nat → List Char → Option (List RuleField × List Char)
  | 0, _ => none
  | fuel + 1, s =>
    match skipWs s with
    | '}' :: rest => some ([], rest)
    | s' =>
      if (readKey s').1 = [] then none
      else
        match skipWs (readKey s').2 with
        | ':' :: r =>
          match readValue fuel (skipWs r) with
          | some (v, r') =>
            (readFields fuel (dropComma (skipWs r'))).map fun (fs, r'') => (⟨⟨(readKey s').1⟩, v⟩ :: fs, r'')
          | none => none
        | _ => none

/-- A rule `name = {fields}`, as it stands after `(validate.v1.rules).` in a field option. -/
def parseRule (rule : String) : Option (String × List RuleField) :=
  if (readKey rule.toList).1 = [] then none
  else
    match skipWs (readKey rule.toList).2 with
    | '=' :: r =>
      match skipWs r with
      | '{' :: body =>
        match readFields body.length body with
        | some (fields, rest) => if skipWs rest = [] then some (⟨(readKey rule.toList).1⟩, fields) else none
        | none => none
      | _ => none
    | _ => none

/-- The numbers of a list after its first, each behind a comma. -/
def intsTail : List Int → String
  | [] => ""
  | w :: ws => "," ++ toString w ++ intsTail ws

/-- The text of a list of numbers: comma-separated, with no spaces. -/
def intsText : List Int → String
  | [] => ""
  | v :: vs => toString v ++ intsTail vs

def RuleValue.text : RuleValue → String
  | .num v => toString v
  | .list vs => "[" ++ intsText vs ++ "]"

def RuleField.text (f : RuleField) : String :=
  f.key ++ ": " ++ f.value.text

def fieldsTail : List RuleField → String
  | [] => ""
  | g :: gs => ", " ++ g.text ++ fieldsTail gs

def fieldsText : List RuleField → String
  | [] => ""
  | f :: fs => f.text ++ fieldsTail fs

/-- A rule as the printer writes it: `name = {key: value, …}`. -/
def ruleText (name : String) (fields : List RuleField) : String :=
  name ++ " = \x7b" ++ fieldsText fields ++ "\x7d"

/-- How many numbers a value lists. -/
def RuleValue.size : RuleValue → Nat
  | .num _ => 0
  | .list vs => vs.length

/-- The fuel `readFields` needs for fields: a step for each field and the closing brace, and
a step for each number of a list. -/
def fuelNeeded : List RuleField → Nat
  | [] => 1
  | f :: fs => 1 + f.value.size + fuelNeeded fs

/-- A name the reader takes as a whole: non-empty, of field-name characters only. -/
def IsKey (key : String) : Prop :=
  key.toList ≠ [] ∧ ∀ c ∈ key.toList, isKeyChar c = true

end Asn1Proto

namespace Asn1Proto

theorem skipWs_cons {c : Char} (notSpace : c ≠ ' ') (rest : List Char) : skipWs (c :: rest) = c :: rest := by
  unfold skipWs
  split
  · simp_all
  · rfl

/-- A number's text starts with neither a space, a bracket, a brace nor a field-name sign. -/
theorem toString_int_head (v : Int) (rest : List Char) :
    ∃ c cs, (toString v).toList ++ rest = c :: cs ∧ c ≠ ' ' ∧ c ≠ '[' ∧ c ≠ ']' ∧ c ≠ '}' ∧ c ≠ ',' := by
  obtain ⟨c, cs, eq, digitOrMinus⟩ := toString_int_cons v
  refine ⟨c, cs ++ rest, by rw [eq, List.cons_append], ?_⟩
  rcases digitOrMinus with digit | rfl
  · refine ⟨?_, ?_, ?_, ?_, ?_⟩ <;> (rintro rfl; revert digit; decide)
  · decide

theorem skipWs_toString (v : Int) (rest : List Char) :
    skipWs ((toString v).toList ++ rest) = (toString v).toList ++ rest := by
  obtain ⟨c, cs, eq, notSpace, -⟩ := toString_int_head v rest
  rw [eq, skipWs_cons notSpace]

theorem readKey_append {key : String} (isKey : IsKey key) {rest : List Char}
    (stop : ∀ c ∈ rest.head?, isKeyChar c = false) : readKey (key.toList ++ rest) = (key.toList, rest) := by
  rw [readKey, List.takeWhile_append_of_pos isKey.2, List.dropWhile_append_of_pos isKey.2]
  cases rest with
  | nil => simp
  | cons c rest => simp [List.takeWhile_cons, List.dropWhile_cons, stop c rfl]

theorem readFields_space (fuel : Nat) (s : List Char) : readFields fuel (' ' :: s) = readFields fuel s := by
  cases fuel <;> rfl

/-- The text that may follow a number in a rule: nothing that continues it. -/
theorem noDigitFirst_cons {c : Char} (notDigit : c.isDigit = false) (rest : List Char) :
    NoDigitFirst (c :: rest) := by
  simpa [NoDigitFirst] using notDigit

/-- The numbers after the first of a list, each behind a comma, read back up to `]`. -/
theorem readIntsTail_intsTail (vs : List Int) (rest : List Char) (fuel : Nat) (enough : vs.length < fuel) :
    readIntsTail fuel ((intsTail vs).toList ++ ']' :: rest) = some (vs, rest) := by
  induction vs generalizing fuel with
  | nil =>
    obtain ⟨fuel, rfl⟩ : ∃ k, fuel = k + 1 := ⟨fuel - 1, by simp at enough; omega⟩
    simp [intsTail, readIntsTail, skipWs]
  | cons w ws ih =>
    obtain ⟨fuel, rfl⟩ : ∃ k, fuel = k + 1 := ⟨fuel - 1, by simp at enough; omega⟩
    have tailStop : NoDigitFirst ((intsTail ws).toList ++ ']' :: rest) := by
      cases ws <;> simp [intsTail, NoDigitFirst]
    have tail := ih fuel (by simp at enough; omega)
    have text : (intsTail (w :: ws)).toList ++ ']' :: rest =
        ',' :: ((toString w).toList ++ ((intsTail ws).toList ++ ']' :: rest)) := by
      simp [intsTail]
    rw [text]
    simp only [readIntsTail, skipWs_cons (by decide : ',' ≠ ' '), skipWs_toString,
      readInt_toString w tailStop, tail, Option.map_some']

theorem readIntList_intsText (vs : List Int) (rest : List Char) (fuel : Nat) (enough : vs.length ≤ fuel) :
    readIntList fuel ((intsText vs).toList ++ ']' :: rest) = some (vs, rest) := by
  cases vs with
  | nil => simp [intsText, readIntList, skipWs]
  | cons v vs =>
    have text : (intsText (v :: vs)).toList ++ ']' :: rest =
        (toString v).toList ++ ((intsTail vs).toList ++ ']' :: rest) := by
      simp [intsText]
    have stop : NoDigitFirst ((intsTail vs).toList ++ ']' :: rest) := by
      cases vs <;> simp [intsTail, NoDigitFirst]
    obtain ⟨c, cs, head, -, -, notClose, -, -⟩ := toString_int_head v ((intsTail vs).toList ++ ']' :: rest)
    unfold readIntList
    rw [text, skipWs_toString, head]
    split
    · next close => simp only [List.cons.injEq] at close; exact absurd close.1 notClose
    · rw [← head, readInt_toString v stop]
      dsimp only
      rw [readIntsTail_intsTail vs rest fuel (by simp at enough; omega)]
      rfl

theorem readValue_text (value : RuleValue) {after : List Char} (stop : NoDigitFirst after) (fuel : Nat)
    (enough : value.size ≤ fuel) : readValue fuel (value.text.toList ++ after) = some (value, after) := by
  cases value with
  | num v =>
    obtain ⟨c, cs, head, -, notOpen, -, -, -⟩ := toString_int_head v after
    unfold readValue
    rw [RuleValue.text, head]
    split
    · next opening => simp only [List.cons.injEq] at opening; exact absurd opening.1 notOpen
    · rw [← head, readInt_toString v stop]
      rfl
  | list vs =>
    have text : (RuleValue.list vs).text.toList ++ after = '[' :: ((intsText vs).toList ++ ']' :: after) := by
      simp [RuleValue.text]
    rw [text, readValue, readIntList_intsText vs after fuel enough]
    rfl

theorem skipWs_valueText (value : RuleValue) (after : List Char) :
    skipWs (value.text.toList ++ after) = value.text.toList ++ after := by
  cases value with
  | num v => exact skipWs_toString v after
  | list vs =>
    show skipWs ('[' :: _) = _
    rw [skipWs_cons (by decide)]
    rfl

/-- One field: its key, its value, and the comma after it if there is one. -/
theorem readFields_field (f : RuleField) (isKey : IsKey f.key) {after : List Char} (stop : NoDigitFirst after)
    (fuel : Nat) (enough : f.value.size ≤ fuel) :
    readFields (fuel + 1) (f.text.toList ++ after) =
      (readFields fuel (dropComma (skipWs after))).map fun (fs, r) => (f :: fs, r) := by
  obtain ⟨k, ks, key⟩ := List.exists_cons_of_ne_nil isKey.1
  have keyChar : isKeyChar k = true := isKey.2 k (by rw [key]; exact List.mem_cons_self _ _)
  have notSpace : k ≠ ' ' := by rintro rfl; revert keyChar; decide
  have notClose : k ≠ '}' := by rintro rfl; revert keyChar; decide
  have text : f.text.toList ++ after = f.key.toList ++ ':' :: ' ' :: (f.value.text.toList ++ after) := by
    simp [RuleField.text]
  have split : readKey (f.key.toList ++ ':' :: ' ' :: (f.value.text.toList ++ after)) =
      (f.key.toList, ':' :: ' ' :: (f.value.text.toList ++ after)) :=
    readKey_append isKey (by simp; decide)
  rw [text]
  conv_lhs => unfold readFields
  rw [key, List.cons_append, skipWs_cons notSpace, ← List.cons_append, ← key]
  split
  · next close => rw [key] at close; simp only [List.cons_append, List.cons.injEq] at close; exact absurd close.1 notClose
  · rw [split, if_neg isKey.1, skipWs_cons (by decide)]
    simp only [skipWs, skipWs_valueText, readValue_text f.value stop fuel enough]
    rfl

theorem readFields_close (fuel : Nat) (rest : List Char) : readFields (fuel + 1) ('}' :: rest) = some ([], rest) := by
  simp [readFields, skipWs]

/-- The fields after the first, each behind `", "`, read back up to the closing brace. -/
theorem readFields_fieldsTail (gs : List RuleField) (keys : ∀ g ∈ gs, IsKey g.key) (rest : List Char)
    (fuel : Nat) (enough : fuelNeeded gs ≤ fuel) :
    readFields fuel (dropComma (skipWs ((fieldsTail gs).toList ++ '}' :: rest))) = some (gs, rest) := by
  induction gs generalizing fuel with
  | nil =>
    obtain ⟨fuel, rfl⟩ : ∃ k, fuel = k + 1 := ⟨fuel - 1, by simp [fuelNeeded] at enough; omega⟩
    simp [fieldsTail, skipWs, dropComma, readFields_close]
  | cons g gs ih =>
    obtain ⟨fuel, rfl⟩ : ∃ k, fuel = k + 1 := ⟨fuel - 1, by simp [fuelNeeded] at enough; omega⟩
    have stop : NoDigitFirst ((fieldsTail gs).toList ++ '}' :: rest) := by
      cases gs <;> simp [fieldsTail, NoDigitFirst]
    have text : (fieldsTail (g :: gs)).toList ++ '}' :: rest =
        ',' :: ' ' :: (g.text.toList ++ ((fieldsTail gs).toList ++ '}' :: rest)) := by
      simp [fieldsTail]
    simp only [fuelNeeded] at enough
    rw [text, skipWs_cons (by decide), dropComma, readFields_space,
      readFields_field g (keys g (List.mem_cons_self _ _)) stop fuel (by omega),
      ih (fun g' member => keys g' (List.mem_cons_of_mem _ member)) fuel (by omega)]
    rfl

theorem readFields_fieldsText (fields : List RuleField) (keys : ∀ f ∈ fields, IsKey f.key) (rest : List Char)
    (fuel : Nat) (enough : fuelNeeded fields ≤ fuel) :
    readFields fuel ((fieldsText fields).toList ++ '}' :: rest) = some (fields, rest) := by
  obtain ⟨fuel, rfl⟩ : ∃ k, fuel = k + 1 := ⟨fuel - 1, by cases fields <;> simp [fuelNeeded] at enough ⊢ <;> omega⟩
  cases fields with
  | nil => exact readFields_close fuel rest
  | cons f fs =>
    have stop : NoDigitFirst ((fieldsTail fs).toList ++ '}' :: rest) := by
      cases fs <;> simp [fieldsTail, NoDigitFirst]
    have text : (fieldsText (f :: fs)).toList ++ '}' :: rest = f.text.toList ++ ((fieldsTail fs).toList ++ '}' :: rest) := by
      simp [fieldsText]
    simp only [fuelNeeded] at enough
    rw [text, readFields_field f (keys f (List.mem_cons_self _ _)) stop fuel (by omega),
      readFields_fieldsTail fs (fun g member => keys g (List.mem_cons_of_mem _ member)) rest fuel (by omega)]
    rfl

theorem toString_int_length (v : Int) : 1 ≤ (toString v).toList.length := by
  obtain ⟨c, cs, text, -⟩ := toString_int_cons v
  rw [text]
  exact Nat.succ_le_succ (Nat.zero_le _)

theorem intsTail_length (vs : List Int) : vs.length ≤ (intsTail vs).toList.length := by
  induction vs with
  | nil => simp
  | cons w ws ih => simp [intsTail] at ih ⊢; omega

theorem valueText_length (value : RuleValue) : value.size + 1 ≤ value.text.toList.length := by
  cases value with
  | num v => exact toString_int_length v
  | list vs =>
    cases vs with
    | nil => simp [RuleValue.size, RuleValue.text, intsText]
    | cons v vs =>
      have first := toString_int_length v
      have tail := intsTail_length vs
      simp [RuleValue.size, RuleValue.text, intsText] at first tail ⊢
      omega

/-- The text of the fields is long enough to give `readFields` the fuel it needs. -/
theorem fuelNeeded_le (fields : List RuleField) : fuelNeeded fields ≤ (fieldsText fields).toList.length + 1 := by
  have field (f : RuleField) : f.value.size + 1 ≤ f.text.length := by
    have value : f.value.size + 1 ≤ f.value.text.length := valueText_length f.value
    rw [RuleField.text, String.length_append, String.length_append]
    omega
  have tail (gs : List RuleField) : fuelNeeded gs ≤ (fieldsTail gs).length + 1 := by
    induction gs with
    | nil => exact Nat.le_refl 1
    | cons g gs ih =>
      have := field g
      rw [fuelNeeded, fieldsTail, String.length_append, String.length_append]
      have comma : (", " : String).length = 2 := rfl
      omega
  cases fields with
  | nil => exact Nat.le_refl 1
  | cons f fs =>
    have := field f
    have := tail fs
    show _ ≤ (f.text ++ fieldsTail fs).length + 1
    rw [fuelNeeded, String.length_append]
    omega

/-- The reader takes back every rule the printer's layout writes. -/
theorem parseRule_ruleText {name : String} (nameKey : IsKey name) {fields : List RuleField}
    (keys : ∀ f ∈ fields, IsKey f.key) : parseRule (ruleText name fields) = some (name, fields) := by
  have text : (ruleText name fields).toList =
      name.toList ++ ' ' :: '=' :: ' ' :: '{' :: ((fieldsText fields).toList ++ ['}']) := by
    simp [ruleText]
  have enough := fuelNeeded_le fields
  unfold parseRule
  rw [text, readKey_append nameKey (fun c mem => by cases mem; rfl), if_neg nameKey.1]
  simp only [skipWs]
  rw [readFields_fieldsText fields keys [] _ (by simpa using enough)]
  rfl

end Asn1Proto

namespace Asn1Proto

/-- A value of an `int32` field. -/
def InInt32 (v : Int) : Prop :=
  -2 ^ 31 ≤ v ∧ v < 2 ^ 31

instance (v : Int) : Decidable (InInt32 v) :=
  inferInstanceAs (Decidable (_ ∧ _))

/-- The check protoc-gen-validate generates for one field of an `int32` rule. -/
def int32Check (x : Int) (f : RuleField) : Bool :=
  match f.key, f.value with
  | "const", .num v => x == v
  | "lt", .num v => decide (x < v)
  | "lte", .num v => decide (x ≤ v)
  | "gt", .num v => decide (v < x)
  | "gte", .num v => decide (v ≤ x)
  | "in", .list vs => vs.contains x
  | "not_in", .list vs => !vs.contains x
  | _, _ => false

@[simp] theorem int32Check_lt (x v : Int) : int32Check x ⟨"lt", .num v⟩ = decide (x < v) := rfl

@[simp] theorem int32Check_lte (x v : Int) : int32Check x ⟨"lte", .num v⟩ = decide (x ≤ v) := rfl

@[simp] theorem int32Check_gt (x v : Int) : int32Check x ⟨"gt", .num v⟩ = decide (v < x) := rfl

@[simp] theorem int32Check_gte (x v : Int) : int32Check x ⟨"gte", .num v⟩ = decide (v ≤ x) := rfl

@[simp] theorem int32Check_in (x : Int) (vs : List Int) : int32Check x ⟨"in", .list vs⟩ = vs.contains x := rfl

def int32Accepts (fields : List RuleField) (x : Int) : Bool :=
  fields.all (int32Check x)

def ruleHas (fields : List RuleField) (key : String) : Bool :=
  fields.any (·.key == key)

/-- The number a rule gives a key, if it gives one. -/
def ruleNum (fields : List RuleField) (key : String) : Option Int :=
  match fields.find? (·.key == key) with
  | some ⟨_, .num v⟩ => some v
  | _ => none

/-- A field of an `int32` rule: a known key, a value of its kind, numbers that fit. -/
def int32FieldOk (f : RuleField) : Bool :=
  match f.key, f.value with
  | "const", .num v | "lt", .num v | "lte", .num v | "gt", .num v | "gte", .num v => decide (InInt32 v)
  | "in", .list vs | "not_in", .list vs => vs.all fun v => decide (InInt32 v)
  | _, _ => false

/-- The checks protoc-gen-validate makes of an `int32` rule before it generates code: known
keys, each once, at most one lower and one upper bound, `const` alone, not both `in` and
`not_in`; and a lower bound below the upper one, where its range check is the conjunction
of the two. -/
def int32RuleOk (fields : List RuleField) : Bool :=
  fields.all int32FieldOk && decide (fields.map (·.key)).Nodup &&
    !(ruleHas fields "lt" && ruleHas fields "lte") && !(ruleHas fields "gt" && ruleHas fields "gte") &&
    (!ruleHas fields "const" || fields.length == 1) && !(ruleHas fields "in" && ruleHas fields "not_in") &&
    match (ruleNum fields "gt").orElse (fun _ => ruleNum fields "gte"),
      (ruleNum fields "lt").orElse (fun _ => ruleNum fields "lte") with
    | some low, some high => decide (low < high)
    | _, _ => true

/-- The check protoc-gen-validate generates for one field of a `string` rule, on the number
of characters. -/
def stringCheck (n : Nat) (f : RuleField) : Bool :=
  match f.key, f.value with
  | "len", .num v => (n : Int) == v
  | "min_len", .num v => decide (v ≤ n)
  | "max_len", .num v => decide ((n : Int) ≤ v)
  | _, _ => false

@[simp] theorem stringCheck_min_len (n : Nat) (v : Int) : stringCheck n ⟨"min_len", .num v⟩ = decide (v ≤ n) := rfl

@[simp] theorem stringCheck_max_len (n : Nat) (v : Int) :
    stringCheck n ⟨"max_len", .num v⟩ = decide ((n : Int) ≤ v) := rfl

def stringAccepts (fields : List RuleField) (n : Nat) : Bool :=
  fields.all (stringCheck n)

def stringFieldOk (f : RuleField) : Bool :=
  match f.key, f.value with
  | "len", .num v | "min_len", .num v | "max_len", .num v => decide (0 ≤ v)
  | _, _ => false

/-- The checks of a `string` length rule: known keys with lengths, each once, `len` alone,
and `min_len` at most `max_len`. -/
def stringRuleOk (fields : List RuleField) : Bool :=
  fields.all stringFieldOk && decide (fields.map (·.key)).Nodup &&
    (!ruleHas fields "len" || !(ruleHas fields "min_len" || ruleHas fields "max_len")) &&
    match ruleNum fields "min_len", ruleNum fields "max_len" with
    | some low, some high => decide (low ≤ high)
    | _, _ => true

end Asn1Proto

namespace Asn1Proto

instance : DecidablePred IsKey :=
  fun _ => inferInstanceAs (Decidable (_ ∧ _))

end Asn1Proto
