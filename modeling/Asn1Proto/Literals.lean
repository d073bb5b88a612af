import Asn1Proto.LowerSpec
import Asn1Proto.ProtoText

namespace Asn1Proto

theorem toCInt_eq_self_iff (v : Int) : toCInt v = v ↔ -2 ^ 31 ≤ v ∧ v < 2 ^ 31 := by
  rw [toCInt, Int.bmod_def]
  push_cast
  split <;> omega

theorem snprintf100_of_length {s : String} (fits : s.length ≤ 99) : snprintf100 s = s := by
  obtain ⟨chars⟩ := s
  show (⟨chars.take 99⟩ : String) = ⟨chars⟩
  rw [List.take_of_length_le fits]

theorem charValue_plain {c : Char} (plain : c ≠ '\\' ∧ c ≠ '\n' ∧ c ≠ '\x00') (rest : List Char) :
    charValue (c :: rest) = some (c, rest) := by
  simp [charValue, plain.1, plain.2.1, plain.2.2]

/-- The literal body `escapeQuotesDup` writes reads back as the string, up to the closing
quote, when the string has no backslash, newline or NUL for the decoder to take as an escape
or reject. -/
theorem strLitBody_escapeQuotesDup (s post : List Char) (plain : ∀ c ∈ s, c ≠ '\\' ∧ c ≠ '\n' ∧ c ≠ '\x00')
    (fuel : Nat) (enough : s.length < fuel) :
    strLitBody fuel (escapeQuotesDup s ++ '"' :: post) = some (s, post) := by
  induction s generalizing fuel with
  | nil =>
    obtain ⟨fuel, rfl⟩ : ∃ k, fuel = k + 1 := ⟨fuel - 1, by simp only [List.length_nil] at enough; omega⟩
    simp [escapeQuotesDup, strLitBody]
  | cons c s ih =>
    simp only [List.length_cons] at enough
    obtain ⟨fuel, rfl⟩ : ∃ k, fuel = k + 1 := ⟨fuel - 1, by omega⟩
    have rest := ih (fun d member => plain d (List.mem_cons_of_mem _ member)) fuel (by omega)
    by_cases quote : c = '"'
    · subst quote
      have escaped : charValue ('\\' :: '"' :: (escapeQuotesDup s ++ '"' :: post)) =
          some ('"', escapeQuotesDup s ++ '"' :: post) := rfl
      rw [escapeQuotesDup, if_pos rfl]
      simp only [List.cons_append, List.nil_append]
      rw [strLitBody, if_neg (by decide), escaped]
      simp only [rest, Option.map_some']
    · have first := plain c (List.mem_cons_self _ _)
      simp [escapeQuotesDup, quote, strLitBody, charValue_plain first, rest]

theorem escapeQuotesDup_length_le (s : List Char) : s.length ≤ (escapeQuotesDup s).length := by
  induction s with
  | nil => simp [escapeQuotesDup]
  | cons c s ih => by_cases quote : c = '"' <;> simp [escapeQuotesDup, quote] <;> omega

/-- A `REFERENCE`-typed value assignment of a string without backslashes, newlines or NULs,
short enough that `string.const = "…"` fits the 100 bytes `snprintf` is given, becomes a
`string` field whose rule holds the whole literal, and the literal decodes to the string. -/
theorem string_const_rule_decodes (host : Host) (flags : Flags) (modFile : String) (expr : Expr)
    (name : String) (s : List Char) (st : Lowered) (specs : expr.specializations = [])
    (named : expr.identifier = some name) (meta : expr.metaType = .value)
    (kind : expr.exprType = .reference) (value : expr.value = some (.string s))
    (plain : ∀ c ∈ s, c ≠ '\\' ∧ c ≠ '\n' ∧ c ≠ '\x00') (fits : (escapeQuotesDup s).length ≤ 82) :
    ∃ field, asn1printExprProto host flags modFile expr st =
        (0, st.addMsg (protoMsgAddElem (protoCreateMessage name expr.specIndex expr.typeUniqueIndex
          (provenance "reference" modFile expr.lineno)) field)) ∧
      field.type = "string" ∧
      ∃ lit, field.rules.toList = "string.const = \"".toList ++ lit ∧ decodeStrLit lit = some (s, []) := by
  rw [asn1printExprProto_definition specs named, lowerDefinition_value_reference meta kind]
  have whole : snprintf100 ("string.const = \"" ++ ⟨escapeQuotesDup s⟩ ++ "\"") =
      "string.const = \"" ++ ⟨escapeQuotesDup s⟩ ++ "\"" := by
    apply snprintf100_of_length
    have opening : ("string.const = \"" : String).length = 16 := by decide
    simp only [String.length_append, opening]
    simp only [String.length, String.toList, List.length_singleton] at fits ⊢
    omega
  refine ⟨{ valueElem with comments := ".".intercalate expr.reference, type := "string",
                           rules := "string.const = \"" ++ ⟨escapeQuotesDup s⟩ ++ "\"" },
    by simp only [lowerReferenceValue, value, whole], rfl, escapeQuotesDup s ++ ['"'], ?_, ?_⟩
  · show ("string.const = \"" ++ ⟨escapeQuotesDup s⟩ ++ "\"").toList = _
    simp
  have enough := escapeQuotesDup_length_le s
  simpa [decodeStrLit] using strLitBody_escapeQuotesDup s [] plain
    ((escapeQuotesDup s ++ ['"']).length + 1) (by simp; omega)

/-- `greeting Text ::= "say ""hi"""`, whose value holds two quotes. -/
theorem greeting_string_const_rule_decodes :
    ∃ field, asn1printExprProto Host.sample {} "m.asn"
        { identifier := some "greeting", metaType := .value, exprType := .reference,
          value := some (.string "say \"hi\"".toList), members := [], specializations := [] } ⟨[], [], []⟩ =
        (0, (⟨[], [], []⟩ : Lowered).addMsg (protoMsgAddElem
          (protoCreateMessage "greeting" (-1) 0 (provenance "reference" "m.asn" 0)) field)) ∧
      field.type = "string" ∧
      ∃ lit, field.rules.toList = "string.const = \"".toList ++ lit ∧
        decodeStrLit lit = some ("say \"hi\"".toList, []) :=
  string_const_rule_decodes Host.sample {} "m.asn"
    { identifier := some "greeting", metaType := .value, exprType := .reference,
      value := some (.string "say \"hi\"".toList), members := [], specializations := [] }
    "greeting" "say \"hi\"".toList ⟨[], [], []⟩ rfl rfl rfl rfl rfl (by decide) (by decide)

/-- The body `escapeQuotesDup` leaves a backslash in, so `\n` in the value reads back as a
newline: the literal does not decode to the string. -/
theorem string_const_backslash_decodes_otherwise :
    ((asn1printExprProto Host.sample {} "m.asn"
      { identifier := some "text", metaType := .value, exprType := .reference, value := some (.string ['\\', 'n']),
        reference := ["Text"], members := [], specializations := [] } ⟨[], [], []⟩).2.message.map
        fun msg => msg.entry.map (·.rules)) = [["string.const = \"\\n\""]] ∧
      decodeStrLit ['\\', 'n', '"'] = some (['\n'], []) := by
  decide

theorem int32Const_text_eq_iff (v w : Int) :
    "int32.const = " ++ toString v = "int32.const = " ++ toString w ↔ v = w := by
  constructor
  · intro same
    apply toString_int_injective
    have lists := congrArg String.data same
    simp only [String.data_append, List.append_cancel_left_eq] at lists
    exact String.ext lists
  · rintro rfl
    rfl

/-- Every `int32.const` rule the lowering writes, for an `INTEGER` or `REFERENCE` value
assignment and for an integer cell of an information object set, prints the `(int)` cast
of the value: the value itself exactly when it lies in the signed 32-bit range. -/
theorem int32_const_rule_wraps (host : Host) (flags : Flags) (modFile : String) (expr : Expr)
    (name : String) (st : Lowered) (cell : IocCell) (v : Int) (specs : expr.specializations = [])
    (named : expr.identifier = some name) (meta : expr.metaType = .value)
    (kind : expr.exprType = .integer ∨ expr.exprType = .reference) (value : expr.value = some (.integer v))
    (cellValue : cell.value.value = some (.integer v)) :
    (∃ msg field, asn1printExprProto host flags modFile expr st = (0, st.addMsg msg) ∧
      msg.entry = [field] ∧ field.rules = "int32.const = " ++ toString (toCInt v)) ∧
    (iocCellElem cell).rules = "int32.const = " ++ toString (toCInt v) ∧
    ("int32.const = " ++ toString (toCInt v) = "int32.const = " ++ toString v ↔
      -2 ^ 31 ≤ v ∧ v < 2 ^ 31) := by
  refine ⟨?_, by simp [iocCellElem, cellValue, protoCreateMsgElem],
    by rw [int32Const_text_eq_iff, toCInt_eq_self_iff]⟩
  rw [asn1printExprProto_definition specs named]
  rcases kind with kind | kind
  · rw [lowerDefinition_value_integer meta kind]
    exact ⟨_, _, rfl, rfl, by simp [value, vInteger]⟩
  · rw [lowerDefinition_value_reference meta kind]
    simp only [lowerReferenceValue, value]
    exact ⟨_, _, rfl, rfl, rfl⟩

/-- `seven INTEGER ::= 7`, with a cell holding 7. -/
theorem seven_int32_const_rule_wraps :
    (∃ msg field, asn1printExprProto Host.sample {} "m.asn"
        { identifier := some "seven", metaType := .value, exprType := .integer, value := some (.integer 7),
          members := [], specializations := [] } ⟨[], [], []⟩ = (0, (⟨[], [], []⟩ : Lowered).addMsg msg) ∧
      msg.entry = [field] ∧ field.rules = "int32.const = " ++ toString (toCInt 7)) ∧
    (iocCellElem ⟨0, "&id", ⟨"id", some (.integer 7)⟩⟩).rules = "int32.const = " ++ toString (toCInt 7) ∧
    ("int32.const = " ++ toString (toCInt 7) = "int32.const = " ++ toString (7 : Int) ↔
      -2 ^ 31 ≤ (7 : Int) ∧ (7 : Int) < 2 ^ 31) :=
  int32_const_rule_wraps Host.sample {} "m.asn"
    { identifier := some "seven", metaType := .value, exprType := .integer, value := some (.integer 7),
      members := [], specializations := [] } "seven" ⟨[], [], []⟩ ⟨0, "&id", ⟨"id", some (.integer 7)⟩⟩ 7
    rfl rfl rfl (Or.inl rfl) rfl rfl

/-- `big INTEGER ::= 4294967296` is printed as `int32.const = 0`. -/
theorem int32_const_rule_wraps_big :
    ((asn1printExprProto Host.sample {} "m.asn"
      { identifier := some "big", metaType := .value, exprType := .integer, value := some (.integer (2 ^ 32)),
        members := [], specializations := [] } ⟨[], [], []⟩).2.message.map
        fun msg => msg.entry.map (·.rules)) = [["int32.const = 0"]] ∧
      "int32.const = 0" ≠ "int32.const = " ++ toString ((2 : Int) ^ 32) := by
  decide

end Asn1Proto
