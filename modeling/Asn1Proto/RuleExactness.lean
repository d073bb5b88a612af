import Asn1Proto.ValidateRules
import Asn1Proto.ValueConstraints
import Asn1Proto.LowerSpec

namespace Asn1Proto

/-- The rule text parses as an `int32` rule that protoc-gen-validate accepts, and on `int32`
values that rule accepts exactly what the constraint admits. -/
def Int32RuleExact (rules : String) (c : Constraint) : Prop :=
  ∃ fields, parseRule rules = some ("int32", fields) ∧ int32RuleOk fields = true ∧
    ∀ x, InInt32 x → int32Accepts fields x = admits x c

/-- The rule text parses as a `string` rule that protoc-gen-validate accepts, and it accepts
exactly the lengths the constraint's `SIZE` admits. -/
def StringRuleExact (rules : String) (c : Constraint) : Prop :=
  ∃ fields, parseRule rules = some ("string", fields) ∧ stringRuleOk fields = true ∧
    ∀ n, stringAccepts fields n = admitsSize n c

/-- The key `proto_constraint_print` gives the lower end of an integer range of kind `type`. -/
def lowerKey : ConstraintType → String
  | .elLLRange | .elULRange => "gt"
  | _ => "gte"

/-- The key it gives the upper end. -/
def upperKey : ConstraintType → String
  | .elRLRange | .elULRange => "lt"
  | _ => "lte"

theorem isKey_lowerKey (type : ConstraintType) : IsKey (lowerKey type) := by
  unfold lowerKey
  split <;> decide

theorem isKey_upperKey (type : ConstraintType) : IsKey (upperKey type) := by
  unfold upperKey
  split <;> decide

theorem rangeStartKey_int {flags : Flags} (plain : flags.stringValue = false) (type : ConstraintType) :
    rangeStartKey flags type = lowerKey type ++ ": " := by
  have keys : rangeStartKey flags type = if flags.stringValue then "min_len: " else lowerKey type ++ ": " := by
    cases type <;> rfl
  rw [keys, plain]
  rfl

theorem rangeStopKey_int {flags : Flags} (plain : flags.stringValue = false) (type : ConstraintType) :
    rangeStopKey flags type = upperKey type ++ ": " := by
  have keys : rangeStopKey flags type = if flags.stringValue then "max_len: " else upperKey type ++ ": " := by
    cases type <;> rfl
  rw [keys, plain]
  rfl

theorem toString_int_ne_empty (v : Int) : toString v ≠ "" := by
  intro empty
  have := toString_int_length v
  simp [empty] at this

theorem int32RangeText {flags : Flags} (plain : flags.stringValue = false) (type : ConstraintType) (lo hi : Int)
    {stop : Option Value} (stopText : protoValuePrint flags stop = toString hi) :
    "int32 = \x7b" ++ rangePrint flags type (some (.integer lo)) stop ++ "\x7d" =
      ruleText "int32" [⟨lowerKey type, .num lo⟩, ⟨upperKey type, .num hi⟩] := by
  have startText : protoValuePrint flags (some (.integer lo)) = toString lo := rfl
  apply String.ext
  simp [rangePrint, startText, stopText, toString_int_ne_empty, rangeStartKey_int plain, rangeStopKey_int plain,
    ruleText, fieldsText, fieldsTail, RuleField.text, RuleValue.text]

theorem int32Range_accepts {type : ConstraintType}
    (kind : type = .elRange ∨ type = .elLLRange ∨ type = .elRLRange ∨ type = .elULRange) {lo hi : Int}
    {value stop sub : Option Value} {elements : List Constraint}
    (stopOk : stop = some (.integer hi) ∨ stop = some .max ∧ hi = 2 ^ 31 - 1 ∧ (type = .elRange ∨ type = .elLLRange))
    {x : Int} (inRange : InInt32 x) :
    int32Accepts [⟨lowerKey type, .num lo⟩, ⟨upperKey type, .num hi⟩] x =
      admits x ⟨type, value, some (.integer lo), stop, sub, elements⟩ := by
  have belowMax : decide (x ≤ 2 ^ 31 - 1) = true := by unfold InInt32 at inRange; simp; omega
  rcases kind with rfl | rfl | rfl | rfl <;> rcases stopOk with rfl | ⟨rfl, rfl, bounded⟩ <;>
    simp_all only [int32Accepts, List.all_cons, List.all_nil, lowerKey, upperKey, int32Check_lt, int32Check_lte,
      int32Check_gt, int32Check_gte, admits, lowerOk, upperOk, Bool.and_true, Bool.false_eq_true, ↓reduceIte,
      reduceCtorEq, or_false, or_self]

theorem int32Range_ok {type : ConstraintType}
    (kind : type = .elRange ∨ type = .elLLRange ∨ type = .elRLRange ∨ type = .elULRange) {lo hi : Int}
    (loIn : InInt32 lo) (hiIn : InInt32 hi) (ordered : lo < hi) :
    int32RuleOk [⟨lowerKey type, .num lo⟩, ⟨upperKey type, .num hi⟩] = true := by
  rcases kind with rfl | rfl | rfl | rfl <;>
  · simp only [int32RuleOk, Bool.and_eq_true, List.all_cons, List.all_nil, Bool.and_true]
    exact ⟨⟨⟨⟨⟨⟨⟨decide_eq_true loIn, decide_eq_true hiIn⟩, rfl⟩, rfl⟩, rfl⟩, rfl⟩, rfl⟩, decide_eq_true ordered⟩

/-- A range over `int32` literals is printed as a rule with its two bounds that accepts
exactly the values in the range. -/
theorem int32Range_exact (host : Host) {flags : Flags} (plain : flags.stringValue = false)
    (int32 : flags.int32Value = true) {c : Constraint} (range : Int32Range c) :
    Int32RuleExact ("int32 = \x7b" ++ (protoConstraintPrint host flags c).1 ++ "\x7d") c := by
  obtain ⟨type, value, rangeStart, rangeStop, sub, elements⟩ := c
  obtain ⟨kind, lo, hi, start, stop, loBound, ordered, hiBound⟩ := range
  simp only at kind start stop
  subst start
  have stopText : protoValuePrint flags rangeStop = toString hi := by
    rcases stop with rfl | ⟨rfl, rfl, -⟩
    · rfl
    · simp [protoValuePrint, printValueCase, int32]
  have printed : (protoConstraintPrint host flags ⟨type, value, some (.integer lo), rangeStop, sub, elements⟩).1 =
      rangePrint flags type (some (.integer lo)) rangeStop := by
    rcases kind with rfl | rfl | rfl | rfl <;> rfl
  refine ⟨_, ?_, int32Range_ok kind ⟨by omega, by omega⟩ ⟨by omega, hiBound⟩ ordered,
    fun x inRange => int32Range_accepts kind stop inRange⟩
  rw [printed, int32RangeText plain type lo hi stopText]
  exact parseRule_ruleText (by decide) (by
    simp only [List.forall_mem_cons, List.not_mem_nil, false_imp_iff, implies_true, and_true]
    exact ⟨isKey_lowerKey type, isKey_upperKey type⟩)

theorem Int32RuleExact.of_wrapped {P : Constraint → Prop} {c : Constraint} (wrapped : Wrapped P c)
    (host : Host) (flags : Flags) (rule : String → String)
    (base : ∀ b, P b → Int32RuleExact (rule (protoConstraintPrint host flags b).1) b) :
    Int32RuleExact (rule (protoConstraintPrint host flags c).1) c := by
  obtain ⟨b, holds, print, sem, -⟩ := wrapped.reduce
  obtain ⟨fields, parsed, ok, exact⟩ := base b holds
  exact ⟨fields, by rw [print]; exact parsed, ok, fun x inRange => (exact x inRange).trans (sem x).symm⟩

theorem StringRuleExact.of_wrapped {P : Constraint → Prop} {c : Constraint} (wrapped : Wrapped P c)
    (host : Host) (flags : Flags) (rule : String → String)
    (base : ∀ b, P b → StringRuleExact (rule (protoConstraintPrint host flags b).1) b) :
    StringRuleExact (rule (protoConstraintPrint host flags c).1) c := by
  obtain ⟨b, holds, print, -, size⟩ := wrapped.reduce
  obtain ⟨fields, parsed, ok, exact⟩ := base b holds
  exact ⟨fields, by rw [print]; exact parsed, ok, fun n => (exact n).trans (size n).symm⟩

theorem printElements_singleValues (host : Host) {flags : Flags} (plain : flags.stringValue = false)
    (vs : List Int) : printElements host flags (vs.map singleValue) = vs.map fun v => (toString v, []) := by
  induction vs with
  | nil => rfl
  | cons v vs ih =>
    simp only [List.map_cons, printElements, ih]
    simp [singleValue, protoConstraintPrint, printElements, subconstraint, plain, protoValuePrint,
      printValueCase, asn1pItoa]

/-- The union's loop of `proto_constraint_print` joins the values with commas. -/
theorem caLoop_uni (n i : Nat) (vs : List Int) : caLoop .caUni n (i + 1) (vs.map toString) = intsTail vs := by
  induction vs generalizing i with
  | nil => rfl
  | cons w ws ih => simp [caLoop, ih, intsTail, symtable, symno]

theorem admitsAny_singleValues (x : Int) (vs : List Int) :
    admitsAny x (vs.map singleValue) = vs.contains x := by
  induction vs with
  | nil => rfl
  | cons v vs ih =>
    simp only [List.map_cons, admitsAny, ih, List.contains_cons]
    rfl

/-- A union of `int32` values is printed as an `in` list of exactly those values. -/
theorem intValues_exact (host : Host) {flags : Flags} (plain : flags.stringValue = false) {vs : List Int}
    {c : Constraint} (values : IntValues vs c) :
    Int32RuleExact ("int32 = \x7bin: [" ++ (protoConstraintPrint host flags c).1 ++ "]\x7d") c := by
  obtain ⟨nonempty, bounds, shape⟩ := values
  obtain ⟨v, vs', rfl⟩ := List.exists_cons_of_ne_nil nonempty
  obtain ⟨type, value, rangeStart, rangeStop, sub, elements⟩ := c
  have printed : (protoConstraintPrint host flags ⟨type, value, rangeStart, rangeStop, sub, elements⟩).1 =
      intsText (v :: vs') := by
    rcases shape with ⟨kind, members⟩ | ⟨w, single, kind, only, none⟩
    · simp only at kind members
      subst kind members
      simp only [protoConstraintPrint, printElements_singleValues host plain, List.map_map]
      simp [caLoop, caLoop_uni, intsText, Function.comp_def]
    · simp only [List.cons.injEq] at single kind only none
      obtain ⟨rfl, rfl⟩ := single
      subst kind only none
      simp [protoConstraintPrint, printElements, subconstraint, plain, protoValuePrint, printValueCase,
        asn1pItoa, intsText, intsTail]
  have text : "int32 = \x7bin: [" ++ intsText (v :: vs') ++ "]\x7d" = ruleText "int32" [⟨"in", .list (v :: vs')⟩] := by
    apply String.ext
    simp [ruleText, fieldsText, fieldsTail, RuleField.text, RuleValue.text]
  refine ⟨_, by rw [printed, text]; exact parseRule_ruleText (by decide) (by simp; decide), ?_, fun x _ => ?_⟩
  · simp only [int32RuleOk, Bool.and_eq_true, List.all_cons, List.all_nil, Bool.and_true]
    exact ⟨⟨⟨⟨⟨⟨List.all_eq_true.2 fun w member => decide_eq_true (bounds w member), rfl⟩, rfl⟩, rfl⟩, rfl⟩, rfl⟩, rfl⟩
  · rcases shape with ⟨kind, members⟩ | ⟨w, single, kind, only, none⟩
    · simp only at kind members
      subst kind members
      simp only [int32Accepts, List.all_cons, List.all_nil, Bool.and_true, int32Check_in]
      exact (admitsAny_singleValues x _).symm
    · simp only [List.cons.injEq] at single kind only none
      obtain ⟨rfl, rfl⟩ := single
      subst kind only none
      simp [int32Accepts, admits]
      rfl

/-- The rule printed for the constraint inside a `SIZE` parses as a `string` rule that is
accepted and accepts exactly the lengths the constraint admits. -/
def SizeRuleExact (rules : String) (b : Constraint) : Prop :=
  ∃ fields, parseRule rules = some ("string", fields) ∧ stringRuleOk fields = true ∧
    ∀ n : Nat, stringAccepts fields n = admits n b

theorem SizeRuleExact.of_text {rules : String} {b : Constraint} {fields : List RuleField}
    (text : rules = ruleText "string" fields) (keys : ∀ f ∈ fields, IsKey f.key) (ok : stringRuleOk fields = true)
    (accepts : ∀ n : Nat, stringAccepts fields n = admits n b) : SizeRuleExact rules b :=
  ⟨fields, by rw [text]; exact parseRule_ruleText (by decide) keys, ok, accepts⟩

theorem sizeRange_exact_base (host : Host) {flags : Flags} (stringValue : flags.stringValue = true)
    (noMax : flags.int32Value = false) {b : Constraint} (range : SizeRange b) :
    SizeRuleExact ("string = \x7b" ++ (protoConstraintPrint host flags b).1 ++ "\x7d") b := by
  obtain ⟨type, value, rangeStart, rangeStop, sub, elements⟩ := b
  have keys : IsKey "min_len" ∧ IsKey "max_len" := by decide
  rcases range with ⟨kind, lo, start, loBound, stop⟩ | ⟨kind, v, val, vBound⟩
  · simp only at kind start stop
    subst kind
    have startText : protoValuePrint flags rangeStart = toString lo := by
      rcases start with ⟨rfl, rfl⟩ | rfl <;> rfl
    have lower (n : Nat) : lowerOk false n rangeStart = decide (lo ≤ n) := by
      rcases start with ⟨rfl, rfl⟩ | rfl
      · exact (decide_eq_true (by omega)).symm
      · rfl
    rcases stop with rfl | ⟨hi, rfl, ordered⟩
    · have text : "string = \x7b" ++ (protoConstraintPrint host flags
            ⟨.elRange, value, rangeStart, some .max, sub, elements⟩).1 ++ "\x7d" =
          ruleText "string" [⟨"min_len", .num lo⟩] := by
        apply String.ext
        have maxText : protoValuePrint flags (some .max) = "" := by simp [protoValuePrint, printValueCase, noMax]
        simp [protoConstraintPrint, rangePrint, rangeStartKey, stringValue, startText, maxText,
          ruleText, fieldsText, fieldsTail, RuleField.text, RuleValue.text]
      refine .of_text text (by simp [keys.1]) ?_ fun n => ?_
      · simp only [stringRuleOk, Bool.and_eq_true, List.all_cons, List.all_nil, Bool.and_true]
        exact ⟨⟨⟨decide_eq_true loBound, rfl⟩, rfl⟩, rfl⟩
      · simp [stringAccepts, admits, lower, upperOk]
    · have text : "string = \x7b" ++ (protoConstraintPrint host flags
            ⟨.elRange, value, rangeStart, some (.integer hi), sub, elements⟩).1 ++ "\x7d" =
          ruleText "string" [⟨"min_len", .num lo⟩, ⟨"max_len", .num hi⟩] := by
        apply String.ext
        have stopText : protoValuePrint flags (some (.integer hi)) = toString hi := rfl
        simp [protoConstraintPrint, rangePrint, rangeStartKey, rangeStopKey, stringValue, startText, stopText,
          toString_int_ne_empty, ruleText, fieldsText, fieldsTail, RuleField.text, RuleValue.text]
      refine .of_text text (by simp [keys]) ?_ fun n => ?_
      · simp only [stringRuleOk, Bool.and_eq_true, List.all_cons, List.all_nil, Bool.and_true]
        exact ⟨⟨⟨⟨decide_eq_true loBound, decide_eq_true (by omega)⟩, rfl⟩, rfl⟩, decide_eq_true ordered⟩
      · simp [stringAccepts, admits, lower, upperOk]
  · simp only at kind val
    subst kind val
    have text : "string = \x7b" ++ (protoConstraintPrint host flags
          ⟨.elValue, some (.integer v), rangeStart, rangeStop, sub, elements⟩).1 ++ "\x7d" =
        ruleText "string" [⟨"min_len", .num v⟩, ⟨"max_len", .num v⟩] := by
      apply String.ext
      simp [protoConstraintPrint, stringValue, protoValuePrint, printValueCase, asn1pItoa, ruleText, fieldsText,
        fieldsTail, RuleField.text, RuleValue.text]
    refine .of_text text (by simp [keys]) ?_ fun n => ?_
    · simp only [stringRuleOk, Bool.and_eq_true, List.all_cons, List.all_nil, Bool.and_true]
      exact ⟨⟨⟨⟨decide_eq_true vBound, decide_eq_true vBound⟩, rfl⟩, rfl⟩, decide_eq_true (le_refl v)⟩
    · simp only [stringAccepts, List.all_cons, List.all_nil, Bool.and_true, stringCheck_min_len,
        stringCheck_max_len, admits]
      rw [Bool.eq_iff_iff]
      simp only [Bool.and_eq_true, decide_eq_true_eq, beq_iff_eq]
      omega

/-- A `SIZE` of a closed range or a single size is printed as the `string` rule of exactly
those lengths. -/
theorem sizeOf_exact (host : Host) {flags : Flags} (stringValue : flags.stringValue = true)
    (noMax : flags.int32Value = false) {c : Constraint} (size : SizeOf (Wrapped SizeRange) c) :
    StringRuleExact ("string = \x7b" ++ (protoConstraintPrint host flags c).1 ++ "\x7d") c := by
  obtain ⟨type, value, rangeStart, rangeStop, sub, elements⟩ := c
  obtain ⟨kind, inner, only, wrapped⟩ := size
  simp only at kind only
  subst kind only
  obtain ⟨b, holds, print, sem, -⟩ := wrapped.reduce
  obtain ⟨fields, parsed, ok, exact⟩ := sizeRange_exact_base host stringValue noMax holds
  have printed : (protoConstraintPrint host flags ⟨.ctSize, value, rangeStart, rangeStop, sub, [inner]⟩).1 =
      (protoConstraintPrint host flags inner).1 := by
    simp [protoConstraintPrint, printElements, firstElement]
  refine ⟨fields, by rw [printed, print host flags]; exact parsed, ok, fun n => ?_⟩
  rw [exact n, ← sem n]
  simp [admitsSize]

/-- Lowering an expression adds one message with one field whose rule satisfies `rule`. -/
def LowersToRule (host : Host) (flags : Flags) (modFile : String) (expr : Expr) (st : Lowered)
    (rule : String → Prop) : Prop :=
  ∃ msg field, (asn1printExprProto host flags modFile expr st).2.message = st.message ++ [msg] ∧
    msg.entry = [field] ∧ rule field.rules

theorem lowersToRule_of_single {host : Host} {flags : Flags} {modFile : String} {expr : Expr} {st : Lowered}
    {w : List String} {msg : ProtoMsg} {elem : ProtoMsgDef} {rule : String → Prop}
    (lowered : (asn1printExprProto host flags modFile expr st).2 = (st.write w).addMsg (protoMsgAddElem msg elem))
    (empty : msg.entry = []) (holds : rule elem.rules) : LowersToRule host flags modFile expr st rule :=
  ⟨_, elem, by rw [lowered]; rfl, by simp [protoMsgAddElem, empty], holds⟩

/-- The rules lowering builds with `proto_constraint_print`, for each kind of definition it
builds them for, on the fragment of constraints the printer targets. -/
structure RulesExact (host : Host) (flags : Flags) (modFile : String) : Prop where
  integerType : ∀ expr st ct, expr.specializations = [] → expr.identifier.isSome → expr.metaType = .type →
    expr.exprType = .integer → expr.constraints = some ct → Wrapped Int32Range ct →
    LowersToRule host flags modFile expr st fun rules => Int32RuleExact rules ct
  integerValueSet : ∀ expr st ct vs, expr.specializations = [] → expr.identifier.isSome →
    expr.metaType = .valueset → expr.exprType = .integer → expr.constraints = some ct →
    Wrapped (IntValues vs) ct → (protoConstraintPrint host flags ct).1.length < 1024 →
    LowersToRule host flags modFile expr st fun rules => Int32RuleExact rules ct
  stringType : ∀ expr st ct, expr.specializations = [] → expr.identifier.isSome → expr.metaType = .type →
    (expr.exprType = .ia5String ∨ expr.exprType = .bmpString) → expr.constraints = some ct →
    Wrapped (SizeOf (Wrapped SizeRange)) ct → LowersToRule host flags modFile expr st fun rules => StringRuleExact rules ct
  stringMember : ∀ repeated se ct, (se.exprType = .utf8String ∨ se.exprType = .teletexString) →
    se.constraints = some ct → Wrapped (SizeOf (Wrapped SizeRange)) ct →
    StringRuleExact (childElem host repeated se).1.rules ct

theorem validation_rules_exact (host : Host) (flags : Flags) (modFile : String)
    (plain : flags.stringValue = false) (noMax : flags.int32Value = false) : RulesExact host flags modFile where
  integerType expr st ct specs named meta kind constraint wrapped := by
    obtain ⟨name, named⟩ := Option.isSome_iff_exists.mp named
    refine lowersToRule_of_single (by
      rw [asn1printExprProto_definition specs named, lowerDefinition_scalar meta (by simp [kind]) (by simp [kind]),
        lowerScalarType_integer kind constraint]) (by simp [protoCreateMessage]) ?_
    exact Int32RuleExact.of_wrapped wrapped host { flags with int32Value := true }
      (fun text => "int32 = \x7b" ++ text ++ "\x7d")
      fun b range => int32Range_exact host (show ({ flags with int32Value := true } : Flags).stringValue = false from plain)
        rfl range
  integerValueSet expr st ct vs specs named meta kind constraint wrapped _ := by
    obtain ⟨name, named⟩ := Option.isSome_iff_exists.mp named
    refine lowersToRule_of_single (by
      rw [asn1printExprProto_definition specs named, lowerDefinition_integer_valueset meta kind constraint])
      (by simp [protoCreateMessage]) ?_
    exact Int32RuleExact.of_wrapped wrapped host flags (fun text => "int32 = \x7bin: [" ++ text ++ "]\x7d")
      fun b values => intValues_exact host plain values
  stringType expr st ct specs named meta kind constraint wrapped := by
    obtain ⟨name, named⟩ := Option.isSome_iff_exists.mp named
    have notEnumerated : expr.exprType ≠ .enumerated := by rcases kind with k | k <;> simp [k]
    have notStructured : expr.exprType ≠ .sequence ∧ expr.exprType ≠ .sequenceOf ∧ expr.exprType ≠ .choice := by
      rcases kind with k | k <;> simp [k]
    refine lowersToRule_of_single (by
      rw [asn1printExprProto_definition specs named, lowerDefinition_scalar meta notEnumerated notStructured,
        lowerScalarType_string kind constraint]) (by simp [protoCreateMessage]) ?_
    exact StringRuleExact.of_wrapped wrapped host { flags with stringValue := true }
      (fun text => "string = \x7b" ++ text ++ "\x7d")
      fun b size => sizeOf_exact host rfl (show ({ flags with stringValue := true } : Flags).int32Value = false from noMax)
        size
  stringMember repeated se ct kind constraint wrapped := by
    have rules : (childElem host repeated se).1.rules =
        "string = \x7b" ++ (protoConstraintPrint host { stringValue := true } ct).1 ++ "\x7d" := by
      rcases kind with k | k <;> simp [childElem, k, constraint]
    rw [rules]
    exact StringRuleExact.of_wrapped wrapped host { stringValue := true } (fun text => "string = \x7b" ++ text ++ "\x7d")
      fun b size => sizeOf_exact host (show ({ stringValue := true } : Flags).stringValue = true from rfl) rfl size

/-- The value set `Small INTEGER ::= { 1 | 2 | 3 }`. -/
def smallValues : Constraint :=
  { type := .caUni, elements := [singleValue 1, singleValue 2, singleValue 3] }

def smallValueSet : Expr :=
  { identifier := some "Small", metaType := .valueset, exprType := .integer, constraints := some smallValues,
    members := [], specializations := [] }

/-- Spec scenario 2, `Age ::= INTEGER (0..120)`. -/
def ageRange : Constraint :=
  { type := .elRange, rangeStart := some (.integer 0), rangeStop := some (.integer 120), elements := [] }

def ageType : Expr :=
  { identifier := some "Age", metaType := .type, exprType := .integer, constraints := some ageRange,
    members := [], specializations := [] }

/-- Spec scenario 3, `Name ::= IA5String (SIZE (1..32))`. -/
def nameSize : Constraint :=
  { type := .ctSize,
    elements := [
      { type := .elRange, rangeStart := some (.integer 1), rangeStop := some (.integer 32), elements := [] }] }

def nameType : Expr :=
  { identifier := some "Name", metaType := .type, exprType := .ia5String, constraints := some nameSize,
    members := [], specializations := [] }

/-- Under the flags a top-level call passes, neither the string nor the `int32` context, the
union `{ 1 | 2 | 3 }`, the range `0..120` and the size `SIZE (1..32)` are lowered to rules
that accept exactly what they admit. -/
theorem sample_rules_exact :
    LowersToRule Host.sample {} "m.asn" smallValueSet ⟨[], [], []⟩ (fun rules => Int32RuleExact rules smallValues) ∧
      LowersToRule Host.sample {} "m.asn" ageType ⟨[], [], []⟩ (fun rules => Int32RuleExact rules ageRange) ∧
      LowersToRule Host.sample {} "m.asn" nameType ⟨[], [], []⟩ (fun rules => StringRuleExact rules nameSize) := by
  have exact := validation_rules_exact Host.sample {} "m.asn" rfl rfl
  refine ⟨exact.integerValueSet _ _ _ [1, 2, 3] rfl rfl rfl rfl rfl (.base ⟨by decide, by decide, .inl ⟨rfl, rfl⟩⟩)
      (by decide),
    exact.integerType _ _ _ rfl rfl rfl rfl rfl (.base ⟨.inl rfl, 0, 120, rfl, .inl rfl, by decide, by decide, by decide⟩),
    exact.stringType _ _ _ rfl rfl rfl (.inl rfl) rfl (.base ⟨rfl, _, rfl, .base (.inl ⟨rfl, 1, .inr rfl, by decide,
      .inr ⟨32, rfl, by decide⟩⟩)⟩)⟩

/-- Outside the fragment the rules go wrong: `INTEGER (5)` gets `int32 = {5}`, which does not
parse; `INTEGER (MIN..10)` gets `gte: 0` and rejects -1; `INTEGER (0..10, ..., 20)` runs the
two bounds together into `lte: 1020` and accepts 500; `IA5String (SIZE (1<..32))` gets
`min_len: 1` and accepts one character. -/
theorem validation_rules_inexact :
    ((asn1printExprProto Host.sample {} "m.asn"
      { identifier := some "Five", metaType := .type, exprType := .integer,
        constraints := some { type := .caSet, elements := [singleValue 5] },
        members := [], specializations := [] } ⟨[], [], []⟩).2.message.map
        fun msg => msg.entry.map (·.rules)) = [["int32 = \x7b5\x7d"]] ∧
    parseRule "int32 = \x7b5\x7d" = none ∧
    ((asn1printExprProto Host.sample {} "m.asn"
      { identifier := some "Low", metaType := .type, exprType := .integer,
        constraints := some
          { type := .elRange, rangeStart := some .min, rangeStop := some (.integer 10), elements := [] },
        members := [], specializations := [] } ⟨[], [], []⟩).2.message.map
        fun msg => msg.entry.map (·.rules)) = [["int32 = \x7bgte: 0, lte: 10\x7d"]] ∧
    parseRule "int32 = \x7bgte: 0, lte: 10\x7d" = some ("int32", [⟨"gte", .num 0⟩, ⟨"lte", .num 10⟩]) ∧
    int32Accepts [⟨"gte", .num 0⟩, ⟨"lte", .num 10⟩] (-1) = false ∧
    admits (-1) { type := .elRange, rangeStart := some .min, rangeStop := some (.integer 10), elements := [] } =
      true ∧
    ((asn1printExprProto Host.sample {} "m.asn"
      { identifier := some "Grown", metaType := .type, exprType := .integer,
        constraints := some
          { type := .caCsv,
            elements := [
              { type := .elRange, rangeStart := some (.integer 0), rangeStop := some (.integer 10),
                elements := [] },
              { type := .elExt, elements := [] },
              singleValue 20] },
        members := [], specializations := [] } ⟨[], [], []⟩).2.message.map
        fun msg => msg.entry.map (·.rules)) = [["int32 = \x7bgte: 0, lte: 1020\x7d"]] ∧
    parseRule "int32 = \x7bgte: 0, lte: 1020\x7d" = some ("int32", [⟨"gte", .num 0⟩, ⟨"lte", .num 1020⟩]) ∧
    int32Accepts [⟨"gte", .num 0⟩, ⟨"lte", .num 1020⟩] 500 = true ∧
    admits 500
      { type := .caCsv,
        elements := [
          { type := .elRange, rangeStart := some (.integer 0), rangeStop := some (.integer 10), elements := [] },
          { type := .elExt, elements := [] },
          singleValue 20] } = false ∧
    ((asn1printExprProto Host.sample {} "m.asn"
      { identifier := some "Name", metaType := .type, exprType := .ia5String,
        constraints := some
          { type := .ctSize,
            elements := [
              { type := .elLLRange, rangeStart := some (.integer 1), rangeStop := some (.integer 32),
                elements := [] }] },
        members := [], specializations := [] } ⟨[], [], []⟩).2.message.map
        fun msg => msg.entry.map (·.rules)) = [["string = \x7bmin_len: 1, max_len: 32\x7d"]] ∧
    parseRule "string = \x7bmin_len: 1, max_len: 32\x7d" =
      some ("string", [⟨"min_len", .num 1⟩, ⟨"max_len", .num 32⟩]) ∧
    stringAccepts [⟨"min_len", .num 1⟩, ⟨"max_len", .num 32⟩] 1 = true ∧
    admitsSize 1
      { type := .ctSize,
        elements := [
          { type := .elLLRange, rangeStart := some (.integer 1), rangeStop := some (.integer 32),
            elements := [] }] } = false := by
  decide

end Asn1Proto
