import Asn1Proto.Lower

namespace Asn1Proto

variable {host : Host} {flags : Flags} {modFile : String} {expr : Expr} {name : String}
  {st : Lowered}

@[simp] theorem Lowered.addMsg_message (st : Lowered) (msg : ProtoMsg) :
    (st.addMsg msg).message = st.message ++ [msg] := rfl

@[simp] theorem Lowered.addMsg_protoenum (st : Lowered) (msg : ProtoMsg) :
    (st.addMsg msg).protoenum = st.protoenum := rfl

@[simp] theorem Lowered.addMsg_out (st : Lowered) (msg : ProtoMsg) :
    (st.addMsg msg).out = st.out := rfl

@[simp] theorem Lowered.addEnum_message (st : Lowered) (e : ProtoEnum) :
    (st.addEnum e).message = st.message := rfl

@[simp] theorem Lowered.addEnum_protoenum (st : Lowered) (e : ProtoEnum) :
    (st.addEnum e).protoenum = st.protoenum ++ [e] := rfl

@[simp] theorem Lowered.addEnum_out (st : Lowered) (e : ProtoEnum) :
    (st.addEnum e).out = st.out := rfl

@[simp] theorem Lowered.write_message (st : Lowered) (text : List String) :
    (st.write text).message = st.message := rfl

@[simp] theorem Lowered.write_protoenum (st : Lowered) (text : List String) :
    (st.write text).protoenum = st.protoenum := rfl

@[simp] theorem Lowered.write_out (st : Lowered) (text : List String) :
    (st.write text).out = st.out ++ text := rfl

theorem protoExtractParams_fst_entry (msg : ProtoMsg) (params : List Param) :
    (protoExtractParams msg params).1.entry = msg.entry ∧
      (protoExtractParams msg params).1.oneof = msg.oneof ∧
      (protoExtractParams msg params).1.name = msg.name := by
  induction params generalizing msg with
  | nil => simp [protoExtractParams]
  | cons p rest ih => simpa [protoExtractParams] using ih (protoMsgAddParam msg ⟨protoParamType p, p.argument⟩)

@[simp] theorem withParams_entry (msg : ProtoMsg) (expr : Expr) :
    (withParams msg expr).entry = msg.entry := by
  unfold withParams
  split
  · rfl
  · exact (protoExtractParams_fst_entry msg _).1

@[simp] theorem withParams_oneof (msg : ProtoMsg) (expr : Expr) :
    (withParams msg expr).oneof = msg.oneof := by
  unfold withParams
  split
  · rfl
  · exact (protoExtractParams_fst_entry msg _).2.1

@[simp] theorem withParams_name (msg : ProtoMsg) (expr : Expr) :
    (withParams msg expr).name = msg.name := by
  unfold withParams
  split
  · rfl
  · exact (protoExtractParams_fst_entry msg _).2.2

theorem asn1printExprProto_definition (specs : expr.specializations = [])
    (named : expr.identifier = some name) :
    asn1printExprProto host flags modFile expr st = lowerDefinition host flags modFile expr name st := by
  obtain ⟨_, _, _, _, _, _, _, _, _, specializations, _, _, _⟩ := expr
  subst specs
  simp only at named
  simp [asn1printExprProto, named]

theorem asn1printExprProto_anonymous (specs : expr.specializations = [])
    (anonymous : expr.identifier = none) : asn1printExprProto host flags modFile expr st = (0, st) := by
  obtain ⟨_, _, _, _, _, _, _, _, _, specializations, _, _, _⟩ := expr
  subst specs
  simp only at anonymous
  simp [asn1printExprProto, anonymous]

theorem asn1printExprProto_specializations {clone : Expr} {rest : List Expr}
    (specs : expr.specializations = clone :: rest) :
    asn1printExprProto host flags modFile expr st =
      lowerSpecializations host flags modFile (clone :: rest) st := by
  obtain ⟨_, _, _, _, _, _, _, _, _, specializations, _, _, _⟩ := expr
  subst specs
  simp [asn1printExprProto]

theorem lowerSpecializations_cons (clone : Expr) (rest : List Expr) :
    lowerSpecializations host flags modFile (clone :: rest) st =
      if (asn1printExprProto host flags modFile clone st).1 ≠ 0 then
        asn1printExprProto host flags modFile clone st
      else lowerSpecializations host flags modFile rest (asn1printExprProto host flags modFile clone st).2 := by
  simp [lowerSpecializations]

theorem lowerDefinition_enumerated (enumerated : expr.exprType = .enumerated) :
    lowerDefinition host flags modFile expr name st =
      (0, st.addEnum { protoCreateEnum name (provenance "enumerated" modFile expr.lineno) with
        defs := protoProcessEnumerated expr }) := by
  simp [lowerDefinition, enumerated]

theorem lowerDefinition_sequence (meta : expr.metaType = .type)
    (kind : expr.exprType = .sequence ∨ expr.exprType = .sequenceOf) :
    lowerDefinition host flags modFile expr name st =
      (0, (st.write (protoProcessChildren host expr (expr.exprType = .sequenceOf)).2).addMsg
        { withParams (protoCreateMessage name expr.specIndex expr.typeUniqueIndex
            (provenance "sequence" modFile expr.lineno)) expr with
          entry := (withParams (protoCreateMessage name expr.specIndex expr.typeUniqueIndex
            (provenance "sequence" modFile expr.lineno)) expr).entry ++
            (protoProcessChildren host expr (expr.exprType = .sequenceOf)).1 }) := by
  rcases kind with kind | kind <;> simp [lowerDefinition, meta, kind]

theorem lowerDefinition_choice (meta : expr.metaType = .type) (kind : expr.exprType = .choice) :
    lowerDefinition host flags modFile expr name st =
      (0, (st.write (protoProcessChildren host expr false).2).addMsg
        (protoMsgAddOneof (withParams (protoCreateMessage name expr.specIndex expr.typeUniqueIndex
            (provenance "sequence" modFile expr.lineno)) expr)
          { protoCreateMsgOneof name (provenance "choice" modFile expr.lineno) with
            entry := (protoProcessChildren host expr false).1 })) := by
  simp [lowerDefinition, meta, kind]

theorem lowerDefinition_value_integer (meta : expr.metaType = .value) (kind : expr.exprType = .integer) :
    lowerDefinition host flags modFile expr name st =
      (0, st.addMsg (protoMsgAddElem (protoCreateMessage name expr.specIndex expr.typeUniqueIndex
          (provenance "constant Integer" modFile expr.lineno))
        { valueElem with rules := "int32.const = " ++ toString (toCInt (vInteger expr.value)) })) := by
  simp [lowerDefinition, meta, kind]

theorem lowerDefinition_value_reference (meta : expr.metaType = .value) (kind : expr.exprType = .reference) :
    lowerDefinition host flags modFile expr name st = lowerReferenceValue host modFile expr name st := by
  simp [lowerDefinition, meta, kind]

theorem lowerDefinition_value_other (meta : expr.metaType = .value) (notEnumerated : expr.exprType ≠ .enumerated)
    (notInteger : expr.exprType ≠ .integer) (notReference : expr.exprType ≠ .reference) :
    lowerDefinition host flags modFile expr name st =
      (-1, st.write ["ERROR: unhandled expr->expr_type " ++ toString (host.exprTypeCode expr.exprType) ++ "\n"]) := by
  unfold lowerDefinition
  simp only [notEnumerated, meta, if_false, if_true]

end Asn1Proto

namespace Asn1Proto

variable {host : Host} {flags : Flags} {modFile : String} {expr : Expr} {name : String}
  {st : Lowered}

theorem lowerDefinition_scalar (meta : expr.metaType = .type) (notEnumerated : expr.exprType ≠ .enumerated)
    (notStructured : expr.exprType ≠ .sequence ∧ expr.exprType ≠ .sequenceOf ∧ expr.exprType ≠ .choice) :
    lowerDefinition host flags modFile expr name st = lowerScalarType host flags modFile expr name st := by
  unfold lowerDefinition
  simp [meta, notEnumerated, notStructured]

end Asn1Proto

namespace Asn1Proto

variable {host : Host} {flags : Flags} {modFile : String} {expr : Expr} {name : String}
  {st : Lowered} {ct : Constraint}

theorem lowerScalarType_integer (kind : expr.exprType = .integer) (constraint : expr.constraints = some ct) :
    lowerScalarType host flags modFile expr name st =
      (0, (st.write (protoConstraintPrint host { flags with int32Value := true } ct).2).addMsg
        (protoMsgAddElem (withParams (protoCreateMessage name expr.specIndex expr.typeUniqueIndex
            (provenance "range of Integer" modFile expr.lineno)) expr)
          { valueElem with
            rules := "int32 = \x7b" ++ (protoConstraintPrint host { flags with int32Value := true } ct).1 ++ "\x7d" })) := by
  simp [lowerScalarType, kind, constraint]

theorem lowerScalarType_string (kind : expr.exprType = .ia5String ∨ expr.exprType = .bmpString)
    (constraint : expr.constraints = some ct) :
    lowerScalarType host flags modFile expr name st =
      (0, (st.write (protoConstraintPrint host { flags with stringValue := true } ct).2).addMsg
        (protoMsgAddElem (withParams (protoCreateMessage name expr.specIndex expr.typeUniqueIndex
            (provenance "range of Integer" modFile expr.lineno)) expr)
          { valueElem with
            type := "string"
            rules := "string = \x7b" ++ (protoConstraintPrint host { flags with stringValue := true } ct).1 ++ "\x7d" })) := by
  rcases kind with kind | kind <;> simp [lowerScalarType, kind, constraint]

theorem lowerDefinition_integer_valueset (meta : expr.metaType = .valueset) (kind : expr.exprType = .integer)
    (constraint : expr.constraints = some ct) :
    lowerDefinition host flags modFile expr name st =
      (0, (st.write (protoConstraintPrint host flags ct).2).addMsg
        (protoMsgAddElem (protoCreateMessage name expr.specIndex expr.typeUniqueIndex
            (provenance "range of Integer" modFile expr.lineno))
          { valueElem with rules := "int32 = \x7bin: [" ++ (protoConstraintPrint host flags ct).1 ++ "]\x7d" })) := by
  simp [lowerDefinition, meta, kind, constraint]

end Asn1Proto

namespace Asn1Proto

mutual
/-- The definitions `asn1print_expr_proto` may lower for an expression: the expression
itself, or those of its specialization clones. -/
def loweredDefinitions : Expr → List Expr
  | expr@{ specializations := specs, .. } =>
    match specs with
    | [] => [expr]
    | clone :: rest => loweredDefinitionsOf (clone :: rest)

def loweredDefinitionsOf : List Expr → List Expr
  | [] => []
  | clone :: rest => loweredDefinitions clone ++ loweredDefinitionsOf rest
end

/-- A relation between the states before and after lowering a list of definitions that
lowering one named definition establishes, that an early stop keeps, and that composes:
every run of `asn1print_expr_proto` then establishes it. -/
structure LoweringRel (host : Host) (flags : Flags) (modFile : String)
    (Rel : List Expr → Lowered → Lowered → Prop) : Prop where
  nil : ∀ st, Rel [] st st
  definition : ∀ {d : Expr} {name : String} (st : Lowered), d.specializations = [] → d.identifier = some name →
    Rel [d] st (lowerDefinition host flags modFile d name st).2
  stop : ∀ {a : List Expr} (b : List Expr) {st st' : Lowered}, Rel a st st' → Rel (a ++ b) st st'
  seq : ∀ {a b : List Expr} {st st' st'' : Lowered}, Rel a st st' → Rel b st' st'' → Rel (a ++ b) st st''

namespace LoweringRel

variable {host : Host} {flags : Flags} {modFile : String} {Rel : List Expr → Lowered → Lowered → Prop}

mutual
theorem expr (R : LoweringRel host flags modFile Rel) :
    (e : Expr) → (st : Lowered) → Rel (loweredDefinitions e) st (asn1printExprProto host flags modFile e st).2
  | ⟨identifier, _, _, _, _, _, _, _, _, specs, _, _, _⟩, st => by
    match specs, identifier with
    | [], none => exact R.stop [_] (R.nil st)
    | [], some name => exact R.definition st rfl rfl
    | clone :: rest, _ =>
      simpa only [asn1printExprProto, loweredDefinitions] using R.clones (clone :: rest) st

theorem clones (R : LoweringRel host flags modFile Rel) :
    (clones : List Expr) → (st : Lowered) →
      Rel (loweredDefinitionsOf clones) st (lowerSpecializations host flags modFile clones st).2
  | [], st => R.nil st
  | clone :: rest, st => by
    rw [lowerSpecializations_cons]
    split
    · exact R.stop _ (R.expr clone st)
    · exact R.seq (R.expr clone st) (R.clones rest _)
end

theorem fold (R : LoweringRel host flags modFile Rel) (assignments : List Expr) (st : Lowered) :
    Rel (assignments.flatMap loweredDefinitions) st
      (assignments.foldl (fun st expr => (asn1printExprProto host flags modFile expr st).2) st) := by
  induction assignments generalizing st with
  | nil => exact R.nil st
  | cons expr rest ih => exact R.seq (R.expr expr st) (ih _)

end LoweringRel

section Codes

variable {host : Host} {flags : Flags} {modFile : String} {st : Lowered}

/-- A definition `asn1print_expr_proto` reports with code `-1`: a named value assignment whose
type is neither `ENUMERATED`, `INTEGER` nor a reference. -/
def IsUnhandledValue (d : Expr) : Prop :=
  d.identifier ≠ none ∧ d.exprType ≠ .enumerated ∧ d.metaType = .value ∧ d.exprType ≠ .integer ∧
    d.exprType ≠ .reference

instance (d : Expr) : Decidable (IsUnhandledValue d) :=
  inferInstanceAs (Decidable (_ ∧ _))

theorem lowerReferenceValue_code (d : Expr) (name : String) : (lowerReferenceValue host modFile d name st).1 = 0 := by
  unfold lowerReferenceValue
  split <;> rfl

theorem lowerScalarType_code (d : Expr) (name : String) : (lowerScalarType host flags modFile d name st).1 = 0 := by
  unfold lowerScalarType
  split <;> rfl

theorem lowerDefinition_code {d : Expr} {name : String} (named : d.identifier = some name) :
    (lowerDefinition host flags modFile d name st).1 = if IsUnhandledValue d then -1 else 0 := by
  by_cases unhandled : IsUnhandledValue d
  · obtain ⟨-, enumerated, value, integer, reference⟩ := unhandled
    rw [lowerDefinition_value_other value enumerated integer reference, if_pos ⟨by simp [named], enumerated, value,
      integer, reference⟩]
  rw [if_neg unhandled]
  by_cases enumerated : d.exprType = .enumerated
  · rw [lowerDefinition_enumerated enumerated]
  by_cases value : d.metaType = .value
  · by_cases integer : d.exprType = .integer
    · rw [lowerDefinition_value_integer value integer]
    have reference : d.exprType = .reference := by
      by_contra other
      exact unhandled ⟨by simp [named], enumerated, value, integer, other⟩
    rw [lowerDefinition_value_reference value reference, lowerReferenceValue_code]
  by_cases type : d.metaType = .type
  · by_cases sequence : d.exprType = .sequence ∨ d.exprType = .sequenceOf
    · rw [lowerDefinition_sequence type sequence]
    by_cases choice : d.exprType = .choice
    · rw [lowerDefinition_choice type choice]
    rw [lowerDefinition_scalar type enumerated ⟨fun h => sequence (.inl h), fun h => sequence (.inr h), choice⟩,
      lowerScalarType_code]
  unfold lowerDefinition
  simp only [enumerated, value, type, if_false, false_and, apply_ite Prod.fst, ite_self]

mutual
theorem asn1printExprProto_code (host : Host) (flags : Flags) (modFile : String) :
    (e : Expr) → (st : Lowered) →
      (asn1printExprProto host flags modFile e st).1 = if ∃ d ∈ loweredDefinitions e, IsUnhandledValue d then -1 else 0
  | ⟨identifier, _, _, _, _, _, _, _, _, specs, _, _, _⟩, st => by
    match specs, identifier with
    | [], none =>
      rw [if_neg fun ⟨_, listed, unhandled⟩ => unhandled.1 (by obtain rfl := List.mem_singleton.1 listed; rfl)]
      rfl
    | [], some name =>
      simp only [asn1printExprProto, loweredDefinitions, List.mem_singleton, exists_eq_left]
      exact lowerDefinition_code rfl
    | clone :: rest, _ =>
      simpa only [asn1printExprProto, loweredDefinitions] using lowerSpecializations_code host flags modFile (clone :: rest) st

theorem lowerSpecializations_code (host : Host) (flags : Flags) (modFile : String) :
    (clones : List Expr) → (st : Lowered) →
      (lowerSpecializations host flags modFile clones st).1 =
        if ∃ d ∈ loweredDefinitionsOf clones, IsUnhandledValue d then -1 else 0
  | [], st => by simp [lowerSpecializations, loweredDefinitionsOf]
  | clone :: rest, st => by
    have first := asn1printExprProto_code host flags modFile clone st
    have later := lowerSpecializations_code host flags modFile rest (asn1printExprProto host flags modFile clone st).2
    rw [lowerSpecializations_cons, loweredDefinitionsOf]
    by_cases failing : ∃ d ∈ loweredDefinitions clone, IsUnhandledValue d
    · rw [first, if_pos failing, if_pos (by norm_num), first, if_pos failing,
        if_pos (failing.imp fun d ⟨listed, unhandled⟩ => ⟨List.mem_append_left _ listed, unhandled⟩)]
    · rw [first, if_neg failing, if_neg (by norm_num), later]
      simp only [List.mem_append, or_and_right, exists_or, failing, false_or]
end

/-- `asn1print_expr_proto` returns `-1` exactly when one of the definitions it lowers is a
value of a type it does not handle, and `0` otherwise: the loop over the specialization
clones stops at the first clone that fails and returns its code. -/
theorem asn1printExprProto_fails_iff (host : Host) (flags : Flags) (modFile : String) (e : Expr) (st : Lowered) :
    ((asn1printExprProto host flags modFile e st).1 = -1 ↔ ∃ d ∈ loweredDefinitions e, IsUnhandledValue d) ∧
      ((asn1printExprProto host flags modFile e st).1 = 0 ↔ ¬ ∃ d ∈ loweredDefinitions e, IsUnhandledValue d) := by
  rw [asn1printExprProto_code]
  by_cases failing : ∃ d ∈ loweredDefinitions e, IsUnhandledValue d
  · simp only [if_pos failing, failing, not_true_eq_false, iff_false]
    decide
  · simp only [if_neg failing, failing, not_false_eq_true, iff_true]
    decide

end Codes

end Asn1Proto
