import Asn1Proto.ProtoModel
import Asn1Proto.ConstraintPrint

namespace Asn1Proto

/-- The messages and enums the lowering appends to, with what it writes straight to the
output stream (`printf`, and `safe_fwrite` in the constraint printer), in order. -/
structure Lowered where
  message : List ProtoMsg
  protoenum : List ProtoEnum
  out : List String
  deriving Repr

def Lowered.addMsg (st : Lowered) (msg : ProtoMsg) : Lowered :=
  { st with message := st.message ++ [msg] }

def Lowered.addEnum (st : Lowered) (e : ProtoEnum) : Lowered :=
  { st with protoenum := st.protoenum ++ [e] }

def Lowered.write (st : Lowered) (text : List String) : Lowered :=
  { st with out := st.out ++ text }

/-- `v_integer` of an integer value; reading it from another kind of value is not modelled. -/
def vInteger : Option Value → Int
  | some (.integer v) => v
  | _ => 0

/-- `snprintf` into 100 bytes keeps the first 99 characters. -/
def snprintf100 (s : String) : String :=
  ⟨s.toList.take 99⟩

/-- `%03d`: at least three characters, zeros after the sign. -/
def fmt03d (n : Int) : String :=
  let digits := (toString n.natAbs).toList
  let width := if n < 0 then 2 else 3
  (if n < 0 then "-" else "") ++ ⟨List.replicate (width - digits.length) '0' ++ digits⟩

/-- `proto_param_type`. -/
def protoParamType (param : Param) : ProtoParamKind :=
  if param.governor = "" then .type
  else if (param.argument.toList.headD '\x00').isLower then .value
  else .valueSet

/-- `proto_extract_params`: the message with one parameter per argument, and the
`"\nParam %s:%s"` comment lines. -/
def protoExtractParams (msg : ProtoMsg) (params : List Param) : ProtoMsg × String :=
  (params.foldl (fun m p => protoMsgAddParam m ⟨protoParamType p, p.argument⟩) msg,
    String.join (params.map fun p => "\nParam " ++ p.governor ++ ":" ++ p.argument))

/-- The `lhs_params` step the type branches share: parameters and their comment lines. -/
def withParams (msg : ProtoMsg) (expr : Expr) : ProtoMsg :=
  match expr.lhsParams with
  | none => msg
  | some params =>
    { (protoExtractParams msg params).1 with
      comments := (protoExtractParams msg params).1.comments ++ (protoExtractParams msg params).2 }

/-- `proto_process_enumerated`: one entry per `UNIVERVAL` member, indexed `-1` unless its
value is a non-negative integer, stored in the `int` index. -/
def protoEnumDef (se : Expr) : ProtoEnumDef :=
  { name := se.identifier.getD ""
    index := match se.value with
      | some (.integer v) => if 0 ≤ v then toCInt v else -1
      | _ => -1 }

def protoProcessEnumerated (expr : Expr) : List ProtoEnumDef :=
  (expr.members.filter fun se => se.exprType = .univerval).map protoEnumDef

/-- The element type a `SEQUENCE OF` member takes from its first member. -/
def sequenceOfType : List Expr → String
  | se2 :: _ =>
    if se2.exprType = .reference ∧ se2.metaType = .typeref then
      match se2.reference with
      | [comp] => comp
      | _ => "int32"
    else "int32"
  | [] => "int32"

/-- The type of a member that refers to a type: one component, or the second of two. -/
def referenceType : List String → String
  | [comp] => comp
  | [_, comp] => comp
  | _ => "int32"

/-- The field `proto_process_children` builds for one member that is neither `UNIVERVAL`
nor an extension marker, with what printing its constraint writes. -/
def childElem (host : Host) (repeated : Bool) (se : Expr) : ProtoMsgDef × List String :=
  let elem := { protoCreateMsgElem (protoElemName se.identifier) "int32" with repeated }
  if se.exprType = .bitString then ({ elem with type := "BitString" }, [])
  else if se.exprType = .objectIdentifier then ({ elem with type := "BasicOid" }, [])
  else if se.exprType = .boolean then ({ elem with type := "bool" }, [])
  else if se.exprType = .utf8String ∨ se.exprType = .teletexString then
    match se.constraints with
    | none => ({ elem with type := "string" }, [])
    | some ct =>
      let constraint := protoConstraintPrint host { stringValue := true } ct
      ({ elem with type := "string", rules := "string = \x7b" ++ constraint.1 ++ "\x7d" }, constraint.2)
  else if se.metaType = .type ∧ se.exprType = .sequenceOf then
    ({ elem with repeated := true, type := sequenceOfType se.members }, [])
  else if se.exprType = .reference ∧ se.metaType = .typeref then
    ({ elem with type := referenceType se.reference }, [])
  else (elem, [])

/-- Whether the loop of `proto_process_children` skips a member (`continue`). -/
def IsSkippedMember (se : Expr) : Prop :=
  se.exprType = .univerval ∨ se.exprType = .extensible

instance (se : Expr) : Decidable (IsSkippedMember se) :=
  inferInstanceAs (Decidable (_ ∨ _))

/-- The loop of `proto_process_children` over the members. -/
def processMembers (host : Host) (repeated : Bool) : List Expr → List ProtoMsgDef × List String
  | [] => ([], [])
  | se :: rest =>
    if IsSkippedMember se then processMembers host repeated rest
    else ((childElem host repeated se).1 :: (processMembers host repeated rest).1,
      (childElem host repeated se).2 ++ (processMembers host repeated rest).2)

/-- `proto_process_children`: the fields it appends to its target, a message or a oneof. -/
def protoProcessChildren (host : Host) (expr : Expr) (repeated : Bool) :
    List ProtoMsgDef × List String :=
  processMembers host repeated expr.members

/-- The field `asn1extract_columns` makes of a cell whose `new_ref` is positive. -/
def iocCellElem (cell : IocCell) : ProtoMsgDef :=
  match cell.value.value with
  | some (.integer v) =>
    protoCreateMsgElem (cell.field ++ "-" ++ cell.value.identifier) "int32"
      ("int32.const = " ++ toString (toCInt v))
  | _ =>
    protoCreateMsgElem (cell.field ++ "-" ++ cell.value.identifier)
      (if cell.value.identifier = "INTEGER" then "int32"
       else if cell.value.identifier = "REAL" then "float"
       else cell.value.identifier)

/-- `asn1extract_columns`: one message, its fields the cells of every row in order. The C
reads row `i` as `*(ioc_table->row) + i`, an offset from the first row, which is row `i` only
when the rows lie one after another in memory; the model reads `ioc_table->row[i]`, so it
assumes they do. -/
def asn1extractColumns (expr : Expr) (name modFile : String) : ProtoMsg :=
  { protoCreateMessage name expr.specIndex expr.typeUniqueIndex
      (provenance ("concrete instance of class " ++ expr.reference.headD "") modFile expr.lineno) with
    entry := ((expr.iocTable.getD []).flatten.filter fun cell => 0 < cell.newRef).map iocCellElem }

end Asn1Proto

namespace Asn1Proto

/-- The field of the single-field messages, `value`, before its type and rule are set. -/
def valueElem : ProtoMsgDef :=
  protoCreateMsgElem "value" "int32"

/-- `REFERENCE`-typed value assignments: the reference path as the field's comment, then
the integer, string and information object set cases. -/
def lowerReferenceValue (host : Host) (modFile : String) (expr : Expr) (name : String)
    (st : Lowered) : Int × Lowered :=
  let msg := protoCreateMessage name expr.specIndex expr.typeUniqueIndex
    (provenance "reference" modFile expr.lineno)
  let elem := { valueElem with comments := ".".intercalate expr.reference }
  match expr.value with
  | some (.integer v) =>
    (0, st.addMsg (protoMsgAddElem msg { elem with rules := "int32.const = " ++ toString (toCInt v) }))
  | some (.string buf) =>
    let rules := snprintf100 ("string.const = \"" ++ ⟨escapeQuotesDup buf⟩ ++ "\"")
    (0, st.addMsg (protoMsgAddElem msg { elem with type := "string", rules }))
  | some (.unparsed _) =>
    (0, if expr.iocTable.isSome then st.addMsg (asn1extractColumns expr name modFile) else st)
  | v =>
    (0, st.write ["// Error. AMT_VALUE with ExprType: " ++
      toString (host.valueTypeCode ((v.map Value.valueType).getD .novalue)) ++ "\n"])

/-- The `AMT_TYPE` branch for types other than `SEQUENCE`, `SEQUENCE OF` and `CHOICE`:
a single `value` field for `INTEGER`, `IA5String`, `BMPString` and `BOOLEAN`, nothing for
any other type. -/
def lowerScalarType (host : Host) (flags : Flags) (modFile : String) (expr : Expr) (name : String)
    (st : Lowered) : Int × Lowered :=
  let msg := withParams (protoCreateMessage name expr.specIndex expr.typeUniqueIndex
    (provenance "range of Integer" modFile expr.lineno)) expr
  match expr.exprType, expr.constraints with
  | .integer, none => (0, st.addMsg (protoMsgAddElem msg valueElem))
  | .integer, some ct =>
    let constraint := protoConstraintPrint host { flags with int32Value := true } ct
    (0, (st.write constraint.2).addMsg
      (protoMsgAddElem msg { valueElem with rules := "int32 = \x7b" ++ constraint.1 ++ "\x7d" }))
  | .ia5String, none | .bmpString, none =>
    (0, st.addMsg (protoMsgAddElem msg { valueElem with type := "string" }))
  | .ia5String, some ct | .bmpString, some ct =>
    let constraint := protoConstraintPrint host { flags with stringValue := true } ct
    (0, (st.write constraint.2).addMsg (protoMsgAddElem msg
      { valueElem with type := "string", rules := "string = \x7b" ++ constraint.1 ++ "\x7d" }))
  | .boolean, _ => (0, st.addMsg (protoMsgAddElem msg { valueElem with type := "bool" }))
  | _, _ => (0, st)

/-- The body of `asn1print_expr_proto` for an expression with an identifier and no
specializations: the dispatch on `expr_type` and `meta_type`. -/
def lowerDefinition (host : Host) (flags : Flags) (modFile : String) (expr : Expr) (name : String)
    (st : Lowered) : Int × Lowered :=
  let message (what : String) :=
    protoCreateMessage name expr.specIndex expr.typeUniqueIndex (provenance what modFile expr.lineno)
  if expr.exprType = .enumerated then
    (0, st.addEnum { protoCreateEnum name (provenance "enumerated" modFile expr.lineno) with
      defs := protoProcessEnumerated expr })
  else if expr.metaType = .value then
    match expr.exprType with
    | .integer =>
      (0, st.addMsg (protoMsgAddElem (message "constant Integer")
        { valueElem with rules := "int32.const = " ++ toString (toCInt (vInteger expr.value)) }))
    | .reference => lowerReferenceValue host modFile expr name st
    | other =>
      (-1, st.write ["ERROR: unhandled expr->expr_type " ++ toString (host.exprTypeCode other) ++ "\n"])
  else if expr.exprType = .integer ∧ expr.metaType = .valueset then
    let constraint := match expr.constraints with
      | none => ("(null)", [])
      | some ct => protoConstraintPrint host flags ct
    (0, (st.write constraint.2).addMsg (protoMsgAddElem (message "range of Integer")
      { valueElem with rules := "int32 = \x7bin: [" ++ constraint.1 ++ "]\x7d" }))
  else if expr.metaType = .type ∧ expr.exprType ≠ .sequence ∧ expr.exprType ≠ .sequenceOf ∧
      expr.exprType ≠ .choice then
    lowerScalarType host flags modFile expr name st
  else if expr.metaType = .type ∧ (expr.exprType = .sequence ∨ expr.exprType = .sequenceOf) then
    let children := protoProcessChildren host expr (expr.exprType = .sequenceOf)
    let msg := withParams (message "sequence") expr
    (0, (st.write children.2).addMsg { msg with entry := msg.entry ++ children.1 })
  else if expr.metaType = .type ∧ expr.exprType = .choice then
    let children := protoProcessChildren host expr false
    let oneof := { protoCreateMsgOneof name (provenance "choice" modFile expr.lineno) with
      entry := children.1 }
    (0, (st.write children.2).addMsg (protoMsgAddOneof (withParams (message "sequence") expr) oneof))
  else if expr.exprType = .classdef then (0, st)
  else if expr.metaType = .typeref then
    let refElem := host.findTerminalType expr
    let elem := if expr.reference = [] then valueElem
      else { valueElem with type := refElem.identifier.getD "" ++ fmt03d refElem.typeUniqueIndex }
    (0, st.addMsg (protoMsgAddElem (withParams (message "reference") expr) elem))
  else if expr.metaType = .valueset then (0, st)
  else
    (0, st.write ["\n\n//////// ERROR Unhandled expr " ++ name ++ ". Meta type: " ++
      toString (host.metaTypeCode expr.metaType) ++ ". Expr type: " ++
      toString (host.exprTypeCode expr.exprType) ++ " /////\n\n"])

mutual
/-- `asn1print_expr_proto`: the code it returns, with the lowered definitions and what it
wrote. A parameterized type is lowered through its specialization clones only. -/
def asn1printExprProto (host : Host) (flags : Flags) (modFile : String) :
    Expr → Lowered → Int × Lowered
  | expr@{ specializations := specs, .. }, st =>
    match specs with
    | [] =>
      match expr.identifier with
      | none => (0, st)
      | some name => lowerDefinition host flags modFile expr name st
    | clone :: rest => lowerSpecializations host flags modFile (clone :: rest) st

/-- The loop over the specialization clones, which stops at the first non-zero code. -/
def lowerSpecializations (host : Host) (flags : Flags) (modFile : String) :
    List Expr → Lowered → Int × Lowered
  | [], st => (0, st)
  | clone :: rest, st =>
    if (asn1printExprProto host flags modFile clone st).1 ≠ 0 then
      asn1printExprProto host flags modFile clone st
    else lowerSpecializations host flags modFile rest (asn1printExprProto host flags modFile clone st).2
end

/-- Modelled from the spec: the driver (not under src/) lowers every assignment of a module
in order into one proto module, and only reports a non-zero code. -/
def lowerModule (host : Host) (flags : Flags) (modFile : String) (assignments : List Expr) :
    Lowered :=
  assignments.foldl (fun st expr => (asn1printExprProto host flags modFile expr st).2) ⟨[], [], []⟩

end Asn1Proto
