import Mathlib

namespace Asn1Proto

/-- The meta types of `asn1p_expr_t` that the lowering tells apart. -/
inductive MetaType
  | invalid | type | typeref | value | valueset | object | objectclass | objectfield
  deriving DecidableEq, Repr

/-- The expression types of `asn1p_expr_t`: the ones the printer names, and the
other basic and string types it meets in real modules. -/
inductive ExprType
  | invalid | reference | exportvar | univerval | bitvector | opaqueData | extensible
  | componentsOf | valueset | classdef | classInstance
  | sequence | choice | set | sequenceOf | setOf
  | any | boolean | null | integer | real | enumerated | bitString | octetString
  | objectIdentifier | relativeOid | external | embeddedPdv | characterString
  | utcTime | generalizedTime
  | ia5String | printableString | visibleString | numericString | universalString
  | bmpString | utf8String | generalString | graphicString | teletexString
  | videotexString | objectDescriptor
  deriving DecidableEq, Repr

/-- The value kinds of `asn1p_value_t` that `proto_value_print` switches on. -/
inductive ValueType
  | novalue | null | real | type | integer | min | max | false | true | tuple | quadruple
  | string | unparsed | bitvector | referenced | valueset | choiceIdentifier
  deriving DecidableEq, Repr

/-- An ASN.1 value. C strings are the characters before their terminator. A REAL
carries the text `%f` gives for it, and a type used as a value carries the text the
ASN.1 printer gives for that type: neither formatting is part of this printer. -/
inductive Value
  | novalue
  | null
  | real (fixed : String)
  | type (asn1Text : String)
  | integer (v : Int)
  | min
  | max
  | false
  | true
  | tuple (v : Int)
  | quadruple (v : Int)
  | string (buf : List Char)
  | unparsed (buf : List Char)
  | bitvector (bits : List UInt8) (sizeInBits : Nat)
  | referenced (components : List String)
  | valueset
  | choiceIdentifier (identifier : String) (value : Value)
  deriving DecidableEq, Repr

def Value.valueType : Value → ValueType
  | .novalue => .novalue
  | .null => .null
  | .real _ => .real
  | .type _ => .type
  | .integer _ => .integer
  | .min => .min
  | .max => .max
  | .false => .false
  | .true => .true
  | .tuple _ => .tuple
  | .quadruple _ => .quadruple
  | .string _ => .string
  | .unparsed _ => .unparsed
  | .bitvector _ _ => .bitvector
  | .referenced _ => .referenced
  | .valueset => .valueset
  | .choiceIdentifier _ _ => .choiceIdentifier

/-- The node kinds of `asn1p_constraint_t`. -/
inductive ConstraintType
  | invalid
  | elType | elValue | elRange | elLLRange | elRLRange | elULRange | elExt
  | ctSize | ctFrom | ctWComp | ctWComps | ctCtdBy | ctCtng | ctPattern
  | caSet | caCrc | caCsv | caUni | caInt | caExc | caAex
  deriving DecidableEq, Repr

/-- A constraint tree, with the fields `proto_constraint_print` reads. -/
structure Constraint where
  type : ConstraintType
  value : Option Value := none
  rangeStart : Option Value := none
  rangeStop : Option Value := none
  containedSubtype : Option Value := none
  elements : List Constraint := []
  deriving Repr

/-- One parameter of a parameterized assignment: the name of its governor's first
component (empty for a type parameter) and the argument. -/
structure Param where
  governor : String
  argument : String
  deriving DecidableEq, Repr

/-- The expression a cell of an information object set refers to. -/
structure CellValue where
  identifier : String
  value : Option Value
  deriving DecidableEq, Repr

/-- A cell of an information object set table. -/
structure IocCell where
  newRef : Int
  field : String
  value : CellValue
  deriving DecidableEq, Repr

/-- An ASN.1 expression: an assignment, a member, or a specialization clone. The
printer reads `Identifier` as a C string that may be `NULL`; the other pointers it
dereferences without a check are total here. -/
structure Expr where
  identifier : Option String
  metaType : MetaType
  exprType : ExprType
  value : Option Value := none
  constraints : Option Constraint := none
  members : List Expr
  lhsParams : Option (List Param) := none
  reference : List String := []
  iocTable : Option (List (List IocCell)) := none
  specializations : List Expr
  specIndex : Int := -1
  typeUniqueIndex : Int := 0
  lineno : Int := 0
  deriving Repr

/-- What the printer takes from the rest of asn1c, whose code is not under src/: the
numbers `%d` prints for the three enumerations, `asn1print_value`, the terminal type
`asn1f_find_terminal_type_ex` resolves a reference to, `PROTOSCALARTYPES` and `VERSION`. -/
structure Host where
  metaTypeCode : MetaType → Int
  exprTypeCode : ExprType → Int
  valueTypeCode : ValueType → Int
  printValue : Value → String
  findTerminalType : Expr → Expr
  protoScalarTypes : String
  version : String

/-- A host for closed inputs: every code prints as 0, the scalar types are the four the
spec names, and a reference resolves to the referring expression. -/
def Host.sample : Host where
  metaTypeCode _ := 0
  exprTypeCode _ := 0
  valueTypeCode _ := 0
  printValue _ := ""
  findTerminalType expr := expr
  protoScalarTypes := "int32 float bool string"
  version := ""

end Asn1Proto
