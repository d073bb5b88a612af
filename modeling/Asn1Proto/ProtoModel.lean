import Asn1Proto.Ast

namespace Asn1Proto

/-- A field of a message or of a oneof (`proto_msg_def_t`). -/
structure ProtoMsgDef where
  name : String
  type : String
  rules : String
  comments : String
  repeated : Bool
  deriving DecidableEq, Repr

inductive ProtoParamKind
  | type | value | valueSet
  deriving DecidableEq, Repr

structure ProtoParam where
  kind : ProtoParamKind
  name : String
  deriving DecidableEq, Repr

structure ProtoOneof where
  name : String
  comments : String
  entry : List ProtoMsgDef
  deriving DecidableEq, Repr

structure ProtoMsg where
  name : String
  specIndex : Int
  typeUniqueIndex : Int
  comments : String
  entry : List ProtoMsgDef
  oneof : List ProtoOneof
  params : List ProtoParam
  deriving DecidableEq, Repr

structure ProtoEnumDef where
  name : String
  index : Int
  deriving DecidableEq, Repr

structure ProtoEnum where
  name : String
  comments : String
  defs : List ProtoEnumDef
  deriving DecidableEq, Repr

/-- An object identifier: arcs with an optional name and a number. -/
structure Oid where
  arcs : List (Option String × Int)
  deriving DecidableEq, Repr

structure ProtoImport where
  path : String
  oid : Option Oid
  deriving DecidableEq, Repr

structure ProtoModule where
  modulename : String
  srcfilename : String
  oid : Option Oid
  imports : List ProtoImport
  protoenum : List ProtoEnum
  message : List ProtoMsg
  comments : String
  deriving DecidableEq, Repr

/-- The `"<what> from %s:%d"` provenance comment the constructors format. -/
def provenance (what src : String) (line : Int) : String :=
  what ++ " from " ++ src ++ ":" ++ toString line

/-- Modelled from the spec: `proto_create_message` (asn1prototypes.c is not under src/)
stores its arguments and starts with no fields, oneofs or parameters. -/
def protoCreateMessage (name : String) (specIndex typeUniqueIndex : Int) (comments : String) :
    ProtoMsg :=
  { name, specIndex, typeUniqueIndex, comments, entry := [], oneof := [], params := [] }

/-- Modelled from the spec: `proto_create_msg_elem`, a field that is not repeated and has
no comment; a `NULL` rule is the empty string. -/
def protoCreateMsgElem (name type : String) (rules : String := "") : ProtoMsgDef :=
  { name, type, rules, comments := "", repeated := false }

/-- Modelled from the spec: the name `proto_create_msg_elem` gives a field when it is passed
the `Identifier` of a member, `value` when that is `NULL`, as spec scenario 5 prints the
unnamed element of `PointList ::= SEQUENCE OF Point`. -/
def protoElemName (identifier : Option String) : String :=
  identifier.getD "value"

/-- Modelled from the spec: `proto_create_msg_oneof`, a oneof with no fields. -/
def protoCreateMsgOneof (name comments : String) : ProtoOneof :=
  { name, comments, entry := [] }

/-- Modelled from the spec: `proto_create_enum`, an enum with no entries. -/
def protoCreateEnum (name comments : String) : ProtoEnum :=
  { name, comments, defs := [] }

/-- Modelled from the spec: the append-only mutators `proto_msg_add_elem`. -/
def protoMsgAddElem (msg : ProtoMsg) (elem : ProtoMsgDef) : ProtoMsg :=
  { msg with entry := msg.entry ++ [elem] }

/-- Modelled from the spec: `proto_msg_add_oneof` appends. -/
def protoMsgAddOneof (msg : ProtoMsg) (oneof : ProtoOneof) : ProtoMsg :=
  { msg with oneof := msg.oneof ++ [oneof] }

/-- Modelled from the spec: `proto_msg_add_param` appends. -/
def protoMsgAddParam (msg : ProtoMsg) (param : ProtoParam) : ProtoMsg :=
  { msg with params := msg.params ++ [param] }

/-- Modelled from the spec: `proto_enum_add_def` appends. -/
def protoEnumAddDef (e : ProtoEnum) (d : ProtoEnumDef) : ProtoEnum :=
  { e with defs := e.defs ++ [d] }

@[simp] theorem protoMsgAddElem_entry (msg : ProtoMsg) (elem : ProtoMsgDef) :
    (protoMsgAddElem msg elem).entry = msg.entry ++ [elem] := rfl

@[simp] theorem protoMsgAddElem_oneof (msg : ProtoMsg) (elem : ProtoMsgDef) :
    (protoMsgAddElem msg elem).oneof = msg.oneof := rfl

@[simp] theorem protoMsgAddElem_name (msg : ProtoMsg) (elem : ProtoMsgDef) :
    (protoMsgAddElem msg elem).name = msg.name := rfl

@[simp] theorem protoMsgAddOneof_entry (msg : ProtoMsg) (oneof : ProtoOneof) :
    (protoMsgAddOneof msg oneof).entry = msg.entry := rfl

@[simp] theorem protoMsgAddOneof_oneof (msg : ProtoMsg) (oneof : ProtoOneof) :
    (protoMsgAddOneof msg oneof).oneof = msg.oneof ++ [oneof] := rfl

@[simp] theorem protoMsgAddOneof_name (msg : ProtoMsg) (oneof : ProtoOneof) :
    (protoMsgAddOneof msg oneof).name = msg.name := rfl

@[simp] theorem protoMsgAddParam_entry (msg : ProtoMsg) (param : ProtoParam) :
    (protoMsgAddParam msg param).entry = msg.entry := rfl

@[simp] theorem protoMsgAddParam_oneof (msg : ProtoMsg) (param : ProtoParam) :
    (protoMsgAddParam msg param).oneof = msg.oneof := rfl

@[simp] theorem protoMsgAddParam_name (msg : ProtoMsg) (param : ProtoParam) :
    (protoMsgAddParam msg param).name = msg.name := rfl

end Asn1Proto
