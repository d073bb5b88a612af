import Asn1Proto.ProtoModel
import Asn1Proto.NameRewrite
import Asn1Proto.ValuePrint

namespace Asn1Proto

/-- Whether `strstr(haystack, needle)` is not `NULL`. -/
def strstrFound (needle : List Char) : List Char → Bool
  | [] => needle.isEmpty
  | c :: rest => needle.isPrefixOf (c :: rest) || strstrFound needle rest

/-- The type `print_entries` prints: as it is when `strstr` finds it in
`PROTOSCALARTYPES`, in PascalCase otherwise. -/
def printedType (host : Host) (type : String) : String :=
  if strstrFound type.toList host.protoScalarTypes.toList then type else toPascalCaseDup type

/-- `INDENT`: four spaces a level unless `APF_NOINDENT2`. -/
def indent (flags : Flags) (level : Nat) : String :=
  if flags.noIndent2 then "" else String.join (List.replicate level "    ")

/-- The tokens `strtok_r(…, "\n", …)` returns after the characters `current` of the
token being read: the non-empty runs between newlines. -/
def strtokLines (current : List Char) : List Char → List (List Char)
  | [] => if current = [] then [] else [current]
  | c :: rest =>
    if c = '\n' then
      if current = [] then strtokLines [] rest else current :: strtokLines [] rest
    else strtokLines (current ++ [c]) rest

/-- `proto_print_comments`: a `// ` line for each token. -/
def protoPrintComments (comments : String) : String :=
  String.join ((strtokLines [] comments.toList).map fun t => "// " ++ ⟨t⟩ ++ "\n")

/-- One field as `print_entries` prints it. -/
structure FieldLine where
  repeated : Bool
  type : String
  name : String
  number : Nat
  rules : String
  comments : String
  deriving DecidableEq, Repr

def FieldLine.text (flags : Flags) (level : Nat) (l : FieldLine) : String :=
  indent flags level ++ (if l.repeated then "repeated " else "") ++
    l.type ++ " " ++ l.name ++ " = " ++ toString l.number ++
    (if l.rules = "" then "" else " [(validate.v1.rules)." ++ l.rules ++ "]") ++
    (if l.comments = "" then ";\n" else "; // " ++ l.comments ++ "\n")

/-- The loop of `print_entries` from entry `i` on; entry `i` is numbered `i + 1`. -/
def printEntriesFrom (host : Host) (i : Nat) : List ProtoMsgDef → List FieldLine
  | [] => []
  | d :: rest =>
    { repeated := d.repeated, type := printedType host d.type,
      name := toSnakeCaseDup d.name .lower, number := i + 1, rules := d.rules,
      comments := d.comments } :: printEntriesFrom host (i + 1) rest

def printEntries (host : Host) (entry : List ProtoMsgDef) : List FieldLine :=
  printEntriesFrom host 0 entry

/-- A oneof block as `proto_print_single_oneof` prints it. -/
structure OneofBlock where
  comments : String
  name : String
  fields : List FieldLine
  deriving DecidableEq, Repr

def protoPrintSingleOneof (host : Host) (oneof : ProtoOneof) : OneofBlock :=
  { comments := oneof.comments, name := toSnakeCaseDup oneof.name .lower,
    fields := printEntries host oneof.entry }

def OneofBlock.text (flags : Flags) (level : Nat) (b : OneofBlock) : String :=
  indent flags level ++ protoPrintComments b.comments ++ indent flags level ++
    "oneof " ++ b.name ++ " \x7b\n" ++ String.join (b.fields.map (FieldLine.text flags (level + 1))) ++
    indent flags level ++ "\x7d\n"

/-- A message block as `proto_print_single_msg` prints it. -/
structure MsgBlock where
  comments : String
  name : String
  fields : List FieldLine
  oneofs : List OneofBlock
  deriving DecidableEq, Repr

def protoPrintSingleMsg (host : Host) (msg : ProtoMsg) : MsgBlock :=
  { comments := msg.comments, name := toPascalCaseDup msg.name, fields := printEntries host msg.entry,
    oneofs := msg.oneof.map (protoPrintSingleOneof host) }

def MsgBlock.text (flags : Flags) (level : Nat) (b : MsgBlock) : String :=
  protoPrintComments b.comments ++ "message " ++ b.name ++ " \x7b\n" ++
    String.join (b.fields.map (FieldLine.text flags (level + 1))) ++
    String.join (b.oneofs.map (OneofBlock.text flags (level + 1))) ++ indent flags level ++ "\x7d;\n\n"

/-- One constant as `proto_print_single_enum` prints it. -/
structure EnumLine where
  name : String
  value : Int
  auto : Bool
  deriving DecidableEq, Repr

def EnumLine.text (flags : Flags) (level : Nat) (l : EnumLine) : String :=
  indent flags level ++ l.name ++ " = " ++ toString l.value ++
    (if l.auto then "; // auto generated\n" else ";\n")

/-- The loop over the entries: a negative index takes the running counter `index`. -/
def enumLinesFrom (enumNameUc : String) (index : Int) : List ProtoEnumDef → List EnumLine
  | [] => []
  | d :: rest =>
    if d.index < 0 then
      ⟨enumNameUc ++ "_" ++ toSnakeCaseDup d.name .upper, index, false⟩ ::
        enumLinesFrom enumNameUc (index + 1) rest
    else
      ⟨enumNameUc ++ "_" ++ toSnakeCaseDup d.name .upper, d.index, false⟩ ::
        enumLinesFrom enumNameUc index rest

/-- An enum block as `proto_print_single_enum` prints it. -/
structure EnumBlock where
  comments : String
  name : String
  lines : List EnumLine
  deriving DecidableEq, Repr

/-- `proto_print_single_enum`: an auto-generated `_UNDEFINED = 0` first when no entry has
index 0, then the entries. -/
def protoPrintSingleEnum (e : ProtoEnum) : EnumBlock :=
  { comments := e.comments, name := toPascalCaseDup e.name,
    lines := (if e.defs.any (fun d => d.index = 0) then []
      else [⟨toSnakeCaseDup e.name .upper ++ "_UNDEFINED", 0, true⟩]) ++
      enumLinesFrom (toSnakeCaseDup e.name .upper) 0 e.defs }

def EnumBlock.text (flags : Flags) (level : Nat) (b : EnumBlock) : String :=
  protoPrintComments b.comments ++ "enum " ++ b.name ++ " \x7b\n" ++
    String.join (b.lines.map (EnumLine.text flags (level + 1))) ++ "\x7d;\n\n"

/-- `proto_print_oid`. -/
def protoPrintOid (oid : Oid) : String :=
  " \x7b" ++ String.join (oid.arcs.map fun (name, number) => " " ++
    match name with
    | some arcname => arcname ++ (if 0 ≤ number then "(" ++ asn1pItoa number ++ ")" else "")
    | none => asn1pItoa number) ++ " \x7d"

/-- Modelled from the spec: `proto_remove_rel_path` (not under src/) strips leading `./`
and `../` segments. -/
def protoRemoveRelPath : List Char → List Char
  | '.' :: '/' :: rest => protoRemoveRelPath rest
  | '.' :: '.' :: '/' :: rest => protoRemoveRelPath rest
  | s => s

/-- The `strrchr(srcfilename, '/')` suffix: from the last slash on. -/
def lastSlashSuffix (s : List Char) : List Char :=
  match s.reverse.span (· ≠ '/') with
  | (after, _ :: _) => '/' :: after.reverse
  | (_, []) => s

/-- `proto_print_msg`: the whole proto file of a module. -/
def protoPrintMsg (host : Host) (flags : Flags) (level : Nat) (m : ProtoModule) : String :=
  let srcNoRelPath : String := ⟨protoRemoveRelPath (toSnakeCaseDup m.srcfilename .lower).toList⟩
  let pkg := if startNotLcLetter srcNoRelPath then "pkg" ++ srcNoRelPath else srcNoRelPath
  protoPrintComments m.comments ++
    "////////////////////// " ++ toLowercaseDup m.modulename ++ ".proto //////////////////////\n" ++
    "// Protobuf generated" ++
    (if m.srcfilename ≠ "" ∧ '/' ∈ m.srcfilename.toList then
      " from " ++ ⟨lastSlashSuffix m.srcfilename.toList⟩ ++ " "
     else " from /" ++ m.srcfilename ++ " ") ++
    "by asn1c-" ++ host.version ++ "\n// " ++ m.modulename ++
    (match m.oid with | some oid => protoPrintOid oid | none => "") ++ "\n" ++
    "\nsyntax = \"proto3\";\n\n" ++ "package " ++ pkg ++ ".v1;\n\n" ++
    String.join (m.imports.map fun i =>
      "import \"" ++ pkg ++ "/v1/" ++ toLowercaseDup i.path ++ ".proto\";" ++
        (match i.oid with | some oid => " //" ++ protoPrintOid oid | none => "") ++ "\n") ++
    "import \"validate/v1/validate.proto\";\n\n" ++
    String.join (m.protoenum.map fun e => (protoPrintSingleEnum e).text flags level) ++
    String.join (m.message.map fun msg => (protoPrintSingleMsg host msg).text flags level)

end Asn1Proto
