import Asn1Proto.TypeReferences
import Asn1Proto.EnumNumbering

namespace Asn1Proto

/-- The cells of a definition's information object set that `asn1extract_columns` turns into
fields, row after row. -/
def tableCells (d : Expr) : List IocCell :=
  (d.iocTable.getD []).flatten.filter fun cell => 0 < cell.newRef

/-- The message `asn1print_expr_proto` builds for a definition: a single field `value`, the
members of a `SEQUENCE`, `SEQUENCE OF` or `CHOICE`, or the cells of an information object
set. -/
inductive MessageShape (host : Host) (d : Expr) (msg : ProtoMsg) : Prop
  | value (field : ProtoMsgDef) : msg.entry = [field] → field.name = "value" → msg.oneof = [] →
      MessageShape host d msg
  | members : CarriesMembers host d (protoPrintSingleMsg host msg) → MessageShape host d msg
  | table : msg.entry = (tableCells d).map iocCellElem → msg.oneof = [] → MessageShape host d msg

section Emission

variable {host : Host} {flags : Flags} {modFile : String} {d : Expr} {name : String} {st : Lowered}

theorem MessageShape.single {msg : ProtoMsg} {field : ProtoMsgDef} (entry : msg.entry = [])
    (oneof : msg.oneof = []) (named : field.name = "value") :
    MessageShape host d (protoMsgAddElem msg field) :=
  .value field (by simp [entry]) named (by simp [oneof])

end Emission

/-- The printed fields and oneofs of a message have pairwise distinct names. -/
def FieldNamesApart (b : MsgBlock) : Prop :=
  (b.allFields.map (·.name) ++ b.oneofs.map (·.name)).Nodup

/-- The printed constants of an enum have pairwise distinct names. -/
def EntryNamesApart (b : EnumBlock) : Prop :=
  (b.lines.map (·.name)).Nodup

/-- The naming discipline of one lowered definition, up to case and the separators the
rewriters drop or turn into `_`: its members' names apart, none the name of the `CHOICE`
they belong to; its items' names apart, none `undefined`; and the names its table's cells
give their fields apart. -/
@[mk_iff] structure DistinctDefinition (d : Expr) : Prop where
  members : ((fieldMembers d).map fun se => nameKey (protoElemName se.identifier).toList).Nodup
  oneof : d.exprType = .choice → ∀ se ∈ fieldMembers d,
    nameKey (protoElemName se.identifier).toList ≠ nameKey (d.identifier.getD "").toList
  items : ((enumItems d).map fun se => nameKey (se.identifier.getD "").toList).Nodup
  noUndefined : ∀ se ∈ enumItems d, nameKey (se.identifier.getD "").toList ≠ "undefined".toList
  cells : ((tableCells d).map fun cell => nameKey (cell.field ++ "-" ++ cell.value.identifier).toList).Nodup

instance DistinctDefinition.decidable (d : Expr) : Decidable (DistinctDefinition d) :=
  decidable_of_iff _ (distinctDefinition_iff d).symm

/-- Every message and enum a lowering adds has its names apart. -/
def AddsApart (host : Host) (st st' : Lowered) : Prop :=
  (∀ msg ∈ st'.message, msg ∈ st.message ∨ FieldNamesApart (protoPrintSingleMsg host msg)) ∧
    ∀ e ∈ st'.protoenum, e ∈ st.protoenum ∨ EntryNamesApart (protoPrintSingleEnum e)

namespace AddsApart

variable {host : Host} {st st' st'' : Lowered}

theorem refl : AddsApart host st st :=
  ⟨fun _ member => .inl member, fun _ member => .inl member⟩

theorem trans (first : AddsApart host st st') (second : AddsApart host st' st'') : AddsApart host st st'' :=
  ⟨fun msg member => (second.1 msg member).elim (first.1 msg) .inr,
    fun e member => (second.2 e member).elim (first.2 e) .inr⟩

end AddsApart

section Runs

variable {host : Host} {d : Expr} {name : String} {st st' : Lowered}

end Runs

/-- A module's naming discipline: every definition it lowers follows `DistinctDefinition`, and
their identifiers are apart up to case and separators. -/
@[mk_iff] structure DistinctModule (assignments : List Expr) : Prop where
  definitions : ∀ d ∈ assignments.flatMap loweredDefinitions, DistinctDefinition d
  distinct : (((assignments.flatMap loweredDefinitions).filterMap (·.identifier)).map fun s => nameKey s.toList).Nodup

instance DistinctModule.decidable (assignments : List Expr) : Decidable (DistinctModule assignments) :=
  decidable_of_iff _ (distinctModule_iff assignments).symm

end Asn1Proto
