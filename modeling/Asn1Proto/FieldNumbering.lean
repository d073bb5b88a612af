import Asn1Proto.LowerSpec
import Asn1Proto.Emit

namespace Asn1Proto

/-- A member that is itself a `SEQUENCE OF` type. -/
def Expr.IsSequenceOfType (se : Expr) : Prop :=
  se.metaType = .type ∧ se.exprType = .sequenceOf

/-- The members `proto_process_children` turns into fields, in declaration order. -/
def fieldMembers (expr : Expr) : List Expr :=
  expr.members.filter fun se => !decide (IsSkippedMember se)

theorem processMembers_fields (host : Host) (repeated : Bool) (members : List Expr) :
    (processMembers host repeated members).1 =
      (members.filter fun se => !decide (IsSkippedMember se)).map fun se => (childElem host repeated se).1 := by
  induction members with
  | nil => rfl
  | cons se rest ih => by_cases skip : IsSkippedMember se <;> simp [processMembers, skip, ih]

@[simp] theorem childElem_name (host : Host) (repeated : Bool) (se : Expr) :
    (childElem host repeated se).1.name = protoElemName se.identifier := by
  unfold childElem
  cases se.constraints <;> simp only [apply_ite Prod.fst, apply_ite ProtoMsgDef.name, ite_self] <;> rfl

theorem childElem_repeated (host : Host) (repeated : Bool) (se : Expr) :
    (childElem host repeated se).1.repeated = true ↔ repeated = true ∨ se.IsSequenceOfType := by
  unfold childElem Expr.IsSequenceOfType
  by_cases seqOf : se.metaType = .type ∧ se.exprType = .sequenceOf
  · simp [seqOf, protoCreateMsgElem]
  · cases se.constraints <;>
      simp only [apply_ite Prod.fst, apply_ite ProtoMsgDef.repeated, seqOf, if_false, or_false, ite_self]

theorem printEntriesFrom_numbers (host : Host) (i : Nat) (entry : List ProtoMsgDef) :
    (printEntriesFrom host i entry).map (·.number) = List.range' (i + 1) entry.length := by
  induction entry generalizing i with
  | nil => rfl
  | cons d rest ih => simp [printEntriesFrom, ih, List.range'_succ]

/-- Each printed line renders its entry: snake-case name, printed type, same label. -/
theorem printEntriesFrom_lines (host : Host) (i : Nat) (entry : List ProtoMsgDef) :
    List.Forall₂ (fun d l => l.name = toSnakeCaseDup d.name .lower ∧ l.type = printedType host d.type ∧
      l.repeated = d.repeated) entry (printEntriesFrom host i entry) := by
  induction entry generalizing i with
  | nil => exact .nil
  | cons d rest ih => exact .cons ⟨rfl, rfl, rfl⟩ (ih (i + 1))

/-- The printed field of member `se` of a parent that is, or is not, a `SEQUENCE OF`. -/
def MemberLine (host : Host) (parentSequenceOf : Bool) (se : Expr) (l : FieldLine) : Prop :=
  l.name = toSnakeCaseDup (protoElemName se.identifier) .lower ∧
    l.type = printedType host (childElem host parentSequenceOf se).1.type ∧
    (l.repeated = true ↔ parentSequenceOf = true ∨ se.IsSequenceOfType)

/-- The printed fields of the members, numbered from 1. -/
theorem printEntries_members (host : Host) (parentSequenceOf : Bool) (members : List Expr) :
    List.Forall₂ (MemberLine host parentSequenceOf)
        (members.filter fun se => !decide (IsSkippedMember se))
        (printEntries host ((processMembers host parentSequenceOf members).1)) ∧
      (printEntries host ((processMembers host parentSequenceOf members).1)).map (·.number) =
        List.range' 1 (members.filter fun se => !decide (IsSkippedMember se)).length := by
  rw [processMembers_fields]
  refine ⟨?_, by simp [printEntries, printEntriesFrom_numbers]⟩
  have lines := printEntriesFrom_lines host 0
    ((members.filter fun se => !decide (IsSkippedMember se)).map fun se => (childElem host parentSequenceOf se).1)
  rw [List.forall₂_map_left_iff] at lines
  exact lines.imp fun se l ⟨name, type, label⟩ =>
    ⟨by simpa using name, type, by rw [label, childElem_repeated]⟩

/-- The fields of a printed message: its body, then every oneof. -/
def MsgBlock.allFields (b : MsgBlock) : List FieldLine :=
  b.fields ++ (b.oneofs.map (·.fields)).flatten

/-- What the printed message of a `SEQUENCE`, `SEQUENCE OF` or `CHOICE` carries: the
members that are neither `UNIVERVAL` nor extension markers, in order, in the body or in a
single oneof named after the `CHOICE`, numbered `1..k` with no number used twice. -/
structure CarriesMembers (host : Host) (expr : Expr) (b : MsgBlock) : Prop where
  placement : if expr.exprType = .choice then
      b.fields = [] ∧ b.oneofs.map (·.name) = [toSnakeCaseDup (expr.identifier.getD "") .lower]
    else b.oneofs = []
  members : List.Forall₂ (MemberLine host (expr.exprType = .sequenceOf)) (fieldMembers expr) b.allFields
  numbers : b.allFields.map (·.number) = List.range' 1 (fieldMembers expr).length
  unique : (b.allFields.map (·.number)).Nodup

/-- A `SEQUENCE`, `SEQUENCE OF` or `CHOICE` type assignment that is not parameterized. -/
structure IsStructured (expr : Expr) : Prop where
  specializations : expr.specializations = []
  named : expr.identifier.isSome
  meta : expr.metaType = .type
  kind : expr.exprType = .sequence ∨ expr.exprType = .sequenceOf ∨ expr.exprType = .choice

end Asn1Proto

namespace Asn1Proto

variable {host : Host} {flags : Flags} {modFile : String}

theorem carriesMembers_sequence {expr : Expr} (kind : expr.exprType = .sequence ∨ expr.exprType = .sequenceOf)
    (msg : ProtoMsg) (entry : msg.entry = (protoProcessChildren host expr (expr.exprType = .sequenceOf)).1)
    (oneof : msg.oneof = []) : CarriesMembers host expr (protoPrintSingleMsg host msg) := by
  have notChoice : expr.exprType ≠ .choice := by rcases kind with k | k <;> simp [k]
  obtain ⟨lines, numbers⟩ := printEntries_members host (expr.exprType = .sequenceOf) expr.members
  have fields : (protoPrintSingleMsg host msg).allFields =
      printEntries host (processMembers host (expr.exprType = .sequenceOf) expr.members).1 := by
    simp [MsgBlock.allFields, protoPrintSingleMsg, entry, oneof, protoProcessChildren]
  refine ⟨by simp [notChoice, protoPrintSingleMsg, oneof], by rw [fields]; exact lines,
    by rw [fields]; exact numbers, ?_⟩
  rw [fields, numbers]
  exact List.nodup_range' 1 _

theorem carriesMembers_choice {expr : Expr} {name : String}
    (named : expr.identifier = some name) (kind : expr.exprType = .choice)
    (msg : ProtoMsg) (entry : msg.entry = []) (oneof : ProtoOneof) (only : msg.oneof = [oneof])
    (oneofName : oneof.name = name) (oneofEntry : oneof.entry = (protoProcessChildren host expr false).1) :
    CarriesMembers host expr (protoPrintSingleMsg host msg) := by
  obtain ⟨lines, numbers⟩ := printEntries_members host false expr.members
  have fields : (protoPrintSingleMsg host msg).allFields =
      printEntries host (processMembers host false expr.members).1 := by
    simp [MsgBlock.allFields, protoPrintSingleMsg, entry, only, protoPrintSingleOneof, oneofEntry,
      protoProcessChildren, printEntries, printEntriesFrom]
  have label : decide (expr.exprType = .sequenceOf) = false := by simp [kind]
  refine ⟨by simp [kind, protoPrintSingleMsg, entry, only, protoPrintSingleOneof, oneofName, named,
      printEntries, printEntriesFrom], by rw [fields, label]; exact lines, by rw [fields]; exact numbers, ?_⟩
  rw [fields, numbers]
  exact List.nodup_range' 1 _

/-- One `SEQUENCE`, `SEQUENCE OF` or `CHOICE` is lowered to exactly one message, which
carries its members. -/
theorem lower_structured_message (host : Host) (flags : Flags) (modFile : String) {expr : Expr}
    (st : Lowered) (structured : IsStructured expr) :
    (asn1printExprProto host flags modFile expr st).1 = 0 ∧
      ∃ msg, (asn1printExprProto host flags modFile expr st).2.message = st.message ++ [msg] ∧
        CarriesMembers host expr (protoPrintSingleMsg host msg) := by
  obtain ⟨name, named⟩ := Option.isSome_iff_exists.mp structured.named
  rw [asn1printExprProto_definition structured.specializations named]
  rcases structured.kind with kind | kind | kind
  · rw [lowerDefinition_sequence structured.meta (.inl kind)]
    exact ⟨rfl, _, rfl, carriesMembers_sequence (.inl kind) _ (by simp [protoCreateMessage])
      (by simp [protoCreateMessage])⟩
  · rw [lowerDefinition_sequence structured.meta (.inr kind)]
    exact ⟨rfl, _, rfl, carriesMembers_sequence (.inr kind) _ (by simp [protoCreateMessage])
      (by simp [protoCreateMessage])⟩
  · rw [lowerDefinition_choice structured.meta kind]
    exact ⟨rfl, _, rfl, carriesMembers_choice named kind _ (by simp [protoCreateMessage])
      { protoCreateMsgOneof name (provenance "choice" modFile expr.lineno) with
        entry := (protoProcessChildren host expr false).1 } (by simp [protoCreateMessage]) rfl rfl⟩

/-- Lowering clones each of which lowers, from any state, with code 0 to one message related
to it by `R`: code 0, and those messages appended in order. -/
theorem lowerSpecializations_messages (R : Expr → ProtoMsg → Prop) (clones : List Expr) (st : Lowered)
    (each : ∀ c ∈ clones, ∀ st, (asn1printExprProto host flags modFile c st).1 = 0 ∧
      ∃ msg, (asn1printExprProto host flags modFile c st).2.message = st.message ++ [msg] ∧ R c msg) :
    (lowerSpecializations host flags modFile clones st).1 = 0 ∧
      ∃ msgs, (lowerSpecializations host flags modFile clones st).2.message = st.message ++ msgs ∧
        List.Forall₂ R clones msgs := by
  induction clones generalizing st with
  | nil => exact ⟨rfl, [], by simp [lowerSpecializations], .nil⟩
  | cons clone rest ih =>
    obtain ⟨ret, msg, appended, related⟩ := each clone (List.mem_cons_self ..) st
    obtain ⟨ret', msgs, appended', all⟩ :=
      ih (asn1printExprProto host flags modFile clone st).2 fun c member => each c (List.mem_cons_of_mem _ member)
    rw [lowerSpecializations_cons, if_neg (by simpa using ret)]
    exact ⟨ret', msg :: msgs, by simp [appended', appended], .cons related all⟩

/-- What `asn1print_expr_proto` lowers for an expression: the expression itself, or the
specialization clones of a parameterized one. -/
def loweredSources (expr : Expr) : List Expr :=
  match expr.specializations with
  | [] => [expr]
  | clones => clones

/-- `asn1print_expr_proto` on an expression whose lowered sources each lower with code 0 to
one message related to them by `R`. -/
theorem asn1printExprProto_messages (R : Expr → ProtoMsg → Prop) (expr : Expr) (st : Lowered)
    (each : ∀ c ∈ loweredSources expr, ∀ st, (asn1printExprProto host flags modFile c st).1 = 0 ∧
      ∃ msg, (asn1printExprProto host flags modFile c st).2.message = st.message ++ [msg] ∧ R c msg) :
    (asn1printExprProto host flags modFile expr st).1 = 0 ∧
      ∃ msgs, (asn1printExprProto host flags modFile expr st).2.message = st.message ++ msgs ∧
        List.Forall₂ R (loweredSources expr) msgs := by
  unfold loweredSources at each ⊢
  split at each
  · obtain ⟨ret, msg, appended, related⟩ := each expr (List.mem_singleton_self _) st
    exact ⟨ret, [msg], appended, .cons related .nil⟩
  · next clones specs =>
    obtain ⟨clone, rest, cons⟩ := List.exists_cons_of_ne_nil specs
    rw [asn1printExprProto_specializations cons, ← cons]
    exact lowerSpecializations_messages R _ st each

end Asn1Proto

namespace Asn1Proto

/-- A `CHOICE` whose alternative is a `SEQUENCE OF` prints that alternative with the
`repeated` label inside its oneof, which proto3 rejects. -/
theorem choice_sequenceOf_alternative_repeated :
    ((asn1printExprProto Host.sample {} "m.asn"
      { identifier := some "Choice", metaType := .type, exprType := .choice, specializations := [],
        members := [
          { identifier := some "items", metaType := .type, exprType := .sequenceOf,
            specializations := [],
            members := [
              { identifier := none, metaType := .typeref, exprType := .reference,
                reference := ["Item"], members := [], specializations := [] }] }] }
      ⟨[], [], []⟩).2.message.map fun msg => (protoPrintSingleMsg Host.sample msg).text {} 0) =
      ["// sequence from m.asn:0\nmessage Choice \x7b\n    // choice from m.asn:0\n" ++
        "    oneof choice \x7b\n        repeated Item items = 1;\n    \x7d\n\x7d;\n\n"] := by
  decide

end Asn1Proto
