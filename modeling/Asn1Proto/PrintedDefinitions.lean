import Asn1Proto.TypeReferences
import Asn1Proto.LoweredFile

namespace Asn1Proto

/-- The file a reader takes back from one printed enum or message block and nothing else. -/
def ProtoFile.ofDecl (d : TopDecl) : ProtoFile :=
  ⟨[], "", [], [d]⟩

section Blocks

variable (flags : Flags) (level : Nat)

theorem readProto_enumBlock {b : EnumBlock} (readable : b.Readable) :
    readProto (b.text flags level) = some (ProtoFile.ofDecl (.enum b.decl)) :=
  readProto_of_reads (reads_enum flags level ⟨[], "", [], []⟩ readable) rfl rfl

theorem readProto_msgBlock {b : MsgBlock} (readable : b.Readable) :
    readProto (b.text flags level) = some (ProtoFile.ofDecl (.message b.decl)) :=
  readProto_of_reads (reads_message flags level ⟨[], "", [], []⟩ readable) rfl rfl

end Blocks

/-- An `ENUMERATED` type whose items carry pairwise-distinct values in `0 .. 2^31 - 1`
becomes one enum that prints `_UNDEFINED = 0` first exactly when no item is 0, then every
item in declaration order with its own value: one constant is 0 and no value repeats. When
the type and its items are named by identifiers, the printed text reads back as exactly that
enum, under its provenance comment and PascalCase name. -/
theorem enumerated_constants (host : Host) (flags : Flags) (level : Nat) (modFile : String) (expr : Expr)
    (name : String) (st : Lowered) (specs : expr.specializations = [])
    (named : expr.identifier = some name) (kind : expr.exprType = .enumerated)
    (indexed : ∀ se ∈ enumItems expr, HasIndexValue se)
    (distinct : ((enumItems expr).map (vInteger ·.value)).Nodup) :
    ∃ e, asn1printExprProto host flags modFile expr st = (0, st.addEnum e) ∧
      (protoPrintSingleEnum e).lines =
        (if 0 ∈ (enumItems expr).map (vInteger ·.value) then []
         else [⟨toSnakeCaseDup name .upper ++ "_UNDEFINED", 0, true⟩]) ++
        (enumItems expr).map (itemLine (toSnakeCaseDup name .upper)) ∧
      ((protoPrintSingleEnum e).lines.map (·.value)).count 0 = 1 ∧
      ((protoPrintSingleEnum e).lines.map (·.value)).Nodup ∧
      (isAsn1Identifier name = true → (∀ se ∈ enumItems expr, isAsn1Identifier (se.identifier.getD "") = true) →
        readProto ((protoPrintSingleEnum e).text flags level) =
          some (ProtoFile.ofDecl (.enum ⟨commentLines (provenance "enumerated" modFile expr.lineno),
            toPascalCaseDup name, (protoPrintSingleEnum e).lines⟩))) := by
  rw [asn1printExprProto_definition specs named, lowerDefinition_enumerated kind]
  refine ⟨_, rfl, printed_enum_lines _ rfl indexed, ?_⟩
  rw [printed_enum_values _ rfl indexed]
  obtain ⟨zero, apart⟩ := printed_values_apart distinct
  refine ⟨zero, apart, fun ident itemIdents => readProto_enumBlock flags level
    (protoPrintSingleEnum_readable ⟨ident, fun d member => ?_⟩)⟩
  obtain ⟨se, item, rfl⟩ := List.mem_map.1 member
  exact itemIdents se item

/-- Spec scenario 1, `Color ::= ENUMERATED { red(1), green(2), blue(3) }`. -/
def colorEnumerated : Expr :=
  { identifier := some "Color", metaType := .type, exprType := .enumerated, specializations := [],
    members := [
      { identifier := some "red", metaType := .value, exprType := .univerval,
        value := some (.integer 1), members := [], specializations := [] },
      { identifier := some "green", metaType := .value, exprType := .univerval,
        value := some (.integer 2), members := [], specializations := [] },
      { identifier := some "blue", metaType := .value, exprType := .univerval,
        value := some (.integer 3), members := [], specializations := [] }] }

theorem color_enumerated_constants :
    ∃ e, asn1printExprProto Host.sample {} "colors.asn" colorEnumerated ⟨[], [], []⟩ =
        (0, (⟨[], [], []⟩ : Lowered).addEnum e) ∧
      (protoPrintSingleEnum e).lines = [⟨"COLOR_UNDEFINED", 0, true⟩, ⟨"COLOR_RED", 1, false⟩,
        ⟨"COLOR_GREEN", 2, false⟩, ⟨"COLOR_BLUE", 3, false⟩] ∧
      ((protoPrintSingleEnum e).lines.map (·.value)).count 0 = 1 ∧
      ((protoPrintSingleEnum e).lines.map (·.value)).Nodup ∧
      readProto ((protoPrintSingleEnum e).text {} 0) =
        some (ProtoFile.ofDecl (.enum ⟨["enumerated from colors.asn:0"], "Color",
          [⟨"COLOR_UNDEFINED", 0, true⟩, ⟨"COLOR_RED", 1, false⟩, ⟨"COLOR_GREEN", 2, false⟩,
            ⟨"COLOR_BLUE", 3, false⟩]⟩)) := by
  have indexed : ∀ se ∈ enumItems colorEnumerated, HasIndexValue se := by
    simp only [colorEnumerated, enumItems, List.filter, decide_True, List.mem_cons, List.not_mem_nil, or_false]
    rintro se (rfl | rfl | rfl) <;> exact ⟨_, rfl, by decide, by decide⟩
  obtain ⟨e, lowered, lines, zero, distinct, reads⟩ :=
    enumerated_constants Host.sample {} 0 "colors.asn" colorEnumerated "Color" ⟨[], [], []⟩ rfl rfl rfl
      indexed (by decide)
  have printedLines : (protoPrintSingleEnum e).lines = [⟨"COLOR_UNDEFINED", 0, true⟩, ⟨"COLOR_RED", 1, false⟩,
      ⟨"COLOR_GREEN", 2, false⟩, ⟨"COLOR_BLUE", 3, false⟩] := by
    rw [lines]; decide
  refine ⟨e, lowered, printedLines, zero, distinct, ?_⟩
  rw [reads (by decide) (by decide), printedLines]
  rfl

/-- Items `a(-1), b(0)`: the counter gives `a` the value 0 that `b` has. Items
`red(1), green(0)`: the first constant printed is 1. -/
theorem enumerated_constants_collide :
    ((asn1printExprProto Host.sample {} "m.asn"
      { identifier := some "E", metaType := .type, exprType := .enumerated, specializations := [],
        members := [
          { identifier := some "a", metaType := .value, exprType := .univerval,
            value := some (.integer (-1)), members := [], specializations := [] },
          { identifier := some "b", metaType := .value, exprType := .univerval,
            value := some (.integer 0), members := [], specializations := [] }] } ⟨[], [], []⟩).2.protoenum.map
        fun e => (protoPrintSingleEnum e).lines.map (·.value)) = [[0, 0]] ∧
    ((asn1printExprProto Host.sample {} "m.asn"
      { identifier := some "Color", metaType := .type, exprType := .enumerated, specializations := [],
        members := [
          { identifier := some "red", metaType := .value, exprType := .univerval,
            value := some (.integer 1), members := [], specializations := [] },
          { identifier := some "green", metaType := .value, exprType := .univerval,
            value := some (.integer 0), members := [], specializations := [] }] } ⟨[], [], []⟩).2.protoenum.map
        fun e => (protoPrintSingleEnum e).lines.map (·.value)) = [[1, 0]] := by
  decide

section Structured

variable {host : Host} {flags : Flags} {modFile : String}

theorem addMsg_appended {st st' : Lowered} {added msg : ProtoMsg} (kept : st'.message = st.message)
    (appended : (st'.addMsg added).message = st.message ++ [msg]) : added = msg := by
  rw [Lowered.addMsg_message, kept] at appended
  exact List.singleton_inj.1 (List.append_cancel_left appended)

/-- The message one printable `SEQUENCE`, `SEQUENCE OF` or `CHOICE` is lowered to is printable. -/
theorem lower_structured_printable {expr : Expr} (printable : PrintableDefinition host expr)
    (structured : IsStructured expr) {st : Lowered} {msg : ProtoMsg}
    (appended : (asn1printExprProto host flags modFile expr st).2.message = st.message ++ [msg]) :
    msg.Printable := by
  obtain ⟨name, named⟩ := Option.isSome_iff_exists.mp structured.named
  have ident : isAsn1Identifier name = true := by simpa only [named, Option.getD_some] using printable.identifier
  have message := (protoCreateMessage_printable ident expr.specIndex expr.typeUniqueIndex
    (provenance "sequence" modFile expr.lineno)).withParams expr
  have children := protoProcessChildren_printable host printable.members
  rw [asn1printExprProto_definition structured.specializations named] at appended
  rcases structured.kind with kind | kind | kind
  · rw [lowerDefinition_sequence structured.meta (.inl kind)] at appended
    exact addMsg_appended rfl appended ▸ message.appendEntries (children _)
  · rw [lowerDefinition_sequence structured.meta (.inr kind)] at appended
    exact addMsg_appended rfl appended ▸ message.appendEntries (children _)
  · rw [lowerDefinition_choice structured.meta kind] at appended
    exact addMsg_appended rfl appended ▸ message.addOneof ⟨ident, children false⟩

end Structured

/-- Every `SEQUENCE`, `SEQUENCE OF` or `CHOICE` type assignment, or every specialization clone
of a parameterized one, is lowered with code 0 to one message per clone, in order; each
carries the clone's members as `CarriesMembers` states, and when the clone is printable its
printed text reads back as exactly that message. -/
theorem structured_messages_carry_members (host : Host) (flags : Flags) (level : Nat) (modFile : String)
    (expr : Expr) (st : Lowered) (structured : ∀ c ∈ loweredSources expr, IsStructured c) :
    (asn1printExprProto host flags modFile expr st).1 = 0 ∧
      ∃ msgs, (asn1printExprProto host flags modFile expr st).2.message = st.message ++ msgs ∧
        List.Forall₂ (fun c msg => CarriesMembers host c (protoPrintSingleMsg host msg) ∧
            (PrintableDefinition host c → readProto ((protoPrintSingleMsg host msg).text flags level) =
              some (ProtoFile.ofDecl (.message (protoPrintSingleMsg host msg).decl))))
          (loweredSources expr) msgs :=
  asn1printExprProto_messages _ expr st fun c source st' =>
    let ⟨ret, msg, appended, carries⟩ := lower_structured_message host flags modFile st' (structured c source)
    ⟨ret, msg, appended, carries, fun printable => readProto_msgBlock flags level
      (protoPrintSingleMsg_readable host (lower_structured_printable printable (structured c source) appended))⟩

/-- Spec scenario 4, `Shape ::= CHOICE { circle Circle, square Square }`. -/
def shapeChoice : Expr :=
  { identifier := some "Shape", metaType := .type, exprType := .choice, specializations := [],
    members := [
      { identifier := some "circle", metaType := .typeref, exprType := .reference,
        reference := ["Circle"], members := [], specializations := [] },
      { identifier := some "square", metaType := .typeref, exprType := .reference,
        reference := ["Square"], members := [], specializations := [] }] }

theorem shape_choice_carries_members :
    (∀ c ∈ loweredSources shapeChoice, IsStructured c) ∧
      (asn1printExprProto Host.sample {} "shapes.asn" shapeChoice ⟨[], [], []⟩).1 = 0 ∧
      ∃ msgs, (asn1printExprProto Host.sample {} "shapes.asn" shapeChoice ⟨[], [], []⟩).2.message = [] ++ msgs ∧
        List.Forall₂ (fun c msg => CarriesMembers Host.sample c (protoPrintSingleMsg Host.sample msg) ∧
            (PrintableDefinition Host.sample c → readProto ((protoPrintSingleMsg Host.sample msg).text {} 0) =
              some (ProtoFile.ofDecl (.message (protoPrintSingleMsg Host.sample msg).decl))))
          (loweredSources shapeChoice) msgs := by
  have structured : ∀ c ∈ loweredSources shapeChoice, IsStructured c := by
    simp only [shapeChoice, loweredSources, List.mem_singleton, forall_eq]
    exact ⟨rfl, rfl, rfl, .inr (.inr rfl)⟩
  exact ⟨structured, structured_messages_carry_members Host.sample {} 0 "shapes.asn" shapeChoice _ structured⟩

end Asn1Proto
