import Asn1Proto.PrintedModule
import Asn1Proto.StreamWrites
import Asn1Proto.EnumNumbering
import Asn1Proto.FieldNumbering

namespace Asn1Proto

section Texts

variable {c : Char}

theorem char_not_mem_append {s t : String} (left : c ∉ s.toList) (right : c ∉ t.toList) :
    c ∉ (s ++ t).toList := by
  rw [toList_append]
  exact List.not_mem_append left right

theorem char_not_mem_intercalateGo {sep : String} (noSep : c ∉ sep.toList) :
    (parts : List String) → (∀ p ∈ parts, c ∉ p.toList) → {acc : String} → c ∉ acc.toList →
      c ∉ (String.intercalate.go acc sep parts).toList
  | [], _, _, noAcc => noAcc
  | p :: parts, noParts, _, noAcc =>
    char_not_mem_intercalateGo noSep parts (fun q member => noParts q (List.mem_cons_of_mem _ member))
      (char_not_mem_append (char_not_mem_append noAcc noSep) (noParts p (List.mem_cons_self _ _)))

/-- `String.intercalate` writes only its separator and its parts. -/
theorem char_not_mem_intercalate {sep : String} (noSep : c ∉ sep.toList) :
    (parts : List String) → (∀ p ∈ parts, c ∉ p.toList) → c ∉ (sep.intercalate parts).toList
  | [], _ => List.not_mem_nil _
  | p :: parts, noParts =>
    char_not_mem_intercalateGo noSep parts (fun q member => noParts q (List.mem_cons_of_mem _ member))
      (noParts p (List.mem_cons_self _ _))

theorem getD_mem_or_eq {α : Type} (l : List α) (k : Nat) (d : α) : l.getD k d ∈ l ∨ l.getD k d = d := by
  rw [List.getD_eq_getElem?_getD]
  cases found : l[k]? with
  | none => exact .inr rfl
  | some a => exact .inl (List.getElem?_mem found)

end Texts

/-- A value whose rendering stays on one line: no newline in the texts it carries. -/
def Value.oneLine : Value → Bool
  | .real fixed => decide ('\n' ∉ fixed.toList)
  | .string buf | .unparsed buf => decide ('\n' ∉ buf)
  | .referenced components => components.all fun comp => decide ('\n' ∉ comp.toList)
  | .choiceIdentifier identifier value => decide ('\n' ∉ identifier.toList) && value.oneLine
  | _ => Bool.true

theorem mem_maskQuotes {c : Char} : {buf : List Char} → c ∈ maskQuotes buf → c ∈ buf
  | [], member => member
  | d :: rest, member => by
    rw [maskQuotes, List.mem_append] at member
    rcases member with here | later
    · have same : c = d := by split at here <;> simp_all
      exact same ▸ List.mem_cons_self _ _
    · exact List.mem_cons_of_mem _ (mem_maskQuotes later)

theorem mem_stringBody {c : Char} {buf : List Char} (member : c ∈ stringBody buf) : c ∈ buf := by
  unfold stringBody at member
  split at member
  · exact mem_maskQuotes member
  · exact List.mem_of_mem_take member

theorem newline_not_mem_bitvectorBody (bits : List UInt8) (n : Nat) :
    '\n' ∉ (bitvectorBody bits n).toList := by
  unfold bitvectorBody
  split
  · refine char_not_mem_append (fun member => ?_) (by decide)
    obtain ⟨i, -, same⟩ := List.mem_map.1 member
    unfold bitChar at same
    split at same <;> exact absurd same (by decide)
  · refine char_not_mem_append (fun member => ?_) (by decide)
    obtain ⟨chars, listed, member⟩ := List.mem_flatten.1 member
    obtain ⟨i, -, rfl⟩ := List.mem_map.1 listed
    have hex (k : Nat) : hextable.getD k '0' ≠ '\n' := by
      rcases getD_mem_or_eq hextable k '0' with listed | same
      · exact fun same => absurd (same ▸ listed) (by decide)
      · rw [same]
        decide
    simp only [hexChars, List.mem_cons, List.mem_singleton, List.not_mem_nil, or_false] at member
    rcases member with same | same <;> exact hex _ same.symm

/-- `proto_value_print` writes a value on one line when the texts the value carries have no
newline. -/
theorem newline_not_mem_printValueCase (flags : Flags) :
    (v : Value) → v.oneLine = true → '\n' ∉ (printValueCase flags v).toList
  | .novalue, _ | .null, _ | .type _, _ | .min, _ | .false, _ | .true, _ | .valueset, _ => by
    simp [printValueCase]
  | .real _, oneLine => of_decide_eq_true oneLine
  | .integer v, _ => newline_not_mem_toString_int v
  | .max, _ => by
    show '\n' ∉ (if flags.int32Value then toString (2147483647 : Int) else "").toList
    split
    · exact newline_not_mem_toString_int _
    · exact List.not_mem_nil _
  | .tuple v, _ => by
    simpa [printValueCase, toList_append] using
      ⟨newline_not_mem_toString_int (toCInt (v / 16)), newline_not_mem_toString_int (toCInt (v % 16))⟩
  | .quadruple v, _ => by
    simpa [printValueCase, toList_append] using
      ⟨newline_not_mem_toString_int (v / 16777216 % 256), newline_not_mem_toString_int (v / 65536 % 256),
        newline_not_mem_toString_int (v / 256 % 256), newline_not_mem_toString_int (v % 256)⟩
  | .string buf, oneLine =>
    char_not_mem_append (char_not_mem_append (by decide)
      fun member => of_decide_eq_true oneLine (mem_stringBody member)) (by decide)
  | .unparsed _, oneLine => of_decide_eq_true oneLine
  | .bitvector bits n, _ => char_not_mem_append (by decide) (newline_not_mem_bitvectorBody bits n)
  | .referenced components, oneLine =>
    char_not_mem_intercalate (by decide) components fun comp member => of_decide_eq_true (List.all_eq_true.1 oneLine comp member)
  | .choiceIdentifier identifier value, oneLine => by
    obtain ⟨noNewline, rest⟩ := Bool.and_eq_true_iff.1 oneLine
    exact char_not_mem_append (of_decide_eq_true noNewline) (newline_not_mem_printValueCase flags value rest)

theorem newline_not_mem_protoValuePrint (flags : Flags) :
    {v : Option Value} → v.all Value.oneLine = true → '\n' ∉ (protoValuePrint flags v).toList
  | none, _ => List.not_mem_nil _
  | some v, oneLine => newline_not_mem_printValueCase flags v oneLine

/-- The values a constraint node renders carry no newline. -/
def Constraint.valuesOneLine (c : Constraint) : Bool :=
  c.value.all Value.oneLine && c.rangeStart.all Value.oneLine && c.rangeStop.all Value.oneLine &&
    c.containedSubtype.all Value.oneLine

section Rendering

variable {children : List (String × List String)} (noNewline : ∀ t ∈ children, '\n' ∉ t.1.toList)
include noNewline

theorem newline_not_mem_firstElement : '\n' ∉ (firstElement children).1.toList := by
  cases children with
  | nil => exact List.not_mem_nil _
  | cons first _ => exact noNewline first (List.mem_cons_self _ _)

theorem newline_not_mem_subconstraint : '\n' ∉ (subconstraint children).1.toList := by
  cases children with
  | nil => exact List.not_mem_nil _
  | cons first _ => exact char_not_mem_append (by decide) (noNewline first (List.mem_cons_self _ _))

theorem newline_not_mem_fsts : ∀ p ∈ children.map Prod.fst, '\n' ∉ p.toList := fun p member => by
  obtain ⟨t, listed, rfl⟩ := List.mem_map.1 member
  exact noNewline t listed

end Rendering

theorem newline_not_mem_symtable (k : Nat) : '\n' ∉ (symtable.getD k "").toList := by
  rcases getD_mem_or_eq symtable k "" with listed | same
  · exact (by decide : ∀ s ∈ symtable, '\n' ∉ s.toList) _ listed
  · rw [same]
    exact List.not_mem_nil _

theorem newline_not_mem_caLoop (type : ConstraintType) (n : Nat) :
    (i : Nat) → (adds : List String) → (∀ add ∈ adds, '\n' ∉ add.toList) →
      '\n' ∉ (caLoop type n i adds).toList
  | _, [], _ => List.not_mem_nil _
  | i, add :: rest, noNewline => by
    have here := noNewline add (List.mem_cons_self _ _)
    have later := newline_not_mem_caLoop type n (i + 1) rest fun a member =>
      noNewline a (List.mem_cons_of_mem _ member)
    rw [caLoop]
    refine char_not_mem_append (char_not_mem_append (char_not_mem_append ?_ ?_) ?_) later
    · split
      · exact newline_not_mem_symtable _
      · exact List.not_mem_nil _
    · split
      · exact char_not_mem_append (char_not_mem_append (by decide) here) (by decide)
      · exact here
    · split
      · decide
      · exact List.not_mem_nil _

theorem newline_not_mem_rangePrint (flags : Flags) (type : ConstraintType) {rangeStart rangeStop : Option Value}
    (start : rangeStart.all Value.oneLine = true) (stop : rangeStop.all Value.oneLine = true) :
    '\n' ∉ (rangePrint flags type rangeStart rangeStop).toList := by
  have startKey : '\n' ∉ (rangeStartKey flags type).toList := by
    unfold rangeStartKey
    split <;> split <;> decide
  have stopKey : '\n' ∉ (rangeStopKey flags type).toList := by
    unfold rangeStopKey
    split <;> split <;> decide
  refine char_not_mem_append (char_not_mem_append startKey (newline_not_mem_protoValuePrint flags start)) ?_
  split
  · exact List.not_mem_nil _
  · exact char_not_mem_append (char_not_mem_append (by decide) stopKey) (newline_not_mem_protoValuePrint flags stop)

mutual
/-- `proto_constraint_print` renders a constraint tree on one line when the values of its
nodes carry no newline. -/
theorem newline_not_mem_protoConstraintPrint (host : Host) (flags : Flags) :
    (c : Constraint) → (∀ n ∈ c.nodes, n.valuesOneLine = true) →
      '\n' ∉ (protoConstraintPrint host flags c).1.toList
  | ⟨type, value, rangeStart, rangeStop, containedSubtype, elements⟩, oneLine => by
    simp only [Constraint.nodes, List.mem_cons, forall_eq_or_imp] at oneLine
    obtain ⟨own, inner⟩ := oneLine
    simp only [Constraint.valuesOneLine, Bool.and_eq_true] at own
    obtain ⟨⟨⟨value, rangeStart⟩, rangeStop⟩, containedSubtype⟩ := own
    have children := newline_not_mem_printElements host flags elements inner
    have first := newline_not_mem_firstElement children
    have sub := newline_not_mem_subconstraint children
    have fsts := newline_not_mem_fsts children
    have valueText := newline_not_mem_protoValuePrint flags value
    cases type <;> simp only [protoConstraintPrint]
    case elType => exact char_not_mem_append (newline_not_mem_protoValuePrint flags containedSubtype) sub
    case elValue =>
      split
      · exact char_not_mem_append (char_not_mem_append (char_not_mem_append (by decide) valueText) (by decide))
          valueText
      · exact char_not_mem_append valueText sub
    case ctFrom => exact char_not_mem_append (by decide) first
    case ctWComp => exact char_not_mem_append (by decide) sub
    case caAex => exact char_not_mem_append (by decide) sub
    case ctWComps =>
      exact char_not_mem_append (char_not_mem_append (by decide) (char_not_mem_intercalate (by decide) _ fsts))
        (by decide)
    case elRange | elLLRange | elRLRange | elULRange => exact newline_not_mem_rangePrint flags _ rangeStart rangeStop
    case caSet | caCrc | caCsv | caUni | caInt | caExc => exact newline_not_mem_caLoop _ _ 0 _ fsts
    case ctSize => exact first
    case elExt | ctCtdBy | ctCtng | ctPattern | invalid => decide

theorem newline_not_mem_printElements (host : Host) (flags : Flags) :
    (cs : List Constraint) → (∀ n ∈ Constraint.nodesOf cs, n.valuesOneLine = true) →
      ∀ t ∈ printElements host flags cs, '\n' ∉ t.1.toList
  | [], _ => fun _ none => absurd none (List.not_mem_nil _)
  | c :: cs, oneLine => by
    simp only [Constraint.nodesOf, List.mem_append] at oneLine
    rw [printElements]
    exact List.forall_mem_cons.2 ⟨newline_not_mem_protoConstraintPrint host flags c fun n member =>
      oneLine n (.inl member), newline_not_mem_printElements host flags cs fun n member => oneLine n (.inr member)⟩
end

section Identifiers

theorem identTail_append : {a : List Char} → identTail a = true → {b : List Char} → identTail b = true →
    identTail (a ++ b) = true
  | [], _, _, right => right
  | [_], left, [], _ => left
  | [c], left, d :: rest, right => by
    simp only [identTail] at left
    simp only [List.singleton_append, identTail, left, Bool.true_or, Bool.true_and]
    exact right
  | c :: d :: rest, left, _, right => by
    simp only [identTail, Bool.and_eq_true] at left
    simp only [List.cons_append, identTail, Bool.and_eq_true]
    exact ⟨left.1, identTail_append left.2 right⟩

theorem identTail_of_alnum : {l : List Char} → (∀ c ∈ l, c.isAlphanum = true) → identTail l = true
  | [], _ => rfl
  | [c], alnum => alnum c (List.mem_singleton_self _)
  | c :: d :: rest, alnum => by
    simp only [identTail, alnum c (List.mem_cons_self _ _), Bool.true_or, Bool.true_and]
    exact identTail_of_alnum fun e member => alnum e (List.mem_cons_of_mem _ member)

theorem identTail_hyphen {c : Char} {rest : List Char} (alnum : c.isAlphanum = true) (tail : identTail rest = true) :
    identTail ('-' :: c :: rest) = true := by
  have first : identTail (c :: rest) = true := identTail_append (a := [c]) alnum tail
  simp [identTail, alnum, first]

theorem identTail_hyphen_of_alnum {l : List Char} (nonempty : l ≠ []) (alnum : ∀ c ∈ l, c.isAlphanum = true) :
    identTail ('-' :: l) = true := by
  obtain ⟨c, rest, rfl⟩ := List.exists_cons_of_ne_nil nonempty
  exact identTail_hyphen (alnum c (List.mem_cons_self _ _))
    (identTail_of_alnum fun d member => alnum d (List.mem_cons_of_mem _ member))

theorem isAsn1Identifier_cons {c : Char} {rest : List Char} (alpha : c.isAlpha = true) (tail : identTail rest = true) :
    isAsn1Identifier ⟨c :: rest⟩ = true := by
  unfold isAsn1Identifier
  split
  · next same =>
    obtain ⟨rfl, -⟩ := List.cons_eq_cons.1 same
    exact absurd alpha (by decide)
  · next same =>
    obtain ⟨rfl, rfl⟩ := List.cons_eq_cons.1 same
    simp only [alpha, tail, Bool.and_self]
  · next same => cases same

/-- An identifier followed by letters, digits and single hyphens is an identifier. -/
theorem isAsn1Identifier_append {s : String} (ident : isAsn1Identifier s = true) {t : String}
    (tail : identTail t.toList = true) : isAsn1Identifier (s ++ t) = true := by
  obtain ⟨c, rest, alpha, restTail, form⟩ := isAsn1Identifier_cases ident
  obtain ⟨chars⟩ := s
  change chars = _ ∨ chars = _ at form
  rcases form with rfl | rfl
  · exact isAsn1Identifier_cons alpha (identTail_append restTail tail)
  · show (c.isAlpha && identTail (rest ++ t.toList)) = true
    simp only [alpha, identTail_append restTail tail, Bool.and_self]

/-- `%03d` writes digits, after a `-` for a negative number: an identifier tail. -/
theorem identTail_fmt03d (n : Int) : identTail (fmt03d n).toList = true := by
  obtain ⟨d, digits, same, digit, -⟩ := toDigits_cons n.natAbs
  have alnum : ∀ k, ∀ c ∈ List.replicate k '0' ++ (toString n.natAbs).toList, c.isAlphanum = true := by
    intro k c member
    rcases List.mem_append.1 member with zero | listed
    · rw [List.eq_of_mem_replicate zero]
      rfl
    · have digit := toDigits_isDigit n.natAbs c listed
      simp only [Char.isAlphanum, digit, Bool.or_true]
  have nonempty : (toString n.natAbs).toList ≠ [] := by
    rw [show (toString n.natAbs).toList = Nat.toDigits 10 n.natAbs from rfl, same]
    exact List.cons_ne_nil _ _
  unfold fmt03d
  dsimp only
  split
  · show identTail ('-' :: (List.replicate _ '0' ++ (toString n.natAbs).toList)) = true
    exact identTail_hyphen_of_alnum (List.append_ne_nil_of_right_ne_nil _ nonempty) (alnum _)
  · exact identTail_of_alnum (alnum _)

/-- A class field joined by `-` to the identifier of the value it holds is an identifier. -/
theorem isAsn1Identifier_hyphen {a b : String} (left : isAsn1Identifier a = true) (right : isAsn1Identifier b = true)
    (plain : b.toList.head? ≠ some '&') : isAsn1Identifier (a ++ "-" ++ b) = true := by
  obtain ⟨c, rest, alpha, tail, form⟩ := isAsn1Identifier_cases right
  rcases form with same | same
  · rw [String.append_assoc]
    refine isAsn1Identifier_append left ?_
    show identTail ('-' :: b.toList) = true
    rw [same]
    exact identTail_hyphen (by simp only [Char.isAlphanum, alpha, Bool.true_or]) tail
  · rw [same] at plain
    exact absurd rfl plain

end Identifiers

theorem mem_escapeQuotesDup {c : Char} : {buf : List Char} → c ∈ escapeQuotesDup buf → c = '\\' ∨ c ∈ buf
  | [], member => absurd member (List.not_mem_nil _)
  | d :: rest, member => by
    rw [escapeQuotesDup, List.mem_append] at member
    rcases member with here | later
    · split at here
      · rcases List.mem_cons.1 here with slash | quote
        · exact .inl slash
        · exact .inr (List.mem_singleton.1 quote ▸ List.mem_cons_self _ _)
      · exact .inr (List.mem_singleton.1 here ▸ List.mem_cons_self _ _)
    · exact (mem_escapeQuotesDup later).imp_right (List.mem_cons_of_mem _)

/-- The `string.const` rule stays on one line when the string has no newline, truncated or not. -/
theorem newline_not_mem_stringConst {buf : List Char} (noNewline : '\n' ∉ buf) :
    '\n' ∉ (snprintf100 ("string.const = \"" ++ ⟨escapeQuotesDup buf⟩ ++ "\"")).toList := fun member =>
  char_not_mem_append (char_not_mem_append (by decide) fun escaped =>
      (mem_escapeQuotesDup escaped).elim (by decide) noNewline) (by decide) (List.mem_of_mem_take member)

section Printable

theorem protoCreateMsgElem_printable {name type rules : String} (nameIdent : isAsn1Identifier name = true)
    (typeIdent : isAsn1Identifier type = true) (rulesLine : '\n' ∉ rules.toList) :
    (protoCreateMsgElem name type rules).Printable :=
  ⟨typeIdent, nameIdent, rulesLine, List.not_mem_nil _, List.not_mem_nil _⟩

theorem protoCreateMessage_printable {name : String} (ident : isAsn1Identifier name = true)
    (specIndex typeUniqueIndex : Int) (comments : String) :
    (protoCreateMessage name specIndex typeUniqueIndex comments).Printable :=
  ⟨ident, fun _ none => absurd none (List.not_mem_nil _), fun _ none => absurd none (List.not_mem_nil _)⟩

variable {msg : ProtoMsg}

theorem ProtoMsg.Printable.addElem (printable : msg.Printable) {elem : ProtoMsgDef} (added : elem.Printable) :
    (protoMsgAddElem msg elem).Printable :=
  ⟨printable.name, fun d member => (List.mem_append.1 member).elim (printable.entry d)
    fun here => List.mem_singleton.1 here ▸ added, printable.oneof⟩

theorem ProtoMsg.Printable.addOneof (printable : msg.Printable) {o : ProtoOneof} (added : o.Printable) :
    (protoMsgAddOneof msg o).Printable :=
  ⟨printable.name, printable.entry, fun p member => (List.mem_append.1 member).elim (printable.oneof p)
    fun here => List.mem_singleton.1 here ▸ added⟩

theorem ProtoMsg.Printable.withParams (printable : msg.Printable) (expr : Expr) :
    (withParams msg expr).Printable :=
  ⟨by rw [withParams_name]; exact printable.name, by rw [withParams_entry]; exact printable.entry,
    by rw [withParams_oneof]; exact printable.oneof⟩

theorem ProtoMsg.Printable.appendEntries (printable : msg.Printable) {fields : List ProtoMsgDef}
    (added : ∀ f ∈ fields, f.Printable) : ({ msg with entry := msg.entry ++ fields } : ProtoMsg).Printable :=
  ⟨printable.name, fun f member => (List.mem_append.1 member).elim (printable.entry f) (added f), printable.oneof⟩

end Printable

/-- Every message and enum lowered so far prints as lines that read back. -/
structure Lowered.Printable (st : Lowered) : Prop where
  message : ∀ msg ∈ st.message, msg.Printable
  protoenum : ∀ e ∈ st.protoenum, e.Printable

namespace Lowered.Printable

variable {st : Lowered} (before : st.Printable)
include before

theorem write (text : List String) : (st.write text).Printable :=
  ⟨before.message, before.protoenum⟩

theorem addMsg {msg : ProtoMsg} (added : msg.Printable) : (st.addMsg msg).Printable :=
  ⟨fun m member => (List.mem_append.1 member).elim (before.message m) fun here => List.mem_singleton.1 here ▸ added,
    before.protoenum⟩

theorem addEnum {e : ProtoEnum} (added : e.Printable) : (st.addEnum e).Printable :=
  ⟨before.message, fun f member => (List.mem_append.1 member).elim (before.protoenum f)
    fun here => List.mem_singleton.1 here ▸ added⟩

end Lowered.Printable

/-- What lowering needs of a member for its field to print as a line that reads back: an
identifier as its name and as the components of its type reference and of its element's,
and constraint values with no newline. -/
@[mk_iff] structure PrintableMember (se : Expr) : Prop where
  name : isAsn1Identifier (protoElemName se.identifier) = true
  reference : ∀ comp ∈ se.reference, isAsn1Identifier comp = true
  element : ∀ se2 ∈ se.members.head?, ∀ comp ∈ se2.reference, isAsn1Identifier comp = true
  constraints : ∀ ct ∈ se.constraints, ∀ n ∈ ct.nodes, n.valuesOneLine = true

instance PrintableMember.decidable (se : Expr) : Decidable (PrintableMember se) :=
  decidable_of_iff _ (printableMember_iff se).symm

/-- What lowering needs of a cell of an information object set for its field to print as a
line that reads back: identifiers as the class field and as the value it holds, the value's
without a leading `&`. -/
@[mk_iff] structure PrintableCell (cell : IocCell) : Prop where
  field : isAsn1Identifier cell.field = true
  value : isAsn1Identifier cell.value.identifier = true
  plain : cell.value.identifier.toList.head? ≠ some '&'

instance PrintableCell.decidable (cell : IocCell) : Decidable (PrintableCell cell) :=
  decidable_of_iff _ (printableCell_iff cell).symm

/-- What lowering needs of a definition for the messages and enums it builds to print as
lines that read back: identifiers as every name it gives (its own, its items', its members',
the type a reference resolves to, its table's columns), a reference path and a value without
a newline or `]`, and constraint values without a newline. -/
@[mk_iff] structure PrintableDefinition (host : Host) (d : Expr) : Prop where
  identifier : isAsn1Identifier (d.identifier.getD "") = true
  items : ∀ se ∈ enumItems d, isAsn1Identifier (se.identifier.getD "") = true
  members : ∀ se ∈ fieldMembers d, PrintableMember se
  reference : ∀ comp ∈ d.reference, '\n' ∉ comp.toList ∧ ']' ∉ comp.toList
  value : ∀ v ∈ d.value, v.oneLine = true
  constraints : ∀ ct ∈ d.constraints, ∀ n ∈ ct.nodes, n.valuesOneLine = true
  terminal : d.reference ≠ [] → isAsn1Identifier ((host.findTerminalType d).identifier.getD "") = true
  table : ∀ row ∈ d.iocTable.getD [], ∀ cell ∈ row, 0 < cell.newRef → PrintableCell cell

instance PrintableDefinition.decidable (host : Host) (d : Expr) : Decidable (PrintableDefinition host d) :=
  decidable_of_iff _ (printableDefinition_iff host d).symm

theorem sequenceOfType_ident {members : List Expr}
    (element : ∀ se2 ∈ members.head?, ∀ comp ∈ se2.reference, isAsn1Identifier comp = true) :
    isAsn1Identifier (sequenceOfType members) = true := by
  unfold sequenceOfType
  split
  · next se2 _ =>
    split
    · split
      · next comp same => exact element se2 rfl comp (by rw [same]; exact List.mem_singleton_self _)
      · decide
    · decide
  · decide

theorem referenceType_ident {reference : List String} (idents : ∀ comp ∈ reference, isAsn1Identifier comp = true) :
    isAsn1Identifier (referenceType reference) = true := by
  unfold referenceType
  split
  · exact idents _ (List.mem_singleton_self _)
  · exact idents _ (List.mem_cons_of_mem _ (List.mem_singleton_self _))
  · decide

theorem childElem_printable (host : Host) (repeated : Bool) {se : Expr} (printable : PrintableMember se) :
    (childElem host repeated se).1.Printable := by
  have elem (repeated : Bool) (type rules : String) (typeIdent : isAsn1Identifier type = true)
      (rulesLine : '\n' ∉ rules.toList) :
      ({ protoCreateMsgElem (protoElemName se.identifier) "int32" with repeated, type, rules } : ProtoMsgDef).Printable :=
    ⟨typeIdent, printable.name, rulesLine, List.not_mem_nil _, List.not_mem_nil _⟩
  unfold childElem
  dsimp only
  by_cases bitString : se.exprType = .bitString
  · rw [if_pos bitString]
    exact elem repeated "BitString" "" (by decide) (List.not_mem_nil _)
  rw [if_neg bitString]
  by_cases oid : se.exprType = .objectIdentifier
  · rw [if_pos oid]
    exact elem repeated "BasicOid" "" (by decide) (List.not_mem_nil _)
  rw [if_neg oid]
  by_cases boolean : se.exprType = .boolean
  · rw [if_pos boolean]
    exact elem repeated "bool" "" (by decide) (List.not_mem_nil _)
  rw [if_neg boolean]
  by_cases string : se.exprType = .utf8String ∨ se.exprType = .teletexString
  · rw [if_pos string]
    cases constrained : se.constraints with
    | none => exact elem repeated "string" "" (by decide) (List.not_mem_nil _)
    | some ct =>
      exact elem repeated "string" _ (by decide) (char_not_mem_append (char_not_mem_append (by decide)
        (newline_not_mem_protoConstraintPrint host _ ct (printable.constraints ct constrained))) (by decide))
  rw [if_neg string]
  by_cases sequenceOf : se.metaType = .type ∧ se.exprType = .sequenceOf
  · rw [if_pos sequenceOf]
    exact elem true _ "" (sequenceOfType_ident printable.element) (List.not_mem_nil _)
  rw [if_neg sequenceOf]
  by_cases reference : se.exprType = .reference ∧ se.metaType = .typeref
  · rw [if_pos reference]
    exact elem repeated _ "" (referenceType_ident printable.reference) (List.not_mem_nil _)
  rw [if_neg reference]
  exact elem repeated "int32" "" (by decide) (List.not_mem_nil _)

theorem protoProcessChildren_printable (host : Host) {d : Expr} (members : ∀ se ∈ fieldMembers d, PrintableMember se)
    (repeated : Bool) : ∀ f ∈ (protoProcessChildren host d repeated).1, f.Printable := by
  rw [protoProcessChildren, processMembers_fields]
  intro f member
  obtain ⟨se, listed, rfl⟩ := List.mem_map.1 member
  exact childElem_printable host repeated (members se listed)

theorem iocCellElem_printable {cell : IocCell} (printable : PrintableCell cell) : (iocCellElem cell).Printable := by
  have name := isAsn1Identifier_hyphen printable.field printable.value printable.plain
  unfold iocCellElem
  split
  · exact protoCreateMsgElem_printable name (by decide)
      (char_not_mem_append (by decide) (newline_not_mem_toString_int _))
  · refine protoCreateMsgElem_printable name ?_ (List.not_mem_nil _)
    split
    · decide
    · split
      · decide
      · exact printable.value

theorem asn1extractColumns_printable {host : Host} {d : Expr} (printable : PrintableDefinition host d) {name : String}
    (ident : isAsn1Identifier name = true) (modFile : String) : (asn1extractColumns d name modFile).Printable := by
  refine ⟨ident, fun f member => ?_, fun _ none => absurd none (List.not_mem_nil _)⟩
  obtain ⟨cell, kept, rfl⟩ := List.mem_map.1 member
  obtain ⟨inTable, positive⟩ := List.mem_filter.1 kept
  obtain ⟨row, rowIn, cellIn⟩ := List.mem_flatten.1 inTable
  exact iocCellElem_printable (printable.table row rowIn cell cellIn (of_decide_eq_true positive))

/-- The field of a `TYPEREF` definition: its type is the identifier of the terminal type with
the `%03d` suffix, an identifier. -/
theorem typerefElem_printable {host : Host} {d : Expr} (printable : PrintableDefinition host d) :
    (if d.reference = [] then valueElem
     else { valueElem with type := (host.findTerminalType d).identifier.getD "" ++ fmt03d (host.findTerminalType d).typeUniqueIndex }).Printable := by
  split
  · exact protoCreateMsgElem_printable (by decide) (by decide) (List.not_mem_nil _)
  · next nonempty =>
    exact ⟨isAsn1Identifier_append (printable.terminal nonempty) (identTail_fmt03d _),
      (by decide : isAsn1Identifier "value" = true), List.not_mem_nil _, List.not_mem_nil _, List.not_mem_nil _⟩

section Lowering

variable {host : Host} {flags : Flags} {modFile : String} {d : Expr} {name : String} {st : Lowered}
  (printable : PrintableDefinition host d) (ident : isAsn1Identifier name = true) (before : st.Printable)
include printable ident before

theorem lowerReferenceValue_printable : (lowerReferenceValue host modFile d name st).2.Printable := by
  have message := protoCreateMessage_printable ident d.specIndex d.typeUniqueIndex
    (provenance "reference" modFile d.lineno)
  have path : '\n' ∉ (".".intercalate d.reference).toList := char_not_mem_intercalate (by decide) _
    fun comp member => (printable.reference comp member).1
  have noBracket : ']' ∉ (".".intercalate d.reference).toList := char_not_mem_intercalate (by decide) _
    fun comp member => (printable.reference comp member).2
  have int32 : isAsn1Identifier "int32" = true := by decide
  have value : isAsn1Identifier "value" = true := by decide
  unfold lowerReferenceValue
  split
  · exact before.addMsg (message.addElem
      ⟨int32, value, char_not_mem_append (by decide) (newline_not_mem_toString_int _), path, noBracket⟩)
  · next buf stored =>
    have noNewline : '\n' ∉ buf := of_decide_eq_true (printable.value _ stored)
    exact before.addMsg (message.addElem
      ⟨(by decide : isAsn1Identifier "string" = true), value, newline_not_mem_stringConst noNewline, path, noBracket⟩)
  · split
    · exact before.addMsg (asn1extractColumns_printable printable ident modFile)
    · exact before
  · exact before.write _

theorem lowerScalarType_printable : (lowerScalarType host flags modFile d name st).2.Printable := by
  have message := (protoCreateMessage_printable ident d.specIndex d.typeUniqueIndex
    (provenance "range of Integer" modFile d.lineno)).withParams d
  have rule (fl : Flags) {ct : Constraint} (constrained : d.constraints = some ct) (key : String)
      (keyLine : '\n' ∉ key.toList) : '\n' ∉ (key ++ (protoConstraintPrint host fl ct).1 ++ "\x7d").toList :=
    char_not_mem_append (char_not_mem_append keyLine
      (newline_not_mem_protoConstraintPrint host fl ct (printable.constraints ct constrained))) (by decide)
  have plain (type : String) (typeIdent : isAsn1Identifier type = true) :=
    before.addMsg (message.addElem (@protoCreateMsgElem_printable "value" type "" (by decide) typeIdent
      (List.not_mem_nil _)))
  have constrained (fl : Flags) {ct : Constraint} (same : d.constraints = some ct) (type key : String)
      (typeIdent : isAsn1Identifier type = true) (keyLine : '\n' ∉ key.toList) :=
    (before.write (protoConstraintPrint host fl ct).2).addMsg (message.addElem
      (@protoCreateMsgElem_printable "value" type _ (by decide) typeIdent (rule fl same key keyLine)))
  unfold lowerScalarType
  split
  case h_1 => exact plain "int32" (by decide)
  case h_2 same => exact constrained _ same "int32" _ (by decide) (by decide)
  case h_3 | h_4 => exact plain "string" (by decide)
  case h_5 same | h_6 same => exact constrained _ same "string" _ (by decide) (by decide)
  case h_7 => exact plain "bool" (by decide)
  case h_8 => exact before

/-- Lowering a printable definition builds only printable messages and enums. -/
theorem lowerDefinition_printable : (lowerDefinition host flags modFile d name st).2.Printable := by
  have message (what : String) := protoCreateMessage_printable ident d.specIndex d.typeUniqueIndex
    (provenance what modFile d.lineno)
  have children := protoProcessChildren_printable host printable.members
  by_cases enumerated : d.exprType = .enumerated
  · rw [lowerDefinition_enumerated enumerated]
    refine before.addEnum ⟨ident, fun e member => ?_⟩
    obtain ⟨se, item, rfl⟩ := List.mem_map.1 member
    exact printable.items se item
  by_cases value : d.metaType = .value
  · by_cases integer : d.exprType = .integer
    · rw [lowerDefinition_value_integer value integer]
      exact before.addMsg ((message _).addElem (protoCreateMsgElem_printable (by decide) (by decide)
        (char_not_mem_append (by decide) (newline_not_mem_toString_int _))))
    by_cases reference : d.exprType = .reference
    · rw [lowerDefinition_value_reference value reference]
      exact lowerReferenceValue_printable printable ident before
    rw [lowerDefinition_value_other value enumerated integer reference]
    exact before.write _
  by_cases type : d.metaType = .type
  · by_cases sequence : d.exprType = .sequence ∨ d.exprType = .sequenceOf
    · rw [lowerDefinition_sequence type sequence]
      exact (before.write _).addMsg (((message _).withParams d).appendEntries (children _))
    by_cases choice : d.exprType = .choice
    · rw [lowerDefinition_choice type choice]
      exact (before.write _).addMsg (((message _).withParams d).addOneof ⟨ident, children false⟩)
    rw [lowerDefinition_scalar type enumerated ⟨fun h => sequence (.inl h), fun h => sequence (.inr h), choice⟩]
    exact lowerScalarType_printable printable ident before
  have valueset (ct : Option Constraint) (constrained : d.constraints = ct) :
      '\n' ∉ ("int32 = \x7bin: [" ++ (match ct with
        | none => ("(null)", [])
        | some ct => protoConstraintPrint host flags ct).1 ++ "]\x7d").toList := by
    refine char_not_mem_append (char_not_mem_append (by decide) ?_) (by decide)
    split
    · decide
    · next ct => exact newline_not_mem_protoConstraintPrint host flags ct (printable.constraints ct constrained)
  unfold lowerDefinition
  simp only [enumerated, value, type, if_false, false_and, apply_ite Prod.snd]
  repeat' first
    | exact before
    | exact before.write _
    | exact (before.write _).addMsg ((message _).addElem
        (protoCreateMsgElem_printable (by decide) (by decide) (valueset _ rfl)))
    | exact before.addMsg (((message _).withParams d).addElem (typerefElem_printable printable))
    | refine iteInduction (fun _ => ?_) (fun _ => ?_)

end Lowering

/-- A run of lowering over definitions, from `st` to `st'`: if the definitions are printable,
it keeps every message and enum printable. -/
def KeepsPrintable (host : Host) (defs : List Expr) (st st' : Lowered) : Prop :=
  (∀ d ∈ defs, PrintableDefinition host d) → st.Printable → st'.Printable

theorem keepsPrintable_loweringRel (host : Host) (flags : Flags) (modFile : String) :
    LoweringRel host flags modFile (KeepsPrintable host) where
  nil _ _ := id
  definition _ _ named printable := lowerDefinition_printable (printable _ (List.mem_singleton_self _))
    (by simpa only [named, Option.getD_some] using (printable _ (List.mem_singleton_self _)).identifier)
  stop b _ _ first printable := first fun d member => printable d (List.mem_append_left b member)
  seq first second printable before := second (fun d member => printable d (List.mem_append_right _ member))
    (first (fun d member => printable d (List.mem_append_left _ member)) before)

theorem lowerModule_printable (host : Host) (flags : Flags) (modFile : String) (assignments : List Expr)
    (printable : ∀ d ∈ assignments.flatMap loweredDefinitions, PrintableDefinition host d) :
    (lowerModule host flags modFile assignments).Printable :=
  (keepsPrintable_loweringRel host flags modFile).fold assignments ⟨[], [], []⟩ printable
    ⟨fun _ none => absurd none (List.not_mem_nil _), fun _ none => absurd none (List.not_mem_nil _)⟩

/-- Modelled from the spec: the proto module the driver prints for an ASN.1 module, its
header (name, source file, OID, imports, comments) with the enums and messages that lowering
every assignment appends to its own. -/
def ProtoModule.withLowered (header : ProtoModule) (st : Lowered) : ProtoModule :=
  { header with protoenum := header.protoenum ++ st.protoenum, message := header.message ++ st.message }

/-- The file `proto_print_msg` prints for a header and printable lowered messages and enums
reads back as the module they make. -/
theorem readProto_withLowered (host : Host) (flags : Flags) (level : Nat) {header : ProtoModule}
    (headerPrintable : header.Printable host) {st : Lowered} (lowered : st.Printable) :
    readProto (protoPrintMsg host flags level (header.withLowered st)) = some (printedFile host (header.withLowered st)) := by
  have whole : (header.withLowered st).Printable host :=
    { headerPrintable with
      protoenum := fun e member => (List.mem_append.1 member).elim (headerPrintable.protoenum e) (lowered.protoenum e)
      message := fun msg member => (List.mem_append.1 member).elim (headerPrintable.message msg)
        (lowered.message msg) }
  exact readProto_of_reads (protoPrintMsg_reads host flags level whole) rfl rfl

/-- From ASN.1 to proto text and back: for every module whose header prints readably and
whose lowered definitions give identifiers as names and carry no newline in their texts, the
file `proto_print_msg` prints for the lowered module reads back, line by line, as that module. -/
theorem readProto_lowerModule (host : Host) (flags : Flags) (level : Nat) (modFile : String)
    (assignments : List Expr) {header : ProtoModule} (headerPrintable : header.Printable host)
    (printable : ∀ d ∈ assignments.flatMap loweredDefinitions, PrintableDefinition host d) :
    readProto (protoPrintMsg host flags level (header.withLowered (lowerModule host flags modFile assignments))) =
      some (printedFile host (header.withLowered (lowerModule host flags modFile assignments))) :=
  readProto_withLowered host flags level headerPrintable (lowerModule_printable host flags modFile assignments printable)

def shapesAssignments : List Expr :=
  [{ identifier := some "Color", metaType := .type, exprType := .enumerated, specializations := [],
     members := [
      { identifier := some "red", metaType := .value, exprType := .univerval, value := some (.integer 0),
        members := [], specializations := [] },
      { identifier := some "green", metaType := .value, exprType := .univerval, value := some (.integer 1),
        members := [], specializations := [] }] },
   { identifier := some "Size", metaType := .type, exprType := .integer, specializations := [], members := [],
     constraints := some { type := .elRange, rangeStart := some (.integer 1), rangeStop := some (.integer 10),
                           elements := [] } },
   { identifier := some "Shape", metaType := .type, exprType := .choice, specializations := [],
     members := [
      { identifier := some "circle", metaType := .typeref, exprType := .reference,
        reference := ["Circle"], members := [], specializations := [] },
      { identifier := some "label", metaType := .type, exprType := .utf8String, members := [], specializations := [],
        constraints := some { type := .ctSize,
                              elements := [{ type := .elRange, rangeStart := some (.integer 1),
                                             rangeStop := some (.integer 8), elements := [] }] } }] }]

theorem shapes_lowered_reads_back :
    ({ shapesModule with protoenum := [], message := [] } : ProtoModule).Printable Host.sample ∧
      (∀ d ∈ shapesAssignments.flatMap loweredDefinitions, PrintableDefinition Host.sample d) ∧
      readProto (protoPrintMsg Host.sample {} 0
        (({ shapesModule with protoenum := [], message := [] } : ProtoModule).withLowered
          (lowerModule Host.sample {} "shapes.asn" shapesAssignments))) =
        some (printedFile Host.sample (({ shapesModule with protoenum := [], message := [] } : ProtoModule).withLowered
          (lowerModule Host.sample {} "shapes.asn" shapesAssignments))) :=
  ⟨by decide, by decide, readProto_lowerModule Host.sample {} 0 "shapes.asn" shapesAssignments (by decide) (by decide)⟩

end Asn1Proto
