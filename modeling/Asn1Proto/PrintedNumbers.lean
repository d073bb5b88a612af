import Asn1Proto.FieldNumbering

namespace Asn1Proto

theorem protoPrintSingleMsg_numbers (host : Host) (msg : ProtoMsg) :
    (protoPrintSingleMsg host msg).allFields.map (·.number) =
      List.range' 1 msg.entry.length ++ (msg.oneof.map fun o => List.range' 1 o.entry.length).flatten := by
  simp only [MsgBlock.allFields, protoPrintSingleMsg, protoPrintSingleOneof, printEntries, List.map_append,
    List.map_flatten, List.map_map, Function.comp_def, printEntriesFrom_numbers]

/-- `print_entries` numbers the fields of a message, and those of each of its oneofs, from 1:
a message with fields of its own and a oneof with fields prints two fields numbered 1. -/
theorem printed_field_numbers_restart (host : Host) {msg : ProtoMsg} (own : msg.entry ≠ [])
    {o : ProtoOneof} (member : o ∈ msg.oneof) (filled : o.entry ≠ []) :
    ¬ ((protoPrintSingleMsg host msg).allFields.map (·.number)).Nodup := by
  have first : 1 ∈ List.range' 1 msg.entry.length :=
    List.mem_range'_1.2 ⟨le_refl 1, by have := List.length_pos.2 own; omega⟩
  have second : 1 ∈ (msg.oneof.map fun o => List.range' 1 o.entry.length).flatten :=
    List.mem_flatten.2 ⟨_, List.mem_map_of_mem _ member,
      List.mem_range'_1.2 ⟨le_refl 1, by have := List.length_pos.2 filled; omega⟩⟩
  rw [protoPrintSingleMsg_numbers, List.nodup_append]
  exact fun ⟨_, _, apart⟩ => apart first second

/-- A message the printer numbers without a clash: fields of its own and no oneof, or no
field of its own and a single oneof. -/
def ProtoMsg.OneNumbering (msg : ProtoMsg) : Prop :=
  msg.oneof = [] ∨ msg.entry = [] ∧ msg.oneof.length = 1

theorem ProtoMsg.OneNumbering.nodup (host : Host) {msg : ProtoMsg} (one : msg.OneNumbering) :
    ((protoPrintSingleMsg host msg).allFields.map (·.number)).Nodup := by
  rw [protoPrintSingleMsg_numbers]
  rcases one with noOneof | ⟨noEntry, single⟩
  · simpa only [noOneof, List.map_nil, List.flatten_nil, List.append_nil] using List.nodup_range' 1 _
  · obtain ⟨o, only⟩ := List.length_eq_one.1 single
    simpa only [noEntry, only, List.length_nil, List.range'_zero, List.map_cons, List.map_nil,
      List.flatten_cons, List.flatten_nil, List.append_nil, List.nil_append] using List.nodup_range' 1 _

/-- A lowering step from `st` to `st'` builds only messages with one numbering, if `st` had
only such messages. -/
def KeepsOneNumbering (st st' : Lowered) : Prop :=
  (∀ msg ∈ st.message, msg.OneNumbering) → ∀ msg ∈ st'.message, msg.OneNumbering

namespace KeepsOneNumbering

variable {st st' : Lowered}

theorem refl : KeepsOneNumbering st st := id

theorem write (w : List String) : KeepsOneNumbering st (st.write w) := id

theorem addEnum (step : KeepsOneNumbering st st') (e : ProtoEnum) : KeepsOneNumbering st (st'.addEnum e) :=
  step

theorem addMsg (step : KeepsOneNumbering st st') {msg : ProtoMsg} (one : msg.OneNumbering) :
    KeepsOneNumbering st (st'.addMsg msg) := fun before m member =>
  (List.mem_append.1 member).elim (step before m) fun added => List.mem_singleton.1 added ▸ one

end KeepsOneNumbering

section Lowering

variable {host : Host} {flags : Flags} {modFile : String} {d : Expr} {name : String} {st : Lowered}

theorem lowerReferenceValue_keepsOneNumbering :
    KeepsOneNumbering st (lowerReferenceValue host modFile d name st).2 := by
  unfold lowerReferenceValue
  split
  · exact KeepsOneNumbering.refl.addMsg (.inl rfl)
  · exact KeepsOneNumbering.refl.addMsg (.inl rfl)
  · split
    · exact KeepsOneNumbering.refl.addMsg (.inl rfl)
    · exact KeepsOneNumbering.refl
  · exact KeepsOneNumbering.write _

theorem lowerScalarType_keepsOneNumbering :
    KeepsOneNumbering st (lowerScalarType host flags modFile d name st).2 := by
  unfold lowerScalarType
  split
  all_goals first
    | exact KeepsOneNumbering.refl
    | exact KeepsOneNumbering.refl.addMsg (.inl (by simp [protoCreateMessage]))

/-- Lowering a definition builds at most one message, with fields of its own or one oneof. -/
theorem lowerDefinition_keepsOneNumbering :
    KeepsOneNumbering st (lowerDefinition host flags modFile d name st).2 := by
  by_cases enumerated : d.exprType = .enumerated
  · rw [lowerDefinition_enumerated enumerated]
    exact KeepsOneNumbering.refl.addEnum _
  by_cases value : d.metaType = .value
  · by_cases integer : d.exprType = .integer
    · rw [lowerDefinition_value_integer value integer]
      exact KeepsOneNumbering.refl.addMsg (.inl rfl)
    by_cases reference : d.exprType = .reference
    · rw [lowerDefinition_value_reference value reference]
      exact lowerReferenceValue_keepsOneNumbering
    rw [lowerDefinition_value_other value enumerated integer reference]
    exact KeepsOneNumbering.write _
  by_cases type : d.metaType = .type
  · by_cases sequence : d.exprType = .sequence ∨ d.exprType = .sequenceOf
    · rw [lowerDefinition_sequence type sequence]
      exact (KeepsOneNumbering.write _).addMsg (.inl (by simp [protoCreateMessage]))
    by_cases choice : d.exprType = .choice
    · rw [lowerDefinition_choice type choice]
      exact (KeepsOneNumbering.write _).addMsg (.inr (by simp [protoCreateMessage]))
    rw [lowerDefinition_scalar type enumerated ⟨fun h => sequence (.inl h), fun h => sequence (.inr h), choice⟩]
    exact lowerScalarType_keepsOneNumbering
  unfold lowerDefinition
  simp only [enumerated, value, type, if_false, false_and, apply_ite Prod.snd]
  repeat' first
    | exact KeepsOneNumbering.refl
    | exact KeepsOneNumbering.write _
    | exact KeepsOneNumbering.refl.addMsg (.inl (by simp [protoCreateMessage]))
    | exact (KeepsOneNumbering.write _).addMsg (.inl (by simp [protoCreateMessage]))
    | refine iteInduction (fun _ => ?_) (fun _ => ?_)

end Lowering

theorem keepsOneNumbering_loweringRel (host : Host) (flags : Flags) (modFile : String) :
    LoweringRel host flags modFile fun _ => KeepsOneNumbering where
  nil _ := KeepsOneNumbering.refl
  definition _ _ _ := lowerDefinition_keepsOneNumbering
  stop _ _ _ first := first
  seq first second := fun before => second (first before)

/-- Every message of a lowered module is printed with pairwise distinct field numbers: the
lowering never builds a message that has both fields of its own and a oneof, or two oneofs,
the two shapes whose numbers `print_entries` would restart. -/
theorem lowerModule_field_numbers_nodup (host : Host) (flags : Flags) (modFile : String)
    (assignments : List Expr) :
    ∀ msg ∈ (lowerModule host flags modFile assignments).message,
      ((protoPrintSingleMsg host msg).allFields.map (·.number)).Nodup := fun msg member =>
  ((keepsOneNumbering_loweringRel host flags modFile).fold assignments ⟨[], [], []⟩
    (fun _ none => absurd none (List.not_mem_nil _)) msg member).nodup host

theorem shape_choice_numbers_apart :
    (⟨"Shape", -1, 0, "sequence from shapes.asn:0", [], [⟨"Shape", "choice from shapes.asn:0",
      [⟨"circle", "Circle", "", "", false⟩, ⟨"square", "Square", "", "", false⟩]⟩], []⟩ : ProtoMsg) ∈
        (lowerModule Host.sample {} "shapes.asn"
          [{ identifier := some "Shape", metaType := .type, exprType := .choice, specializations := [],
             members := [
              { identifier := some "circle", metaType := .typeref, exprType := .reference,
                reference := ["Circle"], members := [], specializations := [] },
              { identifier := some "square", metaType := .typeref, exprType := .reference,
                reference := ["Square"], members := [], specializations := [] }] }]).message ∧
      ((protoPrintSingleMsg Host.sample ⟨"Shape", -1, 0, "sequence from shapes.asn:0", [],
        [⟨"Shape", "choice from shapes.asn:0", [⟨"circle", "Circle", "", "", false⟩,
          ⟨"square", "Square", "", "", false⟩]⟩], []⟩).allFields.map (·.number)).Nodup := by
  refine ⟨?member, lowerModule_field_numbers_nodup Host.sample {} "shapes.asn" _ _ ?member⟩
  decide

/-- The first constant of a printed enum is 0, as proto3 asks of an enum, exactly when no
entry has index 0 or the first entry's index is not positive: an entry with index 0 stops the
auto-generated constant, and then the first entry comes first. -/
theorem printed_enum_first_zero_iff (e : ProtoEnum) :
    (protoPrintSingleEnum e).lines.head?.map (·.value) = some 0 ↔
      (∀ d ∈ e.defs, d.index ≠ 0) ∨ ∀ d ∈ e.defs.head?, d.index ≤ 0 := by
  unfold protoPrintSingleEnum
  split
  · next zero =>
    obtain ⟨d, member, index⟩ := List.any_eq_true.1 zero
    have noneZero : ¬ ∀ d ∈ e.defs, d.index ≠ 0 := fun none => none d member (of_decide_eq_true index)
    obtain ⟨first, rest, same⟩ := List.exists_cons_of_ne_nil (List.ne_nil_of_mem member)
    have head : (enumLinesFrom (toSnakeCaseDup e.name .upper) 0 e.defs).head?.map (·.value) =
        some (if first.index < 0 then 0 else first.index) := by
      rw [same, enumLinesFrom]
      split <;> rfl
    rw [List.nil_append, head, Option.some.injEq, or_iff_right noneZero, same, List.head?_cons]
    simp only [Option.mem_def, Option.some.injEq, forall_eq, forall_eq']
    split <;> omega
  · next noZero =>
    have none : ∀ d ∈ e.defs, d.index ≠ 0 := fun d member same =>
      noZero (List.any_eq_true.2 ⟨d, member, decide_eq_true same⟩)
    exact iff_of_true rfl (.inl none)

end Asn1Proto
