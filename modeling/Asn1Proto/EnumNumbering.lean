import Asn1Proto.LowerSpec
import Asn1Proto.Emit
import Asn1Proto.Literals

namespace Asn1Proto

/-- The `UNIVERVAL` members of an `ENUMERATED` type, in declaration order. -/
def enumItems (expr : Expr) : List Expr :=
  expr.members.filter fun se => se.exprType = .univerval

/-- The constant an entry of a printed enum stands for. -/
def itemLine (enumNameUc : String) (se : Expr) : EnumLine :=
  ⟨enumNameUc ++ "_" ++ toSnakeCaseDup (se.identifier.getD "") .upper, vInteger se.value, false⟩

/-- Items whose values an `int` index keeps: integers in `0 .. 2^31 - 1`. -/
def HasIndexValue (se : Expr) : Prop :=
  ∃ v, se.value = some (.integer v) ∧ 0 ≤ v ∧ v < 2 ^ 31

theorem protoEnumDef_of_index {se : Expr} (indexed : HasIndexValue se) :
    protoEnumDef se = ⟨se.identifier.getD "", vInteger se.value⟩ := by
  obtain ⟨v, value, lower, upper⟩ := indexed
  have kept := (toCInt_eq_self_iff v).mpr ⟨by omega, upper⟩
  simp [protoEnumDef, value, lower, kept, vInteger]

/-- With every index set, the running counter is never used. -/
theorem enumLinesFrom_of_indexed (enumNameUc : String) (index : Int) (defs : List ProtoEnumDef)
    (indexed : ∀ d ∈ defs, 0 ≤ d.index) :
    enumLinesFrom enumNameUc index defs =
      defs.map fun d => ⟨enumNameUc ++ "_" ++ toSnakeCaseDup d.name .upper, d.index, false⟩ := by
  induction defs with
  | nil => rfl
  | cons d rest ih =>
    have first := indexed d (List.mem_cons_self _ _)
    simp [enumLinesFrom, show ¬ d.index < 0 by omega,
      ih fun d' member => indexed d' (List.mem_cons_of_mem _ member)]

theorem protoProcessEnumerated_of_indexed {expr : Expr} (indexed : ∀ se ∈ enumItems expr, HasIndexValue se) :
    protoProcessEnumerated expr = (enumItems expr).map fun se => ⟨se.identifier.getD "", vInteger se.value⟩ := by
  unfold protoProcessEnumerated
  exact List.map_congr_left fun se member => protoEnumDef_of_index (indexed se member)

/-- The printed constants of an `ENUMERATED` type whose items carry values an `int`
keeps: `_UNDEFINED = 0` first when no item is 0, then each item with its own value. -/
theorem printed_enum_lines {expr : Expr} (e : ProtoEnum) (defs : e.defs = protoProcessEnumerated expr)
    (indexed : ∀ se ∈ enumItems expr, HasIndexValue se) :
    (protoPrintSingleEnum e).lines =
      (if 0 ∈ (enumItems expr).map (vInteger ·.value) then []
       else [⟨toSnakeCaseDup e.name .upper ++ "_UNDEFINED", 0, true⟩]) ++
      (enumItems expr).map (itemLine (toSnakeCaseDup e.name .upper)) := by
  have nonnegative : ∀ d ∈ e.defs, 0 ≤ d.index := by
    rw [defs, protoProcessEnumerated_of_indexed indexed]
    simp only [List.mem_map]
    rintro _ ⟨se, member, rfl⟩
    obtain ⟨v, value, lower, _⟩ := indexed se member
    simpa [value, vInteger] using lower
  have zero : e.defs.any (fun d => d.index = 0) = decide (0 ∈ (enumItems expr).map (vInteger ·.value)) := by
    rw [defs, protoProcessEnumerated_of_indexed indexed, Bool.eq_iff_iff]
    simp [List.any_eq_true]
  simp only [protoPrintSingleEnum, zero, enumLinesFrom_of_indexed _ _ _ nonnegative]
  rw [defs, protoProcessEnumerated_of_indexed indexed]
  by_cases hz : 0 ∈ (enumItems expr).map (vInteger ·.value) <;> simp only [hz] <;> simp [itemLine]

theorem printed_enum_values {expr : Expr} (e : ProtoEnum) (defs : e.defs = protoProcessEnumerated expr)
    (indexed : ∀ se ∈ enumItems expr, HasIndexValue se) :
    (protoPrintSingleEnum e).lines.map (·.value) =
      (if 0 ∈ (enumItems expr).map (vInteger ·.value) then [] else [0]) ++
        (enumItems expr).map (vInteger ·.value) := by
  rw [printed_enum_lines e defs indexed]
  split <;> simp [itemLine, Function.comp_def]

/-- With pairwise distinct item values, the printed values hold one 0 and no repeat. -/
theorem printed_values_apart {values : List Int} (distinct : values.Nodup) :
    ((if 0 ∈ values then [] else [0]) ++ values).count 0 = 1 ∧ ((if 0 ∈ values then [] else [0]) ++ values).Nodup := by
  by_cases zero : 0 ∈ values
  · simp only [zero, if_true, List.nil_append]
    exact ⟨List.count_eq_one_of_mem distinct zero, distinct⟩
  · simp only [zero, if_false, List.singleton_append]
    exact ⟨by simp [List.count_cons, List.count_eq_zero_of_not_mem zero], List.nodup_cons.mpr ⟨zero, distinct⟩⟩

end Asn1Proto
