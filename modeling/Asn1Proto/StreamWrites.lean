import Asn1Proto.LowerSpec

namespace Asn1Proto

mutual
/-- The nodes of a constraint tree, in pre-order. -/
def Constraint.nodes : Constraint → List Constraint
  | c@⟨_, _, _, _, _, elements⟩ => c :: Constraint.nodesOf elements

def Constraint.nodesOf : List Constraint → List Constraint
  | [] => []
  | c :: cs => c.nodes ++ Constraint.nodesOf cs
end

/-- Every text a node of the tree could write straight to the output stream. -/
def directWrites (host : Host) (c : Constraint) : List String :=
  c.nodes.flatMap fun d => directWrite host d.type d.value

/-- Whether a node is one of the `CONSTRAINED BY`, `CONTAINING` and `PATTERN` nodes, the only
ones whose case of `proto_constraint_print` writes to the stream. -/
def Constraint.WritesDirectly (c : Constraint) : Prop :=
  c.type = .ctCtdBy ∨ c.type = .ctCtng ∨ c.type = .ctPattern

theorem directWrite_of_not_writesDirectly {host : Host} {c : Constraint} (quiet : ¬ c.WritesDirectly) :
    directWrite host c.type c.value = [] := by
  unfold Constraint.WritesDirectly at quiet
  unfold directWrite
  split <;> simp_all

theorem firstElement_snd_subset (children : List (String × List String)) :
    (firstElement children).2 ⊆ (children.map Prod.snd).flatten := by
  cases children <;> simp [firstElement]

theorem subconstraint_snd_subset (children : List (String × List String)) :
    (subconstraint children).2 ⊆ (children.map Prod.snd).flatten := by
  cases children <;> simp [subconstraint]

mutual
/-- What `proto_constraint_print` writes to the stream is written by `CONSTRAINED BY`,
`CONTAINING` and `PATTERN` nodes of the tree it prints; the rest of the rendering is in the
string it returns. -/
theorem protoConstraintPrint_out_subset (host : Host) (flags : Flags) :
    (c : Constraint) → (protoConstraintPrint host flags c).2 ⊆ directWrites host c
  | ⟨type, value, rangeStart, rangeStop, containedSubtype, elements⟩ => by
    have children := printElements_out_subset host flags elements
    have first := List.Subset.trans (firstElement_snd_subset (printElements host flags elements)) children
    have sub := List.Subset.trans (subconstraint_snd_subset (printElements host flags elements)) children
    simp only [directWrites, Constraint.nodes, List.flatMap_cons] at children ⊢
    have right {texts : List String} (inner : texts ⊆ (Constraint.nodesOf elements).flatMap
        fun d => directWrite host d.type d.value) :
        texts ⊆ directWrite host type value ++ (Constraint.nodesOf elements).flatMap
          fun d => directWrite host d.type d.value :=
      List.Subset.trans inner (List.subset_append_right _ _)
    cases type <;> simp only [protoConstraintPrint]
    all_goals first
      | exact List.nil_subset _
      | exact List.subset_append_left _ _
      | exact right first
      | exact right sub
      | exact right children
      | (split <;> first | exact List.nil_subset _ | exact right sub)

theorem printElements_out_subset (host : Host) (flags : Flags) :
    (cs : List Constraint) →
      ((printElements host flags cs).map Prod.snd).flatten ⊆
        (Constraint.nodesOf cs).flatMap fun d => directWrite host d.type d.value
  | [] => by simp [printElements, Constraint.nodesOf]
  | c :: cs => by
    simp only [printElements, Constraint.nodesOf, List.map_cons, List.flatten_cons, List.flatMap_append]
    exact List.append_subset.2
      ⟨List.Subset.trans (protoConstraintPrint_out_subset host flags c) (List.subset_append_left _ _),
        List.Subset.trans (printElements_out_subset host flags cs) (List.subset_append_right _ _)⟩
end

/-- A constraint tree with no `CONSTRAINED BY`, `CONTAINING` or `PATTERN` node is printed
without touching the stream. -/
theorem protoConstraintPrint_quiet (host : Host) (flags : Flags) (c : Constraint)
    (quiet : ∀ d ∈ c.nodes, ¬ d.WritesDirectly) : (protoConstraintPrint host flags c).2 = [] := by
  have none : directWrites host c = [] := by
    simp only [directWrites, List.flatMap_eq_nil_iff]
    exact fun d member => directWrite_of_not_writesDirectly (quiet d member)
  exact List.eq_nil_of_subset_nil (none ▸ protoConstraintPrint_out_subset host flags c)

/-- The tree of `((1..10) | SIZE (3))`: a range and a size of a single value, in a union inside
a set. -/
def rangeOrSize : Constraint :=
  ⟨.caSet, none, none, none, none,
    [⟨.caUni, none, none, none, none,
      [⟨.elRange, none, some (.integer 1), some (.integer 10), none, []⟩,
        ⟨.ctSize, none, none, none, none, [⟨.elValue, some (.integer 3), none, none, none, []⟩]⟩]⟩]⟩

theorem range_constraint_quiet :
    (∀ d ∈ rangeOrSize.nodes, ¬ d.WritesDirectly) ∧ (protoConstraintPrint Host.sample {} rangeOrSize).2 = [] :=
  have quiet : ∀ d ∈ rangeOrSize.nodes, ¬ d.WritesDirectly := by
    simp only [Constraint.WritesDirectly]
    decide
  ⟨quiet, protoConstraintPrint_quiet Host.sample {} _ quiet⟩

end Asn1Proto

namespace Asn1Proto

/-- What a lowering step does to the state: it keeps every message and enum built so far,
adding after them, and keeps what was written, appending texts out of `allowed`. -/
structure Appends (allowed : List String) (st st' : Lowered) : Prop where
  message : st.message <+: st'.message
  protoenum : st.protoenum <+: st'.protoenum
  out : ∃ w, st'.out = st.out ++ w ∧ w ⊆ allowed

namespace Appends

variable {allowed : List String} {st st' : Lowered}

theorem refl : Appends allowed st st :=
  ⟨List.prefix_refl _, List.prefix_refl _, [], (List.append_nil _).symm, List.nil_subset _⟩

theorem write {w : List String} (sub : w ⊆ allowed) : Appends allowed st (st.write w) :=
  ⟨List.prefix_refl _, List.prefix_refl _, w, rfl, sub⟩

theorem addMsg (step : Appends allowed st st') (msg : ProtoMsg) : Appends allowed st (st'.addMsg msg) :=
  ⟨step.message.trans (List.prefix_append _ _), step.protoenum, step.out⟩

theorem addEnum (step : Appends allowed st st') (e : ProtoEnum) : Appends allowed st (st'.addEnum e) :=
  ⟨step.message, step.protoenum.trans (List.prefix_append _ _), step.out⟩

theorem mono {larger : List String} (step : Appends allowed st st') (sub : allowed ⊆ larger) :
    Appends larger st st' :=
  let ⟨w, out, within⟩ := step.out
  ⟨step.message, step.protoenum, w, out, List.Subset.trans within sub⟩

theorem trans {st'' : Lowered} {more : List String} (first : Appends allowed st st')
    (second : Appends more st' st'') : Appends (allowed ++ more) st st'' :=
  let ⟨w, out, within⟩ := first.out
  let ⟨w', out', within'⟩ := second.out
  ⟨first.message.trans second.message, first.protoenum.trans second.protoenum, w ++ w',
    by rw [out', out, List.append_assoc],
    List.append_subset.2 ⟨List.Subset.trans within (List.subset_append_left _ _),
      List.Subset.trans within' (List.subset_append_right _ _)⟩⟩

end Appends

/-- The constraint trees the lowering of a definition may print: its own, and those of its
members. -/
def printedConstraints (expr : Expr) : List Constraint :=
  expr.constraints.toList ++ expr.members.flatMap fun se => se.constraints.toList

/-- The lines `asn1print_expr_proto` prints about a definition it does not lower. -/
def diagnostics (host : Host) (expr : Expr) (name : String) : List String :=
  ["ERROR: unhandled expr->expr_type " ++ toString (host.exprTypeCode expr.exprType) ++ "\n",
   "// Error. AMT_VALUE with ExprType: " ++
     toString (host.valueTypeCode ((expr.value.map Value.valueType).getD .novalue)) ++ "\n",
   "\n\n//////// ERROR Unhandled expr " ++ name ++ ". Meta type: " ++
     toString (host.metaTypeCode expr.metaType) ++ ". Expr type: " ++
     toString (host.exprTypeCode expr.exprType) ++ " /////\n\n"]

/-- Everything the lowering of one definition may write: a diagnostic, or what a node of a
constraint it prints writes. -/
def loweringWrites (host : Host) (expr : Expr) (name : String) : List String :=
  diagnostics host expr name ++ (printedConstraints expr).flatMap (directWrites host)

variable {host : Host} {flags : Flags} {modFile : String} {expr : Expr} {name : String}
  {st : Lowered}

theorem own_constraint_writes {ct : Constraint} (own : expr.constraints = some ct) (flags : Flags) :
    (protoConstraintPrint host flags ct).2 ⊆ loweringWrites host expr name := by
  intro text member
  simp only [loweringWrites, printedConstraints, own, List.mem_append, List.mem_flatMap]
  exact .inr ⟨ct, by simp, protoConstraintPrint_out_subset host flags ct member⟩

theorem subset_ite {c : Prop} [Decidable c] {a b s : List String} (first : a ⊆ s) (second : b ⊆ s) :
    (if c then a else b) ⊆ s := by
  split
  · exact first
  · exact second

theorem childElem_writes (repeated : Bool) (se : Expr) :
    (childElem host repeated se).2 ⊆ se.constraints.toList.flatMap (directWrites host) := by
  unfold childElem
  cases own : se.constraints with
  | none =>
    simp only [apply_ite Prod.snd, ite_self]
    exact List.nil_subset _
  | some ct =>
    have printed : (protoConstraintPrint host { stringValue := true } ct).2 ⊆ [ct].flatMap (directWrites host) := by
      simpa using protoConstraintPrint_out_subset host _ ct
    simp only [apply_ite Prod.snd, Option.toList_some]
    repeat' first | exact List.nil_subset _ | exact printed | apply subset_ite

theorem processMembers_writes (repeated : Bool) (members : List Expr) :
    (processMembers host repeated members).2 ⊆
      (members.flatMap fun se => se.constraints.toList).flatMap (directWrites host) := by
  induction members with
  | nil => exact List.nil_subset _
  | cons se rest ih =>
    simp only [List.flatMap_cons, List.flatMap_append]
    unfold processMembers
    split
    · exact List.Subset.trans ih (List.subset_append_right _ _)
    · exact List.append_subset.2 ⟨List.Subset.trans (childElem_writes repeated se) (List.subset_append_left _ _),
        List.Subset.trans ih (List.subset_append_right _ _)⟩

theorem children_writes (repeated : Bool) :
    (protoProcessChildren host expr repeated).2 ⊆ loweringWrites host expr name := by
  intro text member
  simp only [loweringWrites, printedConstraints, List.flatMap_append, List.mem_append]
  exact .inr (.inr (processMembers_writes repeated expr.members member))

theorem lowerReferenceValue_appends :
    Appends (loweringWrites host expr name) st (lowerReferenceValue host modFile expr name st).2 := by
  unfold lowerReferenceValue
  repeat' split
  all_goals first
    | exact Appends.refl
    | exact Appends.refl.addMsg _
    | exact Appends.write (by simp [loweringWrites, diagnostics, *])

theorem lowerScalarType_appends :
    Appends (loweringWrites host expr name) st (lowerScalarType host flags modFile expr name st).2 := by
  unfold lowerScalarType
  split
  all_goals first
    | exact Appends.refl
    | exact Appends.refl.addMsg _
    | (rename_i own; exact (Appends.write (own_constraint_writes own _)).addMsg _)

theorem lowerDefinition_appends :
    Appends (loweringWrites host expr name) st (lowerDefinition host flags modFile expr name st).2 := by
  by_cases enumerated : expr.exprType = .enumerated
  · rw [lowerDefinition_enumerated enumerated]
    exact Appends.refl.addEnum _
  by_cases value : expr.metaType = .value
  · by_cases integer : expr.exprType = .integer
    · rw [lowerDefinition_value_integer value integer]
      exact Appends.refl.addMsg _
    by_cases reference : expr.exprType = .reference
    · rw [lowerDefinition_value_reference value reference]
      exact lowerReferenceValue_appends
    rw [lowerDefinition_value_other value enumerated integer reference]
    exact Appends.write (by simp [loweringWrites, diagnostics])
  by_cases type : expr.metaType = .type
  · by_cases sequence : expr.exprType = .sequence ∨ expr.exprType = .sequenceOf
    · rw [lowerDefinition_sequence type sequence]
      exact (Appends.write (children_writes _)).addMsg _
    by_cases choice : expr.exprType = .choice
    · rw [lowerDefinition_choice type choice]
      exact (Appends.write (children_writes _)).addMsg _
    rw [lowerDefinition_scalar type enumerated ⟨fun h => sequence (.inl h), fun h => sequence (.inr h), choice⟩]
    exact lowerScalarType_appends
  unfold lowerDefinition
  simp only [enumerated, value, type, if_false, false_and, apply_ite Prod.snd]
  repeat' first
    | exact Appends.refl
    | exact Appends.refl.addMsg _
    | exact Appends.write (by simp [loweringWrites, diagnostics])
    | refine (Appends.write ?_).addMsg _
    | refine iteInduction (fun _ => ?_) (fun _ => ?_)
  -- left: what printing the constraint of an `INTEGER` value set writes
  split
  · exact List.nil_subset _
  · next own => exact own_constraint_writes own flags

/-- What lowering one definition may write; an anonymous one is skipped. -/
def definitionWrites (host : Host) (d : Expr) : List String :=
  match d.identifier with
  | none => []
  | some name => loweringWrites host d name

/-- Lowering definitions appends only what lowering each of them may write. -/
theorem appends_loweringRel (host : Host) (flags : Flags) (modFile : String) :
    LoweringRel host flags modFile fun defs => Appends (defs.flatMap (definitionWrites host)) where
  nil _ := Appends.refl
  definition _ _ named := lowerDefinition_appends.mono (by simp [definitionWrites, named])
  stop _ _ _ first := first.mono (by simp [List.flatMap_append])
  seq first second := by simpa only [List.flatMap_append] using first.trans second

theorem lowerModule_fold_appends (host : Host) (flags : Flags) (modFile : String) (assignments : List Expr)
    (st : Lowered) :
    Appends ((assignments.flatMap loweredDefinitions).flatMap (definitionWrites host)) st
      (assignments.foldl (fun st expr => (asn1printExprProto host flags modFile expr st).2) st) :=
  (appends_loweringRel host flags modFile).fold assignments st

/-- Everything a module's lowering writes to the output stream is a diagnostic about one of
the definitions it lowers or the direct write of a `CONSTRAINED BY`, `CONTAINING` or
`PATTERN` node of a constraint one of them prints. -/
theorem lowerModule_writes (host : Host) (flags : Flags) (modFile : String) (assignments : List Expr) :
    (lowerModule host flags modFile assignments).out ⊆
      (assignments.flatMap loweredDefinitions).flatMap (definitionWrites host) := by
  obtain ⟨w, out, within⟩ := (lowerModule_fold_appends host flags modFile assignments ⟨[], [], []⟩).out
  simpa [lowerModule, out] using within

/-- The lowering writes lines that are not proto comments: the diagnostic for a value of a
type it does not handle starts with `ERROR`, and a `CONSTRAINED BY` constraint of an
`INTEGER` type sends its unparsed text to the stream. -/
theorem lowering_writes_non_comment_lines (host : Host) (buf : List Char) :
    asn1printExprProto host {} "m.asn"
        { identifier := some "flag", metaType := .value, exprType := .boolean, value := some .true,
          members := [], specializations := [] } ⟨[], [], []⟩ =
      (-1, ⟨[], [], ["ERROR: unhandled expr->expr_type " ++ toString (host.exprTypeCode .boolean) ++ "\n"]⟩) ∧
    ("ERROR: unhandled expr->expr_type " ++ toString (host.exprTypeCode .boolean) ++ "\n").toList.take 2 =
      ['E', 'R'] ∧
    protoConstraintPrint host {} { type := .ctCtdBy, value := some (.unparsed buf), elements := [] } =
      ("CONSTRAINED BY ", [⟨buf⟩]) ∧
    (asn1printExprProto host {} "m.asn"
        { identifier := some "Even", metaType := .type, exprType := .integer,
          constraints := some { type := .ctCtdBy, value := some (.unparsed buf), elements := [] },
          members := [], specializations := [] } ⟨[], [], []⟩).2.out = [⟨buf⟩] := by
  exact ⟨rfl, rfl, rfl, rfl⟩

end Asn1Proto
