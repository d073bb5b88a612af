import Asn1Proto.ConstraintPrint

namespace Asn1Proto

/-- The cases of `proto_constraint_print` that fall through to the `symtable` loop. -/
def isAlgebraic : ConstraintType → Bool
  | .caSet | .caCrc | .caCsv | .caUni | .caInt | .caExc => true
  | _ => false

mutual
/-- The nodes `proto_constraint_print` renders for a constraint, each as its type and its
number of elements, in the order of the calls: the node, then the elements its case
recurses into (the first one where the case renders one subconstraint, every one for
`WITH COMPONENTS` and the algebraic cases). -/
def renderedNodes (flags : Flags) : Constraint → List (ConstraintType × Nat)
  | ⟨type, _, _, _, _, elements⟩ =>
    (type, elements.length) ::
      match type with
      | .elType | .ctSize | .ctFrom | .ctWComp | .caAex => renderedFirst flags elements
      | .elValue => if flags.stringValue then [] else renderedFirst flags elements
      | .ctWComps | .caSet | .caCrc | .caCsv | .caUni | .caInt | .caExc => renderedAll flags elements
      | _ => []

def renderedFirst (flags : Flags) : List Constraint → List (ConstraintType × Nat)
  | [] => []
  | c :: _ => renderedNodes flags c

def renderedAll (flags : Flags) : List Constraint → List (ConstraintType × Nat)
  | [] => []
  | c :: cs => renderedNodes flags c ++ renderedAll flags cs
end

/-- The `symtable` entries one rendered node reads: entry `symno` before every element but
the first, in the algebraic cases. -/
def symtableReads (node : ConstraintType × Nat) : List Nat :=
  if isAlgebraic node.1 then List.replicate (node.2 - 1) (symno node.1) else []

theorem symno_lt_iff (type : ConstraintType) : symno type < symtable.length ↔ type ≠ .caSet := by
  cases type <;> decide

theorem symtableReads_in_range_iff (node : ConstraintType × Nat) :
    (∀ k ∈ symtableReads node, k < symtable.length) ↔ (node.1 = .caSet → node.2 < 2) := by
  obtain ⟨type, n⟩ := node
  by_cases algebraic : isAlgebraic type
  · simp only [symtableReads, if_pos algebraic, List.mem_replicate]
    constructor
    · intro inRange set
      refine Nat.lt_of_not_le fun many => ?_
      exact (symno_lt_iff type).1 (inRange _ ⟨by omega, rfl⟩) set
    · rintro few k ⟨_, rfl⟩
      exact (symno_lt_iff type).2 fun set => by have := few set; omega
  · have notSet : type ≠ .caSet := by
      rintro rfl
      exact algebraic rfl
    simp only [symtableReads, if_neg algebraic, List.not_mem_nil, false_implies, implies_true,
      notSet, true_iff]

/-- Every `symtable` read of a rendering lands inside the table's five entries exactly when
no node the rendering reaches is a `SET` of two or more elements: the fall-through of the
algebraic cases gives `SET` the index 5. -/
theorem symtable_reads_in_range_iff (flags : Flags) (c : Constraint) :
    (∀ node ∈ renderedNodes flags c, ∀ k ∈ symtableReads node, k < symtable.length) ↔
      ∀ node ∈ renderedNodes flags c, node.1 = .caSet → node.2 < 2 :=
  forall₂_congr fun node _ => symtableReads_in_range_iff node

theorem printElements_eq_map (host : Host) (flags : Flags) (cs : List Constraint) :
    printElements host flags cs = cs.map (protoConstraintPrint host flags) := by
  induction cs with
  | nil => rfl
  | cons c cs ih => rw [printElements, ih, List.map_cons]

theorem caLoop_length_ge (type : ConstraintType) (n : Nat) (i : Nat) (adds : List String) :
    (adds.map String.length).sum ≤ (caLoop type n i adds).length := by
  induction adds generalizing i with
  | nil => simp only [List.map_nil, List.sum_nil, Nat.zero_le]
  | cons add adds ih =>
    have wrapped : add.length ≤ (if type = .caCrc then "\x7b" ++ add ++ "\x7d" else add).length := by
      split
      · simp only [String.length_append]
        omega
      · exact Nat.le_refl _
    have rest := ih (i + 1)
    simp only [caLoop, String.length_append, List.map_cons, List.sum_cons]
    omega

/-- A constraint of one contained subtype, a reference to `x`: it renders as `x`. -/
def referenceX : Constraint :=
  ⟨.elType, none, none, none, some (.referenced ["x"]), []⟩

/-- The results of `proto_value_print` and `proto_constraint_print` have no bound: for every
size there is a value whose rendering is longer, and a union of constraints that each
render as one character whose rendering is longer. The C code `strcat`s them into fixed
blocks of 256 and 1024 bytes. -/
theorem renderings_outgrow_buffers (host : Host) (flags : Flags) (size : Nat) :
    (∃ v, size < (protoValuePrint flags (some v)).length) ∧
      ∃ c : Constraint, (∀ e ∈ printElements host flags c.elements, e.1.length = 1) ∧
        size < (protoConstraintPrint host flags c).1.length := by
  refine ⟨⟨.referenced [⟨List.replicate (size + 1) 'x'⟩], ?_⟩,
    ⟨⟨.caUni, none, none, none, none, List.replicate (size + 1) referenceX⟩, ?_, ?_⟩⟩
  · show size < (List.replicate (size + 1) 'x').length
    rw [List.length_replicate]
    omega
  · intro e member
    rw [printElements_eq_map, List.map_replicate, List.mem_replicate] at member
    rw [member.2]
    rfl
  · have loop := caLoop_length_ge .caUni (size + 1) 0 (List.replicate (size + 1) "x")
    have count : (size + 1) • "x".length = (size + 1) * 1 := rfl
    have rendered : (protoConstraintPrint host flags referenceX).1 = "x" := rfl
    rw [List.map_replicate, List.sum_replicate, count] at loop
    show size < (caLoop .caUni (printElements host flags (List.replicate (size + 1) referenceX)).length 0
      ((printElements host flags (List.replicate (size + 1) referenceX)).map Prod.fst)).length
    rw [printElements_eq_map, List.map_replicate, List.map_replicate, List.length_replicate, rendered]
    omega

end Asn1Proto
