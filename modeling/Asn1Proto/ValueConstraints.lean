import Asn1Proto.ConstraintPrint

namespace Asn1Proto

/-- The lower end of a range: `MIN`, or a number, excluded when the range is open there. -/
def lowerOk (excluded : Bool) (x : Int) : Option Value → Bool
  | some .min => true
  | some (.integer v) => if excluded then decide (v < x) else decide (v ≤ x)
  | _ => false

/-- The upper end of a range: `MAX`, or a number. -/
def upperOk (excluded : Bool) (x : Int) : Option Value → Bool
  | some .max => true
  | some (.integer v) => if excluded then decide (x < v) else decide (x ≤ v)
  | _ => false

mutual
/-- Whether an integer satisfies a constraint: the ASN.1 meaning of single values, the four
kinds of value range, serial application (`SET`) and intersection, and union, with an
extension marker admitting nothing and its additions joining the root. -/
def admits (x : Int) : Constraint → Bool
  | ⟨type, value, rangeStart, rangeStop, _, elements⟩ =>
    match type with
    | .elValue =>
      match value with
      | some (.integer v) => x == v
      | _ => false
    | .elRange => lowerOk false x rangeStart && upperOk false x rangeStop
    | .elLLRange => lowerOk true x rangeStart && upperOk false x rangeStop
    | .elRLRange => lowerOk false x rangeStart && upperOk true x rangeStop
    | .elULRange => lowerOk true x rangeStart && upperOk true x rangeStop
    | .caSet | .caInt => admitsAll x elements
    | .caUni | .caCsv => admitsAny x elements
    | _ => false

def admitsAll (x : Int) : List Constraint → Bool
  | [] => true
  | c :: cs => admits x c && admitsAll x cs

def admitsAny (x : Int) : List Constraint → Bool
  | [] => false
  | c :: cs => admits x c || admitsAny x cs
end

mutual
/-- Whether a string of `n` characters satisfies a constraint built from `SIZE`: the sizes
its `SIZE` admits, under the same set forms. Other constraints are not counted here and
admit no length. -/
def admitsSize (n : Nat) : Constraint → Bool
  | ⟨type, _, _, _, _, elements⟩ =>
    match type, elements with
    | .ctSize, [inner] => admits n inner
    | .caSet, _ | .caInt, _ => admitsSizeAll n elements
    | .caUni, _ | .caCsv, _ => admitsSizeAny n elements
    | _, _ => false

def admitsSizeAll (n : Nat) : List Constraint → Bool
  | [] => true
  | c :: cs => admitsSize n c && admitsSizeAll n cs

def admitsSizeAny (n : Nat) : List Constraint → Bool
  | [] => false
  | c :: cs => admitsSize n c || admitsSizeAny n cs
end

/-- The forms the printer's fragment wraps a constraint in: a `SET` of it alone, and the
constraint followed by an extension marker. -/
inductive Wrapped (P : Constraint → Prop) : Constraint → Prop
  | base {c : Constraint} : P c → Wrapped P c
  | set {c : Constraint} : Wrapped P c → Wrapped P { type := .caSet, elements := [c] }
  | extensible {c ext : Constraint} : ext.type = .elExt → Wrapped P c →
      Wrapped P { type := .caCsv, elements := [c, ext] }

/-- A value range over `int32` literals with its lower end below its upper one, the upper
end a literal or, where it is included, `MAX`; `hi` is `2^31 - 1` for `MAX`. -/
def Int32Range (c : Constraint) : Prop :=
  (c.type = .elRange ∨ c.type = .elLLRange ∨ c.type = .elRLRange ∨ c.type = .elULRange) ∧
    ∃ lo hi, c.rangeStart = some (.integer lo) ∧
      (c.rangeStop = some (.integer hi) ∨
        c.rangeStop = some .max ∧ hi = 2 ^ 31 - 1 ∧ (c.type = .elRange ∨ c.type = .elLLRange)) ∧
      -2 ^ 31 ≤ lo ∧ lo < hi ∧ hi < 2 ^ 31

/-- A single value with no subconstraint. -/
def singleValue (v : Int) : Constraint :=
  { type := .elValue, value := some (.integer v), elements := [] }

/-- The union of the `int32` values `vs`, or the single value when there is one. -/
def IntValues (vs : List Int) (c : Constraint) : Prop :=
  vs ≠ [] ∧ (∀ v ∈ vs, -2 ^ 31 ≤ v ∧ v < 2 ^ 31) ∧
    (c.type = .caUni ∧ c.elements = vs.map singleValue ∨
      ∃ v, vs = [v] ∧ c.type = .elValue ∧ c.value = some (.integer v) ∧ c.elements = [])

/-- A closed range of sizes from `MIN` or a literal up to a literal or `MAX`, or a single size. -/
def SizeRange (c : Constraint) : Prop :=
  (c.type = .elRange ∧ ∃ lo, (c.rangeStart = some .min ∧ lo = 0 ∨ c.rangeStart = some (.integer lo)) ∧
    0 ≤ lo ∧ (c.rangeStop = some .max ∨ ∃ hi, c.rangeStop = some (.integer hi) ∧ lo ≤ hi)) ∨
  (c.type = .elValue ∧ ∃ v, c.value = some (.integer v) ∧ 0 ≤ v)

/-- `SIZE` of a constraint in the fragment `P`. -/
def SizeOf (P : Constraint → Prop) (c : Constraint) : Prop :=
  c.type = .ctSize ∧ ∃ inner, c.elements = [inner] ∧ P inner

theorem protoConstraintPrint_ext (host : Host) (flags : Flags) {ext : Constraint} (marker : ext.type = .elExt) :
    protoConstraintPrint host flags ext = ("", []) := by
  obtain ⟨type, _, _, _, _, _⟩ := ext
  cases marker
  simp [protoConstraintPrint]

theorem admits_ext {ext : Constraint} (marker : ext.type = .elExt) (x : Int) : admits x ext = false := by
  obtain ⟨type, _, _, _, _, _⟩ := ext
  cases marker
  simp [admits]

theorem admitsSize_ext {ext : Constraint} (marker : ext.type = .elExt) (n : Nat) : admitsSize n ext = false := by
  obtain ⟨type, _, _, _, _, _⟩ := ext
  cases marker
  simp [admitsSize]

/-- A wrapped constraint prints, and admits, as the constraint it wraps. -/
theorem Wrapped.reduce {P : Constraint → Prop} {c : Constraint} (wrapped : Wrapped P c) :
    ∃ b, P b ∧ (∀ host flags, (protoConstraintPrint host flags c).1 = (protoConstraintPrint host flags b).1) ∧
      (∀ x, admits x c = admits x b) ∧ (∀ n, admitsSize n c = admitsSize n b) := by
  induction wrapped with
  | base holds => exact ⟨_, holds, fun _ _ => rfl, fun _ => rfl, fun _ => rfl⟩
  | set _ ih =>
    obtain ⟨b, holds, print, sem, size⟩ := ih
    refine ⟨b, holds, fun host flags => ?_, fun x => ?_, fun n => ?_⟩
    · simp [protoConstraintPrint, printElements, caLoop, ← print]
    · simp [admits, admitsAll, sem]
    · simp [admitsSize, admitsSizeAll, size]
  | extensible marker _ ih =>
    obtain ⟨b, holds, print, sem, size⟩ := ih
    refine ⟨b, holds, fun host flags => ?_, fun x => ?_, fun n => ?_⟩
    · simp [protoConstraintPrint, printElements, caLoop, symtable, symno, ← print,
        protoConstraintPrint_ext host flags marker]
    · simp [admits, admitsAny, sem, admits_ext marker]
    · simp [admitsSize, admitsSizeAny, size, admitsSize_ext marker]

end Asn1Proto
