import Asn1Proto.ValuePrint

namespace Asn1Proto

/-- `symtable` of the algebraic cases of `proto_constraint_print`. -/
def symtable : List String :=
  [" EXCEPT ", " ^ ", ",", "", "("]

/-- The index `symno` the fall-through of the algebraic cases counts up to. -/
def symno : ConstraintType → Nat
  | .caSet => 5
  | .caCrc => 4
  | .caCsv => 3
  | .caUni => 2
  | .caInt => 1
  | _ => 0

/-- The loop of the algebraic cases over the rendered elements, from element `i` of `n`.
A read of `symtable` past its five entries is modelled as the empty separator. -/
def caLoop (type : ConstraintType) (n : Nat) : Nat → List String → String
  | _, [] => ""
  | i, add :: rest =>
    (if i ≠ 0 then symtable.getD (symno type) "" else "") ++
      (if type = .caCrc then "\x7b" ++ add ++ "\x7d" else add) ++
      (if type = .caSet ∧ i + 1 < n then "\x7d " else "") ++ caLoop type n (i + 1) rest

/-- The key a range writes before its start: `gte`/`gt`, or `min_len` for strings. -/
def rangeStartKey (flags : Flags) : ConstraintType → String
  | .elLLRange | .elULRange => if flags.stringValue then "min_len: " else "gt: "
  | _ => if flags.stringValue then "min_len: " else "gte: "

/-- The key a range writes before its stop: `lte`/`lt`, or `max_len` for strings. -/
def rangeStopKey (flags : Flags) : ConstraintType → String
  | .elRLRange | .elULRange => if flags.stringValue then "max_len: " else "lt: "
  | _ => if flags.stringValue then "max_len: " else "lte: "

/-- The range cases: the start, then `", "`, the stop key and the stop unless the stop
renders empty. -/
def rangePrint (flags : Flags) (type : ConstraintType) (rangeStart rangeStop : Option Value) :
    String :=
  rangeStartKey flags type ++ protoValuePrint flags rangeStart ++
    (if protoValuePrint flags rangeStop = "" then ""
     else ", " ++ rangeStopKey flags type ++ protoValuePrint flags rangeStop)

/-- `elements[0]` rendered; the assertion that it exists is not modelled. -/
def firstElement : List (String × List String) → String × List String
  | [] => ("", [])
  | first :: _ => first

/-- The `perhaps_subconstraints` tail: a space and the first element, when there is one. -/
def subconstraint : List (String × List String) → String × List String
  | [] => ("", [])
  | first :: _ => (" " ++ first.1, first.2)

/-- What the `CONSTRAINED BY`, `CONTAINING` and `PATTERN` cases write straight to the
output stream: the unparsed text, the type, and the value as the ASN.1 printer gives it. -/
def directWrite (host : Host) (type : ConstraintType) (value : Option Value) : List String :=
  match type, value with
  | .ctCtdBy, some (.unparsed buf) => [⟨buf⟩]
  | .ctCtng, some (.type asn1Text) => [asn1Text]
  | .ctPattern, some v => [host.printValue v]
  | _, _ => []

mutual
/-- `proto_constraint_print`: the string it returns and, in order, what it writes to the
output stream. The cases whose assertion fails return the empty string here. -/
def protoConstraintPrint (host : Host) (flags : Flags) : Constraint → String × List String
  | ⟨type, value, rangeStart, rangeStop, containedSubtype, elements⟩ =>
    let children := printElements host flags elements
    let sub := subconstraint children
    match type with
    | .elType => (protoValuePrint flags containedSubtype ++ sub.1, sub.2)
    | .elValue =>
      if flags.stringValue then
        ("min_len: " ++ protoValuePrint flags value ++ ", max_len: " ++ protoValuePrint flags value, [])
      else (protoValuePrint flags value ++ sub.1, sub.2)
    | .elRange | .elLLRange | .elRLRange | .elULRange =>
      (rangePrint flags type rangeStart rangeStop, [])
    | .elExt => ("", [])
    | .ctSize => firstElement children
    | .ctFrom => ("FROM" ++ (firstElement children).1, (firstElement children).2)
    | .ctWComp => ("WITH COMPONENT" ++ sub.1, sub.2)
    | .ctWComps =>
      ("WITH COMPONENTS \x7b " ++ ", ".intercalate (children.map Prod.fst) ++ " \x7d",
        (children.map Prod.snd).flatten)
    | .ctCtdBy => ("CONSTRAINED BY ", directWrite host type value)
    | .ctCtng => ("CONTAINING ", directWrite host type value)
    | .ctPattern => ("PATTERN ", directWrite host type value)
    | .caSet | .caCrc | .caCsv | .caUni | .caInt | .caExc =>
      (caLoop type children.length 0 (children.map Prod.fst), (children.map Prod.snd).flatten)
    | .caAex => ("ALL EXCEPT" ++ sub.1, sub.2)
    | .invalid => ("", [])

def printElements (host : Host) (flags : Flags) : List Constraint → List (String × List String)
  | [] => []
  | c :: cs => protoConstraintPrint host flags c :: printElements host flags cs
end

end Asn1Proto
