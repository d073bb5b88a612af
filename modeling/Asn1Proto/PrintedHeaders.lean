import Asn1Proto.PrintedModule
import Asn1Proto.LowerSpec

namespace Asn1Proto

/-- The characters of a source file name that the package keeps as identifier characters:
letters, digits and `_`, and the `-` and `.` that `toSnakeCaseDup` turns into `_`. -/
def IsPackageChar (c : Char) : Bool :=
  c.isAlphanum || c == '_' || c == '-' || c == '.'

theorem snakeChar_lower_chars (first lastChanged : Bool) (c : Char) :
    (∀ d ∈ (snakeChar .lower first lastChanged c).1, (d.isAlphanum || d == '_') = true) ↔
      first = true ∧ c = '&' ∨ IsPackageChar c = true := by
  unfold snakeChar
  by_cases amp : first = true ∧ c = '&'
  · rw [if_pos amp]
    exact iff_of_true (fun _ none => absurd none (List.not_mem_nil _)) (.inl amp)
  rw [if_neg amp, or_iff_right amp]
  by_cases upper : c.isUpper = true
  · have alnum := isAlphanum_of_isAlpha (isAlpha_of_isUpper upper)
    have lowered := isAlphanum_toLower alnum
    refine iff_of_true ?_ (by rw [IsPackageChar, alnum]; rfl)
    simp only [upper, true_and, and_true, reduceCtorEq, false_and, ↓reduceIte]
    split <;> simp [lowered]
  · simp only [upper, and_false, false_and, if_false]
    by_cases dash : c = '-' ∨ c = '.'
    · rw [if_pos dash]
      refine iff_of_true (by simp) ?_
      rcases dash with rfl | rfl <;> rfl
    · rw [if_neg dash]
      simp [IsPackageChar, not_or.1 dash]

theorem snakeLoop_lower_chars (lastChanged : Bool) (s : List Char) :
    (∀ d ∈ snakeLoop .lower false lastChanged s, (d.isAlphanum || d == '_') = true) ↔
      ∀ c ∈ s, IsPackageChar c = true := by
  induction s generalizing lastChanged with
  | nil => exact iff_of_true (fun _ none => absurd none (List.not_mem_nil _)) fun _ none => absurd none (List.not_mem_nil _)
  | cons c s ih =>
    rw [snakeLoop_cons, List.forall_mem_append, snakeChar_lower_chars, ih, List.forall_mem_cons]
    simp only [Bool.false_eq_true, false_and, false_or]

/-- The lower snake case of a name has only identifier characters exactly when the name has
only package characters, after a possible leading `&`, which the rewrite drops. -/
theorem toSnakeCaseDup_lower_chars (s : String) :
    (∀ d ∈ (toSnakeCaseDup s .lower).toList, (d.isAlphanum || d == '_') = true) ↔
      (∀ c ∈ s.toList, IsPackageChar c = true) ∨
        ∃ rest, s.toList = '&' :: rest ∧ ∀ c ∈ rest, IsPackageChar c = true := by
  obtain ⟨_ | ⟨c, rest⟩⟩ := s
  · exact iff_of_true (fun _ none => absurd none (List.not_mem_nil _)) (.inl fun _ none => absurd none (List.not_mem_nil _))
  show (∀ d ∈ snakeLoop .lower true false (c :: rest), _) ↔ (∀ e ∈ c :: rest, _) ∨ ∃ r, c :: rest = '&' :: r ∧ _
  rw [snakeLoop_cons, List.forall_mem_append, snakeChar_lower_chars, snakeLoop_lower_chars,
    List.forall_mem_cons]
  constructor
  · rintro ⟨⟨-, amp⟩ | good, later⟩
    · exact .inr ⟨rest, by rw [amp], later⟩
    · exact .inl ⟨good, later⟩
  · rintro (⟨good, later⟩ | ⟨r, same, later⟩)
    · exact ⟨.inr good, later⟩
    · obtain ⟨rfl, rfl⟩ := List.cons_eq_cons.1 same
      exact ⟨.inl ⟨rfl, rfl⟩, later⟩

/-- The package `proto_print_msg` prints, `<name>.v1`, is a proto3 package, its first component
an identifier, exactly when every character of the source file name is a letter, a digit,
`_`, `-` or `.`, the first one possibly `&`: any other character, the `/` of a directory in
particular, is copied into the package. -/
theorem packageName_isProtoIdent_iff (m : ProtoModule) :
    isProtoIdent (packageName m) = true ↔
      (∀ c ∈ m.srcfilename.toList, IsPackageChar c = true) ∨
        ∃ rest, m.srcfilename.toList = '&' :: rest ∧ ∀ c ∈ rest, IsPackageChar c = true := by
  rw [← toSnakeCaseDup_lower_chars]
  have kept : protoRemoveRelPath (toSnakeCaseDup m.srcfilename .lower).toList =
      (toSnakeCaseDup m.srcfilename .lower).toList :=
    protoRemoveRelPath_of_dot_not_mem (dot_not_mem_snakeLoop .lower true false m.srcfilename.toList)
  unfold packageName
  dsimp only
  rw [kept]
  generalize toSnakeCaseDup m.srcfilename .lower = snake
  obtain ⟨chars⟩ := snake
  split
  · show ('p'.isAlpha && ('k' :: 'g' :: chars).all fun d => d.isAlphanum || d == '_') = true ↔ _
    rw [Bool.and_eq_true, List.all_eq_true, List.forall_mem_cons, List.forall_mem_cons]
    exact ⟨fun ⟨_, _, _, later⟩ => later, fun later => ⟨by decide, by decide, by decide, later⟩⟩
  · next startsLower =>
    cases chars with
    | nil => exact absurd rfl startsLower
    | cons c rest =>
      have alpha : c.isAlpha = true := by
        rw [Char.isAlpha, show c.isLower = true by simpa [startNotLcLetter] using startsLower, Bool.or_true]
      show (c.isAlpha && rest.all fun d => d.isAlphanum || d == '_') = true ↔ ∀ d ∈ c :: rest, _
      rw [Bool.and_eq_true, List.all_eq_true, List.forall_mem_cons, isAlphanum_of_isAlpha alpha, Bool.true_or]
      exact ⟨fun ⟨_, later⟩ => ⟨rfl, later⟩, fun ⟨_, later⟩ => ⟨alpha, later⟩⟩

example : isProtoIdent (packageName ⟨"", "specs/shapes.asn1", none, [], [], [], ""⟩) = false := by
  decide

section Parameters

theorem strtokLines_append_newline (current s t : List Char) :
    strtokLines current (s ++ '\n' :: t) = strtokLines current s ++ strtokLines [] t := by
  induction s generalizing current with
  | nil => by_cases empty : current = [] <;> simp [strtokLines, empty]
  | cons c s ih =>
    by_cases newline : c = '\n' <;> by_cases empty : current = [] <;> simp [strtokLines, newline, empty, ih]

theorem strtokLines_of_newline_not_mem {current s : List Char} (noNewline : '\n' ∉ s)
    (nonempty : current ++ s ≠ []) : strtokLines current s = [current ++ s] := by
  induction s generalizing current with
  | nil => rw [strtokLines, if_neg (by simpa using nonempty), List.append_nil]
  | cons c s ih =>
    rw [strtokLines, if_neg fun (same : c = '\n') => noNewline (same ▸ List.mem_cons_self _ _),
      ih (fun inner => noNewline (List.mem_cons_of_mem _ inner)) (by simp), List.append_assoc, List.singleton_append]

theorem protoExtractParams_fst_comments (msg : ProtoMsg) (params : List Param) :
    (protoExtractParams msg params).1.comments = msg.comments := by
  induction params generalizing msg with
  | nil => rfl
  | cons p rest ih => exact ih (protoMsgAddParam msg ⟨protoParamType p, p.argument⟩)

/-- Each `"\nParam %s:%s"` piece `proto_extract_params` appends is a token of its own for
`strtok`: the newline that starts it ends whatever came before. -/
theorem strtokLines_paramComments (c : List Char) {params : List Param}
    (oneLine : ∀ p ∈ params, '\n' ∉ p.governor.toList ∧ '\n' ∉ p.argument.toList) :
    strtokLines [] (c ++ (String.join (params.map fun p => "\nParam " ++ p.governor ++ ":" ++ p.argument)).toList) =
      strtokLines [] c ++ params.map fun p => ("Param " ++ p.governor ++ ":" ++ p.argument).toList := by
  induction params generalizing c with
  | nil => simp
  | cons p ps ih =>
    obtain ⟨governor, argument⟩ := List.forall_mem_cons.1 oneLine
    have line : '\n' ∉ ("Param " ++ p.governor ++ ":" ++ p.argument).toList := by
      simp only [toList_append, List.mem_append, not_or]
      exact ⟨⟨⟨by decide, governor.1⟩, by decide⟩, governor.2⟩
    calc strtokLines [] (c ++ (String.join ((p :: ps).map fun p => "\nParam " ++ p.governor ++ ":" ++ p.argument)).toList)
        = strtokLines [] ((c ++ '\n' :: ("Param " ++ p.governor ++ ":" ++ p.argument).toList) ++
            (String.join (ps.map fun p => "\nParam " ++ p.governor ++ ":" ++ p.argument)).toList) := by
          rw [join_map_toList, List.map_cons, List.flatten_cons, ← join_map_toList, List.append_assoc]
          rfl
      _ = strtokLines [] c ++ (p :: ps).map fun p => ("Param " ++ p.governor ++ ":" ++ p.argument).toList := by
          rw [ih _ argument, strtokLines_append_newline, strtokLines_of_newline_not_mem line (by simp),
            List.nil_append, List.map_cons, List.append_assoc, List.singleton_append]

theorem string_join_append (l₁ l₂ : List String) : String.join (l₁ ++ l₂) = String.join l₁ ++ String.join l₂ := by
  simp only [String.join_eq, List.map_append, List.flatten_append]
  rfl

/-- The comments of a message lowered from a parameterized type are printed as its own
comment lines, then one `// Param <governor>:<argument>` line for each parameter, in order. -/
theorem protoPrintComments_withParams (msg : ProtoMsg) {expr : Expr} {params : List Param}
    (parameterized : expr.lhsParams = some params)
    (oneLine : ∀ p ∈ params, '\n' ∉ p.governor.toList ∧ '\n' ∉ p.argument.toList) :
    protoPrintComments (withParams msg expr).comments =
      protoPrintComments msg.comments ++
        String.join (params.map fun p => "// Param " ++ p.governor ++ ":" ++ p.argument ++ "\n") := by
  unfold withParams protoPrintComments
  rw [parameterized]
  show String.join ((strtokLines [] ((protoExtractParams msg params).1.comments ++ (protoExtractParams msg params).2).toList).map _) = _
  rw [protoExtractParams_fst_comments, toList_append, protoExtractParams, strtokLines_paramComments _ oneLine,
    List.map_append, List.map_map, string_join_append]
  rfl

/-- `BoundedList {Element, INTEGER:ub} ::= SEQUENCE OF Element`. -/
def boundedList : Expr :=
  { identifier := some "BoundedList", metaType := .type, exprType := .sequenceOf, members := [],
    specializations := [], lhsParams := some [⟨"", "Element"⟩, ⟨"INTEGER", "ub"⟩] }

theorem bounded_list_param_comments :
    boundedList.lhsParams = some [⟨"", "Element"⟩, ⟨"INTEGER", "ub"⟩] ∧
      (∀ p ∈ [(⟨"", "Element"⟩ : Param), ⟨"INTEGER", "ub"⟩], '\n' ∉ p.governor.toList ∧ '\n' ∉ p.argument.toList) ∧
      protoPrintComments (withParams (protoCreateMessage "BoundedList" (-1) 0 (provenance "sequence" "lists.asn" 3))
          boundedList).comments =
        protoPrintComments (provenance "sequence" "lists.asn" 3) ++
          String.join ([(⟨"", "Element"⟩ : Param), ⟨"INTEGER", "ub"⟩].map fun p =>
            "// Param " ++ p.governor ++ ":" ++ p.argument ++ "\n") :=
  ⟨rfl, by decide, protoPrintComments_withParams _ rfl (by decide)⟩

end Parameters

end Asn1Proto
