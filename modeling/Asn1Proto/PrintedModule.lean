import Asn1Proto.PrintedFile

namespace Asn1Proto

theorem eq_of_toLower_eq {c d : Char} (same : c.toLower = d) (notLetter : d.isAlpha = false) : c = d := by
  by_cases upper : c.isUpper = true
  · rw [← same, Char.isAlpha, isLower_toLower (isAlpha_of_isUpper upper), Bool.or_true] at notLetter
    cases notLetter
  · rwa [toLower_of_not_isUpper (Bool.eq_false_iff.2 upper)] at same

section Absent

variable {d : Char} (notLetter : d.isAlpha = false)
include notLetter

/-- `toLowercaseDup` writes no character other than a letter that its argument lacks. -/
theorem not_mem_toLowercaseDup {s : String} (absent : d ∉ s.toList) : d ∉ (toLowercaseDup s).toList :=
  fun member => by
    obtain ⟨c, mem, same⟩ := List.mem_map.1 member
    exact absent (eq_of_toLower_eq same notLetter ▸ mem)

/-- Nor does `toSnakeCaseDup`, but for the underscores it inserts. -/
theorem not_mem_toSnakeCaseDup (notUnderscore : d ≠ '_') (tocase : SnakeCase) {s : String}
    (absent : d ∉ s.toList) : d ∉ (toSnakeCaseDup s tocase).toList := fun member =>
  snakeLoop_chars (fun c => c ≠ d) (fun other same => other (eq_of_toUpper_eq same notLetter))
    (fun other same => other (eq_of_toLower_eq same notLetter)) (Ne.symm notUnderscore) tocase true false
    s.toList (fun _ mem same => absent (same ▸ mem)) d member rfl

end Absent

theorem protoRemoveRelPath_suffix (s : List Char) : protoRemoveRelPath s <:+ s := by
  induction s using protoRemoveRelPath.induct with
  | case1 rest ih =>
    rw [protoRemoveRelPath]
    exact ih.trans ((List.suffix_cons _ _).trans (List.suffix_cons _ _))
  | case2 rest ih =>
    rw [protoRemoveRelPath]
    exact ih.trans ((List.suffix_cons _ _).trans ((List.suffix_cons _ _).trans (List.suffix_cons _ _)))
  | case3 s notCurrent notParent =>
    unfold protoRemoveRelPath
    split
    · next rest => exact absurd rfl (notCurrent rest)
    · next rest => exact absurd rfl (notParent rest)
    · exact List.suffix_refl s

theorem mem_lastSlashSuffix {s : List Char} {c : Char} (member : c ∈ lastSlashSuffix s) : c = '/' ∨ c ∈ s := by
  unfold lastSlashSuffix at member
  split at member
  · next after slash before split =>
    rcases List.mem_cons.1 member with same | later
    · exact .inl same
    · rw [List.span_eq_take_drop, Prod.mk.injEq] at split
      rw [List.mem_reverse, ← split.1] at later
      exact .inr (List.mem_reverse.1 (List.takeWhile_subset _ later))
  · exact .inr member

/-- Every arc name of an OID stays on its line. -/
def Oid.OneLine (oid : Oid) : Prop :=
  ∀ arc ∈ oid.arcs, '\n' ∉ (arc.1.getD "").toList

instance Oid.decidableOneLine (oid : Oid) : Decidable oid.OneLine :=
  inferInstanceAs (Decidable (∀ arc ∈ oid.arcs, '\n' ∉ (arc.1.getD "").toList))

theorem protoPrintOid_oneLine {oid : Oid} (oneLine : oid.OneLine) : '\n' ∉ (protoPrintOid oid).toList := by
  rw [protoPrintOid, toList_append, toList_append, join_map_toList]
  refine List.not_mem_append (List.not_mem_append (by decide) fun member => ?_) (by decide)
  obtain ⟨_, text, newline⟩ := List.mem_flatten.1 member
  obtain ⟨⟨name, number⟩, arc, rfl⟩ := List.mem_map.1 text
  have digits := newline_not_mem_toString_int number
  have blank : '\n' ≠ ' ' := by decide
  cases name with
  | none => exact List.not_mem_cons_of_ne_of_not_mem blank digits newline
  | some name =>
    have nameLine : '\n' ∉ name.toList := oneLine _ arc
    have tail : '\n' ∉ (if 0 ≤ number then "(" ++ asn1pItoa number ++ ")" else "").toList := by
      split
      · exact List.not_mem_append (List.not_mem_append (by decide) digits) (by decide)
      · exact List.not_mem_nil _
    exact List.not_mem_cons_of_ne_of_not_mem blank (List.not_mem_append nameLine tail) newline

/-- What the printer needs of a field for its line to read back: its type and name are ASN.1
identifiers, its rule and comment stay on the line, and its comment has no `]`. -/
@[mk_iff] structure ProtoMsgDef.Printable (d : ProtoMsgDef) : Prop where
  type : isAsn1Identifier d.type = true
  name : isAsn1Identifier d.name = true
  rules : '\n' ∉ d.rules.toList
  comments : '\n' ∉ d.comments.toList
  noBracket : ']' ∉ d.comments.toList

@[mk_iff] structure ProtoOneof.Printable (o : ProtoOneof) : Prop where
  name : isAsn1Identifier o.name = true
  entry : ∀ d ∈ o.entry, d.Printable

@[mk_iff] structure ProtoMsg.Printable (msg : ProtoMsg) : Prop where
  name : isAsn1Identifier msg.name = true
  entry : ∀ d ∈ msg.entry, d.Printable
  oneof : ∀ o ∈ msg.oneof, o.Printable

@[mk_iff] structure ProtoEnum.Printable (e : ProtoEnum) : Prop where
  name : isAsn1Identifier e.name = true
  defs : ∀ d ∈ e.defs, isAsn1Identifier d.name = true

@[mk_iff] structure ProtoImport.Printable (i : ProtoImport) : Prop where
  path : '\n' ∉ i.path.toList
  noQuote : '"' ∉ i.path.toList
  oid : ∀ oid ∈ i.oid, oid.OneLine

/-- What `proto_print_msg` needs of a module for its file to read back: the printable parts
above, and a module name, source file name, version and OIDs that stay on their lines, with no
quote in the source file name, which the package and the import paths are made of. -/
@[mk_iff] structure ProtoModule.Printable (host : Host) (m : ProtoModule) : Prop where
  modulename : '\n' ∉ m.modulename.toList
  srcfilename : '\n' ∉ m.srcfilename.toList
  srcNoQuote : '"' ∉ m.srcfilename.toList
  version : '\n' ∉ host.version.toList
  oid : ∀ oid ∈ m.oid, oid.OneLine
  imports : ∀ i ∈ m.imports, i.Printable
  protoenum : ∀ e ∈ m.protoenum, e.Printable
  message : ∀ msg ∈ m.message, msg.Printable

instance ProtoMsgDef.decidablePrintable (d : ProtoMsgDef) : Decidable d.Printable :=
  decidable_of_iff _ (ProtoMsgDef.printable_iff d).symm

instance ProtoOneof.decidablePrintable (o : ProtoOneof) : Decidable o.Printable :=
  decidable_of_iff _ (ProtoOneof.printable_iff o).symm

instance ProtoMsg.decidablePrintable (msg : ProtoMsg) : Decidable msg.Printable :=
  decidable_of_iff _ (ProtoMsg.printable_iff msg).symm

instance ProtoEnum.decidablePrintable (e : ProtoEnum) : Decidable e.Printable :=
  decidable_of_iff _ (ProtoEnum.printable_iff e).symm

instance ProtoImport.decidablePrintable (i : ProtoImport) : Decidable i.Printable :=
  decidable_of_iff _ (ProtoImport.printable_iff i).symm

instance ProtoModule.decidablePrintable (host : Host) (m : ProtoModule) : Decidable (m.Printable host) :=
  decidable_of_iff _ (ProtoModule.printable_iff host m).symm

theorem printEntriesFrom_readable (host : Host) {entry : List ProtoMsgDef} (printable : ∀ d ∈ entry, d.Printable)
    (i : Nat) : ∀ l ∈ printEntriesFrom host i entry, l.Readable := by
  induction entry generalizing i with
  | nil => exact fun _ none => absurd none (List.not_mem_nil _)
  | cons d rest ih =>
    obtain ⟨here, later⟩ := List.forall_mem_cons.1 printable
    exact List.forall_mem_cons.2 ⟨⟨printedType_word host here.type, (identifier_words here.name).2.1,
      here.rules, here.comments, here.noBracket⟩, ih later (i + 1)⟩

theorem protoPrintSingleOneof_readable (host : Host) {o : ProtoOneof} (printable : o.Printable) :
    (protoPrintSingleOneof host o).Readable :=
  ⟨(identifier_words printable.name).2.1, printEntriesFrom_readable host printable.entry 0⟩

theorem protoPrintSingleMsg_readable (host : Host) {msg : ProtoMsg} (printable : msg.Printable) :
    (protoPrintSingleMsg host msg).Readable := by
  refine ⟨(identifier_words printable.name).1, printEntriesFrom_readable host printable.entry 0, fun b member => ?_⟩
  obtain ⟨o, listed, rfl⟩ := List.mem_map.1 member
  exact protoPrintSingleOneof_readable host (printable.oneof o listed)

theorem IsWord.append {a b : List Char} (word : IsWord a) (chars : ∀ c ∈ b, isNameChar c = true) :
    IsWord (a ++ b) :=
  ⟨fun empty => word.1 (List.append_eq_nil.1 empty).1,
    fun c member => (List.mem_append.1 member).elim (word.2 c) (chars c)⟩

theorem enumLinesFrom_words {enumNameUc : String} (word : IsWord enumNameUc.toList) {defs : List ProtoEnumDef}
    (idents : ∀ d ∈ defs, isAsn1Identifier d.name = true) (index : Int) :
    ∀ l ∈ enumLinesFrom enumNameUc index defs, IsWord l.name.toList := by
  induction defs generalizing index with
  | nil => exact fun _ none => absurd none (List.not_mem_nil _)
  | cons d rest ih =>
    obtain ⟨here, later⟩ := List.forall_mem_cons.1 idents
    have name : IsWord (enumNameUc ++ "_" ++ toSnakeCaseDup d.name .upper).toList :=
      (word.append (show ∀ c ∈ "_".toList, isNameChar c = true by decide)).append (identifier_words here).2.2.2
    unfold enumLinesFrom
    split_ifs
    · exact List.forall_mem_cons.2 ⟨name, ih later _⟩
    · exact List.forall_mem_cons.2 ⟨name, ih later _⟩

theorem protoPrintSingleEnum_readable {e : ProtoEnum} (printable : e.Printable) :
    (protoPrintSingleEnum e).Readable := by
  have upper := (identifier_words printable.name).2.2
  refine ⟨(identifier_words printable.name).1, fun l member => ?_⟩
  rcases List.mem_append.1 member with auto | listed
  · split at auto
    · exact absurd auto (List.not_mem_nil _)
    · rw [List.mem_singleton.1 auto]
      exact upper.append (by decide)
  · exact enumLinesFrom_words upper printable.defs 0 l listed

/-- The package of the printed file: the source file's name in lower snake case, its leading
relative path dropped, behind `pkg` unless it starts with a lower-case letter. -/
def packageName (m : ProtoModule) : String :=
  let srcNoRelPath : String := ⟨protoRemoveRelPath (toSnakeCaseDup m.srcfilename .lower).toList⟩
  if startNotLcLetter srcNoRelPath then "pkg" ++ srcNoRelPath else srcNoRelPath

/-- The path of an import as the reader takes it back. -/
def importPath (m : ProtoModule) (i : ProtoImport) : String :=
  packageName m ++ "/v1/" ++ toLowercaseDup i.path ++ ".proto"

/-- The import line `proto_print_msg` writes for an import of the module. -/
def importLine (m : ProtoModule) (i : ProtoImport) : String :=
  "import \"" ++ packageName m ++ "/v1/" ++ toLowercaseDup i.path ++ ".proto\";" ++
    (match i.oid with | some oid => " //" ++ protoPrintOid oid | none => "") ++ "\n"

/-- The comment lines `proto_print_msg` writes after the module's comment, as a reader keeps
them: the file banner, the provenance line and the module line. -/
def bannerLines (host : Host) (m : ProtoModule) : List String :=
  ["//////////////////// " ++ toLowercaseDup m.modulename ++ ".proto //////////////////////",
    "Protobuf generated" ++
      (if m.srcfilename ≠ "" ∧ '/' ∈ m.srcfilename.toList then
        " from " ++ ⟨lastSlashSuffix m.srcfilename.toList⟩ ++ " "
       else " from /" ++ m.srcfilename ++ " ") ++ "by asn1c-" ++ host.version,
    m.modulename ++ (match m.oid with | some oid => protoPrintOid oid | none => "")]

/-- The file a reader takes back from the text `proto_print_msg` writes for a module. -/
def printedFile (host : Host) (m : ProtoModule) : ProtoFile :=
  { header := commentLines m.comments ++ bannerLines host m,
    package := packageName m ++ ".v1",
    imports := m.imports.map (fun i => (importPath m i, i.oid.map protoPrintOid)) ++
      [("validate/v1/validate.proto", none)],
    decls := m.protoenum.map (fun e => .enum (protoPrintSingleEnum e).decl) ++
      m.message.map fun msg => .message (protoPrintSingleMsg host msg).decl }

theorem protoPrintMsg_toList (host : Host) (flags : Flags) (level : Nat) (m : ProtoModule) :
    (protoPrintMsg host flags level m).toList = (protoPrintComments m.comments).toList ++
      ('/' :: '/' :: ((bannerLines host m).getD 0 "").toList ++ ['\n'] ++
      ('/' :: '/' :: ' ' :: ((bannerLines host m).getD 1 "").toList ++ ['\n'] ++
      ('/' :: '/' :: ' ' :: ((bannerLines host m).getD 2 "").toList ++ ['\n'] ++
      (['\n'] ++ ("syntax = \"proto3\";".toList ++ ['\n'] ++ (['\n'] ++
      (("package " ++ packageName m ++ ".v1;").toList ++ ['\n'] ++ (['\n'] ++
      ((String.join (m.imports.map (importLine m))).toList ++
      ("import \"validate/v1/validate.proto\";".toList ++ ['\n'] ++ (['\n'] ++
      ((String.join (m.protoenum.map fun e => (protoPrintSingleEnum e).text flags level)).toList ++
      (String.join (m.message.map fun msg => (protoPrintSingleMsg host msg).text flags level)).toList)))))))))))) := by
  simp only [protoPrintMsg, bannerLines, importLine, packageName, List.getD_cons_zero, List.getD_cons_succ,
    toList_append, List.append_assoc, List.cons_append]
  rfl

/-- A comment line is kept, less its `//`, for the next declaration. -/
theorem Reads.comment {r : Reader} {text : List Char} (noNewline : '\n' ∉ text) :
    Reads ('/' :: '/' :: text ++ ['\n']) r { r with pending := r.pending ++ [commentText text] } :=
  Reads.line (by simpa using noNewline) rfl

theorem Reads.syntaxLine (f : ProtoFile) (pending : List String) :
    Reads ("syntax = \"proto3\";".toList ++ ['\n']) ⟨f, pending, .top⟩ ⟨{ f with header := pending }, [], .top⟩ :=
  Reads.line (by decide) rfl

theorem readTop_package (r : Reader) (p : String) :
    readTop r ("package " ++ p ++ ".v1;").toList = some { r with file := { r.file with package := p ++ ".v1" } } := by
  have notSyntax : ("package " ++ p ++ ".v1;").toList ≠ "syntax = \"proto3\";".toList :=
    cons_ne_of_head_ne (by decide)
  have text : ("package " ++ p ++ ".v1;").toList = "package ".toList ++ ((p ++ ".v1").toList ++ [';']) := by
    simp only [String.toList, String.data_append, List.append_assoc]
    rfl
  have package : readPackage ("package " ++ p ++ ".v1;").toList = some (p ++ ".v1") := by
    rw [readPackage, text, afterPrefix_append, Option.some_bind, beforeSuffix_append]
    rfl
  simp only [readTop, if_neg notSyntax, package]

/-- What follows the `;` of an import line: ` //` and the comment, if there is one. -/
def commentTail : Option String → List Char
  | some comment => " //".toList ++ comment.toList
  | none => []

theorem readImport_line {path : String} (noQuote : '"' ∉ path.toList) (comment : Option String) :
    readImport ("import \"".toList ++ (path.toList ++ '"' :: ';' :: commentTail comment)) =
      some (path, comment) := by
  rw [readImport, afterPrefix_append]
  simp only [span_append_cons noQuote]
  cases comment <;> rfl

theorem importLine_toList (m : ProtoModule) (i : ProtoImport) :
    (importLine m i).toList = "import \"".toList ++ ((importPath m i).toList ++ '"' :: ';' ::
      commentTail (i.oid.map protoPrintOid)) ++ ['\n'] := by
  obtain ⟨path, oid⟩ := i
  cases oid <;>
  · simp only [importLine, importPath, commentTail, Option.map, toList_append, List.append_assoc,
      List.cons_append]
    rfl

theorem readTop_import (r : Reader) (x : List Char) :
    readTop r ("import \"".toList ++ x) = (readImport ("import \"".toList ++ x)).map fun i =>
      { r with file := { r.file with imports := r.file.imports ++ [i] } } := by
  have notSyntax : "import \"".toList ++ x ≠ "syntax = \"proto3\";".toList := cons_ne_of_head_ne (by decide)
  have notPackage : readPackage ("import \"".toList ++ x) = none := rfl
  rw [readTop, if_neg notSyntax, notPackage]
  cases readImport ("import \"".toList ++ x) <;> rfl

theorem not_mem_packageName {d : Char} (notLetter : d.isAlpha = false) (notUnderscore : d ≠ '_')
    (notPkg : d ∉ "pkg".toList) {m : ProtoModule} (absent : d ∉ m.srcfilename.toList) :
    d ∉ (packageName m).toList := by
  have snake := not_mem_toSnakeCaseDup notLetter notUnderscore .lower absent
  have stripped : d ∉ protoRemoveRelPath (toSnakeCaseDup m.srcfilename .lower).toList :=
    fun member => snake ((protoRemoveRelPath_suffix _).subset member)
  dsimp only [packageName]
  split
  · exact List.not_mem_append notPkg stripped
  · exact stripped

/-- A turn of `toSnakeCaseDup`'s loop writes a `.` only for a `.`, and it writes `_` for that. -/
theorem dot_not_mem_snakeChar (tocase : SnakeCase) (first lastChanged : Bool) (c : Char) :
    '.' ∉ (snakeChar tocase first lastChanged c).1 := fun member => by
  have dot : c = '.' := by
    rcases snakeChar_fst tocase first lastChanged c '.' member with same | same | same | same
    · exact absurd same (by decide)
    · exact same.symm
    · exact eq_of_toUpper_eq same.symm rfl
    · exact eq_of_toLower_eq same.symm rfl
  have underscore : (snakeChar tocase first lastChanged '.').1 = ['_'] := by
    cases tocase <;> cases first <;> rfl
  rw [dot, underscore] at member
  exact absurd member (by decide)

theorem dot_not_mem_snakeLoop (tocase : SnakeCase) (first lastChanged : Bool) (s : List Char) :
    '.' ∉ snakeLoop tocase first lastChanged s := by
  induction s generalizing first lastChanged with
  | nil => exact List.not_mem_nil _
  | cons c s ih =>
    rw [snakeLoop_cons]
    exact List.not_mem_append (dot_not_mem_snakeChar tocase first lastChanged c) (ih _ _)

theorem protoRemoveRelPath_of_dot_not_mem {s : List Char} (noDot : '.' ∉ s) : protoRemoveRelPath s = s := by
  unfold protoRemoveRelPath
  split
  · exact absurd (List.mem_cons_self _ _) noDot
  · exact absurd (List.mem_cons_self _ _) noDot
  · rfl

/-- `proto_print_msg` drops the relative path of the source file name after putting it in
lower snake case, which has turned every `.` into `_`: the `./` and `../` it would drop are
gone, and the package keeps them as `_/` and `__/`. -/
theorem protoRemoveRelPath_snake (srcfilename : String) :
    protoRemoveRelPath (toSnakeCaseDup srcfilename .lower).toList = (toSnakeCaseDup srcfilename .lower).toList :=
  protoRemoveRelPath_of_dot_not_mem (dot_not_mem_snakeLoop .lower true false srcfilename.toList)

example : packageName ⟨"", "../a.asn1", none, [], [], [], ""⟩ = "pkg__/a_asn1" := by
  decide

theorem reads_importLine {m : ProtoModule} {i : ProtoImport} (printable : i.Printable)
    (srcfilename : '\n' ∉ m.srcfilename.toList) (srcNoQuote : '"' ∉ m.srcfilename.toList) (f : ProtoFile) :
    Reads (importLine m i).toList ⟨f, [], .top⟩
      ⟨{ f with imports := f.imports ++ [(importPath m i, i.oid.map protoPrintOid)] }, [], .top⟩ := by
  have path (d : Char) (notLetter : d.isAlpha = false) (notUnderscore : d ≠ '_') (notPkg : d ∉ "pkg".toList)
      (absent : d ∉ m.srcfilename.toList) (absentPath : d ∉ i.path.toList)
      (outside : d ∉ "/v1/".toList ∧ d ∉ ".proto".toList) : d ∉ (importPath m i).toList := by
    have lower := not_mem_toLowercaseDup notLetter absentPath
    have package := not_mem_packageName notLetter notUnderscore notPkg absent
    rw [importPath, toList_append, toList_append, toList_append]
    exact List.not_mem_append (List.not_mem_append (List.not_mem_append package outside.1) lower) outside.2
  have noQuote := path '"' rfl (by decide) (by decide) srcNoQuote printable.noQuote (by decide)
  have oneLine : '\n' ∉ "import \"".toList ++ ((importPath m i).toList ++ '"' :: ';' ::
      commentTail (i.oid.map protoPrintOid)) := by
    have pathLine := path '\n' rfl (by decide) (by decide) srcfilename printable.path (by decide)
    have comment : '\n' ∉ commentTail (i.oid.map protoPrintOid) := by
      cases same : i.oid with
      | none => exact List.not_mem_nil _
      | some oid =>
        simpa only [Option.map, commentTail, List.mem_append, not_or] using
          ⟨by decide, protoPrintOid_oneLine (printable.oid oid (Option.mem_def.2 same))⟩
    simpa only [List.mem_append, List.mem_cons, not_or] using ⟨by decide, pathLine, by decide, by decide, comment⟩
  rw [importLine_toList]
  refine Reads.line oneLine ((readLine_of_start (t := "import \"".toList ++ _)
    ⟨'i', _, rfl, by decide, by decide⟩).trans ?_)
  show readTop _ _ = _
  rw [readTop_import, readImport_line noQuote]
  rfl

theorem bannerLines_oneLine {host : Host} {m : ProtoModule} (printable : m.Printable host) (k : Nat) :
    '\n' ∉ ((bannerLines host m).getD k "").toList := by
  have lower := not_mem_toLowercaseDup (d := '\n') rfl printable.modulename
  have suffix : '\n' ∉ lastSlashSuffix m.srcfilename.toList := fun member =>
    (mem_lastSlashSuffix member).elim (fun same => absurd same (by decide)) printable.srcfilename
  have provenance : '\n' ∉ (if m.srcfilename ≠ "" ∧ '/' ∈ m.srcfilename.toList then
      " from " ++ ⟨lastSlashSuffix m.srcfilename.toList⟩ ++ " " else " from /" ++ m.srcfilename ++ " ").toList := by
    split
    · exact List.not_mem_append (List.not_mem_append (by decide) suffix) (by decide)
    · exact List.not_mem_append (List.not_mem_append (by decide) printable.srcfilename) (by decide)
  have oidText : '\n' ∉ (match m.oid with | some oid => protoPrintOid oid | none => "").toList := by
    cases same : m.oid with
    | none => exact List.not_mem_nil _
    | some oid => exact protoPrintOid_oneLine (printable.oid oid (Option.mem_def.2 same))
  match k with
  | 0 =>
    simp only [bannerLines, List.getD_cons_zero, toList_append]
    exact List.not_mem_append (List.not_mem_append (by decide) lower) (by decide)
  | 1 =>
    simp only [bannerLines, List.getD_cons_succ, List.getD_cons_zero, toList_append]
    exact List.not_mem_append (List.not_mem_append (List.not_mem_append (by decide) provenance) (by decide))
      printable.version
  | 2 =>
    simp only [bannerLines, List.getD_cons_succ, List.getD_cons_zero, toList_append]
    exact List.not_mem_append printable.modulename oidText
  | _ + 3 => exact List.not_mem_nil _

theorem readProto_of_reads {text : String} {r : Reader} (reads : Reads text.toList Reader.start r)
    (top : r.frame = .top) (noPending : r.pending = []) : readProto text = some r.file := by
  have whole := reads []
  rw [List.append_nil] at whole
  rw [readProto, whole]
  show (if r.frame = .top ∧ r.pending = [] then some r.file else none) = some r.file
  rw [if_pos ⟨top, noPending⟩]

/-- The reader takes the whole file `proto_print_msg` writes for a printable module from its
start to the top level, with the module's file and no pending comment. -/
theorem protoPrintMsg_reads (host : Host) (flags : Flags) (level : Nat) {m : ProtoModule}
    (printable : m.Printable host) :
    Reads (protoPrintMsg host flags level m).toList Reader.start ⟨printedFile host m, [], .top⟩ := by
  let header := commentLines m.comments ++ [commentText ((bannerLines host m).getD 0 "").toList] ++
    [commentText (' ' :: ((bannerLines host m).getD 1 "").toList)] ++
    [commentText (' ' :: ((bannerLines host m).getD 2 "").toList)]
  let package := packageName m ++ ".v1"
  let imports := m.imports.map fun i => (importPath m i, i.oid.map protoPrintOid)
  let enums := m.protoenum.map fun e => TopDecl.enum (protoPrintSingleEnum e).decl
  have sameHeader : header = commentLines m.comments ++ bannerLines host m := by
    simp only [header, List.append_assoc]
    rfl
  have line0 : Reads ('/' :: '/' :: ((bannerLines host m).getD 0 "").toList ++ ['\n'])
      ⟨⟨[], "", [], []⟩, commentLines m.comments, .top⟩
      ⟨⟨[], "", [], []⟩, commentLines m.comments ++ [commentText ((bannerLines host m).getD 0 "").toList], .top⟩ :=
    Reads.comment (bannerLines_oneLine printable 0)
  have line1 := Reads.comment (r := ⟨⟨[], "", [], []⟩, commentLines m.comments ++
    [commentText ((bannerLines host m).getD 0 "").toList], .top⟩)
    (List.not_mem_cons_of_ne_of_not_mem (show '\n' ≠ ' ' by decide) (bannerLines_oneLine printable 1))
  have line2 := Reads.comment (r := ⟨⟨[], "", [], []⟩, commentLines m.comments ++
    [commentText ((bannerLines host m).getD 0 "").toList] ++
    [commentText (' ' :: ((bannerLines host m).getD 1 "").toList)], .top⟩)
    (List.not_mem_cons_of_ne_of_not_mem (show '\n' ≠ ' ' by decide) (bannerLines_oneLine printable 2))
  have packageLine : Reads (("package " ++ packageName m ++ ".v1;").toList ++ ['\n'])
      ⟨⟨header, "", [], []⟩, [], .top⟩ ⟨⟨header, package, [], []⟩, [], .top⟩ := by
    have pkg := not_mem_packageName (d := '\n') rfl (by decide) (by decide) printable.srcfilename
    refine Reads.line (by simpa [String.toList] using pkg)
      ((readLine_of_start (t := ("package " ++ packageName m ++ ".v1;").toList)
        ⟨'p', _, rfl, by decide, by decide⟩).trans ?_)
    exact readTop_package _ _
  have importLines : Reads (String.join (m.imports.map (importLine m))).toList
      ⟨⟨header, package, [], []⟩, [], .top⟩ ⟨⟨header, package, imports, []⟩, [], .top⟩ :=
    Reads.join _ (fun pre => ⟨⟨header, package, pre.map fun i => (importPath m i, i.oid.map protoPrintOid), []⟩,
      [], .top⟩) _ fun pre i member => by
        have read := reads_importLine (printable.imports i member) printable.srcfilename printable.srcNoQuote
          ⟨header, package, pre.map fun i => (importPath m i, i.oid.map protoPrintOid), []⟩
        simp only [List.map_append, List.map_cons, List.map_nil]
        exact read
  have validate : Reads ("import \"validate/v1/validate.proto\";".toList ++ ['\n'])
      ⟨⟨header, package, imports, []⟩, [], .top⟩
      ⟨⟨header, package, imports ++ [("validate/v1/validate.proto", none)], []⟩, [], .top⟩ :=
    Reads.line (by decide) rfl
  have enumBlocks : Reads (String.join (m.protoenum.map fun e => (protoPrintSingleEnum e).text flags level)).toList
      ⟨⟨header, package, imports ++ [("validate/v1/validate.proto", none)], []⟩, [], .top⟩
      ⟨⟨header, package, imports ++ [("validate/v1/validate.proto", none)], enums⟩, [], .top⟩ :=
    Reads.join _ (fun pre => ⟨⟨header, package, imports ++ [("validate/v1/validate.proto", none)],
      pre.map fun e => TopDecl.enum (protoPrintSingleEnum e).decl⟩, [], .top⟩) _ fun pre e member => by
        have read := reads_enum flags level ⟨header, package, imports ++ [("validate/v1/validate.proto", none)],
          pre.map fun e => TopDecl.enum (protoPrintSingleEnum e).decl⟩
          (protoPrintSingleEnum_readable (printable.protoenum e member))
        simp only [List.map_append, List.map_cons, List.map_nil]
        exact read
  have messageBlocks : Reads (String.join (m.message.map fun msg =>
      (protoPrintSingleMsg host msg).text flags level)).toList
      ⟨⟨header, package, imports ++ [("validate/v1/validate.proto", none)], enums⟩, [], .top⟩
      ⟨⟨header, package, imports ++ [("validate/v1/validate.proto", none)],
        enums ++ m.message.map fun msg => TopDecl.message (protoPrintSingleMsg host msg).decl⟩, [], .top⟩ := by
    have blocks := Reads.join _ (fun pre => ⟨⟨header, package, imports ++ [("validate/v1/validate.proto", none)],
      enums ++ pre.map fun msg => TopDecl.message (protoPrintSingleMsg host msg).decl⟩, [], .top⟩) _
      fun pre msg member => by
        have read := reads_message flags level ⟨header, package, imports ++ [("validate/v1/validate.proto", none)],
          enums ++ pre.map fun msg => TopDecl.message (protoPrintSingleMsg host msg).decl⟩
          (protoPrintSingleMsg_readable host (printable.message msg member))
        simp only [List.map_append, List.map_cons, List.map_nil, ← List.append_assoc]
        exact read
    simp only [List.map_nil, List.append_nil] at blocks
    exact blocks
  rw [protoPrintMsg_toList, printedFile, ← sameHeader]
  exact (reads_comments m.comments Reader.start).trans (line0.trans (line1.trans (line2.trans
    (Reads.blankLine.trans ((Reads.syntaxLine _ header).trans (Reads.blankLine.trans (packageLine.trans
    (Reads.blankLine.trans (importLines.trans (validate.trans (Reads.blankLine.trans
    (enumBlocks.trans messageBlocks))))))))))))

/-- The file `proto_print_msg` writes for a printable module reads back, line by line, as the
module's header comments, package, imports, enums and messages, under every flag and
indentation level. -/
theorem readProto_protoPrintMsg (host : Host) (flags : Flags) (level : Nat) {m : ProtoModule}
    (printable : m.Printable host) : readProto (protoPrintMsg host flags level m) = some (printedFile host m) :=
  readProto_of_reads (protoPrintMsg_reads host flags level printable) rfl rfl

/-- A module with an import, an enum and a message with a field and a oneof. -/
def shapesModule : ProtoModule :=
  { modulename := "Shapes-Module", srcfilename := "specs/shapes.asn1", oid := none,
    imports := [⟨"Common-Types", none⟩],
    protoenum := [⟨"Color", "colours", [⟨"red", 0⟩, ⟨"green", -1⟩]⟩],
    message := [⟨"Shape", 0, 0, "a shape\nof the plane", [⟨"area", "int32", "int32.gt = 0", "", false⟩],
      [⟨"kind", "", [⟨"circle", "Circle", "", "round", false⟩]⟩], []⟩],
    comments := "Shapes" }

theorem shapesModule_reads_back : shapesModule.Printable Host.sample ∧
    readProto (protoPrintMsg Host.sample {} 0 shapesModule) = some (printedFile Host.sample shapesModule) :=
  ⟨by decide, readProto_protoPrintMsg Host.sample {} 0 (by decide)⟩

end Asn1Proto
