import Asn1Proto.PrintedLines

namespace Asn1Proto

/-- The comment lines `proto_print_comments` writes for a comment, without their `// `. -/
def commentLines (comments : String) : List String :=
  (strtokLines [] comments.toList).map String.mk

theorem strtokLines_oneLine {current : List Char} (noNewline : '\n' ∉ current) (s : List Char) :
    ∀ t ∈ strtokLines current s, '\n' ∉ t := by
  induction s generalizing current with
  | nil =>
    unfold strtokLines
    split
    · exact fun _ none => absurd none (List.not_mem_nil _)
    · exact List.forall_mem_singleton.2 noNewline
  | cons c s ih =>
    unfold strtokLines
    split
    · split
      · exact ih (List.not_mem_nil _)
      · exact List.forall_mem_cons.2 ⟨noNewline, ih (List.not_mem_nil _)⟩
    · next notNewline =>
      exact ih (by simpa [List.mem_append, not_or] using ⟨noNewline, Ne.symm notNewline⟩)

/-- The tokens `strtok_r` returns after the characters `current` are the non-empty lines of
the text: the empty ones, between two newlines or at either end, are skipped. -/
theorem strtokLines_eq {current : List Char} (noNewline : '\n' ∉ current) (s : List Char) :
    strtokLines current s = ((current ++ s).splitOn '\n').filter (· ≠ []) := by
  induction s generalizing current with
  | nil =>
    rw [List.append_nil, List.splitOn, List.splitOnP_eq_single _ _ fun c member same =>
      noNewline ((beq_iff_eq.1 same : c = '\n') ▸ member), strtokLines]
    by_cases empty : current = [] <;> simp [empty]
  | cons c s ih =>
    rw [strtokLines]
    split
    · next newline =>
      rw [newline, splitOn_newline noNewline, List.filter_cons, ih (List.not_mem_nil _), List.nil_append]
      by_cases empty : current = [] <;> simp [empty]
    · next other =>
      rw [ih (by simpa [List.mem_append, not_or] using ⟨noNewline, Ne.symm other⟩), List.append_assoc,
        List.singleton_append]

/-- `proto_print_comments` writes a `// ` line for each non-empty line of the comment. -/
theorem protoPrintComments_lines (comments : String) :
    protoPrintComments comments =
      String.join (((comments.toList.splitOn '\n').filter (· ≠ [])).map fun t => "// " ++ ⟨t⟩ ++ "\n") := by
  rw [protoPrintComments, strtokLines_eq (List.not_mem_nil _), List.nil_append]

theorem join_map_toList {α : Type} (f : α → String) (xs : List α) :
    (String.join (xs.map f)).toList = (xs.map fun x => (f x).toList).flatten := by
  rw [String.join_eq, List.map_map]
  rfl

/-- The texts of a list joined, each read from the state of the items before it to the state
of the items up to it. -/
theorem Reads.join {α : Type} (f : α → String) (state : List α → Reader) (xs : List α)
    (each : ∀ pre x, x ∈ xs → Reads (f x).toList (state pre) (state (pre ++ [x]))) :
    Reads (String.join (xs.map f)).toList (state []) (state xs) := by
  rw [join_map_toList]
  induction xs generalizing state with
  | nil => exact Reads.nil
  | cons x xs ih =>
    exact (each [] x (List.mem_cons_self _ _)).trans
      (ih (fun pre => state (x :: pre)) fun pre y member => each (x :: pre) y (List.mem_cons_of_mem _ member))

/-- `proto_print_comments` is read as the comment's lines, kept for the next declaration. -/
theorem reads_comments (comments : String) (r : Reader) :
    Reads (protoPrintComments comments).toList r { r with pending := r.pending ++ commentLines comments } := by
  have lines := strtokLines_oneLine (List.not_mem_nil '\n') comments.toList
  have each : ∀ pre t, t ∈ strtokLines [] comments.toList →
      Reads ("// " ++ (⟨t⟩ : String) ++ "\n").toList { r with pending := r.pending ++ pre.map String.mk }
        { r with pending := r.pending ++ (pre ++ [t]).map String.mk } := fun pre t member => by
    rw [List.map_append, ← List.append_assoc]
    exact Reads.line (by simpa using lines t member) rfl
  have joined := Reads.join (fun t => "// " ++ (⟨t⟩ : String) ++ "\n")
    (fun pre => { r with pending := r.pending ++ pre.map String.mk }) _ each
  simpa only [List.map_nil, List.append_nil] using joined

section Fields

variable (flags : Flags) (level : Nat) (file : ProtoFile) (pending : List String) {l : FieldLine}

/-- An indented line of the printer, read as one line. -/
theorem Reads.indented {r r' : Reader} {line : List Char} (noNewline : '\n' ∉ line)
    (step : readLine r ((indent flags level).toList ++ line) = some r') :
    Reads ((indent flags level).toList ++ line ++ ['\n']) r r' :=
  Reads.line (List.not_mem_append (fun member => absurd (indent_blank flags level _ member) (by decide))
    noNewline) step

/-- A field line read in a field block: the line is a field, not the block's closing line. -/
theorem readLine_field (readable : l.Readable) (r : Reader) :
    readLine r ((indent flags level).toList ++ l.line) = readDecl r l.line := by
  obtain ⟨c, rest, same, notBlank, notSlash⟩ := readable.head
  rw [same, readLine_of_decl notBlank notSlash _ (indent_blank flags level)]

theorem FieldLine.line_ne_of_equals (t : List Char) (noEquals : '=' ∉ t) (l : FieldLine) : l.line ≠ t :=
  fun same => noEquals (same ▸ l.equals_mem_line)

theorem reads_field_message (readable : l.Readable) (m : MessageDecl) :
    Reads (l.text flags level).toList ⟨file, pending, .message m⟩
      ⟨file, pending, .message { m with fields := m.fields ++ [l] }⟩ := by
  rw [FieldLine.text_toList]
  refine Reads.indented flags level readable.oneLine ?_
  rw [readLine_field flags level readable]
  simp only [readDecl, if_neg (l.line_ne_of_equals "\x7d;".toList (by decide)), readField_line l readable]

theorem reads_field_oneof (readable : l.Readable) (m : MessageDecl) (o : OneofDecl) :
    Reads (l.text flags level).toList ⟨file, pending, .oneof m o⟩
      ⟨file, pending, .oneof m { o with fields := o.fields ++ [l] }⟩ := by
  rw [FieldLine.text_toList]
  refine Reads.indented flags level readable.oneLine ?_
  rw [readLine_field flags level readable]
  simp only [readDecl, if_neg (l.line_ne_of_equals "\x7d".toList (by decide)), readField_line l readable,
    Option.map_some']

end Fields

/-- The opening line `<keyword> <name> \x7b` of a block. -/
def openingLine (keyword name : String) : List Char :=
  keyword.toList ++ ' ' :: (name.toList ++ [' ', '\x7b'])

theorem openingLine_eq (keyword name : String) :
    openingLine keyword name = (keyword ++ " ").toList ++ (name.toList ++ " \x7b".toList) := by
  simp only [openingLine, String.toList, String.data_append, List.append_assoc]
  rfl

theorem readOpening_openingLine (keyword name : String) :
    readOpening keyword (openingLine keyword name) = some name := by
  rw [readOpening, openingLine_eq, afterPrefix_append, Option.some_bind, beforeSuffix_append]
  rfl

theorem openingLine_oneLine {keyword name : String} (keywordLine : '\n' ∉ keyword.toList)
    (nameLine : '\n' ∉ name.toList) : '\n' ∉ openingLine keyword name := by
  simp only [openingLine, List.mem_append, List.mem_cons, not_or]
  exact ⟨keywordLine, by decide, nameLine, by decide, by decide, List.not_mem_nil _⟩

/-- In a message, the opening line of a oneof is not a field line. -/
theorem readField_oneofOpening {name : String} (word : IsWord name.toList) :
    readField (openingLine "oneof" name) = none := by
  simp only [openingLine, readField, span_append_cons (show ' ' ∉ "oneof".toList by decide),
    span_append_cons (word.not_mem (show isNameChar ' ' = false from rfl))]
  rfl

theorem readTop_enumOpening (r : Reader) (name : String) :
    readTop r (openingLine "enum" name) = some { r with pending := [], frame := .enum ⟨r.pending, name, []⟩ } := by
  have notSyntax : openingLine "enum" name ≠ "syntax = \"proto3\";".toList := cons_ne_of_head_ne (by decide)
  have notPackage : readPackage (openingLine "enum" name) = none := rfl
  have notImport : readImport (openingLine "enum" name) = none := rfl
  simp only [readTop, if_neg notSyntax, notPackage, notImport, readOpening_openingLine]

theorem readTop_messageOpening (r : Reader) (name : String) :
    readTop r (openingLine "message" name) =
      some { r with pending := [], frame := .message ⟨r.pending, name, [], []⟩ } := by
  have notSyntax : openingLine "message" name ≠ "syntax = \"proto3\";".toList := cons_ne_of_head_ne (by decide)
  have notPackage : readPackage (openingLine "message" name) = none := rfl
  have notImport : readImport (openingLine "message" name) = none := rfl
  have notEnum : readOpening "enum" (openingLine "message" name) = none := rfl
  simp only [readTop, if_neg notSyntax, notPackage, notImport, notEnum, readOpening_openingLine, Option.map_some']

/-- The oneof a reader takes back from a printed oneof block. -/
def OneofBlock.decl (b : OneofBlock) : OneofDecl :=
  ⟨commentLines b.comments, b.name, b.fields⟩

def MsgBlock.decl (b : MsgBlock) : MessageDecl :=
  ⟨commentLines b.comments, b.name, b.fields, b.oneofs.map OneofBlock.decl⟩

def EnumBlock.decl (b : EnumBlock) : EnumDecl :=
  ⟨commentLines b.comments, b.name, b.lines⟩

/-- What a oneof block needs to read back: its name is a word and its fields read back. -/
structure OneofBlock.Readable (b : OneofBlock) : Prop where
  name : IsWord b.name.toList
  fields : ∀ l ∈ b.fields, l.Readable

structure MsgBlock.Readable (b : MsgBlock) : Prop where
  name : IsWord b.name.toList
  fields : ∀ l ∈ b.fields, l.Readable
  oneofs : ∀ o ∈ b.oneofs, o.Readable

structure EnumBlock.Readable (b : EnumBlock) : Prop where
  name : IsWord b.name.toList
  lines : ∀ l ∈ b.lines, IsWord l.name.toList

section Blocks

variable (flags : Flags) (level : Nat) (file : ProtoFile)

theorem readLine_of_start {r : Reader} {t : List Char} (start : ∃ c rest, t = c :: rest ∧ c ≠ ' ' ∧ c ≠ '/') :
    readLine r t = readDecl r t := by
  obtain ⟨c, rest, rfl, notBlank, notSlash⟩ := start
  exact readLine_cons_of_decl notBlank notSlash

theorem readLine_indented {r : Reader} {t : List Char} (start : ∃ c rest, t = c :: rest ∧ c ≠ ' ' ∧ c ≠ '/') :
    readLine r ((indent flags level).toList ++ t) = readDecl r t := by
  obtain ⟨c, rest, rfl, notBlank, notSlash⟩ := start
  exact readLine_of_decl notBlank notSlash _ (indent_blank flags level)

theorem Reads.blankLine {r : Reader} : Reads ['\n'] r r :=
  Reads.line (List.not_mem_nil _) rfl

theorem reads_enumLine {l : EnumLine} (word : IsWord l.name.toList) (pending : List String) (e : EnumDecl) :
    Reads (l.text flags level).toList ⟨file, pending, .enum e⟩
      ⟨file, pending, .enum { e with lines := e.lines ++ [l] }⟩ := by
  obtain ⟨c, rest, same, notBlank, notSlash, notClose⟩ := l.line_start word
  have notEnd : l.line ≠ "\x7d;".toList := by
    rw [same]
    exact cons_ne_of_head_ne notClose
  rw [EnumLine.text_toList]
  refine Reads.indented flags level (l.oneLine word) ?_
  rw [readLine_indented flags level ⟨c, rest, same, notBlank, notSlash⟩]
  simp only [readDecl, if_neg notEnd, readEnumLine_line l word, Option.map_some']

theorem OneofBlock.text_toList (b : OneofBlock) :
    (b.text flags level).toList = (indent flags level).toList ++ ((protoPrintComments b.comments).toList ++
      ((indent flags level).toList ++ openingLine "oneof" b.name ++ ['\n'] ++
        ((String.join (b.fields.map (FieldLine.text flags (level + 1)))).toList ++
          ((indent flags level).toList ++ "\x7d".toList ++ ['\n'])))) := by
  simp only [OneofBlock.text, openingLine, String.toList, String.data_append, List.append_assoc,
    List.cons_append]
  rfl

/-- A printed oneof block is read, inside its message, as the oneof with its comment lines,
name and fields. -/
theorem reads_oneof {b : OneofBlock} (readable : b.Readable) (m : MessageDecl) :
    Reads (b.text flags level).toList ⟨file, [], .message m⟩
      ⟨file, [], .message { m with oneofs := m.oneofs ++ [b.decl] }⟩ := by
  have opening : Reads ((indent flags level).toList ++ openingLine "oneof" b.name ++ ['\n'])
      ⟨file, commentLines b.comments, .message m⟩
      ⟨file, [], .oneof m ⟨commentLines b.comments, b.name, []⟩⟩ := by
    refine Reads.indented flags level (openingLine_oneLine (by decide)
      (readable.name.not_mem (show isNameChar '\n' = false from rfl))) ?_
    have notEnd : openingLine "oneof" b.name ≠ "\x7d;".toList := cons_ne_of_head_ne (by decide)
    rw [readLine_indented flags level (t := openingLine "oneof" b.name) ⟨'o', _, rfl, by decide, by decide⟩]
    simp only [readDecl, if_neg notEnd, readField_oneofOpening readable.name, readOpening_openingLine, Option.map_some']
  have fields : Reads (String.join (b.fields.map (FieldLine.text flags (level + 1)))).toList
      ⟨file, [], .oneof m ⟨commentLines b.comments, b.name, []⟩⟩
      ⟨file, [], .oneof m ⟨commentLines b.comments, b.name, b.fields⟩⟩ :=
    Reads.join _ (fun pre => ⟨file, [], .oneof m ⟨commentLines b.comments, b.name, pre⟩⟩) _
      fun _ l member => reads_field_oneof flags (level + 1) file [] (readable.fields l member) m _
  have closing : Reads ((indent flags level).toList ++ "\x7d".toList ++ ['\n'])
      ⟨file, [], .oneof m b.decl⟩ ⟨file, [], .message { m with oneofs := m.oneofs ++ [b.decl] }⟩ :=
    Reads.indented flags level (by decide) (by
      rw [readLine_indented flags level (t := "\x7d".toList) ⟨_, _, rfl, by decide, by decide⟩]; rfl)
  rw [OneofBlock.text_toList]
  exact Reads.blanks (indent_blank flags level) ((reads_comments b.comments _).trans
    (opening.trans (fields.trans closing)))

theorem readLine_opening {r : Reader} (keyword name : String)
    (start : ∃ c rest, keyword.toList = c :: rest ∧ c ≠ ' ' ∧ c ≠ '/') :
    readLine r (openingLine keyword name) = readDecl r (openingLine keyword name) := by
  obtain ⟨c, rest, same, notBlank, notSlash⟩ := start
  rw [openingLine, same]
  exact readLine_cons_of_decl notBlank notSlash

theorem MsgBlock.text_toList (b : MsgBlock) :
    (b.text flags level).toList = (protoPrintComments b.comments).toList ++
      (openingLine "message" b.name ++ ['\n'] ++
        ((String.join (b.fields.map (FieldLine.text flags (level + 1)))).toList ++
          ((String.join (b.oneofs.map (OneofBlock.text flags (level + 1)))).toList ++
            ((indent flags level).toList ++ "\x7d;".toList ++ ['\n'] ++ ['\n'])))) := by
  simp only [MsgBlock.text, openingLine, String.toList, String.data_append, List.append_assoc,
    List.cons_append]
  rfl

/-- A printed message block is read, outside any block, as the message with its comment lines,
name, fields and oneofs. -/
theorem reads_message {b : MsgBlock} (readable : b.Readable) :
    Reads (b.text flags level).toList ⟨file, [], .top⟩
      ⟨{ file with decls := file.decls ++ [.message b.decl] }, [], .top⟩ := by
  have opening : Reads (openingLine "message" b.name ++ ['\n']) ⟨file, commentLines b.comments, .top⟩
      ⟨file, [], .message ⟨commentLines b.comments, b.name, [], []⟩⟩ := by
    refine Reads.line (openingLine_oneLine (by decide)
      (readable.name.not_mem (show isNameChar '\n' = false from rfl))) ?_
    rw [readLine_opening "message" b.name ⟨'m', _, rfl, by decide, by decide⟩]
    simp only [readDecl, readTop_messageOpening]
  have fields : Reads (String.join (b.fields.map (FieldLine.text flags (level + 1)))).toList
      ⟨file, [], .message ⟨commentLines b.comments, b.name, [], []⟩⟩
      ⟨file, [], .message ⟨commentLines b.comments, b.name, b.fields, []⟩⟩ :=
    Reads.join _ (fun pre => ⟨file, [], .message ⟨commentLines b.comments, b.name, pre, []⟩⟩) _
      fun _ l member => reads_field_message flags (level + 1) file [] (readable.fields l member) _
  have oneofs : Reads (String.join (b.oneofs.map (OneofBlock.text flags (level + 1)))).toList
      ⟨file, [], .message ⟨commentLines b.comments, b.name, b.fields, []⟩⟩
      ⟨file, [], .message b.decl⟩ :=
    Reads.join _ (fun pre => ⟨file, [], .message ⟨commentLines b.comments, b.name, b.fields,
      pre.map OneofBlock.decl⟩⟩) _ fun pre o member => by
        have read := reads_oneof flags (level + 1) file (readable.oneofs o member)
          ⟨commentLines b.comments, b.name, b.fields, pre.map OneofBlock.decl⟩
        simp only [List.map_append, List.map_cons, List.map_nil]
        exact read
  have closing : Reads ((indent flags level).toList ++ "\x7d;".toList ++ ['\n']) ⟨file, [], .message b.decl⟩
      ⟨{ file with decls := file.decls ++ [.message b.decl] }, [], .top⟩ :=
    Reads.indented flags level (by decide) (by
      rw [readLine_indented flags level (t := "\x7d;".toList) ⟨_, _, rfl, by decide, by decide⟩]; rfl)
  rw [MsgBlock.text_toList]
  exact (reads_comments b.comments _).trans (opening.trans (fields.trans (oneofs.trans
    (closing.trans Reads.blankLine))))

theorem EnumBlock.text_toList (b : EnumBlock) :
    (b.text flags level).toList = (protoPrintComments b.comments).toList ++
      (openingLine "enum" b.name ++ ['\n'] ++
        ((String.join (b.lines.map (EnumLine.text flags (level + 1)))).toList ++
          ("\x7d;".toList ++ ['\n'] ++ ['\n']))) := by
  simp only [EnumBlock.text, openingLine, String.toList, String.data_append, List.append_assoc,
    List.cons_append]
  rfl

/-- A printed enum block is read, outside any block, as the enum with its comment lines, name
and constants. -/
theorem reads_enum {b : EnumBlock} (readable : b.Readable) :
    Reads (b.text flags level).toList ⟨file, [], .top⟩
      ⟨{ file with decls := file.decls ++ [.enum b.decl] }, [], .top⟩ := by
  have opening : Reads (openingLine "enum" b.name ++ ['\n']) ⟨file, commentLines b.comments, .top⟩
      ⟨file, [], .enum ⟨commentLines b.comments, b.name, []⟩⟩ := by
    refine Reads.line (openingLine_oneLine (by decide)
      (readable.name.not_mem (show isNameChar '\n' = false from rfl))) ?_
    rw [readLine_opening "enum" b.name ⟨'e', _, rfl, by decide, by decide⟩]
    simp only [readDecl, readTop_enumOpening]
  have lines : Reads (String.join (b.lines.map (EnumLine.text flags (level + 1)))).toList
      ⟨file, [], .enum ⟨commentLines b.comments, b.name, []⟩⟩ ⟨file, [], .enum b.decl⟩ :=
    Reads.join _ (fun pre => ⟨file, [], .enum ⟨commentLines b.comments, b.name, pre⟩⟩) _
      fun _ l member => reads_enumLine flags (level + 1) file (readable.lines l member) [] _
  have closing : Reads ("\x7d;".toList ++ ['\n']) ⟨file, [], .enum b.decl⟩
      ⟨{ file with decls := file.decls ++ [.enum b.decl] }, [], .top⟩ :=
    Reads.line (by decide) rfl
  rw [EnumBlock.text_toList]
  exact (reads_comments b.comments _).trans (opening.trans (lines.trans (closing.trans Reads.blankLine)))

end Blocks

end Asn1Proto
