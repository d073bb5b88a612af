import Asn1Proto.Emit
import Asn1Proto.ValidateRules

namespace Asn1Proto

/-- The text after `pre`, when the text starts with it. -/
def afterPrefix : List Char → List Char → Option (List Char)
  | [], s => some s
  | p :: pre, c :: s => if p = c then afterPrefix pre s else none
  | _ :: _, [] => none

/-- The text before `suf`, when the text ends with it. -/
def beforeSuffix (suf s : List Char) : Option (List Char) :=
  (afterPrefix suf.reverse s.reverse).map List.reverse

/-- The text before the last `c` and the text after it. -/
def splitLast (c : Char) (s : List Char) : Option (List Char × List Char) :=
  match s.reverse.span (· ≠ c) with
  | (after, _ :: before) => some (before.reverse, after.reverse)
  | (_, []) => none

/-- A oneof as a reader of the printed file takes it back: its comment lines, its name and
its fields. -/
structure OneofDecl where
  comments : List String
  name : String
  fields : List FieldLine
  deriving DecidableEq, Repr

structure MessageDecl where
  comments : List String
  name : String
  fields : List FieldLine
  oneofs : List OneofDecl
  deriving DecidableEq, Repr

structure EnumDecl where
  comments : List String
  name : String
  lines : List EnumLine
  deriving DecidableEq, Repr

inductive TopDecl
  | enum (e : EnumDecl)
  | message (m : MessageDecl)
  deriving DecidableEq, Repr

/-- What a reader takes back from a printed proto file: the comment lines before `syntax`,
the package, the imports with their trailing comments, and the enums and messages. -/
structure ProtoFile where
  header : List String
  package : String
  imports : List (String × Option String)
  decls : List TopDecl
  deriving DecidableEq, Repr

/-- The name a top-level declaration declares. -/
def TopDecl.name : TopDecl → String
  | .enum e => e.name
  | .message m => m.name

/-- The block the reader is inside. -/
inductive Frame
  | top
  | enum (e : EnumDecl)
  | message (m : MessageDecl)
  | oneof (m : MessageDecl) (o : OneofDecl)
  deriving DecidableEq, Repr

/-- The state of the reader: what it has read, the comment lines waiting for the next
declaration, and the open block. -/
structure Reader where
  file : ProtoFile
  pending : List String
  frame : Frame
  deriving DecidableEq, Repr

/-- The text of a comment line after its `//`, less the blank the printer puts there. -/
def commentText : List Char → String
  | ' ' :: rest => ⟨rest⟩
  | rest => ⟨rest⟩

/-- The name in the opening line `<keyword> <name> {` of a block. -/
def readOpening (keyword : String) (t : List Char) : Option String :=
  ((afterPrefix (keyword ++ " ").toList t).bind (beforeSuffix " \x7b".toList)).map String.mk

/-- The end of a field line: `;`, and the comment after `//` if there is one. -/
def readFieldEnd : List Char → Option String
  | [';'] => some ""
  | ';' :: ' ' :: '/' :: '/' :: ' ' :: comment => some ⟨comment⟩
  | _ => none

/-- What follows the number of a field: its rule in the `validate.v1.rules` option, which
ends at the line's last `]`, then the end. -/
def readFieldTail (after : List Char) : Option (String × String) :=
  match afterPrefix " [(validate.v1.rules).".toList after with
  | some rest =>
    match splitLast ']' rest with
    | some (rules, tail) => (readFieldEnd tail).map fun comments => (⟨rules⟩, comments)
    | none => none
  | none => (readFieldEnd after).map fun comments => ("", comments)

/-- A field from its label, type and name, and the text from its number on. -/
def fieldFrom (repeated : Bool) (type name : List Char) (number : List Char) : Option FieldLine :=
  match readNat number with
  | some (n, after) =>
    (readFieldTail after).map fun (rules, comments) =>
      { repeated, type := ⟨type⟩, name := ⟨name⟩, number := n, rules, comments }
  | none => none

/-- A field line `[repeated] <type> <name> = <number>…`: two words before `=`, or three of
which the first is `repeated`. -/
def readField (t : List Char) : Option FieldLine :=
  match t.span (· ≠ ' ') with
  | (first, ' ' :: rest) =>
    match rest.span (· ≠ ' ') with
    | (second, ' ' :: rest) =>
      match afterPrefix "= ".toList rest with
      | some number => fieldFrom false first second number
      | none =>
        match rest.span (· ≠ ' ') with
        | (third, after) =>
          if first = "repeated".toList then
            (afterPrefix " = ".toList after).bind (fieldFrom true second third)
          else none
    | _ => none
  | _ => none

/-- A constant line of an enum, `<name> = <value>;`, marked when it is the auto-generated one. -/
def readEnumLine (t : List Char) : Option EnumLine :=
  match t.span (· ≠ ' ') with
  | (name, after) =>
    match (afterPrefix " = ".toList after).bind readInt with
    | some (value, tail) =>
      if tail = [';'] then some ⟨⟨name⟩, value, false⟩
      else if tail = "; // auto generated".toList then some ⟨⟨name⟩, value, true⟩
      else none
    | none => none

/-- An import line: the path between its quotes, and what follows `//` if there is one. -/
def readImport (t : List Char) : Option (String × Option String) :=
  match afterPrefix "import \"".toList t with
  | some rest =>
    match rest.span (· ≠ '"') with
    | (path, ['"', ';']) => some (⟨path⟩, none)
    | (path, '"' :: ';' :: ' ' :: '/' :: '/' :: comment) => some (⟨path⟩, some ⟨comment⟩)
    | _ => none
  | none => none

/-- A package line `package <name>;`. -/
def readPackage (t : List Char) : Option String :=
  ((afterPrefix "package ".toList t).bind (beforeSuffix [';'])).map String.mk

/-- A line outside any block. The comment lines read so far become the file's header at
`syntax` and the comments of a block at its opening line. -/
def readTop (r : Reader) (t : List Char) : Option Reader :=
  if t = "syntax = \"proto3\";".toList then
    some { r with file := { r.file with header := r.pending }, pending := [] }
  else
    match readPackage t with
    | some p => some { r with file := { r.file with package := p } }
    | none =>
      match readImport t with
      | some i => some { r with file := { r.file with imports := r.file.imports ++ [i] } }
      | none =>
        match readOpening "enum" t with
        | some name => some { r with pending := [], frame := .enum ⟨r.pending, name, []⟩ }
        | none =>
          (readOpening "message" t).map fun name =>
            { r with pending := [], frame := .message ⟨r.pending, name, [], []⟩ }

/-- A line that is neither blank nor a comment, in the open block. -/
def readDecl (r : Reader) (t : List Char) : Option Reader :=
  match r.frame with
  | .top => readTop r t
  | .enum e =>
    if t = "\x7d;".toList then
      some { r with file := { r.file with decls := r.file.decls ++ [.enum e] }, frame := .top }
    else (readEnumLine t).map fun l => { r with frame := .enum { e with lines := e.lines ++ [l] } }
  | .message m =>
    if t = "\x7d;".toList then
      some { r with file := { r.file with decls := r.file.decls ++ [.message m] }, frame := .top }
    else
      match readField t with
      | some f => some { r with frame := .message { m with fields := m.fields ++ [f] } }
      | none =>
        (readOpening "oneof" t).map fun name =>
          { r with pending := [], frame := .oneof m ⟨r.pending, name, []⟩ }
  | .oneof m o =>
    if t = "\x7d".toList then some { r with frame := .message { m with oneofs := m.oneofs ++ [o] } }
    else (readField t).map fun f => { r with frame := .oneof m { o with fields := o.fields ++ [f] } }

/-- One line of the printed file, its indentation dropped: blank lines are skipped and
comment lines wait for the next declaration. -/
def readLine (r : Reader) (line : List Char) : Option Reader :=
  match skipWs line with
  | [] => some r
  | '/' :: '/' :: text => some { r with pending := r.pending ++ [commentText text] }
  | t => readDecl r t

def readLines (r : Reader) : List (List Char) → Option Reader
  | [] => some r
  | line :: rest => (readLine r line).bind fun r' => readLines r' rest

/-- The reader before the first line. -/
def Reader.start : Reader :=
  ⟨⟨[], "", [], []⟩, [], .top⟩

/-- Reading a printed proto file line by line; the file is read when every block is closed
and no comment is left without a declaration. -/
def readProto (text : String) : Option ProtoFile :=
  match readLines .start (text.toList.splitOn '\n') with
  | some r => if r.frame = .top ∧ r.pending = [] then some r.file else none
  | none => none

theorem toList_append (s t : String) : (s ++ t).toList = s.toList ++ t.toList := rfl

@[simp] theorem afterPrefix_append (pre s : List Char) : afterPrefix pre (pre ++ s) = some s := by
  induction pre with
  | nil => rfl
  | cons p pre ih => rw [List.cons_append, afterPrefix, if_pos rfl, ih]

theorem beforeSuffix_append (s suf : List Char) : beforeSuffix suf (s ++ suf) = some s := by
  rw [beforeSuffix, List.reverse_append, afterPrefix_append, Option.map_some', List.reverse_reverse]

theorem afterPrefix_cons_ne {p c : Char} (differ : p ≠ c) (pre s : List Char) :
    afterPrefix (p :: pre) (c :: s) = none := by
  rw [afterPrefix, if_neg differ]

theorem span_append_cons {c : Char} {w : List Char} (outside : c ∉ w) (rest : List Char) :
    (w ++ c :: rest).span (· ≠ c) = (w, c :: rest) := by
  have before : ∀ d ∈ w, decide (d ≠ c) = true := fun d member =>
    decide_eq_true fun same => outside (same ▸ member)
  have stop : ¬ decide (c ≠ c) = true := by simp
  rw [List.span_eq_take_drop, List.takeWhile_append_of_pos before, List.dropWhile_append_of_pos before]
  simp

theorem splitLast_append {c : Char} {tail : List Char} (outside : c ∉ tail) (before : List Char) :
    splitLast c (before ++ c :: tail) = some (before, tail) := by
  have reversed : (before ++ c :: tail).reverse = tail.reverse ++ c :: before.reverse := by simp
  rw [splitLast, reversed, span_append_cons (by simpa using outside)]
  simp

theorem skipWs_blanks {pad : List Char} (blank : ∀ c ∈ pad, c = ' ') (s : List Char) :
    skipWs (pad ++ s) = skipWs s := by
  induction pad with
  | nil => rfl
  | cons c pad ih =>
    rw [List.forall_mem_cons] at blank
    rw [List.cons_append, blank.1, skipWs, ih blank.2]

/-- Reading the lines of `text` takes the reader from `r` to `r'`, whatever text follows. -/
def Reads (text : List Char) (r r' : Reader) : Prop :=
  ∀ rest, readLines r ((text ++ rest).splitOn '\n') = readLines r' (rest.splitOn '\n')

section Reads

variable {a b : List Char} {r r' r'' : Reader}

theorem Reads.nil : Reads [] r r := fun _ => rfl

theorem Reads.trans (first : Reads a r r') (second : Reads b r' r'') : Reads (a ++ b) r r'' :=
  fun rest => by rw [List.append_assoc, first, second]

theorem splitOn_newline {line : List Char} (noNewline : '\n' ∉ line) (rest : List Char) :
    (line ++ '\n' :: rest).splitOn '\n' = line :: rest.splitOn '\n' :=
  List.splitOnP_first (· == '\n') line
    (fun c member same => noNewline ((beq_iff_eq.1 same : c = '\n') ▸ member)) '\n' (beq_self_eq_true _) rest

/-- One line: its text, which has no newline, then a newline. -/
theorem Reads.line {line : List Char} (noNewline : '\n' ∉ line) (step : readLine r line = some r') :
    Reads (line ++ ['\n']) r r' := fun rest => by
  rw [List.append_assoc, List.singleton_append, splitOn_newline noNewline, readLines, step, Option.some_bind]

theorem splitOn_blanks {pad : List Char} (blank : ∀ c ∈ pad, c = ' ') (s : List Char) :
    (pad ++ s).splitOn '\n' = (s.splitOn '\n').modifyHead (pad ++ ·) := by
  induction pad with
  | nil => rw [List.nil_append]; cases s.splitOn '\n' <;> rfl
  | cons c pad ih =>
    rw [List.forall_mem_cons] at blank
    rw [List.cons_append, List.splitOn, List.splitOnP_cons, blank.1, if_neg (by decide), ← List.splitOn,
      ih blank.2, List.modifyHead_modifyHead]
    rfl

/-- Indentation in front of a text is read as nothing. -/
theorem Reads.blanks {pad : List Char} (blank : ∀ c ∈ pad, c = ' ') (reads : Reads a r r') :
    Reads (pad ++ a) r r' := fun rest => by
  rw [List.append_assoc, splitOn_blanks blank, ← reads rest]
  cases (a ++ rest).splitOn '\n' with
  | nil => rfl
  | cons line lines => simp only [List.modifyHead, readLines, readLine, skipWs_blanks blank]

end Reads

end Asn1Proto
