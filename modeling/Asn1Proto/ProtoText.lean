import Asn1Proto.Decimal

namespace Asn1Proto

/-- The character a `charEscape` stands for. -/
def simpleEscape : Char → Option Char
  | 'a' => some '\x07'
  | 'b' => some '\x08'
  | 'f' => some '\x0c'
  | 'n' => some '\n'
  | 'r' => some '\r'
  | 't' => some '\t'
  | 'v' => some '\x0b'
  | '\\' => some '\\'
  | '\x27' => some '\x27'
  | '"' => some '"'
  | _ => none

def hexDigitValue (c : Char) : Option Nat :=
  if c.isDigit then some (c.toNat - 48)
  else if 'a' ≤ c ∧ c ≤ 'f' then some (c.toNat - 87)
  else if 'A' ≤ c ∧ c ≤ 'F' then some (c.toNat - 55)
  else none

def octDigitValue (c : Char) : Option Nat :=
  if '0' ≤ c ∧ c ≤ '7' then some (c.toNat - 48) else none

/-- At most `count` digits of a radix after the value `acc`: the value, how many digits
were read, and the text after them. -/
def readRadix (digit : Char → Option Nat) (radix : Nat) : Nat → Nat → List Char → Nat × Nat × List Char
  | 0, acc, s => (acc, 0, s)
  | _ + 1, acc, [] => (acc, 0, [])
  | count + 1, acc, c :: rest =>
    match digit c with
    | some v =>
      ((readRadix digit radix count (acc * radix + v) rest).1,
        (readRadix digit radix count (acc * radix + v) rest).2.1 + 1,
        (readRadix digit radix count (acc * radix + v) rest).2.2)
    | none => (acc, 0, c :: rest)

/-- What follows a backslash in a `charValue`: a `charEscape`, `hexEscape`,
`unicodeEscape` or `octEscape`, with the text after it. -/
def escapeValue : List Char → Option (Char × List Char)
  | [] => none
  | c :: rest =>
    match simpleEscape c with
    | some d => some (d, rest)
    | none =>
      if c = 'x' ∨ c = 'X' then
        match readRadix hexDigitValue 16 2 0 rest with
        | (_, 0, _) => none
        | (v, _, after) => some (Char.ofNat v, after)
      else if c = 'u' then
        match readRadix hexDigitValue 16 4 0 rest with
        | (v, 4, after) => some (Char.ofNat v, after)
        | _ => none
      else if c = 'U' then
        match readRadix hexDigitValue 16 8 0 rest with
        | (v, 8, after) => some (Char.ofNat v, after)
        | _ => none
      else
        match octDigitValue c with
        | some v =>
          some (Char.ofNat (readRadix octDigitValue 8 2 v rest).1, (readRadix octDigitValue 8 2 v rest).2.2)
        | none => none

/-- One `charValue` of the proto3 language specification
(`hexEscape | octEscape | charEscape | unicodeEscape | /[^\0\n\\]/`): the character it
stands for and the text after it. -/
def charValue : List Char → Option (Char × List Char)
  | [] => none
  | c :: rest =>
    if c = '\\' then escapeValue rest
    else if c = '\x00' ∨ c = '\n' then none
    else some (c, rest)

/-- The characters of a double-quoted literal after its opening quote, read up to the
closing quote: what they stand for and the text after the quote. Each step reads at least
one character, so `fuel` beyond the length of the text is enough. -/
def strLitBody : Nat → List Char → Option (List Char × List Char)
  | 0, _ => none
  | _ + 1, [] => none
  | fuel + 1, c :: rest =>
    if c = '"' then some ([], rest)
    else
      match charValue (c :: rest) with
      | some (d, after) => (strLitBody fuel after).map fun (body, rest) => (d :: body, rest)
      | none => none

/-- Decoding the text after an opening quote. -/
def decodeStrLit (s : List Char) : Option (List Char × List Char) :=
  strLitBody (s.length + 1) s

end Asn1Proto
