import Asn1Proto.Ast

namespace Asn1Proto

/-- The bits of `asn1print_flags2` the printers read. -/
structure Flags where
  noIndent2 : Bool := false
  int32Value : Bool := false
  stringValue : Bool := false
  deriving DecidableEq, Repr

/-- The C conversion of an integer to `int`: its residue modulo 2^32 read as two's
complement, as the `(int)` casts compute it. -/
def toCInt (v : Int) : Int :=
  Int.bmod v (2 ^ 32)

/-- Modelled from the spec: `asn1p_itoa` (libasn1parser is not under src/) writes the
integer in base 10. -/
def asn1pItoa (v : Int) : String :=
  toString v

/-- `escapeQuotesDup`: every `"` is written as `\"`, every other character as itself. -/
def escapeQuotesDup : List Char → List Char
  | [] => []
  | c :: rest => (if c = '"' then ['\\', c] else [c]) ++ escapeQuotesDup rest

/-- The `ATV_STRING` branch of `proto_value_print` between its two quotes: with a quote
in the string every character is written and each quote twice; without one, the
`else` branch writes `%c` of the first character only (nothing for the terminator). -/
def maskQuotes : List Char → List Char
  | [] => []
  | c :: rest => (if c = '"' then [c, c] else [c]) ++ maskQuotes rest

def stringBody (buf : List Char) : List Char :=
  if '"' ∈ buf then maskQuotes buf else buf.take 1

/-- The digit `'1'` or `'0'` of bit `i` of a bit vector, most significant bit first. -/
def bitChar (bitvector : List UInt8) (i : Nat) : Char :=
  if ((bitvector.getD (i / 8) 0).toNat >>> (7 - i % 8)) % 2 = 1 then '1' else '0'

def hextable : List Char :=
  "0123456789ABCDEF".toList

/-- The two hex digits of byte `i`, high nibble first. -/
def hexChars (bitvector : List UInt8) (i : Nat) : List Char :=
  [hextable.getD ((bitvector.getD i 0).toNat >>> 4) '0',
    hextable.getD ((bitvector.getD i 0).toNat % 16) '0']

def bitvectorBody (bitvector : List UInt8) (bits : Nat) : String :=
  if bits % 8 ≠ 0 then
    ⟨(List.range bits).map (bitChar bitvector)⟩ ++ "'B"
  else
    ⟨((List.range (bits / 8)).map (hexChars bitvector)).flatten⟩ ++ "'H"

/-- The switch on `val->type` of `proto_value_print`. -/
def printValueCase (flags : Flags) : Value → String
  | .novalue => ""
  | .null => "NULL"
  | .real fixed => fixed
  | .type _ => "ERROR not yet implemented"
  | .integer v => asn1pItoa v
  | .min => "0"
  | .max => if flags.int32Value then toString (2147483647 : Int) else ""
  | .false => "FALSE"
  | .true => "TRUE"
  | .tuple v => "\x7b" ++ toString (toCInt (v / 16)) ++ ", " ++ toString (toCInt (v % 16)) ++ "\x7d"
  | .quadruple v =>
    "\x7b" ++ toString ((v / 2 ^ 24) % 256) ++ ", " ++ toString ((v / 2 ^ 16) % 256) ++ ", " ++
      toString ((v / 2 ^ 8) % 256) ++ ", " ++ toString (v % 256) ++ "\x7d"
  | .string buf => "\"" ++ ⟨stringBody buf⟩ ++ "\""
  | .unparsed buf => ⟨buf⟩
  | .bitvector bits sizeInBits => "'" ++ bitvectorBody bits sizeInBits
  | .referenced components => ".".intercalate components
  | .valueset => ""
  | .choiceIdentifier identifier value => identifier ++ printValueCase flags value

/-- `proto_value_print`; `NULL` is `none`. -/
def protoValuePrint (flags : Flags) : Option Value → String
  | none => ""
  | some v => printValueCase flags v

end Asn1Proto
