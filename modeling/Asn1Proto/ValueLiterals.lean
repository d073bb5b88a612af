import Asn1Proto.ValuePrint

namespace Asn1Proto

theorem maskQuotes_of_not_mem {s : List Char} (noQuote : '"' ∉ s) : maskQuotes s = s := by
  induction s with
  | nil => rfl
  | cons c s ih =>
    rw [List.mem_cons, not_or] at noQuote
    rw [maskQuotes, if_neg (Ne.symm noQuote.1), ih noQuote.2]
    rfl

theorem quoted_inj {a b : List Char} :
    "\"" ++ (⟨a⟩ : String) ++ "\"" = "\"" ++ ⟨b⟩ ++ "\"" ↔ a = b := by
  simp only [String.ext_iff, String.data_append, List.append_cancel_left_eq,
    List.append_cancel_right_eq]

/-- Without a quote in the string, `proto_value_print` writes only its first character:
the string is printed whole, with its quotes doubled, exactly when it has a quote or at
most one character. -/
theorem string_value_keeps_characters_iff (flags : Flags) (s : List Char) :
    protoValuePrint flags (some (.string s)) = "\"" ++ ⟨maskQuotes s⟩ ++ "\"" ↔
      '"' ∈ s ∨ s.length ≤ 1 := by
  rw [protoValuePrint, printValueCase, quoted_inj, stringBody]
  by_cases quote : '"' ∈ s
  · simp only [quote, true_or, if_true]
  · rw [if_neg quote, maskQuotes_of_not_mem quote]
    simp only [quote, false_or]
    constructor
    · intro kept
      rw [← kept, List.length_take]
      omega
    · exact List.take_of_length_le

example : protoValuePrint {} (some (.string "ab".toList)) = "\"a\"" := by decide

/-- Bit `i` of a bit vector, the most significant bit of each byte first, as ASN.1
numbers the bits of a bit string. -/
def bitAt (bitvector : List UInt8) (i : Nat) : Bool :=
  (bitvector.getD (i / 8) 0).toNat.testBit (7 - i % 8)

/-- The `n` bits of a bit vector. -/
def bitsOf (bitvector : List UInt8) (n : Nat) : List Bool :=
  (List.range n).map (bitAt bitvector)

/-- The two notations of an ASN.1 bit string value. -/
inductive BitLiteralForm
  | bstring | hstring
  deriving DecidableEq, Repr

/-- The binary digits of a bstring, up to its closing `'B`. -/
def bstringDigits : List Char → Option (List Bool)
  | ['\'', 'B'] => some []
  | '0' :: rest => (bstringDigits rest).map (false :: ·)
  | '1' :: rest => (bstringDigits rest).map (true :: ·)
  | _ => none

/-- The value of a digit of an hstring, which ASN.1 writes with upper-case letters. -/
def hstringDigitValue (c : Char) : Option Nat :=
  if '0' ≤ c ∧ c ≤ '9' then some (c.toNat - 48)
  else if 'A' ≤ c ∧ c ≤ 'F' then some (c.toNat - 55)
  else none

/-- The four bits of a hex digit's value, most significant first. -/
def nibbleBits (v : Nat) : List Bool :=
  [v.testBit 3, v.testBit 2, v.testBit 1, v.testBit 0]

/-- The hex digits of an hstring, four bits each, up to its closing `'H`. -/
def hstringDigits : List Char → Option (List Bool)
  | ['\'', 'H'] => some []
  | c :: rest => (hstringDigitValue c).bind fun v => (hstringDigits rest).map (nibbleBits v ++ ·)
  | [] => none

/-- An ASN.1 bit string literal read back: its notation and its bits. -/
def readBitLiteral (literal : String) : Option (BitLiteralForm × List Bool) :=
  match literal.toList with
  | '\'' :: rest =>
    if rest.getLast? = some 'B' then (bstringDigits rest).map (.bstring, ·)
    else (hstringDigits rest).map (.hstring, ·)
  | _ => none

theorem bitChar_eq (bitvector : List UInt8) (i : Nat) :
    bitChar bitvector i = if bitAt bitvector i then '1' else '0' := by
  simp only [bitChar, bitAt, Nat.shiftRight_eq_div_pow, Nat.testBit_to_div_mod, decide_eq_true_eq]

theorem bstringDigits_bits (bitvector : List UInt8) (positions : List Nat) :
    bstringDigits (positions.map (bitChar bitvector) ++ ['\'', 'B']) =
      some (positions.map (bitAt bitvector)) := by
  induction positions with
  | nil => rfl
  | cons i positions ih =>
    simp only [List.map_cons, List.cons_append, bitChar_eq]
    cases bitAt bitvector i
    · exact congrArg (Option.map (false :: ·)) ih
    · exact congrArg (Option.map (true :: ·)) ih

theorem hstringDigitValue_hextable (v : Nat) (small : v < 16) :
    hstringDigitValue (hextable.getD v '0') = some v := by
  obtain ⟨v, small⟩ : ∃ k : Fin 16, k.val = v := ⟨⟨v, small⟩, rfl⟩
  subst small
  revert v
  decide

theorem hstringDigits_digit {c : Char} {v : Nat} (digit : hstringDigitValue c = some v) (rest : List Char) :
    hstringDigits (c :: rest) = (hstringDigits rest).map (nibbleBits v ++ ·) := by
  have notQuote : c ≠ '\'' := by
    rintro rfl
    cases digit
  rw [hstringDigits.eq_2 _ _ (fun quote _ => notQuote quote), digit, Option.some_bind]

/-- The eight bits of byte `k` of a bit vector, most significant first. -/
def byteBits (bitvector : List UInt8) (k : Nat) : List Bool :=
  nibbleBits ((bitvector.getD k 0).toNat >>> 4) ++ nibbleBits ((bitvector.getD k 0).toNat % 16)

theorem hstringDigits_bytes (bitvector : List UInt8) (positions : List Nat) :
    hstringDigits ((positions.map (hexChars bitvector)).flatten ++ ['\'', 'H']) =
      some (positions.map (byteBits bitvector)).flatten := by
  induction positions with
  | nil => rfl
  | cons k positions ih =>
    have byte := UInt8.toNat_lt_size (bitvector.getD k 0)
    have high : (bitvector.getD k 0).toNat >>> 4 < 16 := by
      rw [Nat.shiftRight_eq_div_pow]
      exact Nat.div_lt_of_lt_mul byte
    have low : (bitvector.getD k 0).toNat % 16 < 16 := Nat.mod_lt _ (by decide)
    simp only [List.map_cons, List.flatten_cons, hexChars, byteBits, List.cons_append,
      List.nil_append, hstringDigits_digit (hstringDigitValue_hextable _ high),
      hstringDigits_digit (hstringDigitValue_hextable _ low), ih, Option.map_some', List.append_assoc]

theorem bitAt_byte (bitvector : List UInt8) (k j : Nat) (small : j < 8) :
    bitAt bitvector (8 * k + j) = (bitvector.getD k 0).toNat.testBit (7 - j) := by
  rw [bitAt, show (8 * k + j) / 8 = k by omega, show (8 * k + j) % 8 = j by omega]

theorem byteBits_eq (bitvector : List UInt8) (k : Nat) :
    byteBits bitvector k = (List.range 8).map (fun j => bitAt bitvector (8 * k + j)) := by
  have low (x : Nat) : x % 16 = x % 2 ^ 4 := rfl
  show _ = [_, _, _, _, _, _, _, _]
  simp only [bitAt_byte _ k _ (by decide : (0 : Nat) < 8), bitAt_byte _ k _ (by decide : 1 < 8),
    bitAt_byte _ k _ (by decide : 2 < 8), bitAt_byte _ k _ (by decide : 3 < 8),
    bitAt_byte _ k _ (by decide : 4 < 8), bitAt_byte _ k _ (by decide : 5 < 8),
    bitAt_byte _ k _ (by decide : 6 < 8), bitAt_byte _ k _ (by decide : 7 < 8), byteBits, nibbleBits,
    low, Nat.testBit_shiftRight, Nat.testBit_mod_two_pow]
  rfl

theorem flatten_byteBits (bitvector : List UInt8) (m : Nat) :
    ((List.range m).map (byteBits bitvector)).flatten = bitsOf bitvector (8 * m) := by
  induction m with
  | zero => rfl
  | succ m ih =>
    rw [List.range_succ, List.map_append, List.flatten_append, ih, bitsOf, bitsOf,
      show 8 * (m + 1) = 8 * m + 8 by omega, List.range_add, List.map_append, List.map_map]
    simp only [List.map_cons, List.map_nil, List.flatten_cons, List.flatten_nil, List.append_nil,
      byteBits_eq]
    rfl

theorem readBitLiteral_quoted (body : List Char) :
    readBitLiteral ("'" ++ ⟨body⟩) =
      if body.getLast? = some 'B' then (bstringDigits body).map (.bstring, ·)
      else (hstringDigits body).map (.hstring, ·) := rfl

theorem length_hexChars_flatten (bitvector : List UInt8) (positions : List Nat) :
    ((positions.map (hexChars bitvector)).flatten).length = 2 * positions.length := by
  induction positions with
  | nil => rfl
  | cons k positions ih =>
    simp only [List.map_cons, List.flatten_cons, List.length_append, ih, hexChars, List.length_cons,
      List.length_nil]
    omega

/-- The literal of a bit vector: a quote, one digit per bit or two per byte, then `'B` or `'H`. -/
theorem bitvector_literal_length (flags : Flags) (bitvector : List UInt8) (bits : Nat) :
    (protoValuePrint flags (some (.bitvector bitvector bits))).length =
      if bits % 8 = 0 then 2 * (bits / 8) + 3 else bits + 3 := by
  rw [protoValuePrint, printValueCase, bitvectorBody]
  by_cases aligned : bits % 8 = 0
  · rw [if_neg (fun odd => odd aligned), if_pos aligned]
    simp only [String.length_append, String.length_mk, length_hexChars_flatten, List.length_range,
      show "'".length = 1 from rfl, show "'H".length = 2 from rfl]
    omega
  · rw [if_pos aligned, if_neg aligned]
    simp only [String.length_append, String.length_mk, List.length_map, List.length_range,
      show "'".length = 1 from rfl, show "'B".length = 2 from rfl]
    omega

/-- A bit vector of `n` bits whose literal fits, with its terminator, the 256 bytes
`proto_value_print` allocates (fewer than 253 bits for a bstring, fewer than 127 bytes for an
hstring) prints as the bstring of its bits when `n` is not a multiple of 8, and as the
upper-case hstring of its `n / 8` bytes when it is; either literal reads back as the same
`n` bits. -/
theorem bitvector_literal_round_trip (flags : Flags) (bitvector : List UInt8) (bits : Nat)
    (fits : if bits % 8 = 0 then bits / 8 < 127 else bits < 253) :
    readBitLiteral (protoValuePrint flags (some (.bitvector bitvector bits))) =
      some (if bits % 8 = 0 then .hstring else .bstring, bitsOf bitvector bits) ∧
    (protoValuePrint flags (some (.bitvector bitvector bits))).length + 1 ≤ 256 := by
  refine ⟨?_, ?_⟩
  · by_cases aligned : bits % 8 = 0
    · have whole : 8 * (bits / 8) = bits := by omega
      have body := hstringDigits_bytes bitvector (List.range (bits / 8))
      rw [flatten_byteBits, whole] at body
      rw [protoValuePrint, printValueCase, bitvectorBody, if_neg (fun odd => odd aligned), if_pos aligned]
      exact (readBitLiteral_quoted _).trans (by simp only [List.getLast?_append, body]; rfl)
    · have body := bstringDigits_bits bitvector (List.range bits)
      rw [protoValuePrint, printValueCase, bitvectorBody, if_pos aligned, if_neg aligned]
      exact (readBitLiteral_quoted _).trans (by simp only [List.getLast?_append, body]; rfl)
  · rw [bitvector_literal_length]
    split <;> split at fits <;> omega

theorem a580_literals_round_trip :
    readBitLiteral (protoValuePrint {} (some (.bitvector [0xA5, 0x80] 9))) =
        some (.bstring, [true, false, true, false, false, true, false, true, true]) ∧
      readBitLiteral (protoValuePrint {} (some (.bitvector [0xA5, 0x80] 16))) =
        some (.hstring, [true, false, true, false, false, true, false, true,
          true, false, false, false, false, false, false, false]) :=
  ⟨(bitvector_literal_round_trip {} [0xA5, 0x80] 9 (by decide)).1,
    (bitvector_literal_round_trip {} [0xA5, 0x80] 16 (by decide)).1⟩

/-- A bstring of 253 bits prints as a literal of 256 characters and an hstring of 127 bytes as
one of 257: with its terminator, neither fits the 256 bytes `proto_value_print` allocates. -/
theorem bitvector_literals_overflow :
    256 < (protoValuePrint {} (some (.bitvector (List.replicate 32 0) 253))).length + 1 ∧
      256 < (protoValuePrint {} (some (.bitvector (List.replicate 127 0) 1016))).length + 1 := by
  rw [bitvector_literal_length, bitvector_literal_length]
  decide

example : protoValuePrint {} (some (.bitvector [0xA5, 0x80] 9)) = "'101001011'B" ∧
    protoValuePrint {} (some (.bitvector [0xA5, 0x0F] 16)) = "'A50F'H" := by decide

end Asn1Proto
