/-
# Protocol.Codec -- amounts and byte strings on the wire

`internal/protocol/types.go`.  `BigInt` is written as a decimal string and read from a decimal
string, a hexadecimal string with `0x`, or a number that fits 64 bits; `HexBytes` is written with
`0x` in lower case and read with or without it, in either case.  The decoders try these one after
the other, so a text that one branch takes never reaches the next.

Quoting and parsing belong to `encoding/json`: a `Json` is any pair of them where a quoted string
is parsed as that string.

* `BigInt.unmarshalJSON_marshalJSON`, `HexBytes.unmarshalJSON_marshalJSON`: no canonical text is
  taken by another branch.
* `codecs_round_trip`: these, and decoding what an accepted input is re-encoded to.
-/
import CrossShard.Library.Numeral
import CrossShard.Protocol.Types

namespace CrossShard.Protocol

set_option autoImplicit false

open CrossShard.Library

/-! ## `encoding/json` -/

/-- What a JSON text is, as far as the codecs look; a number holds its value if that is an integer
of 64 bits. -/
inductive JsonValue where
  | null
  | string (s : String)
  | number (n : Option Int64)
  | other
  deriving DecidableEq

/-- `marshal` is `json.Marshal` on strings, `parse` what `json.Unmarshal` finds. -/
structure Json where
  marshal : String → String
  parse : String → Option JsonValue
  parse_marshal : ∀ s, parse (marshal s) = some (.string s)

namespace Json

/-- `json.Unmarshal` into an empty string, which a `null` leaves alone. -/
def unmarshalString (J : Json) (data : String) : Option String :=
  match J.parse data with
  | some (.string s) => some s
  | some .null => some ""
  | _ => none

/-- `json.Unmarshal` into a zero `int64`. -/
def unmarshalInt64 (J : Json) (data : String) : Option Int64 :=
  match J.parse data with
  | some (.number n) => n
  | some .null => some 0
  | _ => none

theorem unmarshalString_marshal (J : Json) (s : String) :
    J.unmarshalString (J.marshal s) = some s := by
  rw [unmarshalString, J.parse_marshal]

end Json

/-! ## `math/big` and `encoding/hex` -/

/-- `big.Int.SetString` in a base up to 16. -/
def bigSetString (s : String) (base : Nat) : Option Int := parseInt base s.toList

/-- `big.Int.String`. -/
def bigString (n : Int) : String := String.ofList (intDigits n)

/-- `hex.EncodeToString`. -/
def hexEncodeToString (b : Bytes) : String := String.ofList (encodeHex b)

/-- `hex.DecodeString`. -/
def hexDecodeString (s : String) : Except HexError Bytes := decodeHex s.toList

/-- The character as the first byte of its encoding, which is where decoding stops. -/
def firstByte (c : Char) : UInt8 := (String.utf8EncodeChar c).headD 0

/-- The code point of a byte in the format `%#U`, which shows it if it can be printed. -/
def formatCodePoint (b : UInt8) : String :=
  let code := (String.ofList (encodeHex [b])).toUpper
  let rune := Char.ofNat b.toNat
  if 0x20 ≤ b ∧ b ≤ 0x7e ∨ 0xa1 ≤ b ∧ b ≠ 0xad then s!"U+00{code} '{rune}'" else s!"U+00{code}"

/-- The texts of `encoding/hex`. -/
def hexMessage : HexError → String
  | .invalidByte c => "encoding/hex: invalid byte: " ++ formatCodePoint (firstByte c)
  | .length => "encoding/hex: odd length hex string"

/-- `s[2:]` if the text starts with `0x`. -/
def stripHex (s : String) : Option String :=
  match s.toList with
  | '0' :: 'x' :: rest => some (String.ofList rest)
  | _ => none

theorem stripHex_eq_some (rest : List Char) :
    stripHex (String.ofList ('0' :: 'x' :: rest)) = some (String.ofList rest) := by
  rw [stripHex, String.toList_ofList]
  rfl

/-! ## The codecs -/

/-- The pointer inside a `BigInt` may be nil. -/
def BigInt.marshalJSON (J : Json) : Option Int → String
  | none => "\"0\""
  | some n => J.marshal (bigString n)

def BigInt.unmarshalJSON (J : Json) (data : String) : Except String Int :=
  match J.unmarshalString data with
  | none =>
      match J.unmarshalInt64 data with
      | none => .error s!"BigInt: cannot unmarshal {data}"
      | some n => .ok n.toInt
  | some s =>
      match stripHex s with
      | some digits =>
          match bigSetString digits 16 with
          | none => .error s!"BigInt: invalid hex string {s}"
          | some n => .ok n
      | none =>
          match bigSetString s 10 with
          | none => .error s!"BigInt: invalid decimal string {s}"
          | some n => .ok n

def HexBytes.marshalJSON (J : Json) (h : Bytes) : String := J.marshal ("0x" ++ hexEncodeToString h)

def HexBytes.unmarshalJSON (J : Json) (data : String) : Except String Bytes :=
  match J.unmarshalString data with
  | none => .error s!"HexBytes: expected string, got {data}"
  | some s =>
      if s = "" ∨ s = "0x" then .ok []
      else
        let digits := (stripHex s).getD s
        match hexDecodeString digits with
        | .error err =>
            let reason := hexMessage err
            .error s!"HexBytes: invalid hex {digits}: {reason}"
        | .ok decoded => .ok decoded

/-! ## Round trips -/

/-- A decimal numeral does not look like a hexadecimal one. -/
theorem stripHex_bigString (n : Int) : stripHex (bigString n) = none := by
  unfold stripHex bigString
  rw [String.toList_ofList]
  split
  · rename_i rest same
    exfalso
    unfold intDigits at same
    split at same
    · cases same
    · obtain ⟨d, digit⟩ := digitIn_of_mem_toDigits n.natAbs (c := 'x') (by rw [same]; simp)
      cases digit
  · rfl

/-- **Every number is read back**, of any sign and size. -/
theorem BigInt.unmarshalJSON_marshalJSON (J : Json) (n : Int) :
    BigInt.unmarshalJSON J (BigInt.marshalJSON J (some n)) = .ok n := by
  have read : bigSetString (bigString n) 10 = some n := by
    rw [bigSetString, bigString, String.toList_ofList, parseInt_intDigits]
  simp only [BigInt.unmarshalJSON, BigInt.marshalJSON, J.unmarshalString_marshal,
    stripHex_bigString, read]

theorem hexText_eq_ofList (b : Bytes) :
    "0x" ++ hexEncodeToString b = String.ofList ('0' :: 'x' :: encodeHex b) := by
  apply String.toList_inj.1
  simp [hexEncodeToString]

/-- Bytes are read back from their text. -/
theorem hexDecodeString_hexText (b : Bytes) :
    hexDecodeString ((stripHex ("0x" ++ hexEncodeToString b)).getD ("0x" ++ hexEncodeToString b)) =
      .ok b := by
  rw [hexText_eq_ofList, stripHex_eq_some, Option.getD_some, hexDecodeString,
    String.toList_ofList, decodeHex_encodeHex]

/-- **Every byte string is read back**, the empty one through its own branch. -/
theorem HexBytes.unmarshalJSON_marshalJSON (J : Json) (b : Bytes) :
    HexBytes.unmarshalJSON J (HexBytes.marshalJSON J b) = .ok b := by
  simp only [HexBytes.unmarshalJSON, HexBytes.marshalJSON, J.unmarshalString_marshal]
  split
  · rename_i empty
    rw [hexText_eq_ofList] at empty
    cases b with
    | nil => rfl
    | cons byte bytes =>
        rcases empty with empty | empty <;>
          · have lengths := congrArg (fun s => s.toList.length) empty
            simp [encodeHex, encodeByte] at lengths
  · rw [hexDecodeString_hexText]

/-- **The wire codecs round-trip**: for every number and every byte string, and for the value of
every accepted input. -/
theorem codecs_round_trip (J : Json) :
    (∀ n : Int, BigInt.unmarshalJSON J (BigInt.marshalJSON J (some n)) = .ok n) ∧
    (∀ b : Bytes, HexBytes.unmarshalJSON J (HexBytes.marshalJSON J b) = .ok b) ∧
    (∀ data n, BigInt.unmarshalJSON J data = .ok n →
      BigInt.unmarshalJSON J (BigInt.marshalJSON J (some n)) = .ok n) ∧
    (∀ data b, HexBytes.unmarshalJSON J data = .ok b →
      HexBytes.unmarshalJSON J (HexBytes.marshalJSON J b) = .ok b) :=
  ⟨BigInt.unmarshalJSON_marshalJSON J, HexBytes.unmarshalJSON_marshalJSON J,
    fun _ n _ => BigInt.unmarshalJSON_marshalJSON J n,
    fun _ b _ => HexBytes.unmarshalJSON_marshalJSON J b⟩

namespace CodecPole

/-- Strings without escapes, integers and `null`. -/
def plainJson : Json where
  marshal s := String.ofList ('"' :: s.toList ++ ['"'])
  parse data :=
    match data.toList with
    | '"' :: rest =>
        if rest.getLast? = some '"' then some (.string (String.ofList rest.dropLast)) else none
    | text =>
        if data = "null" then some .null
        else (parseInt 10 text).map fun n =>
          .number (if -2 ^ 63 ≤ n ∧ n < 2 ^ 63 then some (Int64.ofInt n) else none)
  parse_marshal s := by
    simp only [String.toList_ofList, List.cons_append, List.getLast?_concat,
      List.dropLast_concat, String.ofList_toList, if_true]

example : (["\"-12345\"", "\"0x1a2B\"", "-100", "\"0x-f\"", "null", "\"0xg\""].map
    (BigInt.unmarshalJSON plainJson)).map Except.toOption =
      [some (-12345), some 6699, some (-100), some (-15), none, none] := by decide +kernel

example : (["\"\"", "\"0x\"", "\"0xAaBb\"", "\"aabb\"", "null", "\"0xabc\"", "12"].map
    (HexBytes.unmarshalJSON plainJson)).map Except.toOption =
      [some [], some [], some [0xaa, 0xbb], some [0xaa, 0xbb], some [], none, none] := by
  decide +kernel

end CodecPole

end CrossShard.Protocol
