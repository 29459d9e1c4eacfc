/-
# Library.Numeral -- numbers and byte strings as text

Positional numerals in a base up to 16 with an optional sign, and byte strings as two hexadecimal
digits for each byte.  Digits above nine may be read in either case and are written in lower case.

* `parseInt_intDigits`: a number is read back from its numeral.
* `decodeHex_encodeHex`: a byte string is read back from its digits.
-/
import Mathlib.Data.Nat.Basic

namespace CrossShard.Library

set_option autoImplicit false

/-! ## Digits -/

/-- The value of a digit, in either case. -/
def digitValue (c : Char) : Option Nat :=
  if '0' ≤ c ∧ c ≤ '9' then some (c.toNat - '0'.toNat)
  else if 'a' ≤ c ∧ c ≤ 'z' then some (c.toNat - 'a'.toNat + 10)
  else if 'A' ≤ c ∧ c ≤ 'Z' then some (c.toNat - 'A'.toNat + 10)
  else none

/-- The value of a digit of the base. -/
def digitIn (base : Nat) (c : Char) : Option Nat :=
  (digitValue c).filter fun d => d < base

theorem digitValue_digitChar : ∀ d < 16, digitValue d.digitChar = some d := by decide

theorem digitIn_digitChar {base d : Nat} (inBase : d < base) (small : base ≤ 16) :
    digitIn base d.digitChar = some d := by
  rw [digitIn, digitValue_digitChar d (Nat.lt_of_lt_of_le inBase small), Option.filter_some]
  simp [inBase]

/-! ## Numbers -/

/-- Reading one more digit. -/
def readDigit (base : Nat) (acc : Nat) (c : Char) : Option Nat :=
  (digitIn base c).map fun d => acc * base + d

/-- A non-empty list of digits. -/
def parseNat (base : Nat) (digits : List Char) : Option Nat :=
  if digits = [] then none else digits.foldlM (readDigit base) 0

theorem foldlM_toDigits {base : Nat} (large : 1 < base) (small : base ≤ 16) (n : Nat) :
    (Nat.toDigits base n).foldlM (readDigit base) 0 = some n := by
  induction n using Nat.strongRecOn with
  | ind n ih =>
      rw [Nat.toDigits_eq_if large]
      split
      · rename_i single
        simp [readDigit, digitIn_digitChar single small]
      · rename_i several
        have positive : 0 < n := by omega
        have last : n % base < base := Nat.mod_lt n (by omega)
        rw [List.foldlM_append, ih (n / base) (Nat.div_lt_self positive large)]
        simp [readDigit, digitIn_digitChar last small, Nat.div_add_mod']

theorem toDigits_ne_nil (base n : Nat) : Nat.toDigits base n ≠ [] := by
  intro empty
  have length := Nat.length_toDigits_pos (b := base) (n := n)
  rw [empty] at length
  exact Nat.lt_irrefl 0 length

theorem parseNat_toDigits {base : Nat} (large : 1 < base) (small : base ≤ 16) (n : Nat) :
    parseNat base (Nat.toDigits base n) = some n := by
  rw [parseNat, if_neg (toDigits_ne_nil base n), foldlM_toDigits large small]

/-- An optional sign and digits. -/
def parseInt (base : Nat) (text : List Char) : Option Int :=
  match text with
  | '-' :: digits => (parseNat base digits).map fun n : Nat => -(n : Int)
  | '+' :: digits => (parseNat base digits).map Int.ofNat
  | digits => (parseNat base digits).map Int.ofNat

/-- The decimal numeral, with a sign if the number is negative. -/
def intDigits (n : Int) : List Char :=
  if n < 0 then '-' :: Nat.toDigits 10 n.natAbs else Nat.toDigits 10 n.natAbs

theorem digitIn_of_mem_toDigits (n : Nat) {c : Char} (member : c ∈ Nat.toDigits 10 n) :
    ∃ d, digitIn 10 c = some d := by
  induction n using Nat.strongRecOn with
  | ind n ih =>
      rw [Nat.toDigits_eq_if (by decide)] at member
      split at member
      · rename_i single
        rw [List.mem_singleton.1 member]
        exact ⟨n, digitIn_digitChar single (by decide)⟩
      · rename_i several
        rcases List.mem_append.1 member with before | last
        · exact ih (n / 10) (by omega) before
        · rw [List.mem_singleton.1 last]
          exact ⟨n % 10, digitIn_digitChar (by omega) (by decide)⟩

/-- A numeral without sign is read as digits. -/
theorem parseInt_toDigits (n : Nat) : parseInt 10 (Nat.toDigits 10 n) = some (n : Int) := by
  have read : parseNat 10 (Nat.toDigits 10 n) = some n :=
    parseNat_toDigits (by decide) (by decide) n
  unfold parseInt
  split
  · rename_i digits same
    obtain ⟨d, sign⟩ := digitIn_of_mem_toDigits n (same ▸ List.mem_cons_self)
    cases sign
  · rename_i digits same
    obtain ⟨d, sign⟩ := digitIn_of_mem_toDigits n (same ▸ List.mem_cons_self)
    cases sign
  · rw [read]
    rfl

/-- **Numbers are read back.** -/
theorem parseInt_intDigits (n : Int) : parseInt 10 (intDigits n) = some n := by
  unfold intDigits
  split
  · rename_i negative
    rw [parseInt, parseNat_toDigits (by decide) (by decide), Option.map_some]
    congr 1
    omega
  · rename_i nonneg
    rw [parseInt_toDigits]
    congr 1
    omega

/-! ## Byte strings -/

inductive HexError where
  | invalidByte (c : Char)
  | length
  deriving DecidableEq

def encodeByte (b : UInt8) : List Char :=
  [(b.toNat / 16).digitChar, (b.toNat % 16).digitChar]

def encodeHex (bytes : List UInt8) : List Char := bytes.flatMap encodeByte

/-- Two digits a byte; of two faults the first in the text is reported. -/
def decodeHex : List Char → Except HexError (List UInt8)
  | [] => .ok []
  | [c] =>
      match digitIn 16 c with
      | none => .error (.invalidByte c)
      | some _ => .error .length
  | p :: q :: rest =>
      match digitIn 16 p, digitIn 16 q with
      | none, _ => .error (.invalidByte p)
      | some _, none => .error (.invalidByte q)
      | some a, some b => (decodeHex rest).map (UInt8.ofNat (16 * a + b) :: ·)

theorem decodeHex_encodeByte (b : UInt8) (rest : List Char) :
    decodeHex (encodeByte b ++ rest) = (decodeHex rest).map (b :: ·) := by
  have bound := b.toNat_lt
  have high : digitIn 16 (b.toNat / 16).digitChar = some (b.toNat / 16) :=
    digitIn_digitChar (by omega) (by decide)
  have low : digitIn 16 (b.toNat % 16).digitChar = some (b.toNat % 16) :=
    digitIn_digitChar (by omega) (by decide)
  simp only [encodeByte, List.cons_append, List.nil_append, decodeHex, high, low,
    Nat.div_add_mod, UInt8.ofNat_toNat]

/-- **Byte strings are read back.** -/
theorem decodeHex_encodeHex (bytes : List UInt8) : decodeHex (encodeHex bytes) = .ok bytes := by
  induction bytes with
  | nil => rfl
  | cons b bytes ih =>
      rw [encodeHex, List.flatMap_cons, decodeHex_encodeByte]
      show (decodeHex (encodeHex bytes)).map (b :: ·) = _
      rw [ih]
      rfl

end CrossShard.Library
