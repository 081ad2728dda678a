import Mathlib.Algebra.GroupWithZero.Nat
import Linhello.Common.Error
/-!
# Hex

`hex_lower` and `from_hex` of the signature files. Reading takes the text two bytes
at a time; a slice that would cut a character in half panics.
-/

namespace Linhello.Common

def hexDigit (d : Nat) : Char :=
  if d < 10 then Char.ofNat (48 + d) else Char.ofNat (87 + d)

def hexLower (bytes : Bytes) : String :=
  String.ofList (bytes.flatMap fun b => [hexDigit (b.toNat / 16), hexDigit (b.toNat % 16)])

def digitOf? (c : Char) : Option Nat :=
  if '0' ≤ c ∧ c ≤ '9' then some (c.toNat - 48)
  else if 'a' ≤ c ∧ c ≤ 'f' then some (c.toNat - 87)
  else if 'A' ≤ c ∧ c ≤ 'F' then some (c.toNat - 55)
  else none

/-- `u8::from_str_radix` of two characters; a leading plus sign is allowed. -/
def byteOf? (a b : Char) : Option UInt8 :=
  if a = '+' then (digitOf? b).map UInt8.ofNat
  else do
    let hi ← digitOf? a
    let lo ← digitOf? b
    some (UInt8.ofNat (16 * hi + lo))

inductive HexError
  | oddLength
  | badDigit
  /-- The slice is not on a character boundary. -/
  | panics
  deriving DecidableEq

def HexError.toError : HexError → LinuxHelloError
  | .oddLength => .serde "odd-length hex string"
  | .badDigit => .serde "bad hex: invalid digit found in string"
  | .panics => .serde "byte index is not a char boundary"

def hexPairs : List Char → Except HexError Bytes
  | [] => .ok []
  | a :: rest =>
      if a.utf8Size = 2 then .error .badDigit
      else if 2 < a.utf8Size then .error .panics
      else
        match rest with
        | [] => .error .panics
        | b :: rest =>
            if b.utf8Size ≠ 1 then .error .panics
            else
              match byteOf? a b with
              | none => .error .badDigit
              | some x => (hexPairs rest).map (x :: ·)

/-- The length of a text in UTF-8. -/
def utf8Len (cs : List Char) : Nat := (cs.map Char.utf8Size).sum

def fromHex (s : String) : Except HexError Bytes :=
  if utf8Len s.toList % 2 ≠ 0 then .error .oddLength else hexPairs s.toList

theorem digitOf?_hexDigit : ∀ d < 16, digitOf? (hexDigit d) = some d := by decide

theorem utf8Size_hexDigit : ∀ d < 16, (hexDigit d).utf8Size = 1 := by decide

private theorem hexDigit_ne_plus : ∀ d < 16, hexDigit d ≠ '+' := by decide

theorem byteOf?_hexDigit (b : UInt8) :
    byteOf? (hexDigit (b.toNat / 16)) (hexDigit (b.toNat % 16)) = some b := by
  have hlt := b.toNat_lt
  have hhi : b.toNat / 16 < 16 := by omega
  have hlo : b.toNat % 16 < 16 := by omega
  have hvalue : 16 * (b.toNat / 16) + b.toNat % 16 = b.toNat := by omega
  rw [byteOf?, if_neg (hexDigit_ne_plus _ hhi), digitOf?_hexDigit _ hhi, digitOf?_hexDigit _ hlo]
  change some (UInt8.ofNat _) = some b
  rw [hvalue, UInt8.ofNat_toNat]

theorem hexPairs_hexDigits (bytes : Bytes) :
    hexPairs (bytes.flatMap fun b => [hexDigit (b.toNat / 16), hexDigit (b.toNat % 16)]) =
      .ok bytes := by
  induction bytes with
  | nil => rfl
  | cons b bytes ih =>
      have hlt := b.toNat_lt
      have hhi := utf8Size_hexDigit (b.toNat / 16) (by omega)
      have hlo := utf8Size_hexDigit (b.toNat % 16) (by omega)
      simp only [List.flatMap_cons, List.cons_append, List.nil_append, hexPairs, hhi, hlo,
        byteOf?_hexDigit, ih]
      rfl

private theorem utf8Len_hexDigits (bytes : Bytes) :
    utf8Len (bytes.flatMap fun b => [hexDigit (b.toNat / 16), hexDigit (b.toNat % 16)]) =
      2 * bytes.length := by
  induction bytes with
  | nil => rfl
  | cons b bytes ih =>
      have hlt := b.toNat_lt
      have hhi := utf8Size_hexDigit (b.toNat / 16) (by omega)
      have hlo := utf8Size_hexDigit (b.toNat % 16) (by omega)
      simp only [utf8Len] at ih
      simp only [utf8Len, List.flatMap_cons, List.cons_append, List.nil_append, List.map_cons,
        List.sum_cons, hhi, hlo, ih, List.length_cons]
      omega

theorem fromHex_hexLower (bytes : Bytes) : fromHex (hexLower bytes) = .ok bytes := by
  have heven : ¬ (2 * bytes.length) % 2 ≠ 0 := by omega
  rw [fromHex, hexLower, String.toList_ofList, utf8Len_hexDigits, if_neg heven, hexPairs_hexDigits]

/-! ## What is read -/

def isHexDigit (c : Char) : Bool := (digitOf? c).isSome

/-- A text of pairs, each a hex digit behind another one or behind a plus sign. -/
def laxPairs : List Char → Bool
  | [] => true
  | [_] => false
  | a :: b :: rest => (a = '+' || isHexDigit a) && isHexDigit b && laxPairs rest

end Linhello.Common
