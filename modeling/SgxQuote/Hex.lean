import SgxQuote.LittleEndian

/-!
# `hex::decode`

`parse_quote` (`sgx_register_utils.rs:207`) turns its argument into bytes with the `hex` of
`raiko_primitives`, the `const-hex` crate: an optional `0x` prefix, then pairs of digits of
either case, high digit first. The decoder's theorems take the hex decoder as a parameter
(`Libs.hexDecode`); `hexDecode` is this behaviour, so that the decoder can be run on concrete
quote strings, and `hexEncode` writes bytes as lower-case digits that `hexDecode` reads back
(`hexDecode_hexEncode`).
-/

namespace SgxQuote

/-- The value of one hex digit of either case. -/
def hexDigit (c : Char) : Option Nat :=
  if '0' ≤ c ∧ c ≤ '9' then some (c.toNat - '0'.toNat)
  else if 'a' ≤ c ∧ c ≤ 'f' then some (c.toNat - 'a'.toNat + 10)
  else if 'A' ≤ c ∧ c ≤ 'F' then some (c.toNat - 'A'.toNat + 10)
  else none

/-- Pairs of digits, high digit first; an odd number of digits fails. -/
def hexDecodeDigits : List Char → Option Bytes
  | [] => some []
  | [_] => none
  | hi :: lo :: rest => do
    let h ← hexDigit hi
    let l ← hexDigit lo
    let bytes ← hexDecodeDigits rest
    return UInt8.ofNat (16 * h + l) :: bytes

/-- The `0x` prefix `hex::decode` skips. -/
def stripPrefix : List Char → List Char
  | '0' :: 'x' :: digits => digits
  | digits => digits

/-- `hex::decode` on the quote string. -/
def hexDecode (s : String) : Option Bytes := hexDecodeDigits (stripPrefix s.toList)

/-- A digit in lower case. -/
def hexChar (n : Nat) : Char := if n < 10 then Char.ofNat (48 + n) else Char.ofNat (87 + n)

/-- The digits of each byte in turn, high digit first. -/
def hexEncodeDigits : Bytes → List Char
  | [] => []
  | b :: bs => hexChar (b.toNat / 16) :: hexChar (b.toNat % 16) :: hexEncodeDigits bs

/-- Bytes written as a hex string with no prefix. -/
def hexEncode (b : Bytes) : String := ⟨hexEncodeDigits b⟩

theorem hexDigit_hexChar {n : Nat} (h : n < 16) :
    hexDigit (hexChar n) = some n ∧ hexChar n ≠ 'x' := by
  rcases n with _ | _ | _ | _ | _ | _ | _ | _ | _ | _ | _ | _ | _ | _ | _ | _ | n
  all_goals first | decide | omega

theorem hexDecodeDigits_hexEncodeDigits (b : Bytes) :
    hexDecodeDigits (hexEncodeDigits b) = some b := by
  induction b with
  | nil => rfl
  | cons x bs ih =>
    have hx := toNat_lt_256 x
    have hbyte : UInt8.ofNat (16 * (x.toNat / 16) + x.toNat % 16) = x :=
      UInt8.toNat.inj (by rw [toNat_uInt8_ofNat]; omega)
    rw [hexEncodeDigits, hexDecodeDigits, (hexDigit_hexChar (by omega : x.toNat / 16 < 16)).1,
      (hexDigit_hexChar (by omega : x.toNat % 16 < 16)).1, ih]
    exact congrArg (fun y => some (y :: bs)) hbyte

theorem stripPrefix_hexEncodeDigits (b : Bytes) :
    stripPrefix (hexEncodeDigits b) = hexEncodeDigits b := by
  cases b with
  | nil => rfl
  | cons x bs =>
    have hx := (hexDigit_hexChar (Nat.mod_lt x.toNat (by omega : 16 > 0))).2
    unfold hexEncodeDigits stripPrefix
    split
    · rename_i heq
      exact absurd (List.cons.inj (List.cons.inj heq).2).1 hx
    · rfl

/-- `hexDecode` reads back what `hexEncode` writes. -/
theorem hexDecode_hexEncode (b : Bytes) : hexDecode (hexEncode b) = some b := by
  show hexDecodeDigits (stripPrefix (hexEncodeDigits b)) = some b
  rw [stripPrefix_hexEncodeDigits, hexDecodeDigits_hexEncodeDigits]

end SgxQuote
