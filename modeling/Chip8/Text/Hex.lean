/-!
# Hexadecimal text

How reports write addresses, words and bytes: lower-case digits, filled up with zeros to a least
width in which a minus sign counts.

* `hex width n` is the text of an integer, without a mark in front;
* `hexBytes bytes` is a run of bytes, two digits each.

`hex_natCast` and `hex_neg` give the text as its sign and its padded digits.
-/

namespace Chip8.Text

/-- `n` in lower-case hexadecimal, filled with zeros to at least `width` characters; a minus sign
comes first and is counted. -/
def hex (width : Nat) (n : Int) : String :=
  if n < 0 then
    String.ofList ('-' :: List.leftpad (width - 1) '0' (Nat.toDigits 16 n.natAbs))
  else
    String.ofList (List.leftpad width '0' (Nat.toDigits 16 n.toNat))

theorem hex_natCast (width n : Nat) :
    hex width n = String.ofList (List.leftpad width '0' (Nat.toDigits 16 n)) := by
  rw [hex, if_neg (by omega), Int.toNat_natCast]

theorem hex_neg {n : Int} (width : Nat) (h : n < 0) :
    hex width n =
      String.ofList ('-' :: List.leftpad (width - 1) '0' (Nat.toDigits 16 n.natAbs)) := by
  rw [hex, if_pos h]

/-- A byte as two hexadecimal digits. -/
def hexByte (b : UInt8) : String := hex 2 b.toNat

/-- Bytes as hexadecimal digits, two each, without separators. -/
def hexBytes (bytes : List UInt8) : String := String.join (bytes.map hexByte)

end Chip8.Text
