import ProgramAudit.Bytes.Basic
import ProgramAudit.Number.Positional

/-!
Bytes as digits to the base 58. Leading zero bytes are kept as leading zero digits, so no two byte
strings have the same digits.
-/

namespace ProgramAudit.Address.Base58

open Number

/-- Digits and letters without the four that look alike. -/
def alphabet : List Char :=
  "123456789ABCDEFGHJKLMNPQRSTUVWXYZabcdefghijkmnopqrstuvwxyz".toList

def zero : Char := '1'

def digit (value : Nat) : Char := alphabet.getD value zero

def value? (c : Char) : Option Nat := alphabet.idxOf? c

/-- Each leading zero byte is one leading zero digit; the other bytes are one number. -/
def encode (bytes : Bytes) : List Char :=
  let zeros := bytes.takeWhile (· == 0)
  let rest := bytes.dropWhile (· == 0)
  List.replicate zeros.length zero ++
    (positional 58 (ofPositional 256 (rest.map UInt8.toNat))).map digit

/-- The bytes that digits denote; none with a character outside the alphabet. -/
def decode? (text : List Char) : Option Bytes :=
  let zeros := text.takeWhile (· == zero)
  let rest := text.dropWhile (· == zero)
  (rest.mapM value?).map fun digits =>
    List.replicate zeros.length 0 ++
      (positional 256 (ofPositional 58 digits)).map UInt8.ofNat

end ProgramAudit.Address.Base58
