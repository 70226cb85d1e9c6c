import ProgramAudit.Bytes.Basic

namespace ProgramAudit.Bytes.Base64

def alphabet : List Char :=
  "ABCDEFGHIJKLMNOPQRSTUVWXYZabcdefghijklmnopqrstuvwxyz0123456789+/".toList

def padding : Char := '='

/-- The value of six bits; characters outside the alphabet have none. -/
def value? (c : Char) : Option Nat :=
  if 'A' ≤ c ∧ c ≤ 'Z' then some (c.toNat - 'A'.toNat)
  else if 'a' ≤ c ∧ c ≤ 'z' then some (c.toNat - 'a'.toNat + 26)
  else if '0' ≤ c ∧ c ≤ '9' then some (c.toNat - '0'.toNat + 52)
  else if c = '+' then some 62
  else if c = '/' then some 63
  else none

/-- The quad that is being read: how many of its characters there are, the bits that no byte has
taken yet, and the padding characters since the last character. -/
structure Quad where
  length : Nat := 0
  carry : Nat := 0
  pads : Nat := 0

/-- Takes one character of the alphabet: the byte that it completes, and the quad after it. -/
def Quad.push (value : Nat) (quad : Quad) : Option UInt8 × Quad :=
  match quad.length with
  | 0 => (none, ⟨1, value, 0⟩)
  | 1 => (some (UInt8.ofNat (quad.carry * 4 + value / 16)), ⟨2, value % 16, 0⟩)
  | 2 => (some (UInt8.ofNat (quad.carry * 16 + value / 4)), ⟨3, value % 4, 0⟩)
  | _ => (some (UInt8.ofNat (quad.carry * 64 + value)), {})

/-- The padding of the quad is complete with one more padding character. -/
def Quad.closes (quad : Quad) : Bool :=
  2 ≤ quad.length && 4 ≤ quad.length + quad.pads + 1

/-- Why a text is no encoding: a last character that completes no byte, or missing padding. -/
inductive Defect where
  | lone (length : Nat)
  | unpadded
deriving DecidableEq

/-- Reads quads up to the first complete padding; characters outside the alphabet are skipped. The
bytes so far come last first. -/
def decodeFrom (quad : Quad) (done : Bytes) : List Char → Except Defect Bytes
  | [] =>
    if quad.length = 0 then .ok done.reverse
    else if quad.length = 1 then .error (.lone (done.length / 3 * 4 + 1))
    else .error .unpadded
  | c :: rest =>
    if c = padding then
      if quad.closes then .ok done.reverse
      else if 2 ≤ quad.length then decodeFrom { quad with pads := quad.pads + 1 } done rest
      else decodeFrom quad done rest
    else
      match value? c with
      | none => decodeFrom quad done rest
      | some value =>
        match quad.push value with
        | (some byte, next) => decodeFrom next (byte :: done) rest
        | (none, next) => decodeFrom next done rest

def decode (text : List Char) : Except Defect Bytes :=
  decodeFrom {} [] text

def digit (value : Nat) : Char := alphabet.getD value padding

def encode : Bytes → List Char
  | [] => []
  | [a] => [digit (a.toNat / 4), digit (a.toNat % 4 * 16), padding, padding]
  | [a, b] =>
    [digit (a.toNat / 4), digit (a.toNat % 4 * 16 + b.toNat / 16), digit (b.toNat % 16 * 4),
      padding]
  | a :: b :: c :: rest =>
    digit (a.toNat / 4) :: digit (a.toNat % 4 * 16 + b.toNat / 16) ::
      digit (b.toNat % 16 * 4 + c.toNat / 64) :: digit (c.toNat % 64) :: encode rest

end ProgramAudit.Bytes.Base64
