set_option autoImplicit false

/-!
# Text received as bytes

A payload arrives as bytes that need not be text. `symbols` reads the well-formed UTF-8 sequences
as characters and keeps every other byte as a stray one, so that a reader can still find its way
through a payload in which some ignored string is damaged.
-/
namespace StrongAuth.Text

/-- A character, or a byte that is part of no well-formed character. -/
inductive Symbol where
  | char (c : Char)
  | stray (b : UInt8)
  deriving Repr, DecidableEq

namespace Utf8

def continuation? (b : UInt8) : Option Nat :=
  let n := b.toNat
  if 0x80 ≤ n ∧ n < 0xc0 then some (n - 0x80) else none

def continuations? : Nat → Nat → List UInt8 → Option Nat
  | 0, value, _ => some value
  | _ + 1, _, [] => none
  | k + 1, value, b :: rest =>
    match continuation? b with
    | some bits => continuations? k (64 * value + bits) rest
    | none => none

/-- How many continuation bytes follow a first byte, the bits it carries, and the least value that
needs a sequence of this length. -/
def lead? (b : UInt8) : Option (Nat × Nat × Nat) :=
  let n := b.toNat
  if n < 0x80 then some (0, n, 0)
  else if n < 0xc0 then none
  else if n < 0xe0 then some (1, n - 0xc0, 0x80)
  else if n < 0xf0 then some (2, n - 0xe0, 0x800)
  else if n < 0xf8 then some (3, n - 0xf0, 0x10000)
  else none

/-- The character that the first byte begins, and the number of bytes after it that belong to it.
Overlong forms, surrogates and values above the last code point are refused. -/
def character? (b : UInt8) (rest : List UInt8) : Option (Char × Nat) :=
  match lead? b with
  | none => none
  | some (k, bits, least) =>
    match continuations? k bits rest with
    | none => none
    | some value =>
      if least ≤ value ∧ value.isValidChar then some (Char.ofNat value, k) else none

end Utf8

def symbols : List UInt8 → List Symbol
  | [] => []
  | b :: rest =>
    match Utf8.character? b rest with
    | some (c, k) => .char c :: symbols (rest.drop k)
    | none => .stray b :: symbols rest
termination_by bytes => bytes.length

def bytes (s : String) : List UInt8 := s.toUTF8.toList

end StrongAuth.Text
