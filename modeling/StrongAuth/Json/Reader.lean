import StrongAuth.Json.Tree
import StrongAuth.Text.Hex
import StrongAuth.Text.Utf8

set_option autoImplicit false

/-!
# Reading JSON

The grammar is the standard one and nothing more: no text after the value, no byte order mark, no
trailing comma, no leading zero, no raw control character in a string. Whether a string can be
decoded is recorded in the value and judged later. Every call of the three mutual readers below
spends one unit of fuel; each symbol is worth two units, which is all that they can spend.
-/
namespace StrongAuth.Json
open StrongAuth.Text

def isSpace : Symbol → Bool
  | .char c => c == ' ' || c == '\n' || c == '\t' || c == '\r'
  | .stray _ => false

def skipSpace (input : List Symbol) : List Symbol := input.dropWhile isSpace

def unit? (a b c d : Char) : Option Nat := do
  let a ← hexValue? a
  let b ← hexValue? b
  let c ← hexValue? c
  let d ← hexValue? d
  some (4096 * a + 256 * b + 16 * c + d)

def shortEscape? : Char → Option Char
  | '"' => some '"'
  | '\\' => some '\\'
  | '/' => some '/'
  | 'b' => some '\x08'
  | 'f' => some '\x0c'
  | 'n' => some '\n'
  | 'r' => some '\r'
  | 't' => some '\t'
  | _ => none

/-- A part of a string: a character, an escaped UTF-16 unit, or a byte that is no character. -/
inductive Piece where
  | plain (c : Char)
  | unit (n : Nat)
  | damage
  deriving DecidableEq, Repr

/-- The pieces up to the closing quote, and what follows it. -/
def pieces? : List Symbol → Option (List Piece × List Symbol)
  | .char '"' :: rest => some ([], rest)
  | .char '\\' :: .char 'u' :: .char a :: .char b :: .char c :: .char d :: rest =>
    match unit? a b c d, pieces? rest with
    | some n, some (ps, rest) => some (.unit n :: ps, rest)
    | _, _ => none
  | .char '\\' :: .char e :: rest =>
    match shortEscape? e, pieces? rest with
    | some c, some (ps, rest) => some (.plain c :: ps, rest)
    | _, _ => none
  | .char c :: rest =>
    if c == '\\' || c.toNat < 0x20 then none
    else match pieces? rest with
      | some (ps, rest) => some (.plain c :: ps, rest)
      | none => none
  | .stray _ :: rest =>
    match pieces? rest with
    | some (ps, rest) => some (.damage :: ps, rest)
    | none => none
  | [] => none

def isHighSurrogate (n : Nat) : Bool := 0xd800 ≤ n && n < 0xdc00

def isLowSurrogate (n : Nat) : Bool := 0xdc00 ≤ n && n < 0xe000

/-- The text of the pieces. Two surrogates make one character; one alone is damage. -/
def assemble? : List Piece → Option (List Char)
  | [] => some []
  | .plain c :: rest => (assemble? rest).map (c :: ·)
  | .damage :: _ => none
  | .unit high :: .unit low :: rest =>
    if isHighSurrogate high then
      if isLowSurrogate low then
        let code := 0x10000 + 0x400 * (high - 0xd800) + (low - 0xdc00)
        (assemble? rest).map (Char.ofNat code :: ·)
      else none
    else if isLowSurrogate high then none
    else (assemble? (.unit low :: rest)).map (Char.ofNat high :: ·)
  | .unit n :: rest =>
    if isHighSurrogate n || isLowSurrogate n then none
    else (assemble? rest).map (Char.ofNat n :: ·)

def string? (input : List Symbol) : Option (Option String × List Symbol) :=
  (pieces? input).map fun (ps, rest) => ((assemble? ps).map String.ofList, rest)

def spanDigits : List Symbol → List Char × List Symbol
  | .char c :: rest =>
    if isDigit c then
      let (ds, rest) := spanDigits rest
      (c :: ds, rest)
    else ([], .char c :: rest)
  | rest => ([], rest)

def digits? (input : List Symbol) : Option (List Char × List Symbol) :=
  match spanDigits input with
  | ([], _) => none
  | (ds, rest) => some (ds, rest)

/-- A lone zero, or digits that begin with another one. -/
def whole? (input : List Symbol) : Option (List Char × List Symbol) :=
  match spanDigits input with
  | ([], _) => none
  | ('0' :: _ :: _, _) => none
  | (ds, rest) => some (ds, rest)

def fraction? : List Symbol → Option (Option (List Char) × List Symbol)
  | .char '.' :: rest => (digits? rest).map fun (ds, rest) => (some ds, rest)
  | rest => some (none, rest)

/-- The exponent: whether it is negative, and its digits. -/
def exponent? : List Symbol → Option (Option (Bool × List Char) × List Symbol)
  | .char 'e' :: rest | .char 'E' :: rest =>
    let (negative, rest) := match rest with
      | .char '-' :: rest => (true, rest)
      | .char '+' :: rest => (false, rest)
      | rest => (false, rest)
    (digits? rest).map fun (ds, rest) => (some (negative, ds), rest)
  | rest => some (none, rest)

def numeral? (input : List Symbol) : Option (Numeral × List Symbol) := do
  let (negative, rest) := match input with
    | .char '-' :: rest => (true, rest)
    | rest => (false, rest)
  let (whole, rest) ← whole? rest
  let (fraction, rest) ← fraction? rest
  let (exponent, rest) ← exponent? rest
  some ({ negative, whole, fraction, exponent }, rest)

mutual
/-- A value at the front, blanks before it skipped, and what follows. -/
def value? : Nat → List Symbol → Option (Json × List Symbol)
  | 0, _ => none
  | fuel + 1, input =>
    match skipSpace input with
    | .char 'n' :: .char 'u' :: .char 'l' :: .char 'l' :: rest => some (.null, rest)
    | .char 't' :: .char 'r' :: .char 'u' :: .char 'e' :: rest => some (.bool true, rest)
    | .char 'f' :: .char 'a' :: .char 'l' :: .char 's' :: .char 'e' :: rest =>
      some (.bool false, rest)
    | .char '"' :: rest => (string? rest).map fun (s, rest) => (.string s, rest)
    | .char '[' :: rest =>
      match skipSpace rest with
      | .char ']' :: rest => some (.array [], rest)
      | _ => (items? fuel rest).map fun (vs, rest) => (.array vs, rest)
    | .char '{' :: rest =>
      match skipSpace rest with
      | .char '}' :: rest => some (.object [], rest)
      | _ => (members? fuel rest).map fun (ms, rest) => (.object ms, rest)
    | rest => (numeral? rest).map fun (n, rest) => (.number n, rest)

def items? : Nat → List Symbol → Option (List Json × List Symbol)
  | 0, _ => none
  | fuel + 1, input =>
    match value? fuel input with
    | none => none
    | some (v, rest) =>
      match skipSpace rest with
      | .char ',' :: rest => (items? fuel rest).map fun (vs, rest) => (v :: vs, rest)
      | .char ']' :: rest => some ([v], rest)
      | _ => none

def members? : Nat → List Symbol → Option (List (Option String × Json) × List Symbol)
  | 0, _ => none
  | fuel + 1, input =>
    match skipSpace input with
    | .char '"' :: rest =>
      match string? rest with
      | none => none
      | some (k, rest) =>
        match skipSpace rest with
        | .char ':' :: rest =>
          match value? fuel rest with
          | none => none
          | some (v, rest) =>
            match skipSpace rest with
            | .char ',' :: rest => (members? fuel rest).map fun (ms, rest) => ((k, v) :: ms, rest)
            | .char '}' :: rest => some ([(k, v)], rest)
            | _ => none
        | _ => none
    | _ => none
end

/-- The value that the symbols spell, if they spell one and nothing follows it but blanks. -/
def read? (input : List Symbol) : Option Json :=
  match value? (2 * input.length + 1) input with
  | some (v, rest) => if (skipSpace rest).isEmpty then some v else none
  | none => none

def ofBytes? (payload : List UInt8) : Option Json := read? (symbols payload)

def ofText? (s : String) : Option Json := read? (s.toList.map .char)

end StrongAuth.Json
