import RelationalAlgebra.Decimal.Numeral
import RelationalAlgebra.Digest.Hex

/-!
# Tokens of JSON texts

A JSON text is a sequence of tokens: brackets, commas, colons, the three words, numerals and
strings. `Token.text` writes a token and `tokens?` cuts a text into tokens, with blanks between
them skipped.

The escapes of a string may spell a surrogate that has no partner. Such a string is well formed
as a token but is no text, and its token holds none.
-/

namespace RelationalAlgebra.Json

open Decimal
open Text (hexDigit hexValue?)

/-- A token of a JSON text. -/
inductive Token where
  | openArray
  | closeArray
  | openObject
  | closeObject
  | comma
  | colon
  | null
  | bool (value : Bool)
  | number (value : Numeral)
  | string (value : Option String)
deriving DecidableEq

/-! ## Strings -/

/-- A character as it stands in a string. Only the quote, the backslash and the control
characters are escaped. -/
def escapeChar (c : Char) : List Char :=
  if c = '"' then ['\\', '"']
  else if c = '\\' then ['\\', '\\']
  else if c = '\x08' then ['\\', 'b']
  else if c = '\x0c' then ['\\', 'f']
  else if c = '\n' then ['\\', 'n']
  else if c = '\r' then ['\\', 'r']
  else if c = '\t' then ['\\', 't']
  else if c.toNat < 0x20 then
    ['\\', 'u', '0', '0', hexDigit (c.toNat / 16), hexDigit (c.toNat % 16)]
  else [c]

/-- The code point of an escape of one character. -/
def simpleEscape? (c : Char) : Option Nat :=
  if c = '"' ∨ c = '\\' ∨ c = '/' then some c.toNat
  else if c = 'b' then some 0x08
  else if c = 'f' then some 0x0C
  else if c = 'n' then some 0x0A
  else if c = 'r' then some 0x0D
  else if c = 't' then some 0x09
  else none

/-- The number that four hexadecimal digits stand for. -/
def hexNumber? (a b c d : Char) : Option Nat := do
  return (((← hexValue? a) * 16 + (← hexValue? b)) * 16 + (← hexValue? c)) * 16 + (← hexValue? d)

/-- The code points between the quotes of a string. An escape may stand for a surrogate. -/
def codePoints? : List Char → Option (List Nat)
  | [] => some []
  | '\\' :: 'u' :: a :: b :: c :: d :: rest => do
    return (← hexNumber? a b c d) :: (← codePoints? rest)
  | '\\' :: c :: rest => do
    return (← simpleEscape? c) :: (← codePoints? rest)
  | c :: rest => do
    if c = '\\' ∨ c.toNat < 0x20 then none
    return c.toNat :: (← codePoints? rest)

/-- Whether a code point is the first half of a pair of surrogates. -/
def isLeading (n : Nat) : Bool :=
  0xD800 ≤ n && n ≤ 0xDBFF

/-- Whether a code point is the second half of a pair of surrogates. -/
def isTrailing (n : Nat) : Bool :=
  0xDC00 ≤ n && n ≤ 0xDFFF

/-- The characters of code points, in which surrogates stand in pairs. -/
def joinSurrogates? : List Nat → Option (List Char)
  | [] => some []
  | [n] => if isLeading n || isTrailing n then none else some [Char.ofNat n]
  | n :: m :: rest =>
    if isLeading n && isTrailing m then
      (joinSurrogates? rest).map (Char.ofNat (0x10000 + (n - 0xD800) * 0x400 + (m - 0xDC00)) :: ·)
    else if isLeading n || isTrailing n then none
    else (joinSurrogates? (m :: rest)).map (Char.ofNat n :: ·)

/-- The token of a string, given what stands between its quotes. -/
def stringToken? (body : List Char) : Option Token :=
  (codePoints? body).map fun points => .string ((joinSurrogates? points).map String.ofList)

/-! ## Writing -/

/-- A string in quotes. A string that is no text is written as a surrogate without a partner. -/
def stringText : Option String → List Char
  | some s => '"' :: (s.toList.flatMap escapeChar ++ ['"'])
  | none => "\"\\ud800\"".toList

/-- The text of a token. -/
def Token.text : Token → List Char
  | .openArray => ['[']
  | .closeArray => [']']
  | .openObject => ['\x7b']
  | .closeObject => ['\x7d']
  | .comma => [',']
  | .colon => [':']
  | .null => "null".toList
  | .bool true => "true".toList
  | .bool false => "false".toList
  | .number n => n.text true
  | .string s => stringText s

/-! ## Reading -/

/-- Whether a character may stand between tokens. -/
def isBlank (c : Char) : Bool :=
  c == ' ' || c == '\t' || c == '\n' || c == '\r'

/-- The token that is one punctuation mark. -/
def punctuation? (c : Char) : Option Token :=
  if c = '[' then some .openArray
  else if c = ']' then some .closeArray
  else if c = '\x7b' then some .openObject
  else if c = '\x7d' then some .closeObject
  else if c = ',' then some .comma
  else if c = ':' then some .colon
  else none

/-- The token of a word or numeral. -/
def bareToken? (word : List Char) : Option Token :=
  if word = "null".toList then some .null
  else if word = "true".toList then some (.bool true)
  else if word = "false".toList then some (.bool false)
  else (Numeral.ofText? word).map .number

/-- Where reading stands in a text: between tokens, in a word or numeral, or in a string. What has
been read of a token is kept backwards. -/
inductive Position where
  | between
  | bare (word : List Char)
  | quoted (body : List Char) (escaped : Bool)

/-- The tokens of the rest of a text, from a position in it. -/
def tokensFrom : Position → List Char → Option (List Token)
  | .between, [] => some []
  | .bare word, [] => do return [← bareToken? word.reverse]
  | .quoted _ _, [] => none
  | .between, c :: rest =>
    if isBlank c then tokensFrom .between rest
    else if c = '"' then tokensFrom (.quoted [] false) rest
    else match punctuation? c with
      | some mark => do return mark :: (← tokensFrom .between rest)
      | none => tokensFrom (.bare [c]) rest
  | .bare word, c :: rest =>
    if isBlank c then do
      return (← bareToken? word.reverse) :: (← tokensFrom .between rest)
    else if c = '"' then do
      return (← bareToken? word.reverse) :: (← tokensFrom (.quoted [] false) rest)
    else match punctuation? c with
      | some mark => do
        return (← bareToken? word.reverse) :: mark :: (← tokensFrom .between rest)
      | none => tokensFrom (.bare (c :: word)) rest
  | .quoted body true, c :: rest => tokensFrom (.quoted (c :: body) false) rest
  | .quoted body false, c :: rest =>
    if c = '"' then do
      return (← stringToken? body.reverse) :: (← tokensFrom .between rest)
    else tokensFrom (.quoted (c :: body) (c == '\\')) rest

/-- The tokens of a text. -/
def tokens? (s : List Char) : Option (List Token) :=
  tokensFrom .between s

end RelationalAlgebra.Json
