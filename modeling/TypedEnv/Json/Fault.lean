import TypedEnv.Text.Step

/-!
Why a JSON text cannot be read, and where.  A fault is found with a number of bytes still to come;
the line and the column in bytes follow from the whole text.
-/

namespace TypedEnv.Json

open TypedEnv.Text

inductive Cause where
  | endInList
  | endInObject
  | endInString
  | endInValue
  | expectedColon
  | expectedListCommaOrEnd
  | expectedObjectCommaOrEnd
  | expectedWord
  | expectedValue
  | invalidEscape
  | invalidNumber
  | numberOutOfRange
  | controlCharacter
  | keyNotString
  | loneSurrogate
  | endOfEscape
  | trailingComma
  | trailingCharacters
  | tooDeep
  | notObject (found : String)
  deriving DecidableEq

def Cause.message : Cause → String
  | endInList => "EOF while parsing a list"
  | endInObject => "EOF while parsing an object"
  | endInString => "EOF while parsing a string"
  | endInValue => "EOF while parsing a value"
  | expectedColon => "expected `:`"
  | expectedListCommaOrEnd => "expected `,` or `]`"
  | expectedObjectCommaOrEnd => "expected `,` or `" ++ "\x7d`"
  | expectedWord => "expected ident"
  | expectedValue => "expected value"
  | invalidEscape => "invalid escape"
  | invalidNumber => "invalid number"
  | numberOutOfRange => "number out of range"
  | controlCharacter => "control character (\\u0000-\\u001F) found while parsing a string"
  | keyNotString => "key must be a string"
  | loneSurrogate => "lone leading surrogate in hex escape"
  | endOfEscape => "unexpected end of hex escape"
  | trailingComma => "trailing comma"
  | trailingCharacters => "trailing characters"
  | tooDeep => "recursion limit exceeded"
  | notObject found => "invalid type: " ++ found ++ ", expected a map"

/-- A cause, met when `left` bytes of the text were not yet used. -/
structure Fault where
  cause : Cause
  left : Nat
  deriving DecidableEq

structure Located where
  cause : Cause
  line : Nat
  column : Nat
  deriving DecidableEq

def Located.message (located : Located) : String :=
  located.cause.message ++ " at line " ++ toString located.line ++ " column " ++
    toString located.column

namespace Fault

def before (cause : Cause) (rest : List Char) : Fault := ⟨cause, byteCount rest⟩

def on (cause : Cause) (rest : List Char) : Fault := ⟨cause, byteCount rest - 1⟩

/-- Line and column after `used` bytes: lines count from one, the column is the number of bytes
used on the line. -/
def position : Nat → List Char → Nat × Nat → Nat × Nat
  | _, [], place => place
  | used, c :: rest, (line, column) =>
    if used < c.utf8Size then (line, column + used)
    else position (used - c.utf8Size) rest
      (if c = '\n' then (line + 1, 0) else (line, column + c.utf8Size))

def locate (text : List Char) (fault : Fault) : Located :=
  let (line, column) := position (byteCount text - fault.left) text (1, 0)
  ⟨fault.cause, line, column⟩

end Fault

end TypedEnv.Json
