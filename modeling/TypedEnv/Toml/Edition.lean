import TypedEnv.Decimal

/-!
The editions of TOML that texts are read by, as the decisions in which they differ.  A later
edition takes in more ways of writing; how large a text may grow is decided here too.
-/

namespace TypedEnv.Toml

structure Edition where
  /-- `\e` stands for the escape character and `\x` for a code point of two digits. -/
  shortEscapes : Bool
  /-- A line break in a string stays as it is written; otherwise it becomes a line feed. -/
  keepsBreaks : Bool
  /-- Line breaks and comments may stand in braces, and a comma in front of the closing one. -/
  openBraces : Bool
  /-- Hours and minutes alone are a time of day. -/
  secondsOptional : Bool
  leastInteger : Int
  greatestInteger : Int
  /-- A number below the range of binary64 is refused; one above it always is. -/
  refusesBelow : Bool
  /-- How many lists and tables in braces may stand in one another. -/
  levels : Nat
  keyParts : Nat
  deriving DecidableEq

namespace Edition

/-- TOML 1.0 with integers of 64 bits. -/
def initial : Edition where
  shortEscapes := false
  keepsBreaks := false
  openBraces := false
  secondsOptional := false
  leastInteger := leastInt64
  greatestInteger := greatestInt64
  refusesBelow := false
  levels := 79
  keyParts := 79

/-- TOML 1.1 with integers of 128 bits, signed or not. -/
def revised : Edition where
  shortEscapes := true
  keepsBreaks := true
  openBraces := true
  secondsOptional := true
  leastInteger := -(twoPow 127 : Int)
  greatestInteger := (twoPow 128 : Int) - 1
  refusesBelow := true
  levels := 80
  keyParts := 80

end Edition

end TypedEnv.Toml
