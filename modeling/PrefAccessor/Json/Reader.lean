import PrefAccessor.Json.Value
import PrefAccessor.Number.Decimal

/-!
# Reading JSON

Reads one value from a text, with the extensions `NaN`, `Infinity` and `-Infinity`. A number
without point and exponent is an integer. A key met again keeps its place in the object and takes
the newer value. Recursion is bounded by twice the length of the text: of two steps one consumes a
character.
-/

namespace PrefAccessor.Json

set_option autoImplicit false

open Number

inductive ReadError where
  | malformed
  /-- An integer has more digits than are converted. -/
  | numeralTooLong
  deriving DecidableEq, Repr

def isSpace (c : CodePoint) : Bool :=
  c == ' ' || c == '\t' || c == '\n' || c == '\r'

def skipSpace (cs : List CodePoint) : List CodePoint :=
  cs.dropWhile isSpace

def hexValue? (c : CodePoint) : Option Nat :=
  if Text.isAsciiDigit c then some (c.toNat - '0'.toNat)
  else if decide ('a' ≤ c) && decide (c ≤ 'f') then some (c.toNat - 'a'.toNat + 10)
  else if decide ('A' ≤ c) && decide (c ≤ 'F') then some (c.toNat - 'A'.toNat + 10)
  else none

/-- Four hexadecimal digits at the front. -/
def hexUnit? : List CodePoint → Option (Nat × List CodePoint)
  | a :: b :: c :: d :: rest => do
    let a ← hexValue? a
    let b ← hexValue? b
    let c ← hexValue? c
    let d ← hexValue? d
    some (((a * 16 + b) * 16 + c) * 16 + d, rest)
  | _ => none

def isHighSurrogate (n : Nat) : Bool :=
  decide (0xd800 ≤ n) && decide (n < 0xdc00)

def isLowSurrogate (n : Nat) : Bool :=
  decide (0xdc00 ≤ n) && decide (n < 0xe000)

/-- The code point that a `\u` escape and perhaps the next one stand for. Half of a pair that the
other half does not follow stays what it is. -/
def unicodeEscape? (cs : List CodePoint) : Option (CodePoint × List CodePoint) :=
  match hexUnit? cs with
  | none => none
  | some (high, rest) =>
    if isHighSurrogate high then
      match rest with
      | '\\' :: 'u' :: rest' =>
        match hexUnit? rest' with
        | some (low, rest'') =>
          if isLowSurrogate low then
            some (.ofNat (0x10000 + (high - 0xd800) * 0x400 + (low - 0xdc00)), rest'')
          else some (.ofNat high, rest)
        | none => some (.ofNat high, rest)
      | _ => some (.ofNat high, rest)
    else some (.ofNat high, rest)

def shortEscape? : CodePoint → Option CodePoint
  | '"' => some '"'
  | '\\' => some '\\'
  | '/' => some '/'
  | 'b' => some '\x08'
  | 'f' => some '\x0c'
  | 'n' => some '\n'
  | 'r' => some '\r'
  | 't' => some '\t'
  | _ => none

/-- The rest of a string after its opening quote; `read` holds its characters so far, last first. -/
def stringBody (read : List CodePoint) : Nat → List CodePoint → Except ReadError (Text × List CodePoint)
  | 0, _ => .error .malformed
  | _ + 1, [] => .error .malformed
  | _ + 1, '"' :: cs => .ok (Text.ofList read.reverse, cs)
  | fuel + 1, '\\' :: 'u' :: cs =>
    match unicodeEscape? cs with
    | some (c, rest) => stringBody (c :: read) fuel rest
    | none => .error .malformed
  | fuel + 1, '\\' :: c :: cs =>
    match shortEscape? c with
    | some c => stringBody (c :: read) fuel cs
    | none => .error .malformed
  | fuel + 1, c :: cs =>
    if c.toNat < 0x20 || c == '\\' then .error .malformed else stringBody (c :: read) fuel cs

/-- An integer part: a zero alone, or digits that do not begin with zero. -/
def wholePart : List CodePoint → List CodePoint × List CodePoint
  | '0' :: cs => ([char '0'], cs)
  | cs => (cs.takeWhile Text.isAsciiDigit, cs.dropWhile Text.isAsciiDigit)

/-- A point with digits after it, if one stands here. -/
def fractionPart : List CodePoint → List CodePoint × List CodePoint
  | '.' :: cs =>
    let ds := cs.takeWhile Text.isAsciiDigit
    if ds = [] then ([], char '.' :: cs) else (ds, cs.dropWhile Text.isAsciiDigit)
  | cs => ([], cs)

/-- An exponent with digits, if one stands here. -/
def exponentPart (cs : List CodePoint) : Option Int × List CodePoint :=
  match cs with
  | c :: rest =>
    if c = 'e' ∨ c = 'E' then
      let (negative, body) := splitSign rest
      let ds := body.takeWhile Text.isAsciiDigit
      if ds = [] then (none, cs)
      else (some (applySign negative (Text.digitsValue ds)), body.dropWhile Text.isAsciiDigit)
    else (none, cs)
  | [] => (none, [])

/-- A number without its sign. -/
def numberBody (negative : Bool) (cs : List CodePoint) : Except ReadError (Json × List CodePoint) :=
  let (whole, rest) := wholePart cs
  if whole = [] then .error .malformed
  else
    let (fraction, rest) := fractionPart rest
    let (exponent, rest) := exponentPart rest
    if fraction = [] ∧ exponent = none then
      if maxNumeralDigits < whole.length then .error .numeralTooLong
      else .ok (.int (applySign negative (Text.digitsValue whole)), rest)
    else
      .ok (.float (Decimal.toBinary64 ⟨negative, whole, fraction, exponent.getD 0⟩), rest)

def keyword (word : Text) (value : Json) (cs : List CodePoint) :
    Except ReadError (Json × List CodePoint) :=
  if word.toList.isPrefixOf cs then .ok (value, cs.drop word.length) else .error .malformed

mutual

/-- One value at the front of the text. -/
def readValue : Nat → List CodePoint → Except ReadError (Json × List CodePoint)
  | 0, _ => .error .malformed
  | fuel + 1, cs =>
    match cs with
    | [] => .error .malformed
    | '"' :: rest => (stringBody [] (rest.length + 1) rest).map fun (s, rest) => (.string s, rest)
    | '\x7b' :: rest =>
      match skipSpace rest with
      | '\x7d' :: rest => .ok (.object [], rest)
      | rest => readMembers [] fuel rest
    | '[' :: rest =>
      match skipSpace rest with
      | ']' :: rest => .ok (.array [], rest)
      | rest => readItems [] fuel rest
    | 'n' :: _ => keyword "null" .null cs
    | 't' :: _ => keyword "true" (.bool true) cs
    | 'f' :: _ => keyword "false" (.bool false) cs
    | 'N' :: _ => keyword "NaN" (.float .nan) cs
    | 'I' :: _ => keyword "Infinity" (.float (.infinite false)) cs
    | '-' :: 'I' :: _ => keyword "-Infinity" (.float (.infinite true)) cs
    | '-' :: rest => numberBody true rest
    | _ => numberBody false cs

/-- The items of an array from one item on; `read` holds those before, last first. -/
def readItems (read : List Json) : Nat → List CodePoint → Except ReadError (Json × List CodePoint)
  | 0, _ => .error .malformed
  | fuel + 1, cs =>
    match readValue fuel cs with
    | .error e => .error e
    | .ok (item, rest) =>
      match skipSpace rest with
      | ',' :: rest => readItems (item :: read) fuel (skipSpace rest)
      | ']' :: rest => .ok (.array (item :: read).reverse, rest)
      | _ => .error .malformed

/-- The members of an object from one key on; `read` holds those before. -/
def readMembers (read : List (Text × Json)) :
    Nat → List CodePoint → Except ReadError (Json × List CodePoint)
  | 0, _ => .error .malformed
  | fuel + 1, cs =>
    match cs with
    | '"' :: rest =>
      match stringBody [] (rest.length + 1) rest with
      | .error e => .error e
      | .ok (key, rest) =>
        match skipSpace rest with
        | ':' :: rest =>
          match readValue fuel (skipSpace rest) with
          | .error e => .error e
          | .ok (value, rest) =>
            match skipSpace rest with
            | ',' :: rest => readMembers (Entries.put read key value) fuel (skipSpace rest)
            | '\x7d' :: rest => .ok (.object (Entries.put read key value), rest)
            | _ => .error .malformed
        | _ => .error .malformed
    | _ => .error .malformed

end

/-- Reads a text that holds one value and blanks around it. -/
def read (text : Text) : Except ReadError Json :=
  let cs := skipSpace text.toList
  match readValue (2 * cs.length + 2) cs with
  | .error e => .error e
  | .ok (value, rest) => if skipSpace rest = [] then .ok value else .error .malformed

end PrefAccessor.Json
