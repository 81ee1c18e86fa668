/-
Reading JSON text.

Every reader takes what is left of the text and gives back what is left after it, so the place of a fault is the
length of the text less the length of what was left there. `NaN`, `Infinity` and `-Infinity` are numbers. A key that
comes again keeps its first place and takes the last value. Whole numbers of more than 4300 digits are refused, and so
are arrays and objects nested more than 985 deep.
-/
import InterfacePages.Json.Basic
import InterfacePages.OrderedMap

namespace InterfacePages

namespace Json

/-- what is wrong at a place of a JSON text -/
inductive Cause where
  | expectingValue
  | expectingName
  | expectingColon
  | expectingComma
  | unterminated
  | controlCharacter
  | invalidEscape
  | invalidNumberEscape
  | extraData
  | byteOrderMark
  deriving DecidableEq, Repr

inductive Container where
  | array
  | object
  deriving DecidableEq, Repr

/-- why a text is no JSON: a cause at a place, a whole number with too many digits, a container nested too deep -/
inductive ReadFault where
  | at (cause : Cause) (place line column : Nat)
  | tooManyDigits (count : Nat)
  | tooDeep (container : Container)
  deriving DecidableEq, Repr

/-- a fault while reading: a cause with what was left of the text there -/
inductive Stop where
  | at (cause : Cause) (left : Text)
  | tooManyDigits (count : Nat)
  | tooDeep (container : Container)

/-- the most digits a whole number may have -/
def maxDigits : Nat := 4300

/-- how deep arrays and objects may be nested -/
def maxDepth : Nat := 985

/-- white space between tokens -/
def isSpace (c : Nat) : Bool := c == 32 || c == 9 || c == 10 || c == 13

/-- the text without white space at its start -/
def skipSpace (t : Text) : Text := t.dropWhile isSpace

/-- the number that four hexadecimal digits write -/
def fourHex? : Text → Option (Nat × Text)
  | a :: b :: c :: d :: rest =>
    match Number.hexValue? a, Number.hexValue? b, Number.hexValue? c, Number.hexValue? d with
    | some a, some b, some c, some d => some (a * 4096 + b * 256 + c * 16 + d, rest)
    | _, _, _, _ => none
  | _ => none

/-- the code point of a one-letter escape -/
def shortEscape? (c : Nat) : Option Nat :=
  if c = 34 ∨ c = 92 ∨ c = 47 then some c
  else if c = 98 then some 8
  else if c = 102 then some 12
  else if c = 110 then some 10
  else if c = 114 then some 13
  else if c = 116 then some 9
  else none

/-- whether a text has at least `n` code points -/
def hasLength : Nat → Text → Bool
  | 0, _ => true
  | _ + 1, [] => false
  | n + 1, _ :: rest => hasLength n rest

/-- a second escape that completes a surrogate pair, when one follows -/
def lowSurrogate? (high : Nat) (t : Text) : Except Stop (Option (Nat × Text)) :=
  match t with
  | 92 :: 117 :: rest =>
    if 0xD800 ≤ high ∧ high ≤ 0xDBFF ∧ hasLength 5 rest then
      match fourHex? rest with
      | none => .error (.at .invalidNumberEscape (117 :: rest))
      | some (low, rest) =>
        if 0xDC00 ≤ low ∧ low ≤ 0xDFFF then .ok (some (0x10000 + (high - 0xD800) * 0x400 + (low - 0xDC00), rest))
        else .ok none
    else .ok none
  | _ => .ok none

/-- the code point of an escape, given what follows the backslash; `start` is the text from the opening quote on and
`escape` the text from the backslash on -/
def readEscape (start escape : Text) : Text → Except Stop (Nat × Text)
  | [] => .error (.at .unterminated start)
  | 117 :: rest =>
    if !hasLength 5 rest then .error (.at .invalidNumberEscape (117 :: rest))
    else
      match fourHex? rest with
      | none => .error (.at .invalidNumberEscape (117 :: rest))
      | some (high, rest) =>
        match lowSurrogate? high rest with
        | .error stop => .error stop
        | .ok (some found) => .ok found
        | .ok none => .ok (high, rest)
  | c :: rest =>
    match shortEscape? c with
    | some c => .ok (c, rest)
    | none => .error (.at .invalidEscape escape)

/-- the rest of a string after its opening quote; `done` holds what was read, last first -/
def readString (start : Text) : Nat → Text → Text → Except Stop (Text × Text)
  | 0, _, _ => .error (.at .unterminated start)
  | fuel + 1, done, left =>
    match left with
    | [] => .error (.at .unterminated start)
    | 34 :: rest => .ok (done.reverse, rest)
    | 92 :: rest =>
      match readEscape start left rest with
      | .error stop => .error stop
      | .ok (c, rest) => readString start fuel (c :: done) rest
    | c :: rest => if c < 32 then .error (.at .controlCharacter left) else readString start fuel (c :: done) rest

/-- the fraction of a number: a point and at least one digit -/
def readFraction : Text → Option (Text × Text)
  | 46 :: d :: rest =>
    if Number.isDigit d then some ((d :: rest).takeWhile Number.isDigit, (d :: rest).dropWhile Number.isDigit) else none
  | _ => none

/-- the exponent of a number: the letter, perhaps a sign, at least one digit -/
def readExponent : Text → Option (Int × Text)
  | c :: rest =>
    if c = 101 ∨ c = 69 then
      let (negative, digits) : Bool × Text :=
        match rest with
        | 45 :: rest => (true, rest)
        | 43 :: rest => (false, rest)
        | _ => (false, rest)
      let taken := digits.takeWhile Number.isDigit
      if taken.isEmpty then none
      else
        let e : Int := Number.ofDigits taken
        some (if negative then -e else e, digits.dropWhile Number.isDigit)
    else none
  | [] => none

/-- the whole part of a number: a lone zero, or digits that start with none -/
def readWhole : Text → Option (Text × Text)
  | 48 :: rest => some ([48], rest)
  | c :: rest =>
    if Number.isDigit c then some (c :: rest.takeWhile Number.isDigit, rest.dropWhile Number.isDigit) else none
  | [] => none

/-- a number after its sign -/
def readNumber (start : Text) (negative : Bool) (t : Text) : Except Stop (Json × Text) :=
  match readWhole t with
  | none => .error (.at .expectingValue start)
  | some (whole, rest) =>
    let fraction := readFraction rest
    let afterFraction := (fraction.map (·.2)).getD rest
    let exponent := readExponent afterFraction
    if fraction.isNone && exponent.isNone then
      if maxDigits < whole.length then .error (.tooManyDigits whole.length)
      else
        let n : Int := Number.ofDigits whole
        .ok (.int (if negative then -n else n), rest)
    else
      let digits := (fraction.map (·.1)).getD []
      let scale : Int := (exponent.map (·.1)).getD 0
      .ok (.float (Number.nearestFloat negative (Number.ofDigits (whole ++ digits)) (scale - digits.length)),
        (exponent.map (·.2)).getD afterFraction)

/-- a value that is no string, array or object -/
def readPlain (t : Text) : Except Stop (Json × Text) :=
  match Text.after? "null" t with
  | some rest => .ok (.null, rest)
  | none =>
  match Text.after? "true" t with
  | some rest => .ok (.bool true, rest)
  | none =>
  match Text.after? "false" t with
  | some rest => .ok (.bool false, rest)
  | none =>
  match Text.after? "NaN" t with
  | some rest => .ok (.float (0.0 / 0.0), rest)
  | none =>
  match Text.after? "Infinity" t with
  | some rest => .ok (.float (1.0 / 0.0), rest)
  | none =>
  match Text.after? "-Infinity" t with
  | some rest => .ok (.float (-1.0 / 0.0), rest)
  | none =>
  match t with
  | 45 :: rest => readNumber t true rest
  | _ => readNumber t false t

mutual

/-- any value; `room` is how much deeper containers may be nested -/
def readValue (room : Nat) : Nat → Text → Except Stop (Json × Text)
  | 0, t => .error (.at .expectingValue t)
  | fuel + 1, t =>
    match t with
    | 34 :: rest =>
      match readString t fuel [] rest with
      | .error stop => .error stop
      | .ok (s, rest) => .ok (.text s, rest)
    | 91 :: rest =>
      match room with
      | 0 => .error (.tooDeep .array)
      | room + 1 =>
        match skipSpace rest with
        | 93 :: rest => .ok (.array [], rest)
        | left => readItems room fuel [] left
    | 123 :: rest =>
      match room with
      | 0 => .error (.tooDeep .object)
      | room + 1 =>
        match skipSpace rest with
        | 125 :: rest => .ok (.object [], rest)
        | left => readFields room fuel [] left
    | _ => readPlain t

/-- the items of an array from one item on; `done` holds those before, last first -/
def readItems (room : Nat) : Nat → List Json → Text → Except Stop (Json × Text)
  | 0, _, t => .error (.at .expectingValue t)
  | fuel + 1, done, t =>
    match readValue room fuel t with
    | .error stop => .error stop
    | .ok (x, rest) =>
      match skipSpace rest with
      | 93 :: rest => .ok (.array (x :: done).reverse, rest)
      | 44 :: rest => readItems room fuel (x :: done) (skipSpace rest)
      | left => .error (.at .expectingComma left)

/-- the fields of an object from one key on; `done` holds those before -/
def readFields (room : Nat) : Nat → List (Text × Json) → Text → Except Stop (Json × Text)
  | 0, _, t => .error (.at .expectingName t)
  | fuel + 1, done, t =>
    match t with
    | 34 :: rest =>
      match readString t fuel [] rest with
      | .error stop => .error stop
      | .ok (name, rest) =>
        match skipSpace rest with
        | 58 :: rest =>
          match readValue room fuel (skipSpace rest) with
          | .error stop => .error stop
          | .ok (x, rest) =>
            let done := OrderedMap.upsertIn name (fun _ => x) done
            match skipSpace rest with
            | 125 :: rest => .ok (.object done, rest)
            | 44 :: rest => readFields room fuel done (skipSpace rest)
            | left => .error (.at .expectingComma left)
        | left => .error (.at .expectingColon left)
    | _ => .error (.at .expectingName t)

end

/-- the line and the column, both from one, of a place in a text -/
def lineAndColumn (t : Text) (place : Nat) : Nat × Nat :=
  let before := t.take place
  (before.count 10 + 1, (before.reverse.takeWhile (· != 10)).length + 1)

def Stop.locate (t : Text) : Stop → ReadFault
  | .at cause left =>
    let place := t.length - left.length
    let (line, column) := lineAndColumn t place
    .at cause place line column
  | .tooManyDigits count => .tooManyDigits count
  | .tooDeep container => .tooDeep container

/-- the value of a JSON text, with white space around it allowed -/
def read (t : Text) : Except ReadFault Json :=
  match t with
  | 0xFEFF :: _ => .error (Stop.locate t (.at .byteOrderMark t))
  | _ =>
    match readValue maxDepth (2 * t.length + 2) (skipSpace t) with
    | .error stop => .error (stop.locate t)
    | .ok (x, rest) =>
      match skipSpace rest with
      | [] => .ok x
      | left => .error (Stop.locate t (.at .extraData left))

end Json

end InterfacePages
