/-
Octets of a text in UTF-8.

`encode` refuses a text with a surrogate and reports the first run of them. `decode` refuses what is not the shortest
encoding of a code point outside the surrogates, and reports the octets at fault and why.
-/
import InterfacePages.Text.Basic

namespace InterfacePages

namespace Text

/-- a surrogate, which no octets stand for -/
def isSurrogate (c : Nat) : Bool := decide (0xD800 ≤ c) && decide (c ≤ 0xDFFF)

/-- the octets of one code point -/
def octetsOf (c : Nat) : List UInt8 :=
  if c < 0x80 then [c.toUInt8]
  else if c < 0x800 then [(0xC0 + c / 64).toUInt8, (0x80 + c % 64).toUInt8]
  else if c < 0x10000 then [(0xE0 + c / 4096).toUInt8, (0x80 + c / 64 % 64).toUInt8, (0x80 + c % 64).toUInt8]
  else
    [(0xF0 + c / 262144).toUInt8, (0x80 + c / 4096 % 64).toUInt8, (0x80 + c / 64 % 64).toUInt8, (0x80 + c % 64).toUInt8]

/-- why a text has no octets: the first surrogate, its place, and how many follow each other from there -/
structure EncodeFault where
  first : Nat
  start : Nat
  count : Nat
  deriving DecidableEq, Repr

/-- the first run of surrogates of a text, when there is one -/
def encodeFault? (t : Text) : Option EncodeFault :=
  match t.dropWhile (!isSurrogate ·) with
  | [] => none
  | c :: rest => some ⟨c, t.length - (rest.length + 1), ((c :: rest).takeWhile isSurrogate).length⟩

/-- the octets of a text without surrogates -/
def encode (t : Text) : Except EncodeFault (List UInt8) :=
  match encodeFault? t with
  | some fault => .error fault
  | none => .ok (t.flatMap octetsOf)

/-- a surrogate that stands for an octet that is no text -/
def isStray (c : Nat) : Bool := decide (0xDC80 ≤ c) && decide (c ≤ 0xDCFF)

/-- the octets of a code point; a surrogate that stands for an octet becomes that octet -/
def strayOctetsOf (c : Nat) : List UInt8 := if isStray c then [(c % 256).toUInt8] else octetsOf c

/-- the octets of a text, in which surrogates may stand for octets -/
def encodeStray (t : Text) : Except EncodeFault (List UInt8) :=
  match t.dropWhile fun c => !isSurrogate c || isStray c with
  | [] => .ok (t.flatMap strayOctetsOf)
  | c :: rest => .error ⟨c, t.length - (rest.length + 1), ((c :: rest).takeWhile isSurrogate).length⟩

/-- how octets fail to be an encoding -/
inductive DecodeReason where
  | invalidStart
  | invalidContinuation
  | unexpectedEnd
  deriving DecidableEq, Repr

/-- why octets are no text: the place of the first one at fault, its value, how many are at fault, and the reason -/
structure DecodeFault where
  start : Nat
  octet : UInt8
  count : Nat
  reason : DecodeReason
  deriving DecidableEq, Repr

/-- an octet that continues a code point -/
def isContinuation (b : UInt8) : Bool := decide (0x80 ≤ b) && decide (b < 0xC0)

/-- whether `second` may follow the first octet of a code point: no overlong form, no surrogate, nothing above the
last code point -/
def maySecond (first second : UInt8) : Bool :=
  isContinuation second && (first != 0xE0 || decide (0xA0 ≤ second)) && (first != 0xED || decide (second < 0xA0)) &&
    (first != 0xF0 || decide (0x90 ≤ second)) && (first != 0xF4 || decide (second < 0x90))

/-- the six low bits of a continuation octet -/
def payload (b : UInt8) : Nat := b.toNat % 64

/-- what the first code point of some octets is: the code point and how many more octets it has, or how many octets are
at fault and why -/
def decodeOne (first : UInt8) (rest : List UInt8) : Except (Nat × DecodeReason) (Nat × Nat) :=
  if first < 0x80 then .ok (first.toNat, 0)
  else if first < 0xC2 then .error (1, .invalidStart)
  else if first < 0xE0 then
    match rest with
    | [] => .error (1, .unexpectedEnd)
    | a :: _ =>
      if isContinuation a then .ok (first.toNat % 32 * 64 + payload a, 1) else .error (1, .invalidContinuation)
  else if first < 0xF0 then
    match rest with
    | [] => .error (1, .unexpectedEnd)
    | [a] => if maySecond first a then .error (2, .unexpectedEnd) else .error (1, .invalidContinuation)
    | a :: b :: _ =>
      if !maySecond first a then .error (1, .invalidContinuation)
      else if !isContinuation b then .error (2, .invalidContinuation)
      else .ok (first.toNat % 16 * 4096 + payload a * 64 + payload b, 2)
  else if first < 0xF5 then
    match rest with
    | [] => .error (1, .unexpectedEnd)
    | [a] => if maySecond first a then .error (2, .unexpectedEnd) else .error (1, .invalidContinuation)
    | [a, b] =>
      if !maySecond first a then .error (1, .invalidContinuation)
      else if !isContinuation b then .error (2, .invalidContinuation)
      else .error (3, .unexpectedEnd)
    | a :: b :: c :: _ =>
      if !maySecond first a then .error (1, .invalidContinuation)
      else if !isContinuation b then .error (2, .invalidContinuation)
      else if !isContinuation c then .error (3, .invalidContinuation)
      else .ok (first.toNat % 8 * 262144 + payload a * 4096 + payload b * 64 + payload c, 3)
  else .error (1, .invalidStart)

/-- decodes from octet number `place` on; `skip` octets still belong to the code point before -/
def decodeFrom (place : Nat) : Nat → List UInt8 → Except DecodeFault Text
  | _, [] => .ok []
  | skip + 1, _ :: rest => decodeFrom (place + 1) skip rest
  | 0, first :: rest =>
    match decodeOne first rest with
    | .error (count, reason) => .error ⟨place, first, count, reason⟩
    | .ok (c, more) =>
      match decodeFrom (place + 1) more rest with
      | .error fault => .error fault
      | .ok t => .ok (c :: t)

def decode (octets : List UInt8) : Except DecodeFault Text := decodeFrom 0 0 octets

end Text

end InterfacePages
