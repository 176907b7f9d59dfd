import ComponentTags.Text.Hex

/-!
# UTF-8

Reading bytes as text. Bytes that are not UTF-8 are refused with the place of the first fault and
its kind. Over-long forms, surrogates and code points past the last one count as faults of the first
byte that makes them.
-/

namespace ComponentTags.Text

abbrev Bytes := List UInt8

/-- What is wrong with a sequence of bytes. -/
inductive Utf8Fault where
  | invalidStart | invalidContinuation | unexpectedEnd
  deriving DecidableEq, Repr

/-- A faulty sequence: `size` bytes from `position` on, the first of which is `byte`. -/
structure Utf8Error where
  position : Nat
  size : Nat
  byte : UInt8
  fault : Utf8Fault
  deriving DecidableEq, Repr

def Utf8Fault.message : Utf8Fault → String
  | .invalidStart => "invalid start byte"
  | .invalidContinuation => "invalid continuation byte"
  | .unexpectedEnd => "unexpected end of data"

def Utf8Error.message (e : Utf8Error) : String :=
  let place :=
    if e.size = 1 then
      "byte 0x" ++ String.ofList (hexDigits 2 e.byte.toNat) ++ " in position " ++ toString e.position
    else
      "bytes in position " ++ toString e.position ++ "-" ++ toString (e.position + e.size - 1)
  "'utf-8' codec can't decode " ++ place ++ ": " ++ e.fault.message

def isContinuation (b : UInt8) : Bool :=
  0x80 ≤ b && b < 0xC0

/-- The six bits that a continuation byte carries. -/
def payload (b : UInt8) : Nat :=
  b.toNat % 64

/-- Whether `b` may follow the first byte of a sequence of three: no over-long form, no surrogate. -/
def secondOfThree (first b : UInt8) : Bool :=
  isContinuation b && !(first == 0xE0 && b < 0xA0) && !(first == 0xED && 0xA0 ≤ b)

/-- Whether `b` may follow the first byte of a sequence of four: no over-long form, no code point past
the last one. -/
def secondOfFour (first b : UInt8) : Bool :=
  isContinuation b && !(first == 0xF0 && b < 0x90) && !(first == 0xF4 && 0x90 ≤ b)

/-- Decodes bytes of which the first stands at `position`. -/
def decodeFrom (position : Nat) : Bytes → Except Utf8Error (List Char)
  | [] => .ok []
  | b :: rest =>
    let fail (size : Nat) (fault : Utf8Fault) : Except Utf8Error (List Char) :=
      .error ⟨position, size, b, fault⟩
    if b < 0x80 then
      (decodeFrom (position + 1) rest).map (Char.ofNat b.toNat :: ·)
    else if b < 0xC2 then fail 1 .invalidStart
    else if b < 0xE0 then
      match rest with
      | [] => fail 1 .unexpectedEnd
      | b₁ :: rest =>
        if isContinuation b₁ then
          (decodeFrom (position + 2) rest).map (Char.ofNat (b.toNat % 32 * 64 + payload b₁) :: ·)
        else fail 1 .invalidContinuation
    else if b < 0xF0 then
      match rest with
      | [] => fail 1 .unexpectedEnd
      | b₁ :: rest =>
        if secondOfThree b b₁ then
          match rest with
          | [] => fail 2 .unexpectedEnd
          | b₂ :: rest =>
            if isContinuation b₂ then
              let n := (b.toNat % 16 * 64 + payload b₁) * 64 + payload b₂
              (decodeFrom (position + 3) rest).map (Char.ofNat n :: ·)
            else fail 2 .invalidContinuation
        else fail 1 .invalidContinuation
    else if b < 0xF5 then
      match rest with
      | [] => fail 1 .unexpectedEnd
      | b₁ :: rest =>
        if secondOfFour b b₁ then
          match rest with
          | [] => fail 2 .unexpectedEnd
          | b₂ :: rest =>
            if isContinuation b₂ then
              match rest with
              | [] => fail 3 .unexpectedEnd
              | b₃ :: rest =>
                if isContinuation b₃ then
                  let n := ((b.toNat % 8 * 64 + payload b₁) * 64 + payload b₂) * 64 + payload b₃
                  (decodeFrom (position + 4) rest).map (Char.ofNat n :: ·)
                else fail 3 .invalidContinuation
            else fail 2 .invalidContinuation
        else fail 1 .invalidContinuation
    else fail 1 .invalidStart

/-- The text that the bytes encode. -/
def decodeUtf8 (bytes : Bytes) : Except Utf8Error (List Char) :=
  decodeFrom 0 bytes

/-- The bytes that encode a text. -/
def encodeUtf8 (s : String) : Bytes :=
  s.toUTF8.toList

end ComponentTags.Text
