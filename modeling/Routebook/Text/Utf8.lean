/-
  Routebook.Text.Utf8

  Text from bytes.  A sequence of bytes that is no character is cut as long
  as it could have become one; strict reading stops there and says why, and
  lenient reading puts one mark of replacement in its place.
-/
import Routebook.Text.LineEnd

namespace Routebook.Text

/-- Why some bytes are no character. -/
inductive Undecodable where
  | badStart
  | badContinuation
  | unfinished
  deriving DecidableEq, Repr

/-- The words for it. -/
def Undecodable.text : Undecodable → String
  | .badStart => "invalid start byte"
  | .badContinuation => "invalid continuation byte"
  | .unfinished => "unexpected end of data"

/-- What some bytes start with. -/
inductive Decoded where
  | char (c : Char) (rest : List UInt8)
  /-- So many bytes are no character. -/
  | bad (why : Undecodable) (length : Nat) (rest : List UInt8)

/-- Bytes that continue a character. -/
def isContinuation (b : UInt8) : Bool := decide (0x80 ≤ b.toNat) && decide (b.toNat ≤ 0xBF)

/-- Whether a byte may be the second one after a first one: no character has
two spellings, and none lies among the halves of pairs or beyond the last one. -/
def maySecond (first second : UInt8) : Bool :=
  isContinuation second &&
    match first.toNat with
    | 0xE0 => decide (0xA0 ≤ second.toNat)
    | 0xED => decide (second.toNat < 0xA0)
    | 0xF0 => decide (0x90 ≤ second.toNat)
    | 0xF4 => decide (second.toNat < 0x90)
    | _ => true

/-- The payload of a continuation. -/
def payload (b : UInt8) : Nat := b.toNat % 64

/-- The character that some bytes start with. -/
def decodeFirst (b : UInt8) (rest : List UInt8) : Decoded :=
  let n := b.toNat
  if n < 0x80 then .char (Char.ofNat n) rest
  else if n < 0xC2 || n > 0xF4 then .bad .badStart 1 rest
  else
    match rest with
    | [] => .bad .unfinished 1 []
    | c :: rest₂ =>
      if !maySecond b c then .bad .badContinuation 1 rest
      else if n < 0xE0 then .char (Char.ofNat ((n - 0xC0) * 64 + payload c)) rest₂
      else
        match rest₂ with
        | [] => .bad .unfinished 2 []
        | d :: rest₃ =>
          if !isContinuation d then .bad .badContinuation 2 rest₂
          else if n < 0xF0 then
            .char (Char.ofNat (((n - 0xE0) * 64 + payload c) * 64 + payload d)) rest₃
          else
            match rest₃ with
            | [] => .bad .unfinished 3 []
            | e :: rest₄ =>
              if !isContinuation e then .bad .badContinuation 3 rest₃
              else
                .char
                  (Char.ofNat
                    ((((n - 0xF0) * 64 + payload c) * 64 + payload d) * 64 + payload e))
                  rest₄

/-- Two lower-case hexadecimal digits. -/
def hexByte (b : UInt8) : String :=
  let ds := Nat.toDigits 16 b.toNat
  String.ofList (List.replicate (2 - ds.length) '0' ++ ds)

/-- The words of a refusal to decode. -/
def refusal (why : Undecodable) (first : UInt8) (position length : Nat) : String :=
  "'utf-8' codec can't decode " ++
    (if length = 1 then
      "byte 0x" ++ hexByte first ++ " in position " ++ toString position
    else
      "bytes in position " ++ toString position ++ "-" ++ toString (position + length - 1)) ++
    ": " ++ why.text

/-- The characters of some bytes, or why they are no text; `acc` is last
first and `fuel` bounds the number of bytes. -/
def decodeStrict : Nat → Nat → List Char → List UInt8 → Except String (List Char)
  | _, _, acc, [] => .ok acc.reverse
  | 0, _, acc, _ => .ok acc.reverse
  | fuel + 1, position, acc, b :: more =>
    match decodeFirst b more with
    | .bad why length _ => .error (refusal why b position length)
    | .char c rest => decodeStrict fuel (position + c.utf8Size) (c :: acc) rest

/-- The characters of some bytes, with a mark of replacement for what is no
character; `acc` is last first and `fuel` bounds the number of bytes. -/
def decodeLenient : Nat → List Char → List UInt8 → List Char
  | _, acc, [] => acc.reverse
  | 0, acc, _ => acc.reverse
  | fuel + 1, acc, b :: more =>
    match decodeFirst b more with
    | .bad _ _ rest => decodeLenient fuel ('\ufffd' :: acc) rest
    | .char c rest => decodeLenient fuel (c :: acc) rest

/-- The text of a file, with single line ends, or why it has none. -/
def ofBytes (bytes : ByteArray) : Except String String :=
  (decodeStrict bytes.size 0 [] bytes.toList).map fun cs => String.ofList (singleLineEnds cs)

/-- The text of a file, with single line ends and marks of replacement. -/
def ofBytesLenient (bytes : ByteArray) : String :=
  String.ofList (singleLineEnds (decodeLenient bytes.size [] bytes.toList))

end Routebook.Text
