/-! # UTF-8 — decoding with the place and reason of a failure

    Decoding stops at the first byte that cannot be read.  A failure
    covers the bytes of the broken sequence that were acceptable so far
    and says whether its first byte starts nothing, a later byte does not
    continue it, or the data ends inside it. -/

namespace LineShell.Text

/-- Why bytes are no UTF-8. -/
inductive Utf8Reason where
  | invalidStart
  | invalidContinuation
  | unexpectedEnd
  deriving DecidableEq, Repr

/-- Where and why bytes are no UTF-8: the first byte of the broken
    sequence, its position, and how many bytes it covers. -/
structure Utf8Error where
  first : UInt8
  position : Nat
  size : Nat
  reason : Utf8Reason
  deriving DecidableEq, Repr

/-- The reason in words. -/
def Utf8Reason.message : Utf8Reason → String
  | .invalidStart => "invalid start byte"
  | .invalidContinuation => "invalid continuation byte"
  | .unexpectedEnd => "unexpected end of data"

/-- A byte as two hexadecimal digits. -/
def byteText (b : UInt8) : String :=
  String.ofList [Nat.digitChar (b.toNat / 16), Nat.digitChar (b.toNat % 16)]

/-- The failure in words: one byte is shown, several are counted. -/
def Utf8Error.message (e : Utf8Error) : String :=
  if e.size ≤ 1 then
    s!"'utf-8' codec can't decode byte 0x{byteText e.first} in position "
      ++ s!"{e.position}: {e.reason.message}"
  else
    s!"'utf-8' codec can't decode bytes in position "
      ++ s!"{e.position}-{e.position + e.size - 1}: {e.reason.message}"

/-- A byte that continues a sequence. -/
def isContinuation (b : UInt8) : Bool :=
  0x80 ≤ b && b < 0xc0

/-- May the second byte follow the first?  The narrower bounds keep out
    overlong forms, surrogates and what lies above the last code point. -/
def mayFollow (first second : UInt8) : Bool :=
  isContinuation second
    && !(first == 0xe0 && second < 0xa0) && !(first == 0xed && 0xa0 ≤ second)
    && !(first == 0xf0 && second < 0x90) && !(first == 0xf4 && 0x90 ≤ second)

/-- How many bytes a sequence has that starts with this byte. -/
def sequenceSize? (first : UInt8) : Option Nat :=
  if first < 0x80 then some 1
  else if first < 0xc2 then none
  else if first < 0xe0 then some 2
  else if first < 0xf0 then some 3
  else if first < 0xf5 then some 4
  else none

/-- The six low bits of a continuation byte. -/
def payload (b : UInt8) : Nat :=
  b.toNat % 64

/-- Decodes bytes, counting positions from `position`. -/
def decodeUtf8From (position : Nat) :
    List UInt8 → Except Utf8Error (List Char)
  | [] => .ok []
  | a :: rest =>
      let stop (size : Nat) (reason : Utf8Reason) :
          Except Utf8Error (List Char) :=
        .error ⟨a, position, size, reason⟩
      let put (code : Nat) (more : Except Utf8Error (List Char)) :
          Except Utf8Error (List Char) :=
        more.map (Char.ofNat code :: ·)
      match sequenceSize? a with
      | none => stop 1 .invalidStart
      | some 1 => put a.toNat (decodeUtf8From (position + 1) rest)
      | some 2 =>
          match rest with
          | [] => stop 1 .unexpectedEnd
          | b :: rest =>
              if !mayFollow a b then stop 1 .invalidContinuation
              else
                put (a.toNat % 32 * 64 + payload b)
                  (decodeUtf8From (position + 2) rest)
      | some 3 =>
          match rest with
          | [] => stop 1 .unexpectedEnd
          | b :: rest =>
              if !mayFollow a b then stop 1 .invalidContinuation
              else
                match rest with
                | [] => stop 2 .unexpectedEnd
                | c :: rest =>
                    if !isContinuation c then stop 2 .invalidContinuation
                    else
                      put
                        (a.toNat % 16 * 4096 + payload b * 64 + payload c)
                        (decodeUtf8From (position + 3) rest)
      | some _ =>
          match rest with
          | [] => stop 1 .unexpectedEnd
          | b :: rest =>
              if !mayFollow a b then stop 1 .invalidContinuation
              else
                match rest with
                | [] => stop 2 .unexpectedEnd
                | c :: rest =>
                    if !isContinuation c then stop 2 .invalidContinuation
                    else
                      match rest with
                      | [] => stop 3 .unexpectedEnd
                      | d :: rest =>
                          if !isContinuation d then
                            stop 3 .invalidContinuation
                          else
                            put
                              (a.toNat % 8 * 262144 + payload b * 4096
                                + payload c * 64 + payload d)
                              (decodeUtf8From (position + 4) rest)

/-- Decodes bytes. -/
def decodeUtf8 (bytes : List UInt8) : Except Utf8Error (List Char) :=
  decodeUtf8From 0 bytes

/-- The bytes of a text. -/
def encodeUtf8 (s : String) : List UInt8 :=
  s.toUTF8.toList

end LineShell.Text
