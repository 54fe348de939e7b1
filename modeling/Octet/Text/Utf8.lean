/-
This file encodes text as UTF-8 and reads it back. Reading first cuts the
bytes into segments: a well-formed sequence, or the longest beginning of one
that something else interrupts. The strict reader stops at the first broken
segment and says where and why; the lossy reader shows each broken segment as
one replacement character. Both are maps over the same segments, so they agree
about where a character begins.
-/

namespace Octet.Utf8

/-! ### Encoding -/

/-- The encoding of some characters. -/
def encodeChars (text : List Char) : List UInt8 :=
  text.flatMap String.utf8EncodeChar

/-- The encoding of a text. -/
def encode (text : String) : List UInt8 :=
  encodeChars text.toList

/-- The number of bytes that some characters take. -/
def width : List Char → Nat
  | [] => 0
  | c :: rest => c.utf8Size + width rest

/-! ### Segments -/

/-- Why a byte sequence is no character. -/
inductive Reason where
  | invalidStart
  | invalidContinuation
  | unexpectedEnd
deriving DecidableEq, Repr

/-- What a first byte promises: its share of the code point, how many bytes follow, and the
range that the first of those must lie in. Later ones lie between `80` and `BF`. -/
structure Promise where
  share : Nat
  following : Nat
  low : UInt8
  high : UInt8

/-- The promise of a first byte; none for a byte that begins no character. The narrowed ranges
keep out overlong forms, surrogates and numbers beyond the last code point. -/
def Promise.ofByte? (first : UInt8) : Option Promise :=
  if first < 0x80 then some ⟨first.toNat, 0, 0x80, 0xBF⟩
  else if first < 0xC2 then none
  else if first < 0xE0 then some ⟨first.toNat - 0xC0, 1, 0x80, 0xBF⟩
  else if first = 0xE0 then some ⟨0, 2, 0xA0, 0xBF⟩
  else if first = 0xED then some ⟨0xD, 2, 0x80, 0x9F⟩
  else if first < 0xF0 then some ⟨first.toNat - 0xE0, 2, 0x80, 0xBF⟩
  else if first = 0xF0 then some ⟨0, 3, 0x90, 0xBF⟩
  else if first < 0xF4 then some ⟨first.toNat - 0xF0, 3, 0x80, 0xBF⟩
  else if first = 0xF4 then some ⟨4, 3, 0x80, 0x8F⟩
  else none

/-- Reads the bytes that follow a first byte. The answer is what they make, and how many of
them belong to it. -/
def continuation : (following : Nat) → (low high : UInt8) → (share : Nat) → List UInt8 →
    Except Reason Char × Nat
  | 0, _, _, share, _ => (.ok (Char.ofNat share), 0)
  | _ + 1, _, _, _, [] => (.error .unexpectedEnd, 0)
  | following + 1, low, high, share, byte :: rest =>
    if low ≤ byte && byte ≤ high then
      let (outcome, taken) :=
        continuation following 0x80 0xBF (share * 64 + (byte.toNat - 0x80)) rest
      (outcome, taken + 1)
    else (.error .invalidContinuation, 0)

/-- A character or a broken beginning of one, with the bytes it is made of. -/
structure Segment where
  outcome : Except Reason Char
  bytes : List UInt8

/-- The segment that a first byte opens. -/
def Segment.opening (first : UInt8) (rest : List UInt8) : Segment :=
  match Promise.ofByte? first with
  | none => ⟨.error .invalidStart, [first]⟩
  | some promise =>
    let (outcome, taken) :=
      continuation promise.following promise.low promise.high promise.share rest
    ⟨outcome, first :: rest.take taken⟩

/-- Cuts bytes into segments. -/
def segments : List UInt8 → List Segment
  | [] => []
  | first :: rest =>
    let segment := Segment.opening first rest
    segment :: segments (rest.drop (segment.bytes.length - 1))
termination_by bytes => bytes.length
decreasing_by simp only [List.length_drop, List.length_cons]; omega

/-! ### Reading -/

/-- The character a segment is shown as; a broken one is shown as the replacement character. -/
def Segment.shown (segment : Segment) : Char :=
  match segment.outcome with
  | .ok c => c
  | .error _ => '\ufffd'

/-- Reads bytes as text, with one replacement character for each broken segment. -/
def decodeLossy (bytes : List UInt8) : String :=
  String.ofList ((segments bytes).map Segment.shown)

/-- The first place where bytes are no text: from `start` up to `stop`. -/
structure Malformed where
  reason : Reason
  first : UInt8
  start : Nat
  stop : Nat
deriving DecidableEq, Repr

/-- The characters of the segments, if none is broken. `position` is where they begin. -/
def charsOf (position : Nat) : List Segment → Except Malformed (List Char)
  | [] => .ok []
  | segment :: rest =>
    match segment.outcome with
    | .ok c => (charsOf (position + segment.bytes.length) rest).map (c :: ·)
    | .error reason =>
      .error ⟨reason, segment.bytes.headD 0, position, position + segment.bytes.length⟩

/-- Reads bytes as text, or says where they are none. -/
def decode (bytes : List UInt8) : Except Malformed String :=
  (charsOf 0 (segments bytes)).map String.ofList

/-- The reason in words. -/
def Reason.message : Reason → String
  | .invalidStart => "invalid start byte"
  | .invalidContinuation => "invalid continuation byte"
  | .unexpectedEnd => "unexpected end of data"

/-- Two small hexadecimal digits. -/
def smallHexByte (byte : UInt8) : String :=
  String.ofList [Nat.digitChar (byte.toNat / 16), Nat.digitChar (byte.toNat % 16)]

/-- The complaint about bytes that are no text. -/
def Malformed.message (malformed : Malformed) : String :=
  let place :=
    if malformed.stop = malformed.start + 1 then
      "byte 0x" ++ smallHexByte malformed.first ++ " in position " ++ toString malformed.start
    else
      "bytes in position " ++ toString malformed.start ++ "-" ++ toString (malformed.stop - 1)
  "'utf-8' codec can't decode " ++ place ++ ": " ++ malformed.reason.message

end Octet.Utf8
