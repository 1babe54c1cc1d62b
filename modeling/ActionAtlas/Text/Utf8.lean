/-!
Bytes in UTF-8, and what is read of bytes that need not be. Where they are no UTF-8, a part that
begins a character and cannot go on, or a single byte that begins none, is read as U+FFFD.
-/

namespace ActionAtlas.Text

def bytes (text : String) : List UInt8 :=
  text.toUTF8.data.toList

/-- The text that has these bytes, if there is one. -/
def ofBytes? (bytes : List UInt8) : Option String :=
  String.fromUTF8? bytes.toByteArray

/-- The least byte behind the first one of a character. Below it would be a longer form than is
needed. -/
def leastSecond (first : UInt8) : UInt8 :=
  if first = 0xE0 then 0xA0 else if first = 0xF0 then 0x90 else 0x80

/-- The greatest byte behind the first one of a character. Above it would be a surrogate, or what is
behind the last code point. -/
def greatestSecond (first : UInt8) : UInt8 :=
  if first = 0xED then 0x9F else if first = 0xF4 then 0x8F else 0xBF

/-- The ranges of the bytes that follow the first byte of a character. -/
def followers (first : UInt8) : List (UInt8 × UInt8) :=
  let second := (leastSecond first, greatestSecond first)
  if first < 0xC2 then []
  else if first < 0xE0 then [second]
  else if first < 0xF0 then [second, (0x80, 0xBF)]
  else if first < 0xF5 then [second, (0x80, 0xBF), (0x80, 0xBF)]
  else []

/-- How many bytes lie in the ranges, one in each, before one does not. -/
def inTurn : List (UInt8 × UInt8) → List UInt8 → Nat
  | range :: ranges, b :: rest =>
    if range.1 ≤ b && b ≤ range.2 then inTurn ranges rest + 1 else 0
  | _, _ => 0

/-- What is read of bytes of which the first few are read already. -/
def lossyBehind : Nat → List UInt8 → List Char
  | _, [] => []
  | read + 1, _ :: rest => lossyBehind read rest
  | 0, first :: rest =>
    match (first :: rest).toByteArray.utf8DecodeChar? 0 with
    | some c => c :: lossyBehind (c.utf8Size - 1) rest
    | none => '\ufffd' :: lossyBehind (inTurn (followers first) rest) rest

def lossy (bytes : List UInt8) : String :=
  String.ofList (lossyBehind 0 bytes)

end ActionAtlas.Text
