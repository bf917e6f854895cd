/-!
# UTF-8

Bytes and the text they spell.

## Main definitions

* `Utf8.encode` — the bytes of a text
* `Utf8.decode?` — the text that some bytes spell, if they spell one
* `Utf8.display` — a text for any bytes, with `U+FFFD` wherever they spell nothing

The main statement is `decode?_encode`: what was encoded reads back.
-/

namespace ShardKeeper

/-- A sequence of bytes. -/
abbrev Bytes := List UInt8

namespace Utf8

/-- The bytes that spell `text`. -/
def encode (text : List Char) : Bytes := text.flatMap String.utf8EncodeChar

/-- The text spelled by `bytes`, or nothing when they are no UTF-8. -/
def decode? (bytes : Bytes) : Option (List Char) :=
  bytes.toByteArray.utf8Decode?.map Array.toList

@[simp] theorem encode_nil : encode [] = [] := rfl

@[simp] theorem encode_append (s t : List Char) : encode (s ++ t) = encode s ++ encode t := by
  simp [encode]

theorem decode?_encode (text : List Char) : decode? (encode text) = some text := by
  have h : (encode text).toByteArray = text.utf8Encode := rfl
  simp [decode?, h]

/-- The bytes of a string. -/
def ofString (s : String) : Bytes := encode s.toList

/-- The string spelled by `bytes`, or nothing when they are no UTF-8. -/
def toString? (bytes : Bytes) : Option String := (decode? bytes).map String.ofList

theorem toString?_ofString (s : String) : toString? (ofString s) = some s := by
  simp [toString?, ofString, decode?_encode]

/-! ### Bytes that spell no text -/

/-- How many bytes follow the first byte of a character, and the bounds of the next one of them. A
byte that begins no character is followed by none. -/
def followers (first : UInt8) : Nat × UInt8 × UInt8 :=
  if first < 0xC2 then (0, 0, 0)
  else if first < 0xE0 then (1, 0x80, 0xBF)
  else if first = 0xE0 then (2, 0xA0, 0xBF)
  else if first = 0xED then (2, 0x80, 0x9F)
  else if first < 0xF0 then (2, 0x80, 0xBF)
  else if first = 0xF0 then (3, 0x90, 0xBF)
  else if first < 0xF4 then (3, 0x80, 0xBF)
  else if first = 0xF4 then (3, 0x80, 0x8F)
  else (0, 0, 0)

/-- How many of the bytes can follow, when `count` are wanted and the next one lies within
bounds. -/
def followersIn (count : Nat) (least greatest : UInt8) : Bytes → Nat
  | [] => 0
  | b :: rest =>
    match count with
    | 0 => 0
    | count + 1 => if least ≤ b && b ≤ greatest then followersIn count 0x80 0xBF rest + 1 else 0

/-- The text of some bytes. The longest beginning of a character that does not become one stands as
a single `U+FFFD`, and so does a byte that begins none. -/
def display (bytes : Bytes) : List Char :=
  match bytes with
  | [] => []
  | b :: rest =>
    let (count, least, greatest) := followers b
    let n := followersIn count least greatest rest
    (decode? (b :: rest.take n)).getD ['\ufffd'] ++ display (rest.drop n)
termination_by bytes.length
decreasing_by simp only [List.length_cons, List.length_drop]; omega

end Utf8

end ShardKeeper
