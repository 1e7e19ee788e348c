import ReversePolish.Text.Decimal
import ReversePolish.Text.Quoted

/-!
# ReversePolish.Source.Decoding

**Decoding** bytes into text, in UTF-8 or ASCII.

A decoder takes one byte after the other. It is between two characters, inside
one of which bytes are still to come, or stopped at bytes that no text encodes;
a stopped decoder takes no further byte. So decoding is a left fold, and the
decoder after any first part of the data is that part's own fold.

Design points:

* The second byte of a character has a narrower range after some first bytes,
  which rules out overlong forms, surrogates and code points beyond the last.
* A fault spans the bytes that a decoder had accepted of a character, without
  the one that it refused. A byte that can start no character spans itself.
* Two bytes that begin a surrogate are never accepted, but the decoder stops
  only at the byte behind them or at the end of the data.
-/

namespace ReversePolish

/-- How text is written in bytes. -/
inductive Encoding
  | utf8
  | ascii
  deriving Repr, DecidableEq

/-- The name that a message gives. -/
def Encoding.name : Encoding → Text
  | utf8 => "utf-8".toList
  | ascii => "ascii".toList

/-! ### Faults -/

/-- What is wrong with some bytes. -/
inductive DecodeReason
  /-- No character starts with the byte. -/
  | invalidStart
  /-- The character does not go on with the next byte. -/
  | invalidContinuation
  /-- The data ends inside the character. -/
  | unexpectedEnd
  /-- The byte is no ASCII character. -/
  | notAscii
  deriving Repr, DecidableEq

/-- What a reason says. -/
def DecodeReason.text : DecodeReason → Text
  | invalidStart => "invalid start byte".toList
  | invalidContinuation => "invalid continuation byte".toList
  | unexpectedEnd => "unexpected end of data".toList
  | notAscii => "ordinal not in range(128)".toList

/-- Bytes that cannot be decoded. -/
structure DecodeFault where
  reason : DecodeReason
  /-- The first of the bytes. -/
  first : UInt8
  /-- Its index. -/
  position : Nat
  /-- The number of bytes. -/
  span : Nat
  deriving Repr, DecidableEq

/-- The same fault, with its index counted from a later byte. -/
def DecodeFault.since (fault : DecodeFault) (origin : Nat) : DecodeFault :=
  { fault with position := fault.position - origin }

/-- The wording of a fault: one byte is named by its value, several by their
indices. -/
def DecodeFault.message (fault : DecodeFault) (encoding : Encoding) : Text :=
  let place :=
    if fault.span ≤ 1 then
      " byte 0x".toList ++ Text.hexadecimal 2 fault.first.toNat ++ " in position ".toList ++
        Text.natural fault.position
    else
      " bytes in position ".toList ++ Text.natural fault.position ++ ['-'] ++
        Text.natural (fault.position + fault.span - 1)
  [Text.apostrophe] ++ encoding.name ++ [Text.apostrophe] ++ " codec can't decode".toList ++
    place ++ ": ".toList ++ fault.reason.text

/-! ### The decoder -/

/-- A character of which bytes are still to come. -/
structure OpenCharacter where
  /-- The first byte. -/
  first : UInt8
  /-- The number of bytes so far. -/
  taken : Nat
  /-- The number of bytes still to come. -/
  missing : Nat
  /-- The least next byte. -/
  low : Nat
  /-- The greatest next byte. -/
  high : Nat
  /-- The code point as far as it is known. -/
  code : Nat
  deriving Repr, DecidableEq

/-- Where a decoder stands. -/
inductive DecoderState
  | between
  | inside (character : OpenCharacter)
  /-- Behind the first two bytes of a surrogate. -/
  | surrogate
  | stopped (fault : DecodeFault)
  deriving Repr, DecidableEq

/-- A decoder with what it has read. -/
structure Decoder where
  /-- The characters so far, the last one first. -/
  backwards : Text
  /-- The number of bytes taken. -/
  read : Nat
  state : DecoderState
  deriving Repr, DecidableEq

namespace Decoder

/-- A decoder before the first byte. -/
def start : Decoder := ⟨[], 0, .between⟩

/-- The text so far. -/
def text (decoder : Decoder) : Text := decoder.backwards.reverse

/-- The number of bytes that make up the text so far. -/
def consumed (decoder : Decoder) : Nat :=
  match decoder.state with
  | .inside character => decoder.read - character.taken
  | .surrogate => decoder.read - 2
  | _ => decoder.read

/-- One more byte that ends a character. -/
def finishCharacter (decoder : Decoder) (code : Nat) : Decoder :=
  ⟨Char.ofNat code :: decoder.backwards, decoder.read + 1, .between⟩

/-- One more byte inside a character. -/
def continueCharacter (decoder : Decoder) (character : OpenCharacter) : Decoder :=
  { decoder with read := decoder.read + 1, state := .inside character }

/-- The end of the decoding, at the byte that comes next. -/
def stop (decoder : Decoder) (fault : DecodeFault) : Decoder :=
  { decoder with state := .stopped fault }

/-- A byte that starts no character. -/
def refused (decoder : Decoder) (reason : DecodeReason) (byte : UInt8) : DecodeFault :=
  ⟨reason, byte, decoder.read, 1⟩

/-- A character that does not go on. -/
def cutOff (decoder : Decoder) (reason : DecodeReason) (character : OpenCharacter) : DecodeFault :=
  ⟨reason, character.first, decoder.read - character.taken, character.taken⟩

/-- The first byte of all surrogates. -/
def surrogateFirst : UInt8 := 0xed

/-- A surrogate, of which only the first byte is accepted. -/
def surrogateFault (decoder : Decoder) : DecodeFault :=
  ⟨.invalidContinuation, surrogateFirst, decoder.read - 2, 1⟩

/-- A first byte of a UTF-8 character. -/
def takeFirst (decoder : Decoder) (byte : UInt8) : Decoder :=
  let n := byte.toNat
  if n < 0x80 then decoder.finishCharacter n
  else if n < 0xc2 then decoder.stop (decoder.refused .invalidStart byte)
  else if n < 0xe0 then decoder.continueCharacter ⟨byte, 1, 1, 0x80, 0xbf, n % 32⟩
  else if n < 0xf0 then
    decoder.continueCharacter
      ⟨byte, 1, 2, if n = 0xe0 then 0xa0 else 0x80, if n = 0xed then 0x9f else 0xbf, n % 16⟩
  else if n < 0xf5 then
    decoder.continueCharacter
      ⟨byte, 1, 3, if n = 0xf0 then 0x90 else 0x80, if n = 0xf4 then 0x8f else 0xbf, n % 8⟩
  else decoder.stop (decoder.refused .invalidStart byte)

/-- A later byte of a UTF-8 character. -/
def takeNext (decoder : Decoder) (character : OpenCharacter) (byte : UInt8) : Decoder :=
  let n := byte.toNat
  if character.low ≤ n ∧ n ≤ character.high then
    let code := character.code * 64 + n % 64
    if character.missing ≤ 1 then decoder.finishCharacter code
    else
      decoder.continueCharacter
        ⟨character.first, character.taken + 1, character.missing - 1, 0x80, 0xbf, code⟩
  else if character.first = surrogateFirst ∧ character.taken = 1 ∧ 0xa0 ≤ n ∧ n ≤ 0xbf then
    { decoder with read := decoder.read + 1, state := .surrogate }
  else decoder.stop (decoder.cutOff .invalidContinuation character)

/-- One more byte. -/
def take (encoding : Encoding) (decoder : Decoder) (byte : UInt8) : Decoder :=
  match decoder.state with
  | .stopped _ => decoder
  | .inside character => decoder.takeNext character byte
  | .surrogate => decoder.stop decoder.surrogateFault
  | .between =>
    match encoding with
    | .utf8 => decoder.takeFirst byte
    | .ascii =>
      if byte.toNat < 0x80 then decoder.finishCharacter byte.toNat
      else decoder.stop (decoder.refused .notAscii byte)

/-- The decoder after some bytes. -/
def run (encoding : Encoding) (bytes : List UInt8) : Decoder := bytes.foldl (take encoding) start

/-- What is wrong when the data ends here: a character must not be left open. -/
def endFault? (decoder : Decoder) : Option DecodeFault :=
  match decoder.state with
  | .inside character => some (decoder.cutOff .unexpectedEnd character)
  | .surrogate => some decoder.surrogateFault
  | _ => none

end Decoder

/-! ### Encoding -/

/-- The UTF-8 form of a text. -/
def encodeUtf8 (text : Text) : List UInt8 := text.flatMap String.utf8EncodeChar

@[simp] theorem encodeUtf8_nil : encodeUtf8 [] = [] := rfl

@[simp] theorem encodeUtf8_cons (c : Char) (text : Text) :
    encodeUtf8 (c :: text) = String.utf8EncodeChar c ++ encodeUtf8 text := rfl

@[simp] theorem encodeUtf8_append (s t : Text) :
    encodeUtf8 (s ++ t) = encodeUtf8 s ++ encodeUtf8 t := by
  simp [encodeUtf8]

end ReversePolish
