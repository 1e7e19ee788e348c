import ReversePolish.Source.Folder
import ReversePolish.Source.Lines

/-!
# ReversePolish.Source.Feed

A **feed**: the lines that a source gives out, and how it ends.

Bytes are read and decoded in blocks. The lines of a block are given out before
the next block is read, so a source that cannot be decoded still gives out the
complete lines of the blocks before the one in which that shows.

Design points:

* Bytes that are wrong show when the block with the refused byte is read; what
  is wrong only because the data ends shows at the end.
* A block leaves the bytes of a character that it cuts to the next one. The
  index of a fault counts from the first of the bytes left over.
-/

namespace ReversePolish

/-- Why a source cannot be read. -/
inductive ReadFault
  /-- It cannot be opened. -/
  | cannotOpen (fault : OpenFault) (path : Text)
  /-- Its bytes are no text. -/
  | undecodable (encoding : Encoding) (fault : DecodeFault)
  /-- Reading broke off. -/
  | device (message : Text)
  deriving Repr, DecidableEq

/-- The wording of the reason. -/
def ReadFault.message : ReadFault → Text
  | cannotOpen fault path => fault.message path
  | undecodable encoding fault => fault.message encoding
  | device message => message

/-- How a source ends. -/
inductive FeedEnd
  /-- Every line was given out. -/
  | finished
  /-- The source cannot be read any further. -/
  | unreadable (fault : ReadFault)
  /-- The source itself failed, in a way that is none of reading's. -/
  | broken (message : Text)
  deriving Repr, DecidableEq

/-- The lines that a source gives out before it ends. -/
structure Feed where
  lines : List Text
  ending : FeedEnd
  deriving Repr, DecidableEq

namespace Feed

/-- The number of bytes that are read at a time. -/
def blockSize : Nat := 8192

/-- The number of bytes in the blocks before the one that holds a byte. -/
def blocksBefore (index : Nat) : Nat := index / blockSize * blockSize

/-- The feed of bytes that turned out to be undecodable behind those that
`before` has taken. -/
def interrupted (encoding : Encoding) (convention : LineConvention) (before : Decoder)
    (fault : DecodeFault) : Feed :=
  ⟨Lines.soFar convention before.text,
    .unreadable (.undecodable encoding (fault.since before.consumed))⟩

/-- The feed of some bytes. -/
def ofBytes (encoding : Encoding) (convention : LineConvention) (bytes : List UInt8) : Feed :=
  let decoder := Decoder.run encoding bytes
  match decoder.state with
  | .stopped fault =>
    interrupted encoding convention (Decoder.run encoding (bytes.take (blocksBefore decoder.read)))
      fault
  | _ =>
    match decoder.endFault? with
    | some fault => interrupted encoding convention decoder fault
    | none => ⟨(Lines.of convention decoder.text).all, .finished⟩

/-- The feed of a file: UTF-8 with any line ends. -/
def ofFile (path : Text) (opened : Except OpenFault (List UInt8)) : Feed :=
  match opened with
  | .ok bytes => ofBytes .utf8 .universal bytes
  | .error fault => ⟨[], .unreadable (.cannotOpen fault path)⟩

end Feed

end ReversePolish
