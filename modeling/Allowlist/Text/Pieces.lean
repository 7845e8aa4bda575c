import Allowlist.Text.Lines
import Allowlist.Text.Utf8

/-!
# Reading a text in pieces

A text file that is read piece by piece is decoded chunk by chunk, so what is wrong with a later chunk
shows only when a piece needs it, and the place of a fault counts from the start of its chunk. What a
chunk leaves incomplete, a sequence of bytes or a line end, is completed by the next one. A chunk is
larger than usual if the one before had more than two bytes to a character.
-/
namespace Allowlist.Pieces

open Utf8 (Bytes)

/-- Characters in a piece. -/
def pieceSize : Nat := 4096

/-- Bytes in a chunk, at least. -/
def chunkSize : Nat := 8192

structure Reader where
  bytes : Bytes
  /-- The start of a sequence that the last chunk did not complete. -/
  held : Bytes
  /-- Whether the last chunk ended with a carriage return. -/
  heldReturn : Bool
  /-- Characters that no piece has taken. -/
  ready : List Char
  lastBytes : Nat
  lastChars : Nat

def Reader.start (bs : Bytes) : Reader := ⟨bs, [], false, [], 0, 0⟩

/-- The characters of a chunk, and the bytes behind them that need more. -/
def decodeChunk (data : Bytes) (final : Bool) : Except Utf8.Fault (List Char × Bytes) :=
  match Utf8.decode data with
  | .ok cs => .ok (cs, [])
  | .error f =>
    if f.reason = .unexpectedEnd ∧ !final then
      (Utf8.decode (data.take f.position)).map (·, data.drop f.position)
    else .error f

/-- Puts a carriage return that was held back in front, and holds back one at the end. -/
def holdReturn (cs : List Char) (held final : Bool) : List Char × Bool :=
  let out := held && (final || cs ≠ [])
  let cs := if out then '\r' :: cs else cs
  if !final && cs.getLast? = some '\r' then (cs.dropLast, true) else (cs, held && !out)

/-- Decodes one chunk when `wanted` characters are still missing; the last one is empty. -/
def Reader.readChunk (r : Reader) (wanted : Nat) : Except Utf8.Fault Reader :=
  let size := if r.lastChars = 0 then 0 else r.lastBytes * wanted / r.lastChars
  let chunk := r.bytes.take (max chunkSize size)
  let final := chunk = []
  match decodeChunk (r.held ++ chunk) final with
  | .error f => .error f
  | .ok (cs, held) =>
    let (cs, heldReturn) := holdReturn cs r.heldReturn final
    let cs := Lines.unify cs
    .ok ⟨r.bytes.drop chunk.length, held, heldReturn, r.ready ++ cs, chunk.length, cs.length⟩

/-- Reads chunks until a piece is there or the text ends; `fuel` bounds their number. -/
def Reader.fill : Nat → Reader → Except Utf8.Fault Reader
  | 0, r => .ok r
  | fuel + 1, r =>
    if pieceSize ≤ r.ready.length then .ok r
    else match r.readChunk (pieceSize - r.ready.length) with
      | .error f => .error f
      | .ok next => if r.bytes = [] then .ok next else fill fuel next

/-- The pieces that can be read, and what is wrong behind them. -/
def readFrom : Nat → Reader → List (List Char) × Option Utf8.Fault
  | 0, _ => ([], none)
  | fuel + 1, r =>
    match r.fill (r.bytes.length + 2) with
    | .error f => ([], some f)
    | .ok r =>
      if r.ready = [] then ([], none)
      else
        let (pieces, fault) :=
          readFrom fuel { r with ready := r.ready.drop pieceSize }
        (r.ready.take pieceSize :: pieces, fault)

def read (bs : Bytes) : List (List Char) × Option Utf8.Fault :=
  readFrom (bs.length + 2) (.start bs)

end Allowlist.Pieces
