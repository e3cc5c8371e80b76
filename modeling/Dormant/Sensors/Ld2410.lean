import Mathlib.Data.List.Basic
import Dormant.Foundations.Runs

/-!
# The frame parser of the LD2410 radar

`FrameParser` of `usb_ld2410.rs`. A byte that is read out of range, or a range that is drained
outside the buffer, panics, which is `none`.
-/

namespace Dormant
set_option autoImplicit false

def maxBufSize : ℕ := 4096

/-- Only the target state is extracted. -/
structure Ld2410Frame where
  targetState : UInt8
  deriving DecidableEq, Repr

structure FrameParser where
  buf : List UInt8
  deriving DecidableEq, Repr

def frameHeader : List UInt8 := [0xF4, 0xF3, 0xF2, 0xF1]

def frameTail : List UInt8 := [0xF8, 0xF7, 0xF6, 0xF5]

/-- The buffer without its first `n` bytes. -/
def drain (n : ℕ) (buf : List UInt8) : Option (List UInt8) :=
  if n ≤ buf.length then some (buf.drop n) else none

/-- The four bytes from `start` on. -/
def fourBytes (start : ℕ) (buf : List UInt8) : Option (List UInt8) :=
  if start + 4 ≤ buf.length then some ((buf.drop start).take 4) else none

/-- The position of the first header. -/
def findHeader : List UInt8 → Option ℕ
  | [] => none
  | byte :: buf =>
    if (byte :: buf).take 4 = frameHeader then some 0 else (findHeader buf).map (· + 1)

/-- What one pass of the loop does with the buffer. -/
inductive Pass where
  | stop (buf : List UInt8)
  | again (buf : List UInt8) (frame : Option Ld2410Frame)
  deriving DecidableEq, Repr

/-- A byte is discarded. -/
def discardFirst (buf : List UInt8) : Option Pass :=
  (drain 1 buf).map fun buf => .again buf none

/-- The pass from where the header is at the front of the buffer. -/
def parseFrame (buf : List UInt8) : Option Pass :=
  if buf.length < 6 then some (.stop buf)
  else
    buf[4]?.bind fun low =>
    buf[5]?.bind fun high =>
      let dataLen := low.toNat + 256 * high.toNat
      if dataLen < 3 then discardFirst buf
      else
        let totalLen := 4 + 2 + dataLen + 4
        if totalLen > maxBufSize then discardFirst buf
        else if buf.length < totalLen then some (.stop buf)
        else
          let tailStart := 4 + 2 + dataLen
          (fourBytes tailStart buf).bind fun tail =>
            if tail = frameTail then
              buf[6]?.bind fun frameType =>
              buf[8]?.bind fun targetState =>
                (drain totalLen buf).map fun buf =>
                  .again buf (if frameType = 2 then some ⟨targetState⟩ else none)
            else discardFirst buf

def parsePass (buf : List UInt8) : Option Pass :=
  match findHeader buf with
  | none =>
    if buf.length > maxBufSize / 2 then
      (drain (buf.length - maxBufSize / 2) buf).map .stop
    else some (.stop buf)
  | some headerPos =>
    if headerPos > 0 then (drain headerPos buf).bind parseFrame else parseFrame buf

/-- The loop, of which `none` is a panic, or more than `fuel` passes. -/
def parseLoop : ℕ → List UInt8 → Option (List UInt8 × List Ld2410Frame)
  | 0, _ => none
  | fuel + 1, buf =>
    match parsePass buf with
    | none => none
    | some (.stop buf) => some (buf, [])
    | some (.again buf frame) =>
      (parseLoop fuel buf).map fun result => (result.1, frame.toList ++ result.2)

namespace FrameParser

def new : FrameParser := ⟨[]⟩

/-- The buffer with the bytes, after the cap. -/
def extend (p : FrameParser) (bytes : List UInt8) : Option (List UInt8) :=
  let buf := p.buf ++ bytes
  if buf.length > maxBufSize then drain (buf.length - maxBufSize) buf else some buf

/-- A pass that continues consumes a byte. -/
def push (p : FrameParser) (bytes : List UInt8) : Option (FrameParser × List Ld2410Frame) :=
  (p.extend bytes).bind fun buf =>
    (parseLoop (buf.length + 1) buf).map fun result => (⟨result.1⟩, result.2)

end FrameParser

/-- The pushes of a read loop, of which `none` is a parser that panicked. -/
def reading : Runs.System (Option FrameParser) (List UInt8) Ld2410Frame where
  next parser chunk :=
    match parser.bind fun p => p.push chunk with
    | none => (none, [])
    | some (p, frames) => (some p, frames)

end Dormant
