import Mathlib.Algebra.GroupWithZero.Nat
import Vectro.Lines

set_option autoImplicit false

namespace Vectro.Frame

inductive MessageOrigin where
  | unknown
  | server
  | client
deriving DecidableEq, Repr

structure InternalMessageMeta where
  traceId : UInt64 := 0
  connectionId : UInt64 := 0
  timestamp : Int
  tag : Option String := none
  remoteIp : String := ""
  remotePort : UInt16 := 0
  localPort : UInt16 := 0
  routeHint : Option String := none
  isBehindReverseProxy : Bool := false
  isCanGetRealIp : Bool := true
  origin : MessageOrigin := .unknown
deriving DecidableEq, Repr

-- What the code may raise, and what it may do that has no defined meaning.
inductive Raised where
  | invalidArgument (what : String)
  | outOfBounds
deriving DecidableEq, Repr

theorem ok_bind {First Second : Type} (value : First) (next : First → Except Raised Second) :
    (Except.ok value >>= next) = next value := rfl

-- A RawBuffer that has been made owns at least one byte. The default buffer
-- and a buffer that was moved from are never looked at here.
structure RawBuffer where
  bytes : List UInt8
  valid : bytes ≠ []
deriving DecidableEq

def RawBuffer.size (buffer : RawBuffer) : Nat := buffer.bytes.length

structure InternalMessage where
  meta_ : InternalMessageMeta
  buffer : RawBuffer
deriving DecidableEq

-- Fresh memory holds whatever it held before; the allocator does not fail.
def RawBuffer.make (memory : Nat → UInt8) (size : Nat) : Except Raised RawBuffer :=
  if zero : size = 0 then .error (.invalidArgument "RawBuffer: invalid construction arguments.")
  else .ok ⟨(List.range size).map memory, by simpa using zero⟩

-- Copying to the front of a buffer; what does not fit is not written.
def overwrite (bytes data : List UInt8) : List UInt8 := data.take bytes.length ++ bytes.drop data.length

theorem overwrite_length (bytes data : List UInt8) : (overwrite bytes data).length = bytes.length := by
  rw [overwrite, List.length_append, List.length_take, List.length_drop]
  omega

def RawBuffer.write (buffer : RawBuffer) (data : List UInt8) : RawBuffer where
  bytes := overwrite buffer.bytes data
  valid := by
    have size := overwrite_length buffer.bytes data
    have positive := List.length_pos_iff.mpr buffer.valid
    exact List.ne_nil_of_length_pos (size ▸ positive)

def newline : UInt8 := 10

structure SimpleLineFramer where
  scratch : RawBuffer
  writePos : Nat
deriving DecidableEq

def sizeT (n : Nat) : Nat := n % 2 ^ 64

section
variable (memory : Nat → UInt8)

def construct : Except Raised SimpleLineFramer := (RawBuffer.make memory 4096).map fun scratch => ⟨scratch, 0⟩

def SimpleLineFramer.prepareRead (framer : SimpleLineFramer) : Except Raised SimpleLineFramer :=
  if sizeT (framer.scratch.size + 2 ^ 64 - framer.writePos) < 1024 then
    (RawBuffer.make memory (sizeT (framer.writePos + 4096))).map fun scratch => ⟨scratch, 0⟩
  else .ok framer

-- The loop of OnData, with the number of bytes still to look at. The clock
-- gives the time at which each message is built.
def scan (clock : Nat → Int) (data : List UInt8) :
    Nat → Nat → Nat → List InternalMessage → Except Raised (Nat × List InternalMessage)
  | 0, _, start, out => .ok (start, out)
  | remaining + 1, i, start, out =>
      match data[i]? with
      | none => .error .outOfBounds
      | some byte =>
          if byte = newline then do
            let msgbuf ← RawBuffer.make memory (i - start)
            let payload := msgbuf.write ((data.drop start).take (i - start))
            scan clock data remaining (i + 1) (i + 1) (out ++ [⟨{ timestamp := clock out.length }, payload⟩])
          else scan clock data remaining (i + 1) start out

def SimpleLineFramer.onData (framer : SimpleLineFramer) (clock : Nat → Int) (n : Nat) :
    Except Raised (SimpleLineFramer × List InternalMessage) := do
  let writePos := sizeT (framer.writePos + n)
  let (start, out) ← scan memory clock framer.scratch.bytes writePos 0 0 []
  if start < writePos then
    let leftover := (framer.scratch.bytes.drop start).take (writePos - start)
    .ok (⟨framer.scratch.write leftover, writePos - start⟩, out)
  else .ok (⟨framer.scratch, 0⟩, out)

end

-- One read: what the peer sent, what the memory allocated around it held
-- before, and the clock.
structure Read where
  bytes : List UInt8
  memory : Nat → UInt8
  clock : Nat → Int

structure Feed where
  framer : SimpleLineFramer
  messages : List InternalMessage

-- The read goes to data() of the buffer.
def SimpleLineFramer.fill (framer : SimpleLineFramer) (chunk : List UInt8) : SimpleLineFramer :=
  { framer with scratch := framer.scratch.write chunk }

-- One round of the protocol: PrepareRead, the read of some bytes into the
-- buffer it returns, and OnData.
def Feed.round (feed : Feed) (read : Read) : Except Raised Feed := do
  let ready ← feed.framer.prepareRead read.memory
  let (framer, out) ← (ready.fill read.bytes).onData read.memory read.clock read.bytes.length
  .ok ⟨framer, feed.messages ++ out⟩

def run (memory : Nat → UInt8) (reads : List Read) : Except Raised Feed := do
  let framer ← construct memory
  reads.foldlM Feed.round ⟨framer, []⟩

def stream (reads : List Read) : List UInt8 := (reads.map Read.bytes).flatten

end Vectro.Frame
