import PortHub.Runtime.Activity

/-! # Reading the journal

The journal has up to three segments, the oldest first. A read continues at a
checkpoint, spends one budget of bytes over the segments and returns the batches of the
lines that it completed. Segments are named by their file identity; their contents do
not change while they are read.
-/

namespace PortHub.Runtime.Activity

/-- `MAX_READ`. -/
def maxRead : Nat := 2 * 1024 * 1024

def newline : UInt8 := 10

structure Segment where
  identity : String
  bytes : List UInt8
  deriving DecidableEq, Repr

structure Checkpoint where
  identity : String
  offset : Nat
  deriving DecidableEq, Repr

structure Read where
  checkpoint : Checkpoint
  batches : List Batch
  gap : Bool
  more : Bool
  deriving DecidableEq, Repr

/-- One more than the position of the last newline, or zero. -/
def lastEnd (bytes : List UInt8) : Nat :=
  ((bytes.reverse.findIdx? (· == newline)).map (bytes.length - ·)).getD 0

/-- What one segment adds to a read: the offset after it and the bytes that it took. -/
structure Chunk where
  batches : List Batch
  gap : Bool
  offset : Nat
  size : Nat
  deriving DecidableEq, Repr

section Reading

variable (lib : Libraries)

/-- The batch of a line. -/
def accepted (line : List UInt8) : Option Batch := (lib.parse line).filter (batchValid lib)

/-- The lines that end within the budget. -/
def readLines (contents : List UInt8) (start budget : Nat) : Chunk :=
  let bytes := (contents.drop start).take budget
  let stop := lastEnd bytes
  let lines := ((bytes.take stop).splitOn newline).filter (!·.isEmpty)
  -- the whole read limit holds no end of a line
  let skipped := stop == 0 && bytes.length == maxRead
  {
    batches := lines.filterMap (accepted lib)
    gap := lines.any (fun line => (accepted lib line).isNone) || skipped
    offset := start + if skipped then bytes.length else stop
    size := bytes.length }

/-- The body of the loop. A segment that is not the last one is closed. -/
def readSegment (closed : Bool) (contents : List UInt8) (start budget : Nat) : Chunk :=
  let beyond := decide (contents.length < start)
  let chunk := readLines lib contents (if beyond then 0 else start) budget
  -- an incomplete tail of a closed segment can never finish
  let torn := closed && decide (chunk.offset < contents.length) && decide (chunk.size < maxRead)
    && decide (0 < budget - chunk.size)
  {
    chunk with
    gap := beyond || chunk.gap || torn
    offset := if torn then contents.length else chunk.offset }

/-- The loop over the segments. -/
def readSegments (segment : Segment) (rest : List Segment) (start budget : Nat) : Read :=
  let chunk := readSegment lib (!rest.isEmpty) segment.bytes start budget
  let remaining := budget - chunk.size
  let checkpoint := ⟨segment.identity, chunk.offset⟩
  if chunk.offset < segment.bytes.length then ⟨checkpoint, chunk.batches, chunk.gap, remaining == 0⟩
  else if remaining = 0 then ⟨checkpoint, chunk.batches, chunk.gap, !rest.isEmpty⟩
  else
    match rest with
    | [] => ⟨checkpoint, chunk.batches, chunk.gap, false⟩
    | next :: rest =>
        let later := readSegments next rest 0 remaining
        { later with batches := chunk.batches ++ later.batches, gap := chunk.gap || later.gap }

/-- The segments that exist, oldest first, and the checkpoint of the previous read. -/
def readBatch (files : List Segment) (checkpoint : Option Checkpoint) : Option Read :=
  let found := checkpoint.bind fun checkpoint => files.findIdx? (·.identity == checkpoint.identity)
  match files.drop (found.getD 0) with
  | [] => none
  | segment :: rest =>
      let start := if found.isSome then (checkpoint.map Checkpoint.offset).getD 0 else 0
      let read := readSegments lib segment rest start maxRead
      some { read with gap := (checkpoint.isSome && found.isNone) || read.gap }

/-- Read on from the returned checkpoint while there is more. -/
inductive Reads (files : List Segment) : Option Checkpoint → List Read → Prop
  | last {checkpoint read} (made : readBatch lib files checkpoint = some read) (done : read.more = false) :
      Reads files checkpoint [read]
  | next {checkpoint read reads} (made : readBatch lib files checkpoint = some read)
      (more : read.more = true) (later : Reads files (some read.checkpoint) reads) :
      Reads files checkpoint (read :: reads)

end Reading

end PortHub.Runtime.Activity
