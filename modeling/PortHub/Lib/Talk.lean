import Mathlib.Data.List.Basic

/-! # Conversations over a byte stream

A party that reads single bytes and writes replies, as a tree of what it does
next. Reading more than one byte is reading them one after another, so nothing
is taken from the stream beyond what the tree asks for, and how the stream is
cut into chunks makes no difference.
-/

inductive Talk (ε α : Type) where
  | done (value : α)
  | fail (error : ε)
  | read (next : UInt8 → Talk ε α)
  | write (bytes : List UInt8) (next : Talk ε α)

namespace Talk

variable {ε α β : Type} {stream rest : List UInt8}

/-- Why a conversation gave no result. -/
inductive Stop (ε : Type) where
  /-- The stream ended, or nothing more arrived in time. -/
  | ended
  | failed (error : ε)
  deriving DecidableEq, Repr

def bind (f : α → Talk ε β) : Talk ε α → Talk ε β
  | .done value => f value
  | .fail error => .fail error
  | .read next => .read fun byte => (next byte).bind f
  | .write bytes next => .write bytes (next.bind f)

instance : Monad (Talk ε) where
  pure := .done
  bind talk f := talk.bind f

def byte : Talk ε UInt8 := .read .done

def send (bytes : List UInt8) : Talk ε Unit := .write bytes (.done ())

/-- `read_exact` of so many bytes. -/
def exactly : Nat → Talk ε (List UInt8)
  | 0 => pure []
  | n + 1 => do
      let first ← byte
      let others ← exactly n
      return first :: others

/-- `ensure!(condition, error)`. -/
def ensure (condition : Bool) (error : ε) : Talk ε Unit :=
  if condition then pure () else .fail error

/-- `result?`. -/
def lift : Except ε α → Talk ε α
  | .ok value => .done value
  | .error error => .fail error

/-- The result on a stream, with the bytes that were not read. -/
def run : Talk ε α → List UInt8 → Except (Stop ε) (α × List UInt8)
  | .done value, stream => .ok (value, stream)
  | .fail error, _ => .error (.failed error)
  | .read _, [] => .error .ended
  | .read next, byte :: stream => (next byte).run stream
  | .write _ next, stream => next.run stream

/-- Everything that is written on a stream. -/
def replies : Talk ε α → List UInt8 → List UInt8
  | .done _, _ => []
  | .fail _, _ => []
  | .read _, [] => []
  | .read next, byte :: stream => (next byte).replies stream
  | .write bytes next, stream => bytes ++ next.replies stream

/-- The next byte of a stream that arrives in chunks. -/
def nextByte : List (List UInt8) → Option (UInt8 × List (List UInt8))
  | [] => none
  | [] :: chunks => nextByte chunks
  | (byte :: chunk) :: chunks => some (byte, chunk :: chunks)

/-- The result on a stream that arrives in chunks, with what is left of them. -/
def runChunks : Talk ε α → List (List UInt8) → Except (Stop ε) (α × List (List UInt8))
  | .done value, chunks => .ok (value, chunks)
  | .fail error, _ => .error (.failed error)
  | .read next, chunks =>
      match nextByte chunks with
      | none => .error .ended
      | some (byte, chunks) => (next byte).runChunks chunks
  | .write _ next, chunks => next.runChunks chunks

@[simp] theorem run_fail (error : ε) (stream : List UInt8) :
    (fail error : Talk ε α).run stream = .error (.failed error) := rfl

end Talk
