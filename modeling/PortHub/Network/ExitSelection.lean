import PortHub.Lib.Dict
import PortHub.Lib.Runs
import PortHub.Lib.Sorted
import PortHub.Rust
import Mathlib.Data.String.Basic

/-! # Bounded exit assignments

A `FlowTable` assigns every new flow one of the configured exit peers and keeps
that assignment, whatever happens to the peer list, until it expires or its
tuple is reused by another TCP connection. The hash of sticky selection and the
keyed hash of random selection are parameters: nothing depends on them.
-/

namespace PortHub.Network.ExitSelection

open Runs

inductive Selection where
  | sticky
  | roundRobin
  | random
  deriving DecidableEq, Repr

structure Assignment where
  peer : String
  deadline : Nat
  synSequence : Option UInt32
  finDirections : Nat
  closeUntil : Option Nat
  deriving DecidableEq, Repr

def Assignment.refresh (entry : Assignment) (now ttl : Nat) : Assignment :=
  let deadline := max entry.deadline (now + ttl)
  { entry with
    deadline :=
      match entry.closeUntil with
      | some limit => min deadline limit
      | none => deadline }

/-- `random` is `hash_one` of the table's `RandomState`. -/
structure FlowTable (K : Type) [DecidableEq K] where
  client : String
  peers : List String
  mode : Selection
  flows : Dict K Assignment
  cursor : UInt64
  random : K → UInt64 → UInt64
  nextReap : Nat
  capacity : Nat

/-- The last index of a greatest key, as `max_by_key` over `enumerate`. -/
def maxIndexByKey (key : String → List UInt8) (peers : List String) : Option Nat :=
  peers.zipIdx.foldl (fun best (peer, index) =>
    match best with
    | none => some (key peer, index)
    | some (greatest, _) => if key peer < greatest then best else some (key peer, index)) none
  |>.map Prod.snd

namespace FlowTable

section Operations

variable {K : Type} [DecidableEq K]

def new (client : String) (random : K → UInt64 → UInt64) (now : Nat) : FlowTable K where
  client := client
  peers := []
  mode := .sticky
  flows := .empty
  cursor := 0
  random := random
  nextReap := now
  capacity := 65536

def configure (table : FlowTable K) (peers : List String) (mode : Selection) : FlowTable K :=
  { table with peers := Sorted.arrange peers, mode := mode }

def observe (table : FlowTable K) (flow : K) (peer : String) (now ttl : Nat) : FlowTable K :=
  match table.flows.get? flow with
  | none => table
  | some entry =>
      if entry.peer == peer && decide (now < entry.deadline) then
        { table with flows := table.flows.insert flow (entry.refresh now ttl) }
      else table

def observeClose (table : FlowTable K) (flow : K) (peer : String) (outgoing fin reset : Bool)
    (now : Nat) : FlowTable K :=
  if !fin && !reset then table
  else
    match table.flows.get? flow with
    | none => table
    | some entry =>
        if entry.peer != peer || decide (entry.deadline ≤ now) then table
        else
          let directions :=
            if fin then entry.finDirections ||| (if outgoing then 1 else 2) else entry.finDirections
          let entry := { entry with finDirections := directions }
          let entry :=
            if reset || directions == 3 then
              let until_ := entry.closeUntil.getD (now + seconds 120)
              { entry with closeUntil := some until_, deadline := min entry.deadline until_ }
            else entry
          { table with flows := table.flows.insert flow entry }

/-- The periodic removal of expired assignments. -/
def reap (table : FlowTable K) (now : Nat) : FlowTable K :=
  if table.nextReap ≤ now then
    { table with
      flows := table.flows.retain fun _ entry => decide (now < entry.deadline)
      nextReap := now + seconds 30 }
  else table

/-- A new SYN sequence, or any SYN after a close, is a new connection. -/
def supersede (table : FlowTable K) (flow : K) (synSequence : Option UInt32) : FlowTable K :=
  if synSequence.isSome && (table.flows.get? flow).any (fun entry =>
      entry.synSequence != synSequence || entry.closeUntil.isSome) then
    { table with flows := table.flows.erase flow }
  else table

/-- The hashed bytes of sticky selection: length and bytes of the client, then
    the peer. -/
def stickyInput (client peer : String) : List UInt8 :=
  u64BeBytes client.utf8ByteSize ++ utf8 client ++ utf8 peer

/-- Which configured peer a new flow gets. -/
def pick (sha256 : List UInt8 → List UInt8) (table : FlowTable K) (flow : K)
    (preferred : Option (List String → Option String)) : Option Nat :=
  match preferred with
  | some choose => do Sorted.binarySearch table.peers (← choose table.peers)
  | none =>
      match table.mode with
      | .sticky => maxIndexByKey (fun peer => sha256 (stickyInput table.client peer)) table.peers
      | .roundRobin => some (table.cursor.toNat % table.peers.length)
      | .random => some ((table.random flow table.cursor).toNat % table.peers.length)

/-- A flow without a live assignment: give it one if peers and capacity allow. -/
def assign (sha256 : List UInt8 → List UInt8) (table : FlowTable K) (flow : K) (now ttl : Nat)
    (synSequence : Option UInt32) (preferred : Option (List String → Option String)) :
    FlowTable K × Option String :=
  let table := { table with flows := table.flows.erase flow }
  if table.peers.isEmpty || decide (table.capacity ≤ table.flows.len) then (table, none)
  else
    match table.pick sha256 flow preferred with
    | none => (table, none)
    | some index =>
        let table := { table with cursor := table.cursor + 1 }
        match table.peers[index]? with
        | none => (table, none)
        | some peer =>
            let entry : Assignment := ⟨peer, now + ttl, synSequence, 0, none⟩
            ({ table with flows := table.flows.insert flow entry }, some peer)

def selectInner (sha256 : List UInt8 → List UInt8) (table : FlowTable K) (flow : K) (now ttl : Nat)
    (synSequence : Option UInt32) (preferred : Option (List String → Option String)) :
    FlowTable K × Option String :=
  let table := (table.reap now).supersede flow synSequence
  match table.flows.get? flow with
  | none => table.assign sha256 flow now ttl synSequence preferred
  | some entry =>
      if now < entry.deadline then
        let entry := entry.refresh now ttl
        ({ table with flows := table.flows.insert flow entry },
          if (Sorted.binarySearch table.peers entry.peer).isSome then some entry.peer else none)
      else table.assign sha256 flow now ttl synSequence preferred

def selectWithSyn (sha256 : List UInt8 → List UInt8) (table : FlowTable K) (flow : K)
    (now ttl : Nat) (synSequence : Option UInt32) : FlowTable K × Option String :=
  table.selectInner sha256 flow now ttl synSequence none

def select (sha256 : List UInt8 → List UInt8) (table : FlowTable K) (flow : K) (now ttl : Nat) :
    FlowTable K × Option String :=
  table.selectWithSyn sha256 flow now ttl none

def selectForPeer (sha256 : List UInt8 → List UInt8) (table : FlowTable K) (flow : K)
    (now ttl : Nat) (synSequence : Option UInt32) (peer : Option String) :
    FlowTable K × Option String :=
  table.selectInner sha256 flow now ttl synSequence (some fun _ => peer)

def selectForPeerWith (sha256 : List UInt8 → List UInt8) (table : FlowTable K) (flow : K)
    (now ttl : Nat) (synSequence : Option UInt32) (choose : List String → Option String) :
    FlowTable K × Option String :=
  table.selectInner sha256 flow now ttl synSequence (some choose)

end Operations

end FlowTable

end PortHub.Network.ExitSelection
