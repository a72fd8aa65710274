import PortHub.Lib.Decimal
import PortHub.Terminal.Protocol

/-! # The history pager of a read-only viewer

Keys move a position in the retained lines, a request asks for the page there, and
the chunks of the response are collected and drawn. The segmentation of text into
graphemes and their width are parameters. Each call gets the clock readings it
takes, in nanoseconds.
-/

namespace PortHub.Terminal

/-- A response that is under way: its request, its bytes and when it was asked for. -/
structure Pending where
  request : UInt32
  bytes : List UInt8
  at_ : Nat
  deriving DecidableEq, Repr

structure Pager where
  active : Bool
  cols : UInt16
  rows : UInt16
  before : UInt32
  total : UInt32
  shown : Option UInt32
  serial : UInt32
  pending : Option Pending
  lastRequest : Option Nat
  keys : List UInt8
  pane : String
  snapshots : Bool
  snapshot : Option String
  responseSnapshot : Option String
  deriving DecidableEq, Repr

/-- `unicode_segmentation` and `unicode_width`: graphemes cut a text into pieces. -/
structure Unicode where
  graphemes : List Char → List (List Char)
  width : List Char → Nat
  whole : ∀ text, (graphemes text).flatten = text

def captureLimit : Nat := 131072

def historyLimit : UInt32 := 200000

/-- `String::from_utf8_lossy`, one sequence: its character and its bytes. An
    invalid one ends before the first byte that cannot follow. -/
def lossyChar (first second third fourth : UInt8) : Char × Nat :=
  let follows := fun byte : UInt8 => 0x80 ≤ byte && byte ≤ 0xBF
  let bits := fun byte : UInt8 => byte.toNat % 64
  if first < 0x80 then (Char.ofNat first.toNat, 1)
  else if 0xC2 ≤ first && first ≤ 0xDF then
    if follows second then (Char.ofNat (first.toNat % 32 * 64 + bits second), 2) else ('\uFFFD', 1)
  else if 0xE0 ≤ first && first ≤ 0xEF then
    if !(follows second && (first != 0xE0 || 0xA0 ≤ second) && (first != 0xED || second ≤ 0x9F)) then
      ('\uFFFD', 1)
    else if !follows third then ('\uFFFD', 2)
    else (Char.ofNat ((first.toNat % 16 * 64 + bits second) * 64 + bits third), 3)
  else if 0xF0 ≤ first && first ≤ 0xF4 then
    if !(follows second && (first != 0xF0 || 0x90 ≤ second) && (first != 0xF4 || second ≤ 0x8F)) then
      ('\uFFFD', 1)
    else if !follows third then ('\uFFFD', 2)
    else if !follows fourth then ('\uFFFD', 3)
    else (Char.ofNat (((first.toNat % 8 * 64 + bits second) * 64 + bits third) * 64 + bits fourth), 4)
  else ('\uFFFD', 1)

/-- The characters of bytes, for as many as there are bytes at most. -/
def lossyFrom : Nat → List UInt8 → List Char
  | 0, _ => []
  | _, [] => []
  | fuel + 1, first :: rest =>
      let (c, size) := lossyChar first (rest.getD 0 0) (rest.getD 1 0) (rest.getD 2 0)
      c :: lossyFrom fuel (rest.drop (size - 1))

def fromUtf8Lossy (bytes : List UInt8) : List Char := lossyFrom bytes.length bytes

/-- `char::is_control`. -/
def isControl (c : Char) : Bool := c.toNat < 32 || (127 ≤ c.toNat && c.toNat < 160)

/-- The graphemes that fit, with the width that is used. -/
def fitting (unicode : Unicode) (limit : Nat) : Nat → List (List Char) → List Char
  | _, [] => []
  | used, grapheme :: rest =>
      let size := unicode.width grapheme
      if limit < used + size then [] else grapheme ++ fitting unicode limit (used + size) rest

def clip (unicode : Unicode) (text : List Char) (cols : UInt16) : List Char :=
  fitting unicode (cols.toNat - 1) 0 (unicode.graphemes (text.filter fun c => !isControl c))

/-- `value.parse::<u16>()`. -/
def parseButton (text : List Char) : Option Nat :=
  let digits := if text.head? = some '+' then text.tail else text
  if !digits.isEmpty && digits.all Char.isDigit && Decimal.value digits ≤ 65535 then
    some (Decimal.value digits)
  else none

namespace Pager

def new (cols rows : UInt16) : Pager where
  active := false
  cols := cols
  rows := rows
  before := 0
  total := 0
  shown := none
  serial := 0
  pending := none
  lastRequest := none
  keys := []
  pane := ""
  snapshots := false
  snapshot := none
  responseSnapshot := none

def capabilities (pager : Pager) (snapshots : Bool) : Pager := { pager with snapshots, snapshot := none }

def resize (pager : Pager) (cols rows : UInt16) : Pager :=
  { pager with cols, rows, shown := if pager.active then none else pager.shown }

def pageLines (pager : Pager) : UInt16 := UInt16.ofNat (max 1 (min 197 (pager.rows.toNat - 3)))

/-- An escape sequence. -/
def escape (rest : String) : List UInt8 := 27 :: utf8 rest

/-- Move away from the live screen, up to the limit. -/
def back (pager : Pager) (step : Nat) : Pager :=
  { pager with before := UInt32.ofNat (min (pager.before.toNat + step) 200000) }

def forth (pager : Pager) (step : Nat) : Pager :=
  { pager with before := UInt32.ofNat (pager.before.toNat - step) }

/-- The button of a mouse report. -/
def button (keys : List UInt8) : Option Nat :=
  (fromUtf8 ((keys.drop 3).dropLast)).bind fun text => parseButton ((text.toList.splitOn ';').headD [])

/-- F7 enters and leaves the history. -/
def toggle (pager : Pager) : Pager × Bool :=
  let active := !pager.active
  ({ pager with
      active
      pane := if active then "" else pager.pane
      snapshot := if active then none else pager.snapshot
      before := 0, shown := none, pending := none, keys := [] },
    !active)

def whenActive (pager : Pager) (moved : Pager) : Pager :=
  { (if pager.active then moved else pager) with keys := [] }

/-- A byte without an escape sequence before it. -/
def plain (pager : Pager) (byte : UInt8) : Pager × Bool :=
  if byte == 27 then ({ pager with keys := [byte] }, false)
  else if pager.active && byte == 114 then
    ({ pager with snapshot := none, responseSnapshot := none, before := 0, shown := none, pending := none },
      false)
  else if pager.active && byte == 113 then ({ pager with active := false, pending := none }, true)
  else (pager, false)

/-- The position that Home leads to. -/
def oldest (pager : Pager) : UInt32 :=
  if pager.total = 0 then historyLimit
  else UInt32.ofNat (pager.total.toNat - pager.pageLines.toNat)

def knownKeys : List (List UInt8) :=
  [escape "[18~", escape "[5~", escape "[6~", escape "[A", escape "[B", escape "[H", escape "[1~",
    escape "[F", escape "[4~"]

/-- The sequence so far, with its last byte. -/
def sequence (pager : Pager) (byte : UInt8) : Pager × Bool :=
  let keys := pager.keys ++ [byte]
  if keys = escape "[18~" then pager.toggle
  else if keys = escape "[H" ∨ keys = escape "[1~" then
    (pager.whenActive { pager with before := pager.oldest }, false)
  else if keys = escape "[F" ∨ keys = escape "[4~" then
    (pager.whenActive { pager with before := 0 }, false)
  else if keys = escape "[5~" ∨ keys = escape "[A" then
    (pager.whenActive (pager.back (if keys = escape "[A" then 1 else pager.pageLines.toNat)), false)
  else if keys = escape "[6~" ∨ keys = escape "[B" then
    (pager.whenActive (pager.forth (if keys = escape "[B" then 1 else pager.pageLines.toNat)), false)
  else if (escape "[<").isPrefixOf keys && (byte == 77 || byte == 109) then
    (pager.whenActive <|
      match button keys with
      | some 64 => pager.back 3
      | some 65 => pager.forth 3
      | _ => pager, false)
  else if decide (64 ≤ keys.length)
      || (!(knownKeys.any keys.isPrefixOf) && !(escape "[<").isPrefixOf keys) then
    ({ pager with keys := [] }, false)
  else ({ pager with keys }, false)

def key (pager : Pager) (byte : UInt8) : Pager × Bool :=
  if pager.keys.isEmpty then pager.plain byte else pager.sequence byte

/-- True requests a redraw after leaving this viewer's independent history. -/
def feed (pager : Pager) : List UInt8 → Pager × Bool
  | [] => (pager, false)
  | byte :: rest =>
      let (pager, redraw) := pager.key byte
      let (pager, later) := pager.feed rest
      (pager, redraw || later)

/-- The four readings are taken by the age of the pending response, the age of the
    last request, and the times that are remembered. -/
def request (pager : Pager) (asked limited pended sent : Nat) : Pager × Option ViewerInput :=
  if !pager.active then (pager, none)
  else
    let pager :=
      if pager.pending.any fun pending => decide (seconds 3 < asked - pending.at_) then
        { pager with pending := none }
      else pager
    if pager.pending.isSome || pager.shown == some pager.before
        || pager.lastRequest.any fun at_ => decide (limited - at_ < 500000000) then
      (pager, none)
    else
      let serial := pager.serial + 1
      ({ pager with
          serial, pending := some ⟨serial, [], pended⟩, responseSnapshot := pager.snapshot
          lastRequest := some sent },
        some (.history pager.snapshots pager.snapshot serial pager.pane pager.before pager.pageLines))

section Drawing

variable (unicode : Unicode)

def hint : String := "F7 or q live · Wheel/PgUp/PgDn · Home/End · r refresh · selection"

/-- The start of the last row. -/
def lastRow (rows : UInt16) (style : String) : List Char :=
  "\x1b[".toList ++ Decimal.render rows.toNat ++ ";1H\x1b[".toList ++ style.toList

/-- The line that reports a failed request. -/
def errorLine (pager : Pager) (error : String) : List Char :=
  lastRow pager.rows "2K" ++ clip unicode (error.toList ++ " · r refresh · F7 live".toList) pager.cols

def heading (before total : UInt32) : List Char :=
  "Scrollback · ".toList ++ Decimal.render before.toNat ++ " lines back / ".toList ++
    Decimal.render total.toNat ++ " retained".toList

/-- The lines of the page, or a note that there are none. -/
def body (pager : Pager) (bytes : List UInt8) : List Char :=
  if bytes.isEmpty then clip unicode "No retained scrollback yet.".toList pager.cols
  else ((lines (fromUtf8Lossy bytes)).take pager.pageLines.toNat).flatMap fun line =>
    clip unicode line pager.cols ++ "\x1b[K\r\n".toList

def screen (pager : Pager) (page : HistoryChunk) (bytes : List UInt8) : List Char :=
  "\x1b[?25l\x1b[2J\x1b[H".toList ++ clip unicode (heading page.before page.total) pager.cols ++
    "\r\n".toList ++ pager.body unicode bytes ++ lastRow pager.rows "7m" ++
    clip unicode hint.toList pager.cols ++ "\x1b[0m".toList

/-- The identity that a chunk brings fits the response. -/
def anchor (pager : Pager) (page : HistoryChunk) : Result (Option String) :=
  if page.error.isSome then .ok pager.responseSnapshot
  else if pager.snapshots then do
    ensure page.snapshot.isSome "history snapshot missing"
    ensure (pager.responseSnapshot.all fun id => some id == page.snapshot) "history snapshot changed"
    return page.snapshot
  else do
    ensure page.snapshot.isNone "unexpected history snapshot"
    return pager.responseSnapshot

/-- The last chunk of a response, with all its bytes. -/
def complete (pager : Pager) (page : HistoryChunk) (bytes : List UInt8) : Pager × List Char :=
  match page.error with
  | some error =>
      ({ pager with pending := none, shown := some pager.before }, pager.errorLine unicode error)
  | none =>
      let pager := {
        pager with
        pending := none, snapshot := pager.responseSnapshot, responseSnapshot := none
        pane := page.pane.getD pager.pane, total := page.total, shown := some page.before }
      let pager :=
        if page.total ≤ page.before ∧ 0 < page.total then
          { pager with
            before := UInt32.ofNat (page.total.toNat - pager.pageLines.toNat), shown := none }
        else pager
      (pager, pager.screen unicode page bytes)

/-- A chunk of the response that is under way. -/
def receive (pager : Pager) (pending : Pending) (page : HistoryChunk) :
    Pager × Result (Option (List UInt8)) :=
  match pager.anchor page with
  | .error message => (pager, .error message)
  | .ok responseSnapshot =>
      let pager := { pager with responseSnapshot }
      match decodeData page.data with
      | .error message => (pager, .error message)
      | .ok chunk =>
          if captureLimit < pending.bytes.length + chunk.length then
            (pager, .error "history response exceeds limit")
          else
            let pending := { pending with bytes := pending.bytes ++ chunk }
            let pager := { pager with pending := some pending }
            if page.done then
              let (pager, drawn) := pager.complete unicode page pending.bytes
              (pager, .ok (some (utf8 (String.ofList drawn))))
            else (pager, .ok none)

def page (pager : Pager) (page : HistoryChunk) : Pager × Result (Option (List UInt8)) :=
  match page.validate with
  | .error message => (pager, .error message)
  | .ok () =>
      if !pager.active then (pager, .ok none)
      else
        match pager.pending with
        | none => (pager, .ok none)
        | some pending =>
            if pending.request ≠ page.request then (pager, .ok none)
            else pager.receive unicode pending page

end Drawing

end Pager

end PortHub.Terminal
