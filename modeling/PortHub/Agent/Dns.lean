import PortHub.Network.Policy

/-! # The private DNS responder

A `Zone` answers for the private suffixes of a snapshot and turns names under a
block rule into NXDOMAIN. Everything else is refused or, where a policy needs
it, forwarded upstream. The message codec is a parameter; questions and replies
keep the fields the responder reads and writes.
-/

namespace PortHub.Agent.Dns

open Network Mesh

abbrev Bytes := List UInt8

inductive MessageType where
  | query
  | response
  deriving DecidableEq, Repr

inductive OpCode where
  | query
  | other (code : UInt8)
  deriving DecidableEq, Repr

inductive ResponseCode where
  | noError
  | nxDomain
  | notImp
  | refused
  deriving DecidableEq, Repr

inductive DnsClass where
  | internet
  | other (code : UInt16)
  deriving DecidableEq, Repr

inductive RecordType where
  | a
  | other (code : UInt16)
  deriving DecidableEq, Repr

structure Question (Name : Type) where
  name : Name
  queryClass : DnsClass
  queryType : RecordType
  deriving DecidableEq, Repr

/-- An A record. -/
structure Record (Name : Type) where
  name : Name
  ttl : Nat
  ip : Ipv4Addr
  deriving DecidableEq, Repr

structure Message (Name : Type) where
  id : UInt16
  messageType : MessageType
  opCode : OpCode
  authoritative : Bool
  recursionDesired : Bool
  responseCode : ResponseCode
  queries : List (Question Name)
  answers : List (Record Name)
  deriving DecidableEq, Repr

/-- `Message::from_vec`, `Message::to_vec` and `Name::to_ascii`. -/
structure Codec (Name : Type) where
  fromVec : Bytes → Option (Message Name)
  toVec : Message Name → Option Bytes
  toAscii : Name → List Char

structure Zone where
  suffixes : List (List Char)
  records : Dict (List Char) Ipv4Addr
  rules : List DnsPolicy.Rule
  forwardAll : Bool
  managementNames : List (List Char)

/-- `str::split_once`. -/
def splitOnce (c : Char) (text : List Char) : Option (List Char × List Char) :=
  match text.dropWhile (· != c) with
  | [] => none
  | _ :: tail => some (text.takeWhile (· != c), tail)

/-- A suffix of the snapshot, with its final dot. -/
def dotted (suffix : List Char) : List Char :=
  Text.toAsciiLowercase (Text.trimMatches '.' suffix) ++ ['.']

/-- The name of a peer, with its final dot. -/
def recordName (name : List Char) : List Char :=
  Text.toAsciiLowercase (Text.trimEnd '.' name) ++ ['.']

/-- The record loop over all names and the address of their peer. -/
def bindNames (suffixes : List (List Char)) :
    List (List Char × Ipv4Addr) → Dict (List Char) Ipv4Addr → Result (Dict (List Char) Ipv4Addr)
  | [], records => .ok records
  | (raw, ip) :: rest, records => do
      let name := recordName raw
      ensure (decide (Text.byteLen name ≤ 254)
        && suffixes.any fun suffix => Text.endsWith name ('.' :: suffix))
        "private name outside assigned DNS suffixes"
      ensure ((records.get? name).all fun old => old == ip) "private DNS name collision"
      bindNames suffixes rest (records.insert name ip)

def peerNames (snapshot : Snapshot) : List (List Char × Ipv4Addr) :=
  snapshot.peers.flatMap fun peer =>
    (peer.hostname :: peer.aliases).map fun name => (name, peer.ip)

/-- A rule zone and a private suffix that contain one another. -/
def conflicts (suffixes : List (List Char)) (rule : DnsPolicy.Rule) : Bool :=
  let domain := DnsPolicy.zone rule ++ ['.']
  suffixes.any fun suffix => domain == suffix || Text.endsWith domain ('.' :: suffix)
    || Text.endsWith suffix ('.' :: domain)

def checkConflicts (suffixes : List (List Char)) : List DnsPolicy.Rule → Result Unit
  | [] => .ok ()
  | rule :: rest => do
      ensure (!conflicts suffixes rule) "DNS policy conflicts with a private identity zone"
      checkConflicts suffixes rest

/-- `within`: equal, or below on a label boundary. -/
def within (name suffix : List Char) : Bool :=
  name == suffix || (Text.stripSuffix name suffix).any fun head => Text.endsWith head ['.']

namespace Zone

/-- Every check of `update`, before any change: suffixes, records and rules. -/
def prepare (snapshot : Snapshot) :
    Result (List (List Char) × Dict (List Char) Ipv4Addr × List DnsPolicy.Rule) := do
  match snapshot.peers.find? fun peer => peer.id == snapshot.self_ with
  | none => .error "private DNS identity missing"
  | some own =>
      match splitOnce '.' own.hostname with
      | none => .error "private DNS suffix missing"
      | some (_, suffix) =>
          ensure (!suffix.isEmpty && decide (Text.byteLen suffix < 254)
            && !Text.endsWith suffix ['.']) "invalid private DNS suffix"
          let suffixes := dotted suffix :: snapshot.dnsSuffixes.map dotted
          let records ← bindNames suffixes (peerNames snapshot) .empty
          let rules ← DnsPolicy.prepare snapshot.dnsRules
          checkConflicts suffixes rules
          return (suffixes, records, rules)

def update (zone : Zone) (snapshot : Snapshot) : Zone × Result Unit :=
  match prepare snapshot with
  | .error message => (zone, .error message)
  | .ok (suffixes, records, rules) =>
      ({ zone with
        suffixes := suffixes
        records := records
        rules := rules
        forwardAll := snapshot.exitRoutes.any fun route => route.torEnabled
          && route.trafficMode.internet && route.clients.contains snapshot.self_ }, .ok ())

section Answers

variable {Name : Type} (codec : Codec Name)

/-- The response code of a query that no rule blocks. -/
def responseCode (zone : Zone) (opCode : OpCode) (name : List Char) : ResponseCode :=
  if opCode ≠ .query then .notImp
  else if !zone.suffixes.any (fun suffix => name == suffix || Text.endsWith name ('.' :: suffix)) then
    .refused
  else if !zone.records.contains name && !zone.suffixes.contains name then .nxDomain
  else .noError

/-- The reply to a query with one question. -/
def reply (zone : Zone) (query : Message Name) (question : Question Name) : Message Name :=
  let name := Text.toAsciiLowercase (codec.toAscii question.name)
  let reply : Message Name :=
    { id := query.id, messageType := .response, opCode := query.opCode, authoritative := true,
      recursionDesired := query.recursionDesired, responseCode := .noError, queries := [question],
      answers := [] }
  if query.opCode = .query ∧ (DnsPolicy.matching zone.rules name).isSome then
    { reply with responseCode := .nxDomain }
  else
    let code := zone.responseCode query.opCode name
    let answers :=
      if code = .noError ∧ question.queryClass = .internet ∧ question.queryType = .a then
        ((zone.records.get? name).map fun ip => Record.mk question.name 5 ip).toList
      else []
    { reply with responseCode := code, answers := answers }

def answer (zone : Zone) (bytes : Bytes) : Option Bytes :=
  if bytes.length > 1500 then none
  else
    match codec.fromVec bytes with
    | none => none
    | some query =>
        match query.messageType, query.queries with
        | .query, [question] => codec.toVec (zone.reply codec query question)
        | _, _ => none

def needsUpstream (zone : Zone) (bytes : Bytes) : Bool :=
  match codec.fromVec bytes with
  | none => false
  | some query =>
      if bytes.length > 1500 ∨ query.messageType ≠ .query ∨ query.opCode ≠ .query then false
      else
        match query.queries with
        | [question] =>
            if question.queryClass ≠ .internet then false
            else
              let name := Text.toAsciiLowercase (Text.trimEnd '.' (codec.toAscii question.name))
              if zone.suffixes.any fun suffix => within name (Text.trimEnd '.' suffix) then false
              else if zone.managementNames.contains name then true
              else
                (DnsPolicy.matching zone.rules name).isNone
                  && (zone.forwardAll
                    || zone.rules.any fun rule => within name (DnsPolicy.zone rule))
        | _ => false

/-- `answer_with_upstream`: the zone before and after the network exchange, the
    answer, and the queries sent upstream. -/
def answerWithUpstream (before after : Zone) (upstream : Bytes → Option Bytes) (bytes : Bytes) :
    Option Bytes × List Bytes :=
  if !before.needsUpstream codec bytes then (before.answer codec bytes, [])
  else if after.needsUpstream codec bytes then (upstream bytes, [bytes])
  else (after.answer codec bytes, [bytes])

end Answers

end Zone

end PortHub.Agent.Dns
