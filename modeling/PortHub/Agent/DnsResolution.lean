import PortHub.Agent.Dns

/-! # Private names resolve privately

`update` accepts a snapshot only when no rule zone and no private suffix contain
one another. Two suffixes of one name on label boundaries always do, so no rule
ever covers a private name: it is answered from the records and never leaves
for an upstream resolver.
-/

namespace PortHub

namespace Agent.Dns

open Network Mesh

variable {name : List Char} {rule : DnsPolicy.Rule} {suffixes : List (List Char)}
  {records : Dict (List Char) Ipv4Addr} {rules : List DnsPolicy.Rule} {snapshot : Snapshot}

/-- Two tails of one name on label boundaries contain one another. -/
theorem boundary_tails {first second} (left : '.' :: first <:+ name)
    (right : name = second ∨ '.' :: second <:+ name) :
    second = first ∨ '.' :: first <:+ second ∨ '.' :: second <:+ first := by
  rcases right with rfl | right
  · exact .inr (.inl left)
  · rcases List.suffix_or_suffix_of_suffix left right with inside | inside
    · rcases List.suffix_cons_iff.mp inside with same | below
      · exact .inl (List.cons.inj same).2.symm
      · exact .inr (.inl below)
    · rcases List.suffix_cons_iff.mp inside with same | below
      · exact .inl (List.cons.inj same).2
      · exact .inr (.inr below)

theorem within_iff {suffix} :
    within name suffix = true ↔ name = suffix ∨ '.' :: suffix <:+ name := by
  simp only [within, Bool.or_eq_true, beq_iff_eq, Text.stripSuffix_dot]

theorem covers_boundary (covered : DnsPolicy.covers rule name = true) :
    name = DnsPolicy.zone rule ∨ '.' :: DnsPolicy.zone rule <:+ name := by
  simp only [DnsPolicy.covers, Bool.or_eq_true, Bool.and_eq_true, beq_iff_eq,
    Text.stripSuffix_dot] at covered
  exact covered.imp And.right And.right

/-- The name of a record without its final dot. -/
theorem trimEnd_recordName (raw : List Char) :
    Text.trimEnd '.' (recordName raw) = Text.toAsciiLowercase (Text.trimEnd '.' raw) := by
  rw [recordName, Text.trimEnd_append, ← Text.toAsciiLowercase_trimEnd, Text.trimEnd_trimEnd]

theorem trimEnd_dotted (raw : List Char) :
    Text.trimEnd '.' (dotted raw) = Text.toAsciiLowercase (Text.trimMatches '.' raw) := by
  rw [dotted, Text.trimEnd_append, ← Text.toAsciiLowercase_trimEnd, Text.trimMatches,
    Text.trimEnd_trimEnd]

theorem dotted_eq (raw : List Char) : dotted raw = Text.trimEnd '.' (dotted raw) ++ ['.'] := by
  rw [trimEnd_dotted, dotted]

theorem recordName_eq (raw : List Char) :
    recordName raw = Text.trimEnd '.' (recordName raw) ++ ['.'] := by
  rw [trimEnd_recordName, recordName]

/-- The record loop keeps earlier records and adds every name, each below a
    private suffix. -/
theorem bindNames_ok {names final} (bound : bindNames suffixes names records = .ok final) :
    records.Sub final ∧ ∀ entry ∈ names, final.get? (recordName entry.1) = some entry.2 ∧
      ∃ suffix ∈ suffixes, '.' :: suffix <:+ recordName entry.1 := by
  induction names generalizing records with
  | nil =>
      obtain rfl : records = final := by simpa [bindNames] using bound
      exact ⟨.refl records, by simp⟩
  | cons entry names ih =>
      obtain ⟨raw, ip⟩ := entry
      simp only [bindNames, bind_eq_ok, ensure_eq_ok, Bool.and_eq_true, List.any_eq_true] at bound
      obtain ⟨_, ⟨_, below⟩, _, single, rest⟩ := bound
      obtain ⟨kept, others⟩ := ih rest
      refine ⟨?_, ?_⟩
      · intro key value found
        apply kept
        by_cases same : key = recordName raw
        · subst same
          obtain rfl : value = ip := by simpa [found] using single
          simp
        · simpa [same] using found
      · intro entry member
        rcases List.mem_cons.mp member with rfl | member
        · refine ⟨kept _ _ (by simp), ?_⟩
          simpa [Text.endsWith] using below
        · exact others entry member

theorem checkConflicts_ok {u} (checked : checkConflicts suffixes rules = .ok u) :
    ∀ rule ∈ rules, conflicts suffixes rule = false := by
  induction rules with
  | nil => simp
  | cons rule rules ih =>
      simp only [checkConflicts, bind_eq_ok, ensure_eq_ok, Bool.not_eq_true'] at checked
      obtain ⟨_, apart, rest⟩ := checked
      intro other member
      rcases List.mem_cons.mp member with rfl | member
      · exact apart
      · exact ih rest other member

/-- The private suffixes of a snapshot: its own list, and what follows the
    first label of the local hostname. -/
def PrivateSuffix (snapshot : Snapshot) (suffix : List Char) : Prop :=
  suffix ∈ snapshot.dnsSuffixes ∨ ∃ own label,
    snapshot.peers.find? (fun peer => peer.id == snapshot.self_) = some own ∧
      splitOnce '.' own.hostname = some (label, suffix)

/-- What a successful update publishes. -/
structure Published (snapshot : Snapshot) (zone : Zone) : Prop where
  suffixes : ∀ suffix, suffix ∈ zone.suffixes ↔ ∃ raw, PrivateSuffix snapshot raw ∧ suffix = dotted raw
  records : ∀ peer ∈ snapshot.peers, ∀ name ∈ peer.hostname :: peer.aliases,
    zone.records.get? (recordName name) = some peer.ip ∧
      ∃ suffix ∈ zone.suffixes, '.' :: suffix <:+ recordName name
  apart : ∀ rule ∈ zone.rules, conflicts zone.suffixes rule = false

theorem mem_peerNames {peer} (member : peer ∈ snapshot.peers)
    (named : name ∈ peer.hostname :: peer.aliases) :
    (name, peer.ip) ∈ peerNames snapshot :=
  List.mem_flatMap.mpr ⟨peer, member, List.mem_map.mpr ⟨name, named, rfl⟩⟩

theorem prepare_published {forwardAll managementNames}
    (prepared : Zone.prepare snapshot = .ok (suffixes, records, rules)) :
    Published snapshot ⟨suffixes, records, rules, forwardAll, managementNames⟩ := by
  unfold Zone.prepare at prepared
  cases identity : snapshot.peers.find? fun peer => peer.id == snapshot.self_ with
  | none => simp [identity] at prepared
  | some own =>
      rw [identity] at prepared
      cases cut : splitOnce '.' own.hostname with
      | none => simp [cut] at prepared
      | some pair =>
          obtain ⟨label, suffix⟩ := pair
          simp only [cut, bind_eq_ok, ensure_eq_ok, pure_eq_ok, Prod.mk.injEq] at prepared
          obtain ⟨_, _, _, names, _, _, _, apart, rfl, rfl, rfl⟩ := prepared
          refine ⟨?_, ?_, checkConflicts_ok apart⟩
          · intro text
            simp [PrivateSuffix, identity, cut, or_and_right, exists_or, eq_comm, or_comm]
          · intro peer member name named
            exact (bindNames_ok names).2 _ (mem_peerNames member named)

theorem update_ok {zone : Zone} {next} (updated : zone.update snapshot = (next, .ok ())) :
    Published snapshot next ∧ next.managementNames = zone.managementNames := by
  unfold Zone.update at updated
  cases prepared : Zone.prepare snapshot with
  | error message => simp [prepared] at updated
  | ok result =>
      obtain ⟨suffixes, records, rules⟩ := result
      simp only [prepared, Prod.mk.injEq, and_true] at updated
      subst updated
      refine ⟨?_, rfl⟩
      exact prepare_published prepared

/-- A rule zone and a private suffix where one contains the other conflict. -/
theorem conflicts_of_tails {suffix} (member : suffix ++ ['.'] ∈ suffixes)
    (tails : DnsPolicy.zone rule = suffix ∨ '.' :: suffix <:+ DnsPolicy.zone rule ∨
      '.' :: DnsPolicy.zone rule <:+ suffix) : conflicts suffixes rule = true := by
  simp only [conflicts, List.any_eq_true, Bool.or_eq_true, beq_iff_eq, Text.endsWith,
    decide_eq_true_eq]
  refine ⟨_, member, ?_⟩
  rcases tails with same | below | above
  · exact .inl (.inl (by rw [same]))
  · exact .inl (.inr (Text.suffix_append_dot.mpr below))
  · exact .inr (Text.suffix_append_dot.mpr above)

namespace Published

variable {snapshot : Snapshot} {zone : Zone} {peer : PeerInfo} {name : List Char}

section

variable (published : Published snapshot zone) (member : peer ∈ snapshot.peers)
  (named : name ∈ peer.hostname :: peer.aliases)

include published member named

/-- A private name lies below a private suffix, both without their final dot. -/
theorem below_suffix : ∃ suffix ∈ zone.suffixes,
      '.' :: Text.trimEnd '.' suffix <:+ Text.trimEnd '.' (recordName name) ∧
        suffix = Text.trimEnd '.' suffix ++ ['.'] := by
  obtain ⟨_, suffix, inside, below⟩ := published.records peer member name named
  obtain ⟨raw, _, rfl⟩ := (published.suffixes suffix).mp inside
  refine ⟨_, inside, ?_, dotted_eq raw⟩
  rw [recordName_eq, dotted_eq raw] at below
  exact Text.suffix_append_dot.mp below

/-- No rule covers a private name. -/
theorem unmatched : DnsPolicy.matching zone.rules (recordName name) = none := by
  apply List.find?_eq_none.mpr
  intro rule listed covered
  obtain ⟨suffix, inside, below, shape⟩ := published.below_suffix member named
  have tails := boundary_tails below (covers_boundary covered)
  have apart := published.apart rule listed
  rw [conflicts_of_tails (shape ▸ inside) tails] at apart
  cases apart

/-- A private name is in the zone, with the address of its peer. -/
theorem answered : zone.responseCode .query (recordName name) = .noError := by
  obtain ⟨found, suffix, inside, below⟩ := published.records peer member name named
  have inZone : zone.suffixes.any (fun suffix => recordName name == suffix ||
      Text.endsWith (recordName name) ('.' :: suffix)) = true :=
    List.any_eq_true.mpr ⟨suffix, inside, by simp [Text.endsWith, below]⟩
  simp [Zone.responseCode, inZone, Dict.contains, found]

end

end Published

section Queries

variable {Name : Type} (codec : Codec Name)

/-- A standard query with one question, of a size the responder takes. -/
structure Asks (bytes : Bytes) (query : Message Name) (question : Question Name) : Prop where
  small : bytes.length ≤ 1500
  decoded : codec.fromVec bytes = some query
  isQuery : query.messageType = .query
  standard : query.opCode = .query
  single : query.queries = [question]

/-- The question names a host: the same text up to case and the final dot. -/
def AsksFor (question : Question Name) (host : List Char) : Prop :=
  Text.toAsciiLowercase (codec.toAscii question.name) =
    Text.toAsciiLowercase (Text.trimEnd '.' host) ++ ['.']

/-- The name of a question without its final dot, in lower case. -/
def questionName (question : Question Name) : List Char :=
  Text.toAsciiLowercase (Text.trimEnd '.' (codec.toAscii question.name))

/-- A name is a private suffix or below one, up to case and outer dots. -/
def Inside (name suffix : List Char) : Prop :=
  name = Text.toAsciiLowercase (Text.trimMatches '.' suffix) ∨
    '.' :: Text.toAsciiLowercase (Text.trimMatches '.' suffix) <:+ name

variable {codec} {zone : Zone} {bytes : Bytes} {query : Message Name} {question : Question Name}
  {snapshot : Snapshot}

theorem questionName_of_asksFor {host} (asks : AsksFor codec question host) :
    questionName codec question = Text.trimEnd '.' (recordName host) := by
  rw [questionName, Text.toAsciiLowercase_trimEnd, asks, recordName]

/-- Everything a forwarded query satisfies. -/
theorem needsUpstream_true (forwarded : zone.needsUpstream codec bytes = true) :
    ∃ query question, codec.fromVec bytes = some query ∧ query.queries = [question] ∧
      (∀ suffix ∈ zone.suffixes,
        within (questionName codec question) (Text.trimEnd '.' suffix) = false) ∧
      (questionName codec question ∈ zone.managementNames ∨
        DnsPolicy.matching zone.rules (questionName codec question) = none) := by
  unfold Zone.needsUpstream at forwarded
  cases decoded : codec.fromVec bytes with
  | none => simp [decoded] at forwarded
  | some query =>
      rw [decoded] at forwarded
      dsimp only at forwarded
      split at forwarded
      · cases forwarded
      · split at forwarded
        · rename_i question single
          refine ⟨query, question, rfl, single, ?_⟩
          change (if question.queryClass ≠ .internet then false
            else if zone.suffixes.any fun suffix =>
              within (questionName codec question) (Text.trimEnd '.' suffix) then false
            else if zone.managementNames.contains (questionName codec question) then true
            else _) = true at forwarded
          split at forwarded
          · cases forwarded
          · split at forwarded
            · cases forwarded
            · rename_i outside
              refine ⟨by simpa using outside, ?_⟩
              split at forwarded
              · rename_i managed
                exact .inl (by simpa using managed)
              · simp only [Bool.and_eq_true, Option.isNone_iff_eq_none] at forwarded
                exact .inr forwarded.1
        · cases forwarded

/-- A query that is not forwarded is answered by the zone alone. -/
theorem answerWithUpstream_local (kept : zone.needsUpstream codec bytes = false) (after : Zone)
    (upstream : Bytes → Option Bytes) :
    zone.answerWithUpstream codec after upstream bytes = (zone.answer codec bytes, []) := by
  simp [Zone.answerWithUpstream, kept]

theorem needsUpstream_of_sent {after} {upstream : Bytes → Option Bytes}
    (sent : (zone.answerWithUpstream codec after upstream bytes).2 ≠ []) :
    zone.needsUpstream codec bytes = true := by
  by_contra kept
  rw [answerWithUpstream_local (Bool.eq_false_iff.mpr kept)] at sent
  exact sent rfl

/-- A name inside a private suffix is not forwarded. -/
theorem Published.stays (published : Published snapshot zone)
    (decoded : codec.fromVec bytes = some query) (asked : question ∈ query.queries) {suffix}
    (isPrivate : PrivateSuffix snapshot suffix)
    (inside : Inside (questionName codec question) suffix) :
    zone.needsUpstream codec bytes = false := by
  by_contra forwarded
  obtain ⟨other, only, again, single, outside, _⟩ :=
    needsUpstream_true (Bool.not_eq_false _ ▸ forwarded)
  obtain rfl := Option.mem_unique decoded again
  obtain rfl : question = only := by simpa [single] using asked
  have listed := (published.suffixes _).mpr ⟨suffix, isPrivate, rfl⟩
  have excluded := outside _ listed
  rw [trimEnd_dotted, within_iff.mpr inside] at excluded
  cases excluded

/-- A private name is not forwarded. -/
theorem Published.stays_host (published : Published snapshot zone) {peer}
    (member : peer ∈ snapshot.peers) {name} (named : name ∈ peer.hostname :: peer.aliases)
    (asks : Asks codec bytes query question) (host : AsksFor codec question name) :
    zone.needsUpstream codec bytes = false := by
  obtain ⟨suffix, listed, below, _⟩ := published.below_suffix member named
  obtain ⟨raw, isPrivate, rfl⟩ := (published.suffixes suffix).mp listed
  have asked : question ∈ query.queries := by simp [asks.single]
  refine published.stays asks.decoded asked isPrivate ?_
  rw [Inside, questionName_of_asksFor host, ← trimEnd_dotted]
  exact .inr below

/-- The reply to an A query for a private name. -/
theorem Published.reply (published : Published snapshot zone) {peer}
    (member : peer ∈ snapshot.peers) {name} (named : name ∈ peer.hostname :: peer.aliases)
    (asks : Asks codec bytes query question) (internet : question.queryClass = .internet)
    (address : question.queryType = .a) (host : AsksFor codec question name) :
    ∃ reply, zone.answer codec bytes = codec.toVec reply ∧ reply.responseCode = .noError ∧
      reply.answers = [⟨question.name, 5, peer.ip⟩] := by
  have text : Text.toAsciiLowercase (codec.toAscii question.name) = recordName name := host
  refine ⟨zone.reply codec query question, ?_, ?_, ?_⟩
  · simp [Zone.answer, Nat.not_lt.mpr asks.small, asks.decoded, asks.isQuery, asks.single]
  · simp [Zone.reply, asks.standard, text, published.unmatched member named,
      published.answered member named]
  · have found := (published.records peer member name named).1
    simp [Zone.reply, asks.standard, text, published.unmatched member named,
      published.answered member named, internet, address, found]

/-- After a successful update every private name is answered with the address
    of its peer and stays local, as does every name inside a private suffix. A
    blocked name leaves only for a management name. A failed update changes
    nothing. -/
theorem private_names_stay_private (codec : Codec Name) (zone : Zone) (snapshot : Snapshot) :
    (∀ next, zone.update snapshot = (next, .ok ()) →
      (∀ peer ∈ snapshot.peers, ∀ name ∈ peer.hostname :: peer.aliases,
        ∀ bytes query question, Asks codec bytes query question →
          question.queryClass = .internet → question.queryType = .a →
          AsksFor codec question name →
          (∃ reply, next.answer codec bytes = codec.toVec reply ∧
            reply.responseCode = .noError ∧ reply.answers = [⟨question.name, 5, peer.ip⟩]) ∧
          ∀ after upstream, next.answerWithUpstream codec after upstream bytes =
            (next.answer codec bytes, [])) ∧
      (∀ bytes query question, codec.fromVec bytes = some query → question ∈ query.queries →
        (∀ suffix, PrivateSuffix snapshot suffix →
          Inside (questionName codec question) suffix →
          ∀ after upstream, (next.answerWithUpstream codec after upstream bytes).2 = []) ∧
        ((DnsPolicy.matching next.rules (questionName codec question)).isSome = true →
          ∀ after upstream, (next.answerWithUpstream codec after upstream bytes).2 ≠ [] →
          questionName codec question ∈ zone.managementNames))) ∧
    ∀ next message, zone.update snapshot = (next, .error message) → next = zone := by
  refine ⟨?_, ?_⟩
  · intro next updated
    obtain ⟨published, management⟩ := update_ok updated
    refine ⟨?_, ?_⟩
    · intro peer member name named bytes query question asks internet address host
      exact ⟨published.reply member named asks internet address host,
        answerWithUpstream_local (published.stays_host member named asks host)⟩
    · intro bytes query question decoded asked
      refine ⟨?_, ?_⟩
      · intro suffix isPrivate inside after upstream
        rw [answerWithUpstream_local (published.stays decoded asked isPrivate inside)]
      · intro blocked after upstream sent
        obtain ⟨other, only, again, single, _, reason⟩ :=
          needsUpstream_true (needsUpstream_of_sent sent)
        obtain rfl := Option.mem_unique decoded again
        obtain rfl : question = only := by simpa [single] using asked
        rw [← management]
        rcases reason with managed | unmatched
        · exact managed
        · rw [unmatched] at blocked
          cases blocked
  · intro next message failed
    unfold Zone.update at failed
    split at failed
    · exact (congrArg Prod.fst failed).symm
    · cases congrArg Prod.snd failed

end Queries

/-- Two hosts under one private suffix, and a rule elsewhere. -/
def twoHosts : Snapshot where
  workspace := "w"
  self_ := "a"
  revision := 1
  expiresAt := 30
  peers := [⟨"a", ⟨10, 203, 0, 1⟩, "fa", "ia", "", ['a', '.', 'p', 'h', 'u', 'b'], []⟩,
    ⟨"b", ⟨10, 203, 0, 2⟩, "fb", "ib", "", ['b', '.', 'p', 'h', 'u', 'b'], []⟩]
  dnsSuffixes := []
  grants := []
  exitRoutes := []
  dnsRules := [⟨['a', 'd', '.', 't', 'e', 's', 't'], .block, true⟩]

def emptyZone : Zone := ⟨[], .empty, [], false, []⟩

/-- An A query for `B.phub.` and its reply, on the wire and decoded. -/
def hostQuestion : List UInt8 := [1, 66, 4, 112, 104, 117, 98, 0, 0, 1, 0, 1]

def hostQuery : Bytes := [0, 1, 1, 0, 0, 1, 0, 0, 0, 0, 0, 0] ++ hostQuestion

def hostReply : Bytes :=
  [0, 1, 133, 0, 0, 1, 0, 1, 0, 0, 0, 0] ++ hostQuestion
    ++ [192, 12, 0, 1, 0, 1, 0, 0, 0, 5, 0, 4, 10, 203, 0, 2]

def askedHost : Question (List Char) := ⟨['B', '.', 'p', 'h', 'u', 'b', '.'], .internet, .a⟩

def decodedQuery : Message (List Char) :=
  ⟨1, .query, .query, false, true, .noError, [askedHost], []⟩

def decodedReply : Message (List Char) :=
  ⟨1, .response, .query, true, true, .noError, [askedHost],
    [⟨askedHost.name, 5, ⟨10, 203, 0, 2⟩⟩]⟩

/-- The codec on these two messages. -/
def hostCodec : Codec (List Char) where
  fromVec bytes := if bytes = hostQuery then some decodedQuery else none
  toVec message := if message = decodedReply then some hostReply else none
  toAscii name := name

theorem host_is_answered : ∃ next, emptyZone.update twoHosts = (next, .ok ()) ∧
    next.answer hostCodec hostQuery = some hostReply ∧
    ∀ after upstream, next.answerWithUpstream hostCodec after upstream hostQuery =
      (next.answer hostCodec hostQuery, []) := by
  have updated : emptyZone.update twoHosts = ((emptyZone.update twoHosts).1, .ok ()) :=
    Prod.ext rfl rfl
  refine ⟨_, updated, by rfl, ?_⟩
  exact (((private_names_stay_private hostCodec emptyZone twoHosts).1 _ updated).1
    ⟨"b", ⟨10, 203, 0, 2⟩, "fb", "ib", "", ['b', '.', 'p', 'h', 'u', 'b'], []⟩ (.tail _ (.head _)) _
    (.head _) hostQuery decodedQuery askedHost ⟨by decide, rfl, rfl, rfl, rfl⟩ rfl rfl
    rfl).2

end Agent.Dns

end PortHub
