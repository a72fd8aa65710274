import PortHub.Lib.Pieces
import PortHub.Mesh.Streams

/-! # Certificate pins

A pinned certificate is recognised in two ways: the TLS verifier compares digests
with the bytes that `pin` reads, and `register` compares the formatted digest with
the stored text. Both mean the same for a text that `fingerprint` could have
written. Reading a byte also allows a plus sign in place of its first digit, which
formatting never writes.
-/

namespace PortHub.Mesh.Streams

/-- The verifier of the accepting side admits a certificate for a peer. -/
def admits (sha256 : Bytes → Bytes) (peer : Peer) (certificate : Bytes) : Bool :=
  (pin peer.fingerprint).toOption == some (sha256 certificate)

structure Verifier where
  expected : Option Bytes
  peers : Dict Ipv4Addr Peer

/-- `Verifier::verify`. -/
def Verifier.verify (sha256 : Bytes → Bytes) (verifier : Verifier) (certificate : Bytes) : Bool :=
  match verifier.expected with
  | some expected => sha256 certificate == expected
  | none => verifier.peers.values.any fun peer => admits sha256 peer certificate

/-- A text with a plus sign in place of a first digit. -/
def signed (value : List Char) : Bool := (value.splitOn ':').any fun part => part.head? == some '+'

/-! ## Digits -/

/-- Digits of both cases are read alike and formatted in upper case. -/
theorem digit_cases {c n} (read : IpText.digit 16 c = some n) :
    n < 16 ∧ c.toNat < 128 ∧ c.toUpper = (Nat.digitChar n).toUpper := by
  have small : c.toNat < 128 := by
    simp only [IpText.digit, Option.filter_eq_some_iff] at read
    split at read
    · rename_i digit
      simp only [Char.isDigit, Bool.and_eq_true, decide_eq_true_eq, UInt32.le_iff_toNat_le] at digit
      have bound : c.toNat ≤ 57 := digit.2
      omega
    · split at read
      · rename_i lower
        have bound : c.toNat ≤ 102 := UInt32.le_iff_toNat_le.mp lower.2
        omega
      · split at read
        · rename_i upper
          have bound : c.toNat ≤ 70 := UInt32.le_iff_toNat_le.mp upper.2
          omega
        · cases read.1
  have table : ∀ k < 128, (IpText.digit 16 (Char.ofNat k)).all fun n =>
      decide (n < 16) && (Char.ofNat k).toUpper == (Nat.digitChar n).toUpper := by
    decide
  have entry := table c.toNat small
  rw [Char.ofNat_toNat, read] at entry
  simp only [Option.all_some, Bool.and_eq_true, decide_eq_true_eq, beq_iff_eq] at entry
  exact ⟨entry.1, small, entry.2⟩

/-- What holds of the ASCII characters and of those without another case holds of
    all. -/
theorem char_cases {P : Char → Prop} (ascii : ∀ k < 128, P (Char.ofNat k))
    (same : ∀ c : Char, c.toUpper = c → P c) (c : Char) : P c := by
  by_cases small : c.toNat < 128
  · have entry := ascii c.toNat small
    rwa [Char.ofNat_toNat] at entry
  · apply same
    unfold Char.toUpper
    rw [dif_neg]
    rintro ⟨_, upper⟩
    have bound : c.toNat ≤ 122 := UInt32.le_iff_toNat_le.mp upper
    omega

theorem digit_toUpper (c : Char) : IpText.digit 16 c.toUpper = IpText.digit 16 c := by
  induction c using char_cases with
  | ascii k small =>
      revert k
      decide
  | same c same => rw [same]

theorem utf8Size_toUpper (c : Char) : c.toUpper.utf8Size = c.utf8Size := by
  induction c using char_cases with
  | ascii k small =>
      revert k
      decide
  | same c same => rw [same]

theorem toUpper_punctuation (c : Char) :
    (c.toUpper = ':' → c = ':') ∧ (c.toUpper = '+' ↔ c = '+') := by
  induction c using char_cases with
  | ascii k small =>
      revert k
      decide
  | same c same =>
      rw [same]
      exact ⟨id, Iff.rfl⟩

/-! ## Parts -/

theorem byteLen_toUpper (part : List Char) :
    Text.byteLen (part.map Char.toUpper) = Text.byteLen part := by
  simp [Text.byteLen, Function.comp_def, utf8Size_toUpper]

theorem readDigits_toUpper (digits : List Char) :
    Hex.readDigits (digits.map Char.toUpper) = Hex.readDigits digits := by
  simp only [Hex.readDigits, List.isEmpty_map, List.foldl_map, digit_toUpper]

theorem head?_toUpper (part : List Char) :
    (part.map Char.toUpper).head? = some '+' ↔ part.head? = some '+' := by
  cases part with
  | nil => simp
  | cons c rest => simp [(toUpper_punctuation c).2]

theorem readByte_toUpper (part : List Char) :
    Hex.readByte (part.map Char.toUpper) = Hex.readByte part := by
  simp only [Hex.readByte, head?_toUpper, List.length_map, ← List.map_tail]
  split <;> exact readDigits_toUpper _

/-- Two bytes are two characters or a character that is no digit. -/
theorem two_bytes {part} (sized : Text.byteLen part = 2) :
    (∃ c, part = [c] ∧ c.utf8Size = 2) ∨ ∃ c d, part = [c, d] := by
  have sizes (c : Char) : 1 ≤ c.utf8Size := Char.utf8Size_pos c
  simp only [Text.byteLen] at sized
  rcases part with _ | ⟨c, _ | ⟨d, _ | ⟨e, rest⟩⟩⟩
  · simp at sized
  · exact .inl ⟨c, rfl, by simpa using sized⟩
  · exact .inr ⟨c, d, rfl⟩
  · have := sizes c
    have := sizes d
    have := sizes e
    simp only [List.map_cons, List.sum_cons] at sized
    omega

theorem readDigits_two {c d byte} (read : Hex.readDigits [c, d] = some byte) :
    ∃ high low, IpText.digit 16 c = some high ∧ IpText.digit 16 d = some low ∧
      UInt8.ofNat high * 16 + UInt8.ofNat low = byte := by
  cases first : IpText.digit 16 c with
  | none => simp [Hex.readDigits, first] at read
  | some high =>
      cases second : IpText.digit 16 d with
      | none => simp [Hex.readDigits, first, second] at read
      | some low => exact ⟨high, low, rfl, rfl, by simpa [Hex.readDigits, first, second] using read⟩

/-- Two bytes without a sign are two digits, and their byte is formatted as they are
    in upper case. -/
theorem readByte_unsigned {part byte} (sized : Text.byteLen part = 2)
    (unsigned : part.head? ≠ some '+') (read : Hex.readByte part = some byte) :
    part.map Char.toUpper = Hex.upper byte := by
  rw [Hex.readByte, if_neg (fun plus => unsigned plus.1)] at read
  rcases two_bytes sized with ⟨c, rfl, wide⟩ | ⟨c, d, rfl⟩
  · cases first : IpText.digit 16 c with
    | none => simp [Hex.readDigits, first] at read
    | some n =>
        have ascii : c.val.toNat < 128 := (digit_cases first).2.1
        have narrow : c.utf8Size = 1 :=
          Char.utf8Size_eq_one_iff.mpr (UInt32.le_iff_toNat_le.mpr (Nat.le_of_lt_succ ascii))
        omega
  · obtain ⟨high, low, first, second, rfl⟩ := readDigits_two read
    obtain ⟨highBound, _, highCase⟩ := digit_cases first
    obtain ⟨lowBound, _, lowCase⟩ := digit_cases second
    have number : (UInt8.ofNat high * 16 + UInt8.ofNat low).toNat = high * 16 + low := by
      simp only [UInt8.toNat_add, UInt8.toNat_mul, UInt8.toNat_ofNat', UInt8.reduceToNat]
      omega
    have left : (high * 16 + low) / 16 = high := by omega
    have right : (high * 16 + low) % 16 = low := by omega
    rw [Hex.upper, Hex.lower, number, left, right]
    simp only [List.map_cons, List.map_nil, highCase, lowCase]

/-- A formatted byte is read back. -/
theorem readByte_upper (byte : UInt8) :
    Text.byteLen (Hex.upper byte) = 2 ∧ Hex.readByte (Hex.upper byte) = some byte ∧
      ':' ∉ Hex.upper byte ∧ '+' ∉ Hex.upper byte := by
  have table : ∀ k < 256, Text.byteLen (Hex.upper (UInt8.ofNat k)) = 2 ∧
      Hex.readByte (Hex.upper (UInt8.ofNat k)) = some (UInt8.ofNat k) ∧
      ':' ∉ Hex.upper (UInt8.ofNat k) ∧ '+' ∉ Hex.upper (UInt8.ofNat k) := by
    decide +kernel
  have entry := table byte.toNat byte.toNat_lt
  rwa [UInt8.ofNat_toNat] at entry

/-! ## Whole fingerprints -/

variable {parts : List (List Char)} {bytes digest : Bytes} {value : List Char}

theorem pinParts_ok : pinParts parts = .ok bytes ↔
    List.Forall₂ (fun part byte => Text.byteLen part = 2 ∧ Hex.readByte part = some byte) parts bytes := by
  induction parts generalizing bytes with
  | nil => simp [pinParts, List.forall₂_nil_left_iff, eq_comm]
  | cons part rest ih =>
      simp only [pinParts, bind_eq_ok, ensure_eq_ok, beq_iff_eq, List.forall₂_cons_left_iff]
      cases read : Hex.readByte part with
      | none => simp
      | some byte =>
          simp only [bind_eq_ok, pure_eq_ok, ih]
          constructor
          · rintro ⟨_, sized, others, each, rfl⟩
            exact ⟨byte, others, ⟨sized, rfl⟩, each, rfl⟩
          · rintro ⟨first, others, ⟨sized, same⟩, each, rfl⟩
            cases same
            exact ⟨(), sized, others, each, rfl⟩

theorem pin_ok : pin value = .ok bytes ↔
    (value.splitOn ':').length = 32 ∧
      List.Forall₂ (fun part byte => Text.byteLen part = 2 ∧ Hex.readByte part = some byte)
        (value.splitOn ':') bytes := by
  simp only [pin, bind_eq_ok, ensure_eq_ok, beq_iff_eq, pinParts_ok]
  constructor
  · rintro ⟨_, count, each⟩
    exact ⟨count, each⟩
  · rintro ⟨count, each⟩
    exact ⟨(), count, each⟩

theorem splitOn_toUpper (value : List Char) :
    (value.map Char.toUpper).splitOn ':' = (value.splitOn ':').map (List.map Char.toUpper) :=
  Pieces.splitOn_map (by decide) (fun c => (toUpper_punctuation c).1) value

theorem pinParts_toUpper (parts : List (List Char)) :
    pinParts (parts.map (List.map Char.toUpper)) = pinParts parts := by
  induction parts with
  | nil => rfl
  | cons part rest ih =>
      simp only [List.map_cons, pinParts, byteLen_toUpper, readByte_toUpper, ih]

/-- Case does not matter to the bytes. -/
theorem pin_toUpper (value : List Char) : pin (value.map Char.toUpper) = pin value := by
  simp only [pin, splitOn_toUpper, List.length_map, pinParts_toUpper]

theorem signed_toUpper (value : List Char) : signed (value.map Char.toUpper) = signed value := by
  rw [signed, signed, splitOn_toUpper, List.any_map, Bool.eq_iff_iff]
  simp only [List.any_eq_true, Function.comp_apply, beq_iff_eq, head?_toUpper]

theorem splitOn_formatted (nonempty : digest ≠ []) :
    (formatted digest).splitOn ':' = digest.map Hex.upper := by
  apply List.splitOn_intercalate
  · intro part member
    obtain ⟨byte, _, rfl⟩ := List.mem_map.mp member
    exact (readByte_upper byte).2.2.1
  · simpa using nonempty

/-- A formatted digest is read back and has no sign. -/
theorem pin_formatted (full : digest.length = 32) :
    pin (formatted digest) = .ok digest ∧ signed (formatted digest) = false := by
  have nonempty : digest ≠ [] := by
    rintro rfl
    cases full
  have parts := splitOn_formatted nonempty
  constructor
  · rw [pin_ok, parts]
    refine ⟨by simpa using full, List.forall₂_map_left_iff.mpr (List.forall₂_same.mpr ?_)⟩
    intro byte _
    exact ⟨(readByte_upper byte).1, (readByte_upper byte).2.1⟩
  · rw [signed, parts, List.any_eq_false]
    intro part member
    obtain ⟨byte, _, rfl⟩ := List.mem_map.mp member
    intro plus
    exact (readByte_upper byte).2.2.2 (List.mem_of_mem_head? (beq_iff_eq.mp plus))

theorem pin_length (read : pin value = .ok bytes) :
    bytes.length = 32 := by
  obtain ⟨count, each⟩ := pin_ok.mp read
  rw [← each.length_eq, count]

theorem parts_toUpper
    (each : List.Forall₂ (fun part byte => Text.byteLen part = 2 ∧ Hex.readByte part = some byte)
      parts bytes) (plain : ∀ part ∈ parts, part.head? ≠ some '+') :
    parts.map (List.map Char.toUpper) = bytes.map Hex.upper := by
  induction each with
  | nil => rfl
  | cons first _ ih =>
      rw [List.map_cons, List.map_cons, ih (fun part member => plain part (by simp [member])),
        readByte_unsigned first.1 (plain _ (by simp)) first.2]

/-- Without a sign, the text in upper case is the formatted digest. -/
theorem toUpper_eq_formatted (read : pin value = .ok bytes) (unsigned : signed value = false) :
    value.map Char.toUpper = formatted bytes := by
  obtain ⟨_, each⟩ := pin_ok.mp read
  have plain : ∀ part ∈ value.splitOn ':', part.head? ≠ some '+' := by
    intro part member
    simpa using List.any_eq_false.mp unsigned part member
  calc
    value.map Char.toUpper = [':'].intercalate ((value.map Char.toUpper).splitOn ':') :=
      (List.intercalate_splitOn ':').symm
    _ = formatted bytes := by rw [splitOn_toUpper, parts_toUpper each plain, formatted]

/-- The texts that `pin` reads without a sign are those that formatting writes, up to
    case. -/
theorem formatted_iff :
    (∃ digest : Bytes, digest.length = 32 ∧ value.map Char.toUpper = formatted digest) ↔
      (∃ bytes, pin value = .ok bytes) ∧ signed value = false := by
  constructor
  · rintro ⟨digest, full, written⟩
    obtain ⟨read, unsigned⟩ := pin_formatted full
    rw [← written, pin_toUpper] at read
    rw [← written, signed_toUpper] at unsigned
    exact ⟨⟨digest, read⟩, unsigned⟩
  · rintro ⟨⟨bytes, read⟩, unsigned⟩
    exact ⟨bytes, pin_length read, toUpper_eq_formatted read unsigned⟩

/-! ## Admitted peers -/

namespace Endpoint

/-- The form in which a peer is stored. -/
def stored (peer : Peer) : Peer := { peer with fingerprint := peer.fingerprint.map Char.toUpper }

variable {endpoint : Endpoint} {peer : Peer}

theorem admitPeer_ok {admitted next} (accepted : endpoint.admitPeer admitted peer = .ok next) :
    (∃ bytes, pin peer.fingerprint = .ok bytes) ∧ admitted.next.contains peer.ip = false ∧
      next.next = admitted.next.insert peer.ip (stored peer) := by
  simp only [admitPeer, bind_eq_ok, ensure_eq_ok, pure_eq_ok, Bool.not_eq_true'] at accepted
  obtain ⟨_, _, bytes, read, _, _, _, fresh, rfl⟩ := accepted
  exact ⟨⟨bytes, read⟩, fresh, rfl⟩

theorem admitPeers_ok {peers admitted next}
    (accepted : endpoint.admitPeers peers admitted = .ok next) :
    (∀ ip peer, admitted.next.get? ip = some peer → next.get? ip = some peer) ∧
    ∀ peer ∈ peers, (∃ bytes, pin peer.fingerprint = .ok bytes) ∧
      next.get? peer.ip = some (stored peer) := by
  induction peers generalizing admitted with
  | nil =>
      cases accepted
      simp
  | cons first rest ih =>
      simp only [admitPeers, bind_eq_ok] at accepted
      obtain ⟨between, taken, accepted⟩ := accepted
      obtain ⟨read, fresh, grown⟩ := admitPeer_ok taken
      obtain ⟨kept, each⟩ := ih accepted
      rw [grown] at kept
      constructor
      · intro ip peer found
        have different : ip ≠ first.ip := by
          rintro rfl
          simp [Dict.contains, found] at fresh
        exact kept ip peer (by rwa [Dict.get?_insert_ne _ _ different])
      · intro peer member
        rcases List.mem_cons.mp member with rfl | member
        · exact ⟨read, kept _ _ (Dict.get?_insert_self ..)⟩
        · exact each peer member

theorem updatePeers_stored {peers} (accepted : (endpoint.updatePeers peers).2 = .ok ())
    (member : peer ∈ peers) :
    (∃ bytes, pin peer.fingerprint = .ok bytes) ∧
      (endpoint.updatePeers peers).1.peers.get? peer.ip = some (stored peer) := by
  unfold updatePeers at accepted ⊢
  by_cases few : peers.length ≤ maxPeers
  · rw [if_pos few] at accepted ⊢
    cases admission : endpoint.admitPeers peers ⟨.empty, [], []⟩ with
    | error message => simp [admission] at accepted
    | ok next => exact (admitPeers_ok admission).2 peer member
  · simp [few] at accepted

/-- The comparison of `register`. -/
theorem authenticate_iff (sha256 : Bytes → Bytes) {ip} (known : endpoint.peers.get? ip = some peer)
    (connection : Nat) (certificate : Bytes) (rest : List Bytes) :
    endpoint.authenticate sha256 ⟨connection, some ip, some (certificate :: rest)⟩ none =
        .ok (ip, peer) ↔ fingerprint sha256 certificate = peer.fingerprint := by
  simp only [authenticate, known, bind_eq_ok, ensure_eq_ok, pure_eq_ok, Option.all_none,
    List.head?_cons, Option.any_some, beq_iff_eq]
  simp

end Endpoint

theorem formatted_inj {other : Bytes} (full : digest.length = 32) (long : other.length = 32) :
    formatted digest = formatted other ↔ digest = other := by
  constructor
  · intro same
    have read := (pin_formatted full).1
    rw [same, (pin_formatted long).1] at read
    exact (Except.ok.inj read).symm
  · intro same
    rw [same]

/-- The certificates of a peer are those with the pinned digest, on both sides of a
    handshake and in `register`. -/
def OneMeaning (endpoint : Endpoint) (peer : Peer) (sha256 : Bytes → Bytes) (certificate : Bytes) :
    Prop :=
  ∀ (connection : Nat) (rest : List Bytes) (bytes : Bytes), pin peer.fingerprint = .ok bytes →
    let registers := endpoint.authenticate sha256
      ⟨connection, some peer.ip, some (certificate :: rest)⟩ none = .ok (peer.ip, peer)
    (admits sha256 peer certificate = true ↔ registers) ∧
      ((⟨some bytes, endpoint.peers⟩ : Verifier).verify sha256 certificate = true ↔ registers)

/-- The two comparisons agree, for every digest function and certificate, on exactly
    the admitted fingerprints that have no plus sign for a digit, and those are the
    texts that `fingerprint` writes, up to case. -/
theorem pins_have_one_meaning (endpoint : Endpoint) (peers : List Peer)
    (accepted : (endpoint.updatePeers peers).2 = .ok ()) :
    (∀ peer ∈ peers, ∃ stored,
      (endpoint.updatePeers peers).1.peers.get? peer.ip = some stored ∧
      stored.fingerprint = peer.fingerprint.map Char.toUpper ∧
      ((∀ sha256 : Bytes → Bytes, (∀ der, (sha256 der).length = 32) → ∀ certificate,
        OneMeaning (endpoint.updatePeers peers).1 stored sha256 certificate) ↔
          signed peer.fingerprint = false)) ∧
    ∀ value : List Char,
      (∃ digest : Bytes, digest.length = 32 ∧ value.map Char.toUpper = formatted digest) ↔
        (∃ bytes, pin value = .ok bytes) ∧ signed value = false := by
  refine ⟨?_, fun value => formatted_iff⟩
  intro peer member
  obtain ⟨⟨bytes, read⟩, known⟩ := Endpoint.updatePeers_stored accepted member
  have long := pin_length read
  have again : pin (Endpoint.stored peer).fingerprint = .ok bytes := by
    rw [Endpoint.stored, pin_toUpper, read]
  refine ⟨Endpoint.stored peer, known, rfl, ?_⟩
  constructor
  · intro agree
    by_contra plus
    rw [Bool.not_eq_false] at plus
    -- A certificate with the digest that was read is admitted but never registered.
    have meaning := agree (fun _ => bytes) (fun _ => long) [] 0 [] bytes again
    have admitted : admits (fun _ => bytes) (Endpoint.stored peer) [] = true := by
      simp [admits, again, Except.toOption]
    have written := (Endpoint.authenticate_iff _ known 0 [] []).mp (meaning.1.mp admitted)
    have unsigned := (formatted_iff.mp ⟨bytes, long, written.symm⟩).2
    cases plus.symm.trans unsigned
  · intro unsigned sha256 sized certificate connection rest pinned same
    obtain rfl := Except.ok.inj (again.symm.trans same)
    have written : (Endpoint.stored peer).fingerprint = formatted bytes :=
      toUpper_eq_formatted read unsigned
    have registers := Endpoint.authenticate_iff sha256 known connection certificate rest
    rw [written, fingerprint, formatted_inj (sized certificate) long] at registers
    have admitted : admits sha256 (Endpoint.stored peer) certificate = true ↔
        sha256 certificate = bytes := by
      rw [admits, again, beq_iff_eq]
      exact Option.some_inj.trans eq_comm
    have verified : (⟨some bytes, (endpoint.updatePeers peers).1.peers⟩ : Verifier).verify sha256
        certificate = true ↔ sha256 certificate = bytes := beq_iff_eq
    exact ⟨admitted.trans registers.symm, verified.trans registers.symm⟩

/-- The SHA-256 digest of `abc`. -/
def sampleDigest : Bytes :=
  [0xba, 0x78, 0x16, 0xbf, 0x8f, 0x01, 0xcf, 0xea, 0x41, 0x41, 0x40, 0xde, 0x5d, 0xae, 0x22, 0x23,
    0xb0, 0x03, 0x61, 0xa3, 0x96, 0x17, 0x7a, 0x9c, 0xb4, 0x10, 0xff, 0x61, 0xf2, 0x00, 0x15, 0xad]

def samplePeer (text : String) : Peer := ⟨"b", ⟨10, 203, 0, 2⟩, text.toList, "ib"⟩

/-- Lower case is read and stored as upper case. -/
def plainPeer : Peer := samplePeer
  "ba:78:16:bf:8f:01:cf:ea:41:41:40:de:5d:ae:22:23:b0:03:61:a3:96:17:7a:9c:b4:10:ff:61:f2:00:15:ad"

/-- The sixth byte has a plus sign for its first digit. -/
def plusPeer : Peer := samplePeer
  "BA:78:16:BF:8F:+1:CF:EA:41:41:40:DE:5D:AE:22:23:B0:03:61:A3:96:17:7A:9C:B4:10:FF:61:F2:00:15:AD"

def sampleEndpoint : Endpoint := .new ⟨10, 203, 0, 1⟩ []

theorem lower_case_pin_has_one_meaning : ∃ stored,
    (sampleEndpoint.updatePeers [plainPeer]).1.peers.get? ⟨10, 203, 0, 2⟩ = some stored ∧
      OneMeaning (sampleEndpoint.updatePeers [plainPeer]).1 stored (fun _ => sampleDigest)
        [0x61, 0x62, 0x63] := by
  have accepted : (sampleEndpoint.updatePeers [plainPeer]).2 = .ok () := by
    unfold plainPeer samplePeer
    erw [String.toList_ofList]
    decide
  have unsigned : signed plainPeer.fingerprint = false := by
    unfold plainPeer samplePeer
    erw [String.toList_ofList]
    decide
  obtain ⟨stored, known, _, agree⟩ := (pins_have_one_meaning sampleEndpoint [plainPeer]
    accepted).1 plainPeer (List.mem_singleton_self _)
  exact ⟨stored, known, agree.mpr unsigned (fun _ => sampleDigest) (fun _ => by rfl) _⟩

/-- The certificate passes the handshake for the peer and is then refused. -/
theorem plus_sign_pin_is_refused :
    (sampleEndpoint.updatePeers [plusPeer]).2 = .ok () ∧
    (sampleEndpoint.updatePeers [plusPeer]).1.peers.get? ⟨10, 203, 0, 2⟩ = some plusPeer ∧
    admits (fun _ => sampleDigest) plusPeer [0x61, 0x62, 0x63] = true ∧
    (sampleEndpoint.updatePeers [plusPeer]).1.authenticate (fun _ => sampleDigest)
      ⟨7, some ⟨10, 203, 0, 2⟩, some [[0x61, 0x62, 0x63]]⟩ none =
        .error "private stream peer identity mismatch" ∧
    pin plusPeer.fingerprint = .ok sampleDigest ∧
    ¬ ∃ digest : Bytes, digest.length = 32 ∧
      plusPeer.fingerprint.map Char.toUpper = formatted digest := by
  have plus : signed plusPeer.fingerprint = true := by
    unfold plusPeer samplePeer
    erw [String.toList_ofList]
    decide
  have none : ¬ ∃ digest : Bytes, digest.length = 32 ∧
      plusPeer.fingerprint.map Char.toUpper = formatted digest := by
    intro written
    have unsigned := (formatted_iff.mp written).2
    cases plus.symm.trans unsigned
  refine ⟨?_, ?_, ?_, ?_, ?_, none⟩ <;>
    · unfold plusPeer samplePeer
      erw [String.toList_ofList]
      decide

end PortHub.Mesh.Streams
