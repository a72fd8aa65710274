import PortHub.Terminal.Delivery

/-! # The wire form of terminal messages

A message is a kind, its epoch as sixteen bytes, its sequence in big-endian order and
the payload. The text of an epoch and its bytes determine each other, and so do the
numbers and their bytes: every message has one wire form, and every accepted wire
form one message.
-/

namespace PortHub.Terminal.Delivery

/-- The loop over the pairs of digits of an epoch. -/
def readPairs : List Char → Result (List UInt8)
  | high :: low :: rest =>
      match Hex.readByte [high, low] with
      | none => .error "invalid digit found in string"
      | some byte => do return byte :: (← readPairs rest)
  | _ => .ok []

/-- Kind, epoch, sequence and payload of a message. -/
def Message.parts : Message → UInt8 × String × Nat × List UInt8
  | .data frame => (1, frame.epoch, frame.sequence, frame.payload)
  | .ack epoch sequence => (2, epoch, sequence, [])

def Message.encode (message : Message) : Result (List UInt8) := do
  let (kind, epoch, sequence, payload) := message.parts
  validEpoch epoch
  ensure (decide (sequence ≤ maxSequence)) "invalid terminal acknowledgement"
  let digits ← readPairs epoch.toList
  return kind :: digits ++ u64BeBytes sequence ++ payload

/-- A frame is valid by itself; an acknowledgement names an epoch and a sequence. -/
def Message.Valid : Message → Prop
  | .data _ => True
  | .ack epoch sequence => token epoch 32 = true ∧ sequence ≤ maxSequence

/-! ## Epochs -/

/-- The table is checked row by row, by the high digit. -/
theorem lower_table : ∀ high < 16, ∀ low < 16,
    (Hex.lower (UInt8.ofNat (16 * high + low))).all (fun c => decide (c.toNat < 128) &&
        (isAsciiHexdigit (UInt8.ofNat c.toNat) && !isAsciiUppercase (UInt8.ofNat c.toNat))) = true ∧
      Hex.readByte (Hex.lower (UInt8.ofNat (16 * high + low))) = some (UInt8.ofNat (16 * high + low)) := by
  decide

theorem lower_spec (byte : UInt8) : (∀ c ∈ Hex.lower byte, c.toNat < 128 ∧
    (isAsciiHexdigit (UInt8.ofNat c.toNat) && !isAsciiUppercase (UInt8.ofNat c.toNat)) = true) ∧
    Hex.readByte (Hex.lower byte) = some byte := by
  have bound := byte.toNat_lt
  have entry := lower_table (byte.toNat / 16) (by omega) (byte.toNat % 16) (by omega)
  rw [Nat.div_add_mod, UInt8.ofNat_toNat] at entry
  refine ⟨fun c member => ?_, entry.2⟩
  have checked := List.all_eq_true.mp entry.1 c member
  rw [Bool.and_eq_true, decide_eq_true_eq] at checked
  exact checked

/-- ASCII text has one byte for each character. -/
theorem utf8_ofList {chars} (ascii : ∀ c ∈ chars, c.toNat < 128) :
    utf8 (String.ofList chars) = chars.map fun c => UInt8.ofNat c.toNat := by
  have single (c : Char) (small : c.toNat < 128) :
      String.utf8EncodeChar c = [UInt8.ofNat c.toNat] := by
    have size : c.utf8Size = 1 :=
      Char.utf8Size_eq_one_iff.mpr (UInt32.le_iff_toNat_le.mpr (Nat.le_of_lt_succ small))
    rw [String.utf8EncodeChar_eq_singleton size]
    rfl
  unfold utf8
  rw [String.toByteArray_ofList, List.utf8Encode, List.data_toByteArray, List.toList_toArray]
  induction chars with
  | nil => rfl
  | cons c rest ih =>
      rw [List.flatMap_cons, List.map_cons, single c (ascii c List.mem_cons_self),
        ih fun d member => ascii d (List.mem_cons_of_mem c member)]
      rfl

/-- A text is determined by its bytes. -/
theorem utf8_injective : Function.Injective utf8 := by
  intro first second same
  have read := fromUtf8_utf8 first
  rw [same, fromUtf8_utf8] at read
  exact (Option.some.inj read).symm

theorem hexText_toList (bytes : List UInt8) : (hexText bytes).toList = bytes.flatMap Hex.lower := by
  rw [hexText, String.toList_ofList]

theorem utf8_hexText (bytes : List UInt8) :
    utf8 (hexText bytes) = (bytes.flatMap Hex.lower).map fun c => UInt8.ofNat c.toNat := by
  refine utf8_ofList fun c member => ?_
  obtain ⟨byte, _, digit⟩ := List.mem_flatMap.mp member
  exact ((lower_spec byte).1 c digit).1

theorem token_hexText (bytes : List UInt8) : token (hexText bytes) (2 * bytes.length) = true := by
  have size : (bytes.flatMap Hex.lower).length = 2 * bytes.length := by
    induction bytes with
    | nil => rfl
    | cons byte rest ih =>
        rw [List.flatMap_cons, List.length_append, ih, Hex.lower, List.length_cons]
        simp only [List.length_cons, List.length_nil]
        omega
  simp only [token, utf8_hexText, List.length_map, size, beq_self_eq_true, Bool.true_and,
    List.all_map, List.all_eq_true, Function.comp_apply]
  intro c member
  obtain ⟨byte, _, digit⟩ := List.mem_flatMap.mp member
  exact ((lower_spec byte).1 c digit).2

theorem readPairs_hexText (bytes : List UInt8) : readPairs (hexText bytes).toList = .ok bytes := by
  rw [hexText_toList]
  induction bytes with
  | nil => rfl
  | cons byte rest ih =>
      have read : Hex.readByte [Nat.digitChar (byte.toNat / 16), Nat.digitChar (byte.toNat % 16)] =
          some byte := (lower_spec byte).2
      rw [List.flatMap_cons, Hex.lower, List.cons_append, List.cons_append, List.nil_append, readPairs,
        read]
      simp [ih]

/-- Every lower-case digit is the digit of a number below sixteen. -/
theorem digit_table : ∀ k < 256, (isAsciiHexdigit (UInt8.ofNat k) && !isAsciiUppercase (UInt8.ofNat k)) = true →
    ∃ n < 16, UInt8.ofNat k = UInt8.ofNat (Nat.digitChar n).toNat := by
  decide +kernel

theorem lower_digit {b} (digit : (isAsciiHexdigit b && !isAsciiUppercase b) = true) :
    ∃ n < 16, b = UInt8.ofNat (Nat.digitChar n).toNat := by
  have entry := digit_table b.toNat b.toNat_lt
  rw [UInt8.ofNat_toNat] at entry
  exact entry digit

/-- An even number of digits is the text of some bytes. -/
theorem pairs_of_digits {size} {digits : List UInt8} (length : digits.length = 2 * size)
    (all : ∀ b ∈ digits, (isAsciiHexdigit b && !isAsciiUppercase b) = true) :
    ∃ bytes : List UInt8, bytes.length = size ∧
      digits = (bytes.flatMap Hex.lower).map fun c => UInt8.ofNat c.toNat := by
  induction size generalizing digits with
  | zero =>
      obtain rfl := List.length_eq_zero_iff.mp length
      exact ⟨[], rfl, rfl⟩
  | succ size ih =>
      obtain ⟨high, low, rest, rfl⟩ : ∃ high low rest, digits = high :: low :: rest := by
        rcases digits with _ | ⟨high, _ | ⟨low, rest⟩⟩
        · simp at length
        · simp at length
          omega
        · exact ⟨high, low, rest, rfl⟩
      obtain ⟨first, small, rfl⟩ := lower_digit (all high (by simp))
      obtain ⟨second, little, rfl⟩ := lower_digit (all low (by simp))
      obtain ⟨bytes, count, rfl⟩ := ih (by simp at length; omega) fun b member =>
        all b (List.mem_cons_of_mem _ (List.mem_cons_of_mem _ member))
      refine ⟨UInt8.ofNat (first * 16 + second) :: bytes, by simp [count], ?_⟩
      have value : (UInt8.ofNat (first * 16 + second)).toNat = first * 16 + second := by
        rw [UInt8.toNat_ofNat']
        omega
      have left : (first * 16 + second) / 16 = first := by omega
      have right : (first * 16 + second) % 16 = second := by omega
      simp only [List.flatMap_cons, Hex.lower, value, left, right, List.cons_append, List.nil_append,
        List.map_cons]

/-- Every epoch is the text of sixteen bytes. -/
theorem epoch_hexText {epoch} (named : token epoch 32 = true) :
    ∃ bytes : List UInt8, bytes.length = 16 ∧ epoch = hexText bytes := by
  simp only [token, Bool.and_eq_true, beq_iff_eq, List.all_eq_true] at named
  obtain ⟨bytes, count, same⟩ := @pairs_of_digits 16 _ named.1 fun b member => by
    simpa only [Bool.and_eq_true] using named.2 b member
  exact ⟨bytes, count, utf8_injective (same.trans (utf8_hexText bytes).symm)⟩

/-! ## Sequences -/

theorem be64_u64BeBytes {n} (bounded : n < 2 ^ 64) : be64 (u64BeBytes n) = n := by
  simp only [be64, u64BeBytes, List.map_cons, List.map_nil, List.foldl_cons, List.foldl_nil,
    UInt8.toNat_ofNat', Nat.shiftRight_eq_div_pow]
  omega

variable {bytes epoch : List UInt8} {message : Message}

theorem u64BeBytes_be64 (size : bytes.length = 8) : u64BeBytes (be64 bytes) = bytes := by
  obtain ⟨a, b, c, d, e, f, g, h, rfl⟩ : ∃ a b c d e f g h, bytes = [a, b, c, d, e, f, g, h] := by
    rcases bytes with _ | ⟨a, _ | ⟨b, _ | ⟨c, _ | ⟨d, _ | ⟨e, _ | ⟨f, _ | ⟨g, _ | ⟨h, _ | ⟨i, rest⟩⟩⟩⟩⟩⟩⟩⟩⟩
    all_goals try (simp at size; done)
    exact ⟨a, b, c, d, e, f, g, h, rfl⟩
  have := a.toNat_lt
  have := b.toNat_lt
  have := c.toNat_lt
  have := d.toNat_lt
  have := e.toNat_lt
  have := f.toNat_lt
  have := g.toNat_lt
  have := h.toNat_lt
  simp only [be64, u64BeBytes, List.map_cons, List.map_nil, List.foldl_cons, List.foldl_nil,
    Nat.shiftRight_eq_div_pow, List.cons.injEq, and_true, ← UInt8.toNat_inj, UInt8.toNat_ofNat']
  omega

/-! ## Messages -/

/-- The fields of a wire form. -/
theorem wire_split (enough : header ≤ bytes.length) :
    ∃ kind epoch sequence payload, epoch.length = 16 ∧ sequence.length = 8 ∧
      bytes = kind :: (epoch ++ sequence ++ payload) := by
  unfold header at enough
  cases bytes with
  | nil => simp at enough
  | cons kind rest =>
      rw [List.length_cons] at enough
      refine ⟨kind, rest.take 16, (rest.drop 16).take 8, rest.drop 24, ?_, ?_, ?_⟩
      · rw [List.length_take]
        omega
      · rw [List.length_take, List.length_drop]
        omega
      · have behind : rest.drop 24 = (rest.drop 16).drop 8 := by rw [List.drop_drop]
        rw [List.append_assoc, behind, List.take_append_drop, List.take_append_drop]

/-- `parse`, by the fields of the wire form. -/
theorem parse_eq {kind} {sequence : List UInt8} {payload} (sixteen : epoch.length = 16)
    (eight : sequence.length = 8) : Message.parse (kind :: (epoch ++ sequence ++ payload)) = (do
      ensure (decide (payload.length ≤ maxPayload)) "invalid terminal envelope size"
      ensure (decide (be64 sequence ≤ maxSequence)) "invalid terminal sequence"
      if kind = 1 then return .data (← Frame.new (hexText epoch) (be64 sequence) payload)
      else if kind = 2 then
        ensure payload.isEmpty "terminal acknowledgement contains unexpected data"
        return .ack (hexText epoch) (be64 sequence)
      else throw "unknown terminal transport envelope") := by
  have front : (epoch ++ sequence ++ payload).take 16 = epoch := by
    rw [List.append_assoc, List.take_left' sixteen]
  have middle : ((epoch ++ sequence ++ payload).drop 16).take 8 = sequence := by
    rw [List.append_assoc, List.drop_left' sixteen, List.take_left' eight]
  have back : (epoch ++ sequence ++ payload).drop 24 = payload :=
    List.drop_left' (by rw [List.length_append, sixteen, eight])
  have size : (kind :: (epoch ++ sequence ++ payload)).length = 25 + payload.length := by
    simp only [List.length_cons, List.length_append, sixteen, eight]
    omega
  have bounds : (decide (25 ≤ 25 + payload.length) && decide (25 + payload.length ≤ 25 + maxPayload)) =
      decide (payload.length ≤ maxPayload) := by
    simp
  have alone : (25 + payload.length == 25) = payload.isEmpty := by
    cases payload with
    | nil => rfl
    | cons byte rest => simp
  simp only [Message.parse, header, size, bounds, alone, List.drop_succ_cons, List.drop_zero, front, middle,
    back, List.head?_cons, Option.some.injEq]

theorem parse_eq_ok {kind} {sequence : List UInt8} {payload} (sixteen : epoch.length = 16)
    (eight : sequence.length = 8) :
    Message.parse (kind :: (epoch ++ sequence ++ payload)) = .ok message ↔
      payload.length ≤ maxPayload ∧ be64 sequence ≤ maxSequence ∧
        (kind = 1 ∧ (∃ frame, Frame.new (hexText epoch) (be64 sequence) payload = .ok frame ∧
          .data frame = message) ∨
        kind = 2 ∧ payload = [] ∧ .ack (hexText epoch) (be64 sequence) = message) := by
  simp only [parse_eq sixteen eight, bind_eq_ok, ensure_eq_ok, decide_eq_true_eq, exists_const]
  refine and_congr_right fun _ => and_congr_right fun _ => ?_
  by_cases data : kind = 1
  · have other : ¬ (1 : UInt8) = 2 := by decide
    simp only [data, if_true, bind_eq_ok, pure_eq_ok, true_and, other, false_and, or_false]
  · simp only [data, if_false, false_and, false_or]
    by_cases ack : kind = 2
    · simp only [ack, if_true, bind_eq_ok, ensure_eq_ok, pure_eq_ok, exists_const, List.isEmpty_iff, true_and]
    · simp [ack, throw, throwThe, MonadExceptOf.throw]

/-- `encode`, for an epoch that is the text of some bytes. -/
theorem encode_eq (message : Message) (sixteen : epoch.length = 16)
    (named : message.parts.2.1 = hexText epoch) (bounded : message.parts.2.2.1 ≤ maxSequence) :
    message.encode =
      .ok (message.parts.1 :: (epoch ++ u64BeBytes message.parts.2.2.1 ++ message.parts.2.2.2)) := by
  have valid : token (hexText epoch) 32 = true := by
    have digits := token_hexText epoch
    rwa [sixteen] at digits
  simp only [Message.encode, validEpoch, bind_eq_ok, ensure_eq_ok, pure_eq_ok, decide_eq_true_eq]
  refine ⟨(), by rw [named]; exact valid, (), bounded, epoch, ?_, rfl⟩
  rw [named, readPairs_hexText]

theorem maxSequence_lt : maxSequence < 2 ^ 64 := by decide

theorem length_u64BeBytes (n : Nat) : (u64BeBytes n).length = 8 := rfl

/-- A valid message is read back from its wire form. -/
theorem parse_encode (valid : message.Valid) :
    ∃ bytes, message.encode = .ok bytes ∧ Message.parse bytes = .ok message := by
  have limit := maxSequence_lt
  cases message with
  | data frame =>
      obtain ⟨epoch, sixteen, named⟩ := epoch_hexText frame.named
      have bounded := frame.numbered.2
      refine ⟨_, encode_eq (.data frame) sixteen named bounded, ?_⟩
      have number : be64 (u64BeBytes frame.sequence) = frame.sequence := be64_u64BeBytes (by omega)
      refine (parse_eq_ok sixteen (length_u64BeBytes _)).mpr ⟨frame.sized.2, ?_, .inl ⟨rfl, frame, ?_, rfl⟩⟩
      · rw [Message.parts, number]
        exact bounded
      · rw [Message.parts, number, ← named, Frame.new_eq_ok frame.named frame.numbered frame.sized]
  | ack text sequence =>
      obtain ⟨epoch, sixteen, rfl⟩ := epoch_hexText valid.1
      have bounded := valid.2
      refine ⟨_, encode_eq (.ack _ sequence) sixteen rfl bounded, ?_⟩
      have number : be64 (u64BeBytes sequence) = sequence := be64_u64BeBytes (by omega)
      refine (parse_eq_ok sixteen (length_u64BeBytes _)).mpr
        ⟨Nat.zero_le _, by rw [Message.parts, number]; exact bounded, .inr ⟨rfl, rfl, ?_⟩⟩
      rw [Message.parts, number]

/-- Whatever is accepted is the wire form of what was read. -/
theorem encode_parse (read : Message.parse bytes = .ok message) :
    message.Valid ∧ message.encode = .ok bytes := by
  have enough : header ≤ bytes.length := by
    simp only [Message.parse, bind_eq_ok, ensure_eq_ok, Bool.and_eq_true, decide_eq_true_eq] at read
    obtain ⟨_, sized, _⟩ := read
    exact sized.1
  obtain ⟨kind, epoch, sequence, payload, sixteen, eight, rfl⟩ := wire_split enough
  obtain ⟨_, bounded, content⟩ := (parse_eq_ok sixteen eight).mp read
  have back := u64BeBytes_be64 eight
  rcases content with ⟨rfl, frame, made, rfl⟩ | ⟨rfl, rfl, rfl⟩
  · obtain ⟨named, numbered, same⟩ := Frame.new_ok made
    refine ⟨trivial, ?_⟩
    rw [encode_eq (.data frame) sixteen named frame.numbered.2]
    simp only [Message.parts, numbered, same, back]
  · have named := token_hexText epoch
    rw [sixteen] at named
    refine ⟨⟨named, bounded⟩, ?_⟩
    rw [encode_eq (.ack (hexText epoch) (be64 sequence)) sixteen rfl bounded]
    simp only [Message.parts, back]

/-- Each message has exactly one wire form, and no two messages share one. -/
theorem envelope_codec :
    (∀ message : Message, message.Valid →
      ∃ bytes, message.encode = .ok bytes ∧ Message.parse bytes = .ok message) ∧
    (∀ bytes message, Message.parse bytes = .ok message → message.Valid ∧ message.encode = .ok bytes) ∧
    (∀ first second : Message, first.Valid → second.Valid → first.encode = second.encode →
      first = second) := by
  refine ⟨fun _ valid => parse_encode valid, fun _ _ read => encode_parse read, ?_⟩
  intro first second valid other same
  obtain ⟨bytes, encoded, read⟩ := parse_encode valid
  obtain ⟨others, again, reread⟩ := parse_encode other
  rw [← same, encoded] at again
  cases again
  exact Except.ok.inj (read.symm.trans reread)

theorem acknowledgement_is_read_back :
    ∃ bytes, (Message.ack "0123456789abcdef0123456789abcdef" 7).encode = .ok bytes ∧
      Message.parse bytes = .ok (.ack "0123456789abcdef0123456789abcdef" 7) :=
  envelope_codec.1 _ ⟨by decide, by decide⟩

end PortHub.Terminal.Delivery
