import PortHub.Lib.Pieces
import PortHub.Lib.Runs
import PortHub.Runtime.PublicAccess

/-! # The access gate over whole runs

The cookies of a request are read back from what the gate writes, so the request that
is let through has exactly the other pairs. The cached digest is the one of a credential
that was verified, and a session in the table was issued after a verification.
-/

namespace PortHub.Runtime.PublicAccess

open PortHub.Runtime

section Cookies

/-- The pairs of the readable cookie headers, in their order. -/
def cookiePairs (headers : Headers) : List (List Char × List Char) :=
  (cookieParts headers).filterMap (Text.splitOnce '=')

/-- The values under the name of the gate. -/
def gateTokens (cookie : String) (headers : Headers) : List String :=
  (cookiePairs headers).filterMap fun pair =>
    if String.ofList pair.1 == cookie then some (String.ofList pair.2) else none

/-- The parts under other names. -/
def otherParts (cookie : String) (headers : Headers) : List (List Char) :=
  (cookieParts headers).filter fun part =>
    (Text.splitOnce '=' part).any fun pair => String.ofList pair.1 != cookie

theorem readCookies_loop (cookie : String) (sessions : Dict String Nat) (parts : List (List Char))
    (found : Bool × List (List Char)) :
    parts.foldl (readCookie cookie sessions) found =
      (found.1 || (((parts.filterMap (Text.splitOnce '=')).filterMap fun pair =>
          if String.ofList pair.1 == cookie then some (String.ofList pair.2) else none).any
            sessions.contains),
        found.2 ++ parts.filter fun part =>
          (Text.splitOnce '=' part).any fun pair => String.ofList pair.1 != cookie) := by
  induction parts generalizing found with
  | nil => simp
  | cons part rest ih =>
      rw [List.foldl_cons, ih, readCookie]
      cases cut : Text.splitOnce '=' part with
      | none => simp [cut]
      | some pair =>
          obtain ⟨name, value⟩ := pair
          by_cases same : String.ofList name = cookie
          · simp [cut, same, Bool.or_assoc]
          · simp [cut, same]

theorem readCookies_eq (cookie : String) (sessions : Dict String Nat) (headers : Headers) :
    readCookies cookie sessions headers =
      ((gateTokens cookie headers).any sessions.contains, otherParts cookie headers) := by
  rw [readCookies, readCookies_loop, Bool.false_or, List.nil_append]
  rfl

def Visible (c : Char) : Prop := c.toNat = 9 ∨ (32 ≤ c.toNat ∧ c.toNat < 127)

theorem toNat_ofNat_byte (byte : UInt8) : (Char.ofNat byte.toNat).toNat = byte.toNat := by
  have small := byte.toNat_lt
  have valid : byte.toNat.isValidChar := .inl (by omega)
  rw [Char.ofNat, dif_pos valid]
  rfl

theorem toStr_visible {value text} (read : HeaderValue.toStr value = some text) :
    ∀ c ∈ text, Visible c := by
  unfold HeaderValue.toStr at read
  split at read
  · rename_i readable
    cases read
    intro c member
    obtain ⟨byte, listed, rfl⟩ := List.mem_map.mp member
    have range := List.all_eq_true.mp readable byte listed
    simp only [Bool.or_eq_true, beq_iff_eq, Bool.and_eq_true, decide_eq_true_eq] at range
    unfold Visible
    rw [toNat_ofNat_byte]
    rcases range with rfl | ⟨low, high⟩
    · exact .inl rfl
    · exact .inr ⟨low, high⟩
  · cases read

theorem toStr_ofText {text} (visible : ∀ c ∈ text, Visible c) :
    HeaderValue.toStr (HeaderValue.ofText text) = some text := by
  have byte {c : Char} (member : c ∈ text) : (UInt8.ofNat c.toNat).toNat = c.toNat := by
    have range := visible c member
    unfold Visible at range
    rw [UInt8.toNat_ofNat']
    omega
  have readable : (HeaderValue.ofText text).all
      (fun byte => byte == 9 || (32 ≤ byte && byte < 127)) = true := by
    refine List.all_eq_true.mpr ?_
    intro value member
    obtain ⟨c, listed, rfl⟩ := List.mem_map.mp member
    have range := visible c listed
    have same := byte listed
    simp only [Bool.or_eq_true, beq_iff_eq, Bool.and_eq_true, decide_eq_true_eq, ← UInt8.toNat_inj,
      UInt8.le_iff_toNat_le, UInt8.lt_iff_toNat_lt, same]
    exact range
  have back : ∀ c ∈ text, Char.ofNat (UInt8.ofNat c.toNat).toNat = c := by
    intro c member
    rw [byte member, Char.ofNat_toNat]
  rw [HeaderValue.toStr, if_pos readable, HeaderValue.ofText, List.map_map, Option.some.injEq]
  exact (List.map_congr_left back).trans (List.map_id text)

variable {headers other : Headers} {remaining : List (List Char)} {name : String}

/-- A part of a cookie header: trimmed, visible, and without a semicolon. -/
theorem mem_cookieParts {part} (member : part ∈ cookieParts headers) :
    ';' ∉ part ∧ Text.trim part = part ∧ ∀ c ∈ part, Visible c := by
  obtain ⟨piece, listed, rfl⟩ := List.mem_map.mp member
  obtain ⟨text, readable, cut⟩ := List.mem_flatMap.mp listed
  obtain ⟨value, _, read⟩ := List.mem_filterMap.mp readable
  obtain ⟨clear, sub⟩ := Pieces.mem_splitOn cut
  refine ⟨fun inside => clear (Text.mem_trim inside), Text.trim_trim piece, ?_⟩
  intro c inside
  exact toStr_visible read c (sub.subset (Text.mem_trim inside))

theorem getAll_insert (headers : Headers) (name : String) (value : HeaderValue) :
    (headers.insert name value).getAll name = [value] := by
  simp [Headers.getAll, Headers.insert, Headers.remove, List.filter_append, List.filter_filter]

section

variable (parts : ∀ part ∈ remaining, ';' ∉ part ∧ Text.trim part = part ∧ ∀ c ∈ part, Visible c)

include parts

/-- Parts that were joined are visible. -/
theorem visible_join : ∀ c ∈ [';', ' '].intercalate remaining, Visible c := by
  intro c member
  rcases Pieces.mem_intercalate member with joined | ⟨part, listed, inside⟩
  · rcases List.mem_cons.mp joined with rfl | joined
    · exact .inr (by decide)
    · rw [List.mem_singleton.mp joined]
      exact .inr (by decide)
  · exact (parts part listed).2.2 c inside

/-- The cookie headers that the gate writes: none, or one with all the parts. -/
theorem getAll_setCookies : (setCookies headers remaining).getAll "cookie" =
      if remaining.isEmpty then [] else [HeaderValue.ofText ([';', ' '].intercalate remaining)] := by
  have parsed : parseValue ([';', ' '].intercalate remaining) =
      some (HeaderValue.ofText ([';', ' '].intercalate remaining)) := by
    rw [parseValue, if_pos]
    refine List.all_eq_true.mpr fun c member => ?_
    have range := visible_join parts c member
    unfold Visible at range
    simpa using range
  unfold setCookies
  split
  · simp [Headers.getAll, Headers.remove, List.filter_filter]
  · rw [parsed]
    exact getAll_insert _ _ _

/-- What the gate writes is read back as it was. -/
theorem cookieParts_setCookies : cookieParts (setCookies headers remaining) = remaining := by
  rw [cookieParts, getAll_setCookies parts]
  cases remaining with
  | nil => rfl
  | cons first others =>
      simp only [List.isEmpty_cons, Bool.false_eq_true, if_false]
      rw [List.filterMap_cons, toStr_ofText (visible_join parts)]
      simp only [List.filterMap_nil, List.flatMap_cons, List.flatMap_nil, List.append_nil]
      rw [Pieces.splitOn_join (by decide) (fun part member => (parts part member).1), List.map_cons,
        List.map_map, (parts first List.mem_cons_self).2.1]
      congr 1
      have kept : ∀ part ∈ others, (Text.trim ∘ ([' '] ++ ·)) part = part := by
        intro part member
        exact (Text.trim_space part).trans (parts part (List.mem_cons_of_mem _ member)).2.1
      exact (List.map_congr_left kept).trans (List.map_id others)

end

theorem mem_otherParts {cookie part} (member : part ∈ otherParts cookie headers) :
    ';' ∉ part ∧ Text.trim part = part ∧ ∀ c ∈ part, Visible c :=
  mem_cookieParts (List.mem_of_mem_filter member)

/-- The pairs under other names stay, in their order, and no other does. -/
theorem cookiePairs_setCookies (cookie : String) (headers : Headers) :
    cookiePairs (setCookies headers (otherParts cookie headers)) =
      (cookiePairs headers).filter fun pair => String.ofList pair.1 != cookie := by
  rw [cookiePairs, cookieParts_setCookies fun part => mem_otherParts, otherParts, cookiePairs]
  induction cookieParts headers with
  | nil => rfl
  | cons part rest ih =>
      cases cut : Text.splitOnce '=' part with
      | none => simpa [cut] using ih
      | some pair =>
          by_cases same : String.ofList pair.1 = cookie
          · simpa [cut, same] using ih
          · simpa [cut, same] using ih

theorem getAll_remove_self (headers : Headers) (name : String) :
    (headers.remove name).getAll name = [] := by
  simp [Headers.getAll, Headers.remove, List.filter_filter]

theorem getAll_remove_ne (headers : Headers) {other} (different : name ≠ other) :
    (headers.remove other).getAll name = headers.getAll name := by
  unfold Headers.getAll Headers.remove
  rw [List.filter_filter]
  congr 1
  refine List.filter_congr fun entry _ => ?_
  by_cases here : entry.1 = name
  · simp [here, different]
  · simp [here]

theorem getAll_insert_ne (headers : Headers) {other} (value : HeaderValue)
    (different : name ≠ other) :
    (headers.insert other value).getAll name = headers.getAll name := by
  rw [← getAll_remove_ne headers different]
  simp [Headers.getAll, Headers.insert, List.filter_append, Ne.symm different]

theorem getAll_setCookies_ne (headers : Headers) (remaining : List (List Char))
    (different : name ≠ "cookie") :
    (setCookies headers remaining).getAll name = headers.getAll name := by
  unfold setCookies
  split
  · exact getAll_remove_ne headers different
  · split
    · rw [getAll_insert_ne _ _ different, getAll_remove_ne headers different]
    · exact getAll_remove_ne headers different

theorem supplied_congr (same : headers.getAll "x-porthub-key" = other.getAll "x-porthub-key") :
    supplied headers = supplied other := by
  simp only [supplied, Headers.get?, same]

theorem bearer_congr (same : headers.getAll "authorization" = other.getAll "authorization") :
    bearer headers = bearer other := by
  simp only [bearer, Headers.get?, same]

theorem cookiePairs_congr (same : headers.getAll "cookie" = other.getAll "cookie") :
    cookiePairs headers = cookiePairs other := by
  simp only [cookiePairs, cookieParts, same]

end Cookies

section Requests

variable {β : Type} {gate : Gate}

/-- The request without the cookie and the header of the gate. -/
def cleaned (gate : Gate) (request : Request β) : Request β :=
  { request with
    headers := (setCookies request.headers (otherParts gate.cookie request.headers)).remove
      "x-porthub-key" }

/-- What the upstream sees of a request. -/
structure LetThrough (gate : Gate) (request passed : Request β) (bearer : Bool) : Prop where
  method : passed.method = request.method
  uri : passed.uri = request.uri
  body : passed.body = request.body
  /-- No cookie under the name of the gate, and every other readable pair in its place. -/
  cookies : cookiePairs passed.headers =
    (cookiePairs request.headers).filter fun pair => String.ofList pair.1 != gate.cookie
  readable : ∀ value ∈ passed.headers.getAll "cookie", (HeaderValue.toStr value).isSome = true
  key : passed.headers.getAll "x-porthub-key" = []
  authorization : passed.headers.getAll "authorization" =
    if bearer then [] else request.headers.getAll "authorization"
  others : ∀ name, name ≠ "cookie" → name ≠ "x-porthub-key" → name ≠ "authorization" →
    passed.headers.getAll name = request.headers.getAll name

theorem letThrough_cleaned (gate : Gate) (request : Request β) :
    LetThrough gate request (cleaned gate request) false where
  method := rfl
  uri := rfl
  body := rfl
  cookies := by
    rw [← cookiePairs_setCookies]
    exact cookiePairs_congr (getAll_remove_ne _ (by decide))
  readable := by
    intro value member
    rw [cleaned, getAll_remove_ne _ (by decide), getAll_setCookies fun part => mem_otherParts] at member
    split at member
    · cases member
    · rw [List.mem_singleton.mp member, toStr_ofText (visible_join fun part => mem_otherParts)]
      rfl
  key := getAll_remove_self _ _
  authorization := by
    rw [cleaned, getAll_remove_ne _ (by decide), getAll_setCookies_ne _ _ (by decide)]
    rfl
  others name cookie key _ := by
    rw [cleaned, getAll_remove_ne _ key, getAll_setCookies_ne _ _ cookie]

theorem letThrough_consumed (gate : Gate) (request : Request β) :
    LetThrough gate request
      { cleaned gate request with
        headers := Headers.remove (cleaned gate request).headers "authorization" } true where
  method := rfl
  uri := rfl
  body := rfl
  cookies := by
    rw [← (letThrough_cleaned gate request).cookies]
    exact cookiePairs_congr (getAll_remove_ne _ (by decide))
  readable := by
    rw [getAll_remove_ne _ (by decide)]
    exact (letThrough_cleaned gate request).readable
  key := by
    rw [getAll_remove_ne _ (by decide)]
    exact getAll_remove_self _ _
  authorization := getAll_remove_self _ _
  others name cookie key authorization := by
    rw [getAll_remove_ne _ authorization]
    exact (letThrough_cleaned gate request).others name cookie key authorization

end Requests

section Visits

open Runs

variable {β : Type} {library : Library β} {gate : Gate} {system : System β}
  {history : List (Action β × Output β)} {later : List (Action β × Output β)} {number target : Nat}
  {visit : Visit β} {event : Action β × Output β} {after : System β} {next : Stage}

/-- Where the credential of a visit comes from: the form of a login, the gate header, or else
    the bearer. -/
def Presented (library : Library β) (gate : Gate) (history : List (Action β × Output β))
    (number : Nat) (request : Request β) (visit : Visit β) (credential : String) : Prop :=
  (visit.login = true ∧ ∃ bytes nonce output, (.read number (.bytes bytes) nonce, output) ∈ history ∧
    loginKey library bytes = some credential) ∨
  (visit.login = false ∧ visit.request = cleaned gate request ∧
    ((supplied request.headers = some credential ∧ visit.consumesAuthorization = false) ∨
      (supplied request.headers = none ∧ bearer request.headers = some credential ∧
        visit.consumesAuthorization = true)))

/-- What is known of a visit at its stage. -/
def Standing (library : Library β) (gate : Gate) (history : List (Action β × Output β))
    (number : Nat) (request : Request β) (visit : Visit β) : Prop :=
  match visit.stage with
  | .arrived => visit.request = request
  | .reading => visit.login = true
  | .checking credential | .missed credential | .queued credential | .permitted credential
  | .verifying credential => Presented library gate history number request visit credential
  | .valid credential | .granted credential =>
      Presented library gate history number request visit credential ∧
        library.verify credential gate.config.verifier = true

/-- The visit goes back to the call that made it. -/
def Called (library : Library β) (gate : Gate) (history : List (Action β × Output β))
    (number : Nat) (visit : Visit β) : Prop :=
  ∃ elapsed request secure, (.arrive elapsed request secure, .arrived number visit.now) ∈ history ∧
    Standing library gate history number request visit

/-- A session was issued for a login whose key the verifier accepts. -/
def Issued (library : Library β) (gate : Gate) (history : List (Action β × Output β))
    (number expires : Nat) : Prop :=
  ∃ elapsed request secure now bytes nonce output credential,
    (.arrive elapsed request secure, .arrived number now) ∈ history ∧
      (.read number (.bytes bytes) nonce, output) ∈ history ∧
      loginKey library bytes = some credential ∧
      library.verify credential gate.config.verifier = true ∧ expires = now + sessionLength

/-- What holds after every run. -/
structure Sound (library : Library β) (gate : Gate) (history : List (Action β × Output β))
    (system : System β) : Prop where
  visits : ∀ {number visit}, system.visits.get? number = some visit →
    Called library gate history number visit
  verified : ∀ {known}, system.verified = some known → ∃ credential,
    known = digest library gate credential ∧ library.verify credential gate.config.verifier = true
  sessions : ∀ {token expires}, system.sessions.get? token = some expires →
    ∃ action number response, (action, .issued number token expires response) ∈ history
  issued : ∀ {action number token expires response},
    (action, .issued number token expires response) ∈ history →
      Issued library gate history number expires
  bounded : system.sessions.len ≤ maxSessions

theorem Presented.mono (longer : history ⊆ later) {request credential}
    (presented : Presented library gate history number request visit credential) :
    Presented library gate later number request visit credential := by
  rcases presented with ⟨login, bytes, nonce, output, read, key⟩ | direct
  · exact .inl ⟨login, bytes, nonce, output, longer read, key⟩
  · exact .inr direct

theorem Standing.mono (longer : history ⊆ later) {request}
    (standing : Standing library gate history number request visit) :
    Standing library gate later number request visit := by
  unfold Standing at standing ⊢
  cases stage : visit.stage with
  | arrived | reading =>
      rw [stage] at standing
      exact standing
  | checking credential | missed credential | queued credential | permitted credential
  | verifying credential =>
      rw [stage] at standing
      exact Presented.mono longer standing
  | valid credential | granted credential =>
      rw [stage] at standing
      exact ⟨Presented.mono longer standing.1, standing.2⟩

theorem Called.mono (longer : history ⊆ later) (called : Called library gate history number visit) :
    Called library gate later number visit := by
  obtain ⟨elapsed, request, secure, arrival, standing⟩ := called
  exact ⟨elapsed, request, secure, longer arrival, standing.mono longer⟩

theorem Issued.mono (longer : history ⊆ later) {expires}
    (issued : Issued library gate history number expires) :
    Issued library gate later number expires := by
  obtain ⟨elapsed, request, secure, now, bytes, nonce, output, credential, arrival, read, rest⟩ :=
    issued
  exact ⟨elapsed, request, secure, now, bytes, nonce, output, credential, longer arrival, longer read,
    rest⟩

theorem Sound.initial : Sound library gate [] System.initial where
  visits found := by cases found
  verified found := by cases found
  sessions found := by cases found
  issued member := by cases member
  bounded := Nat.zero_le _

/-- A step that issues nothing and leaves the sessions and the cache alone, with a visit that
    goes on or ends. -/
theorem Sound.move (sound : Sound library gate history system)
    (sessions : after.sessions.Sub system.sessions)
    (fewer : after.sessions.len ≤ system.sessions.len) (verified : after.verified = system.verified)
    (silent : ∀ number token expires response, event.2 ≠ .issued number token expires response)
    (visits : ∀ {number visit}, after.visits.get? number = some visit →
      system.visits.get? number = some visit ∨
        Called library gate (history ++ [event]) number visit) :
    Sound library gate (history ++ [event]) after := by
  have longer : history ⊆ history ++ [event] := List.subset_append_left _ _
  constructor
  · intro number visit found
    rcases visits found with old | called
    · exact (sound.visits old).mono longer
    · exact called
  · rw [verified]
    exact sound.verified
  · intro token expires found
    obtain ⟨action, number, response, member⟩ := sound.sessions (sessions token expires found)
    exact ⟨action, number, response, longer member⟩
  · intro action number token expires response member
    rcases mem_snoc.mp member with old | rfl
    · exact (sound.issued old).mono longer
    · exact absurd rfl (silent number token expires response)
  · exact fewer.trans sound.bounded

/-- The credential that a stage is about. -/
def Stage.credential : Stage → Option String
  | .arrived | .reading => none
  | .checking credential | .missed credential | .queued credential | .permitted credential
  | .verifying credential | .valid credential | .granted credential => some credential

section

variable (called : Called library gate history number visit)

include called

theorem Called.presented {credential}
    (stage : visit.stage.credential = some credential) :
    ∃ elapsed request secure, (.arrive elapsed request secure, .arrived number visit.now) ∈ history ∧
      Presented library gate history number request visit credential := by
  obtain ⟨elapsed, request, secure, arrival, standing⟩ := called
  refine ⟨elapsed, request, secure, arrival, ?_⟩
  unfold Standing at standing
  cases at_ : visit.stage with
  | arrived | reading =>
      rw [at_] at stage
      cases stage
  | checking known | missed known | queued known | permitted known | verifying known =>
      rw [at_] at stage standing
      cases stage
      exact standing
  | valid known | granted known =>
      rw [at_] at stage standing
      cases stage
      exact standing.1

/-- A visit goes on with its credential, before the verifier has seen it. -/
theorem Called.goOn {credential}
    (stage : visit.stage.credential = some credential)
    (later : next = .checking credential ∨ next = .missed credential ∨ next = .queued credential ∨
      next = .permitted credential ∨ next = .verifying credential) :
    Called library gate history number { visit with stage := next } := by
  obtain ⟨elapsed, request, secure, arrival, presented⟩ := called.presented stage
  refine ⟨elapsed, request, secure, arrival, ?_⟩
  rcases later with rfl | rfl | rfl | rfl | rfl <;> exact presented

/-- The verifier accepts the credential of a visit. -/
theorem Called.accept {credential}
    (stage : visit.stage.credential = some credential)
    (accepted : library.verify credential gate.config.verifier = true)
    (later : next = .valid credential ∨ next = .granted credential) :
    Called library gate history number { visit with stage := next } := by
  obtain ⟨elapsed, request, secure, arrival, presented⟩ := called.presented stage
  refine ⟨elapsed, request, secure, arrival, ?_⟩
  rcases later with rfl | rfl
  · exact ⟨presented, accepted⟩
  · exact ⟨presented, accepted⟩

theorem Called.accepted {credential}
    (stage : visit.stage = .valid credential ∨ visit.stage = .granted credential) :
    library.verify credential gate.config.verifier = true := by
  obtain ⟨_, request, _, _, standing⟩ := called
  unfold Standing at standing
  rcases stage with stage | stage
  · rw [stage] at standing
    exact standing.2
  · rw [stage] at standing
    exact standing.2

end

section

variable (sound : Sound library gate history system)

include sound

/-- One visit is written back. -/
theorem Sound.put (visits : after.visits = system.visits.insert number visit)
    (sessions : after.sessions = system.sessions) (verified : after.verified = system.verified)
    (silent : ∀ number token expires response, event.2 ≠ .issued number token expires response)
    (called : Called library gate (history ++ [event]) number visit) :
    Sound library gate (history ++ [event]) after := by
  refine sound.move (by rw [sessions]; exact Dict.Sub.refl _) (by rw [sessions]) verified silent ?_
  intro other later found
  rw [visits] at found
  rcases Dict.get?_of_insert found with ⟨rfl, rfl⟩ | ⟨_, found⟩
  · exact .inr called
  · exact .inl found

/-- One visit ends. -/
theorem Sound.refuse (visits : after.visits = system.visits.erase number)
    (sessions : after.sessions = system.sessions) (verified : after.verified = system.verified)
    (silent : ∀ number token expires response, event.2 ≠ .issued number token expires response) :
    Sound library gate (history ++ [event]) after := by
  refine sound.move (by rw [sessions]; exact Dict.Sub.refl _) (by rw [sessions]) verified silent ?_
  intro other later found
  rw [visits] at found
  exact .inl (Dict.get?_of_erase found).2

/-- The cached digest is the one of a credential that the verifier accepts. -/
theorem Sound.cached (injective : ∀ a b, digest library gate a = digest library gate b → a = b) {credential}
    (hit : system.cached library gate credential = true) :
    library.verify credential gate.config.verifier = true := by
  obtain ⟨known, stored, same⟩ := (Option.any_eq_true _ _).mp hit
  obtain ⟨first, rfl, accepted⟩ := sound.verified stored
  rw [beq_iff_eq] at same
  rw [← injective first credential same]
  exact accepted

theorem Sound.retain (keep : String → Nat → Bool) :
    Sound library gate history { system with sessions := system.sessions.retain keep } where
  __ := sound
  sessions found := sound.sessions (Dict.retain_sub _ _ _ _ found)
  bounded := (Dict.len_retain_le _ _).trans sound.bounded

theorem Sound.present (action : Action β) (number : Nat)
    (visit : Visit β) (credential : Option String) (nonce : String)
    (called : ∀ known output, credential = some known →
      Called library gate (history ++ [(action, output)]) number
        { visit with stage := .checking known }) :
    let result := system.present library gate number visit credential nonce
    Sound library gate (history ++ [(action, result.2)]) result.1 := by
  unfold System.present
  split
  · exact sound.refuse rfl rfl rfl nofun
  · split
    · exact sound.refuse rfl rfl rfl nofun
    · exact sound.put rfl rfl rfl nofun (called _ _ rfl)

end

theorem supplied_setCookies (headers : Headers) (remaining : List (List Char)) :
    supplied (setCookies headers remaining) = supplied headers :=
  supplied_congr (getAll_setCookies_ne _ _ (by decide))

theorem bearer_cleaned (gate : Gate) (request : Request β) :
    bearer (cleaned gate request).headers = bearer request.headers :=
  bearer_congr (letThrough_cleaned gate request).authorization

/-- A login of the gate. -/
def isLogin (library : Library β) (request : Request β) : Bool :=
  library.path request.uri == "/_porthub/access" && request.method == .other "POST"

/-- The start of a call, in terms of the request as it came. -/
theorem scan_eq (system : System β) (number : Nat) (visit : Visit β) (nonce : String) :
    system.scan library gate number visit nonce =
      let sessions := system.sessions.retain fun _ expiry => decide (visit.now < expiry)
      let login := isLogin library visit.request
      let key := supplied visit.request.headers
      let bearer := if key.isNone && !login then bearer visit.request.headers else none
      let next := {
        visit with
        request := cleaned gate visit.request, login, consumesAuthorization := bearer.isSome }
      if (gateTokens gate.cookie visit.request.headers).any sessions.contains && !login then
        ({ system with sessions }.drop number, .passed number (cleaned gate visit.request))
      else if login then
        ({ system with sessions }.put number
          { next with
            request := { cleaned gate visit.request with body := library.bodies.empty }
            stage := .reading }, .none)
      else { system with sessions }.present library gate number next (key.or bearer) nonce := by
  unfold System.scan
  dsimp only
  rw [readCookies_eq]
  rw [supplied_setCookies, ← bearer_cleaned gate visit.request]
  rfl

/-- A visit that presents a credential without a login. -/
theorem Called.direct {credential} (called : Called library gate history number visit)
    (arrived : visit.stage = .arrived) (direct : isLogin library visit.request = false)
    (offered : (supplied visit.request.headers).or
      (if (supplied visit.request.headers).isNone && !isLogin library visit.request then
        bearer visit.request.headers else none) = some credential) :
    Called library gate history number
      { visit with
        request := cleaned gate visit.request
        login := isLogin library visit.request
        consumesAuthorization := (if (supplied visit.request.headers).isNone
          && !isLogin library visit.request then bearer visit.request.headers else none).isSome
        stage := .checking credential } := by
  obtain ⟨elapsed, request, secure, arrival, standing⟩ := called
  unfold Standing at standing
  rw [arrived] at standing
  subst standing
  refine ⟨elapsed, visit.request, secure, arrival, .inr ⟨direct, rfl, ?_⟩⟩
  rw [direct] at offered ⊢
  cases key : supplied visit.request.headers with
  | some known =>
      rw [key] at offered
      rw [Option.some_or, Option.some.injEq] at offered
      subst offered
      exact .inl ⟨rfl, rfl⟩
  | none =>
      rw [key] at offered
      simp only [Option.isNone_none, Bool.not_false, Bool.and_self, if_true, Option.none_or] at offered
      refine .inr ⟨rfl, offered, ?_⟩
      simp [offered]

section

variable (sound : Sound library gate history system)

include sound

theorem Sound.scan (action : Action β) (nonce : String)
    (found : system.visits.get? number = some visit) (arrived : visit.stage = .arrived) :
    let result := system.scan library gate number visit nonce
    Sound library gate (history ++ [(action, result.2)]) result.1 := by
  have called := sound.visits found
  have retained := sound.retain fun _ expiry => decide (visit.now < expiry)
  rw [scan_eq]
  dsimp only
  split
  · exact retained.refuse rfl rfl rfl nofun
  · split
    · rename_i login
      refine retained.put rfl rfl rfl nofun ?_
      obtain ⟨elapsed, request, secure, arrival, _⟩ := called
      exact ⟨elapsed, request, secure, List.mem_append_left _ arrival, login⟩
    · rename_i direct
      apply retained.present
      intro known output offered
      have later := called.mono (List.subset_append_left history [(action, output)])
      exact later.direct arrived (by simpa using direct) offered

theorem Sound.read (outcome : BodyRead) (nonce : String)
    (found : system.visits.get? number = some visit) (reading : visit.stage = .reading) :
    let result := system.read library gate number visit outcome nonce
    Sound library gate (history ++ [(.read number outcome nonce, result.2)]) result.1 := by
  cases outcome with
  | timedOut | failed =>
      exact sound.refuse rfl rfl rfl nofun
  | bytes bytes =>
      apply sound.present
      intro known output key
      obtain ⟨elapsed, request, secure, arrival, standing⟩ := sound.visits found
      unfold Standing at standing
      rw [reading] at standing
      refine ⟨elapsed, request, secure, List.mem_append_left _ arrival, .inl ⟨standing, ?_⟩⟩
      exact ⟨bytes, nonce, output, List.mem_append_right _ (List.mem_singleton.mpr rfl), key⟩

theorem Sound.finish (action : Action β) {credential}
    (token : String) (found : system.visits.get? number = some visit)
    (granted : visit.stage = .granted credential) :
    let result := system.finish library gate number visit token
    Sound library gate (history ++ [(action, result.2)]) result.1 := by
  have called := sound.visits found
  have accepted := called.accepted (.inr granted)
  have offered : visit.stage.credential = some credential := by
    rw [granted]
    rfl
  obtain ⟨elapsed, request, secure, arrival, presented⟩ := called.presented offered
  unfold System.finish
  split
  · rename_i login
    split
    · exact sound.refuse rfl rfl rfl nofun
    · rename_i room
      have longer := List.subset_append_left history
        [(action, Output.issued number token (visit.now + sessionLength)
          (welcome library gate.cookie token visit.secure))]
      have issued : Issued library gate history number (visit.now + sessionLength) := by
        rcases presented with ⟨_, bytes, nonce, output, read, key⟩ | ⟨direct, _⟩
        · exact ⟨elapsed, request, secure, visit.now, bytes, nonce, output, credential, arrival, read,
            key, accepted, rfl⟩
        · cases login.symm.trans direct
      constructor
      · intro other later present
        exact (sound.visits (Dict.get?_of_erase present).2).mono longer
      · exact sound.verified
      · intro other expires present
        rcases Dict.get?_of_insert present with ⟨rfl, rfl⟩ | ⟨_, present⟩
        · exact ⟨action, number, _, List.mem_append_right _ (List.mem_singleton.mpr rfl)⟩
        · obtain ⟨old, first, answer, member⟩ := sound.sessions present
          exact ⟨old, first, answer, longer member⟩
      · intro old first other expires answer member
        rcases List.mem_append.mp member with known | new
        · exact (sound.issued known).mono longer
        · simp only [List.mem_singleton, Prod.mk.injEq, Output.issued.injEq] at new
          obtain ⟨_, rfl, _, rfl, _⟩ := new
          exact issued.mono longer
      · have more := Dict.len_insert_le system.sessions token (visit.now + sessionLength)
        dsimp only
        omega
  · exact sound.refuse rfl rfl rfl nofun

theorem Sound.still (action : Action β) :
    Sound library gate (history ++ [(action, .none)]) system :=
  sound.move (Dict.Sub.refl _) (Nat.le_refl _) rfl nofun .inl

/-- The steps between the credential and the verdict. -/
theorem Sound.verdict (injective : ∀ a b, digest library gate a = digest library gate b → a = b) {credential}
    (found : system.visits.get? number = some visit)
    (offered : visit.stage.credential = some credential) (action : Action β)
    (visits : after.visits = system.visits.insert number { visit with stage := next })
    (sessions : after.sessions = system.sessions) (verified : after.verified = system.verified)
    (moved : next = .missed credential ∨ next = .queued credential ∨ next = .permitted credential ∨
      next = .verifying credential ∨
      ((next = .valid credential ∨ next = .granted credential) ∧
        (library.verify credential gate.config.verifier = true ∨
          system.cached library gate credential = true))) :
    Sound library gate (history ++ [(action, .none)]) after := by
  have called := (sound.visits found).mono (List.subset_append_left history [(action, .none)])
  refine sound.put visits sessions verified nofun ?_
  rcases moved with waits | waits | waits | waits | ⟨accepts, reason⟩
  · exact called.goOn offered (.inr (.inl waits))
  · exact called.goOn offered (.inr (.inr (.inl waits)))
  · exact called.goOn offered (.inr (.inr (.inr (.inl waits))))
  · exact called.goOn offered (.inr (.inr (.inr (.inr waits))))
  · rcases reason with accepted | hit
    · exact called.accept offered accepted accepts
    · exact called.accept offered (sound.cached injective hit) accepts

theorem Sound.store (action : Action β) {credential}
    (found : system.visits.get? number = some visit) (valid : visit.stage = .valid credential) :
    Sound library gate (history ++ [(action, .none)])
      ({ system.giveBack with verified := some (digest library gate credential) }.put number
        { visit with stage := .granted credential }) := by
  have accepted := (sound.visits found).accepted (.inl valid)
  have kept : Sound library gate history
      { system.giveBack with verified := some (digest library gate credential) } := by
    refine ⟨sound.visits, ?_, sound.sessions, sound.issued, sound.bounded⟩
    intro known stored
    cases stored
    exact ⟨credential, rfl, accepted⟩
  refine kept.put rfl rfl rfl nofun ?_
  have called := (sound.visits found).mono (List.subset_append_left history [(action, .none)])
  exact called.accept (by rw [valid]; rfl) accepted (.inr rfl)

theorem Sound.visitStep (injective : ∀ a b, digest library gate a = digest library gate b → a = b)
    (found : system.visits.get? number = some visit) (action : Action β)
    (about : action.visit = some number) :
    let result := system.visitStep library gate number visit action
    Sound library gate (history ++ [(action, result.2)]) result.1 := by
  cases action with
  | arrive | settle => cases about
  | scan target nonce =>
      simp only [System.visitStep]
      split
      · exact sound.scan _ nonce found ‹_›
      · exact sound.still _
  | read target outcome nonce =>
      cases about
      simp only [System.visitStep]
      split
      · exact sound.read outcome nonce found ‹_›
      · exact sound.still _
  | check target =>
      simp only [System.visitStep]
      split
      · rename_i credential stage
        refine sound.verdict injective found (by rw [stage]; rfl) _ rfl rfl rfl ?_
        split
        · rename_i hit
          exact .inr (.inr (.inr (.inr ⟨.inr rfl, .inr hit⟩)))
        · exact .inl rfl
      · exact sound.still _
  | wait target =>
      simp only [System.visitStep]
      split
      · rename_i credential stage
        split
        · exact sound.refuse rfl rfl rfl nofun
        · exact sound.verdict injective found (by rw [stage]; rfl) _ rfl rfl rfl (.inr (.inl rfl))
      · exact sound.still _
  | permit target =>
      simp only [System.visitStep]
      split
      · rename_i credential stage
        split
        · exact sound.still _
        · exact sound.verdict injective found (by rw [stage]; rfl) _ rfl rfl rfl
            (.inr (.inr (.inl rfl)))
      · exact sound.still _
  | expire target =>
      simp only [System.visitStep]
      split
      · exact sound.refuse rfl rfl rfl nofun
      · exact sound.still _
  | recheck target =>
      simp only [System.visitStep]
      split
      · rename_i credential stage
        split
        · rename_i hit
          exact sound.verdict injective found (by rw [stage]; rfl) _ rfl rfl rfl
            (.inr (.inr (.inr (.inr ⟨.inr rfl, .inr hit⟩))))
        · exact sound.verdict injective found (by rw [stage]; rfl) _ rfl rfl rfl
            (.inr (.inr (.inr (.inl rfl))))
      · exact sound.still _
  | verify target joined nonce =>
      simp only [System.visitStep]
      split
      · rename_i credential stage
        split
        · exact sound.refuse rfl rfl rfl nofun
        · split
          · rename_i accepted
            exact sound.verdict injective found (by rw [stage]; rfl) _ rfl rfl rfl
              (.inr (.inr (.inr (.inr ⟨.inl rfl, .inl accepted⟩))))
          · exact sound.refuse rfl rfl rfl nofun
      · exact sound.still _
  | store target =>
      simp only [System.visitStep]
      split
      · exact sound.store _ found ‹_›
      · exact sound.still _
  | finish target token =>
      simp only [System.visitStep]
      split
      · exact sound.finish _ token found ‹_›
      · exact sound.still _
  | leave target =>
      simp only [System.visitStep]
      split
      · exact sound.refuse rfl rfl rfl nofun
      · exact sound.refuse rfl rfl rfl nofun
      · exact sound.refuse rfl rfl rfl nofun
      · exact sound.still _

theorem Sound.visited
    (injective : ∀ a b, digest library gate a = digest library gate b → a = b) (action : Action β) :
    let result := system.visited library gate action
    Sound library gate (history ++ [(action, result.2)]) result.1 := by
  unfold System.visited
  split
  · exact sound.still _
  · rename_i number about
    split
    · exact sound.still _
    · rename_i visit found
      exact sound.visitStep injective found action about

end

theorem Sound.step (sound : Sound library gate history system)
    (injective : ∀ a b, digest library gate a = digest library gate b → a = b) (action : Action β) :
    Sound library gate (history ++ [(action, (system.step library gate action).2)])
      (system.step library gate action).1 := by
  cases action with
  | arrive elapsed request secure =>
      refine sound.put rfl rfl rfl nofun ?_
      exact ⟨elapsed, request, secure, List.mem_append_right _ (List.mem_singleton.mpr rfl), rfl⟩
  | settle =>
      simp only [System.step]
      split
      · exact sound.still _
      · exact sound.move (Dict.Sub.refl _) (Nat.le_refl _) rfl
          nofun .inl
  | _ => exact sound.visited injective _

/-- Why a request is let through, and what of it. -/
def Passed (library : Library β) (gate : Gate) (history : List (Action β × Output β)) (number : Nat)
    (passed : Request β) : Prop :=
  ∃ elapsed request secure now, (.arrive elapsed request secure, .arrived number now) ∈ history ∧
    -- a session that was issued after a verification and has not expired
    ((LetThrough gate request passed false ∧ ∃ token ∈ gateTokens gate.cookie request.headers,
        ∃ action other expires response, (action, .issued other token expires response) ∈ history ∧
          Issued library gate history other expires ∧ now < expires) ∨
      -- a gate header that the verifier accepts
      (LetThrough gate request passed false ∧ ∃ credential, supplied request.headers = some credential ∧
        library.verify credential gate.config.verifier = true) ∨
      -- a bearer that the verifier accepts, when no gate header can be read
      (LetThrough gate request passed true ∧ supplied request.headers = none ∧
        ∃ credential, bearer request.headers = some credential ∧
          library.verify credential gate.config.verifier = true))

theorem present_output (system : System β) (number : Nat) (visit : Visit β)
    (credential : Option String) (nonce : String) (target : Nat) (passed : Request β) :
    (system.present library gate number visit credential nonce).2 ≠ .passed target passed := by
  unfold System.present
  split
  · nofun
  · split
    · nofun
    · nofun

theorem Sound.scan_passed (sound : Sound library gate history system) {nonce passed}
    (found : system.visits.get? number = some visit) (arrived : visit.stage = .arrived)
    (output : (system.scan library gate number visit nonce).2 = .passed target passed) :
    Passed library gate history target passed := by
  rw [scan_eq] at output
  dsimp only at output
  split at output
  · rename_i open'
    obtain ⟨rfl, rfl⟩ := output
    obtain ⟨elapsed, request, secure, arrival, standing⟩ := sound.visits found
    unfold Standing at standing
    rw [arrived] at standing
    subst standing
    simp only [Bool.and_eq_true, List.any_eq_true] at open'
    obtain ⟨⟨token, offered, held⟩, _⟩ := open'
    obtain ⟨expires, kept⟩ := Dict.contains_iff.mp held
    obtain ⟨known, fresh⟩ := Dict.get?_retain_eq_some.mp kept
    obtain ⟨action, other, response, issued⟩ := sound.sessions known
    exact ⟨elapsed, visit.request, secure, visit.now, arrival, .inl ⟨letThrough_cleaned gate _, token,
      offered, action, other, expires, response, issued, sound.issued issued, by simpa using fresh⟩⟩
  · split at output
    · cases output
    · exact absurd output (present_output _ _ _ _ _ _ _)

theorem Sound.finish_passed (sound : Sound library gate history system) {credential token passed}
    (found : system.visits.get? number = some visit) (granted : visit.stage = .granted credential)
    (output : (system.finish library gate number visit token).2 = .passed target passed) :
    Passed library gate history target passed := by
  have called := sound.visits found
  have accepted := called.accepted (.inr granted)
  obtain ⟨elapsed, request, secure, arrival, presented⟩ := called.presented (by rw [granted]; rfl)
  unfold System.finish at output
  split at output
  · split at output <;> cases output
  · rename_i direct
    obtain ⟨rfl, rfl⟩ := output
    refine ⟨elapsed, request, secure, visit.now, arrival, ?_⟩
    rcases presented with ⟨login, _⟩ | ⟨_, same, ⟨key, kept⟩ | ⟨absent, offered, consumed⟩⟩
    · exact absurd login direct
    · rw [kept, same]
      exact .inr (.inl ⟨letThrough_cleaned gate request, credential, key, accepted⟩)
    · rw [consumed, same]
      exact .inr (.inr ⟨letThrough_consumed gate request, absent, credential, offered, accepted⟩)

/-- Only the start and the end of a call let a request through. -/
theorem Sound.passed (sound : Sound library gate history system) {action passed}
    (output : (system.step library gate action).2 = .passed target passed) :
    Passed library gate history target passed := by
  have visited {number : Nat} {visit : Visit β} (found : system.visits.get? number = some visit)
      (output : (system.visitStep library gate number visit action).2 = .passed target passed) :
      Passed library gate history target passed := by
    cases action with
    | scan _ nonce =>
        simp only [System.visitStep] at output
        split at output
        · exact sound.scan_passed found ‹_› output
        · cases output
    | finish _ token =>
        simp only [System.visitStep] at output
        split at output
        · exact sound.finish_passed found ‹_› output
        · cases output
    | read _ outcome nonce =>
        simp only [System.visitStep, System.read] at output
        split at output
        · split at output
          · cases output
          · cases output
          · exact absurd output (present_output _ _ _ _ _ _ _)
        · cases output
    | arrive | settle => cases output
    | check | expire | store | leave =>
        simp only [System.visitStep] at output
        split at output <;> cases output
    | wait | permit | recheck =>
        simp only [System.visitStep] at output
        split at output
        · split at output <;> cases output
        · cases output
    | verify _ joined nonce =>
        simp only [System.visitStep] at output
        split at output
        · split at output
          · cases output
          · split at output <;> cases output
        · cases output
  cases action with
  | arrive => cases output
  | settle =>
      simp only [System.step] at output
      split at output <;> cases output
  | _ =>
      simp only [System.step, System.visited, Action.visit] at output
      split at output
      · cases output
      · exact visited ‹_› output

theorem run_sound (injective : ∀ a b, digest library gate a = digest library gate b → a = b)
    (run : Run (answers (System.step library gate)) System.initial history system) :
    Sound library gate history system := by
  induction run with
  | start => exact .initial
  | snoc _ taken ih =>
      rename_i before event next _
      have moved := ih.step injective event.1
      rw [taken] at moved
      exact moved

/-- After every run: the table of sessions is bounded, and what the next step lets through
    shows a session of the gate or a credential that the verifier accepts, and has lost
    exactly what belongs to the gate. -/
theorem gate_is_closed (injective : ∀ a b, digest library gate a = digest library gate b → a = b)
    (run : Run (answers (System.step library gate)) System.initial history system) :
    system.sessions.len ≤ maxSessions ∧
      ∀ action number passed next,
        answers (System.step library gate) system (action, .passed number passed) next →
          Passed library gate history number passed := by
  have sound := run_sound injective run
  refine ⟨sound.bounded, ?_⟩
  intro action number passed next taken
  exact sound.passed (congrArg Prod.snd taken)

end Visits

section Examples

open Runs

/-- A gate whose key is a PIN, over bodies that are texts. -/
def exampleLibrary : Library String where
  bodies := ⟨"", fun body => body == "", id⟩
  path uri := uri
  form _ := []
  sha256 bytes := bytes
  cost _ := .ok 10
  verify credential _ := credential == "123456"
  page := ""

def exampleGate : Gate := ⟨⟨"$2b$10$", true⟩, "porthub_access_0011223344556677", [7]⟩

theorem exampleDigest_injective (a b : String)
    (same : digest exampleLibrary exampleGate a = digest exampleLibrary exampleGate b) : a = b := by
  have bytes : utf8 a = utf8 b := List.append_cancel_left same
  have read := congrArg fromUtf8 bytes
  rwa [fromUtf8_utf8, fromUtf8_utf8, Option.some.injEq] at read

def exampleRequest : Request String where
  method := .get
  uri := "/"
  headers := [("cookie", HeaderValue.ofText "a=1; b=2".toList),
    ("x-porthub-key", HeaderValue.ofText "123456".toList)]
  body := "upload"

/-- A request up to its verdict. -/
def exampleVisit (request : Request String) : List (Action String) :=
  [.arrive 0 request false, .scan 0 "", .check 0, .wait 0, .permit 0, .recheck 0, .verify 0 true "",
    .store 0]

theorem keyed_request_passes : ∃ passed, ((feed (System.step exampleLibrary exampleGate) System.initial
        (exampleVisit exampleRequest)).2.step exampleLibrary exampleGate (.finish 0 "")).2 =
      .passed 0 passed ∧
      Passed exampleLibrary exampleGate (feed (System.step exampleLibrary exampleGate) System.initial
        (exampleVisit exampleRequest)).1 0 passed := by
  have run := feed_run (System.step exampleLibrary exampleGate) System.initial
    (exampleVisit exampleRequest)
  have closed := (gate_is_closed exampleDigest_injective run).2
  exact ⟨_, rfl, closed (.finish 0 "") 0 _ _ rfl⟩

/-- A gate header and a cookie with a byte that is no visible ASCII. -/
def unreadableRequest : Request String where
  method := .get
  uri := "/"
  headers := [("cookie", [97, 61, 49, 59, 255]), ("x-porthub-key", [255]),
    ("authorization", HeaderValue.ofText "Bearer 123456".toList)]
  body := "upload"

/-- The bearer is looked at although there is a gate header, and a cookie pair is lost. -/
theorem unreadable_key_is_skipped : ∃ passed, ((feed (System.step exampleLibrary exampleGate) System.initial
        (exampleVisit unreadableRequest)).2.step exampleLibrary exampleGate (.finish 0 "")).2 =
      .passed 0 passed ∧
      unreadableRequest.headers.containsKey "x-porthub-key" = true ∧
      passed.headers.containsKey "authorization" = false ∧
      unreadableRequest.headers.containsKey "cookie" = true ∧
      passed.headers.containsKey "cookie" = false :=
  ⟨_, rfl, rfl, rfl, rfl, rfl⟩

end Examples

end PortHub.Runtime.PublicAccess
