import Lnvps.Lib.Json
import Lnvps.Lib.Outcome

/-! # Session, state and challenge tokens -/

namespace Lnvps

open Outcome Bytes Json

def requiredField {α : Type} (fields : Fields) (name : String) (read : Value → Option α) : Except String α := do
 let value ← ofOption ("missing field `" ++ name ++ "`") (fields.lookup name)
 ofOption "invalid type" (read value)

structure TokenText extends Reader where
 hmac : List UInt8 → List UInt8 → Vector UInt8 32

structure SessionClaims where
 sub : String
 (uid iat exp : UInt64)

structure StateClaims where
 (prov nonce : String)
 redirect : Option String
 exp : UInt64

structure ChallengeClaims where
 (purpose payload : String)
 exp : UInt64

def SessionClaims.serialize (c : SessionClaims) : Fields :=
 [("sub", .str c.sub), ("uid", .num c.uid), ("iat", .num c.iat), ("exp", .num c.exp)]

variable (fields : Fields)

def SessionClaims.deserialize : Except String SessionClaims := do
 let sub ← requiredField fields "sub" Value.str?
 let uid ← requiredField fields "uid" Value.num?
 let iat ← requiredField fields "iat" Value.num?
 let exp ← requiredField fields "exp" Value.num?
 .ok { sub, uid, iat, exp }

def StateClaims.serialize (c : StateClaims) : Fields :=
 [("prov", .str c.prov), ("nonce", .str c.nonce)] ++ (c.redirect.map fun r => ("redirect", .str r)).toList ++
  [("exp", .num c.exp)]

def StateClaims.deserialize : Except String StateClaims := do
 let prov ← requiredField fields "prov" Value.str?
 let nonce ← requiredField fields "nonce" Value.str?
 let redirect ← match fields.lookup "redirect" with
  | none => .ok none
  | some .null => .ok none
  | some value => (ofOption "invalid type" value.str?).map some
 let exp ← requiredField fields "exp" Value.num?
 .ok { prov, nonce, redirect, exp }

def ChallengeClaims.serialize (c : ChallengeClaims) : Fields :=
 [("purpose", .str c.purpose), ("payload", .str c.payload), ("exp", .num c.exp)]

def ChallengeClaims.deserialize : Except String ChallengeClaims := do
 let purpose ← requiredField fields "purpose" Value.str?
 let payload ← requiredField fields "payload" Value.str?
 let exp ← requiredField fields "exp" Value.num?
 .ok { purpose, payload, exp }

namespace TokenText

variable (t : TokenText) (secret : List UInt8)

def encode (bytes : List UInt8) : List Char := Alphabet.urlSafe.encode false bytes

def decode (text : List Char) : Except String (List UInt8) :=
 ofOption "Invalid symbol" (Alphabet.urlSafe.decode false text)

def sign (input : List Char) : List Char := encode (t.hmac secret (utf8 input)).toList

def jwtHeader : List Char := encode (utf8 "\x7b\"alg\":\"HS256\",\"typ\":\"JWT\"\x7d".toList)

def sessionToken (fields : Fields) : List Char :=
 let input := jwtHeader ++ '.' :: encode (toVec fields)
 input ++ '.' :: t.sign secret input

def payloadToken (fields : Fields) : List Char :=
 let payload := encode (toVec fields)
 payload ++ '.' :: t.sign secret payload

def checkedFields (kind : String) (input payload sig : List Char) : Except String Fields := do
 let expected ← decode sig
 ensure ((t.hmac secret (utf8 input)).toList = expected) ("Invalid " ++ kind ++ " signature")
 let json ← decode payload
 t.fromSlice json

def sessionFields (token : List Char) : Except String Fields :=
 match token.splitOn '.' with
 | [header, payload, sig] =>
  if header = [] ∨ payload = [] ∨ sig = [] then .error "Malformed session token"
  else t.checkedFields secret "session" (header ++ '.' :: payload) payload sig
 | _ => .error "Malformed session token"

def payloadFields (kind : String) (token : List Char) : Except String Fields :=
 match token.splitOn '.' with
 | [payload, sig] =>
  if payload = [] ∨ sig = [] then .error ("Malformed " ++ kind ++ " token")
  else t.checkedFields secret kind payload payload sig
 | _ => .error ("Malformed " ++ kind ++ " token")

end TokenText

section Functions

variable (t : TokenText) (secret : Option (List UInt8)) (now : UInt64)

def notConfigured : String := "Session auth not configured"

def issueSessionToken (pubkey : Vector UInt8 32) (uid ttl : UInt64) : Except String (List Char) := do
 let secret ← ofOption notConfigured secret
 let claims : SessionClaims := { sub := String.ofList (hex pubkey.toList), uid, iat := now, exp := now + ttl }
 .ok (t.sessionToken secret claims.serialize)

def verifySessionToken (token : List Char) : Except String SessionClaims := do
 let secret ← ofOption notConfigured secret
 let fields ← t.sessionFields secret token
 let claims ← SessionClaims.deserialize fields
 ensure (now < claims.exp) "Session token expired"
 .ok claims

def issueStateToken (prov nonce : String) (redirect : Option String) (ttl : UInt64) : Except String (List Char) := do
 let secret ← ofOption notConfigured secret
 .ok (t.payloadToken secret (StateClaims.serialize { prov, nonce, redirect, exp := now + ttl }))

def verifyStateToken (token : List Char) : Except String (String × Option String) := do
 let secret ← ofOption notConfigured secret
 let fields ← t.payloadFields secret "state" token
 let claims ← StateClaims.deserialize fields
 ensure (now < claims.exp) "State token expired"
 .ok (claims.prov, claims.redirect)

def issueChallengeToken (purpose payload : String) (ttl : UInt64) : Except String (List Char) := do
 let secret ← ofOption notConfigured secret
 .ok (t.payloadToken secret (ChallengeClaims.serialize { purpose, payload, exp := now + ttl }))

def verifyChallengeToken (purpose : String) (token : List Char) : Except String String := do
 let secret ← ofOption notConfigured secret
 let fields ← t.payloadFields secret "challenge" token
 let claims ← ChallengeClaims.deserialize fields
 ensure (claims.purpose = purpose) "Challenge purpose mismatch"
 ensure (now < claims.exp) "Challenge token expired"
 .ok claims.payload

end Functions

inductive TokenIssue where
 | session (pubkey : Vector UInt8 32) (uid ttl : UInt64)
 | state (prov nonce : String) (redirect : Option String) (ttl : UInt64)
 | challenge (purpose payload : String) (ttl : UInt64)

inductive TokenVerifier where
 | session
 | state
 | challenge (purpose : String)

inductive TokenValue where
 | session (claims : SessionClaims)
 | state (prov : String) (redirect : Option String)
 | challenge (payload : String)

section Separation

open TokenText

variable {t : TokenText} {secret : List UInt8} {fields : Fields} {kind : String} {now : UInt64}

theorem dot_notMem_encode (bytes : List UInt8) : '.' ∉ encode bytes := by
 intro h
 rcases Alphabet.mem_encode h with h | h
 · exact absurd h (by decide)
 · exact absurd h (by decide)

theorem sign_ne_nil (input : List Char) : t.sign secret input ≠ [] :=
 Alphabet.encode_ne_nil fun h => absurd (congrArg List.length h) (by simp)

theorem encode_toVec_ne_nil (fields : Fields) : encode (toVec fields) ≠ [] :=
 Alphabet.encode_ne_nil (toVec_ne_nil fields)

theorem splitOn_payloadToken :
  (t.payloadToken secret fields).splitOn '.' =
   [encode (toVec fields), t.sign secret (encode (toVec fields))] := by
 have h := @List.splitOn_intercalate Char
  [encode (toVec fields), t.sign secret (encode (toVec fields))] _ _ '.'
  (by simp [sign, dot_notMem_encode]) (by simp)
 simpa [payloadToken, List.intercalate] using h

theorem splitOn_sessionToken :
  (t.sessionToken secret fields).splitOn '.' = [jwtHeader, encode (toVec fields),
   t.sign secret (jwtHeader ++ '.' :: encode (toVec fields))] := by
 have h := @List.splitOn_intercalate Char [jwtHeader, encode (toVec fields),
  t.sign secret (jwtHeader ++ '.' :: encode (toVec fields))] _ _ '.'
  (by simp [sign, jwtHeader, dot_notMem_encode]) (by simp)
 simpa [sessionToken, List.intercalate] using h

def TokenIssue.run (t : TokenText) (secret : Option (List UInt8)) (now : UInt64) :
  TokenIssue → Except String (List Char)
 | .session pubkey uid ttl => issueSessionToken t secret now pubkey uid ttl
 | .state prov nonce redirect ttl => issueStateToken t secret now prov nonce redirect ttl
 | .challenge purpose payload ttl => issueChallengeToken t secret now purpose payload ttl

def TokenVerifier.run (t : TokenText) (secret : Option (List UInt8)) (now : UInt64)
  (token : List Char) : TokenVerifier → Except String TokenValue
 | .session => (verifySessionToken t secret now token).map .session
 | .state => (verifyStateToken t secret now token).map fun r => .state r.1 r.2
 | .challenge purpose => (verifyChallengeToken t secret now purpose token).map .challenge

def TokenIssue.expiry (issued : UInt64) : TokenIssue → UInt64
 | .session _ _ ttl | .state _ _ _ ttl | .challenge _ _ ttl => issued + ttl

def TokenIssue.value (issued : UInt64) : TokenIssue → TokenVerifier → Option TokenValue
 | .session pubkey uid ttl, .session =>
  some (.session { sub := String.ofList (hex pubkey.toList), uid, iat := issued, exp := issued + ttl })
 | .state prov _ redirect _, .state => some (.state prov redirect)
 | .challenge purpose payload _, .challenge purpose' => if purpose = purpose' then some (.challenge payload) else none
 | _, _ => none

theorem checkedFields_sign {input : List Char} (hfields : Readable fields) :
  t.checkedFields secret kind input (encode (toVec fields)) (t.sign secret input) = .ok fields := by
 refine bind_eq_ok.mpr ⟨_, ofOption_eq_ok.mpr (Alphabet.decode_encode _), bind_eq_ok.mpr ⟨(), by simp, ?_⟩⟩
 exact bind_eq_ok.mpr ⟨_, ofOption_eq_ok.mpr (Alphabet.decode_encode _), t.fromSlice_toVec _ hfields⟩

@[simp] theorem payloadFields_payloadToken (hfields : Readable fields) :
  t.payloadFields secret kind (t.payloadToken secret fields) = .ok fields := by
 have hne : ¬(encode (toVec fields) = [] ∨ t.sign secret (encode (toVec fields)) = []) :=
  not_or.mpr ⟨encode_toVec_ne_nil _, sign_ne_nil _⟩
 rw [payloadFields, splitOn_payloadToken]
 exact (if_neg hne).trans (checkedFields_sign hfields)

@[simp] theorem sessionFields_sessionToken (hfields : Readable fields) :
  t.sessionFields secret (t.sessionToken secret fields) = .ok fields := by
 have hne : ¬(jwtHeader = [] ∨ encode (toVec fields) = [] ∨
   t.sign secret (jwtHeader ++ '.' :: encode (toVec fields)) = []) :=
  not_or.mpr ⟨by decide, not_or.mpr ⟨encode_toVec_ne_nil _, sign_ne_nil _⟩⟩
 rw [sessionFields, splitOn_sessionToken]
 exact (if_neg hne).trans (checkedFields_sign hfields)

@[simp] theorem readable_session (c : SessionClaims) : Readable c.serialize :=
 ⟨by simp [SessionClaims.serialize], by simp [SessionClaims.serialize, Value.Scalar]⟩

@[simp] theorem readable_state (c : StateClaims) : Readable c.serialize := by
 obtain ⟨prov, nonce, redirect, exp⟩ := c
 cases redirect <;> exact ⟨by simp [StateClaims.serialize], by simp [StateClaims.serialize, Value.Scalar]⟩

@[simp] theorem readable_challenge (c : ChallengeClaims) : Readable c.serialize :=
 ⟨by simp [ChallengeClaims.serialize], by simp [ChallengeClaims.serialize, Value.Scalar]⟩

@[simp] theorem payloadFields_sessionToken :
  t.payloadFields secret kind (t.sessionToken secret fields) = .error ("Malformed " ++ kind ++ " token") := by
 rw [payloadFields, splitOn_sessionToken]

@[simp] theorem sessionFields_payloadToken :
  t.sessionFields secret (t.payloadToken secret fields) = .error "Malformed session token" := by
 rw [sessionFields, splitOn_payloadToken]

@[simp] theorem deserialize_session (c : SessionClaims) : SessionClaims.deserialize c.serialize = .ok c := rfl

@[simp] theorem deserialize_challenge (c : ChallengeClaims) : ChallengeClaims.deserialize c.serialize = .ok c := rfl

@[simp] theorem deserialize_state (c : StateClaims) : StateClaims.deserialize c.serialize = .ok c := by
 obtain ⟨prov, nonce, redirect, exp⟩ := c
 cases redirect <;> rfl

@[simp] theorem deserialize_challenge_state (c : StateClaims) :
  ChallengeClaims.deserialize c.serialize = .error "missing field `purpose`" := by
 obtain ⟨prov, nonce, redirect, exp⟩ := c
 cases redirect <;> rfl

@[simp] theorem deserialize_state_challenge (c : ChallengeClaims) :
  StateClaims.deserialize c.serialize = .error "missing field `prov`" := rfl

/-- A token is accepted by a verifier if and only if it is of the verifier's kind and purpose and has not expired, and
then the verifier returns what was issued. -/
theorem verify_issue_iff (t : TokenText) (secret : Option (List UInt8)) (issued now : UInt64) (issue : TokenIssue)
  (verifier : TokenVerifier) (value : TokenValue) :
  (do let token ← issue.run t secret issued; verifier.run t secret now token) = .ok value ↔
   secret.isSome ∧ issue.value issued verifier = some value ∧ now < issue.expiry issued := by
 cases secret with
 | none => cases issue <;> exact iff_of_false nofun nofun
 | some secret =>
  cases issue with
  | session pubkey uid ttl =>
   change verifier.run t (some secret) now (t.sessionToken secret _) = _ ↔ _
   cases verifier with
   | session =>
    simp [TokenVerifier.run, verifySessionToken, map_eq_ok, bind_eq_ok, TokenIssue.value, TokenIssue.expiry,
     and_comm]
   | state => simp [TokenVerifier.run, verifyStateToken, map_eq_ok, bind_eq_ok, TokenIssue.value]
   | challenge purpose => simp [TokenVerifier.run, verifyChallengeToken, map_eq_ok, bind_eq_ok, TokenIssue.value]
  | state prov nonce redirect ttl =>
   change verifier.run t (some secret) now (t.payloadToken secret _) = _ ↔ _
   cases verifier with
   | session => simp [TokenVerifier.run, verifySessionToken, map_eq_ok, bind_eq_ok, TokenIssue.value]
   | state =>
    simp [TokenVerifier.run, verifyStateToken, map_eq_ok, bind_eq_ok, TokenIssue.value, TokenIssue.expiry,
     and_comm]
   | challenge purpose => simp [TokenVerifier.run, verifyChallengeToken, map_eq_ok, bind_eq_ok, TokenIssue.value]
  | challenge purpose payload ttl =>
   change verifier.run t (some secret) now (t.payloadToken secret _) = _ ↔ _
   cases verifier with
   | session => simp [TokenVerifier.run, verifySessionToken, map_eq_ok, bind_eq_ok, TokenIssue.value]
   | state => simp [TokenVerifier.run, verifyStateToken, map_eq_ok, bind_eq_ok, TokenIssue.value]
   | challenge purpose' =>
    simp [TokenVerifier.run, verifyChallengeToken, map_eq_ok, bind_eq_ok, TokenIssue.value, TokenIssue.expiry,
     and_assoc, and_comm, and_left_comm]

def compactTokens : TokenText where
 toReader := compact
 hmac _ _ := Vector.replicate 32 0

theorem verify_issue_state :
    (do let token ← (TokenIssue.state "github" "abc123" none 600).run compactTokens (some [1]) 1000
        TokenVerifier.state.run compactTokens (some [1]) 1599 token) = .ok (.state "github" none) :=
  (verify_issue_iff compactTokens (some [1]) 1000 1599 _ _ _).mpr ⟨rfl, rfl, by decide⟩

end Separation

end Lnvps
