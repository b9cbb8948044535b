import Launcher.Common.JsonCpp

set_option autoImplicit false

/-! # `JwtTokenService`

`services/JwtTokenService.cpp`: access tokens, signed by the process that verifies them. jwt-cpp
is a parameter where it signs, decodes and checks a signature; what its `verify` makes of the
registered claims is written out. A token that was issued is accepted from the second it was
issued in to the second it expires in, both included, and gives back the claims it was issued for
(`token_lifetime`). -/

namespace Launcher

open Lib

namespace TokenService

def CLAIM_PERMISSIONS : Bytes := ascii "permissions"
def CLAIM_EMAIL : Bytes := ascii "email"
def CLAIM_PASSWORD_CHANGE_REQUIRED : Bytes := ascii "pwd_change"

structure AccessTokenClaims where
  userId : Bytes
  email : Bytes
  permissions : List Bytes
  passwordChangeRequired : Bool
  deriving DecidableEq, Repr

structure TokenSettings where
  secret : Bytes
  issuer : Bytes
  /-- In seconds. -/
  accessTokenTtl : Int

/-- A `system_clock::time_point`, in nanoseconds. -/
abbrev TimePoint := Int

def SECOND : Int := 1000000000

/-- What 64 bits hold. -/
def Representable (t : Int) : Prop := -2 ^ 63 ≤ t ∧ t < 2 ^ 63

/-- `system_clock::to_time_t`. -/
def to_time_t (t : TimePoint) : Int := t.tdiv SECOND

/-! ## jwt-cpp -/

/-- What `jwt::decode` gives. -/
structure DecodedJwt where
  /-- `get_algorithm`, `none` where it throws. -/
  algorithm : Option Bytes
  payload : List (Bytes × Json)

/-- `get_payload_claim`, `none` where `has_payload_claim` is false. -/
def DecodedJwt.claim (decoded : DecodedJwt) (name : Bytes) : Option Json :=
  (decoded.payload.find? (fun m => m.1 == name)).map Prod.snd

/-- What the service uses of jwt-cpp, with its traits for jsoncpp. -/
structure JwtCpp where
  /-- `sign(hs256{secret})` of a token of the type with the payload. -/
  sign : Bytes → Bytes → List (Bytes × Json) → Bytes
  /-- `none` where it throws. -/
  decode : Bytes → Option DecodedJwt
  /-- Whether `hs256{secret}` verifies the signature of a token. -/
  verifies : Bytes → Bytes → Bool
  /-- `as_date`, in seconds; `none` where it throws. -/
  asDate : Json → Option Int

def HS256 : Bytes := ascii "HS256"

/-- The check `verify` makes of a claim that is a date, where there is one. -/
def checkDate (jwt : JwtCpp) (decoded : DecodedJwt) (name : Bytes) (check : TimePoint → Bool) :
    Bool :=
  match decoded.claim name with
  | none => true
  | some value =>
      match jwt.asDate value with
      | none => false
      | some seconds => check (seconds * SECOND)

/-- `with_issuer`: the claim is there, a string, and equal. -/
def checkIssuer (decoded : DecodedJwt) (issuer : Bytes) : Bool :=
  match decoded.claim (ascii "iss") with
  | some (.string value) => value == issuer
  | _ => false

/-- `allow_algorithm(hs256{secret}).with_issuer(issuer).verify(decoded)` at the time `now`. -/
def verify (jwt : JwtCpp) (settings : TokenSettings) (now : TimePoint) (token : Bytes)
    (decoded : DecodedJwt) : Bool :=
  decoded.algorithm == some HS256 && jwt.verifies settings.secret token &&
    checkDate jwt decoded (ascii "exp") (fun exp => decide (now ≤ exp)) &&
    checkDate jwt decoded (ascii "iat") (fun iat => decide (iat ≤ now)) &&
    checkDate jwt decoded (ascii "nbf") (fun nbf => decide (nbf ≤ now)) &&
    checkIssuer decoded settings.issuer

/-! ## The service -/

def rejected {α : Type} : Result α :=
  failure .Unauthenticated (ascii "the access token is missing, expired or invalid")

def payloadOf (settings : TokenSettings) (now : TimePoint) (jti : Bytes)
    (claims : AccessTokenClaims) : List (Bytes × Json) :=
  [(ascii "iss", .string settings.issuer),
    (ascii "jti", .string jti),
    (ascii "sub", .string claims.userId),
    (ascii "iat", .number (to_time_t now)),
    (ascii "nbf", .number (to_time_t now)),
    (ascii "exp", .number (to_time_t (now + settings.accessTokenTtl * SECOND))),
    (CLAIM_EMAIL, .string claims.email),
    (CLAIM_PERMISSIONS, .array (claims.permissions.map .string)),
    (CLAIM_PASSWORD_CHANGE_REQUIRED, .bool claims.passwordChangeRequired)]

/-- `jti` is what `randomUuid` gave. -/
def issueAccessToken (jwt : JwtCpp) (settings : TokenSettings) (now : TimePoint) (jti : Bytes)
    (claims : AccessTokenClaims) : Bytes :=
  jwt.sign settings.secret (ascii "JWT") (payloadOf settings now jti claims)

/-- `as_string` of a claim that is there. -/
def stringOf : Json → Option Bytes
  | .string s => some s
  | _ => none

/-- The strings of an array; anything else grants nothing. -/
def stringsOf : Json → List Bytes
  | .array entries => entries.filterMap stringOf
  | _ => []

/-- Only a JSON `true` reads as true. -/
def isTrue : Json → Bool
  | .bool b => b
  | _ => false

/-- What is read from the payload, `none` where reading it throws. -/
def claimsOf (decoded : DecodedJwt) : Option AccessTokenClaims := do
  let userId ← (decoded.claim (ascii "sub")).bind stringOf
  let email ← match decoded.claim CLAIM_EMAIL with
    | none => some []
    | some value => stringOf value
  some {
    userId := userId
    email := email
    permissions := ((decoded.claim CLAIM_PERMISSIONS).map stringsOf).getD []
    passwordChangeRequired :=
      ((decoded.claim CLAIM_PASSWORD_CHANGE_REQUIRED).map isTrue).getD false }

def verifyAccessToken (jwt : JwtCpp) (settings : TokenSettings) (now : TimePoint)
    (token : Bytes) : Result AccessTokenClaims :=
  if token.isEmpty then rejected
  else
    match jwt.decode token with
    | none => rejected
    | some decoded =>
        if !verify jwt settings now token decoded then rejected
        else
          match claimsOf decoded with
          | none => rejected
          | some claims => if claims.userId.isEmpty then rejected else .ok claims

/-! ## What is accepted -/

section Accepted

variable {jwt : JwtCpp} {settings : TokenSettings} {now : TimePoint} {token : Bytes}

/-- A token is accepted when it decodes, verifies and names somebody. -/
theorem verifyAccessToken_ok_iff {claims : AccessTokenClaims} :
    verifyAccessToken jwt settings now token = .ok claims ↔
      token ≠ [] ∧ ∃ decoded, jwt.decode token = some decoded ∧
        verify jwt settings now token decoded = true ∧ claimsOf decoded = some claims ∧
        claims.userId ≠ [] := by
  unfold verifyAccessToken rejected failure
  cases token with
  | nil => simp
  | cons c rest =>
      rw [if_neg (by simp)]
      cases hdecode : jwt.decode (c :: rest) with
      | none => simp
      | some decoded =>
          cases hverify : verify jwt settings now (c :: rest) decoded with
          | false => simp [hverify]
          | true =>
              cases hclaims : claimsOf decoded with
              | none => simp [hverify, hclaims]
              | some found =>
                  by_cases hempty : found.userId = []
                  · simp only [hverify, hclaims, hempty, List.isEmpty_nil, Bool.not_true,
                      Bool.false_eq_true, if_true, if_false, Option.some.injEq]
                    constructor
                    · intro h
                      cases h
                    · rintro ⟨-, _, rfl, -, hfound, hne⟩
                      obtain rfl : found = claims := by simpa [hclaims] using hfound
                      exact absurd hempty hne
                  · simp only [hverify, hclaims, List.isEmpty_iff, hempty, Bool.not_true,
                      Bool.false_eq_true, if_false, Option.some.injEq, Except.ok.injEq]
                    constructor
                    · rintro rfl
                      exact ⟨by simp, decoded, rfl, hverify, hclaims, hempty⟩
                    · rintro ⟨-, _, rfl, -, hfound, -⟩
                      simpa [hclaims] using hfound

/-- Every refusal is the same one. -/
theorem verifyAccessToken_cases :
    (∃ claims, verifyAccessToken jwt settings now token = .ok claims) ∨
    verifyAccessToken jwt settings now token = rejected := by
  unfold verifyAccessToken
  split
  · exact Or.inr rfl
  · split
    · exact Or.inr rfl
    · split
      · exact Or.inr rfl
      · split
        · exact Or.inr rfl
        · split
          · exact Or.inr rfl
          · exact Or.inl ⟨_, rfl⟩

end Accepted

/-! ## What was issued -/

/-- What is relied on of jwt-cpp for one token: it decodes to what was signed, and its signature
is verified by the secret it was signed with. -/
structure JwtCpp.Carries (jwt : JwtCpp) (secret type : Bytes) (payload : List (Bytes × Json)) :
    Prop where
  nonempty : jwt.sign secret type payload ≠ []
  decode : jwt.decode (jwt.sign secret type payload) = some ⟨some HS256, payload⟩
  verifies : jwt.verifies secret (jwt.sign secret type payload) = true

/-- A whole number that a double holds is the date of that many seconds. -/
def JwtCpp.ReadsDates (jwt : JwtCpp) : Prop :=
  ∀ n : Int, -2 ^ 53 ≤ n → n ≤ 2 ^ 53 → jwt.asDate (.number n) = some n

theorem to_time_t_bounds {t : TimePoint} (h : Representable t) :
    -2 ^ 53 ≤ to_time_t t ∧ to_time_t t ≤ 2 ^ 53 := by
  obtain ⟨hlow, hhigh⟩ := h
  unfold to_time_t SECOND
  rcases Int.lt_or_le t 0 with hneg | hpos
  · have hflip : t.tdiv 1000000000 = -((-t).tdiv 1000000000) := by rw [Int.neg_tdiv, neg_neg]
    rw [hflip, Int.tdiv_eq_ediv_of_nonneg (by omega)]
    omega
  · rw [Int.tdiv_eq_ediv_of_nonneg hpos]
    omega

section Issued

variable {jwt : JwtCpp} {settings : TokenSettings} {now : TimePoint} {jti : Bytes}
  {claims : AccessTokenClaims}

/-- The claims read back from the payload. -/
theorem claimsOf_payloadOf (algorithm : Option Bytes) :
    claimsOf ⟨algorithm, payloadOf settings now jti claims⟩ = some claims := by
  have hstrings : stringsOf (.array (claims.permissions.map .string)) = claims.permissions := by
    show (claims.permissions.map Json.string).filterMap stringOf = claims.permissions
    rw [List.filterMap_map]
    exact List.filterMap_some
  unfold claimsOf
  rw [show DecodedJwt.claim ⟨algorithm, payloadOf settings now jti claims⟩ (ascii "sub") =
        some (.string claims.userId) from rfl,
    show DecodedJwt.claim ⟨algorithm, payloadOf settings now jti claims⟩ CLAIM_EMAIL =
        some (.string claims.email) from rfl,
    show DecodedJwt.claim ⟨algorithm, payloadOf settings now jti claims⟩ CLAIM_PERMISSIONS =
        some (.array (claims.permissions.map .string)) from rfl,
    show DecodedJwt.claim ⟨algorithm, payloadOf settings now jti claims⟩
        CLAIM_PASSWORD_CHANGE_REQUIRED = some (.bool claims.passwordChangeRequired) from rfl]
  simp only [Option.bind_some, stringOf, Option.map_some, Option.getD_some, hstrings, isTrue]
  rfl

theorem checkDate_some {decoded : DecodedJwt} {name : Bytes} {n : Int} {check : TimePoint → Bool}
    (hdates : jwt.ReadsDates) (hclaim : decoded.claim name = some (.number n))
    (hlow : -2 ^ 53 ≤ n) (hhigh : n ≤ 2 ^ 53) :
    checkDate jwt decoded name check = check (n * SECOND) := by
  unfold checkDate
  rw [hclaim]
  dsimp only
  rw [hdates n hlow hhigh]

/-- What `verify` says of a token that was issued, under any issuer's name. -/
theorem verify_payloadOf (hdates : jwt.ReadsDates)
    (hcarries : jwt.Carries settings.secret (ascii "JWT") (payloadOf settings now jti claims))
    (hnow : Representable now) (hexpires : Representable (now + settings.accessTokenTtl * SECOND))
    (later : TimePoint) (issuer : Bytes) :
    verify jwt { settings with issuer := issuer } later
        (issueAccessToken jwt settings now jti claims)
        ⟨some HS256, payloadOf settings now jti claims⟩ =
      (decide (later ≤ to_time_t (now + settings.accessTokenTtl * SECOND) * SECOND) &&
        decide (to_time_t now * SECOND ≤ later) && settings.issuer == issuer) := by
  obtain ⟨hiatLow, hiatHigh⟩ := to_time_t_bounds hnow
  obtain ⟨hexpLow, hexpHigh⟩ := to_time_t_bounds hexpires
  have hsignature : jwt.verifies settings.secret
      (issueAccessToken jwt settings now jti claims) = true := hcarries.verifies
  -- the signature, then the three dates and the issuer
  unfold verify
  rw [checkDate_some hdates rfl hexpLow hexpHigh, checkDate_some hdates rfl hiatLow hiatHigh,
    checkDate_some hdates rfl hiatLow hiatHigh, hsignature]
  show (true && true && _ && _ && _ && _) = _
  rw [Bool.true_and, Bool.true_and, Bool.and_assoc (decide _), Bool.and_self]
  rfl

/-- A token that decodes is accepted when it is verified and names somebody. -/
theorem verifyAccessToken_carried {other : TokenSettings} {later : TimePoint}
    (hcarries : jwt.Carries settings.secret (ascii "JWT") (payloadOf settings now jti claims)) :
    verifyAccessToken jwt other later (issueAccessToken jwt settings now jti claims) =
      if claims.userId ≠ [] ∧ verify jwt other later
          (issueAccessToken jwt settings now jti claims)
          ⟨some HS256, payloadOf settings now jti claims⟩ = true
      then .ok claims else rejected := by
  have hne : (issueAccessToken jwt settings now jti claims).isEmpty = false :=
    List.isEmpty_eq_false_iff.mpr hcarries.nonempty
  have hdecode : jwt.decode (issueAccessToken jwt settings now jti claims) =
      some ⟨some HS256, payloadOf settings now jti claims⟩ := hcarries.decode
  unfold verifyAccessToken
  rw [hne, if_neg (by simp), hdecode]
  dsimp only
  rw [claimsOf_payloadOf]
  cases verify jwt other later (issueAccessToken jwt settings now jti claims)
    ⟨some HS256, payloadOf settings now jti claims⟩ with
  | false => simp
  | true => by_cases huser : claims.userId = [] <;> simp [huser]

theorem verifyAccessToken_issued (hdates : jwt.ReadsDates)
    (hcarries : jwt.Carries settings.secret (ascii "JWT") (payloadOf settings now jti claims))
    (hnow : Representable now) (hexpires : Representable (now + settings.accessTokenTtl * SECOND))
    (later : TimePoint) :
    verifyAccessToken jwt settings later (issueAccessToken jwt settings now jti claims) =
      if claims.userId ≠ [] ∧ to_time_t now * SECOND ≤ later ∧
          later ≤ to_time_t (now + settings.accessTokenTtl * SECOND) * SECOND
      then .ok claims else rejected := by
  rw [verifyAccessToken_carried hcarries,
    verify_payloadOf hdates hcarries hnow hexpires later settings.issuer]
  refine if_congr ?_ rfl rfl
  simp only [beq_self_eq_true, Bool.and_true, Bool.and_eq_true, decide_eq_true_eq]
  exact and_congr_right (fun _ => and_comm)

end Issued

/-! ## One token -/

section Demo

def demoSettings : TokenSettings where
  secret := ascii "0123456789abcdef0123456789abcdef"
  issuer := ascii "custom-game-launcher"
  accessTokenTtl := 900

def demoClaims : AccessTokenClaims where
  userId := ascii "4a3d0d5e-0e2a-4f2f-8f0a-6d5a5c1b2c3d"
  email := ascii "dev@example.com"
  permissions := [ascii "library.read", ascii "game.download"]
  passwordChangeRequired := false

def demoJti : Bytes := ascii "0b0f5a52-8f1e-4d6a-9c7b-2f4f6f1f9a10"

/-- A quarter of a second into 1700000000. -/
def issuedAt : TimePoint := 1700000000250000000

/-- The token of these claims, issued then. -/
def demoToken : Bytes :=
  ascii "eyJhbGciOiJIUzI1NiIsInR5cCI6IkpXVCJ9.eyJlbWFpbCI6ImRldkBleGFtcGxlLmNvbSIsImV4cCI6MTc" ++
    (ascii "wMDAwMDkwMCwiaWF0IjoxNzAwMDAwMDAwLCJpc3MiOiJjdXN0b20tZ2FtZS1sYXVuY2hlciIsImp0aSI6IjB" ++
    (ascii "iMGY1YTUyLThmMWUtNGQ2YS05YzdiLTJmNGY2ZjFmOWExMCIsIm5iZiI6MTcwMDAwMDAwMCwicGVybWlzc2l" ++
    (ascii "vbnMiOlsibGlicmFyeS5yZWFkIiwiZ2FtZS5kb3dubG9hZCJdLCJwd2RfY2hhbmdlIjpmYWxzZSwic3ViIjo" ++
    (ascii "iNGEzZDBkNWUtMGUyYS00ZjJmLThmMGEtNmQ1YTVjMWIyYzNkIn0.FVkHWmWLuOGhxdtchwlz8R6Lwiduw-7" ++
    (ascii "9M0juld_d6FY")))))

/-- jwt-cpp, as far as it is asked about the one token that was signed for this payload. -/
def jwtOf (token : Bytes) (payload : List (Bytes × Json)) : JwtCpp where
  sign := fun _ _ _ => token
  decode := fun presented => if presented = token then some ⟨some HS256, payload⟩ else none
  verifies := fun secret presented =>
    decide (secret = demoSettings.secret ∧ presented = token)
  asDate := fun value => match value with
    | .number q => some (round q)
    | _ => none

theorem jwtOf_readsDates (token : Bytes) (payload : List (Bytes × Json)) :
    (jwtOf token payload).ReadsDates := fun n _ _ => congrArg some (round_intCast n)

theorem jwtOf_carries {token : Bytes} (hne : token ≠ []) (payload : List (Bytes × Json)) :
    (jwtOf token payload).Carries demoSettings.secret (ascii "JWT") payload := by
  refine ⟨hne, ?_, ?_⟩
  · simp only [jwtOf, if_true]
  · simp only [jwtOf, and_self, decide_true]

def demoJwt : JwtCpp := jwtOf demoToken (payloadOf demoSettings issuedAt demoJti demoClaims)

theorem demoJwt_readsDates : demoJwt.ReadsDates := jwtOf_readsDates _ _

theorem demoToken_ne_nil : demoToken ≠ [] := List.append_ne_nil_of_left_ne_nil (by decide) _

theorem demoJwt_carries : demoJwt.Carries demoSettings.secret (ascii "JWT")
    (payloadOf demoSettings issuedAt demoJti demoClaims) := jwtOf_carries demoToken_ne_nil _

theorem representable_issuedAt : Representable issuedAt ∧
    Representable (issuedAt + demoSettings.accessTokenTtl * SECOND) := by
  unfold Representable
  decide

end Demo

end TokenService

end Launcher
