import WithdrawApi.Auth.Login
import WithdrawApi.Pipeline.Isolation
import WithdrawApi.Pipeline.Requests

/-!
# The balance inquiry, after a withdrawal and after a login

`GET /api/v1/inquiries/balance` as `registerInquiryRoutes` builds it: the JWT middleware of the protected group, then
`InquiryCheckBalanceHandler.Handle` on `InquiryCheckBalanceService.CheckBalance` on
`InquiryCheckBalanceRepository.GetWalletBalanceByUserID`, which reads the committed wallet of the user.

- `inquiry_after_withdraw`: once the withdraw route answers a request of principal `p` with `200` and the withdrawal,
  `p`'s balance inquiry answers `200` with the balance, currency and time that withdrawal reported, and goes on doing
  so whatever requests of principals separate from `p` the withdraw route serves next.
- `login_then_inquiry`: a token a login issues, presented as a bearer token, makes the inquiry read the wallet of the
  user the login found, when the token manager's `Verify` returns the subject its `Sign` was given.
- `separate_uuidText_iff`: the subjects logins issue, `uuid::text` of a user, meet the side condition of
  `serveAll_isolation` for every pair of different users.
-/

namespace WithdrawApi

/-! ## The inquiry -/

/-- The errors of `CheckBalance`. -/
inductive InquiryError
  /-- `user_id is required` -/
  | userIDRequired
  /-- `repository: invalid user_id: %w` -/
  | invalidUserID
  /-- `vo.ErrWalletNotFound` -/
  | walletNotFound
  /-- `repository: get wallet balance by user_id failed: %w` -/
  | queryFailed
deriving DecidableEq

/-- `GetWalletBalanceByUserID :one`: `user_id::text` (kept as the UUID), `balance_minor`, `currency` and `updated_at`
of the committed wallet of the user. -/
def getWalletBalanceByUserIDQuery (db : Db) (u : Uuid) : Option WalletBalance :=
  (db.walletOf u).map fun w => ⟨w.userID, w.balanceMinor, w.currency, w.updatedAt⟩

/-- `InquiryCheckBalanceRepository.GetWalletBalanceByUserID`; `fails` says whether the query fails. -/
def getWalletBalanceByUserID (fails : Bool) (db : Db) (userID : String) : Except InquiryError WalletBalance :=
  match uuidParse userID with
  | none => .error .invalidUserID
  | some u =>
    if fails then .error .queryFailed
    else match getWalletBalanceByUserIDQuery db u with
      | none => .error .walletNotFound
      | some b => .ok b

/-- `InquiryCheckBalanceService.CheckBalance`; `vo.BalanceInquiry` has the fields of `WalletBalance`. -/
def checkBalance (fails : Bool) (db : Db) (userID : String) : Except InquiryError WalletBalance :=
  if trimSpace userID = "" then .error .userIDRequired
  else getWalletBalanceByUserID fails db userID

/-- `InquiryCheckBalanceHandler.Handle`: the status and the JSON body, an error message or the balance. -/
def inquiryCheckBalanceHandle (fails : Bool) (userID : Option String) (db : Db) : Int × Except String WalletBalance :=
  match userID with
  | none => (401, .error "missing authenticated user")
  | some u =>
    if u = "" then (401, .error "missing authenticated user")
    else match checkBalance fails db u with
      | .ok b => (200, .ok b)
      | .error .walletNotFound => (404, .error "wallet not found")
      | .error _ => (500, .error "internal server error")

/-- `GET /api/v1/inquiries/balance`: the JWT middleware's answer, or the handler's. -/
def registerInquiryRoutes (verify : String → Option String) (fails : Bool) (db : Db) (req : HttpRequest) :
    Except Response (Int × Except String WalletBalance) :=
  match newHTTPJWTMiddleware verify req with
  | .error r => .error r
  | .ok userID => .ok (inquiryCheckBalanceHandle fails userID db)

/-- The inquiry of principal `p` reads the wallets only through the wallet of the user `p` names. -/
theorem inquiryCheckBalanceHandle_local (fails : Bool) {p : String} {db₁ db₂ : Db}
    (h : (uuidParse p).bind db₁.walletOf = (uuidParse p).bind db₂.walletOf) :
    inquiryCheckBalanceHandle fails (some p) db₁ = inquiryCheckBalanceHandle fails (some p) db₂ := by
  simp only [inquiryCheckBalanceHandle, checkBalance, getWalletBalanceByUserID, getWalletBalanceByUserIDQuery]
  cases hp : uuidParse p with
  | none => rfl
  | some u =>
    rw [hp, Option.some_bind, Option.some_bind] at h
    dsimp only
    rw [h]

/-- The inquiry of a principal that names a user, when the query does not fail: the user's wallet, or `404`. -/
theorem inquiryCheckBalanceHandle_of_uuidParse {p : String} {db : Db} {uid : Uuid} (hts : trimSpace p ≠ "")
    (hp : uuidParse p = some uid) :
    inquiryCheckBalanceHandle false (some p) db =
      match db.walletOf uid with
      | some x => (200, .ok ⟨x.userID, x.balanceMinor, x.currency, x.updatedAt⟩)
      | none => (404, .error "wallet not found") := by
  have hne : p ≠ "" := by rintro rfl; exact hts rfl
  simp only [inquiryCheckBalanceHandle, checkBalance, getWalletBalanceByUserID, getWalletBalanceByUserIDQuery, hne,
    hts, hp, if_false, Bool.false_eq_true]
  cases db.walletOf uid <;> rfl

/-! ## After a withdrawal -/

section AfterWithdraw

variable {parse : String → Option Uuid} {f : Faults} {now : Nat} {db db' : Db} {u : String} {a : Int64} {c : String}
  {w : WalletWithdrawal}

/-- A withdrawal that `WithdrawBalance` reports leaves the user's wallet with the balance, currency and time it
reports. -/
theorem withdrawBalance_ok_walletOf (h : withdrawBalance parse f now db u a c = (.ok w, db')) :
    trimSpace u ≠ "" ∧ ∃ uid x, parse u = some uid ∧ db'.walletOf uid = some x ∧
      (⟨x.userID, x.balanceMinor, x.currency, x.updatedAt⟩ : WalletBalance) =
        ⟨w.userID, w.balanceMinor, w.currency, w.updatedAt⟩ := by
  rw [withdrawBalance_eq] at h
  split_ifs at h with hu ha
  · cases h
  · cases h
  obtain ⟨r, d, hr⟩ : ∃ r d, withdrawWalletBalanceByUserID parse f now db u a c = (r, d) := ⟨_, _, rfl⟩
  rw [hr] at h
  rcases r with _ | b
  · cases h
  simp only [Except.map, Prod.mk.injEq, Except.ok.injEq] at h
  obtain ⟨rfl, rfl⟩ := h
  obtain ⟨uid, wr, e, hp, -, hq, -, rfl, rfl⟩ := withdraw_of_ok hr
  obtain ⟨x, hx, hd⟩ := query_eq_row hq
  obtain ⟨hwr, -, -⟩ := Wallet.debit_eq_some hd
  refine ⟨hu, uid, _, hp, by rw [Db.walletOf_commit, hx]; rfl, ?_⟩
  rw [hwr]
  simp [Wallet.commitRow]

/-- The handler reports a withdrawal only as the service's result for the principal and the decoded amount. -/
theorem withdrawHandle_withdrawal {parseBody : List UInt8 → Option Int64} {userID : Option String} {req : HttpRequest}
    (h : (withdrawHandle parseBody f now userID req db).1.body = .withdrawal w) :
    ∃ u a, userID = some u ∧ parseBody req.body = some a ∧
      withdrawBalance uuidParse f now db u a req.chainID = (.ok w, (withdrawHandle parseBody f now userID req db).2) := by
  revert h
  rcases userID with _ | u
  · exact fun h => nomatch h
  simp only [withdrawHandle]
  split_ifs
  · exact fun h => nomatch h
  rcases parseBody req.body with _ | a
  · exact fun h => nomatch h
  dsimp only
  rcases hw : withdrawBalance uuidParse f now db u a req.chainID with ⟨e | w', d⟩
  · cases e <;> exact fun h => nomatch h
  · rintro ⟨⟩
    exact ⟨u, a, rfl, rfl, hw⟩

end AfterWithdraw

/-- The JWT middleware answers with an error message only. -/
theorem newHTTPJWTMiddleware_error_body {verify : String → Option String} {req : HttpRequest} {r : Response}
    (h : newHTTPJWTMiddleware verify req = .error r) : ∃ msg, r.body = .error msg := by
  simp only [newHTTPJWTMiddleware] at h
  split_ifs at h
  split at h
  all_goals (try split_ifs at h) <;> (try split at h) <;> cases h <;> exact ⟨_, rfl⟩

/-- The rate-limit middleware answers with an error or with the time to wait. -/
theorem newHTTPRateLimitMiddleware_error_body {σ : Type} {allowKey : String → σ → Except Unit RateResult × σ}
    {userID : Option String} {req : HttpRequest} {lim lim' : σ} {r : Response}
    (h : newHTTPRateLimitMiddleware allowKey userID req lim = (.error r, lim')) : ∀ w, r.body ≠ .withdrawal w := by
  rcases hr : allowKey (perUserKeyExtractor "withdraw" userID req.ip) lim with ⟨_ | r', l⟩ <;>
    simp only [newHTTPRateLimitMiddleware, hr] at h
  · cases h; exact fun _ => nofun
  · by_cases ha : r'.allowed <;> simp only [ha, not_true_eq_false, not_false_eq_true, if_true, if_false] at h <;>
      cases h
    exact fun _ => nofun

/-- The idempotency middleware reports a withdrawal only as the answer of `next`, which it ran, and whose wallets it
keeps. -/
theorem idempotency_withdrawal {sha256 : List UInt8 → Digest} {encode : Body → List UInt8} {f : RequestFaults}
    {now : Nat} {next : Db → Response × Db} {userID : Option String} {req : HttpRequest} {table : Table} {db : Db}
    {w : WalletWithdrawal}
    (h : (newHTTPWithdrawIdempotencyMiddleware sha256 encode f now next userID req table db).1.body = .withdrawal w) :
    (next db).1.body = .withdrawal w ∧
      (newHTTPWithdrawIdempotencyMiddleware sha256 encode f now next userID req table db).2.2 = (next db).2 := by
  revert h
  rcases userID with _ | u
  · exact fun h => nomatch h
  unfold newHTTPWithdrawIdempotencyMiddleware
  dsimp only
  split_ifs
  · exact fun h => nomatch h
  · exact fun h => nomatch h
  rcases acquire f.acquire now table (withdrawIdempotencyRequest sha256 u req) with ⟨_ | ⟨type, _, _, _⟩, t⟩
  · exact fun h => nomatch h
  cases type with
  | replay | inProgress | conflict => exact fun h => nomatch h
  | acquired =>
    dsimp only
    rcases complete f.complete now t (withdrawIdempotencyRequest sha256 u req)
      ⟨(next db).1.status, encode (next db).1.body, (next db).1.contentType⟩ with ⟨_ | _, _⟩
    · exact fun h => nomatch h
    · exact fun h => ⟨h, rfl⟩

/-- **The route reports a withdrawal only when its handler ran for the principal and `WithdrawBalance` succeeded**,
on the wallets the route leaves. -/
theorem registerWithdrawRoutes_withdrawal {σ : Type} {verify : String → Option String}
    {allowKey : String → σ → Except Unit RateResult × σ} {sha256 : List UInt8 → Digest} {encode : Body → List UInt8}
    {parseBody : List UInt8 → Option Int64} {f : RequestFaults} {now : Nat} {s : RouteState σ} {req : HttpRequest}
    {w : WalletWithdrawal}
    (h : (registerWithdrawRoutes verify allowKey sha256 encode parseBody f now s req).1.body = .withdrawal w) :
    ∃ u a, newHTTPJWTMiddleware verify req = .ok (some u) ∧ parseBody req.body = some a ∧
      withdrawBalance uuidParse f.withdraw now s.db u a req.chainID =
        (.ok w, (registerWithdrawRoutes verify allowKey sha256 encode parseBody f now s req).2.db) := by
  revert h
  rcases hj : newHTTPJWTMiddleware verify req with r | userID
  · obtain ⟨msg, hm⟩ := newHTTPJWTMiddleware_error_body hj
    simp only [registerWithdrawRoutes, hj, hm]
    exact fun h => nomatch h
  rcases hl : newHTTPRateLimitMiddleware allowKey userID req s.limiter with ⟨_ | ⟨⟩, lim⟩
  · simp only [registerWithdrawRoutes, hj, hl]
    exact fun h => absurd h (newHTTPRateLimitMiddleware_error_body hl w)
  rw [registerWithdrawRoutes_of_allowed hj hl]
  intro h
  obtain ⟨h₁, h₂⟩ := idempotency_withdrawal h
  obtain ⟨u, a, rfl, ha, hw⟩ := withdrawHandle_withdrawal h₁
  exact ⟨u, a, rfl, ha, hw.trans (by rw [← h₂])⟩

/-! ## Reading a withdrawal back -/

section AfterRun

variable (verify : String → Option String) (sha256 : List UInt8 → Digest) (encode : Body → List UInt8)
  (parseBody : List UInt8 → Option Int64) (l : RateLimit.Limiter)

/-- **A withdrawal is read back.** Once the withdraw route answers a request of principal `p` with the withdrawal
`w`, every balance inquiry of `p` answers `200` with the balance, currency and time `w` reports, after any run of
requests of principals separate from `p` that the withdraw route serves next. -/
theorem inquiry_after_withdraw {p : String} (hp : p ≠ "") {s : RouteState RateLimit.Db} {a : Arrival}
    (hj : subjectOf verify a.req = some p) {w : WalletWithdrawal}
    (hw : (registerWithdrawRoutes verify (withdrawAllowKey l a.nowMs a.rnd) sha256 encode parseBody a.faults a.now s
      a.req).1.body = .withdrawal w)
    {as : List Arrival} (hsep : ∀ b ∈ as, ∀ q, subjectOf verify b.req = some q → Separate p q)
    {req : HttpRequest} (hi : subjectOf verify req = some p) :
    registerInquiryRoutes verify false (serveAll verify sha256 encode parseBody l s (a :: as)).2.db req =
      .ok (200, .ok ⟨w.userID, w.balanceMinor, w.currency, w.updatedAt⟩) := by
  obtain ⟨u, amt, hu, -, hb⟩ := registerWithdrawRoutes_withdrawal hw
  cases (subjectOf_eq_some hj).symm.trans hu
  obtain ⟨hts, uid, x, hpu, hx, hwx⟩ := withdrawBalance_ok_walletOf hb
  have hv := congrArg View.wallet (serveAll_frame verify sha256 encode parseBody l hp hsep
    (registerWithdrawRoutes verify (withdrawAllowKey l a.nowMs a.rnd) sha256 encode parseBody a.faults a.now s a.req).2)
  rw [registerInquiryRoutes, subjectOf_eq_some hi]
  dsimp only [serveAll]
  rw [inquiryCheckBalanceHandle_local false hv, inquiryCheckBalanceHandle_of_uuidParse hts hpu, hx]
  dsimp only
  rw [hwx]

end AfterRun

/-- The samples' token manager: it signs the seed user only, as `token-1`, and reads `token-2` as `user-2`. -/
def sampleTokenSign (subject : String) : Except String String :=
  if subject = seedUser then .ok "token-1" else .error "jwt: failed to sign token"

def sampleTokenVerify (token : String) : Option String :=
  if token = "token-1" then some seedUser else if token = "token-2" then some "user-2" else none

/-- The withdraw limiter on a fixed window of one minute. -/
def fixedLimiter : RateLimit.Limiter :=
  ⟨⟨RateLimit.algorithmFixedWindow, 20, 60 * 10 ^ 9, 20⟩, by decide, by decide, by decide⟩

/-- The seed user's balance inquiry. -/
def sampleInquiry : HttpRequest := ⟨"GET", "/api/v1/inquiries/balance", "Bearer token-1", "", "10.0.0.1", "", []⟩

/-- The seed user withdraws 100, `user-2` sends a withdrawal next, and the seed user's inquiry reads the balance the
withdrawal reported. -/
theorem sample_inquiry_after_withdraw :
    seedUser ≠ "" ∧ subjectOf sampleTokenVerify sampleWithdrawal = some seedUser ∧
    (registerWithdrawRoutes sampleTokenVerify (withdrawAllowKey fixedLimiter 0 "") lengthDigest (fun _ => []) amount100
      {} 0 sampleRoute sampleWithdrawal).1.body =
        .withdrawal ⟨seedWallet.userID, ⟨100, by decide, by decide⟩, ⟨999900, by decide, by decide⟩, "IDR", "chain-1", 0⟩ ∧
    (∀ b ∈ [⟨{ sampleWithdrawal with authorization := "Bearer token-2" }, 1, 1, "", {}⟩], ∀ q,
      subjectOf sampleTokenVerify (b : Arrival).req = some q → Separate seedUser q) ∧
    subjectOf sampleTokenVerify sampleInquiry = some seedUser ∧
    registerInquiryRoutes sampleTokenVerify false (serveAll sampleTokenVerify lengthDigest (fun _ => []) amount100
      fixedLimiter sampleRoute [⟨sampleWithdrawal, 0, 0, "", {}⟩,
        ⟨{ sampleWithdrawal with authorization := "Bearer token-2" }, 1, 1, "", {}⟩]).2.db sampleInquiry =
      .ok (200, .ok ⟨seedWallet.userID, ⟨999900, by decide, by decide⟩, "IDR", 0⟩) := by
  have hsep : ∀ b ∈ [(⟨{ sampleWithdrawal with authorization := "Bearer token-2" }, 1, 1, "", {}⟩ : Arrival)], ∀ q,
      subjectOf sampleTokenVerify b.req = some q → Separate seedUser q := by
    intro b hb q hq
    rw [List.mem_singleton] at hb
    subst hb
    obtain rfl : q = "user-2" := Option.some.inj (hq.symm.trans (by decide))
    exact ⟨by decide, fun uid _ => by rw [show uuidParse "user-2" = none from rfl]; exact nofun⟩
  have hw : (registerWithdrawRoutes sampleTokenVerify (withdrawAllowKey fixedLimiter 0 "") lengthDigest (fun _ => [])
      amount100 {} 0 sampleRoute sampleWithdrawal).1.body =
        .withdrawal ⟨seedWallet.userID, ⟨100, by decide, by decide⟩, ⟨999900, by decide, by decide⟩, "IDR", "chain-1", 0⟩ :=
    rfl
  exact ⟨by decide, by decide, hw, hsep, by decide, inquiry_after_withdraw sampleTokenVerify lengthDigest (fun _ => [])
    amount100 fixedLimiter (s := sampleRoute) (a := ⟨sampleWithdrawal, 0, 0, "", {}⟩) (by decide) (by decide) hw hsep
    (by decide)⟩

/-! ## After a login -/

/-- What the token manager is taken to do, as `golang-jwt` does with one HMAC secret before a token expires: a token
`Sign` issues is a compact JWT, not empty and without blanks, and `Verify` gives back the subject `Sign` was given. -/
def TokensVerify (sign : String → Except String String) (verify : String → Option String) : Prop :=
  ∀ subject token, sign subject = .ok token →
    token ≠ "" ∧ (∀ c ∈ token.data, isSpace c = false) ∧ verify token = some subject

theorem trimSpace_bearer {token : String} (hne : token ≠ "") (hs : ∀ c ∈ token.data, isSpace c = false) :
    trimSpace ("Bearer " ++ token) = "Bearer " ++ token := by
  obtain ⟨l⟩ := token
  have hl : l.reverse ≠ [] := fun h => hne (by rw [List.reverse_eq_nil_iff.1 h])
  show String.mk ((((['B', 'e', 'a', 'r', 'e', 'r', ' '] ++ l).dropWhile isSpace).reverse.dropWhile isSpace).reverse) =
    String.mk (['B', 'e', 'a', 'r', 'e', 'r', ' '] ++ l)
  rw [List.cons_append, List.dropWhile_cons_of_neg (by decide), ← List.cons_append, List.reverse_append,
    dropWhile_isSpace_self, List.reverse_append, List.reverse_reverse, List.reverse_reverse]
  intro c hc
  rw [List.head?_append_of_ne_nil _ hl] at hc
  exact hs c (List.mem_reverse.1 (List.mem_of_mem_head? hc))

/-- Off the login route, a `Bearer` token without blanks passes the JWT middleware as the subject `Verify` reads. -/
theorem newHTTPJWTMiddleware_bearer {verify : String → Option String} {req : HttpRequest} {token subject : String}
    (hr : ¬(req.method = "POST" ∧ "/auth/login".data <:+: req.path.data)) (ha : req.authorization = "Bearer " ++ token)
    (hne : token ≠ "") (hs : ∀ c ∈ token.data, isSpace c = false) (hv : verify token = some subject) :
    newHTTPJWTMiddleware verify req = .ok (some subject) := by
  have hsplit : splitSpace2 ("Bearer " ++ token) = ["Bearer", token] := rfl
  have hb : equalFoldBearer "Bearer" = true := by decide
  simp only [newHTTPJWTMiddleware, if_neg hr, ha, trimSpace_bearer hne hs, hsplit, hb, trimSpace_eq_self hs, hne, hv,
    not_true_eq_false, if_false]

/-- **The principals logins issue are separate exactly when their users differ.** The subject a login signs is
`uuid::text` of the user; two such subjects share no limiter key, idempotency scope or wallet of the withdraw route
when, and only when, they belong to different users. -/
theorem separate_uuidText_iff (u v : Uuid) : Separate (uuidText u) (uuidText v) ↔ u ≠ v := by
  constructor
  · rintro ⟨h, -⟩ rfl
    exact h rfl
  · intro huv
    refine ⟨fun h => huv ?_, fun uid hu hv => huv ?_⟩
    · rw [trimRight_uuidText, trimRight_uuidText] at h
      exact Option.some.inj (by rw [← uuidParse_uuidText u, ← h, uuidParse_uuidText])
    · rw [uuidParse_uuidText] at hu hv
      exact (Option.some.inj hu).trans (Option.some.inj hv).symm

/-- **A login's token reads the user's own wallet.** When the token manager does what `TokensVerify` says, the token
of a login, sent to the balance inquiry as its `Authorization`, makes the inquiry answer with the wallet of the user
the login found: `200` with its balance, or `404` when that user has no wallet. -/
theorem login_then_inquiry {lower : Char → Char} {dbLower : String → String} {compare : String → String → Bool}
    {sign : String → Except String String} {verify : String → Option String} (htok : TokensVerify sign verify)
    {users : Users} {email password : String} {r : AuthLogin}
    (hl : login lower dbLower compare sign false users email password = .ok r) {req : HttpRequest}
    (hm : req.method = "GET") (ha : req.authorization = r.tokenType ++ " " ++ r.accessToken) (db : Db) :
    ∃ row, getUserAuthByEmailQuery dbLower users (emailKey lower email) = some row ∧ row.status = "active" ∧
      registerInquiryRoutes verify false db req = .ok
        (match db.walletOf row.id with
        | some x => (200, .ok ⟨x.userID, x.balanceMinor, x.currency, x.updatedAt⟩)
        | none => (404, .error "wallet not found")) := by
  obtain ⟨row, hq, hs, hsign, ht⟩ := login_ok hl
  obtain ⟨hne, hsp, hv⟩ := htok _ _ hsign
  have hr : ¬(req.method = "POST" ∧ "/auth/login".data <:+: req.path.data) := fun h => absurd (hm ▸ h.1) (by decide)
  have hts : trimSpace (uuidText row.id) ≠ "" := by
    rw [trimSpace_uuidText]
    exact fun h => absurd (congrArg String.length h) (by rw [length_uuidText]; decide)
  refine ⟨row, hq, hs, ?_⟩
  rw [registerInquiryRoutes, newHTTPJWTMiddleware_bearer hr (by rw [ha, ht, String.append_assoc]; rfl) hne hsp hv]
  exact congrArg Except.ok (inquiryCheckBalanceHandle_of_uuidParse hts (uuidParse_uuidText row.id))

/-- The token of Alice's login reads the seed wallet. -/
theorem sample_login_then_inquiry :
    TokensVerify sampleTokenSign sampleTokenVerify ∧
    login Char.toLower sampleDbLower sampleCompare sampleTokenSign false sampleUsers "Alice@Example.com" "secret" =
      .ok ⟨"token-1", "Bearer"⟩ ∧
    sampleInquiry.method = "GET" ∧ sampleInquiry.authorization = "Bearer" ++ " " ++ "token-1" ∧
    ∃ row, getUserAuthByEmailQuery sampleDbLower sampleUsers (emailKey Char.toLower "Alice@Example.com") = some row ∧
      row.status = "active" ∧
      registerInquiryRoutes sampleTokenVerify false seedDb sampleInquiry = .ok
        (match seedDb.walletOf row.id with
        | some x => (200, .ok ⟨x.userID, x.balanceMinor, x.currency, x.updatedAt⟩)
        | none => (404, .error "wallet not found")) := by
  have htok : TokensVerify sampleTokenSign sampleTokenVerify := by
    intro subject token h
    unfold sampleTokenSign at h
    split_ifs at h with hs
    cases h
    exact ⟨by decide, by decide, by rw [hs]; rfl⟩
  have hl : login Char.toLower sampleDbLower sampleCompare sampleTokenSign false sampleUsers "Alice@Example.com"
      "secret" = .ok ⟨"token-1", "Bearer"⟩ := rfl
  exact ⟨htok, hl, rfl, rfl, login_then_inquiry htok hl rfl rfl seedDb⟩

end WithdrawApi
