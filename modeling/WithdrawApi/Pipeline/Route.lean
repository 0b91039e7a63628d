import WithdrawApi.Ledger.Repository
import WithdrawApi.Idempotency.Runs

/-!
# The withdraw route

`POST /withdrawals` as `registerWithdrawRoutes` builds it: the JWT middleware of the protected group
(`newHTTPJWTMiddleware`), the rate-limit middleware keyed per user (`newHTTPRateLimitMiddleware`), the idempotency
middleware (`newHTTPWithdrawIdempotencyMiddleware`, on `SQLXStore`), and the handler
(`InquiryWithdrawBalanceHandler.handle`). One request runs as a whole at time `now` against the wallets, the
idempotency table and the limiter (`RouteState`).

What is not computed here is a parameter: the token manager's `Verify` (`verify`: a token's subject), the limiter's
`AllowKey` (`allowKey`), SHA-256 (`sha256`), the JSON encoder (`encode`) and the JSON decoder of the request body
(`parseBody`).

- `route_cases`: the handler, and so the ledger transaction, runs only when a principal is present, the limiter
  allows, the trimmed key is not blank and `Acquire` returns `Acquired`; every other outcome leaves the wallets and
  the ledger as they were, and the idempotency table too, except after a `500` from an `Acquire` whose `COMMIT` the
  database applied while the reply was lost: that leaves the row of the request's key as the `Acquire` with its
  commit delivered writes it.
- `route_conflict`: a request that reaches `Acquire`, for a record created by a request of the same principal with
  another method, path or body, is answered `409` "idempotency key reused with different payload", when SHA-256 and
  the pre-image are injective.
- `registerWithdrawRoutes_of_denied`: a request the limiter denies is answered `429` whatever the store holds.
- `principal_scopes_separate`: the records of principals whose right-trimmed names differ never meet;
  `trailing_space_shares_records`: principals equal up to trailing white space share their records.
-/

namespace WithdrawApi

/-! ## Requests and responses -/

/-- What the route reads of an HTTP request. `chainID` is what `ChainIDFromContext` returns: the `X-Request-ID` the
request-id middleware set. -/
structure HttpRequest where
  method : String
  path : String
  authorization : String
  idempotencyKey : String
  ip : String
  chainID : String
  body : List UInt8

/-- The body of a response. -/
inductive Body
  /-- `fiber.Map{"error": msg}` -/
  | error (msg : String)
  /-- `fiber.Map{"error": "rate limit exceeded", "retry_after": retryAfter}` -/
  | rateLimited (retryAfter : Int)
  /-- The `vo.WalletWithdrawal` of a successful withdraw. -/
  | withdrawal (w : WalletWithdrawal)
  /-- Bytes sent as they are: a replayed body. -/
  | raw (bytes : List UInt8)

/-- A response: status, `Content-Type` (empty when not set), body. -/
structure Response where
  status : Int
  contentType : String
  body : Body

/-- `c.Status(status).JSON(body)`: fiber v3 sets `application/json; charset=utf-8`. -/
def jsonResponse (status : Int) (body : Body) : Response := ⟨status, "application/json; charset=utf-8", body⟩

/-- `c.Status(status).JSON(fiber.Map{"error": msg})`. -/
def errorResponse (status : Int) (msg : String) : Response := jsonResponse status (.error msg)

/-! ## The request hash -/

/-- A SHA-256 digest: 32 bytes. -/
structure Digest where
  bytes : List UInt8
  length_eq : bytes.length = 32

/-- The lowercase hexadecimal digit of `n < 16`. -/
def hexDigit (n : Nat) : Char := if n < 10 then Char.ofNat (48 + n) else Char.ofNat (87 + n)

/-- `hex.EncodeToString`. -/
def hexEncode (bs : List UInt8) : String :=
  ⟨bs.flatMap fun b => [hexDigit (b.toNat / 16), hexDigit (b.toNat % 16)]⟩

/-- `[]byte(s)`: the UTF-8 bytes of `s`. -/
def utf8 (s : String) : List UInt8 := s.toUTF8.data.toList

/-- `strings.ToUpper`, on ASCII letters, as HTTP methods are. -/
def toUpper (s : String) : String := ⟨s.data.map Char.toUpper⟩

/-- What `withdrawRequestHash` writes into the hasher: the upper-cased trimmed method, the trimmed path and the
trimmed user id, each followed by a newline, then the raw body. -/
def withdrawRequestPreimage (method path userID : String) (body : List UInt8) : List UInt8 :=
  utf8 (toUpper (trimSpace method)) ++ utf8 "\n" ++ utf8 (trimSpace path) ++ utf8 "\n" ++ utf8 (trimSpace userID) ++
    utf8 "\n" ++ body

section Hash

variable (sha256 : List UInt8 → Digest)

/-- `withdrawRequestHash`. -/
def withdrawRequestHash (method path userID : String) (body : List UInt8) : String :=
  hexEncode (sha256 (withdrawRequestPreimage method path userID body)).bytes

/-- The `idempotency.Request` the middleware builds for principal `userID`: scope `withdraw:` followed by the
principal as it is, the trimmed key, the request hash, and no `LockTTL`. -/
def withdrawIdempotencyRequest (userID : String) (req : HttpRequest) : Request :=
  ⟨"withdraw:" ++ userID, trimSpace req.idempotencyKey, withdrawRequestHash sha256 req.method req.path userID req.body,
    0⟩

/-- What `withdrawRequestHash` is to identify for one principal: the upper-cased trimmed method, the trimmed path
and the raw body. -/
def withdrawPayload (req : HttpRequest) : String × String × List UInt8 :=
  (toUpper (trimSpace req.method), trimSpace req.path, req.body)

theorem hexDigit_inj : ∀ a b : Fin 16, hexDigit a = hexDigit b → a = b := by decide

theorem isSpace_hexDigit : ∀ n : Fin 16, isSpace (hexDigit n) = false := by decide

theorem hexEncode_cons (b : UInt8) (bs : List UInt8) :
    (hexEncode (b :: bs)).data = hexDigit (b.toNat / 16) :: hexDigit (b.toNat % 16) :: (hexEncode bs).data :=
  rfl

theorem length_hexEncode (bs : List UInt8) : (hexEncode bs).length = 2 * bs.length := by
  induction bs with
  | nil => rfl
  | cons b bs ih =>
    change (hexEncode (b :: bs)).data.length = _
    rw [hexEncode_cons, List.length_cons, List.length_cons, List.length_cons]
    change (hexEncode bs).length + 1 + 1 = _
    omega

/-- Hexadecimal digits are not spaces, so `TrimSpace` keeps an encoding as it is. -/
theorem trimSpace_hexEncode (bs : List UInt8) : trimSpace (hexEncode bs) = hexEncode bs := by
  refine trimSpace_eq_self fun c hc => ?_
  obtain ⟨b, -, hb⟩ := List.mem_flatMap.mp hc
  have h1 : b.toNat / 16 < 16 := by have : b.toNat < 256 := b.val.isLt; omega
  simp only [List.mem_cons, List.mem_singleton, List.not_mem_nil, or_false] at hb
  rcases hb with rfl | rfl
  · exact isSpace_hexDigit ⟨_, h1⟩
  · exact isSpace_hexDigit ⟨_, Nat.mod_lt _ (by decide)⟩

/-- Two digits a byte: the encoding loses nothing. -/
theorem hexEncode_injective : Function.Injective hexEncode := by
  intro as bs h
  induction as generalizing bs with
  | nil =>
    cases bs with
    | nil => rfl
    | cons b bs =>
      have := congrArg String.length h
      simp only [length_hexEncode, List.length_cons, List.length_nil] at this
      omega
  | cons a as ih =>
    cases bs with
    | nil =>
      have := congrArg String.length h
      simp only [length_hexEncode, List.length_cons, List.length_nil] at this
      omega
    | cons b bs =>
      have hd := congrArg String.data h
      rw [hexEncode_cons, hexEncode_cons, List.cons.injEq, List.cons.injEq] at hd
      obtain ⟨h1, h2, h3⟩ := hd
      have ha : a.toNat < 256 := a.val.isLt
      have hb : b.toNat < 256 := b.val.isLt
      have e1 := congrArg Fin.val (hexDigit_inj ⟨a.toNat / 16, by omega⟩ ⟨b.toNat / 16, by omega⟩ h1)
      have e2 := congrArg Fin.val
        (hexDigit_inj ⟨_, Nat.mod_lt a.toNat (by decide)⟩ ⟨_, Nat.mod_lt b.toNat (by decide)⟩ h2)
      have hab : a = b := UInt8.eq_of_val_eq (Fin.ext (show a.toNat = b.toNat by simp only at e1 e2; omega))
      rw [hab, ih (String.ext h3)]

theorem length_withdrawRequestHash (method path userID : String) (body : List UInt8) :
    (withdrawRequestHash sha256 method path userID body).length = 64 := by
  rw [withdrawRequestHash, length_hexEncode, (sha256 _).length_eq]

/-- The store reads the hash as the middleware computed it: sixty-four digits, nothing to trim. -/
theorem withdrawIdempotencyRequest_trimmedHash (userID : String) (req : HttpRequest) :
    (withdrawIdempotencyRequest sha256 userID req).trimmedHash =
      withdrawRequestHash sha256 req.method req.path userID req.body :=
  trimSpace_hexEncode _

/-- The scope the store keys on: `withdraw:` and the principal without its trailing spaces. -/
theorem withdrawIdempotencyRequest_scope (userID : String) (req : HttpRequest) :
    (withdrawIdempotencyRequest sha256 userID req).recordKey.1 = "withdraw:" ++ trimRight userID :=
  trimSpace_prefix "withdraw:" userID (by decide) (by decide) (by decide)

theorem withdrawIdempotencyRequest_key (userID : String) (req : HttpRequest) :
    (withdrawIdempotencyRequest sha256 userID req).recordKey.2 = trimSpace req.idempotencyKey :=
  trimSpace_trimSpace _

theorem withdrawIdempotencyRequest_scope_ne (userID : String) (req : HttpRequest) :
    (withdrawIdempotencyRequest sha256 userID req).recordKey.1 ≠ "" := by
  rw [withdrawIdempotencyRequest_scope]
  intro h
  have := congrArg String.length h
  rw [String.length_append, show "withdraw:".length = 9 from rfl, show "".length = 0 from rfl] at this
  omega

theorem withdrawIdempotencyRequest_hash_ne (userID : String) (req : HttpRequest) :
    (withdrawIdempotencyRequest sha256 userID req).trimmedHash ≠ "" := by
  intro h
  have := length_withdrawRequestHash sha256 req.method req.path userID req.body
  rw [← withdrawIdempotencyRequest_trimmedHash, h] at this
  exact absurd this (by decide)

end Hash

/-! ## The middlewares and the handler -/

/-- `strings.EqualFold(s, "Bearer")`: no letter outside ASCII folds to one of `b`, `e`, `a`, `r`, so this is
ASCII case-insensitive equality. -/
def equalFoldBearer (s : String) : Bool := s.data.map Char.toLower = "bearer".data

/-- `strings.SplitN(s, " ", 2)`. -/
def splitSpace2 (s : String) : List String :=
  match s.data.span (· ≠ ' ') with
  | (a, _ :: b) => [⟨a⟩, ⟨b⟩]
  | _ => [s]

/-- The handler `NewHTTPJWTMiddleware` returns: the request passes with the token's subject as `user_id`, or with
no `user_id` on the login route, or is answered `401`. -/
def newHTTPJWTMiddleware (verify : String → Option String) (req : HttpRequest) : Except Response (Option String) :=
  if req.method = "POST" ∧ "/auth/login".data <:+: req.path.data then .ok none
  else match splitSpace2 (trimSpace req.authorization) with
    | [scheme, token] =>
      if ¬equalFoldBearer scheme then .error (errorResponse 401 "missing or invalid authorization header")
      else if trimSpace token = "" then .error (errorResponse 401 "missing bearer token")
      else match verify (trimSpace token) with
        | none => .error (errorResponse 401 "invalid token")
        | some subject => .ok (some subject)
    | _ => .error (errorResponse 401 "missing or invalid authorization header")

/-- What the rate-limit middleware reads of a `ratelimit.Result`; `RetryAfter` is in nanoseconds. -/
structure RateResult where
  allowed : Bool
  retryAfter : Int

/-- `PerUserKeyExtractor(prefix)`. -/
def perUserKeyExtractor (pre : String) (userID : Option String) (ip : String) : String :=
  match userID with
  | some uid => if uid ≠ "" then pre ++ ":user:" ++ uid else pre ++ ":ip:" ++ ip
  | none => pre ++ ":ip:" ++ ip

/-- The `Retry-After` seconds of a denied request: `int(RetryAfter.Seconds())`, at least `1`. -/
def retryAfterSeconds (retryAfter : Int) : Int := max 1 (retryAfter.tdiv (10 ^ 9))

section Route

variable {σ : Type} (verify : String → Option String) (allowKey : String → σ → Except Unit RateResult × σ)
  (sha256 : List UInt8 → Digest) (encode : Body → List UInt8) (parseBody : List UInt8 → Option Int64)

/-- The handler `NewHTTPRateLimitMiddleware` returns, with the limiter's `AllowKey` and the key extractor
`PerUserKeyExtractor("withdraw")`. -/
def newHTTPRateLimitMiddleware (userID : Option String) (req : HttpRequest) (lim : σ) : Except Response Unit × σ :=
  match allowKey (perUserKeyExtractor "withdraw" userID req.ip) lim with
  | (.error _, lim') => (.error (errorResponse 500 "internal server error"), lim')
  | (.ok r, lim') =>
    if ¬r.allowed then (.error (jsonResponse 429 (.rateLimited (retryAfterSeconds r.retryAfter))), lim')
    else (.ok (), lim')

/-- Which database call fails, in each of the three stores one request uses. -/
structure RequestFaults where
  acquire : AcquireFaults := {}
  withdraw : Faults := {}
  complete : CompleteFaults := {}

/-- The response of a replay decision. -/
def replayResponse (d : Decision) : Response :=
  ⟨if d.statusCode ≤ 0 then 200 else d.statusCode, d.contentType, .raw d.body⟩

/-- `InquiryWithdrawBalanceHandler.Handle`. -/
def withdrawHandle (f : Faults) (now : Nat) (userID : Option String) (req : HttpRequest) (db : Db) :
    Response × Db :=
  match userID with
  | none => (errorResponse 401 "missing authenticated user", db)
  | some u =>
    if u = "" then (errorResponse 401 "missing authenticated user", db)
    else match parseBody req.body with
      | none => (errorResponse 400 "invalid request body", db)
      | some amountMinor =>
        match withdrawBalance uuidParse f now db u amountMinor req.chainID with
        | (.ok w, db') => (jsonResponse 200 (.withdrawal w), db')
        | (.error .invalidAmount, db') => (errorResponse 400 "amount_minor must be greater than 0", db')
        | (.error .walletNotFound, db') => (errorResponse 404 "wallet not found", db')
        | (.error .insufficientBalance, db') => (errorResponse 409 "insufficient balance", db')
        | (.error _, db') => (errorResponse 500 "internal server error", db')

/-- The handler `NewHTTPWithdrawIdempotencyMiddleware` returns, on `SQLXStore`, around `next`. -/
def newHTTPWithdrawIdempotencyMiddleware (f : RequestFaults) (now : Nat) (next : Db → Response × Db)
    (userID : Option String) (req : HttpRequest) (table : Table) (db : Db) : Response × Table × Db :=
  match userID with
  | none => (errorResponse 401 "missing authenticated user", table, db)
  | some u =>
    if trimSpace u = "" then (errorResponse 401 "missing authenticated user", table, db)
    else if trimSpace req.idempotencyKey = "" then (errorResponse 400 "missing idempotency key", table, db)
    else match acquire f.acquire now table (withdrawIdempotencyRequest sha256 u req) with
      | (.error _, t') => (errorResponse 500 "failed to acquire idempotency key", t', db)
      | (.ok d, t') =>
        match d.type with
        | .replay => (replayResponse d, t', db)
        | .inProgress => (errorResponse 409 "request is already in progress", t', db)
        | .conflict => (errorResponse 409 "idempotency key reused with different payload", t', db)
        | .acquired =>
          match next db with
          | (resp, db') =>
            match complete f.complete now t' (withdrawIdempotencyRequest sha256 u req)
                ⟨resp.status, encode resp.body, resp.contentType⟩ with
            | (.error _, t'') => (errorResponse 500 "failed to persist idempotency response", t'', db')
            | (.ok (), t'') => (resp, t'', db')

/-- The wallets, the idempotency table and the limiter's state. -/
structure RouteState (σ : Type) where
  db : Db
  table : Table
  limiter : σ

/-- `POST /withdrawals` as `registerWithdrawRoutes` builds it, at time `now`. -/
def registerWithdrawRoutes (f : RequestFaults) (now : Nat) (s : RouteState σ) (req : HttpRequest) :
    Response × RouteState σ :=
  match newHTTPJWTMiddleware verify req with
  | .error r => (r, s)
  | .ok userID =>
    match newHTTPRateLimitMiddleware allowKey userID req s.limiter with
    | (.error r, lim) => (r, { s with limiter := lim })
    | (.ok (), lim) =>
      match newHTTPWithdrawIdempotencyMiddleware sha256 encode f now
          (withdrawHandle parseBody f.withdraw now userID req) userID req s.table s.db with
      | (r, table, db) => (r, ⟨db, table, lim⟩)

/-! ## What each middleware can do -/

variable {verify allowKey sha256 encode parseBody}

theorem newHTTPJWTMiddleware_error {req : HttpRequest} {r : Response}
    (h : newHTTPJWTMiddleware verify req = .error r) : r.status = 401 := by
  simp only [newHTTPJWTMiddleware] at h
  split_ifs at h
  split at h
  all_goals (try split_ifs at h) <;> (try split at h) <;> cases h <;> rfl

variable {userID : Option String} {req : HttpRequest} {lim lim' : σ}

theorem newHTTPRateLimitMiddleware_error {r : Response}
    (h : newHTTPRateLimitMiddleware allowKey userID req lim = (.error r, lim')) : r.status = 500 ∨ r.status = 429 := by
  rcases hr : allowKey (perUserKeyExtractor "withdraw" userID req.ip) lim with ⟨_ | r', l⟩ <;>
    simp only [newHTTPRateLimitMiddleware, hr] at h
  · cases h; exact .inl rfl
  · by_cases ha : r'.allowed <;> simp only [ha, not_true_eq_false, not_false_eq_true, if_true, if_false] at h <;>
      cases h
    exact .inr rfl

theorem newHTTPRateLimitMiddleware_ok (h : newHTTPRateLimitMiddleware allowKey userID req lim = (.ok (), lim')) :
    ∃ r, allowKey (perUserKeyExtractor "withdraw" userID req.ip) lim = (.ok r, lim') ∧ r.allowed = true := by
  rcases hr : allowKey (perUserKeyExtractor "withdraw" userID req.ip) lim with ⟨_ | r, l⟩ <;>
    simp only [newHTTPRateLimitMiddleware, hr] at h
  · cases h
  · by_cases ha : r.allowed <;> simp only [ha, not_true_eq_false, not_false_eq_true, if_true, if_false] at h <;>
      cases h
    exact ⟨r, rfl, ha⟩

/-- The row a `500` from `Acquire` can leave: the one the same `Acquire` with its lost `COMMIT` delivered writes. -/
def LostAcquire (f : AcquireFaults) (now : Nat) (table table' : Table) (q : Request) (resp : Response) : Prop :=
  resp = errorResponse 500 "failed to acquire idempotency key" ∧
    acquire { f with commit := false } now table q = (.ok { type := .acquired }, table')

/-- **The idempotency middleware** answers without calling `next`, with `401`, `400`, `500`, `409` or a replay, and
writes nothing but the row of a lost `COMMIT`; or `Acquire` returned `Acquired`. -/
theorem idempotency_cases {f : RequestFaults} {now : Nat} {next : Db → Response × Db} {table table' : Table}
    {db db' : Db} {resp : Response}
    (h : newHTTPWithdrawIdempotencyMiddleware sha256 encode f now next userID req table db = (resp, table', db')) :
    ((table' = table ∨ ∃ u, userID = some u ∧
        LostAcquire f.acquire now table table' (withdrawIdempotencyRequest sha256 u req) resp) ∧ db' = db ∧
      (resp.status ∈ [401, 400, 500, 409] ∨ ∃ d, resp = replayResponse d)) ∨
    ∃ u d t, userID = some u ∧ trimSpace u ≠ "" ∧ trimSpace req.idempotencyKey ≠ "" ∧
      acquire f.acquire now table (withdrawIdempotencyRequest sha256 u req) = (.ok d, t) ∧ d.type = .acquired := by
  cases userID with
  | none => cases h; exact .inl ⟨.inl rfl, rfl, .inl (by decide)⟩
  | some u =>
    simp only [newHTTPWithdrawIdempotencyMiddleware] at h
    split_ifs at h with hu hk
    · cases h; exact .inl ⟨.inl rfl, rfl, .inl (by decide)⟩
    · cases h; exact .inl ⟨.inl rfl, rfl, .inl (by decide)⟩
    · rcases ha : acquire f.acquire now table (withdrawIdempotencyRequest sha256 u req) with ⟨_ | d, t⟩
      · simp only [ha] at h
        cases h
        refine .inl ⟨?_, rfl, .inl (by decide)⟩
        rcases acquire_error ha with ⟨-, rfl⟩ | ⟨-, h'⟩
        · exact .inl rfl
        · exact .inr ⟨u, rfl, rfl, h'⟩
      · simp only [ha] at h
        cases hd : d.type
        · exact .inr ⟨u, d, t, rfl, hu, hk, ha, hd⟩
        all_goals
          simp only [hd] at h
          cases h
          refine .inl ⟨.inl (acquire_unchanged ha (by simp [hd])), rfl, ?_⟩
        · exact .inr ⟨d, rfl⟩
        · exact .inl (by decide)
        · exact .inl (by decide)

/-- The route behind an allowed rate check: the idempotency middleware around the handler. -/
theorem registerWithdrawRoutes_of_allowed {f : RequestFaults} {now : Nat} {s : RouteState σ}
    (hj : newHTTPJWTMiddleware verify req = .ok userID)
    (hl : newHTTPRateLimitMiddleware allowKey userID req s.limiter = (.ok (), lim)) :
    registerWithdrawRoutes verify allowKey sha256 encode parseBody f now s req =
      let out := newHTTPWithdrawIdempotencyMiddleware sha256 encode f now
        (withdrawHandle parseBody f.withdraw now userID req) userID req s.table s.db
      (out.1, ⟨out.2.2, out.2.1, lim⟩) := by
  simp only [registerWithdrawRoutes, hj, hl]

/-- A request the limiter denies is answered `429` with the limiter's retry time, in every state, and only the
limiter's state changes. -/
theorem registerWithdrawRoutes_of_denied {f : RequestFaults} {now : Nat} {s : RouteState σ} {r : RateResult}
    (hj : newHTTPJWTMiddleware verify req = .ok userID)
    (hl : allowKey (perUserKeyExtractor "withdraw" userID req.ip) s.limiter = (.ok r, lim)) (hr : r.allowed = false) :
    registerWithdrawRoutes verify allowKey sha256 encode parseBody f now s req =
      (jsonResponse 429 (.rateLimited (retryAfterSeconds r.retryAfter)), { s with limiter := lim }) := by
  simp [registerWithdrawRoutes, newHTTPRateLimitMiddleware, hj, hl, hr]

/-- **What a request through the route can do.** The handler runs only after a principal is present, the limiter
allows, the trimmed key is not blank and `Acquire` returned `Acquired`; every other answer (`401`, `429`, `400`,
`500`, `409`, or a replay) leaves the wallets and the ledger as they were, and the idempotency table too, but for
the row a lost `COMMIT` of `Acquire` wrote. -/
theorem route_cases {f : RequestFaults} {now : Nat} {s s' : RouteState σ} {resp : Response}
    (h : registerWithdrawRoutes verify allowKey sha256 encode parseBody f now s req = (resp, s')) :
    (s'.db = s.db ∧ (s'.table = s.table ∨ ∃ u, newHTTPJWTMiddleware verify req = .ok (some u) ∧
        LostAcquire f.acquire now s.table s'.table (withdrawIdempotencyRequest sha256 u req) resp) ∧
      (resp.status ∈ [401, 429, 400, 500, 409] ∨ ∃ d, resp = replayResponse d)) ∨
    ∃ u r d t, newHTTPJWTMiddleware verify req = .ok (some u) ∧ trimSpace u ≠ "" ∧
      (allowKey (perUserKeyExtractor "withdraw" (some u) req.ip) s.limiter).1 = .ok r ∧ r.allowed = true ∧
      trimSpace req.idempotencyKey ≠ "" ∧
      acquire f.acquire now s.table (withdrawIdempotencyRequest sha256 u req) = (.ok d, t) ∧ d.type = .acquired := by
  rcases hj : newHTTPJWTMiddleware verify req with r | userID
  · simp only [registerWithdrawRoutes, hj] at h
    cases h
    exact .inl ⟨rfl, .inl rfl, .inl (by simp [newHTTPJWTMiddleware_error hj])⟩
  rcases hl : newHTTPRateLimitMiddleware allowKey userID req s.limiter with ⟨_ | ⟨⟩, lim⟩
  · simp only [registerWithdrawRoutes, hj, hl] at h
    cases h
    refine .inl ⟨rfl, .inl rfl, .inl ?_⟩
    rcases newHTTPRateLimitMiddleware_error hl with h | h <;> simp [h]
  obtain ⟨r, hr, hra⟩ := newHTTPRateLimitMiddleware_ok hl
  rw [registerWithdrawRoutes_of_allowed hj hl] at h
  rcases hi : newHTTPWithdrawIdempotencyMiddleware sha256 encode f now
    (withdrawHandle parseBody f.withdraw now userID req) userID req s.table s.db with ⟨resp', table, db⟩
  simp only [hi] at h
  cases h
  rcases idempotency_cases hi with ⟨ht, rfl, hs⟩ | ⟨u, d, t, rfl, hu, hk, ha, hd⟩
  · refine .inl ⟨rfl, ht.imp_right fun ⟨u, hu, hL⟩ => ⟨u, by rw [hu], hL⟩, hs.imp_left fun h => ?_⟩
    simp only [List.mem_cons, List.mem_singleton, List.not_mem_nil, or_false] at h ⊢
    omega
  · exact .inr ⟨u, r, d, t, rfl, hu, by rw [hr], hra, hk, ha, hd⟩

/-- A request that reaches a fault-free `Acquire` for a row of another hash is answered `409`, and writes nothing. -/
theorem route_conflict {f : RequestFaults} {now : Nat} {s : RouteState σ} {u : String} {r : RateResult} {x : Record}
    (hj : newHTTPJWTMiddleware verify req = .ok (some u)) (hu : trimSpace u ≠ "")
    (hl : allowKey (perUserKeyExtractor "withdraw" (some u) req.ip) s.limiter = (.ok r, lim)) (hr : r.allowed = true)
    (hk : trimSpace req.idempotencyKey ≠ "") (hf : f.acquire = {})
    (hx : s.table.find (withdrawIdempotencyRequest sha256 u req).recordKey = some x)
    (hxh : x.requestHash ≠ withdrawRequestHash sha256 req.method req.path u req.body) :
    registerWithdrawRoutes verify allowKey sha256 encode parseBody f now s req =
      (errorResponse 409 "idempotency key reused with different payload", { s with limiter := lim }) := by
  have hlim : newHTTPRateLimitMiddleware allowKey (some u) req s.limiter = (.ok (), lim) := by
    simp [newHTTPRateLimitMiddleware, hl, hr]
  have ha : acquire f.acquire now s.table (withdrawIdempotencyRequest sha256 u req) =
      (.ok { type := .conflict }, s.table) := by
    rw [hf]
    refine acquire_conflict (withdrawIdempotencyRequest_scope_ne _ _ _) ?_
      (withdrawIdempotencyRequest_hash_ne _ _ _) hx ?_
    · rwa [withdrawIdempotencyRequest_key]
    · rwa [withdrawIdempotencyRequest_trimmedHash]
  rw [registerWithdrawRoutes_of_allowed hj hlim]
  simp only [newHTTPWithdrawIdempotencyMiddleware, if_neg hu, if_neg hk, ha]

/-- **The withdraw route, for every state and request.** The handler, and with it the ledger transaction, runs
only after a principal is present, the limiter allows, the trimmed key is not blank and `Acquire` returned
`Acquired`; every other answer (`401`, `429`, `400`, `500`, `409`, or a replay) leaves the wallets and the ledger
as they were, and the idempotency table too, except that a `500` from an `Acquire` whose `COMMIT` the database
applied while the reply was lost leaves the row of the key as that `Acquire` with its commit delivered writes it
(`LostAcquire`). When the request passes the JWT middleware and the limiter, carries a key, and
`Acquire` does not fail, a row of the principal's key written by a request of another payload is answered `409`
"idempotency key reused with different payload", provided SHA-256 and the pre-image tell the two payloads apart. -/
theorem withdraw_route_spec (f : RequestFaults) (now : Nat) (s : RouteState σ) (req : HttpRequest) :
    (((registerWithdrawRoutes verify allowKey sha256 encode parseBody f now s req).2.db = s.db ∧
        ((registerWithdrawRoutes verify allowKey sha256 encode parseBody f now s req).2.table = s.table ∨
          ∃ u, newHTTPJWTMiddleware verify req = .ok (some u) ∧ LostAcquire f.acquire now s.table
            (registerWithdrawRoutes verify allowKey sha256 encode parseBody f now s req).2.table
            (withdrawIdempotencyRequest sha256 u req)
            (registerWithdrawRoutes verify allowKey sha256 encode parseBody f now s req).1) ∧
        ((registerWithdrawRoutes verify allowKey sha256 encode parseBody f now s req).1.status ∈
            [401, 429, 400, 500, 409] ∨
          ∃ d, (registerWithdrawRoutes verify allowKey sha256 encode parseBody f now s req).1 = replayResponse d)) ∨
      ∃ u r d t, newHTTPJWTMiddleware verify req = .ok (some u) ∧ trimSpace u ≠ "" ∧
        (allowKey (perUserKeyExtractor "withdraw" (some u) req.ip) s.limiter).1 = .ok r ∧ r.allowed = true ∧
        trimSpace req.idempotencyKey ≠ "" ∧
        acquire f.acquire now s.table (withdrawIdempotencyRequest sha256 u req) = (.ok d, t) ∧
        d.type = .acquired) ∧
    ∀ (u : String) (r : RateResult) (lim : σ) (x : Record) (req₁ : HttpRequest),
      newHTTPJWTMiddleware verify req = .ok (some u) → trimSpace u ≠ "" →
      allowKey (perUserKeyExtractor "withdraw" (some u) req.ip) s.limiter = (.ok r, lim) → r.allowed = true →
      trimSpace req.idempotencyKey ≠ "" → f.acquire = {} →
      s.table.find (withdrawIdempotencyRequest sha256 u req).recordKey = some x →
      x.requestHash = withdrawRequestHash sha256 req₁.method req₁.path u req₁.body →
      withdrawPayload req₁ ≠ withdrawPayload req →
      (withdrawRequestPreimage req₁.method req₁.path u req₁.body =
          withdrawRequestPreimage req.method req.path u req.body → withdrawPayload req₁ = withdrawPayload req) →
      ((sha256 (withdrawRequestPreimage req₁.method req₁.path u req₁.body)).bytes =
          (sha256 (withdrawRequestPreimage req.method req.path u req.body)).bytes →
        withdrawRequestPreimage req₁.method req₁.path u req₁.body =
          withdrawRequestPreimage req.method req.path u req.body) →
      registerWithdrawRoutes verify allowKey sha256 encode parseBody f now s req =
        (errorResponse 409 "idempotency key reused with different payload", { s with limiter := lim }) := by
  refine ⟨route_cases rfl, fun u r lim x req₁ hj hu hl hr hk hf hx hxh hne hpre hsha => ?_⟩
  exact route_conflict hj hu hl hr hk hf hx fun h => hne (hpre (hsha (hexEncode_injective (hxh.symm.trans h))))

/-- A request of `user-1` with key `key-1`, as the route's tests send it, and one with another body. -/
def sampleWithdrawal : HttpRequest :=
  ⟨"POST", "/api/v1/withdrawals", "Bearer token-1", "key-1", "10.0.0.1", "chain-1", [1]⟩

def otherWithdrawal : HttpRequest := { sampleWithdrawal with body := [1, 2] }

/-- The user of the seed wallet, and a body decoder that reads an amount of 100. -/
def seedUser : String := "11111111-1111-1111-1111-111111111111"

def amount100 (_ : List UInt8) : Option Int64 := some ⟨100, by decide, by decide⟩

/-- A limiter that allows every request, and one that denies every request for a second. -/
def allowAll (_ : String) (l : Unit) : Except Unit RateResult × Unit := (.ok ⟨true, 0⟩, l)

def denyAll (_ : String) (l : Unit) : Except Unit RateResult × Unit := (.ok ⟨false, 10 ^ 9⟩, l)

/-- A digest that tells pre-images of different lengths apart. -/
def lengthDigest (x : List UInt8) : Digest := ⟨List.replicate 31 0 ++ [x.length.toUInt8], by simp⟩

/-- The row `sampleWithdrawal` left in progress. -/
def sampleTable : Table :=
  ⟨[(("withdraw:user-1", "key-1"),
    .inProgress (withdrawRequestHash lengthDigest "POST" "/api/v1/withdrawals" "user-1" [1]) 0)], by decide⟩

theorem sample_route_conflict :
    registerWithdrawRoutes (fun _ => some "user-1") allowAll lengthDigest (fun _ => []) (fun _ => none) {} 1
        ⟨seedDb, sampleTable, ()⟩ otherWithdrawal =
      (errorResponse 409 "idempotency key reused with different payload", ⟨seedDb, sampleTable, ()⟩) :=
  (@withdraw_route_spec Unit (fun _ => some "user-1") allowAll lengthDigest (fun _ => []) (fun _ => none) {} 1
    ⟨seedDb, sampleTable, ()⟩ otherWithdrawal).2 "user-1" ⟨true, 0⟩ ()
    (.inProgress (withdrawRequestHash lengthDigest "POST" "/api/v1/withdrawals" "user-1" [1]) 0) sampleWithdrawal
    rfl (by decide) rfl rfl (by decide) rfl rfl rfl (by decide) (fun h => absurd h (by decide))
    (fun h => absurd h (by decide))

/-- **A denied request is answered `429`, whatever row its key has.** `user-1`'s key holds the row `Acquire`
inserted for one body; the same key with another body meets a limiter that denies it, and the route answers `429`. -/
theorem rate_limit_precedes_conflict :
    (acquire {} 0 Table.empty (withdrawIdempotencyRequest lengthDigest "user-1" sampleWithdrawal)).1 =
        .ok { type := .acquired } ∧
      withdrawPayload sampleWithdrawal ≠ withdrawPayload otherWithdrawal ∧
      (registerWithdrawRoutes (fun _ => some "user-1") denyAll lengthDigest (fun _ => []) (fun _ => none) {} 1
        ⟨seedDb, (acquire {} 0 Table.empty (withdrawIdempotencyRequest lengthDigest "user-1" sampleWithdrawal)).2, ()⟩
        otherWithdrawal).1.status = 429 := by
  obtain ⟨t, ht⟩ : ∃ t, acquire {} 0 Table.empty (withdrawIdempotencyRequest lengthDigest "user-1" sampleWithdrawal) =
      (.ok { type := .acquired }, t) :=
    acquire_insert (withdrawIdempotencyRequest_scope_ne _ _ _)
      (by rw [withdrawIdempotencyRequest_key]; decide) (withdrawIdempotencyRequest_hash_ne _ _ _)
      (by rw [withdrawIdempotencyRequest_scope]; decide) (by rw [withdrawIdempotencyRequest_key]; decide)
      (by rw [withdrawIdempotencyRequest_trimmedHash, length_withdrawRequestHash]) rfl
  rw [ht, registerWithdrawRoutes_of_denied (by rfl) (by rfl) (by rfl)]
  exact ⟨rfl, by decide, rfl⟩

/-! ## Principals and scopes -/

theorem scope_eq_iff (p₁ p₂ : String) (req₁ req₂ : HttpRequest) :
    (withdrawIdempotencyRequest sha256 p₁ req₁).recordKey.1 = (withdrawIdempotencyRequest sha256 p₂ req₂).recordKey.1 ↔
      trimRight p₁ = trimRight p₂ := by
  rw [withdrawIdempotencyRequest_scope, withdrawIdempotencyRequest_scope]
  exact ⟨fun h => String.ext (List.append_cancel_left (congrArg String.data h)), fun h => h ▸ rfl⟩

/-- **Principals whose right-trimmed names differ never meet in the store.** Two principals' scopes are equal exactly
when the principals are equal after `TrimRightFunc`. When they are not, `Acquire` for the second principal decides
the same whatever the first principal's row holds, and neither its `Acquire` nor its `Complete` changes that row. -/
theorem principal_scopes_separate (p₁ p₂ : String) (req₁ req₂ : HttpRequest) :
    ((withdrawIdempotencyRequest sha256 p₁ req₁).recordKey.1 =
        (withdrawIdempotencyRequest sha256 p₂ req₂).recordKey.1 ↔ trimRight p₁ = trimRight p₂) ∧
    (trimRight p₁ ≠ trimRight p₂ →
      (∀ (f : AcquireFaults) (now : Nat) (t t₂ : Table),
        (∀ k, k ≠ (withdrawIdempotencyRequest sha256 p₁ req₁).recordKey → t.find k = t₂.find k) →
        (acquire f now t (withdrawIdempotencyRequest sha256 p₂ req₂)).1 =
          (acquire f now t₂ (withdrawIdempotencyRequest sha256 p₂ req₂)).1) ∧
      (∀ (f : AcquireFaults) (now : Nat) (t t' : Table) (o : Except StoreError Decision),
        acquire f now t (withdrawIdempotencyRequest sha256 p₂ req₂) = (o, t') →
        t'.find (withdrawIdempotencyRequest sha256 p₁ req₁).recordKey =
          t.find (withdrawIdempotencyRequest sha256 p₁ req₁).recordKey) ∧
      (∀ (f : CompleteFaults) (now : Nat) (t t' : Table) (resp : StoredResponse) (o : Except StoreError Unit),
        complete f now t (withdrawIdempotencyRequest sha256 p₂ req₂) resp = (o, t') →
        t'.find (withdrawIdempotencyRequest sha256 p₁ req₁).recordKey =
          t.find (withdrawIdempotencyRequest sha256 p₁ req₁).recordKey)) := by
  refine ⟨scope_eq_iff p₁ p₂ req₁ req₂, fun hne => ?_⟩
  have hk : (withdrawIdempotencyRequest sha256 p₁ req₁).recordKey ≠
      (withdrawIdempotencyRequest sha256 p₂ req₂).recordKey :=
    fun h => hne ((scope_eq_iff p₁ p₂ req₁ req₂).mp (congrArg Prod.fst h))
  exact ⟨fun _ _ _ _ ht => acquire_local (ht _ (Ne.symm hk)), fun _ _ _ _ _ h => acquire_frame h _ hk,
    fun _ _ _ _ _ _ h => (complete_row h).1 _ hk⟩

theorem sample_principal_scopes_separate :
    ∀ (f : CompleteFaults) (now : Nat) (t t' : Table) (resp : StoredResponse) (o : Except StoreError Unit),
      complete f now t (withdrawIdempotencyRequest lengthDigest "user-2" sampleWithdrawal) resp = (o, t') →
      t'.find (withdrawIdempotencyRequest lengthDigest "user-1" sampleWithdrawal).recordKey =
        t.find (withdrawIdempotencyRequest lengthDigest "user-1" sampleWithdrawal).recordKey :=
  ((principal_scopes_separate "user-1" "user-2" sampleWithdrawal sampleWithdrawal).2 (by decide)).2.2

/-- **`u` and `u ` are two principals with one scope and one request hash.** The middleware puts `u ` into the scope
as it is and the store trims it; the hash trims the user id too. So the second principal's `Acquire` and `Complete`
are the first's, on the first's row: it is answered with the first's replay, and overwrites the first's response. -/
theorem trailing_space_shares_records (sha256 : List UInt8 → Digest) (req : HttpRequest) :
    "u" ≠ "u " ∧ trimSpace "u " ≠ "" ∧
      (withdrawIdempotencyRequest sha256 "u " req).recordKey = (withdrawIdempotencyRequest sha256 "u" req).recordKey ∧
      (∀ f now t, acquire f now t (withdrawIdempotencyRequest sha256 "u " req) =
        acquire f now t (withdrawIdempotencyRequest sha256 "u" req)) ∧
      ∀ f now t resp, complete f now t (withdrawIdempotencyRequest sha256 "u " req) resp =
        complete f now t (withdrawIdempotencyRequest sha256 "u" req) resp := by
  have hk : (withdrawIdempotencyRequest sha256 "u " req).recordKey =
      (withdrawIdempotencyRequest sha256 "u" req).recordKey :=
    Prod.ext (by rw [withdrawIdempotencyRequest_scope, withdrawIdempotencyRequest_scope]; decide) rfl
  have hh : (withdrawIdempotencyRequest sha256 "u " req).trimmedHash =
      (withdrawIdempotencyRequest sha256 "u" req).trimmedHash := by
    rw [withdrawIdempotencyRequest_trimmedHash, withdrawIdempotencyRequest_trimmedHash, withdrawRequestHash,
      withdrawRequestHash, withdrawRequestPreimage, withdrawRequestPreimage,
      show trimSpace "u " = trimSpace "u" by decide]
  exact ⟨by decide, by decide, hk, fun _ _ _ => acquire_congr hk hh rfl, fun _ _ _ _ => complete_congr hk hh⟩

/-- The two principals `u` and `u ` with the route's sample request: one row, and the same `Acquire` and
`Complete`. -/
theorem trailing_space_principals_share_records :
    "u" ≠ "u " ∧ trimSpace "u " ≠ "" ∧
      (withdrawIdempotencyRequest lengthDigest "u " sampleWithdrawal).recordKey =
        (withdrawIdempotencyRequest lengthDigest "u" sampleWithdrawal).recordKey ∧
      (∀ f now t, acquire f now t (withdrawIdempotencyRequest lengthDigest "u " sampleWithdrawal) =
        acquire f now t (withdrawIdempotencyRequest lengthDigest "u" sampleWithdrawal)) ∧
      ∀ f now t resp, complete f now t (withdrawIdempotencyRequest lengthDigest "u " sampleWithdrawal) resp =
        complete f now t (withdrawIdempotencyRequest lengthDigest "u" sampleWithdrawal) resp :=
  trailing_space_shares_records lengthDigest sampleWithdrawal

end Route

end WithdrawApi
