import WithdrawApi.Pipeline.Route

/-!
# One principal's requests under one key, interleaved

The route runs one request in three steps: up to `Acquire` (`routeFront`), the handler (`withdrawHandle`), and
`Complete` with the answer (`routeBack`); run back to back they are `registerWithdrawRoutes`
(`registerWithdrawRoutes_phases`). Here the requests of one principal `p` that the store sees as one request `q` (one
key, one payload) run interleaved at these steps (`PStep`), each at the time of a clock that only moves forward, with
any database call failing. That a request granted `Acquired` finishes before the lease it was granted is a guard
on the clock.

The state keeps two counters for the proof: the ledger transactions committed (`commits`), and those of them whose
request's `Complete` failed without being applied (`lostCommits`). A transaction counts as committed when the
ledger grew, also when its `COMMIT`'s reply was lost and the handler answered `500`; an `Acquire` whose `COMMIT` was
applied while its reply was lost leaves an in-progress row and nothing in flight.

- `pinv_reachable`: in every reachable state the key's row, the requests in flight and the counters agree (`PInv`):
  at most one request is in flight, within the row's lease, and a completed row has none in flight.
- `principal_key_commits`: the ledger grows by exactly the transactions committed, which are at most one more than
  the lost ones; and once a commit is not lost, every request that reaches a fault-free `Acquire` is answered `409`
  "request is already in progress" or with the replay of the row.
- `lost_complete_recommits`: a request whose ledger transaction commits and whose `Complete` fails leaves its
  row in progress; the same request after the lease commits a second time.
-/

namespace WithdrawApi

/-! ## The steps of one request -/

/-- Where the route leaves a request at `Acquire`: answered, or granted `Acquired` as principal `u`. -/
inductive Front
  | answered (r : Response)
  | granted (u : String)

section Phases

variable {σ : Type} (verify : String → Option String) (allowKey : String → σ → Except Unit RateResult × σ)
  (sha256 : List UInt8 → Digest) (encode : Body → List UInt8) (parseBody : List UInt8 → Option Int64)

/-- The route up to `Acquire`: the JWT middleware, the limiter, the checks of the idempotency middleware, and
`Acquire` with the answer to its decision. -/
def routeFront (f : AcquireFaults) (now : Nat) (s : RouteState σ) (req : HttpRequest) : Front × RouteState σ :=
  match newHTTPJWTMiddleware verify req with
  | .error r => (.answered r, s)
  | .ok userID =>
    match newHTTPRateLimitMiddleware allowKey userID req s.limiter with
    | (.error r, lim) => (.answered r, { s with limiter := lim })
    | (.ok (), lim) =>
      match userID with
      | none => (.answered (errorResponse 401 "missing authenticated user"), { s with limiter := lim })
      | some u =>
        if trimSpace u = "" then (.answered (errorResponse 401 "missing authenticated user"), { s with limiter := lim })
        else if trimSpace req.idempotencyKey = "" then
          (.answered (errorResponse 400 "missing idempotency key"), { s with limiter := lim })
        else match acquire f now s.table (withdrawIdempotencyRequest sha256 u req) with
          | (.error _, t) => (.answered (errorResponse 500 "failed to acquire idempotency key"), ⟨s.db, t, lim⟩)
          | (.ok d, t) =>
            match d.type with
            | .replay => (.answered (replayResponse d), ⟨s.db, t, lim⟩)
            | .inProgress => (.answered (errorResponse 409 "request is already in progress"), ⟨s.db, t, lim⟩)
            | .conflict =>
              (.answered (errorResponse 409 "idempotency key reused with different payload"), ⟨s.db, t, lim⟩)
            | .acquired => (.granted u, ⟨s.db, t, lim⟩)

/-- The route after the handler: `Complete` with the handler's response, and the answer. -/
def routeBack (f : CompleteFaults) (now : Nat) (t : Table) (q : Request) (resp : Response) : Response × Table :=
  match complete f now t q ⟨resp.status, encode resp.body, resp.contentType⟩ with
  | (.error _, t') => (errorResponse 500 "failed to persist idempotency response", t')
  | (.ok (), t') => (resp, t')

variable {verify allowKey sha256 encode parseBody}

/-- **The three steps run back to back are the route.** -/
theorem registerWithdrawRoutes_phases (f : RequestFaults) (now : Nat) (s : RouteState σ) (req : HttpRequest) :
    registerWithdrawRoutes verify allowKey sha256 encode parseBody f now s req =
      match routeFront verify allowKey sha256 f.acquire now s req with
      | (.answered r, s') => (r, s')
      | (.granted u, s') =>
        match withdrawHandle parseBody f.withdraw now (some u) req s'.db with
        | (resp, db) =>
          match routeBack encode f.complete now s'.table (withdrawIdempotencyRequest sha256 u req) resp with
          | (r, t) => (r, ⟨db, t, s'.limiter⟩) := by
  rcases hj : newHTTPJWTMiddleware verify req with r | userID
  · simp only [registerWithdrawRoutes, routeFront, hj]
  rcases hl : newHTTPRateLimitMiddleware allowKey userID req s.limiter with ⟨_ | ⟨⟩, lim⟩
  · simp only [registerWithdrawRoutes, routeFront, hj, hl]
  rw [registerWithdrawRoutes_of_allowed hj hl]
  simp only [routeFront, hj, hl]
  cases userID with
  | none => rfl
  | some u =>
    simp only [newHTTPWithdrawIdempotencyMiddleware]
    split_ifs
    · rfl
    · rfl
    · rcases ha : acquire f.acquire now s.table (withdrawIdempotencyRequest sha256 u req) with ⟨_ | d, t⟩
      · simp only [ha]
      · simp only [ha]
        cases d.type with
        | acquired =>
          dsimp only
          generalize withdrawHandle parseBody f.withdraw now (some u) req s.db = w
          obtain ⟨resp, db⟩ := w
          rcases hc : complete f.complete now t (withdrawIdempotencyRequest sha256 u req)
            ⟨resp.status, encode resp.body, resp.contentType⟩ with ⟨_ | ⟨⟩, t'⟩ <;> simp only [routeBack, hc]
        | _ => rfl

/-- What the route does up to `Acquire`: it answers and writes nothing but the row of an `Acquire` whose lost
`COMMIT` was applied, or grants `Acquired` to a principal that passed the JWT middleware, the limiter and the
checks. -/
theorem routeFront_cases {f : AcquireFaults} {now : Nat} {s route : RouteState σ} {req : HttpRequest} {o : Front}
    (h : routeFront verify allowKey sha256 f now s req = (o, route)) :
    (route.db = s.db ∧ (route.table = s.table ∨ ∃ u, newHTTPJWTMiddleware verify req = .ok (some u) ∧
        trimSpace u ≠ "" ∧ acquire { f with commit := false } now s.table (withdrawIdempotencyRequest sha256 u req) =
          (.ok { type := .acquired }, route.table)) ∧ ∃ r, o = .answered r) ∨
    ∃ u d, newHTTPJWTMiddleware verify req = .ok (some u) ∧ trimSpace u ≠ "" ∧
      route.db = s.db ∧ acquire f now s.table (withdrawIdempotencyRequest sha256 u req) = (.ok d, route.table) ∧
      d.type = .acquired ∧ o = .granted u := by
  rcases hj : newHTTPJWTMiddleware verify req with r | userID <;> simp only [routeFront, hj] at h
  · cases h; exact .inl ⟨rfl, .inl rfl, _, rfl⟩
  rcases hl : newHTTPRateLimitMiddleware allowKey userID req s.limiter with ⟨_ | ⟨⟩, lim⟩ <;> simp only [hl] at h
  · cases h; exact .inl ⟨rfl, .inl rfl, _, rfl⟩
  cases userID with
  | none => cases h; exact .inl ⟨rfl, .inl rfl, _, rfl⟩
  | some u =>
    dsimp only at h
    split_ifs at h with hu
    · cases h; exact .inl ⟨rfl, .inl rfl, _, rfl⟩
    · cases h; exact .inl ⟨rfl, .inl rfl, _, rfl⟩
    rcases ha : acquire f now s.table (withdrawIdempotencyRequest sha256 u req) with ⟨_ | d, t⟩ <;>
      simp only [ha] at h
    · cases h
      rcases acquire_error ha with ⟨-, rfl⟩ | ⟨-, h'⟩
      · exact .inl ⟨rfl, .inl rfl, _, rfl⟩
      · exact .inl ⟨rfl, .inr ⟨u, rfl, hu, h'⟩, _, rfl⟩
    cases hd : d.type <;> simp only [hd] at h <;> cases h
    · exact .inr ⟨u, d, rfl, hu, rfl, ha, hd, rfl⟩
    all_goals exact .inl ⟨rfl, .inl (acquire_unchanged ha (by simp [hd])), _, rfl⟩

/-- A principal that passes the JWT middleware, the limiter and the checks gets the answer to `Acquire`'s decision. -/
theorem routeFront_of_acquire {f : AcquireFaults} {now : Nat} {s : RouteState σ} {req : HttpRequest} {u : String}
    {r : RateResult} {lim : σ} {d : Decision} {t : Table} (hj : newHTTPJWTMiddleware verify req = .ok (some u))
    (hu : trimSpace u ≠ "") (hl : allowKey (perUserKeyExtractor "withdraw" (some u) req.ip) s.limiter = (.ok r, lim))
    (hr : r.allowed = true) (hk : trimSpace req.idempotencyKey ≠ "")
    (ha : acquire f now s.table (withdrawIdempotencyRequest sha256 u req) = (.ok d, t)) :
    routeFront verify allowKey sha256 f now s req =
      (match d.type with
        | .replay => .answered (replayResponse d)
        | .inProgress => .answered (errorResponse 409 "request is already in progress")
        | .conflict => .answered (errorResponse 409 "idempotency key reused with different payload")
        | .acquired => .granted u, ⟨s.db, t, lim⟩) := by
  have hlim : newHTTPRateLimitMiddleware allowKey (some u) req s.limiter = (.ok (), lim) := by
    simp [newHTTPRateLimitMiddleware, hl, hr]
  simp only [routeFront, hj, hlim, if_neg hu, if_neg hk, ha]
  cases d.type <;> rfl

/-- `routeBack` answers `500` when `Complete` fails, and writes what `Complete` wrote. -/
theorem routeBack_error {f : CompleteFaults} {now : Nat} {t t' : Table} {q : Request} {resp : Response}
    {e : StoreError} (h : complete f now t q ⟨resp.status, encode resp.body, resp.contentType⟩ = (.error e, t')) :
    routeBack encode f now t q resp = (errorResponse 500 "failed to persist idempotency response", t') := by
  unfold routeBack
  rw [h]

/-- `routeBack` answers with the handler's response when `Complete` succeeds. -/
theorem routeBack_ok {f : CompleteFaults} {now : Nat} {t t' : Table} {q : Request} {resp : Response}
    (h : complete f now t q ⟨resp.status, encode resp.body, resp.contentType⟩ = (.ok (), t')) :
    routeBack encode f now t q resp = (resp, t') := by
  unfold routeBack
  rw [h]

theorem routeBack_table (f : CompleteFaults) (now : Nat) (t : Table) (q : Request) (resp : Response) :
    (routeBack encode f now t q resp).2 = (complete f now t q ⟨resp.status, encode resp.body, resp.contentType⟩).2 := by
  rcases h : complete f now t q ⟨resp.status, encode resp.body, resp.contentType⟩ with ⟨_ | ⟨⟩, t'⟩
  · rw [routeBack_error h]
  · rw [routeBack_ok h]

end Phases

/-! ## The handler -/

/-- The handler answered with the withdrawal. -/
def Response.committed (r : Response) : Bool :=
  match r.body with
  | .withdrawal _ => true
  | _ => false

/-- **The handler** answers in JSON with a status that fits `integer`; it leaves the relations as they were or
commits one debit and one ledger entry, and it commits when it answers with the withdrawal. -/
theorem withdrawHandle_spec {parseBody : List UInt8 → Option Int64} {f : Faults} {now : Nat} {userID : Option String}
    {req : HttpRequest} {db db' : Db} {resp : Response}
    (h : withdrawHandle parseBody f now userID req db = (resp, db')) :
    resp.contentType = "application/json; charset=utf-8" ∧ (int4 resp.status).isSome ∧
      (db' = db ∨ ∃ w e, db' = db.commit w e) ∧ (resp.committed = true → ∃ w e, db' = db.commit w e) := by
  cases userID with
  | none => cases h; exact ⟨rfl, by decide, .inl rfl, nofun⟩
  | some u =>
    simp only [withdrawHandle] at h
    split_ifs at h
    · cases h; exact ⟨rfl, by decide, .inl rfl, nofun⟩
    rcases hp : parseBody req.body with _ | a <;> simp only [hp] at h
    · cases h; exact ⟨rfl, by decide, .inl rfl, nofun⟩
    rcases hw : withdrawBalance uuidParse f now db u a req.chainID with ⟨r, db''⟩
    rw [hw] at h
    obtain ⟨hdb, hok⟩ := withdrawBalance_db hw
    rcases r with e | b
    · cases e <;> cases h <;> exact ⟨rfl, by decide, hdb, nofun⟩
    · cases h; exact ⟨rfl, rfl, hdb, fun _ => hok b rfl⟩

/-! ## Requests in flight -/

/-- A request past `Acquire`: its HTTP request, the lease `Acquire` wrote, once its handler has run the handler's
response, and, for the proof, whether the handler's ledger transaction committed. -/
structure Flight where
  req : HttpRequest
  lease : Nat
  handled : Option Response
  committed : Bool

/-- The route's state, the clock, the requests in flight, and two counters for the proof: the ledger transactions
committed, and those of them whose request's `Complete` failed. -/
structure Pipeline (σ : Type) where
  route : RouteState σ
  clock : Nat
  flights : List Flight
  commits : Nat
  lostCommits : Nat

/-- A start: nothing in flight, nothing counted. -/
def Pipeline.init {σ : Type} (route : RouteState σ) (clock : Nat) : Pipeline σ := ⟨route, clock, [], 0, 0⟩

section Steps

variable {σ : Type} (verify : String → Option String) (allowKey : String → σ → Except Unit RateResult × σ)
  (sha256 : List UInt8 → Digest) (encode : Body → List UInt8) (parseBody : List UInt8 → Option Int64)
  (p : String) (q : Request)

/-- The requests of the run: they pass the JWT middleware as `p`, and the store sees each of them as `q`. -/
def Principal (req : HttpRequest) : Prop :=
  newHTTPJWTMiddleware verify req = .ok (some p) ∧ withdrawIdempotencyRequest sha256 p req = q

/-- A request granted `Acquired` is in flight, under the lease `Acquire` wrote. -/
def Pipeline.grant (s : Pipeline σ) (route : RouteState σ) (req : HttpRequest) : Pipeline σ :=
  ⟨route, s.clock, s.flights ++ [⟨req, timestamptz (q.lockUntil s.clock), none, false⟩], s.commits, s.lostCommits⟩

/-- The handler of the flight at `i` runs; its transaction committed when the ledger grew. -/
def Pipeline.handle (s : Pipeline σ) (f : Faults) (i : Nat) (fl : Flight) : Pipeline σ :=
  let out := withdrawHandle parseBody f s.clock (some p) fl.req s.route.db
  let committed := decide (s.route.db.ledger.length < out.2.ledger.length)
  ⟨{ s.route with db := out.2 }, s.clock, s.flights.set i { fl with handled := some out.1, committed },
    s.commits + if committed then 1 else 0, s.lostCommits⟩

/-- The flight at `i`, handled with `resp`, runs `Complete` and is answered; its commit is lost when `Complete`
fails without being applied. -/
def Pipeline.finish (s : Pipeline σ) (f : CompleteFaults) (i : Nat) (fl : Flight) (resp : Response) : Pipeline σ :=
  ⟨{ s.route with table := (routeBack encode f s.clock s.route.table q resp).2 }, s.clock, s.flights.eraseIdx i,
    s.commits, s.lostCommits + if fl.committed && f.exec && !f.execApplied then 1 else 0⟩

/-- One step of the run. -/
inductive PStep : Pipeline σ → Pipeline σ → Prop
  /-- The clock moves on, within the lease of every request in flight. -/
  | tick {s : Pipeline σ} {c : Nat} (hc : s.clock ≤ c) (hl : ∀ fl ∈ s.flights, c < fl.lease) :
      PStep s { s with clock := c }
  /-- A request is answered at `Acquire` or before it. -/
  | answer {s : Pipeline σ} {req : HttpRequest} {f : AcquireFaults} {r : Response} {route : RouteState σ}
      (hreq : Principal verify sha256 p q req)
      (h : routeFront verify allowKey sha256 f s.clock s.route req = (.answered r, route)) :
      PStep s { s with route := route }
  /-- A request is granted `Acquired`. -/
  | grant {s : Pipeline σ} {req : HttpRequest} {f : AcquireFaults} {u : String} {route : RouteState σ}
      (hreq : Principal verify sha256 p q req)
      (h : routeFront verify allowKey sha256 f s.clock s.route req = (.granted u, route)) :
      PStep s (s.grant q route req)
  /-- The handler of a request in flight runs. -/
  | handle {s : Pipeline σ} {i : Nat} {fl : Flight} (f : Faults) (hi : s.flights[i]? = some fl)
      (hn : fl.handled = none) : PStep s (s.handle parseBody p f i fl)
  /-- A handled request runs `Complete` and is answered. -/
  | finish {s : Pipeline σ} {i : Nat} {fl : Flight} {resp : Response} (f : CompleteFaults)
      (hi : s.flights[i]? = some fl) (hh : fl.handled = some resp) : PStep s (s.finish encode q f i fl resp)

/-- The states a run reaches from `s₀`. -/
inductive PReachable (s₀ : Pipeline σ) : Pipeline σ → Prop
  | refl : PReachable s₀ s₀
  | step {s s' : Pipeline σ} : PReachable s₀ s → PStep verify allowKey sha256 encode parseBody p q s s' →
      PReachable s₀ s'

end Steps

/-! ## The invariant -/

/-- How the row of the key stands with the requests in flight and the counters: no row, nothing in flight and no
commit counted; a row in progress, at most one request in flight, under the row's lease, whose commit is the only
one not lost; or a completed row, nothing in flight, and at most one commit not lost. -/
def KeyRowInv {σ : Type} (q : Request) (s : Pipeline σ) : Option Record → Prop
  | none => s.flights = [] ∧ s.commits = s.lostCommits
  | some x => x.requestHash = q.trimmedHash ∧
    ((x.status = "in_progress" ∧ s.flights.length ≤ 1 ∧ (∀ fl ∈ s.flights, fl.lease = x.lockedUntil) ∧
        s.commits = s.lostCommits + s.flights.countP Flight.committed) ∨
      (x.status = "completed" ∧ s.flights = [] ∧ s.commits ≤ s.lostCommits + 1))

/-- **The invariant of a run**, for principal `p`, store request `q`, and a ledger of `n₀` entries at the start. -/
structure PInv {σ : Type} (p : String) (q : Request) (n₀ : Nat) (s : Pipeline σ) : Prop where
  leases : ∀ fl ∈ s.flights, s.clock < fl.lease
  handled : ∀ fl ∈ s.flights, ∀ r, fl.handled = some r →
    r.contentType = "application/json; charset=utf-8" ∧ (int4 r.status).isSome
  fresh : ∀ fl ∈ s.flights, fl.handled = none → fl.committed = false
  named : (s.route.table.find q.recordKey).isSome → trimSpace p ≠ "" ∧ q.recordKey.2 ≠ ""
  row : KeyRowInv q s (s.route.table.find q.recordKey)
  ledger : s.route.db.ledger.length = n₀ + s.commits

section Invariant

variable {σ : Type} {verify : String → Option String} {allowKey : String → σ → Except Unit RateResult × σ}
  {sha256 : List UInt8 → Digest} {encode : Body → List UInt8} {parseBody : List UInt8 → Option Int64}
  {p : String} {q : Request} {n₀ : Nat} {s : Pipeline σ}

theorem single_flight {l : List Flight} {i : Nat} {a : Flight} (hl : l.length ≤ 1) (hi : l[i]? = some a) :
    i = 0 ∧ l = [a] := by
  match l, i, hl, hi with
  | [_], 0, _, hi => exact ⟨rfl, by simpa using hi⟩
  | [_], _ + 1, _, hi => simp at hi
  | _ :: _ :: _, _, hl, _ => simp at hl

/-- A request in flight holds the row of the key, in progress. -/
theorem PInv.row_of_flight (hI : PInv p q n₀ s) (hne : s.flights ≠ []) :
    ∃ x, s.route.table.find q.recordKey = some x ∧ x.requestHash = q.trimmedHash ∧ x.status = "in_progress" ∧
      s.flights.length ≤ 1 ∧ (∀ fl ∈ s.flights, fl.lease = x.lockedUntil) ∧
      s.commits = s.lostCommits + s.flights.countP Flight.committed := by
  have hr := hI.row
  cases hx : s.route.table.find q.recordKey with
  | none => rw [hx] at hr; exact absurd hr.1 hne
  | some x =>
    rw [hx] at hr
    obtain ⟨hxH, ⟨hip, hl, hfl, hc⟩ | ⟨-, hfs, -⟩⟩ := hr
    · exact ⟨x, rfl, hxH, hip, hl, hfl, hc⟩
    · exact absurd hfs hne

/-- The counters: at most one commit is not lost. -/
theorem PInv.commits_le (hI : PInv p q n₀ s) : s.commits ≤ s.lostCommits + 1 := by
  have hr := hI.row
  cases hx : s.route.table.find q.recordKey with
  | none => rw [hx] at hr; obtain ⟨-, hc⟩ := hr; omega
  | some x =>
    rw [hx] at hr
    obtain ⟨-, ⟨-, hl, -, hc⟩ | ⟨-, -, hc⟩⟩ := hr
    · have := List.countP_le_length Flight.committed (l := s.flights); omega
    · exact hc

/-- An `Acquire` of `q` that writes `Acquired` at the clock leaves the key's row in progress under the lease it
wrote; a row it takes has no request in flight, so only lost commits were counted. -/
theorem PInv.acquired_row (hlen : q.trimmedHash.length = 64) (hI : PInv p q n₀ s) {f : AcquireFaults}
    {d : Decision} {t : Table} (ha : acquire f s.clock s.route.table q = (.ok d, t)) (hd : d.type = .acquired) :
    ∃ x, t.find q.recordKey = some x ∧ x.requestHash = q.trimmedHash ∧ x.status = "in_progress" ∧
      x.lockedUntil = timestamptz (q.lockUntil s.clock) ∧ s.flights = [] ∧ s.commits = s.lostCommits := by
  have hr := hI.row
  rcases (acquire_acquired ha hd).2 with ⟨hn, hv, hv', hx'⟩ | ⟨x, hx, hxH, hxc, hxl, hx'⟩
  · rw [hn] at hr
    rw [bpchar_of_length hlen] at hv'
    cases hv'
    exact ⟨_, hx', rfl, rfl, rfl, hr⟩
  · rw [hx] at hr
    obtain ⟨-, ⟨hip, -, hfl, hc⟩ | ⟨hcomp, -, -⟩⟩ := hr
    · have hfs : s.flights = [] := List.eq_nil_iff_forall_not_mem.mpr fun fl hm =>
        hxl ⟨hip, hfl fl hm ▸ hI.leases fl hm⟩
      exact ⟨_, hx', hxH, rfl, rfl, hfs, by simpa [hfs] using hc⟩
    · exact absurd hcomp hxc

theorem PInv.grant (hlen : q.trimmedHash.length = 64) (httl : q.lockTTL = 0) {route : RouteState σ}
    {req : HttpRequest} {f : AcquireFaults} {u : String} (hI : PInv p q n₀ s)
    (hreq : Principal verify sha256 p q req)
    (h : routeFront verify allowKey sha256 f s.clock s.route req = (.granted u, route)) :
    PInv p q n₀ (s.grant q route req) := by
  obtain ⟨-, -, r, hr⟩ | ⟨u', d, hj, hu, hdb, ha, hd, hu'⟩ := routeFront_cases h
  · cases hr
  cases hu'
  obtain rfl : u = p := by rw [hreq.1] at hj; cases hj; rfl
  rw [hreq.2] at ha
  obtain ⟨-, hk, -, -⟩ := acquire_ok ha
  have hlease : s.clock < timestamptz (q.lockUntil s.clock) := by
    have httl' : effectiveLockTTL q.lockTTL = 30 * 10 ^ 9 := by rw [httl]; rfl
    simp only [Request.lockUntil, httl', timestamptz]; omega
  obtain ⟨x, hx, hxH, hip, hxl, hfs, hc⟩ := hI.acquired_row hlen ha hd
  have hflights : (s.grant q route req).flights = [⟨req, timestamptz (q.lockUntil s.clock), none, false⟩] := by
    simp [Pipeline.grant, hfs]
  refine ⟨?_, ?_, ?_, fun _ => ⟨hu, hk⟩, ?_, ?_⟩
  · rw [hflights]; simpa [Pipeline.grant] using hlease
  · rw [hflights]; simp
  · rw [hflights]; simp
  · show KeyRowInv q _ (route.table.find q.recordKey)
    rw [hx]
    refine ⟨hxH, .inl ⟨hip, ?_, ?_, ?_⟩⟩ <;> rw [hflights]
    · simp
    · simp [hxl]
    · simp [Pipeline.grant, hc]
  · show route.db.ledger.length = n₀ + s.commits
    rw [hdb]; exact hI.ledger

/-- An answer at `Acquire` whose lost `COMMIT` was applied leaves the key's row in progress and nothing in flight. -/
theorem PInv.lost_acquire (hlen : q.trimmedHash.length = 64) {route : RouteState σ} {req : HttpRequest}
    {f : AcquireFaults} {u : String} (hI : PInv p q n₀ s) (hreq : Principal verify sha256 p q req)
    (hdb : route.db = s.route.db) (hj : newHTTPJWTMiddleware verify req = .ok (some u)) (hu : trimSpace u ≠ "")
    (ha : acquire f s.clock s.route.table (withdrawIdempotencyRequest sha256 u req) =
      (.ok { type := .acquired }, route.table)) :
    PInv p q n₀ { s with route := route } := by
  obtain rfl : u = p := by rw [hreq.1] at hj; cases hj; rfl
  rw [hreq.2] at ha
  obtain ⟨-, hk, -, -⟩ := acquire_ok ha
  obtain ⟨x, hx, hxH, hip, -, hfs, hc⟩ := hI.acquired_row hlen ha rfl
  refine ⟨hI.leases, hI.handled, hI.fresh, fun _ => ⟨hu, hk⟩, ?_, ?_⟩
  · show KeyRowInv q _ (route.table.find q.recordKey)
    rw [hx]
    exact ⟨hxH, .inl ⟨hip, by simp [hfs], by simp [hfs], by simp [hfs, hc]⟩⟩
  · show route.db.ledger.length = n₀ + s.commits
    rw [hdb]; exact hI.ledger

theorem PInv.handle {i : Nat} {fl : Flight} (f : Faults) (hI : PInv p q n₀ s) (hi : s.flights[i]? = some fl)
    (hn : fl.handled = none) : PInv p q n₀ (s.handle parseBody p f i fl) := by
  obtain ⟨x, hx, hxH, hip, hl, hfl, hc⟩ := hI.row_of_flight (List.ne_nil_of_mem (List.getElem?_mem hi))
  obtain ⟨rfl, hfs⟩ := single_flight hl hi
  rcases hw : withdrawHandle parseBody f s.clock (some p) fl.req s.route.db with ⟨resp, db'⟩
  obtain ⟨hct, hsc, hdb, -⟩ := withdrawHandle_spec hw
  have hmem : fl ∈ s.flights := hfs ▸ List.mem_singleton_self fl
  have hc₀ : fl.committed = false := hI.fresh fl hmem hn
  set c := decide (s.route.db.ledger.length < db'.ledger.length) with hcdef
  have hgrow : db'.ledger.length = s.route.db.ledger.length + if c then 1 else 0 := by
    rcases hdb with rfl | ⟨w, e, rfl⟩ <;> simp [c, Db.commit]
  have hfl' : (s.handle parseBody p f 0 fl).flights = [{ fl with handled := some resp, committed := c }] := by
    simp [Pipeline.handle, hw, hfs, c]
  refine ⟨?_, ?_, ?_, hI.named, ?_, ?_⟩
  · rw [hfl']; simpa [Pipeline.handle] using hI.leases fl hmem
  · rw [hfl']; simpa using ⟨hct, hsc⟩
  · rw [hfl']; simp
  · show KeyRowInv q _ (s.route.table.find q.recordKey)
    rw [hx]
    refine ⟨hxH, .inl ⟨hip, ?_, ?_, ?_⟩⟩ <;> rw [hfl']
    · simp
    · simpa using hfl fl hmem
    · have : s.commits = s.lostCommits := by simpa [hfs, hc₀] using hc
      cases hcc : c <;> simp [Pipeline.handle, hw, ← hcdef, hcc, this]
  · show (s.handle parseBody p f 0 fl).route.db.ledger.length = n₀ + (s.handle parseBody p f 0 fl).commits
    simp only [Pipeline.handle, hw, ← hcdef]
    rw [hgrow, hI.ledger]
    omega

theorem PInv.finish (hs : q.recordKey.1 ≠ "") (hlen : q.trimmedHash.length = 64) {i : Nat} {fl : Flight}
    {resp : Response} (f : CompleteFaults) (hI : PInv p q n₀ s) (hi : s.flights[i]? = some fl)
    (hh : fl.handled = some resp) : PInv p q n₀ (s.finish encode q f i fl resp) := by
  obtain ⟨x, hx, hxH, hip, hl, hfl, hc⟩ := hI.row_of_flight (List.ne_nil_of_mem (List.getElem?_mem hi))
  obtain ⟨rfl, hfs⟩ := single_flight hl hi
  have hmem : fl ∈ s.flights := hfs ▸ List.mem_singleton_self fl
  obtain ⟨hct, hsc⟩ := hI.handled fl hmem resp hh
  obtain ⟨hp, hk⟩ := hI.named (by rw [hx]; rfl)
  have hh' : q.trimmedHash ≠ "" := fun h => by rw [h] at hlen; cases hlen
  have hstores : ∀ g : CompleteFaults, g.exec = false →
      (complete g s.clock s.route.table q ⟨resp.status, encode resp.body, resp.contentType⟩).2.find q.recordKey =
        some (x.complete resp.status (encode resp.body) (trimSpace resp.contentType) s.clock) := fun g hg =>
    complete_stores hg hs hk hh' hx (by rw [hxH]; exact bpcharEq_self _) hsc (by simp only [hct]; decide)
  have hle : s.commits ≤ s.lostCommits + 1 := by
    rw [hc, hfs, List.countP_singleton]; split <;> omega
  have hfl' : (s.finish encode q f 0 fl resp).flights = [] := by simp [Pipeline.finish, hfs]
  refine ⟨by simp [hfl'], by simp [hfl'], by simp [hfl'], fun _ => ⟨hp, hk⟩, ?_, hI.ledger⟩
  show KeyRowInv q _ ((routeBack encode f s.clock s.route.table q resp).2.find q.recordKey)
  rw [routeBack_table]
  cases hf : f.exec
  · rw [hstores f hf]
    exact ⟨hxH, .inr ⟨rfl, hfl', by simpa [Pipeline.finish, hf] using hle⟩⟩
  cases ha : f.execApplied
  · obtain ⟨e, he⟩ : ∃ e, complete f s.clock s.route.table q ⟨resp.status, encode resp.body, resp.contentType⟩ =
        (.error e, s.route.table) := complete_exec hf ha
    rw [he, hx]
    refine ⟨hxH, .inl ⟨hip, by simp [hfl'], by simp [hfl'], ?_⟩⟩
    rw [hfl', List.countP_nil, Nat.add_zero]
    rw [hfs, List.countP_singleton] at hc
    simpa [Pipeline.finish, hf, ha] using hc
  · rw [complete_applied hf ha, hstores {} rfl]
    exact ⟨hxH, .inr ⟨rfl, hfl', by simpa [Pipeline.finish, hf, ha] using hle⟩⟩

/-- Once a commit is not lost, every request of the principal that passes the limiter and meets a fault-free
`Acquire` is answered `409` "request is already in progress", or with the replay of the completed row. -/
theorem PInv.answers (hs : q.recordKey.1 ≠ "") (hlen : q.trimmedHash.length = 64) (hI : PInv p q n₀ s)
    (hlt : s.lostCommits < s.commits) {req : HttpRequest} {r : RateResult} {lim : σ} {o : Front}
    {route : RouteState σ} (hreq : Principal verify sha256 p q req)
    (hl : allowKey (perUserKeyExtractor "withdraw" (some p) req.ip) s.route.limiter = (.ok r, lim))
    (hra : r.allowed = true) (hf : routeFront verify allowKey sha256 {} s.clock s.route req = (o, route)) :
    o = .answered (errorResponse 409 "request is already in progress") ∨
      ∃ x, s.route.table.find q.recordKey = some x ∧ x.status = "completed" ∧
        o = .answered (replayResponse x.replay) := by
  have hh : q.trimmedHash ≠ "" := fun h => by rw [h] at hlen; cases hlen
  have hr := hI.row
  cases hx : s.route.table.find q.recordKey with
  | none => rw [hx] at hr; obtain ⟨-, hc⟩ := hr; omega
  | some x =>
    rw [hx] at hr
    obtain ⟨hp, hk⟩ := hI.named (by rw [hx]; rfl)
    have hk' : trimSpace req.idempotencyKey ≠ "" := by
      rwa [← withdrawIdempotencyRequest_key sha256 p req, hreq.2]
    obtain ⟨hxH, ⟨hip, -, hfl, hc⟩ | ⟨hcomp, -, -⟩⟩ := hr
    · have hne : s.flights ≠ [] := fun h => by rw [h, List.countP_nil] at hc; omega
      obtain ⟨fl, hm⟩ := List.exists_mem_of_ne_nil _ hne
      have ha := acquire_inProgress hs hk hh hx hxH hip (hfl fl hm ▸ hI.leases fl hm)
      rw [← hreq.2] at ha
      rw [routeFront_of_acquire hreq.1 hp hl hra hk' ha] at hf
      cases hf
      exact .inl rfl
    · have ha : acquire {} s.clock s.route.table q = (.ok x.replay, s.route.table) :=
        acquire_completed hs hk hh hx hxH hcomp
      rw [← hreq.2] at ha
      rw [routeFront_of_acquire hreq.1 hp hl hra hk' ha] at hf
      cases hf
      exact .inr ⟨x, rfl, hcomp, rfl⟩

/-- One step keeps the invariant. -/
theorem PInv.step (hs : q.recordKey.1 ≠ "") (hlen : q.trimmedHash.length = 64) (httl : q.lockTTL = 0)
    {s' : Pipeline σ} (hI : PInv p q n₀ s) (hst : PStep verify allowKey sha256 encode parseBody p q s s') :
    PInv p q n₀ s' := by
  cases hst with
  | tick _ hl => exact ⟨hl, hI.handled, hI.fresh, hI.named, hI.row, hI.ledger⟩
  | answer hreq h =>
    obtain ⟨hdb, ht | ⟨u, hj, hu, ha⟩, -⟩ | ⟨u, d, -, -, -, -, -, ho⟩ := routeFront_cases h
    · exact ⟨hI.leases, hI.handled, hI.fresh, ht ▸ hI.named, ht ▸ hI.row, hdb ▸ hI.ledger⟩
    · exact hI.lost_acquire hlen hreq hdb hj hu ha
    · cases ho
  | grant hreq h => exact hI.grant hlen httl hreq h
  | handle f hi hn => exact hI.handle f hi hn
  | finish f hi hh => exact hI.finish hs hlen f hi hh

/-- **The invariant holds along every run.** -/
theorem pinv_reachable (hs : q.recordKey.1 ≠ "") (hlen : q.trimmedHash.length = 64) (httl : q.lockTTL = 0)
    {s₀ : Pipeline σ} (h₀ : PInv p q n₀ s₀) (hr : PReachable verify allowKey sha256 encode parseBody p q s₀ s) :
    PInv p q n₀ s := by
  induction hr with
  | refl => exact h₀
  | step _ hst ih => exact ih.step hs hlen httl hst

theorem pinv_init (route : RouteState σ) (clock : Nat) (h : route.table.find q.recordKey = none) :
    PInv p q route.db.ledger.length (Pipeline.init route clock) where
  leases _ h := (List.not_mem_nil _ h).elim
  handled _ h := (List.not_mem_nil _ h).elim
  fresh _ h := (List.not_mem_nil _ h).elim
  named h' := by simp only [Pipeline.init, h, Option.isSome_none] at h'; cases h'
  row := by show KeyRowInv q _ (route.table.find q.recordKey); rw [h]; exact ⟨rfl, rfl⟩
  ledger := rfl

end Invariant

/-! ## One principal, one key -/

section PrincipalKey

variable {σ : Type} {verify : String → Option String} {allowKey : String → σ → Except Unit RateResult × σ}
  {sha256 : List UInt8 → Digest} {encode : Body → List UInt8} {parseBody : List UInt8 → Option Int64}
  {p : String}

/-- **Requests of one principal under one key, interleaved.** Start from a state without the key's row and run the
principal's requests for one key and one payload, interleaved at `Acquire`, the handler and `Complete`, with any
database call failing and every request granted `Acquired` finishing within its lease. The ledger grows by exactly
the ledger transactions committed, and these are at most one more than the committed requests whose `Complete`
failed. Once a commit is not lost in that way, every request that passes the limiter and meets a fault-free
`Acquire` is answered `409` "request is already in progress", or with the replay of the completed row. -/
theorem principal_key_commits (req₀ : HttpRequest) (route₀ : RouteState σ) (clock₀ : Nat)
    (h₀ : route₀.table.find (withdrawIdempotencyRequest sha256 p req₀).recordKey = none) {s : Pipeline σ}
    (hr : PReachable verify allowKey sha256 encode parseBody p (withdrawIdempotencyRequest sha256 p req₀)
      (Pipeline.init route₀ clock₀) s) :
    s.route.db.ledger.length = route₀.db.ledger.length + s.commits ∧ s.commits ≤ s.lostCommits + 1 ∧
    (s.lostCommits < s.commits →
      ∀ (req : HttpRequest) (r : RateResult) (lim : σ) (o : Front) (route : RouteState σ),
        Principal verify sha256 p (withdrawIdempotencyRequest sha256 p req₀) req →
        allowKey (perUserKeyExtractor "withdraw" (some p) req.ip) s.route.limiter = (.ok r, lim) →
        r.allowed = true → routeFront verify allowKey sha256 {} s.clock s.route req = (o, route) →
        o = .answered (errorResponse 409 "request is already in progress") ∨
          ∃ x, s.route.table.find (withdrawIdempotencyRequest sha256 p req₀).recordKey = some x ∧
            x.status = "completed" ∧ o = .answered (replayResponse x.replay)) := by
  have hs := withdrawIdempotencyRequest_scope_ne sha256 p req₀
  have hlen : (withdrawIdempotencyRequest sha256 p req₀).trimmedHash.length = 64 := by
    rw [withdrawIdempotencyRequest_trimmedHash, length_withdrawRequestHash]
  have hI := pinv_reachable hs hlen rfl (pinv_init route₀ clock₀ h₀) hr
  exact ⟨hI.ledger, hI.commits_le, fun hlt _ _ _ _ _ hreq hl hra hf => hI.answers hs hlen hlt hreq hl hra hf⟩

/-- The seed user's request, granted and handled: one commit, not lost. -/
theorem seed_request_handled :
    let q := withdrawIdempotencyRequest lengthDigest seedUser sampleWithdrawal
    ∃ s : Pipeline Unit, PReachable (fun _ => some seedUser) allowAll lengthDigest (fun _ => []) amount100 seedUser q
        (Pipeline.init ⟨seedDb, Table.empty, ()⟩ 0) s ∧ s.lostCommits < s.commits ∧
      s.route.db.ledger.length = seedDb.ledger.length + s.commits ∧ s.commits ≤ s.lostCommits + 1 ∧
      (s.lostCommits < s.commits →
        ∀ (req : HttpRequest) (r : RateResult) (lim : Unit) (o : Front) (route : RouteState Unit),
          Principal (fun _ => some seedUser) lengthDigest seedUser q req →
          allowAll (perUserKeyExtractor "withdraw" (some seedUser) req.ip) s.route.limiter = (.ok r, lim) →
          r.allowed = true → routeFront (fun _ => some seedUser) allowAll lengthDigest {} s.clock s.route req = (o, route) →
          o = .answered (errorResponse 409 "request is already in progress") ∨
            ∃ x, s.route.table.find q.recordKey = some x ∧ x.status = "completed" ∧
              o = .answered (replayResponse x.replay)) := by
  intro q
  have hlen : q.trimmedHash.length = 64 := by
    rw [withdrawIdempotencyRequest_trimmedHash, length_withdrawRequestHash]
  obtain ⟨t₁, ha⟩ : ∃ t, acquire {} 0 Table.empty q = (.ok { type := .acquired }, t) :=
    acquire_insert (withdrawIdempotencyRequest_scope_ne _ _ _) (by rw [withdrawIdempotencyRequest_key]; decide)
      (withdrawIdempotencyRequest_hash_ne _ _ _) (by rw [withdrawIdempotencyRequest_scope]; decide)
      (by rw [withdrawIdempotencyRequest_key]; decide) hlen.le rfl
  have hf : routeFront (fun _ => some seedUser) allowAll lengthDigest {} 0 ⟨seedDb, Table.empty, ()⟩ sampleWithdrawal =
      (.granted seedUser, ⟨seedDb, t₁, ()⟩) :=
    routeFront_of_acquire (s := ⟨seedDb, Table.empty, ()⟩) (by rfl) (by decide) (by rfl) (by rfl) (by decide) ha
  have hr : PReachable (fun _ => some seedUser) allowAll lengthDigest (fun _ => []) amount100 seedUser q
      (Pipeline.init ⟨seedDb, Table.empty, ()⟩ 0) (((Pipeline.init ⟨seedDb, Table.empty, ()⟩ 0).grant q
        ⟨seedDb, t₁, ()⟩ sampleWithdrawal).handle amount100 seedUser {} 0 ⟨sampleWithdrawal, _, none, false⟩) :=
    .step (.step .refl (.grant ⟨by rfl, rfl⟩ hf)) (.handle {} rfl rfl)
  have hc : seedDb.ledger.length <
      (withdrawHandle amount100 {} 0 (some seedUser) sampleWithdrawal seedDb).2.ledger.length := by decide
  refine ⟨_, hr, ?_, principal_key_commits sampleWithdrawal ⟨seedDb, Table.empty, ()⟩ 0 (by rfl) hr⟩
  simp [Pipeline.handle, Pipeline.grant, Pipeline.init, hc]

/-- **A lost response lets the same request commit twice.** The seed user's request commits its ledger transaction
at time 0 and its `Complete` fails: it is answered `500`, within its lease, and leaves the row in progress until
30 s. The same request at 30 s is granted `Acquired` again and commits a second ledger entry, answered `200`,
whatever SHA-256 and the encoder are. -/
theorem lost_complete_recommits (sha256 : List UInt8 → Digest) (encode : Body → List UInt8) :
    let A := registerWithdrawRoutes (fun _ => some seedUser) allowAll sha256 encode amount100
      { complete := { exec := true } } 0 ⟨seedDb, Table.empty, ()⟩ sampleWithdrawal
    let B := registerWithdrawRoutes (fun _ => some seedUser) allowAll sha256 encode amount100 {} (30 * 10 ^ 9) A.2
      sampleWithdrawal
    A.1.status = 500 ∧ A.2.db.ledger.length = 1 ∧
      (∃ x, A.2.table.find (withdrawIdempotencyRequest sha256 seedUser sampleWithdrawal).recordKey = some x ∧
        x.status = "in_progress" ∧ x.lockedUntil = 30 * 10 ^ 9) ∧
      B.1.status = 200 ∧ B.2.db.ledger.length = 2 := by
  intro A B
  set q := withdrawIdempotencyRequest sha256 seedUser sampleWithdrawal with hq
  have hs : q.recordKey.1 ≠ "" := withdrawIdempotencyRequest_scope_ne sha256 seedUser sampleWithdrawal
  have hk : q.recordKey.2 ≠ "" := by rw [hq, withdrawIdempotencyRequest_key]; decide
  have hh : q.trimmedHash ≠ "" := withdrawIdempotencyRequest_hash_ne sha256 seedUser sampleWithdrawal
  have hlen : q.trimmedHash.length = 64 := by
    rw [hq, withdrawIdempotencyRequest_trimmedHash, length_withdrawRequestHash]
  set w₁ := withdrawHandle amount100 {} 0 (some seedUser) sampleWithdrawal seedDb with hw₁
  set w₂ := withdrawHandle amount100 {} (30 * 10 ^ 9) (some seedUser) sampleWithdrawal w₁.2 with hw₂
  have hw : w₁.2.ledger.length = 1 ∧ w₂.1.status = 200 ∧ w₂.2.ledger.length = 2 ∧ (int4 w₂.1.status).isSome ∧
      (varchar 255 (trimSpace w₂.1.contentType)).isSome := by
    rw [hw₂, hw₁]; decide
  -- the first request: inserted, handled, `Complete` fails
  obtain ⟨t₁, ha₁⟩ : ∃ t, acquire {} 0 Table.empty q = (.ok { type := .acquired }, t) :=
    acquire_insert hs hk hh (by rw [hq, withdrawIdempotencyRequest_scope]; decide)
      (by rw [hq, withdrawIdempotencyRequest_key]; decide) hlen.le rfl
  have hL : q.lockUntil 0 = 30 * 10 ^ 9 := by
    rw [Request.lockUntil, show q.lockTTL = 0 from rfl]; rfl
  have hx₁ : t₁.find q.recordKey = some (.inProgress q.trimmedHash (q.lockUntil 0)) := by
    obtain ⟨-, ⟨-, hv, hv', hx⟩ | ⟨x, hx, -⟩⟩ := acquire_acquired ha₁ rfl
    · rw [bpchar_of_length hlen] at hv'
      cases hv'
      exact hx
    · cases hx
  obtain ⟨e, he⟩ : ∃ e, complete { exec := true } 0 t₁ q ⟨w₁.1.status, encode w₁.1.body, w₁.1.contentType⟩ =
      (.error e, t₁) := complete_exec rfl rfl
  have hA : A = (errorResponse 500 "failed to persist idempotency response", ⟨w₁.2, t₁, ()⟩) := by
    have hf : routeFront (fun _ => some seedUser) allowAll sha256 {} 0 ⟨seedDb, Table.empty, ()⟩ sampleWithdrawal =
        (.granted seedUser, ⟨seedDb, t₁, ()⟩) :=
      routeFront_of_acquire (s := ⟨seedDb, Table.empty, ()⟩) (by rfl) (by decide) (by rfl) (by rfl) (by decide) ha₁
    simp only [A]
    rw [registerWithdrawRoutes_phases, hf]
    dsimp only
    rw [routeBack_error he]
  -- the second request, at the end of the lease: taken over, handled, completed
  have ha₂ : acquire {} (30 * 10 ^ 9) t₁ q =
      (.ok { type := .acquired }, reacquireQuery t₁ q.recordKey.1 q.recordKey.2 (q.lockUntil (30 * 10 ^ 9))) :=
    acquire_reacquire hs hk hh hx₁ rfl (by dsimp only [Record.inProgress]; decide)
      (by dsimp only [Record.inProgress]; rw [hL]; decide)
  have hx₂ : (reacquireQuery t₁ q.recordKey.1 q.recordKey.2 (q.lockUntil (30 * 10 ^ 9))).find q.recordKey =
      some ((Record.inProgress q.trimmedHash (q.lockUntil 0)).reacquire (q.lockUntil (30 * 10 ^ 9))) := by
    rw [reacquireQuery_find, if_pos rfl, hx₁]; rfl
  obtain ⟨t₂, hc₂, -⟩ : ∃ t', complete {} (30 * 10 ^ 9)
      (reacquireQuery t₁ q.recordKey.1 q.recordKey.2 (q.lockUntil (30 * 10 ^ 9))) q
      ⟨w₂.1.status, encode w₂.1.body, w₂.1.contentType⟩ = (.ok (), t') ∧ _ :=
    (complete_of_find hs hk hh hx₂ (bpcharEq_self _)).2 hw.2.2.2.1 hw.2.2.2.2
  have hB : B = (w₂.1, ⟨w₂.2, t₂, ()⟩) := by
    have hf : routeFront (fun _ => some seedUser) allowAll sha256 {} (30 * 10 ^ 9) ⟨w₁.2, t₁, ()⟩ sampleWithdrawal =
        (.granted seedUser, ⟨w₁.2, reacquireQuery t₁ q.recordKey.1 q.recordKey.2 (q.lockUntil (30 * 10 ^ 9)), ()⟩) :=
      routeFront_of_acquire (s := ⟨w₁.2, t₁, ()⟩)
        (by rfl) (by decide) (by rfl) (by rfl) (by decide) ha₂
    simp only [B]
    rw [hA, registerWithdrawRoutes_phases, hf]
    dsimp only
    rw [routeBack_ok hc₂]
  rw [hA, hB]
  exact ⟨rfl, hw.1, ⟨_, hx₁, rfl, by rw [Record.inProgress, hL]; rfl⟩, hw.2.1, hw.2.2.1⟩

/-- The lost response with the route's sample digest and an empty encoder. -/
theorem lost_response_commits_twice :
    let A := registerWithdrawRoutes (fun _ => some seedUser) allowAll lengthDigest (fun _ => []) amount100
      { complete := { exec := true } } 0 ⟨seedDb, Table.empty, ()⟩ sampleWithdrawal
    let B := registerWithdrawRoutes (fun _ => some seedUser) allowAll lengthDigest (fun _ => []) amount100 {}
      (30 * 10 ^ 9) A.2 sampleWithdrawal
    A.1.status = 500 ∧ A.2.db.ledger.length = 1 ∧
      (∃ x, A.2.table.find (withdrawIdempotencyRequest lengthDigest seedUser sampleWithdrawal).recordKey = some x ∧
        x.status = "in_progress" ∧ x.lockedUntil = 30 * 10 ^ 9) ∧
      B.1.status = 200 ∧ B.2.db.ledger.length = 2 :=
  lost_complete_recommits lengthDigest (fun _ => [])

end PrincipalKey

end WithdrawApi
