import WithdrawApi.Pipeline.Route
import WithdrawApi.RateLimit.Limiter

/-!
# Principals do not interfere

The withdraw route keeps three stores: the Redis database of the limiter, the idempotency table and the wallets. A
request of principal `p` reads and writes, in each, only `p`'s part (`RouteState.view`): the limiter's key
`withdraw-api:withdraw:withdraw:user:p`, the idempotency rows of the scope `withdraw:` followed by `p` right-trimmed,
and the wallet of the user `p` parses to.

Each store gets two lemmas, one per direction: a call for `p` decides from `p`'s part alone and leaves there what
that part decides (`withdrawBalance_local`, `acquire_local_rows`, `complete_local_rows`, `withdrawAllowKey_local`),
and a call for another principal leaves `p`'s part as it was (`withdrawBalance_walletOf_of_ne`, `Table.scopeRows_of_ne`,
`withdrawAllowKey_frame`). The route lemmas compose them (`registerWithdrawRoutes_local`,
`registerWithdrawRoutes_frame`).

- `serveAll_isolation`: in every interleaving of requests of many principals, the requests of `p` get the responses,
  and leave `p`'s part of the stores as, `p`'s requests alone get and leave from any state that agrees on `p`'s part;
  provided every other principal of the run differs from `p` after `TrimRightFunc` and does not name `p`'s wallet.
-/

namespace WithdrawApi

/-! ## The wallets -/

theorem Db.walletOf_commit (db : Db) (w : Wallet) (e : LedgerEntry) (v : Uuid) :
    (db.commit w e).walletOf v = (db.walletOf v).map w.commitRow := by
  simp only [Db.walletOf, Db.commit, List.find?_map, Function.comp_def, Wallet.commitRow_userID]

section Wallets

variable {parse : String → Option Uuid} {f : Faults} {now : Nat} {db db₁ db₂ : Db} {u : String} {uid : Uuid}
  {a : Int64} {c : String}

/-- A withdrawal for a user id that does not parse to `uid` leaves `uid`'s wallet as it was: the row it commits has
the `id` of another user's row. -/
theorem withdrawWalletBalanceByUserID_walletOf_of_ne (hu : parse u ≠ some uid) :
    (withdrawWalletBalanceByUserID parse f now db u a c).2.walletOf uid = db.walletOf uid := by
  obtain ⟨r, db', hr⟩ : ∃ r db', withdrawWalletBalanceByUserID parse f now db u a c = (r, db') := ⟨_, _, rfl⟩
  rw [hr]
  rcases withdrawWalletBalanceByUserID_cases hr with ⟨_, -, rfl⟩ | ⟨v, w, e, hp, -, hq, -, rfl, -⟩
  · rfl
  obtain ⟨x, hx, hd⟩ := query_eq_row hq
  rw [Db.walletOf_commit]
  cases hy : db.walletOf uid with
  | none => rfl
  | some y =>
    have hwx : w.id = x.id := by rw [(Wallet.debit_eq_some hd).1]
    have hid : y.id ≠ w.id := fun hxy => by
      have hyx : y = x := Db.eq_of_id (Db.walletOf_mem hy).1 (Db.walletOf_mem hx).1 (hxy.trans hwx)
      exact hu (hp.trans (congrArg some ((Db.walletOf_mem hx).2.symm.trans (hyx ▸ (Db.walletOf_mem hy).2))))
    simp only [Option.map_some', Wallet.commitRow, if_neg hid]

/-- The repository reads the wallets only through the wallet of the user it parses: on two states that agree there,
it returns the same, and leaves that wallet the same. -/
theorem withdrawWalletBalanceByUserID_local (hp : parse u = some uid) (h : db₁.walletOf uid = db₂.walletOf uid) :
    (withdrawWalletBalanceByUserID parse f now db₁ u a c).1 = (withdrawWalletBalanceByUserID parse f now db₂ u a c).1 ∧
    (withdrawWalletBalanceByUserID parse f now db₁ u a c).2.walletOf uid =
      (withdrawWalletBalanceByUserID parse f now db₂ u a c).2.walletOf uid := by
  have hq : withdrawWalletBalanceByUserIDQuery db₁ uid a now = withdrawWalletBalanceByUserIDQuery db₂ uid a now := by
    simp only [withdrawWalletBalanceByUserIDQuery, h]
  simp only [withdrawWalletBalanceByUserID, hp, hq, hasWalletByUserID_eq, h]
  cases withdrawWalletBalanceByUserIDQuery db₂ uid a now with
  | row w =>
    dsimp only
    cases insertWalletLedger (ledgerParams w a c) now <;>
      simp only [apply_ite Prod.fst, apply_ite Prod.snd, apply_ite Db.walletOf, ite_apply, Db.walletOf_commit, h,
        and_self]
  | noRows | outOfRange =>
    simp only [apply_ite Prod.fst, apply_ite Prod.snd, apply_ite Db.walletOf, ite_apply, h, and_self]

/-- `WithdrawBalance` in the repository's terms. -/
theorem withdrawBalance_eq : withdrawBalance parse f now db u a c =
    if trimSpace u = "" then (.error .walletNotFound, db)
    else if a.val ≤ 0 then (.error .invalidAmount, db)
    else ((withdrawWalletBalanceByUserID parse f now db u a c).1.map
        fun b => ⟨b.userID, a, b.balanceMinor, b.currency, c, b.updatedAt⟩,
      (withdrawWalletBalanceByUserID parse f now db u a c).2) := by
  unfold withdrawBalance
  split_ifs
  · rfl
  · rfl
  · rcases withdrawWalletBalanceByUserID parse f now db u a c with ⟨_ | _, _⟩ <;> rfl

theorem withdrawBalance_walletOf_of_ne (hu : parse u ≠ some uid) :
    (withdrawBalance parse f now db u a c).2.walletOf uid = db.walletOf uid := by
  rw [withdrawBalance_eq]
  split_ifs
  · rfl
  · rfl
  · exact withdrawWalletBalanceByUserID_walletOf_of_ne hu

/-- **`WithdrawBalance` reads and writes the wallets only through the wallet of the user it names**: on two states
that agree on the wallet `u` parses to, it returns the same and leaves that wallet the same. -/
theorem withdrawBalance_local (f : Faults) (now : Nat) (a : Int64) (c : String) (h : (parse u).bind db₁.walletOf = (parse u).bind db₂.walletOf) :
    (withdrawBalance parse f now db₁ u a c).1 = (withdrawBalance parse f now db₂ u a c).1 ∧
    (parse u).bind (withdrawBalance parse f now db₁ u a c).2.walletOf =
      (parse u).bind (withdrawBalance parse f now db₂ u a c).2.walletOf := by
  rw [withdrawBalance_eq, withdrawBalance_eq]
  split_ifs
  · exact ⟨rfl, h⟩
  · exact ⟨rfl, h⟩
  cases hp : parse u with
  | none => simp only [withdraw_invalidUserID hp, Option.none_bind, and_self]
  | some uid =>
    rw [hp] at h
    obtain ⟨h1, h2⟩ := @withdrawWalletBalanceByUserID_local parse f now db₁ db₂ u uid a c hp h
    exact ⟨by rw [h1], h2⟩

end Wallets

/-! ## The idempotency table -/

/-- The rows of scope `sc`, by key. -/
def Table.scopeRows (t : Table) (sc : String) : String → Option Record := fun key => t.find (sc, key)

section Rows

variable {α : Type} {g : Table → α × Table} {k : RecordKey} {t t₁ t₂ : Table}

/-- An operation that writes only the row of `k` keeps the rows of every other scope. -/
theorem Table.scopeRows_of_ne (hframe : ∀ t : Table, t.Frame k (g t).2) {sc : String} (hsc : k.1 ≠ sc) :
    (g t).2.scopeRows sc = t.scopeRows sc :=
  funext fun key => hframe t (sc, key) fun h => hsc (congrArg Prod.fst h).symm

/-- An operation that writes only the row of `k`, and leaves there what the row held decides, keeps two tables that
agree on `k`'s scope in agreement. -/
theorem Table.scopeRows_of_local (hframe : ∀ t : Table, t.Frame k (g t).2) (hloc : (g t₁).2.find k = (g t₂).2.find k)
    (h : t₁.scopeRows k.1 = t₂.scopeRows k.1) : (g t₁).2.scopeRows k.1 = (g t₂).2.scopeRows k.1 := by
  funext key
  by_cases hk : (k.1, key) = k
  · simp only [Table.scopeRows, hk, hloc]
  · simp only [Table.scopeRows, hframe t₁ _ hk, hframe t₂ _ hk]
    exact congrFun h key

theorem Table.find_of_scopeRows (h : t₁.scopeRows k.1 = t₂.scopeRows k.1) : t₁.find k = t₂.find k :=
  congrFun h k.2

end Rows

section Acquire

variable {f : AcquireFaults} {now : Nat} {t₁ t₂ : Table} {q : Request}

/-- Two `Acquire`s that return `Acquired` on tables that agree on the key's row leave the same row there. -/
theorem acquired_find_local {d : Decision} {t₁' t₂' : Table} (h : t₁.find q.recordKey = t₂.find q.recordKey)
    (e₁ : acquire f now t₁ q = (.ok d, t₁')) (e₂ : acquire f now t₂ q = (.ok d, t₂')) (hdt : d.type = .acquired) :
    t₁'.find q.recordKey = t₂'.find q.recordKey := by
  rcases (acquire_acquired e₁ hdt).2 with ⟨hn₁, v₁, hv₁, he₁⟩ | ⟨x₁, hx₁, -, -, -, he₁⟩ <;>
    rcases (acquire_acquired e₂ hdt).2 with ⟨hn₂, v₂, hv₂, he₂⟩ | ⟨x₂, hx₂, -, -, -, he₂⟩
  · rw [he₁, he₂, ← Option.some.inj (hv₁.symm.trans hv₂)]
  · rw [h, hx₂] at hn₁; cases hn₁
  · rw [h, hn₂] at hx₁; cases hx₁
  · rw [he₁, he₂, ← Option.some.inj (hx₁.symm.trans (h.trans hx₂))]

/-- What `Acquire` leaves under its key depends on the table only through the row there: both decide the same, and
an error writes on both or on neither. -/
theorem acquire_find_local (h : t₁.find q.recordKey = t₂.find q.recordKey) :
    (acquire f now t₁ q).2.find q.recordKey = (acquire f now t₂ q).2.find q.recordKey := by
  have ho : (acquire f now t₁ q).1 = (acquire f now t₂ q).1 := acquire_local h
  obtain ⟨o, t₁', e₁⟩ : ∃ o t', acquire f now t₁ q = (o, t') := ⟨_, _, rfl⟩
  obtain ⟨t₂', e₂⟩ : ∃ t', acquire f now t₂ q = (o, t') := by
    refine ⟨(acquire f now t₂ q).2, Prod.ext ?_ rfl⟩
    rw [← ho, e₁]
  rw [e₁, e₂]
  cases o with
  | error e =>
    rcases acquire_error e₁ with ⟨hw, rfl⟩ | ⟨hw, a₁⟩ <;> rcases acquire_error e₂ with ⟨hw', rfl⟩ | ⟨hw', a₂⟩
    · exact h
    · rw [hw] at hw'; cases hw'
    · rw [hw] at hw'; cases hw'
    · exact acquired_find_local h a₁ a₂ rfl
  | ok d =>
    by_cases hdt : d.type = .acquired
    · exact acquired_find_local h e₁ e₂ hdt
    · rw [acquire_unchanged e₁ hdt, acquire_unchanged e₂ hdt, h]

/-- **`Acquire` reads and writes only the rows of its scope:** on two tables that agree on the scope of its key, it
decides the same and leaves them agreeing there. -/
theorem acquire_local_rows (h : t₁.scopeRows q.recordKey.1 = t₂.scopeRows q.recordKey.1) :
    (acquire f now t₁ q).1 = (acquire f now t₂ q).1 ∧
    (acquire f now t₁ q).2.scopeRows q.recordKey.1 = (acquire f now t₂ q).2.scopeRows q.recordKey.1 :=
  have hk := Table.find_of_scopeRows h
  ⟨acquire_local hk, Table.scopeRows_of_local (g := fun t => acquire f now t q) (fun _ => acquire_frame rfl)
    (acquire_find_local hk) h⟩

end Acquire

section Complete

variable {f : CompleteFaults} {now : Nat} {t₁ t₂ : Table} {scope key hash ct : String} {sc : Int}
  {body : List UInt8} {q : Request} {resp : StoredResponse}

/-- The `UPDATE` of `Complete` counts and writes from the row of its key alone. -/
theorem updateQuery_local (h : t₁.find (scope, key) = t₂.find (scope, key)) :
    (updateQuery t₁ scope key hash sc body ct now).map (fun r => (r.1, r.2.find (scope, key))) =
      (updateQuery t₂ scope key hash sc body ct now).map (fun r => (r.1, r.2.find (scope, key))) := by
  have hc : ∀ t : Table, t.rows.countP (completeMatch scope key hash) =
      if (t.find (scope, key)).any (fun r => completeMatch scope key hash ((scope, key), r)) then 1 else 0 :=
    fun _ => Table.countP_of_key _ fun _ => completeMatch_key
  simp only [updateQuery, any_completeMatch, hc, h, Option.bind_eq_bind]
  cases int4 sc <;> cases varchar 255 ct <;> simp only [Option.none_bind, Option.some_bind, Option.map_none',
    Option.pure_def] <;> split_ifs <;> simp [Table.find_update, h]

theorem completeResult_local {r₁ r₂ : Option (Nat × Table)} {k : RecordKey} (ht : t₁.find k = t₂.find k)
    (h : r₁.map (fun r => (r.1, r.2.find k)) = r₂.map (fun r => (r.1, r.2.find k))) :
    (completeResult f t₁ r₁).1 = (completeResult f t₂ r₂).1 ∧
    (completeResult f t₁ r₁).2.find k = (completeResult f t₂ r₂).2.find k := by
  cases r₁ <;> cases r₂ <;> simp only [Option.map_none', Option.map_some', reduceCtorEq, Option.some.injEq,
    Prod.mk.injEq] at h
  · exact ⟨rfl, ht⟩
  · obtain ⟨hn, hf⟩ := h
    simp only [completeResult, hn]
    split_ifs <;> exact ⟨rfl, hf⟩

/-- An `Exec` applied with its reply lost leaves under the key what the `UPDATE` leaves there. -/
theorem applied_find_local {r₁ r₂ : Option (Nat × Table)} {k : RecordKey} (ht : t₁.find k = t₂.find k)
    (h : r₁.map (fun r => (r.1, r.2.find k)) = r₂.map (fun r => (r.1, r.2.find k))) :
    ((r₁.map Prod.snd).getD t₁).find k = ((r₂.map Prod.snd).getD t₂).find k := by
  cases r₁ <;> cases r₂ <;> simp only [Option.map_none', Option.map_some', reduceCtorEq, Option.some.injEq,
    Prod.mk.injEq, Option.getD_none, Option.getD_some] at h ⊢
  · exact ht
  · exact h.2

/-- What `Complete` returns and leaves under its key depends on the table only through the row there. -/
theorem complete_find_local (h : t₁.find q.recordKey = t₂.find q.recordKey) :
    (complete f now t₁ q resp).1 = (complete f now t₂ q resp).1 ∧
    (complete f now t₁ q resp).2.find q.recordKey = (complete f now t₂ q resp).2.find q.recordKey := by
  rw [complete_eq, complete_eq]
  by_cases hs : q.recordKey.1 = ""
  · simp only [if_pos hs, true_and]; exact h
  by_cases hk : q.recordKey.2 = ""
  · simp only [if_neg hs, if_pos hk, true_and]; exact h
  by_cases hh : q.trimmedHash = ""
  · simp only [if_neg hs, if_neg hk, if_pos hh, true_and]; exact h
  simp only [if_neg hs, if_neg hk, if_neg hh]
  cases f.exec
  · exact completeResult_local h (updateQuery_local h)
  cases f.execApplied
  · exact ⟨rfl, h⟩
  · exact ⟨rfl, applied_find_local h (updateQuery_local h)⟩

/-- **`Complete` reads and writes only the rows of its scope:** on two tables that agree on the scope of its key, it
returns the same and leaves them agreeing there. -/
theorem complete_local_rows (h : t₁.scopeRows q.recordKey.1 = t₂.scopeRows q.recordKey.1) :
    (complete f now t₁ q resp).1 = (complete f now t₂ q resp).1 ∧
    (complete f now t₁ q resp).2.scopeRows q.recordKey.1 = (complete f now t₂ q resp).2.scopeRows q.recordKey.1 :=
  have hk := Table.find_of_scopeRows h
  ⟨(complete_find_local hk).1,
    Table.scopeRows_of_local (g := fun t => complete f now t q resp) (fun _ => (complete_row rfl).1)
      (complete_find_local hk).2 h⟩

/-- `Acquire` keeps the rows of every scope but its key's. -/
theorem acquire_scopeRows_of_ne {f : AcquireFaults} {now : Nat} {t : Table} {q : Request} {sc : String}
    (hsc : q.recordKey.1 ≠ sc) : (acquire f now t q).2.scopeRows sc = t.scopeRows sc :=
  Table.scopeRows_of_ne (g := fun t => acquire f now t q) (fun _ => acquire_frame rfl) hsc

/-- `Complete` keeps the rows of every scope but its key's. -/
theorem complete_scopeRows_of_ne {f : CompleteFaults} {now : Nat} {t : Table} {q : Request} {resp : StoredResponse}
    {sc : String} (hsc : q.recordKey.1 ≠ sc) : (complete f now t q resp).2.scopeRows sc = t.scopeRows sc :=
  Table.scopeRows_of_ne (g := fun t => complete f now t q resp) (fun _ => (complete_row rfl).1) hsc

end Complete

/-! ## The limiter -/

/-- The withdraw limiter's `AllowKey` as the rate-limit middleware calls it: on the Redis store with the key prefix
`withdraw-api:withdraw`, at `now` (Unix milliseconds), with the sliding window's random member `rnd`. The middleware
reads whether the call is allowed and its retry time, and of an error only that there was one. -/
def withdrawAllowKey (l : RateLimit.Limiter) (now : Int) (rnd : String) (key : String) (db : RateLimit.Db) :
    Except Unit RateResult × RateLimit.Db :=
  match RateLimit.allowKey RateLimit.withdrawRateLimitPrefix l now rnd db key with
  | (.ok r, db') => (.ok ⟨r.allowed, r.retryAfter⟩, db')
  | (.error _, db') => (.error (), db')

section Limiter

variable (l : RateLimit.Limiter) (now : Int) (rnd : String)

theorem withdrawAllowKey_eq (key : String) (db : RateLimit.Db) : withdrawAllowKey l now rnd key db =
    (match (RateLimit.allow RateLimit.withdrawRateLimitPrefix now rnd db key l.config).1 with
      | .ok r => .ok ⟨r.allowed, r.retryAfter⟩
      | .error _ => .error (),
      (RateLimit.allow RateLimit.withdrawRateLimitPrefix now rnd db key l.config).2) := by
  unfold withdrawAllowKey RateLimit.allowKey
  rcases RateLimit.allow RateLimit.withdrawRateLimitPrefix now rnd db key l.config with ⟨_ | _, _⟩ <;> rfl

/-- A call for `key` leaves every other key of the store as it was. -/
theorem withdrawAllowKey_frame {key k : String} (db : RateLimit.Db)
    (hk : k ≠ RateLimit.withdrawRateLimitPrefix ++ ":" ++ key) : (withdrawAllowKey l now rnd key db).2 k = db k := by
  rw [withdrawAllowKey_eq]
  exact RateLimit.allow_frame hk

/-- A call for `key` decides from the entry of `key` alone, and leaves there what that entry decides. -/
theorem withdrawAllowKey_local {key : String} {db₁ db₂ : RateLimit.Db}
    (h : db₁ (RateLimit.withdrawRateLimitPrefix ++ ":" ++ key) = db₂ (RateLimit.withdrawRateLimitPrefix ++ ":" ++ key)) :
    (withdrawAllowKey l now rnd key db₁).1 = (withdrawAllowKey l now rnd key db₂).1 ∧
    (withdrawAllowKey l now rnd key db₁).2 (RateLimit.withdrawRateLimitPrefix ++ ":" ++ key) =
      (withdrawAllowKey l now rnd key db₂).2 (RateLimit.withdrawRateLimitPrefix ++ ":" ++ key) := by
  obtain ⟨h₁, h₂⟩ := @RateLimit.allow_local _ _ now rnd l.config _ _ h
  rw [withdrawAllowKey_eq, withdrawAllowKey_eq, h₁]
  exact ⟨rfl, h₂⟩

end Limiter

/-! ## The middlewares and the handler -/

/-- The rate-limit middleware leaves the limiter as `AllowKey` leaves it. -/
theorem newHTTPRateLimitMiddleware_snd {σ : Type} (allowKey : String → σ → Except Unit RateResult × σ)
    (userID : Option String) (req : HttpRequest) (lim : σ) :
    (newHTTPRateLimitMiddleware allowKey userID req lim).2 =
      (allowKey (perUserKeyExtractor "withdraw" userID req.ip) lim).2 := by
  unfold newHTTPRateLimitMiddleware
  rcases allowKey (perUserKeyExtractor "withdraw" userID req.ip) lim with ⟨_ | r, _⟩
  · rfl
  · by_cases hr : r.allowed <;> simp [hr]

theorem perUserKeyExtractor_some (ip : String) {p : String} (hp : p ≠ "") :
    perUserKeyExtractor "withdraw" (some p) ip = "withdraw" ++ ":user:" ++ p :=
  if_pos hp

theorem appendKey_inj {pre k k' : String} (h : pre ++ k = pre ++ k') : k = k' :=
  String.ext (List.append_cancel_left (by simpa only [String.data_append] using congrArg String.data h))

/-- Below the store's prefix, the limiter key of a request that is not `p`'s is not `p`'s key. -/
theorem perUserKeyExtractor_ne {p : String} {userID : Option String} (ip : String) (hp : p ≠ "")
    (hu : userID ≠ some p) : perUserKeyExtractor "withdraw" userID ip ≠ perUserKeyExtractor "withdraw" (some p) ip := by
  simp only [perUserKeyExtractor, if_pos hp]
  have hip : ∀ p, "withdraw" ++ ":ip:" ++ ip ≠ "withdraw" ++ ":user:" ++ p := fun p h => by
    have := congrArg String.data h
    simp [String.data_append] at this
  rcases userID with _ | q
  · exact hip p
  · dsimp only
    split_ifs with hq
    · exact fun h => hu (congrArg some (appendKey_inj h))
    · exact hip p

section Handler

variable {parseBody : List UInt8 → Option Int64} {f : Faults} {now : Nat} {req : HttpRequest} {db db₁ db₂ : Db}

/-- The handler's effect on the wallets: none, or the service's for the principal and the parsed amount. -/
theorem withdrawHandle_db (userID : Option String) (db : Db) :
    (withdrawHandle parseBody f now userID req db).2 = db ∨
    ∃ u a, userID = some u ∧ (withdrawHandle parseBody f now userID req db).2 =
      (withdrawBalance uuidParse f now db u a req.chainID).2 := by
  rcases userID with _ | u
  · exact .inl rfl
  simp only [withdrawHandle]
  split_ifs
  · exact .inl rfl
  rcases parseBody req.body with _ | a
  · exact .inl rfl
  refine .inr ⟨u, a, rfl, ?_⟩
  dsimp only
  rcases withdrawBalance uuidParse f now db u a req.chainID with ⟨e | _, _⟩
  · cases e <;> rfl
  · rfl

/-- The handler for a principal that does not name the user of wallet `uid` leaves that wallet as it was. -/
theorem withdrawHandle_walletOf_of_ne {userID : Option String} {uid : Uuid}
    (hu : ∀ u, userID = some u → uuidParse u ≠ some uid) (db : Db) :
    (withdrawHandle parseBody f now userID req db).2.walletOf uid = db.walletOf uid := by
  rcases withdrawHandle_db userID db with h | ⟨u, a, rfl, h⟩
  · rw [h]
  · rw [h]
    exact withdrawBalance_walletOf_of_ne (hu u rfl)

/-- The handler for principal `p` answers from `p`'s wallet alone, and leaves there what that wallet decides. -/
theorem withdrawHandle_local {p : String} (h : (uuidParse p).bind db₁.walletOf = (uuidParse p).bind db₂.walletOf) :
    (withdrawHandle parseBody f now (some p) req db₁).1 = (withdrawHandle parseBody f now (some p) req db₂).1 ∧
    (uuidParse p).bind (withdrawHandle parseBody f now (some p) req db₁).2.walletOf =
      (uuidParse p).bind (withdrawHandle parseBody f now (some p) req db₂).2.walletOf := by
  simp only [withdrawHandle]
  split_ifs
  · exact ⟨rfl, h⟩
  rcases parseBody req.body with _ | a
  · exact ⟨rfl, h⟩
  dsimp only
  obtain ⟨h₁, h₂⟩ := withdrawBalance_local f now a req.chainID h
  rcases hB₁ : withdrawBalance uuidParse f now db₁ p a req.chainID with ⟨r, d₁⟩
  rcases hB₂ : withdrawBalance uuidParse f now db₂ p a req.chainID with ⟨r', d₂⟩
  rw [hB₁, hB₂] at h₁ h₂
  obtain rfl : r = r' := h₁
  rcases r with e | _
  · cases e <;> exact ⟨rfl, h₂⟩
  · exact ⟨rfl, h₂⟩

end Handler

section Idempotency

variable {sha256 : List UInt8 → Digest} {encode : Body → List UInt8} {f : RequestFaults} {now : Nat}
  {next : Db → Response × Db} {userID : Option String} {req : HttpRequest} {W : Db → Option Wallet} {sc : String}

/-- The idempotency middleware of a principal of another scope keeps the rows of scope `sc`, and keeps what `W`
reads of the wallets when `next` does. -/
theorem idempotency_frame (hsc : ∀ u, userID = some u → "withdraw:" ++ trimRight u ≠ sc)
    (hnext : ∀ db, W (next db).2 = W db) (table : Table) (db : Db) :
    (newHTTPWithdrawIdempotencyMiddleware sha256 encode f now next userID req table db).2.1.scopeRows sc =
      table.scopeRows sc ∧
    W (newHTTPWithdrawIdempotencyMiddleware sha256 encode f now next userID req table db).2.2 = W db := by
  rcases userID with _ | u
  · exact ⟨rfl, rfl⟩
  have hq : (withdrawIdempotencyRequest sha256 u req).recordKey.1 ≠ sc := by
    rw [withdrawIdempotencyRequest_scope]; exact hsc u rfl
  have hA : (acquire f.acquire now table (withdrawIdempotencyRequest sha256 u req)).2.scopeRows sc =
    table.scopeRows sc := acquire_scopeRows_of_ne hq
  unfold newHTTPWithdrawIdempotencyMiddleware
  dsimp only
  split_ifs
  · exact ⟨rfl, rfl⟩
  · exact ⟨rfl, rfl⟩
  rcases hAq : acquire f.acquire now table (withdrawIdempotencyRequest sha256 u req) with ⟨_ | ⟨type, _, _, _⟩, t⟩ <;>
    rw [hAq] at hA
  · exact ⟨hA, rfl⟩
  cases type with
  | replay | inProgress | conflict => exact ⟨hA, rfl⟩
  | acquired =>
    dsimp only
    have hC : (complete f.complete now t (withdrawIdempotencyRequest sha256 u req)
      ⟨(next db).1.status, encode (next db).1.body, (next db).1.contentType⟩).2.scopeRows sc = t.scopeRows sc :=
      complete_scopeRows_of_ne hq
    rcases hCq : complete f.complete now t (withdrawIdempotencyRequest sha256 u req)
      ⟨(next db).1.status, encode (next db).1.body, (next db).1.contentType⟩ with ⟨_ | _, t'⟩ <;> rw [hCq] at hC <;>
      exact ⟨hC.trans hA, hnext db⟩

/-- **The idempotency middleware of a principal of scope `sc` reads and writes only that scope's rows and what `W`
reads of the wallets**, when its `next` does: on two states that agree there, it answers the same and leaves them
agreeing there. -/
theorem idempotency_local {t₁ t₂ : Table} {db₁ db₂ : Db} (hsc : ∀ u, userID = some u → "withdraw:" ++ trimRight u = sc)
    (ht : t₁.scopeRows sc = t₂.scopeRows sc) (hW : W db₁ = W db₂)
    (hnext : (next db₁).1 = (next db₂).1 ∧ W (next db₁).2 = W (next db₂).2) :
    (newHTTPWithdrawIdempotencyMiddleware sha256 encode f now next userID req t₁ db₁).1 =
      (newHTTPWithdrawIdempotencyMiddleware sha256 encode f now next userID req t₂ db₂).1 ∧
    (newHTTPWithdrawIdempotencyMiddleware sha256 encode f now next userID req t₁ db₁).2.1.scopeRows sc =
      (newHTTPWithdrawIdempotencyMiddleware sha256 encode f now next userID req t₂ db₂).2.1.scopeRows sc ∧
    W (newHTTPWithdrawIdempotencyMiddleware sha256 encode f now next userID req t₁ db₁).2.2 =
      W (newHTTPWithdrawIdempotencyMiddleware sha256 encode f now next userID req t₂ db₂).2.2 := by
  rcases userID with _ | u
  · exact ⟨rfl, ht, hW⟩
  obtain rfl : (withdrawIdempotencyRequest sha256 u req).recordKey.1 = sc :=
    (withdrawIdempotencyRequest_scope sha256 u req).trans (hsc u rfl)
  have hA := @acquire_local_rows f.acquire now t₁ t₂ (withdrawIdempotencyRequest sha256 u req) ht
  unfold newHTTPWithdrawIdempotencyMiddleware
  dsimp only
  split_ifs
  · exact ⟨rfl, ht, hW⟩
  · exact ⟨rfl, ht, hW⟩
  rcases h₁ : acquire f.acquire now t₁ (withdrawIdempotencyRequest sha256 u req) with ⟨o, t₁'⟩
  rcases h₂ : acquire f.acquire now t₂ (withdrawIdempotencyRequest sha256 u req) with ⟨o', t₂'⟩
  rw [h₁, h₂] at hA
  obtain ⟨rfl : o = o', hA⟩ := hA
  rcases o with _ | ⟨type, _, _, _⟩
  · exact ⟨rfl, hA, hW⟩
  cases type with
  | replay | inProgress | conflict => exact ⟨rfl, hA, hW⟩
  | acquired =>
    dsimp only
    obtain ⟨hn₁, hn₂⟩ := hnext
    rw [hn₁]
    have hC := @complete_local_rows f.complete now t₁' t₂' (withdrawIdempotencyRequest sha256 u req)
      ⟨(next db₂).1.status, encode (next db₂).1.body, (next db₂).1.contentType⟩ hA
    rcases hc₁ : complete f.complete now t₁' (withdrawIdempotencyRequest sha256 u req)
      ⟨(next db₂).1.status, encode (next db₂).1.body, (next db₂).1.contentType⟩ with ⟨c, t₁''⟩
    rcases hc₂ : complete f.complete now t₂' (withdrawIdempotencyRequest sha256 u req)
      ⟨(next db₂).1.status, encode (next db₂).1.body, (next db₂).1.contentType⟩ with ⟨c', t₂''⟩
    rw [hc₁, hc₂] at hC
    obtain ⟨rfl : c = c', hC⟩ := hC
    rcases c with _ | _ <;> exact ⟨rfl, hC, hn₂⟩

end Idempotency

/-! ## The route -/

/-- Principal `p`'s part of the route's state. -/
structure View where
  /-- The limiter's entry under `p`'s key. -/
  limit : Option RateLimit.Entry
  /-- The idempotency rows of `p`'s scope, by key. -/
  records : String → Option Record
  /-- The wallet of the user `p` names. -/
  wallet : Option Wallet

/-- The store key of principal `p`'s limit: `PerUserKeyExtractor("withdraw")` behind the store's prefix. -/
def userLimitKey (p : String) : String := RateLimit.withdrawRateLimitPrefix ++ ":" ++ ("withdraw" ++ ":user:" ++ p)

/-- What `p`'s requests read and write of the route's state. -/
def RouteState.view (s : RouteState RateLimit.Db) (p : String) : View :=
  ⟨s.limiter (userLimitKey p), s.table.scopeRows ("withdraw:" ++ trimRight p), (uuidParse p).bind s.db.walletOf⟩

/-- Principal `q` shares nothing the route keeps with principal `p`: the two differ after `TrimRightFunc`, so their
limiter keys and idempotency scopes differ, and `q` does not parse to the user of `p`'s wallet. -/
def Separate (p q : String) : Prop :=
  trimRight q ≠ trimRight p ∧ ∀ uid, uuidParse p = some uid → uuidParse q ≠ some uid

section Route

variable (verify : String → Option String) {sha256 : List UInt8 → Digest} {encode : Body → List UInt8}
  {parseBody : List UInt8 → Option Int64} (l : RateLimit.Limiter)

/-- The principal of a request: the subject the JWT middleware puts into `user_id`. -/
def subjectOf (req : HttpRequest) : Option String :=
  match newHTTPJWTMiddleware verify req with
  | .ok u => u
  | .error _ => none

variable {verify}

theorem subjectOf_eq_some {req : HttpRequest} {p : String} (h : subjectOf verify req = some p) :
    newHTTPJWTMiddleware verify req = .ok (some p) := by
  unfold subjectOf at h
  split at h
  · rename_i h'; rw [h', h]
  · cases h

/-- A request that is not `p`'s, of a principal separate from `p` if any, leaves `p`'s part of the state as it was. -/
theorem registerWithdrawRoutes_frame {p : String} (hp : p ≠ "") {req : HttpRequest}
    (hq : subjectOf verify req ≠ some p) (hsep : ∀ q, subjectOf verify req = some q → Separate p q)
    (f : RequestFaults) (now : Nat) (nowMs : Int) (rnd : String) (s : RouteState RateLimit.Db) :
    (registerWithdrawRoutes verify (withdrawAllowKey l nowMs rnd) sha256 encode parseBody f now s req).2.view p =
      s.view p := by
  rcases hj : newHTTPJWTMiddleware verify req with r | userID
  · simp only [registerWithdrawRoutes, hj]
  have hs : subjectOf verify req = userID := by simp only [subjectOf, hj]
  rw [hs] at hq hsep
  have hk : userLimitKey p ≠ RateLimit.withdrawRateLimitPrefix ++ ":" ++ perUserKeyExtractor "withdraw" userID req.ip :=
    fun h => perUserKeyExtractor_ne req.ip hp hq
      ((RateLimit.fullKey_inj h).symm.trans (perUserKeyExtractor_some req.ip hp).symm)
  rcases hl : newHTTPRateLimitMiddleware (withdrawAllowKey l nowMs rnd) userID req s.limiter with ⟨o, lim⟩
  have hlim : lim (userLimitKey p) = s.limiter (userLimitKey p) := by
    rw [← withdrawAllowKey_frame l nowMs rnd s.limiter hk, ← newHTTPRateLimitMiddleware_snd, hl]
  rcases o with r | ⟨⟩
  · simp only [registerWithdrawRoutes, hj, hl, RouteState.view, hlim]
  have hnext : ∀ db, (uuidParse p).bind (withdrawHandle parseBody f.withdraw now userID req db).2.walletOf =
      (uuidParse p).bind db.walletOf := fun db => by
    cases hpu : uuidParse p with
    | none => rfl
    | some uid => exact withdrawHandle_walletOf_of_ne (fun u hu => (hsep u hu).2 uid hpu) db
  obtain ⟨h₁, h₂⟩ := @idempotency_frame sha256 encode f now (withdrawHandle parseBody f.withdraw now userID req) userID
    req (fun db => (uuidParse p).bind db.walletOf) ("withdraw:" ++ trimRight p)
    (fun u hu h => (hsep u hu).1 (appendKey_inj h)) hnext s.table s.db
  simp only [registerWithdrawRoutes, hj, hl, RouteState.view, hlim, h₁, h₂]

/-- A request of `p` answers from `p`'s part of the state alone, and leaves there what that part decides. -/
theorem registerWithdrawRoutes_local {p : String} (hp : p ≠ "") {req : HttpRequest} (hj : subjectOf verify req = some p)
    (f : RequestFaults) (now : Nat) (nowMs : Int) (rnd : String) {s₁ s₂ : RouteState RateLimit.Db}
    (hv : s₁.view p = s₂.view p) :
    (registerWithdrawRoutes verify (withdrawAllowKey l nowMs rnd) sha256 encode parseBody f now s₁ req).1 =
      (registerWithdrawRoutes verify (withdrawAllowKey l nowMs rnd) sha256 encode parseBody f now s₂ req).1 ∧
    (registerWithdrawRoutes verify (withdrawAllowKey l nowMs rnd) sha256 encode parseBody f now s₁ req).2.view p =
      (registerWithdrawRoutes verify (withdrawAllowKey l nowMs rnd) sha256 encode parseBody f now s₂ req).2.view p := by
  simp only [RouteState.view, View.mk.injEq] at hv
  obtain ⟨hv₁, hv₂, hv₃⟩ := hv
  have hk := perUserKeyExtractor_some req.ip hp
  have hA := withdrawAllowKey_local l nowMs rnd (show s₁.limiter (RateLimit.withdrawRateLimitPrefix ++ ":" ++
    perUserKeyExtractor "withdraw" (some p) req.ip) = s₂.limiter _ by rw [hk]; exact hv₁)
  rcases h₁ : withdrawAllowKey l nowMs rnd (perUserKeyExtractor "withdraw" (some p) req.ip) s₁.limiter with ⟨o, lim₁⟩
  rcases h₂ : withdrawAllowKey l nowMs rnd (perUserKeyExtractor "withdraw" (some p) req.ip) s₂.limiter with ⟨o', lim₂⟩
  rw [h₁, h₂, hk] at hA
  obtain ⟨rfl : o = o', hA⟩ := hA
  simp only [registerWithdrawRoutes, subjectOf_eq_some hj, newHTTPRateLimitMiddleware, h₁, h₂]
  rcases o with _ | r
  · refine ⟨rfl, ?_⟩
    simp only [RouteState.view, View.mk.injEq]
    exact ⟨hA, hv₂, hv₃⟩
  by_cases hr : r.allowed
  · obtain ⟨i₁, i₂, i₃⟩ := @idempotency_local sha256 encode f now (withdrawHandle parseBody f.withdraw now (some p) req)
      (some p) req (fun db => (uuidParse p).bind db.walletOf) ("withdraw:" ++ trimRight p) s₁.table s₂.table s₁.db s₂.db
      (fun u hu => by cases hu; rfl) hv₂ hv₃ (withdrawHandle_local hv₃)
    simp only [hr, not_true_eq_false, if_false, RouteState.view, View.mk.injEq]
    exact ⟨i₁, hA, i₂, i₃⟩
  · simp only [hr, Bool.false_eq_true, not_false_eq_true, if_true, RouteState.view, View.mk.injEq, true_and]
    exact ⟨hA, hv₂, hv₃⟩

end Route

/-! ## Runs -/

/-- A request as the server receives it: the time the idempotency store and the repository read (`now`), the time
the limiter's script reads (`nowMs`, Unix milliseconds), the sliding window's random member, and which database calls
fail. -/
structure Arrival where
  req : HttpRequest
  now : Nat
  nowMs : Int
  rnd : String
  faults : RequestFaults

section Serve

variable (verify : String → Option String) (sha256 : List UInt8 → Digest) (encode : Body → List UInt8)
  (parseBody : List UInt8 → Option Int64) (l : RateLimit.Limiter)

/-- `POST /withdrawals` serving requests one after another, with the withdraw limiter `l` on Redis: each request
with its response, and the state left. -/
def serveAll : RouteState RateLimit.Db → List Arrival → List (Arrival × Response) × RouteState RateLimit.Db
  | s, [] => ([], s)
  | s, a :: as =>
    let r := registerWithdrawRoutes verify (withdrawAllowKey l a.nowMs a.rnd) sha256 encode parseBody a.faults a.now s
      a.req
    let rest := serveAll r.2 as
    ((a, r.1) :: rest.1, rest.2)

/-- A run of requests of principals separate from `p` leaves `p`'s part of the state as it is. -/
theorem serveAll_frame {p : String} (hp : p ≠ "") {as : List Arrival}
    (hsep : ∀ a ∈ as, ∀ q, subjectOf verify a.req = some q → Separate p q) (s : RouteState RateLimit.Db) :
    (serveAll verify sha256 encode parseBody l s as).2.view p = s.view p := by
  induction as generalizing s with
  | nil => rfl
  | cons a as ih =>
    have hq : subjectOf verify a.req ≠ some p := fun h => (hsep a (.head as) p h).1 rfl
    exact (ih (fun b hb => hsep b (.tail a hb)) _).trans
      (registerWithdrawRoutes_frame l hp hq (hsep a (.head as)) a.faults a.now a.nowMs a.rnd s)

/-- **Principals do not interfere.** In every interleaving of requests of many principals, the requests of `p` get
the responses, and leave `p`'s part of the state as, `p`'s requests alone get and leave, from any state that agrees
with the first on `p`'s part: provided every other principal of the run differs from `p` after `TrimRightFunc` and
does not name `p`'s wallet. -/
theorem serveAll_isolation (p : String) (hp : p ≠ "") (as : List Arrival)
    (hsep : ∀ a ∈ as, ∀ q, subjectOf verify a.req = some q → q ≠ p → Separate p q)
    (s₁ s₂ : RouteState RateLimit.Db) (hv : s₁.view p = s₂.view p) :
    (serveAll verify sha256 encode parseBody l s₁ as).1.filter (fun x => subjectOf verify x.1.req = some p) =
      (serveAll verify sha256 encode parseBody l s₂ (as.filter fun a => subjectOf verify a.req = some p)).1 ∧
    (serveAll verify sha256 encode parseBody l s₁ as).2.view p =
      (serveAll verify sha256 encode parseBody l s₂ (as.filter fun a => subjectOf verify a.req = some p)).2.view p := by
  induction as generalizing s₁ s₂ with
  | nil => exact ⟨rfl, hv⟩
  | cons a as ih =>
    have hsep' := fun a' (ha' : a' ∈ as) => hsep a' (List.mem_cons_of_mem a ha')
    by_cases ha : subjectOf verify a.req = some p
    · -- a request of `p`: both runs serve it, from states that agree on `p`'s part
      obtain ⟨h₁, h₂⟩ := registerWithdrawRoutes_local l hp ha a.faults a.now a.nowMs a.rnd hv
      obtain ⟨ih₁, ih₂⟩ := ih hsep' _ _ h₂
      simp only [serveAll, List.filter_cons, ha, decide_True, if_true]
      exact ⟨by rw [h₁, ih₁], ih₂⟩
    · -- another request: only the first run serves it, and `p`'s part stays
      have h : (registerWithdrawRoutes verify (withdrawAllowKey l a.nowMs a.rnd) sha256 encode parseBody a.faults a.now
          s₁ a.req).2.view p = s₁.view p := registerWithdrawRoutes_frame l hp ha
        (fun q hq => hsep a (List.mem_cons_self a as) q hq fun e => ha (e ▸ hq)) a.faults a.now a.nowMs a.rnd s₁
      simp only [serveAll, List.filter_cons, ha, decide_False, Bool.false_eq_true, if_false]
      exact ih hsep' _ s₂ (h.trans hv)

end Serve

/-- A second user, without a wallet in the seed data. -/
def otherUser : String := "22222222-2222-2222-2222-222222222222"

/-- The seed user with `token-1`, and `otherUser` with any other token. -/
def sampleVerify (token : String) : Option String := if token = "token-1" then some seedUser else some otherUser

/-- A withdrawal of `otherUser`, then one of the seed user. -/
def sampleArrivals : List Arrival :=
  [⟨{ sampleWithdrawal with authorization := "Bearer token-2" }, 1, 1, "", {}⟩, ⟨sampleWithdrawal, 2, 2, "", {}⟩]

/-- The withdraw limiter with the defaults of `provideWithdrawRateLimiter`. -/
def sampleLimiter : RateLimit.Limiter :=
  ⟨⟨RateLimit.algorithmTokenBucket, 20, 60 * 10 ^ 9, 20⟩, by decide, by decide, by decide⟩

def sampleRoute : RouteState RateLimit.Db := ⟨seedDb, Table.empty, fun _ => none⟩

/-- `otherUser` is separate from the seed user, so the seed user's withdrawal of 100 is answered, and leaves the seed
user's part of the state, as it would without `otherUser`'s. -/
theorem sample_serveAll_isolation :
    (∀ a ∈ sampleArrivals, ∀ q, subjectOf sampleVerify a.req = some q → q ≠ seedUser → Separate seedUser q) ∧
    (serveAll sampleVerify lengthDigest (fun _ => []) amount100 sampleLimiter sampleRoute sampleArrivals).1.filter
        (fun x => subjectOf sampleVerify x.1.req = some seedUser) =
      (serveAll sampleVerify lengthDigest (fun _ => []) amount100 sampleLimiter sampleRoute
        (sampleArrivals.filter fun a => subjectOf sampleVerify a.req = some seedUser)).1 ∧
    (serveAll sampleVerify lengthDigest (fun _ => []) amount100 sampleLimiter sampleRoute
        sampleArrivals).2.view seedUser =
      (serveAll sampleVerify lengthDigest (fun _ => []) amount100 sampleLimiter sampleRoute
        (sampleArrivals.filter fun a => subjectOf sampleVerify a.req = some seedUser)).2.view seedUser := by
  have hsep : ∀ a ∈ sampleArrivals, ∀ q, subjectOf sampleVerify a.req = some q → q ≠ seedUser →
      Separate seedUser q := by
    intro a ha q hq hne
    simp only [sampleArrivals, List.mem_cons, List.mem_singleton, List.not_mem_nil, or_false] at ha
    rcases ha with rfl | rfl
    · obtain rfl : q = otherUser := Option.some.inj (hq.symm.trans
        (rfl : subjectOf sampleVerify { sampleWithdrawal with authorization := "Bearer token-2" } = some otherUser))
      exact ⟨by decide, fun uid h => by rw [← h]; decide⟩
    · exact absurd (Option.some.inj (hq.symm.trans (rfl : subjectOf sampleVerify sampleWithdrawal = some seedUser)))
        hne
  exact ⟨hsep, serveAll_isolation sampleVerify lengthDigest (fun _ => []) amount100 sampleLimiter seedUser
    (by decide) sampleArrivals hsep sampleRoute sampleRoute rfl⟩

end WithdrawApi
