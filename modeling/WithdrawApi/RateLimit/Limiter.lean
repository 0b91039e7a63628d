import WithdrawApi.Values
import WithdrawApi.RateLimit.RedisStore

/-!
# The limiter over many keys

`ratelimit.New` wraps the store in a `limiter`, whose `AllowKey` runs the store's `Allow` with the limiter's
configuration and wraps a store error (`allowKey`). `runStore` runs `AllowKey` calls on any keys, one after another,
on one Redis database. `provideWithdrawRateLimiter` builds the limiter of the withdraw route from the configuration:
a limit, a window or a burst that is not positive gets its default, the algorithm is read by
`parseRateLimitAlgorithm`, and the store's keys start with `withdraw-api:withdraw`.

- `runStore_key`: in every interleaving of calls on many keys, the calls on one key get the results, and leave
  that key with the entry, of the same calls on that key alone (`runKey`): keys never share a limit.
- `provideWithdrawRateLimiter_spec`: every configuration gives a limiter, with its defaults; a window of at least one
  millisecond reaches the scripts whole, and a positive window under one millisecond gives them `0`, so that every
  call of every run on a fresh key is allowed.
-/

namespace WithdrawApi.RateLimit

/-! ## `AllowKey` -/

/-- `limiter.AllowKey`'s error for a failed store call. -/
def storeError (r : Except String Result) : Except String Result :=
  r.mapError ("ratelimit: store error: " ++ ·)

/-- `limiter.AllowKey` on the Redis store with key prefix `pre`, at `now`. -/
def allowKey (pre : String) (l : Limiter) (now : Int) (rnd : String) (db : Db) (key : String) :
    Except String Result × Db :=
  let r := allow pre now rnd db key l.config
  (storeError r.1, r.2)

/-- `AllowKey` calls on any keys, one after another, on one database: each call with its key, and its result. -/
def runStore (pre : String) (l : Limiter) : Db → List (String × Call) → List ((String × Call) × Except String Result) × Db
  | db, [] => ([], db)
  | db, (k, c) :: cs =>
    let r := allowKey pre l c.now c.rnd db k
    let rest := runStore pre l r.2 cs
    (((k, c), r.1) :: rest.1, rest.2)

theorem fullKey_inj {pre k k' : String} (h : pre ++ ":" ++ k = pre ++ ":" ++ k') : k = k' := by
  have := congrArg String.data h
  simp only [String.data_append, List.append_assoc, List.append_cancel_left_eq] at this
  exact String.ext this

/-- One call on the key `pre:k`, in the store's terms and in `runKey`'s. -/
theorem allow_self (pre : String) (now : Int) (rnd : String) (db : Db) (k : String) (config : Config) :
    allow pre now rnd db k config =
      match allowEntry now rnd config (db (pre ++ ":" ++ k)) with
      | .ok (r, e) => (.ok r, Function.update db (pre ++ ":" ++ k) e)
      | .error e => (.error e, db) := rfl

/-- `Allow` reads only its own key: on two databases that agree there, it returns the same and leaves the same
there. -/
theorem allow_local {pre k : String} {now : Int} {rnd : String} {config : Config} {db db₂ : Db}
    (h : db (pre ++ ":" ++ k) = db₂ (pre ++ ":" ++ k)) :
    (allow pre now rnd db k config).1 = (allow pre now rnd db₂ k config).1 ∧
    (allow pre now rnd db k config).2 (pre ++ ":" ++ k) = (allow pre now rnd db₂ k config).2 (pre ++ ":" ++ k) := by
  rw [allow_self, allow_self, h]
  rcases allowEntry now rnd config (db₂ (pre ++ ":" ++ k)) with _ | ⟨r, e⟩
  · exact ⟨rfl, h⟩
  · simp only [Function.update_same, and_self]

/-- **Keys never share a limit.** In every interleaving of `AllowKey` calls on many keys, the calls on `k` get the
results (a store error wrapped) of the same calls on `k` alone, and leave `k` with the entry those calls leave. -/
theorem runStore_key (pre : String) (l : Limiter) (k : String) (db : Db) (cs : List (String × Call)) :
    ((runStore pre l db cs).1.filter (·.1.1 = k)).map (fun p => (p.1.2, p.2)) =
      (runKey l.config (db (pre ++ ":" ++ k)) ((cs.filter (·.1 = k)).map (·.2))).1.map
        (fun p => (p.1, storeError p.2)) ∧
    (runStore pre l db cs).2 (pre ++ ":" ++ k) =
      (runKey l.config (db (pre ++ ":" ++ k)) ((cs.filter (·.1 = k)).map (·.2))).2 := by
  induction cs generalizing db with
  | nil => exact ⟨rfl, rfl⟩
  | cons kc cs ih =>
    obtain ⟨k', c⟩ := kc
    by_cases hk : k' = k
    · -- a call on `k` is a step of `k`'s own run
      subst hk
      cases h : allowEntry c.now c.rnd l.config (db (pre ++ ":" ++ k')) with
      | error e =>
        have := ih db
        simp only [runStore, allowKey, allow_self, h, List.filter_cons, decide_True, if_true, List.map_cons, runKey]
        exact ⟨by rw [this.1], this.2⟩
      | ok re =>
        obtain ⟨r, e⟩ := re
        have := ih (Function.update db (pre ++ ":" ++ k') e)
        simp only [Function.update_same] at this
        simp only [runStore, allowKey, allow_self, h, List.filter_cons, decide_True, if_true, List.map_cons, runKey]
        exact ⟨by rw [this.1], this.2⟩
    · -- a call on another key leaves `k` alone
      have hne : pre ++ ":" ++ k ≠ pre ++ ":" ++ k' := fun h => hk (fullKey_inj h).symm
      have := ih (allowKey pre l c.now c.rnd db k').2
      rw [show (allowKey pre l c.now c.rnd db k').2 (pre ++ ":" ++ k) = db (pre ++ ":" ++ k) from
        allow_frame hne] at this
      simp only [runStore, List.filter_cons, hk, decide_False, Bool.false_eq_true, if_false]
      exact this

/-! ## The withdraw route's limiter -/

/-- The key prefix of the withdraw route's store, `WithRedisPrefix("withdraw-api:withdraw")`. -/
def withdrawRateLimitPrefix : String := "withdraw-api:withdraw"

/-- `parseRateLimitAlgorithm`: the trimmed, lower-cased setting names a window algorithm, or else the token
bucket; `lower` is `unicode.ToLower`. -/
def parseRateLimitAlgorithm (lower : Char → Char) (value : String) : String :=
  let v := trimSpace (toLower lower value)
  if v = "sliding_window" then algorithmSlidingWindow
  else if v = "fixed_window" then algorithmFixedWindow
  else algorithmTokenBucket

/-- The settings `provideWithdrawRateLimiter` reads: `rate_limit.withdraw.limit`, `.window` (a duration, in
nanoseconds), `.burst` and `.algorithm`. -/
structure WithdrawRateLimitSettings where
  limit : Int
  window : Int
  burst : Int
  algorithm : String

/-- `provideWithdrawRateLimiter`, with a Redis client: a limit that is not positive becomes `20`, a window that is
not positive becomes `time.Minute`, a burst that is not positive becomes the limit. -/
def provideWithdrawRateLimiter (lower : Char → Char) (s : WithdrawRateLimitSettings) : Except String Limiter :=
  let limit := if s.limit ≤ 0 then 20 else s.limit
  let window := if s.window ≤ 0 then 60 * 10 ^ 9 else s.window
  let burst := if s.burst ≤ 0 then limit else s.burst
  new ⟨parseRateLimitAlgorithm lower s.algorithm, limit, window, burst⟩

theorem parseRateLimitAlgorithm_mem (lower : Char → Char) (value : String) :
    parseRateLimitAlgorithm lower value = algorithmTokenBucket ∨
      parseRateLimitAlgorithm lower value = algorithmSlidingWindow ∨
      parseRateLimitAlgorithm lower value = algorithmFixedWindow := by
  unfold parseRateLimitAlgorithm
  dsimp only
  split_ifs <;> simp

/-- **The withdraw limiter is built from every configuration.** Its limit, window and burst are the configured
ones where positive, and `20`, one minute and the limit otherwise; its algorithm is one the store knows. A window of
at least one millisecond reaches the scripts as at least one whole millisecond; a positive window under one
millisecond reaches them as `0`, and then every call of every run on a fresh key is allowed. This holds whatever
`unicode.ToLower` does. -/
theorem provideWithdrawRateLimiter_spec (lower : Char → Char) (s : WithdrawRateLimitSettings) :
    ∃ l, provideWithdrawRateLimiter lower s = .ok l ∧
      l.config.limit = (if s.limit ≤ 0 then 20 else s.limit) ∧
      l.config.window = (if s.window ≤ 0 then 60 * 10 ^ 9 else s.window) ∧
      l.config.burst = (if s.burst ≤ 0 then l.config.limit else s.burst) ∧
      (l.config.algorithm = algorithmTokenBucket ∨ l.config.algorithm = algorithmSlidingWindow ∨
        l.config.algorithm = algorithmFixedWindow) ∧
      (1000000 ≤ s.window → 1 ≤ l.config.windowMs) ∧
      (0 < s.window → s.window < 1000000 → ∀ cs, allowedCalls (runKey l.config none cs).1 = cs) := by
  have hL : ¬(if s.limit ≤ 0 then 20 else s.limit) ≤ 0 := by split_ifs <;> omega
  have hW : ¬(if s.window ≤ 0 then 60 * 10 ^ 9 else s.window) ≤ 0 := by split_ifs <;> omega
  have hA : parseRateLimitAlgorithm lower s.algorithm ≠ "" := by
    rcases parseRateLimitAlgorithm_mem lower s.algorithm with h | h | h <;> rw [h] <;> decide
  refine ⟨_, dif_neg hL |>.trans (dif_neg hW), rfl, rfl, ?_, ?_, fun h => ?_, fun h0 h1 cs => ?_⟩
  · show (if (if s.burst ≤ 0 then _ else s.burst) ≤ 0 then _ else _) = _
    by_cases hb : s.burst ≤ 0
    · simp only [if_pos hb, if_neg hL]
    · simp only [if_neg hb]
  · simpa only [if_neg hA] using parseRateLimitAlgorithm_mem lower s.algorithm
  · exact one_le_milliseconds (by simp only [if_neg (show ¬s.window ≤ 0 by omega)]; exact h)
  · refine (allow_of_zero_window _ ?_ cs).1
    show milliseconds (if s.window ≤ 0 then _ else s.window) = 0
    rw [if_neg (by omega), milliseconds, Int.tdiv_eq_ediv (by omega) (by decide)]
    exact Int.ediv_eq_zero_of_lt (by omega) h1

end WithdrawApi.RateLimit
