import Mathlib.Algebra.Order.Field.Basic
import Mathlib.Algebra.Order.Field.Rat
import Mathlib.Data.List.Basic
import Mathlib.Data.List.Infix
import Mathlib.Data.List.MinMax
import Mathlib.Data.List.Nodup
import Mathlib.Data.Rat.Cast.Order
import Mathlib.Logic.Function.Basic
import Mathlib.Tactic.FieldSimp
import Mathlib.Tactic.Linarith

/-!
# The Redis rate-limit store

`ratelimit.New` and `RedisStore.Allow` with its three Lua scripts, on the keys of one Redis database (`Db`).

- `new` is `ratelimit.New`: it rejects a limit or a window that is not positive and fills in the algorithm and the
  burst; what it returns (`Limiter`) carries those checks.
- A key holds an integer (`INCR`), the token bucket's hash, or a sorted set, and may carry an expiry time
  (`Entry`); a key whose expiry time has passed is gone (`Entry.live`), `PEXPIRE` with a time that is not positive
  deletes the key (`pexpire`), and `PTTL` reads what is left (`pttl`).
- Redis runs the scripts in Lua, whose numbers are doubles. Here a finite number is an exact rational, beside the
  infinities and `nan` that a zero `window` brings into the token bucket (`LuaNum`).
- `tokenBucketScript`, `slidingWindowScript` and `fixedWindowScript` are the three scripts; `tokenBucket`,
  `slidingWindow` and `fixedWindow` are the Go methods that run them and read their replies; `allowEntry` is the
  switch of `Allow` on one key and `allow` is `Allow` on the database.
- `runKey` runs calls of `Allow` on one key, one after another.

Times are the milliseconds `time.Now().UnixMilli()` returns; the application's clock and Redis's clock are taken to
be one clock, and Redis reads it once per script. `Window` is a `time.Duration`, in nanoseconds.

`allow_of_zero_window`: a `Window` under one millisecond makes every script delete its key at once, so every call
on a fresh key is allowed, whatever the algorithm.
-/

namespace WithdrawApi.RateLimit

/-! ## The configuration and `New` -/

/-- `Algorithm` values: `AlgorithmTokenBucket`. -/
def algorithmTokenBucket : String := "token_bucket"

/-- `AlgorithmSlidingWindow`. -/
def algorithmSlidingWindow : String := "sliding_window"

/-- `AlgorithmFixedWindow`. -/
def algorithmFixedWindow : String := "fixed_window"

/-- `ratelimit.Config`: the fields `Allow` reads. `Limit` and `Burst` are `int64`, `Window` is a `time.Duration`
in nanoseconds. -/
structure Config where
  algorithm : String
  limit : Int
  window : Int
  burst : Int
deriving DecidableEq

/-- `Duration.Milliseconds()`: whole milliseconds, truncated toward zero. -/
def milliseconds (d : Int) : Int := d.tdiv 1000000

/-- The limiter `New` returns: its configuration, with the checks `New` made. -/
structure Limiter where
  config : Config
  limit_pos : 0 < config.limit
  window_pos : 0 < config.window
  burst_pos : 0 < config.burst

/-- `ratelimit.New`, with a store: a positive limit and window are required; an empty algorithm becomes the token
bucket and a burst that is not positive becomes the limit. -/
def new (config : Config) : Except String Limiter :=
  if hl : config.limit ≤ 0 then .error "ratelimit: limit must be positive"
  else if hw : config.window ≤ 0 then .error "ratelimit: window must be positive"
  else .ok
    { config :=
        { config with
          algorithm := if config.algorithm = "" then algorithmTokenBucket else config.algorithm
          burst := if config.burst ≤ 0 then config.limit else config.burst }
      limit_pos := by simp only; omega
      window_pos := by simp only; omega
      burst_pos := by simp only; split <;> omega }

/-- `windowMs := config.Window.Milliseconds()`, the window every script receives. -/
def Config.windowMs (config : Config) : Int := milliseconds config.window

theorem milliseconds_nonneg {d : Int} (h : 0 ≤ d) : 0 ≤ milliseconds d :=
  Int.tdiv_nonneg h (by decide)

theorem Limiter.windowMs_nonneg (l : Limiter) : 0 ≤ l.config.windowMs :=
  milliseconds_nonneg l.window_pos.le

/-- A window of at least one millisecond is at least one millisecond whole. -/
theorem one_le_milliseconds {d : Int} (h : 1000000 ≤ d) : 1 ≤ milliseconds d := by
  unfold milliseconds
  rw [Int.tdiv_eq_ediv (by omega) (by decide)]
  omega

/-- `New` admits exactly the positive limits and windows, and passes the rest on with its defaults. -/
theorem new_eq_ok {config : Config} {l : Limiter} (h : new config = .ok l) :
    0 < config.limit ∧ 0 < config.window ∧ l.config.window = config.window ∧ l.config.limit = config.limit ∧
      l.config.burst = (if config.burst ≤ 0 then config.limit else config.burst) ∧
      l.config.algorithm = (if config.algorithm = "" then algorithmTokenBucket else config.algorithm) := by
  unfold new at h
  split at h
  · cases h
  · split at h
    · cases h
    · cases h
      exact ⟨by omega, by omega, rfl, rfl, rfl, rfl⟩

/-! ## Keys -/

/-- A Lua number of the scripts. Redis's Lua keeps doubles; a finite number is kept here exactly (`num`), beside
`inf`, `-inf` and `nan`. -/
inductive LuaNum
  | num (q : ℚ)
  | inf
  | negInf
  | nan
deriving DecidableEq

/-- A member of the sliding window's sorted set, the string `now .. '-' .. math.random()`: the call's time and the
text of its random number. -/
structure Member where
  now : Int
  rnd : String
deriving DecidableEq

/-- What one key holds. -/
inductive Value
  /-- a string holding an integer, as `INCR` keeps it -/
  | int (n : Int)
  /-- the hash `HMSET key tokens .. last_refill ..` writes -/
  | hash (tokens : LuaNum) (lastRefill : Int)
  /-- a sorted set: its members with their scores -/
  | zset (members : List (Member × Int))
deriving DecidableEq

/-- A key: its value and its expiry time, if it has one. -/
structure Entry where
  value : Value
  expireAt : Option Int
deriving DecidableEq

/-- The keys of the database. -/
def Db : Type := String → Option Entry

/-- The key as a command at `now` sees it: once its expiry time has passed, it is gone. -/
def Entry.live (now : Int) : Option Entry → Option Entry
  | some e =>
    match e.expireAt with
    | some x => if x < now then none else some e
    | none => some e
  | none => none

/-- `PEXPIRE key ms` at `now`: the key expires at `now + ms`, and is deleted at once when that is not later than
`now`; a missing key stays missing. -/
def pexpire (now ms : Int) : Option Entry → Option Entry
  | some e => if ms ≤ 0 then none else some { e with expireAt := some (now + ms) }
  | none => none

/-- `PTTL key` at `now`: `-2` for a missing key, `-1` for a key without expiry, else the milliseconds left. -/
def pttl (now : Int) : Option Entry → Int
  | some e =>
    match e.expireAt with
    | some x => max (x - now) 0
    | none => -1
  | none => -2

/-- The error a command returns on a key of another type. -/
def wrongType : String := "WRONGTYPE Operation against a key holding the wrong kind of value"

@[simp] theorem live_none (now : Int) : Entry.live now none = none := rfl

@[simp] theorem pexpire_none (now ms : Int) : pexpire now ms none = none := rfl

theorem pexpire_of_nonpos {now ms : Int} (h : ms ≤ 0) (e : Option Entry) : pexpire now ms e = none := by
  cases e <;> simp [pexpire, h]

theorem live_some_of_le {now x : Int} {v : Value} (h : now ≤ x) :
    Entry.live now (some ⟨v, some x⟩) = some ⟨v, some x⟩ := by
  simp [Entry.live, not_lt.mpr h]

theorem live_some_of_lt {now x : Int} {v : Value} (h : x < now) : Entry.live now (some ⟨v, some x⟩) = none := by
  simp [Entry.live, h]

/-! ## Lua numbers -/

namespace LuaNum

/-- `-x`. -/
def neg : LuaNum → LuaNum
  | num a => num (-a)
  | inf => negInf
  | negInf => inf
  | nan => nan

/-- `x + y`: `inf + -inf` is `nan`. -/
def add : LuaNum → LuaNum → LuaNum
  | num a, num b => num (a + b)
  | nan, _ | _, nan => nan
  | inf, negInf | negInf, inf => nan
  | inf, _ | _, inf => inf
  | negInf, _ | _, negInf => negInf

/-- `x - y`. -/
def sub (x y : LuaNum) : LuaNum := add x (neg y)

/-- An infinity times a finite number `a`: `nan` at zero. -/
def scaleInf (a : ℚ) (x : LuaNum) : LuaNum :=
  if a = 0 then nan else if 0 < a then x else neg x

/-- `x * y`: zero times an infinity is `nan`. -/
def mul : LuaNum → LuaNum → LuaNum
  | num a, num b => num (a * b)
  | nan, _ | _, nan => nan
  | num a, x | x, num a => scaleInf a x
  | inf, inf | negInf, negInf => inf
  | inf, negInf | negInf, inf => negInf

/-- `x / y` with `window`'s zero the positive zero: a finite number over zero is an infinity or `nan`, over an
infinity zero, and an infinity over an infinity is `nan`. -/
def div : LuaNum → LuaNum → LuaNum
  | num a, num b => if b = 0 then scaleInf a inf else num (a / b)
  | nan, _ | _, nan => nan
  | num _, _ => num 0
  | x, num b => if b = 0 then x else scaleInf b x
  | _, _ => nan

/-- `x < y`: false whenever `nan` is compared. -/
def lt : LuaNum → LuaNum → Bool
  | num a, num b => decide (a < b)
  | nan, _ | _, nan => false
  | negInf, negInf | inf, _ => false
  | negInf, _ | _, inf => true
  | _, negInf => false

/-- `x <= y`: false whenever `nan` is compared. -/
def le : LuaNum → LuaNum → Bool
  | num a, num b => decide (a ≤ b)
  | nan, _ | _, nan => false
  | negInf, _ | _, inf => true
  | _, _ => false

/-- `math.min(x, y)` of Lua 5.1: `y` when `y < x`, else `x`; so `math.min(x, nan)` is `x`. -/
def min (x y : LuaNum) : LuaNum := if lt y x then y else x

/-- `math.floor(x)` as a reply: Redis casts a Lua number to `long long`, which takes a finite number to its floor
and the infinities and `nan` to `-2^63` on x86-64. -/
def floorReply : LuaNum → Int
  | num q => q.floor
  | _ => -2 ^ 63

@[simp] theorem add_num (a b : ℚ) : add (num a) (num b) = num (a + b) := rfl

@[simp] theorem sub_num (a b : ℚ) : sub (num a) (num b) = num (a - b) := by
  simp [sub, neg, sub_eq_add_neg]

@[simp] theorem mul_num (a b : ℚ) : mul (num a) (num b) = num (a * b) := rfl

theorem div_num {b : ℚ} (a : ℚ) (hb : b ≠ 0) : div (num a) (num b) = num (a / b) := by
  simp [div, hb]

@[simp] theorem le_num (a b : ℚ) : le (num a) (num b) = decide (a ≤ b) := rfl

@[simp] theorem min_num (a b : ℚ) : LuaNum.min (num a) (num b) = num (Min.min a b) := by
  simp only [LuaNum.min, lt]
  by_cases h : b < a
  · simp [h, min_eq_right h.le]
  · simp [h, min_eq_left (not_lt.mp h)]

@[simp] theorem floorReply_num (q : ℚ) : floorReply (num q) = q.floor := rfl

theorem div_zero_of_pos {a : ℚ} (h : 0 < a) : div (num a) (num 0) = inf := by
  simp [div, scaleInf, h, h.ne']

@[simp] theorem mul_zero_inf : mul (num 0) inf = nan := rfl

@[simp] theorem add_nan (a : ℚ) : add (num a) nan = nan := rfl

@[simp] theorem min_nan (a : ℚ) : LuaNum.min (num a) nan = num a := rfl

end LuaNum

/-! ## The scripts -/

/-- What a script returns: `{allowed, remaining, x}`, where `x` is the milliseconds to wait (the token bucket and
the sliding window) or the key's `PTTL` (the fixed window). -/
structure Reply where
  allowed : Int
  remaining : Int
  millis : Int
deriving DecidableEq

/-- `HMGET key tokens last_refill`: the two fields of the hash, or `nil` for a missing key. -/
def hmget : Option Entry → Except String (Option (LuaNum × Int))
  | some ⟨.hash t l, _⟩ => .ok (some (t, l))
  | some _ => .error wrongType
  | none => .ok none

/-- `tokens` after `tokens = math.min(burst, tokens + (elapsed * refillRate))`, from the fields `HMGET` read:
`tonumber(data[1]) or burst`, `tonumber(data[2]) or now`, `elapsed = now - lastRefill`, `refillRate = limit /
window`. -/
def refilledTokens (limit burst window now : Int) (data : Option (LuaNum × Int)) : LuaNum :=
  let tokens := match data with
    | some (t, _) => t
    | none => .num burst
  let lastRefill := match data with
    | some (_, l) => l
    | none => now
  let elapsed : LuaNum := .num (now - lastRefill)
  let refillRate := LuaNum.div (.num limit) (.num window)
  LuaNum.min (.num burst) (tokens.add (elapsed.mul refillRate))

/-- The token bucket's script, with `requested = 1`, on the key at `now`. -/
def tokenBucketScript (limit burst window now : Int) (key : Option Entry) : Except String (Reply × Option Entry) :=
  let key := Entry.live now key
  match hmget key with
  | .error e => .error e
  | .ok data =>
    let tokens := refilledTokens limit burst window now data
    let requested : LuaNum := .num 1
    let refillRate := LuaNum.div (.num limit) (.num window)
    let (allowed, tokens, remaining, retryAfter) :=
      if requested.le tokens then (1, tokens.sub requested, tokens.sub requested, LuaNum.num 0)
      else (0, tokens, .num 0, (requested.sub tokens).div refillRate)
    -- `HMSET` keeps the key's expiry; `PEXPIRE key window * 2` then replaces it
    let key := pexpire now (window * 2) (some ⟨.hash tokens now, key.bind (·.expireAt)⟩)
    .ok (⟨allowed, remaining.floorReply, retryAfter.floorReply⟩, key)

/-- `ZREMRANGEBYSCORE key -inf max`: the members scored above `max` stay; a set left empty is deleted. -/
def zremrangebyscore (max : Int) : Option Entry → Except String (Option Entry)
  | some ⟨.zset ms, x⟩ =>
    let ms := ms.filter fun m => max < m.2
    .ok (if ms = [] then none else some ⟨.zset ms, x⟩)
  | some _ => .error wrongType
  | none => .ok none

/-- `ZCARD key` on a set or a missing key. -/
def zcard : Option Entry → Int
  | some ⟨.zset ms, _⟩ => ms.length
  | _ => 0

/-- `ZADD key score m` on a set or a missing key: a member already there gets the new score, a new one is added. -/
def zadd (score : Int) (m : Member) : Option Entry → Option Entry
  | some ⟨.zset ms, x⟩ =>
    some ⟨.zset (if ms.any (·.1 = m) then ms.map (fun p => if p.1 = m then (m, score) else p)
      else ms ++ [(m, score)]), x⟩
  | _ => some ⟨.zset [(m, score)], none⟩

/-- The score of `ZRANGE key 0 0 WITHSCORES`: the lowest score of the set. -/
def zfirstScore : Option Entry → Option Int
  | some ⟨.zset ms, _⟩ => (ms.map (·.2)).min?
  | _ => none

/-- The sliding window's script on the key at `now`; `rnd` is the text of its `math.random()`. -/
def slidingWindowScript (limit window now : Int) (rnd : String) (key : Option Entry) :
    Except String (Reply × Option Entry) :=
  match zremrangebyscore (now - window) (Entry.live now key) with
  | .error e => .error e
  | .ok key =>
    let count := zcard key
    if count < limit then
      .ok (⟨1, limit - count - 1, 0⟩, pexpire now (window * 2) (zadd now ⟨now, rnd⟩ key))
    else
      let retryAfter := match zfirstScore key with
        | some oldest => max (oldest + window - now) 0
        | none => 0
      .ok (⟨0, 0, retryAfter⟩, pexpire now (window * 2) key)

/-- `INCR key`: a missing key starts at `1`, without expiry; a counter keeps its expiry. -/
def incr : Option Entry → Except String (Int × Option Entry)
  | some ⟨.int n, x⟩ => .ok (n + 1, some ⟨.int (n + 1), x⟩)
  | some _ => .error wrongType
  | none => .ok (1, some ⟨.int 1, none⟩)

/-- The fixed window's script on the key at `now`. -/
def fixedWindowScript (limit window now : Int) (key : Option Entry) : Except String (Reply × Option Entry) :=
  match incr (Entry.live now key) with
  | .error e => .error e
  | .ok (current, key) =>
    let key := if current = 1 then pexpire now window key else key
    let ttl := pttl now key
    if current ≤ limit then .ok (⟨1, limit - current, ttl⟩, key) else .ok (⟨0, 0, ttl⟩, key)

/-! ## `Allow` -/

/-- What the rate-limit middleware reads of a `ratelimit.Result`: whether the call is allowed, what is left, and
`RetryAfter` in nanoseconds. -/
structure Result where
  allowed : Bool
  remaining : Int
  retryAfter : Int
deriving DecidableEq

/-- `time.Duration(ms) * time.Millisecond`: `int64` nanoseconds, wrapping on overflow. -/
def durationMillis (ms : Int) : Int := Int.bmod (ms * 1000000) (2 ^ 64)

/-- The error of a failed `Eval`, wrapping Redis's own. -/
def evalFailed (err : String) : String := "ratelimit: redis eval failed: " ++ err

/-- `RedisStore.tokenBucket` on the key at `now`. -/
def tokenBucket (now : Int) (key : Option Entry) (config : Config) : Except String (Result × Option Entry) :=
  match tokenBucketScript config.limit config.burst config.windowMs now key with
  | .error e => .error (evalFailed e)
  | .ok (r, key) => .ok (⟨r.allowed = 1, r.remaining, durationMillis r.millis⟩, key)

/-- `RedisStore.slidingWindow` on the key at `now`, with `rnd` for `math.random()`. -/
def slidingWindow (now : Int) (rnd : String) (key : Option Entry) (config : Config) :
    Except String (Result × Option Entry) :=
  match slidingWindowScript config.limit config.windowMs now rnd key with
  | .error e => .error (evalFailed e)
  | .ok (r, key) => .ok (⟨r.allowed = 1, r.remaining, durationMillis r.millis⟩, key)

/-- `RedisStore.fixedWindow` on the key at `now`: the `PTTL` is the wait only for a denied call. -/
def fixedWindow (now : Int) (key : Option Entry) (config : Config) : Except String (Result × Option Entry) :=
  match fixedWindowScript config.limit config.windowMs now key with
  | .error e => .error (evalFailed e)
  | .ok (r, key) =>
    .ok (⟨r.allowed = 1, r.remaining, if r.allowed = 1 then 0 else durationMillis r.millis⟩, key)

/-- The switch of `RedisStore.Allow`, on the one key it reads and writes; an unknown algorithm is the token
bucket. -/
def allowEntry (now : Int) (rnd : String) (config : Config) (key : Option Entry) :
    Except String (Result × Option Entry) :=
  if config.algorithm = algorithmTokenBucket then tokenBucket now key config
  else if config.algorithm = algorithmSlidingWindow then slidingWindow now rnd key config
  else if config.algorithm = algorithmFixedWindow then fixedWindow now key config
  else tokenBucket now key config

section Switch

variable {now : Int} {rnd : String} {config : Config} {key : Option Entry}

/-- The token bucket, and every algorithm `Allow` does not know. -/
theorem allowEntry_tokenBucket (hs : config.algorithm ≠ algorithmSlidingWindow)
    (hf : config.algorithm ≠ algorithmFixedWindow) : allowEntry now rnd config key = tokenBucket now key config := by
  unfold allowEntry
  split_ifs <;> rfl

end Switch

/-- `RedisStore.Allow` on the database: the key `pre:key`, at `now`. -/
def allow (pre : String) (now : Int) (rnd : String) (db : Db) (key : String) (config : Config) :
    Except String Result × Db :=
  let fullKey := pre ++ ":" ++ key
  match allowEntry now rnd config (db fullKey) with
  | .ok (r, e) => (.ok r, Function.update db fullKey e)
  | .error e => (.error e, db)

/-- `Allow` reads and writes its own key only. -/
theorem allow_frame {pre key k : String} {now : Int} {rnd : String} {db : Db} {config : Config}
    (hk : k ≠ pre ++ ":" ++ key) : (allow pre now rnd db key config).2 k = db k := by
  unfold allow
  dsimp only
  split <;> simp [Function.update_noteq hk]

/-! ## Calls on one key -/

/-- One call of `Allow`: its time, and the text of the `math.random()` the sliding window draws. -/
structure Call where
  now : Int
  rnd : String
deriving DecidableEq

/-- Calls of `Allow` on one key, one after another: each call with its result, and the key at the end. A call
that fails leaves the key as it was. -/
def runKey (config : Config) : Option Entry → List Call → List (Call × Except String Result) × Option Entry
  | key, [] => ([], key)
  | key, c :: cs =>
    match allowEntry c.now c.rnd config key with
    | .ok (r, key') => let rest := runKey config key' cs; ((c, .ok r) :: rest.1, rest.2)
    | .error e => let rest := runKey config key cs; ((c, .error e) :: rest.1, rest.2)

/-- Whether a result let its call through. -/
def Allowed : Except String Result → Bool
  | .ok r => r.allowed
  | .error _ => false

@[simp] theorem allowed_ok (r : Result) : Allowed (.ok r) = r.allowed := rfl

/-- The calls of a run that were allowed. -/
def allowedCalls (log : List (Call × Except String Result)) : List Call :=
  (log.filter fun p => Allowed p.2).map Prod.fst

theorem runKey_cons_ok {config : Config} {key key' : Option Entry} {c : Call} {cs : List Call} {r : Result}
    (h : allowEntry c.now c.rnd config key = .ok (r, key')) :
    runKey config key (c :: cs) = ((c, .ok r) :: (runKey config key' cs).1, (runKey config key' cs).2) := by
  simp [runKey, h]

theorem allowedCalls_cons (c : Call) (r : Except String Result) (l : List (Call × Except String Result)) :
    allowedCalls ((c, r) :: l) = if Allowed r then c :: allowedCalls l else allowedCalls l := by
  by_cases h : Allowed r <;> simp [allowedCalls, h]

/-- Counting the allowed calls that meet `P` is counting the log's entries that were allowed and meet it. -/
theorem length_filter_allowedCalls (P : Call → Prop) [DecidablePred P] (l : List (Call × Except String Result)) :
    ((allowedCalls l).filter fun c => P c).length = (l.filter fun p => Allowed p.2 ∧ P p.1).length := by
  rw [allowedCalls, List.filter_map, List.length_map, List.filter_filter]
  congr 1
  exact List.filter_congr fun p _ => by simp [and_comm]

/-! ## A window under one millisecond -/

section ZeroWindow

variable (l : Limiter) (hw : l.config.windowMs = 0)
include hw

/-- With a zero window each script deletes the key it wrote (`PEXPIRE key 0`) and allows a call on a fresh key:
the token bucket because `limit / 0` is `inf`, `0 * inf` is `nan` and `math.min(burst, nan)` is `burst`. -/
theorem allowEntry_of_zero_window (now : Int) (rnd : String) :
    ∃ r, allowEntry now rnd l.config none = .ok (r, none) ∧ r.allowed = true := by
  have hL := l.limit_pos
  have hB := l.burst_pos
  have hr : refilledTokens l.config.limit l.config.burst 0 now none = .num l.config.burst := by
    simp [refilledTokens, LuaNum.div_zero_of_pos (Int.cast_pos.mpr hL)]
  have tb : ∃ r, tokenBucket now none l.config = .ok (r, none) ∧ r.allowed = true := by
    simp [tokenBucket, tokenBucketScript, hmget, hw, hr, pexpire_of_nonpos,
      Int.cast_one_le_of_pos (R := ℚ) hB]
  unfold allowEntry
  split_ifs
  · exact tb
  · simp [slidingWindow, slidingWindowScript, zremrangebyscore, zcard, hw, pexpire_of_nonpos, hL]
  · simp [fixedWindow, fixedWindowScript, incr, hw, pexpire_of_nonpos, pttl, show (1 : Int) ≤ l.config.limit by omega]
  · exact tb

/-- **A window under one millisecond limits nothing.** On a fresh key every call of every run is allowed, and the
key is gone after each. -/
theorem allow_of_zero_window (cs : List Call) :
    allowedCalls (runKey l.config none cs).1 = cs ∧ (runKey l.config none cs).2 = none := by
  induction cs with
  | nil => exact ⟨rfl, rfl⟩
  | cons c cs ih =>
    obtain ⟨r, h, hr⟩ := allowEntry_of_zero_window l hw c.now c.rnd
    rw [runKey_cons_ok h, allowedCalls_cons]
    simp [Allowed, hr, ih.1, ih.2]

end ZeroWindow

theorem map_fst_runKey (config : Config) (key : Option Entry) (cs : List Call) :
    (runKey config key cs).1.map Prod.fst = cs := by
  induction cs generalizing key with
  | nil => rfl
  | cons c cs ih =>
    simp only [runKey]
    split <;> simp [ih]

end WithdrawApi.RateLimit
