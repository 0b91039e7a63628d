import WithdrawApi.Values
import WithdrawApi.Ledger.Repository
import WithdrawApi.Ledger.Concurrency
import WithdrawApi.Idempotency.Store
import WithdrawApi.Idempotency.Runs
import WithdrawApi.Idempotency.Race
import WithdrawApi.Pipeline.Route
import WithdrawApi.Pipeline.Requests
import WithdrawApi.RateLimit.RedisStore
import WithdrawApi.RateLimit.SlidingWindow
import WithdrawApi.RateLimit.FixedWindow
import WithdrawApi.RateLimit.TokenBucket
import WithdrawApi.RateLimit.Limiter
import WithdrawApi.Pipeline.Isolation
import WithdrawApi.Auth.Login
import WithdrawApi.Pipeline.Inquiry
import WithdrawApi.Pipeline.Throttle
import WithdrawApi.Pipeline.Server
