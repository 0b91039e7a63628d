import WithdrawApi.RateLimit.RedisStore

/-!
# The token bucket

What `RedisStore.tokenBucket` does over runs of calls on one key, in exact arithmetic. The script refills the bucket
at `limit / W` tokens a millisecond, caps it at `burst`, takes a token for an allowed call, and gives the key
`PEXPIRE key W * 2`, for `W = Window.Milliseconds()`; a call after the key has expired finds a full bucket.

- `tokenBucket_step`: with `W ≥ 1`, one call on a key the bucket wrote, in rationals: allowed exactly when the
  refilled bucket (`avail`) holds a token.
- `avail_written_now` and `avail_written`: after a call that leaves `S` tokens, a call `d` milliseconds later finds
  at most `S + d * boundRate`, where `boundRate` is `max(limit, burst / 2) / W`: the refill below `2 * W`, the full
  bucket of an expired key after it.
- `tokenBucket_run`: every run at nondecreasing times keeps `0 ≤ tokens ≤ burst`; `tokenBucket_segment` and
  `tokenBucket_interval`: the calls it allows in `[a, b]` are at most `burst + (b - a) * boundRate`.
- `token_bucket_spec` states both of `Allow` on a fresh key; `token_bucket_expiry_refill`: the bound with `limit / W`
  alone fails, since the key expires after `2 * W` and comes back with `burst` tokens.
-/

namespace WithdrawApi.RateLimit

/-! ## The bucket of one key -/

/-- The tokens a call at `now` finds in the live key, after the refill: `math.min(burst, tokens + elapsed * limit /
window)` for a bucket, `burst` for a missing key. -/
def bucketTokens (limit burst window now : Int) : Option Entry → ℚ
  | some ⟨.hash (.num q) last, _⟩ => min (burst : ℚ) (q + ((now - last : Int) : ℚ) * ((limit : ℚ) / window))
  | _ => burst

/-- The tokens a call at `now` finds. -/
def avail (config : Config) (now : Int) (key : Option Entry) : ℚ :=
  bucketTokens config.limit config.burst config.windowMs now (Entry.live now key)

/-- A key as the token bucket writes it, seen from `now`: nothing, or `0` to `burst` tokens refilled last no later
than `now`, expiring `2 * W` after that. -/
def BucketInv (config : Config) (now : Int) : Option Entry → Prop
  | some ⟨.hash (.num q) last, some x⟩ => 0 ≤ q ∧ q ≤ config.burst ∧ last ≤ now ∧ x = last + config.windowMs * 2
  | some _ => False
  | none => True

/-- The bucket the script writes at `now`: `S` tokens, refilled at `now`, expiring `2 * W` later. -/
def written (config : Config) (now : Int) (S : ℚ) : Option Entry :=
  some ⟨.hash (.num S) now, some (now + config.windowMs * 2)⟩

/-- The rate of the bound: `max(limit, burst / 2)` tokens per `W` milliseconds. -/
def boundRate (config : Config) : ℚ := max (config.limit : ℚ) ((config.burst : ℚ) / 2) / config.windowMs

section Bucket

variable {config : Config} {now t : Int} {key : Option Entry}

theorem BucketInv.mono (h : BucketInv config now key) (ht : now ≤ t) : BucketInv config t key := by
  rcases key with _ | ⟨_ | ⟨_ | _ | _ | _, last⟩ | _, _ | x⟩ <;> simp only [BucketInv] at h ⊢
  exact ⟨h.1, h.2.1, h.2.2.1.trans ht, h.2.2.2⟩

theorem written_inv {S : ℚ} (h0 : 0 ≤ S) (hB : S ≤ config.burst) :
    BucketInv config now (written config now S) :=
  ⟨h0, hB, le_rfl, rfl⟩

theorem avail_le_burst (now : Int) (key : Option Entry) : avail config now key ≤ config.burst := by
  unfold avail
  rcases Entry.live now key with _ | ⟨_ | ⟨_ | _ | _ | _, last⟩ | _, x⟩ <;> simp [bucketTokens]

theorem rate_nonneg (hL : 0 < config.limit) (hw : 1 ≤ config.windowMs) :
    0 ≤ (config.limit : ℚ) / config.windowMs := by
  have : (0 : ℚ) < config.limit := Int.cast_pos.mpr hL
  have : (0 : ℚ) < config.windowMs := Int.cast_pos.mpr (by omega)
  positivity

theorem avail_nonneg (hL : 0 < config.limit) (hB : 0 < config.burst) (hw : 1 ≤ config.windowMs)
    (hk : BucketInv config now key) : 0 ≤ avail config now key := by
  have hr := rate_nonneg hL hw
  have hB' : (0 : ℚ) ≤ config.burst := Int.cast_nonneg.mpr hB.le
  unfold avail
  rcases key with _ | ⟨_ | ⟨q | _ | _ | _, last⟩ | _, _ | x⟩ <;> simp only [BucketInv] at hk
  · simpa [bucketTokens] using hB'
  · obtain ⟨h0, -, hlast, rfl⟩ := hk
    simp only [Entry.live]
    split_ifs
    · simpa [bucketTokens] using hB'
    · have : (0 : ℚ) ≤ ((now - last : Int) : ℚ) := Int.cast_nonneg.mpr (by omega)
      simp only [bucketTokens, le_min_iff]
      exact ⟨hB', by positivity⟩

/-- A call at the time of the write finds what was written. -/
theorem avail_written_now (hw : 1 ≤ config.windowMs) {S : ℚ} (hS : S ≤ config.burst) :
    avail config now (written config now S) = S := by
  have : now ≤ now + config.windowMs * 2 := by omega
  simp [avail, written, live_some_of_le this, bucketTokens, hS]

/-- **A later call finds at most `d * boundRate` tokens more**, `d` milliseconds after the write: while the key lives
the bucket refills at `limit / W ≤ boundRate`; once it has expired, more than `2 * W` milliseconds later, the call
finds `burst ≤ 2 * W * boundRate` tokens. -/
theorem avail_written (hB : 0 < config.burst) (hw : 1 ≤ config.windowMs) {S : ℚ} (h0 : 0 ≤ S) (ht : now ≤ t) :
    avail config t (written config now S) ≤ S + ((t - now : Int) : ℚ) * boundRate config := by
  have hW : (0 : ℚ) < config.windowMs := Int.cast_pos.mpr (by omega)
  have hd : (0 : ℚ) ≤ ((t - now : Int) : ℚ) := Int.cast_nonneg.mpr (by omega)
  have hR : (config.limit : ℚ) / config.windowMs ≤ boundRate config :=
    div_le_div_of_nonneg_right (le_max_left _ _) hW.le
  by_cases hx : t ≤ now + config.windowMs * 2
  · simp only [avail, written, live_some_of_le hx, bucketTokens]
    calc min (config.burst : ℚ) (S + ((t - now : Int) : ℚ) * (config.limit / config.windowMs))
        ≤ S + ((t - now : Int) : ℚ) * (config.limit / config.windowMs) := min_le_right _ _
      _ ≤ S + ((t - now : Int) : ℚ) * boundRate config := add_le_add_left (mul_le_mul_of_nonneg_left hR hd) S
  · simp only [avail, written, live_some_of_lt (not_le.mp hx), bucketTokens]
    have h2 : (2 : ℚ) * config.windowMs ≤ ((t - now : Int) : ℚ) := by
      exact_mod_cast (show (2 : Int) * config.windowMs ≤ t - now by omega)
    have hR' : (config.burst : ℚ) / 2 / config.windowMs ≤ boundRate config :=
      div_le_div_of_nonneg_right (le_max_right _ _) hW.le
    calc (config.burst : ℚ) = 2 * config.windowMs * ((config.burst : ℚ) / 2 / config.windowMs) := by
          field_simp
      _ ≤ ((t - now : Int) : ℚ) * boundRate config :=
          mul_le_mul h2 hR' (div_nonneg (div_nonneg (Int.cast_nonneg.mpr hB.le) (by norm_num)) hW.le) hd
      _ ≤ S + ((t - now : Int) : ℚ) * boundRate config := by linarith

theorem boundRate_nonneg (hL : 0 < config.limit) (hw : 1 ≤ config.windowMs) : 0 ≤ boundRate config := by
  have hL' : (0 : ℚ) < config.limit := Int.cast_pos.mpr hL
  have hW : (0 : ℚ) < config.windowMs := Int.cast_pos.mpr (by omega)
  exact div_nonneg (le_max_of_le_left hL'.le) hW.le

/-! ## One call -/

/-- With `W ≥ 1` the script's numbers stay finite: `HMGET` reads a bucket or nothing, and the refill line computes
`avail`. -/
theorem refilledTokens_live (hw : 1 ≤ config.windowMs) (hk : BucketInv config now key) :
    ∃ data, hmget (Entry.live now key) = .ok data ∧
      refilledTokens config.limit config.burst config.windowMs now data = .num (avail config now key) := by
  have hW : (config.windowMs : ℚ) ≠ 0 := Int.cast_ne_zero.mpr (by omega)
  unfold avail
  rcases key with _ | ⟨_ | ⟨q | _ | _ | _, last⟩ | _, _ | x⟩ <;> simp only [BucketInv] at hk
  · exact ⟨none, rfl, by simp [refilledTokens, LuaNum.div_num _ hW, bucketTokens]⟩
  · simp only [Entry.live]
    split_ifs
    · exact ⟨none, rfl, by simp [refilledTokens, LuaNum.div_num _ hW, bucketTokens]⟩
    · exact ⟨some (.num q, last), rfl, by simp [refilledTokens, LuaNum.div_num _ hW, bucketTokens]⟩

/-- **One call of the token bucket** on a key the bucket wrote, with `W ≥ 1`: allowed exactly when the refilled
bucket holds a token, which the call takes; the key then holds what is left, refilled now. -/
theorem tokenBucket_step (hL : 0 < config.limit) (hw : 1 ≤ config.windowMs) (hk : BucketInv config now key) :
    ∃ r, tokenBucket now key config =
        .ok (r, written config now (avail config now key - if r.allowed then 1 else 0)) ∧
      (r.allowed ↔ 1 ≤ avail config now key) := by
  obtain ⟨data, hd, hr⟩ := refilledTokens_live hw hk
  have hW : (config.windowMs : ℚ) ≠ 0 := Int.cast_ne_zero.mpr (by omega)
  have hpos : ¬config.windowMs * 2 ≤ 0 := by omega
  have hLW : (config.limit / config.windowMs : ℚ) ≠ 0 :=
    div_ne_zero (Int.cast_ne_zero.mpr hL.ne') hW
  unfold tokenBucket tokenBucketScript
  dsimp only
  rw [hd]
  dsimp only
  rw [hr, LuaNum.div_num _ hW]
  by_cases h1 : 1 ≤ avail config now key
  · refine ⟨⟨true, (avail config now key - 1).floor, durationMillis (0 : ℚ).floor⟩, ?_, by simp [h1]⟩
    simp [h1, pexpire, hpos, written]
  · refine ⟨⟨false, (0 : ℚ).floor,
      durationMillis ((1 - avail config now key) / (config.limit / config.windowMs)).floor⟩, ?_, by simp [h1]⟩
    simp [h1, pexpire, hpos, written, LuaNum.div_num _ hLW]

/-! ## Runs -/

theorem mem_runKey {cs : List Call} {key : Option Entry} {p : Call × Except String Result}
    (h : p ∈ (runKey config key cs).1) : p.1 ∈ cs := by
  rw [← map_fst_runKey config key cs]; exact List.mem_map_of_mem _ h

theorem now_le_of_sorted {c : Call} {cs : List Call} (hs : (c :: cs).Pairwise (·.now ≤ ·.now)) :
    ∀ c' ∈ c :: cs, c.now ≤ c'.now
  | _, .head _ => le_rfl
  | _, .tail _ h => List.rel_of_pairwise_cons hs h

/-- Calls after `b` add nothing to the calls allowed by `b`. -/
theorem count_after {cs : List Call} {key : Option Entry} {b : Int} (h : ∀ c ∈ cs, b < c.now) :
    ((runKey config key cs).1.filter fun p => Allowed p.2 ∧ p.1.now ≤ b) = [] :=
  List.filter_eq_nil_iff.mpr fun p hp => by
    have := h _ (mem_runKey hp)
    simp only [decide_eq_true_eq, not_and]
    intro _; omega

section Run

variable (hL : 0 < config.limit) (hB : 0 < config.burst) (hw : 1 ≤ config.windowMs)
  (hdisp : ∀ now rnd key, allowEntry now rnd config key = tokenBucket now key config)
include hL hB hw hdisp

/-- The call after a step: it takes a token only if it found one, and writes the bucket of what is left. -/
theorem runKey_tokenBucket (c : Call) (cs : List Call) (hk : BucketInv config c.now key) :
    ∃ r, runKey config key (c :: cs) =
        ((c, .ok r) :: (runKey config (written config c.now (avail config c.now key - if r.allowed then 1 else 0)) cs).1,
          (runKey config (written config c.now (avail config c.now key - if r.allowed then 1 else 0)) cs).2) ∧
      (if r.allowed then (1 : ℚ) else 0) ≤ avail config c.now key ∧
      BucketInv config c.now (written config c.now (avail config c.now key - if r.allowed then 1 else 0)) := by
  obtain ⟨r, hr, ha⟩ := tokenBucket_step hL hw hk
  have htake : (if r.allowed then (1 : ℚ) else 0) ≤ avail config c.now key := by
    split_ifs with h
    · exact ha.mp h
    · exact avail_nonneg hL hB hw hk
  refine ⟨r, runKey_cons_ok ((hdisp _ _ _).trans hr), htake, written_inv (sub_nonneg.mpr htake) ?_⟩
  have := @avail_le_burst config c.now key
  split_ifs <;> linarith

/-- **Every run keeps the bucket between `0` and `burst`**: at nondecreasing times from a key the bucket wrote, the key
after the run is one the bucket wrote, seen from the last call. -/
theorem tokenBucket_run : ∀ (cs : List Call) (key : Option Entry), cs.Pairwise (·.now ≤ ·.now) →
    (∀ c ∈ cs.head?, BucketInv config c.now key) → ∀ c ∈ cs.getLast?, BucketInv config c.now (runKey config key cs).2
  | [], _, _, _ => fun _ h => nomatch h
  | c :: cs, key, hs, hk => by
    obtain ⟨r, hrun, -, hk'⟩ := runKey_tokenBucket hL hB hw hdisp c cs (hk c rfl)
    rw [hrun]
    rcases cs with _ | ⟨c₂, cs⟩
    · intro c' hc'
      cases hc'
      exact hk'
    · refine tokenBucket_run (c₂ :: cs) _ (List.pairwise_cons.mp hs).2 fun c₃ h₃ => hk'.mono ?_
      cases h₃
      exact List.rel_of_pairwise_cons hs (List.mem_cons_self _ _)

/-- **From the first call of a segment on, the calls allowed by `b` are at most what that call finds plus
`boundRate` per millisecond up to `b`**: each allowed call takes a token, and between two calls the bucket gains at
most `boundRate` per millisecond. -/
theorem tokenBucket_segment (b : Int) : ∀ (cs : List Call) (c : Call) (key : Option Entry),
    (c :: cs).Pairwise (·.now ≤ ·.now) → BucketInv config c.now key → c.now ≤ b →
      (((runKey config key (c :: cs)).1.filter fun p => Allowed p.2 ∧ p.1.now ≤ b).length : ℚ) ≤
        avail config c.now key + ((b - c.now : Int) : ℚ) * boundRate config
  | cs, c, key, hs, hk, hb => by
    obtain ⟨r, hrun, htake, hk'⟩ := runKey_tokenBucket hL hB hw hdisp c cs hk
    generalize hδ : (if r.allowed then (1 : ℚ) else 0) = δ at hrun htake hk'
    have hgain : (0 : ℚ) ≤ ((b - c.now : Int) : ℚ) * boundRate config :=
      mul_nonneg (Int.cast_nonneg.mpr (by omega)) (boundRate_nonneg hL hw)
    -- the rest of the segment starts from the `avail - δ` tokens the call left
    have hrest : (((runKey config (written config c.now (avail config c.now key - δ)) cs).1.filter
        fun p => Allowed p.2 ∧ p.1.now ≤ b).length : ℚ) ≤
          avail config c.now key - δ + ((b - c.now : Int) : ℚ) * boundRate config := by
      rcases cs with _ | ⟨c₂, cs⟩
      · simp only [runKey, List.filter_nil, List.length_nil, Nat.cast_zero]
        linarith
      · have hc₂ : c.now ≤ c₂.now := List.rel_of_pairwise_cons hs (List.mem_cons_self _ _)
        by_cases hb₂ : c₂.now ≤ b
        · have ih := tokenBucket_segment b cs c₂ _ (List.pairwise_cons.mp hs).2 (hk'.mono hc₂) hb₂
          have hgap := avail_written hB hw (sub_nonneg.mpr htake) hc₂
          have hsplit : ((b - c.now : Int) : ℚ) = ((c₂.now - c.now : Int) : ℚ) + ((b - c₂.now : Int) : ℚ) := by
            rw [← Int.cast_add]; congr 1; omega
          rw [hsplit, add_mul]
          linarith
        · have hafter := now_le_of_sorted (List.pairwise_cons.mp hs).2
          rw [count_after fun c' h => lt_of_lt_of_le (not_le.mp hb₂) (hafter c' h), List.length_nil, Nat.cast_zero]
          linarith
    -- the call itself counts `δ`
    rw [hrun, List.filter_cons]
    simp only [allowed_ok, hb, and_true, decide_eq_true_eq]
    by_cases h : r.allowed
    · simp only [h, if_true] at hδ
      simp only [h, if_true, List.length_cons, Nat.cast_add, Nat.cast_one]
      linarith
    · simp only [h, Bool.false_eq_true, if_false] at hδ ⊢
      linarith

/-- **No interval `[a, b]` holds more than `burst + (b - a) * boundRate` allowed calls**, at nondecreasing times
from a key the bucket wrote. -/
theorem tokenBucket_interval (a b : Int) (hab : a ≤ b) (cs : List Call) : ∀ (key : Option Entry),
    cs.Pairwise (·.now ≤ ·.now) → (∀ c ∈ cs.head?, BucketInv config c.now key) →
      (((runKey config key cs).1.filter fun p => Allowed p.2 ∧ a ≤ p.1.now ∧ p.1.now ≤ b).length : ℚ) ≤
        config.burst + ((b - a : Int) : ℚ) * boundRate config := by
  have hR := boundRate_nonneg hL hw
  have hbound : (0 : ℚ) ≤ config.burst + ((b - a : Int) : ℚ) * boundRate config :=
    add_nonneg (Int.cast_nonneg.mpr hB.le) (mul_nonneg (Int.cast_nonneg.mpr (by omega)) hR)
  induction cs with
  | nil => intro _ _ _; simpa only [runKey, List.filter_nil, List.length_nil, Nat.cast_zero] using hbound
  | cons c cs ih =>
    intro key hs hk
    have hk := hk c rfl
    by_cases ha : a ≤ c.now
    · -- from `c` on every call is at or after `a`
      have hcongr : ((runKey config key (c :: cs)).1.filter fun p => Allowed p.2 ∧ a ≤ p.1.now ∧ p.1.now ≤ b) =
          (runKey config key (c :: cs)).1.filter fun p => Allowed p.2 ∧ p.1.now ≤ b :=
        List.filter_congr fun p hp => by simp [ha.trans (now_le_of_sorted hs _ (mem_runKey hp))]
      rw [hcongr]
      by_cases hb : c.now ≤ b
      · have hseg := tokenBucket_segment hL hB hw hdisp b cs c key hs hk hb
        have hle := @avail_le_burst config c.now key
        have hba : ((b - c.now : Int) : ℚ) ≤ ((b - a : Int) : ℚ) := Int.cast_le.mpr (by omega)
        have := mul_le_mul_of_nonneg_right hba hR
        linarith
      · rw [count_after fun c' h => lt_of_lt_of_le (not_le.mp hb) (now_le_of_sorted hs c' h), List.length_nil,
          Nat.cast_zero]
        exact hbound
    · -- `c` is before the interval: it only leaves a bucket for the rest
      obtain ⟨r, hrun, -, hk'⟩ := runKey_tokenBucket hL hB hw hdisp c cs hk
      rw [hrun, List.filter_cons]
      simp only [ha, false_and, and_false, decide_False, Bool.false_eq_true, if_false]
      exact ih _ (List.pairwise_cons.mp hs).2 fun c₂ hc₂ =>
        hk'.mono (List.rel_of_pairwise_cons hs (List.mem_of_mem_head? hc₂))

end Run

end Bucket

/-- **The token bucket**, for calls of `Allow` on a fresh key at nondecreasing times, with an algorithm that the
switch sends to the token bucket. The key holds nothing, or a bucket of `0` to `Burst` tokens. With `W ≥ 1` any
interval `[a, b]` holds at most `Burst + (b - a) * max(Limit, Burst / 2) / W` allowed calls: the refill gives
`Limit / W` a millisecond, and a key that has expired after `2 * W` idle milliseconds comes back with `Burst`. -/
theorem token_bucket_spec (l : Limiter) (hs : l.config.algorithm ≠ algorithmSlidingWindow)
    (hf : l.config.algorithm ≠ algorithmFixedWindow) (cs : List Call) (hsort : cs.Pairwise (·.now ≤ ·.now)) :
    (∀ e, (runKey l.config none cs).2 = some e →
      ∃ q last x, e = ⟨.hash (.num q) last, x⟩ ∧ 0 ≤ q ∧ q ≤ l.config.burst) ∧
    (1 ≤ l.config.windowMs → ∀ a b, a ≤ b →
      (((allowedCalls (runKey l.config none cs).1).filter fun c => a ≤ c.now ∧ c.now ≤ b).length : ℚ) ≤
        l.config.burst + ((b - a : Int) : ℚ) * (max (l.config.limit : ℚ) (l.config.burst / 2) / l.config.windowMs)) := by
  have hdisp : ∀ now rnd key, allowEntry now rnd l.config key = tokenBucket now key l.config :=
    fun _ _ _ => allowEntry_tokenBucket hs hf
  have hnone : ∀ c ∈ cs.head?, BucketInv l.config c.now none := fun _ _ => trivial
  rcases (Limiter.windowMs_nonneg l).eq_or_lt with hw | hw
  · -- `W = 0`: `PEXPIRE key 0` deletes the key every call writes
    refine ⟨fun e he => ?_, fun h => absurd h (by omega)⟩
    rw [(allow_of_zero_window l hw.symm cs).2] at he
    cases he
  · have hw : 1 ≤ l.config.windowMs := hw
    refine ⟨fun e he => ?_, fun _ a b hab => ?_⟩
    · cases hlast : cs.getLast? with
      | none => rw [List.getLast?_eq_none_iff.mp hlast] at he; cases he
      | some c =>
        have hk := tokenBucket_run l.limit_pos l.burst_pos hw hdisp cs none hsort hnone c hlast
        rw [he] at hk
        rcases e with ⟨_ | ⟨q | _ | _ | _, last⟩ | _, _ | x⟩ <;> simp only [BucketInv] at hk
        exact ⟨q, last, _, rfl, hk.1, hk.2.1⟩
    · rw [length_filter_allowedCalls]
      exact tokenBucket_interval l.limit_pos l.burst_pos hw hdisp a b hab cs none hsort hnone

/-- A bucket of `4`, refilled at one token a millisecond. -/
def sampleTokenBucket : Limiter := ⟨⟨algorithmTokenBucket, 1, 1000000, 4⟩, by decide, by decide, by decide⟩

/-- Calls at `0` and `3` on a fresh key: `[0, 3]` holds at most `4 + 3 * max(1, 2) / 1` allowed calls. -/
theorem sample_token_bucket :
    (((allowedCalls (runKey sampleTokenBucket.config none [⟨0, ""⟩, ⟨3, ""⟩]).1).filter fun c =>
      0 ≤ c.now ∧ c.now ≤ 3).length : ℚ) ≤
      sampleTokenBucket.config.burst + ((3 - 0 : Int) : ℚ) *
        (max (sampleTokenBucket.config.limit : ℚ) (sampleTokenBucket.config.burst / 2) /
          sampleTokenBucket.config.windowMs) :=
  (token_bucket_spec sampleTokenBucket (by decide) (by decide) [⟨0, ""⟩, ⟨3, ""⟩] (by decide)).2 (by decide) 0 3
    (by decide)

/-- **The key's expiry refills the bucket past `Limit / W`**: with `Limit = 1`, `W = 1` and `Burst = 4`, four calls
at `0` empty the bucket, the key expires at `2`, and four calls at `3` find a full bucket: `[0, 3]` holds `8` allowed
calls, over `Burst + 3 * Limit / W = 7`. -/
theorem token_bucket_expiry_refill :
    ((new ⟨algorithmTokenBucket, 1, 1000000, 4⟩).map fun l =>
      ((allowedCalls (runKey l.config none (List.replicate 4 ⟨0, ""⟩ ++ List.replicate 4 ⟨3, ""⟩)).1).length,
        l.config.burst + 3 * l.config.limit / l.config.windowMs)) = .ok (8, 7) := by
  rw [show new ⟨algorithmTokenBucket, 1, 1000000, 4⟩ = .ok sampleTokenBucket from rfl]
  norm_num [Except.map, sampleTokenBucket, runKey, allowEntry, algorithmSlidingWindow, algorithmFixedWindow,
    tokenBucket, tokenBucketScript, hmget, refilledTokens, Entry.live, pexpire, Config.windowMs, milliseconds,
    LuaNum.div_num, allowedCalls]

end WithdrawApi.RateLimit
