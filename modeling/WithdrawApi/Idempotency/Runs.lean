import WithdrawApi.Idempotency.Store

/-!
# Runs of the idempotency store

Calls of `Acquire` and `Complete` one after another, each at its own time (`Trace`), from any table.

`RowStep` is the life of one record, as the store should keep it: inserted in progress with the `char(64)` value of
its caller's hash, taken over only by a caller of that hash while it is not completed and once its lease has ended,
completed by a caller whose hash it equals as `char(64)`. A call takes a row (`Event.takes`) when it returns
`Acquired`, or when its `COMMIT` of an insert or a take-over failed after the database applied it. `event_rowStep`
shows that every call of `acquire` and `complete` moves every row by a `RowStep`, so what `RowStep` keeps holds along
every run:

- `trace_keeps`: a row is never deleted, its hash never changes, and a completed row stays completed;
- `trace_no_acquires`: once a row is completed, no `Acquire` of its key returns `Acquired`;
- `trace_inserted`: a row that was not there was inserted by the first `Acquire` of its key that took it, with that
  call's hash;
- `trace_held`: the row keeps the hash of a lease it holds, and the lease only moves later, unless the row is
  completed.
-/

namespace WithdrawApi

/-! ## Runs -/

/-- A call of the store. -/
inductive Call
  | acquire (f : AcquireFaults) (request : Request)
  | complete (f : CompleteFaults) (request : Request) (response : StoredResponse)

/-- What a call returned. -/
inductive Outcome
  | acquire (r : Except StoreError Decision)
  | complete (r : Except StoreError Unit)

/-- A call run at `now` on `t`. -/
def Call.run (now : Nat) (t : Table) : Call → Outcome × Table
  | .acquire f q => match WithdrawApi.acquire f now t q with | (r, t') => (.acquire r, t')
  | .complete f q resp => match WithdrawApi.complete f now t q resp with | (r, t') => (.complete r, t')

/-- The trimmed hash a call names. -/
def Call.trimmedHash : Call → String
  | .acquire _ q => q.trimmedHash
  | .complete _ q _ => q.trimmedHash

/-- A call, the time it ran at, and what it returned. -/
structure Event where
  time : Nat
  call : Call
  outcome : Outcome

/-- The event is an `Acquire` of key `k` that returned `Acquired`. -/
def Event.acquires (e : Event) (k : RecordKey) : Bool :=
  match e.call, e.outcome with
  | .acquire _ q, .acquire (.ok d) => q.recordKey = k && d.type = .acquired
  | _, _ => false

/-- The event is an `Acquire` of key `k` that took the row: it returned `Acquired`, or its `COMMIT` of an insert or a
take-over failed after the database applied it. -/
def Event.takes (e : Event) (k : RecordKey) : Bool :=
  match e.call, e.outcome with
  | .acquire _ q, .acquire (.ok d) => q.recordKey = k && d.type = .acquired
  | .acquire f q, .acquire (.error err) => q.recordKey = k && (f.commitApplied && err.afterWrite)
  | _, _ => false

theorem Event.takes_of_acquires {e : Event} {k : RecordKey} (h : e.acquires k = true) : e.takes k = true := by
  obtain ⟨now, call, o⟩ := e
  cases call <;> cases o
  all_goals first | cases h | skip
  rename_i r
  cases r
  · cases h
  · exact h

/-- The event is a `Complete` of key `k` that succeeded. -/
def Event.completes (e : Event) (k : RecordKey) : Bool :=
  match e.call, e.outcome with
  | .complete _ q _, .complete (.ok ()) => q.recordKey = k
  | _, _ => false

/-- `Trace t es t'`: the calls of `es`, made one after another from `t`, return their outcomes and leave `t'`. -/
inductive Trace : Table → List Event → Table → Prop
  | nil (t : Table) : Trace t [] t
  | cons {t t' t'' : Table} {e : Event} {es : List Event} :
      e.call.run e.time t = (e.outcome, t') → Trace t' es t'' → Trace t (e :: es) t''

theorem Trace.append {t t'' : Table} {es fs : List Event} :
    Trace t (es ++ fs) t'' ↔ ∃ t', Trace t es t' ∧ Trace t' fs t'' := by
  induction es generalizing t with
  | nil => exact ⟨fun h => ⟨t, .nil t, h⟩, fun ⟨_, h₁, h₂⟩ => (by cases h₁; exact h₂)⟩
  | cons e es ih =>
    constructor
    · intro h
      cases h with
      | cons he h =>
        obtain ⟨t', h₁, h₂⟩ := ih.mp h
        exact ⟨t', .cons he h₁, h₂⟩
    · rintro ⟨t', h₁, h₂⟩
      cases h₁ with
      | cons he h₁ => exact .cons he (ih.mpr ⟨t', h₁, h₂⟩)

/-! ## The life of one record -/

/-- What one call of trimmed hash `h` can do to the row of one key; `acq` says whether it took the row. -/
inductive RowStep (h : String) : Bool → Option Record → Option Record → Prop
  /-- The row is as it was. -/
  | stay (r : Option Record) : RowStep h false r r
  /-- `Acquire` inserts the row, in progress, with the `char(64)` value of its hash. -/
  | insert {hv : String} (L : Nat) : bpchar 64 h = some hv → RowStep h true none (some (.inProgress hv L))
  /-- `Acquire` takes over a row of its hash that is not completed, and whose lease, while in progress, ended by the
  new lease. -/
  | reacquire {x : Record} (L : Nat) : x.requestHash = h → x.status ≠ "completed" →
      (x.status = "in_progress" → x.lockedUntil ≤ L) → RowStep h true (some x) (some (x.reacquire L))
  /-- `Complete` stores a response into the row of its hash, whatever the row's status. -/
  | complete {x : Record} (sc : Int) (body : List UInt8) (ct : String) (now : Nat) :
      bpcharEq x.requestHash h = true → RowStep h false (some x) (some (x.complete sc body ct now))

section RowStep

variable {h : String} {acq : Bool} {r r' : Option Record}

/-- A step keeps the row, its hash, and a completed status. -/
theorem RowStep.keeps (s : RowStep h acq r r') {x : Record} (hx : r = some x) :
    ∃ x', r' = some x' ∧ x'.requestHash = x.requestHash ∧ (x.status = "completed" → x'.status = "completed") := by
  cases s with
  | stay => exact ⟨x, hx, rfl, id⟩
  | insert => cases hx
  | reacquire _ _ hc _ => cases hx; exact ⟨_, rfl, rfl, fun e => absurd e hc⟩
  | complete => cases hx; exact ⟨_, rfl, rfl, fun _ => rfl⟩

/-- No call returns `Acquired` on a completed row. -/
theorem RowStep.not_acq (s : RowStep h acq r r') {x : Record} (hx : r = some x) (hc : x.status = "completed") :
    acq = false := by
  cases s with
  | stay => rfl
  | insert => cases hx
  | reacquire _ _ hn _ => cases hx; exact absurd hc hn
  | complete => rfl

/-- A row is in progress or completed after a step. -/
theorem RowStep.status (s : RowStep h acq r r') (hr : ∀ x, r = some x → x.status = "in_progress" ∨ x.status = "completed")
    {x' : Record} (hx : r' = some x') : x'.status = "in_progress" ∨ x'.status = "completed" := by
  cases s with
  | stay => exact hr x' hx
  | insert => cases hx; exact .inl rfl
  | reacquire => cases hx; exact .inl rfl
  | complete => cases hx; exact .inr rfl

end RowStep

/-! ## Every call is a `RowStep` -/

section Event

variable {t t' : Table} {e : Event}

theorem Call.run_acquire {f : AcquireFaults} {q : Request} {now : Nat} {o : Outcome}
    (h : (Call.acquire f q).run now t = (o, t')) :
    ∃ r, WithdrawApi.acquire f now t q = (r, t') ∧ o = .acquire r := by
  simp only [Call.run] at h
  rcases ha : WithdrawApi.acquire f now t q with ⟨r, t''⟩
  rw [ha] at h
  obtain ⟨rfl, rfl⟩ := Prod.mk.inj h
  exact ⟨r, rfl, rfl⟩

theorem Call.run_complete {f : CompleteFaults} {q : Request} {resp : StoredResponse} {now : Nat} {o : Outcome}
    (h : (Call.complete f q resp).run now t = (o, t')) :
    ∃ r, WithdrawApi.complete f now t q resp = (r, t') ∧ o = .complete r := by
  simp only [Call.run] at h
  rcases hc : WithdrawApi.complete f now t q resp with ⟨r, t''⟩
  rw [hc] at h
  obtain ⟨rfl, rfl⟩ := Prod.mk.inj h
  exact ⟨r, rfl, rfl⟩

/-- An `Acquire` that returns `Acquired` moves the row of its key by an insert or a take-over, and no other row. -/
theorem acquired_rowStep {f : AcquireFaults} {now : Nat} {q : Request} {d : Decision}
    (h : acquire f now t q = (.ok d, t')) (hd : d.type = .acquired) (k : RecordKey) :
    RowStep q.trimmedHash (decide (q.recordKey = k)) (t.find k) (t'.find k) := by
  obtain ⟨hfr, hc⟩ := acquire_acquired h hd
  by_cases hk : k = q.recordKey
  · subst hk
    rw [decide_eq_true rfl]
    rcases hc with ⟨hn, hv, hv', hf⟩ | ⟨x, hx, h1, h2, h3, hf⟩
    · rw [hn, hf]; exact .insert _ hv'
    · rw [hx, hf]
      refine .reacquire _ h1 h2 fun hip => ?_
      have : x.lockedUntil ≤ now := Nat.le_of_not_lt fun hlt => h3 ⟨hip, hlt⟩
      exact this.trans (Nat.le_add_right _ _)
  · rw [decide_eq_false (Ne.symm hk), hfr k hk]; exact .stay _

/-- **Every call moves every row by a `RowStep`.** -/
theorem event_rowStep (h : e.call.run e.time t = (e.outcome, t')) (k : RecordKey) :
    RowStep e.call.trimmedHash (e.takes k) (t.find k) (t'.find k) := by
  obtain ⟨now, call, o⟩ := e
  cases call with
  | acquire f q =>
    obtain ⟨r, hr, rfl⟩ := Call.run_acquire h
    rcases r with e | d <;> dsimp only [Event.takes, Call.trimmedHash]
    · rcases acquire_error hr with ⟨hw, rfl⟩ | ⟨hw, h'⟩
      · rw [hw, Bool.and_false]; exact .stay _
      · rw [hw, Bool.and_true]; exact acquired_rowStep h' rfl k
    · by_cases hd : d.type = .acquired
      · simpa only [hd, decide_True, Bool.and_true] using acquired_rowStep hr hd k
      · obtain rfl := acquire_unchanged hr hd
        simp only [hd, decide_False, Bool.and_false]
        exact .stay _
  | complete f q resp =>
    obtain ⟨r, hr, rfl⟩ := Call.run_complete h
    simp only [Event.takes, Call.trimmedHash]
    obtain ⟨hfr, hc⟩ := complete_row hr
    by_cases hk : k = q.recordKey
    · subst hk
      rcases hc with hf | ⟨x, hx, hb, hf⟩
      · rw [hf]; exact .stay _
      · rw [hx, hf]; exact .complete _ _ _ _ hb
    · rw [hfr k hk]; exact .stay _

end Event

/-! ## What every run keeps -/

section Trace

variable {t t' : Table} {es : List Event} {k : RecordKey}

/-- **A row is never deleted, its hash never changes, and a completed row stays completed.** -/
theorem trace_keeps (h : Trace t es t') {x : Record} (hx : t.find k = some x) :
    ∃ x', t'.find k = some x' ∧ x'.requestHash = x.requestHash ∧
      (x.status = "completed" → x'.status = "completed") := by
  induction h generalizing x with
  | nil => exact ⟨x, hx, rfl, id⟩
  | cons he _ ih =>
    obtain ⟨y, hy, hyh, hyc⟩ := (event_rowStep he k).keeps hx
    obtain ⟨x', hx', hh, hc⟩ := ih hy
    exact ⟨x', hx', hh.trans hyh, hc ∘ hyc⟩

/-- **Once the row of a key is completed, no `Acquire` of the key returns `Acquired`.** -/
theorem trace_no_acquires (h : Trace t es t') {x : Record} (hx : t.find k = some x)
    (hc : x.status = "completed") : ∀ e ∈ es, e.acquires k = false := by
  induction h generalizing x with
  | nil => intro e he; cases he
  | cons he _ ih =>
    intro e' he'
    obtain ⟨y, hy, -, hyc⟩ := (event_rowStep he k).keeps hx
    rcases List.mem_cons.mp he' with rfl | he'
    · exact Bool.eq_false_iff.2 fun ha =>
        absurd (Event.takes_of_acquires ha) (by rw [(event_rowStep he k).not_acq hx hc]; exact Bool.false_ne_true)
    · exact ih hy (hyc hc) e' he'

/-- Every row is in progress or completed, along every run from a table where that holds. -/
theorem trace_status (h : Trace t es t')
    (ht : ∀ k x, t.find k = some x → x.status = "in_progress" ∨ x.status = "completed") :
    ∀ k x, t'.find k = some x → x.status = "in_progress" ∨ x.status = "completed" := by
  induction h with
  | nil => exact ht
  | cons he _ ih => exact ih fun k _ hx => (event_rowStep he k).status (ht k) hx

/-- **A row that was not there was inserted by the first `Acquire` of its key that took it**, with the `char(64)`
value of that call's hash. -/
theorem trace_inserted (h : Trace t es t') (hn : t.find k = none) {x : Record} (hx : t'.find k = some x) :
    ∃ xs e ys, es = xs ++ e :: ys ∧ (∀ e' ∈ xs, e'.takes k = false) ∧ e.takes k = true ∧
      bpchar 64 e.call.trimmedHash = some x.requestHash := by
  induction h with
  | nil => rw [hn] at hx; cases hx
  | @cons t₀ t₁ t₂ e es he hes ih =>
    have s := event_rowStep he k
    rw [hn] at s
    generalize hacq : e.takes k = acq at s
    generalize hr : t₁.find k = r at s
    cases s with
    | stay =>
      obtain ⟨xs, e', ys, rfl, hxs, he', hh⟩ := ih hr hx
      refine ⟨e :: xs, e', ys, rfl, fun e'' he'' => ?_, he', hh⟩
      rcases List.mem_cons.mp he'' with rfl | he''
      · exact hacq
      · exact hxs e'' he''
    | insert L hv =>
      obtain ⟨x', hx', hh, -⟩ := trace_keeps hes hr
      rw [hx] at hx'
      cases hx'
      exact ⟨[], e, es, rfl, fun _ h => (List.not_mem_nil _ h).elim, hacq, hv.trans (congrArg some hh.symm)⟩

/-- A row holds the lease `L` of hash `H`: completed, or in progress until `L` or later. -/
def Held (H : String) (L : Nat) (r : Option Record) : Prop :=
  ∃ x, r = some x ∧ x.requestHash = H ∧ (x.status = "completed" ∨ (x.status = "in_progress" ∧ L ≤ x.lockedUntil))

/-- **A row keeps the hash of a stored lease it holds, and the lease only moves later**, unless it is completed: a
take-over comes after the lease, and completing ends it. -/
theorem trace_held (h : Trace t es t') {H : String} {L : Nat} (hh : Held H (timestamptz L) (t.find k)) :
    Held H (timestamptz L) (t'.find k) := by
  induction h with
  | nil => exact hh
  | @cons t₀ t₁ t₂ e es he _ ih =>
    refine ih ?_
    obtain ⟨x, hx, hxh, hxs⟩ := hh
    have s := event_rowStep he k
    rw [hx] at s
    generalize e.takes k = acq at s
    generalize t₁.find k = r at s ⊢
    cases s with
    | stay => exact ⟨x, rfl, hxh, hxs⟩
    | reacquire L' _ hc hl =>
      obtain ⟨hip, hL⟩ := hxs.resolve_left hc
      exact ⟨_, rfl, hxh, .inr ⟨rfl, le_timestamptz (hL.trans (hl hip))⟩⟩
    | complete => exact ⟨_, rfl, hxh, .inl rfl⟩

end Trace

/-! ## Leases -/

section Lease

variable {f : AcquireFaults} {now : Nat} {t t' : Table} {q : Request} {d : Decision}

/-- After `Acquired`, the row holds the lease the call took, with a hash that is the call's as `char(64)`. -/
theorem held_of_acquire (hr : acquire f now t q = (.ok d, t')) (hd : d.type = .acquired) :
    ∃ H, (NoTrailingBlank H → H = q.trimmedHash) ∧ bpcharEq H q.trimmedHash = true ∧
      Held H (timestamptz (q.lockUntil now)) (t'.find q.recordKey) := by
  rcases (acquire_acquired hr hd).2 with ⟨-, hv, hv', hf⟩ | ⟨x, -, h1, -, -, hf⟩
  · exact ⟨hv, fun hn => bpchar_eq_self (noTrailingBlank_trimSpace _) hn hv',
      bpcharEq_bpchar (noTrailingBlank_trimSpace _) hv', _, hf, rfl, .inr ⟨rfl, le_rfl⟩⟩
  · exact ⟨_, fun _ => rfl, by simp [bpcharEq], _, hf, h1, .inr ⟨rfl, le_rfl⟩⟩

/-- An `Acquired` on a row that holds a lease comes at or after its end, from the lease's hash. -/
theorem acquire_of_held {H : String} {L : Nat} (hh : Held H L (t.find q.recordKey))
    (hr : acquire f now t q = (.ok d, t')) (hd : d.type = .acquired) : L ≤ now ∧ H = q.trimmedHash := by
  obtain ⟨y, hy, hyh, hys⟩ := hh
  rcases (acquire_acquired hr hd).2 with ⟨hn, -⟩ | ⟨x, hx, h1, h2, h3, -⟩
  · rw [hn] at hy; cases hy
  · rw [hx] at hy
    cases hy
    obtain ⟨hs, hl⟩ := hys.resolve_left h2
    exact ⟨hl.trans (Nat.le_of_not_lt fun hlt => h3 ⟨hs, hlt⟩), hyh.symm.trans h1⟩

/-- A `Complete` that succeeded leaves the row of its key completed. -/
theorem event_completes {e : Event} {k : RecordKey} (h : e.call.run e.time t = (e.outcome, t'))
    (hc : e.completes k = true) : ∃ x, t'.find k = some x ∧ x.status = "completed" := by
  obtain ⟨now, call, o⟩ := e
  cases call with
  | acquire => cases o <;> cases hc
  | complete f q resp =>
    obtain ⟨r, hr, rfl⟩ := Call.run_complete h
    cases r with
    | error => cases hc
    | ok u =>
      obtain ⟨x, -, -, hx⟩ := complete_ok hr
      have hk : q.recordKey = k := by simpa [Event.completes] using hc
      exact ⟨_, hk ▸ hx, rfl⟩

end Lease

section Histories

variable {T₀ T : Table} {k : RecordKey}

/-- After a `Complete` of a key succeeded, no `Acquire` of the key returns `Acquired`. -/
theorem trace_completes_no_acquires {pre post : List Event} {e : Event} (h : Trace T₀ (pre ++ e :: post) T)
    (he : e.completes k = true) : ∀ e' ∈ post, e'.acquires k = false := by
  obtain ⟨_, -, h₂⟩ := Trace.append.mp h
  cases h₂ with
  | cons he' hpost =>
    obtain ⟨x, hx, hc⟩ := event_completes he' he
    exact trace_no_acquires hpost hx hc

/-- The lease part of two consecutive `Acquired` of one key. -/
theorem trace_lease {pre mid : List Event} {t₁ t₂ : Nat} {f₁ f₂ : AcquireFaults} {q₁ q₂ : Request}
    {d₁ d₂ : Decision}
    (h : Trace T₀ (pre ++ ⟨t₁, .acquire f₁ q₁, .acquire (.ok d₁)⟩ :: mid ++
      [⟨t₂, .acquire f₂ q₂, .acquire (.ok d₂)⟩]) T)
    (hd₁ : d₁.type = .acquired) (hd₂ : d₂.type = .acquired) (hk : q₂.recordKey = q₁.recordKey) :
    timestamptz (q₁.lockUntil t₁) ≤ t₂ ∧ q₂.trimmedHash = q₁.trimmedHash := by
  obtain ⟨_, h₁, h₂⟩ := Trace.append.mp h
  obtain ⟨_, -, h₁⟩ := Trace.append.mp h₁
  cases h₁ with
  | cons he₁ hmid' =>
  cases h₂ with
  | cons he₂ _ =>
  obtain ⟨r₁, hr₁, ho₁⟩ := Call.run_acquire he₁
  obtain ⟨r₂, hr₂, ho₂⟩ := Call.run_acquire he₂
  cases ho₁
  cases ho₂
  obtain ⟨H, hH, -, hh⟩ := held_of_acquire hr₁ hd₁
  have hh₂ := trace_held hmid' hh
  rw [← hk] at hh₂
  obtain ⟨hle, hH₂⟩ := acquire_of_held hh₂ hr₂ hd₂
  exact ⟨hle, hH₂.symm.trans (hH (hH₂ ▸ noTrailingBlank_trimSpace _))⟩

/-- The row an `Acquired` wrote stays until any later `Complete` of its key and hash, which then updates it. -/
theorem trace_complete_after_acquire {xs ys : List Event} {now now' : Nat} {f : AcquireFaults} {q q' : Request}
    {d : Decision} {resp : StoredResponse} (h : Trace T₀ (xs ++ ⟨now, .acquire f q, .acquire (.ok d)⟩ :: ys) T)
    (hd : d.type = .acquired) (hk : q'.recordKey = q.recordKey) (hh : q'.trimmedHash = q.trimmedHash) :
    (complete {} now' T q' resp).1 ≠ .error .notFound ∧
    ((int4 resp.statusCode).isSome → (varchar 255 (trimSpace resp.contentType)).isSome →
      ∃ T', complete {} now' T q' resp = (.ok (), T') ∧
        updateQuery T q'.recordKey.1 q'.recordKey.2 q'.trimmedHash resp.statusCode resp.body
          (trimSpace resp.contentType) now' = some (1, T')) := by
  obtain ⟨_, -, h₂⟩ := Trace.append.mp h
  cases h₂ with
  | cons he hys =>
  obtain ⟨r, hr, ho⟩ := Call.run_acquire he
  cases ho
  obtain ⟨hs, hk', hh', -⟩ := acquire_ok hr
  obtain ⟨H, -, hb, x, hx, hxh, -⟩ := held_of_acquire hr hd
  obtain ⟨x', hx', hx'h, -⟩ := trace_keeps hys hx
  rw [← hk] at hx' hs hk'
  rw [← hh] at hb hh'
  exact complete_of_find hs hk' hh' hx' (by rw [hx'h, hxh]; exact hb)

end Histories

/-! ## The store over whole runs -/

/-- A request of principal `user-1` with key `key-1`, as the middleware sends it: its hash has the 64 characters of a
hex SHA-256, and `LockTTL` is unset. -/
def sampleRequest : Request := ⟨"withdraw:user-1", "key-1", ⟨List.replicate 64 'a'⟩, 0⟩

/-- The response stored by the worker that took a lease over. -/
def freshResponse : StoredResponse := ⟨200, [123, 125], "application/json"⟩

/-- The response stored by the worker whose lease had ended. -/
def staleResponse : StoredResponse := ⟨500, [], "application/json"⟩

/-- The replay `Acquire` reads out of a row completed with `r`. -/
def replayOf (r : StoredResponse) : Decision := ⟨.replay, r.statusCode, r.body, r.contentType⟩

/-- **A lease is taken over only once it has ended, by the same hash, and never after a completion.** Of two
consecutive `Acquired` of one key, at `t₁` and `t₂`, the second comes at or after the end of the first lease as
`locked_until` stores it (`t₁ + d` cut to whole microseconds); the two trimmed hashes are equal; and no `Complete` of
the key succeeded before the second. Once a `Complete` of a key has succeeded, no `Acquire` of it returns
`Acquired`. -/
theorem lease_reacquire_spec :
    (∀ {T₀ T : Table} {pre mid : List Event} {t₁ t₂ : Nat} {f₁ f₂ : AcquireFaults} {q₁ q₂ : Request}
        {d₁ d₂ : Decision},
      Trace T₀ (pre ++ ⟨t₁, .acquire f₁ q₁, .acquire (.ok d₁)⟩ :: mid ++
        [⟨t₂, .acquire f₂ q₂, .acquire (.ok d₂)⟩]) T →
      d₁.type = .acquired → d₂.type = .acquired → q₂.recordKey = q₁.recordKey →
      (∀ e ∈ mid, e.acquires q₁.recordKey = false) →
      timestamptz (t₁ + effectiveLockTTL q₁.lockTTL) ≤ t₂ ∧ q₂.trimmedHash = q₁.trimmedHash ∧
      ∀ e ∈ pre ++ ⟨t₁, .acquire f₁ q₁, .acquire (.ok d₁)⟩ :: mid, e.completes q₁.recordKey = false) ∧
    (∀ {T₀ T : Table} {pre post : List Event} {e : Event} {k : RecordKey},
      Trace T₀ (pre ++ e :: post) T → e.completes k = true → ∀ e' ∈ post, e'.acquires k = false) := by
  refine ⟨fun h hd₁ hd₂ hk _ => ⟨(trace_lease h hd₁ hd₂ hk).1, (trace_lease h hd₁ hd₂ hk).2,
    fun e he => ?_⟩, trace_completes_no_acquires⟩
  cases hc : e.completes _
  · rfl
  · obtain ⟨xs, ys, hxy⟩ := List.append_of_mem he
    rw [hxy, List.append_assoc, List.cons_append] at h
    have := trace_completes_no_acquires h hc _ (List.mem_append_right _ (List.mem_singleton_self _))
    simp [Event.acquires, hk, hd₂] at this

/-- Two `Acquired` of the sample key, `1` ns before the first lease's `t₁ + d`: `locked_until` keeps whole
microseconds, so the stored end of the lease is the microsecond before. -/
theorem lease_reacquired_before_ttl : ∃ T, Trace Table.empty
    [⟨1, .acquire {} sampleRequest, .acquire (.ok { type := .acquired })⟩,
     ⟨30 * 10 ^ 9, .acquire {} sampleRequest, .acquire (.ok { type := .acquired })⟩] T ∧
    30 * 10 ^ 9 < 1 + effectiveLockTTL sampleRequest.lockTTL :=
  ⟨_, .cons rfl (.cons rfl (.nil _)), by decide⟩

/-- The sample key: acquired at `0`, taken over at `30 s`; then completed, and replayed. -/
theorem sample_runs :
    (∃ T, Trace Table.empty ([] ++ ⟨0, .acquire {} sampleRequest, .acquire (.ok { type := .acquired })⟩ :: [] ++
      [⟨30 * 10 ^ 9, .acquire {} sampleRequest, .acquire (.ok { type := .acquired })⟩]) T) ∧
    ∃ T, Trace Table.empty ([⟨0, .acquire {} sampleRequest, .acquire (.ok { type := .acquired })⟩] ++
      ⟨1, .complete {} sampleRequest freshResponse, .complete (.ok ())⟩ ::
      [⟨2, .acquire {} sampleRequest, .acquire (.ok (replayOf freshResponse))⟩]) T :=
  ⟨⟨_, .cons rfl (.cons rfl (.nil _))⟩, ⟨_, .cons rfl (.cons rfl (.cons rfl (.nil _)))⟩⟩

/-- The sample key's lease ends by `30 s`, and its replay is no `Acquired`. -/
theorem sample_lease_reacquire :
    timestamptz (0 + effectiveLockTTL sampleRequest.lockTTL) ≤ 30 * 10 ^ 9 ∧
    Event.acquires ⟨2, .acquire {} sampleRequest, .acquire (.ok (replayOf freshResponse))⟩
      sampleRequest.recordKey = false :=
  let ⟨⟨_, h₁⟩, ⟨_, h₂⟩⟩ := sample_runs
  ⟨(lease_reacquire_spec.1 h₁ rfl rfl rfl fun _ h => (List.not_mem_nil _ h).elim).1,
    lease_reacquire_spec.2 (k := sampleRequest.recordKey) h₂ rfl _ (List.mem_singleton_self _)⟩

/-- A worker whose lease had ended still completes the record: after the worker that took the lease over has
completed it, the late `Complete` overwrites the stored response, and the next replay carries the stale one. -/
theorem stale_complete_overwrites_response : ∃ T, Trace Table.empty
    [⟨0, .acquire {} sampleRequest, .acquire (.ok { type := .acquired })⟩,
     ⟨30 * 10 ^ 9, .acquire {} sampleRequest, .acquire (.ok { type := .acquired })⟩,
     ⟨30 * 10 ^ 9 + 1, .complete {} sampleRequest freshResponse, .complete (.ok ())⟩,
     ⟨30 * 10 ^ 9 + 2, .complete {} sampleRequest staleResponse, .complete (.ok ())⟩,
     ⟨30 * 10 ^ 9 + 3, .acquire {} sampleRequest, .acquire (.ok (replayOf staleResponse))⟩] T ∧
    staleResponse ≠ freshResponse :=
  ⟨_, .cons rfl (.cons rfl (.cons rfl (.cons rfl (.cons rfl (.nil _))))), by decide⟩

/-- **What the store keeps, along every run from the empty table.** Each key has at most one row. Each row is in
progress or completed, and it was inserted by the first `Acquire` of its key that took it (that returned `Acquired`,
or whose `COMMIT` the database applied while the reply was lost), with the `char(64)` value of that call's trimmed
hash. No call deletes a row, changes its hash, or takes a completed row out
of completed. A `Complete` without faults of the key and hash of an earlier `Acquired` never reports the key missing;
when its status code fits `integer` and its trimmed content type fits `varchar(255)`, it succeeds and updates exactly
one row. -/
theorem store_invariant {es : List Event} (h : Trace Table.empty es T) :
    (∀ k, (T.rows.filter (·.1 = k)).length ≤ 1) ∧
    (∀ k x, T.find k = some x → (x.status = "in_progress" ∨ x.status = "completed") ∧
      ∃ xs e ys, es = xs ++ e :: ys ∧ (∀ e' ∈ xs, e'.takes k = false) ∧ e.takes k = true ∧
        bpchar 64 e.call.trimmedHash = some x.requestHash) ∧
    (∀ (t t' : Table) (e : Event), e.call.run e.time t = (e.outcome, t') → ∀ k x, t.find k = some x →
      ∃ x', t'.find k = some x' ∧ x'.requestHash = x.requestHash ∧
        (x.status = "completed" → x'.status = "completed")) ∧
    (∀ xs ys now f (q q' : Request) (d : Decision), es = xs ++ ⟨now, .acquire f q, .acquire (.ok d)⟩ :: ys →
      d.type = .acquired → q'.recordKey = q.recordKey → q'.trimmedHash = q.trimmedHash →
      ∀ now' resp, (complete {} now' T q' resp).1 ≠ .error .notFound ∧
      ((int4 resp.statusCode).isSome → (varchar 255 (trimSpace resp.contentType)).isSome →
        ∃ T', complete {} now' T q' resp = (.ok (), T') ∧
          updateQuery T q'.recordKey.1 q'.recordKey.2 q'.trimmedHash resp.statusCode resp.body
            (trimSpace resp.contentType) now' = some (1, T'))) := by
  refine ⟨fun k => ?_, fun k x hx => ⟨trace_status h (fun _ _ hx => nomatch hx) k x hx,
    trace_inserted h rfl hx⟩, fun t t' e he k x hx => (event_rowStep he k).keeps hx,
    fun xs ys now f q q' d hes hd hk hh now' resp => trace_complete_after_acquire (hes ▸ h) hd hk hh⟩
  have hc := Table.countP_of_key (t := T) (k := k) (fun p => decide (p.1 = k)) fun p hp => by simpa using hp
  rw [List.countP_eq_length_filter] at hc
  rw [hc]
  split <;> omega

/-- `Complete` after `Acquired`, with a status code beyond `integer`: the `UPDATE` fails and updates no row. -/
theorem complete_status_out_of_range : ∃ T, Trace Table.empty
    [⟨0, .acquire {} sampleRequest, .acquire (.ok { type := .acquired })⟩,
     ⟨1, .complete {} sampleRequest ⟨2 ^ 31, [], "application/json"⟩, .complete (.error .persistFailed)⟩] T :=
  ⟨_, .cons rfl (.cons rfl (.nil _))⟩

/-- After the sample key's `Acquired`, the key has one row, and a `Complete` of it does not report it missing. -/
theorem sample_store_invariant : ∃ T, Trace Table.empty
    [⟨0, .acquire {} sampleRequest, .acquire (.ok { type := .acquired })⟩] T ∧
    (T.rows.filter (·.1 = sampleRequest.recordKey)).length ≤ 1 ∧
    (complete {} 1 T sampleRequest freshResponse).1 ≠ .error .notFound :=
  have ⟨T, h⟩ : ∃ T, Trace Table.empty [⟨0, .acquire {} sampleRequest, .acquire (.ok { type := .acquired })⟩] T :=
    ⟨_, .cons rfl (.nil _)⟩
  ⟨T, h, (store_invariant h).1 _,
    ((store_invariant h).2.2.2 [] [] 0 {} sampleRequest sampleRequest _ rfl rfl rfl rfl 1 freshResponse).1⟩

end WithdrawApi
