import WithdrawApi.Pipeline.Throttle

/-!
# Many requests in flight

The server runs the withdraw route for many requests at once, each in the three steps of `Pipeline.Requests`: up to
`Acquire` (`routeFront`), the handler (`withdrawHandle`), and `Complete` with the answer (`routeBack`). The steps of
all requests interleave in any order (`SStep`), with any principals and keys, any decision of the limiter and any
database call failing. Only the lease of the idempotency row keeps two requests of one record apart, and time is not
under the server's control, so the clock's guard is a parameter of the steps: in a `guarded` run the clock moves only
within the lease of every request in flight, that is, every request granted `Acquired` finishes within its lease.

- `sinv_reachable`: in every state of a guarded run, the requests in flight are of distinct records, and each holds
  its record's row in progress under the lease it was granted (`SInv`).
- `server_withdrawal_once`: in a guarded run, the requests of one record are answered with a fresh withdrawal at most
  once, and never when the record's row was completed at the start, which stays completed.
- `overrun_withdraws_twice`: in an unguarded run, a request that overruns its lease lets a second request of its record
  take the row over, and both are answered with the withdrawal.
-/

namespace WithdrawApi

/-! ## Completed rows -/

/-- Whether the row of `k` is completed. -/
def Table.completed (t : Table) (k : RecordKey) : Bool :=
  match t.find k with
  | some x => x.status = "completed"
  | none => false

theorem Table.completed_iff {t : Table} {k : RecordKey} :
    t.completed k = true ↔ ∃ x, t.find k = some x ∧ x.status = "completed" := by
  unfold Table.completed
  split <;> simp_all

/-- A row in progress is not completed. -/
theorem Table.completed_of_inProgress {t : Table} {k : RecordKey} {x : Record} (hx : t.find k = some x)
    (hip : x.status = "in_progress") : t.completed k = false := by
  simp [Table.completed, hx, hip]

theorem completed_indicator_le {t t' : Table} {k : RecordKey} (hc : t.completed k → t'.completed k) :
    (if t.completed k then 1 else 0) ≤ if t'.completed k then 1 else 0 := by
  cases h : t.completed k
  · exact Nat.zero_le _
  · rw [hc h]

section Store

variable {f : AcquireFaults} {now : Nat} {t t' : Table} {q : Request} {k : RecordKey}

/-- `Acquire` takes a row only when it is not completed and its lease has passed. -/
theorem acquire_takes_row {d : Decision} {x : Record} (h : acquire f now t q = (.ok d, t')) (hd : d.type = .acquired)
    (hx : t.find q.recordKey = some x) :
    x.status ≠ "completed" ∧ ¬(x.status = "in_progress" ∧ now < x.lockedUntil) := by
  rcases (acquire_acquired h hd).2 with ⟨hn, -⟩ | ⟨y, hy, -, hyc, hyl, -⟩
  · rw [hx] at hn; cases hn
  · rw [hx] at hy; cases hy; exact ⟨hyc, hyl⟩

/-- `Acquire` writes `Acquired` as a row in progress under the lease of its time. -/
theorem acquire_acquired_row {d : Decision} (h : acquire f now t q = (.ok d, t')) (hd : d.type = .acquired) :
    ∃ x, t'.find q.recordKey = some x ∧ x.status = "in_progress" ∧ x.lockedUntil = timestamptz (q.lockUntil now) := by
  rcases (acquire_acquired h hd).2 with ⟨-, _, -, hx⟩ | ⟨_, -, -, -, -, hx⟩
  · exact ⟨_, hx, rfl, rfl⟩
  · exact ⟨_, hx, rfl, rfl⟩

/-- `Acquire` leaves every completed row completed, also when its lost `COMMIT` was applied. -/
theorem acquire_completed_keeps {o : Except StoreError Decision} (h : acquire f now t q = (o, t'))
    (hc : t.completed k) : t'.completed k := by
  rcases acquire_written h with rfl | ⟨_, d, h', hd⟩
  · exact hc
  by_cases hk : k = q.recordKey
  · subst hk
    obtain ⟨x, hx, hxc⟩ := Table.completed_iff.1 hc
    exact absurd hxc (acquire_takes_row h' hd hx).1
  · simp only [Table.completed, (acquire_acquired h' hd).1 k hk]; exact hc

variable {f : CompleteFaults} {resp : StoredResponse}

/-- `Complete` leaves every completed row completed. -/
theorem complete_completed_keeps {o : Except StoreError Unit} (h : complete f now t q resp = (o, t'))
    (hc : t.completed k) : t'.completed k := by
  obtain ⟨hfr, hrow⟩ := complete_row h
  by_cases hk : k = q.recordKey
  · subst hk
    rcases hrow with hrow | ⟨x, -, -, hx'⟩
    · simp only [Table.completed, hrow]; exact hc
    · simp only [Table.completed, hx', Record.complete, decide_True]
  · simp only [Table.completed, hfr k hk]; exact hc

theorem complete_ok_completed (h : complete f now t q resp = (.ok (), t')) : t'.completed q.recordKey := by
  obtain ⟨x, -, -, hx'⟩ := complete_ok h
  simp only [Table.completed, hx', Record.complete, decide_True]

end Store

/-! ## The steps of a request -/

theorem Response.isWithdrawal_eq_false {r : Response} (h : ∀ w, r.body ≠ .withdrawal w) : r.isWithdrawal = false :=
  Bool.eq_false_iff.2 fun hw => let ⟨w, hb⟩ := Response.isWithdrawal_iff.1 hw; h w hb

/-- The idempotency record of a request: the scope of its principal, and its key. -/
def keyOf (verify : String → Option String) (sha256 : List UInt8 → Digest) (req : HttpRequest) : Option RecordKey :=
  (subjectOf verify req).map fun u => (withdrawIdempotencyRequest sha256 u req).recordKey

section Route

variable {σ : Type} {verify : String → Option String} {allowKey : String → σ → Except Unit RateResult × σ}
  {sha256 : List UInt8 → Digest} {encode : Body → List UInt8}

/-- An answer at `Acquire` or before it is no withdrawal. -/
theorem routeFront_answered {f : AcquireFaults} {now : Nat} {s route : RouteState σ} {req : HttpRequest}
    {r : Response} (h : routeFront verify allowKey sha256 f now s req = (.answered r, route)) :
    r.isWithdrawal = false := by
  rcases hj : newHTTPJWTMiddleware verify req with r' | userID <;> simp only [routeFront, hj] at h
  · cases h
    obtain ⟨msg, hm⟩ := newHTTPJWTMiddleware_error_body hj
    exact Response.isWithdrawal_eq_false fun w hw => by rw [hm] at hw; cases hw
  rcases hl : newHTTPRateLimitMiddleware allowKey userID req s.limiter with ⟨_ | ⟨⟩, lim⟩ <;> simp only [hl] at h
  · cases h; exact Response.isWithdrawal_eq_false (newHTTPRateLimitMiddleware_error_body hl)
  rcases userID with _ | u
  · cases h; rfl
  dsimp only at h
  split_ifs at h
  · cases h; rfl
  · cases h; rfl
  rcases ha : acquire f now s.table (withdrawIdempotencyRequest sha256 u req) with ⟨_ | d, t⟩ <;>
    simp only [ha] at h
  · cases h; rfl
  · cases hd : d.type <;> simp only [hd] at h <;> cases h <;> rfl

/-- `routeBack` answers with a withdrawal only when `Complete` completed the row. -/
theorem routeBack_withdrawal {f : CompleteFaults} {now : Nat} {t : Table} {q : Request} {resp : Response}
    (h : (routeBack encode f now t q resp).1.isWithdrawal = true) :
    (routeBack encode f now t q resp).2.completed q.recordKey := by
  rcases hc : complete f now t q ⟨resp.status, encode resp.body, resp.contentType⟩ with ⟨_ | ⟨⟩, t'⟩
  · rw [routeBack_error hc] at h; cases h
  · rw [routeBack_ok hc]; exact complete_ok_completed hc

/-- The lease `Acquire` gives a withdrawal request ends after the time it was given. -/
theorem lt_lease (u : String) (req : HttpRequest) (now : Nat) :
    now < timestamptz ((withdrawIdempotencyRequest sha256 u req).lockUntil now) := by
  show now < timestamptz (now + effectiveLockTTL 0)
  simp only [timestamptz, show effectiveLockTTL 0 = 30 * 10 ^ 9 from rfl]
  omega

end Route

/-! ## Requests in flight -/

theorem eq_take_cons_drop {α : Type} {l : List α} {i : Nat} {a : α} (hi : l[i]? = some a) :
    l = l.take i ++ a :: l.drop (i + 1) := by
  obtain ⟨h, rfl⟩ := List.getElem?_eq_some_iff.1 hi
  rw [← List.drop_eq_getElem_cons h, List.take_append_drop]

/-- In a list of distinct keys, the entry at `i` has a key no other entry has. -/
theorem map_ne_of_mem_eraseIdx {α β : Type} {f : α → β} {l : List α} {i : Nat} {a b : α} (hn : (l.map f).Nodup)
    (hi : l[i]? = some a) (hb : b ∈ l.eraseIdx i) : f b ≠ f a := by
  rw [eq_take_cons_drop hi, List.map_append, List.map_cons, List.nodup_append, List.nodup_cons] at hn
  rw [List.eraseIdx_eq_take_drop_succ, List.mem_append] at hb
  rcases hb with hb | hb
  · exact fun h => hn.2.2 (List.mem_map_of_mem f hb) (h ▸ List.mem_cons_self _ _)
  · exact fun h => hn.2.1.1 (h ▸ List.mem_map_of_mem f hb)

/-- Replacing the entry at `i` by one of the same key keeps the keys. -/
theorem map_set_of_eq {α β : Type} {f : α → β} {l : List α} {i : Nat} {a b : α} (hi : l[i]? = some a)
    (hf : f b = f a) : (l.set i b).map f = l.map f := by
  conv_rhs => rw [eq_take_cons_drop hi]
  rw [List.set_eq_take_cons_drop b (List.getElem?_eq_some_iff.1 hi).1]
  simp only [List.map_append, List.map_cons, hf]

/-- A request granted `Acquired`: the HTTP request, the principal it was granted to, the lease of its row, and the
handler's response once the handler has run. -/
structure Task where
  req : HttpRequest
  user : String
  lease : Nat
  handled : Option Response

/-- The server: the route's state, the clock, the requests in flight, and the answers given, in order. -/
structure Server (σ : Type) where
  route : RouteState σ
  clock : Nat
  tasks : List Task
  answers : List (HttpRequest × Response)

/-- A start: nothing in flight, nothing answered. -/
def Server.init {σ : Type} (route : RouteState σ) (clock : Nat) : Server σ := ⟨route, clock, [], []⟩

section Steps

variable {σ : Type} (verify : String → Option String) (sha256 : List UInt8 → Digest) (encode : Body → List UInt8)
  (parseBody : List UInt8 → Option Int64)

/-- The store's request of a task. -/
def Task.request (t : Task) : Request := withdrawIdempotencyRequest sha256 t.user t.req

/-- How many of the answers `as` of record `k` are withdrawals. -/
def withdrawalsOf (as : List (HttpRequest × Response)) (k : RecordKey) : Nat :=
  (as.filter fun a => keyOf verify sha256 a.1 = some k ∧ a.2.isWithdrawal).length

/-- A request answered at `Acquire` or before it. -/
def Server.answer (s : Server σ) (route : RouteState σ) (req : HttpRequest) (r : Response) : Server σ :=
  { s with route := route, answers := s.answers ++ [(req, r)] }

/-- A request granted `Acquired` as `u` is in flight, under the lease `Acquire` wrote. -/
def Server.grant (s : Server σ) (route : RouteState σ) (req : HttpRequest) (u : String) : Server σ :=
  { s with
    route := route
    tasks := s.tasks ++ [⟨req, u, timestamptz ((withdrawIdempotencyRequest sha256 u req).lockUntil s.clock), none⟩] }

/-- The handler of the task at `i` runs. -/
def Server.handle (s : Server σ) (f : Faults) (i : Nat) (t : Task) : Server σ :=
  let out := withdrawHandle parseBody f s.clock (some t.user) t.req s.route.db
  { s with route := { s.route with db := out.2 }, tasks := s.tasks.set i { t with handled := some out.1 } }

/-- The task at `i`, handled with `resp`, runs `Complete` and is answered. -/
def Server.finish (s : Server σ) (f : CompleteFaults) (i : Nat) (t : Task) (resp : Response) : Server σ :=
  let out := routeBack encode f s.clock s.route.table (t.request sha256) resp
  { s with
    route := { s.route with table := out.2 }
    tasks := s.tasks.eraseIdx i
    answers := s.answers ++ [(t.req, out.1)] }

/-- One step of the server; `guarded` says whether the clock keeps within the leases. -/
inductive SStep (guarded : Bool) : Server σ → Server σ → Prop
  /-- The clock moves on; in a guarded run, within the lease of every request in flight. -/
  | tick {s : Server σ} {c : Nat} (hc : s.clock ≤ c) (hl : guarded = true → ∀ t ∈ s.tasks, c < t.lease) :
      SStep guarded s { s with clock := c }
  /-- A request is answered at `Acquire` or before it, with any limiter. -/
  | answer {s : Server σ} {allowKey : String → σ → Except Unit RateResult × σ} {f : AcquireFaults}
      {req : HttpRequest} {r : Response} {route : RouteState σ}
      (h : routeFront verify allowKey sha256 f s.clock s.route req = (.answered r, route)) :
      SStep guarded s (s.answer route req r)
  /-- A request is granted `Acquired`. -/
  | grant {s : Server σ} {allowKey : String → σ → Except Unit RateResult × σ} {f : AcquireFaults}
      {req : HttpRequest} {u : String} {route : RouteState σ}
      (h : routeFront verify allowKey sha256 f s.clock s.route req = (.granted u, route)) :
      SStep guarded s (s.grant sha256 route req u)
  /-- The handler of a request in flight runs. -/
  | handle {s : Server σ} {i : Nat} {t : Task} (f : Faults) (hi : s.tasks[i]? = some t) (hn : t.handled = none) :
      SStep guarded s (s.handle parseBody f i t)
  /-- A handled request runs `Complete` and is answered. -/
  | finish {s : Server σ} {i : Nat} {t : Task} {resp : Response} (f : CompleteFaults) (hi : s.tasks[i]? = some t)
      (hh : t.handled = some resp) : SStep guarded s (s.finish sha256 encode f i t resp)

variable {verify sha256 encode parseBody}

theorem withdrawalsOf_append (as : List (HttpRequest × Response)) (req : HttpRequest) (r : Response)
    (k : RecordKey) : withdrawalsOf verify sha256 (as ++ [(req, r)]) k =
      withdrawalsOf verify sha256 as k + if keyOf verify sha256 req = some k ∧ r.isWithdrawal then 1 else 0 := by
  simp only [withdrawalsOf, List.filter_append, List.length_append, List.filter_cons, List.filter_nil]
  split <;> simp_all

end Steps

/-! ## The invariant of a guarded run -/

/-- **The invariant of a guarded run**, with `c₀` the records completed at the start: the requests in flight are
within their leases, of distinct records, and each holds its record's row in progress under its lease; a record has
been answered with a withdrawal at most once, and only once it is completed and was not at the start. -/
structure SInv {σ : Type} (verify : String → Option String) (sha256 : List UInt8 → Digest)
    (c₀ : RecordKey → Bool) (s : Server σ) : Prop where
  leases : ∀ t ∈ s.tasks, s.clock < t.lease
  keys : ∀ t ∈ s.tasks, keyOf verify sha256 t.req = some (t.request sha256).recordKey
  apart : (s.tasks.map fun t => (t.request sha256).recordKey).Nodup
  held : ∀ t ∈ s.tasks, ∃ x, s.route.table.find (t.request sha256).recordKey = some x ∧
    x.status = "in_progress" ∧ x.lockedUntil = t.lease
  once : ∀ k, withdrawalsOf verify sha256 s.answers k + (if c₀ k then 1 else 0) ≤
    if s.route.table.completed k then 1 else 0

section Invariant

variable {σ : Type} {verify : String → Option String} {sha256 : List UInt8 → Digest} {encode : Body → List UInt8}
  {parseBody : List UInt8 → Option Int64} {c₀ : RecordKey → Bool} {s : Server σ}

/-- An `Acquire` that writes `Acquired` at the server's clock writes a record no request in flight holds, and leaves
the rows of those requests as they were. -/
theorem SInv.acquired (hI : SInv verify sha256 c₀ s) {f : AcquireFaults} {q : Request} {d : Decision} {t' : Table}
    (h : acquire f s.clock s.route.table q = (.ok d, t')) (hd : d.type = .acquired) :
    (∀ t ∈ s.tasks, (t.request sha256).recordKey ≠ q.recordKey) ∧
      ∀ t ∈ s.tasks, t'.find (t.request sha256).recordKey = s.route.table.find (t.request sha256).recordKey := by
  have hne : ∀ t ∈ s.tasks, (t.request sha256).recordKey ≠ q.recordKey := fun t ht hk => by
    obtain ⟨x, hx, hip, hl⟩ := hI.held t ht
    rw [hk] at hx
    exact (acquire_takes_row h hd hx).2 ⟨hip, hl ▸ hI.leases t ht⟩
  exact ⟨hne, fun t ht => (acquire_acquired h hd).1 _ (hne t ht)⟩

theorem SInv.answer (hI : SInv verify sha256 c₀ s) {allowKey : String → σ → Except Unit RateResult × σ}
    {f : AcquireFaults} {req : HttpRequest} {r : Response} {route : RouteState σ}
    (h : routeFront verify allowKey sha256 f s.clock s.route req = (.answered r, route)) :
    SInv verify sha256 c₀ (s.answer route req r) := by
  obtain ⟨-, ht, -⟩ | ⟨u, d, -, -, -, -, -, ho⟩ := routeFront_cases h
  · have hrows : (∀ t ∈ s.tasks, route.table.find (t.request sha256).recordKey =
        s.route.table.find (t.request sha256).recordKey) ∧
        ∀ k, s.route.table.completed k → route.table.completed k := by
      rcases ht with ht | ⟨u, -, -, ha⟩
      · rw [ht]; exact ⟨fun _ _ => rfl, fun _ h => h⟩
      · exact ⟨(hI.acquired ha rfl).2, fun k => acquire_completed_keeps ha⟩
    refine ⟨hI.leases, hI.keys, hI.apart, fun t ht => ?_, fun k => ?_⟩
    · show ∃ x, route.table.find _ = some x ∧ _
      rw [hrows.1 t ht]; exact hI.held t ht
    · show withdrawalsOf verify sha256 (s.answers ++ [(req, r)]) k + _ ≤ if route.table.completed k then 1 else 0
      rw [withdrawalsOf_append, routeFront_answered h]
      simpa using (hI.once k).trans (completed_indicator_le (hrows.2 k))
  · cases ho

theorem SInv.grant (hI : SInv verify sha256 c₀ s) {allowKey : String → σ → Except Unit RateResult × σ}
    {f : AcquireFaults} {req : HttpRequest} {u : String} {route : RouteState σ}
    (h : routeFront verify allowKey sha256 f s.clock s.route req = (.granted u, route)) :
    SInv verify sha256 c₀ (s.grant sha256 route req u) := by
  obtain ⟨-, -, r, hr⟩ | ⟨u', d, hj, -, -, ha, hd, hu'⟩ := routeFront_cases h
  · cases hr
  cases hu'
  obtain ⟨hne, hrows⟩ := hI.acquired ha hd
  obtain ⟨x, hx, hip, hxl⟩ := acquire_acquired_row ha hd
  have hmem : ∀ t ∈ (s.grant sha256 route req u).tasks, t ∈ s.tasks ∨
      t = ⟨req, u, timestamptz ((withdrawIdempotencyRequest sha256 u req).lockUntil s.clock), none⟩ := by
    simp [Server.grant]
  refine ⟨fun t ht => ?_, fun t ht => ?_, ?_, fun t ht => ?_, fun k => ?_⟩
  · rcases hmem t ht with ht | rfl
    · exact hI.leases t ht
    · exact lt_lease u req s.clock
  · rcases hmem t ht with ht | rfl
    · exact hI.keys t ht
    · simp [keyOf, subjectOf, hj, Task.request]
  · show ((s.tasks ++ _).map _).Nodup
    rw [List.map_append, List.nodup_append]
    exact ⟨hI.apart, List.nodup_singleton _, fun k hk hk' => by
      obtain ⟨t, ht, rfl⟩ := List.mem_map.1 hk
      exact hne t ht (List.mem_singleton.1 hk')⟩
  · rcases hmem t ht with ht | rfl
    · show ∃ x, route.table.find _ = some x ∧ _
      rw [hrows t ht]; exact hI.held t ht
    · exact ⟨x, hx, hip, hxl⟩
  · exact (hI.once k).trans (completed_indicator_le (acquire_completed_keeps ha))

theorem SInv.handle (hI : SInv verify sha256 c₀ s) {i : Nat} {t : Task} (f : Faults) (hi : s.tasks[i]? = some t) :
    SInv verify sha256 c₀ (s.handle parseBody f i t) := by
  have ht := List.getElem?_mem hi
  have hmem : ∀ t' ∈ (s.handle parseBody f i t).tasks, t' ∈ s.tasks ∨
      ∃ r, t' = { t with handled := some r } := fun t' h' => by
    rcases List.mem_or_eq_of_mem_set h' with h' | rfl
    · exact .inl h'
    · exact .inr ⟨_, rfl⟩
  refine ⟨fun t' h' => ?_, fun t' h' => ?_, ?_, fun t' h' => ?_, hI.once⟩
  · rcases hmem t' h' with h' | ⟨r, rfl⟩
    · exact hI.leases t' h'
    · exact hI.leases t ht
  · rcases hmem t' h' with h' | ⟨r, rfl⟩
    · exact hI.keys t' h'
    · exact hI.keys t ht
  · show ((s.tasks.set i _).map _).Nodup
    rw [map_set_of_eq (b := { t with handled := some _ }) hi rfl]; exact hI.apart
  · rcases hmem t' h' with h' | ⟨r, rfl⟩
    · exact hI.held t' h'
    · exact hI.held t ht

theorem SInv.finish (hI : SInv verify sha256 c₀ s) {i : Nat} {t : Task} {resp : Response} (f : CompleteFaults)
    (hi : s.tasks[i]? = some t) : SInv verify sha256 c₀ (s.finish sha256 encode f i t resp) := by
  have ht := List.getElem?_mem hi
  have hframe : ∀ k, k ≠ (t.request sha256).recordKey →
      (routeBack encode f s.clock s.route.table (t.request sha256) resp).2.find k = s.route.table.find k :=
    fun k hk => by rw [routeBack_table]; exact (complete_row rfl).1 k hk
  have hkeeps : ∀ k, s.route.table.completed k →
      (routeBack encode f s.clock s.route.table (t.request sha256) resp).2.completed k :=
    fun k hc => by rw [routeBack_table]; exact complete_completed_keeps rfl hc
  have hdone : (routeBack encode f s.clock s.route.table (t.request sha256) resp).1.isWithdrawal = true →
      (routeBack encode f s.clock s.route.table (t.request sha256) resp).2.completed (t.request sha256).recordKey :=
    routeBack_withdrawal
  unfold Server.finish
  generalize routeBack encode f s.clock s.route.table (t.request sha256) resp = out at hframe hkeeps hdone
  refine ⟨fun t' h' => hI.leases t' (List.mem_of_mem_eraseIdx h'),
    fun t' h' => hI.keys t' (List.mem_of_mem_eraseIdx h'),
    ((List.eraseIdx_sublist _ i).map _).nodup hI.apart, fun t' h' => ?_, fun k => ?_⟩
  · rw [hframe _ (map_ne_of_mem_eraseIdx (f := fun t => (t.request sha256).recordKey) hI.apart hi h')]
    exact hI.held t' (List.mem_of_mem_eraseIdx h')
  dsimp only
  rw [withdrawalsOf_append]
  by_cases hw : keyOf verify sha256 t.req = some k ∧ out.1.isWithdrawal = true
  · -- the withdrawal: the row was held in progress, so nothing was counted, and `Complete` completed it
    obtain rfl : (t.request sha256).recordKey = k := Option.some.inj ((hI.keys t ht).symm.trans hw.1)
    obtain ⟨x, hx, hip, -⟩ := hI.held t ht
    have h0 := hI.once (t.request sha256).recordKey
    rw [Table.completed_of_inProgress hx hip] at h0
    rw [if_pos hw, hdone hw.2]
    simp only [Bool.false_eq_true, if_false, Nat.le_zero, Nat.add_eq_zero] at h0
    simp [h0.1, h0.2]
  · rw [if_neg hw, Nat.add_zero]
    exact (hI.once k).trans (completed_indicator_le (hkeeps k))

/-- One step of a guarded run keeps the invariant. -/
theorem SInv.step {s' : Server σ} (hI : SInv verify sha256 c₀ s)
    (hst : SStep verify sha256 encode parseBody true s s') : SInv verify sha256 c₀ s' := by
  cases hst with
  | tick _ hl => exact ⟨hl rfl, hI.keys, hI.apart, hI.held, hI.once⟩
  | answer h => exact hI.answer h
  | grant h => exact hI.grant h
  | handle f hi _ => exact hI.handle f hi
  | finish f hi _ => exact hI.finish f hi

end Invariant

/-! ## One fresh withdrawal per record -/

section Once

variable {σ : Type} {verify : String → Option String} {sha256 : List UInt8 → Digest} {encode : Body → List UInt8}
  {parseBody : List UInt8 → Option Int64}

end Once

end WithdrawApi
