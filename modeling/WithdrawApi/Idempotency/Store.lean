import WithdrawApi.Values

/-!
# The idempotency store

The `withdraw_idempotency` table (`Table`, which carries its unique index `uq_withdraw_idempotency_scope_key`) and
the two calls of `SQLXStore` on it, each run as a whole at time `now`:

- `acquire` is `SQLXStore.Acquire`: it trims the scope, the key and the hash, then inserts a new row
  (`insertQuery`), answers from the row it finds (conflict, replay, in progress), or takes over a row whose lease
  has passed (`reacquireQuery`);
- `complete` is `SQLXStore.Complete`: one `UPDATE` (`updateQuery`) that stores the response into the row of the
  scope, the key and the hash, whatever that row's status.

Faults (`AcquireFaults`, `CompleteFaults`) make a database call fail. A failed `Acquire` transaction is rolled
back, except that a `COMMIT` can be applied by the database while its reply is lost (`commitApplied`): the call then
returns the commit's error and leaves what it would have written with its commit delivered (`acquire_error`).
`Complete` runs outside a transaction: its `UPDATE` stays when only `RowsAffected` fails, and when its `Exec` failed
after the database applied it (`execApplied`). Values go through their columns' types: `varchar(128)` scope and key,
`char(64)` hash, `integer` status code, `varchar(255)` content type, and `timestamptz` times.

What one call does to the row of its key, and that it leaves the other rows alone: `acquire_ok`,
`acquire_acquired`, `acquire_error`, `acquire_replay`, `acquire_frame`, `complete_row` and `complete_ok`. `Acquire`
decides from the row of its key alone (`acquire_local`).
-/

namespace WithdrawApi

/-! ## The table -/

/-- The columns of a `withdraw_idempotency` row, besides its key, that the store reads or writes. A `NULL`
`response_body` reads back as an empty body. -/
structure Record where
  requestHash : String
  status : String
  responseStatus : Option Int
  responseBody : List UInt8
  responseContentType : Option String
  lockedUntil : Nat
deriving DecidableEq

/-- `(scope, idempotency_key)`. -/
abbrev RecordKey := String × String

/-- The rows of `withdraw_idempotency`, with the unique index on `(scope, idempotency_key)`. -/
structure Table where
  rows : List (RecordKey × Record)
  unique : (rows.map Prod.fst).Nodup

/-- The table without rows. -/
def Table.empty : Table := ⟨[], List.nodup_nil⟩

/-- `WHERE scope = $1 AND idempotency_key = $2`: the row of a key. -/
def Table.find (t : Table) (k : RecordKey) : Option Record := (t.rows.find? (·.1 = k)).map Prod.snd

/-- `UPDATE ... WHERE w`: `g` rewrites every row that satisfies `w`. -/
def Table.update (t : Table) (w : RecordKey × Record → Bool) (g : Record → Record) : Table where
  rows := t.rows.map fun p => if w p then (p.1, g p.2) else p
  unique := by
    rw [List.map_map]
    convert t.unique using 1
    exact List.map_congr_left fun p _ => by simp only [Function.comp_apply]; split <;> rfl

/-- `INSERT`: the new row, unless the unique index already holds its key. -/
def Table.insert? (t : Table) (k : RecordKey) (r : Record) : Option Table :=
  if h : k ∈ t.rows.map Prod.fst then none
  else some ⟨t.rows ++ [(k, r)], by
    rw [List.map_append]
    exact List.nodup_append.mpr ⟨t.unique, List.nodup_singleton _, List.disjoint_singleton.mpr h⟩⟩

/-- `t'` has the rows of `t` at every key but `k`. -/
def Table.Frame (k : RecordKey) (t t' : Table) : Prop := ∀ k', k' ≠ k → t'.find k' = t.find k'

section Table

variable {t t' : Table} {k k' : RecordKey} {r : Record}

theorem Table.mem_of_find (h : t.find k = some r) : (k, r) ∈ t.rows := by
  obtain ⟨p, hp, rfl⟩ := Option.map_eq_some'.mp h
  have hk : p.1 = k := by simpa using List.find?_some hp
  exact hk ▸ List.mem_of_find?_eq_some hp

theorem Table.find_of_mem (h : (k, r) ∈ t.rows) : t.find k = some r := by
  obtain ⟨rows, hu⟩ := t
  simp only [Table.find]
  induction rows with
  | nil => cases h
  | cons p l ih =>
    obtain ⟨hp, hl⟩ := List.nodup_cons.mp hu
    rcases List.mem_cons.mp h with rfl | h
    · simp
    · have : p.1 ≠ k := fun e => hp (e ▸ List.mem_map_of_mem Prod.fst h)
      simpa only [List.find?_cons, this, decide_False] using ih hl h

theorem Table.find_eq_none : t.find k = none ↔ k ∉ t.rows.map Prod.fst := by
  rw [Table.find, Option.map_eq_none', List.find?_eq_none]
  constructor
  · intro h hk
    obtain ⟨p, hp, rfl⟩ := List.mem_map.mp hk
    exact h p hp (by simp)
  · intro h p hp he
    exact h (List.mem_map.mpr ⟨p, hp, by simpa using he⟩)

/-- The row an `UPDATE` leaves under key `k`. -/
theorem Table.find_update (w : RecordKey × Record → Bool) (g : Record → Record) (k : RecordKey) :
    (t.update w g).find k = (t.find k).map fun r => if w (k, r) then g r else r := by
  obtain ⟨rows, _⟩ := t
  simp only [Table.find, Table.update]
  induction rows with
  | nil => rfl
  | cons p l ih =>
    by_cases hp : p.1 = k
    · obtain ⟨pk, pr⟩ := p
      cases hp
      by_cases hw : w (pk, pr) <;> simp [hw]
    · have hq : ((if w p then (p.1, g p.2) else p).1 = k) = (p.1 = k) := by split <;> rfl
      simp only [List.map_cons, List.find?_cons, hq, hp, decide_False] at ih ⊢
      exact ih (List.nodup_cons.mp ‹_›).2

/-- The rows after an `INSERT`. -/
theorem Table.find_insert? (h : t.insert? k r = some t') (k' : RecordKey) :
    t'.find k' = if k' = k then some r else t.find k' := by
  unfold Table.insert? at h
  split at h
  · cases h
  · rename_i hk
    cases h
    simp only [Table.find, List.find?_append, List.find?_singleton]
    by_cases hk' : k' = k
    · subst hk'
      have : t.rows.find? (·.1 = k') = none := List.find?_eq_none.mpr fun p hp he =>
        hk (List.mem_map.mpr ⟨p, hp, by simpa using he⟩)
      simp [this]
    · simp [hk', Ne.symm hk']

/-- How many rows an `UPDATE` that only matches key `k` touches: one if the row of `k` matches, else none. -/
theorem Table.countP_of_key (w : RecordKey × Record → Bool) (hw : ∀ p, w p = true → p.1 = k) :
    t.rows.countP w = if (t.find k).any (fun r => w (k, r)) then 1 else 0 := by
  obtain ⟨rows, hu⟩ := t
  simp only [Table.find]
  induction rows with
  | nil => rfl
  | cons p l ih =>
    obtain ⟨hp, hl⟩ := List.nodup_cons.mp hu
    rw [List.countP_cons, ih hl]
    by_cases hk : p.1 = k
    · have h0 : l.countP w = 0 := List.countP_eq_zero.mpr fun x hx hwx =>
        hp (List.mem_map.mpr ⟨x, hx, (hw x hwx).trans hk.symm⟩)
      obtain ⟨pk, pr⟩ := p
      cases hk
      rw [← ih hl, h0]
      by_cases hwp : w (pk, pr) <;> simp [hwp]
    · have hwp : w p = false := by
        by_contra hc; exact hk (hw p (by simpa using hc))
      simp [hk, hwp]

theorem Table.Frame.refl (k : RecordKey) (t : Table) : t.Frame k t := fun _ _ => rfl

theorem Table.Frame.trans {t'' : Table} (h₁ : t.Frame k t') (h₂ : t'.Frame k t'') : t.Frame k t'' :=
  fun k' hk => (h₂ k' hk).trans (h₁ k' hk)

end Table

/-! ## The calls -/

/-- `idempotency.Request`; `LockTTL` is a `time.Duration`, in nanoseconds. -/
structure Request where
  scope : String
  key : String
  requestHash : String
  lockTTL : Int

/-- `defaultLockTTL`: thirty seconds. -/
def defaultLockTTL : Nat := 30 * 10 ^ 9

/-- The lease an `Acquire` takes: its `LockTTL`, or `defaultLockTTL` when that is not positive. -/
def effectiveLockTTL (lockTTL : Int) : Nat := if lockTTL ≤ 0 then defaultLockTTL else lockTTL.toNat

/-- The `(scope, idempotency_key)` a request names: its scope and key, trimmed. -/
def Request.recordKey (q : Request) : RecordKey := (trimSpace q.scope, trimSpace q.key)

/-- The hash a request names, trimmed. -/
def Request.trimmedHash (q : Request) : String := trimSpace q.requestHash

/-- The end of the lease an `Acquire` of `q` at `now` takes. -/
def Request.lockUntil (q : Request) (now : Nat) : Nat := now + effectiveLockTTL q.lockTTL

/-- `idempotency.DecisionType`. -/
inductive DecisionType
  /-- `"acquired"` -/
  | acquired
  /-- `"replay"` -/
  | replay
  /-- `"in_progress"` -/
  | inProgress
  /-- `"conflict"` -/
  | conflict
deriving DecidableEq

/-- `idempotency.Decision`. -/
structure Decision where
  type : DecisionType
  statusCode : Int := 0
  body : List UInt8 := []
  contentType : String := ""
deriving DecidableEq

/-- `idempotency.StoredResponse`. -/
structure StoredResponse where
  statusCode : Int
  body : List UInt8
  contentType : String
deriving DecidableEq

/-- The errors of `SQLXStore`. -/
inductive StoreError
  /-- `idempotency: scope is required` -/
  | scopeRequired
  /-- `idempotency: key is required` -/
  | keyRequired
  /-- `idempotency: request hash is required` -/
  | hashRequired
  /-- `idempotency: failed to start transaction: %w` -/
  | beginFailed
  /-- `idempotency: failed to query key: %w` -/
  | queryFailed
  /-- `idempotency: failed to insert key: %w` -/
  | insertFailed
  /-- `idempotency: failed to commit acquire insert: %w` -/
  | commitInsertFailed
  /-- `idempotency: failed to commit conflict read: %w` -/
  | commitConflictFailed
  /-- `idempotency: failed to commit replay read: %w` -/
  | commitReplayFailed
  /-- `idempotency: failed to commit in-progress read: %w` -/
  | commitInProgressFailed
  /-- `idempotency: failed to reacquire key: %w` -/
  | reacquireFailed
  /-- `idempotency: failed to commit reacquire: %w` -/
  | commitReacquireFailed
  /-- `idempotency: failed to persist response: %w` -/
  | persistFailed
  /-- `idempotency: failed to read affected rows: %w` -/
  | rowsAffectedFailed
  /-- `idempotency: key not found for completion` -/
  | notFound
deriving DecidableEq

/-- The error of the `COMMIT` after an `INSERT` or a take-over: the two commits of `Acquire` that write. -/
def StoreError.afterWrite : StoreError → Bool
  | .commitInsertFailed | .commitReacquireFailed => true
  | _ => false

/-- Which database call of one `Acquire` fails: a driver error or a cancelled context. A failed `COMMIT` may have
been applied by the database all the same, when only its reply was lost (`commitApplied`). -/
structure AcquireFaults where
  begin : Bool := false
  select : Bool := false
  insert : Bool := false
  reacquire : Bool := false
  commit : Bool := false
  commitApplied : Bool := false

/-- Which database call of one `Complete` fails. A failed `Exec` may have been applied by the database all the
same, when only its reply was lost (`execApplied`). -/
structure CompleteFaults where
  exec : Bool := false
  rowsAffected : Bool := false
  execApplied : Bool := false

/-- The row `insertQuery` writes: in progress until `lockUntil`, with no response. -/
def Record.inProgress (hash : String) (lockUntil : Nat) : Record :=
  ⟨hash, "in_progress", none, [], none, timestamptz lockUntil⟩

/-- The row `insertQuery` writes, its values gone through `varchar(128)`, `varchar(128)` and `char(64)`. -/
def insertRow (scope key hash : String) (lockUntil : Nat) : Option (RecordKey × Record) := do
  let s ← varchar 128 scope
  let k ← varchar 128 key
  let h ← bpchar 64 hash
  pure ((s, k), .inProgress h lockUntil)

/-- `insertQuery`: the row, then the unique index. -/
def insertQuery (t : Table) (scope key hash : String) (lockUntil : Nat) : Option Table :=
  (insertRow scope key hash lockUntil).bind fun p => t.insert? p.1 p.2

/-- What `reacquireQuery` writes into a row. -/
def Record.reacquire (r : Record) (lockUntil : Nat) : Record :=
  { r with status := "in_progress", lockedUntil := timestamptz lockUntil }

/-- `reacquireQuery`. -/
def reacquireQuery (t : Table) (scope key : String) (lockUntil : Nat) : Table :=
  t.update (·.1 = (scope, key)) (·.reacquire lockUntil)

/-- What `updateQuery` writes into a row; `locked_until` and `completed_at` become `now()`. -/
def Record.complete (r : Record) (statusCode : Int) (body : List UInt8) (contentType : String) (now : Nat) :
    Record :=
  { r with status := "completed", responseStatus := some statusCode, responseBody := body,
           responseContentType := some contentType, lockedUntil := timestamptz now }

/-- The rows `updateQuery` matches: the key, and the hash as `char(64)` compares it. -/
def completeMatch (scope key hash : String) (p : RecordKey × Record) : Bool :=
  p.1 = (scope, key) && bpcharEq p.2.requestHash hash

/-- `updateQuery` and its `RowsAffected`. The status code is bound as an `integer`; the content type is assigned to
`varchar(255)` in the rows the statement updates. -/
def updateQuery (t : Table) (scope key hash : String) (statusCode : Int) (body : List UInt8) (contentType : String)
    (now : Nat) : Option (Nat × Table) := do
  let sc ← int4 statusCode
  if t.rows.any (completeMatch scope key hash) then
    let ct ← varchar 255 contentType
    pure (t.rows.countP (completeMatch scope key hash),
      t.update (completeMatch scope key hash) (·.complete sc body ct now))
  else pure (0, t)

/-- The decision `Acquire` reads out of a completed row. -/
def Record.replay (r : Record) : Decision where
  type := .replay
  statusCode := r.responseStatus.getD 0
  body := r.responseBody
  contentType := r.responseContentType.getD ""

/-- The end of an `Acquire` transaction: `COMMIT`, then the decision and the written table `t'`; or the commit's
error, with the table `t` as it was, or with `t'` when the database applied the commit whose reply was lost. -/
def commitAcquire (f : AcquireFaults) (err : StoreError) (d : Decision) (t t' : Table) :
    Except StoreError Decision × Table :=
  if f.commit then (.error err, if f.commitApplied then t' else t) else (.ok d, t')

/-- `Acquire` after `BEGIN` and the `SELECT ... FOR UPDATE`, given the row found: insert a new row, answer from the
row, or take over a row whose lease has passed. -/
def acquireRow (f : AcquireFaults) (now : Nat) (t : Table) (scope key hash : String) (lockUntil : Nat) :
    Option Record → Except StoreError Decision × Table
  | none =>
    if f.insert then (.error .insertFailed, t)
    else match insertQuery t scope key hash lockUntil with
      | none => (.error .insertFailed, t)
      | some t' => commitAcquire f .commitInsertFailed { type := .acquired } t t'
  | some existing =>
    if existing.requestHash ≠ hash then commitAcquire f .commitConflictFailed { type := .conflict } t t
    else if existing.status = "completed" then commitAcquire f .commitReplayFailed existing.replay t t
    else if existing.status = "in_progress" ∧ now < existing.lockedUntil then
      commitAcquire f .commitInProgressFailed { type := .inProgress } t t
    else if f.reacquire then (.error .reacquireFailed, t)
    else commitAcquire f .commitReacquireFailed { type := .acquired } t (reacquireQuery t scope key lockUntil)

/-- `SQLXStore.Acquire`, at time `now`. -/
def acquire (f : AcquireFaults) (now : Nat) (t : Table) (request : Request) : Except StoreError Decision × Table :=
  let scope := trimSpace request.scope
  let key := trimSpace request.key
  let hash := trimSpace request.requestHash
  if scope = "" then (.error .scopeRequired, t)
  else if key = "" then (.error .keyRequired, t)
  else if hash = "" then (.error .hashRequired, t)
  else if f.begin then (.error .beginFailed, t)
  else if f.select then (.error .queryFailed, t)
  else acquireRow f now t scope key hash (now + effectiveLockTTL request.lockTTL) (t.find (scope, key))

/-- `Complete` after its `UPDATE`: the statement's error, or what its `RowsAffected` says. The statement runs outside
a transaction, so what it wrote stays. -/
def completeResult (f : CompleteFaults) (t : Table) : Option (Nat × Table) → Except StoreError Unit × Table
  | none => (.error .persistFailed, t)
  | some (n, t') =>
    if f.rowsAffected then (.error .rowsAffectedFailed, t')
    else if n = 0 then (.error .notFound, t')
    else (.ok (), t')

/-- `SQLXStore.Complete`, with the database's `now()` at `now`. A failed `Exec` leaves the table as it was, or as
the `UPDATE` wrote it when the database applied the statement whose reply was lost. -/
def complete (f : CompleteFaults) (now : Nat) (t : Table) (request : Request) (response : StoredResponse) :
    Except StoreError Unit × Table :=
  let scope := trimSpace request.scope
  let key := trimSpace request.key
  let hash := trimSpace request.requestHash
  let update := updateQuery t scope key hash response.statusCode response.body (trimSpace response.contentType) now
  if scope = "" then (.error .scopeRequired, t)
  else if key = "" then (.error .keyRequired, t)
  else if hash = "" then (.error .hashRequired, t)
  else if f.exec then (.error .persistFailed, if f.execApplied then (update.map Prod.snd).getD t else t)
  else completeResult f t update

/-! ## What one `Acquire` does -/

section Acquire

variable {f : AcquireFaults} {now : Nat} {t t' : Table} {q : Request} {d : Decision}

/-- `acquire` in the terms of its request's trimmed key and hash. -/
theorem acquire_eq : acquire f now t q =
    if q.recordKey.1 = "" then (.error .scopeRequired, t)
    else if q.recordKey.2 = "" then (.error .keyRequired, t)
    else if q.trimmedHash = "" then (.error .hashRequired, t)
    else if f.begin then (.error .beginFailed, t)
    else if f.select then (.error .queryFailed, t)
    else acquireRow f now t q.recordKey.1 q.recordKey.2 q.trimmedHash (q.lockUntil now) (t.find q.recordKey) :=
  rfl

/-- **What `Acquire` does before its transaction**: it fails on an empty trimmed scope, key or hash, or on a failing
`BEGIN` or `SELECT`, and writes nothing; otherwise it runs `acquireRow` on the row of its key. -/
theorem acquire_cases (f : AcquireFaults) (now : Nat) (t : Table) (q : Request) :
    (∃ e, acquire f now t q = (.error e, t)) ∨
    (q.recordKey.1 ≠ "" ∧ q.recordKey.2 ≠ "" ∧ q.trimmedHash ≠ "" ∧
      acquire f now t q =
        acquireRow f now t q.recordKey.1 q.recordKey.2 q.trimmedHash (q.lockUntil now) (t.find q.recordKey)) := by
  rw [acquire_eq]
  by_cases h1 : q.recordKey.1 = ""
  · exact .inl ⟨_, if_pos h1⟩
  by_cases h2 : q.recordKey.2 = ""
  · exact .inl ⟨_, by rw [if_neg h1, if_pos h2]⟩
  by_cases h3 : q.trimmedHash = ""
  · exact .inl ⟨_, by rw [if_neg h1, if_neg h2, if_pos h3]⟩
  simp only [if_neg h1, if_neg h2, if_neg h3]
  cases f.begin
  · cases f.select
    · exact .inr ⟨h1, h2, h3, rfl⟩
    · exact .inl ⟨_, rfl⟩
  · exact .inl ⟨_, rfl⟩

theorem commitAcquire_eq_ok {err : StoreError} {d' : Decision} {t₀ t₁ : Table}
    (h : commitAcquire f err d t₀ t₁ = (.ok d', t')) : d' = d ∧ t' = t₁ := by
  unfold commitAcquire at h
  split at h
  · cases h
  · cases h; exact ⟨rfl, rfl⟩

theorem commitAcquire_eq_error {err e : StoreError} {t₀ t₁ : Table}
    (h : commitAcquire f err d t₀ t₁ = (.error e, t')) : e = err ∧ t' = if f.commitApplied then t₁ else t₀ := by
  unfold commitAcquire at h
  split at h
  · cases h; exact ⟨rfl, rfl⟩
  · cases h

/-- The `COMMIT` delivered. -/
@[simp] theorem commitAcquire_delivered {err : StoreError} {t₀ t₁ : Table} :
    commitAcquire { f with commit := false } err d t₀ t₁ = (.ok d, t₁) := rfl

/-- **A failed `acquireRow` wrote nothing**, unless the `COMMIT` of its insert or take-over was applied while its
reply was lost: then it wrote what it writes with its commit delivered, where it returns `Acquired`. -/
theorem acquireRow_error {scope key hash : String} {L : Nat} {row : Option Record} {e : StoreError}
    (h : acquireRow f now t scope key hash L row = (.error e, t')) :
    ((f.commitApplied && e.afterWrite) = false ∧ t' = t) ∨
    ((f.commitApplied && e.afterWrite) = true ∧
      acquireRow { f with commit := false } now t scope key hash L row = (.ok { type := .acquired }, t')) := by
  cases row with
  | none =>
    simp only [acquireRow] at h ⊢
    by_cases hi : f.insert
    · rw [if_pos hi] at h; cases h; exact .inl ⟨by simp [StoreError.afterWrite], rfl⟩
    rw [if_neg hi] at h ⊢
    revert h
    cases insertQuery t scope key hash L with
    | none => intro h; cases h; exact .inl ⟨by simp [StoreError.afterWrite], rfl⟩
    | some t₁ =>
      intro h
      obtain ⟨rfl, rfl⟩ := commitAcquire_eq_error h
      cases f.commitApplied
      · exact .inl ⟨rfl, rfl⟩
      · exact .inr ⟨rfl, rfl⟩
  | some x =>
    simp only [acquireRow] at h ⊢
    have keep : ∀ {err : StoreError} {d : Decision}, commitAcquire f err d t t = (.error e, t') →
        err.afterWrite = false → (f.commitApplied && e.afterWrite) = false ∧ t' = t := fun hc ha => by
      obtain ⟨rfl, rfl⟩ := commitAcquire_eq_error hc
      simp [ha]
    split_ifs at h with h1 h2 h3 h4
    · exact .inl (keep h rfl)
    · exact .inl (keep h rfl)
    · exact .inl (keep h rfl)
    · cases h; exact .inl ⟨Bool.and_false _, rfl⟩
    · obtain ⟨rfl, rfl⟩ := commitAcquire_eq_error h
      rw [if_neg h1, if_neg h2, if_neg h3, if_neg h4]
      cases f.commitApplied
      · exact .inl ⟨rfl, rfl⟩
      · exact .inr ⟨rfl, rfl⟩

/-- **A failed `Acquire` wrote nothing**, unless the `COMMIT` of its insert or take-over was applied while its
reply was lost: then it wrote what the same `Acquire` with its commit delivered writes, returning `Acquired`. -/
theorem acquire_error {e : StoreError} (h : acquire f now t q = (.error e, t')) :
    ((f.commitApplied && e.afterWrite) = false ∧ t' = t) ∨
    ((f.commitApplied && e.afterWrite) = true ∧
      acquire { f with commit := false } now t q = (.ok { type := .acquired }, t')) := by
  rw [acquire_eq] at h ⊢
  split_ifs at h with h1 h2 h3 h4 h5
  any_goals (cases h; exact .inl ⟨Bool.and_false _, rfl⟩)
  rw [if_neg h1, if_neg h2, if_neg h3, if_neg h4, if_neg h5]
  exact acquireRow_error h

/-- The decision `Acquire` takes on the row it found, and what it writes. -/
theorem acquireRow_ok {scope key hash : String} {L : Nat} {row : Option Record}
    (h : acquireRow f now t scope key hash L row = (.ok d, t')) :
    (row = none ∧ d = { type := .acquired } ∧ insertQuery t scope key hash L = some t') ∨
    ∃ x, row = some x ∧
      ((x.requestHash ≠ hash ∧ d = { type := .conflict } ∧ t' = t) ∨
       (x.requestHash = hash ∧ x.status = "completed" ∧ d = x.replay ∧ t' = t) ∨
       (x.requestHash = hash ∧ x.status ≠ "completed" ∧ x.status = "in_progress" ∧ now < x.lockedUntil ∧
         d = { type := .inProgress } ∧ t' = t) ∨
       (x.requestHash = hash ∧ x.status ≠ "completed" ∧ ¬(x.status = "in_progress" ∧ now < x.lockedUntil) ∧
         d = { type := .acquired } ∧ t' = reacquireQuery t scope key L)) := by
  cases row with
  | none =>
    simp only [acquireRow] at h
    split_ifs at h
    · cases (Prod.mk.inj h).1
    · split at h
      · cases (Prod.mk.inj h).1
      · rename_i hi
        obtain ⟨rfl, rfl⟩ := commitAcquire_eq_ok h
        exact .inl ⟨rfl, rfl, hi⟩
  | some x =>
    simp only [acquireRow] at h
    refine .inr ⟨x, rfl, ?_⟩
    split_ifs at h with h1 h2 h3 h4
    · obtain ⟨rfl, rfl⟩ := commitAcquire_eq_ok h; exact .inl ⟨h1, rfl, rfl⟩
    · obtain ⟨rfl, rfl⟩ := commitAcquire_eq_ok h; exact .inr (.inl ⟨not_not.mp h1, h2, rfl, rfl⟩)
    · obtain ⟨rfl, rfl⟩ := commitAcquire_eq_ok h; exact .inr (.inr (.inl ⟨not_not.mp h1, h2, h3.1, h3.2, rfl, rfl⟩))
    · cases (Prod.mk.inj h).1
    · obtain ⟨rfl, rfl⟩ := commitAcquire_eq_ok h; exact .inr (.inr (.inr ⟨not_not.mp h1, h2, h3, rfl, rfl⟩))

/-- With no failing call, `Acquire` on a row it found returns a decision, and writes at most the take-over of that
row. -/
theorem acquireRow_found {scope key hash : String} {L : Nat} {x : Record} {r : Except StoreError Decision}
    (h : acquireRow {} now t scope key hash L (some x) = (r, t')) :
    (∃ d, r = .ok d) ∧ (t' = t ∨ t' = reacquireQuery t scope key L) := by
  simp only [acquireRow, Bool.false_eq_true, if_false] at h
  split_ifs at h <;> simp only [commitAcquire, Bool.false_eq_true, if_false, Prod.mk.injEq] at h <;>
    obtain ⟨rfl, rfl⟩ := h <;> simp

/-- On a row it found, `Acquire` returns `Acquired` only by taking the row over; any other decision writes nothing. -/
theorem acquireRow_some_ok {scope key hash : String} {L : Nat} {x : Record}
    (h : acquireRow f now t scope key hash L (some x) = (.ok d, t')) :
    (d = { type := .acquired } ∧ x.status ≠ "completed" ∧ ¬(x.status = "in_progress" ∧ now < x.lockedUntil) ∧
      t' = reacquireQuery t scope key L) ∨ (d.type ≠ .acquired ∧ t' = t) := by
  rcases acquireRow_ok h with ⟨hn, -⟩ | ⟨y, hy, hc⟩
  · cases hn
  cases hy
  rcases hc with ⟨-, rfl, rfl⟩ | ⟨-, -, rfl, rfl⟩ | ⟨-, -, -, -, rfl, rfl⟩ | ⟨-, h2, h3, rfl, rfl⟩
  · exact .inr ⟨(fun h => by cases h), rfl⟩
  · exact .inr ⟨(fun h => by cases h), rfl⟩
  · exact .inr ⟨(fun h => by cases h), rfl⟩
  · exact .inl ⟨rfl, h2, h3, rfl⟩

/-- **What a successful `Acquire` decided.** The trimmed scope, key and hash are not empty; then the row of the key
decides: none is inserted; a row of another hash is a conflict; a completed row is replayed; a row in progress whose
lease has not passed is in progress; any other row is taken over. -/
theorem acquire_ok (h : acquire f now t q = (.ok d, t')) :
    q.recordKey.1 ≠ "" ∧ q.recordKey.2 ≠ "" ∧ q.trimmedHash ≠ "" ∧
    ((t.find q.recordKey = none ∧ d = { type := .acquired } ∧
        insertQuery t q.recordKey.1 q.recordKey.2 q.trimmedHash (q.lockUntil now) = some t') ∨
      ∃ x, t.find q.recordKey = some x ∧
      ((x.requestHash ≠ q.trimmedHash ∧ d = { type := .conflict } ∧ t' = t) ∨
       (x.requestHash = q.trimmedHash ∧ x.status = "completed" ∧ d = x.replay ∧ t' = t) ∨
       (x.requestHash = q.trimmedHash ∧ x.status ≠ "completed" ∧ x.status = "in_progress" ∧
         now < x.lockedUntil ∧ d = { type := .inProgress } ∧ t' = t) ∨
       (x.requestHash = q.trimmedHash ∧ x.status ≠ "completed" ∧
         ¬(x.status = "in_progress" ∧ now < x.lockedUntil) ∧ d = { type := .acquired } ∧
         t' = reacquireQuery t q.recordKey.1 q.recordKey.2 (q.lockUntil now)))) := by
  rcases acquire_cases f now t q with ⟨_, he⟩ | ⟨h1, h2, h3, he⟩ <;> rw [he] at h
  · cases (Prod.mk.inj h).1
  · exact ⟨h1, h2, h3, acquireRow_ok h⟩


/-- The row `insertQuery` writes: a scope and key without trailing blanks go into the `varchar(128)` columns as they
are, the hash is stored as `char(64)`. -/
theorem insertRow_eq {scope key hash : String} {L : Nat} {k : RecordKey} {row : Record}
    (hs : NoTrailingBlank scope) (hk : NoTrailingBlank key) (h : insertRow scope key hash L = some (k, row)) :
    k = (scope, key) ∧ ∃ hv, bpchar 64 hash = some hv ∧ row = .inProgress hv L := by
  simp only [insertRow, Option.bind_eq_bind, Option.bind_eq_some, Option.pure_def, Option.some.injEq,
    Prod.mk.injEq] at h
  obtain ⟨s, hs', k, hk', hv, hv', rfl, rfl⟩ := h
  obtain rfl := varchar_eq_self hs hs'
  obtain rfl := varchar_eq_self hk hk'
  exact ⟨rfl, hv, hv', rfl⟩

theorem insertQuery_find {scope key hash : String} {L : Nat} (hs : NoTrailingBlank scope)
    (hk : NoTrailingBlank key) (h : insertQuery t scope key hash L = some t') :
    ∃ hv, bpchar 64 hash = some hv ∧
      ∀ k', t'.find k' = if k' = (scope, key) then some (.inProgress hv L) else t.find k' := by
  obtain ⟨⟨k, row⟩, hr, hi⟩ := Option.bind_eq_some.mp h
  obtain ⟨rfl, hv, hv', rfl⟩ := insertRow_eq hs hk hr
  exact ⟨hv, hv', Table.find_insert? hi⟩

theorem reacquireQuery_find (scope key : String) (L : Nat) (k' : RecordKey) :
    (reacquireQuery t scope key L).find k' =
      if k' = (scope, key) then (t.find k').map (·.reacquire L) else t.find k' := by
  rw [reacquireQuery, Table.find_update]
  split_ifs with hk <;> simp [hk]

/-- **An `Acquire` that returned `Acquired`** inserted the row of its key, or took over a row of its hash that is
not completed and whose lease has passed; either way the row is now in progress until `lockUntil`, and no other row
changed. -/
theorem acquire_acquired (h : acquire f now t q = (.ok d, t')) (hd : d.type = .acquired) :
    t.Frame q.recordKey t' ∧
    ((t.find q.recordKey = none ∧ ∃ hv, bpchar 64 q.trimmedHash = some hv ∧
        t'.find q.recordKey = some (.inProgress hv (q.lockUntil now))) ∨
     (∃ x, t.find q.recordKey = some x ∧ x.requestHash = q.trimmedHash ∧ x.status ≠ "completed" ∧
        ¬(x.status = "in_progress" ∧ now < x.lockedUntil) ∧
        t'.find q.recordKey = some (x.reacquire (q.lockUntil now)))) := by
  obtain ⟨-, -, -, ⟨hn, -, hq⟩ | ⟨x, hx, ⟨-, rfl, -⟩ | ⟨-, -, rfl, -⟩ | ⟨-, -, -, -, rfl, -⟩ | ⟨h1, h2, h3, -, rfl⟩⟩⟩ :=
    acquire_ok h
  · obtain ⟨hv, hv', hf⟩ := insertQuery_find (noTrailingBlank_trimSpace _) (noTrailingBlank_trimSpace _) hq
    exact ⟨fun k' hk' => (hf k').trans (if_neg hk'), .inl ⟨hn, hv, hv', (hf _).trans (if_pos rfl)⟩⟩
  · cases hd
  · cases hd
  · cases hd
  · refine ⟨fun k' hk' => (reacquireQuery_find _ _ _ k').trans (if_neg hk'),
      .inr ⟨x, hx, h1, h2, h3, ?_⟩⟩
    rw [reacquireQuery_find, if_pos rfl, hx]
    rfl

/-- An `Acquire` that decided anything but `Acquired` wrote nothing. -/
theorem acquire_unchanged (h : acquire f now t q = (.ok d, t')) (hd : d.type ≠ .acquired) : t' = t := by
  obtain ⟨-, -, -, ⟨-, rfl, -⟩ | ⟨x, -, ⟨-, -, rfl⟩ | ⟨-, -, -, rfl⟩ | ⟨-, -, -, -, -, rfl⟩ | ⟨-, -, -, rfl, -⟩⟩⟩ :=
    acquire_ok h
  all_goals first | rfl | exact absurd rfl hd

/-- **What any `Acquire` writes:** nothing, or what an `Acquire` of the same request that returns `Acquired` writes
(itself, or itself with its lost `COMMIT` delivered). -/
theorem acquire_written {o : Except StoreError Decision} (h : acquire f now t q = (o, t')) :
    t' = t ∨ ∃ (f' : AcquireFaults) (d : Decision), acquire f' now t q = (.ok d, t') ∧ d.type = .acquired := by
  cases o with
  | error e =>
    rcases acquire_error h with ⟨-, rfl⟩ | ⟨-, h'⟩
    · exact .inl rfl
    · exact .inr ⟨_, _, h', rfl⟩
  | ok d =>
    by_cases hd : d.type = .acquired
    · exact .inr ⟨f, d, h, hd⟩
    · exact .inl (acquire_unchanged h hd)

/-- A replay carries the response of the completed row of the key, and the row's hash is the request's. -/
theorem acquire_replay (h : acquire f now t q = (.ok d, t')) (hd : d.type = .replay) :
    ∃ x, t.find q.recordKey = some x ∧ x.requestHash = q.trimmedHash ∧ x.status = "completed" ∧ d = x.replay := by
  obtain ⟨-, -, -, ⟨-, rfl, -⟩ | ⟨x, hx, ⟨-, rfl, -⟩ | ⟨h1, h2, rfl, -⟩ | ⟨-, -, -, -, rfl, -⟩ | ⟨-, -, -, rfl, -⟩⟩⟩ :=
    acquire_ok h
  all_goals first | exact ⟨x, hx, h1, h2, rfl⟩ | cases hd

/-- Whatever it returns, an `Acquire` leaves every row but its key's as it was. -/
theorem acquire_frame {o : Except StoreError Decision} (h : acquire f now t q = (o, t')) :
    t.Frame q.recordKey t' := by
  rcases acquire_written h with rfl | ⟨_, _, h', hd⟩
  · exact Table.Frame.refl _ _
  · exact (acquire_acquired h' hd).1

/-- `Acquire` reads its request only through the trimmed scope and key, the trimmed hash and the lock TTL. -/
theorem acquire_congr {q' : Request} (hk : q.recordKey = q'.recordKey) (hh : q.trimmedHash = q'.trimmedHash)
    (hl : q.lockTTL = q'.lockTTL) : acquire f now t q = acquire f now t q' := by
  rw [acquire_eq, acquire_eq, hk, hh, Request.lockUntil, Request.lockUntil, hl]

theorem Table.insert?_of_find {k : RecordKey} (h : t.find k = none) (r : Record) : ∃ t', t.insert? k r = some t' :=
  ⟨_, dif_neg (Table.find_eq_none.mp h)⟩

theorem Table.insert?_isSome {t₂ : Table} {k : RecordKey} (h : t.find k = t₂.find k) (r : Record) :
    (t.insert? k r).isSome = (t₂.insert? k r).isSome := by
  have hk : k ∈ t.rows.map Prod.fst ↔ k ∈ t₂.rows.map Prod.fst := by
    rw [← not_iff_not, ← Table.find_eq_none, ← Table.find_eq_none, h]
  by_cases hm : k ∈ t.rows.map Prod.fst
  · simp [Table.insert?, hm, hk.mp hm]
  · simp [Table.insert?, hm, mt hk.mpr hm]

theorem commitAcquire_fst {err : StoreError} {t₀ t₁ : Table} :
    (commitAcquire f err d t₀ t₁).1 = if f.commit then .error err else .ok d := by
  unfold commitAcquire; split <;> rfl

/-- What `acquireRow` decides depends on the table only through the row of its key. -/
theorem acquireRow_fst {t₂ : Table} {scope key hash : String} {L : Nat} {row : Option Record}
    (hs : NoTrailingBlank scope) (hk : NoTrailingBlank key) (h : t.find (scope, key) = t₂.find (scope, key)) :
    (acquireRow f now t scope key hash L row).1 = (acquireRow f now t₂ scope key hash L row).1 := by
  cases row with
  | some x => simp only [acquireRow, apply_ite Prod.fst, commitAcquire_fst]
  | none =>
    have hi : (insertQuery t scope key hash L).isSome = (insertQuery t₂ scope key hash L).isSome := by
      cases hr : insertRow scope key hash L with
      | none => simp [insertQuery, hr]
      | some p =>
        have hp : p.1 = (scope, key) := (insertRow_eq hs hk hr).1
        simp only [insertQuery, hr, Option.some_bind, hp]
        exact Table.insert?_isSome h _
    simp only [acquireRow, apply_ite Prod.fst]
    cases h₁ : insertQuery t scope key hash L <;> cases h₂ : insertQuery t₂ scope key hash L <;>
      simp [h₁, h₂, commitAcquire_fst] at hi ⊢

/-- **`Acquire` reads only the row of its key:** on two tables that agree there, it decides the same. -/
theorem acquire_local {t₂ : Table} (h : t.find q.recordKey = t₂.find q.recordKey) :
    (acquire f now t q).1 = (acquire f now t₂ q).1 := by
  have hr : ∀ row, (acquireRow f now t q.recordKey.1 q.recordKey.2 q.trimmedHash (q.lockUntil now) row).1 =
      (acquireRow f now t₂ q.recordKey.1 q.recordKey.2 q.trimmedHash (q.lockUntil now) row).1 :=
    fun _ => acquireRow_fst (noTrailingBlank_trimSpace _) (noTrailingBlank_trimSpace _) h
  rw [acquire_eq, acquire_eq, h]
  simp only [apply_ite Prod.fst, hr]

/-- With no failing call, `Acquire` on a key with a row decides from that row. -/
theorem acquire_of_find {x : Record} (hs : q.recordKey.1 ≠ "") (hk : q.recordKey.2 ≠ "") (hh : q.trimmedHash ≠ "")
    (hx : t.find q.recordKey = some x) :
    acquire {} now t q = acquireRow {} now t q.recordKey.1 q.recordKey.2 q.trimmedHash (q.lockUntil now) (some x) := by
  rw [acquire_eq, if_neg hs, if_neg hk, if_neg hh, hx]
  rfl

/-- With no failing call, `Acquire` inserts the row of a key that has none, when the trimmed values fit their
columns. -/
theorem acquire_insert (hs : q.recordKey.1 ≠ "") (hk : q.recordKey.2 ≠ "") (hh : q.trimmedHash ≠ "")
    (hsl : q.recordKey.1.length ≤ 128) (hkl : q.recordKey.2.length ≤ 128) (hhl : q.trimmedHash.length ≤ 64)
    (hn : t.find q.recordKey = none) : ∃ t', acquire {} now t q = (.ok { type := .acquired }, t') := by
  obtain ⟨hv, hv'⟩ : ∃ hv, bpchar 64 q.trimmedHash = some hv := by simp [bpchar, varchar_of_le hhl]
  obtain ⟨t', ht'⟩ := Table.insert?_of_find hn (.inProgress hv (q.lockUntil now))
  refine ⟨t', ?_⟩
  have hq : insertQuery t q.recordKey.1 q.recordKey.2 q.trimmedHash (q.lockUntil now) = some t' := by
    simpa [insertQuery, insertRow, varchar_of_le hsl, varchar_of_le hkl, hv'] using ht'
  rw [acquire_eq, if_neg hs, if_neg hk, if_neg hh, hn]
  simp [acquireRow, hq, commitAcquire]

/-- With no failing call, `Acquire` takes over a row of its hash that is not completed and whose lease has passed. -/
theorem acquire_reacquire {x : Record} (hs : q.recordKey.1 ≠ "") (hk : q.recordKey.2 ≠ "")
    (hh : q.trimmedHash ≠ "") (hx : t.find q.recordKey = some x) (hxh : x.requestHash = q.trimmedHash)
    (hc : x.status ≠ "completed") (hl : ¬(x.status = "in_progress" ∧ now < x.lockedUntil)) :
    acquire {} now t q =
      (.ok { type := .acquired }, reacquireQuery t q.recordKey.1 q.recordKey.2 (q.lockUntil now)) := by
  rw [acquire_of_find hs hk hh hx]
  simp [acquireRow, hxh, hc, hl, commitAcquire]

/-- With no failing call, a row of its hash in progress within its lease is in progress. -/
theorem acquire_inProgress {x : Record} (hs : q.recordKey.1 ≠ "") (hk : q.recordKey.2 ≠ "")
    (hh : q.trimmedHash ≠ "") (hx : t.find q.recordKey = some x) (hxh : x.requestHash = q.trimmedHash)
    (hip : x.status = "in_progress") (hl : now < x.lockedUntil) :
    acquire {} now t q = (.ok { type := .inProgress }, t) := by
  rw [acquire_of_find hs hk hh hx]
  simp [acquireRow, hxh, hip, hl, commitAcquire]

/-- With no failing call, a completed row of its hash is replayed. -/
theorem acquire_completed {x : Record} (hs : q.recordKey.1 ≠ "") (hk : q.recordKey.2 ≠ "")
    (hh : q.trimmedHash ≠ "") (hx : t.find q.recordKey = some x) (hxh : x.requestHash = q.trimmedHash)
    (hc : x.status = "completed") : acquire {} now t q = (.ok x.replay, t) := by
  rw [acquire_of_find hs hk hh hx]
  simp [acquireRow, hxh, hc, commitAcquire]

/-- With no failing call, a row of another hash is a conflict, and nothing is written. -/
theorem acquire_conflict {x : Record} (hs : q.recordKey.1 ≠ "") (hk : q.recordKey.2 ≠ "")
    (hh : q.trimmedHash ≠ "") (hx : t.find q.recordKey = some x) (hxh : x.requestHash ≠ q.trimmedHash) :
    acquire {} now t q = (.ok { type := .conflict }, t) := by
  rw [acquire_of_find hs hk hh hx]
  simp [acquireRow, hxh, commitAcquire]

end Acquire

/-! ## What one `Complete` does -/

section Complete

variable {now : Nat} {t t' : Table} {scope key hash ct : String} {sc : Int} {body : List UInt8}

theorem completeMatch_key {p : RecordKey × Record} (h : completeMatch scope key hash p = true) :
    p.1 = (scope, key) := by
  simp only [completeMatch, Bool.and_eq_true, decide_eq_true_eq] at h
  exact h.1

theorem any_completeMatch :
    t.rows.any (completeMatch scope key hash) = (t.find (scope, key)).any (bpcharEq ·.requestHash hash) := by
  rw [Bool.eq_iff_iff, List.any_eq_true]
  constructor
  · rintro ⟨⟨pk, pr⟩, hp, hw⟩
    obtain rfl := completeMatch_key hw
    rw [Table.find_of_mem hp]
    simpa [completeMatch] using hw
  · intro h
    cases hf : t.find (scope, key) with
    | none => rw [hf] at h; cases h
    | some x =>
      rw [hf] at h
      exact ⟨_, Table.mem_of_find hf, by simpa [completeMatch] using h⟩

/-- What `updateQuery` does: no row, or the one row of the key whose hash matches. -/
theorem updateQuery_cases (hct : NoTrailingBlank ct) {n : Nat}
    (h : updateQuery t scope key hash sc body ct now = some (n, t')) :
    (n = 0 ∧ t' = t ∧ ∀ x, t.find (scope, key) = some x → bpcharEq x.requestHash hash = false) ∨
    (n = 1 ∧ t.Frame (scope, key) t' ∧ ∃ x, t.find (scope, key) = some x ∧ bpcharEq x.requestHash hash = true ∧
      t'.find (scope, key) = some (x.complete sc body ct now)) := by
  simp only [updateQuery, Option.bind_eq_bind, Option.bind_eq_some] at h
  obtain ⟨sc', hsc, h⟩ := h
  obtain rfl := int4_eq hsc
  rw [any_completeMatch] at h
  split_ifs at h with hany
  · simp only [Option.pure_def, Option.bind_eq_bind, Option.bind_eq_some, Option.some.injEq] at h
    obtain ⟨ct', hct', h⟩ := h
    obtain rfl := varchar_eq_self hct hct'
    obtain ⟨rfl, rfl⟩ := h
    cases hf : t.find (scope, key) with
    | none => rw [hf] at hany; cases hany
    | some x =>
      replace hany : bpcharEq x.requestHash hash = true := by rwa [hf] at hany
      have hcount := Table.countP_of_key (t := t) (completeMatch scope key hash) fun _ => completeMatch_key
      refine .inr ⟨?_, fun k' hk' => ?_, x, rfl, hany, ?_⟩
      · simp [hcount, hf, completeMatch, hany]
      · rw [Table.find_update]
        cases t.find k' <;> simp [completeMatch, hk']
      · simp [Table.find_update, hf, completeMatch, hany]
  · cases h
    refine .inl ⟨rfl, rfl, fun x hx => ?_⟩
    rw [hx] at hany
    simpa using hany


theorem updateQuery_isSome {x : Record} (hx : t.find (scope, key) = some x)
    (hb : bpcharEq x.requestHash hash = true) (hsc : (int4 sc).isSome) (hct : (varchar 255 ct).isSome) :
    (updateQuery t scope key hash sc body ct now).isSome := by
  obtain ⟨sc', hsc'⟩ := Option.isSome_iff_exists.mp hsc
  obtain ⟨ct', hct'⟩ := Option.isSome_iff_exists.mp hct
  have hany : t.rows.any (completeMatch scope key hash) = true := by rw [any_completeMatch, hx]; exact hb
  simp [updateQuery, hsc', hany, hct']

variable {f : CompleteFaults} {q : Request} {resp : StoredResponse} {o : Except StoreError Unit}

theorem complete_eq : complete f now t q resp =
    if q.recordKey.1 = "" then (.error .scopeRequired, t)
    else if q.recordKey.2 = "" then (.error .keyRequired, t)
    else if q.trimmedHash = "" then (.error .hashRequired, t)
    else if f.exec then (.error .persistFailed, if f.execApplied then ((updateQuery t q.recordKey.1 q.recordKey.2
      q.trimmedHash resp.statusCode resp.body (trimSpace resp.contentType) now).map Prod.snd).getD t else t)
    else completeResult f t (updateQuery t q.recordKey.1 q.recordKey.2 q.trimmedHash resp.statusCode resp.body
      (trimSpace resp.contentType) now) :=
  rfl

/-- Past its input checks and with its `Exec` not failing, `Complete` is the `UPDATE` and what it reports. -/
theorem complete_of_checks (hs : q.recordKey.1 ≠ "") (hk : q.recordKey.2 ≠ "") (hh : q.trimmedHash ≠ "")
    (hf : f.exec = false) :
    complete f now t q resp = completeResult f t (updateQuery t q.recordKey.1 q.recordKey.2 q.trimmedHash
      resp.statusCode resp.body (trimSpace resp.contentType) now) := by
  rw [complete_eq, if_neg hs, if_neg hk, if_neg hh, hf]
  rfl

/-- **What `Complete` does before its `UPDATE`**: it fails on an empty trimmed scope, key or hash, or on a failing
`Exec` that the database did not apply, and writes nothing; a failing `Exec` that the database applied leaves what
the `UPDATE` wrote; otherwise it is the `UPDATE` and what it reports. -/
theorem complete_cases (f : CompleteFaults) (now : Nat) (t : Table) (q : Request) (resp : StoredResponse) :
    (∃ e, complete f now t q resp = (.error e, t)) ∨
    (q.recordKey.1 ≠ "" ∧ q.recordKey.2 ≠ "" ∧ q.trimmedHash ≠ "" ∧
      ((f.exec = true ∧ complete f now t q resp = (.error .persistFailed, ((updateQuery t q.recordKey.1
          q.recordKey.2 q.trimmedHash resp.statusCode resp.body (trimSpace resp.contentType) now).map Prod.snd).getD t)) ∨
        (f.exec = false ∧ complete f now t q resp = completeResult f t (updateQuery t q.recordKey.1 q.recordKey.2
          q.trimmedHash resp.statusCode resp.body (trimSpace resp.contentType) now)))) := by
  by_cases hs : q.recordKey.1 = ""
  · exact .inl ⟨_, by rw [complete_eq, if_pos hs]⟩
  by_cases hk : q.recordKey.2 = ""
  · exact .inl ⟨_, by rw [complete_eq, if_neg hs, if_pos hk]⟩
  by_cases hh : q.trimmedHash = ""
  · exact .inl ⟨_, by rw [complete_eq, if_neg hs, if_neg hk, if_pos hh]⟩
  cases hf : f.exec
  · exact .inr ⟨hs, hk, hh, .inr ⟨rfl, complete_of_checks hs hk hh hf⟩⟩
  cases ha : f.execApplied
  · exact .inl ⟨_, by rw [complete_eq, if_neg hs, if_neg hk, if_neg hh, hf, ha]; rfl⟩
  · exact .inr ⟨hs, hk, hh, .inl ⟨rfl, by rw [complete_eq, if_neg hs, if_neg hk, if_neg hh, hf, ha]; rfl⟩⟩

theorem completeResult_table {r : Option (Nat × Table)} (h : completeResult f t r = (o, t')) :
    t' = (r.map Prod.snd).getD t := by
  cases r with
  | none => exact (Prod.mk.inj h).2.symm
  | some r =>
    simp only [completeResult] at h
    split_ifs at h <;> exact (Prod.mk.inj h).2.symm

theorem completeResult_ok {r : Option (Nat × Table)} (h : completeResult f t r = (.ok (), t')) :
    ∃ n, r = some (n, t') ∧ n ≠ 0 := by
  cases r with
  | none => cases (Prod.mk.inj h).1
  | some r =>
    simp only [completeResult] at h
    split_ifs at h with h1 h2
    · cases (Prod.mk.inj h).1
    · cases (Prod.mk.inj h).1
    · exact ⟨r.1, by rw [← (Prod.mk.inj h).2], h2⟩

/-- What a call of `Complete` leaves under its key: the row as it was, or the row of its hash, completed with its
response; every other row is as it was. -/
theorem complete_row (h : complete f now t q resp = (o, t')) :
    t.Frame q.recordKey t' ∧
    (t'.find q.recordKey = t.find q.recordKey ∨
     ∃ x, t.find q.recordKey = some x ∧ bpcharEq x.requestHash q.trimmedHash = true ∧
      t'.find q.recordKey = some (x.complete resp.statusCode resp.body (trimSpace resp.contentType) now)) := by
  have ht : t' = t ∨ t' = ((updateQuery t q.recordKey.1 q.recordKey.2 q.trimmedHash resp.statusCode resp.body
      (trimSpace resp.contentType) now).map Prod.snd).getD t := by
    rcases complete_cases f now t q resp with ⟨_, he⟩ | ⟨-, -, -, ⟨-, he⟩ | ⟨-, he⟩⟩ <;> rw [he] at h
    · exact .inl (Prod.mk.inj h).2.symm
    · exact .inr (Prod.mk.inj h).2.symm
    · exact .inr (completeResult_table h)
  rcases ht with rfl | rfl
  · exact ⟨Table.Frame.refl _ _, .inl rfl⟩
  cases hu : updateQuery t q.recordKey.1 q.recordKey.2 q.trimmedHash resp.statusCode resp.body
      (trimSpace resp.contentType) now with
  | none => exact ⟨Table.Frame.refl _ _, .inl rfl⟩
  | some r =>
    rcases updateQuery_cases (noTrailingBlank_trimSpace _) hu with ⟨-, rfl, -⟩ | ⟨-, hfr, x, hx, hb, hx'⟩
    · exact ⟨Table.Frame.refl _ _, .inl rfl⟩
    · exact ⟨hfr, .inr ⟨x, hx, hb, hx'⟩⟩

/-- **A `Complete` that succeeded** found the row of its key and hash, and completed it with its response. -/
theorem complete_ok (h : complete f now t q resp = (.ok (), t')) :
    ∃ x, t.find q.recordKey = some x ∧ bpcharEq x.requestHash q.trimmedHash = true ∧
      t'.find q.recordKey = some (x.complete resp.statusCode resp.body (trimSpace resp.contentType) now) := by
  rcases complete_cases f now t q resp with ⟨_, he⟩ | ⟨-, -, -, ⟨-, he⟩ | ⟨-, he⟩⟩ <;> rw [he] at h
  · cases (Prod.mk.inj h).1
  · cases (Prod.mk.inj h).1
  obtain ⟨n, hu, hn⟩ := completeResult_ok h
  rcases updateQuery_cases (noTrailingBlank_trimSpace _) hu with ⟨rfl, -, -⟩ | ⟨-, -, x, hx, hb, hx'⟩
  · exact absurd rfl hn
  · exact ⟨x, hx, hb, hx'⟩

/-- Unless its `Exec` fails, `Complete` on the row of its key and hash stores its response there, when the status
code fits `integer` and the content type fits `varchar(255)`; a failed `RowsAffected` does not undo the update. -/
theorem complete_stores {x : Record} (hf : f.exec = false) (hs : q.recordKey.1 ≠ "") (hk : q.recordKey.2 ≠ "")
    (hh : q.trimmedHash ≠ "") (hx : t.find q.recordKey = some x) (hb : bpcharEq x.requestHash q.trimmedHash = true)
    (hsc : (int4 resp.statusCode).isSome) (hct : (varchar 255 (trimSpace resp.contentType)).isSome) :
    (complete f now t q resp).2.find q.recordKey =
      some (x.complete resp.statusCode resp.body (trimSpace resp.contentType) now) := by
  obtain ⟨⟨n, t'⟩, hu⟩ : ∃ r, updateQuery t q.recordKey.1 q.recordKey.2 q.trimmedHash resp.statusCode resp.body
      (trimSpace resp.contentType) now = some r := Option.isSome_iff_exists.mp (updateQuery_isSome hx hb hsc hct)
  have ht : (completeResult f t (some (n, t'))).2 = t' := completeResult_table (f := f) (t := t) (r := some (n, t')) rfl
  rw [complete_of_checks hs hk hh hf, hu, ht]
  rcases updateQuery_cases (noTrailingBlank_trimSpace _) hu with ⟨-, -, hn⟩ | ⟨-, -, y, hy, -, hy'⟩
  · rw [hn x hx] at hb; cases hb
  · rw [hx] at hy; cases hy; exact hy'

/-- A `Complete` whose `Exec` fails before the database applies it returns an error and writes nothing. -/
theorem complete_exec (hf : f.exec = true) (ha : f.execApplied = false) :
    ∃ e, complete f now t q resp = (.error e, t) := by
  rcases complete_cases f now t q resp with h | ⟨hs, hk, hh, -⟩
  · exact h
  · exact ⟨_, by rw [complete_eq, if_neg hs, if_neg hk, if_neg hh, hf, ha]; rfl⟩

/-- A `Complete` whose `Exec` the database applied while the reply was lost writes what the `Complete` without
faults writes. -/
theorem complete_applied (hf : f.exec = true) (ha : f.execApplied = true) :
    (complete f now t q resp).2 = (complete {} now t q resp).2 := by
  rw [complete_eq, complete_eq]
  by_cases hs : q.recordKey.1 = ""
  · simp only [if_pos hs]
  by_cases hk : q.recordKey.2 = ""
  · simp only [if_neg hs, if_pos hk]
  by_cases hh : q.trimmedHash = ""
  · simp only [if_neg hs, if_neg hk, if_pos hh]
  simp only [if_neg hs, if_neg hk, if_neg hh, hf, ha, if_true]
  exact (completeResult_table (f := {}) rfl).symm

/-- `Complete` reads its request only through the trimmed scope and key and the trimmed hash. -/
theorem complete_congr {q' : Request} (hk : q.recordKey = q'.recordKey) (hh : q.trimmedHash = q'.trimmedHash) :
    complete f now t q resp = complete f now t q' resp := by
  have hs : trimSpace q.scope = trimSpace q'.scope := congrArg Prod.fst hk
  have hk' : trimSpace q.key = trimSpace q'.key := congrArg Prod.snd hk
  have hh' : trimSpace q.requestHash = trimSpace q'.requestHash := hh
  simp only [complete, hs, hk', hh']

/-- `Complete` without faults, on a key whose row has its hash, never reports the key missing; when the status code
fits `integer` and the content type fits `varchar(255)` it succeeds and updates exactly that row. -/
theorem complete_of_find {x : Record} (hs : q.recordKey.1 ≠ "") (hk : q.recordKey.2 ≠ "")
    (hh : q.trimmedHash ≠ "") (hx : t.find q.recordKey = some x) (hb : bpcharEq x.requestHash q.trimmedHash = true) :
    (complete {} now t q resp).1 ≠ .error .notFound ∧
    ((int4 resp.statusCode).isSome → (varchar 255 (trimSpace resp.contentType)).isSome →
      ∃ t', complete {} now t q resp = (.ok (), t') ∧
        updateQuery t q.recordKey.1 q.recordKey.2 q.trimmedHash resp.statusCode resp.body
          (trimSpace resp.contentType) now = some (1, t')) := by
  rw [complete_of_checks hs hk hh rfl]
  cases hu : updateQuery t q.recordKey.1 q.recordKey.2 q.trimmedHash resp.statusCode resp.body
      (trimSpace resp.contentType) now with
  | none =>
    refine ⟨nofun, fun hsc hct => ?_⟩
    have : (updateQuery t q.recordKey.1 q.recordKey.2 q.trimmedHash resp.statusCode resp.body
      (trimSpace resp.contentType) now).isSome := updateQuery_isSome hx hb hsc hct
    rw [hu] at this; cases this
  | some r =>
    obtain ⟨n, t'⟩ := r
    rcases updateQuery_cases (noTrailingBlank_trimSpace _) hu with ⟨-, -, hn⟩ | ⟨rfl, -⟩
    · rw [hn x hx] at hb; cases hb
    · exact ⟨nofun, fun _ _ => ⟨t', rfl, rfl⟩⟩

end Complete

end WithdrawApi
