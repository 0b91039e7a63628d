import WithdrawApi.Values

/-!
# Wallets, the ledger, and one withdraw transaction

The `wallets` and `wallet_ledger` relations (`Db`, which carries the primary key of `wallets` and its
`UNIQUE (user_id)`), the three queries of the wallet `.sql` file (`withdrawWalletBalanceByUserIDQuery`,
`hasWalletByUserID`, `insertWalletLedger`), and the functions built on them:

- `withdrawWalletBalanceByUserID` is `WithdrawBalanceRepository.WithdrawWalletBalanceByUserID`, run against the
  committed relations with a fault for each database call (`Faults`); every path but the last leaves them as
  they were (the deferred `Rollback`), the last commits the debit and the ledger entry (`Db.commit`). A `COMMIT`
  that fails may have been applied by the database while its reply was lost (`commitApplied`): the call then
  returns `failed to commit transaction` with the debit and the entry committed;
- `withdrawBalance` is `InquiryWithdrawBalanceService.WithdrawBalance`.

`withdraw_spec` says what one call does when no call fails: the two input errors before `BEGIN`, the two errors the
existence check separates, the two statements that still raise (`version + 1` out of `bigint`, a chain id too long
for `chain_id varchar(128)`), and otherwise the debit, the one ledger entry and the snapshot. `uuid.Parse` is a
parameter (`parse`) of everything here.
-/

namespace WithdrawApi

/-! ## The relations -/

/-- A row of `wallets`: the columns the withdraw path reads or writes. -/
structure Wallet where
  id : Uuid
  userID : Uuid
  balanceMinor : Int64
  currency : String
  version : Int64
  updatedAt : Nat
deriving DecidableEq

/-- A row of `wallet_ledger`. -/
structure LedgerEntry where
  walletID : Uuid
  entryType : String
  amountMinor : Int64
  balanceAfterMinor : Int64
  referenceID : Option String
  chainID : Option String
  createdAt : Nat
deriving DecidableEq

/-- The committed `wallets` and `wallet_ledger`, with the primary key and the `UNIQUE (user_id)` of `wallets`. -/
structure Db where
  wallets : List Wallet
  ledger : List LedgerEntry
  ids_nodup : (wallets.map Wallet.id).Nodup
  users_nodup : (wallets.map Wallet.userID).Nodup

/-- The wallet of a user: `WHERE user_id = $1` matches at most one row. -/
def Db.walletOf (db : Db) (u : Uuid) : Option Wallet := db.wallets.find? (·.userID = u)

theorem Db.walletOf_mem {db : Db} {u : Uuid} {w : Wallet} (h : db.walletOf u = some w) :
    w ∈ db.wallets ∧ w.userID = u :=
  ⟨List.mem_of_find?_eq_some h, by simpa using List.find?_some h⟩

/-- Two rows with one `id` are one row. -/
theorem Db.eq_of_id {db : Db} {x y : Wallet} (hx : x ∈ db.wallets) (hy : y ∈ db.wallets) (h : x.id = y.id) :
    x = y :=
  List.inj_on_of_nodup_map db.ids_nodup hx hy h

/-! ## The queries -/

/-- The row `SET balance_minor = balance_minor - $1, version = version + 1, updated_at = now()` writes; `none` when
`bigint` overflows. -/
def Wallet.debit (w : Wallet) (amount : Int64) (now : Nat) : Option Wallet := do
  let b ← w.balanceMinor.sub? amount
  let v ← w.version.add? Int64.one
  pure { w with balanceMinor := b, version := v, updatedAt := now }

/-- The result of `WithdrawWalletBalanceByUserID :one`. -/
inductive WithdrawRow
  | row (w : Wallet)
  | noRows
  | outOfRange
deriving DecidableEq

/-- `UPDATE wallets SET ... WHERE user_id = $2 AND balance_minor >= $1 RETURNING ...` on the committed rows, at
the transaction's `now()`: the new row, `sql.ErrNoRows`, or "bigint out of range". -/
def withdrawWalletBalanceByUserIDQuery (db : Db) (u : Uuid) (amount : Int64) (now : Nat) : WithdrawRow :=
  match db.walletOf u with
  | some w =>
    if amount.val ≤ w.balanceMinor.val then
      match w.debit amount now with
      | some w' => .row w'
      | none => .outOfRange
    else .noRows
  | none => .noRows

/-- `HasWalletByUserID`: `SELECT EXISTS (SELECT 1 FROM wallets WHERE user_id = $1)`. -/
def hasWalletByUserID (db : Db) (u : Uuid) : Bool := db.wallets.any (·.userID = u)

/-- `InsertWalletLedgerParams`, the fields the repository sets (`reference_id` stays `NULL`). -/
structure InsertWalletLedgerParams where
  walletID : Uuid
  entryType : String
  amountMinor : Int64
  balanceAfterMinor : Int64
  chainID : Option String

/-- `InsertWalletLedger` at the transaction's `now()`: the row, or `none` when `entry_type varchar(30)` or
`chain_id varchar(128)` rejects its value. -/
def insertWalletLedger (p : InsertWalletLedgerParams) (now : Nat) : Option LedgerEntry := do
  let t ← varchar 30 p.entryType
  let c ← match p.chainID with
    | some c => (varchar 128 c).map some
    | none => pure none
  pure ⟨p.walletID, t, p.amountMinor, p.balanceAfterMinor, none, c, now⟩

/-- The ledger parameters of a withdrawal of `amount` that left the wallet row `w`. -/
def ledgerParams (w : Wallet) (amount : Int64) (chainID : String) : InsertWalletLedgerParams where
  walletID := w.id
  entryType := "withdrawal"
  amountMinor := amount.neg
  balanceAfterMinor := w.balanceMinor
  chainID := if chainID ≠ "" then some chainID else none

/-- A row after `COMMIT` of the update that wrote `w`. -/
def Wallet.commitRow (w x : Wallet) : Wallet :=
  if x.id = w.id then { x with balanceMinor := w.balanceMinor, version := w.version, updatedAt := w.updatedAt }
  else x

theorem Wallet.commitRow_id (w x : Wallet) : (w.commitRow x).id = x.id := by
  unfold commitRow; split <;> rfl

theorem Wallet.commitRow_userID (w x : Wallet) : (w.commitRow x).userID = x.userID := by
  unfold commitRow; split <;> rfl

/-- `COMMIT` of a withdraw transaction: the new version `w` of its wallet row and its ledger entry `e`. -/
def Db.commit (db : Db) (w : Wallet) (e : LedgerEntry) : Db where
  wallets := db.wallets.map w.commitRow
  ledger := db.ledger ++ [e]
  ids_nodup := by
    rw [List.map_map, show Wallet.id ∘ w.commitRow = Wallet.id from funext (w.commitRow_id ·)]
    exact db.ids_nodup
  users_nodup := by
    rw [List.map_map, show Wallet.userID ∘ w.commitRow = Wallet.userID from funext (w.commitRow_userID ·)]
    exact db.users_nodup

theorem Db.commit_ids (db : Db) (w : Wallet) (e : LedgerEntry) :
    (db.commit w e).wallets.map Wallet.id = db.wallets.map Wallet.id := by
  simp only [Db.commit, List.map_map, show Wallet.id ∘ w.commitRow = Wallet.id from funext (w.commitRow_id ·)]

/-! ## The repository and the service -/

/-- Which database call of one `WithdrawWalletBalanceByUserID` fails: a driver error or a cancelled context. A
failed `COMMIT` may have been applied by the database all the same, when only its reply was lost
(`commitApplied`). -/
structure Faults where
  begin : Bool := false
  withdraw : Bool := false
  hasWallet : Bool := false
  insertLedger : Bool := false
  commit : Bool := false
  commitApplied : Bool := false

/-- No database call fails. -/
def noFaults : Faults := {}

/-- The errors of `WithdrawWalletBalanceByUserID`. -/
inductive WithdrawError
  /-- `repository: invalid user_id: %w` -/
  | invalidUserID
  /-- `vo.ErrInvalidAmount` -/
  | invalidAmount
  /-- `vo.ErrWalletNotFound` -/
  | walletNotFound
  /-- `vo.ErrInsufficientBalance` -/
  | insufficientBalance
  /-- `repository: failed to start transaction: %w` -/
  | beginFailed
  /-- `repository: failed to withdraw wallet balance: %w` -/
  | withdrawFailed
  /-- `repository: failed to check wallet existence: %w` -/
  | hasWalletFailed
  /-- `repository: failed to insert wallet ledger: %w` -/
  | insertLedgerFailed
  /-- `repository: failed to commit transaction: %w` -/
  | commitFailed
deriving DecidableEq

/-- `domain.WalletBalance`; `UserID` is the wallet's `user_id::text`, kept here as the UUID. -/
structure WalletBalance where
  userID : Uuid
  balanceMinor : Int64
  currency : String
  updatedAt : Nat
deriving DecidableEq

/-- `vo.WalletWithdrawal`. -/
structure WalletWithdrawal where
  userID : Uuid
  amountMinor : Int64
  balanceMinor : Int64
  currency : String
  chainID : String
  updatedAt : Nat
deriving DecidableEq

section Repository

variable (parse : String → Option Uuid)

/-- `WithdrawBalanceRepository.WithdrawWalletBalanceByUserID`, with the transaction starting at `now`. -/
def withdrawWalletBalanceByUserID (f : Faults) (now : Nat) (db : Db) (userID : String) (amountMinor : Int64)
    (chainID : String) : Except WithdrawError WalletBalance × Db :=
  match parse userID with
  | none => (.error .invalidUserID, db)
  | some u =>
    if amountMinor.val ≤ 0 then (.error .invalidAmount, db)
    else if f.begin then (.error .beginFailed, db)
    else if f.withdraw then (.error .withdrawFailed, db)
    else match withdrawWalletBalanceByUserIDQuery db u amountMinor now with
      | .outOfRange => (.error .withdrawFailed, db)
      | .noRows =>
        if f.hasWallet then (.error .hasWalletFailed, db)
        else if hasWalletByUserID db u then (.error .insufficientBalance, db)
        else (.error .walletNotFound, db)
      | .row w =>
        if f.insertLedger then (.error .insertLedgerFailed, db)
        else match insertWalletLedger (ledgerParams w amountMinor chainID) now with
          | none => (.error .insertLedgerFailed, db)
          | some e =>
            if f.commit then (.error .commitFailed, if f.commitApplied then db.commit w e else db)
            else (.ok ⟨w.userID, w.balanceMinor, w.currency, w.updatedAt⟩, db.commit w e)

/-- `InquiryWithdrawBalanceService.WithdrawBalance`. -/
def withdrawBalance (f : Faults) (now : Nat) (db : Db) (userID : String) (amountMinor : Int64) (chainID : String) :
    Except WithdrawError WalletWithdrawal × Db :=
  if trimSpace userID = "" then (.error .walletNotFound, db)
  else if amountMinor.val ≤ 0 then (.error .invalidAmount, db)
  else match withdrawWalletBalanceByUserID parse f now db userID amountMinor chainID with
    | (.ok b, db') => (.ok ⟨b.userID, amountMinor, b.balanceMinor, b.currency, chainID, b.updatedAt⟩, db')
    | (.error e, db') => (.error e, db')

end Repository

/-! ## One call without faults -/

section Spec

variable {parse : String → Option Uuid} {now : Nat} {db : Db} {u : String} {uid : Uuid} {a : Int64} {c : String}
  {w w' : Wallet}

theorem Wallet.debit_eq_some (h : w.debit a now = some w') :
    w' = { w with balanceMinor := w'.balanceMinor, version := w'.version, updatedAt := now } ∧
      w'.balanceMinor.val = w.balanceMinor.val - a.val ∧ w'.version.val = w.version.val + 1 := by
  simp only [Wallet.debit, Option.bind_eq_bind, Option.bind_eq_some, Option.pure_def, Option.some.injEq] at h
  obtain ⟨b, hb, v, hv, rfl⟩ := h
  exact ⟨rfl, Int64.ofInt?_val hb, Int64.ofInt?_val hv⟩

/-- Committing the debit of `w` replaces `w` and no other row. -/
theorem Db.commit_wallets {e : LedgerEntry} (hw : w ∈ db.wallets) (h : w.debit a now = some w') :
    (db.commit w' e).wallets = db.wallets.map fun x => if x.id = w.id then w' else x := by
  have h1 := (Wallet.debit_eq_some h).1
  have hid : w'.id = w.id := by rw [h1]
  have hup : w'.updatedAt = now := by rw [h1]
  refine List.map_congr_left fun x hx => ?_
  unfold Wallet.commitRow
  rw [hid]
  split
  · rename_i hxid
    obtain rfl := db.eq_of_id hx hw hxid
    rw [hup]
    exact h1.symm
  · rfl

theorem Wallet.debit_eq {b : Int64} (hb : w.balanceMinor.sub? a = some b) :
    w.debit a now =
      (Int64.ofInt? (w.version.val + 1)).map fun v => { w with balanceMinor := b, version := v, updatedAt := now } := by
  simp only [Wallet.debit, hb, Option.bind_eq_bind, Option.some_bind, Int64.add?, Int64.one]
  cases Int64.ofInt? (w.version.val + 1) <;> rfl

/-- The debit of a covered positive amount raises only at the largest `version`. -/
theorem Wallet.debit_eq_none_iff (ha : 0 < a.val) (hle : a.val ≤ w.balanceMinor.val) :
    w.debit a now = none ↔ w.version.val = 2 ^ 63 - 1 := by
  obtain ⟨b, hb⟩ := Option.isSome_iff_exists.mp (Int64.sub?_isSome ha hle)
  rw [Wallet.debit_eq hb, Option.map_eq_none', Int64.ofInt?_eq_none_iff]
  have := w.version.ge
  have := w.version.lt
  constructor <;> intro <;> omega

theorem hasWalletByUserID_eq (db : Db) (u : Uuid) : hasWalletByUserID db u = (db.walletOf u).isSome := by
  rw [hasWalletByUserID, Db.walletOf, Bool.eq_iff_iff, List.any_eq_true, List.find?_isSome]

theorem query_of_none (h : db.walletOf uid = none) : withdrawWalletBalanceByUserIDQuery db uid a now = .noRows := by
  simp [withdrawWalletBalanceByUserIDQuery, h]

theorem query_of_lt (h : db.walletOf uid = some w) (hlt : w.balanceMinor.val < a.val) :
    withdrawWalletBalanceByUserIDQuery db uid a now = .noRows := by
  simp [withdrawWalletBalanceByUserIDQuery, h, not_le.mpr hlt]

theorem query_of_le (h : db.walletOf uid = some w) (hle : a.val ≤ w.balanceMinor.val) :
    withdrawWalletBalanceByUserIDQuery db uid a now =
      match w.debit a now with
      | some w' => .row w'
      | none => .outOfRange := by
  simp [withdrawWalletBalanceByUserIDQuery, h, hle]

/-- The update returns a row only as the debit of the user's wallet. -/
theorem query_eq_row (h : withdrawWalletBalanceByUserIDQuery db uid a now = .row w') :
    ∃ w, db.walletOf uid = some w ∧ w.debit a now = some w' := by
  unfold withdrawWalletBalanceByUserIDQuery at h
  repeat' split at h
  all_goals cases h
  exact ⟨_, ‹_›, ‹_›⟩

/-- The ledger row of a withdrawal: `varchar(128)` rejects only a chain id that does not fit. -/
theorem insertWalletLedger_ledgerParams :
    insertWalletLedger (ledgerParams w a c) now =
      if c ≠ "" then (varchar 128 c).map fun c' => ⟨w.id, "withdrawal", a.neg, w.balanceMinor, none, some c', now⟩
      else some ⟨w.id, "withdrawal", a.neg, w.balanceMinor, none, none, now⟩ := by
  have ht : varchar 30 "withdrawal" = some "withdrawal" := rfl
  by_cases hc : c = ""
  · simp [insertWalletLedger, ledgerParams, ht, hc]
  · cases hv : varchar 128 c <;> simp [insertWalletLedger, ledgerParams, ht, hc, hv]

/-- The ledger row of a withdrawal, whole: its chain id is `NULL` exactly when the call's is empty. -/
theorem insertWalletLedger_eq {e : LedgerEntry} (h : insertWalletLedger (ledgerParams w a c) now = some e) :
    ∃ ch, (ch = none ↔ c = "") ∧ e = ⟨w.id, "withdrawal", a.neg, w.balanceMinor, none, ch, now⟩ := by
  rw [insertWalletLedger_ledgerParams] at h
  split at h
  · obtain ⟨c', -, rfl⟩ := Option.map_eq_some'.mp h
    exact ⟨some c', by simpa, rfl⟩
  · cases h
    exact ⟨none, iff_of_true rfl (of_not_not ‹_›), rfl⟩

/-- What the ledger row of a withdrawal holds. -/
theorem insertWalletLedger_eq_some {e : LedgerEntry} (h : insertWalletLedger (ledgerParams w a c) now = some e) :
    e.walletID = w.id ∧ e.entryType = "withdrawal" ∧ e.amountMinor = a.neg ∧
      e.balanceAfterMinor = w.balanceMinor ∧ e.createdAt = now := by
  obtain ⟨_, -, rfl⟩ := insertWalletLedger_eq h
  exact ⟨rfl, rfl, rfl, rfl, rfl⟩

/-- Before `BEGIN`: an unparsable user id. No call is made, so no fault changes the result. -/
theorem withdraw_invalidUserID (h : parse u = none) (f : Faults) :
    withdrawWalletBalanceByUserID parse f now db u a c = (.error .invalidUserID, db) := by
  simp [withdrawWalletBalanceByUserID, h]

/-- Before `BEGIN`: an amount that is not positive. -/
theorem withdraw_invalidAmount (h : parse u = some uid) (ha : a.val ≤ 0) (f : Faults) :
    withdrawWalletBalanceByUserID parse f now db u a c = (.error .invalidAmount, db) := by
  simp [withdrawWalletBalanceByUserID, h, ha]

/-- Past the input checks and without faults, the outcome follows the conditional update. -/
theorem withdraw_noFaults (h : parse u = some uid) (ha : 0 < a.val) :
    withdrawWalletBalanceByUserID parse noFaults now db u a c =
      match withdrawWalletBalanceByUserIDQuery db uid a now with
      | .outOfRange => (.error .withdrawFailed, db)
      | .noRows =>
        if hasWalletByUserID db uid then (.error .insufficientBalance, db) else (.error .walletNotFound, db)
      | .row w =>
        match insertWalletLedger (ledgerParams w a c) now with
        | none => (.error .insertLedgerFailed, db)
        | some e => (.ok ⟨w.userID, w.balanceMinor, w.currency, w.updatedAt⟩, db.commit w e) := by
  simp [withdrawWalletBalanceByUserID, h, noFaults, not_le.mpr ha]

/-- What a withdrawal of `a` from the wallet row `w` at `now`, with chain id `c`, returns and commits: the row
loses exactly `a` and gains one version, one `withdrawal` entry of `-a` is appended, nothing else changes. -/
def Withdrawn (db : Db) (w : Wallet) (a : Int64) (c : String) (now : Nat)
    (r : Except WithdrawError WalletBalance × Db) : Prop :=
  ∃ w' e, r.1 = .ok ⟨w.userID, w'.balanceMinor, w.currency, now⟩ ∧
    r.2.wallets = db.wallets.map (fun x => if x.id = w.id then w' else x) ∧ r.2.ledger = db.ledger ++ [e] ∧
    w'.id = w.id ∧ w'.userID = w.userID ∧ w'.currency = w.currency ∧ w'.updatedAt = now ∧
    w'.balanceMinor.val = w.balanceMinor.val - a.val ∧ w'.version.val = w.version.val + 1 ∧
    e.walletID = w.id ∧ e.entryType = "withdrawal" ∧ e.amountMinor.val = -a.val ∧
    e.balanceAfterMinor = w'.balanceMinor ∧ (e.chainID = none ↔ c = "") ∧ e.createdAt = now

theorem withdrawn_of_debit (hw : db.walletOf uid = some w) (ha : 0 < a.val) (h : w.debit a now = some w')
    {ch : Option String} (hch : ch = none ↔ c = "") :
    Withdrawn db w a c now
      (.ok ⟨w'.userID, w'.balanceMinor, w'.currency, w'.updatedAt⟩,
        db.commit w' ⟨w'.id, "withdrawal", a.neg, w'.balanceMinor, none, ch, now⟩) := by
  obtain ⟨h1, hb, hv⟩ := Wallet.debit_eq_some h
  rw [h1] at hb hv ⊢
  exact ⟨_, _, rfl, Db.commit_wallets (Db.walletOf_mem hw).1 (h1 ▸ h), rfl, rfl, rfl, rfl, rfl, hb, hv, rfl, rfl,
    Int64.neg_val ha, rfl, hch, rfl⟩

/-- **The outcomes of one call without faults**, past the input checks: no wallet, a short balance, the largest
`version`, a chain id that `chain_id` rejects, or the withdrawal. -/
theorem withdraw_cases (h : parse u = some uid) (ha : 0 < a.val) :
    let r := withdrawWalletBalanceByUserID parse noFaults now db u a c
    (db.walletOf uid = none ∧ r = (.error .walletNotFound, db)) ∨
    (∃ w, db.walletOf uid = some w ∧ w.balanceMinor.val < a.val ∧ r = (.error .insufficientBalance, db)) ∨
    (∃ w, db.walletOf uid = some w ∧ a.val ≤ w.balanceMinor.val ∧
      ((w.version.val = 2 ^ 63 - 1 ∧ r = (.error .withdrawFailed, db)) ∨
       (w.version.val < 2 ^ 63 - 1 ∧ c ≠ "" ∧ varchar 128 c = none ∧ r = (.error .insertLedgerFailed, db)) ∨
       (w.version.val < 2 ^ 63 - 1 ∧ (c = "" ∨ (varchar 128 c).isSome) ∧ Withdrawn db w a c now r))) := by
  intro r
  rw [show r = _ from withdraw_noFaults h ha]
  cases hw : db.walletOf uid with
  | none => exact .inl ⟨rfl, by rw [query_of_none hw, hasWalletByUserID_eq, hw]; rfl⟩
  | some w =>
    by_cases hlt : w.balanceMinor.val < a.val
    · exact .inr (.inl ⟨w, rfl, hlt, by rw [query_of_lt hw hlt, hasWalletByUserID_eq, hw]; rfl⟩)
    have hle : a.val ≤ w.balanceMinor.val := by omega
    refine .inr (.inr ⟨w, rfl, hle, ?_⟩)
    rw [query_of_le hw hle]
    by_cases hv : w.version.val = 2 ^ 63 - 1
    · exact .inl ⟨hv, by rw [(Wallet.debit_eq_none_iff ha hle).mpr hv]⟩
    have hv' : w.version.val < 2 ^ 63 - 1 := by have := w.version.lt; omega
    obtain ⟨w', hw'⟩ := Option.ne_none_iff_exists'.mp (mt (Wallet.debit_eq_none_iff ha hle).mp hv)
    rw [hw']
    dsimp only
    rw [insertWalletLedger_ledgerParams]
    by_cases hc : c = ""
    · simp only [hc, ne_eq, not_true_eq_false, if_false]
      exact .inr (.inr ⟨hv', .inl trivial, withdrawn_of_debit hw ha hw' (by simp)⟩)
    · cases hvc : varchar 128 c with
      | none => exact .inr (.inl ⟨hv', hc, rfl, by simp [hc]⟩)
      | some c' =>
        simp only [hc, ne_eq, not_false_eq_true, if_true, Option.map_some']
        exact .inr (.inr ⟨hv', .inr rfl, withdrawn_of_debit hw ha hw' (by simp [hc])⟩)

/-- **What one call can do**, whatever fails: return an error and leave the relations as they were, or take the
one path that writes, where both input checks passed, the update returned a row and the ledger row was inserted:
there `COMMIT` wrote the two together and the call returns the balance, or it returns the commit's error though
the database applied the commit. -/
theorem withdrawWalletBalanceByUserID_cases {f : Faults} {r : Except WithdrawError WalletBalance} {db' : Db}
    (h : withdrawWalletBalanceByUserID parse f now db u a c = (r, db')) :
    (∃ e, r = .error e ∧ db' = db) ∨
    ∃ uid w e, parse u = some uid ∧ 0 < a.val ∧ withdrawWalletBalanceByUserIDQuery db uid a now = .row w ∧
      insertWalletLedger (ledgerParams w a c) now = some e ∧ db' = db.commit w e ∧
      (r = .ok ⟨w.userID, w.balanceMinor, w.currency, w.updatedAt⟩ ∨
        (r = .error .commitFailed ∧ f.commit = true ∧ f.commitApplied = true)) := by
  unfold withdrawWalletBalanceByUserID at h
  repeat' split at h
  all_goals cases h
  all_goals first
    | exact .inl ⟨_, rfl, rfl⟩
    | exact .inr ⟨_, _, _, ‹_›, by omega, ‹_›, ‹_›, rfl, .inl rfl⟩
    | exact .inr ⟨_, _, _, ‹_›, by omega, ‹_›, ‹_›, rfl, .inr ⟨rfl, ‹_›, ‹_›⟩⟩

/-- A call leaves the relations as they were, or with one debit and its ledger entry committed together. -/
theorem withdrawWalletBalanceByUserID_db {f : Faults} {r : Except WithdrawError WalletBalance} {db' : Db}
    (h : withdrawWalletBalanceByUserID parse f now db u a c = (r, db')) :
    db' = db ∨ ∃ w e, db' = db.commit w e :=
  (withdrawWalletBalanceByUserID_cases h).imp (fun ⟨_, _, hdb⟩ => hdb) fun ⟨_, w, e, _, _, _, _, hdb, _⟩ => ⟨w, e, hdb⟩

theorem withdraw_of_ok {f : Faults} {b : WalletBalance} {db' : Db}
    (h : withdrawWalletBalanceByUserID parse f now db u a c = (.ok b, db')) :
    ∃ uid w e, parse u = some uid ∧ 0 < a.val ∧ withdrawWalletBalanceByUserIDQuery db uid a now = .row w ∧
      insertWalletLedger (ledgerParams w a c) now = some e ∧
      b = ⟨w.userID, w.balanceMinor, w.currency, w.updatedAt⟩ ∧ db' = db.commit w e := by
  rcases withdrawWalletBalanceByUserID_cases h with ⟨_, he, -⟩ | ⟨uid, w, e, hp, ha, hq, hi, hdb, hr | ⟨hr, -⟩⟩
  · cases he
  · exact ⟨uid, w, e, hp, ha, hq, hi, Except.ok.inj hr, hdb⟩
  · cases hr

/-- The service passes the repository's effect on through. -/
theorem withdrawBalance_db {f : Faults} {r : Except WithdrawError WalletWithdrawal} {db' : Db}
    (h : withdrawBalance parse f now db u a c = (r, db')) :
    (db' = db ∨ ∃ w e, db' = db.commit w e) ∧ ∀ b, r = .ok b → ∃ w e, db' = db.commit w e := by
  unfold withdrawBalance at h
  split_ifs at h
  · cases h; exact ⟨.inl rfl, fun _ h => nomatch h⟩
  · cases h; exact ⟨.inl rfl, fun _ h => nomatch h⟩
  · rcases hw : withdrawWalletBalanceByUserID parse f now db u a c with ⟨_ | b, db''⟩ <;> rw [hw] at h <;> cases h
    · exact ⟨withdrawWalletBalanceByUserID_db hw, fun _ h => nomatch h⟩
    · obtain ⟨_, w, e, -, -, -, -, -, rfl⟩ := withdraw_of_ok hw
      exact ⟨.inr ⟨w, e, rfl⟩, fun _ _ => ⟨w, e, rfl⟩⟩

/-- The service adds the amount to a successful repository result. -/
theorem withdrawBalance_of_ok {f : Faults} {b : WalletBalance} {db' : Db}
    (h : withdrawWalletBalanceByUserID parse f now db u a c = (.ok b, db')) (hu : trimSpace u ≠ "") :
    withdrawBalance parse f now db u a c = (.ok ⟨b.userID, a, b.balanceMinor, b.currency, c, b.updatedAt⟩, db') := by
  have ha : ¬a.val ≤ 0 := fun ha => by
    cases hp : parse u with
    | none => rw [withdraw_invalidUserID hp] at h; cases h
    | some uid => rw [withdraw_invalidAmount hp ha] at h; cases h
  simp only [withdrawBalance, hu, ha, if_false, h]

/-- **`WithdrawWalletBalanceByUserID`, for every state and input.** Before `BEGIN` it rejects an unparsable user
id, then an amount that is not positive, whatever the faults. Without faults it answers `ErrWalletNotFound` exactly
when no wallet has the user id and `ErrInsufficientBalance` exactly when that wallet's balance is short. A wallet
that covers the amount is debited (`Withdrawn`) unless its `version` is already the largest `bigint` or the chain
id does not fit `chain_id varchar(128)`; then the call returns the wrapped error and changes nothing. A successful
call makes the service report the amount. -/
theorem withdraw_spec (db : Db) (u : String) (a : Int64) (c : String) (now : Nat) :
    (parse u = none → ∀ f, withdrawWalletBalanceByUserID parse f now db u a c = (.error .invalidUserID, db)) ∧
    (∀ uid, parse u = some uid → a.val ≤ 0 → ∀ f,
      withdrawWalletBalanceByUserID parse f now db u a c = (.error .invalidAmount, db)) ∧
    (∀ uid, parse u = some uid → 0 < a.val →
      let r := withdrawWalletBalanceByUserID parse noFaults now db u a c
      (r.1 = .error .walletNotFound ↔ db.walletOf uid = none) ∧
      (r.1 = .error .insufficientBalance ↔ ∃ w, db.walletOf uid = some w ∧ w.balanceMinor.val < a.val) ∧
      ∀ w, db.walletOf uid = some w → a.val ≤ w.balanceMinor.val →
        (w.version.val = 2 ^ 63 - 1 → r = (.error .withdrawFailed, db)) ∧
        (w.version.val < 2 ^ 63 - 1 → c ≠ "" → varchar 128 c = none → r = (.error .insertLedgerFailed, db)) ∧
        (w.version.val < 2 ^ 63 - 1 → (c = "" ∨ (varchar 128 c).isSome) → Withdrawn db w a c now r)) ∧
    (∀ f b db', withdrawWalletBalanceByUserID parse f now db u a c = (.ok b, db') → trimSpace u ≠ "" →
      withdrawBalance parse f now db u a c = (.ok ⟨b.userID, a, b.balanceMinor, b.currency, c, b.updatedAt⟩, db')) := by
  refine ⟨withdraw_invalidUserID, fun _ h => withdraw_invalidAmount h, fun uid h ha => ?_,
    fun _ _ _ => withdrawBalance_of_ok⟩
  intro r
  have hcases := @withdraw_cases _ now db _ _ _ c h ha
  refine ⟨⟨fun hr => ?_, fun hw => ?_⟩, ⟨fun hr => ?_, fun ⟨w, hw, hlt⟩ => ?_⟩, fun w hw hle => ?_⟩
  · rcases hcases with ⟨hw, -⟩ | ⟨w, -, -, he⟩ | ⟨w, -, -, ⟨-, he⟩ | ⟨-, -, -, he⟩ | ⟨-, -, w', e, he, -⟩⟩
    · exact hw
    all_goals simp [r, he] at hr
  · rcases hcases with ⟨-, he⟩ | ⟨w, hw', -⟩ | ⟨w, hw', -⟩
    · simp [r, he]
    all_goals simp [hw] at hw'
  · rcases hcases with ⟨-, he⟩ | ⟨w, hw, hlt, -⟩ | ⟨w, -, -, ⟨-, he⟩ | ⟨-, -, -, he⟩ | ⟨-, -, w', e, he, -⟩⟩
    · simp [r, he] at hr
    · exact ⟨w, hw, hlt⟩
    all_goals simp [r, he] at hr
  · rcases hcases with ⟨hw', -⟩ | ⟨w', -, -, he⟩ | ⟨w', hw', hle, -⟩
    · simp [hw] at hw'
    · simp [r, he]
    · rw [hw] at hw'; cases hw'; omega
  · rcases hcases with ⟨hw', -⟩ | ⟨w', hw', hlt, -⟩ | ⟨w', hw', -, hrest⟩
    · simp [hw] at hw'
    · rw [hw] at hw'; cases hw'; omega
    · rw [hw] at hw'; cases hw'
      rcases hrest with ⟨hv, he⟩ | ⟨hv, hc, hvc, he⟩ | ⟨hv, hc, hwd⟩
      · exact ⟨fun _ => he, fun h' => by omega, fun h' => by omega⟩
      · exact ⟨fun h' => by omega, fun _ _ _ => he, fun _ h' => by simp_all⟩
      · exact ⟨fun h' => by omega, fun _ hc' hvc => by simp_all, fun _ _ => hwd⟩

/-- **All or nothing, and what a failed `COMMIT` leaves.** On every input error and whichever database call fails
before `COMMIT` (`BEGIN`, the conditional `UPDATE`, the existence check, the ledger `INSERT`), the call returns its
error with the committed `wallets` and `wallet_ledger` as they were. A failed `COMMIT` leaves them as they were, or,
when the database applied the commit whose reply was lost, as the call without faults leaves them: the wallet
debited together with its one `withdrawal` entry (`Withdrawn`). A call that returns a balance has debited the user's
wallet and, in the same commit, appended that debit's entry. So no balance is debited without its entry, nor an
entry appended without its debit. -/
theorem withdraw_all_or_nothing (f : Faults) (now : Nat) (db : Db) (u : String) (a : Int64) (c : String) :
    let r := withdrawWalletBalanceByUserID parse f now db u a c
    (∀ e, r.1 = .error e → e ≠ .commitFailed → r.2 = db) ∧
    (r.1 = .error .commitFailed → r.2 = db ∨ ∃ uid w, parse u = some uid ∧ db.walletOf uid = some w ∧
      Withdrawn db w a c now (withdrawWalletBalanceByUserID parse noFaults now db u a c) ∧
      r.2 = (withdrawWalletBalanceByUserID parse noFaults now db u a c).2) ∧
    (∀ b, r.1 = .ok b → ∃ uid w, parse u = some uid ∧ db.walletOf uid = some w ∧ Withdrawn db w a c now r) := by
  intro r
  have hr : withdrawWalletBalanceByUserID parse f now db u a c = (r.1, r.2) := rfl
  refine ⟨fun e he hne => ?_, fun he => ?_, fun b hb => ?_⟩
  · rcases withdrawWalletBalanceByUserID_cases hr with ⟨_, -, hdb⟩ | ⟨_, _, _, _, _, _, _, -, hok | ⟨hok, -⟩⟩
    · exact hdb
    · rw [he] at hok; cases hok
    · rw [he] at hok; exact absurd (Except.error.inj hok) hne
  · rcases withdrawWalletBalanceByUserID_cases hr with ⟨_, -, hdb⟩ | ⟨uid, w', e, hp, ha, hq, hi, hdb, hok⟩
    · exact .inl hdb
    obtain ⟨w, hw, hd⟩ := query_eq_row hq
    obtain ⟨ch, hch, rfl⟩ := insertWalletLedger_eq hi
    have h0 : withdrawWalletBalanceByUserID parse noFaults now db u a c =
        (.ok ⟨w'.userID, w'.balanceMinor, w'.currency, w'.updatedAt⟩, db.commit w' ⟨w'.id, "withdrawal", a.neg,
          w'.balanceMinor, none, ch, now⟩) := by
      rw [withdraw_noFaults hp ha, hq]; dsimp only; rw [hi]
    exact .inr ⟨uid, w, hp, hw, by rw [h0]; exact withdrawn_of_debit hw ha hd hch, by rw [h0, hdb]⟩
  · have hr' : r = (.ok b, r.2) := by rw [← hb]
    obtain ⟨uid, w', e, hp, ha, hq, hi, rfl, hdb⟩ := withdraw_of_ok hr'
    obtain ⟨w, hw, hd⟩ := query_eq_row hq
    obtain ⟨ch, hch, rfl⟩ := insertWalletLedger_eq hi
    refine ⟨uid, w, hp, hw, ?_⟩
    rw [hr', hdb]
    exact withdrawn_of_debit hw ha hd hch

end Spec

/-! ## The seed wallet -/

/-- The wallet of the seed migration: wallet `22222222-...`, user `11111111-...`, 1000000 IDR, version 0. -/
def seedWallet : Wallet where
  id := ⟨0x22222222222222222222222222222222#128⟩
  userID := ⟨0x11111111111111111111111111111111#128⟩
  balanceMinor := ⟨1000000, by decide, by decide⟩
  currency := "IDR"
  version := ⟨0, by decide, by decide⟩
  updatedAt := 0

/-- The seeded relations: the seed wallet and an empty ledger. -/
def seedDb : Db := ⟨[seedWallet], [], by decide, by decide⟩

set_option maxRecDepth 2000 in
/-- A withdrawal of 100 from the seed wallet with a chain id of 129 characters, which needs no fault to fail: the
ledger `INSERT` rejects the chain id after the debit, and the call returns `failed to insert wallet ledger`. -/
theorem withdraw_long_chainID_fails :
    uuidParse "11111111-1111-1111-1111-111111111111" = some seedWallet.userID ∧
    seedDb.walletOf seedWallet.userID = some seedWallet ∧
    withdrawWalletBalanceByUserID uuidParse noFaults 0 seedDb "11111111-1111-1111-1111-111111111111"
      ⟨100, by decide, by decide⟩ ⟨List.replicate 129 'c'⟩ = (.error .insertLedgerFailed, seedDb) :=
  ⟨rfl, rfl, rfl⟩

set_option maxRecDepth 2000 in
/-- A withdrawal of 100 from the seed wallet whose `COMMIT` the database applies while the reply is lost: the call
returns `failed to commit transaction`, and the wallet is debited with its ledger entry appended all the same. -/
theorem withdraw_commit_reply_lost :
    (withdrawWalletBalanceByUserID uuidParse { commit := true, commitApplied := true } 0 seedDb
      "11111111-1111-1111-1111-111111111111" ⟨100, by decide, by decide⟩ "").1 = .error .commitFailed ∧
    (withdrawWalletBalanceByUserID uuidParse { commit := true, commitApplied := true } 0 seedDb
      "11111111-1111-1111-1111-111111111111" ⟨100, by decide, by decide⟩ "").2.ledger.length = 1 :=
  ⟨rfl, rfl⟩

end WithdrawApi
