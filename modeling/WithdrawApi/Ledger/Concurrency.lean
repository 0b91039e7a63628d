import WithdrawApi.Ledger.Repository

/-!
# Concurrent withdraw transactions

Any number of `WithdrawWalletBalanceByUserID` transactions run at once against one database (`Sys`), each through
the statements of the repository: `BEGIN`, the conditional `UPDATE`, the ledger `INSERT`, `COMMIT`, and a rollback
at any point (a failed call, a cancelled context, the existence check after no row, a statement that raised). The
`UPDATE` reads the latest committed row and takes its row lock; a transaction waits while another holds it, and
holds it until it commits or rolls back. `now()` is the time of the transaction's `BEGIN`.

- `Inv` holds in every reachable state (`inv_reachable`, from `inv_init` and `inv_step`): each wallet's balance is
  its initial balance plus the amounts of its ledger entries and stays non-negative, its version counts them, each
  entry is a negative withdrawal whose `balance_after_minor` replays the wallet's balance in commit order
  (`Replays`), and a locked row's pending version is the debit of the committed row.
- `ledger_invariant` states this for every wallet; `commit_order_replay` gives the running balance of consecutive
  entries in commit order.
- `created_at_order_breaks_replay`: ordered by `created_at`, two entries of one wallet need not replay, because
  `now()` is the start of a transaction and not the time of its debit.
-/

namespace WithdrawApi

/-! ## The system -/

/-- Where one withdraw transaction stands after its `BEGIN`. -/
inductive Phase
  /-- The conditional `UPDATE` is next. -/
  | begun
  /-- The `UPDATE` matched no row; the existence check and the rollback are next. -/
  | noRow
  /-- The `UPDATE` returned the new row `w` and holds the wallet's row lock. -/
  | updated (w : Wallet)
  /-- The ledger entry `e` is inserted too; `COMMIT` is next. -/
  | inserted (w : Wallet) (e : LedgerEntry)

/-- An open transaction of `WithdrawWalletBalanceByUserID`: its arguments past the input checks, the `now()` of its
`BEGIN`, and its phase. -/
structure Txn where
  userID : Uuid
  amountMinor : Int64
  chainID : String
  start : Nat
  phase : Phase
  amount_pos : 0 < amountMinor.val

/-- The new row a transaction holds locked. -/
def Txn.locked (t : Txn) : Option Wallet :=
  match t.phase with
  | .updated w => some w
  | .inserted w _ => some w
  | _ => none

/-- The database, the open transactions by id, and the clock. -/
structure Sys where
  db : Db
  txns : Nat → Option Txn
  clock : Nat

/-- No open transaction other than `i` holds the row lock of wallet `id`. -/
def Sys.Free (s : Sys) (i : Nat) (id : Uuid) : Prop :=
  ∀ j tj w, j ≠ i → s.txns j = some tj → tj.locked = some w → w.id ≠ id

/-- Transaction `i` moves to `p`. -/
def Sys.setPhase (s : Sys) (i : Nat) (t : Txn) (p : Phase) : Sys :=
  { s with txns := Function.update s.txns i (some { t with phase := p }) }

/-- Transaction `i` ends. -/
def Sys.close (s : Sys) (i : Nat) : Sys := { s with txns := Function.update s.txns i none }

/-- When no other open transaction holds a lock, every row is free for `i`. -/
theorem Sys.free_of_unlocked {s : Sys} {i : Nat}
    (h : ∀ j tj, j ≠ i → s.txns j = some tj → tj.locked = none) (id : Uuid) : s.Free i id :=
  fun j tj _ hj htj hw => nomatch (h j tj hj htj).symm.trans hw

/-- One step of one transaction, or of the clock. -/
inductive Step : Sys → Sys → Prop
  /-- Time passes. -/
  | tick {s : Sys} {t : Nat} : s.clock ≤ t → Step s { s with clock := t }
  /-- `BEGIN` of transaction `i`, for a user id that parsed and a positive amount. -/
  | begin {s : Sys} (i : Nat) (u : Uuid) (a : Int64) (c : String) (ha : 0 < a.val) :
      s.txns i = none → Step s { s with txns := Function.update s.txns i (some ⟨u, a, c, s.clock, .begun, ha⟩) }
  /-- The `UPDATE` matches no row: no wallet, or a committed balance below the amount. No lock is needed. -/
  | noRow {s : Sys} {i : Nat} {t : Txn} : s.txns i = some t → t.phase = .begun →
      (∀ x, s.db.walletOf t.userID = some x → x.balanceMinor.val < t.amountMinor.val) →
      Step s (s.setPhase i t .noRow)
  /-- The `UPDATE` rewrites the committed row `x`, once no other transaction holds its lock, and takes it. -/
  | update {s : Sys} {i : Nat} {t : Txn} {x w : Wallet} : s.txns i = some t → t.phase = .begun →
      s.db.walletOf t.userID = some x → t.amountMinor.val ≤ x.balanceMinor.val →
      x.debit t.amountMinor t.start = some w → s.Free i x.id → Step s (s.setPhase i t (.updated w))
  /-- The ledger `INSERT`. -/
  | insert {s : Sys} {i : Nat} {t : Txn} {w : Wallet} {e : LedgerEntry} : s.txns i = some t →
      t.phase = .updated w → insertWalletLedger (ledgerParams w t.amountMinor t.chainID) t.start = some e →
      Step s (s.setPhase i t (.inserted w e))
  /-- `COMMIT`: the row and the entry become visible together and the lock is released. -/
  | commit {s : Sys} {i : Nat} {t : Txn} {w : Wallet} {e : LedgerEntry} : s.txns i = some t →
      t.phase = .inserted w e → Step s { s.close i with db := s.db.commit w e }
  /-- The deferred `Rollback`: the transaction's writes are discarded and its lock released. -/
  | rollback {s : Sys} {i : Nat} {t : Txn} : s.txns i = some t → Step s (s.close i)

/-- The states reachable from the relations `db0` with no open transaction. -/
inductive Reachable (db0 : Db) : Sys → Prop
  | init (clock : Nat) : Reachable db0 ⟨db0, fun _ => none, clock⟩
  | step {s s' : Sys} : Reachable db0 s → Step s s' → Reachable db0 s'

/-! ## The ledger of one wallet -/

/-- The entries of wallet `id`, in commit order. -/
def entriesOf (L : List LedgerEntry) (id : Uuid) : List LedgerEntry := L.filter (·.walletID = id)

/-- The sum of the amounts of some entries. -/
def amountSum : List LedgerEntry → Int
  | [] => 0
  | e :: F => e.amountMinor.val + amountSum F

/-- Entries replay a running balance from `b`: each `balance_after_minor` is the balance before it plus its
amount. -/
def Replays : Int → List LedgerEntry → Prop
  | _, [] => True
  | b, e :: F => e.balanceAfterMinor.val = b + e.amountMinor.val ∧ Replays (b + e.amountMinor.val) F

theorem entriesOf_append_of_eq {L : List LedgerEntry} {e : LedgerEntry} {id : Uuid} (h : e.walletID = id) :
    entriesOf (L ++ [e]) id = entriesOf L id ++ [e] := by
  simp [entriesOf, List.filter_append, h]

theorem entriesOf_append_of_ne {L : List LedgerEntry} {e : LedgerEntry} {id : Uuid} (h : e.walletID ≠ id) :
    entriesOf (L ++ [e]) id = entriesOf L id := by
  simp [entriesOf, List.filter_append, h]

@[simp] theorem amountSum_append (F : List LedgerEntry) (e : LedgerEntry) :
    amountSum (F ++ [e]) = amountSum F + e.amountMinor.val := by
  induction F with
  | nil => simp [amountSum]
  | cons f F ih => rw [List.cons_append, amountSum, amountSum, ih]; omega

theorem replays_append {b : Int} {F : List LedgerEntry} {e : LedgerEntry} :
    Replays b (F ++ [e]) ↔ Replays b F ∧ e.balanceAfterMinor.val = b + amountSum F + e.amountMinor.val := by
  induction F generalizing b with
  | nil => simp [Replays, amountSum]
  | cons f F ih =>
    rw [List.cons_append, Replays, Replays, ih, amountSum, and_assoc]
    constructor <;> rintro ⟨h1, h2, h3⟩ <;> exact ⟨h1, h2, by omega⟩

/-! ## The invariant -/

/-- What holds of the current row `x` of a wallet whose row was `x0` when the ledger was empty, given the ledger
`L`. -/
structure RowInv (x0 : Wallet) (L : List LedgerEntry) (x : Wallet) : Prop where
  nonneg : 0 ≤ x.balanceMinor.val
  balance : x.balanceMinor.val = x0.balanceMinor.val + amountSum (entriesOf L x.id)
  version : x.version.val = x0.version.val + (entriesOf L x.id).length
  withdrawals : ∀ e ∈ entriesOf L x.id, e.entryType = "withdrawal" ∧ e.amountMinor.val < 0
  replays : Replays x0.balanceMinor.val (entriesOf L x.id)

/-- What holds of an open transaction: the row it holds is the debit of a committed row that covers its amount, and
an inserted entry is the ledger row of that debit. -/
def TxnInv (db : Db) (t : Txn) : Prop :=
  (∀ w, t.locked = some w →
    ∃ x ∈ db.wallets, t.amountMinor.val ≤ x.balanceMinor.val ∧ x.debit t.amountMinor t.start = some w) ∧
  (∀ w e, t.phase = .inserted w e → insertWalletLedger (ledgerParams w t.amountMinor t.chainID) t.start = some e)

/-- The invariant of the runs from `db0`. -/
structure Inv (db0 : Db) (s : Sys) : Prop where
  ids : s.db.wallets.map Wallet.id = db0.wallets.map Wallet.id
  rows : ∀ x ∈ s.db.wallets, ∀ x0 ∈ db0.wallets, x0.id = x.id → RowInv x0 s.db.ledger x
  fk : ∀ e ∈ s.db.ledger, e.walletID ∈ s.db.wallets.map Wallet.id
  txns : ∀ i t, s.txns i = some t → TxnInv s.db t
  locks : ∀ i j ti tj wi wj, s.txns i = some ti → s.txns j = some tj → ti.locked = some wi → tj.locked = some wj →
    wi.id = wj.id → i = j

variable {db0 : Db} {s : Sys} {i : Nat} {t : Txn}

theorem inv_init (h0 : ∀ w ∈ db0.wallets, 0 ≤ w.balanceMinor.val) (hl : db0.ledger = []) (clock : Nat) :
    Inv db0 ⟨db0, fun _ => none, clock⟩ where
  ids := rfl
  rows x hx x0 hx0 hid := by
    obtain rfl := db0.eq_of_id hx0 hx hid
    exact ⟨h0 x0 hx, by simp [hl, entriesOf, amountSum], by simp [hl, entriesOf], by simp [hl, entriesOf],
      by simp [hl, entriesOf, Replays]⟩
  fk e he := by simp [hl] at he
  txns _ _ h := by cases h
  locks _ _ _ _ _ _ h := by cases h

/-- Replacing transaction `i` by `t'` keeps the invariant when `t'` keeps its own and locks only free rows. -/
theorem inv_update {t' : Txn} (hs : Inv db0 s) (htx : TxnInv s.db t')
    (hfree : ∀ w, t'.locked = some w → s.Free i w.id) :
    Inv db0 { s with txns := Function.update s.txns i (some t') } where
  ids := hs.ids
  rows := hs.rows
  fk := hs.fk
  txns j tj h := by
    by_cases hj : j = i
    · subst hj; simp only [Function.update_same, Option.some.injEq] at h; exact h ▸ htx
    · exact hs.txns j tj (by simpa [Function.update_noteq hj] using h)
  locks j k tj tk wj wk hj hk hlj hlk hid := by
    by_cases hji : j = i <;> by_cases hki : k = i
    · rw [hji, hki]
    · subst hji; simp only [Function.update_same, Option.some.injEq] at hj; subst hj
      exact absurd hid.symm (hfree wj hlj k tk wk hki (by simpa [Function.update_noteq hki] using hk) hlk)
    · subst hki; simp only [Function.update_same, Option.some.injEq] at hk; subst hk
      exact absurd hid (hfree wk hlk j tj wj hji (by simpa [Function.update_noteq hji] using hj) hlj)
    · exact hs.locks j k tj tk wj wk (by simpa [Function.update_noteq hji] using hj)
        (by simpa [Function.update_noteq hki] using hk) hlj hlk hid

theorem inv_close (hs : Inv db0 s) : Inv db0 (s.close i) where
  ids := hs.ids
  rows := hs.rows
  fk := hs.fk
  txns j tj h := by
    by_cases hj : j = i
    · subst hj; simp [Sys.close] at h
    · exact hs.txns j tj (by simpa [Sys.close, Function.update_noteq hj] using h)
  locks j k tj tk wj wk hj hk := by
    by_cases hji : j = i
    · subst hji; simp [Sys.close] at hj
    by_cases hki : k = i
    · subst hki; simp [Sys.close] at hk
    exact hs.locks j k tj tk wj wk (by simpa [Sys.close, Function.update_noteq hji] using hj)
      (by simpa [Sys.close, Function.update_noteq hki] using hk)

/-- `COMMIT` keeps the invariant: the committed row loses exactly the amount its new entry records. -/
theorem inv_commit {w : Wallet} {e : LedgerEntry} (hs : Inv db0 s) (ht : s.txns i = some t)
    (hp : t.phase = .inserted w e) : Inv db0 { s.close i with db := s.db.commit w e } := by
  obtain ⟨x, hx, hcov, hd⟩ := (hs.txns i t ht).1 w (by simp [Txn.locked, hp])
  obtain ⟨hw, hb, hv⟩ := Wallet.debit_eq_some hd
  have hwid : w.id = x.id := by rw [hw]
  obtain ⟨he1, he2, he3, he4, -⟩ := insertWalletLedger_eq_some ((hs.txns i t ht).2 w e hp)
  have hea : e.amountMinor.val = -t.amountMinor.val := he3 ▸ Int64.neg_val t.amount_pos
  have hc := inv_close (i := i) hs
  refine ⟨(s.db.commit_ids w e).trans hs.ids, fun y hy x0 hx0 hid => ?_, fun f hf => ?_, fun j tj hj => ?_,
    hc.locks⟩
  · obtain ⟨x', hx', rfl⟩ := List.mem_map.mp hy
    rw [Wallet.commitRow_id] at hid
    show RowInv x0 (s.db.ledger ++ [e]) (w.commitRow x')
    have r := hs.rows x' hx' x0 hx0 hid
    by_cases hxw : x'.id = w.id
    · obtain rfl := s.db.eq_of_id hx' hx (hxw.trans hwid)
      have hF : entriesOf (s.db.ledger ++ [e]) x'.id = entriesOf s.db.ledger x'.id ++ [e] :=
        entriesOf_append_of_eq (he1.trans hxw.symm)
      rw [Wallet.commitRow, if_pos hxw]
      refine ⟨by dsimp only; omega, by dsimp only; rw [hF, amountSum_append]; have := r.balance; omega,
        by dsimp only; rw [hF, List.length_append, List.length_singleton]; have := r.version; omega, fun f hf => ?_,
        by dsimp only; rw [hF]; exact replays_append.mpr ⟨r.replays, by rw [he4, hea]; have := r.balance; omega⟩⟩
      dsimp only at hf
      rw [hF] at hf
      rcases List.mem_append.mp hf with hf | hf
      · exact r.withdrawals f hf
      · rw [List.mem_singleton.mp hf, he2, hea]; exact ⟨rfl, by have := t.amount_pos; omega⟩
    · have hF : entriesOf (s.db.ledger ++ [e]) x'.id = entriesOf s.db.ledger x'.id :=
        entriesOf_append_of_ne (fun h => hxw (h ▸ he1))
      rw [Wallet.commitRow, if_neg hxw]
      exact ⟨r.nonneg, hF ▸ r.balance, hF ▸ r.version, hF ▸ r.withdrawals, hF ▸ r.replays⟩
  · rw [Db.commit_ids]
    rcases List.mem_append.mp hf with hf | hf
    · exact hs.fk f hf
    · rw [List.mem_singleton.mp hf, he1, hwid]; exact List.mem_map_of_mem _ hx
  · refine ⟨fun wj hwj => ?_, (hc.txns j tj hj).2⟩
    have hji : j ≠ i := by rintro rfl; simp [Sys.close] at hj
    have hj' : s.txns j = some tj := by simpa [Sys.close, Function.update_noteq hji] using hj
    obtain ⟨xj, hxj, hcovj, hdj⟩ := (hs.txns j tj hj').1 wj hwj
    have hne : xj.id ≠ w.id := fun h => hji (hs.locks j i tj t wj w hj' ht hwj (by simp [Txn.locked, hp])
      (by rw [(Wallet.debit_eq_some hdj).1]; exact h))
    refine ⟨xj, ?_, hcovj, hdj⟩
    have : w.commitRow xj = xj := if_neg hne
    exact this ▸ List.mem_map_of_mem _ hxj

/-- One step keeps the invariant. -/
theorem inv_step {s' : Sys} (hs : Inv db0 s) (h : Step s s') : Inv db0 s' := by
  cases h with
  | tick _ => exact ⟨hs.ids, hs.rows, hs.fk, hs.txns, hs.locks⟩
  | begin i u a c ha _ =>
    exact inv_update hs ⟨(fun _ h => nomatch h), (fun _ _ h => nomatch h)⟩ (fun _ h => nomatch h)
  | noRow _ _ _ => exact inv_update hs ⟨(fun _ h => nomatch h), (fun _ _ h => nomatch h)⟩ (fun _ h => nomatch h)
  | update _ _ hx hle hd hfree =>
    refine inv_update hs ⟨fun w h => ?_, fun _ _ h => nomatch h⟩ fun w h => ?_ <;> cases h
    · exact ⟨_, (Db.walletOf_mem hx).1, hle, hd⟩
    · rw [(Wallet.debit_eq_some hd).1]; exact hfree
  | @insert i t w e ht hp he =>
    refine inv_update hs ⟨fun w' h => (hs.txns i t ht).1 w' ?_, fun _ _ h => ?_⟩ fun w' h j tj wj hji hj hlj hid => ?_
    · simpa [Txn.locked, hp] using h
    · cases h; exact he
    · cases h
      exact hji (hs.locks j i tj t wj w hj ht hlj (by simp [Txn.locked, hp]) hid)
  | commit ht hp => exact inv_commit hs ht hp
  | rollback _ => exact inv_close hs

/-- Every reachable state keeps the invariant. -/
theorem inv_reachable (h0 : ∀ w ∈ db0.wallets, 0 ≤ w.balanceMinor.val) (hl : db0.ledger = [])
    (h : Reachable db0 s) : Inv db0 s := by
  induction h with
  | init clock => exact inv_init h0 hl clock
  | step _ hst ih => exact inv_step ih hst

/-! ## The ledger in commit order -/

/-- A replayed list: each entry's `balance_after_minor` is the start plus the amounts up to and including it. -/
theorem replays_getElem {b : Int} {F : List LedgerEntry} (h : Replays b F) :
    ∀ k (hk : k < F.length), F[k].balanceAfterMinor.val = b + amountSum (F.take (k + 1)) := by
  induction F generalizing b with
  | nil => intro k hk; simp at hk
  | cons e F ih =>
    intro k hk
    cases k with
    | zero => simp [amountSum, h.1]
    | succ k =>
      rw [List.getElem_cons_succ, ih h.2 k (by simpa using hk), List.take_succ_cons, amountSum]
      omega

theorem amountSum_take_succ {F : List LedgerEntry} {k : Nat} (hk : k < F.length) :
    amountSum (F.take (k + 1)) = amountSum (F.take k) + F[k].amountMinor.val := by
  rw [List.take_succ, List.getElem?_eq_getElem hk, Option.toList_some, amountSum_append]

/-- **Withdrawals never overdraw, and the ledger accounts for every debit.** From relations whose balances are not
negative and whose ledger is empty, in every state that any interleaving of withdraw transactions reaches (any of
them rolled back at any step), every wallet's balance is non-negative and is its initial balance plus the amounts of
its ledger entries, so they never total more than that balance; its version is its initial version plus their
number; each of its entries is a withdrawal of a negative amount whose `balance_after_minor` is the initial balance
plus the amounts of the wallet's entries up to and including it, in commit order; and every entry belongs to a
wallet. -/
theorem ledger_invariant (h0 : ∀ w ∈ db0.wallets, 0 ≤ w.balanceMinor.val) (hl : db0.ledger = [])
    (hs : Reachable db0 s) :
    (∀ w0 ∈ db0.wallets, ∃ w ∈ s.db.wallets, w.id = w0.id ∧
      0 ≤ w.balanceMinor.val ∧
      w.balanceMinor.val = w0.balanceMinor.val + amountSum (entriesOf s.db.ledger w0.id) ∧
      -amountSum (entriesOf s.db.ledger w0.id) ≤ w0.balanceMinor.val ∧
      w.version.val = w0.version.val + (entriesOf s.db.ledger w0.id).length ∧
      ∀ k (hk : k < (entriesOf s.db.ledger w0.id).length),
        (entriesOf s.db.ledger w0.id)[k].entryType = "withdrawal" ∧
        (entriesOf s.db.ledger w0.id)[k].amountMinor.val < 0 ∧
        (entriesOf s.db.ledger w0.id)[k].balanceAfterMinor.val =
          w0.balanceMinor.val + amountSum ((entriesOf s.db.ledger w0.id).take (k + 1))) ∧
    ∀ e ∈ s.db.ledger, ∃ w0 ∈ db0.wallets, e.walletID = w0.id := by
  have hi := inv_reachable h0 hl hs
  refine ⟨fun w0 hw0 => ?_, fun e he => ?_⟩
  · obtain ⟨w, hw, hid⟩ := List.mem_map.mp (hi.ids ▸ List.mem_map_of_mem Wallet.id hw0)
    obtain ⟨rn, rb, rv, rw, rr⟩ := hi.rows w hw w0 hw0 hid.symm
    rw [hid] at rb rv rw rr
    exact ⟨w, hw, hid, rn, rb, by omega, rv, fun k hk => ⟨(rw _ (List.getElem_mem hk)).1,
      (rw _ (List.getElem_mem hk)).2, replays_getElem rr k hk⟩⟩
  · obtain ⟨w0, hw0, hid⟩ := List.mem_map.mp (hi.ids ▸ hi.fk e he)
    exact ⟨w0, hw0, hid.symm⟩

/-- **In commit order, a wallet's ledger is a running balance.** In every reachable state the first entry of a
wallet, in commit order, has `balance_after_minor` equal to the initial balance plus its amount, and each later entry
has the previous entry's `balance_after_minor` plus its own amount. -/
theorem commit_order_replay (h0 : ∀ w ∈ db0.wallets, 0 ≤ w.balanceMinor.val) (hl : db0.ledger = [])
    (hs : Reachable db0 s) {w0 : Wallet} (hw0 : w0 ∈ db0.wallets) :
    (∀ hk : 0 < (entriesOf s.db.ledger w0.id).length,
      (entriesOf s.db.ledger w0.id)[0].balanceAfterMinor.val =
        w0.balanceMinor.val + (entriesOf s.db.ledger w0.id)[0].amountMinor.val) ∧
    ∀ k (hk : k + 1 < (entriesOf s.db.ledger w0.id).length),
      (entriesOf s.db.ledger w0.id)[k + 1].balanceAfterMinor.val =
        (entriesOf s.db.ledger w0.id)[k].balanceAfterMinor.val +
          (entriesOf s.db.ledger w0.id)[k + 1].amountMinor.val := by
  have hi := inv_reachable h0 hl hs
  obtain ⟨w, hw, hid⟩ := List.mem_map.mp (hi.ids ▸ List.mem_map_of_mem Wallet.id hw0)
  have r := (hi.rows w hw w0 hw0 hid.symm).replays
  rw [hid] at r
  refine ⟨fun hk => ?_, fun k hk => ?_⟩
  · rw [replays_getElem r 0 hk, amountSum_take_succ hk]; simp [amountSum]
  · rw [replays_getElem r (k + 1) hk, replays_getElem r k (by omega), amountSum_take_succ hk]; omega

/-! ## Two withdrawals that begin and debit in opposite orders -/

/-- The entry of the withdrawal of 200 that begins at time 1 and debits first. -/
def raceEntry1 : LedgerEntry :=
  ⟨seedWallet.id, "withdrawal", ⟨-200, by decide, by decide⟩, ⟨999800, by decide, by decide⟩, none, none, 1⟩

/-- The entry of the withdrawal of 100 that begins at time 0 and debits second. -/
def raceEntry0 : LedgerEntry :=
  ⟨seedWallet.id, "withdrawal", ⟨-100, by decide, by decide⟩, ⟨999700, by decide, by decide⟩, none, none, 0⟩

/-- Transaction 0 begins a withdrawal of 100 at time 0 and waits; transaction 1 begins a withdrawal of 200 at time
1, debits, inserts and commits; then transaction 0 debits the committed row, inserts and commits. -/
theorem race_run : ∃ s, Reachable seedDb s ∧ s.db.ledger = [raceEntry1, raceEntry0] := by
  have r1 := (Reachable.init 0 : Reachable seedDb _).step
    (.begin 0 seedWallet.userID ⟨100, by decide, by decide⟩ "" (by decide) rfl)
  have r2 := r1.step (.tick (t := 1) (by decide))
  have r3 := r2.step (.begin 1 seedWallet.userID ⟨200, by decide, by decide⟩ "" (by decide) rfl)
  have r4 := r3.step (.update (i := 1) rfl rfl (x := seedWallet) rfl (by decide) rfl
    (Sys.free_of_unlocked (fun j tj hj htj => by
      simp only [Function.update_apply, hj, if_false] at htj
      split_ifs at htj
      cases htj; rfl) _))
  have r5 := r4.step (.insert (i := 1) rfl rfl rfl)
  have r6 := r5.step (.commit (i := 1) rfl rfl)
  have r7 := r6.step (.update (i := 0) rfl rfl rfl (by decide) rfl
    (Sys.free_of_unlocked (fun j tj hj htj => by
      dsimp only [Sys.close, Sys.setPhase] at htj
      simp only [Function.update_apply, hj, if_false] at htj
      split_ifs at htj) _))
  have r8 := r7.step (.insert (i := 0) rfl rfl rfl)
  exact ⟨_, r8.step (.commit (i := 0) rfl rfl), rfl⟩

/-- The run keeps every ledger entry attached to a seeded wallet. -/
theorem race_entries_attached : ∃ s, Reachable seedDb s ∧ s.db.ledger = [raceEntry1, raceEntry0] ∧
    ∀ e ∈ s.db.ledger, ∃ w0 ∈ seedDb.wallets, e.walletID = w0.id :=
  let ⟨s, hs, hl⟩ := race_run
  ⟨s, hs, hl, (ledger_invariant (by decide) rfl hs).2⟩

/-- In commit order the run's two entries replay: `999700 = 999800 - 100`. -/
theorem race_commit_order_replays : ∃ s, Reachable seedDb s ∧
    entriesOf s.db.ledger seedWallet.id = [raceEntry1, raceEntry0] ∧
    raceEntry0.balanceAfterMinor.val = raceEntry1.balanceAfterMinor.val + raceEntry0.amountMinor.val := by
  obtain ⟨s, hs, hl⟩ := race_run
  have hE : entriesOf s.db.ledger seedWallet.id = [raceEntry1, raceEntry0] := by rw [hl]; rfl
  have h := (commit_order_replay (by decide) rfl hs (List.mem_singleton_self seedWallet)).2 0 (by simp [hE])
  simp only [hE] at h
  exact ⟨s, hs, hE, h⟩

/-- The entry created first in `created_at` order was debited second: ordered by `created_at`, the seed wallet's
entries do not replay as a running balance. -/
theorem created_at_order_breaks_replay : ∃ s, Reachable seedDb s ∧
    entriesOf s.db.ledger seedWallet.id = [raceEntry1, raceEntry0] ∧
    raceEntry0.createdAt < raceEntry1.createdAt ∧
    raceEntry1.balanceAfterMinor.val ≠ raceEntry0.balanceAfterMinor.val + raceEntry1.amountMinor.val :=
  let ⟨s, hs, hl⟩ := race_run
  ⟨s, hs, by rw [hl]; rfl, by decide, by decide⟩

end WithdrawApi
