import WithdrawApi.Pipeline.Route

/-!
# Login

`POST /api/v1/auth/login` as `registerAuthRoutes` builds it, on the public group: `AuthLoginHandler.Handle` on
`AuthLoginService.Login` on `AuthLoginRepository.GetUserAuthByEmail`, over the `users` relation. The password check
(`hasher.Compare`, bcrypt) and the token manager's `Sign` of the claims `{Subject: user.ID}` are parameters
(`compare`, `sign`); so are the JSON decoder of the body (`parseBody`), Go's `unicode.ToLower` (`lower`), which
`strings.ToLower` applies to every character, and PostgreSQL's `lower()` (`dbLower`), whose mapping of letters outside
ASCII depends on the database's collation.

- `uuidParse_uuidText`: `uuid.Parse` reads back the text `id::text` writes, so the subject a login token carries
  names the user's UUID, the one the wallet handlers look up.
- `login_cases`: when the query and `Sign` do not fail, a login either issues the token of the first user whose
  lower-cased e-mail matches, who is active and whose hash accepts the password, or fails with
  `ErrInvalidCredentials`.
- `authLoginHandle_uniform`: so the handler answers every failed login the same, `401` "invalid email or password",
  whatever made it fail: no such user, a user who is not active, or a wrong password.
- `login_of_row`: every active user logs in with its stored e-mail and its password, provided the database lowers
  the stored e-mail to the key the service computes, and no other row's e-mail lowers to that key, which the
  case-sensitive `UNIQUE (email)` does not rule out.
-/

namespace WithdrawApi

/-! ## `uuid::text` -/

/-- The `k` lower-case hexadecimal digits of `n` modulo `16 ^ k`, most significant first. -/
def hexDigitsOf : Nat → Nat → List Char
  | 0, _ => []
  | k + 1, n => hexDigitsOf k (n / 16) ++ [hexDigit (n % 16)]

/-- PostgreSQL's text form of a `uuid` (`id::text`): the 32 digits in lower case, with a dash after the 8th, 12th,
16th and 20th. -/
def uuidText (u : Uuid) : String :=
  let d := hexDigitsOf 32 u.bits.toNat
  ⟨d.take 8 ++ '-' :: (d.drop 8).take 4 ++ '-' :: (d.drop 12).take 4 ++ '-' :: (d.drop 16).take 4 ++ '-' :: d.drop 20⟩

theorem length_hexDigitsOf (k n : Nat) : (hexDigitsOf k n).length = k := by
  induction k generalizing n with
  | zero => rfl
  | succ k ih => simp [hexDigitsOf, ih]

theorem hexVal_hexDigit : ∀ d : Fin 16, hexVal (hexDigit d.val) = some d.val := by decide

/-- Reading the digits back, as `uuid.Parse` folds them, gives the number modulo `16 ^ k`. -/
theorem foldlM_hexDigitsOf (k n acc : Nat) :
    (hexDigitsOf k n).foldlM (fun acc c => (hexVal c).map (acc * 16 + ·)) acc =
      some (acc * 16 ^ k + n % 16 ^ k) := by
  induction k generalizing n with
  | zero => simp [hexDigitsOf, Nat.mod_one]
  | succ k ih =>
    have hv := hexVal_hexDigit ⟨n % 16, Nat.mod_lt _ (by decide)⟩
    rw [hexDigitsOf, List.foldlM_append, ih]
    simp only [List.foldlM_cons, List.foldlM_nil, Option.bind_eq_bind, Option.some_bind, hv, Option.map_some',
      Option.pure_def, Option.bind_some, Option.some.injEq]
    rw [pow_succ', Nat.mod_mul, Nat.add_mul, Nat.mul_assoc, Nat.mul_comm (16 ^ k) 16]
    omega

/-- A field of `n` characters, the dash after it, and the rest. -/
theorem dashField {x r : List Char} {n : Nat} (hx : x.length = n) :
    (x ++ '-' :: r).take n = x ∧ (x ++ '-' :: r)[n]? = some '-' ∧ (x ++ '-' :: r).drop (n + 1) = r := by
  refine ⟨List.take_left' hx, ?_, ?_⟩
  · rw [List.getElem?_append_right hx.le, hx, Nat.sub_self, List.getElem?_cons_zero]
  · rw [← List.drop_drop, List.drop_left' hx]; rfl

/-- The dashed form with its four dashes in place is read as its 32 digits. -/
theorem parseDashed_eq (a b c e f : List Char) (ha : a.length = 8) (hb : b.length = 4) (hc : c.length = 4)
    (he : e.length = 4) :
    parseDashed (a ++ '-' :: b ++ '-' :: c ++ '-' :: e ++ '-' :: f) = hexDigits (a ++ b ++ c ++ e ++ f.take 12) := by
  obtain ⟨ta, da, ra⟩ := dashField (r := b ++ '-' :: (c ++ '-' :: (e ++ '-' :: f))) ha
  obtain ⟨tb, db, rb⟩ := dashField (r := c ++ '-' :: (e ++ '-' :: f)) hb
  obtain ⟨tc, dc, rc⟩ := dashField (r := e ++ '-' :: f) hc
  obtain ⟨te, de, re⟩ := dashField (r := f) he
  simp only [List.append_assoc, List.cons_append] at ta da ra ⊢
  generalize a ++ '-' :: (b ++ '-' :: (c ++ '-' :: (e ++ '-' :: f))) = l at ta da ra ⊢
  have d14 : l.drop 14 = c ++ '-' :: (e ++ '-' :: f) := by rw [← List.drop_drop 5 9, ra, rb]
  have d19 : l.drop 19 = e ++ '-' :: f := by rw [← List.drop_drop 5 14, d14, rc]
  have d24 : l.drop 24 = f := by rw [← List.drop_drop 5 19, d19, re]
  have i13 : l[13]? = some '-' := by rw [← List.getElem?_drop l 9 4, ra, db]
  have i18 : l[18]? = some '-' := by rw [← List.getElem?_drop l 14 4, d14, dc]
  have i23 : l[23]? = some '-' := by rw [← List.getElem?_drop l 19 4, d19, de]
  simp only [parseDashed, da, i13, i18, i23, and_self, if_true, ta, ra, tb, d14, tc, d19, te, d24, List.append_assoc]

theorem length_uuidText (u : Uuid) : (uuidText u).length = 36 := by
  simp [uuidText, String.length, length_hexDigitsOf]

section Chars

variable {P : Char → Prop} (hP : ∀ n : Fin 16, P (hexDigit n))

include hP in
theorem hexDigitsOf_forall (k n : Nat) : ∀ c ∈ hexDigitsOf k n, P c := by
  induction k generalizing n with
  | zero => simp [hexDigitsOf]
  | succ k ih =>
    simp only [hexDigitsOf, List.mem_append, List.mem_singleton]
    rintro c (hc | rfl)
    · exact ih _ c hc
    · exact hP ⟨n % 16, Nat.mod_lt _ (by decide)⟩

include hP in
/-- What holds of every hex digit and of the dash holds of every character of `uuid::text`. -/
theorem uuidText_forall (hd : P '-') (u : Uuid) : ∀ c ∈ (uuidText u).data, P c := by
  have h := hexDigitsOf_forall hP 32 u.bits.toNat
  intro c hc
  simp only [uuidText, List.mem_append, List.mem_cons] at hc
  generalize hexDigitsOf 32 u.bits.toNat = d at h hc
  rcases hc with ((((hc | rfl | hc) | rfl | hc) | rfl | hc) | rfl | hc)
  all_goals first
    | exact hd
    | exact h c (List.mem_of_mem_take hc)
    | exact h c (List.mem_of_mem_drop (List.mem_of_mem_take hc))
    | exact h c (List.mem_of_mem_drop hc)

end Chars

theorem ascii_hexDigit : ∀ n : Fin 16, (hexDigit n).toNat < 128 := by decide

/-- `uuid::text` has no blanks. -/
theorem isSpace_uuidText (u : Uuid) : ∀ c ∈ (uuidText u).data, isSpace c = false :=
  uuidText_forall (P := fun c => isSpace c = false) isSpace_hexDigit rfl u

/-- **`uuid.Parse` reads back `uuid::text`**, whose characters are single bytes. -/
theorem uuidParse_uuidText (u : Uuid) : uuidParse (uuidText u) = some u := by
  have hlen : (hexDigitsOf 32 u.bits.toNat).length = 32 := length_hexDigitsOf 32 _
  unfold uuidParse
  rw [utf8Bytes_ascii (uuidText_forall (P := fun c => c.toNat < 128) ascii_hexDigit (by decide) u)]
  dsimp only
  rw [show (uuidText u).data.length = 36 from length_uuidText u]
  simp only [uuidText]
  rw [parseDashed_eq _ _ _ _ _ (by simp [hlen]) (by simp [hlen]) (by simp [hlen]) (by simp [hlen])]
  simp only [← List.take_add, Nat.reduceAdd, List.take_of_length_le hlen.le, hexDigits, foldlM_hexDigitsOf,
    Nat.zero_mul, Nat.zero_add, Option.map_some']
  rw [Nat.mod_eq_of_lt (show u.bits.toNat < 16 ^ 32 from u.bits.isLt), BitVec.ofNat_toNat]
  rfl


theorem trimSpace_uuidText (u : Uuid) : trimSpace (uuidText u) = uuidText u := trimSpace_eq_self (isSpace_uuidText u)

theorem trimRight_uuidText (u : Uuid) : trimRight (uuidText u) = uuidText u := by
  show String.mk _ = _
  rw [dropWhile_isSpace_self fun c hc => isSpace_uuidText u c (List.mem_reverse.1 (List.mem_of_mem_head? hc)),
    List.reverse_reverse]

/-! ## Lower-cased, trimmed e-mails -/

/-- The key the login query receives: the e-mail `strings.TrimSpace(strings.ToLower(...))` normalizes in the
service, normalized once more in the repository. -/
def emailKey (lower : Char → Char) (email : String) : String :=
  trimSpace (toLower lower (trimSpace (toLower lower email)))

/-- An e-mail the service finds blank gives the repository a blank key. -/
theorem emailKey_of_blank {lower : Char → Char} {email : String} (h : trimSpace (toLower lower email) = "") :
    emailKey lower email = "" := by
  rw [emailKey, h]; rfl

/-! ## The repository -/

/-- A row of `users`: the columns `GetUserAuthByEmail` reads. -/
structure User where
  id : Uuid
  email : String
  passwordHash : String
  status : String
deriving DecidableEq

/-- `users`, in the order a scan meets its rows, with the primary key and the `UNIQUE (email)`. -/
structure Users where
  rows : List User
  ids_nodup : (rows.map User.id).Nodup
  emails_nodup : (rows.map User.email).Nodup

/-- `domain.UserAuth`. -/
structure UserAuth where
  id : String
  email : String
  passwordHash : String
  status : String
deriving DecidableEq

/-- The errors of the login path. -/
inductive LoginError
  /-- `vo.ErrInvalidCredentials` -/
  | invalidCredentials
  /-- `repository: get user auth by email failed: %w` -/
  | queryFailed
  /-- `service: failed to issue token: %w` -/
  | signFailed
deriving DecidableEq

/-- `SELECT id::text, email, password_hash, status FROM users WHERE lower(email) = $1 LIMIT 1`: the first matching
row of the scan. `dbLower` is the database's `lower()`. -/
def getUserAuthByEmailQuery (dbLower : String → String) (users : Users) (email : String) : Option User :=
  users.rows.find? (dbLower ·.email = email)

/-- `AuthLoginRepository.GetUserAuthByEmail`; `fails` says whether the query fails. -/
def getUserAuthByEmail (lower : Char → Char) (dbLower : String → String) (fails : Bool) (users : Users)
    (email : String) : Except LoginError UserAuth :=
  let normalizedEmail := trimSpace (toLower lower email)
  if normalizedEmail = "" then .error .invalidCredentials
  else if fails then .error .queryFailed
  else match getUserAuthByEmailQuery dbLower users normalizedEmail with
    | none => .error .invalidCredentials
    | some row =>
      if row.status ≠ "active" then .error .invalidCredentials
      else .ok ⟨uuidText row.id, row.email, row.passwordHash, row.status⟩

/-! ## The service and the handler -/

/-- `vo.AuthLogin`. -/
structure AuthLogin where
  accessToken : String
  tokenType : String
deriving DecidableEq

section Login

variable (lower : Char → Char) (dbLower : String → String) (compare : String → String → Bool)
  (sign : String → Except String String)

/-- `AuthLoginService.Login`: `compare hash password` is `hasher.Compare` succeeding, `sign subject` the token
manager's `Sign` of the claims with that subject. -/
def login (fails : Bool) (users : Users) (email password : String) : Except LoginError AuthLogin :=
  let normalizedEmail := trimSpace (toLower lower email)
  if normalizedEmail = "" ∨ trimSpace password = "" then .error .invalidCredentials
  else match getUserAuthByEmail lower dbLower fails users normalizedEmail with
    | .error e => .error e
    | .ok user =>
      if ¬compare user.passwordHash password then .error .invalidCredentials
      else match sign user.id with
        | .error _ => .error .signFailed
        | .ok token => .ok ⟨token, "Bearer"⟩

/-- `AuthLoginHandler.Handle`: the status and the JSON body, an error message or the `vo.AuthLogin`. -/
def authLoginHandle (parseBody : List UInt8 → Option (String × String)) (fails : Bool) (users : Users)
    (body : List UInt8) : Int × Except String AuthLogin :=
  match parseBody body with
  | none => (400, .error "invalid request body")
  | some (email, password) =>
    if trimSpace email = "" ∨ trimSpace password = "" then (400, .error "email and password are required")
    else match login lower dbLower compare sign fails users email password with
      | .ok r => (200, .ok r)
      | .error .invalidCredentials => (401, .error "invalid email or password")
      | .error _ => (500, .error "internal server error")

variable {lower dbLower compare sign}

/-- `Login` in the terms of the query: the service's and the repository's blank checks are one check of the key. -/
theorem login_eq (fails : Bool) (users : Users) (email password : String) :
    login lower dbLower compare sign fails users email password =
      if emailKey lower email = "" ∨ trimSpace password = "" then .error .invalidCredentials
      else if fails then .error .queryFailed
      else match getUserAuthByEmailQuery dbLower users (emailKey lower email) with
        | none => .error .invalidCredentials
        | some row =>
          if row.status ≠ "active" ∨ ¬compare row.passwordHash password then .error .invalidCredentials
          else match sign (uuidText row.id) with
            | .error _ => .error .signFailed
            | .ok token => .ok ⟨token, "Bearer"⟩ := by
  unfold login getUserAuthByEmail
  dsimp only
  by_cases h₀ : trimSpace (toLower lower email) = "" ∨ trimSpace password = ""
  · rw [if_pos h₀, if_pos (show emailKey lower email = "" ∨ _ from h₀.imp_left emailKey_of_blank)]
  rw [if_neg h₀]
  by_cases hk : emailKey lower email = ""
  · rw [if_pos (show emailKey lower email = "" ∨ trimSpace password = "" from .inl hk),
      if_pos (show trimSpace (toLower lower (trimSpace (toLower lower email))) = "" from hk)]
  rw [if_neg (show ¬(emailKey lower email = "" ∨ trimSpace password = "") from
      fun h => h.elim hk fun h' => h₀ (.inr h')),
    if_neg (show ¬trimSpace (toLower lower (trimSpace (toLower lower email))) = "" from hk), emailKey]
  cases fails
  · rcases getUserAuthByEmailQuery dbLower users (trimSpace (toLower lower (trimSpace (toLower lower email)))) with
      _ | row
    · rfl
    · by_cases hs : row.status = "active" <;> simp [hs]
  · rfl

/-- A login that issues a token found an active user, and the token is the one `Sign` gave for the user's id. -/
theorem login_ok {users : Users} {email password : String} {r : AuthLogin}
    (h : login lower dbLower compare sign false users email password = .ok r) :
    ∃ row, getUserAuthByEmailQuery dbLower users (emailKey lower email) = some row ∧ row.status = "active" ∧
      sign (uuidText row.id) = .ok r.accessToken ∧ r.tokenType = "Bearer" := by
  rw [login_eq] at h
  by_cases hb : emailKey lower email = "" ∨ trimSpace password = ""
  · rw [if_pos hb] at h; cases h
  simp only [if_neg hb, Bool.false_eq_true, if_false] at h
  rcases hq : getUserAuthByEmailQuery dbLower users (emailKey lower email) with _ | row <;> rw [hq] at h
  · cases h
  dsimp only at h
  split_ifs at h with hc
  rcases ht : sign (uuidText row.id) with _ | token <;> rw [ht] at h <;> cases h
  exact ⟨row, rfl, of_not_not (not_or.1 hc).1, ht, rfl⟩

/-- The scan finds the only row whose e-mail the database lowers to the key looked up. -/
theorem getUserAuthByEmailQuery_of_unique {users : Users} {u : User} {key : String} (hu : u ∈ users.rows)
    (hmatch : dbLower u.email = key) (huniq : ∀ v ∈ users.rows, dbLower v.email = key → v = u) :
    getUserAuthByEmailQuery dbLower users key = some u := by
  unfold getUserAuthByEmailQuery
  obtain ⟨x, hx⟩ : ∃ x, users.rows.find? (fun v => dbLower v.email = key) = some x :=
    Option.isSome_iff_exists.1 (List.find?_isSome.2 ⟨u, hu, by simp [hmatch]⟩)
  rw [hx, huniq x (List.mem_of_find?_eq_some hx) (by simpa using List.find?_some hx)]

/-- **Every active user logs in** with its own e-mail, as stored, and a password its hash accepts, and gets the
token `Sign` gives for its id, when the database's `lower()` of the stored e-mail is the key the service computes
with `strings.ToLower` and `strings.TrimSpace`, that key is not blank, and no other row's e-mail lowers to it. The
first fails for an e-mail outside ASCII in a database whose collation lowers ASCII letters only; `UNIQUE (email)` is
case-sensitive, so the last is not implied by the schema: without it the scan may meet another row first. -/
theorem login_of_row {users : Users} {u : User} {password token : String} (hu : u ∈ users.rows)
    (hmatch : dbLower u.email = emailKey lower u.email)
    (huniq : ∀ v ∈ users.rows, dbLower v.email = emailKey lower u.email → v = u) (hne : emailKey lower u.email ≠ "")
    (hpb : trimSpace password ≠ "") (hact : u.status = "active") (hpw : compare u.passwordHash password = true)
    (hsign : sign (uuidText u.id) = .ok token) :
    login lower dbLower compare sign false users u.email password = .ok ⟨token, "Bearer"⟩ := by
  have hc : ¬(u.status ≠ "active" ∨ ¬compare u.passwordHash password = true) := by
    simp only [hact, hpw, ne_eq, not_true_eq_false, or_self, not_false_eq_true]
  rw [login_eq, if_neg fun h => h.elim hne hpb, getUserAuthByEmailQuery_of_unique hu hmatch huniq]
  simp only [Bool.false_eq_true, if_false, if_neg hc, hsign]

/-- **What a login can do when the query and `Sign` do not fail:** issue the token of the first user of the scan
whose e-mail the database lowers to the normalized one, when that key and the password are not blank, the user is
active and its hash accepts the password; and otherwise fail with `ErrInvalidCredentials`, whichever of these is
missing. -/
theorem login_cases (users : Users) (email password : String) (hsign : ∀ s, ∃ t, sign s = .ok t) :
    (emailKey lower email ≠ "" ∧ trimSpace password ≠ "" ∧
      ∃ row token, getUserAuthByEmailQuery dbLower users (emailKey lower email) = some row ∧
        row.status = "active" ∧ compare row.passwordHash password = true ∧ sign (uuidText row.id) = .ok token ∧
        login lower dbLower compare sign false users email password = .ok ⟨token, "Bearer"⟩) ∨
    (¬(emailKey lower email ≠ "" ∧ trimSpace password ≠ "" ∧
      ∃ row, getUserAuthByEmailQuery dbLower users (emailKey lower email) = some row ∧ row.status = "active" ∧
        compare row.passwordHash password = true) ∧
      login lower dbLower compare sign false users email password = .error .invalidCredentials) := by
  rw [login_eq]
  by_cases hb : emailKey lower email = "" ∨ trimSpace password = ""
  · exact .inr ⟨fun ⟨h₁, h₂, _⟩ => hb.elim h₁ h₂, if_pos hb⟩
  have h₁ : emailKey lower email ≠ "" := fun h => hb (.inl h)
  have h₂ : trimSpace password ≠ "" := fun h => hb (.inr h)
  simp only [if_neg hb, Bool.false_eq_true, if_false]
  rcases hq : getUserAuthByEmailQuery dbLower users (emailKey lower email) with _ | row
  · exact .inr ⟨fun ⟨_, _, _, h, _⟩ => (nomatch h), rfl⟩
  by_cases hc : row.status ≠ "active" ∨ ¬compare row.passwordHash password
  · refine .inr ⟨fun ⟨_, _, r, h, hs, hp⟩ => ?_, if_pos hc⟩
    cases h
    exact hc.elim (absurd hs) (absurd hp)
  · obtain ⟨token, ht⟩ := hsign (uuidText row.id)
    refine .inl ⟨h₁, h₂, row, token, rfl, ?_, ?_, ht, by simp only [if_neg hc, ht]⟩ <;> simp_all

/-- **A failed login is answered the same, whatever the relation `users` holds.** When the query and `Sign` do not
fail, a request the handler does not answer `200` gets an answer that depends on the request alone: `400` for a body
that does not decode or a blank e-mail or password, and otherwise `401` "invalid email or password", whether no user
has the e-mail, the user is not active, or the password is wrong. -/
theorem authLoginHandle_uniform (parseBody : List UInt8 → Option (String × String)) (body : List UInt8)
    (hsign : ∀ s, ∃ t, sign s = .ok t) (users₁ users₂ : Users)
    (h₁ : (authLoginHandle lower dbLower compare sign parseBody false users₁ body).1 ≠ 200)
    (h₂ : (authLoginHandle lower dbLower compare sign parseBody false users₂ body).1 ≠ 200) :
    authLoginHandle lower dbLower compare sign parseBody false users₁ body =
      authLoginHandle lower dbLower compare sign parseBody false users₂ body := by
  unfold authLoginHandle at h₁ h₂ ⊢
  rcases hp : parseBody body with _ | ⟨email, password⟩
  · rfl
  simp only [hp] at h₁ h₂ ⊢
  split_ifs at h₁ h₂ ⊢ with hb
  · rfl
  rcases @login_cases lower dbLower compare sign users₁ email password hsign with ⟨-, -, _, _, -, -, -, -, e₁⟩ | ⟨-, e₁⟩ <;>
    rw [e₁] at h₁ ⊢
  · exact absurd rfl h₁
  rcases @login_cases lower dbLower compare sign users₂ email password hsign with ⟨-, -, _, _, -, -, -, -, e₂⟩ | ⟨-, e₂⟩ <;>
    rw [e₂] at h₂ ⊢
  · exact absurd rfl h₂

end Login

/-- A user `alice@example.com` whose stored hash is `hash:secret`, the only user of `sampleUsers`. -/
def sampleAlice : User := ⟨seedWallet.userID, "alice@example.com", "hash:secret", "active"⟩

def sampleUsers : Users := ⟨[sampleAlice], by decide, by decide⟩

def sampleCompare (hash password : String) : Bool := hash = "hash:" ++ password

def sampleSign (subject : String) : Except String String := .ok ("token:" ++ subject)

/-- The database's `lower()` of the samples, on ASCII as Go's. -/
def sampleDbLower : String → String := toLower Char.toLower

/-- A login as `Alice@Example.com` with a wrong password is answered as one with no user at all. -/
theorem sample_login_uniform :
    (authLoginHandle Char.toLower sampleDbLower sampleCompare sampleSign
      (fun _ => some ("Alice@Example.com", "wrong")) false sampleUsers []).1 ≠ 200 ∧
    (authLoginHandle Char.toLower sampleDbLower sampleCompare sampleSign
      (fun _ => some ("Alice@Example.com", "wrong")) false ⟨[], by decide, by decide⟩ []).1 ≠ 200 ∧
    authLoginHandle Char.toLower sampleDbLower sampleCompare sampleSign (fun _ => some ("Alice@Example.com", "wrong"))
        false sampleUsers [] =
      authLoginHandle Char.toLower sampleDbLower sampleCompare sampleSign
        (fun _ => some ("Alice@Example.com", "wrong")) false ⟨[], by decide, by decide⟩ [] :=
  ⟨by decide, by decide, authLoginHandle_uniform (fun _ => some ("Alice@Example.com", "wrong")) []
    (fun s => ⟨_, rfl⟩) sampleUsers ⟨[], by decide, by decide⟩ (by decide) (by decide)⟩

/-- Alice, the only user of `sampleUsers`, logs in with her stored e-mail and her password. -/
theorem sample_login_of_row :
    sampleAlice ∈ sampleUsers.rows ∧
    sampleDbLower sampleAlice.email = emailKey Char.toLower sampleAlice.email ∧
    (∀ v ∈ sampleUsers.rows, sampleDbLower v.email = emailKey Char.toLower sampleAlice.email → v = sampleAlice) ∧
    emailKey Char.toLower sampleAlice.email ≠ "" ∧
    trimSpace "secret" ≠ "" ∧ sampleAlice.status = "active" ∧ sampleCompare sampleAlice.passwordHash "secret" = true ∧
    sampleSign (uuidText sampleAlice.id) = .ok ("token:" ++ uuidText sampleAlice.id) ∧
    login Char.toLower sampleDbLower sampleCompare sampleSign false sampleUsers sampleAlice.email "secret" =
      .ok ⟨"token:" ++ uuidText sampleAlice.id, "Bearer"⟩ :=
  ⟨.head _, by decide, by decide, by decide, by decide, rfl, by decide, rfl,
    login_of_row (.head _) (by decide) (by decide) (by decide) (by decide) rfl (by decide) rfl⟩

end WithdrawApi
