import Mathlib.Algebra.Order.Field.Basic
import Mathlib.Algebra.Order.Field.Rat
import Mathlib.Data.List.Basic
import Mathlib.Data.List.Infix
import Mathlib.Data.List.MinMax
import Mathlib.Data.List.Nodup
import Mathlib.Data.Rat.Cast.Order
import Mathlib.Logic.Function.Basic
import Mathlib.Tactic.FieldSimp
import Mathlib.Tactic.Linarith

/-!
# Values of the withdraw path

The scalar values the withdraw code computes with, as Go and PostgreSQL define them.

- `Int64` is Go's `int64` and PostgreSQL's `bigint`: an integer that carries its range. Go's negation wraps
  (`Int64.neg`); PostgreSQL's `bigint` arithmetic raises "bigint out of range" instead (`Int64.ofInt?`,
  `Int64.sub?`, `Int64.add?`).
- `isSpace` and `trimSpace` are Go's `unicode.IsSpace` and `strings.TrimSpace`; `trimSpace_prefix` trims a string
  behind a prefix that starts and ends with a non-space, and `trimSpace_eq_self` leaves a string without spaces.
- `uuidParse` is `uuid.Parse` of `github.com/google/uuid`.
- `varchar` and `bpchar` store a string into a `varchar(n)` or `char(n)` column; `bpcharEq` compares `char(n)`
  values, where trailing blanks do not count. A string without a trailing blank (`NoTrailingBlank`), such as the
  result of `trimSpace`, is stored as itself (`varchar_eq_self`, `bpchar_eq_self`, `bpcharEq_bpchar`).
- `timestamptz` is a time as `pgx` stores it, in whole microseconds; `int4` is a Go `int` bound to `integer`.

Times are nanoseconds since the epoch (`Nat`); durations are Go's `time.Duration`, nanoseconds (`Int`).
-/

namespace WithdrawApi

/-! ## `int64` and `bigint` -/

/-- Go's `int64`, and PostgreSQL's `bigint`. -/
structure Int64 where
  val : Int
  ge : -2 ^ 63 ≤ val
  lt : val < 2 ^ 63
deriving DecidableEq

namespace Int64

/-- A `bigint` result: PostgreSQL raises "bigint out of range" outside `[-2^63, 2^63)`. -/
def ofInt? (x : Int) : Option Int64 :=
  if h : -2 ^ 63 ≤ x ∧ x < 2 ^ 63 then some ⟨x, h.1, h.2⟩ else none

/-- `x - y` on `bigint`. -/
def sub? (x y : Int64) : Option Int64 := ofInt? (x.val - y.val)

/-- `x + y` on `bigint`. -/
def add? (x y : Int64) : Option Int64 := ofInt? (x.val + y.val)

/-- Go's `-x` on `int64`: two's complement, so `-(-2^63)` is `-2^63`. -/
def neg (x : Int64) : Int64 :=
  if h : x.val = -2 ^ 63 then x else ⟨-x.val, by have := x.lt; omega, by have := x.ge; omega⟩

/-- The `int64` constant `1`. -/
def one : Int64 := ⟨1, by decide, by decide⟩

theorem ext {x y : Int64} (h : x.val = y.val) : x = y := by
  cases x; cases y; cases h; rfl

theorem ofInt?_val {x : Int} {y : Int64} (h : ofInt? x = some y) : y.val = x := by
  unfold ofInt? at h
  split at h
  · cases h; rfl
  · cases h

theorem ofInt?_isSome {x : Int} (h1 : -2 ^ 63 ≤ x) (h2 : x < 2 ^ 63) : (ofInt? x).isSome := by
  simp only [ofInt?, dif_pos (And.intro h1 h2), Option.isSome_some]

theorem ofInt?_eq_none_iff {x : Int} : ofInt? x = none ↔ ¬(-2 ^ 63 ≤ x ∧ x < 2 ^ 63) := by
  unfold ofInt?
  split
  · rename_i h; exact iff_of_false (Option.some_ne_none _) (not_not.mpr h)
  · rename_i h; exact iff_of_true rfl h

/-- Negating a positive `int64` does not wrap. -/
theorem neg_val {x : Int64} (h : 0 < x.val) : (neg x).val = -x.val := by
  unfold neg
  rw [dif_neg (by omega)]

/-- `x - y` does not leave `bigint` when `0 < y ≤ x`. -/
theorem sub?_isSome {x y : Int64} (hy : 0 < y.val) (h : y.val ≤ x.val) : (sub? x y).isSome :=
  ofInt?_isSome (by omega) (by have := x.lt; omega)

end Int64

/-! ## Strings -/

/-- Go's `unicode.IsSpace`: the Latin-1 spaces and the other code points of Unicode's `White_Space`. -/
def isSpace (c : Char) : Bool :=
  c = '\t' || c = '\n' || c = '\x0b' || c = '\x0c' || c = '\r' || c = ' ' || c.val = 0x85 || c.val = 0xA0 ||
    c.val = 0x1680 || (0x2000 ≤ c.val && c.val ≤ 0x200A) || c.val = 0x2028 || c.val = 0x2029 ||
    c.val = 0x202F || c.val = 0x205F || c.val = 0x3000

/-- Go's `strings.TrimSpace`. -/
def trimSpace (s : String) : String :=
  ⟨((s.data.dropWhile isSpace).reverse.dropWhile isSpace).reverse⟩

/-- Go's `strings.TrimRightFunc(s, unicode.IsSpace)`. -/
def trimRight (s : String) : String :=
  ⟨(s.data.reverse.dropWhile isSpace).reverse⟩

/-- Go's `strings.ToLower`: `unicode.ToLower` on every character. `unicode.ToLower` is Unicode's simple lower-case
mapping, which Go reads from its tables; it is the parameter `lower`. -/
def toLower (lower : Char → Char) (s : String) : String := ⟨s.data.map lower⟩

theorem dropWhile_isSpace_self {l : List Char} (h : ∀ c ∈ l.head?, isSpace c = false) : l.dropWhile isSpace = l := by
  cases l with
  | nil => rfl
  | cons c l => exact List.dropWhile_cons_of_neg (by simp [h c rfl])

/-- `TrimSpace` leaves a string without spaces as it is. -/
theorem trimSpace_eq_self {s : String} (h : ∀ c ∈ s.data, isSpace c = false) : trimSpace s = s := by
  have hd : ∀ l : List Char, (∀ c ∈ l, isSpace c = false) → l.dropWhile isSpace = l :=
    fun _ hl => dropWhile_isSpace_self fun c hc => hl c (List.mem_of_mem_head? hc)
  show String.mk _ = _
  rw [hd _ h, hd _ fun c hc => h c (List.mem_reverse.mp hc), List.reverse_reverse]

/-- `TrimSpace` of a trimmed string changes nothing. -/
theorem trimSpace_trimSpace (s : String) : trimSpace (trimSpace s) = trimSpace s := by
  set L := s.data.dropWhile isSpace
  set D := L.reverse.dropWhile isSpace
  have hD : ∀ c ∈ D.head?, isSpace c = false := fun c hc => by
    have h := List.head?_dropWhile_not isSpace L.reverse
    rwa [show D.head? = some c from hc] at h
  have hL : ∀ c ∈ D.reverse.head?, isSpace c = false := fun c hc => by
    rw [List.head?_reverse] at hc
    have hne : D ≠ [] := by rintro h; simp [h] at hc
    have hL' : L ≠ [] := by rintro h; simp [D, h] at hne
    have h := List.head?_dropWhile_not isSpace s.data
    rw [List.getLast?_eq_getLast D hne, Option.mem_def, Option.some.injEq] at hc
    rw [show (s.data.dropWhile isSpace).head? = some (L.head hL') from List.head?_eq_head hL'] at h
    rwa [← hc, (List.dropWhile_suffix isSpace).getLast hne, List.getLast_reverse]
  show String.mk ((D.reverse.dropWhile isSpace).reverse.dropWhile isSpace).reverse = String.mk D.reverse
  rw [dropWhile_isSpace_self hL, List.reverse_reverse, dropWhile_isSpace_self hD]

/-- Behind a prefix that starts and ends with a non-space, `TrimSpace` trims only the right end. -/
theorem trimSpace_prefix (pre p : String) (hh : pre.data.dropWhile isSpace = pre.data)
    (hl : pre.data.reverse.dropWhile isSpace = pre.data.reverse) (hne : pre.data ≠ []) :
    trimSpace (pre ++ p) = pre ++ trimRight p := by
  obtain ⟨pre⟩ := pre
  obtain ⟨p⟩ := p
  have h1 : (pre ++ p).dropWhile isSpace = pre ++ p := by
    rw [List.dropWhile_append, hh, if_neg (mt List.isEmpty_iff.mp hne)]
  have h2 : (p.reverse ++ pre.reverse).dropWhile isSpace = p.reverse.dropWhile isSpace ++ pre.reverse := by
    rw [List.dropWhile_append]
    split
    · rename_i h; rw [List.isEmpty_iff.mp h, hl, List.nil_append]
    · rfl
  show String.mk _ = String.mk _
  simp only [String.data_append, h1, List.reverse_append, h2, List.reverse_reverse]

/-! ## UUIDs -/

/-- `uuid.UUID`: sixteen bytes. -/
structure Uuid where
  bits : BitVec 128
deriving DecidableEq

/-- The value of a hexadecimal digit (`xvalues`). -/
def hexVal (c : Char) : Option Nat :=
  if '0' ≤ c ∧ c ≤ '9' then some (c.toNat - '0'.toNat)
  else if 'a' ≤ c ∧ c ≤ 'f' then some (c.toNat - 'a'.toNat + 10)
  else if 'A' ≤ c ∧ c ≤ 'F' then some (c.toNat - 'A'.toNat + 10)
  else none

/-- Hexadecimal digits, most significant first. -/
def hexDigits (l : List Char) : Option Uuid :=
  (l.foldlM (fun acc c => (hexVal c).map (acc * 16 + ·)) 0).map fun n => ⟨BitVec.ofNat 128 n⟩

/-- The dashed form `xxxxxxxx-xxxx-xxxx-xxxx-xxxxxxxxxxxx` in the first 36 characters of `l`. -/
def parseDashed (l : List Char) : Option Uuid :=
  if l[8]? = some '-' ∧ l[13]? = some '-' ∧ l[18]? = some '-' ∧ l[23]? = some '-' then
    hexDigits (l.take 8 ++ (l.drop 9).take 4 ++ (l.drop 14).take 4 ++ (l.drop 19).take 4 ++ (l.drop 24).take 12)
  else none

/-- The bytes of a Go string, its characters in UTF-8. -/
def utf8Bytes (s : String) : List UInt8 := s.data.flatMap String.utf8EncodeChar

/-- `uuid.Parse`, which reads the bytes of its string: the dashed form, the same behind `urn:uuid:` (any case) or
behind one byte with one after it (`{...}`, the braces are not checked), or 32 digits. A byte is read here as the
character of its value, so a byte outside ASCII is no digit and no dash, as in `xvalues`. -/
def uuidParse (s : String) : Option Uuid :=
  let b := (utf8Bytes s).map fun x => Char.ofNat x.toNat
  match b.length with
  | 36 => parseDashed b
  | 45 => if (b.take 9).map Char.toLower = "urn:uuid:".data then parseDashed (b.drop 9) else none
  | 38 => parseDashed (b.drop 1)
  | 32 => hexDigits b
  | _ => none

/-- The bytes of an ASCII string, read back as characters, are its characters. -/
theorem utf8Bytes_ascii {s : String} (h : ∀ c ∈ s.data, c.toNat < 128) :
    (utf8Bytes s).map (fun x => Char.ofNat x.toNat) = s.data := by
  obtain ⟨l⟩ := s
  induction l with
  | nil => rfl
  | cons c l ih =>
    have h128 := h c (.head l)
    have hc : c.val ≤ 0x7f := show c.toNat ≤ 127 by omega
    have hb : Char.ofNat c.val.toUInt8.toNat = c := by
      rw [show c.val.toUInt8.toNat = c.toNat from UInt8.toNat_ofNat_of_lt (show c.toNat < 256 by omega),
        Char.ofNat_toNat]
    simp only [utf8Bytes, List.flatMap_cons, String.utf8EncodeChar, if_pos hc, List.singleton_append, List.map_cons,
      hb] at ih ⊢
    rw [ih fun c' hc' => h c' (.tail c hc')]

/-! ## Column types -/

/-- Storing `s` into a `varchar(n)` column: a longer string raises "value too long", unless the excess characters
are all blanks, which are cut off. -/
def varchar (n : Nat) (s : String) : Option String :=
  if s.length ≤ n then some s else if (s.data.drop n).all (· = ' ') then some ⟨s.data.take n⟩ else none

/-- Storing `s` into a `char(n)` column: as `varchar(n)`, then blank-padded to `n` characters. -/
def bpchar (n : Nat) (s : String) : Option String :=
  (varchar n s).map fun v => ⟨v.data ++ List.replicate (n - v.length) ' '⟩

/-- A string without its trailing blanks. -/
def rtrimBlanks (s : String) : List Char := (s.data.reverse.dropWhile (· = ' ')).reverse

/-- `=` on `char(n)`: trailing blanks do not count. -/
def bpcharEq (a b : String) : Bool := rtrimBlanks a == rtrimBlanks b

theorem varchar_of_le {n : Nat} {s : String} (h : s.length ≤ n) : varchar n s = some s := by
  simp [varchar, h]

/-- `s` does not end in a blank, so `char(n)` and `varchar(n)` have nothing of it to cut or to ignore. -/
def NoTrailingBlank (s : String) : Prop := s.data.getLast? ≠ some ' '

/-- `TrimSpace` leaves no trailing blank. -/
theorem noTrailingBlank_trimSpace (s : String) : NoTrailingBlank (trimSpace s) := by
  intro h
  have hd := List.head?_dropWhile_not isSpace (s.data.dropWhile isSpace).reverse
  simp only [trimSpace, List.getLast?_reverse] at h
  rw [h] at hd
  exact absurd hd (by decide)

/-- A string of exactly `n` characters is stored into `char(n)` as itself. -/
theorem bpchar_of_length {n : Nat} {s : String} (h : s.length = n) : bpchar n s = some s := by
  simp [bpchar, varchar_of_le h.le, h]

/-- Without a trailing blank, a string is stored into `varchar(n)` as itself or not at all. -/
theorem varchar_eq_self {n : Nat} {s v : String} (hs : NoTrailingBlank s) (h : varchar n s = some v) : v = s := by
  unfold varchar at h
  split at h
  · exact (Option.some.inj h).symm
  · rename_i hlen
    split at h
    · rename_i hall
      refine absurd ?_ hs
      have hne : s.data.drop n ≠ [] := by
        simpa [List.drop_eq_nil_iff] using Nat.lt_of_not_le hlen
      obtain ⟨x, hx⟩ := Option.isSome_iff_exists.mp (List.getLast?_isSome.mpr hne)
      have hx' : x = ' ' := by simpa using List.all_eq_true.mp hall x (List.mem_of_mem_getLast? hx)
      rw [List.getLast?_drop, if_neg (show ¬s.data.length ≤ n from hlen)] at hx
      rw [hx, hx']
    · cases h

/-- Without a trailing blank, a string stored into `char(n)` and read back without one is itself. -/
theorem bpchar_eq_self {n : Nat} {s v : String} (hs : NoTrailingBlank s) (hv : NoTrailingBlank v)
    (h : bpchar n s = some v) : v = s := by
  obtain ⟨w, hw, rfl⟩ := Option.map_eq_some'.mp h
  obtain rfl := varchar_eq_self hs hw
  have h0 : n - w.length = 0 := by
    by_contra hne
    exact hv (by simp [List.getLast?_append, List.getLast?_replicate, hne])
  simp [h0]

/-- Dropping trailing blanks from a string without one changes nothing. -/
theorem rtrimBlanks_of_noTrailingBlank {s : String} (hs : NoTrailingBlank s) : rtrimBlanks s = s.data := by
  unfold rtrimBlanks
  unfold NoTrailingBlank at hs
  rw [← List.head?_reverse] at hs
  cases h : s.data.reverse with
  | nil => simpa using (List.reverse_eq_nil_iff.mp h).symm
  | cons x xs =>
    rw [h] at hs
    rw [List.dropWhile_cons_of_neg (by simpa using hs), ← h, List.reverse_reverse]

theorem dropWhile_blanks_append (k : Nat) (l : List Char) :
    (List.replicate k ' ' ++ l).dropWhile (· = ' ') = l.dropWhile (· = ' ') := by
  induction k with
  | zero => rfl
  | succ k ih => rw [List.replicate_succ, List.cons_append, List.dropWhile_cons_of_pos (by simp), ih]

theorem bpcharEq_self (s : String) : bpcharEq s s = true := beq_self_eq_true _

/-- A string without a trailing blank equals, as `char(n)`, what `char(n)` stores of it. -/
theorem bpcharEq_bpchar {n : Nat} {s v : String} (hs : NoTrailingBlank s) (h : bpchar n s = some v) :
    bpcharEq v s = true := by
  obtain ⟨w, hw, rfl⟩ := Option.map_eq_some'.mp h
  obtain rfl := varchar_eq_self hs hw
  show ((w.data ++ List.replicate (n - w.length) ' ').reverse.dropWhile (· = ' ')).reverse == rtrimBlanks w
  rw [List.reverse_append, List.reverse_replicate, dropWhile_blanks_append, rtrimBlanks_of_noTrailingBlank hs]
  exact beq_iff_eq.mpr (rtrimBlanks_of_noTrailingBlank hs)

/-- A time stored into a `timestamptz` column: `pgx` sends whole microseconds, dropping the nanoseconds. -/
def timestamptz (t : Nat) : Nat := t / 1000 * 1000

theorem timestamptz_le (t : Nat) : timestamptz t ≤ t := Nat.div_mul_le_self t 1000

theorem timestamptz_mono {t t' : Nat} (h : t ≤ t') : timestamptz t ≤ timestamptz t' :=
  Nat.mul_le_mul_right 1000 (Nat.div_le_div_right h)

/-- A stored time is stored as it is. -/
@[simp] theorem timestamptz_timestamptz (t : Nat) : timestamptz (timestamptz t) = timestamptz t := by
  unfold timestamptz
  rw [Nat.mul_div_cancel _ (Nat.succ_pos 999)]

/-- A stored time at or before `t` is at or before the stored `t`. -/
theorem le_timestamptz {t t' : Nat} (h : timestamptz t ≤ t') : timestamptz t ≤ timestamptz t' := by
  simpa only [timestamptz_timestamptz] using timestamptz_mono h

/-- A Go `int` bound to an `integer` parameter: outside `int4` it is an error. -/
def int4 (x : Int) : Option Int := if -2 ^ 31 ≤ x ∧ x < 2 ^ 31 then some x else none

theorem int4_eq {x y : Int} (h : int4 x = some y) : y = x := by
  unfold int4 at h
  split at h <;> cases h
  rfl

end WithdrawApi
