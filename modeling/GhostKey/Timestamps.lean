import GhostKey.Foundation.Decimal

/-!
# Timestamps Compared as Texts

The scheduler, the poller and the spend reporter let SQLite and Rust compare the texts of
timestamp columns. The texts come from chrono's `to_rfc3339`, whose fractions have none,
three, six or nine digits and whose years beyond 9999 carry a sign, and, in rows older
than the claim gate, from SQLite's `datetime`, which puts a space where RFC 3339 has a `T`.

Main results:
- `fraction_lt_iff`: the digits a fraction is written with do not disturb the order.
- `inOrder_iff`: two timestamps sort by text as they do by time exactly where their years
  do, and a backfilled one is no later than one of the same day.
- `not_inOrder`: a far deadline, which sorts before the present.
-/

namespace GhostKey.Timestamps

open Foundation.Decimal

abbrev Text := List Char

/-! ## §1 Date-times -/

/-- A leap year of the proleptic Gregorian calendar. -/
def isLeapYear (year : Int) : Bool := year % 4 = 0 && (year % 100 ≠ 0 || year % 400 = 0)

def daysInMonth (year : Int) (month : Nat) : Nat :=
  if month = 2 then if isLeapYear year then 29 else 28
  else if month = 4 ∨ month = 6 ∨ month = 9 ∨ month = 11 then 30
  else 31

/-- A `DateTime<Utc>` as chrono keeps it: the date, the second of the day and the
nanoseconds, which run on to two seconds where a minute ends in a leap second. -/
structure DateTime where
  year : Int
  month : Nat
  day : Nat
  secs : Nat
  frac : Nat
  year_range : -262143 ≤ year ∧ year ≤ 262142
  month_range : 1 ≤ month ∧ month ≤ 12
  day_range : 1 ≤ day ∧ day ≤ daysInMonth year month
  secs_range : secs < 86400
  frac_range : frac < 2000000000 ∧ (1000000000 ≤ frac → secs % 60 = 59)
  deriving DecidableEq

namespace DateTime

/-- `impl Ord for DateTime`. -/
def Before (t u : DateTime) : Prop :=
  t.year < u.year ∨ t.year = u.year ∧ (t.month < u.month ∨ t.month = u.month ∧
    (t.day < u.day ∨ t.day = u.day ∧ (t.secs < u.secs ∨ t.secs = u.secs ∧ t.frac < u.frac)))

instance (t u : DateTime) : Decidable (t.Before u) :=
  inferInstanceAs (Decidable (_ ∨ _ ∧ (_ ∨ _ ∧ (_ ∨ _ ∧ (_ ∨ _ ∧ _)))))

/-- The second of the minute as it is written: 60 in a leap second. -/
def second (t : DateTime) : Nat := t.secs % 60 + t.frac / 1000000000

/-- The nanoseconds of the written second. -/
def nano (t : DateTime) : Nat := t.frac % 1000000000

end DateTime

/-! ## §2 The two formats -/

/-- The digits of a year beyond 9999, at least four. -/
def yearWidth (year : Int) : Nat :=
  if year.natAbs < 10000 then 4 else if year.natAbs < 100000 then 5 else 6

/-- The year, `{:+05}` beyond four digits. -/
def yearText (year : Int) : Text :=
  if 0 ≤ year ∧ year ≤ 9999 then digits 4 year.natAbs
  else (if 0 ≤ year then '+' else '-') :: digits (yearWidth year) year.natAbs

/-- `SecondsFormat::AutoSi`. -/
def fraction (nano : Nat) : Text :=
  if nano = 0 then []
  else if nano % 1000000 = 0 then '.' :: digits 3 (nano / 1000000)
  else if nano % 1000 = 0 then '.' :: digits 6 (nano / 1000)
  else '.' :: digits 9 nano

/-- The offset of `Utc`. -/
def utc : Text := ['+', '0', '0', ':', '0', '0']

/-- Month and day, then `c`, then the time of day up to the second. -/
def DateTime.dayAndTime (t : DateTime) (c : Char) (rest : Text) : Text :=
  digits 2 t.month ++ '-' :: (digits 2 t.day ++ c :: (digits 2 (t.secs / 3600) ++
    ':' :: (digits 2 (t.secs / 60 % 60) ++ ':' :: (digits 2 t.second ++ rest))))

/-- `DateTime::to_rfc3339`. -/
def DateTime.toRfc3339 (t : DateTime) : Text :=
  yearText t.year ++ '-' :: t.dayAndTime 'T' (fraction t.nano ++ utc)

/-- The text of SQLite's `datetime` function. -/
def DateTime.datetime (t : DateTime) : Text :=
  yearText t.year ++ '-' :: t.dayAndTime ' ' []

/-- What a timestamp column holds: what the server wrote, or, in `claim_eligible_at`, what
the migration filled in. SQLite's `datetime` is NULL outside the years 0 to 9999. -/
inductive Stamp where
  | written (t : DateTime)
  | backfilled (t : DateTime) (years : 0 ≤ t.year ∧ t.year ≤ 9999) (whole : t.frac = 0)
  deriving DecidableEq

namespace Stamp

def time : Stamp → DateTime
  | written t => t
  | backfilled t _ _ => t

def text : Stamp → Text
  | written t => t.toRfc3339
  | backfilled t _ _ => t.datetime

/-- The two timestamps sort by their texts as they do by time. -/
def InOrder (a b : Stamp) : Prop :=
  (a.text < b.text ↔ a.time.Before b.time) ∧ (b.text < a.text ↔ b.time.Before a.time)

end Stamp

/-! ## §3 The time of day -/

section TimeOfDay

variable {r s : Text}

/-- The fraction and the offset by groups of three digits, up to the last group that counts. -/
def groups : Nat → Nat → Text
  | 0, _ => utc
  | k + 1, n => if n = 0 then utc else digits 3 (n / 1000 ^ k) ++ groups k (n % 1000 ^ k)

theorem lt_iff_div_mod (n m d : Nat) : n < m ↔ n / d < m / d ∨ n / d = m / d ∧ n % d < m % d := by
  have whole_n := Nat.div_add_mod n d
  have whole_m := Nat.div_add_mod m d
  constructor
  · intro lt
    rcases Nat.lt_or_eq_of_le (Nat.div_le_div_right (c := d) (Nat.le_of_lt lt)) with less | same
    · exact .inl less
    · rw [same] at whole_n
      exact .inr ⟨same, by omega⟩
  · rintro (less | ⟨same, less⟩)
    · by_contra above
      exact absurd (Nat.div_le_div_right (c := d) (Nat.not_lt.1 above)) (Nat.not_le.2 less)
    · rw [same] at whole_n
      omega

/-- The offset sorts below the digits of a further group. -/
theorem groups_lt_iff {k n m : Nat} (hn : n < 1000 ^ k) (hm : m < 1000 ^ k) :
    groups k n < groups k m ↔ n < m := by
  induction k generalizing n m with
  | zero =>
    rw [pow_zero, Nat.lt_one_iff] at hn hm
    simp [groups, hn, hm]
  | succ k ih =>
    have pos : 0 < 1000 ^ k := Nat.pow_pos (by decide)
    have small : ∀ {x : Nat}, x < 1000 ^ (k + 1) → x / 1000 ^ k < 10 ^ 3 := by
      intro x hx
      rw [Nat.div_lt_iff_lt_mul pos, show 10 ^ 3 = 1000 from rfl, ← pow_succ']
      exact hx
    rw [groups, groups]
    -- where one is zero its text turns to the offset
    by_cases n_zero : n = 0 <;> by_cases m_zero : m = 0
    · simp [n_zero, m_zero]
    · obtain ⟨c, rest, head, above⟩ := digits_head (by decide : 0 < 3) (m / 1000 ^ k)
      rw [if_pos n_zero, if_neg m_zero, head, utc, List.cons_append]
      have turn : '+' < c := Char.lt_trans (by decide) above
      have less : n < m := by omega
      simp only [less, iff_true]
      exact cons_lt_cons_of_lt turn
    · obtain ⟨c, rest, head, above⟩ := digits_head (by decide : 0 < 3) (n / 1000 ^ k)
      rw [if_neg n_zero, if_pos m_zero, head, utc, List.cons_append]
      have turn : '+' < c := Char.lt_trans (by decide) above
      have not_less : ¬ n < m := by omega
      simp only [not_less, iff_false]
      exact not_cons_lt_cons_of_lt turn
    · rw [if_neg n_zero, if_neg m_zero, digits_append_lt_iff (small hn) (small hm),
        ih (Nat.mod_lt n pos) (Nat.mod_lt m pos), ← lt_iff_div_mod]

/-- What `AutoSi` writes is the groups that count, behind a point if there is one. -/
theorem fraction_append_utc {n : Nat} :
    fraction n ++ utc = if n = 0 then utc else '.' :: groups 3 n := by
  unfold fraction
  by_cases zero : n = 0
  · simp [zero]
  rw [if_neg zero, if_neg zero]
  simp only [groups, zero, if_false, pow_zero, Nat.div_one, pow_one]
  rw [show 1000 ^ 2 = 1000000 from rfl]
  by_cases millis : n % 1000000 = 0
  · simp only [millis, if_true, List.cons_append]
  rw [if_neg millis, if_neg millis]
  have middle : n % 1000000 / 1000 = n / 1000 % 1000 := by omega
  have low : n % 1000000 % 1000 = n % 1000 := by omega
  have six : digits 6 (n / 1000) = digits 3 (n / 1000000) ++ digits 3 (n / 1000 % 1000) := by
    have split := digits_add 3 3 (n / 1000)
    rw [Nat.div_div_eq_div_mul] at split
    exact split
  by_cases micros : n % 1000 = 0
  · simp only [micros, low, if_true, List.cons_append, middle]
    rw [six, List.append_assoc]
  · have nine : digits 9 n = digits 6 (n / 1000) ++ digits 3 (n % 1000) := digits_add 6 3 n
    simp only [micros, low, if_false, List.cons_append, middle]
    rw [nine, six, List.append_assoc, List.append_assoc]

/-- The digits a fraction is written with do not disturb the order. -/
theorem fraction_lt_iff {n m : Nat} (hn : n < 1000000000) (hm : m < 1000000000) :
    fraction n ++ utc < fraction m ++ utc ↔ n < m := by
  rw [fraction_append_utc, fraction_append_utc]
  by_cases n_zero : n = 0 <;> by_cases m_zero : m = 0
  · simp [n_zero, m_zero]
  · have less : n < m := by omega
    rw [if_pos n_zero, if_neg m_zero]
    simp only [less, iff_true]
    exact cons_lt_cons_of_lt (by decide)
  · have not_less : ¬ n < m := by omega
    rw [if_neg n_zero, if_pos m_zero]
    simp only [not_less, iff_false]
    exact not_cons_lt_cons_of_lt (by decide)
  · rw [if_neg n_zero, if_neg m_zero, cons_lt_cons_same]
    exact groups_lt_iff hn hm

variable {t u : DateTime} {c d : Char}

theorem daysInMonth_lt (year : Int) (month : Nat) : daysInMonth year month < 100 := by
  unfold daysInMonth
  split_ifs <;> decide

/-- All fields of the date and the time are of two digits. -/
theorem DateTime.fields_small (t : DateTime) : t.month < 10 ^ 2 ∧ t.day < 10 ^ 2 ∧
    t.secs / 3600 < 10 ^ 2 ∧ t.secs / 60 % 60 < 10 ^ 2 ∧ t.second < 10 ^ 2 := by
  have month := t.month_range
  have day := t.day_range
  have month_days := daysInMonth_lt t.year t.month
  have secs := t.secs_range
  have frac := t.frac_range
  unfold DateTime.second
  refine ⟨?_, ?_, ?_, ?_, ?_⟩ <;> omega

/-- In one format, the fields decide in their order, and then the rest. -/
theorem dayAndTime_lt_iff : t.dayAndTime c r < u.dayAndTime c s ↔
    t.month < u.month ∨ t.month = u.month ∧ (t.day < u.day ∨ t.day = u.day ∧
      (t.secs / 3600 < u.secs / 3600 ∨ t.secs / 3600 = u.secs / 3600 ∧
        (t.secs / 60 % 60 < u.secs / 60 % 60 ∨ t.secs / 60 % 60 = u.secs / 60 % 60 ∧
          (t.second < u.second ∨ t.second = u.second ∧ r < s)))) := by
  obtain ⟨month, day, hour, minute, second⟩ := t.fields_small
  obtain ⟨month', day', hour', minute', second'⟩ := u.fields_small
  unfold DateTime.dayAndTime
  rw [digits_append_lt_iff month month', cons_lt_cons_same, digits_append_lt_iff day day',
    cons_lt_cons_same, digits_append_lt_iff hour hour', cons_lt_cons_same,
    digits_append_lt_iff minute minute', cons_lt_cons_same, digits_append_lt_iff second second']

/-- In two formats, the letter after the date decides on one day. -/
theorem dayAndTime_lt_of_lt (lt : c < d) : t.dayAndTime c r < u.dayAndTime d s ↔
    t.month < u.month ∨ t.month = u.month ∧ t.day ≤ u.day := by
  obtain ⟨month, day, -⟩ := t.fields_small
  obtain ⟨month', day', -⟩ := u.fields_small
  unfold DateTime.dayAndTime
  rw [digits_append_lt_iff month month', cons_lt_cons_same, digits_append_lt_iff day day',
    iff_true_intro (cons_lt_cons_of_lt lt), and_true, Nat.le_iff_lt_or_eq]

theorem dayAndTime_lt_of_gt (gt : d < c) : t.dayAndTime c r < u.dayAndTime d s ↔
    t.month < u.month ∨ t.month = u.month ∧ t.day < u.day := by
  obtain ⟨month, day, -⟩ := t.fields_small
  obtain ⟨month', day', -⟩ := u.fields_small
  unfold DateTime.dayAndTime
  rw [digits_append_lt_iff month month', cons_lt_cons_same, digits_append_lt_iff day day',
    iff_false_intro (not_cons_lt_cons_of_lt gt), and_false, or_false]

end TimeOfDay

/-! ## §4 The year -/

/-- Of two years, the first of which is the earlier, the text of the first sorts first. -/
def YearsInOrder (y z : Int) : Prop :=
  (0 ≤ z ∧ z ≤ 9999) ∨
  (9999 < y ∧ y.natAbs ≤ z.natAbs / 10 ^ (yearWidth z - yearWidth y)) ∨
  (z < 0 ∧ y.natAbs / 10 ^ (yearWidth y - yearWidth z) < z.natAbs)

section Years

variable {r s : Text} {y z : Int}

theorem append_lt_append_same (p : Text) : p ++ r < p ++ s ↔ r < s := by
  induction p with
  | nil => rfl
  | cons c p ih => rw [List.cons_append, List.cons_append, cons_lt_cons_same, ih]

theorem natAbs_lt_of_width (range : -262143 ≤ y ∧ y ≤ 262142) : y.natAbs < 10 ^ yearWidth y := by
  unfold yearWidth
  split_ifs <;> omega

theorem yearWidth_mono (le : y.natAbs ≤ z.natAbs) : yearWidth y ≤ yearWidth z := by
  unfold yearWidth
  split_ifs <;> omega

/-- Behind the sign, a year that is not wider sorts first if it is at most the other's front. -/
theorem digits_year_lt_iff (hy : -262143 ≤ y ∧ y ≤ 262142) (hz : -262143 ≤ z ∧ z ≤ 262142)
    (less : y.natAbs < z.natAbs) :
    digits (yearWidth y) y.natAbs ++ '-' :: r < digits (yearWidth z) z.natAbs ++ '-' :: s ↔
      y.natAbs ≤ z.natAbs / 10 ^ (yearWidth z - yearWidth y) := by
  have small_y := natAbs_lt_of_width hy
  have small_z := natAbs_lt_of_width hz
  obtain ⟨b, wide⟩ := Nat.exists_eq_add_of_le (yearWidth_mono (Nat.le_of_lt less))
  rw [wide] at small_z ⊢
  rw [Nat.add_sub_cancel_left]
  cases b with
  | zero =>
    rw [Nat.add_zero] at small_z ⊢
    rw [digits_append_lt_iff small_y small_z, pow_zero, Nat.div_one]
    simp [less, Nat.le_of_lt less]
  | succ b => exact short_lt_long_iff (Nat.succ_pos b) (by decide) small_y small_z

/-- The same with the wider year first. -/
theorem digits_year_gt_iff (hy : -262143 ≤ y ∧ y ≤ 262142) (hz : -262143 ≤ z ∧ z ≤ 262142)
    (more : z.natAbs < y.natAbs) :
    digits (yearWidth y) y.natAbs ++ '-' :: r < digits (yearWidth z) z.natAbs ++ '-' :: s ↔
      y.natAbs / 10 ^ (yearWidth y - yearWidth z) < z.natAbs := by
  have small_y := natAbs_lt_of_width hy
  have small_z := natAbs_lt_of_width hz
  obtain ⟨b, wide⟩ := Nat.exists_eq_add_of_le (yearWidth_mono (Nat.le_of_lt more))
  rw [wide] at small_y ⊢
  rw [Nat.add_sub_cancel_left]
  cases b with
  | zero =>
    rw [Nat.add_zero] at small_y ⊢
    have not_less : ¬ y.natAbs < z.natAbs := by omega
    have other : y.natAbs ≠ z.natAbs := by omega
    rw [digits_append_lt_iff small_y small_z, pow_zero, Nat.div_one]
    simp [not_less, other]
  | succ b => exact long_lt_short_iff (Nat.succ_pos b) (by decide) small_z small_y

/-- The three kinds of year texts. -/
theorem yearText_plain (plain : 0 ≤ y ∧ y ≤ 9999) : yearText y = digits 4 y.natAbs := if_pos plain

theorem yearText_far (far : 9999 < y) :
    yearText y = '+' :: digits (yearWidth y) y.natAbs := by
  unfold yearText
  rw [if_neg (by omega), if_pos (by omega)]

theorem yearText_negative (negative : y < 0) :
    yearText y = '-' :: digits (yearWidth y) y.natAbs := by
  unfold yearText
  rw [if_neg (by omega), if_neg (by omega)]

/-- A sign sorts below the digits. -/
theorem signed_lt_plain {c : Char} {p : Text} (below : c < '/') (n : Nat) :
    (c :: p) ++ '-' :: r < digits 4 n ++ '-' :: s ∧
      ¬ digits 4 n ++ '-' :: s < (c :: p) ++ '-' :: r := by
  obtain ⟨d, rest, head, above⟩ := digits_head (by decide : 0 < 4) n
  rw [head]
  have lt : c < d := Char.lt_trans below above
  exact ⟨cons_lt_cons_of_lt lt, not_cons_lt_cons_of_lt lt⟩

/-- Different years decide, whatever follows them. -/
theorem yearText_lt_iff (hy : -262143 ≤ y ∧ y ≤ 262142) (hz : -262143 ≤ z ∧ z ≤ 262142)
    (earlier : y < z) :
    yearText y ++ '-' :: r < yearText z ++ '-' :: s ↔ YearsInOrder y z := by
  unfold YearsInOrder
  rcases Int.lt_or_le z 0 with z_negative | z_positive
  · -- both before the year 0, where the later year has the smaller number
    have y_negative : y < 0 := by omega
    have more : z.natAbs < y.natAbs := by omega
    rw [yearText_negative y_negative, yearText_negative z_negative, List.cons_append,
      List.cons_append, cons_lt_cons_same, digits_year_gt_iff hy hz more]
    constructor
    · intro front
      exact .inr (.inr ⟨z_negative, front⟩)
    · rintro (plain | far | ⟨-, front⟩)
      · omega
      · omega
      · exact front
  -- from here on the later year is not before the year 0
  rcases Int.lt_or_le 9999 z with z_far | z_plain
  · rw [yearText_far z_far]
    rcases Int.lt_or_le 9999 y with y_far | y_below
    · have less : y.natAbs < z.natAbs := by omega
      rw [yearText_far y_far, List.cons_append, List.cons_append, cons_lt_cons_same,
        digits_year_lt_iff hy hz less]
      constructor
      · intro front
        exact .inr (.inl ⟨y_far, front⟩)
      · rintro (plain | ⟨-, front⟩ | negative)
        · omega
        · exact front
        · omega
    · -- the plus sign sorts below every other first letter
      have after :
          ¬ yearText y ++ '-' :: r < ('+' :: digits (yearWidth z) z.natAbs) ++ '-' :: s := by
        rcases Int.lt_or_le y 0 with y_negative | y_positive
        · rw [yearText_negative y_negative]
          exact not_cons_lt_cons_of_lt (by decide)
        · rw [yearText_plain ⟨y_positive, y_below⟩]
          exact (signed_lt_plain (by decide) _).2
      rw [iff_false_intro after, false_iff]
      omega
  -- four plain digits come after a minus sign and after smaller digits
  · have plain : 0 ≤ z ∧ z ≤ 9999 := ⟨z_positive, z_plain⟩
    have before : yearText y ++ '-' :: r < yearText z ++ '-' :: s := by
      rw [yearText_plain plain]
      rcases Int.lt_or_le y 0 with y_negative | y_positive
      · rw [yearText_negative y_negative]
        exact (signed_lt_plain (by decide) _).1
      · have small : y.natAbs < 10 ^ 4 ∧ z.natAbs < 10 ^ 4 := by omega
        rw [yearText_plain ⟨y_positive, by omega⟩, digits_append_lt_iff small.1 small.2]
        omega
    exact iff_of_true before (.inl plain)

end Years

/-! ## §5 Two timestamps -/

/-- Whichever year is the earlier, its text sorts first. -/
def YearsOrdered (y z : Int) : Prop := (y < z → YearsInOrder y z) ∧ (z < y → YearsInOrder z y)

def SameDay (t u : DateTime) : Prop := t.year = u.year ∧ t.month = u.month ∧ t.day = u.day

/-- The years are in order, and a backfilled timestamp lies before a written one of the
same day. -/
def Ordered : Stamp → Stamp → Prop
  | .written t, .written u => YearsOrdered t.year u.year
  | .backfilled _ _ _, .backfilled _ _ _ => True
  | .backfilled t _ _, .written u => YearsOrdered t.year u.year ∧ (SameDay t u → t.Before u)
  | .written t, .backfilled u _ _ => YearsOrdered u.year t.year ∧ (SameDay u t → u.Before t)

section Stamps

variable {a b : Stamp} {t u : DateTime}

theorem YearsOrdered.symm {y z : Int} (ordered : YearsOrdered y z) : YearsOrdered z y :=
  ⟨ordered.2, ordered.1⟩

theorem Stamp.InOrder.symm (inOrder : a.InOrder b) : b.InOrder a := ⟨inOrder.2, inOrder.1⟩

theorem before_asymm (before : t.Before u) : ¬ u.Before t := by
  unfold DateTime.Before at *
  omega

/-- What stands behind the year of a timestamp. -/
def Stamp.rest : Stamp → Text
  | written t => t.dayAndTime 'T' (fraction t.nano ++ utc)
  | backfilled t _ _ => t.dayAndTime ' ' []

theorem Stamp.text_eq (a : Stamp) : a.text = yearText a.time.year ++ '-' :: a.rest := by
  cases a <;> rfl

/-- Timestamps of different years. -/
theorem inOrder_of_years (earlier : a.time.year < b.time.year) :
    a.InOrder b ↔ YearsInOrder a.time.year b.time.year := by
  have years := yearText_lt_iff (r := a.rest) (s := b.rest) a.time.year_range
    b.time.year_range earlier
  rw [← Stamp.text_eq, ← Stamp.text_eq] at years
  have before : a.time.Before b.time := .inl earlier
  have not_after : ¬ b.time.Before a.time := before_asymm before
  rw [← years]
  constructor
  · intro inOrder
    exact inOrder.1.2 before
  · intro less
    exact ⟨iff_of_true less before, iff_of_false (List.lt_asymm less) not_after⟩

/-- Timestamps of one year. -/
theorem text_lt_iff_rest (same : a.time.year = b.time.year) :
    a.text < b.text ↔ a.rest < b.rest := by
  rw [Stamp.text_eq, Stamp.text_eq, same, append_lt_append_same, cons_lt_cons_same]

theorem written_lt_iff (same : t.year = u.year) :
    t.toRfc3339 < u.toRfc3339 ↔ t.Before u := by
  have rest := text_lt_iff_rest (a := .written t) (b := .written u) same
  have nano : t.nano < 1000000000 ∧ u.nano < 1000000000 :=
    ⟨Nat.mod_lt _ (by decide), Nat.mod_lt _ (by decide)⟩
  have times := t.frac_range
  have times' := u.frac_range
  refine rest.trans ?_
  unfold Stamp.rest
  rw [dayAndTime_lt_iff, fraction_lt_iff nano.1 nano.2]
  unfold DateTime.Before DateTime.second DateTime.nano
  omega

theorem backfilled_lt_iff (same : t.year = u.year) (whole : t.frac = 0) (whole' : u.frac = 0) :
    t.dayAndTime ' ' [] < u.dayAndTime ' ' [] ↔ t.Before u := by
  rw [dayAndTime_lt_iff, iff_false_intro (List.not_lt_nil []), and_false, or_false]
  unfold DateTime.Before DateTime.second
  omega

/-- In one year a backfilled text sorts before the written ones of its day. -/
theorem mixed_inOrder_iff {years : 0 ≤ t.year ∧ t.year ≤ 9999} {whole : t.frac = 0}
    (same : t.year = u.year) :
    (Stamp.backfilled t years whole).InOrder (.written u) ↔ (SameDay t u → t.Before u) := by
  have forth := text_lt_iff_rest (a := .backfilled t years whole) (b := .written u) same
  have back := text_lt_iff_rest (a := .written u) (b := .backfilled t years whole) same.symm
  unfold Stamp.InOrder
  rw [forth, back]
  simp only [Stamp.rest, Stamp.time]
  rw [dayAndTime_lt_of_lt (by decide), dayAndTime_lt_of_gt (by decide)]
  unfold SameDay DateTime.Before
  constructor
  · rintro ⟨sooner, -⟩ ⟨-, month, day⟩
    exact sooner.1 (.inr ⟨month, Nat.le_of_eq day⟩)
  · intro sooner
    by_cases day : t.month = u.month ∧ t.day = u.day
    · have before := sooner ⟨same, day⟩
      constructor <;> omega
    · constructor <;> omega

theorem Ordered.symm (ordered : Ordered a b) : Ordered b a := by
  cases a with
  | written t =>
    cases b with
    | written u => exact YearsOrdered.symm ordered
    | backfilled u years whole => exact ordered
  | backfilled t years whole =>
    cases b with
    | written u => exact ordered
    | backfilled u years' whole' => trivial

/-- Between different years it is the years that count. -/
theorem ordered_of_years (earlier : a.time.year < b.time.year) :
    Ordered a b ↔ YearsInOrder a.time.year b.time.year := by
  have one_way : ∀ {y z : Int}, y < z → (YearsOrdered y z ↔ YearsInOrder y z) := by
    intro y z lt
    exact ⟨fun ordered => ordered.1 lt, fun inOrder => ⟨fun _ => inOrder, fun gt => by omega⟩⟩
  cases a with
  | written t =>
    cases b with
    | written u => exact one_way earlier
    | backfilled u years whole =>
      have plain : YearsInOrder t.year u.year := .inl years
      refine iff_of_true ⟨((one_way earlier).2 plain).symm, ?_⟩ plain
      rintro ⟨year, -⟩
      exact absurd year (ne_of_gt earlier)
  | backfilled t years whole =>
    cases b with
    | written u =>
      constructor
      · rintro ⟨ordered, -⟩
        exact ordered.1 earlier
      · intro inOrder
        refine ⟨(one_way earlier).2 inOrder, ?_⟩
        rintro ⟨year, -⟩
        exact absurd year (ne_of_lt earlier)
    | backfilled u years' whole' => exact iff_of_true trivial (.inl years')

/-- Within one year the formats count. -/
theorem inOrder_iff_of_year (same : a.time.year = b.time.year) : a.InOrder b ↔ Ordered a b := by
  have ordered : YearsOrdered a.time.year b.time.year := by
    rw [same]
    exact ⟨fun lt => absurd lt (lt_irrefl _), fun lt => absurd lt (lt_irrefl _)⟩
  -- the two forms are compared with their own kind and with the other
  cases a with
  | written t =>
    cases b with
    | written u => exact iff_of_true ⟨written_lt_iff same, written_lt_iff same.symm⟩ ordered
    | backfilled u years whole =>
      have mixed : (Stamp.backfilled u years whole).InOrder (.written t) ↔ _ :=
        mixed_inOrder_iff same.symm
      constructor
      · intro inOrder
        exact ⟨ordered.symm, mixed.1 inOrder.symm⟩
      · rintro ⟨-, sooner⟩
        exact (mixed.2 sooner).symm
  | backfilled t years whole =>
    cases b with
    | written u =>
      have mixed : (Stamp.backfilled t years whole).InOrder (.written u) ↔ _ :=
        mixed_inOrder_iff same
      exact mixed.trans ⟨fun sooner => ⟨ordered, sooner⟩, And.right⟩
    | backfilled u years' whole' =>
      have forth := text_lt_iff_rest (a := .backfilled t years whole)
        (b := .backfilled u years' whole') same
      have back := text_lt_iff_rest (a := .backfilled u years' whole')
        (b := .backfilled t years whole) same.symm
      exact iff_of_true ⟨forth.trans (backfilled_lt_iff same whole whole'),
        back.trans (backfilled_lt_iff same.symm whole' whole)⟩ trivial

end Stamps

/-- Two timestamps sort by their texts as they do by time exactly where their years do, and a
backfilled one lies before a written one of its day. -/
theorem inOrder_iff (a b : Stamp) : a.InOrder b ↔ Ordered a b := by
  rcases Int.lt_trichotomy a.time.year b.time.year with earlier | same | later
  · rw [inOrder_of_years earlier, ordered_of_years earlier]
  · exact inOrder_iff_of_year same
  · have swapped := (inOrder_of_years later).trans (ordered_of_years later).symm
    constructor
    · intro inOrder
      exact (swapped.1 inOrder.symm).symm
    · intro ordered
      exact (swapped.2 ordered.symm).symm

/-! ## §6 Texts out of order -/

/-- The deadline of a vault with a check-in period of some 8000 years. -/
def farDeadline : DateTime where
  year := 10026
  month := 1
  day := 1
  secs := 0
  frac := 0
  year_range := by decide
  month_range := by decide
  day_range := by decide
  secs_range := by decide
  frac_range := by decide

/-- A tick of the scheduler. -/
def tick : DateTime :=
  { farDeadline with year := 2026, year_range := by decide, day_range := by decide }

/-- The far deadline has passed, if one reads its text. -/
theorem not_inOrder : ¬ ∀ a b : Stamp, a.InOrder b := by
  intro holds
  have sorts := (holds (.written farDeadline) (.written tick)).1
  have text : (Stamp.written farDeadline).text < (Stamp.written tick).text := by decide
  exact absurd (sorts.1 text) (by decide)

end GhostKey.Timestamps
