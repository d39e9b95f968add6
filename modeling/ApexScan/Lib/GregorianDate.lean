import Mathlib.Data.Nat.Notation
import Mathlib.Tactic.Ring

/-!
# Dates and the texts of dates

A date of the proleptic Gregorian calendar in the years 1 to 9999, and what is read as one.

* `GregorianDate` — a date, which is valid by construction.
* `GregorianDate.text` — its text `YYYY-MM-DD`.
* `GregorianDate.dayNumber` — its number, day 0 being 1970-01-01.
* `fromisoformat` — the ISO texts of dates: `YYYY-MM-DD`, `YYYYMMDD`, and the dates of weeks, with and
  without the hyphens.
* `fromisoformat_text` — the text of a date is read as the date.
* `text_of_fromisoformat` — what is read and is neither `YYYYMMDD` nor the date of a week is the text of
  a date.
-/

set_option autoImplicit false

namespace ApexScan.Lib

/-! ## Dates -/

def isLeap (year : ℕ) : Bool := year % 4 = 0 ∧ (year % 100 ≠ 0 ∨ year % 400 = 0)

def daysInMonth (year month : ℕ) : ℕ :=
  if month = 2 then if isLeap year then 29 else 28
  else if month = 4 ∨ month = 6 ∨ month = 9 ∨ month = 11 then 30
  else 31

/-- A day of the calendar. -/
def ValidDate (year month day : ℕ) : Prop :=
  1 ≤ year ∧ year ≤ 9999 ∧ 1 ≤ month ∧ month ≤ 12 ∧ 1 ≤ day ∧ day ≤ daysInMonth year month

instance (year month day : ℕ) : Decidable (ValidDate year month day) :=
  inferInstanceAs (Decidable (_ ∧ _ ∧ _ ∧ _ ∧ _ ∧ _))

structure GregorianDate where
  year : ℕ
  month : ℕ
  day : ℕ
  valid : ValidDate year month day
  deriving DecidableEq

/-- The date of the numbers, where there is one. -/
def GregorianDate.ofNumbers (year month day : ℕ) : Option GregorianDate :=
  if h : ValidDate year month day then some ⟨year, month, day, h⟩ else none

theorem GregorianDate.ofNumbers_eq_some {year month day : ℕ} {d : GregorianDate} :
    GregorianDate.ofNumbers year month day = some d ↔
      d.year = year ∧ d.month = month ∧ d.day = day := by
  unfold GregorianDate.ofNumbers
  constructor
  · intro h
    split at h
    · cases h
      exact ⟨rfl, rfl, rfl⟩
    · cases h
  · rintro ⟨rfl, rfl, rfl⟩
    rw [dif_pos d.valid]

theorem daysInMonth_le (year month : ℕ) : daysInMonth year month ≤ 31 := by
  unfold daysInMonth
  split
  · split <;> omega
  · split <;> omega

/-! ## Digits -/

def asciiDigit (c : Char) : Option ℕ := if '0' ≤ c ∧ c ≤ '9' then some (c.toNat - 48) else none

/-- `n` in decimal, the last `width` digits. -/
def decimal : ℕ → ℕ → List Char
  | 0, _ => []
  | width + 1, n => decimal width (n / 10) ++ [Nat.digitChar (n % 10)]

/-- `parse_digits`: the number of the next `width` digits after those that were read, and the rest. -/
def readDigits : ℕ → ℕ → List Char → Option (ℕ × List Char)
  | value, 0, cs => some (value, cs)
  | _, _ + 1, [] => none
  | value, width + 1, c :: cs =>
    match asciiDigit c with
    | none => none
    | some digit => readDigits (10 * value + digit) width cs

theorem asciiDigit_digitChar : ∀ d < 10, asciiDigit (Nat.digitChar d) = some d := by decide

theorem asciiDigit_eq_some {c : Char} {d : ℕ} : asciiDigit c = some d ↔ d < 10 ∧ c = Nat.digitChar d := by
  constructor
  · intro h
    unfold asciiDigit at h
    split at h
    · next hrange =>
      have hlow : 48 ≤ c.toNat := hrange.1
      have hhigh : c.toNat ≤ 57 := hrange.2
      obtain rfl := Option.some.inj h
      have hlt : c.toNat - 48 < 10 := by omega
      refine ⟨hlt, Char.toNat_inj.mp ?_⟩
      rw [Nat.toNat_digitChar_of_lt_ten hlt]
      omega
    · cases h
  · rintro ⟨hlt, rfl⟩
    exact asciiDigit_digitChar d hlt

theorem length_decimal (width n : ℕ) : (decimal width n).length = width := by
  induction width generalizing n with
  | zero => rfl
  | succ width ih => rw [decimal, List.length_append, ih, List.length_singleton]

/-- The digits can be read in two goes. -/
theorem readDigits_add (value first second : ℕ) (cs : List Char) :
    readDigits value (first + second) cs =
      (readDigits value first cs).bind fun found => readDigits found.1 second found.2 := by
  induction first generalizing value cs with
  | zero => simp [readDigits]
  | succ first ih =>
    rw [Nat.succ_add]
    cases cs with
    | nil => rfl
    | cons c cs =>
      simp only [readDigits]
      cases asciiDigit c with
      | none => rfl
      | some digit => exact ih _ cs

theorem readDigits_one {value result : ℕ} {cs rest : List Char} :
    readDigits value 1 cs = some (result, rest) ↔
      ∃ d < 10, cs = Nat.digitChar d :: rest ∧ result = 10 * value + d := by
  cases cs with
  | nil => simp [readDigits]
  | cons c cs =>
    simp only [readDigits]
    cases hdigit : asciiDigit c with
    | none =>
      simp only [reduceCtorEq, List.cons.injEq, false_iff]
      rintro ⟨d, hd, ⟨rfl, -⟩, -⟩
      rw [asciiDigit_digitChar d hd] at hdigit
      cases hdigit
    | some digit =>
      obtain ⟨hlt, rfl⟩ := asciiDigit_eq_some.mp hdigit
      simp only [Option.some.injEq, Prod.mk.injEq, List.cons.injEq]
      constructor
      · rintro ⟨rfl, rfl⟩
        exact ⟨digit, hlt, ⟨rfl, rfl⟩, rfl⟩
      · rintro ⟨d, hd, ⟨hchar, rfl⟩, rfl⟩
        rw [hchar, asciiDigit_digitChar d hd, Option.some.injEq] at hdigit
        exact ⟨by rw [hdigit], rfl⟩

/-- **What is read as digits**: the number in decimal. -/
theorem readDigits_eq_some {value width result : ℕ} {cs rest : List Char} :
    readDigits value width cs = some (result, rest) ↔
      ∃ n < 10 ^ width, cs = decimal width n ++ rest ∧ result = 10 ^ width * value + n := by
  induction width generalizing result rest with
  | zero =>
    simp only [readDigits, Option.some.injEq, Prod.mk.injEq, pow_zero, Nat.lt_one_iff, decimal,
      List.nil_append, one_mul, exists_eq_left, add_zero]
    exact ⟨fun h => ⟨h.2, h.1.symm⟩, fun h => ⟨h.2.symm, h.1⟩⟩
  | succ width ih =>
    rw [readDigits_add, Option.bind_eq_some_iff]
    simp only [Prod.exists, ih, readDigits_one]
    constructor
    · rintro ⟨_, _, ⟨n, hn, rfl, rfl⟩, d, hd, rfl, rfl⟩
      refine ⟨10 * n + d, by rw [pow_succ]; omega, ?_, by ring⟩
      rw [decimal, List.append_assoc, List.singleton_append]
      congr 2
      · omega
      · congr 1
        omega
    · rintro ⟨n, hn, rfl, rfl⟩
      rw [pow_succ] at hn
      refine ⟨_, _, ⟨n / 10, by omega, ?_, rfl⟩, n % 10, Nat.mod_lt _ (by decide), rfl, ?_⟩
      · rw [decimal, List.append_assoc, List.singleton_append]
      · have hsplit := Nat.div_add_mod n 10
        calc 10 ^ (width + 1) * value + n = 10 ^ (width + 1) * value + (10 * (n / 10) + n % 10) := by
              rw [hsplit]
          _ = 10 * (10 ^ width * value + n / 10) + n % 10 := by ring

/-! ## Weeks -/

/-- The number of days before a year, counted from the year 1. -/
def daysBeforeYear (year : Int) : Int :=
  (year - 1) * 365 + (year - 1) / 4 - (year - 1) / 100 + (year - 1) / 400

/-- The weekday of the first day of a year, 0 being Monday. -/
def firstWeekday (year : Int) : Int := (daysBeforeYear year + 7) % 7

/-- `iso_week1_monday`: the ordinal of the Monday of the first week, in which the Thursday is in the
    year. -/
def isoWeek1Monday (year : Int) : Int :=
  let monday := daysBeforeYear year + 1 - firstWeekday year
  if 3 < firstWeekday year then monday + 7 else monday

/-- `ord_to_ymd`: the date of an ordinal, 1 being the first day of the year 1. -/
def ofOrdinal (ordinal : Int) : Option GregorianDate :=
  -- counted in 400-year eras from 1 March of the year 0
  let shifted := ordinal + 305
  let dayOfEra := shifted % 146097
  let yearOfEra := (dayOfEra - dayOfEra / 1460 + dayOfEra / 36524 - dayOfEra / 146096) / 365
  let dayOfYear := dayOfEra - (365 * yearOfEra + yearOfEra / 4 - yearOfEra / 100)
  let marchMonth := (5 * dayOfYear + 2) / 153
  let dayOfMonth := dayOfYear - (153 * marchMonth + 2) / 5 + 1
  let month := if marchMonth < 10 then marchMonth + 3 else marchMonth - 9
  let year := yearOfEra + shifted / 146097 * 400 + if month ≤ 2 then 1 else 0
  GregorianDate.ofNumbers year.toNat month.toNat dayOfMonth.toNat

/-- `iso_to_ymd`. -/
def isoToYmd (year week day : ℕ) : Option GregorianDate :=
  let longYear := firstWeekday year = 3 ∨ (firstWeekday year = 2 ∧ isLeap year = true)
  if (1 ≤ week ∧ week ≤ 52 ∨ week = 53 ∧ longYear) ∧ 1 ≤ day ∧ day ≤ 7 then
    ofOrdinal (isoWeek1Monday year + (week - 1) * 7 + day - 1)
  else none

/-! ## The texts -/

/-- The rest after an expected character. -/
def expect (expected : Char) : List Char → Option (List Char)
  | [] => none
  | c :: cs => if c = expected then some cs else none

/-- The rest after the separator, where there are separators. -/
def skipSeparator (usesSeparator : Bool) (cs : List Char) : Option (List Char) :=
  if usesSeparator then expect '-' cs else some cs

/-- The rest of a date after the year and the `W`; what follows the day is not looked at. -/
def parseWeekDate (year : ℕ) (usesSeparator : Bool) (cs : List Char) : Option GregorianDate := do
  let (week, cs) ← readDigits 0 2 cs
  if cs = [] then isoToYmd year week 1
  else
    let cs ← skipSeparator usesSeparator cs
    let (day, _) ← readDigits 0 1 cs
    isoToYmd year week day

/-- The rest of a date after the year. -/
def parseMonthDay (year : ℕ) (usesSeparator : Bool) (cs : List Char) : Option GregorianDate := do
  let (month, cs) ← readDigits 0 2 cs
  let cs ← skipSeparator usesSeparator cs
  let (day, cs) ← readDigits 0 2 cs
  if cs = [] then GregorianDate.ofNumbers year month day else none

/-- `parse_isoformat_date`. -/
def parseIsoformatDate (cs : List Char) : Option GregorianDate := do
  let (year, cs) ← readDigits 0 4 cs
  let usesSeparator : Bool := cs.head? = some '-'
  let cs := if usesSeparator then cs.tail else cs
  if cs.head? = some 'W' then parseWeekDate year usesSeparator cs.tail
  else parseMonthDay year usesSeparator cs

/-- The length of the UTF-8 encoding. -/
def encodedLength (cs : List Char) : ℕ := (cs.map Char.utf8Size).sum

/-- `date.fromisoformat` of Python 3.11. -/
def fromisoformat (text : String) : Option GregorianDate :=
  let length := encodedLength text.toList
  if length = 7 ∨ length = 8 ∨ length = 10 then parseIsoformatDate text.toList else none

/-- `date.isoformat`. -/
def GregorianDate.text (d : GregorianDate) : String :=
  String.ofList (decimal 4 d.year ++ '-' :: (decimal 2 d.month ++ '-' :: decimal 2 d.day))

example : ["2026-01-26", "20260126", "2026-W05-1", "2026W05"].map fromisoformat =
    List.replicate 4 (GregorianDate.ofNumbers 2026 1 26) := by
  decide +kernel

/-- `date.toordinal`, counted from 1970-01-01. -/
def GregorianDate.dayNumber (d : GregorianDate) : Int :=
  daysBeforeYear d.year + ((List.range' 1 (d.month - 1)).map (daysInMonth d.year)).sum + d.day - 719163

example : [GregorianDate.ofNumbers 1970 1 1, GregorianDate.ofNumbers 2000 2 29,
    GregorianDate.ofNumbers 2026 2 6].map (·.map GregorianDate.dayNumber) =
      [some 0, some 11016, some 20490] := by
  decide +kernel

/-! ## What is read -/

theorem readDigits_decimal {width n : ℕ} (h : n < 10 ^ width) (rest : List Char) :
    readDigits 0 width (decimal width n ++ rest) = some (n, rest) :=
  readDigits_eq_some.mpr ⟨n, h, rfl, by rw [Nat.mul_zero, Nat.zero_add]⟩

theorem utf8Size_digitChar : ∀ d < 10, (Nat.digitChar d).utf8Size = 1 := by decide

theorem encodedLength_decimal (width n : ℕ) : encodedLength (decimal width n) = width := by
  induction width generalizing n with
  | zero => rfl
  | succ width ih =>
    have hdigit := utf8Size_digitChar (n % 10) (Nat.mod_lt _ (by decide))
    have hrest := ih (n / 10)
    unfold encodedLength at hrest ⊢
    rw [decimal, List.map_append, List.sum_append, hrest, List.map_singleton, List.sum_singleton, hdigit]

theorem toList_text (d : GregorianDate) :
    d.text.toList = decimal 4 d.year ++ '-' :: (decimal 2 d.month ++ '-' :: decimal 2 d.day) :=
  String.toList_ofList

theorem encodedLength_text (d : GregorianDate) : encodedLength d.text.toList = 10 := by
  have hyear := encodedLength_decimal 4 d.year
  have hmonth := encodedLength_decimal 2 d.month
  have hday := encodedLength_decimal 2 d.day
  have hhyphen : Char.utf8Size '-' = 1 := by decide
  rw [toList_text]
  unfold encodedLength at hyear hmonth hday ⊢
  simp only [List.map_append, List.map_cons, List.sum_append, List.sum_cons, hyear, hmonth, hday, hhyphen]

theorem digitChar_ne : ∀ d < 10, Nat.digitChar d ≠ '-' ∧ Nat.digitChar d ≠ 'W' := by decide

/-- The first character of a number is a digit. -/
theorem head?_decimal {width : ℕ} (h : 0 < width) (n : ℕ) (rest : List Char) :
    ∃ d < 10, (decimal width n ++ rest).head? = some (Nat.digitChar d) := by
  induction width generalizing n rest with
  | zero => exact absurd h (lt_irrefl _)
  | succ width ih =>
    rw [decimal, List.append_assoc]
    rcases Nat.eq_zero_or_pos width with rfl | hpos
    · exact ⟨n % 10, Nat.mod_lt _ (by decide), rfl⟩
    · exact ih hpos _ _

theorem parseMonthDay_text (d : GregorianDate) :
    parseMonthDay d.year true (decimal 2 d.month ++ '-' :: decimal 2 d.day) = some d := by
  obtain ⟨_, _, _, hmonth, _, hday⟩ := d.valid
  have hdays := daysInMonth_le d.year d.month
  have hmonths := @readDigits_decimal 2 d.month (by omega) ('-' :: decimal 2 d.day)
  have hrest := @readDigits_decimal 2 d.day (by omega) []
  rw [List.append_nil] at hrest
  have hnumbers := GregorianDate.ofNumbers_eq_some.mpr (⟨rfl, rfl, rfl⟩ : d.year = d.year ∧ _ ∧ _)
  simp [parseMonthDay, skipSeparator, hmonths, expect, hrest, hnumbers]

theorem parseIsoformatDate_text (d : GregorianDate) : parseIsoformatDate d.text.toList = some d := by
  have hlt : d.year < 10 ^ 4 := by
    have hle := d.valid.2.1
    omega
  have hyear := readDigits_decimal hlt ('-' :: (decimal 2 d.month ++ '-' :: decimal 2 d.day))
  obtain ⟨digit, hdigit, hfirst⟩ := @head?_decimal 2 (by decide) d.month ('-' :: decimal 2 d.day)
  have hweek : (decimal 2 d.month ++ '-' :: decimal 2 d.day).head? ≠ some 'W' := by
    rw [hfirst]
    intro h
    exact (digitChar_ne digit hdigit).2 (Option.some.inj h)
  unfold parseIsoformatDate
  rw [toList_text, hyear]
  simp only [Option.bind_eq_bind, Option.bind_some, List.head?_cons, decide_true, if_true,
    List.tail_cons, if_neg hweek, parseMonthDay_text]

/-- **The text of a date is read as the date.** -/
theorem fromisoformat_text (d : GregorianDate) : fromisoformat d.text = some d := by
  unfold fromisoformat
  rw [encodedLength_text, if_pos (Or.inr (Or.inr rfl)), parseIsoformatDate_text]

theorem GregorianDate.text_injective : Function.Injective GregorianDate.text := by
  intro d d' h
  have hread := fromisoformat_text d
  rw [h, fromisoformat_text] at hread
  exact (Option.some.inj hread).symm

/-- The hyphen of a form that has hyphens. -/
def separator (usesSeparator : Bool) : List Char := if usesSeparator then ['-'] else []

/-- A week of two digits, and then nothing or its day; what follows the day is not looked at. -/
def WeekText (usesSeparator : Bool) (cs : List Char) : Prop :=
  ∃ week < 10 ^ 2, ∃ after, cs = decimal 2 week ++ after ∧
    (after = [] ∨ ∃ day < 10, ∃ rest, after = separator usesSeparator ++ Nat.digitChar day :: rest)

/-- `YYYYMMDD`, or the date of a week: `YYYYWww`, `YYYYWwwD`, `YYYY-Www` or `YYYY-Www-D`. -/
def OtherIsoForm (text : String) : Prop :=
  (text.toList.length = 8 ∧ ∀ c ∈ text.toList, (asciiDigit c).isSome) ∨
    ∃ year < 10 ^ 4, ∃ usesSeparator cs,
      text.toList = decimal 4 year ++ (separator usesSeparator ++ 'W' :: cs) ∧
        WeekText usesSeparator cs

theorem isSome_of_mem_decimal {width n : ℕ} {c : Char} (h : c ∈ decimal width n) :
    (asciiDigit c).isSome := by
  induction width generalizing n with
  | zero => cases h
  | succ width ih =>
    rw [decimal, List.mem_append, List.mem_singleton] at h
    rcases h with h | rfl
    · exact ih h
    · rw [asciiDigit_digitChar _ (Nat.mod_lt _ (by decide))]
      rfl

theorem GregorianDate.length_text (d : GregorianDate) : d.text.length = 10 := by
  rw [← String.length_toList, toList_text]
  simp only [List.length_append, List.length_cons, length_decimal]

/-- The text of a date is digits and hyphens. -/
theorem GregorianDate.mem_text {d : GregorianDate} {c : Char} (h : c ∈ d.text.toList) :
    c = '-' ∨ (asciiDigit c).isSome := by
  rw [toList_text] at h
  simp only [List.mem_append, List.mem_cons] at h
  rcases h with h | h | h | h | h
  · exact Or.inr (isSome_of_mem_decimal h)
  · exact Or.inl h
  · exact Or.inr (isSome_of_mem_decimal h)
  · exact Or.inl h
  · exact Or.inr (isSome_of_mem_decimal h)

theorem expect_eq_some {expected : Char} {cs rest : List Char} :
    expect expected cs = some rest ↔ cs = expected :: rest := by
  cases cs with
  | nil => simp [expect]
  | cons c cs =>
    unfold expect
    split
    · next hc => simp [hc]
    · next hc => simp [hc]

theorem skipSeparator_eq_some {usesSeparator : Bool} {cs rest : List Char} :
    skipSeparator usesSeparator cs = some rest ↔ cs = separator usesSeparator ++ rest := by
  unfold skipSeparator separator
  cases usesSeparator with
  | true => exact expect_eq_some
  | false => simp

/-- What is read as a week and its day. -/
theorem weekText_of_parseWeekDate {year : ℕ} {usesSeparator : Bool} {cs : List Char} {d : GregorianDate}
    (h : parseWeekDate year usesSeparator cs = some d) : WeekText usesSeparator cs := by
  obtain ⟨⟨week, after⟩, hweek, hafter⟩ := Option.bind_eq_some_iff.mp h
  obtain ⟨n, hn, rfl, -⟩ := readDigits_eq_some.mp hweek
  refine ⟨n, hn, after, rfl, ?_⟩
  by_cases hnil : after = []
  · exact Or.inl hnil
  · simp only [if_neg hnil] at hafter
    obtain ⟨rest, hrest, hday⟩ := Option.bind_eq_some_iff.mp hafter
    obtain ⟨⟨day, last⟩, hdigit, -⟩ := Option.bind_eq_some_iff.mp hday
    obtain ⟨digit, hlt, rfl, -⟩ := readDigits_one.mp hdigit
    exact Or.inr ⟨digit, hlt, last, skipSeparator_eq_some.mp hrest⟩

/-- What is read as a month and a day. -/
theorem parseMonthDay_eq_some {year : ℕ} {usesSeparator : Bool} {cs : List Char} {d : GregorianDate}
    (h : parseMonthDay year usesSeparator cs = some d) :
    d.year = year ∧ cs = decimal 2 d.month ++ (separator usesSeparator ++ decimal 2 d.day) := by
  obtain ⟨⟨month, rest⟩, hmonth, hafter⟩ := Option.bind_eq_some_iff.mp h
  obtain ⟨rest', hrest, hend⟩ := Option.bind_eq_some_iff.mp hafter
  obtain ⟨⟨day, last⟩, hday, hdate⟩ := Option.bind_eq_some_iff.mp hend
  obtain ⟨m, _, rfl, rfl⟩ := readDigits_eq_some.mp hmonth
  obtain ⟨n, _, rfl, rfl⟩ := readDigits_eq_some.mp hday
  simp only [Nat.mul_zero, Nat.zero_add] at hdate
  by_cases hlast : last = []
  · rw [if_pos hlast] at hdate
    obtain ⟨rfl, rfl, rfl⟩ := GregorianDate.ofNumbers_eq_some.mp hdate
    rw [hlast, List.append_nil] at hrest
    exact ⟨rfl, by rw [skipSeparator_eq_some.mp hrest]⟩
  · rw [if_neg hlast] at hdate
    cases hdate

/-- **What is read otherwise is the text of the date.** -/
theorem text_of_fromisoformat {text : String} {d : GregorianDate} (h : fromisoformat text = some d)
    (hform : ¬ OtherIsoForm text) : text = d.text := by
  unfold fromisoformat at h
  simp only at h
  split at h
  · unfold parseIsoformatDate at h
    obtain ⟨⟨year, cs⟩, hyear, h⟩ := Option.bind_eq_some_iff.mp h
    obtain ⟨n, hn, htext, rfl⟩ := readDigits_eq_some.mp hyear
    simp only [Nat.mul_zero, Nat.zero_add] at h
    by_cases hsep : cs.head? = some '-'
    · obtain ⟨rest, rfl⟩ := List.head?_eq_some_iff.mp hsep
      simp only [hsep, decide_true, if_true, List.tail_cons] at h
      split at h
      · next hweek =>
        obtain ⟨week, rfl⟩ := List.head?_eq_some_iff.mp hweek
        exact absurd (Or.inr ⟨n, hn, true, week, htext, weekText_of_parseWeekDate h⟩) hform
      · obtain ⟨rfl, hrest⟩ := parseMonthDay_eq_some h
        rw [← String.toList_inj, htext, toList_text, hrest]
        rfl
    · simp only [hsep, decide_false, Bool.false_eq_true, if_false] at h
      split at h
      · next hweek =>
        obtain ⟨week, rfl⟩ := List.head?_eq_some_iff.mp hweek
        exact absurd (Or.inr ⟨n, hn, false, week, htext, weekText_of_parseWeekDate h⟩) hform
      · obtain ⟨rfl, hrest⟩ := parseMonthDay_eq_some h
        change cs = decimal 2 d.month ++ decimal 2 d.day at hrest
        refine absurd (Or.inl ⟨?_, fun c hc => ?_⟩) hform
        · rw [htext, hrest, List.length_append, List.length_append, length_decimal, length_decimal,
            length_decimal]
        · rw [htext, hrest, List.mem_append, List.mem_append] at hc
          rcases hc with hc | hc | hc
          · exact isSome_of_mem_decimal hc
          · exact isSome_of_mem_decimal hc
          · exact isSome_of_mem_decimal hc
  · cases h

/-- Of the other texts exactly those of dates are read. -/
theorem fromisoformat_eq_some_iff {text : String} (hform : ¬ OtherIsoForm text) {d : GregorianDate} :
    fromisoformat text = some d ↔ text = d.text := by
  refine ⟨fun h => text_of_fromisoformat h hform, ?_⟩
  rintro rfl
  exact fromisoformat_text d

end ApexScan.Lib
