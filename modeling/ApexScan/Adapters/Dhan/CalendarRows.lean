import ApexScan.Adapters.Dhan.Live
import ApexScan.Deploy.References
import ApexScan.Lib.GregorianDate
import ApexScan.Lib.Raising
import Mathlib.Data.List.Forall2

/-!
# Rows of the holiday page (`app/adapters/dhan/calendar_monitor_parser.py`)

A row of the secondary calendar page is ignored where its segment is another one, and is otherwise an
observed date; a row that is neither fails the whole page.

* `isNseEquitySegment`, `isNonNseEquitySegment`, `parseStatus`, `parseIsoDate`, `parseIntervals` — the
  cells; `rowToObserved`, `rowsToDates` — the rows.
* `rowsToDates_failsClosed` — nothing but the parse failure is raised.
* `DocumentedTimings`, `WrittenTimings` — the timing cells of the documentation, and those of the code,
  which has hours of one digit, other dashes, blanks about them and parts without text.
* `RowReads`, `RowsRead` — the rows of a grammar and the dates that they say.
* `rowToObserved_eq_ok`, `rowsToDates_eq_ok` — what is read of a row, and of rows.

Main result: `rows_read_exactly`.  `one_digit_hour` is an interval that the documentation does not have.

`str.lower` is a parameter; a time of day is a number of minutes.
-/

set_option autoImplicit false

namespace ApexScan.Dhan.Calendar

open Lib Deploy

/-! ## The values -/

/-- The exceptions of the reader. -/
inductive CalendarError where
  | parseFailure
  | indexError
  | valueError
  deriving DecidableEq, Repr

inductive ObservedDateStatus where
  | closed
  | opened
  deriving DecidableEq, Repr

/-- Minutes of the day, the first before the second. -/
structure ObservedInterval where
  start : ℕ
  stop : ℕ
  ordered : start < stop
  deriving DecidableEq

structure ObservedCalendarDate where
  observedDate : GregorianDate
  status : ObservedDateStatus
  intervals : List ObservedInterval
  deriving DecidableEq

/-- `_Columns`. -/
structure Columns where
  date : ℕ
  segment : ℕ
  status : ℕ
  timings : Option ℕ

/-- `except caught as error: raise _ParseFailureError`. -/
def failingClosed {α : Type} (caught : CalendarError) (x : Except CalendarError α) :
    Except CalendarError α :=
  match x with
  | .ok value => .ok value
  | .error e => .error (if e = caught then .parseFailure else e)

/-! ## The cells -/

/-- `_NSE_EQUITY_SEGMENTS`. -/
def nseEquitySegments : List String :=
  ["nse", "nse eq", "nse_eq", "nse equity", "nse cm", "nse cash", "capital market", "equity"]

/-- `_NSE_EQUITY_TOKENS`. -/
def nseEquityTokens : List String := ["equity", "cash", " eq", "capital market"]

/-- `_NON_NSE_TOKENS`. -/
def nonNseTokens : List String := ["mcx", "currency", "cds", "clearing", "bse", "commodity"]

/-- `_CLOSED_STATUSES`. -/
def closedStatuses : List String := ["closed", "close", "holiday", "trading holiday"]

/-- `_OPEN_STATUSES`. -/
def openStatuses : List String :=
  ["open", "muhurat", "muhurat trading", "special", "special session", "live", "live session"]

section Cells

variable (u : UnicodeData)

/-- `text.strip().lower()`. -/
def normalized (text : String) : String := u.lower (strip text)

/-- `_is_nse_equity_segment`. -/
def isNseEquitySegment (segment : String) : Bool :=
  let name := normalized u segment
  name ∈ nseEquitySegments || (contains name "nse" && nseEquityTokens.any (contains name))

/-- `_is_non_nse_equity_segment`. -/
def isNonNseEquitySegment (segment : String) : Bool :=
  let name := normalized u segment
  !isNseEquitySegment u name && nonNseTokens.any (contains name)

/-- `_parse_status`. -/
def parseStatus (text : String) : Except CalendarError ObservedDateStatus :=
  let name := normalized u text
  if name ∈ closedStatuses then .ok .closed
  else if name ∈ openStatuses then .ok .opened
  else .error .parseFailure

end Cells

/-- `_parse_iso_date`. -/
def parseIsoDate (text : String) : Except CalendarError GregorianDate :=
  failingClosed .valueError
    (match fromisoformat (strip text) with
    | some d => .ok d
    | none => .error .valueError)

/-- `\d`. -/
def isDigit (c : Char) : Bool := (digitValue c).isSome

/-- `(\d{1,2}:\d{2})`, and the rest. -/
def matchClock : List Char → Option (List Char × List Char)
  | h :: ':' :: m :: n :: rest =>
    if isDigit h && isDigit m && isDigit n then some ([h, ':', m, n], rest) else none
  | g :: h :: ':' :: m :: n :: rest =>
    if isDigit g && isDigit h && isDigit m && isDigit n then some ([g, h, ':', m, n], rest) else none
  | _ => none

/-- `[-–—]`. -/
def isDash (c : Char) : Bool := c = '-' || c = '–' || c = '—'

/-- `_INTERVAL_PATTERN.fullmatch`, with the two groups. -/
def matchInterval (cs : List Char) : Option (List Char × List Char) := do
  let (start, cs) ← matchClock cs
  match cs.dropWhile isSpace with
  | [] => none
  | dash :: cs =>
    if isDash dash then
      let (stop, cs) ← matchClock (cs.dropWhile isSpace)
      if cs = [] then some (start, stop) else none
    else none

/-- `[0-1]\d` or `2[0-3]`, as a number. -/
def hourValue (g h : Char) : Option ℕ :=
  if g = '2' then if '0' ≤ h ∧ h ≤ '3' then some (20 + (h.toNat - 48)) else none
  else if g = '0' ∨ g = '1' then (digitValue h).map fun v => 10 * (g.toNat - 48) + v
  else none

/-- `[0-5]\d`, as a number. -/
def minuteValue (m n : Char) : Option ℕ :=
  if '0' ≤ m ∧ m ≤ '5' then (digitValue n).map fun v => 10 * (m.toNat - 48) + v else none

/-- `datetime.strptime(value, "%H:%M").time()`, of what `matchClock` finds. -/
def strptime (cs : List Char) : Except CalendarError ℕ :=
  let minutes :=
    match cs with
    | [h, ':', m, n] => do return 60 * (← digitValue h) + (← minuteValue m n)
    | [g, h, ':', m, n] => do return 60 * (← hourValue g h) + (← minuteValue m n)
    | _ => none
  match minutes with
  | some value => .ok value
  | none => .error .valueError

/-- `_parse_hhmm`. -/
def parseHhmm (cs : List Char) : Except CalendarError ℕ := failingClosed .valueError (strptime cs)

/-- `ObservedInterval(start=..., end=...)`, with its validation. -/
def ObservedInterval.ofBounds (start stop : ℕ) : Except CalendarError ObservedInterval :=
  if h : start < stop then .ok ⟨start, stop, h⟩ else .error .valueError

/-- `_build_interval`. -/
def buildInterval (startText stopText : List Char) : Except CalendarError ObservedInterval :=
  failingClosed .valueError do
    let start ← parseHhmm startText
    let stop ← parseHhmm stopText
    ObservedInterval.ofBounds start stop

/-- One part of a timing cell. -/
def parseInterval (candidate : String) : Except CalendarError ObservedInterval :=
  match matchInterval candidate.toList with
  | none => .error .parseFailure
  | some (start, stop) => buildInterval start stop

/-- `_INTERVAL_SPLIT.split`, the parts stripped. -/
def splitParts (text : String) : List String :=
  (text.toList.splitOnP fun c => c = ';' || c = ',').map fun part => strip (String.ofList part)

/-- `_parse_intervals`. -/
def parseIntervals (text : String) : Except CalendarError (List ObservedInterval) :=
  if strip text = "" then .ok []
  else do
    let intervals ← ((splitParts (strip text)).filter (· ≠ "")).mapM parseInterval
    if intervals = [] then .error .parseFailure else .ok intervals

/-! ## The rows -/

/-- `row[index]`. -/
def cellAt (row : List String) (index : ℕ) : Except CalendarError String :=
  match row[index]? with
  | some cell => .ok cell
  | none => .error .indexError

/-- `_row_intervals`. -/
def rowIntervals (row : List String) (columns : Columns) (status : ObservedDateStatus) :
    Except CalendarError (List ObservedInterval) :=
  match status, columns.timings with
  | .opened, some timings => do
    let text ← failingClosed .indexError (cellAt row timings)
    parseIntervals text
  | _, _ => .ok []

/-- The cells that every row must have. -/
def requiredCells (row : List String) (columns : Columns) :
    Except CalendarError (String × String × String) :=
  failingClosed .indexError do
    let segment ← cellAt row columns.segment
    let statusText ← cellAt row columns.status
    let dateText ← cellAt row columns.date
    return (segment, statusText, dateText)

section Rows

variable (u : UnicodeData) (columns : Columns)

/-- `_row_to_observed`. -/
def rowToObserved (row : List String) : Except CalendarError (Option ObservedCalendarDate) := do
  let (segment, statusText, dateText) ← requiredCells row columns
  if isNonNseEquitySegment u segment then return none
  else if isNseEquitySegment u segment then
    let status ← parseStatus u statusText
    let observedDate ← parseIsoDate dateText
    let intervals ← rowIntervals row columns status
    return some { observedDate, status, intervals }
  else .error .parseFailure

/-- One row of `_rows_to_dates`; the dates seen so far are those observed. -/
def observeRow (observed : List ObservedCalendarDate) (row : List String) :
    Except CalendarError (List ObservedCalendarDate) := do
  match ← rowToObserved u columns row with
  | none => return observed
  | some entry =>
    if entry.observedDate ∈ observed.map (·.observedDate) then .error .parseFailure
    else return observed ++ [entry]

/-- `_rows_to_dates`. -/
def rowsToDates (rows : List (List String)) : Except CalendarError (List ObservedCalendarDate) :=
  rows.foldlM (observeRow u columns) []

end Rows

/-! ## What is raised -/

/-- What is raised is allowed. -/
def RaisesOnly {α : Type} (allowed : CalendarError → Prop) (x : Except CalendarError α) : Prop :=
  ∀ e, x = .error e → allowed e

/-- Nothing but the parse failure is raised. -/
abbrev FailsClosed {α : Type} (x : Except CalendarError α) : Prop := RaisesOnly (· = .parseFailure) x

theorem raisesOnly_ok {α : Type} {allowed : CalendarError → Prop} (a : α) :
    RaisesOnly allowed (.ok a : Except CalendarError α) := by
  intro e h
  cases h

theorem raisesOnly_error {α : Type} {allowed : CalendarError → Prop} {e : CalendarError}
    (h : allowed e) : RaisesOnly allowed (.error e : Except CalendarError α) := by
  intro e' he
  exact Except.error.inj he ▸ h

theorem RaisesOnly.bind {α β : Type} {allowed : CalendarError → Prop} {x : Except CalendarError α}
    {f : α → Except CalendarError β} (hx : RaisesOnly allowed x) (hf : ∀ a, RaisesOnly allowed (f a)) :
    RaisesOnly allowed (x >>= f) := by
  intro e h
  cases x with
  | ok a => exact hf a e h
  | error e' =>
    obtain rfl := Except.error.inj h
    exact hx _ rfl

/-- A block whose exceptions are the one that is caught and the parse failure. -/
theorem failsClosed_failingClosed {α : Type} {caught : CalendarError} {x : Except CalendarError α}
    (h : RaisesOnly (fun e => e = caught ∨ e = .parseFailure) x) :
    FailsClosed (failingClosed caught x) := by
  intro e he
  cases x with
  | ok a => cases he
  | error e' =>
    obtain rfl := Except.error.inj he
    rcases h e' rfl with rfl | rfl
    · exact if_pos rfl
    · split <;> rfl

theorem FailsClosed.weaken {α : Type} {caught : CalendarError} {x : Except CalendarError α}
    (h : FailsClosed x) : RaisesOnly (fun e => e = caught ∨ e = .parseFailure) x :=
  fun e he => Or.inr (h e he)

theorem failsClosed_mapM {α β : Type} {f : α → Except CalendarError β} (h : ∀ a, FailsClosed (f a))
    (xs : List α) : FailsClosed (xs.mapM f) := by
  intro e he
  obtain ⟨a, _, ha⟩ := exists_of_mapM_eq_error he
  exact h a e ha

theorem cellAt_raises (row : List String) (index : ℕ) :
    RaisesOnly (fun e => e = .indexError ∨ e = .parseFailure) (cellAt row index) := by
  unfold cellAt
  split
  · exact raisesOnly_ok _
  · exact raisesOnly_error (Or.inl rfl)

theorem parseIsoDate_failsClosed (text : String) : FailsClosed (parseIsoDate text) := by
  refine failsClosed_failingClosed ?_
  split
  · exact raisesOnly_ok _
  · exact raisesOnly_error (Or.inl rfl)

theorem parseHhmm_failsClosed (cs : List Char) : FailsClosed (parseHhmm cs) := by
  refine failsClosed_failingClosed ?_
  unfold strptime
  simp only
  split
  · exact raisesOnly_ok _
  · exact raisesOnly_error (Or.inl rfl)

theorem buildInterval_failsClosed (startText stopText : List Char) :
    FailsClosed (buildInterval startText stopText) := by
  refine failsClosed_failingClosed ((parseHhmm_failsClosed _).weaken.bind fun start =>
    (parseHhmm_failsClosed _).weaken.bind fun stop => ?_)
  unfold ObservedInterval.ofBounds
  split
  · exact raisesOnly_ok _
  · exact raisesOnly_error (Or.inl rfl)

theorem parseInterval_failsClosed (candidate : String) : FailsClosed (parseInterval candidate) := by
  unfold parseInterval
  split
  · exact raisesOnly_error rfl
  · exact buildInterval_failsClosed _ _

theorem parseIntervals_failsClosed (text : String) : FailsClosed (parseIntervals text) := by
  unfold parseIntervals
  split
  · exact raisesOnly_ok _
  · refine (failsClosed_mapM parseInterval_failsClosed _).bind fun intervals => ?_
    split
    · exact raisesOnly_error rfl
    · exact raisesOnly_ok _

theorem rowIntervals_failsClosed (row : List String) (columns : Columns) (status : ObservedDateStatus) :
    FailsClosed (rowIntervals row columns status) := by
  unfold rowIntervals
  split
  · exact (failsClosed_failingClosed (cellAt_raises _ _)).bind parseIntervals_failsClosed
  · exact raisesOnly_ok _

theorem requiredCells_failsClosed (row : List String) (columns : Columns) :
    FailsClosed (requiredCells row columns) :=
  failsClosed_failingClosed ((cellAt_raises _ _).bind fun _ => (cellAt_raises _ _).bind fun _ =>
    (cellAt_raises _ _).bind fun _ => raisesOnly_ok _)

theorem parseStatus_failsClosed (u : UnicodeData) (text : String) :
    FailsClosed (parseStatus u text) := by
  unfold parseStatus
  simp only
  split
  · exact raisesOnly_ok _
  · split
    · exact raisesOnly_ok _
    · exact raisesOnly_error rfl

theorem rowToObserved_failsClosed (u : UnicodeData) (columns : Columns) (row : List String) :
    FailsClosed (rowToObserved u columns row) := by
  refine (requiredCells_failsClosed row columns).bind fun cells => ?_
  obtain ⟨segment, statusText, dateText⟩ := cells
  simp only
  split
  · exact raisesOnly_ok _
  · split
    · exact (parseStatus_failsClosed u _).bind fun status => (parseIsoDate_failsClosed _).bind
        fun observedDate => (rowIntervals_failsClosed _ _ _).bind fun intervals => raisesOnly_ok _
    · exact raisesOnly_error rfl

/-- **Nothing but the parse failure is raised.** -/
theorem rowsToDates_failsClosed (u : UnicodeData) (columns : Columns) (rows : List (List String)) :
    FailsClosed (rowsToDates u columns rows) := by
  have hfold (observed : List ObservedCalendarDate) :
      FailsClosed (rows.foldlM (observeRow u columns) observed) := by
    induction rows generalizing observed with
    | nil => exact raisesOnly_ok _
    | cons row rows ih =>
      rw [List.foldlM_cons]
      refine RaisesOnly.bind ?_ ih
      refine (rowToObserved_failsClosed u columns row).bind fun entry => ?_
      cases entry with
      | none => exact raisesOnly_ok _
      | some entry =>
        simp only
        split
        · exact raisesOnly_error rfl
        · exact raisesOnly_ok _
  exact hfold []

/-! ## Times of day -/

/-- An hour in one digit or two.  Its last digit may be of any script, but not after a two. -/
def HourText (cs : List Char) (hour : ℕ) : Prop :=
  ∃ c, digitValue c = some (hour % 10) ∧
    (hour < 10 ∧ cs = [c] ∨
      hour < 24 ∧ cs = [Nat.digitChar (hour / 10), c] ∧ (20 ≤ hour → c = Nat.digitChar (hour % 10)))

/-- A minute in two digits.  Its last digit may be of any script. -/
def MinuteText (cs : List Char) (minute : ℕ) : Prop :=
  minute < 60 ∧ ∃ c, digitValue c = some (minute % 10) ∧ cs = [Nat.digitChar (minute / 10), c]

/-- `H:MM` or `HH:MM`, a time of day. -/
def ClockText (cs : List Char) (minutes : ℕ) : Prop :=
  ∃ hourText minuteText hour minute, cs = hourText ++ ':' :: minuteText ∧
    HourText hourText hour ∧ MinuteText minuteText minute ∧ minutes = 60 * hour + minute

/-- What the pattern of a time matches. -/
def ClockDigits (cs : List Char) : Prop :=
  ∃ h m n, isDigit h = true ∧ isDigit m = true ∧ isDigit n = true ∧
    (cs = [h, ':', m, n] ∨ ∃ g, isDigit g = true ∧ cs = [g, h, ':', m, n])

theorem digitValue_digitChar : ∀ d < 10, digitValue (Nat.digitChar d) = some d := by decide

theorem digitValue_lt {c : Char} {d : ℕ} (h : digitValue c = some d) : d < 10 := by
  unfold digitValue at h
  obtain ⟨first, hfirst, rfl⟩ := Option.map_eq_some_iff.mp h
  have hrange := List.find?_some hfirst
  simp only [Bool.and_eq_true, decide_eq_true_eq] at hrange
  omega

theorem isDigit_of_value {c : Char} {d : ℕ} (h : digitValue c = some d) : isDigit c = true := by
  unfold isDigit
  rw [h]
  rfl

theorem isDigit_digitChar {d : ℕ} (h : d < 10) : isDigit (Nat.digitChar d) = true :=
  isDigit_of_value (digitValue_digitChar d h)

theorem ne_colon_of_isDigit {c : Char} (h : isDigit c = true) : c ≠ ':' := by
  rintro rfl
  exact absurd h (by decide)

theorem matchClock_append {found : List Char} (h : ClockDigits found) (rest : List Char) :
    matchClock (found ++ rest) = some (found, rest) := by
  obtain ⟨h, m, n, hh, hm, hn, rfl | ⟨g, hg, rfl⟩⟩ := h
  · simp [matchClock, hh, hm, hn]
  · simp [matchClock, hg, hh, hm, hn, ne_colon_of_isDigit hh]

/-- What the pattern of a time finds. -/
theorem clockDigits_of_matchClock {cs found rest : List Char} (h : matchClock cs = some (found, rest)) :
    cs = found ++ rest ∧ ClockDigits found := by
  unfold matchClock at h
  split at h
  · next h' m n rest' =>
    split at h
    · next hdigits =>
      simp only [Bool.and_eq_true] at hdigits
      obtain ⟨⟨hh, hm⟩, hn⟩ := hdigits
      cases h
      exact ⟨rfl, h', m, n, hh, hm, hn, Or.inl rfl⟩
    · cases h
  · next g h' m n rest' _ =>
    split at h
    · next hdigits =>
      simp only [Bool.and_eq_true] at hdigits
      obtain ⟨⟨⟨hg, hh⟩, hm⟩, hn⟩ := hdigits
      cases h
      exact ⟨rfl, h', m, n, hh, hm, hn, Or.inr ⟨g, hg, rfl⟩⟩
    · cases h
  · cases h

theorem toNat_digitChar : ∀ d < 10, (Nat.digitChar d).toNat = 48 + d := by decide

/-- A character of a range of ASCII digits. -/
theorem range_iff {c : Char} {last : ℕ} (hlast : last < 10) :
    '0' ≤ c ∧ c ≤ Nat.digitChar last ↔ ∃ d ≤ last, c = Nat.digitChar d := by
  have hbound := toNat_digitChar last hlast
  constructor
  · rintro ⟨hlow, hhigh⟩
    have hhigh' : c.toNat ≤ (Nat.digitChar last).toNat := hhigh
    have hnine : c ≤ '9' := by
      show c.toNat ≤ 57
      omega
    have hdigit : asciiDigit c = some (c.toNat - 48) := if_pos ⟨hlow, hnine⟩
    obtain ⟨_, hc⟩ := asciiDigit_eq_some.mp hdigit
    exact ⟨c.toNat - 48, by omega, hc⟩
  · rintro ⟨d, hd, rfl⟩
    have hvalue := toNat_digitChar d (by omega)
    constructor
    · show 48 ≤ (Nat.digitChar d).toNat
      omega
    · show (Nat.digitChar d).toNat ≤ (Nat.digitChar last).toNat
      omega

/-- A number of two digits. -/
theorem tens_ones {tens ones : ℕ} (htens : tens < 10) (hones : ones < 10) :
    (10 * ((Nat.digitChar tens).toNat - 48) + ones) / 10 = tens ∧
      (10 * ((Nat.digitChar tens).toNat - 48) + ones) % 10 = ones := by
  have hvalue := toNat_digitChar tens htens
  omega

theorem minuteValue_eq_some {m n : Char} {minute : ℕ} :
    minuteValue m n = some minute ↔ MinuteText [m, n] minute := by
  have hrange : '0' ≤ m ∧ m ≤ '5' ↔ _ := range_iff (by decide : 5 < 10)
  unfold minuteValue
  constructor
  · intro h
    split at h
    · next htens =>
      obtain ⟨tens, hsmall, rfl⟩ := hrange.mp htens
      obtain ⟨ones, hones, rfl⟩ := Option.map_eq_some_iff.mp h
      obtain ⟨hdiv, hmod⟩ := @tens_ones tens ones (by omega) (digitValue_lt hones)
      refine ⟨by omega, n, ?_, ?_⟩
      · rw [hmod, hones]
      · rw [hdiv]
    · cases h
  · rintro ⟨hminute, c, hc, htext⟩
    cases htext
    have hvalue := toNat_digitChar (minute / 10) (by omega)
    rw [if_pos (hrange.mpr ⟨minute / 10, by omega, rfl⟩), hc, Option.map_some, hvalue]
    congr 1
    omega

theorem low_tens {g : Char} : g = '0' ∨ g = '1' ↔ ∃ tens ≤ 1, g = Nat.digitChar tens := by
  constructor
  · rintro (rfl | rfl)
    · exact ⟨0, by decide, rfl⟩
    · exact ⟨1, by decide, rfl⟩
  · rintro ⟨tens, htens, rfl⟩
    obtain rfl | rfl : tens = 0 ∨ tens = 1 := by omega
    · exact Or.inl rfl
    · exact Or.inr rfl

theorem hourValue_eq_some {g h : Char} {hour : ℕ} :
    hourValue g h = some hour ↔
      hour < 24 ∧ g = Nat.digitChar (hour / 10) ∧ digitValue h = some (hour % 10) ∧
        (20 ≤ hour → h = Nat.digitChar (hour % 10)) := by
  have hrange : '0' ≤ h ∧ h ≤ '3' ↔ _ := range_iff (by decide : 3 < 10)
  unfold hourValue
  constructor
  · intro hread
    split at hread
    · next htwo =>
      split at hread
      · next hones =>
        obtain ⟨ones, hsmall, rfl⟩ := hrange.mp hones
        cases hread
        have hvalue := toNat_digitChar ones (by omega)
        obtain ⟨hdiv, hmod⟩ : (20 + ((Nat.digitChar ones).toNat - 48)) / 10 = 2 ∧
            (20 + ((Nat.digitChar ones).toNat - 48)) % 10 = ones := by omega
        rw [hdiv, hmod]
        exact ⟨by omega, htwo, digitValue_digitChar ones (by omega), fun _ => rfl⟩
      · cases hread
    · split at hread
      · next hlow =>
        obtain ⟨tens, htens, rfl⟩ := low_tens.mp hlow
        obtain ⟨ones, hones, rfl⟩ := Option.map_eq_some_iff.mp hread
        obtain ⟨hdiv, hmod⟩ := @tens_ones tens ones (by omega) (digitValue_lt hones)
        refine ⟨by omega, by rw [hdiv], by rw [hmod, hones], ?_⟩
        omega
      · cases hread
  · rintro ⟨hhour, rfl, hones, hascii⟩
    by_cases hlow : hour < 20
    · have hnot : Nat.digitChar (hour / 10) ≠ '2' := by
        obtain hzero | hone : hour / 10 = 0 ∨ hour / 10 = 1 := by omega
        · rw [hzero]
          decide
        · rw [hone]
          decide
      have hvalue := toNat_digitChar (hour / 10) (by omega)
      rw [if_neg hnot, if_pos (low_tens.mpr ⟨hour / 10, by omega, rfl⟩), hones, Option.map_some, hvalue]
      congr 1
      omega
    · obtain rfl := hascii (by omega)
      obtain htwo : hour / 10 = 2 := by omega
      have hvalue := toNat_digitChar (hour % 10) (by omega)
      rw [htwo, if_pos (by decide), if_pos (hrange.mpr ⟨hour % 10, by omega, rfl⟩), hvalue]
      congr 1
      omega

theorem strptime_of_one {h m n : Char} {minutes : ℕ} :
    strptime [h, ':', m, n] = .ok minutes ↔
      ∃ hour minute, digitValue h = some hour ∧ minuteValue m n = some minute ∧
        minutes = 60 * hour + minute := by
  unfold strptime
  cases hhour : digitValue h with
  | none => simp [hhour]
  | some hour =>
    cases hminute : minuteValue m n with
    | none => simp [hhour, hminute]
    | some minute => simp [hhour, hminute, eq_comm]

theorem strptime_of_two {g h m n : Char} {minutes : ℕ} (hh : isDigit h = true) :
    strptime [g, h, ':', m, n] = .ok minutes ↔
      ∃ hour minute, hourValue g h = some hour ∧ minuteValue m n = some minute ∧
        minutes = 60 * hour + minute := by
  have hcolon := ne_colon_of_isDigit hh
  unfold strptime
  cases hhour : hourValue g h with
  | none => simp [hhour]
  | some hour =>
    cases hminute : minuteValue m n with
    | none => simp [hhour, hminute]
    | some minute => simp [hhour, hminute, eq_comm]

/-- **Digits that are read are a time of day.** -/
theorem strptime_eq_ok {cs : List Char} {minutes : ℕ} :
    ClockDigits cs ∧ strptime cs = .ok minutes ↔ ClockText cs minutes := by
  constructor
  · rintro ⟨⟨h, m, n, hh, hm, hn, rfl | ⟨g, hg, rfl⟩⟩, hread⟩
    · obtain ⟨hour, minute, hhour, hminute, rfl⟩ := strptime_of_one.mp hread
      have hlt := digitValue_lt hhour
      refine ⟨[h], [m, n], hour, minute, rfl, ⟨h, ?_, Or.inl ⟨hlt, rfl⟩⟩,
        minuteValue_eq_some.mp hminute, rfl⟩
      rw [hhour, Nat.mod_eq_of_lt hlt]
    · obtain ⟨hour, minute, hhour, hminute, rfl⟩ := (strptime_of_two hh).mp hread
      obtain ⟨hlt, rfl, hones, hascii⟩ := hourValue_eq_some.mp hhour
      exact ⟨[_, h], [m, n], hour, minute, rfl, ⟨h, hones, Or.inr ⟨hlt, rfl, hascii⟩⟩,
        minuteValue_eq_some.mp hminute, rfl⟩
  · rintro ⟨hourText, minuteText, hour, minute, rfl, ⟨h, hones, hhour⟩, hminute, rfl⟩
    obtain ⟨n, hn, rfl⟩ := hminute.2
    have hlt := hminute.1
    have hread := minuteValue_eq_some.mpr hminute
    have htens := @isDigit_digitChar (minute / 10) (by omega)
    have hdigit := isDigit_of_value hones
    rcases hhour with ⟨hsmall, rfl⟩ | ⟨hhour, rfl, hascii⟩
    · refine ⟨⟨h, _, n, hdigit, htens, isDigit_of_value hn, Or.inl rfl⟩, ?_⟩
      rw [Nat.mod_eq_of_lt hsmall] at hones
      exact strptime_of_one.mpr ⟨hour, minute, hones, hread, rfl⟩
    · have htwo := @isDigit_digitChar (hour / 10) (by omega)
      refine ⟨⟨h, _, n, hdigit, htens, isDigit_of_value hn, Or.inr ⟨_, htwo, rfl⟩⟩, ?_⟩
      exact (strptime_of_two hdigit).mpr
        ⟨hour, minute, hourValue_eq_some.mpr ⟨hhour, rfl, hones, hascii⟩, hread, rfl⟩

/-! ## Intervals -/

/-- Two times with a dash between them, and blanks about the dash. -/
def WrittenInterval (candidate : String) (interval : ObservedInterval) : Prop :=
  ∃ startText before dash after stopText,
    candidate.toList = startText ++ (before ++ dash :: (after ++ stopText)) ∧
    (∀ c ∈ before, isSpace c = true) ∧ isDash dash = true ∧ (∀ c ∈ after, isSpace c = true) ∧
    ClockText startText interval.start ∧ ClockText stopText interval.stop

theorem failingClosed_eq_ok {α : Type} {caught : CalendarError} {x : Except CalendarError α} {a : α} :
    failingClosed caught x = .ok a ↔ x = .ok a := by
  cases x <;> simp [failingClosed]

theorem ObservedInterval.ofBounds_eq_ok {start stop : ℕ} {interval : ObservedInterval} :
    ObservedInterval.ofBounds start stop = .ok interval ↔
      start = interval.start ∧ stop = interval.stop := by
  unfold ObservedInterval.ofBounds
  constructor
  · intro h
    split at h
    · cases h
      exact ⟨rfl, rfl⟩
    · cases h
  · rintro ⟨rfl, rfl⟩
    rw [dif_pos interval.ordered]

theorem buildInterval_eq_ok {startText stopText : List Char} {interval : ObservedInterval} :
    buildInterval startText stopText = .ok interval ↔
      strptime startText = .ok interval.start ∧ strptime stopText = .ok interval.stop := by
  unfold buildInterval parseHhmm
  rw [failingClosed_eq_ok, bind_eq_ok]
  constructor
  · rintro ⟨start, hstart, hrest⟩
    obtain ⟨stop, hstop, hbounds⟩ := bind_eq_ok.mp hrest
    obtain ⟨rfl, rfl⟩ := ObservedInterval.ofBounds_eq_ok.mp hbounds
    exact ⟨failingClosed_eq_ok.mp hstart, failingClosed_eq_ok.mp hstop⟩
  · rintro ⟨hstart, hstop⟩
    exact ⟨_, failingClosed_eq_ok.mpr hstart,
      bind_eq_ok.mpr ⟨_, failingClosed_eq_ok.mpr hstop, ObservedInterval.ofBounds_eq_ok.mpr ⟨rfl, rfl⟩⟩⟩

/-- No blank is among the decimal digits. -/
theorem decimalZeros_gaps : ∀ first ∈ decimalZeros, first = 0x30 ∨ 0xA0 < first ∧ first + 10 ≤ 0x1680 ∨
    0x1680 < first ∧ first + 10 ≤ 0x2000 ∨ 0x3000 < first := by
  decide

theorem isSpace_of_isDigit {c : Char} (h : isDigit c = true) : isSpace c = false := by
  obtain ⟨d, hd⟩ := Option.isSome_iff_exists.mp h
  obtain ⟨first, hfirst, _⟩ := Option.map_eq_some_iff.mp hd
  have hrange := List.find?_some hfirst
  have hgap := decimalZeros_gaps first (List.mem_of_find?_eq_some hfirst)
  simp only [Bool.and_eq_true, decide_eq_true_eq] at hrange
  by_contra hspace
  simp only [isSpace, Ipc.isWhiteSpace, Bool.not_eq_false, Bool.or_eq_true, Bool.and_eq_true,
    decide_eq_true_eq, beq_iff_eq] at hspace
  omega

theorem isSpace_of_isDash {c : Char} (h : isDash c = true) : isSpace c = false := by
  simp only [isDash, Bool.or_eq_true, decide_eq_true_eq] at h
  rcases h with (rfl | rfl) | rfl <;> decide

theorem ClockDigits.dropWhile {cs : List Char} (h : ClockDigits cs) : cs.dropWhile isSpace = cs := by
  obtain ⟨h, m, n, hh, _, _, rfl | ⟨g, hg, rfl⟩⟩ := h
  · exact List.dropWhile_cons_of_neg (by simp [isSpace_of_isDigit hh])
  · exact List.dropWhile_cons_of_neg (by simp [isSpace_of_isDigit hg])

theorem matchInterval_append {startText before after stopText : List Char} {dash : Char}
    (hstart : ClockDigits startText) (hbefore : ∀ c ∈ before, isSpace c = true)
    (hdash : isDash dash = true) (hafter : ∀ c ∈ after, isSpace c = true)
    (hstop : ClockDigits stopText) :
    matchInterval (startText ++ (before ++ dash :: (after ++ stopText))) =
      some (startText, stopText) := by
  have hdrop : (before ++ dash :: (after ++ stopText)).dropWhile isSpace =
      dash :: (after ++ stopText) := by
    rw [List.dropWhile_append_of_pos hbefore]
    exact List.dropWhile_cons_of_neg (by simp [isSpace_of_isDash hdash])
  have hdrop' : (after ++ stopText).dropWhile isSpace = stopText := by
    rw [List.dropWhile_append_of_pos hafter, hstop.dropWhile]
  have hend := matchClock_append hstop []
  rw [List.append_nil] at hend
  simp only [matchInterval, matchClock_append hstart, hdrop, hdrop', hend, hdash, if_true,
    Option.bind_eq_bind, Option.bind_some]

theorem parts_of_matchInterval {cs startText stopText : List Char}
    (h : matchInterval cs = some (startText, stopText)) :
    ClockDigits startText ∧ ClockDigits stopText ∧
      ∃ before dash after, cs = startText ++ (before ++ dash :: (after ++ stopText)) ∧
        (∀ c ∈ before, isSpace c = true) ∧ isDash dash = true ∧ (∀ c ∈ after, isSpace c = true) := by
  simp only [matchInterval, Option.bind_eq_bind] at h
  obtain ⟨⟨start, rest⟩, hfirst, hfound⟩ := Option.bind_eq_some_iff.mp h
  clear h
  obtain ⟨rfl, hstart⟩ := clockDigits_of_matchClock hfirst
  have hsplit := List.takeWhile_append_dropWhile (p := isSpace) (l := rest)
  split at hfound
  · cases hfound
  · next dash rest' hdropped =>
    have hsplit' := List.takeWhile_append_dropWhile (p := isSpace) (l := rest')
    split at hfound
    · next hdash =>
      obtain ⟨⟨stop, last⟩, hsecond, hends⟩ := Option.bind_eq_some_iff.mp hfound
      obtain ⟨hlast, hstop⟩ := clockDigits_of_matchClock hsecond
      split at hends
      · next hnil =>
        cases hends
        obtain rfl : last = [] := hnil
        rw [List.append_nil] at hlast
        refine ⟨hstart, hstop, rest.takeWhile isSpace, dash, rest'.takeWhile isSpace, ?_,
          fun c hc => List.mem_takeWhile_imp hc, hdash, fun c hc => List.mem_takeWhile_imp hc⟩
        rw [← hlast, hsplit', ← hdropped, hsplit]
      · cases hends
    · cases hfound

/-- **Which parts are intervals.** -/
theorem parseInterval_eq_ok {candidate : String} {interval : ObservedInterval} :
    parseInterval candidate = .ok interval ↔ WrittenInterval candidate interval := by
  unfold parseInterval
  constructor
  · intro h
    split at h
    · cases h
    · next startText stopText hmatch =>
      obtain ⟨hstart, hstop, before, dash, after, htext, hbefore, hdash, hafter⟩ :=
        parts_of_matchInterval hmatch
      obtain ⟨hstartRead, hstopRead⟩ := buildInterval_eq_ok.mp h
      exact ⟨startText, before, dash, after, stopText, htext, hbefore, hdash, hafter,
        strptime_eq_ok.mp ⟨hstart, hstartRead⟩, strptime_eq_ok.mp ⟨hstop, hstopRead⟩⟩
  · rintro ⟨startText, before, dash, after, stopText, htext, hbefore, hdash, hafter, hstart, hstop⟩
    obtain ⟨hstartDigits, hstartRead⟩ := strptime_eq_ok.mpr hstart
    obtain ⟨hstopDigits, hstopRead⟩ := strptime_eq_ok.mpr hstop
    rw [htext, matchInterval_append hstartDigits hbefore hdash hafter hstopDigits]
    exact buildInterval_eq_ok.mpr ⟨hstartRead, hstopRead⟩

/-- Two digits, a colon and two digits. -/
def DocumentedClock (cs : List Char) (minutes : ℕ) : Prop :=
  ∃ hour minute, hour < 24 ∧ minute < 60 ∧ minutes = 60 * hour + minute ∧
    cs = Lib.decimal 2 hour ++ ':' :: Lib.decimal 2 minute

/-- `HH:MM-HH:MM`. -/
def DocumentedInterval (candidate : String) (interval : ObservedInterval) : Prop :=
  ∃ startText stopText, candidate.toList = startText ++ '-' :: stopText ∧
    DocumentedClock startText interval.start ∧ DocumentedClock stopText interval.stop

/-- A timing cell has no text, or an interval at each part that counts. -/
def Timings (counted : String → Bool) (interval : String → ObservedInterval → Prop) (text : String)
    (intervals : List ObservedInterval) : Prop :=
  if strip text = "" then intervals = []
  else intervals ≠ [] ∧ List.Forall₂ interval ((splitParts (strip text)).filter counted) intervals

/-- The timing cells that the module documents. -/
def DocumentedTimings : String → List ObservedInterval → Prop :=
  Timings (fun _ => true) DocumentedInterval

/-- The timing cells that the code reads: parts without text do not count. -/
def WrittenTimings : String → List ObservedInterval → Prop := Timings (· ≠ "") WrittenInterval

/-- Two digits of a number below one hundred. -/
theorem decimal_two {n : ℕ} (h : n < 100) :
    Lib.decimal 2 n = [Nat.digitChar (n / 10), Nat.digitChar (n % 10)] := by
  have htens : n / 10 % 10 = n / 10 := by omega
  simp [Lib.decimal, htens]

theorem DocumentedClock.clockText {cs : List Char} {minutes : ℕ} (h : DocumentedClock cs minutes) :
    ClockText cs minutes := by
  obtain ⟨hour, minute, hhour, hminute, hminutes, rfl⟩ := h
  refine ⟨_, _, hour, minute, rfl, ?_, ?_, hminutes⟩
  · exact ⟨Nat.digitChar (hour % 10), digitValue_digitChar _ (by omega),
      Or.inr ⟨hhour, decimal_two (by omega), fun _ => rfl⟩⟩
  · exact ⟨hminute, Nat.digitChar (minute % 10), digitValue_digitChar _ (by omega),
      decimal_two (by omega)⟩

theorem DocumentedInterval.written {candidate : String} {interval : ObservedInterval}
    (h : DocumentedInterval candidate interval) : WrittenInterval candidate interval := by
  obtain ⟨startText, stopText, htext, hstart, hstop⟩ := h
  refine ⟨startText, [], '-', [], stopText, htext, ?_, rfl, ?_, hstart.clockText, hstop.clockText⟩
  · simp
  · simp

theorem WrittenInterval.ne_empty {candidate : String} {interval : ObservedInterval}
    (h : WrittenInterval candidate interval) : candidate ≠ "" := by
  obtain ⟨startText, before, dash, after, stopText, htext, _⟩ := h
  rintro rfl
  have hlength := congrArg List.length htext
  simp at hlength

/-- **What is documented is written.** -/
theorem DocumentedTimings.written {text : String} {intervals : List ObservedInterval}
    (h : DocumentedTimings text intervals) : WrittenTimings text intervals := by
  unfold DocumentedTimings Timings at h
  unfold WrittenTimings Timings
  split
  · next hblank => rwa [if_pos hblank] at h
  · next hblank =>
    rw [if_neg hblank, List.filter_true] at h
    obtain ⟨hne, hparts⟩ := h
    have hwritten := hparts.imp fun _ _ => DocumentedInterval.written
    have hcounted : ∀ part ∈ splitParts (strip text), (decide (part ≠ "")) = true :=
      ((List.forall₂_and_left _ _).mp
        (hwritten.imp fun _ _ hpart => ⟨decide_eq_true hpart.ne_empty, hpart⟩)).1
    rw [List.filter_eq_self.mpr hcounted]
    exact ⟨hne, hwritten⟩

/-- **Which timing cells are read.** -/
theorem parseIntervals_eq_ok {text : String} {intervals : List ObservedInterval} :
    parseIntervals text = .ok intervals ↔ WrittenTimings text intervals := by
  unfold WrittenTimings Timings parseIntervals
  split
  · exact ⟨fun h => (Except.ok.inj h).symm, fun h => congrArg Except.ok h.symm⟩
  · constructor
    · intro h
      obtain ⟨read, hread, hfinal⟩ := bind_eq_ok.mp h
      split at hfinal
      · cases hfinal
      · next hne =>
        obtain rfl := Except.ok.inj hfinal
        exact ⟨hne, (mapM_eq_ok.mp hread).imp fun _ _ => parseInterval_eq_ok.mp⟩
    · rintro ⟨hne, hparts⟩
      have hread := mapM_eq_ok.mpr (hparts.imp fun _ _ => parseInterval_eq_ok.mpr)
      exact bind_eq_ok.mpr ⟨intervals, hread, if_neg hne⟩

/-! ## What rows say -/

section Spec

variable (u : UnicodeData) (columns : Columns) (timings : String → List ObservedInterval → Prop)

/-- The texts of a known status. -/
inductive StatusText (text : String) : ObservedDateStatus → Prop
  | closed (h : normalized u text ∈ closedStatuses) : StatusText text .closed
  | opened (h : normalized u text ∈ openStatuses) : StatusText text .opened

/-- The row has the cells that every row must have. -/
structure HasCells (row : List String) (segment statusText dateText : String) : Prop where
  segment : row[columns.segment]? = some segment
  status : row[columns.status]? = some statusText
  date : row[columns.date]? = some dateText

/-- An open row has the intervals of its timing cell, where there is such a column. -/
def RowTimings (row : List String) : ObservedDateStatus → List ObservedInterval → Prop
  | .closed, intervals => intervals = []
  | .opened, intervals =>
    match columns.timings with
    | none => intervals = []
    | some index => ∃ text, row[index]? = some text ∧ timings text intervals

/-- A row of another segment says nothing; one of NSE equity says a date, `YYYY-MM-DD`. -/
inductive RowReads (row : List String) : Option ObservedCalendarDate → Prop
  | ignored {segment statusText dateText : String}
      (cells : HasCells columns row segment statusText dateText)
      (other : isNonNseEquitySegment u segment = true) : RowReads row none
  | observed {segment statusText dateText : String} {entry : ObservedCalendarDate}
      (cells : HasCells columns row segment statusText dateText)
      (notOther : isNonNseEquitySegment u segment = false)
      (equity : isNseEquitySegment u segment = true)
      (status : StatusText u statusText entry.status)
      (date : strip dateText = entry.observedDate.text)
      (intervals : RowTimings columns timings row entry.status entry.intervals) :
      RowReads row (some entry)

/-- Every row says something, and the dates that rows say are distinct. -/
def RowsRead (rows : List (List String)) (dates : List ObservedCalendarDate) : Prop :=
  ∃ entries, List.Forall₂ (RowReads u columns timings) rows entries ∧ dates = entries.reduceOption ∧
    (dates.map (·.observedDate)).Nodup

end Spec

/-! ## Which rows are read -/

theorem cellAt_eq_ok {row : List String} {index : ℕ} {cell : String} :
    cellAt row index = .ok cell ↔ row[index]? = some cell := by
  unfold cellAt
  split <;> simp_all

theorem requiredCells_eq_ok {row : List String} {columns : Columns}
    {segment statusText dateText : String} :
    requiredCells row columns = .ok (segment, statusText, dateText) ↔
      HasCells columns row segment statusText dateText := by
  unfold requiredCells
  rw [failingClosed_eq_ok]
  constructor
  · intro h
    obtain ⟨segment', hsegment, h⟩ := bind_eq_ok.mp h
    obtain ⟨statusText', hstatus, h⟩ := bind_eq_ok.mp h
    obtain ⟨dateText', hdate, h⟩ := bind_eq_ok.mp h
    cases h
    exact ⟨cellAt_eq_ok.mp hsegment, cellAt_eq_ok.mp hstatus, cellAt_eq_ok.mp hdate⟩
  · rintro ⟨hsegment, hstatus, hdate⟩
    exact bind_eq_ok.mpr ⟨_, cellAt_eq_ok.mpr hsegment, bind_eq_ok.mpr ⟨_, cellAt_eq_ok.mpr hstatus,
      bind_eq_ok.mpr ⟨_, cellAt_eq_ok.mpr hdate, rfl⟩⟩⟩

theorem not_mem_openStatuses : ∀ name ∈ openStatuses, name ∉ closedStatuses := by decide

theorem parseStatus_eq_ok {u : UnicodeData} {text : String} {status : ObservedDateStatus} :
    parseStatus u text = .ok status ↔ StatusText u text status := by
  unfold parseStatus
  simp only
  constructor
  · intro h
    split at h
    · next hclosed =>
      cases h
      exact .closed hclosed
    · split at h
      · next hopen =>
        cases h
        exact .opened hopen
      · cases h
  · rintro (hclosed | hopen)
    · rw [if_pos hclosed]
    · rw [if_neg (not_mem_openStatuses _ hopen), if_pos hopen]

theorem parseIsoDate_eq_ok {text : String} {d : GregorianDate} :
    parseIsoDate text = .ok d ↔ fromisoformat (strip text) = some d := by
  unfold parseIsoDate
  rw [failingClosed_eq_ok]
  cases fromisoformat (strip text) <;> simp

/-- A row that is read: its cells, and what is read of each. -/
theorem rowToObserved_eq_ok {u : UnicodeData} {columns : Columns} {row : List String}
    {result : Option ObservedCalendarDate} :
    rowToObserved u columns row = .ok result ↔
      ∃ segment statusText dateText, HasCells columns row segment statusText dateText ∧
        (isNonNseEquitySegment u segment = true ∧ result = none ∨
          isNonNseEquitySegment u segment = false ∧ isNseEquitySegment u segment = true ∧
            ∃ entry, result = some entry ∧ StatusText u statusText entry.status ∧
              fromisoformat (strip dateText) = some entry.observedDate ∧
              rowIntervals row columns entry.status = .ok entry.intervals) := by
  unfold rowToObserved
  rw [bind_eq_ok]
  constructor
  · rintro ⟨⟨segment, statusText, dateText⟩, hcells, h⟩
    refine ⟨segment, statusText, dateText, requiredCells_eq_ok.mp hcells, ?_⟩
    simp only at h
    split at h
    · next hother =>
      cases h
      exact Or.inl ⟨hother, rfl⟩
    · next hother =>
      split at h
      · next hequity =>
        obtain ⟨status, hstatus, h⟩ := bind_eq_ok.mp h
        obtain ⟨observedDate, hdate, h⟩ := bind_eq_ok.mp h
        obtain ⟨intervals, hintervals, h⟩ := bind_eq_ok.mp h
        cases h
        exact Or.inr ⟨eq_false_of_ne_true hother, hequity, _, rfl, parseStatus_eq_ok.mp hstatus,
          parseIsoDate_eq_ok.mp hdate, hintervals⟩
      · cases h
  · rintro ⟨segment, statusText, dateText, hcells, h⟩
    refine ⟨_, requiredCells_eq_ok.mpr hcells, ?_⟩
    simp only
    rcases h with ⟨hother, rfl⟩ | ⟨hother, hequity, entry, rfl, hstatus, hdate, hintervals⟩
    · rw [if_pos hother]
      rfl
    · rw [if_neg (by simp [hother]), if_pos hequity]
      exact bind_eq_ok.mpr ⟨_, parseStatus_eq_ok.mpr hstatus, bind_eq_ok.mpr ⟨_,
        parseIsoDate_eq_ok.mpr hdate, bind_eq_ok.mpr ⟨_, hintervals, rfl⟩⟩⟩

/-- A step of the reader adds what its row gives, where the dates stay distinct. -/
theorem observeRow_eq_ok {u : UnicodeData} {columns : Columns}
    {observed observed' : List ObservedCalendarDate} {row : List String}
    (hdistinct : (observed.map (·.observedDate)).Nodup) :
    observeRow u columns observed row = .ok observed' ↔
      ∃ entry, rowToObserved u columns row = .ok entry ∧ observed' = observed ++ entry.toList ∧
        (observed'.map (·.observedDate)).Nodup := by
  unfold observeRow
  rw [bind_eq_ok]
  refine exists_congr fun entry => and_congr_right fun _ => ?_
  cases entry with
  | none =>
    simp only [Option.toList_none, List.append_nil]
    constructor
    · intro h
      cases h
      exact ⟨rfl, hdistinct⟩
    · rintro ⟨rfl, _⟩
      rfl
  | some entry =>
    simp only [Option.toList_some]
    by_cases hseen : entry.observedDate ∈ observed.map (·.observedDate)
    · rw [if_pos hseen]
      constructor
      · intro h
        cases h
      · rintro ⟨rfl, hnodup⟩
        rw [List.map_append, List.map_singleton] at hnodup
        exact absurd rfl ((List.nodup_append.mp hnodup).2.2 _ hseen _ (List.mem_singleton_self _))
    · rw [if_neg hseen]
      constructor
      · intro h
        cases h
        refine ⟨rfl, ?_⟩
        rw [List.map_append, List.map_singleton]
        exact hdistinct.append (List.nodup_singleton _) (by simpa using hseen)
      · rintro ⟨rfl, _⟩
        rfl

theorem reduceOption_cons {entry : Option ObservedCalendarDate}
    {entries : List (Option ObservedCalendarDate)} :
    (entry :: entries).reduceOption = entry.toList ++ entries.reduceOption := by
  cases entry <;> rfl

theorem observeRows_eq_ok {u : UnicodeData} {columns : Columns} {rows : List (List String)}
    {observed dates : List ObservedCalendarDate} (hdistinct : (observed.map (·.observedDate)).Nodup) :
    rows.foldlM (observeRow u columns) observed = .ok dates ↔
      ∃ entries, List.Forall₂ (fun row entry => rowToObserved u columns row = .ok entry) rows entries ∧
        dates = observed ++ entries.reduceOption ∧ (dates.map (·.observedDate)).Nodup := by
  induction rows generalizing observed with
  | nil =>
    rw [List.foldlM_nil]
    constructor
    · intro h
      cases h
      exact ⟨[], .nil, (List.append_nil _).symm, hdistinct⟩
    · rintro ⟨entries, hentries, rfl, _⟩
      cases hentries
      exact congrArg Except.ok (List.append_nil _).symm
  | cons row rows ih =>
    rw [List.foldlM_cons, bind_eq_ok]
    constructor
    · rintro ⟨observed', hrow, hrows⟩
      obtain ⟨entry, hentry, rfl, hnodup⟩ := (observeRow_eq_ok hdistinct).mp hrow
      obtain ⟨entries, hentries, hdates, hnodup'⟩ := (ih hnodup).mp hrows
      refine ⟨entry :: entries, .cons hentry hentries, ?_, hnodup'⟩
      rw [hdates, reduceOption_cons, List.append_assoc]
    · rintro ⟨entries, hentries, hdates, hnodup⟩
      cases hentries with
      | @cons _ entry _ entries hentry hentries =>
        rw [reduceOption_cons, ← List.append_assoc] at hdates
        have hnodup' : ((observed ++ entry.toList).map (·.observedDate)).Nodup := by
          rw [hdates, List.map_append] at hnodup
          exact hnodup.of_append_left
        exact ⟨_, (observeRow_eq_ok hdistinct).mpr ⟨entry, hentry, rfl, hnodup'⟩,
          (ih hnodup').mpr ⟨entries, hentries, hdates, hnodup⟩⟩

/-- **The rows that are read**: each is read, and their dates are distinct. -/
theorem rowsToDates_eq_ok {u : UnicodeData} {columns : Columns} {rows : List (List String)}
    {dates : List ObservedCalendarDate} :
    rowsToDates u columns rows = .ok dates ↔
      ∃ entries, List.Forall₂ (fun row entry => rowToObserved u columns row = .ok entry) rows entries ∧
        dates = entries.reduceOption ∧ (dates.map (·.observedDate)).Nodup :=
  observeRows_eq_ok List.nodup_nil

/-! ## The grammar -/

theorem rowIntervals_eq_ok {columns : Columns} {row : List String} {status : ObservedDateStatus}
    {intervals : List ObservedInterval} :
    rowIntervals row columns status = .ok intervals ↔
      RowTimings columns WrittenTimings row status intervals := by
  have hnone : (Except.ok [] : Except CalendarError (List ObservedInterval)) = .ok intervals ↔
      intervals = [] := ⟨fun h => (Except.ok.inj h).symm, fun h => congrArg Except.ok h.symm⟩
  unfold rowIntervals RowTimings
  cases status with
  | closed => exact hnone
  | opened =>
    cases columns.timings with
    | none => exact hnone
    | some index =>
      simp only
      rw [bind_eq_ok]
      constructor
      · rintro ⟨text, htext, hintervals⟩
        exact ⟨text, cellAt_eq_ok.mp (failingClosed_eq_ok.mp htext),
          parseIntervals_eq_ok.mp hintervals⟩
      · rintro ⟨text, htext, hintervals⟩
        exact ⟨text, failingClosed_eq_ok.mpr (cellAt_eq_ok.mpr htext),
          parseIntervals_eq_ok.mpr hintervals⟩

theorem RowReads.rowToObserved {u : UnicodeData} {columns : Columns} {row : List String}
    {result : Option ObservedCalendarDate} (h : RowReads u columns WrittenTimings row result) :
    rowToObserved u columns row = .ok result := by
  apply rowToObserved_eq_ok.mpr
  cases h with
  | ignored cells other => exact ⟨_, _, _, cells, Or.inl ⟨other, rfl⟩⟩
  | @observed _ _ dateText entry cells notOther equity status date intervals =>
    have hdate : fromisoformat (strip dateText) = some entry.observedDate := by
      rw [date]
      exact fromisoformat_text _
    exact ⟨_, _, _, cells,
      Or.inr ⟨notOther, equity, _, rfl, status, hdate, rowIntervals_eq_ok.mpr intervals⟩⟩

/-- The date cell of the row is in no other ISO form, unless the row is of another segment. -/
def HasPlainDate (u : UnicodeData) (columns : Columns) (row : List String) : Prop :=
  ∀ segment statusText dateText, HasCells columns row segment statusText dateText →
    isNonNseEquitySegment u segment = false → ¬ OtherIsoForm (strip dateText)

theorem rowReads_of_rowToObserved {u : UnicodeData} {columns : Columns} {row : List String}
    {result : Option ObservedCalendarDate} (hplain : HasPlainDate u columns row)
    (h : rowToObserved u columns row = .ok result) : RowReads u columns WrittenTimings row result := by
  obtain ⟨segment, statusText, dateText, hcells, h⟩ := rowToObserved_eq_ok.mp h
  rcases h with ⟨hother, rfl⟩ | ⟨hother, hequity, entry, rfl, hstatus, hdate, hintervals⟩
  · exact .ignored hcells hother
  · have hform := hplain _ _ _ hcells hother
    exact .observed hcells hother hequity hstatus ((fromisoformat_eq_some_iff hform).mp hdate)
      (rowIntervals_eq_ok.mp hintervals)

theorem RowReads.of_documented {u : UnicodeData} {columns : Columns} {row : List String}
    {result : Option ObservedCalendarDate} (h : RowReads u columns DocumentedTimings row result) :
    RowReads u columns WrittenTimings row result := by
  cases h with
  | ignored cells other => exact .ignored cells other
  | @observed _ _ _ entry cells notOther equity status date intervals =>
    refine .observed cells notOther equity status date ?_
    unfold RowTimings at intervals ⊢
    split
    · next hstatus => rwa [hstatus] at intervals
    · next hstatus =>
      rw [hstatus] at intervals
      split
      · next hcolumn => rwa [hcolumn] at intervals
      · next index hcolumn =>
        rw [hcolumn] at intervals
        obtain ⟨text, htext, hdocumented⟩ := intervals
        exact ⟨text, htext, hdocumented.written⟩

/-- Rows in the documented grammar are in the grammar that is read. -/
theorem RowsRead.of_documented {u : UnicodeData} {columns : Columns} {rows : List (List String)}
    {dates : List ObservedCalendarDate} (h : RowsRead u columns DocumentedTimings rows dates) :
    RowsRead u columns WrittenTimings rows dates := by
  obtain ⟨entries, hentries, hdates, hnodup⟩ := h
  exact ⟨entries, hentries.imp fun _ _ => RowReads.of_documented, hdates, hnodup⟩

theorem RowsRead.rowsToDates {u : UnicodeData} {columns : Columns} {rows : List (List String)}
    {dates : List ObservedCalendarDate} (h : RowsRead u columns WrittenTimings rows dates) :
    rowsToDates u columns rows = .ok dates := by
  obtain ⟨entries, hentries, hdates, hnodup⟩ := h
  exact rowsToDates_eq_ok.mpr ⟨entries, hentries.imp fun _ _ => RowReads.rowToObserved, hdates, hnodup⟩

/-- **The rows of the grammar are read exactly.**  Nothing but the parse failure is raised; rows in the
grammar say the dates that are read; and no others are read, where dates are in no other ISO form. -/
theorem rows_read_exactly (u : UnicodeData) (columns : Columns) (rows : List (List String)) :
    FailsClosed (rowsToDates u columns rows) ∧
      (∀ dates, RowsRead u columns WrittenTimings rows dates → rowsToDates u columns rows = .ok dates) ∧
      ((∀ row ∈ rows, HasPlainDate u columns row) → ∀ dates,
        rowsToDates u columns rows = .ok dates → RowsRead u columns WrittenTimings rows dates) := by
  refine ⟨rowsToDates_failsClosed u columns rows, fun dates => RowsRead.rowsToDates, ?_⟩
  intro hplain dates h
  obtain ⟨entries, hentries, hdates, hnodup⟩ := rowsToDates_eq_ok.mp h
  refine ⟨entries, ((List.forall₂_and_left _ _).mpr ⟨hplain, hentries⟩).imp ?_, hdates, hnodup⟩
  rintro row entry ⟨hrow, hread⟩
  exact rowReads_of_rowToObserved hrow hread

/-- A page of one row, with an hour of one digit. -/
def oneDigitRow : List String := ["2026-01-26", "NSE", "Open", "9:15-15:30"]

def oneDigitColumns : Columns where
  date := 0
  segment := 1
  status := 2
  timings := some 3

theorem oneDigitRow_parts : splitParts (strip "9:15-15:30") = ["9:15-15:30"] := by decide

theorem oneDigitRow_undocumented (result : Option ObservedCalendarDate) :
    ¬ RowReads asciiData oneDigitColumns DocumentedTimings oneDigitRow result := by
  intro h
  cases h with
  | ignored cells other =>
    obtain rfl := Option.some.inj cells.segment
    exact absurd other (by decide)
  | observed cells notOther equity status date intervals =>
    obtain rfl := Option.some.inj cells.status
    generalize hkind : ObservedCalendarDate.status _ = kind at status intervals
    cases status with
    | closed hclosed => exact absurd hclosed (by decide)
    | opened _ =>
      obtain ⟨text, htext, hdocumented⟩ := intervals
      obtain rfl := Option.some.inj htext
      unfold DocumentedTimings Timings at hdocumented
      rw [if_neg (by decide), List.filter_true, oneDigitRow_parts] at hdocumented
      obtain ⟨_, hparts⟩ := hdocumented
      obtain ⟨interval, _, hpart, _⟩ := List.forall₂_cons_left_iff.mp hparts
      obtain ⟨_, _, hsplit, ⟨_, _, _, _, _, rfl⟩, ⟨_, _, _, _, _, rfl⟩⟩ := hpart
      have hlength := congrArg List.length hsplit
      simp [length_decimal] at hlength

/-- **An interval that is not documented is read.** -/
theorem one_digit_hour :
    (∃ dates, rowsToDates asciiData oneDigitColumns [oneDigitRow] = .ok dates) ∧
      ¬ ∃ dates, RowsRead asciiData oneDigitColumns DocumentedTimings [oneDigitRow] dates := by
  constructor
  · exact ⟨_, rfl⟩
  · rintro ⟨dates, entries, hentries, _⟩
    cases hentries with
    | cons hrow _ => exact oneDigitRow_undocumented _ hrow

end ApexScan.Dhan.Calendar
