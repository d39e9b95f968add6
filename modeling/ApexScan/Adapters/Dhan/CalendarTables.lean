import ApexScan.Adapters.Dhan.CalendarRows
import Mathlib.Data.List.ReduceOption

/-!
# Tables of the holiday page (`app/adapters/dhan/calendar_monitor_parser.py`)

The collector keeps one open table, one open row and one open cell, which the next start tag replaces.
A row is handed to the reader of rows where its end tag comes before the next start tag of a row.

* `HtmlEvent`, `Collector`, `handle`, `collect` — `_HolidayTableParser`; the markup is a list of events.
* `findHeader`, `columnMap`, `recognise`, `extractNseEquityDates`, `parse` — the reader.
* `rowsOf` — the rows that start tags open, each with all of its cells and those that end tags close.
* `Recognised` — where in the events the table is that is read, and the end of its header row.
* `LosesNoRow` — every row opened after the header row is read, from its own cells.
* `EveryRowEnds` — every such row has its end tag, and its closed cells read as all of its cells.
* `handle_between`, `handle_inside`, `tableStep` — what a step of the collector does; `run_body` — what
  it collects after the header row.
* `Recognised.allRead_iff` — every row is read iff every row ends; `Recognised.everyRowEnds` — rows of
  markup that has its end tags do.

Main result: `losesNoRow_iff`.  In `droppedHoliday` an end tag of a row is left out, and its holiday is
lost.
-/

set_option autoImplicit false

namespace ApexScan.Dhan.Calendar

open Lib Deploy

/-! ## The collector -/

/-- What the HTML parser delivers. -/
inductive HtmlEvent where
  | startTag (tag : String)
  | endTag (tag : String)
  | data (text : String)
  deriving DecidableEq, Repr

/-- Whether the row has a header cell, and its cells. -/
abbrev CollectedRow := Bool × List String

/-- `_HolidayTableParser`. -/
structure Collector where
  tables : List (List CollectedRow)
  table : Option (List CollectedRow)
  row : Option (List String)
  cell : Option (List String)
  rowIsHeader : Bool
  deriving DecidableEq

/-- `tag in ("td", "th")`. -/
def isCellTag (tag : String) : Bool := tag = "td" || tag = "th"

/-- `"".join(cell).strip()`. -/
def cellText (cell : List String) : String := strip (String.join cell)

namespace Collector

def initial : Collector where
  tables := []
  table := none
  row := none
  cell := none
  rowIsHeader := false

/-- `handle_starttag`. -/
def handleStartTag (c : Collector) (tag : String) : Collector :=
  if tag = "table" then { c with table := some [] }
  else if tag = "tr" ∧ c.table.isSome = true then { c with row := some [], rowIsHeader := false }
  else if isCellTag tag = true ∧ c.row.isSome = true then
    { c with cell := some [], rowIsHeader := c.rowIsHeader || tag = "th" }
  else c

/-- `handle_endtag`. -/
def handleEndTag (c : Collector) (tag : String) : Collector :=
  if isCellTag tag then
    match c.cell, c.row with
    | some cell, some row => { c with row := some (row ++ [cellText cell]), cell := none }
    | _, _ => c
  else if tag = "tr" then
    match c.row, c.table with
    | some row, some table => { c with table := some (table ++ [(c.rowIsHeader, row)]), row := none }
    | _, _ => c
  else if tag = "table" then
    match c.table with
    | some table => { c with tables := c.tables ++ [table], table := none }
    | none => c
  else c

/-- `handle_data`. -/
def handleData (c : Collector) (text : String) : Collector :=
  { c with cell := c.cell.map (· ++ [text]) }

def handle (c : Collector) : HtmlEvent → Collector
  | .startTag tag => c.handleStartTag tag
  | .endTag tag => c.handleEndTag tag
  | .data text => c.handleData text

end Collector

/-- `feed` and `close`. -/
def collect (events : List HtmlEvent) : Collector := events.foldl Collector.handle .initial

/-! ## The reader -/

/-- `_DATE_HEADERS`. -/
def dateHeaders : List String := ["date", "trading date", "holiday date"]

/-- `_SEGMENT_HEADERS`. -/
def segmentHeaders : List String :=
  ["segment", "exchange", "exchange segment", "exchange/segment", "market"]

/-- `_STATUS_HEADERS`. -/
def statusHeaders : List String := ["status", "type"]

/-- `_TIMING_HEADERS`. -/
def timingHeaders : List String :=
  ["timings", "timing", "session timings", "hours", "session hours"]

/-- `_find_header`: the first row with a header cell, else the first row. -/
def findHeader (table : List CollectedRow) : Option (ℕ × List String) :=
  match table.findIdx? (·.1) with
  | some index => table[index]?.map fun row => (index, row.2)
  | none => table.head?.map fun row => (0, row.2)

/-- `_index_of`. -/
def indexOf (names : List String) (cells : List String) : Option ℕ := cells.findIdx? (· ∈ names)

/-- `_single_year`. -/
def singleYear (dates : List ObservedCalendarDate) : Option ℕ :=
  match dates.map (·.observedDate.year) with
  | [] => none
  | year :: years => if years.all (· = year) then some year else none

/-- `CalendarObservationParseStatus`. -/
inductive ParseStatus where
  | ok
  | parseFailure
  deriving DecidableEq, Repr

/-- `DhanCalendarObservation`. -/
structure Observation where
  source : String
  sourceYear : Option ℕ
  parseStatus : ParseStatus
  dates : List ObservedCalendarDate
  deriving DecidableEq

section Reader

variable (u : UnicodeData)

/-- `_column_map`. -/
def columnMap (header : List String) : Option Columns := do
  let cells := header.map (normalized u)
  let date ← indexOf dateHeaders cells
  let segment ← indexOf segmentHeaders cells
  let status ← indexOf statusHeaders cells
  return { date, segment, status, timings := indexOf timingHeaders cells }

/-- The header row and the columns of a table that is recognised. -/
def recognise (table : List CollectedRow) : Option (ℕ × Columns) := do
  let (index, header) ← findHeader table
  let columns ← columnMap u header
  return (index, columns)

/-- `_extract_nse_equity_dates`. -/
def extractNseEquityDates : List (List CollectedRow) → Except CalendarError (List ObservedCalendarDate)
  | [] => .error .parseFailure
  | table :: tables =>
    match recognise u table with
    | none => extractNseEquityDates tables
    | some (index, columns) => rowsToDates u columns ((table.eraseIdx index).map (·.2))

/-- `DhanMarketHolidayParser.parse`. -/
def parse (source : String) (events : List HtmlEvent) : Except CalendarError Observation :=
  match extractNseEquityDates u (collect events).tables with
  | .ok dates => .ok { source, sourceYear := singleYear dates, parseStatus := .ok, dates }
  | .error .parseFailure =>
    .ok { source, sourceYear := none, parseStatus := .parseFailure, dates := [] }
  | .error e => .error e

end Reader

/-! ## The rows that start tags open -/

def opensCell : HtmlEvent → Bool
  | .startTag tag => isCellTag tag
  | _ => false

def closesCell : HtmlEvent → Bool
  | .endTag tag => isCellTag tag
  | _ => false

/-- A tag of a table. -/
def isTableTag (e : HtmlEvent) : Bool := e = .startTag "table" || e = .endTag "table"

/-- The text of the open cell, outside of rows. -/
def textStep (cell : Option (List String)) : HtmlEvent → Option (List String)
  | .data text => cell.map (· ++ [text])
  | _ => cell

/-- The open cell, in a row. -/
def cellStep (cell : Option (List String)) (e : HtmlEvent) : Option (List String) :=
  if opensCell e then some [] else if closesCell e then none else textStep cell e

/-- The cells of a row.  A cell ends with its end tag, with the next cell and with the row. -/
def ownCells (cell : Option (List String)) : List HtmlEvent → List String
  | [] => (cell.map cellText).toList
  | e :: events =>
    (if opensCell e || closesCell e then (cell.map cellText).toList else []) ++
      ownCells (cellStep cell e) events

/-- The cells that end tags close. -/
def closedCells (cell : Option (List String)) : List HtmlEvent → List String
  | [] => []
  | e :: events =>
    (if closesCell e then (cell.map cellText).toList else []) ++ closedCells (cellStep cell e) events

/-- A row that a start tag opens. -/
structure OpenedRow where
  own : List String
  closed : List String
  ended : Bool

/-- The events of a row, of those up to the next one. -/
def content (segment : List HtmlEvent) : List HtmlEvent := segment.takeWhile (· ≠ .endTag "tr")

/-- The events after a row. -/
def remainder (segment : List HtmlEvent) : List HtmlEvent := segment.dropWhile (· ≠ .endTag "tr")

/-- The cell that is left open. -/
def leftOpen (cell : Option (List String)) (segment : List HtmlEvent) : Option (List String) :=
  (remainder segment).foldl textStep ((content segment).foldl cellStep cell)

/-- The rows of the events after each start tag, where `cell` is open before the first. -/
def openedRows (cell : Option (List String)) : List (List HtmlEvent) → List OpenedRow
  | [] => []
  | segment :: segments =>
    { own := ownCells none (content segment)
      closed := closedCells cell (content segment)
      ended := .endTag "tr" ∈ segment } :: openedRows (leftOpen cell segment) segments

/-- The rows that start tags open in the events, where `cell` is open before them. -/
def rowsOf (cell : Option (List String)) (events : List HtmlEvent) : List OpenedRow :=
  match events.splitOnP (· = .startTag "tr") with
  | [] => []
  | first :: segments => openedRows (first.foldl textStep cell) segments

/-! ## The property -/

/-- The first table that is recognised, and the end of its header row. -/
structure Recognised (u : UnicodeData) (events : List HtmlEvent) where
  before : List HtmlEvent
  head : List HtmlEvent
  body : List HtmlEvent
  after : List HtmlEvent
  table : List CollectedRow
  index : ℕ
  columns : Columns
  split : events = before ++ .startTag "table" ::
    (head ++ .endTag "tr" :: (body ++ .endTag "table" :: after))
  undivided : ∀ e ∈ head ++ body, isTableTag e = false
  earlier : ∀ t ∈ (collect before).tables, recognise u t = none
  collected : (collect (before ++ .startTag "table" :: (head ++ .endTag "tr" :: body))).table =
    some table
  recognised : recognise u table = some (index, columns)
  atHeader : (collect (before ++ .startTag "table" :: head)).table = some (table.take index)
  pastHeader : (collect (before ++ .startTag "table" :: (head ++ [.endTag "tr"]))).table =
    some (table.take (index + 1))

namespace Recognised

variable {u : UnicodeData} {events : List HtmlEvent} (r : Recognised u events)

/-- The cell that the header row leaves open. -/
def openCell : Option (List String) :=
  (collect (r.before ++ .startTag "table" :: (r.head ++ [.endTag "tr"]))).cell

/-- The rows that start tags open after the header row. -/
def rows : List OpenedRow := rowsOf r.openCell r.body

/-- `_row_to_observed`, of the table. -/
def reads (row : List String) : Except CalendarError (Option ObservedCalendarDate) :=
  rowToObserved u r.columns row

/-- Every row that is opened after the header row is read once, from its own cells: the outcomes of the
rows that were collected are those of the rows that were opened, and the dates are theirs. -/
def AllRead (dates : List ObservedCalendarDate) : Prop :=
  ∃ sooner outcomes,
    List.Forall₂ (fun row outcome => r.reads row.2 = .ok outcome) (r.table.take r.index) sooner ∧
    List.Forall₂ (fun row outcome => r.reads row.2 = .ok outcome)
      (r.table.drop (r.index + 1)) outcomes ∧
    List.Forall₂ (fun row outcome => r.reads row.own = .ok outcome) r.rows outcomes ∧
    dates = sooner.reduceOption ++ outcomes.reduceOption ∧ (dates.map (·.observedDate)).Nodup

/-- Every row that is opened after the header row has its end tag before the next one, and its closed
cells read as all of its cells. -/
def EveryRowEnds : Prop :=
  ∀ row ∈ r.rows, row.ended = true ∧ r.reads row.closed = r.reads row.own

end Recognised

/-- The observation is a failure without dates, or every row after the header of the table is read. -/
def LosesNoRow (u : UnicodeData) (events : List HtmlEvent) (observation : Observation) : Prop :=
  observation.parseStatus = .parseFailure ∧ observation.dates = [] ∨
    observation.parseStatus = .ok ∧ Nonempty (Recognised u events) ∧
      ∀ r : Recognised u events, r.AllRead observation.dates

/-! ## Steps of the collector -/

/-- Between rows, only text is taken. -/
theorem handle_between {c : Collector} {e : HtmlEvent} (hrow : c.row = none)
    (hstart : e ≠ .startTag "tr") (htable : isTableTag e = false) :
    c.handle e = { c with cell := textStep c.cell e } := by
  obtain ⟨tables, table, row, cell, rowIsHeader⟩ := c
  obtain rfl : row = none := hrow
  cases e with
  | startTag tag =>
    have htag : tag ≠ "tr" := fun h => hstart (congrArg _ h)
    have htag' : tag ≠ "table" := by
      rintro rfl
      cases htable
    simp [Collector.handle, Collector.handleStartTag, htag, htag', textStep]
  | endTag tag =>
    have htag : tag ≠ "table" := by
      rintro rfl
      cases htable
    simp [Collector.handle, Collector.handleEndTag, htag, textStep]
  | data text => rfl

/-- In a row, its cells are taken. -/
theorem handle_inside {c : Collector} {row : List String} {e : HtmlEvent} (hrow : c.row = some row)
    (hstart : e ≠ .startTag "tr") (hend : e ≠ .endTag "tr") (htable : isTableTag e = false) :
    ∃ flag, c.handle e =
      { c with
        row := some (row ++ if closesCell e then (c.cell.map cellText).toList else [])
        cell := cellStep c.cell e
        rowIsHeader := flag } := by
  cases e with
  | startTag tag =>
    have htag : tag ≠ "tr" := fun h => hstart (congrArg _ h)
    have htag' : tag ≠ "table" := by
      rintro rfl
      cases htable
    by_cases hcell : isCellTag tag = true
    · refine ⟨c.rowIsHeader || tag = "th", ?_⟩
      simp [Collector.handle, Collector.handleStartTag, htag, htag', hrow, hcell, cellStep, opensCell,
        closesCell]
    · refine ⟨c.rowIsHeader, ?_⟩
      simp [Collector.handle, Collector.handleStartTag, htag, htag', hcell, cellStep, opensCell,
        closesCell, textStep, ← hrow]
  | endTag tag =>
    have htag : tag ≠ "tr" := fun h => hend (congrArg _ h)
    have htag' : tag ≠ "table" := by
      rintro rfl
      cases htable
    refine ⟨c.rowIsHeader, ?_⟩
    by_cases hcell : isCellTag tag = true
    · cases hopen : c.cell with
      | none =>
        simp [Collector.handle, Collector.handleEndTag, hcell, hopen, cellStep, opensCell, closesCell,
          ← hrow]
        simp [← hopen]
      | some cell =>
        simp [Collector.handle, Collector.handleEndTag, hcell, hopen, hrow, cellStep, opensCell,
          closesCell]
    · simp [Collector.handle, Collector.handleEndTag, htag, htag', hcell, cellStep, opensCell,
        closesCell, textStep, ← hrow]
  | data text =>
    refine ⟨c.rowIsHeader, ?_⟩
    simp [Collector.handle, Collector.handleData, cellStep, opensCell, closesCell, textStep, ← hrow]

/-- The end tag of a row hands it over. -/
theorem handle_rowEnd {c : Collector} {row : List String} {table : List CollectedRow}
    (hrow : c.row = some row) (htable : c.table = some table) :
    c.handle (.endTag "tr") =
      { c with table := some (table ++ [(c.rowIsHeader, row)]), row := none } := by
  simp [Collector.handle, Collector.handleEndTag, isCellTag, hrow, htable]

theorem handle_rowStart {c : Collector} {table : List CollectedRow} (htable : c.table = some table) :
    c.handle (.startTag "tr") = { c with row := some [], rowIsHeader := false } := by
  simp [Collector.handle, Collector.handleStartTag, htable]

/-! ## Runs of the collector -/

theorem run_between {c : Collector} {events : List HtmlEvent} (hrow : c.row = none)
    (hstart : ∀ e ∈ events, e ≠ .startTag "tr") (htable : ∀ e ∈ events, isTableTag e = false) :
    events.foldl Collector.handle c = { c with cell := events.foldl textStep c.cell } := by
  induction events generalizing c with
  | nil => rfl
  | cons e events ih =>
    obtain ⟨hstart, hstarts⟩ := List.forall_mem_cons.mp hstart
    obtain ⟨htable, htables⟩ := List.forall_mem_cons.mp htable
    rw [List.foldl_cons, handle_between hrow hstart htable]
    exact ih hrow hstarts htables

theorem run_inside {c : Collector} {row : List String} {events : List HtmlEvent}
    (hrow : c.row = some row) (hstart : ∀ e ∈ events, e ≠ .startTag "tr")
    (hend : ∀ e ∈ events, e ≠ .endTag "tr") (htable : ∀ e ∈ events, isTableTag e = false) :
    (events.foldl Collector.handle c).row = some (row ++ closedCells c.cell events) ∧
      (events.foldl Collector.handle c).cell = events.foldl cellStep c.cell ∧
      (events.foldl Collector.handle c).table = c.table := by
  induction events generalizing c row with
  | nil =>
    refine ⟨?_, rfl, rfl⟩
    rw [closedCells, List.append_nil]
    exact hrow
  | cons e events ih =>
    obtain ⟨hstart, hstarts⟩ := List.forall_mem_cons.mp hstart
    obtain ⟨hend, hends⟩ := List.forall_mem_cons.mp hend
    obtain ⟨htable, htables⟩ := List.forall_mem_cons.mp htable
    obtain ⟨flag, hstep⟩ := handle_inside hrow hstart hend htable
    obtain ⟨hrow', hcell', htable'⟩ := ih (c := c.handle e) (by rw [hstep]) hstarts hends htables
    rw [List.foldl_cons, hrow', hcell', htable', hstep]
    refine ⟨?_, rfl, rfl⟩
    rw [List.append_assoc]
    rfl

/-- The row that an event list hands over. -/
def handedRow (cell : Option (List String)) (segment : List HtmlEvent) : List (List String) :=
  if .endTag "tr" ∈ segment then [closedCells cell (content segment)] else []

theorem takeWhile_eq_self {segment : List HtmlEvent} (h : .endTag "tr" ∉ segment) :
    content segment = segment ∧ remainder segment = [] := by
  have hall : ∀ e ∈ segment, decide (e ≠ .endTag "tr") = true := by
    intro e he
    refine decide_eq_true ?_
    rintro rfl
    exact h he
  exact ⟨List.takeWhile_eq_self_iff.mpr hall, List.dropWhile_eq_nil_iff.mpr hall⟩

theorem remainder_eq_cons {segment : List HtmlEvent} (h : .endTag "tr" ∈ segment) :
    ∃ rest, remainder segment = .endTag "tr" :: rest := by
  unfold remainder
  cases hdrop : segment.dropWhile (· ≠ .endTag "tr") with
  | nil => exact absurd (List.dropWhile_eq_nil_iff.mp hdrop _ h) (by simp)
  | cons e rest =>
    have hfirst := List.head?_dropWhile_not (· ≠ HtmlEvent.endTag "tr") segment
    rw [hdrop] at hfirst
    simp only [List.head?_cons, decide_eq_false_iff_not, not_not] at hfirst
    exact ⟨rest, by rw [hfirst]⟩

theorem content_append_remainder (segment : List HtmlEvent) :
    content segment ++ remainder segment = segment := List.takeWhile_append_dropWhile

/-- **A row is handed over with its end tag**, with the cells that end tags close. -/
theorem run_segment {c : Collector} {table : List CollectedRow} {segment : List HtmlEvent}
    (hopen : c.table = some table) (hrow : c.row = some [])
    (hstart : ∀ e ∈ segment, e ≠ .startTag "tr") (htable : ∀ e ∈ segment, isTableTag e = false) :
    ∃ rows, (segment.foldl Collector.handle c).table = some (table ++ rows) ∧
      rows.map (·.2) = handedRow c.cell segment ∧
      (segment.foldl Collector.handle c).cell = leftOpen c.cell segment := by
  have hsplit := content_append_remainder segment
  have hcontent : ∀ e ∈ content segment, e ∈ segment ∧ e ≠ .endTag "tr" := by
    intro e he
    unfold content at he
    have hnot := List.mem_takeWhile_imp he
    exact ⟨(List.takeWhile_sublist _).subset he, of_decide_eq_true hnot⟩
  obtain ⟨hrow', hcell', htable'⟩ := run_inside hrow (fun e he => hstart e (hcontent e he).1)
    (fun e he => (hcontent e he).2) (fun e he => htable e (hcontent e he).1)
  rw [List.nil_append] at hrow'
  rw [hopen] at htable'
  unfold handedRow leftOpen
  rw [← hcell']
  by_cases hended : .endTag "tr" ∈ segment
  · obtain ⟨rest, hrest⟩ := remainder_eq_cons hended
    rw [hrest] at hsplit
    have hmem : ∀ e ∈ rest, e ∈ segment := by
      intro e he
      rw [← hsplit]
      exact List.mem_append_right _ (List.mem_cons_of_mem _ he)
    have hrun : segment.foldl Collector.handle c = rest.foldl Collector.handle
        (((content segment).foldl Collector.handle c).handle (.endTag "tr")) := by
      conv_lhs => rw [← hsplit]
      rw [List.foldl_append, List.foldl_cons]
    generalize (content segment).foldl Collector.handle c = inside at *
    rw [handle_rowEnd hrow' htable', run_between rfl (fun e he => hstart e (hmem e he))
      (fun e he => htable e (hmem e he))] at hrun
    rw [if_pos hended, hrest, hrun]
    exact ⟨[(inside.rowIsHeader, _)], rfl, rfl, rfl⟩
  · obtain ⟨hwhole, hnone⟩ := takeWhile_eq_self hended
    rw [hwhole] at htable' ⊢
    rw [if_neg hended, hnone]
    exact ⟨[], by rw [htable', List.append_nil], rfl, rfl⟩

/-- The rows that the rows opened hand over. -/
theorem run_segments {c : Collector} {table : List CollectedRow} {segments : List (List HtmlEvent)}
    (hopen : c.table = some table) (hstart : ∀ segment ∈ segments, ∀ e ∈ segment, e ≠ .startTag "tr")
    (htable : ∀ segment ∈ segments, ∀ e ∈ segment, isTableTag e = false) :
    ∃ rows, ((segments.flatMap (.startTag "tr" :: ·)).foldl Collector.handle c).table =
        some (table ++ rows) ∧
      rows.map (·.2) = ((openedRows c.cell segments).filter (·.ended)).map (·.closed) := by
  induction segments generalizing c table with
  | nil => exact ⟨[], by rw [List.append_nil]; exact hopen, rfl⟩
  | cons segment segments ih =>
    obtain ⟨hstart, hstarts⟩ := List.forall_mem_cons.mp hstart
    obtain ⟨htable, htables⟩ := List.forall_mem_cons.mp htable
    rw [List.flatMap_cons, List.foldl_append, List.foldl_cons, handle_rowStart hopen]
    obtain ⟨rows, hrun, hrows, hcell⟩ :=
      run_segment (c := { c with row := some [], rowIsHeader := false }) hopen rfl hstart htable
    obtain ⟨rows', hrun', hrows'⟩ := ih hrun hstarts htables
    refine ⟨rows ++ rows', ?_, ?_⟩
    · rw [hrun', List.append_assoc]
    · rw [List.map_append, hrows, hrows', hcell, openedRows]
      unfold handedRow
      by_cases hended : .endTag "tr" ∈ segment
      · rw [if_pos hended, List.filter_cons_of_pos (by simpa using hended)]
        rfl
      · rw [if_neg hended, List.filter_cons_of_neg (by simpa using hended)]
        rfl

/-- Where the starts of rows divide the events. -/
theorem splitOnP_rowStart (events : List HtmlEvent) :
    ∃ first segments, events.splitOnP (· = .startTag "tr") = first :: segments ∧
      events = first ++ segments.flatMap (.startTag "tr" :: ·) ∧
      (∀ e ∈ first, e ≠ .startTag "tr") ∧
      ∀ segment ∈ segments, ∀ e ∈ segment, e ≠ .startTag "tr" := by
  induction events with
  | nil => exact ⟨[], [], by rw [List.splitOnP_nil], rfl, by simp, by simp⟩
  | cons e events ih =>
    obtain ⟨first, segments, hsplit, hevents, hfirst, hsegments⟩ := ih
    rw [List.splitOnP_cons_eq_if_modifyHead, hsplit]
    by_cases he : e = .startTag "tr"
    · refine ⟨[], first :: segments, if_pos (decide_eq_true he), ?_, by simp, ?_⟩
      · rw [he, hevents]
        rfl
      · exact List.forall_mem_cons.mpr ⟨hfirst, hsegments⟩
    · refine ⟨e :: first, segments, if_neg (by simpa using he), ?_, ?_, hsegments⟩
      · rw [hevents]
        rfl
      · exact List.forall_mem_cons.mpr ⟨he, hfirst⟩

/-- **What is collected between rows** are the closed cells of the rows that end. -/
theorem run_body {c : Collector} {table : List CollectedRow} {body : List HtmlEvent}
    (hopen : c.table = some table) (hrow : c.row = none) (htable : ∀ e ∈ body, isTableTag e = false) :
    ∃ rows, (body.foldl Collector.handle c).table = some (table ++ rows) ∧
      rows.map (·.2) = ((rowsOf c.cell body).filter (·.ended)).map (·.closed) := by
  obtain ⟨first, segments, hsplit, hbody, hfirst, hsegments⟩ := splitOnP_rowStart body
  have hmem : (∀ e ∈ first, isTableTag e = false) ∧
      ∀ segment ∈ segments, ∀ e ∈ segment, isTableTag e = false := by
    constructor
    · intro e he
      refine htable e ?_
      rw [hbody]
      exact List.mem_append_left _ he
    · intro segment hsegment e he
      refine htable e ?_
      rw [hbody]
      exact List.mem_append_right _
        (List.mem_flatMap.mpr ⟨segment, hsegment, List.mem_cons_of_mem _ he⟩)
  have hrun := run_between hrow hfirst hmem.1
  unfold rowsOf
  rw [hsplit]
  have hafter := run_segments (c := { c with cell := first.foldl textStep c.cell }) hopen hsegments
    hmem.2
  rw [← hrun, ← List.foldl_append, ← hbody] at hafter
  obtain ⟨rows, hrows, hclosed⟩ := hafter
  rw [hrun] at hclosed
  exact ⟨rows, hrows, hclosed⟩

/-! ## Where the table is -/

@[simp] theorem collect_concat (events : List HtmlEvent) (e : HtmlEvent) :
    collect (events ++ [e]) = (collect events).handle e := by
  simp [collect]

/-- What an event does to the tables. -/
inductive TableStep (c : Collector) (e : HtmlEvent) (c' : Collector) : Prop
  | opens (event : e = .startTag "table") (tables : c'.tables = c.tables) (table : c'.table = some [])
  | closes (table : List CollectedRow) (event : e = .endTag "table") (opened : c.table = some table)
      (tables : c'.tables = c.tables ++ [table]) (closed : c'.table = none)
  | adds (table : List CollectedRow) (row : CollectedRow) (event : e = .endTag "tr")
      (opened : c.table = some table) (tables : c'.tables = c.tables)
      (added : c'.table = some (table ++ [row])) (rowClosed : c'.row = none)
  | keeps (noStart : e ≠ .startTag "table") (noEnd : e = .endTag "table" → c.table = none)
      (tables : c'.tables = c.tables) (table : c'.table = c.table)

theorem handleStartTag_step (c : Collector) {tag : String} (h : tag ≠ "table") :
    (c.handleStartTag tag).tables = c.tables ∧ (c.handleStartTag tag).table = c.table := by
  rw [Collector.handleStartTag, if_neg h]
  split
  · exact ⟨rfl, rfl⟩
  · split
    · exact ⟨rfl, rfl⟩
    · exact ⟨rfl, rfl⟩

theorem handleEndTag_step (c : Collector) {tag : String} (hrow : tag ≠ "tr") (htable : tag ≠ "table") :
    (c.handleEndTag tag).tables = c.tables ∧ (c.handleEndTag tag).table = c.table := by
  rw [Collector.handleEndTag]
  split
  · split
    · exact ⟨rfl, rfl⟩
    · exact ⟨rfl, rfl⟩
  · exact ⟨rfl, rfl⟩

theorem handle_rowEnd_keeps {c : Collector} (h : c.row = none ∨ c.table = none) :
    c.handle (.endTag "tr") = c := by
  rcases h with h | h
  · simp [Collector.handle, Collector.handleEndTag, isCellTag, h]
  · simp [Collector.handle, Collector.handleEndTag, isCellTag, h]

theorem handle_tableEnd {c : Collector} {table : List CollectedRow} (h : c.table = some table) :
    c.handle (.endTag "table") = { c with tables := c.tables ++ [table], table := none } := by
  simp [Collector.handle, Collector.handleEndTag, isCellTag, h]

theorem handle_tableEnd_keeps {c : Collector} (h : c.table = none) :
    c.handle (.endTag "table") = c := by
  simp [Collector.handle, Collector.handleEndTag, isCellTag, h]

theorem tableStep (c : Collector) (e : HtmlEvent) : TableStep c e (c.handle e) := by
  cases e with
  | startTag tag =>
    by_cases htable : tag = "table"
    · subst htable
      exact .opens rfl rfl rfl
    · have hkept := handleStartTag_step c htable
      exact .keeps (by simpa using htable) (by simp) hkept.1 hkept.2
  | endTag tag =>
    by_cases hrow : tag = "tr"
    · subst hrow
      cases hopen : c.table with
      | none =>
        rw [handle_rowEnd_keeps (Or.inr hopen)]
        exact .keeps (by simp) (by simp) rfl rfl
      | some table =>
        cases hr : c.row with
        | none =>
          rw [handle_rowEnd_keeps (Or.inl hr)]
          exact .keeps (by simp) (by simp) rfl rfl
        | some row =>
          rw [handle_rowEnd hr hopen]
          exact .adds table (c.rowIsHeader, row) rfl hopen rfl rfl rfl
    · by_cases htable : tag = "table"
      · subst htable
        cases hopen : c.table with
        | none =>
          rw [handle_tableEnd_keeps hopen]
          exact .keeps (by simp) (fun _ => hopen) rfl rfl
        | some table =>
          rw [handle_tableEnd hopen]
          exact .closes table rfl hopen rfl rfl
      · have hkept := handleEndTag_step c hrow htable
        exact .keeps (by simp) (by simpa using fun h => absurd h htable) hkept.1 hkept.2
  | data text => exact .keeps (by simp) (by simp) rfl rfl

/-- The open table: its start tag, and no tag of a table since. -/
theorem exists_tableStart {events : List HtmlEvent} {table : List CollectedRow}
    (h : (collect events).table = some table) :
    ∃ before inner, events = before ++ .startTag "table" :: inner ∧
      (∀ e ∈ inner, isTableTag e = false) ∧ (collect before).tables = (collect events).tables := by
  induction events using List.reverseRecOn generalizing table with
  | nil => cases h
  | append_singleton events e ih =>
    rw [collect_concat] at h ⊢
    have hlater {table' : List CollectedRow} (hopen : (collect events).table = some table')
        (hkept : ((collect events).handle e).tables = (collect events).tables)
        (htag : isTableTag e = false) :
        ∃ before inner, events ++ [e] = before ++ .startTag "table" :: inner ∧
          (∀ e ∈ inner, isTableTag e = false) ∧
            (collect before).tables = ((collect events).handle e).tables := by
      obtain ⟨before, inner, hsplit, hinner, htables⟩ := ih hopen
      refine ⟨before, inner ++ [e], ?_, ?_, by rw [htables, hkept]⟩
      · rw [hsplit, List.append_assoc]
        rfl
      · exact List.forall_mem_append.mpr ⟨hinner, List.forall_mem_singleton.mpr htag⟩
    cases tableStep (collect events) e with
    | opens hevent htables _ => exact ⟨events, [], by rw [hevent], by simp, htables.symm⟩
    | closes _ _ _ _ hclosed =>
      rw [hclosed] at h
      cases h
    | adds table' row hevent hopen htables _ _ => exact hlater hopen htables (by rw [hevent]; rfl)
    | keeps hstart hend htables hkept =>
      rw [hkept] at h
      have hnot : e ≠ .endTag "table" := by
        intro he
        rw [hend he] at h
        cases h
      exact hlater h htables (by simp [isTableTag, hstart, hnot])

/-- A table that was collected: its start tag, and its end tag. -/
theorem exists_tableTags {events : List HtmlEvent} {earlier later : List (List CollectedRow)}
    {table : List CollectedRow} (h : (collect events).tables = earlier ++ table :: later) :
    ∃ before inner after,
      events = before ++ .startTag "table" :: (inner ++ .endTag "table" :: after) ∧
      (∀ e ∈ inner, isTableTag e = false) ∧ (collect before).tables = earlier ∧
      (collect (before ++ .startTag "table" :: inner)).table = some table := by
  induction events using List.reverseRecOn generalizing later with
  | nil =>
    have hlength := congrArg List.length h
    simp [collect, Collector.initial] at hlength
  | append_singleton events e ih =>
    rw [collect_concat] at h
    have hlater {later' : List (List CollectedRow)}
        (hold : (collect events).tables = earlier ++ table :: later') :
        ∃ before inner after,
          events ++ [e] = before ++ .startTag "table" :: (inner ++ .endTag "table" :: after) ∧
          (∀ e ∈ inner, isTableTag e = false) ∧ (collect before).tables = earlier ∧
          (collect (before ++ .startTag "table" :: inner)).table = some table := by
      obtain ⟨before, inner, after, hsplit, hrest⟩ := ih hold
      refine ⟨before, inner, after ++ [e], ?_, hrest⟩
      rw [hsplit]
      simp
    cases tableStep (collect events) e with
    | opens _ htables _ => exact hlater (htables.symm.trans h)
    | adds _ _ _ _ htables _ _ => exact hlater (htables.symm.trans h)
    | keeps _ _ htables _ => exact hlater (htables.symm.trans h)
    | closes last hevent hopen htables _ =>
      rw [htables] at h
      rcases List.eq_nil_or_concat later with rfl | ⟨later', x, rfl⟩
      · obtain ⟨rfl, hlast⟩ := List.append_inj' h rfl
        obtain rfl := (List.cons.inj hlast).1
        obtain ⟨before, inner, hsplit, hinner, htables'⟩ := exists_tableStart hopen
        refine ⟨before, inner, [], ?_, hinner, htables', ?_⟩
        · rw [hsplit, hevent]
          simp
        · rw [← hsplit]
          exact hopen
      · rw [List.concat_eq_append, ← List.cons_append, ← List.append_assoc] at h
        exact hlater (List.append_inj' h rfl).1

/-- A row that was collected: its end tag. -/
theorem exists_rowEnd {before inner : List HtmlEvent} {table : List CollectedRow} {index : ℕ}
    (hinner : ∀ e ∈ inner, isTableTag e = false)
    (hopen : (collect (before ++ .startTag "table" :: inner)).table = some table)
    (hindex : index < table.length) :
    ∃ head body, inner = head ++ .endTag "tr" :: body ∧
      (collect (before ++ .startTag "table" :: head)).table = some (table.take index) ∧
      (collect (before ++ .startTag "table" :: (head ++ [.endTag "tr"]))).table =
        some (table.take (index + 1)) := by
  induction inner using List.reverseRecOn generalizing table with
  | nil =>
    rw [collect_concat] at hopen
    obtain rfl : [] = table := Option.some.inj hopen
    cases hindex
  | append_singleton inner e ih =>
    obtain ⟨hinner, htag⟩ := List.forall_mem_append.mp hinner
    have htag := List.forall_mem_singleton.mp htag
    rw [← List.cons_append, ← List.append_assoc, collect_concat] at hopen
    have hlater {table' : List CollectedRow}
        (hold : (collect (before ++ .startTag "table" :: inner)).table = some table')
        (hpre : table' <+: table) (hshort : index < table'.length) :
        ∃ head body, inner ++ [e] = head ++ .endTag "tr" :: body ∧
          (collect (before ++ .startTag "table" :: head)).table = some (table.take index) ∧
          (collect (before ++ .startTag "table" :: (head ++ [.endTag "tr"]))).table =
            some (table.take (index + 1)) := by
      obtain ⟨more, rfl⟩ := hpre
      obtain ⟨head, body, hsplit, hat, hpast⟩ := ih hinner hold hshort
      refine ⟨head, body ++ [e], ?_, ?_, ?_⟩
      · rw [hsplit]
        simp
      · rw [List.take_append_of_le_length (by omega), hat]
      · rw [List.take_append_of_le_length (by omega), hpast]
    cases tableStep (collect (before ++ .startTag "table" :: inner)) e with
    | opens hevent _ _ =>
      rw [hevent] at htag
      cases htag
    | closes _ hevent _ _ _ =>
      rw [hevent] at htag
      cases htag
    | keeps _ _ _ hkept =>
      rw [hkept] at hopen
      exact hlater hopen (List.prefix_refl _) hindex
    | adds table' row hevent hold _ hadded _ =>
      obtain rfl : table' ++ [row] = table := Option.some.inj (hadded.symm.trans hopen)
      by_cases hlast : index < table'.length
      · exact hlater hold (List.prefix_append _ _) hlast
      · obtain rfl : index = table'.length := by
          rw [List.length_append, List.length_singleton] at hindex
          omega
        refine ⟨inner, [], by rw [hevent], ?_, ?_⟩
        · rw [List.take_left, hold]
        · rw [List.take_of_length_le (by simp), ← hevent, ← List.cons_append, ← List.append_assoc,
            collect_concat, hopen]

theorem collect_append (events more : List HtmlEvent) :
    collect (events ++ more) = more.foldl Collector.handle (collect events) := by
  rw [collect, List.foldl_append]
  rfl

/-- Collected tables stay. -/
theorem tables_prefix (c : Collector) (events : List HtmlEvent) :
    ∃ later, (events.foldl Collector.handle c).tables = c.tables ++ later := by
  induction events generalizing c with
  | nil => exact ⟨[], (List.append_nil _).symm⟩
  | cons e events ih =>
    obtain ⟨later, hlater⟩ := ih (c.handle e)
    rw [List.foldl_cons, hlater]
    cases tableStep c e with
    | opens _ htables _ => exact ⟨later, by rw [htables]⟩
    | adds _ _ _ _ htables _ _ => exact ⟨later, by rw [htables]⟩
    | keeps _ _ htables _ => exact ⟨later, by rw [htables]⟩
    | closes table _ _ htables _ => exact ⟨table :: later, by rw [htables, List.append_assoc]; rfl⟩

/-- Inside a table, no table is collected. -/
theorem run_tables {c : Collector} {inner : List HtmlEvent} (h : ∀ e ∈ inner, isTableTag e = false) :
    (inner.foldl Collector.handle c).tables = c.tables := by
  induction inner generalizing c with
  | nil => rfl
  | cons e inner ih =>
    obtain ⟨htag, hinner⟩ := List.forall_mem_cons.mp h
    rw [List.foldl_cons, ih hinner]
    cases tableStep c e with
    | opens _ htables _ => exact htables
    | adds _ _ _ _ htables _ _ => exact htables
    | keeps _ _ htables _ => exact htables
    | closes _ hevent _ _ _ =>
      rw [hevent] at htag
      cases htag

theorem recognise_lt {u : UnicodeData} {table : List CollectedRow} {index : ℕ} {columns : Columns}
    (h : recognise u table = some (index, columns)) : index < table.length := by
  obtain ⟨⟨found, header⟩, hfound, hrest⟩ := Option.bind_eq_some_iff.mp h
  obtain ⟨_, _, hpair⟩ := Option.bind_eq_some_iff.mp hrest
  cases hpair
  unfold findHeader at hfound
  split at hfound
  · next i hi =>
    obtain ⟨row, hrow, hpair⟩ := Option.map_eq_some_iff.mp hfound
    cases hpair
    exact (List.getElem?_eq_some_iff.mp hrow).1
  · obtain ⟨row, hrow, hpair⟩ := Option.map_eq_some_iff.mp hfound
    cases hpair
    cases table with
    | nil => cases hrow
    | cons => exact Nat.succ_pos _

theorem extract_of_first {u : UnicodeData} {earlier later : List (List CollectedRow)}
    {table : List CollectedRow} {index : ℕ} {columns : Columns}
    (hearlier : ∀ t ∈ earlier, recognise u t = none) (h : recognise u table = some (index, columns)) :
    extractNseEquityDates u (earlier ++ table :: later) =
      rowsToDates u columns ((table.eraseIdx index).map (·.2)) := by
  induction earlier with
  | nil =>
    rw [List.nil_append, extractNseEquityDates, h]
  | cons t earlier ih =>
    obtain ⟨hfirst, hothers⟩ := List.forall_mem_cons.mp hearlier
    rw [List.cons_append, extractNseEquityDates, hfirst]
    exact ih hothers

/-- Where dates are extracted, there is a first table that is recognised. -/
theorem exists_first {u : UnicodeData} {tables : List (List CollectedRow)}
    {dates : List ObservedCalendarDate} (h : extractNseEquityDates u tables = .ok dates) :
    ∃ earlier table later index columns, tables = earlier ++ table :: later ∧
      (∀ t ∈ earlier, recognise u t = none) ∧ recognise u table = some (index, columns) := by
  induction tables with
  | nil => cases h
  | cons table tables ih =>
    cases hrecognise : recognise u table with
    | some found => exact ⟨[], table, tables, found.1, found.2, rfl, by simp, hrecognise⟩
    | none =>
      rw [extractNseEquityDates, hrecognise] at h
      obtain ⟨earlier, t, later, index, columns, hsplit, hearlier, ht⟩ := ih h
      refine ⟨table :: earlier, t, later, index, columns, by rw [hsplit]; rfl, ?_, ht⟩
      exact List.forall_mem_cons.mpr ⟨hrecognise, hearlier⟩

theorem extract_failsClosed (u : UnicodeData) (tables : List (List CollectedRow)) :
    FailsClosed (extractNseEquityDates u tables) := by
  induction tables with
  | nil => exact raisesOnly_error rfl
  | cons table tables ih =>
    rw [extractNseEquityDates]
    split
    · exact ih
    · exact rowsToDates_failsClosed _ _ _

theorem exists_recognised {u : UnicodeData} {events : List HtmlEvent}
    {dates : List ObservedCalendarDate}
    (h : extractNseEquityDates u (collect events).tables = .ok dates) :
    Nonempty (Recognised u events) := by
  obtain ⟨earlier, table, later, index, columns, htables, hearlier, hrecognise⟩ := exists_first h
  obtain ⟨before, inner, after, hsplit, hinner, hbefore, hopen⟩ := exists_tableTags htables
  obtain ⟨head, body, hbody, hat, hpast⟩ := exists_rowEnd hinner hopen (recognise_lt hrecognise)
  refine ⟨{
    before, head, body, after, table, index, columns
    split := ?_
    undivided := ?_
    earlier := ?_
    collected := ?_
    recognised := hrecognise
    atHeader := hat
    pastHeader := hpast }⟩
  · rw [hsplit, hbody]
    simp
  · intro e he
    refine hinner e ?_
    rw [hbody]
    rcases List.mem_append.mp he with he | he
    · exact List.mem_append_left _ he
    · exact List.mem_append_right _ (List.mem_cons_of_mem _ he)
  · rw [hbefore]
    exact hearlier
  · rw [← hbody]
    exact hopen

namespace Recognised

variable {u : UnicodeData} {events : List HtmlEvent} (r : Recognised u events)

/-- The dates are those of the table. -/
theorem extract_eq : extractNseEquityDates u (collect events).tables =
    rowsToDates u r.columns ((r.table.eraseIdx r.index).map (·.2)) := by
  have hevents : events = (r.before ++ .startTag "table" :: (r.head ++ .endTag "tr" :: r.body)) ++
      (.endTag "table" :: r.after) := r.split.trans (by simp)
  have hinner : (collect (r.before ++ .startTag "table" :: (r.head ++ .endTag "tr" :: r.body))).tables =
      (collect r.before).tables := by
    rw [collect_append, List.foldl_cons, run_tables]
    · rfl
    · intro e he
      rcases List.mem_append.mp he with he | he
      · exact r.undivided e (List.mem_append_left _ he)
      · rcases List.mem_cons.mp he with rfl | he
        · rfl
        · exact r.undivided e (List.mem_append_right _ he)
  obtain ⟨later, hlater⟩ := tables_prefix
    ((collect (r.before ++ .startTag "table" :: (r.head ++ .endTag "tr" :: r.body))).handle
      (.endTag "table")) r.after
  rw [handle_tableEnd r.collected, hinner] at hlater
  have htables : (collect events).tables = (collect r.before).tables ++ r.table :: later := by
    refine (congrArg (fun es => (collect es).tables) hevents).trans ?_
    rw [collect_append, List.foldl_cons, handle_tableEnd r.collected, hinner, hlater]
    simp
  rw [htables]
  exact extract_of_first r.earlier r.recognised

theorem row_pastHeader :
    (collect (r.before ++ .startTag "table" :: (r.head ++ [.endTag "tr"]))).row = none := by
  have hpast := r.pastHeader
  have hat := r.atHeader
  rw [← List.cons_append, ← List.append_assoc, collect_concat] at hpast ⊢
  cases tableStep (collect (r.before ++ .startTag "table" :: r.head)) (.endTag "tr") with
  | opens hevent _ _ => cases hevent
  | closes _ hevent _ _ _ => exact absurd hevent (by simp)
  | adds _ _ _ _ _ _ hclosed => exact hclosed
  | keeps _ _ _ hkept =>
    rw [hpast, hat] at hkept
    have hlength := congrArg List.length (Option.some.inj hkept)
    have hlt := recognise_lt r.recognised
    rw [List.length_take, List.length_take] at hlength
    omega

/-- **The rows that are collected after the header row** are the closed cells of the rows that end. -/
theorem map_drop : (r.table.drop (r.index + 1)).map (·.2) =
    (r.rows.filter (·.ended)).map (·.closed) := by
  have hbody : ∀ e ∈ r.body, isTableTag e = false :=
    fun e he => r.undivided e (List.mem_append_right _ he)
  obtain ⟨rows, hrun, hrows⟩ := run_body r.pastHeader r.row_pastHeader hbody
  have hcollected := r.collected
  rw [show r.before ++ .startTag "table" :: (r.head ++ .endTag "tr" :: r.body) =
    (r.before ++ .startTag "table" :: (r.head ++ [.endTag "tr"])) ++ r.body by simp,
    collect_append, hrun] at hcollected
  have htable := Option.some.inj hcollected
  have hdrop : r.table.drop (r.index + 1) = rows := by
    have hlength : (r.table.take (r.index + 1)).length = r.index + 1 := by
      have hlt := recognise_lt r.recognised
      rw [List.length_take]
      omega
    calc r.table.drop (r.index + 1)
        = (r.table.take (r.index + 1) ++ rows).drop (r.index + 1) := congrArg _ htable.symm
      _ = rows := List.drop_left' hlength
  rw [hdrop, hrows]
  rfl

/-! ## What is read of the rows -/

theorem eq_of_outcomes {α β : Type} {f g : α → Except CalendarError β} {xs : List α} {ys : List β}
    (hf : List.Forall₂ (fun x y => f x = .ok y) xs ys)
    (hg : List.Forall₂ (fun x y => g x = .ok y) xs ys) :
    ∀ x ∈ xs, f x = g x := by
  induction hf with
  | nil => simp
  | cons hx _ ih =>
    cases hg with
    | cons hx' hg => exact List.forall_mem_cons.mpr ⟨hx.trans hx'.symm, ih hg⟩

/-- The rows that end hand over what is read of the table. -/
theorem forall₂_closed (hended : ∀ row ∈ r.rows, row.ended = true)
    {outcomes : List (Option ObservedCalendarDate)} :
    List.Forall₂ (fun row outcome => r.reads row.2 = .ok outcome)
        (r.table.drop (r.index + 1)) outcomes ↔
      List.Forall₂ (fun row outcome => r.reads row.closed = .ok outcome) r.rows outcomes := by
  have hmap := r.map_drop
  rw [List.filter_eq_self.mpr hended] at hmap
  have hcollected := @List.forall₂_map_left_iff _ _ _ (fun row outcome => r.reads row = .ok outcome)
    (·.2) (r.table.drop (r.index + 1)) outcomes
  have hclosed := @List.forall₂_map_left_iff _ _ _ (fun row outcome => r.reads row = .ok outcome)
    (·.closed) r.rows outcomes
  rw [← hcollected, ← hclosed, hmap]

/-- What is read of the table: the outcomes of the rows before its header, and of those after it. -/
theorem outcomes_of_extract {dates : List ObservedCalendarDate}
    (h : extractNseEquityDates u (collect events).tables = .ok dates) :
    ∃ sooner outcomes,
      List.Forall₂ (fun row outcome => r.reads row.2 = .ok outcome) (r.table.take r.index) sooner ∧
      List.Forall₂ (fun row outcome => r.reads row.2 = .ok outcome)
        (r.table.drop (r.index + 1)) outcomes ∧
      dates = sooner.reduceOption ++ outcomes.reduceOption ∧
      (dates.map (·.observedDate)).Nodup := by
  rw [r.extract_eq, List.eraseIdx_eq_take_drop_succ] at h
  obtain ⟨entries, hentries, hdates, hnodup⟩ := rowsToDates_eq_ok.mp h
  have hrows := List.forall₂_map_left_iff.mp hentries
  have hsooner := List.forall₂_take (r.table.take r.index).length hrows
  have hlater := List.forall₂_drop (r.table.take r.index).length hrows
  rw [List.take_left] at hsooner
  rw [List.drop_left] at hlater
  refine ⟨_, _, hsooner, hlater, ?_, hnodup⟩
  rw [← List.reduceOption_append, List.take_append_drop]
  exact hdates

/-- **Every row is read iff every row ends, and reads as its own cells do.** -/
theorem allRead_iff {dates : List ObservedCalendarDate}
    (h : extractNseEquityDates u (collect events).tables = .ok dates) :
    r.AllRead dates ↔ r.EveryRowEnds := by
  constructor
  · rintro ⟨sooner, outcomes, _, hcollected, hown, _⟩
    have hlength : (r.rows.filter (·.ended)).length = r.rows.length := by
      calc (r.rows.filter (·.ended)).length
          = ((r.rows.filter (·.ended)).map (·.closed)).length := (List.length_map _).symm
        _ = ((r.table.drop (r.index + 1)).map (·.2)).length := by rw [r.map_drop]
        _ = outcomes.length := by rw [List.length_map, hcollected.length_eq]
        _ = r.rows.length := hown.length_eq.symm
    have hended : ∀ row ∈ r.rows, row.ended = true := List.length_filter_eq_length_iff.mp hlength
    have hclosed := (r.forall₂_closed hended).mp hcollected
    exact fun row hrow => ⟨hended row hrow, eq_of_outcomes hclosed hown row hrow⟩
  · intro hends
    obtain ⟨sooner, outcomes, hsooner, hcollected, hdates, hnodup⟩ := r.outcomes_of_extract h
    have hclosed := (r.forall₂_closed fun row hrow => (hends row hrow).1).mp hcollected
    refine ⟨sooner, outcomes, hsooner, hcollected, ?_, hdates, hnodup⟩
    refine ((List.forall₂_and_left _ _).mpr ⟨hends, hclosed⟩).imp ?_
    rintro row outcome ⟨⟨_, hsame⟩, hread⟩
    exact hsame.symm.trans hread

end Recognised

/-- **No row is lost iff every row ends.**  A page that is not read gives a failure without dates.  Of a
page that is read, every row after the header row is read from its own cells iff each has its end tag
before the next row, and its closed cells read as all of its cells. -/
theorem losesNoRow_iff (u : UnicodeData) (source : String) (events : List HtmlEvent) :
    ∃ observation, parse u source events = .ok observation ∧
      (observation.parseStatus = .parseFailure → LosesNoRow u events observation) ∧
      (observation.parseStatus = .ok →
        (LosesNoRow u events observation ↔ ∀ r : Recognised u events, r.EveryRowEnds)) := by
  unfold parse
  cases hextract : extractNseEquityDates u (collect events).tables with
  | ok dates =>
    refine ⟨_, rfl, fun h => (by cases h), fun _ => ?_⟩
    constructor
    · rintro (⟨hfailed, _⟩ | ⟨_, _, hread⟩)
      · cases hfailed
      · exact fun r => (r.allRead_iff hextract).mp (hread r)
    · intro hends
      exact Or.inr ⟨rfl, exists_recognised hextract, fun r => (r.allRead_iff hextract).mpr (hends r)⟩
  | error e =>
    obtain rfl : e = .parseFailure := extract_failsClosed u _ e hextract
    exact ⟨_, rfl, fun _ => Or.inl ⟨rfl, rfl⟩, fun h => (by cases h)⟩

/-! ## Markup with its end tags -/

/-- Every cell has its end tag before the next one. -/
def CellsEnd : Bool → List HtmlEvent → Prop
  | isOpen, [] => isOpen = false
  | isOpen, e :: events =>
    if opensCell e then isOpen = false ∧ CellsEnd true events
    else if closesCell e then CellsEnd false events
    else CellsEnd isOpen events

theorem closedCells_eq_ownCells {cell : Option (List String)} {events : List HtmlEvent}
    (h : CellsEnd cell.isSome events) :
    closedCells cell events = ownCells cell events ∧ events.foldl cellStep cell = none := by
  induction events generalizing cell with
  | nil =>
    obtain rfl : cell = none := by simpa [CellsEnd] using h
    exact ⟨rfl, rfl⟩
  | cons e events ih =>
    rw [CellsEnd] at h
    rw [List.foldl_cons, closedCells, ownCells]
    split at h
    · next hopens =>
      obtain rfl : cell = none := by simpa using h.1
      have hstep : cellStep none e = some [] := if_pos hopens
      rw [hstep]
      obtain ⟨hcells, hleft⟩ := @ih (some []) h.2
      exact ⟨by rw [hcells]; simp, hleft⟩
    · next hopens =>
      split at h
      · next hcloses =>
        have hstep : cellStep cell e = none := by simp [cellStep, hopens, hcloses]
        rw [hstep]
        obtain ⟨hcells, hleft⟩ := @ih none h
        exact ⟨by rw [hcells]; simp [hcloses], hleft⟩
      · next hcloses =>
        have hsome : (cellStep cell e).isSome = cell.isSome := by
          cases e <;> simp [cellStep, hopens, hcloses, textStep]
        rw [← hsome] at h
        obtain ⟨hcells, hleft⟩ := ih h
        exact ⟨by rw [hcells]; simp [hopens, hcloses], hleft⟩

theorem foldl_textStep_none (events : List HtmlEvent) : events.foldl textStep none = none := by
  induction events with
  | nil => rfl
  | cons e events ih =>
    have hstep : textStep none e = none := by cases e <;> rfl
    rw [List.foldl_cons, hstep, ih]

theorem openedRows_end {segments : List (List HtmlEvent)}
    (h : ∀ segment ∈ segments, .endTag "tr" ∈ segment ∧ CellsEnd false (content segment)) :
    ∀ row ∈ openedRows none segments, row.ended = true ∧ row.closed = row.own := by
  induction segments with
  | nil => simp [openedRows]
  | cons segment segments ih =>
    obtain ⟨⟨hended, hcells⟩, hothers⟩ := List.forall_mem_cons.mp h
    obtain ⟨hclosed, hleft⟩ := @closedCells_eq_ownCells none _ hcells
    have hnone : leftOpen none segment = none := by
      rw [leftOpen, hleft, foldl_textStep_none]
    rw [openedRows, hnone]
    exact List.forall_mem_cons.mpr ⟨⟨decide_eq_true hended, hclosed⟩, ih hothers⟩

/-- **Markup with its end tags loses no row**: rows end before the next row, cells before the next cell,
and the header row leaves no cell open. -/
theorem Recognised.everyRowEnds {u : UnicodeData} {events : List HtmlEvent} (r : Recognised u events)
    (hcell : r.openCell = none)
    (h : ∀ segment ∈ (r.body.splitOnP (· = .startTag "tr")).tail,
      .endTag "tr" ∈ segment ∧ CellsEnd false (content segment)) : r.EveryRowEnds := by
  unfold Recognised.EveryRowEnds Recognised.rows rowsOf
  rw [hcell]
  obtain ⟨first, segments, hsplit, _⟩ := splitOnP_rowStart r.body
  rw [hsplit] at h ⊢
  simp only [foldl_textStep_none]
  intro row hrow
  obtain ⟨hended, hsame⟩ := openedRows_end h row hrow
  exact ⟨hended, by rw [hsame]⟩

/-! ## A row without its end tag -/

/-- A row of a page, its end tags in place. -/
def rowMarkup (tag : String) (texts : List String) : List HtmlEvent :=
  texts.flatMap fun text => [.startTag tag, .data text, .endTag tag]

/-- A page of two holidays; the first row has no end tag. -/
def droppedHoliday : List HtmlEvent :=
  [.startTag "table", .startTag "tr"] ++ rowMarkup "th" ["Date", "Segment", "Status"] ++
  [.endTag "tr", .startTag "tr"] ++ rowMarkup "td" ["2026-01-26", "NSE", "Closed"] ++
  [.startTag "tr"] ++ rowMarkup "td" ["2026-03-03", "NSE", "Closed"] ++ [.endTag "tr", .endTag "table"]

def droppedHeader : List HtmlEvent := .startTag "tr" :: rowMarkup "th" ["Date", "Segment", "Status"]

def droppedBody : List HtmlEvent :=
  .startTag "tr" :: rowMarkup "td" ["2026-01-26", "NSE", "Closed"] ++
    .startTag "tr" :: rowMarkup "td" ["2026-03-03", "NSE", "Closed"] ++ [.endTag "tr"]

/-- **The holiday of a row without its end tag is lost**, and the page is read. -/
theorem dropped_holiday :
    ∃ observation, parse asciiData "page" droppedHoliday = .ok observation ∧
      observation.parseStatus = .ok ∧ ¬ LosesNoRow asciiData droppedHoliday observation := by
  refine ⟨_, rfl, rfl, ?_⟩
  rintro (⟨hfailed, _⟩ | ⟨_, _, hread⟩)
  · cases hfailed
  · obtain ⟨_, outcomes, _, hcollected, hown, _⟩ := hread {
      before := []
      head := droppedHeader
      body := droppedBody
      after := []
      table := [(true, ["Date", "Segment", "Status"]), (false, ["2026-03-03", "NSE", "Closed"])]
      index := 0
      columns := ⟨0, 1, 2, none⟩
      split := rfl
      undivided := by decide
      earlier := by decide
      collected := by decide
      recognised := rfl
      atHeader := by decide
      pastHeader := by decide }
    have hlength := hcollected.length_eq.trans hown.length_eq.symm
    exact absurd hlength (by decide)

end ApexScan.Dhan.Calendar
