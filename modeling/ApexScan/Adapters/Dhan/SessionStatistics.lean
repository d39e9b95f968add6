import ApexScan.Adapters.Dhan.Live
import ApexScan.Deploy.References

/-!
# Session statistics of a Market Quote (`app/adapters/dhan/normalizer.py`)

A response holds one item for each security of a segment.  Each requested pair gets the observation of
its own item, or none where the item is missing or not usable.  A handler around the conversion of an
item names three exceptions; the constructor of `Decimal` raises another one.

* `decimalOfText` — `Decimal(text)`, for texts in the syntax of its documentation.
* `decimalOf` (`_decimal`), `providerSessionOhlc`, `sessionOhlcFrom`,
  `normalizeSessionStatisticsPayload`.
* `quoted` — the aggregate of an item whose four prices are numbers or numeric texts.
* `Unreadable` — an item whose conversion raises what the handler does not name.

Main result: `normalize_eq_quoted_iff`.  `text_poisons_batch` is a batch with one text that is no number.

JSON objects and the references of the pairs are as in the other adapters; a float is a rational or not
finite, and `str` of an integer has a bounded number of digits.
-/

set_option autoImplicit false

namespace ApexScan.Dhan

open Lib Ipc

/-! ## Decimals -/

/-- A `Decimal`; an infinity and NaN are not told apart. -/
inductive DecimalValue where
  | finite (q : ℚ)
  | nonFinite
  deriving DecidableEq

/-- `Emax` and `Etiny` of the context in which a text is read exactly. -/
def maxEmax : Int := 999999999999999999

def minEtiny : Int := -1999999999999999997

/-- The text without underscores and with the digits of every script as `0` to `9`. -/
def asciiForm (text : List Char) : Option (List Char) :=
  (text.filter (· ≠ '_')).mapM fun c =>
    if 0 < c.toNat && c.toNat < 128 then some c
    else (digitValue c).map fun d => Char.ofNat (48 + d)

def digitsValue (digits : List Char) : ℕ := Nat.ofDigits 10 (digits.reverse.map fun c => c.toNat - 48)

/-- An optional sign and what follows it. -/
def signed : List Char → Bool × List Char
  | '-' :: rest => (true, rest)
  | '+' :: rest => (false, rest)
  | rest => (false, rest)

/-- The exponent after its indicator. -/
def exponentOf (text : List Char) : Option Int :=
  let (negative, digits) := signed text
  if digits.isEmpty || !digits.all Char.isDigit then none
  else some (if negative then - digitsValue digits else digitsValue digits)

/-- `decimal-part [exponent-part]`; a number that cannot be held exactly is refused. -/
def unsignedDecimal (text : List Char) : Option ℚ := do
  let mantissa := text.takeWhile fun c => c ≠ 'e' && c ≠ 'E'
  let exponent ← match text.drop mantissa.length with
    | [] => some 0
    | _ :: rest => exponentOf rest
  let whole := mantissa.takeWhile (· ≠ '.')
  let fraction := mantissa.drop (whole.length + 1)
  let digits := whole ++ fraction
  if digits.isEmpty || !digits.all Char.isDigit then none
  else
    let coefficient := digitsValue digits
    let scale := exponent - fraction.length
    let length := max 1 (Nat.digits 10 coefficient).length
    if scale < minEtiny ∨ maxEmax < scale + length - 1 then none
    else some (coefficient * (10 : ℚ) ^ scale)

/-- `inf`, `infinity`, `nan` or `snan` in any case, the last two with digits after them. -/
def isSpecial (text : List Char) : Bool :=
  let lower := text.map Char.toLower
  let payload (name : List Char) := name.isPrefixOf lower && (lower.drop name.length).all Char.isDigit
  lower == "inf".toList || lower == "infinity".toList || payload "nan".toList ||
    payload "snan".toList

/-- `Decimal(text)`; `none` is `InvalidOperation`. -/
def decimalOfText (text : String) : Option DecimalValue := do
  let (negative, rest) := signed (← asciiForm (Deploy.strip text).toList)
  if isSpecial rest then some .nonFinite
  else
    let value ← unsignedDecimal rest
    some (.finite (if negative then -value else value))

example : ["12.5", " +1_000e-1 ", ".5", "5.", "-0", "٤٢"].map decimalOfText =
    [12.5, 100, 0.5, 5, 0, 42].map (some ∘ .finite) := by decide +kernel

example : ["", "abc", "1e", ".", "1 2", "--1", "1e1000000000000000000"].map decimalOfText =
    List.replicate 7 none := by decide +kernel

example : ["NaN", "sNaN12", "-Infinity"].map decimalOfText = List.replicate 3 (some .nonFinite) := by
  decide +kernel

/-! ## Conversion of an item -/

/-- What the conversion of an item raises. -/
inductive ConversionError where
  | key
  | normalization
  | validation
  | invalidOperation
  | value
  deriving DecidableEq, Repr

/-- `except (KeyError, NormalizationError, ValidationError)`. -/
def ConversionError.withheld : ConversionError → Bool
  | key | normalization | validation => true
  | invalidOperation | value => false

/-- `Decimal(str(x))` of a float. -/
def decimalOfFloat (q : ℚ) : ℚ := if q < 0 then - shortestDecimal (-q) else shortestDecimal q

/-- `str` of the integer has too many digits. -/
def tooManyDigits (n : Int) : Bool := decide (maxStrDigits < (Nat.digits 10 n.natAbs).length)

/-- `_decimal`. -/
def decimalOf : Json → Except ConversionError DecimalValue
  | .int n => if tooManyDigits n then .error .value else .ok (.finite n)
  | .float none => .ok .nonFinite
  | .float (some q) => .ok (.finite (decimalOfFloat q))
  | .str s =>
    match decimalOfText s with
    | none => .error .invalidOperation
    | some d => .ok d
  | _ => .error .normalization

/-- A `Decimal` field with `gt=0`. -/
def DecimalValue.price : DecimalValue → Option Price
  | finite q => if h : 0 < q then some ⟨q, h⟩ else none
  | nonFinite => none

/-- `ProviderSessionOhlc(...)`; `none` is a validation error. -/
def providerSessionOhlc (openValue highValue lowValue closeValue : DecimalValue) :
    Option ProviderSessionOhlc := do
  let openPrice ← openValue.price
  let highPrice ← highValue.price
  let lowPrice ← lowValue.price
  let closePrice ← closeValue.price
  if low_le_high : lowPrice ≤ highPrice then
    if open_within : lowPrice ≤ openPrice ∧ openPrice ≤ highPrice then
      if close_within : lowPrice ≤ closePrice ∧ closePrice ≤ highPrice then
        some { openPrice, highPrice, lowPrice, closePrice, low_le_high, open_within, close_within }
      else none
    else none
  else none

/-- `_decimal(ohlc[name])`. -/
def decimalField (ohlc : Json) (name : String) : Except ConversionError DecimalValue :=
  match ohlc.get? name with
  | none => .error .key
  | some value => decimalOf value

/-- The constructor call in `_session_ohlc_from`. -/
def convert (ohlc : Json) : Except ConversionError ProviderSessionOhlc := do
  let openValue ← decimalField ohlc "open"
  let highValue ← decimalField ohlc "high"
  let lowValue ← decimalField ohlc "low"
  let closeValue ← decimalField ohlc "close"
  match providerSessionOhlc openValue highValue lowValue closeValue with
  | some sessionOhlc => .ok sessionOhlc
  | none => .error .validation

/-- `_session_ohlc_from`. -/
def sessionOhlcFrom (ohlc : Option Json) : Except ConversionError (Option ProviderSessionOhlc) :=
  match ohlc.filter (·.members?.isSome) with
  | none => .ok none
  | some ohlc =>
    match convert ohlc with
    | .ok sessionOhlc => .ok (some sessionOhlc)
    | .error error => if error.withheld then .ok none else .error error

/-! ## The response -/

/-- The item of a pair, where the response has one. -/
def itemOf (data : Json) (reference : DhanInstrumentReference) : Option Json := do
  let segmentData ← data.get? (← reference.exchangeSegment)
  segmentData.get? reference.securityId

/-- `status == "success"`. -/
def succeeded (payload : Json) : Bool :=
  match payload.get? "status" with
  | some (.str status) => status == "success"
  | _ => false

/-- The data of a response that is not refused as a whole. -/
def dataOf (payload : Json) : Option Json :=
  if succeeded payload then (payload.get? "data").filter (·.members?.isSome) else none

def observationOf (tradingDate observedAt : Int) (instrument : Instrument)
    (sessionOhlc : ProviderSessionOhlc) : SessionStatisticsObservation :=
  { instrument, tradingDate, observedAt, sessionOhlc }

/-- The loop over the pairs. -/
def observe (data : Json) (tradingDate observedAt : Int) :
    List (Instrument × DhanInstrumentReference) →
      Except ConversionError (List SessionStatisticsObservation)
  | [] => .ok []
  | (instrument, reference) :: pairs => do
    let sessionOhlc ← sessionOhlcFrom ((itemOf data reference).bind (·.get? "ohlc"))
    let observations ← observe data tradingDate observedAt pairs
    return (sessionOhlc.map (observationOf tradingDate observedAt instrument)).toList ++ observations

/-- `normalize_session_statistics_payload`. -/
def normalizeSessionStatisticsPayload (payload : Json)
    (pairs : List (Instrument × DhanInstrumentReference)) (tradingDate observedAt : Int) :
    Except ConversionError (List SessionStatisticsObservation) :=
  match dataOf payload with
  | none => .error .normalization
  | some data => observe data tradingDate observedAt pairs

/-! ## What an item says -/

/-- The value of a number or of a numeric text. -/
def number : Json → Option DecimalValue
  | .int n => some (.finite n)
  | .float none => some .nonFinite
  | .float (some q) => some (.finite (decimalOfFloat q))
  | .str s => decimalOfText s
  | _ => none

/-- The aggregate of an item whose `ohlc` holds four numbers or numeric texts that
    `ProviderSessionOhlc` accepts. -/
def quoted (item : Option Json) : Option ProviderSessionOhlc := do
  let ohlc ← (← item).get? "ohlc"
  providerSessionOhlc (← number (← ohlc.get? "open")) (← number (← ohlc.get? "high"))
    (← number (← ohlc.get? "low")) (← number (← ohlc.get? "close"))

/-- What a field holds for the conversion. -/
inductive Reading where
  | number (value : DecimalValue)
  | refused
  | unreadable

/-- A field that is missing or of another kind is refused; a text that is no number, or an integer with
    too many digits, is unreadable. -/
def reading : Option Json → Reading
  | some (.int n) => if tooManyDigits n then .unreadable else .number (.finite n)
  | some (.float none) => .number .nonFinite
  | some (.float (some q)) => .number (.finite (decimalOfFloat q))
  | some (.str s) =>
    match decimalOfText s with
    | none => .unreadable
    | some d => .number d
  | _ => .refused

/-- The first reading that is no number is unreadable. -/
def stopsUnreadable : List Reading → Bool
  | [] => false
  | .number _ :: rest => stopsUnreadable rest
  | .refused :: _ => false
  | .unreadable :: _ => true

/-- The first of the fields open, high, low and close of the item that is no number is unreadable. -/
def Unreadable (item : Option Json) : Prop :=
  ∃ ohlc, item.bind (·.get? "ohlc") = some ohlc ∧
    stopsUnreadable (["open", "high", "low", "close"].map fun name => reading (ohlc.get? name)) = true

/-! ## One item -/

/-- A field converts to its number, is refused by an exception that is named, or raises another. -/
theorem decimalField_cases (ohlc : Json) (name : String) :
    match reading (ohlc.get? name) with
    | .number d => decimalField ohlc name = .ok d ∧ (ohlc.get? name).bind number = some d
    | .refused => (∃ e, decimalField ohlc name = .error e ∧ e.withheld = true) ∧
        (ohlc.get? name).bind number = none
    | .unreadable => ∃ e, decimalField ohlc name = .error e ∧ e.withheld = false := by
  unfold decimalField
  cases ohlc.get? name with
  | none => exact ⟨⟨.key, rfl, rfl⟩, rfl⟩
  | some value =>
    cases value with
    | null => exact ⟨⟨.normalization, rfl, rfl⟩, rfl⟩
    | bool b => exact ⟨⟨.normalization, rfl, rfl⟩, rfl⟩
    | int n =>
      cases htoo : tooManyDigits n with
      | true => simp [reading, decimalOf, htoo, ConversionError.withheld]
      | false => simp [reading, decimalOf, htoo, number]
    | float q =>
      cases q with
      | none => exact ⟨rfl, rfl⟩
      | some q => exact ⟨rfl, rfl⟩
    | str s =>
      cases htext : decimalOfText s with
      | none => simp [reading, decimalOf, htext, ConversionError.withheld]
      | some d => simp [reading, decimalOf, htext, number]
    | arr items => exact ⟨⟨.normalization, rfl, rfl⟩, rfl⟩
    | obj members => exact ⟨⟨.normalization, rfl, rfl⟩, rfl⟩

/-- The aggregate of the four prices of an `ohlc` object. -/
def quotedOhlc (ohlc : Json) : Option ProviderSessionOhlc := do
  providerSessionOhlc (← (ohlc.get? "open").bind number) (← (ohlc.get? "high").bind number)
    (← (ohlc.get? "low").bind number) (← (ohlc.get? "close").bind number)

theorem quoted_eq (item : Option Json) : quoted item = (item.bind (·.get? "ohlc")).bind quotedOhlc := by
  unfold quoted quotedOhlc
  cases item with
  | none => rfl
  | some item =>
    simp only [Option.bind_some, Option.bind_eq_bind]
    cases item.get? "ohlc" with
    | none => rfl
    | some ohlc => simp only [Option.bind_some, Option.bind_assoc]

/-- The conversion raises an exception that is not named where it stops at an unreadable field; else it
    gives what is quoted, or raises one that is named where nothing is. -/
def Agrees {α : Type} (stops : Bool) (converted : Except ConversionError α) (quoted : Option α) : Prop :=
  if stops then ∃ e, converted = .error e ∧ e.withheld = false
  else
    (∃ a, converted = .ok a ∧ quoted = some a) ∨
      (∃ e, converted = .error e ∧ e.withheld = true) ∧ quoted = none

/-- One more field is read in front. -/
theorem agrees_bind {α : Type} (ohlc : Json) (name : String) {rest : List Reading}
    {converted : DecimalValue → Except ConversionError α} {quoted : DecimalValue → Option α}
    (h : ∀ d, Agrees (stopsUnreadable rest) (converted d) (quoted d)) :
    Agrees (stopsUnreadable (reading (ohlc.get? name) :: rest))
      (decimalField ohlc name >>= converted) ((ohlc.get? name).bind number >>= quoted) := by
  have hfield := decimalField_cases ohlc name
  cases hreading : reading (ohlc.get? name) with
  | number d =>
    rw [hreading] at hfield
    rw [hfield.1, hfield.2]
    exact h d
  | refused =>
    rw [hreading] at hfield
    obtain ⟨⟨e, herror, hwithheld⟩, hnumber⟩ := hfield
    rw [herror, hnumber]
    exact Or.inr ⟨⟨e, rfl, hwithheld⟩, rfl⟩
  | unreadable =>
    rw [hreading] at hfield
    obtain ⟨e, herror, hwithheld⟩ := hfield
    rw [herror]
    exact ⟨e, rfl, hwithheld⟩

/-- The conversion of an `ohlc` object against what the object quotes. -/
theorem convert_agrees (ohlc : Json) :
    Agrees
      (stopsUnreadable (["open", "high", "low", "close"].map fun name => reading (ohlc.get? name)))
      (convert ohlc) (quotedOhlc ohlc) := by
  unfold convert quotedOhlc
  refine agrees_bind ohlc "open" fun openValue => agrees_bind ohlc "high" fun highValue =>
    agrees_bind ohlc "low" fun lowValue => agrees_bind ohlc "close" fun closeValue => ?_
  cases providerSessionOhlc openValue highValue lowValue closeValue with
  | none => exact Or.inr ⟨⟨.validation, rfl, rfl⟩, rfl⟩
  | some sessionOhlc => exact Or.inl ⟨sessionOhlc, rfl, rfl⟩

/-- Only an object has members to read. -/
theorem quotedOhlc_of_members_none {ohlc : Json} (h : ohlc.members? = none) : quotedOhlc ohlc = none := by
  simp [quotedOhlc, Json.get?, h]

/-- An item that is not unreadable gives what it quotes, and an unreadable one raises. -/
theorem sessionOhlcFrom_cases (item : Option Json) :
    (Unreadable item ∧ ∃ e, sessionOhlcFrom (item.bind (·.get? "ohlc")) = .error e) ∨
      ¬ Unreadable item ∧ sessionOhlcFrom (item.bind (·.get? "ohlc")) = .ok (quoted item) := by
  rw [quoted_eq]
  unfold Unreadable sessionOhlcFrom
  cases item.bind (·.get? "ohlc") with
  | none => exact Or.inr ⟨by simp, rfl⟩
  | some ohlc =>
    simp only [Option.some.injEq, exists_eq_left', Option.bind_some]
    cases hmembers : ohlc.members? with
    | none =>
      refine Or.inr ⟨?_, ?_⟩
      · simp [Json.get?, hmembers, reading, stopsUnreadable]
      · rw [Option.filter_some, hmembers, quotedOhlc_of_members_none hmembers]
        rfl
    | some members =>
      have hagrees := convert_agrees ohlc
      simp only [Option.filter_some, hmembers, Option.isSome_some, if_true]
      unfold Agrees at hagrees
      split at hagrees
      next hstops =>
        obtain ⟨e, herror, hnot⟩ := hagrees
        refine Or.inl ⟨hstops, e, ?_⟩
        simp [herror, hnot]
      next hstops =>
        refine Or.inr ⟨hstops, ?_⟩
        rcases hagrees with ⟨sessionOhlc, hok, hquoted⟩ | ⟨⟨e, herror, hwithheld⟩, hquoted⟩
        · rw [hok, hquoted]
        · simp [herror, hwithheld, hquoted]

/-! ## The batch -/

variable {data : Json} {tradingDate observedAt : Int}

/-- What a pair gets from its own item. -/
def observed (data : Json) (tradingDate observedAt : Int)
    (pair : Instrument × DhanInstrumentReference) : Option SessionStatisticsObservation :=
  (quoted (itemOf data pair.2)).map (observationOf tradingDate observedAt pair.1)

/-- The loop returns exactly where no item is unreadable, and then gives each pair what its own item
    quotes. -/
theorem observe_cases (data : Json) (tradingDate observedAt : Int)
    (pairs : List (Instrument × DhanInstrumentReference)) :
    ((∃ pair ∈ pairs, Unreadable (itemOf data pair.2)) ∧
        ∃ e, observe data tradingDate observedAt pairs = .error e) ∨
      (∀ pair ∈ pairs, ¬ Unreadable (itemOf data pair.2)) ∧
        observe data tradingDate observedAt pairs =
          .ok (pairs.filterMap (observed data tradingDate observedAt)) := by
  induction pairs with
  | nil => exact Or.inr ⟨by simp, rfl⟩
  | cons pair pairs ih =>
    obtain ⟨instrument, reference⟩ := pair
    simp only [observe]
    rcases sessionOhlcFrom_cases (itemOf data reference) with ⟨hunreadable, e, herror⟩ | ⟨hread, hok⟩
    · refine Or.inl ⟨⟨_, List.mem_cons_self, hunreadable⟩, e, ?_⟩
      rw [herror]
      rfl
    · rw [hok]
      rcases ih with ⟨⟨pair, hpair, hunreadable⟩, e, herror⟩ | ⟨hall, hrest⟩
      · refine Or.inl ⟨⟨pair, List.mem_cons_of_mem _ hpair, hunreadable⟩, e, ?_⟩
        rw [herror]
        rfl
      · refine Or.inr ⟨List.forall_mem_cons.mpr ⟨hread, hall⟩, ?_⟩
        rw [hrest, List.filterMap_cons]
        cases hquoted : quoted (itemOf data reference) with
        | none =>
          simp [observed, hquoted, bind, Except.bind, pure, Except.pure]
        | some sessionOhlc =>
          simp [observed, hquoted, bind, Except.bind, pure, Except.pure]

/-- **A batch returns, with the observation of each pair's own item in the order of the pairs, exactly
    where no requested item is unreadable.**  For every response that is a success with a data
    object, and all pairs. -/
theorem normalize_eq_quoted_iff (payload : Json) (pairs : List (Instrument × DhanInstrumentReference))
    (tradingDate observedAt : Int) (hdata : dataOf payload = some data) :
    normalizeSessionStatisticsPayload payload pairs tradingDate observedAt =
        .ok (pairs.filterMap (observed data tradingDate observedAt)) ↔
      ∀ pair ∈ pairs, ¬ Unreadable (itemOf data pair.2) := by
  unfold normalizeSessionStatisticsPayload
  rw [hdata]
  rcases observe_cases data tradingDate observedAt pairs with
    ⟨⟨pair, hpair, hunreadable⟩, e, herror⟩ | ⟨hall, hok⟩
  · simp only [herror]
    constructor
    · nofun
    · intro hnone
      exact absurd hunreadable (hnone pair hpair)
  · simp only [hok, true_iff]
    exact hall

/-- An item with these prices. -/
def quoteItem (openPrice : Json) (high low close : Int) : Json :=
  .obj [("ohlc", .obj [("open", openPrice), ("high", .int high), ("low", .int low),
    ("close", .int close)])]

/-- The items of the securities 1 and 2; the second open is given. -/
def twoItems (secondOpen : Json) : Json :=
  .obj [("NSE_EQ", .obj [("1", quoteItem (.int 100) 105 98 101),
    ("2", quoteItem secondOpen 210 195 205)])]

def twoQuotes (secondOpen : Json) : Json :=
  .obj [("status", .str "success"), ("data", twoItems secondOpen)]

theorem tcs_ne : "TCS" ≠ "" := by decide

/-- Two shares as they are requested. -/
def twoShares : List (Instrument × DhanInstrumentReference) :=
  let tcs : Instrument := { reliance with symbol := "TCS", symbol_ne := tcs_ne }
  [(reliance, ⟨reliance, "1", some "NSE_EQ"⟩), (tcs, ⟨tcs, "2", some "NSE_EQ"⟩)]

/-- Both items are numbers, so both pairs get their observation. -/
theorem two_quotes_observed :
    normalizeSessionStatisticsPayload (twoQuotes (.int 200)) twoShares 20727 0 =
      .ok (twoShares.filterMap (observed (twoItems (.int 200)) 20727 0)) := by
  refine (normalize_eq_quoted_iff (twoQuotes (.int 200)) twoShares 20727 0 rfl).mpr ?_
  have hread : ∀ pair ∈ twoShares, stopsUnreadable (["open", "high", "low", "close"].map fun name =>
      reading (((itemOf (twoItems (.int 200)) pair.2).bind (·.get? "ohlc")).bind (·.get? name))) =
        false := by
    decide +kernel
  rintro pair hpair ⟨ohlc, hohlc, hstops⟩
  have hpair' := hread pair hpair
  rw [hohlc] at hpair'
  exact absurd hstops (by simpa using hpair')

/-- A text that is no number in the item of one share fails the batch, although the other share quotes
    four numbers. -/
theorem text_poisons_batch :
    dataOf (twoQuotes (.str "abc")) = some (twoItems (.str "abc")) ∧
      (twoShares.map fun pair => (pair.2.exchangeSegment, pair.2.securityId)).Nodup ∧
      normalizeSessionStatisticsPayload (twoQuotes (.str "abc")) twoShares 20727 0 =
        .error .invalidOperation ∧
      (twoShares.filterMap (observed (twoItems (.str "abc")) 20727 0)).map (·.instrument) =
        [reliance] := by
  refine ⟨rfl, by decide, by decide +kernel, by decide +kernel⟩

end ApexScan.Dhan
