import FestivalPlanner.Lib.ContentLines
import FestivalPlanner.Lib.NumberText

/-!
# The text of a calendar

`escIcs`, `foldIcsLine`, `buildVEvent` and `buildVCalendar` of `packages/shared/src/utils/ics.ts`
on the device and of `lib/helpers/ics-builder.ts` on the server, over code units, and the reader
of RFC 5545 that undoes them.  The exporters fold a line by its code units; the limit of 75 is
one of octets.

* `escIcs_eq_escape`, `unescape_escape` — the five replacements are one escape of each unit, and
  a reader undoes it, up to the carriage returns;
* `CalendarLine` — a content line of the calendar, folded or written as it is;
  `buildVCalendar_eq` — the calendar is its lines;
* `readProperties`, `Survives` — what a reader gets, and what it should;
* `buildVCalendar_survives_iff` — a calendar survives exactly when every line that is not folded
  has at most 75 octets and every folded one is ASCII up to its last fold and short after it.
-/

namespace FestivalPlanner.Schedule

open Utf16 ContentLines List

/-! ## Escaping and folding -/

/-- `text.replace(/c/g, new)` for one unit. -/
def replaceAll (c : CodeUnit) (new : Text) (text : Text) : Text :=
  text.flatMap (fun d => if d = c then new else [d])

/-- Escape a value for a property of type TEXT. -/
def escIcs (v : Text) : Text :=
  let v := replaceAll (unit '\\') (ofString "\\\\") v
  let v := replaceAll (unit ';') (ofString "\\;") v
  let v := replaceAll (unit ',') (ofString "\\,") v
  let v := replaceAll (unit '\n') (ofString "\\n") v
  replaceAll (unit '\r') [] v

/-- Fold a content line. -/
def foldIcsLine (line : Text) : Text := foldAt 75 74 line

/-! ## The calendar -/

/-- A text without a carriage return.  Identifiers, times, products and numbers are of this kind;
they are written as they are. -/
structure OneLine where
  text : Text
  noReturn : NoReturn text

/-- A header that stands for itself: it continues no line. -/
structure Header extends OneLine where
  begins : Ends isBlank text

/-- The descriptor of an event; an empty location, description or stamp is none. -/
structure VEvent where
  uid : OneLine
  summary : Text
  dtstart : OneLine
  dtend : OneLine
  location : Text
  description : Text
  dtstamp : OneLine
  /-- the number as it is printed -/
  sequence : Option OneLine

structure CalendarOptions where
  calendarName : Text
  /-- an empty product is the default one -/
  prodId : OneLine
  extraHeaders : List Header

/-- The two exporters. -/
inductive Exporter
  | device
  | server

def Exporter.defaultProdId : Exporter → Text
  | .device => ofString "-//Festie//EN"
  | .server => ofString "-//FestivalPlanner//EN"

/-- Only the server writes extra headers. -/
def Exporter.headers : Exporter → CalendarOptions → List Header
  | .device, _ => []
  | .server, opts => opts.extraHeaders

/-- `text.replace(/\.\d{3}/, '')` -/
def dropMillis : Text → Text
  | [] => []
  | c :: t =>
    if c = unit '.' ∧ (t.take 3).length = 3 ∧ (t.take 3).all Double.isDigit then t.drop 3
    else c :: dropMillis t

/-- The stamp of the instant that an ISO text names. -/
def compactStamp (iso : Text) : Text :=
  dropMillis (iso.filter (fun c => !(c == unit '-' || c == unit ':')))

/-- The stamp of an event, by default the one of now. -/
def stampOf (now : OneLine) (ev : VEvent) : Text :=
  if ev.dtstamp.text = [] then compactStamp now.text else ev.dtstamp.text

/-- A single VEVENT block. -/
def buildVEvent (now : OneLine) (ev : VEvent) : List Text :=
  [ofString "BEGIN:VEVENT",
    ofString "DTSTAMP:" ++ stampOf now ev,
    ofString "DTSTART:" ++ ev.dtstart.text,
    ofString "DTEND:" ++ ev.dtend.text,
    foldIcsLine (ofString "SUMMARY:" ++ escIcs ev.summary)] ++
  (if ev.location ≠ [] then [foldIcsLine (ofString "LOCATION:" ++ escIcs ev.location)] else []) ++
  (if ev.description ≠ [] then [foldIcsLine (ofString "DESCRIPTION:" ++ escIcs ev.description)]
    else []) ++
  [ofString "UID:" ++ ev.uid.text, ofString "STATUS:CONFIRMED"] ++
  (ev.sequence.map (fun n => ofString "SEQUENCE:" ++ n.text)).toList ++
  [ofString "END:VEVENT"]

/-- The product of the calendar. -/
def prodIdOf (x : Exporter) (opts : CalendarOptions) : Text :=
  if opts.prodId.text = [] then x.defaultProdId else opts.prodId.text

/-- The text of the calendar. -/
def buildVCalendar (x : Exporter) (now : OneLine) (events : List VEvent)
    (opts : CalendarOptions) : Text :=
  join ([ofString "BEGIN:VCALENDAR",
      ofString "VERSION:2.0",
      ofString "PRODID:" ++ prodIdOf x opts,
      ofString "CALSCALE:GREGORIAN",
      ofString "METHOD:PUBLISH",
      foldIcsLine (ofString "X-WR-CALNAME:" ++ escIcs opts.calendarName)] ++
    (x.headers opts).map (fun header => header.text) ++
    events.flatMap (buildVEvent now) ++
    [ofString "END:VCALENDAR"])

/-! ## What the texts mean

RFC 5545 escapes backslashes, semicolons, commas and line breaks, and reads a property up to its
first colon. -/

/-- The escaped unit; a carriage return has no escape. -/
@[grind =] def escapeUnit (c : CodeUnit) : Text :=
  if c = unit '\\' then ofString "\\\\"
  else if c = unit ';' then ofString "\\;"
  else if c = unit ',' then ofString "\\,"
  else if c = unit '\n' then ofString "\\n"
  else if c = unit '\r' then []
  else [c]

def escape (t : Text) : Text := t.flatMap escapeUnit

/-- The text that an escaped text means. -/
def unescape : Text → Text
  | [] => []
  | [c] => [c]
  | c :: d :: t =>
    if c = unit '\\' then
      if d = unit 'n' ∨ d = unit 'N' then unit '\n' :: unescape t
      else if d = unit '\\' ∨ d = unit ';' ∨ d = unit ',' then d :: unescape t
      else c :: unescape (d :: t)
    else c :: unescape (d :: t)

/-- Carriage returns are not kept. -/
def withoutReturns (t : Text) : Text := t.filter (fun c => c ≠ unit '\r')

theorem escIcs_cons (c : CodeUnit) (v : Text) : escIcs (c :: v) = escIcs [c] ++ escIcs v := by
  have hcons : c :: v = [c] ++ v := rfl
  rw [hcons]
  simp only [escIcs, replaceAll, flatMap_append]

theorem escIcs_singleton (c : CodeUnit) : escIcs [c] = escapeUnit c := by
  unfold escapeUnit
  split_ifs with hbackslash hsemicolon hcomma hbreak hreturn
  · subst hbackslash
    decide
  · subst hsemicolon
    decide
  · subst hcomma
    decide
  · subst hbreak
    decide
  · subst hreturn
    decide
  · simp [escIcs, replaceAll, hbackslash, hsemicolon, hcomma, hbreak, hreturn]

/-- The five replacements are one escape of each unit. -/
theorem escIcs_eq_escape (v : Text) : escIcs v = escape v := by
  induction v with
  | nil => rfl
  | cons c v ih =>
    rw [escIcs_cons, escIcs_singleton, ih]
    rfl

theorem unescape_cons {c : CodeUnit} (h : c ≠ unit '\\') (t : Text) :
    unescape (c :: t) = c :: unescape t := by
  cases t with
  | nil => rfl
  | cons d t => simp [unescape, h]

/-- A reader undoes the escape, up to the carriage returns. -/
theorem unescape_escape (t : Text) : unescape (escape t) = withoutReturns t := by
  induction t with
  | nil => rfl
  | cons c t ih =>
    have hcons : escape (c :: t) = escapeUnit c ++ escape t := flatMap_cons
    rw [hcons]
    unfold escapeUnit withoutReturns
    split_ifs with hbackslash hsemicolon hcomma hbreak hreturn
    · rw [hbackslash, filter_cons_of_pos (by decide), ← withoutReturns, ← ih]
      rfl
    · rw [hsemicolon, filter_cons_of_pos (by decide), ← withoutReturns, ← ih]
      rfl
    · rw [hcomma, filter_cons_of_pos (by decide), ← withoutReturns, ← ih]
      rfl
    · rw [hbreak, filter_cons_of_pos (by decide), ← withoutReturns, ← ih]
      rfl
    · rw [filter_cons_of_neg (by simp [hreturn]), ← withoutReturns, ← ih]
      rfl
    · rw [filter_cons_of_pos (by simpa using hreturn), ← withoutReturns, ← ih]
      exact unescape_cons hbackslash (escape t)

/-- An escaped text stays within its line. -/
theorem noReturn_escape (t : Text) : NoReturn (escape t) := by
  intro h
  obtain ⟨c, -, hc⟩ := mem_flatMap.mp h
  revert hc
  unfold escapeUnit
  split_ifs with hbackslash hsemicolon hcomma hbreak hreturn
  · decide
  · decide
  · decide
  · decide
  · exact not_mem_nil
  · rw [mem_singleton]
    exact fun heq => hreturn heq.symm

/-! ## The lines of the calendar -/

/-- A content line of the calendar. -/
structure CalendarLine where
  folded : Bool
  line : Text

def CalendarLine.emit (l : CalendarLine) : Text := if l.folded then foldIcsLine l.line else l.line

/-- A line that is written as it is. -/
def asItIs (name : String) (value : Text) : CalendarLine :=
  { folded := false, line := ofString name ++ unit ':' :: value }

/-- A line whose value is escaped, and that is folded. -/
def textLine (name : String) (value : Text) : CalendarLine :=
  { folded := true, line := ofString name ++ unit ':' :: escape value }

/-- The line of a value that is given. -/
def lineIfGiven (name : String) (value : Text) : List CalendarLine :=
  if value = [] then [] else [textLine name value]

def eventLines (now : OneLine) (ev : VEvent) : List CalendarLine :=
  [asItIs "BEGIN" (ofString "VEVENT"),
    asItIs "DTSTAMP" (stampOf now ev),
    asItIs "DTSTART" ev.dtstart.text,
    asItIs "DTEND" ev.dtend.text,
    textLine "SUMMARY" ev.summary] ++
  lineIfGiven "LOCATION" ev.location ++
  lineIfGiven "DESCRIPTION" ev.description ++
  [asItIs "UID" ev.uid.text, asItIs "STATUS" (ofString "CONFIRMED")] ++
  (ev.sequence.map (fun n => asItIs "SEQUENCE" n.text)).toList ++
  [asItIs "END" (ofString "VEVENT")]

def calendarLines (x : Exporter) (now : OneLine) (events : List VEvent)
    (opts : CalendarOptions) : List CalendarLine :=
  [asItIs "BEGIN" (ofString "VCALENDAR"),
    asItIs "VERSION" (ofString "2.0"),
    asItIs "PRODID" (prodIdOf x opts),
    asItIs "CALSCALE" (ofString "GREGORIAN"),
    asItIs "METHOD" (ofString "PUBLISH"),
    textLine "X-WR-CALNAME" opts.calendarName] ++
  (x.headers opts).map (fun header => { folded := false, line := header.text }) ++
  events.flatMap (eventLines now) ++
  [asItIs "END" (ofString "VCALENDAR")]

theorem emit_lineIfGiven (name : String) (value : Text) :
    (lineIfGiven name value).map CalendarLine.emit =
      if value ≠ [] then [foldIcsLine (ofString name ++ unit ':' :: escIcs value)] else [] := by
  unfold lineIfGiven
  by_cases h : value = []
  · simp [h]
  · simp [h, CalendarLine.emit, textLine, escIcs_eq_escape]

theorem buildVEvent_eq (now : OneLine) (ev : VEvent) :
    buildVEvent now ev = (eventLines now ev).map CalendarLine.emit := by
  unfold buildVEvent eventLines
  simp only [map_append, emit_lineIfGiven, escIcs_eq_escape]
  cases ev.sequence <;> rfl

/-- The calendar is its content lines, with a line break between them. -/
theorem buildVCalendar_eq (x : Exporter) (now : OneLine) (events : List VEvent)
    (opts : CalendarOptions) :
    buildVCalendar x now events opts =
      join ((calendarLines x now events opts).map CalendarLine.emit) := by
  unfold buildVCalendar calendarLines
  have hevents : events.flatMap (buildVEvent now) =
      (events.flatMap (eventLines now)).map CalendarLine.emit := by
    rw [map_flatMap]
    exact congrArg events.flatMap (funext (buildVEvent_eq now))
  have hheaders : (x.headers opts).map (fun header => header.text) =
      ((x.headers opts).map (fun header => CalendarLine.mk false header.text)).map
        CalendarLine.emit := by
    rw [map_map]
    rfl
  rw [hevents, hheaders, escIcs_eq_escape]
  simp only [map_append]
  rfl

/-! ## A reader -/

/-- The properties of type TEXT. -/
def textNames : List Text :=
  [ofString "SUMMARY", ofString "LOCATION", ofString "DESCRIPTION", ofString "X-WR-CALNAME"]

/-- The name before the first colon, and the value after it. -/
def readProperty (line : Text) : Text × Text :=
  let name := line.takeWhile (fun c => c ≠ unit ':')
  let value := (line.dropWhile (fun c => c ≠ unit ':')).drop 1
  (name, if name ∈ textNames then unescape value else value)

/-- The properties of a calendar text. -/
def readProperties (text : Text) : List (Text × Text) := (contentLines text).map readProperty

def property (name : String) (value : Text) : Text × Text := (ofString name, value)

/-- The property of a value that is given. -/
def propertyIfGiven (name : String) (value : Text) : List (Text × Text) :=
  if value = [] then [] else [property name (withoutReturns value)]

/-- The properties of an event, with the original texts. -/
def eventProperties (now : OneLine) (ev : VEvent) : List (Text × Text) :=
  [property "BEGIN" (ofString "VEVENT"),
    property "DTSTAMP" (stampOf now ev),
    property "DTSTART" ev.dtstart.text,
    property "DTEND" ev.dtend.text,
    property "SUMMARY" (withoutReturns ev.summary)] ++
  propertyIfGiven "LOCATION" ev.location ++
  propertyIfGiven "DESCRIPTION" ev.description ++
  [property "UID" ev.uid.text, property "STATUS" (ofString "CONFIRMED")] ++
  (ev.sequence.map (fun n => property "SEQUENCE" n.text)).toList ++
  [property "END" (ofString "VEVENT")]

/-- The properties of the calendar, with the original texts. -/
def calendarProperties (x : Exporter) (now : OneLine) (events : List VEvent)
    (opts : CalendarOptions) : List (Text × Text) :=
  [property "BEGIN" (ofString "VCALENDAR"),
    property "VERSION" (ofString "2.0"),
    property "PRODID" (prodIdOf x opts),
    property "CALSCALE" (ofString "GREGORIAN"),
    property "METHOD" (ofString "PUBLISH"),
    property "X-WR-CALNAME" (withoutReturns opts.calendarName)] ++
  (x.headers opts).map (fun header => readProperty header.text) ++
  events.flatMap (eventProperties now) ++
  [property "END" (ofString "VCALENDAR")]

/-- How many lines an event has, by what is given of it. -/
def eventLineCount (ev : VEvent) : ℕ :=
  8 + (if ev.location = [] then 0 else 1) + (if ev.description = [] then 0 else 1) +
    (if ev.sequence.isSome then 1 else 0)

/-- The calendar survives its format: a reader gets the original texts up to their carriage
returns, no text adds a line, and no physical line has more than 75 octets. -/
structure Survives (x : Exporter) (now : OneLine) (events : List VEvent)
    (opts : CalendarOptions) : Prop where
  properties : readProperties (buildVCalendar x now events opts) =
    calendarProperties x now events opts
  lineCount : (contentLines (buildVCalendar x now events opts)).length =
    7 + (x.headers opts).length + (events.map eventLineCount).sum
  fits : Fits 75 (buildVCalendar x now events opts)

variable {name : String} {l : CalendarLine}

theorem readProperty_line (h : unit ':' ∉ ofString name) (value : Text) :
    readProperty (ofString name ++ unit ':' :: value) =
      (ofString name, if ofString name ∈ textNames then unescape value else value) := by
  have hne : ∀ c ∈ ofString name, decide (c ≠ unit ':') = true := by
    intro c hc
    rw [decide_eq_true_eq]
    exact fun heq => h (heq ▸ hc)
  have hends : Ends (fun c => decide (c ≠ unit ':')) (unit ':' :: value) :=
    ends_cons (by decide) value
  simp only [readProperty, takeWhile_append_of_ends hne hends, dropWhile_append_of_ends hne hends,
    drop_one, tail_cons]

theorem readProperty_asItIs (h : unit ':' ∉ ofString name) (hname : ofString name ∉ textNames)
    (value : Text) : readProperty (asItIs name value).line = property name value := by
  rw [asItIs, readProperty_line h, if_neg hname]
  rfl

theorem readProperty_textLine (h : unit ':' ∉ ofString name) (hname : ofString name ∈ textNames)
    (value : Text) :
    readProperty (textLine name value).line = property name (withoutReturns value) := by
  rw [textLine, readProperty_line h, if_pos hname, unescape_escape]
  rfl

theorem read_lineIfGiven (h : unit ':' ∉ ofString name) (hname : ofString name ∈ textNames)
    (value : Text) :
    (lineIfGiven name value).map (fun l => readProperty l.line) = propertyIfGiven name value := by
  unfold lineIfGiven propertyIfGiven
  split
  · rfl
  · rw [map_singleton, readProperty_textLine h hname]

/-- The lines of an event are read as its properties. -/
theorem read_eventLines (now : OneLine) (ev : VEvent) :
    (eventLines now ev).map (fun l => readProperty l.line) = eventProperties now ev := by
  unfold eventLines eventProperties
  have hsequence : (ev.sequence.map (fun n => asItIs "SEQUENCE" n.text)).toList.map
      (fun l => readProperty l.line) =
        (ev.sequence.map (fun n => property "SEQUENCE" n.text)).toList := by
    cases ev.sequence with
    | none => rfl
    | some n => exact congrArg (fun p => [p]) (readProperty_asItIs (by decide) (by decide) n.text)
  simp (disch := decide) only [map_append, map_cons, map_nil, hsequence,
    read_lineIfGiven, readProperty_asItIs, readProperty_textLine]

/-- The lines of the calendar are read as its properties. -/
theorem read_calendarLines (x : Exporter) (now : OneLine) (events : List VEvent)
    (opts : CalendarOptions) :
    (calendarLines x now events opts).map (fun l => readProperty l.line) =
      calendarProperties x now events opts := by
  unfold calendarLines calendarProperties
  have hevents : (events.flatMap (eventLines now)).map (fun l => readProperty l.line) =
      events.flatMap (eventProperties now) := by
    rw [map_flatMap]
    exact congrArg events.flatMap (funext (read_eventLines now))
  simp (disch := decide) only [map_append, map_cons, map_nil, map_map, hevents,
    readProperty_asItIs, readProperty_textLine]
  rfl

theorem length_lineIfGiven (name : String) (value : Text) :
    (lineIfGiven name value).length = if value = [] then 0 else 1 := by
  unfold lineIfGiven
  split <;> rfl

theorem length_eventLines (now : OneLine) (ev : VEvent) :
    (eventLines now ev).length = eventLineCount ev := by
  have hsequence : (ev.sequence.map (fun n => asItIs "SEQUENCE" n.text)).toList.length =
      if ev.sequence.isSome then 1 else 0 := by
    cases ev.sequence <;> rfl
  simp only [eventLines, eventLineCount, length_append, length_lineIfGiven, hsequence,
    length_cons, length_nil]
  omega

theorem length_calendarLines (x : Exporter) (now : OneLine) (events : List VEvent)
    (opts : CalendarOptions) :
    (calendarLines x now events opts).length =
      7 + (x.headers opts).length + (events.map eventLineCount).sum := by
  have hevents : (events.flatMap (eventLines now)).length = (events.map eventLineCount).sum := by
    rw [length_flatMap]
    exact congrArg List.sum (map_congr_left (fun ev _ => length_eventLines now ev))
  simp only [calendarLines, length_append, hevents, length_map, length_cons,
    length_nil]
  omega

/-! ## When the calendar survives -/

/-- The line stays on one line. -/
structure CalendarLine.Sound (l : CalendarLine) : Prop where
  noReturn : NoReturn l.line
  begins : Ends isBlank l.line

theorem CalendarLine.Sound.written (h : l.Sound) : Written l.line l.emit := by
  unfold CalendarLine.emit
  split
  · exact Written.foldAt (by decide) (by decide) h.noReturn h.begins
  · exact Written.self h.noReturn h.begins

/-- The line has at most 75 octets, or its pieces have. -/
def CalendarLine.Fits (l : CalendarLine) : Prop :=
  if l.folded then Short 75 74 l.line else octets l.line ≤ 75

theorem CalendarLine.Sound.fits_iff (h : l.Sound) : ContentLines.Fits 75 l.emit ↔ l.Fits := by
  unfold CalendarLine.emit CalendarLine.Fits
  split
  · exact foldAt_fits_iff (by decide) h.noReturn
  · exact fits_iff_of_noReturn h.noReturn

/-- A name with which a line begins. -/
structure IsName (name : String) : Prop where
  noReturn : NoReturn (ofString name)
  begins : (ofString name).head?.any (fun c => !isBlank c) = true

instance (name : String) : Decidable (IsName name) :=
  decidable_of_iff
    (NoReturn (ofString name) ∧ (ofString name).head?.any (fun c => !isBlank c) = true)
    ⟨fun h => ⟨h.1, h.2⟩, fun h => ⟨h.1, h.2⟩⟩

theorem IsName.ends (h : IsName name) (t : Text) : Ends isBlank (ofString name ++ t) := by
  have hbegins := h.begins
  cases hname : ofString name with
  | nil => simp [hname] at hbegins
  | cons c s =>
    rw [hname] at hbegins
    exact ends_cons (by simpa using hbegins) (s ++ t)

theorem sound_asItIs (h : IsName name) {value : Text} (hvalue : NoReturn value) :
    (asItIs name value).Sound :=
  { noReturn := noReturn_append.mpr ⟨h.noReturn, noReturn_cons.mpr ⟨by decide, hvalue⟩⟩
    begins := h.ends _ }

theorem sound_textLine (h : IsName name) (value : Text) : (textLine name value).Sound :=
  { noReturn := noReturn_append.mpr ⟨h.noReturn, noReturn_cons.mpr ⟨by decide, noReturn_escape value⟩⟩
    begins := h.ends _ }

theorem mem_dropMillis {t : Text} : ∀ c ∈ dropMillis t, c ∈ t := by
  fun_induction dropMillis t with
  | case1 => simp
  | case2 c t h =>
    intro d hd
    exact mem_cons_of_mem c (mem_of_mem_drop hd)
  | case3 c t h ih =>
    intro d hd
    rcases mem_cons.mp hd with rfl | hd
    · exact mem_cons_self
    · exact mem_cons_of_mem c (ih d hd)

theorem noReturn_stampOf (now : OneLine) (ev : VEvent) : NoReturn (stampOf now ev) := by
  unfold stampOf
  split
  · exact fun h => now.noReturn (mem_of_mem_filter (mem_dropMillis _ h))
  · exact ev.dtstamp.noReturn

theorem noReturn_prodIdOf (x : Exporter) (opts : CalendarOptions) :
    NoReturn (prodIdOf x opts) := by
  unfold prodIdOf
  split
  · cases x <;> decide
  · exact opts.prodId.noReturn

theorem sound_lineIfGiven (h : IsName name) (value : Text) :
    ∀ l ∈ lineIfGiven name value, l.Sound := by
  intro l hl
  unfold lineIfGiven at hl
  split at hl
  · exact absurd hl not_mem_nil
  · rw [mem_singleton.mp hl]
    exact sound_textLine h value

theorem sound_eventLines (now : OneLine) (ev : VEvent) : ∀ l ∈ eventLines now ev, l.Sound := by
  have hstamp := noReturn_stampOf now ev
  have hsequence : ∀ l ∈ (ev.sequence.map (fun n => asItIs "SEQUENCE" n.text)).toList,
      l.Sound := by
    cases ev.sequence with
    | none => simp
    | some n =>
      intro l hl
      rw [mem_singleton.mp hl]
      exact sound_asItIs (by decide) n.noReturn
  simp only [eventLines, forall_mem_append, forall_mem_cons]
  refine ⟨⟨⟨⟨⟨⟨?_, ?_, ?_, ?_, ?_, ?_⟩, ?_⟩, ?_⟩, ?_, ?_, ?_⟩, hsequence⟩, ?_, ?_⟩
  · exact sound_asItIs (by decide) (by decide)
  · exact sound_asItIs (by decide) hstamp
  · exact sound_asItIs (by decide) ev.dtstart.noReturn
  · exact sound_asItIs (by decide) ev.dtend.noReturn
  · exact sound_textLine (by decide) ev.summary
  · simp
  · exact sound_lineIfGiven (by decide) ev.location
  · exact sound_lineIfGiven (by decide) ev.description
  · exact sound_asItIs (by decide) ev.uid.noReturn
  · exact sound_asItIs (by decide) (by decide)
  · simp
  · exact sound_asItIs (by decide) (by decide)
  · simp

/-- No line of the calendar is broken or continues another. -/
theorem sound_calendarLines (x : Exporter) (now : OneLine) (events : List VEvent)
    (opts : CalendarOptions) : ∀ l ∈ calendarLines x now events opts, l.Sound := by
  have hheaders : ∀ l ∈ (x.headers opts).map
      (fun header => CalendarLine.mk false header.text), l.Sound := by
    intro l hl
    obtain ⟨header, -, rfl⟩ := mem_map.mp hl
    exact ⟨header.noReturn, header.begins⟩
  have hevents : ∀ l ∈ events.flatMap (eventLines now), l.Sound := by
    intro l hl
    obtain ⟨ev, -, hl⟩ := mem_flatMap.mp hl
    exact sound_eventLines now ev l hl
  simp only [calendarLines, forall_mem_append, forall_mem_cons]
  refine ⟨⟨⟨⟨?_, ?_, ?_, ?_, ?_, ?_, ?_⟩, hheaders⟩, hevents⟩, ?_, ?_⟩
  · exact sound_asItIs (by decide) (by decide)
  · exact sound_asItIs (by decide) (by decide)
  · exact sound_asItIs (by decide) (noReturn_prodIdOf x opts)
  · exact sound_asItIs (by decide) (by decide)
  · exact sound_asItIs (by decide) (by decide)
  · exact sound_textLine (by decide) opts.calendarName
  · simp
  · exact sound_asItIs (by decide) (by decide)
  · simp

theorem calendarLines_ne_nil (x : Exporter) (now : OneLine) (events : List VEvent)
    (opts : CalendarOptions) : calendarLines x now events opts ≠ [] := by
  simp [calendarLines]

/-- The content lines that a reader gets are those that the calendar was written from. -/
theorem contentLines_buildVCalendar (x : Exporter) (now : OneLine) (events : List VEvent)
    (opts : CalendarOptions) :
    contentLines (buildVCalendar x now events opts) =
      (calendarLines x now events opts).map CalendarLine.line := by
  have hwritten : List.Forall₂ Written
      ((calendarLines x now events opts).map CalendarLine.line)
      ((calendarLines x now events opts).map CalendarLine.emit) := by
    rw [forall₂_map_left_iff, forall₂_map_right_iff, forall₂_same]
    exact fun l hl => (sound_calendarLines x now events opts l hl).written
  rw [buildVCalendar_eq]
  exact contentLines_join hwritten (by simpa using calendarLines_ne_nil x now events opts)

/-- A calendar survives exactly when each line that is written as it is has at most 75 octets,
and each folded line is ASCII up to its last fold and short after it. -/
theorem buildVCalendar_survives_iff (x : Exporter) (now : OneLine) (events : List VEvent)
    (opts : CalendarOptions) :
    Survives x now events opts ↔ ∀ l ∈ calendarLines x now events opts, l.Fits := by
  have hlines := contentLines_buildVCalendar x now events opts
  have hsound := sound_calendarLines x now events opts
  have hfits : ContentLines.Fits 75 (buildVCalendar x now events opts) ↔
      ∀ l ∈ calendarLines x now events opts, l.Fits := by
    rw [buildVCalendar_eq, fits_join_iff (by simpa using calendarLines_ne_nil x now events opts),
      List.forall_mem_map]
    exact forall₂_congr (fun l hl => (hsound l hl).fits_iff)
  constructor
  · intro h
    exact hfits.mp h.fits
  · intro h
    refine { properties := ?_, lineCount := ?_, fits := hfits.mpr h }
    · rw [readProperties, hlines, List.map_map]
      exact read_calendarLines x now events opts
    · rw [hlines, List.length_map, length_calendarLines]

/-- An event with a summary of forty letters of two octets each. -/
def accentedEvent : VEvent where
  uid := { text := ofString "a-b@localhost", noReturn := by decide }
  summary := List.replicate 40 (fromCharCode 0xe9)
  dtstart := { text := ofString "20260605T100000", noReturn := by decide }
  dtend := { text := ofString "20260605T110000", noReturn := by decide }
  location := []
  description := []
  dtstamp := { text := ofString "20260101T000000Z", noReturn := by decide }
  sequence := none

/-- The line of its summary has 48 units, so that it is not folded, and 88 octets. -/
theorem accented_not_survives :
    ¬ Survives .device { text := [], noReturn := noReturn_nil } [accentedEvent]
      { calendarName := ofString "Festie"
        prodId := { text := [], noReturn := noReturn_nil }
        extraHeaders := [] } := by
  intro h
  exact absurd h.fits (by decide)

end FestivalPlanner.Schedule
