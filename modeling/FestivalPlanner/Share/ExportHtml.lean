import FestivalPlanner.Lib.Js
import FestivalPlanner.Lib.NumberText
import FestivalPlanner.Lib.Substitution

/-!
# The exported schedule

`buildExportHtml` of `lib/helpers/export-utils.ts`: seven markups, put into a template one after
the other.  A template literal of the source is a list of parts here, fixed text and the arguments
of `escapeHtml`.

* `Part`, `Markup` — the template literals; `escapeHtml`;
* `overviewMarkup`, `liveMarkup`, `remindersMarkup`, `content`, `crewMarkup` — the markups;
* `Slot`, `slotMarkup` — the placeholders and what is put in for them;
* `buildExportHtml` — the document;
* `isSpaced_slotMarkup` — in every markup, fixed text that separates stands behind an escaped one.
-/

namespace FestivalPlanner.Share

open Utf16 Substitution
open Bool (and_eq_true and_eq_true_iff)

/-! ## Data -/

/-- A set of the festival document; missing texts are empty. -/
structure ExportSet where
  id : Text
  artist : Text
  stageId : Text
  startTime : Text
  endTime : Text

structure ExportDay where
  label : Text
  date : Text
  sets : List ExportSet

structure ExportStage where
  id : Text
  name : Text
  color : Text

structure ExportFestival where
  name : Text
  location : Text
  stages : List ExportStage
  days : List ExportDay

/-- The profile that is exported: priorities, notes and lead times by the id of a set. -/
structure ExportProfile where
  id : Text
  name : Text
  picks : List (Text × Text)
  notes : List (Text × Text)
  reminders : List (Text × ℕ)

/-- The profile of a member of a crew. -/
structure CrewProfile where
  id : Text
  name : Text
  picks : List (Text × Text)

/-- What the export asks of the device it runs on. -/
structure ExportHost where
  localeCompare : Text → Text → ℤ
  /-- the time value of `new Date(text)` -/
  parse : Text → Js.Number
  toLocaleString : ℤ → Text
  toUpperCase : Text → Text

/-- A set with its day, as `buildFestivalSetList` makes it. -/
structure ListedSet extends ExportSet where
  dayIndex : ℕ
  dayLabel : Text
  dayDate : Text

/-- `a || b` on texts -/
def orElse (a b : Text) : Text := if a = [] then b else a

/-- `picks?.[id]`, empty when there is none. -/
def pickOf (picks : List (Text × Text)) (id : Text) : Text := (picks.lookup id).getD []

/-- The decimal digits of a number. -/
def countText (n : ℕ) : Text := if n = 0 then [unit '0'] else Double.digitsText n

/-! ## Helpers -/

/-- `getAvatarColor`; the shift is one of 32 bits. -/
def getAvatarColor (name : Text) : Text :=
  let colors := ["#ff3366", "#00e8d0", "#ffb020", "#39ff14", "#ff8c00", "#4488ff", "#ff4444",
    "#e040fb", "#00e5ff", "#ffab00"]
  let hash := name.foldl (fun hash c => (c.val : ℤ) + ((hash * 32).bmod (2 ^ 32) - hash)) 0
  ofString (colors.getD (hash.natAbs % colors.length) "")

def getInitials (host : ExportHost) (name : Text) : Text :=
  (host.toUpperCase ((name.splitOn (unit ' ')).flatMap (fun word => word.take 1))).take 2

/-- `String(n)` of a number that may be `NaN`. -/
def numberText : Js.Number → List Char
  | some n => (toString n).toList
  | none => "NaN".toList

def formatTime (value : Text) : Text :=
  if value = [] then []
  else
    let parts := (Js.split ':' (value.map (fun c => Char.ofNat c.val))).map Js.parseInt
    let hours := parts.headD none
    let amPm := if hours.any (fun h => decide (12 ≤ h)) then "PM" else "AM"
    let hour := match hours with
      | some h => if h.tmod 12 = 0 then 12 else h.tmod 12
      | none => 12
    let minutes := match parts[1]? with
      | some m => numberText m
      | none => "undefined".toList
    ofString (String.ofList
      ((toString hour).toList ++ ':' :: Js.padStart 2 minutes ++ ' ' :: amPm.toList))

def buildSetDateStamp (host : ExportHost) (dayDate timeValue : Text) : Js.Number :=
  if dayDate = [] ∨ timeValue = [] then none
  else host.parse (dayDate ++ unit 'T' :: timeValue ++ ofString ":00")

/-- The start of a set, and its end, on the next day when it does not come after the start. -/
def getSetTiming (host : ExportHost) (set : ListedSet) : Js.Number × Js.Number :=
  let start := buildSetDateStamp host set.dayDate set.startTime
  let fin := buildSetDateStamp host set.dayDate set.endTime
  match start, fin with
  | some s, some e => (start, some (if e ≤ s then e + 24 * 60 * 60 * 1000 else e))
  | _, _ => (start, fin)

/-- The order of `buildFestivalSetList`. -/
def setOrder (host : ExportHost) (left right : ListedSet) : ℤ :=
  if left.dayIndex ≠ right.dayIndex then (left.dayIndex : ℤ) - right.dayIndex
  else
    let byArtist := host.localeCompare left.artist right.artist
    if left.startTime ≠ [] ∧ right.startTime ≠ [] then
      let byTime := host.localeCompare left.startTime right.startTime
      if byTime = 0 then byArtist else byTime
    else if left.startTime ≠ [] then -1
    else if right.startTime ≠ [] then 1
    else byArtist

def buildFestivalSetList (host : ExportHost) (festival : ExportFestival) : List ListedSet :=
  (festival.days.zipIdx.flatMap (fun day => day.1.sets.map (fun set =>
    { set with
      dayIndex := day.2
      dayLabel := orElse (orElse day.1.label day.1.date) (ofString "Day")
      dayDate := day.1.date }))).insertionSort (fun left right => setOrder host left right ≤ 0)

/-- The set of the items that plays at a time, or the next one, or the first. -/
def pickTimedFestivalSet {β : Type} (host : ExportHost) (setOf : β → ListedSet) (items : List β)
    (exportedAt : ℤ) : Option (Text × β) :=
  let isCurrent (item : β) : Bool :=
    match getSetTiming host (setOf item) with
    | (some start, some fin) => decide (start ≤ exportedAt ∧ exportedAt < fin)
    | _ => false
  let isNext (item : β) : Bool :=
    (getSetTiming host (setOf item)).2.all (fun fin => decide (exportedAt < fin))
  match items.find? isCurrent with
  | some item => some (ofString "Live now", item)
  | none => ((items.find? isNext).or items.head?).map (fun item => (ofString "Next move", item))

def getExportPickLabel (priority : Text) : Text :=
  if priority = ofString "must" then ofString "Must See"
  else if priority = ofString "want-to-see" then ofString "Want to See"
  else if priority = ofString "maybe" then ofString "Maybe"
  else ofString "Saved"

def getExportPickChipClass (priority : Text) : Text :=
  if priority = ofString "must" then ofString "chip-must"
  else if priority = ofString "want-to-see" then ofString "chip-want"
  else if priority = ofString "maybe" then ofString "chip-maybe"
  else ofString "chip-accent"

def formatSetRangeLabel (set : ListedSet) : Text :=
  if set.startTime = [] then set.dayLabel ++ ofString " · TBA"
  else
    let timeLabel := if set.endTime = [] then formatTime set.startTime
      else formatTime set.startTime ++ ofString " - " ++ formatTime set.endTime
    set.dayLabel ++ ofString " · " ++ timeLabel

/-- `stageMap.get(id)`, in which the last stage of an id counts. -/
def stageOf (festival : ExportFestival) (id : Text) : ExportStage :=
  (festival.stages.reverse.find? (fun stage => stage.id = id)).getD
    { id := id, name := ofString "Unknown", color := ofString "#666666" }

def formatSetLocationLabel (festival : ExportFestival) (set : ListedSet) : Text :=
  formatSetRangeLabel set ++ ofString " · " ++ (stageOf festival set.stageId).name

/-- The sets with a reminder and their lead times, the earliest first. -/
def getExportReminderItems (host : ExportHost) (sets : List ListedSet) (profile : ExportProfile) :
    List (ListedSet × ℕ) :=
  let startsAt (item : ListedSet × ℕ) : ℤ :=
    match buildSetDateStamp host item.1.dayDate item.1.startTime with
    -- the epoch counts as no time
    | some t => if t = 0 then 9007199254740991 else t
    | none => 9007199254740991
  ((sets.map (fun set => (set, (profile.reminders.lookup set.id).getD 0))).filter
    (fun item => 0 < item.2)).insertionSort (fun left right => startsAt left ≤ startsAt right)

def formatCrewOverlapLabel : List Text → Text
  | [] => ofString "No shared set yet"
  | [name] => name ++ ofString " also saved this"
  | [name, other] => name ++ ofString " and " ++ other ++ ofString " also saved this"
  | name :: others => name ++ ofString " + " ++ countText others.length ++
      ofString " others also saved this"

/-- The other profiles that saved a set. -/
def othersWith (profile : ExportProfile) (allProfiles : List CrewProfile) (setId : Text) :
    List CrewProfile :=
  allProfiles.filter (fun other => other.id ≠ profile.id ∧ pickOf other.picks setId ≠ [])

/-- The saved sets that others saved too, with the names of these. -/
def overlapEntries (sets : List ListedSet) (profile : ExportProfile)
    (allProfiles : List CrewProfile) : List (ListedSet × List Text) :=
  sets.filterMap (fun set =>
    let others := othersWith profile allProfiles set.id
    if pickOf profile.picks set.id ≠ [] ∧ others ≠ [] then
      some (set, others.map (fun other => other.name))
    else none)

/-! ## Template literals -/

def escapeUnit (c : CodeUnit) : Text :=
  if c = unit '&' then ofString "&amp;"
  else if c = unit '<' then ofString "&lt;"
  else if c = unit '>' then ofString "&gt;"
  else if c = unit '"' then ofString "&quot;"
  else if c = unit (Char.ofNat 39) then ofString "&#39;"
  else if c = unit (Char.ofNat 96) then ofString "&#96;"
  else [c]

/-- The ampersands are replaced first, so that the six replacements are one of each unit. -/
def escapeHtml (t : Text) : Text := t.flatMap escapeUnit

/-- A part of a template literal. -/
inductive Part
  | fixed (text : Text)
  /-- the text between `${escapeHtml(` and `)}` -/
  | escaped (value : Text)

abbrev Markup := List Part

@[grind =] def html (s : String) : Part := .fixed (ofString s)

def Part.text : Part → Text
  | .fixed t => t
  | .escaped value => escapeHtml value

/-- The text of a markup. -/
def Markup.text (m : Markup) : Text := m.flatMap Part.text

/-! ## The markups -/

def overviewMarkup (festival : ExportFestival) (profile : ExportProfile) (reminders : ℕ) :
    Markup :=
  [html "<div class=\"overview-grid\">
    <div class=\"overview-card\"><span class=\"overview-label\">Total picks</span><strong>",
    .escaped (countText profile.picks.length),
    html "</strong><div class=\"overview-meta\">",
    .escaped (countText festival.days.length ++ ofString " festival days loaded"),
    html "</div></div>
    <div class=\"overview-card\"><span class=\"overview-label\">Must see</span><strong>",
    .escaped (countText (profile.picks.countP (fun pick => pick.2 = ofString "must"))),
    html "</strong><div class=\"overview-meta\">Highest-priority saves</div></div>
    <div class=\"overview-card\"><span class=\"overview-label\">Private notes</span><strong>",
    .escaped (countText profile.notes.length),
    html "</strong><div class=\"overview-meta\">Only included in your export</div></div>
    <div class=\"overview-card\"><span class=\"overview-label\">Reminders</span><strong>",
    .escaped (countText reminders),
    html "</strong><div class=\"overview-meta\">Timed alerts on this device</div></div>
  </div>"]

/-- The chip of a set with a reminder. -/
def reminderChip (reminders : List (ListedSet × ℕ)) (setId : Text) (word : String) : Markup :=
  match (reminders.reverse.find? (fun item => item.1.id = setId)) with
  | some item => [html "<span class=\"chip chip-reminder\">",
      .escaped (countText item.2 ++ ofString word), html "</span>"]
  | none => []

def nextMoveMarkup (festival : ExportFestival) (profile : ExportProfile)
    (reminders : List (ListedSet × ℕ)) : Option (Text × ListedSet) → Markup
  | some (mode, set) =>
    [html "<div class=\"snapshot-card\"><span class=\"snapshot-kicker\">", .escaped mode,
      html "</span><h3>", .escaped set.artist, html "</h3><p>",
      .escaped (formatSetLocationLabel festival set),
      html "</p><div class=\"snapshot-chips\"><span class=\"chip ",
      .escaped (getExportPickChipClass (pickOf profile.picks set.id)), html "\">",
      .escaped (getExportPickLabel (pickOf profile.picks set.id)), html "</span>"] ++
    reminderChip reminders set.id "m reminder" ++ [html "</div></div>"]
  | none => [html ("<div class=\"snapshot-card\"><span class=\"snapshot-kicker\">Next " ++
      "move</span><h3>Nothing lined up yet</h3><p>Save a few sets in Festie and your next " ++
      "move will appear here.</p></div>")]

def overlapMarkup (festival : ExportFestival) : Option (Text × ListedSet × List Text) → Markup
  | some (mode, set, otherNames) =>
    [html "<div class=\"snapshot-card\"><span class=\"snapshot-kicker\">Crew overlap</span><h3>",
      .escaped set.artist, html "</h3><p>",
      .escaped (formatCrewOverlapLabel otherNames ++ ofString " · " ++
        formatSetLocationLabel festival set),
      html "</p><div class=\"snapshot-meta\">", .escaped mode, html "</div></div>"]
  | none => [html ("<div class=\"snapshot-card\"><span class=\"snapshot-kicker\">Crew " ++
      "overlap</span><h3>No shared set yet</h3><p>When your crew saves the same set, the next " ++
      "overlap will show up here.</p></div>")]

def liveMarkup (nextMove overlap : Markup) : Markup :=
  [html ("<section class=\"section\"><div class=\"section-title\"><div class=\"dot\" " ++
        "style=\"background:"),
    .escaped (ofString "#39ff14"),
    html "\"></div>Live Snapshot</div><div class=\"snapshot-grid\">"] ++
  nextMove ++ overlap ++ [html "</div></section>"]

def remindersMarkup (festival : ExportFestival) (reminders : List (ListedSet × ℕ)) : Markup :=
  if reminders = [] then []
  else
    [html ("<section class=\"section\"><div class=\"section-title\"><div class=\"dot\" " ++
          "style=\"background:"),
      .escaped (ofString "#ffb020"),
      html "\"></div>Upcoming Reminders</div><div class=\"reminder-list\">"] ++
    (reminders.take 4).flatMap (fun item =>
      [html "<div class=\"reminder-item\"><div class=\"reminder-copy\"><strong>",
        .escaped item.1.artist, html "</strong><span>",
        .escaped (formatSetLocationLabel festival item.1),
        html "</span></div><span class=\"chip chip-reminder\">",
        .escaped (countText item.2 ++ ofString "m alert"), html "</span></div>"]) ++
    [html "</div></section>"]

/-- The stage of a set, in its color. -/
def stageMarkup (stage : ExportStage) : Markup :=
  [html "<span class=\"stage\" style=\"background:", .escaped stage.color, html "25;color:",
    .escaped stage.color, html "\">", .escaped stage.name, html "</span>"]

/-- The members who saved a set. -/
def friendMarkup (host : ExportHost) (others : List CrewProfile) : Markup :=
  if others = [] then [html "<span class=\"solo\">Solo</span>"]
  else
    [html "<span class=\"friends\">"] ++
    others.flatMap (fun other =>
      [html "<span class=\"mini-avatar\" style=\"background:", .escaped (getAvatarColor other.name),
        html "\" title=\"", .escaped other.name, html "\">",
        .escaped (getInitials host other.name), html "</span>"]) ++
    [html "</span>"]

/-- The note of a set. -/
def noteMarkup (note : Text) : Markup :=
  if note = [] then []
  else [html "<div class=\"note\">&#128221; ", .escaped note, html "</div>"]

/-- The row of a saved set. -/
def setRow (host : ExportHost) (festival : ExportFestival) (profile : ExportProfile)
    (allProfiles : List CrewProfile) (reminders : List (ListedSet × ℕ)) (set : ListedSet) :
    Markup :=
  let chip := reminderChip reminders set.id "m alert"
  [html "<div class=\"set-row\"><span class=\"time\">", .escaped (formatSetRangeLabel set),
    html "</span><span class=\"artist\">", .escaped set.artist, html "</span>"] ++
  stageMarkup (stageOf festival set.stageId) ++
  (if chip = [] then [] else [html "<span class=\"set-badges\">"] ++ chip ++ [html "</span>"]) ++
  friendMarkup host (othersWith profile allProfiles set.id) ++ [html "</div>"] ++
  noteMarkup (pickOf profile.notes set.id)

/-- The sets by their day and time, as one text. -/
def sortByLabel (host : ExportHost) (sets : List ListedSet) : List ListedSet :=
  sets.insertionSort (fun left right =>
    host.localeCompare (left.dayLabel ++ left.startTime) (right.dayLabel ++ right.startTime) ≤ 0)

/-- The priorities with their titles and colors. -/
def categories : List (String × String × String) :=
  [("must", "Must See", "#ff3366"), ("want-to-see", "Want to See", "#00e8d0"),
    ("maybe", "Maybe", "#ffb020")]

/-- The section of a priority; without sets there is none. -/
def categorySection (host : ExportHost) (festival : ExportFestival) (profile : ExportProfile)
    (allProfiles : List CrewProfile) (sets : List ListedSet) (reminders : List (ListedSet × ℕ))
    (category : String × String × String) : Markup :=
  let items := sortByLabel host
    (sets.filter (fun set => pickOf profile.picks set.id = ofString category.1))
  if items = [] then []
  else
    [html ("<section class=\"section\"><div class=\"section-title\"><div class=\"dot\" " ++
          "style=\"background:"),
      .escaped (ofString category.2.2), html "\"></div>", .escaped (ofString category.2.1),
      html " (", .fixed (countText items.length), html ")</div>"] ++
    items.flatMap (setRow host festival profile allProfiles reminders) ++ [html "</section>"]

def content (sections : Markup) : Markup :=
  if sections = [] then
    [html ("<div class=\"empty-state\"><div class=\"empty-icon\">&#127914;</div><p>No sets " ++
          "picked yet.</p></div>")]
  else sections

/-- The row of a set that a member saved. -/
def memberSetRow (festival : ExportFestival) (profile : ExportProfile) (member : CrewProfile)
    (set : ListedSet) : Markup :=
  let pri := pickOf member.picks set.id
  let priClass := if pri = ofString "must" then "chip-must"
    else if pri = ofString "want-to-see" then "chip-want" else "chip-maybe"
  let priLabel := if pri = ofString "must" then "Must"
    else if pri = ofString "want-to-see" then "Want" else "Maybe"
  let overlap := if pickOf profile.picks set.id = [] then "" else " 🤝"
  [html "<div class=\"set-row\"><span class=\"time\">", .escaped (formatSetRangeLabel set),
    html "</span><span class=\"artist\">", .escaped set.artist, html (overlap ++ "</span>")] ++
  stageMarkup (stageOf festival set.stageId) ++
  [html ("<span class=\"chip " ++ priClass ++ "\">"), .escaped (ofString priLabel),
    html "</span></div>"]

/-- The section of a member. -/
def memberSection (host : ExportHost) (festival : ExportFestival) (profile : ExportProfile)
    (sets : List ListedSet) (member : CrewProfile) : Markup :=
  let memberSets := sortByLabel host (sets.filter (fun set => pickOf member.picks set.id ≠ []))
  let shared := memberSets.countP (fun set => pickOf profile.picks set.id ≠ [])
  [html ("<div class=\"crew-member-section\"><div class=\"crew-member-header\"><span " ++
        "class=\"mini-avatar\" style=\"background:"),
    .escaped (getAvatarColor member.name), html "\">", .escaped (getInitials host member.name),
    html "</span><strong>", .escaped member.name, html "</strong><span class=\"crew-meta\">",
    .fixed (countText memberSets.length), html " picks &middot; ", .fixed (countText shared),
    html " shared</span></div>"] ++
  memberSets.flatMap (memberSetRow festival profile member) ++ [html "</div>"]

def crewMarkup (host : ExportHost) (festival : ExportFestival) (profile : ExportProfile)
    (allProfiles : List CrewProfile) (sets : List ListedSet) : Markup :=
  let crewMembers := allProfiles.filter (fun p => p.id ≠ profile.id ∧ p.picks ≠ [])
  if crewMembers = [] then []
  else
    [html ("<section class=\"section\"><div class=\"section-title\"><div class=\"dot\" " ++
          "style=\"background:#a78bfa\"></div>Crew Schedules ("),
      .fixed (countText crewMembers.length), html ")</div>"] ++
    crewMembers.flatMap (memberSection host festival profile sets) ++ [html "</section>"]

/-! ## The document -/

/-- The placeholders, in the order in which they are replaced. -/
inductive Slot
  | title
  | subtitle
  | overview
  | live
  | reminders
  | sections
  | exportedAt
  deriving DecidableEq

def Slot.name : Slot → Text
  | .title => ofString "__TITLE__"
  | .subtitle => ofString "__SUBTITLE__"
  | .overview => ofString "__OVERVIEW__"
  | .live => ofString "__LIVE__"
  | .reminders => ofString "__REMINDERS__"
  | .sections => ofString "__SECTIONS__"
  | .exportedAt => ofString "__EXPORTED_AT__"

def slots : List Slot :=
  [.title, .subtitle, .overview, .live, .reminders, .sections, .exportedAt]

/-- What `buildExportHtml` is called with, the template apart; the route exports at an instant. -/
structure ExportInput where
  host : ExportHost
  festival : ExportFestival
  profile : ExportProfile
  allProfiles : List CrewProfile
  exportedAt : ℤ

/-- What is put in for a placeholder. -/
def slotMarkup (x : ExportInput) : Slot → Markup :=
  let sets := buildFestivalSetList x.host x.festival
  let reminders := getExportReminderItems x.host sets x.profile
  let nextMove := pickTimedFestivalSet x.host id
    (sets.filter (fun set => pickOf x.profile.picks set.id ≠ [])) x.exportedAt
  let crewOverlap := pickTimedFestivalSet x.host Prod.fst
    (overlapEntries sets x.profile x.allProfiles) x.exportedAt
  fun
  | .title => [.escaped x.festival.name]
  | .subtitle => [.escaped (x.profile.name ++ ofString "'s Schedule" ++
      if x.festival.location = [] then [] else ofString " - " ++ x.festival.location)]
  | .overview => overviewMarkup x.festival x.profile reminders.length
  | .live => liveMarkup (nextMoveMarkup x.festival x.profile reminders nextMove)
      (overlapMarkup x.festival crewOverlap)
  | .reminders => remindersMarkup x.festival reminders
  | .sections => content (categories.flatMap
      (categorySection x.host x.festival x.profile x.allProfiles sets reminders)) ++
      crewMarkup x.host x.festival x.profile x.allProfiles sets
  | .exportedAt => [.escaped (x.host.toLocaleString x.exportedAt)]

/-- The placeholders of a text replaced one after the other. -/
def replaceSlots (markup : Slot → Markup) (template : Text) : List Slot → Text
  | [] => template
  | slot :: rest => replaceSlots markup (replaceGlobal slot.name (markup slot).text template) rest

def buildExportHtml (template : Text) (x : ExportInput) : Text :=
  replaceSlots (slotMarkup x) template slots

/-! ## What stands behind an escaped text -/

set_option maxRecDepth 4000

/-- Capital letters and underscores, of which the names of the placeholders are made. -/
def isNameUnit (c : CodeUnit) : Bool := c == unit '_' || decide (65 ≤ c.val ∧ c.val ≤ 90)

/-- Fixed text has neither dollar signs nor underscores. -/
@[grind =] def isPlain (t : Text) : Bool := t.all (fun c => c != unit '$' && c != unit '_')

/-- It begins with a unit that no name has, and that has no meaning behind a dollar sign. -/
def isSeparator (t : Text) : Bool :=
  isPlain t && t.head?.any (fun c => !isSpecial c && !isNameUnit c)

/-- Fixed text separates, and stands behind every escaped text. -/
@[grind =] def isSpaced : Markup → Bool
  | [] => true
  | .fixed t :: m => isSeparator t && isSpaced m
  | .escaped _ :: .fixed t :: m => isSeparator t && isSpaced m
  | .escaped _ :: _ => false

theorem isPlain_of_isSeparator {t : Text} (h : isSeparator t = true) : isPlain t = true :=
  (Bool.and_eq_true_iff.mp h).1

theorem ofString_append (s t : String) : ofString (s ++ t) = ofString s ++ ofString t := by
  simp only [ofString, String.toList_append, List.flatMap_append]

theorem unit_mem_unitsOf {c d : Char} (hd : d.toNat < 0x80) (h : unit d ∈ unitsOf c) : d = c := by
  have hc := toNat_valid c
  have hval : (unit d).val = d.toNat := by
    simp only [unit, fromCharCode, Fin.ofNat]
    omega
  unfold unitsOf unit at h
  split at h
  · have heq := fromCharCode_inj (by omega) (by omega) (List.mem_singleton.mp h)
    exact Char.ext (UInt32.toNat.inj (by exact_mod_cast heq))
  · rcases List.mem_cons.mp h with h | h
    · have := fromCharCode_inj (by omega) (by omega) h
      omega
    · have := fromCharCode_inj (by omega) (by omega) (List.mem_singleton.mp h)
      omega

/-- The check of a literal is one of its characters. -/
theorem isPlain_of_chars {cs : List Char}
    (h : cs.all (fun c => c ≠ '$' && c ≠ '_') = true) :
    isPlain (ofString (String.ofList cs)) = true := by
  rw [ofString, String.toList_ofList, isPlain, List.all_eq_true]
  intro u hu
  obtain ⟨c, hc, hu⟩ := List.mem_flatMap.mp hu
  have hplain := List.all_eq_true.mp h c hc
  simp only [and_eq_true, decide_eq_true_eq] at hplain
  simp only [and_eq_true, bne_iff_ne, ne_eq]
  constructor
  · rintro rfl
    exact hplain.1 (unit_mem_unitsOf (by decide) hu).symm
  · rintro rfl
    exact hplain.2 (unit_mem_unitsOf (by decide) hu).symm

theorem isSeparator_of_chars {c : Char} {cs : List Char}
    (h : (c :: cs).all (fun c => c ≠ '$' && c ≠ '_') = true)
    (hc : ((unitsOf c).head?.any (fun u => !isSpecial u && !isNameUnit u)) = true) :
    isSeparator (ofString (String.ofList (c :: cs))) = true := by
  refine Bool.and_eq_true_iff.mpr ⟨isPlain_of_chars h, ?_⟩
  rw [ofString, String.toList_ofList, List.flatMap_cons]
  cases hunits : unitsOf c with
  | nil => exact absurd hunits (unitsOf_ne_nil c)
  | cons u us =>
    rw [hunits] at hc
    exact hc

theorem isSeparator_append {s t : String} (hs : isSeparator (ofString s) = true)
    (ht : isSeparator (ofString t) = true) : isSeparator (ofString (s ++ t)) = true := by
  have ⟨hplain, hhead⟩ := Bool.and_eq_true_iff.mp hs
  rw [ofString_append]
  refine Bool.and_eq_true_iff.mpr ⟨?_, ?_⟩
  · rw [isPlain, List.all_append, and_eq_true]
    exact ⟨hplain, isPlain_of_isSeparator ht⟩
  · cases hunits : ofString s with
    | nil => simp [hunits] at hhead
    | cons u us =>
      rw [hunits] at hhead
      exact hhead

theorem isSpaced_append {m n : Markup} (hm : isSpaced m = true) (hn : isSpaced n = true) :
    isSpaced (m ++ n) = true := by
  fun_induction isSpaced m with
  | case1 => exact hn
  | case2 t m ih =>
    have ⟨ht, hrest⟩ := Bool.and_eq_true_iff.mp hm
    exact Bool.and_eq_true_iff.mpr ⟨ht, ih hrest⟩
  | case3 value t m ih =>
    have ⟨ht, hrest⟩ := Bool.and_eq_true_iff.mp hm
    exact Bool.and_eq_true_iff.mpr ⟨ht, ih hrest⟩
  | case4 value m hno => cases hm

theorem isSpaced_flatMap {β : Type} {items : List β} {markup : β → Markup}
    (h : ∀ b, isSpaced (markup b) = true) : isSpaced (items.flatMap markup) = true := by
  induction items with
  | nil => rfl
  | cons b items ih => exact isSpaced_append (h b) ih

theorem isSeparator_countText (n : ℕ) : isSeparator (countText n) = true := by
  have hdigits : ∀ c ∈ countText n, 48 ≤ c.val ∧ c.val ≤ 57 := by
    intro c hc
    unfold countText at hc
    split at hc
    · rw [List.mem_singleton.mp hc]
      decide
    · simpa [Double.isDigit] using Double.isDigit_digitsText n c hc
  have hne : countText n ≠ [] := by
    unfold countText
    split
    · simp
    · exact Double.digitsText_ne_nil ‹_›
  have hunit : ∀ c : CodeUnit, 48 ≤ c.val ∧ c.val ≤ 57 →
      c ≠ unit '$' ∧ c ≠ unit '_' ∧ isSpecial c = false ∧ isNameUnit c = false := by
    intro c hc
    have hnot : ∀ d : CodeUnit, d.val < 48 ∨ 57 < d.val → c ≠ d := by
      rintro d hd rfl
      omega
    have hname : ¬ (65 ≤ c.val ∧ c.val ≤ 90) := by omega
    refine ⟨hnot _ (by decide), hnot _ (by decide), ?_, ?_⟩
    · simp only [isSpecial, Bool.or_eq_false_iff, beq_eq_false_iff_ne, ne_eq]
      exact ⟨⟨⟨hnot _ (by decide), hnot _ (by decide)⟩, hnot _ (by decide)⟩, hnot _ (by decide)⟩
    · simp only [isNameUnit, Bool.or_eq_false_iff, beq_eq_false_iff_ne, ne_eq,
        decide_eq_false_iff_not]
      exact ⟨hnot _ (by decide), hname⟩
  refine Bool.and_eq_true_iff.mpr ⟨?_, ?_⟩
  · rw [isPlain, List.all_eq_true]
    intro c hc
    have h := hunit c (hdigits c hc)
    simp only [and_eq_true, bne_iff_ne, ne_eq]
    exact ⟨h.1, h.2.1⟩
  · obtain ⟨c, cs, hcons⟩ := List.exists_cons_of_ne_nil hne
    have h := hunit c (hdigits c (by rw [hcons]; exact List.mem_cons_self))
    simp [hcons, h.2.2.1, h.2.2.2]

theorem isSpaced_reminderChip (reminders : List (ListedSet × ℕ)) (setId : Text) (word : String) :
    isSpaced (reminderChip reminders setId word) = true := by
  unfold reminderChip
  split
  · simp only [isSpaced, html, and_eq_true, and_true]
    and_intros <;> exact isSeparator_of_chars (by decide) (by decide)
  · rfl

theorem isSpaced_overviewMarkup (festival : ExportFestival) (profile : ExportProfile)
    (reminders : ℕ) : isSpaced (overviewMarkup festival profile reminders) = true := by
  simp only [overviewMarkup, isSpaced, html, and_eq_true, and_true]
  and_intros <;> exact isSeparator_of_chars (by decide) (by decide)

theorem isSpaced_nextMoveMarkup (festival : ExportFestival) (profile : ExportProfile)
    (reminders : List (ListedSet × ℕ)) (nextMove : Option (Text × ListedSet)) :
    isSpaced (nextMoveMarkup festival profile reminders nextMove) = true := by
  cases nextMove with
  | none =>
    simp only [nextMoveMarkup, isSpaced, html, and_eq_true, and_true]
    (repeat' with_reducible apply isSeparator_append) <;>
      exact isSeparator_of_chars (by decide) (by decide)
  | some choice =>
    refine isSpaced_append (isSpaced_append ?_ (isSpaced_reminderChip reminders _ _)) ?_
    · simp only [isSpaced, html, and_eq_true, and_true]
      and_intros <;> exact isSeparator_of_chars (by decide) (by decide)
    · decide

theorem isSpaced_overlapMarkup (festival : ExportFestival)
    (crewOverlap : Option (Text × ListedSet × List Text)) :
    isSpaced (overlapMarkup festival crewOverlap) = true := by
  cases crewOverlap with
  | none =>
    simp only [overlapMarkup, isSpaced, html, and_eq_true, and_true]
    (repeat' with_reducible apply isSeparator_append) <;>
      exact isSeparator_of_chars (by decide) (by decide)
  | some choice =>
    simp only [overlapMarkup, isSpaced, html, and_eq_true, and_true]
    and_intros <;> exact isSeparator_of_chars (by decide) (by decide)

theorem isSpaced_liveMarkup {nextMove overlap : Markup} (hnext : isSpaced nextMove = true)
    (hoverlap : isSpaced overlap = true) : isSpaced (liveMarkup nextMove overlap) = true := by
  refine isSpaced_append (isSpaced_append (isSpaced_append ?_ hnext) hoverlap) (by decide)
  simp only [isSpaced, html, and_eq_true, and_true]
  and_intros <;> (repeat' with_reducible apply isSeparator_append) <;>
      exact isSeparator_of_chars (by decide) (by decide)

theorem isSpaced_remindersMarkup (festival : ExportFestival)
    (reminders : List (ListedSet × ℕ)) :
    isSpaced (remindersMarkup festival reminders) = true := by
  unfold remindersMarkup
  split
  · rfl
  · refine isSpaced_append (isSpaced_append ?_ (isSpaced_flatMap (fun item => ?_))) (by decide)
    · simp only [isSpaced, html, and_eq_true, and_true]
      and_intros <;> (repeat' with_reducible apply isSeparator_append) <;>
      exact isSeparator_of_chars (by decide) (by decide)
    · simp only [isSpaced, html, and_eq_true, and_true]
      and_intros <;> exact isSeparator_of_chars (by decide) (by decide)

theorem isSpaced_stageMarkup (stage : ExportStage) : isSpaced (stageMarkup stage) = true := by
  simp only [stageMarkup, isSpaced, html, and_eq_true, and_true]
  and_intros <;> exact isSeparator_of_chars (by decide) (by decide)

theorem isSpaced_friendMarkup (host : ExportHost) (others : List CrewProfile) :
    isSpaced (friendMarkup host others) = true := by
  unfold friendMarkup
  split
  · decide
  · refine isSpaced_append (isSpaced_append (by decide) (isSpaced_flatMap (fun other => ?_)))
      (by decide)
    simp only [isSpaced, html, and_eq_true, and_true]
    and_intros <;> exact isSeparator_of_chars (by decide) (by decide)

theorem isSpaced_noteMarkup (note : Text) : isSpaced (noteMarkup note) = true := by
  unfold noteMarkup
  split
  · rfl
  · simp only [isSpaced, html, and_eq_true, and_true]
    and_intros <;> exact isSeparator_of_chars (by decide) (by decide)

theorem isSpaced_setRow (host : ExportHost) (festival : ExportFestival) (profile : ExportProfile)
    (allProfiles : List CrewProfile) (reminders : List (ListedSet × ℕ)) (set : ListedSet) :
    isSpaced (setRow host festival profile allProfiles reminders set) = true := by
  have hchip := isSpaced_reminderChip reminders set.id "m alert"
  refine isSpaced_append (isSpaced_append (isSpaced_append (isSpaced_append (isSpaced_append ?_
    (isSpaced_stageMarkup _)) ?_) (isSpaced_friendMarkup host _)) (by decide))
    (isSpaced_noteMarkup _)
  · simp only [isSpaced, html, and_eq_true, and_true]
    and_intros <;> exact isSeparator_of_chars (by decide) (by decide)
  · split
    · rfl
    · exact isSpaced_append (isSpaced_append (by decide) hchip) (by decide)

theorem isSpaced_categorySection (host : ExportHost) (festival : ExportFestival)
    (profile : ExportProfile) (allProfiles : List CrewProfile) (sets : List ListedSet)
    (reminders : List (ListedSet × ℕ)) (category : String × String × String) :
    isSpaced (categorySection host festival profile allProfiles sets reminders category) =
      true := by
  unfold categorySection
  simp only
  split
  · rfl
  · refine isSpaced_append (isSpaced_append ?_ (isSpaced_flatMap
      (isSpaced_setRow host festival profile allProfiles reminders))) (by decide)
    simp only [isSpaced, html, isSeparator_countText, and_eq_true, true_and, and_true]
    and_intros <;> (repeat' with_reducible apply isSeparator_append) <;>
      exact isSeparator_of_chars (by decide) (by decide)

theorem isSpaced_content {sections : Markup} (h : isSpaced sections = true) :
    isSpaced (content sections) = true := by
  unfold content
  split
  · simp only [isSpaced, html, and_eq_true, and_true]
    (repeat' with_reducible apply isSeparator_append) <;>
      exact isSeparator_of_chars (by decide) (by decide)
  · exact h

theorem isSpaced_memberSetRow (festival : ExportFestival) (profile : ExportProfile)
    (member : CrewProfile) (set : ListedSet) :
    isSpaced (memberSetRow festival profile member set) = true := by
  unfold memberSetRow
  simp only
  refine isSpaced_append (isSpaced_append ?_ (isSpaced_stageMarkup _)) ?_
  · simp only [isSpaced, html, and_eq_true, and_true]
    refine ⟨isSeparator_of_chars (by decide) (by decide),
      isSeparator_of_chars (by decide) (by decide), ?_⟩
    split
    · rw [String.empty_append]
      exact isSeparator_of_chars (by decide) (by decide)
    · exact isSeparator_append (isSeparator_of_chars (by decide) (by decide))
        (isSeparator_of_chars (by decide) (by decide))
  · simp only [isSpaced, html, and_eq_true, and_true]
    refine ⟨isSeparator_append (isSeparator_append
        (isSeparator_of_chars (by decide) (by decide)) ?_)
      (isSeparator_of_chars (by decide) (by decide)),
      isSeparator_of_chars (by decide) (by decide)⟩
    split
    · exact isSeparator_of_chars (by decide) (by decide)
    · split <;> exact isSeparator_of_chars (by decide) (by decide)

theorem isSpaced_memberSection (host : ExportHost) (festival : ExportFestival)
    (profile : ExportProfile) (sets : List ListedSet) (member : CrewProfile) :
    isSpaced (memberSection host festival profile sets member) = true := by
  refine isSpaced_append (isSpaced_append ?_ (isSpaced_flatMap
    (isSpaced_memberSetRow festival profile member))) (by decide)
  simp only [isSpaced, html, isSeparator_countText, and_eq_true, true_and, and_true]
  and_intros <;> (repeat' with_reducible apply isSeparator_append) <;>
      exact isSeparator_of_chars (by decide) (by decide)

theorem isSpaced_crewMarkup (host : ExportHost) (festival : ExportFestival)
    (profile : ExportProfile) (allProfiles : List CrewProfile) (sets : List ListedSet) :
    isSpaced (crewMarkup host festival profile allProfiles sets) = true := by
  unfold crewMarkup
  simp only
  split
  · rfl
  · refine isSpaced_append (isSpaced_append ?_ (isSpaced_flatMap
      (isSpaced_memberSection host festival profile sets))) (by decide)
    simp only [isSpaced, html, isSeparator_countText, and_eq_true, true_and, and_true]
    and_intros <;> (repeat' with_reducible apply isSeparator_append) <;>
      exact isSeparator_of_chars (by decide) (by decide)

/-- Before a fixed text that separates, every markup is spaced. -/
theorem isSpaced_slotMarkup (x : ExportInput) (slot : Slot) {t : Text}
    (ht : isSeparator t = true) : isSpaced (slotMarkup x slot ++ [.fixed t]) = true := by
  have hend : isSpaced [.fixed t] = true := by
    simp only [isSpaced, ht, Bool.and_true]
  cases slot with
  | title => simp only [slotMarkup, List.singleton_append, isSpaced, ht, Bool.and_true]
  | subtitle => simp only [slotMarkup, List.singleton_append, isSpaced, ht, Bool.and_true]
  | overview => exact isSpaced_append (isSpaced_overviewMarkup _ _ _) hend
  | live =>
    exact isSpaced_append (isSpaced_liveMarkup (isSpaced_nextMoveMarkup _ _ _ _)
      (isSpaced_overlapMarkup _ _)) hend
  | reminders => exact isSpaced_append (isSpaced_remindersMarkup _ _) hend
  | sections =>
    exact isSpaced_append (isSpaced_append (isSpaced_content (isSpaced_flatMap
      (isSpaced_categorySection _ _ _ _ _ _))) (isSpaced_crewMarkup _ _ _ _ _)) hend
  | exportedAt => simp only [slotMarkup, List.singleton_append, isSpaced, ht, Bool.and_true]

end FestivalPlanner.Share
