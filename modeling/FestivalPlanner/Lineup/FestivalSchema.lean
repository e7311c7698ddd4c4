import FestivalPlanner.Lib.Digits
import FestivalPlanner.Lineup.FestivalRoute

/-!
# What a request for a festival has to look like

The schema of `lib/schemas.ts` that stands in front of `PUT /festivals/:id`.

* `Formats` — the formats whose check is not part of the program;
* `stageSchema`, `setSchema`, `daySchema` — the parts of a body;
* `festivalUpdateSchema` — is a body let through?
-/

namespace FestivalPlanner.Lineup

/-! ## Schemas -/

/-- Addresses, time zones and maps of a site. -/
structure Formats where
  isUrl : String → Bool
  isTimeZone : String → Bool
  isMapConfig : String → Bool

/-- `z.string().max(n)` -/
def atMost (n : ℕ) (text : String) : Bool := decide (Js.length text.toList ≤ n)

/-- `z.string().min(1).max(n)` -/
def nonemptyAtMost (n : ℕ) (text : String) : Bool := decide (text ≠ "") && atMost n text

/-- `ALLOWED_LINK_PLATFORMS` -/
def allowedLinkPlatforms : List String :=
  ["spotify", "soundcloud", "instagram", "twitter", "tiktok", "facebook", "website"]

/-- `MAX_ARTISTS_PER_SET` -/
def maxArtistsPerSet : ℕ := 4

/-- `/^#[0-9a-fA-F]{3,8}$/` -/
def isHexColor (value : String) : Bool :=
  match value.toList with
  | '#' :: digits =>
      decide (3 ≤ digits.length ∧ digits.length ≤ 8) && digits.all (fun c =>
        c.isDigit || ('a' ≤ c && c ≤ 'f') || ('A' ≤ c && c ≤ 'F'))
  | _ => false

/-- `/^\d{4}-\d{2}-\d{2}$/` -/
def isDate (value : String) : Bool :=
  match value.toList with
  | [a, b, c, d, '-', e, f, '-', g, h] => [a, b, c, d, e, f, g, h].all Char.isDigit
  | _ => false

/-- `/^\d{2}:\d{2}$/`, or the empty text -/
def isTimeText (value : String) : Bool := decide (value = "") || (hoursMinutes value).isSome

def stageSchema (stage : StageInput) : Bool :=
  stage.id.all (atMost 100) && nonemptyAtMost 100 stage.name && stage.color.all isHexColor &&
    stage.latitude.all (fun q => decide (-90 ≤ q ∧ q ≤ 90)) &&
    stage.longitude.all (fun q => decide (-180 ≤ q ∧ q ≤ 180))

def artistLinkSchema (fmt : Formats) (a : Artist) : Bool :=
  nonemptyAtMost 300 a.name && a.links.all (fun (platform, url) =>
    decide (platform ∈ allowedLinkPlatforms) && (decide (url = "") || fmt.isUrl url && atMost 500 url))

def setSchema (fmt : Formats) (x : SetInput) : Bool :=
  x.id.all (atMost 100) &&
    x.artists.all (fun artists => decide (1 ≤ artists.length ∧ artists.length ≤ maxArtistsPerSet) &&
      artists.all (artistLinkSchema fmt)) &&
    x.artist.all (atMost 300) && x.stageId.all (atMost 100) && x.startTime.all isTimeText &&
    x.endTime.all isTimeText && x.linkUrl.all (atMost 500) &&
    (x.artists.any (fun artists => decide (artists ≠ [])) || x.artist.any (fun a => decide (a ≠ "")))

def daySchema (fmt : Formats) (day : DayInput) : Bool :=
  day.label.all (atMost 100) && day.date.all isDate && day.sets.all (setSchema fmt)

/-- A body with the id that it may give. -/
structure FestivalBody extends FestivalInput where
  id : Option String := none

/-- What both schemas ask of the fields that are given. -/
def festivalFields (fmt : Formats) (body : FestivalBody) : Bool :=
  body.id.all (atMost 100) && body.name.all (nonemptyAtMost 200) && body.location.all (atMost 500) &&
    body.b2bSeparator.all (atMost 10) &&
    body.timeZone.all (fun tz => tz.all (fun tz => atMost 64 tz && fmt.isTimeZone tz)) &&
    body.stages.all (fun stages => decide (stages.length ≤ 20) && stages.all stageSchema) &&
    body.days.all (fun days => decide (days.length ≤ 10) && days.all (daySchema fmt)) &&
    body.mapConfig.all (fun map => map.all fmt.isMapConfig)

/-- All fields may be left out, but not all of them at once. -/
def festivalUpdateSchema (fmt : Formats) (body : FestivalBody) : Bool :=
  festivalFields fmt body && (body.id.isSome || body.name.isSome || body.location.isSome ||
    body.b2bSeparator.isSome || body.timeZone.isSome || body.stages.isSome || body.days.isSome ||
    body.mapConfig.isSome)

end FestivalPlanner.Lineup
