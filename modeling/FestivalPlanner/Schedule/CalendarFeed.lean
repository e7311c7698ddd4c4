import FestivalPlanner.Schedule.CalendarExport

/-!
# The calendar feed

A subscribed calendar fetches the picks of a user again and again.  Between two fetches the
festival, the picks and the notes may change; a calendar program finds an event again by its `UID`
and takes the version with the larger `SEQUENCE`, which the feed derives from the clock.

* `calendarFeed` — the events of one fetch, with their sequence number;
* `Denotes` — an event of a fetch and the set that it is about;
* `MovesForward` — one `UID` a set, and sequence numbers that grow with the changes;
* `sequence_restarts` — a fetch that comes soon after the counter has started again goes back;
* `feed_movesForward` — the feed moves forward within a period of the counter, and not beyond it.
-/

namespace FestivalPlanner.Schedule

/-! ## The feed -/

/-- What a fetch finds in the store for a token: the festival of the token, and the profile. -/
structure Fetch (festivalId : String) where
  now : ℕ
  festival : FestivalDocument
  festival_id : festival.id = festivalId
  picks : String → Option Priority
  notes : String → String

structure FeedEvent extends IcsEvent where
  sequence : ℕ

/-- `Math.floor(Date.now() / 60000) % 10000` -/
def feedSequence (now : ℕ) : ℕ := now / 60000 % 10000

section
variable {festivalId : String} (origin : String) (f : Fetch festivalId)

def calendarFeed : List FeedEvent :=
  (buildIcsEventsFromPicks f.festival f.picks f.notes origin).map fun e =>
    ⟨e, feedSequence f.now⟩

/-- The sets that a fetch shows. -/
def exportedSets : List FestivalSet :=
  (f.festival.days.flatMap fun day =>
    (day.sets.filter fun s => (f.picks s.id).isSome).map fun s =>
      { s with date := day.date }).filter (isExported f.picks)

def feedEvent (s : FestivalSet) : FeedEvent :=
  ⟨serverEvent f.festival f.picks f.notes origin s, feedSequence f.now⟩

/-- The event of the fetch is about the set. -/
def Denotes (setId : String) (e : FeedEvent) : Prop :=
  ∃ s ∈ exportedSets f, s.id = setId ∧ e = feedEvent origin f s

theorem calendarFeed_eq : calendarFeed origin f = (exportedSets f).map (feedEvent origin f) := by
  rw [calendarFeed, buildIcsEventsFromPicks, List.map_map]
  rfl

/-- Every event of a feed is about a set, and nothing else is in it. -/
theorem mem_calendarFeed {e : FeedEvent} :
    e ∈ calendarFeed origin f ↔ ∃ setId, Denotes origin f setId e := by
  rw [calendarFeed_eq, List.mem_map]
  constructor
  · rintro ⟨s, hs, rfl⟩
    exact ⟨s.id, s, hs, rfl, rfl⟩
  · rintro ⟨setId, s, hs, -, rfl⟩
    exact ⟨s, hs, rfl⟩

end

/-! ## A feed that moves forward -/

/-- A set keeps its `UID`, no other set has it, and a later fetch never has a smaller sequence
number, but a larger one when the event has changed and a minute has passed. -/
structure MovesForward {festivalId : String} (origin : String)
    (fetches : List (Fetch festivalId)) : Prop where
  uid : ∀ f ∈ fetches, ∀ g ∈ fetches, ∀ x y d e, Denotes origin f x d → Denotes origin g y e →
    (d.uid = e.uid ↔ x = y)
  sequence : fetches.Pairwise fun f g => ∀ x d e, Denotes origin f x d → Denotes origin g x e →
    d.sequence ≤ e.sequence ∧
      (d.toIcsEvent ≠ e.toIcsEvent → f.now + 60000 ≤ g.now → d.sequence < e.sequence)

/-- The 10000 minutes in which the counter does not start again. -/
@[grind =] def period (now : ℕ) : ℕ := now / 60000 / 10000

variable {festivalId : String} {origin : String} {f g : Fetch festivalId} {x y : String}
  {d e : FeedEvent}

theorem uid_of_denotes (h : Denotes origin f x e) :
    e.uid = x ++ ("-" ++ festivalId ++ "@" ++ origin) := by
  obtain ⟨s, -, rfl, rfl⟩ := h
  simp only [feedEvent, serverEvent, f.festival_id, String.append_assoc]

theorem sequence_of_denotes (h : Denotes origin f x e) : e.sequence = feedSequence f.now := by
  obtain ⟨s, -, -, rfl⟩ := h
  rfl

theorem uid_inj (hd : Denotes origin f x d) (he : Denotes origin g y e) :
    d.uid = e.uid ↔ x = y := by
  rw [uid_of_denotes hd, uid_of_denotes he, String.append_left_inj]

/-- Within a period the counter follows the clock. -/
theorem feedSequence_mono {m n : ℕ} (hle : m ≤ n) (hperiod : period m = period n) :
    feedSequence m ≤ feedSequence n ∧ (m + 60000 ≤ n → feedSequence m < feedSequence n) := by
  simp only [feedSequence, period] at hperiod ⊢
  constructor
  · omega
  · intro hminute
    omega

/-- A fetch in the next period, less than 10000 minutes later, has a smaller number. -/
theorem sequence_restarts {m n : ℕ} (hperiod : period m < period n)
    (hsoon : n / 60000 < m / 60000 + 10000) : feedSequence n < feedSequence m := by
  simp only [feedSequence, period] at hperiod ⊢
  omega

/-- In one period a feed moves forward. -/
theorem movesForward_of_period {fetches : List (Fetch festivalId)}
    (hsorted : fetches.Pairwise fun f g => f.now < g.now)
    (hperiod : ∀ f ∈ fetches, ∀ g ∈ fetches, period f.now = period g.now) :
    MovesForward origin fetches where
  uid f _ g _ x y d e hd he := uid_inj hd he
  sequence := by
    refine hsorted.imp_of_mem fun {f g} hf hg hlt x d e hd he => ?_
    obtain ⟨hle, hminute⟩ := feedSequence_mono hlt.le (hperiod f hf g hg)
    rw [sequence_of_denotes hd, sequence_of_denotes he]
    exact ⟨hle, fun _ => hminute⟩

/-- Only in one period, as far as fetches less than 10000 minutes apart show a common set. -/
theorem period_of_movesForward {fetches : List (Fetch festivalId)}
    (hsorted : fetches.Pairwise fun f g => f.now < g.now) (h : MovesForward origin fetches) :
    fetches.Pairwise fun f g => (∃ x d e, Denotes origin f x d ∧ Denotes origin g x e) →
      g.now / 60000 < f.now / 60000 + 10000 → period f.now = period g.now := by
  refine (hsorted.and h.sequence).imp fun {f g} hboth hcommon hsoon => ?_
  obtain ⟨hlt, hsequence⟩ := hboth
  obtain ⟨x, d, e, hd, he⟩ := hcommon
  have hle := (hsequence x d e hd he).1
  rw [sequence_of_denotes hd, sequence_of_denotes he] at hle
  have hmono : period f.now ≤ period g.now :=
    Nat.div_le_div_right (Nat.div_le_div_right hlt.le)
  rcases hmono.eq_or_lt with heq | hperiod
  · exact heq
  · exact absurd hle (Nat.not_le_of_lt (sequence_restarts hperiod hsoon))

/-- A feed whose fetches come in time order moves forward when they fall into one period, and fetches
that come soon after another and show a set of it again must. -/
theorem feed_movesForward (origin : String) {fetches : List (Fetch festivalId)}
    (hsorted : fetches.Pairwise fun f g => f.now < g.now) :
    ((∀ f ∈ fetches, ∀ g ∈ fetches, period f.now = period g.now) → MovesForward origin fetches) ∧
      (MovesForward origin fetches →
        fetches.Pairwise fun f g => (∃ x d e, Denotes origin f x d ∧ Denotes origin g x e) →
          g.now / 60000 < f.now / 60000 + 10000 → period f.now = period g.now) :=
  ⟨movesForward_of_period hsorted, period_of_movesForward hsorted⟩

/-! ## Two fetches -/

def sampleSet (artist : String) : FestivalSet where
  id := "s"
  date := "2026-07-01"
  startTime := "20:00"
  endTime := "21:00"
  artist := artist

def sampleFetch (now : ℕ) (artist : String) : Fetch "f" where
  now := now
  festival := ⟨"f", "", [], [⟨"2026-07-01", "", [sampleSet artist]⟩]⟩
  festival_id := rfl
  picks := fun _ => some .must
  notes := fun _ => ""

theorem movesForward_renamed :
    MovesForward "o" [sampleFetch 60000 "a", sampleFetch 180000 "b"] :=
  (feed_movesForward "o" (by simp [sampleFetch])).1 (by simp [sampleFetch, period])

/-- After 9999 the counter starts again at 0. -/
theorem feed_goes_back :
    ¬ ∀ fetches : List (Fetch "f"), (fetches.Pairwise fun f g => f.now < g.now) →
      MovesForward "o" fetches := by
  intro h
  have hforward := h [sampleFetch (9999 * 60000) "a", sampleFetch (10000 * 60000) "a"]
    (by simp [sampleFetch])
  have hdenotes : ∀ now, Denotes "o" (sampleFetch now "a") "s"
      (feedEvent "o" (sampleFetch now "a") (sampleSet "a")) := by
    intro now
    have hexported : exportedSets (sampleFetch now "a") = [sampleSet "a"] := rfl
    refine ⟨sampleSet "a", ?_, rfl, rfl⟩
    rw [hexported]
    exact List.mem_singleton_self _
  have hle := (List.rel_of_pairwise_cons hforward.sequence (List.mem_singleton_self _) "s" _ _
    (hdenotes _) (hdenotes _)).1
  exact absurd hle (by decide)

end FestivalPlanner.Schedule
