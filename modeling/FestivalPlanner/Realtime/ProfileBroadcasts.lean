import FestivalPlanner.Lib.Composite
import FestivalPlanner.Lib.History
import FestivalPlanner.Lib.Keyed
import FestivalPlanner.Lib.Machine

/-!
# Coalesced profile broadcasts

`createSocketEmitter` keeps the latest payload of a profile in one map and the timer that will
broadcast it in another.  A later update replaces the payload and restarts the timer; an eviction, a
deletion and the flush at shutdown end both early.

* `Emitter` — the two maps, the timers of the event loop and the history of calls and broadcasts;
* `InStep` — every payload has its timer, and the timers of the map are those that will fire;
* `Emitter.flushed` — what a timer, an eviction and the shutdown flush do to a profile;
* `Kept` — every update is broadcast or a timer will broadcast it, and nothing follows a deletion;
* `broadcasts_kept` — so it stays while no update comes after the shutdown or after the deletion.
-/

namespace FestivalPlanner.ProfileBroadcasts

open List Keyed

/-! ## Profiles and payloads -/

/-- An id of `createOpaqueId('prof')`, which holds no colon. -/
abbrev ProfileId := { id : String // ':' ∉ id.toList }

/-- A profile is found by its festival and its id. -/
abbrev ProfileRef := String × ProfileId

def profileKey (ref : ProfileRef) : String := ref.1 ++ ":" ++ ref.2.1

/-- Different profiles have different keys: the last colon parts the festival from the id. -/
theorem profileKey_inj {a b : ProfileRef} : profileKey a = profileKey b ↔ a = b := by
  refine ⟨fun h => ?_, fun h => by rw [h]⟩
  obtain ⟨hfestival, hid⟩ := Composite.join_inj_right a.2.2 b.2.2 h
  exact Prod.ext hfestival (Subtype.ext hid)

structure Profile (P : Type*) where
  id : ProfileId
  festivalId : String
  name : String
  picks : Option P
  updatedAt : Option String

structure Payload (P : Type*) where
  festivalId : String
  profileId : ProfileId
  name : String
  avatarUrl : Option String
  picks : P
  updatedAt : String
  batchedAt : ℤ

/-- The message `profile:updated`. -/
structure Updated (P : Type*) where
  version : ℕ
  festivalId : String
  profileId : ProfileId
  name : String
  avatarUrl : Option String
  picks : P
  updatedAt : String

/-- What `new Date()` gives: the time in milliseconds and its text. -/
structure Clock where
  now : ℤ
  isoString : String

def eventVersion : ℕ := 1

def maxBatchEntries : ℕ := 1000

section
variable {P : Type*}

def Payload.ref (p : Payload P) : ProfileRef := (p.festivalId, p.profileId)

def Updated.ref (m : Updated P) : ProfileRef := (m.festivalId, m.profileId)

def Payload.message (p : Payload P) : Updated P where
  version := eventVersion
  festivalId := p.festivalId
  profileId := p.profileId
  name := p.name
  avatarUrl := p.avatarUrl
  picks := p.picks
  updatedAt := p.updatedAt

def Profile.payload [EmptyCollection P] (profile : Profile P) (avatarUrl : Option String)
    (clock : Clock) : Payload P where
  festivalId := profile.festivalId
  profileId := profile.id
  name := profile.name
  avatarUrl := avatarUrl
  picks := profile.picks.getD ∅
  updatedAt := profile.updatedAt.getD clock.isoString
  batchedAt := clock.now

@[simp] theorem Payload.ref_message (p : Payload P) : p.message.ref = p.ref := rfl

end

/-! ## The emitter -/

/-- What happens, in order: an update is stored, and the two broadcasts, each with its room. -/
inductive Event (P : Type*)
  | called (p : Payload P)
  | updated (room : String) (message : Updated P)
  | deleted (room : String) (ref : ProfileRef)

structure Emitter (P : Type*) where
  /-- `_profileBatchTimers`, in insertion order: the timer of a key. -/
  timers : List (String × ℕ)
  /-- `_profileBatchPayloads`, in insertion order. -/
  payloads : List (String × Payload P)
  shuttingDown : Bool
  /-- The timers of the event loop that have neither fired nor been cleared, with their keys. -/
  armed : List (ℕ × String)
  nextTimer : ℕ
  log : List (Event P)

def Emitter.initial (P : Type*) : Emitter P where
  timers := []
  payloads := []
  shuttingDown := false
  armed := []
  nextTimer := 0
  log := []

inductive Action (P : Type*)
  | profileUpdated (profile : Profile P) (avatarUrl : Option String) (clock : Clock)
  | profileDeleted (ref : ProfileRef)
  | fires (timer : ℕ)
  | flushAll

namespace Emitter
variable {P : Type*}

def clearTimeout (timer : ℕ) (s : Emitter P) : Emitter P :=
  { s with armed := erase Prod.fst timer s.armed }

/-- The timer of the key, as `_profileBatchTimers.get` gives it. -/
def timerOf (key : String) (s : Emitter P) : Option ℕ :=
  (lookup Prod.fst key s.timers).map Prod.snd

def flushProfileBatch (key : String) (s : Emitter P) : Emitter P :=
  let t := { s with
    timers := erase Prod.fst key s.timers
    payloads := erase Prod.fst key s.payloads }
  match lookup Prod.fst key s.payloads with
  | none => t
  | some (_, p) => { t with log := s.log ++ [.updated p.festivalId p.message] }

/-- At capacity the oldest entry is broadcast. -/
def evictOldest (s : Emitter P) : Emitter P :=
  if maxBatchEntries ≤ s.payloads.length then
    match s.payloads.head? with
    | none => s
    | some (oldest, _) =>
        match s.timerOf oldest with
        | none => s.flushProfileBatch oldest
        | some timer =>
            { s.clearTimeout timer with timers := erase Prod.fst oldest s.timers }
              |>.flushProfileBatch oldest
  else s

/-- Merge into the batch payload. -/
def store (p : Payload P) (s : Emitter P) : Emitter P :=
  { s with
    payloads := upsert Prod.fst (profileKey p.ref, p) s.payloads
    log := s.log ++ [.called p] }

def disarm (key : String) (s : Emitter P) : Emitter P :=
  match s.timerOf key with
  | none => s
  | some timer => s.clearTimeout timer

/-- Reset the debounce timer, but start no new one during the shutdown. -/
def resetTimer (key : String) (s : Emitter P) : Emitter P :=
  let t := s.disarm key
  if t.shuttingDown then t
  else { t with
    timers := upsert Prod.fst (key, t.nextTimer) t.timers
    armed := t.armed ++ [(t.nextTimer, key)]
    nextTimer := t.nextTimer + 1 }

def profileUpdated (p : Payload P) (s : Emitter P) : Emitter P :=
  (s.evictOldest.store p).resetTimer (profileKey p.ref)

def profileDeleted (ref : ProfileRef) (s : Emitter P) : Emitter P :=
  let t := match s.timerOf (profileKey ref) with
    | none => s
    | some timer =>
        { s.clearTimeout timer with
          timers := erase Prod.fst (profileKey ref) s.timers
          payloads := erase Prod.fst (profileKey ref) s.payloads }
  { t with log := t.log ++ [.deleted ref.1 ref] }

/-- The loop of `flushAll` over the entries of the timer map. -/
def flushEach (entries : List (String × ℕ)) (s : Emitter P) : Emitter P :=
  entries.foldl (fun t e => (t.clearTimeout e.2).flushProfileBatch e.1) s

def flushAll (s : Emitter P) : Emitter P :=
  { flushEach s.timers { s with shuttingDown := true } with
    timers := []
    payloads := [] }

def step [EmptyCollection P] (s : Emitter P) : Action P → Option (Emitter P)
  | .profileUpdated profile avatarUrl clock =>
      some (s.profileUpdated (profile.payload avatarUrl clock))
  | .profileDeleted ref => some (s.profileDeleted ref)
  | .fires timer =>
      match lookup Prod.fst timer s.armed with
      | none => none
      | some (_, key) => some ((s.clearTimeout timer).flushProfileBatch key)
  | .flushAll => some s.flushAll

end Emitter

/-! ## No update is lost -/

section
variable {P : Type*}

/-- The profiles whose deletion has been broadcast. -/
def deletedIn (log : List (Event P)) : List ProfileRef :=
  log.filterMap fun
    | .deleted _ ref => some ref
    | _ => none

/-- Among the events after an update of `p`, its profile is broadcast with its own or a later
update's picks, or deleted. -/
def Answered (p : Payload P) (after : List (Event P)) : Prop :=
  (∃ before q later, after = before ++ .updated q.festivalId q.message :: later ∧
      q.ref = p.ref ∧ (q = p ∨ .called q ∈ before)) ∨
    p.ref ∈ deletedIn after

/-- What `profile:updated` tells is not of a profile that has been deleted. -/
def NotAfterDeletion (past : List (Event P)) (e : Event P) : Prop :=
  ∀ room m, e = .updated room m → m.ref ∉ deletedIn past

/-- The broadcasts so far, and those that the timers will make, answer every update and nothing
else. -/
structure Kept [EmptyCollection P] (s : Emitter P) : Prop where
  answered : History.Onward (fun e after => ∀ p, e = .called p → Answered p after ∨
    ∃ timer t new, s.step (.fires timer) = some t ∧ t.log = s.log ++ new ∧
      Answered p (after ++ new)) s.log
  notAfterDeletion : History.Along NotAfterDeletion s.log
  single : UniqueKeys (fun e => e.2.ref) s.payloads

/-- An update comes before the shutdown, and before the deletion of its profile. -/
def InTime (s : Emitter P) : Action P → Prop
  | .profileUpdated profile _ _ =>
      s.shuttingDown = false ∧ (profile.festivalId, profile.id) ∉ deletedIn s.log
  | _ => True

instance (s : Emitter P) : ∀ a, Decidable (InTime s a) := fun a => by
  unfold InTime
  split <;> infer_instance

/-! ## The maps stay in step -/

/-- The timers of the map are those of the event loop. -/
structure Armed (s : Emitter P) : Prop where
  timers : UniqueKeys Prod.fst s.timers
  armed : UniqueKeys Prod.fst s.armed
  fresh : ∀ e ∈ s.armed, e.1 < s.nextTimer
  agree : ∀ key timer, (timer, key) ∈ s.armed ↔ (key, timer) ∈ s.timers

/-- Every payload is kept under the key of its profile, and has a timer. -/
structure InStep (s : Emitter P) : Prop extends Armed s where
  payloads : UniqueKeys Prod.fst s.payloads
  keyed : ∀ e ∈ s.payloads, e.1 = profileKey e.2.ref
  timed : ∀ e ∈ s.payloads, ∃ timer, (e.1, timer) ∈ s.timers

variable {s : Emitter P} {key : String} {timer : ℕ} {p : Payload P}

theorem timerOf_eq_some (h : Armed s) :
    s.timerOf key = some timer ↔ (key, timer) ∈ s.timers :=
  h.timers.map_snd_lookup

/-- To clear the timer of a key takes what is armed for the key away. -/
theorem Armed.clearTimeout_eq (h : Armed s) (hmem : (key, timer) ∈ s.timers) :
    s.clearTimeout timer = { s with armed := s.armed.filter fun e => e.2 ≠ key } := by
  rw [Emitter.clearTimeout, erase]
  congr 1
  refine filter_congr fun e he => ?_
  obtain ⟨i, k⟩ := e
  have hiff : i = timer ↔ k = key := by
    constructor
    · rintro rfl
      exact congrArg Prod.snd (h.armed.eq_of_mem he ((h.agree key i).mpr hmem) rfl)
    · rintro rfl
      exact congrArg Prod.snd (h.timers.eq_of_mem ((h.agree k i).mp he) hmem rfl)
  simp [hiff]

theorem Armed.disarm_eq (h : Armed s) (key : String) :
    s.disarm key = { s with armed := s.armed.filter fun e => e.2 ≠ key } := by
  rw [Emitter.disarm]
  cases htimer : s.timerOf key with
  | some timer => exact h.clearTimeout_eq ((timerOf_eq_some h).mp htimer)
  | none =>
    have hnone : s.armed.filter (fun e => e.2 ≠ key) = s.armed := by
      rw [filter_eq_self]
      intro e he
      have hne : e.2 ≠ key := by
        rintro rfl
        have hsome := (timerOf_eq_some h).mpr ((h.agree e.2 e.1).mp he)
        rw [htimer] at hsome
        cases hsome
      simpa using hne
    rw [hnone]

namespace Emitter

/-- Nothing of the key is left. -/
def without (key : String) (s : Emitter P) : Emitter P :=
  { s with
    timers := erase Prod.fst key s.timers
    payloads := erase Prod.fst key s.payloads
    armed := s.armed.filter fun e => e.2 ≠ key }

/-- What the payload of the key is broadcast as, if there is one. -/
@[grind =] def broadcast (key : String) (s : Emitter P) : List (Event P) :=
  match lookup Prod.fst key s.payloads with
  | none => []
  | some (_, p) => [.updated p.festivalId p.message]

/-- The payload of the key is broadcast, and nothing of the key is left. -/
@[grind =] def flushed (key : String) (s : Emitter P) : Emitter P :=
  { s.without key with log := s.log ++ s.broadcast key }

theorem flushProfileBatch_eq (key : String) (s : Emitter P) :
    s.flushProfileBatch key = { s with
      timers := erase Prod.fst key s.timers
      payloads := erase Prod.fst key s.payloads
      log := s.log ++ s.broadcast key } := by
  unfold flushProfileBatch broadcast
  cases lookup Prod.fst key s.payloads <;> simp

end Emitter

theorem Armed.flush_eq (h : Armed s) (hmem : (key, timer) ∈ s.timers) :
    (s.clearTimeout timer).flushProfileBatch key = s.flushed key := by
  rw [h.clearTimeout_eq hmem, Emitter.flushProfileBatch_eq]
  rfl

theorem InStep.without (h : InStep s) (key : String) : InStep (s.without key) where
  timers := h.timers.erase key
  payloads := h.payloads.erase key
  armed := h.armed.filter _
  fresh e he := h.fresh e (mem_of_mem_filter he)
  agree k i := by
    simp [Emitter.without, mem_erase, h.agree]
  keyed e he := h.keyed e (mem_erase.mp he).1
  timed e he := by
    obtain ⟨hmem, hne⟩ := mem_erase.mp he
    obtain ⟨i, hi⟩ := h.timed e hmem
    exact ⟨i, mem_erase.mpr ⟨hi, hne⟩⟩

/-- The maps do not depend on what has been told. -/
theorem InStep.withLog (h : InStep s) (log : List (Event P)) : InStep { s with log := log } :=
  ⟨⟨h.timers, h.armed, h.fresh, h.agree⟩, h.payloads, h.keyed, h.timed⟩

/-- An eviction is the flush of an entry. -/
theorem InStep.evictOldest_cases (h : InStep s) :
    s.evictOldest = s ∨ ∃ key, s.evictOldest = s.flushed key := by
  unfold Emitter.evictOldest
  split_ifs with hfull
  · cases hhead : s.payloads.head? with
    | none => exact .inl rfl
    | some e =>
      obtain ⟨oldest, p⟩ := e
      obtain ⟨i, hi⟩ := h.timed _ (mem_of_head? hhead)
      refine .inr ⟨oldest, ?_⟩
      simp only [(timerOf_eq_some h.toArmed).mpr hi]
      rw [h.clearTimeout_eq hi, Emitter.flushProfileBatch_eq]
      simp [Emitter.flushed, Emitter.without, Emitter.broadcast, erase, filter_filter]
  · exact .inl rfl

/-! ## What every step keeps -/

@[simp] theorem deletedIn_append (log more : List (Event P)) :
    deletedIn (log ++ more) = deletedIn log ++ deletedIn more :=
  filterMap_append

@[simp] theorem deletedIn_called (p : Payload P) : deletedIn [.called p] = [] := rfl

@[simp] theorem deletedIn_updated (room : String) (m : Updated P) :
    deletedIn [.updated room m] = [] := rfl

@[simp] theorem deletedIn_deleted (room : String) (ref : ProfileRef) :
    deletedIn [(.deleted room ref : Event P)] = [ref] := rfl

/-- The pending payload of the profile is that of the update or of a later one. -/
def Due (payloads : List (String × Payload P)) (p : Payload P) (after : List (Event P)) : Prop :=
  ∃ q, (profileKey p.ref, q) ∈ payloads ∧ q.ref = p.ref ∧ (q = p ∨ .called q ∈ after)

/-- Every update has been answered or its payload is pending, and what is pending has not been
deleted. -/
structure Sound (s : Emitter P) : Prop extends InStep s where
  promised : History.Onward (fun e after => ∀ p, e = .called p →
    Answered p after ∨ Due s.payloads p after) s.log
  live : ∀ e ∈ s.payloads, e.2.ref ∉ deletedIn s.log
  notAfterDeletion : History.Along NotAfterDeletion s.log

theorem Answered.append {after : List (Event P)} (h : Answered p after) (more : List (Event P)) :
    Answered p (after ++ more) := by
  rcases h with ⟨before, q, later, rfl, href, hq⟩ | hdeleted
  · exact .inl ⟨before, q, later ++ more, by simp, href, hq⟩
  · exact .inr (by simp [hdeleted])

theorem Sound.initial : Sound (Emitter.initial P) where
  timers := nodup_nil
  payloads := nodup_nil
  armed := nodup_nil
  fresh e he := by cases he
  agree key timer := by simp [Emitter.initial]
  keyed e he := by cases he
  timed e he := by cases he
  promised := History.onward_nil
  live e he := by cases he
  notAfterDeletion := History.along_nil

/-- A broadcast answers all the updates that wait for it. -/
theorem Sound.flushed (h : Sound s) (key : String) : Sound (s.flushed key) := by
  have hstep := h.toInStep.without key
  cases hlookup : lookup Prod.fst key s.payloads with
  | none =>
    have hsame : erase Prod.fst key s.payloads = s.payloads := by
      rw [erase, filter_eq_self]
      intro e he
      simpa using lookup_eq_none.mp hlookup e he
    have hlog : (s.flushed key).log = s.log := by
      simp [Emitter.flushed, Emitter.broadcast, hlookup]
    have hpayloads : (s.flushed key).payloads = s.payloads := hsame
    refine ⟨hstep.withLog _, ?_, ?_, ?_⟩
    · rw [hlog, hpayloads]
      exact h.promised
    · rw [hlog, hpayloads]
      exact h.live
    · rw [hlog]
      exact h.notAfterDeletion
  | some e =>
    obtain ⟨k, q⟩ := e
    obtain ⟨hmem, rfl⟩ := mem_of_lookup hlookup
    have hlog : (s.flushed k).log = s.log ++ [.updated q.festivalId q.message] := by
      simp [Emitter.flushed, Emitter.broadcast, hlookup]
    refine ⟨hstep.withLog _, ?_, ?_, ?_⟩
    · rw [hlog, History.onward_concat]
      refine ⟨h.promised.mono fun x after hx p hp => ?_, fun p hp => by cases hp⟩
      rcases hx p hp with hanswered | ⟨r, hr, href, hlater⟩
      · exact .inl (hanswered.append _)
      · by_cases hk : profileKey p.ref = k
        · -- the payload of the profile is the one that is broadcast
          obtain rfl := congrArg Prod.snd (h.payloads.eq_of_mem hr hmem hk)
          exact .inl (.inl ⟨after, r, [], rfl, href, hlater⟩)
        · refine .inr ⟨r, mem_erase.mpr ⟨hr, hk⟩, href, hlater.imp_right ?_⟩
          exact fun hcalled => mem_append_left _ hcalled
    · intro e he
      rw [hlog, deletedIn_append, deletedIn_updated, append_nil]
      exact h.live e (mem_erase.mp he).1
    · rw [hlog, History.along_concat]
      refine ⟨h.notAfterDeletion, fun room m hm => ?_⟩
      obtain ⟨-, rfl⟩ := Event.updated.inj hm
      exact h.live _ hmem

theorem Sound.evictOldest (h : Sound s) : Sound s.evictOldest := by
  rcases h.toInStep.evictOldest_cases with heq | ⟨key, heq⟩
  · rw [heq]
    exact h
  · rw [heq]
    exact h.flushed key

theorem evictOldest_shuttingDown (h : InStep s) :
    s.evictOldest.shuttingDown = s.shuttingDown := by
  rcases h.evictOldest_cases with heq | ⟨key, heq⟩ <;> rw [heq]
  rfl

theorem deletedIn_broadcast (key : String) (s : Emitter P) : deletedIn (s.broadcast key) = [] := by
  unfold Emitter.broadcast
  cases lookup Prod.fst key s.payloads <;> rfl

theorem evictOldest_deletedIn (h : InStep s) :
    deletedIn s.evictOldest.log = deletedIn s.log := by
  rcases h.evictOldest_cases with heq | ⟨key, heq⟩ <;> rw [heq]
  simp [Emitter.flushed, deletedIn_broadcast]

/-- An update that comes in time gets a payload and a timer of its own. -/
theorem Sound.stored (h : Sound s) (hup : s.shuttingDown = false)
    (hlive : p.ref ∉ deletedIn s.log) : Sound ((s.store p).resetTimer (profileKey p.ref)) := by
  have harmed : Armed (s.store p) := ⟨h.timers, h.armed, h.fresh, h.agree⟩
  have hwithout := h.toInStep.without (profileKey p.ref)
  have heq : (s.store p).resetTimer (profileKey p.ref) = { s with
      timers := upsert Prod.fst (profileKey p.ref, s.nextTimer) s.timers
      payloads := upsert Prod.fst (profileKey p.ref, p) s.payloads
      armed := s.armed.filter (fun e => e.2 ≠ profileKey p.ref) ++ [(s.nextTimer, profileKey p.ref)]
      nextTimer := s.nextTimer + 1
      log := s.log ++ [.called p] } := by
    rw [Emitter.resetTimer, harmed.disarm_eq]
    simp [Emitter.store, hup]
  rw [heq]
  refine ⟨⟨⟨h.timers.upsert _, ?_, ?_, ?_⟩, h.payloads.upsert _, ?_, ?_⟩, ?_, ?_, ?_⟩
  · refine hwithout.armed.append_singleton fun e he => ?_
    exact (h.fresh e (mem_of_mem_filter he)).ne
  · intro e he
    rcases mem_append.mp he with he | he
    · exact (h.fresh e (mem_of_mem_filter he)).trans (Nat.lt_succ_self _)
    · obtain rfl := mem_singleton.mp he
      exact Nat.lt_succ_self _
  · intro k i
    rw [h.timers.mem_upsert_iff, mem_append, mem_filter, mem_singleton, h.agree]
    simp [and_comm, or_comm]
  · intro e he
    rcases (h.payloads.mem_upsert_iff).mp he with rfl | ⟨he, -⟩
    · rfl
    · exact h.keyed e he
  · intro e he
    rcases (h.payloads.mem_upsert_iff).mp he with rfl | ⟨he, hne⟩
    · exact ⟨s.nextTimer, mem_upsert_self _ _⟩
    · obtain ⟨i, hi⟩ := h.timed e he
      exact ⟨i, mem_upsert_of_ne hi hne⟩
  · rw [History.onward_concat]
    constructor
    · refine h.promised.mono fun x after hx q hq => ?_
      rcases hx q hq with hanswered | ⟨r, hr, href, hlater⟩
      · exact .inl (hanswered.append _)
      · by_cases hk : q.ref = p.ref
        · refine .inr ⟨p, ?_, hk.symm, .inr (by simp)⟩
          rw [hk]
          exact mem_upsert_self _ _
        · refine .inr ⟨r, mem_upsert_of_ne hr ?_, href, hlater.imp_right ?_⟩
          · exact fun hkey => hk (profileKey_inj.mp hkey)
          · exact fun hcalled => mem_append_left _ hcalled
    · intro q hq
      obtain rfl := Event.called.inj hq
      exact .inr ⟨p, mem_upsert_self _ _, rfl, .inl rfl⟩
  · intro e he
    rw [deletedIn_append, deletedIn_called, append_nil]
    rcases (h.payloads.mem_upsert_iff).mp he with rfl | ⟨he, -⟩
    · exact hlive
    · exact h.live e he
  · rw [History.along_concat]
    exact ⟨h.notAfterDeletion, fun room m hm => by cases hm⟩

theorem profileDeleted_eq (h : InStep s) (ref : ProfileRef) :
    s.profileDeleted ref =
      { s.without (profileKey ref) with log := s.log ++ [.deleted ref.1 ref] } := by
  unfold Emitter.profileDeleted
  cases htimer : s.timerOf (profileKey ref) with
  | some timer =>
    simp only [h.clearTimeout_eq ((timerOf_eq_some h.toArmed).mp htimer)]
    rfl
  | none =>
    have hnone : ∀ timer, (profileKey ref, timer) ∉ s.timers := by
      intro timer hmem
      rw [(timerOf_eq_some h.toArmed).mpr hmem] at htimer
      cases htimer
    have htimers : erase Prod.fst (profileKey ref) s.timers = s.timers := by
      rw [erase, filter_eq_self]
      intro e he
      have hne : e.1 ≠ profileKey ref := fun hk => hnone e.2 (hk ▸ he)
      simpa using hne
    have hpayloads : erase Prod.fst (profileKey ref) s.payloads = s.payloads := by
      rw [erase, filter_eq_self]
      intro e he
      obtain ⟨i, hi⟩ := h.timed e he
      have hne : e.1 ≠ profileKey ref := fun hk => hnone i (hk ▸ hi)
      simpa using hne
    have harmed : s.armed.filter (fun e => e.2 ≠ profileKey ref) = s.armed := by
      rw [filter_eq_self]
      intro e he
      have hne : e.2 ≠ profileKey ref := fun hk => hnone e.1 (hk ▸ (h.agree e.2 e.1).mp he)
      simpa using hne
    simp only [Emitter.without, htimers, hpayloads, harmed]

theorem Sound.profileDeleted (h : Sound s) (ref : ProfileRef) : Sound (s.profileDeleted ref) := by
  have hstep := h.toInStep.without (profileKey ref)
  rw [profileDeleted_eq h.toInStep]
  refine ⟨hstep.withLog _, ?_, ?_, ?_⟩
  · rw [History.onward_concat]
    refine ⟨h.promised.mono fun x after hx p hp => ?_, fun p hp => by cases hp⟩
    rcases hx p hp with hanswered | ⟨q, hq, href, hlater⟩
    · exact .inl (hanswered.append _)
    · by_cases hk : p.ref = ref
      · exact .inl (.inr (by simp [hk]))
      · refine .inr ⟨q, mem_erase.mpr ⟨hq, ?_⟩, href, hlater.imp_right ?_⟩
        · exact fun hkey => hk (profileKey_inj.mp hkey)
        · exact fun hcalled => mem_append_left _ hcalled
  · intro e he
    obtain ⟨hmem, hne⟩ := mem_erase.mp he
    rw [h.keyed e hmem] at hne
    simpa [h.live e hmem] using fun hk : e.2.ref = ref => hne (by rw [hk])
  · rw [History.along_concat]
    exact ⟨h.notAfterDeletion, fun room m hm => by cases hm⟩

/-- The loop of the shutdown flush broadcasts the entries that it visits, one after the other. -/
theorem Sound.flushEach {entries : List (String × ℕ)} (h : Sound s)
    (hunique : UniqueKeys Prod.fst entries) (hmem : ∀ e ∈ entries, e ∈ s.timers) :
    Sound (Emitter.flushEach entries s) ∧
      ∀ e ∈ (Emitter.flushEach entries s).timers, e ∈ s.timers ∧ e ∉ entries := by
  induction entries generalizing s with
  | nil => exact ⟨h, fun e he => ⟨he, not_mem_nil⟩⟩
  | cons x entries ih =>
    obtain ⟨hx, hrest⟩ := uniqueKeys_cons.mp hunique
    have heq : (s.clearTimeout x.2).flushProfileBatch x.1 = s.flushed x.1 :=
      h.flush_eq (hmem x (mem_cons_self ..))
    have hnext : Emitter.flushEach (x :: entries) s =
        Emitter.flushEach entries (s.flushed x.1) := by
      rw [← heq]
      rfl
    have hleft : ∀ e ∈ entries, e ∈ (s.flushed x.1).timers := fun e he =>
      mem_erase.mpr ⟨hmem e (mem_cons_of_mem _ he), hx e he⟩
    obtain ⟨hsound, htimers⟩ := ih (h.flushed x.1) hrest hleft
    rw [hnext]
    refine ⟨hsound, fun e he => ?_⟩
    obtain ⟨hmem', hnot⟩ := htimers e he
    obtain ⟨hin, hne⟩ := mem_erase.mp hmem'
    refine ⟨hin, ?_⟩
    rintro (_ | ⟨_, he'⟩)
    · exact hne rfl
    · exact hnot he'

theorem Sound.flushAll (h : Sound s) : Sound s.flushAll := by
  have hdown : Sound { s with shuttingDown := true } :=
    ⟨⟨⟨h.timers, h.armed, h.fresh, h.agree⟩, h.payloads, h.keyed, h.timed⟩, h.promised, h.live,
      h.notAfterDeletion⟩
  obtain ⟨hsound, htimers⟩ := hdown.flushEach h.timers fun e he => he
  have hnoTimers : (Emitter.flushEach s.timers { s with shuttingDown := true }).timers = [] := by
    rw [eq_nil_iff_forall_not_mem]
    exact fun e he => (htimers e he).2 (htimers e he).1
  have hnoPayloads : (Emitter.flushEach s.timers { s with shuttingDown := true }).payloads = [] := by
    rw [eq_nil_iff_forall_not_mem]
    intro e he
    obtain ⟨i, hi⟩ := hsound.timed e he
    rw [hnoTimers] at hi
    cases hi
  have heq : s.flushAll = Emitter.flushEach s.timers { s with shuttingDown := true } := by
    unfold Emitter.flushAll
    generalize Emitter.flushEach s.timers { s with shuttingDown := true } = t at *
    cases t
    cases hnoTimers
    cases hnoPayloads
    rfl
  rw [heq]
  exact hsound

section
variable [EmptyCollection P] {t : Emitter P}

theorem step_fires (h : Armed s) (hmem : (key, timer) ∈ s.timers) :
    s.step (.fires timer) = some (s.flushed key) := by
  have hlookup := lookup_of_mem h.armed ((h.agree key timer).mpr hmem)
  simp only [Emitter.step]
  rw [hlookup]
  exact congrArg some (h.flush_eq hmem)

theorem Sound.step (h : Sound s) {a : Action P} (htime : InTime s a) (hstep : s.step a = some t) :
    Sound t := by
  cases a with
  | profileUpdated profile avatarUrl clock =>
    obtain ⟨hup, hlive⟩ := htime
    cases hstep
    refine h.evictOldest.stored ?_ ?_
    · rw [evictOldest_shuttingDown h.toInStep, hup]
    · rw [evictOldest_deletedIn h.toInStep]
      exact hlive
  | profileDeleted ref =>
    cases hstep
    exact h.profileDeleted ref
  | fires timer =>
    cases hlookup : lookup Prod.fst timer s.armed with
    | none => simp [Emitter.step, hlookup] at hstep
    | some e =>
      obtain ⟨i, key⟩ := e
      obtain ⟨hmem, rfl⟩ := mem_of_lookup hlookup
      rw [step_fires h.toArmed ((h.agree key i).mp hmem)] at hstep
      cases hstep
      exact h.flushed key
  | flushAll =>
    cases hstep
    exact h.flushAll

/-- A pending payload is broadcast when its timer fires. -/
theorem Sound.kept (h : Sound s) : Kept s where
  answered := h.promised.mono fun x after hx p hp => by
    rcases hx p hp with hanswered | ⟨q, hq, href, hlater⟩
    · exact .inl hanswered
    · obtain ⟨timer, htimer⟩ := h.timed _ hq
      refine .inr ⟨timer, s.flushed (profileKey p.ref), [.updated q.festivalId q.message],
        step_fires h.toArmed htimer, ?_, .inl ⟨after, q, [], rfl, href, hlater⟩⟩
      have hlookup := lookup_of_mem h.payloads hq
      simp [Emitter.flushed, Emitter.broadcast, hlookup]
  notAfterDeletion := h.notAfterDeletion
  single := by
    have hkeys : s.payloads.map Prod.fst = (s.payloads.map fun e => e.2.ref).map profileKey := by
      rw [map_map]
      exact map_congr_left h.keyed
    have hnodup := h.payloads
    rw [UniqueKeys, hkeys] at hnodup
    exact hnodup.of_map _

/-- While every update comes before the shutdown and before the deletion of its profile, none is
lost, nothing is told about a deleted profile, and a profile has one pending entry. -/
theorem broadcasts_kept {as : List (Action P)}
    (h : Machine.Meets Emitter.step InTime (Emitter.initial P) as) :
    Machine.Always Emitter.step Kept (Emitter.initial P) as :=
  Machine.always_of_meets (fun _ _ _ hs htime hstep => hs.step htime hstep) (fun _ hs => hs.kept)
    Sound.initial h

end

end

/-! ## A run in time, and an update after the shutdown -/

def sampleProfile : Profile (List ℕ) where
  id := ⟨"p", by decide⟩
  festivalId := "f"
  name := "n"
  picks := some [1]
  updatedAt := none

theorem broadcasts_kept_twice :
    Machine.Always Emitter.step Kept (Emitter.initial (List ℕ))
      [.profileUpdated sampleProfile none ⟨0, "0"⟩, .profileUpdated sampleProfile none ⟨1, "1"⟩,
        .fires 1, .profileUpdated sampleProfile none ⟨2, "2"⟩, .profileDeleted ("f", sampleProfile.id),
        .flushAll] :=
  broadcasts_kept (by decide)

/-- An update that finishes during the shutdown is stored, and no timer is left to broadcast it. -/
theorem lost_after_shutdown :
    ¬ ∀ as, Machine.Always Emitter.step Kept (Emitter.initial (List ℕ)) as := by
  intro h
  have hkept := (h [.flushAll, .profileUpdated sampleProfile none ⟨0, "0"⟩]).last rfl
  rcases hkept.answered [] _ [] rfl _ rfl with (⟨before, q, later, he, -⟩ | hdeleted) | hfires
  · simp at he
  · simp [deletedIn] at hdeleted
  · obtain ⟨timer, t, new, hstep, -⟩ := hfires
    cases hstep

end FestivalPlanner.ProfileBroadcasts
