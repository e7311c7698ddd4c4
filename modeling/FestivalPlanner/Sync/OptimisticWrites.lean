import FestivalPlanner.Lib.InFlight
import FestivalPlanner.Lib.Layers
import FestivalPlanner.Lib.Machine
import FestivalPlanner.Lineup.FestivalRoute

/-!
# Optimistic picks, notes and reminders

A call shows its change at once, sends the whole map to `PUT /profiles/:id`, and puts the values of
its own keys back when the request fails.  Several calls may be under way, and the server takes
their requests in any order.

* `Call`, `Lane` — a call, and one of the three maps, as it is shown and as the server has it;
* `rollbackKeys` — the values that a call remembers are put back;
* `savePick`, `bulkSavePicks`, `removePick`, `saveNote`, `saveReminder` — what the calls show;
* `Settled`, `OwnKeys` — shown is what the server has, and a call changes only its own keys;
* `Careful` — requests take effect and fail in an order in which no call depends on another;
* `settled_of_careful` — all maps settle in every run of careful steps.
-/

namespace FestivalPlanner.OptimisticWrites

open List Option InFlight Function

open Layers (Layer)

/-! ## The maps -/

inductive Priority where
  | maybe | wantToSee | must
  deriving DecidableEq, Repr

/-- `must > want-to-see > maybe` -/
def Priority.rank : Priority → ℕ
  | maybe => 1
  | wantToSee => 2
  | must => 3

/-- A map from set ids. -/
abbrev Record (ν : Type) := String → Option ν

/-- `rollbackKeys`, with the map of the field in the current profile. -/
def rollbackKeys {ν : Type} (prev : List (String × Option ν)) (record : Record ν) : Record ν :=
  Layers.restore prev record

/-- Where the request of a call is. -/
inductive Stage where
  /-- on its way, and the call waits -/
  | sent
  /-- it has taken effect, and the call waits -/
  | accepted
  /-- it is refused, and the call waits -/
  | refused
  /-- on its way, and the call has failed -/
  | abandoned
  deriving DecidableEq

/-- What is shown of the call is not confirmed. -/
def Stage.pending : Stage → Bool
  | sent | refused => true
  | accepted | abandoned => false

/-- A call: what it remembers of its keys, and the map that it sends. -/
structure Call (ν : Type) where
  prev : List (String × Option ν)
  body : Record ν
  stage : Stage

/-- One map of the profile: as it is shown, as the server has it, and the calls under way in the
order in which they were made. -/
structure Lane (ν : Type) where
  shown : Record ν
  server : Record ν
  calls : List (Call ν)

inductive LaneAction where
  /-- the request of a call takes effect -/
  | serve (i : ℕ)
  /-- the server refuses it -/
  | refuse (i : ℕ)
  /-- the call succeeds -/
  | succeed (i : ℕ)
  /-- the call fails: its request is refused or lost, or the answer is lost -/
  | fail (i : ℕ)

section
variable {ν : Type}

/-- The optimistic write of a call, and its request. -/
def Lane.save (lane : Lane ν) (prev : List (String × Option ν)) (body : Record ν) : Lane ν :=
  { lane with shown := body, calls := lane.calls ++ [⟨prev, body, .sent⟩] }

/-- `stored` is what the server makes of a map. -/
def Lane.step (stored : Record ν → Record ν) (lane : Lane ν) : LaneAction → Option (Lane ν)
  | .serve i => lane.calls[i]?.bind fun c =>
      match c.stage with
      | .sent => some { lane with
          server := stored c.body
          calls := lane.calls.set i { c with stage := .accepted } }
      | .abandoned => some { lane with
          server := stored c.body
          calls := lane.calls.eraseIdx i }
      | _ => none
  | .refuse i => lane.calls[i]?.bind fun c =>
      match c.stage with
      | .sent => some { lane with calls := lane.calls.set i { c with stage := .refused } }
      | .abandoned => some { lane with calls := lane.calls.eraseIdx i }
      | _ => none
  | .succeed i => lane.calls[i]?.bind fun c =>
      match c.stage with
      | .accepted => some { lane with calls := lane.calls.eraseIdx i }
      | _ => none
  | .fail i => lane.calls[i]?.bind fun c =>
      match c.stage with
      | .sent => some { lane with
          shown := rollbackKeys c.prev lane.shown
          calls := lane.calls.set i { c with stage := .abandoned } }
      | .refused | .accepted => some { lane with
          shown := rollbackKeys c.prev lane.shown
          calls := lane.calls.eraseIdx i }
      | .abandoned => none

end

/-! ## The calls -/

/-- What is shown of the current profile, what the server has, and the calls under way. -/
structure State where
  picks : Lane Priority
  notes : Lane String
  reminders : Lane ℕ

/-- One key is written, or deleted. -/
def saveKey {ν : Type} (lane : Lane ν) (setId : String) (value : Option ν) : Lane ν :=
  lane.save [(setId, lane.shown setId)] (update lane.shown setId value)

/-- `savePick`; no priority removes the pick. -/
def savePick (s : State) (setId : String) (priority : Option Priority) : State :=
  { s with picks := saveKey s.picks setId priority }

/-- The loop of `bulkSavePicks`: what it remembers and the merged picks. -/
def bulkLoop (priority : Priority) : List String → Record Priority →
    List (String × Option Priority) × Record Priority
  | [], mergedPicks => ([], mergedPicks)
  | setId :: setIds, mergedPicks =>
      if (mergedPicks setId).any (fun existing => priority.rank ≤ existing.rank) then
        bulkLoop priority setIds mergedPicks
      else
        let rest := bulkLoop priority setIds (update mergedPicks setId (some priority))
        ((setId, mergedPicks setId) :: rest.1, rest.2)

/-- `bulkSavePicks`; there is no call when nothing changes. -/
def bulkSavePicks (s : State) (setIds : List String) (priority : Priority) : State :=
  let merged := bulkLoop priority setIds s.picks.shown
  if merged.1 = [] then s else { s with picks := s.picks.save merged.1 merged.2 }

/-- `removePick` -/
def removePick (s : State) (setId : String) : State :=
  { s with picks := saveKey s.picks setId none }

/-- `saveNote` -/
def saveNote (s : State) (setId note : String) : State :=
  { s with notes := saveKey s.notes setId (some note) }

/-- `saveReminder`; no minutes clear the reminder. -/
def saveReminder (s : State) (setId : String) (minutes : Option ℕ) : State :=
  { s with reminders := saveKey s.reminders setId minutes }

/-- The tables of the language and `MAX_NOTE_LENGTH`. -/
structure Server where
  env : Lineup.Env
  maxNoteLength : ℕ

/-- `normalizeNotePayload`, on the ids of sets. -/
def normalizeNotePayload (server : Server) (notes : Record String) : Record String :=
  fun setId => (notes setId).map fun note =>
    Lineup.sanitizeString server.env note server.maxNoteLength

inductive Action where
  | savePick (setId : String) (priority : Option Priority)
  | bulkSavePicks (setIds : List String) (priority : Priority)
  | removePick (setId : String)
  | saveNote (setId note : String)
  | saveReminder (setId : String) (minutes : Option ℕ)
  /-- a call on the picks goes on -/
  | pick (a : LaneAction)
  /-- a call on the notes goes on -/
  | note (a : LaneAction)
  /-- a call on the reminders goes on -/
  | reminder (a : LaneAction)

def step (server : Server) (s : State) : Action → Option State
  | .savePick setId priority => some (savePick s setId priority)
  | .bulkSavePicks setIds priority => some (bulkSavePicks s setIds priority)
  | .removePick setId => some (removePick s setId)
  | .saveNote setId note => some (saveNote s setId note)
  | .saveReminder setId minutes => some (saveReminder s setId minutes)
  | .pick a => (s.picks.step id a).map fun lane => { s with picks := lane }
  | .note a =>
      (s.notes.step (normalizeNotePayload server) a).map fun lane => { s with notes := lane }
  | .reminder a => (s.reminders.step id a).map fun lane => { s with reminders := lane }

/-- Nothing is in flight and the client shows what the server has. -/
def start (picks : Record Priority) (notes : Record String) (reminders : Record ℕ) : State :=
  ⟨⟨picks, picks, []⟩, ⟨notes, notes, []⟩, ⟨reminders, reminders, []⟩⟩

/-! ## What should hold -/

section
variable {ν : Type}

/-- When nothing is in flight, the map that is shown is the one that the server has. -/
def Lane.Settled (lane : Lane ν) : Prop := lane.calls = [] → lane.shown = lane.server

/-- A call as a layer on the map of the server. -/
@[grind =] def Call.layer (c : Call ν) : Layer String (Option ν) := ⟨c.prev, c.body, c.stage.pending⟩

/-- What a step of a call changes, shown or on the server, is under the keys of the call. -/
def Lane.OwnKeys (lane : Lane ν) : LaneAction → Lane ν → Prop
  | .serve i, t | .refuse i, t | .succeed i, t | .fail i, t =>
      ∀ c ∈ lane.calls[i]?, ∀ k, k ∉ c.layer.keys →
        t.shown k = lane.shown k ∧ t.server k = lane.server k

/-- A request that takes effect changes the keys of its call only, to what is shown, and no older
call on one of them is unconfirmed; a call that fails has not taken effect, and no younger call on
one of its keys is unconfirmed. -/
def Lane.Careful (stored : Record ν → Record ν) (lane : Lane ν) : LaneAction → Prop
  | .serve i => ∀ c ∈ lane.calls[i]?,
      match c.stage with
      | .abandoned => stored c.body = lane.server
      | _ => stored c.body = Layers.write c.layer lane.server ∧
          ∀ d ∈ lane.calls.take i, d.stage.pending = true → c.layer.Disjoint d.layer
  | .fail i => ∀ c ∈ lane.calls[i]?,
      match c.stage with
      | .accepted => rollbackKeys c.prev lane.shown = lane.shown
      | _ => ∀ d ∈ lane.calls.drop (i + 1), d.stage.pending = true → c.layer.Disjoint d.layer
  | _ => True

end

/-- All three maps are settled. -/
structure Settled (s : State) : Prop where
  picks : s.picks.Settled
  notes : s.notes.Settled
  reminders : s.reminders.Settled

/-- A step of a call stays under its keys. -/
def OwnKeys (s : State) (a : Action) (t : State) : Prop :=
  match a with
  | .pick a => s.picks.OwnKeys a t.picks ∧ t.notes = s.notes ∧ t.reminders = s.reminders
  | .note a => s.notes.OwnKeys a t.notes ∧ t.picks = s.picks ∧ t.reminders = s.reminders
  | .reminder a => s.reminders.OwnKeys a t.reminders ∧ t.picks = s.picks ∧ t.notes = s.notes
  | _ => True

def Careful (server : Server) (s : State) : Action → Prop
  | .pick a => s.picks.Careful id a
  | .note a => s.notes.Careful (normalizeNotePayload server) a
  | .reminder a => s.reminders.Careful id a
  | _ => True

/-! ## A map -/

section
variable {ν : Type} {lane t : Lane ν}

/-- Every unconfirmed call remembers what is under it, and what is shown is on top of all. -/
structure LaneInv (lane : Lane ν) : Prop where
  chained : Layers.Chained lane.server (lane.calls.map Call.layer)
  shown : Layers.tip lane.server (lane.calls.map Call.layer) = lane.shown

theorem LaneInv.settled (hi : LaneInv lane) : lane.Settled := by
  intro hcalls
  have htip := hi.shown
  rw [hcalls] at htip
  exact htip.symm

/-- A call is made that remembers its keys and writes nothing else. -/
theorem LaneInv.save (hi : LaneInv lane) {prev : List (String × Option ν)} {body : Record ν}
    (hprev : ∀ p ∈ prev, p.2 = lane.shown p.1)
    (hbody : ∀ k, k ∉ prev.map Prod.fst → body k = lane.shown k) : LaneInv (lane.save prev body) := by
  have hmap : (lane.save prev body).calls.map Call.layer =
      lane.calls.map Call.layer ++ [(⟨prev, body, .sent⟩ : Call ν).layer] := by
    rw [Lane.save, map_append]
    rfl
  constructor
  · rw [hmap]
    refine hi.chained.push fun p hp => ?_
    rw [hi.shown]
    exact hprev p hp
  · rw [hmap]
    exact Layers.tip_push rfl fun k hk => (hbody k hk).trans (congrFun hi.shown k).symm

theorem LaneInv.saveKey (hi : LaneInv lane) (setId : String) (value : Option ν) :
    LaneInv (saveKey lane setId value) := by
  refine hi.save (fun p hp => ?_) fun k hk => ?_
  · rw [mem_singleton.mp hp]
  · have hne : k ≠ setId := by simpa using hk
    exact update_of_ne hne _ _

section
variable {i : ℕ} {c : Call ν}

theorem map_layer (hc : lane.calls[i]? = some c) : lane.calls.map Call.layer =
    (lane.calls.take i).map Call.layer ++ c.layer :: (lane.calls.drop (i + 1)).map Call.layer := by
  conv_lhs => rw [eq_take_cons_drop hc]
  rw [map_append, map_cons]

theorem map_layer_set (hc : lane.calls[i]? = some c) (d : Call ν) : (lane.calls.set i d).map Call.layer =
    (lane.calls.take i).map Call.layer ++ d.layer :: (lane.calls.drop (i + 1)).map Call.layer := by
  rw [set_eq_take_cons_drop hc, map_append, map_cons]

theorem map_layer_erase : (lane.calls.eraseIdx i).map Call.layer =
    (lane.calls.take i).map Call.layer ++ (lane.calls.drop (i + 1)).map Call.layer := by
  rw [eraseIdx_eq_take_drop_succ, map_append]

/-- A call that is confirmed or has been taken back may leave. -/
theorem LaneInv.leave (hi : LaneInv lane) (hc : lane.calls[i]? = some c) (hstage : c.stage.pending = false) :
    LaneInv { lane with calls := lane.calls.eraseIdx i } := by
  have hchained := hi.chained
  have hshown := hi.shown
  rw [map_layer hc] at hchained hshown
  constructor
  · rw [map_layer_erase]
    exact (Layers.chained_skip hstage).mp hchained
  · rw [map_layer_erase]
    exact (Layers.tip_skip hstage).symm.trans hshown

/-- The request of a call takes effect. -/
theorem LaneInv.confirm (hi : LaneInv lane) (hc : lane.calls[i]? = some c)
    (hstage : c.stage.pending = true)
    (hbelow : ∀ d ∈ lane.calls.take i, d.stage.pending = true → c.layer.Disjoint d.layer) :
    LaneInv { lane with
      server := Layers.write c.layer lane.server
      calls := lane.calls.set i { c with stage := .accepted } } := by
  have hchained := hi.chained
  have hshown := hi.shown
  rw [map_layer hc] at hchained hshown
  have hpre : ∀ d ∈ (lane.calls.take i).map Call.layer, d.pending = true →
      c.layer.Disjoint d := by
    intro d hd hpending
    obtain ⟨call, hcall, rfl⟩ := List.mem_map.mp hd
    exact hbelow call hcall hpending
  obtain ⟨hconfirmed, htip⟩ := hchained.confirm hstage hpre
  constructor
  · rw [map_layer_set hc]
    exact (Layers.chained_skip rfl).mpr hconfirmed
  · rw [map_layer_set hc, Layers.tip_skip rfl, htip]
    exact hshown

/-- A call takes its change back. -/
theorem LaneInv.takeBack (hi : LaneInv lane) (hc : lane.calls[i]? = some c)
    (hstage : c.stage.pending = true)
    (habove : ∀ d ∈ lane.calls.drop (i + 1), d.stage.pending = true → c.layer.Disjoint d.layer) :
    LaneInv { lane with
      shown := rollbackKeys c.prev lane.shown
      calls := lane.calls.eraseIdx i } := by
  have hchained := hi.chained
  have hshown := hi.shown
  rw [map_layer hc] at hchained hshown
  have hpost : ∀ d ∈ (lane.calls.drop (i + 1)).map Call.layer, d.pending = true →
      c.layer.Disjoint d := by
    intro d hd hpending
    obtain ⟨call, hcall, rfl⟩ := List.mem_map.mp hd
    exact habove call hcall hpending
  obtain ⟨htaken, htip⟩ := hchained.takeBack hstage hpost
  constructor
  · rw [map_layer_erase]
    exact htaken
  · rw [map_layer_erase, htip, hshown]
    rfl

/-- The stage of a call does not matter to the others while it stays pending, or stays not. -/
theorem LaneInv.setStage (hi : LaneInv lane) (hc : lane.calls[i]? = some c) {stage : Stage}
    (hstage : stage.pending = c.stage.pending) :
    LaneInv { lane with calls := lane.calls.set i { c with stage := stage } } := by
  have hlayer : ({ c with stage := stage } : Call ν).layer = c.layer := by
    rw [Call.layer, Call.layer, hstage]
  have hmap : (lane.calls.set i { c with stage := stage }).map Call.layer =
      lane.calls.map Call.layer := map_set_eq hc hlayer
  exact ⟨hmap ▸ hi.chained, hmap ▸ hi.shown⟩

/-- A call takes its change back while its request is on its way. -/
theorem LaneInv.abandon (hi : LaneInv lane) (hc : lane.calls[i]? = some c)
    (hstage : c.stage.pending = true)
    (habove : ∀ d ∈ lane.calls.drop (i + 1), d.stage.pending = true → c.layer.Disjoint d.layer) :
    LaneInv { lane with
      shown := rollbackKeys c.prev lane.shown
      calls := lane.calls.set i { c with stage := .abandoned } } := by
  have htaken := hi.takeBack hc hstage habove
  have hchained := htaken.chained
  have hshown := htaken.shown
  rw [map_layer_erase] at hchained hshown
  constructor
  · rw [map_layer_set hc]
    exact (Layers.chained_skip rfl).mpr hchained
  · rw [map_layer_set hc, Layers.tip_skip rfl]
    exact hshown

end

/-- Every careful step of a call keeps the invariant. -/
theorem laneInv_step {stored : Record ν → Record ν} {a : LaneAction} (hi : LaneInv lane)
    (hcareful : lane.Careful stored a) (hstep : lane.step stored a = some t) : LaneInv t := by
  cases a with
  | serve i =>
    obtain ⟨c, hc, hstep⟩ := bind_eq_some_iff.mp hstep
    have hown := hcareful c hc
    cases hstage : c.stage with
    | sent =>
      simp only [hstage, some.injEq] at hstep hown
      obtain ⟨hserver, hbelow⟩ := hown
      subst hstep
      rw [hserver]
      exact hi.confirm hc (by rw [hstage]; rfl) hbelow
    | abandoned =>
      simp only [hstage, some.injEq] at hstep hown
      subst hstep
      rw [hown]
      exact hi.leave hc (by rw [hstage]; rfl)
    | accepted => simp [hstage] at hstep
    | refused => simp [hstage] at hstep
  | refuse i =>
    obtain ⟨c, hc, hstep⟩ := bind_eq_some_iff.mp hstep
    cases hstage : c.stage with
    | sent =>
      simp only [hstage, some.injEq] at hstep
      subst hstep
      exact hi.setStage hc (by rw [hstage]; rfl)
    | abandoned =>
      simp only [hstage, some.injEq] at hstep
      subst hstep
      exact hi.leave hc (by rw [hstage]; rfl)
    | accepted => simp [hstage] at hstep
    | refused => simp [hstage] at hstep
  | succeed i =>
    obtain ⟨c, hc, hstep⟩ := bind_eq_some_iff.mp hstep
    cases hstage : c.stage with
    | accepted =>
      simp only [hstage, some.injEq] at hstep
      subst hstep
      exact hi.leave hc (by rw [hstage]; rfl)
    | sent => simp [hstage] at hstep
    | refused => simp [hstage] at hstep
    | abandoned => simp [hstage] at hstep
  | fail i =>
    obtain ⟨c, hc, hstep⟩ := bind_eq_some_iff.mp hstep
    have hown := hcareful c hc
    cases hstage : c.stage with
    | sent =>
      simp only [hstage, some.injEq] at hstep hown
      subst hstep
      exact hi.abandon hc (by rw [hstage]; rfl) hown
    | refused =>
      simp only [hstage, some.injEq] at hstep hown
      subst hstep
      exact hi.takeBack hc (by rw [hstage]; rfl) hown
    | accepted =>
      simp only [hstage, some.injEq] at hstep hown
      subst hstep
      rw [hown]
      exact hi.leave hc (by rw [hstage]; rfl)
    | abandoned => simp [hstage] at hstep

theorem rollbackKeys_of_not_mem {prev : List (String × Option ν)} {record : Record ν} {k : String}
    (h : k ∉ prev.map Prod.fst) : rollbackKeys prev record k = record k :=
  Layers.restore_of_not_mem h record

/-- A careful step of a call stays under its keys. -/
theorem ownKeys_step {stored : Record ν → Record ν} {a : LaneAction}
    (hcareful : lane.Careful stored a) (hstep : lane.step stored a = some t) :
    lane.OwnKeys a t := by
  cases a with
  | serve i =>
    intro c hc k hk
    have hown := hcareful c hc
    simp only [Lane.step, mem_def.mp hc, bind_some] at hstep
    cases hstage : c.stage with
    | sent =>
      simp only [hstage, some.injEq] at hstep hown
      subst hstep
      exact ⟨rfl, (congrFun hown.1 k).trans (Layers.write_of_not_mem hk _)⟩
    | abandoned =>
      simp only [hstage, some.injEq] at hstep hown
      subst hstep
      exact ⟨rfl, congrFun hown k⟩
    | accepted => simp [hstage] at hstep
    | refused => simp [hstage] at hstep
  | refuse i =>
    intro c hc k hk
    simp only [Lane.step, mem_def.mp hc, bind_some] at hstep
    cases hstage : c.stage <;> simp only [hstage, some.injEq, reduceCtorEq] at hstep
    all_goals
      subst hstep
      exact ⟨rfl, rfl⟩
  | succeed i =>
    intro c hc k hk
    simp only [Lane.step, mem_def.mp hc, bind_some] at hstep
    cases hstage : c.stage <;> simp only [hstage, some.injEq, reduceCtorEq] at hstep
    subst hstep
    exact ⟨rfl, rfl⟩
  | fail i =>
    intro c hc k hk
    simp only [Lane.step, mem_def.mp hc, bind_some] at hstep
    cases hstage : c.stage <;> simp only [hstage, some.injEq, reduceCtorEq] at hstep
    all_goals
      subst hstep
      exact ⟨rollbackKeys_of_not_mem hk, rfl⟩

end

/-! ## All maps -/

/-- The loop leaves a pick that is as strong. -/
theorem bulkLoop_of_strong {priority : Priority} {setId : String} (setIds : List String)
    (merged : Record Priority)
    (h : (merged setId).any (fun existing => priority.rank ≤ existing.rank) = true) :
    ∀ p ∈ (bulkLoop priority setIds merged).1, p.1 ≠ setId := by
  induction setIds generalizing merged with
  | nil => exact fun p hp => (nomatch hp)
  | cons other setIds ih =>
    rw [bulkLoop]
    split
    · exact ih merged h
    · rename_i hweaker
      have hne : other ≠ setId := fun heq => hweaker (heq ▸ h)
      intro p hp
      rcases mem_cons.mp hp with rfl | hp
      · exact hne
      · refine ih _ ?_ p hp
        rw [update_of_ne (Ne.symm hne)]
        exact h

/-- What the loop of `bulkSavePicks` remembers and merges. -/
theorem bulkLoop_spec (priority : Priority) (setIds : List String) (merged : Record Priority) :
    (∀ p ∈ (bulkLoop priority setIds merged).1, p.2 = merged p.1) ∧
      ∀ k, k ∉ (bulkLoop priority setIds merged).1.map Prod.fst →
        (bulkLoop priority setIds merged).2 k = merged k := by
  induction setIds generalizing merged with
  | nil => exact ⟨fun p hp => (nomatch hp), fun k _ => rfl⟩
  | cons setId setIds ih =>
    rw [bulkLoop]
    split
    · exact ih merged
    · obtain ⟨hprev, hbody⟩ := ih (update merged setId (some priority))
      have hlater : ∀ p ∈ (bulkLoop priority setIds
          (update merged setId (some priority))).1, p.1 ≠ setId :=
        bulkLoop_of_strong setIds _ (by simp)
      refine ⟨?_, ?_⟩
      · intro p hp
        rcases mem_cons.mp hp with rfl | hp
        · rfl
        · rw [hprev p hp, update_of_ne (hlater p hp)]
      · intro k hk
        rw [map_cons, mem_cons, not_or] at hk
        rw [hbody k hk.2, update_of_ne hk.1]

/-- The invariant of all three maps. -/
structure Inv (s : State) : Prop where
  picks : LaneInv s.picks
  notes : LaneInv s.notes
  reminders : LaneInv s.reminders

theorem Inv.settled {s : State} (hi : Inv s) : Settled s :=
  ⟨hi.picks.settled, hi.notes.settled, hi.reminders.settled⟩

section
variable {server : Server} {s t : State} {a : Action}

theorem Inv.bulkSavePicks (hi : Inv s) (setIds : List String) (priority : Priority) :
    Inv (bulkSavePicks s setIds priority) := by
  rw [OptimisticWrites.bulkSavePicks]
  split
  · exact hi
  · obtain ⟨hprev, hbody⟩ := bulkLoop_spec priority setIds s.picks.shown
    exact ⟨hi.picks.save hprev hbody, hi.notes, hi.reminders⟩

/-- Every careful step keeps the invariant. -/
theorem inv_step (hi : Inv s) (hc : Careful server s a) (hstep : step server s a = some t) :
    Inv t := by
  cases a with
  | savePick setId priority =>
    obtain rfl := some.inj hstep
    exact ⟨hi.picks.saveKey setId priority, hi.notes, hi.reminders⟩
  | bulkSavePicks setIds priority =>
    obtain rfl := some.inj hstep
    exact hi.bulkSavePicks setIds priority
  | removePick setId =>
    obtain rfl := some.inj hstep
    exact ⟨hi.picks.saveKey setId none, hi.notes, hi.reminders⟩
  | saveNote setId note =>
    obtain rfl := some.inj hstep
    exact ⟨hi.picks, hi.notes.saveKey setId (some note), hi.reminders⟩
  | saveReminder setId minutes =>
    obtain rfl := some.inj hstep
    exact ⟨hi.picks, hi.notes, hi.reminders.saveKey setId minutes⟩
  | pick a =>
    obtain ⟨lane, hlane, rfl⟩ := map_eq_some_iff.mp hstep
    exact ⟨laneInv_step hi.picks hc hlane, hi.notes, hi.reminders⟩
  | note a =>
    obtain ⟨lane, hlane, rfl⟩ := map_eq_some_iff.mp hstep
    exact ⟨hi.picks, laneInv_step hi.notes hc hlane, hi.reminders⟩
  | reminder a =>
    obtain ⟨lane, hlane, rfl⟩ := map_eq_some_iff.mp hstep
    exact ⟨hi.picks, hi.notes, laneInv_step hi.reminders hc hlane⟩

/-- Every careful step stays under the keys of its call. -/
theorem ownKeys_of_careful (hc : Careful server s a) (hstep : step server s a = some t) :
    OwnKeys s a t := by
  cases a with
  | savePick | bulkSavePicks | removePick | saveNote | saveReminder => trivial
  | pick a =>
    obtain ⟨lane, hlane, rfl⟩ := map_eq_some_iff.mp hstep
    exact ⟨ownKeys_step hc hlane, rfl, rfl⟩
  | note a =>
    obtain ⟨lane, hlane, rfl⟩ := map_eq_some_iff.mp hstep
    exact ⟨ownKeys_step hc hlane, rfl, rfl⟩
  | reminder a =>
    obtain ⟨lane, hlane, rfl⟩ := map_eq_some_iff.mp hstep
    exact ⟨ownKeys_step hc hlane, rfl, rfl⟩

end

theorem inv_start (picks : Record Priority) (notes : Record String) (reminders : Record ℕ) :
    Inv (start picks notes reminders) :=
  ⟨⟨trivial, rfl⟩, ⟨trivial, rfl⟩, ⟨trivial, rfl⟩⟩

/-! ## Runs -/

/-- **The maps settle and no call leaves its keys** in every run of careful steps. -/
theorem settled_of_careful (server : Server) (picks : Record Priority) (notes : Record String)
    (reminders : Record ℕ) {as : List Action}
    (h : Machine.Meets (step server) (Careful server) (start picks notes reminders) as) :
    Machine.Always (step server) Settled (start picks notes reminders) as ∧
      Machine.Each (step server) OwnKeys (start picks notes reminders) as := by
  constructor
  · exact Machine.always_of_meets (fun _ _ _ hi hc hstep => inv_step hi hc hstep)
      (fun _ hi => hi.settled) (inv_start picks notes reminders) h
  · exact Machine.each_of_meets (fun _ _ _ hi hc hstep => inv_step hi hc hstep)
      (fun _ _ _ _ hc hstep => ownKeys_of_careful hc hstep) (inv_start picks notes reminders) h

/-- A server that leaves letters as they are. -/
def plainServer : Server := ⟨⟨id, id, fun _ => ""⟩, 1000⟩

/-- Two sets are picked, one request takes effect, and then the other is refused. -/
def twoPicks : List Action :=
  [.savePick "s1" (some .must), .savePick "s2" (some .maybe), .pick (.serve 0), .pick (.refuse 1),
    .pick (.fail 1), .pick (.succeed 0)]

theorem two_picks_settle :
    Machine.Always (step plainServer) Settled (start (fun _ => none) (fun _ => none) fun _ => none)
        twoPicks ∧
      Machine.Each (step plainServer) OwnKeys
        (start (fun _ => none) (fun _ => none) fun _ => none) twoPicks := by
  refine settled_of_careful plainServer _ _ _ ⟨trivial, trivial, ?_, trivial, ?_, trivial, trivial⟩
  · rintro c hc
    obtain rfl := Option.some.inj hc
    refine ⟨?_, by simp⟩
    funext k
    by_cases hk : k = "s1"
    · simp [Layers.write, Layers.Layer.keys, Call.layer, hk]
    · simp only [Layers.write, Layers.Layer.keys, Call.layer, List.map_cons, List.map_nil,
        List.mem_singleton, hk, if_false]
      exact Function.update_of_ne hk _ _
  · rintro c hc
    obtain rfl := Option.some.inj hc
    exact fun d hd => nomatch hd

/-- A pick is changed while it is under way, and both requests are refused in their order. -/
def changedPick : List Action :=
  [.savePick "s1" (some .maybe), .savePick "s1" (some .must), .pick (.refuse 0), .pick (.refuse 1),
    .pick (.fail 0), .pick (.fail 0)]

/-- The second call puts back what the first one had shown. -/
theorem refused_pick_stays :
    ¬ Machine.Always (step plainServer) Settled
      (start (fun _ => none) (fun _ => none) fun _ => none) changedPick := by
  intro h
  have hshown := congrFun ((h.last rfl).picks rfl) "s1"
  cases hshown

end FestivalPlanner.OptimisticWrites
