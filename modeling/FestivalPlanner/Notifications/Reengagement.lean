import FestivalPlanner.Lib.InFlight
import FestivalPlanner.Lib.Machine

/-!
# One push and one e-mail for each event

A run of a re-engagement job asks the notification log which recipients have seen the event, pushes
to the others in chunks, and mails those of them that no e-mail row is found for.  A row is written
after each attempt.  A run may stop anywhere, a failed job is run again, and several runs may be
under way.

* `Event` — the recipients of an event, and which of them can be pushed to and mailed;
* `Stage`, `advance` — how far a run is, and its steps;
* `State`, `step` — the log, the attempts, and the runs that are under way;
* `ExactlyOnce` — nobody is pushed to or mailed twice, and once a run has completed everybody
  has been;
* `Needed` — the condition on a step: what is attempted was not attempted before, and what a run
  that completes has left out was;
* `exactlyOnce_iff` — the event is sent exactly once in a run exactly when its steps meet the
  condition.
-/

namespace FestivalPlanner.Reengagement

open InFlight List

/-! ## The event -/

structure Event where
  recipients : List String
  /-- The devices that a push to the user reaches: none for a user who has opted out, who is in a
  do-not-disturb window, or who has no device. -/
  devices : String → ℕ
  /-- Whether the user has an e-mail address. -/
  email : String → Bool

/-- The log rows of the event, and the attempts that were made. -/
structure Log where
  /-- The users with a row for the event key. -/
  pushRows : List String
  /-- The users with a row for the e-mail event key. -/
  emailRows : List String
  pushes : String → ℕ
  emails : String → ℕ

/-- One more for a user. -/
def bump (userId : String) (count : String → ℕ) : String → ℕ :=
  fun u => if u = userId then count u + 1 else count u

theorem bump_apply (userId : String) (count : String → ℕ) (u : String) :
    bump userId count u = if u = userId then count u + 1 else count u := rfl

theorem bump_self (userId : String) (count : String → ℕ) :
    bump userId count userId = count userId + 1 := if_pos rfl

theorem le_bump (userId : String) (count : String → ℕ) (u : String) :
    count u ≤ bump userId count u := by
  rw [bump_apply]
  split_ifs <;> omega

/-! ## A run -/

/-- A `send` of a chunk. -/
structure Send where
  userId : String
  /-- The devices that are left. -/
  left : ℕ
  /-- Whether a device was tried. -/
  reached : Bool
  /-- Whether the row of the last try is still to be written. -/
  logging : Bool

def Send.begin (e : Event) (userId : String) : Send :=
  { userId := userId, left := e.devices userId, reached := false, logging := false }

inductive Stage where
  | started
  /-- The users that are not in a chunk yet, and the sends of the chunk. -/
  | pushing (fresh missed rest : List String) (batch : List Send)
  | loading (fresh missed : List String)
  /-- Whether the users were loaded. -/
  | loaded (fresh missed : List String) (users : Bool)
  /-- The users that are still to be mailed, and the one whose row is to be written. -/
  | mailing (fresh missed : List String) (users : Bool) (rest : List String) (sent : Option String)

inductive RunAction where
  | filterFresh
  | nextChunk
  /-- A try of the next device of a send. -/
  | push (j : ℕ)
  | logPush (j : ℕ) (ok : Bool)
  /-- The preferences or the devices of the user cannot be read. -/
  | lookupFails (j : ℕ)
  | pushed (j : ℕ)
  | allPushed
  | loadUsers (ok : Bool)
  | filterUnmailed
  | email (ok : Bool)
  | logEmail (ok : Bool)

/-- The size of a chunk. -/
def CHUNK : ℕ := 25

@[grind =] def Log.tryDevice (l : Log) (d : Send) : Log :=
  if d.reached then l else { l with pushes := bump d.userId l.pushes }

/-- One step of a run. -/
@[grind =] def advance (e : Event) (l : Log) : Stage → RunAction → Option (Log × Stage)
  | .started, .filterFresh =>
      let fresh := e.recipients.filter (fun u => u ∉ l.pushRows)
      some (l, .pushing fresh [] fresh [])
  | .pushing fresh missed (u :: rest) [], .nextChunk =>
      some (l, .pushing fresh missed ((u :: rest).drop CHUNK)
        (((u :: rest).take CHUNK).map (Send.begin e)))
  | .pushing fresh missed rest batch, .push j =>
      match batch[j]? with
      | some d =>
          if d.logging = false ∧ 0 < d.left then
            some (l.tryDevice d, .pushing fresh missed rest
              (batch.set j { d with left := d.left - 1, reached := true, logging := true }))
          else none
      | none => none
  | .pushing fresh missed rest batch, .logPush j ok =>
      match batch[j]? with
      | some d =>
          if d.logging = true then
            some ({ l with pushRows := if ok then d.userId :: l.pushRows else l.pushRows },
              .pushing fresh missed rest (batch.set j { d with logging := false }))
          else none
      | none => none
  | .pushing fresh missed rest batch, .lookupFails j =>
      match batch[j]? with
      | some d =>
          if d.reached = false then
            some (l, .pushing fresh (d.userId :: missed) rest (batch.eraseIdx j))
          else none
      | none => none
  | .pushing fresh missed rest batch, .pushed j =>
      match batch[j]? with
      | some d =>
          if d.logging = false ∧ d.left = 0 then
            some (l, .pushing fresh missed rest (batch.eraseIdx j))
          else none
      | none => none
  | .pushing fresh missed [] [], .allPushed => some (l, .loading fresh missed)
  | .loading fresh missed, .loadUsers ok => some (l, .loaded fresh missed ok)
  | .loaded fresh missed users, .filterUnmailed =>
      some (l, .mailing fresh missed users
        ((fresh.filter (fun u => u ∉ l.emailRows)).filter (fun u => users && e.email u)) none)
  | .mailing fresh missed users (u :: rest) none, .email ok =>
      some ({ l with emails := bump u l.emails },
        .mailing fresh missed users rest (if ok then some u else none))
  | .mailing fresh missed users rest (some u), .logEmail ok =>
      some ({ l with emailRows := if ok then u :: l.emailRows else l.emailRows },
        .mailing fresh missed users rest none)
  | _, _ => none

/-! ## The machine -/

structure State where
  log : Log
  runs : List Stage
  /-- Whether a run has completed. -/
  completed : Bool

def start : State :=
  { log := { pushRows := [], emailRows := [], pushes := fun _ => 0, emails := fun _ => 0 }
    runs := []
    completed := false }

inductive Action where
  /-- A worker takes the job, or the job is run inline. -/
  | start
  | act (i : ℕ) (a : RunAction)
  /-- The process stops, or the log cannot be read, which fails the job. -/
  | crash (i : ℕ)
  | complete (i : ℕ)

@[grind =] def step (e : Event) (s : State) : Action → Option State
  | .start => some { s with runs := s.runs ++ [.started] }
  | .act i a =>
      match s.runs[i]? with
      | some r =>
          match advance e s.log r a with
          | some (log, r') => some { s with log := log, runs := s.runs.set i r' }
          | none => none
      | none => none
  | .crash i => if i < s.runs.length then some { s with runs := s.runs.eraseIdx i } else none
  | .complete i =>
      match s.runs[i]? with
      | some (.mailing _ _ _ [] none) =>
          some { s with runs := s.runs.eraseIdx i, completed := true }
      | _ => none

/-! ## Exactly once -/

structure ExactlyOnce (e : Event) (s : State) : Prop where
  push : ∀ u ∈ e.recipients, s.log.pushes u ≤ 1
  email : ∀ u ∈ e.recipients, s.log.emails u ≤ 1
  everyPush : s.completed = true → ∀ u ∈ e.recipients, 0 < e.devices u → s.log.pushes u = 1
  everyEmail : s.completed = true → ∀ u ∈ e.recipients, e.email u = true → s.log.emails u = 1

/-- A push or an e-mail is attempted for a user for whom no run has attempted it.  Those whose
preferences or devices a completing run could not read were pushed to by another one; and those
that it did not try to mail were mailed by another one: the users whose push row it found, and all
of them where the users could not be loaded. -/
def Needed (e : Event) (s : State) : Action → Prop
  | .act i (.push j) =>
      ∀ fresh missed rest batch d, s.runs[i]? = some (.pushing fresh missed rest batch) →
        batch[j]? = some d → d.reached = false → s.log.pushes d.userId = 0
  | .act i (.email _) =>
      ∀ fresh missed users u rest, s.runs[i]? = some (.mailing fresh missed users (u :: rest) none) →
        s.log.emails u = 0
  | .complete i =>
      ∀ fresh missed users, s.runs[i]? = some (.mailing fresh missed users [] none) →
        (∀ u ∈ missed, u ∈ e.recipients → 0 < e.devices u → s.log.pushes u ≠ 0) ∧
        ∀ u ∈ e.recipients, e.email u = true → u ∉ fresh ∨ users = false → s.log.emails u ≠ 0
  | _ => True

/-! ## What a run has done so far -/

structure Log.Sound (l : Log) : Prop where
  push : ∀ u ∈ l.pushRows, 0 < l.pushes u
  email : ∀ u ∈ l.emailRows, 0 < l.emails u

structure Log.Grows (l l' : Log) : Prop where
  push : ∀ u, l.pushes u ≤ l'.pushes u
  email : ∀ u, l.emails u ≤ l'.emails u

theorem Log.Grows.refl (l : Log) : l.Grows l := ⟨fun _ => le_rfl, fun _ => le_rfl⟩

/-- The fresh users are recipients, and the others have been pushed to. -/
structure Fresh (e : Event) (l : Log) (fresh : List String) : Prop where
  recipients : ∀ u ∈ fresh, u ∈ e.recipients
  others : ∀ u ∈ e.recipients, u ∉ fresh → 0 < l.pushes u

/-- The user has been pushed to as far as the run could. -/
def Settled (e : Event) (l : Log) (missed : List String) (u : String) : Prop :=
  0 < e.devices u → 0 < l.pushes u ∨ u ∈ missed

structure Send.Sound (e : Event) (l : Log) (d : Send) : Prop where
  recipient : d.userId ∈ e.recipients
  reached : d.reached = true → 0 < l.pushes d.userId
  unreached : d.reached = false → d.left = e.devices d.userId
  logging : d.logging = true → d.reached = true

def Stage.Sound (e : Event) (l : Log) : Stage → Prop
  | .started => True
  | .pushing fresh missed rest batch =>
      Fresh e l fresh ∧ (∀ u ∈ rest, u ∈ e.recipients) ∧ (∀ d ∈ batch, d.Sound e l) ∧
        ∀ u ∈ fresh, Settled e l missed u ∨ u ∈ rest ∨ u ∈ batch.map Send.userId
  | .loading fresh missed => Fresh e l fresh ∧ ∀ u ∈ fresh, Settled e l missed u
  | .loaded fresh missed _ => Fresh e l fresh ∧ ∀ u ∈ fresh, Settled e l missed u
  | .mailing fresh missed users rest sent =>
      Fresh e l fresh ∧ (∀ u ∈ fresh, Settled e l missed u) ∧ (∀ u ∈ rest, u ∈ e.recipients) ∧
        (∀ u, sent = some u → 0 < l.emails u) ∧
        (users = true → ∀ u ∈ fresh, e.email u = true → 0 < l.emails u ∨ u ∈ rest)

variable {u userId : String} {act : Action} {i : ℕ}

section Grows

variable {e : Event} {l l' : Log}

theorem Fresh.grows {fresh : List String} (h : Fresh e l fresh) (hgrows : l.Grows l') :
    Fresh e l' fresh :=
  ⟨h.recipients, fun u hu hnot => (h.others u hu hnot).trans_le (hgrows.push u)⟩

theorem Settled.grows {missed : List String} (h : Settled e l missed u) (hgrows : l.Grows l') :
    Settled e l' missed u :=
  fun hdevices => (h hdevices).imp_left fun hpushed => hpushed.trans_le (hgrows.push u)

theorem Send.Sound.grows {d : Send} (h : d.Sound e l) (hgrows : l.Grows l') : d.Sound e l' :=
  { h with reached := fun hreached => (h.reached hreached).trans_le (hgrows.push d.userId) }

theorem Stage.Sound.grows {r : Stage} (h : r.Sound e l) (hgrows : l.Grows l') : r.Sound e l' := by
  cases r with
  | started => trivial
  | pushing fresh missed rest batch =>
    obtain ⟨hfresh, hrest, hbatch, hall⟩ := h
    exact ⟨hfresh.grows hgrows, hrest, fun d hd => (hbatch d hd).grows hgrows,
      fun u hu => (hall u hu).imp_left fun hsettled => hsettled.grows hgrows⟩
  | loading fresh missed => exact ⟨h.1.grows hgrows, fun u hu => (h.2 u hu).grows hgrows⟩
  | loaded fresh missed users => exact ⟨h.1.grows hgrows, fun u hu => (h.2 u hu).grows hgrows⟩
  | mailing fresh missed users rest sent =>
    obtain ⟨hfresh, hsettled, hrest, hsent, hall⟩ := h
    refine ⟨hfresh.grows hgrows, fun u hu => (hsettled u hu).grows hgrows, hrest,
      fun u hu => (hsent u hu).trans_le (hgrows.email u), fun husers u hu hemail => ?_⟩
    exact (hall husers u hu hemail).imp_left fun hmailed => hmailed.trans_le (hgrows.email u)

end Grows

/-! ## Each step of a run -/

/-- A send that leaves the chunk is the only one of it that does. -/
theorem mem_map_userId_eraseIdx {batch : List Send} {j : ℕ} {d : Send} (hd : batch[j]? = some d)
    (hu : u ∈ batch.map Send.userId) : u = d.userId ∨ u ∈ (batch.eraseIdx j).map Send.userId := by
  obtain ⟨x, hx, rfl⟩ := mem_map.mp hu
  rcases mem_eraseIdx_or hd hx with rfl | hx
  · exact .inl rfl
  · exact .inr (mem_map_of_mem hx)

variable {e : Event} {l l' : Log} {r r' : Stage} {a : RunAction}

theorem Log.tryDevice_grows (l : Log) (d : Send) : l.Grows (l.tryDevice d) := by
  unfold Log.tryDevice
  split_ifs
  · exact .refl l
  · exact ⟨le_bump d.userId l.pushes, fun _ => le_rfl⟩

theorem Log.tryDevice_pos {d : Send} (h : d.Sound e l) :
    0 < (l.tryDevice d).pushes d.userId := by
  unfold Log.tryDevice
  split_ifs with hreached
  · exact h.reached hreached
  · simp only [bump_self]
    omega

/-- The log keeps what it says. -/
theorem Log.Sound.tryDevice (h : l.Sound) (d : Send) : (l.tryDevice d).Sound := by
  have hgrows := l.tryDevice_grows d
  unfold Log.tryDevice at hgrows ⊢
  split_ifs at hgrows ⊢
  · exact h
  · exact ⟨fun u hu => (h.push u hu).trans_le (hgrows.push u), h.email⟩

/-- What a step of a run does: it keeps the log and the run sound, and only adds to the counts. -/
structure Kept (e : Event) (l l' : Log) (r' : Stage) : Prop where
  log : l'.Sound
  stage : r'.Sound e l'
  grows : l.Grows l'

theorem kept_filterFresh (hl : l.Sound) :
    Kept e l l (.pushing (e.recipients.filter (fun u => u ∉ l.pushRows)) []
      (e.recipients.filter (fun u => u ∉ l.pushRows)) []) := by
  have hmem : ∀ u ∈ e.recipients.filter (fun u => u ∉ l.pushRows), u ∈ e.recipients :=
    fun u hu => (mem_filter.mp hu).1
  refine ⟨hl, ⟨⟨hmem, fun u hu hnot => hl.push u ?_⟩, hmem, ?_, ?_⟩, .refl l⟩
  · by_contra hrow
    exact hnot (mem_filter.mpr ⟨hu, by simpa using hrow⟩)
  · simp
  · exact fun u hu => .inr (.inl hu)

section Pushing

variable {fresh missed rest : List String} {batch : List Send} {j : ℕ} {d : Send}

theorem kept_nextChunk (hl : l.Sound) (h : Stage.Sound e l (.pushing fresh missed rest [])) :
    Kept e l l
      (.pushing fresh missed (rest.drop CHUNK) ((rest.take CHUNK).map (Send.begin e))) := by
  obtain ⟨hfresh, hrest, -, hall⟩ := h
  refine ⟨hl, ⟨hfresh, fun u hu => hrest u (mem_of_mem_drop hu), ?_, fun u hu => ?_⟩, .refl l⟩
  · rw [forall_mem_map]
    intro u hu
    exact ⟨hrest u (mem_of_mem_take hu), (nomatch ·), fun _ => rfl, (nomatch ·)⟩
  · rcases hall u hu with hsettled | hmem | hnone
    · exact .inl hsettled
    · rw [← take_append_drop CHUNK rest, mem_append] at hmem
      have htaken : ((rest.take CHUNK).map (Send.begin e)).map Send.userId = rest.take CHUNK := by
        rw [map_map]
        exact map_id _
      rw [htaken]
      exact .inr hmem.symm
    · simp at hnone

theorem kept_push (hl : l.Sound) (h : Stage.Sound e l (.pushing fresh missed rest batch))
    (hd : batch[j]? = some d) :
    Kept e l (l.tryDevice d) (.pushing fresh missed rest
      (batch.set j { d with left := d.left - 1, reached := true, logging := true })) := by
  obtain ⟨hfresh, hrest, hbatch, hall⟩ := h
  have hsound := hbatch d (mem_of_getElem? hd)
  have hgrows := l.tryDevice_grows d
  refine ⟨hl.tryDevice d, ⟨hfresh.grows hgrows, hrest, forall_mem_set ?_ ?_, fun u hu => ?_⟩,
    hgrows⟩
  · exact fun x hx => (hbatch x hx).grows hgrows
  · exact ⟨hsound.recipient, fun _ => Log.tryDevice_pos hsound, (nomatch ·), fun _ => rfl⟩
  · rw [map_set_eq hd (by rfl)]
    exact (hall u hu).imp_left fun hsettled => hsettled.grows hgrows

theorem kept_logPush (hl : l.Sound) (h : Stage.Sound e l (.pushing fresh missed rest batch))
    (hd : batch[j]? = some d) (hlogging : d.logging = true) (ok : Bool) :
    Kept e l { l with pushRows := if ok then d.userId :: l.pushRows else l.pushRows }
      (.pushing fresh missed rest (batch.set j { d with logging := false })) := by
  obtain ⟨hfresh, hrest, hbatch, hall⟩ := h
  have hsound := hbatch d (mem_of_getElem? hd)
  have hgrows : l.Grows { l with pushRows := if ok then d.userId :: l.pushRows else l.pushRows } :=
    ⟨fun _ => le_rfl, fun _ => le_rfl⟩
  refine ⟨⟨fun u hu => ?_, hl.email⟩, ⟨hfresh.grows hgrows, hrest, forall_mem_set ?_ ?_,
    fun u hu => ?_⟩, hgrows⟩
  · cases ok with
    | false => exact hl.push u hu
    | true =>
      rcases mem_cons.mp hu with rfl | hu
      · exact hsound.reached (hsound.logging hlogging)
      · exact hl.push u hu
  · exact fun x hx => (hbatch x hx).grows hgrows
  · exact ⟨hsound.recipient, hsound.reached, hsound.unreached, (nomatch ·)⟩
  · rw [map_set_eq hd (by rfl)]
    exact (hall u hu).imp_left fun hsettled => hsettled.grows hgrows

/-- A send leaves the chunk whose user is settled then. -/
theorem sound_eraseIdx (h : Stage.Sound e l (.pushing fresh missed rest batch))
    (hd : batch[j]? = some d) {missed' : List String} (hmissed : ∀ u ∈ missed, u ∈ missed')
    (hsettled : Settled e l missed' d.userId) :
    Stage.Sound e l (.pushing fresh missed' rest (batch.eraseIdx j)) := by
  obtain ⟨hfresh, hrest, hbatch, hall⟩ := h
  refine ⟨hfresh, hrest, fun x hx => hbatch x (mem_of_mem_eraseIdx hx), fun u hu => ?_⟩
  rcases hall u hu with hdone | hmem | hmem
  · exact .inl fun hdevices => (hdone hdevices).imp_right (hmissed u)
  · exact .inr (.inl hmem)
  · rcases mem_map_userId_eraseIdx hd hmem with rfl | hmem
    · exact .inl hsettled
    · exact .inr (.inr hmem)

theorem settled_pushed (h : d.Sound e l) (hleft : d.left = 0) : Settled e l missed d.userId := by
  intro hdevices
  cases hreached : d.reached with
  | true => exact .inl (h.reached hreached)
  | false =>
    have := h.unreached hreached
    omega

end Pushing

section Mailing

variable {fresh missed rest : List String} {users : Bool} {sent : Option String}

theorem kept_filterUnmailed (hl : l.Sound) (h : Stage.Sound e l (.loaded fresh missed users)) :
    Kept e l l (.mailing fresh missed users
      ((fresh.filter (fun u => u ∉ l.emailRows)).filter (fun u => users && e.email u)) none) := by
  obtain ⟨hfresh, hsettled⟩ := h
  refine ⟨hl, ⟨hfresh, hsettled, fun u hu => ?_, fun _ => (nomatch ·), fun husers u hu hemail => ?_⟩,
    .refl l⟩
  · exact hfresh.recipients u (mem_filter.mp (mem_filter.mp hu).1).1
  · by_cases hrow : u ∈ l.emailRows
    · exact .inl (hl.email u hrow)
    · simp [hu, hrow, husers, hemail]

theorem kept_email (hl : l.Sound)
    (h : Stage.Sound e l (.mailing fresh missed users (u :: rest) none)) (ok : Bool) :
    Kept e l { l with emails := bump u l.emails }
      (.mailing fresh missed users rest (if ok then some u else none)) := by
  obtain ⟨hfresh, hsettled, hrest, -, hall⟩ := h
  have hgrows : l.Grows { l with emails := bump u l.emails } :=
    ⟨fun _ => le_rfl, le_bump u l.emails⟩
  have hpos : 0 < bump u l.emails u := by
    rw [bump_self]
    omega
  refine ⟨⟨hl.push, fun v hv => (hl.email v hv).trans_le (hgrows.email v)⟩, ⟨hfresh.grows hgrows,
    fun v hv => (hsettled v hv).grows hgrows, fun v hv => hrest v (mem_cons_of_mem u hv), ?_,
    fun husers v hv hemail => ?_⟩, hgrows⟩
  · intro v hv
    obtain rfl : u = v := by cases ok <;> simp_all
    exact hpos
  · rcases hall husers v hv hemail with hmailed | hmem
    · exact .inl (hmailed.trans_le (hgrows.email v))
    · rcases mem_cons.mp hmem with rfl | hmem
      · exact .inl hpos
      · exact .inr hmem

theorem kept_logEmail (hl : l.Sound)
    (h : Stage.Sound e l (.mailing fresh missed users rest (some u))) (ok : Bool) :
    Kept e l { l with emailRows := if ok then u :: l.emailRows else l.emailRows }
      (.mailing fresh missed users rest none) := by
  obtain ⟨hfresh, hsettled, hrest, hsent, hall⟩ := h
  have hgrows : l.Grows { l with emailRows := if ok then u :: l.emailRows else l.emailRows } :=
    ⟨fun _ => le_rfl, fun _ => le_rfl⟩
  refine ⟨⟨hl.push, fun v hv => ?_⟩, ⟨hfresh.grows hgrows, fun v hv => (hsettled v hv).grows hgrows,
    hrest, fun _ => (nomatch ·), hall⟩, hgrows⟩
  cases ok with
  | false => exact hl.email v hv
  | true =>
    rcases mem_cons.mp hv with rfl | hv
    · exact hsent _ rfl
    · exact hl.email v hv

end Mailing

theorem advance_kept (hl : l.Sound) (hr : r.Sound e l) (h : advance e l r a = some (l', r')) :
    Kept e l l' r' := by
  unfold advance at h
  split at h
  · cases h
    exact kept_filterFresh hl
  · cases h
    exact kept_nextChunk hl hr
  · split at h
    · rename_i hd
      split_ifs at h
      cases h
      exact kept_push hl hr hd
    · cases h
  · split at h
    · rename_i hd
      obtain ⟨hlogging, h⟩ := Option.ite_none_right_eq_some.mp h
      cases h
      exact kept_logPush hl hr hd hlogging _
    · cases h
  · split at h
    · rename_i hd
      split_ifs at h
      cases h
      exact ⟨hl, sound_eraseIdx hr hd (fun u hu => mem_cons_of_mem _ hu)
        fun _ => .inr mem_cons_self, .refl l⟩
    · cases h
  · split at h
    · rename_i d hd
      split_ifs at h with hdone
      cases h
      exact ⟨hl, sound_eraseIdx hr hd (fun _ hu => hu)
        (settled_pushed (hr.2.2.1 d (mem_of_getElem? hd)) hdone.2), .refl l⟩
    · cases h
  · cases h
    obtain ⟨hfresh, -, -, hall⟩ := hr
    exact ⟨hl, ⟨hfresh, fun u hu => by simpa using hall u hu⟩, .refl l⟩
  · cases h
    exact ⟨hl, hr, .refl l⟩
  · cases h
    exact kept_filterUnmailed hl hr
  · cases h
    exact kept_email hl hr _
  · cases h
    exact kept_logEmail hl hr _
  · cases h

/-- What a step of a run attempts. -/
theorem advance_push {j : ℕ} (h : advance e l r (.push j) = some (l', r')) :
    ∃ fresh missed rest batch d, r = .pushing fresh missed rest batch ∧ batch[j]? = some d ∧
      l' = l.tryDevice d := by
  unfold advance at h
  split at h
  case h_3 heq =>
    cases heq
    split at h
    · rename_i hd
      obtain ⟨-, h⟩ := Option.ite_none_right_eq_some.mp h
      cases h
      exact ⟨_, _, _, _, _, rfl, hd, rfl⟩
    · cases h
  case h_12 => cases h
  all_goals
    rename_i heq
    cases heq

theorem advance_email {ok : Bool} (h : advance e l r (.email ok) = some (l', r')) :
    ∃ fresh missed users u rest, r = .mailing fresh missed users (u :: rest) none ∧
      l' = { l with emails := bump u l.emails } := by
  unfold advance at h
  split at h
  case h_10 heq =>
    cases heq
    cases h
    exact ⟨_, _, _, _, _, rfl, rfl⟩
  case h_12 => cases h
  all_goals
    rename_i heq
    cases heq

theorem advance_other (hpush : ∀ j, a ≠ .push j) (hemail : ∀ ok, a ≠ .email ok)
    (h : advance e l r a = some (l', r')) : l'.pushes = l.pushes ∧ l'.emails = l.emails := by
  unfold advance at h
  split at h
  case h_3 => exact absurd rfl (hpush _)
  case h_10 => exact absurd rfl (hemail _)
  all_goals
    (repeat' split at h) <;> cases h <;> exact ⟨rfl, rfl⟩

/-! ## Each step of the machine -/

variable {s t : State}

structure Sound (e : Event) (s : State) : Prop where
  log : s.log.Sound
  runs : ∀ r ∈ s.runs, r.Sound e s.log

theorem sound_step (h : Sound e s) (ht : step e s act = some t) : Sound e t := by
  cases act with
  | start =>
    cases ht
    exact ⟨h.log, forall_mem_append_singleton h.runs trivial⟩
  | act i a =>
    simp only [step] at ht
    split at ht
    · rename_i hr
      split at ht
      · rename_i hadvance
        cases ht
        have hkept := advance_kept h.log (h.runs _ (mem_of_getElem? hr)) hadvance
        refine ⟨hkept.log, forall_mem_set ?_ hkept.stage⟩
        exact fun r hr => (h.runs r hr).grows hkept.grows
      · cases ht
    · cases ht
  | crash i =>
    simp only [step, Option.ite_none_right_eq_some] at ht
    obtain ⟨-, ht⟩ := ht
    cases ht
    exact ⟨h.log, fun r hr => h.runs r (mem_of_mem_eraseIdx hr)⟩
  | complete i =>
    simp only [step] at ht
    split at ht
    · cases ht
      exact ⟨h.log, fun r hr => h.runs r (mem_of_mem_eraseIdx hr)⟩
    · cases ht

theorem ExactlyOnce.of_eq (h : ExactlyOnce e s) (hpushes : t.log.pushes = s.log.pushes)
    (hemails : t.log.emails = s.log.emails) (hcompleted : t.completed = s.completed) :
    ExactlyOnce e t := by
  refine ⟨?_, ?_, ?_, ?_⟩
  · rw [hpushes]
    exact h.push
  · rw [hemails]
    exact h.email
  · rw [hpushes, hcompleted]
    exact h.everyPush
  · rw [hemails, hcompleted]
    exact h.everyEmail

/-- A push leaves the event sent once when it is the first one to the user. -/
theorem exactlyOnce_push (h : ExactlyOnce e s) (hmem : userId ∈ e.recipients)
    (hpushes : t.log.pushes = bump userId s.log.pushes) (hemails : t.log.emails = s.log.emails)
    (hcompleted : t.completed = s.completed) : ExactlyOnce e t ↔ (s.log.pushes userId = 0) := by
  constructor
  · intro ht
    have hpush := ht.push userId hmem
    rw [hpushes, bump_self] at hpush
    omega
  · intro hzero
    refine ⟨fun u hu => ?_, ?_, fun hdone u hu hdevices => ?_, ?_⟩
    · rw [hpushes, bump_apply]
      have hpush := h.push u hu
      split_ifs with heq
      · subst heq
        omega
      · exact hpush
    · rw [hemails]
      exact h.email
    · have hone := h.everyPush (hcompleted ▸ hdone) u hu hdevices
      rw [hpushes, bump_apply, if_neg]
      · exact hone
      · rintro rfl
        omega
    · rw [hemails, hcompleted]
      exact h.everyEmail

/-- An e-mail leaves the event sent once when it is the first one to the user. -/
theorem exactlyOnce_email (h : ExactlyOnce e s) (hmem : userId ∈ e.recipients)
    (hpushes : t.log.pushes = s.log.pushes) (hemails : t.log.emails = bump userId s.log.emails)
    (hcompleted : t.completed = s.completed) : ExactlyOnce e t ↔ (s.log.emails userId = 0) := by
  constructor
  · intro ht
    have hemail := ht.email userId hmem
    rw [hemails, bump_self] at hemail
    omega
  · intro hzero
    refine ⟨?_, fun u hu => ?_, ?_, fun hdone u hu haddress => ?_⟩
    · rw [hpushes]
      exact h.push
    · rw [hemails, bump_apply]
      have hemail := h.email u hu
      split_ifs with heq
      · subst heq
        omega
      · exact hemail
    · rw [hpushes, hcompleted]
      exact h.everyPush
    · have hone := h.everyEmail (hcompleted ▸ hdone) u hu haddress
      rw [hemails, bump_apply, if_neg]
      · exact hone
      · rintro rfl
        omega

theorem exactlyOnce_complete (hs : Sound e s) (h : ExactlyOnce e s)
    (ht : step e s (.complete i) = some t) : ExactlyOnce e t ↔ Needed e s (.complete i) := by
  simp only [step] at ht
  split at ht
  · rename_i fresh missed users hr
    cases ht
    obtain ⟨hfresh, hsettled, -, -, hall⟩ := hs.runs _ (mem_of_getElem? hr)
    constructor
    · intro ht fresh' missed' users' hr'
      cases hr.symm.trans hr'
      refine ⟨fun u _ hu hdevices => ?_, fun u hu haddress _ => ?_⟩
      · exact (ht.everyPush rfl u hu hdevices).trans_ne Nat.one_ne_zero
      · exact (ht.everyEmail rfl u hu haddress).trans_ne Nat.one_ne_zero
    · intro hneeded
      obtain ⟨hmissed, hleft⟩ := hneeded fresh missed users hr
      refine ⟨h.push, h.email, fun _ u hu hdevices => ?_, fun _ u hu haddress => ?_⟩
      · refine le_antisymm (h.push u hu) ?_
        by_cases hmem : u ∈ fresh
        · rcases hsettled u hmem hdevices with hpushed | hmiss
          · exact hpushed
          · exact Nat.pos_of_ne_zero (hmissed u hmiss hu hdevices)
        · exact hfresh.others u hu hmem
      · refine le_antisymm (h.email u hu) ?_
        by_cases hmem : u ∈ fresh ∧ users = true
        · rcases hall hmem.2 u hmem.1 haddress with hmailed | hnone
          · exact hmailed
          · cases hnone
        · rw [not_and_or, Bool.not_eq_true] at hmem
          exact Nat.pos_of_ne_zero (hleft u hu haddress hmem)
  · cases ht

theorem exactlyOnce_act (hs : Sound e s) (h : ExactlyOnce e s) (ht : step e s (.act i a) = some t) :
    ExactlyOnce e t ↔ Needed e s (.act i a) := by
  simp only [step] at ht
  split at ht
  · rename_i r hr
    have hsound := hs.runs _ (mem_of_getElem? hr)
    split at ht
    · rename_i log r' hadvance
      cases ht
      cases a with
      | push j =>
        obtain ⟨fresh, missed, rest, batch, d, rfl, hd, rfl⟩ := advance_push hadvance
        have hmem := (hsound.2.2.1 d (mem_of_getElem? hd)).recipient
        cases hreached : d.reached with
        | true =>
          refine iff_of_true (h.of_eq ?_ ?_ ?_) ?_
          · simp [Log.tryDevice, hreached]
          · simp [Log.tryDevice, hreached]
          · rfl
          · rintro _ _ _ _ d' hr' hd' hreached'
            cases hr.symm.trans hr'
            obtain rfl := Option.some.inj (hd.symm.trans hd')
            simp [hreached] at hreached'
        | false =>
          refine (exactlyOnce_push h hmem ?_ ?_ ?_).trans ⟨?_, ?_⟩
          · simp [Log.tryDevice, hreached]
          · simp [Log.tryDevice, hreached]
          · rfl
          · rintro hzero _ _ _ _ d' hr' hd' -
            cases hr.symm.trans hr'
            obtain rfl := Option.some.inj (hd.symm.trans hd')
            exact hzero
          · exact fun hneeded => hneeded fresh missed rest batch d hr hd hreached
      | email ok =>
        obtain ⟨fresh, missed, users, u, rest, rfl, rfl⟩ := advance_email hadvance
        refine (exactlyOnce_email h (hsound.2.2.1 u mem_cons_self) ?_ ?_ ?_).trans ⟨?_, ?_⟩
        · rfl
        · rfl
        · rfl
        · rintro hzero _ _ _ _ _ hr'
          cases hr.symm.trans hr'
          exact hzero
        · exact fun hneeded => hneeded fresh missed users u rest hr
      | _ =>
        obtain ⟨hpushes, hemails⟩ := advance_other (by simp) (by simp) hadvance
        exact iff_of_true (h.of_eq hpushes hemails rfl) trivial
    · cases ht
  · cases ht

theorem exactlyOnce_step (hs : Sound e s) (h : ExactlyOnce e s) (ht : step e s act = some t) :
    ExactlyOnce e t ↔ Needed e s act := by
  cases act with
  | start =>
    cases ht
    exact iff_of_true (h.of_eq rfl rfl rfl) trivial
  | act i a => exact exactlyOnce_act hs h ht
  | crash i =>
    simp only [step, Option.ite_none_right_eq_some] at ht
    obtain ⟨-, ht⟩ := ht
    cases ht
    exact iff_of_true (h.of_eq rfl rfl rfl) trivial
  | complete i => exact exactlyOnce_complete hs h ht

/-! ## Whole runs -/

theorem sound_start (e : Event) : Sound e start :=
  ⟨⟨fun _ => (nomatch ·), fun _ => (nomatch ·)⟩, fun _ => (nomatch ·)⟩

theorem exactlyOnce_start (e : Event) : ExactlyOnce e start :=
  ⟨fun _ _ => Nat.zero_le 1, fun _ _ => Nat.zero_le 1, (nomatch ·), (nomatch ·)⟩

/-- In a run of workers the event is sent exactly once exactly when the steps meet the condition. -/
theorem exactlyOnce_iff {as : List Action} (hrun : Machine.run (step e) start as = some t) :
    Machine.Always (step e) (ExactlyOnce e) start as ↔
      Machine.Meets (step e) (Needed e) start as := by
  rw [Machine.always_iff_each, and_iff_right (exactlyOnce_start e)]
  refine Machine.each_iff_meets (I := fun s => Sound e s ∧ ExactlyOnce e s) ?_ ?_
    ⟨sound_start e, exactlyOnce_start e⟩ hrun
  · rintro s act t ⟨hs, h⟩ hneeded ht
    exact ⟨sound_step hs ht, (exactlyOnce_step hs h ht).mpr hneeded⟩
  · rintro s act t ⟨hs, h⟩ ht
    exact exactlyOnce_step hs h ht

/-! ## Runs of one and of two workers -/

/-- One recipient, with a device and an address. -/
def oneRecipient : Event :=
  { recipients := ["u"]
    devices := fun _ => 1
    email := fun _ => true }

/-- A job that completes, and another run for the same event. -/
def retriggered : List Action :=
  [.start,
    .act 0 .filterFresh,
    .act 0 .nextChunk,
    .act 0 (.push 0),
    .act 0 (.logPush 0 true),
    .act 0 (.pushed 0),
    .act 0 .allPushed,
    .act 0 (.loadUsers true),
    .act 0 .filterUnmailed,
    .act 0 (.email true),
    .act 0 (.logEmail true),
    .complete 0,
    .start,
    .act 0 .filterFresh,
    .act 0 .allPushed,
    .act 0 (.loadUsers true),
    .act 0 .filterUnmailed,
    .complete 0]

theorem retriggered_exactlyOnce :
    ∃ t, Machine.run (step oneRecipient) start retriggered = some t ∧
      Machine.Always (step oneRecipient) (ExactlyOnce oneRecipient) start retriggered := by
  refine ⟨_, rfl, (exactlyOnce_iff rfl).mpr ?_⟩
  simp [retriggered, Machine.Meets, step, advance, Needed, start, oneRecipient, CHUNK, Send.begin,
    Log.tryDevice, bump]

/-- A worker stops after the push row is written; the retry finds nobody fresh. -/
def stoppedRun : List Action :=
  [.start,
    .act 0 .filterFresh,
    .act 0 .nextChunk,
    .act 0 (.push 0),
    .act 0 (.logPush 0 true),
    .crash 0,
    .start,
    .act 0 .filterFresh,
    .act 0 .allPushed,
    .act 0 (.loadUsers true),
    .act 0 .filterUnmailed,
    .complete 0]

theorem retry_sends_no_email :
    ∃ t, Machine.run (step oneRecipient) start stoppedRun = some t ∧ t.completed = true ∧
      t.log.pushes "u" = 1 ∧ t.log.emails "u" = 0 ∧ ¬ ExactlyOnce oneRecipient t := by
  refine ⟨_, rfl, rfl, rfl, rfl, fun h => ?_⟩
  have hone := h.everyEmail rfl "u" List.mem_cons_self rfl
  exact absurd (show 0 = 1 from hone) (by simp)

end FestivalPlanner.Reengagement
