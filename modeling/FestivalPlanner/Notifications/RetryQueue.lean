import FestivalPlanner.Lib.Machine
import Mathlib.Algebra.GroupWithZero.Nat
import Mathlib.Data.List.Nodup
import Mathlib.Data.List.Infix

/-!
# The retry queue of failed pushes

`createRetryQueue` keeps the pushes that failed.  A timer starts a drain, which takes at most ten
entries from the queue and awaits their send functions one after the other; while it waits, entries
are added and the queue may be shut down.  What a send function throws decides whether its entry is
put back.

* `Thrown` — what a send function throws, and how its code is searched;
* `step` — an entry is added, the timer fires, the awaited send settles, the queue is shut down;
* `Keeps` — the promises: bounds on entries, sends and ages, a drain to come, and an end;
* `Regular` — the condition on a step: what is put back fits, and nothing comes too late;
* `retryQueue_keeps` — runs of such steps keep the promises.
-/

namespace FestivalPlanner.RetryQueue

open List

/-! ## What a send function throws -/

/-- The `code` of a thrown value, by what `code || ''` and `includes` do with it. -/
inductive Code
  /-- `undefined`, `null`, `0` and the like. -/
  | falsy
  | text (s : String)
  /-- An array or another object with a method `includes`. -/
  | searchable (includes : String → Bool)
  /-- A number or anything else that is not falsy and has no such method. -/
  | other

inductive Thrown
  /-- `null` and `undefined` have no properties. -/
  | nullish
  | value (code : Code)

/-- `code.includes(part)`, unless it throws. -/
def Code.includes (part : String) : Code → Option Bool
  | falsy => some false
  | text s => some (decide (part.toList <:+: s.toList))
  | searchable includes => some (includes part)
  | other => none

def Code.unretriable (code : Code) : Option Bool := do
  if ← code.includes "not-registered" then return true
  if ← code.includes "invalid-registration" then return true
  code.includes "invalid-argument"

/-- Whether the entry is given up for the code; `none` when the handler itself throws. -/
def Thrown.unretriable : Thrown → Option Bool
  | nullish => none
  | value code => code.unretriable

inductive Outcome
  | resolved
  | thrown (err : Thrown)

/-! ## The queue -/

structure Entry where
  /-- Which call of `enqueue` made the entry. -/
  id : ℕ
  userId : String
  retries : ℕ
  enqueuedAt : ℤ
  deriving DecidableEq

/-- A call of a send function, and whether the queue had been shut down before it. -/
structure Send where
  id : ℕ
  enqueuedAt : ℤ
  now : ℤ
  closed : Bool

structure State where
  queue : List Entry
  draining : Bool
  /-- The delay of the timer that is armed. -/
  drainTimer : Option ℕ
  /-- The entry whose send function a drain awaits, and the rest of the batch. -/
  running : Option (Entry × List Entry)
  next : ℕ
  sends : List Send
  closed : Bool

def State.initial : State where
  queue := []
  draining := false
  drainTimer := none
  running := none
  next := 0
  sends := []
  closed := false

inductive Action
  | enqueue (userId : String) (retries : Option ℕ) (now : ℤ)
  | timer (now : ℤ)
  | settle (outcome : Outcome) (now : ℤ)
  | shutdown

def maxPending : ℕ := 500

def batchSize : ℕ := 10

namespace State

def scheduleDrain (s : State) : State :=
  if s.drainTimer.isSome || s.draining then s
  else { s with drainTimer := some (min (2000 * 2 ^ (s.queue.head?.elim 0 Entry.retries)) 30000) }

def enqueue (userId : String) (retries : Option ℕ) (now : ℤ) (s : State) : State :=
  let entry : Entry := ⟨s.next, userId, retries.getD 0, now⟩
  let queue := if maxPending ≤ s.queue.length then s.queue.tail else s.queue
  let t := { s with
    queue := queue ++ [entry]
    next := s.next + 1 }
  t.scheduleDrain

end State

/-- The entries of the next batch and those that stay, without the ones that have aged out. -/
@[grind =] def takeBatch (maxAgeMs now : ℤ) : ℕ → List Entry → List Entry × List Entry
  | 0, queue => ([], queue)
  | _ + 1, [] => ([], [])
  | room + 1, e :: queue =>
      if maxAgeMs < now - e.enqueuedAt then takeBatch maxAgeMs now (room + 1) queue
      else
        let (batch, rest) := takeBatch maxAgeMs now room queue
        (e :: batch, rest)

namespace State

/-- The next turn of the loop over the batch, or the end of the drain. -/
def sendNext (now : ℤ) (batch : List Entry) (s : State) : State :=
  match batch with
  | [] =>
      let t := { s with
        draining := false
        running := none }
      if t.queue ≠ [] then t.scheduleDrain else t
  | e :: rest => { s with
      running := some (e, rest)
      sends := s.sends ++ [⟨e.id, e.enqueuedAt, now, s.closed⟩] }

def drain (maxAgeMs now : ℤ) (s : State) : State :=
  if s.draining || s.queue.isEmpty then s
  else
    let (batch, queue) := takeBatch maxAgeMs now batchSize s.queue
    let t := { s with
      draining := true
      queue := queue }
    t.sendNext now batch

def requeue (maxRetries : ℕ) (e : Entry) (s : State) : State :=
  if e.retries < maxRetries then
    { s with queue := s.queue ++ [{ e with retries := e.retries + 1 }] }
  else s

/-- The awaited send has settled. -/
def settle (maxRetries : ℕ) (outcome : Outcome) (now : ℤ) (e : Entry) (rest : List Entry)
    (s : State) : State :=
  match outcome with
  | .resolved => s.sendNext now rest
  | .thrown err =>
      match err.unretriable with
      -- the drain rejects in the handler: the flag stays set
      | none => { s with running := none }
      | some true => s.sendNext now rest
      | some false => (s.requeue maxRetries e).sendNext now rest

def shutdown (s : State) : State :=
  { s with
    drainTimer := none
    queue := []
    closed := true }

end State

def step (maxRetries : ℕ) (maxAgeMs : ℤ) (s : State) : Action → Option State
  | .enqueue userId retries now => some (s.enqueue userId retries now)
  | .timer now =>
      match s.drainTimer with
      | none => none
      | some _ =>
          let t := { s with drainTimer := none }
          some (t.drain maxAgeMs now)
  | .settle outcome now =>
      match s.running with
      | none => none
      | some (e, rest) => some (s.settle maxRetries outcome now e rest)
  | .shutdown => some s.shutdown

/-! ## The promises -/

/-- How often the send function of an entry has been called. -/
def State.sendsOf (s : State) (id : ℕ) : ℕ := s.sends.countP fun x => x.id = id

structure Keeps (maxRetries : ℕ) (maxAgeMs : ℤ) (s : State) : Prop where
  bounded : s.queue.length ≤ maxPending
  sends : ∀ id, s.sendsOf id ≤ maxRetries
  young : ∀ x ∈ s.sends, x.now - x.enqueuedAt ≤ maxAgeMs
  live : s.queue ≠ [] → s.drainTimer.isSome = true ∨ s.running.isSome = true
  closed : (∀ x ∈ s.sends, x.closed = false) ∧ (s.closed = true → s.drainTimer = none)

/-- The entry is put back when its send settles so. -/
def Outcome.putsBack (maxRetries : ℕ) (e : Entry) : Outcome → Bool
  | .resolved => false
  | .thrown err => err.unretriable = some false ∧ e.retries < maxRetries

/-- The handler of what is thrown does not throw itself. -/
def Outcome.Readable : Outcome → Prop
  | .resolved => True
  | .thrown err => err.unretriable.isSome = true

instance : ∀ outcome : Outcome, Decidable outcome.Readable
  | .resolved => .isTrue trivial
  | .thrown err => inferInstanceAs (Decidable (err.unretriable.isSome = true))

/-- When the awaited send settles, what was thrown can be read; an entry that is put back finds room
in the queue and another retry; the next entry of the batch has not grown too old meanwhile; and
after a shutdown nothing is left of the batch and nothing is put back. -/
structure RegularSettle (maxRetries : ℕ) (maxAgeMs : ℤ) (s : State) (e : Entry)
    (rest : List Entry) (outcome : Outcome) (now : ℤ) : Prop where
  readable : outcome.Readable
  room : outcome.putsBack maxRetries e = true → s.queue.length < maxPending
  again : outcome.putsBack maxRetries e = true → e.retries + 1 < maxRetries
  young : ∀ x ∈ rest.head?, now - x.enqueuedAt ≤ maxAgeMs
  finished : s.closed = true → rest = [] ∧ outcome.putsBack maxRetries e = false

instance (maxRetries : ℕ) (maxAgeMs : ℤ) (s : State) (e : Entry) (rest : List Entry)
    (outcome : Outcome) (now : ℤ) :
    Decidable (RegularSettle maxRetries maxAgeMs s e rest outcome now) :=
  decidable_of_iff (outcome.Readable ∧
      (outcome.putsBack maxRetries e = true → s.queue.length < maxPending) ∧
      (outcome.putsBack maxRetries e = true → e.retries + 1 < maxRetries) ∧
      (∀ x ∈ rest.head?, now - x.enqueuedAt ≤ maxAgeMs) ∧
      (s.closed = true → rest = [] ∧ outcome.putsBack maxRetries e = false))
    ⟨fun ⟨h₁, h₂, h₃, h₄, h₅⟩ => ⟨h₁, h₂, h₃, h₄, h₅⟩,
      fun ⟨h₁, h₂, h₃, h₄, h₅⟩ => ⟨h₁, h₂, h₃, h₄, h₅⟩⟩

def Regular (maxRetries : ℕ) (maxAgeMs : ℤ) (s : State) : Action → Prop
  | .enqueue _ _ _ => s.closed = false ∧ 0 < maxRetries
  | .settle outcome now =>
      match s.running with
      | none => True
      | some (e, rest) => RegularSettle maxRetries maxAgeMs s e rest outcome now
  | _ => True

instance (maxRetries : ℕ) (maxAgeMs : ℤ) (s : State) :
    ∀ a, Decidable (Regular maxRetries maxAgeMs s a)
  | .enqueue _ _ _ => inferInstanceAs (Decidable (s.closed = false ∧ 0 < maxRetries))
  | .settle outcome now =>
      match h : s.running with
      | none => .isTrue (by simp [Regular, h])
      | some (e, rest) =>
          decidable_of_iff (RegularSettle maxRetries maxAgeMs s e rest outcome now)
            (by simp [Regular, h])
  | .timer _ => .isTrue trivial
  | .shutdown => .isTrue trivial

/-! ## Between two sends -/

/-- The entries that wait to be sent, those of the batch and those of the queue, have been sent as
often as they were put back, and may be sent again. -/
structure Ready (maxRetries : ℕ) (maxAgeMs : ℤ) (s : State) (rest : List Entry) : Prop where
  bounded : s.queue.length ≤ maxPending
  ids : ((rest ++ s.queue).map Entry.id).Nodup
  fresh : ∀ e ∈ rest ++ s.queue, e.id < s.next
  waits : ∀ e ∈ rest ++ s.queue, s.sendsOf e.id ≤ e.retries ∧ s.sendsOf e.id < maxRetries
  known : ∀ x ∈ s.sends, x.id < s.next
  capped : ∀ id, s.sendsOf id ≤ maxRetries
  young : ∀ x ∈ s.sends, x.now - x.enqueuedAt ≤ maxAgeMs
  before : ∀ x ∈ s.sends, x.closed = false
  finished : s.closed = true → s.queue = []

/-- The entry that is awaited has left the queue and has been sent once more. -/
structure Awaited (s : State) (e : Entry) (rest : List Entry) : Prop where
  fresh : e.id < s.next
  left : ∀ x ∈ rest ++ s.queue, x.id ≠ e.id
  tried : s.sendsOf e.id ≤ e.retries + 1

/-- A drain runs, or one will as long as something is pending. -/
def Progress (s : State) : Option (Entry × List Entry) → Prop
  | none => s.draining = false ∧ (s.queue ≠ [] → s.drainTimer.isSome = true)
  | some (e, rest) => s.draining = true ∧ Awaited s e rest

structure Sound (maxRetries : ℕ) (maxAgeMs : ℤ) (s : State) : Prop where
  ready : Ready maxRetries maxAgeMs s (s.running.elim [] Prod.snd)
  progress : Progress s s.running
  idle : s.closed = true → s.drainTimer = none

variable {maxRetries : ℕ} {maxAgeMs now : ℤ} {s t : State} {e : Entry} {rest batch : List Entry}

theorem Ready.of_sublist (h : Ready maxRetries maxAgeMs s rest)
    (hsub : (batch ++ t.queue).Sublist (rest ++ s.queue)) (hlength : t.queue.length ≤ maxPending)
    (hnext : t.next = s.next) (hsends : t.sends = s.sends) (hover : t.closed = true → t.queue = []) :
    Ready maxRetries maxAgeMs t batch where
  bounded := hlength
  ids := h.ids.sublist (hsub.map _)
  fresh e he := by
    rw [hnext]
    exact h.fresh e (hsub.subset he)
  waits e he := by
    rw [State.sendsOf, hsends]
    exact h.waits e (hsub.subset he)
  known := by
    rw [hsends, hnext]
    exact h.known
  capped id := by
    rw [State.sendsOf, hsends]
    exact h.capped id
  young := by
    rw [hsends]
    exact h.young
  before := by
    rw [hsends]
    exact h.before
  finished := hover

/-- After it, a timer is armed or a drain runs. -/
theorem scheduleDrain_cases (s : State) :
    s.scheduleDrain = s ∧ (s.drainTimer.isSome = true ∨ s.draining = true) ∨
      ∃ delay, s.scheduleDrain = { s with drainTimer := some delay } := by
  unfold State.scheduleDrain
  split_ifs with h
  · exact .inl ⟨rfl, by simpa using h⟩
  · exact .inr ⟨_, rfl⟩

/-- To schedule a drain is enough for the progress. -/
theorem Ready.scheduled (h : Ready maxRetries maxAgeMs s (s.running.elim [] Prod.snd))
    (hidle : s.running = none → s.draining = false)
    (hawaits : ∀ e rest, s.running = some (e, rest) → s.draining = true ∧ Awaited s e rest)
    (hopen : s.closed = false) : Sound maxRetries maxAgeMs s.scheduleDrain := by
  have hclosed : s.closed ≠ true := by simp [hopen]
  rcases scheduleDrain_cases s with ⟨hsame, harmed⟩ | ⟨delay, hdelay⟩
  · rw [hsame]
    refine ⟨h, ?_, fun hc => absurd hc hclosed⟩
    cases hrunning : s.running with
    | none =>
      have hflag := hidle hrunning
      refine ⟨hflag, fun _ => ?_⟩
      simpa [hflag] using harmed
    | some current => exact hawaits current.1 current.2 hrunning
  · rw [hdelay]
    refine ⟨?_, ?_, fun hc => absurd hc hclosed⟩
    · exact h.of_sublist (List.Sublist.refl _) h.bounded rfl rfl h.finished
    · cases hrunning : s.running with
      | none => exact ⟨hidle hrunning, fun _ => rfl⟩
      | some current =>
        obtain ⟨hflag, hawaited⟩ := hawaits current.1 current.2 hrunning
        exact ⟨hflag, hawaited.fresh, hawaited.left, hawaited.tried⟩

theorem sendsOf_concat (s : State) (x : Send) (id : ℕ) :
    { s with sends := s.sends ++ [x] }.sendsOf id = s.sendsOf id + if x.id = id then 1 else 0 := by
  simp [State.sendsOf, countP_append, countP_singleton]

/-- The next send of a batch, or the end of the drain. -/
theorem Ready.sendNext (h : Ready maxRetries maxAgeMs s batch) (hdraining : s.draining = true)
    (hidle : s.closed = true → s.drainTimer = none)
    (hyoung : ∀ x ∈ batch.head?, now - x.enqueuedAt ≤ maxAgeMs)
    (hover : s.closed = true → batch = []) :
    Sound maxRetries maxAgeMs (s.sendNext now batch) := by
  cases batch with
  | nil =>
    have hsub : ([] ++ s.queue).Sublist ([] ++ s.queue) := List.Sublist.refl _
    by_cases hempty : s.queue = []
    · have heq : s.sendNext now [] = { s with
          draining := false
          running := none } := by simp [State.sendNext, hempty]
      rw [heq]
      exact ⟨h.of_sublist hsub h.bounded rfl rfl h.finished, ⟨rfl, absurd hempty⟩, hidle⟩
    · have hopen : s.closed = false := by
        by_contra hclosed
        exact hempty (h.finished (by simpa using hclosed))
      have heq : s.sendNext now [] = State.scheduleDrain { s with
          draining := false
          running := none } := by simp [State.sendNext, hempty]
      rw [heq]
      refine Ready.scheduled ?_ (fun _ => rfl) nofun hopen
      exact h.of_sublist hsub h.bounded rfl rfl h.finished
  | cons e rest =>
    have hopen : s.closed = false := by
      by_contra hclosed
      cases hover (by simpa using hclosed)
    obtain ⟨htried, hagain⟩ := h.waits e (mem_cons_self ..)
    have hnotin : ∀ x ∈ rest ++ s.queue, x.id ≠ e.id := by
      intro x hx heq
      have hnodup := h.ids
      rw [cons_append, map_cons, nodup_cons] at hnodup
      exact hnodup.1 (heq ▸ mem_map_of_mem hx)
    have hcount := sendsOf_concat { s with running := some (e, rest) }
      ⟨e.id, e.enqueuedAt, now, s.closed⟩
    change Sound maxRetries maxAgeMs { s with
      running := some (e, rest)
      sends := s.sends ++ [⟨e.id, e.enqueuedAt, now, s.closed⟩] }
    refine ⟨⟨h.bounded, ?_, fun x hx => h.fresh x (mem_cons_of_mem _ hx), ?_, ?_, ?_, ?_, ?_,
      h.finished⟩, ⟨hdraining, h.fresh e (mem_cons_self ..), hnotin, ?_⟩, hidle⟩
    · exact (nodup_cons.mp h.ids).2
    · intro x hx
      rw [hcount, if_neg (Ne.symm (hnotin x hx))]
      exact h.waits x (mem_cons_of_mem _ hx)
    · intro x hx
      rcases mem_append.mp hx with hx | hx
      · exact h.known x hx
      · rw [mem_singleton.mp hx]
        exact h.fresh e (mem_cons_self ..)
    · intro id
      rw [hcount]
      have hcapped := h.capped id
      split_ifs with hid
      · cases hid
        change s.sendsOf e.id + 1 ≤ maxRetries
        omega
      · exact hcapped
    · intro x hx
      rcases mem_append.mp hx with hx | hx
      · exact h.young x hx
      · rw [mem_singleton.mp hx]
        exact hyoung e rfl
    · intro x hx
      rcases mem_append.mp hx with hx | hx
      · exact h.before x hx
      · rw [mem_singleton.mp hx]
        exact hopen
    · rw [hcount, if_pos rfl]
      exact Nat.succ_le_succ htried

/-! ## What every step keeps -/

theorem takeBatch_sublist (maxAgeMs now : ℤ) (room : ℕ) (queue : List Entry) :
    ((takeBatch maxAgeMs now room queue).1 ++ (takeBatch maxAgeMs now room queue).2).Sublist
      queue := by
  induction queue generalizing room with
  | nil => cases room <;> simp [takeBatch]
  | cons e queue ih =>
    cases room with
    | zero => simp [takeBatch]
    | succ room =>
      rw [takeBatch]
      split_ifs
      · exact (ih _).cons _
      · exact (ih room).cons_cons _

theorem takeBatch_young (maxAgeMs now : ℤ) (room : ℕ) (queue : List Entry) :
    ∀ e ∈ (takeBatch maxAgeMs now room queue).1, now - e.enqueuedAt ≤ maxAgeMs := by
  induction queue generalizing room with
  | nil => cases room <;> simp [takeBatch]
  | cons e queue ih =>
    cases room with
    | zero => simp [takeBatch]
    | succ room =>
      rw [takeBatch]
      split_ifs with hold
      · exact ih _
      · intro x hx
        rcases mem_cons.mp hx with rfl | hx
        · exact not_lt.mp hold
        · exact ih room x hx

theorem Ready.drain (h : Ready maxRetries maxAgeMs s []) (hidle : s.draining = false)
    (hrunning : s.running = none) (hclosed : s.closed = true → s.drainTimer = none) (now : ℤ) :
    Sound maxRetries maxAgeMs (s.drain maxAgeMs now) := by
  unfold State.drain
  split_ifs with hskip
  · have hempty : s.queue = [] := by simpa [hidle] using hskip
    refine ⟨?_, ?_, hclosed⟩
    · rw [hrunning]
      exact h
    · rw [hrunning]
      exact ⟨hidle, absurd hempty⟩
  · have hempty : s.queue ≠ [] := by simpa [hidle] using hskip
    have hsub := takeBatch_sublist maxAgeMs now batchSize s.queue
    refine Ready.sendNext (h.of_sublist hsub ?_ rfl rfl ?_) rfl hclosed ?_ ?_
    · exact ((sublist_append_right _ _).trans hsub).length_le.trans h.bounded
    · exact fun hc => absurd (h.finished hc) hempty
    · exact fun x hx => takeBatch_young maxAgeMs now batchSize s.queue x (mem_of_head? hx)
    · exact fun hc => absurd (h.finished hc) hempty

theorem Ready.requeue (h : Ready maxRetries maxAgeMs s rest) (ha : Awaited s e rest)
    (hroom : s.queue.length < maxPending) (hagain : e.retries + 1 < maxRetries)
    (hopen : s.closed = false) :
    Ready maxRetries maxAgeMs { s with queue := s.queue ++ [{ e with retries := e.retries + 1 }] }
      rest := by
  have hlist : rest ++ (s.queue ++ [{ e with retries := e.retries + 1 }]) =
      (rest ++ s.queue) ++ [{ e with retries := e.retries + 1 }] := by simp
  refine ⟨?_, ?_, ?_, ?_, h.known, h.capped, h.young, h.before, ?_⟩
  · simpa using Nat.succ_le_of_lt hroom
  · simp only [hlist, map_append, map_cons, map_nil] at h ⊢
    rw [← map_append, ← concat_eq_append, nodup_concat]
    refine ⟨?_, h.ids⟩
    rintro hmem
    obtain ⟨x, hx, heq⟩ := mem_map.mp hmem
    exact ha.left x hx heq
  · intro x hx
    rw [hlist] at hx
    rcases mem_append.mp hx with hx | hx
    · exact h.fresh x hx
    · rw [mem_singleton.mp hx]
      exact ha.fresh
  · intro x hx
    rw [hlist] at hx
    rcases mem_append.mp hx with hx | hx
    · exact h.waits x hx
    · rw [mem_singleton.mp hx]
      have htried := ha.tried
      exact ⟨htried, lt_of_le_of_lt htried hagain⟩
  · intro hclosed
    rw [hopen] at hclosed
    cases hclosed

theorem Sound.settle (h : Sound maxRetries maxAgeMs s) (hrunning : s.running = some (e, rest))
    {outcome : Outcome} (hregular : RegularSettle maxRetries maxAgeMs s e rest outcome now) :
    Sound maxRetries maxAgeMs (s.settle maxRetries outcome now e rest) := by
  have hready := h.ready
  have hprogress := h.progress
  rw [hrunning] at hready hprogress
  obtain ⟨hdraining, hawaited⟩ := hprogress
  have hover : s.closed = true → rest = [] := fun hclosed => (hregular.finished hclosed).1
  have hnext := hready.sendNext hdraining h.idle hregular.young hover
  cases outcome with
  | resolved => exact hnext
  | thrown err =>
    have hreadable := hregular.readable
    have hputsBack : ∀ b, err.unretriable = some b →
        (Outcome.thrown err).putsBack maxRetries e = (!b && decide (e.retries < maxRetries)) := by
      intro b hb
      cases b <;> simp [Outcome.putsBack, hb]
    simp only [State.settle]
    cases hcode : err.unretriable with
    | none => simp [Outcome.Readable, hcode] at hreadable
    | some giveUp =>
      cases giveUp with
      | true => exact hnext
      | false =>
        change Sound maxRetries maxAgeMs ((s.requeue maxRetries e).sendNext now rest)
        unfold State.requeue
        split_ifs with hretry
        · have hback : (Outcome.thrown err).putsBack maxRetries e = true := by
            simp [hputsBack false hcode, hretry]
          have hopen : s.closed = false := by
            by_contra hclosed
            have := (hregular.finished (by simpa using hclosed)).2
            rw [hback] at this
            cases this
          have hback' := hready.requeue hawaited (hregular.room hback) (hregular.again hback) hopen
          exact hback'.sendNext hdraining h.idle hregular.young hover
        · exact hnext

theorem Sound.enqueue (h : Sound maxRetries maxAgeMs s) (hopen : s.closed = false)
    (hmax : 0 < maxRetries) (userId : String) (retries : Option ℕ) (now : ℤ) :
    Sound maxRetries maxAgeMs (s.enqueue userId retries now) := by
  have hready := h.ready
  set rest := s.running.elim [] Prod.snd with hrest
  set entry : Entry := ⟨s.next, userId, retries.getD 0, now⟩ with hentry
  set queue := if maxPending ≤ s.queue.length then s.queue.tail else s.queue with hqueue
  have hsub : queue.Sublist s.queue := by
    rw [hqueue]
    split_ifs
    · exact tail_sublist _
    · exact List.Sublist.refl _
  have hlength : queue.length < maxPending := by
    rw [hqueue]
    have hbounded := hready.bounded
    have hpos : 0 < maxPending := by decide
    split_ifs with hfull
    · rw [length_tail]
      omega
    · omega
  have hall : (rest ++ queue).Sublist (rest ++ s.queue) := hsub.append_left rest
  have hnone : s.sendsOf s.next = 0 := by
    rw [State.sendsOf, countP_eq_zero]
    intro x hx
    have := hready.known x hx
    simp
    omega
  have hlist : rest ++ (queue ++ [entry]) = (rest ++ queue) ++ [entry] := by simp
  have hids : ∀ x ∈ rest ++ queue, x.id < s.next := fun x hx => hready.fresh x (hall.subset hx)
  have hcases : ∀ x ∈ rest ++ (queue ++ [entry]), x ∈ rest ++ s.queue ∨ x = entry := by
    intro x hx
    rw [hlist] at hx
    rcases mem_append.mp hx with hx | hx
    · exact .inl (hall.subset hx)
    · exact .inr (mem_singleton.mp hx)
  refine Ready.scheduled (s := { s with
    queue := queue ++ [entry]
    next := s.next + 1 }) ⟨?_, ?_, ?_, ?_, ?_, hready.capped, hready.young, hready.before, ?_⟩
    ?_ ?_ hopen
  · simpa using Nat.succ_le_of_lt hlength
  · change ((rest ++ (queue ++ [entry])).map Entry.id).Nodup
    rw [hlist, map_append, map_singleton, ← concat_eq_append, nodup_concat]
    refine ⟨?_, hready.ids.sublist (hall.map _)⟩
    intro hmem
    obtain ⟨x, hx, heq⟩ := mem_map.mp hmem
    exact (hids x hx).ne heq
  · intro x hx
    rcases hcases x hx with hx | rfl
    · exact (hready.fresh x hx).trans (Nat.lt_succ_self _)
    · exact Nat.lt_succ_self _
  · intro x hx
    rcases hcases x hx with hx | rfl
    · exact hready.waits x hx
    · exact ⟨hnone.le.trans (Nat.zero_le _), hnone.trans_lt hmax⟩
  · exact fun x hx => (hready.known x hx).trans (Nat.lt_succ_self _)
  · intro hclosed
    rw [hopen] at hclosed
    cases hclosed
  · intro hrunning
    have hprogress := h.progress
    rw [hrunning] at hprogress
    exact hprogress.1
  · intro e rest' hrunning
    have hprogress := h.progress
    rw [hrunning] at hprogress
    obtain ⟨hflag, hawaited⟩ := hprogress
    have hsame : rest = rest' := by rw [hrest, hrunning]; rfl
    refine ⟨hflag, hawaited.fresh.trans (Nat.lt_succ_self _), fun x hx => ?_, hawaited.tried⟩
    rw [← hsame] at hx
    rcases hcases x hx with hx | rfl
    · rw [hsame] at hx
      exact hawaited.left x hx
    · exact hawaited.fresh.ne'

theorem Sound.shutdown (h : Sound maxRetries maxAgeMs s) :
    Sound maxRetries maxAgeMs s.shutdown := by
  have hready := h.ready
  have hprogress := h.progress
  refine ⟨hready.of_sublist ?_ (Nat.zero_le _) rfl rfl fun _ => rfl, ?_, fun _ => rfl⟩
  · exact List.Sublist.append_left (nil_sublist _) _
  · change Progress s.shutdown s.running
    cases hrunning : s.running with
    | none =>
      rw [hrunning] at hprogress
      exact ⟨hprogress.1, absurd rfl⟩
    | some current =>
      rw [hrunning] at hprogress
      obtain ⟨hflag, hawaited⟩ := hprogress
      refine ⟨hflag, hawaited.fresh, fun x hx => hawaited.left x ?_, hawaited.tried⟩
      exact (List.Sublist.append_left (nil_sublist _) _).subset hx

theorem Sound.timer (h : Sound maxRetries maxAgeMs s) (now : ℤ) :
    Sound maxRetries maxAgeMs (State.drain maxAgeMs now { s with drainTimer := none }) := by
  have hready := h.ready
  have hprogress := h.progress
  rcases Option.eq_none_or_eq_some s.running with hrunning | ⟨⟨e, rest⟩, hrunning⟩
  · rw [hrunning] at hready hprogress
    refine Ready.drain (s := { s with drainTimer := none }) ?_ hprogress.1 hrunning
      (fun _ => rfl) now
    exact hready.of_sublist (List.Sublist.refl _) hready.bounded rfl rfl hready.finished
  · -- the drain that runs will schedule the next one
    rw [hrunning] at hready hprogress
    obtain ⟨hflag, hawaited⟩ := hprogress
    have heq : State.drain maxAgeMs now { s with drainTimer := none } =
        { s with drainTimer := none } := by simp [State.drain, hflag]
    rw [heq]
    refine ⟨?_, ?_, fun _ => rfl⟩
    · change Ready maxRetries maxAgeMs _ (s.running.elim [] Prod.snd)
      rw [hrunning]
      exact hready.of_sublist (List.Sublist.refl _) hready.bounded rfl rfl hready.finished
    · change Progress _ s.running
      rw [hrunning]
      exact ⟨hflag, hawaited.fresh, hawaited.left, hawaited.tried⟩

theorem Sound.initial : Sound maxRetries maxAgeMs State.initial where
  ready := by
    refine ⟨Nat.zero_le _, nodup_nil, ?_, ?_, ?_, fun _ => Nat.zero_le _, ?_, ?_, fun _ => rfl⟩
    all_goals exact fun x hx => nomatch hx
  progress := ⟨rfl, absurd rfl⟩
  idle _ := rfl

theorem Sound.step (h : Sound maxRetries maxAgeMs s) {a : Action}
    (hregular : Regular maxRetries maxAgeMs s a) (hstep : step maxRetries maxAgeMs s a = some t) :
    Sound maxRetries maxAgeMs t := by
  cases a with
  | enqueue userId retries now =>
    cases hstep
    exact h.enqueue hregular.1 hregular.2 userId retries now
  | timer now =>
    simp only [RetryQueue.step] at hstep
    cases htimer : s.drainTimer with
    | none => simp [htimer] at hstep
    | some delay =>
      rw [htimer] at hstep
      cases hstep
      exact h.timer now
  | settle outcome now =>
    simp only [RetryQueue.step] at hstep
    cases hrunning : s.running with
    | none => simp [hrunning] at hstep
    | some current =>
      rw [hrunning] at hstep
      cases hstep
      simp only [Regular, hrunning] at hregular
      exact h.settle hrunning hregular
  | shutdown =>
    cases hstep
    exact h.shutdown

theorem Sound.keeps (h : Sound maxRetries maxAgeMs s) : Keeps maxRetries maxAgeMs s where
  bounded := h.ready.bounded
  sends := h.ready.capped
  young := h.ready.young
  live hpending := by
    have hprogress := h.progress
    cases hrunning : s.running with
    | none =>
      rw [hrunning] at hprogress
      exact .inl (hprogress.2 hpending)
    | some current => exact .inr rfl
  closed := ⟨h.ready.before, h.idle⟩

/-- While what is put back finds room and another retry, what is thrown can be read, no batch
outlasts the age of an entry and the shutdown ends what is awaited, the queue keeps its promises. -/
theorem retryQueue_keeps {as : List Action}
    (h : Machine.Meets (step maxRetries maxAgeMs) (Regular maxRetries maxAgeMs) State.initial as) :
    Machine.Always (step maxRetries maxAgeMs) (Keeps maxRetries maxAgeMs) State.initial as :=
  Machine.always_of_meets (fun _ _ _ hs hregular hstep => hs.step hregular hstep)
    (fun _ hs => hs.keeps) Sound.initial h

/-- A push is put back once, and arrives the second time. -/
theorem keeps_secondTry :
    Machine.Always (step 3 900000) (Keeps 3 900000) State.initial
      [.enqueue "u" none 0, .timer 2000, .settle (.thrown (.value .falsy)) 2100, .timer 6100,
        .enqueue "v" none 6150, .settle .resolved 6200, .timer 8200, .settle .resolved 8300,
        .shutdown] :=
  retryQueue_keeps (by decide)

/-- A thrown `undefined` ends the drain in its handler, and no later entry is ever drained. -/
theorem stuck_after_undefined :
    ¬ ∀ as, Machine.Always (step 3 900000) (Keeps 3 900000) State.initial as := by
  intro h
  have hkeeps := (h [.enqueue "u" none 0, .timer 2000, .settle (.thrown .nullish) 2100,
    .enqueue "v" none 2200]).last rfl
  rcases hkeeps.live (by decide) with htimer | hrunning
  · cases htimer
  · cases hrunning

end FestivalPlanner.RetryQueue
