import FestivalPlanner.Lib.Machine

/-!
# Unserialised read-modify-write

Several tasks update one shared cell.  Each reads the whole cell, computes the new
content from what it read, and writes it back later; nothing keeps two tasks from
interleaving, so a write may undo what happened since its read.

The content is arbitrary.  An `Updates` says what the cell tells about each key
(`view`), and that an operation decides what is told about its own key only.

* `step` — the machine: tasks begin, read and write in any order;
* `WritesCleanly` — the condition on a step: a write changes what is told about its
  own key only, and no operation on that key that began later has completed;
* `settled_of_run` — under that condition, once every task is done the cell tells
  about each key what the last operation on it decided.
-/

namespace ReadModifyWrite

open List Machine

/-- The operations on a cell of content `β`. -/
structure Updates (β ω κ ν : Type*) where
  /-- The key an operation is about. -/
  key : ω → κ
  /-- The new content; `none` when there is nothing to write. -/
  apply : ω → β → Option β
  /-- What a content tells about a key. -/
  view : κ → β → ν
  /-- What an operation decides about its key. -/
  result : ω → ν
  view_apply : ∀ {op b b'}, apply op b = some b' → view (key op) b' = result op
  view_apply_of_ne : ∀ {op b b' k}, apply op b = some b' → k ≠ key op → view k b' = view k b
  view_of_apply_eq_none : ∀ {op b}, apply op b = none → view (key op) b = result op

/-- How far a task is. -/
inductive Phase (β : Type*) where
  | begun
  | hasRead (seen : β)
  | done

/-- One operation under way. -/
structure Task (β ω : Type*) where
  op : ω
  phase : Phase β

/-- The cell, and the tasks in the order they began. -/
structure State (β ω : Type*) where
  content : β
  tasks : List (Task β ω)

/-- What can happen next; a task is addressed by its number. -/
inductive Action (ω : Type*) where
  | begin (op : ω)
  | read (i : ℕ)
  | write (i : ℕ)

variable {β ω κ ν : Type*}

/-- Is the task over? -/
def Task.isDone (t : Task β ω) : Bool :=
  match t.phase with
  | .done => true
  | _ => false

/-- Put the task number `i` into a phase. -/
def State.setPhase (s : State β ω) (i : ℕ) (op : ω) (phase : Phase β) : State β ω :=
  { s with tasks := s.tasks.set i ⟨op, phase⟩ }

/-- One step of the tasks. -/
def step (U : Updates β ω κ ν) (s : State β ω) : Action ω → Option (State β ω)
  | .begin op => some { s with tasks := s.tasks ++ [⟨op, .begun⟩] }
  | .read i =>
      match s.tasks[i]? with
      | some ⟨op, .begun⟩ =>
          match U.apply op s.content with
          | some _ => some (s.setPhase i op (.hasRead s.content))
          | none => some (s.setPhase i op .done)
      | _ => none
  | .write i =>
      match s.tasks[i]? with
      | some ⟨op, .hasRead seen⟩ =>
          match U.apply op seen with
          | some b => some ({ s with content := b }.setPhase i op .done)
          | none => none
      | _ => none

/-- The write of `op` from what it read: it changes what is told about its own key
only, and no operation on that key that began later has completed. -/
def CleanWrite (U : Updates β ω κ ν) (s : State β ω) (i : ℕ) (op : ω) : Phase β → Prop
  | .hasRead seen =>
      (∀ k, k ≠ U.key op → U.view k seen = U.view k s.content) ∧
        ∀ t ∈ s.tasks.drop (i + 1), t.isDone = true → U.key t.op ≠ U.key op
  | _ => True

/-- The condition on a step. -/
def WritesCleanly (U : Updates β ω κ ν) (s : State β ω) : Action ω → Prop
  | .write i => ∀ t, s.tasks[i]? = some t → CleanWrite U s i t.op t.phase
  | _ => True

/-! ## What the completed tasks decided -/

variable {k : κ} {v : ν} {l : List (Task β ω)} {t : Task β ω} {i : ℕ} {initial : β}
  {s : State β ω}

section

variable [DecidableEq κ] (U : Updates β ω κ ν)

/-- What the completed tasks, in order, decide about a key that `v` was told about. -/
def verdict (k : κ) (v : ν) (tasks : List (Task β ω)) : ν :=
  tasks.foldl (fun v t => if t.isDone = true ∧ U.key t.op = k then U.result t.op else v) v

/-- The cell tells about every key what the completed tasks decided. -/
def Settled (initial : β) (s : State β ω) : Prop :=
  ∀ k, U.view k s.content = verdict U k (U.view k initial) s.tasks

variable {U}

theorem verdict_append (k : κ) (v : ν) (l l' : List (Task β ω)) :
    verdict U k v (l ++ l') = verdict U k (verdict U k v l) l' := by
  simp [verdict]

theorem verdict_cons (k : κ) (v : ν) (t : Task β ω) (l : List (Task β ω)) :
    verdict U k v (t :: l) =
      verdict U k (if t.isDone = true ∧ U.key t.op = k then U.result t.op else v) l := rfl

/-- Tasks that are not done with the key decide nothing about it. -/
theorem verdict_of_forall_not (h : ∀ t ∈ l, t.isDone = true → U.key t.op ≠ k) :
    verdict U k v l = v := by
  induction l with
  | nil => rfl
  | cons t l ih =>
    rw [verdict_cons, if_neg (fun ht => h t (mem_cons_self ..) ht.1 ht.2)]
    exact ih fun t' ht' => h t' (mem_cons_of_mem _ ht')

/-- The tasks decide about the key, whatever was told before, or leave it alone. -/
theorem verdict_const_or_id (k : κ) (l : List (Task β ω)) :
    (∀ v v', verdict U k v l = verdict U k v' l) ∨ ∀ v, verdict U k v l = v := by
  by_cases h : ∃ t ∈ l, t.isDone = true ∧ U.key t.op = k
  · left
    induction l with
    | nil =>
      obtain ⟨t, ht, -⟩ := h
      cases ht
    | cons t l ih =>
      intro v v'
      rw [verdict_cons, verdict_cons]
      by_cases ht : t.isDone = true ∧ U.key t.op = k
      · rw [if_pos ht, if_pos ht]
      · rw [if_neg ht, if_neg ht]
        obtain ⟨t', ht', hk⟩ := h
        rcases mem_cons.mp ht' with rfl | ht'
        · exact absurd hk ht
        · exact ih ⟨t', ht', hk⟩ v v'
  · exact .inr fun v => verdict_of_forall_not fun t ht hd hk => h ⟨t, ht, hd, hk⟩

/-- The last task on a key decides about it. -/
theorem verdict_of_last {pre post : List (Task β ω)} (ht : t.isDone = true) (hk : U.key t.op = k)
    (hpost : ∀ t' ∈ post, U.key t'.op ≠ k) : verdict U k v (pre ++ t :: post) = U.result t.op := by
  rw [verdict_append, verdict_cons, if_pos ⟨ht, hk⟩]
  exact verdict_of_forall_not fun t' ht' _ => hpost t' ht'

/-! ## The steps -/

/-- The tasks around the task number `i`. -/
theorem split_at (h : l[i]? = some t) :
    ∃ pre post, l.drop (i + 1) = post ∧ l = pre ++ t :: post ∧
      ∀ t', l.set i t' = pre ++ t' :: post := by
  obtain ⟨hi, rfl⟩ := List.getElem?_eq_some_iff.mp h
  refine ⟨l.take i, _, rfl, ?_, fun t' => set_eq_take_append_cons_drop.trans (if_pos hi)⟩
  rw [← drop_eq_getElem_cons hi, take_append_drop]

/-- Putting a task that is not over into another phase than `done` decides nothing. -/
theorem verdict_set_of_not_done {t' : Task β ω} (h : l[i]? = some t) (ht : t.isDone = false)
    (ht' : t'.isDone = false) : verdict U k v (l.set i t') = verdict U k v l := by
  obtain ⟨pre, post, -, rfl, hset⟩ := split_at h
  rw [hset t', verdict_append, verdict_append, verdict_cons, verdict_cons, ht, ht']
  simp

/-- Every step that writes cleanly keeps the cell settled. -/
theorem settled_step {t : State β ω} {a : Action ω} (hs : Settled U initial s)
    (hc : WritesCleanly U s a) (h : step U s a = some t) : Settled U initial t := by
  intro k
  cases a with
  | begin op =>
    cases h
    rw [verdict_append, ← hs k]
    rfl
  | read i =>
    simp only [step] at h
    split at h
    · rename_i op hi
      split at h
      · cases h
        exact (hs k).trans (verdict_set_of_not_done hi rfl rfl).symm
      · rename_i hnone
        cases h
        obtain ⟨pre, post, -, hl, hset⟩ := split_at hi
        have hsk := hs k
        simp only [State.setPhase]
        rw [hset, verdict_append, verdict_cons]
        rw [hl, verdict_append, verdict_cons, if_neg (fun h => by cases h.1)] at hsk
        by_cases hk : U.key op = k
        · rw [if_pos ⟨rfl, hk⟩]
          rcases verdict_const_or_id (U := U) k post with hconst | hid
          · exact hsk.trans (hconst _ _)
          · rw [hid]
            exact hk ▸ U.view_of_apply_eq_none hnone
        · rw [if_neg (fun h => hk h.2)]
          exact hsk
    · cases h
  | write i =>
    simp only [step] at h
    split at h
    · rename_i op seen hi
      split at h
      · rename_i b hb
        cases h
        obtain ⟨hview, hlater⟩ := hc _ hi
        obtain ⟨pre, post, hpost, hl, hset⟩ := split_at hi
        rw [hpost] at hlater
        simp only [State.setPhase]
        rw [hset, verdict_append, verdict_cons]
        by_cases hk : U.key op = k
        · rw [if_pos ⟨rfl, hk⟩, verdict_of_forall_not (fun t ht hd => hk ▸ hlater t ht hd)]
          exact hk ▸ U.view_apply hb
        · rw [if_neg (fun h => hk h.2), U.view_apply_of_ne hb (Ne.symm hk), hview k (Ne.symm hk),
            hs k, hl]
          rw [verdict_append, verdict_cons, if_neg (fun h => by cases h.1)]
      · cases h
    · cases h

/-- **After a run of clean writes the cell tells what the completed tasks decided.** -/
theorem settled_of_run {as : List (Action ω)}
    (hc : Meets (step U) (WritesCleanly U) ⟨initial, []⟩ as)
    (hrun : run (step U) ⟨initial, []⟩ as = some s) : Settled U initial s :=
  inv_run_of_meets (fun _ _ _ hs hc h => settled_step hs hc h) (fun _ => rfl) hc hrun

end

end ReadModifyWrite
