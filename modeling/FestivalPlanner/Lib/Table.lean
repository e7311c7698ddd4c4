import FestivalPlanner.Lib.Keyed

/-!
# Tables with a primary key

The two ways in which SQL inserts rows into a table, as functions on lists of rows.  Nothing
in this file knows what the rows are.

* `insert` — `INSERT`, which fails when a key is taken;
* `insertOrIgnore` — `INSERT … ON CONFLICT DO NOTHING`, which leaves those rows out;
* `bind_eq_ok` — a sequence of statements succeeds when each of them does.
-/

namespace Table

open List Keyed

variable {α κ : Type*} [DecidableEq κ] (key : α → κ)

/-- `INSERT INTO table VALUES rows`. -/
def insert (table rows : List α) : Option (List α) :=
  if UniqueKeys key rows ∧ ∀ r ∈ rows, ∀ t ∈ table, key t ≠ key r then some (table ++ rows)
  else none

/-- `INSERT INTO table VALUES rows ON CONFLICT DO NOTHING`, row after row. -/
@[grind =] def insertOrIgnore (table : List α) : List α → List α
  | [] => table
  | r :: rows =>
      if table.any (fun t => key t = key r) then insertOrIgnore table rows
      else insertOrIgnore (table ++ [r]) rows

variable {key}

variable {table rows t : List α} {x : α}

theorem insert_eq_some : insert key table rows = some t ↔
    (UniqueKeys key rows ∧ ∀ r ∈ rows, ∀ x ∈ table, key x ≠ key r) ∧ t = table ++ rows := by
  rw [insert, Option.ite_none_right_eq_some, Option.some.injEq, eq_comm (a := t)]

/-- A table that was inserted into still has unique keys. -/
theorem uniqueKeys_insert (htable : UniqueKeys key table)
    (h : insert key table rows = some t) : UniqueKeys key t := by
  obtain ⟨⟨hrows, hnew⟩, rfl⟩ := insert_eq_some.mp h
  exact htable.append hrows fun x hx r hr => hnew r hr x hx

theorem mem_insertOrIgnore_of_mem (h : x ∈ table) : x ∈ insertOrIgnore key table rows := by
  induction rows generalizing table with
  | nil => exact h
  | cons r rows ih =>
    rw [insertOrIgnore]
    split
    · exact ih h
    · exact ih (mem_append_left _ h)

theorem mem_or_mem_of_mem_insertOrIgnore (h : x ∈ insertOrIgnore key table rows) :
    x ∈ table ∨ x ∈ rows := by
  induction rows generalizing table with
  | nil => exact .inl h
  | cons r rows ih =>
    rw [insertOrIgnore] at h
    split at h
    · exact (ih h).imp_right (mem_cons_of_mem _)
    · rcases ih h with hx | hx
      · rcases mem_append.mp hx with hx | hx
        · exact .inl hx
        · exact .inr (mem_singleton.mp hx ▸ mem_cons_self)
      · exact .inr (mem_cons_of_mem _ hx)

/-- Rows of new and different keys all get in. -/
theorem mem_insertOrIgnore_of_new (hrows : UniqueKeys key rows)
    (hnew : ∀ t ∈ table, key t ≠ key x) (h : x ∈ rows) : x ∈ insertOrIgnore key table rows := by
  induction rows generalizing table with
  | nil => cases h
  | cons r rows ih =>
    obtain ⟨hr, hrest⟩ := uniqueKeys_cons.mp hrows
    rw [insertOrIgnore]
    rcases mem_cons.mp h with rfl | hx
    · rw [if_neg (by simpa using hnew)]
      exact mem_insertOrIgnore_of_mem (mem_append_right _ (mem_singleton_self _))
    · split
      · exact ih hrest hnew hx
      · refine ih hrest (fun t ht => ?_) hx
        rcases mem_append.mp ht with ht | ht
        · exact hnew t ht
        · rw [mem_singleton.mp ht]
          exact fun heq => hr x hx heq.symm

theorem uniqueKeys_insertOrIgnore (htable : UniqueKeys key table) :
    UniqueKeys key (insertOrIgnore key table rows) := by
  induction rows generalizing table with
  | nil => exact htable
  | cons r rows ih =>
    rw [insertOrIgnore]
    split
    · exact ih htable
    · rename_i hnew
      refine ih (uniqueKeys_insert htable (insert_eq_some.mpr ⟨⟨?_, ?_⟩, rfl⟩))
      · simp [UniqueKeys]
      · simpa using hnew

theorem bind_eq_ok {ε β γ : Type*} {x : Except ε β} {f : β → Except ε γ} {c : γ} :
    x.bind f = .ok c ↔ ∃ b, x = .ok b ∧ f b = .ok c := by
  cases x <;> simp [Except.bind]

end Table
