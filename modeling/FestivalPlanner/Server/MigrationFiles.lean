import FestivalPlanner.Lib.Digits
import FestivalPlanner.Server.SqlPieces
import Mathlib.Data.List.Sort

/-!
# Migration files

The files of the migration runner in `lib/planner-db-pg.ts`: their names, their order, and the
queries a file is sent as.

* `migrationFileRE`, `discoverMigrationsOnDisk` — the files that count, sorted by a text made
  of version and suffix;
* `ascending_discoverMigrationsOnDisk` — this is the order of version, then suffix;
* `usesConcurrently` — is a file sent statement by statement?
-/

namespace FestivalPlanner.Migrations

open List

open Sql (Text)

/-! ## Names and order -/

/-- A file of the migrations directory. -/
structure File where
  name : Text
  content : Text
  deriving DecidableEq

structure Migration where
  version : ℕ
  suffix : Text
  sortKey : Text
  file : File
  deriving DecidableEq

def isLineTerminator (c : Char) : Bool := c.toNat ∈ [0x0A, 0x0D, 0x2028, 0x2029]

/-- `/^.*\.sql$/i` -/
def isSqlName (cs : Text) : Bool :=
  (cs.drop (cs.length - 4)).map Char.toLower = ".sql".toList &&
    (cs.take (cs.length - 4)).all (fun c => !isLineTerminator c)

/-- `MIGRATION_FILE_RE.exec(file)`: the two groups. -/
def migrationFileRE (name : Text) : Option (Text × Text) :=
  let digits := name.takeWhile Char.isDigit
  if digits.length = 3 ∨ digits.length = 4 then
    match name.drop digits.length with
    | '_' :: tail => if isSqlName tail then some (digits, []) else none
    | c :: '_' :: tail => if c.isAlpha && isSqlName tail then some (digits, [c]) else none
    | _ => none
  else none

def migrationOf (file : File) : Option Migration :=
  (migrationFileRE file.name).map (fun m =>
    let version := Nat.ofDigitChars 10 m.1 0
    let suffix := m.2.map Char.toLower
    { version := version
      suffix := suffix
      sortKey := Js.padStart 5 (Nat.toDigits 10 version) ++ suffix
      file := file })

def discoverMigrationsOnDisk (files : List File) : List Migration :=
  (files.filterMap migrationOf).insertionSort (fun a b => ¬ b.sortKey < a.sortKey)

/-- By version, then by suffix. -/
def Ascending (a b : Migration) : Prop :=
  a.version < b.version ∨ a.version = b.version ∧ ¬ b.suffix < a.suffix

theorem ofDigits_eq {ds : Text} (h : Js.Digits ds) (n : ℕ) :
    ds.foldl (fun n c => 10 * n + Js.digit c) (n : ℤ) = (Nat.ofDigitChars 10 ds n : ℤ) := by
  induction ds generalizing n with
  | nil => simp
  | cons d ds ih =>
    rw [Js.digits_cons] at h
    have hd := Js.toNat_of_isDigit h.1
    have hdigit : 10 * (n : ℤ) + Js.digit d = ((10 * n + (d.toNat - '0'.toNat) : ℕ) : ℤ) := by
      have hzero : '0'.toNat = 48 := rfl
      unfold Js.digit
      omega
    rw [foldl_cons, hdigit, ih h.2, Nat.ofDigitChars_cons]

theorem length_of_migrationFileRE {name : Text} {m : Text × Text}
    (h : migrationFileRE name = some m) : m.1.length ≤ 4 ∧ Js.Digits m.1 := by
  unfold migrationFileRE at h
  simp only at h
  split at h
  · rename_i hlen
    have hdigits : Js.Digits (name.takeWhile Char.isDigit) :=
      fun c hc => mem_takeWhile_imp hc
    have hshort : (name.takeWhile Char.isDigit).length ≤ 4 := by omega
    split at h
    · split at h
      · cases h
        exact ⟨hshort, hdigits⟩
      · cases h
    · split at h
      · cases h
        exact ⟨hshort, hdigits⟩
      · cases h
    · cases h
  · cases h

variable {files : List File} {a : Migration} {b : Bool} {c : Char} {cs : Text}

/-- What the sort key of a migration is made of. -/
theorem sortKey_of_mem (h : a ∈ files.filterMap migrationOf) :
    ∃ ds, a.sortKey = ds ++ a.suffix ∧ ds.length = 5 ∧
      Js.Digits ds ∧ Js.ofDigits ds = a.version := by
  obtain ⟨file, -, hfile⟩ := mem_filterMap.mp h
  obtain ⟨m, hm, rfl⟩ := Option.map_eq_some_iff.mp hfile
  obtain ⟨hlen, hdigits⟩ := length_of_migrationFileRE hm
  have hbound : Nat.ofDigitChars 10 m.1 0 < 10 ^ 4 := by
    have hlt := (Js.ofDigits_bounds hdigits).2
    rw [Js.ofDigits, show (0 : ℤ) = ((0 : ℕ) : ℤ) from rfl, ofDigits_eq hdigits] at hlt
    have hpow : (10 : ℤ) ^ m.1.length ≤ 10 ^ 4 := pow_le_pow_right₀ (by norm_num) hlen
    omega
  generalize Nat.ofDigitChars 10 m.1 0 = version at hbound
  have htext : Js.Digits (Nat.toDigits 10 version) :=
    fun c hc => Nat.isDigit_of_mem_toDigits (by omega) (by omega) hc
  have hshort : (Nat.toDigits 10 version).length ≤ 4 :=
    (Nat.length_toDigits_le_iff (by omega) (by omega)).mpr hbound
  have hpad : Js.Digits (Js.padStart 5 (Nat.toDigits 10 version)) := by
    intro c hc
    rcases mem_append.mp hc with hc | hc
    · rw [eq_of_mem_replicate hc]
      decide
    · exact htext c hc
  refine ⟨Js.padStart 5 (Nat.toDigits 10 version), rfl, ?_, hpad, ?_⟩
  · simp only [Js.padStart, length_append, length_replicate]
    omega
  · rw [Js.ofDigits, show (0 : ℤ) = ((0 : ℕ) : ℤ) from rfl, ofDigits_eq hpad, Js.padStart,
      Nat.ofDigitChars_append, Nat.ofDigitChars_replicate_zero, Nat.mul_zero,
      Nat.ofDigitChars_ten_toDigits]

/-- The order of the sort keys is the order of version and suffix. -/
theorem ascending_of_sortKey {b : Migration} (ha : a ∈ files.filterMap migrationOf)
    (hb : b ∈ files.filterMap migrationOf) (h : ¬ b.sortKey < a.sortKey) : Ascending a b := by
  obtain ⟨ds, hds, hlen, hdigits, hv⟩ := sortKey_of_mem ha
  obtain ⟨es, hes, hlen', hdigits', hv'⟩ := sortKey_of_mem hb
  rw [hds, hes] at h
  rcases Js.append_not_lt (hlen.trans hlen'.symm) h with hlt | ⟨rfl, hsuffix⟩
  · have := Js.ofDigits_lt (hlen.trans hlen'.symm) hdigits hdigits' hlt
    exact .inl (by omega)
  · exact .inr ⟨by omega, hsuffix⟩

/-- The files come in ascending order of version and suffix. -/
theorem ascending_discoverMigrationsOnDisk (files : List File) :
    (discoverMigrationsOnDisk files).Pairwise Ascending := by
  have hsorted : (discoverMigrationsOnDisk files).Pairwise
      (fun a b => ¬ b.sortKey < a.sortKey) := by
    have : Std.Total (fun a b : Migration => ¬ b.sortKey < a.sortKey) :=
      ⟨fun a b => (lt_or_ge b.sortKey a.sortKey).symm.imp not_lt.mpr (fun h => not_lt.mpr h.le)⟩
    have : IsTrans Migration (fun a b => ¬ b.sortKey < a.sortKey) :=
      ⟨fun a b c hab hbc => not_lt.mpr (le_trans (not_lt.mp hab) (not_lt.mp hbc))⟩
    exact pairwise_insertionSort _ _
  refine hsorted.imp_of_mem (fun ha hb h => ?_)
  have hmem {a : Migration} (ha : a ∈ discoverMigrationsOnDisk files) :
      a ∈ files.filterMap migrationOf := (perm_insertionSort _ _).mem_iff.mp ha
  exact ascending_of_sortKey (hmem ha) (hmem hb) h

/-! ## Files that are sent statement by statement -/

/-- Leaves out the line comments, up to the line feed; the flag says that one is open. -/
def stripLineComments : Bool → Text → Text
  | _, [] => []
  | true, c :: cs => if c = '\n' then c :: stripLineComments false cs else stripLineComments true cs
  | false, '-' :: '-' :: cs => stripLineComments true cs
  | false, c :: cs => c :: stripLineComments false cs

/-- Leaves out the block comments, each up to its first end; `n` bounds their number. -/
def stripBlockComments : ℕ → Text → Text
  | 0, cs => cs
  | n + 1, cs =>
      match Js.splitFirst ['/', '*'] cs with
      | none => cs
      | some (before, tail) =>
          match Js.splitFirst ['*', '/'] tail with
          | none => cs
          | some (_, after) => before ++ stripBlockComments n after

def stripSqlComments (sql : Text) : Text :=
  stripBlockComments sql.length (stripLineComments false sql)

/-- The upper case of an ASCII letter. -/
def upper (c : Char) : Char := if c.isLower then Char.ofNat (c.toNat - 32) else c

/-- `/\bWORD\b/i`; the flag says that the character before is one of a word. -/
def hasWord (word : Text) : Bool → Text → Bool
  | _, [] => false
  | inWord, c :: cs =>
      !inWord && word.isPrefixOf ((c :: cs).map upper) &&
          !((c :: cs).drop word.length).head?.any isWord ||
        hasWord word (isWord c) cs

def usesConcurrently (sql : Text) : Bool :=
  hasWord "CONCURRENTLY".toList false (stripSqlComments sql)

theorem mem_of_mem_stripLineComments (h : c ∈ stripLineComments b cs) : c ∈ cs := by
  fun_induction stripLineComments b cs with
  | case1 => exact h
  | case2 cs ih =>
    rcases mem_cons.mp h with rfl | h
    · exact mem_cons_self ..
    · exact mem_cons_of_mem _ (ih h)
  | case3 d cs _ ih => exact mem_cons_of_mem _ (ih h)
  | case4 cs ih => exact mem_cons_of_mem _ (mem_cons_of_mem _ (ih h))
  | case5 d cs _ ih =>
    rcases mem_cons.mp h with rfl | h
    · exact mem_cons_self ..
    · exact mem_cons_of_mem _ (ih h)

theorem mem_of_splitFirst {w before after : Text} (h : Js.splitFirst w cs = some (before, after))
    (hc : c ∈ before ∨ c ∈ after) : c ∈ cs := by
  induction cs generalizing before with
  | nil =>
    rw [Js.splitFirst] at h
    split at h
    · cases h
      simp at hc
    · cases h
  | cons d cs ih =>
    rw [Js.splitFirst] at h
    split at h
    · cases h
      rcases hc with hc | hc
      · cases hc
      · exact mem_of_mem_drop hc
    · obtain ⟨p, hp, hpair⟩ := Option.map_eq_some_iff.mp h
      obtain ⟨rfl, rfl⟩ := Prod.mk.inj hpair
      rcases hc with hc | hc
      · rcases mem_cons.mp hc with rfl | hc
        · exact mem_cons_self ..
        · exact mem_cons_of_mem _ (ih hp (.inl hc))
      · exact mem_cons_of_mem _ (ih hp (.inr hc))

theorem mem_of_mem_stripBlockComments {n : ℕ} (h : c ∈ stripBlockComments n cs) : c ∈ cs := by
  induction n generalizing cs with
  | zero => exact h
  | succ n ih =>
    rw [stripBlockComments] at h
    cases hopen : Js.splitFirst ['/', '*'] cs with
    | none => simpa [hopen] using h
    | some p =>
      cases hclose : Js.splitFirst ['*', '/'] p.2 with
      | none => simpa [hopen, hclose] using h
      | some q =>
        simp only [hopen, hclose, mem_append] at h
        rcases h with h | h
        · exact mem_of_splitFirst hopen (.inl h)
        · exact mem_of_splitFirst hopen (.inr (mem_of_splitFirst hclose (.inr (ih h))))

theorem exists_of_hasWord {w : Char} {word : Text} (h : hasWord (w :: word) b cs = true) :
    ∃ c ∈ cs, upper c = w := by
  induction cs generalizing b with
  | nil => cases h
  | cons d cs ih =>
    rw [hasWord, Bool.or_eq_true, Bool.and_eq_true, Bool.and_eq_true] at h
    rcases h with ⟨⟨-, hp⟩, -⟩ | h
    · rw [List.isPrefixOf_iff_prefix, map_cons] at hp
      exact ⟨d, mem_cons_self .., (cons_prefix_cons.mp hp).1.symm⟩
    · obtain ⟨c, hc, hw⟩ := ih h
      exact ⟨c, mem_cons_of_mem _ hc, hw⟩

/-- A file that is sent statement by statement has something to send. -/
theorem exists_of_usesConcurrently {sql : Text} (h : usesConcurrently sql = true) :
    ∃ c ∈ sql, Js.isSpace c = false ∧ c ≠ ';' := by
  obtain ⟨c, hc, hupper⟩ := exists_of_hasWord (w := 'C') h
  refine ⟨c, mem_of_mem_stripLineComments (mem_of_mem_stripBlockComments hc), ?_⟩
  have hcc : c = 'C' ∨ c = 'c' := by
    unfold upper at hupper
    split at hupper
    · rename_i hlower
      unfold Char.isLower at hlower
      simp only [Bool.and_eq_true, decide_eq_true_eq, ge_iff_le] at hlower
      have hlow : 97 ≤ c.toNat := hlower.1
      have hhigh : c.toNat ≤ 122 := hlower.2
      have hnat := congrArg Char.toNat hupper
      have hvalid : (c.toNat - 32).isValidChar := .inl (by omega)
      have hback : (Char.ofNat (c.toNat - 32)).toNat = c.toNat - 32 := by
        rw [Char.ofNat, dif_pos hvalid]
        rfl
      rw [hback, show 'C'.toNat = 67 from rfl] at hnat
      refine .inr (Char.toNat_inj.mp ?_)
      rw [show 'c'.toNat = 99 from rfl]
      omega
    · exact .inl hupper
  rcases hcc with rfl | rfl
  · decide
  · decide

end FestivalPlanner.Migrations
