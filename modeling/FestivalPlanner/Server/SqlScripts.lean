import FestivalPlanner.Server.SqlPieces

/-!
# Splitting the scripts of PostgreSQL

What `splitSqlStatements` makes of a script of PostgreSQL, cut into tokens.

* `statements` — the statements of a script, trimmed;
* `splitSqlStatements_iff` — when exactly they come back.
-/

namespace FestivalPlanner.Migrations

open List

open Sql (Text quote doubled)
open Js (Visible)

/-! ## Scripts of PostgreSQL -/

/-- The statements of a script: what stands between its semicolons, trimmed and not empty. -/
def statements (ts : List Sql.Token) : List Text :=
  ((Sql.pieces ts).map Js.trim).filter (fun p => p ≠ [])

theorem statements_eq (ts : List Sql.Token) : statements ts = (Sql.pieces ts).flatMap push := by
  rw [statements]
  induction Sql.pieces ts with
  | nil => rfl
  | cons p ps ih =>
    rw [map_cons, flatMap_cons, ← ih, push]
    by_cases hp : Js.trim p = []
    · simp [hp]
    · simp [hp]

theorem leads_of_not_mem {p : Text} (h : ';' ∉ p) : Leads p := by
  rintro x y rfl
  simp at h

theorem leads_cons {c : Char} (cs : Text) (hspace : Js.isSpace c = false) (hc : c ≠ ';') :
    Leads (c :: cs) := by
  intro x y h
  cases x with
  | nil => exact absurd (List.cons.inj h).1 hc
  | cons d x =>
    obtain rfl := (List.cons.inj h).1
    exact ⟨c, by simp, hspace⟩

theorem Leads.append {p q : Text} (hp : Leads p) (hq : Leads q) : Leads (p ++ q) := by
  intro x y h
  rcases append_eq_append_iff.mp h with ⟨z, rfl, hz⟩ | ⟨z, rfl, hz⟩
  · exact (hq z y hz).append_right p
  · cases z with
    | nil =>
      have hsemi := hq [] y (by simpa using hz.symm)
      obtain ⟨c, hc, -⟩ := hsemi
      cases hc
    | cons c z =>
      obtain ⟨rfl, -⟩ := List.cons.inj hz
      exact hp x z rfl

/-- No token but the semicolon has a semicolon in front of a visible character. -/
theorem leads_text {t : Sql.Token} {rest : Text} (h : t.Fits rest) (ht : t ≠ .semicolon) :
    Leads t.text := by
  cases t with
  | semicolon => exact absurd rfl ht
  | space c =>
    refine leads_of_not_mem ?_
    rintro (_ | ⟨_, ⟨⟩⟩)
    exact absurd (show Sql.isBlank ';' = true from h) (by decide)
  | operator c =>
    refine leads_of_not_mem ?_
    rintro (_ | ⟨_, ⟨⟩⟩)
    exact absurd h.1 (by decide)
  | word cs => exact leads_of_not_mem (fun hm => absurd (all_eq_true.mp h.2.1 _ hm) (by decide))
  | number cs => exact leads_of_not_mem (fun hm => absurd (all_eq_true.mp h.2.1 _ hm) (by decide))
  | lineComment body => exact leads_cons _ (by decide) (by decide)
  | blockComment tail => exact leads_cons _ (by decide) (by decide)
  | string body => exact leads_cons _ (by decide) (by decide)
  | continuation body => exact leads_cons _ (by decide) (by decide)
  | quotedIdent name => exact leads_cons _ (by decide) (by decide)
  | param digits => exact leads_cons _ (by decide) (by decide)
  | dollarString tag body => exact leads_cons _ (by decide) (by decide)
  | escapeString e body =>
    rcases h.1 with rfl | rfl
    · exact leads_cons _ (by decide) (by decide)
    · exact leads_cons _ (by decide) (by decide)

theorem leads_inFront {cs : Text} (hcs : Leads cs) {ps : List Text} (hps : ∀ p ∈ ps, Leads p) :
    ∀ p ∈ Sql.inFront cs ps, Leads p := by
  cases ps with
  | nil => simpa [Sql.inFront] using hcs
  | cons q ps =>
    intro p hp
    rcases mem_cons.mp hp with rfl | hp
    · exact hcs.append (hps q (mem_cons_self ..))
    · exact hps p (mem_cons_of_mem _ hp)

theorem leads_pieces {b : Sql.Behind} {ts : List Sql.Token} (h : Sql.LexedBehind b ts) :
    ∀ p ∈ Sql.pieces ts, Leads p := by
  induction ts generalizing b with
  | nil => simpa [Sql.pieces] using leads_of_not_mem (p := []) (by simp)
  | cons t ts ih =>
    have hts := ih h.2.2
    by_cases ht : t = .semicolon
    · subst ht
      intro p hp
      rcases mem_cons.mp hp with rfl | hp
      · exact leads_of_not_mem (by simp)
      · exact hts p hp
    · have hpieces : Sql.pieces (t :: ts) = Sql.inFront t.text (Sql.pieces ts) := by
        cases t with
        | semicolon => exact absurd rfl ht
        | _ => rfl
      rw [hpieces]
      exact leads_inFront (leads_text h.2.1 ht) hts

/-- The statements of a script come back exactly when the text of each of them is made of
strings, dollar quotes with an ASCII tag, comments up to a line feed, unnested comments and
other characters without a semicolon among them, and nothing is left open in front of a
semicolon. -/
theorem splitSqlStatements_iff (ts : List Sql.Token) (h : Sql.Lexed ts) :
    splitSqlStatements (Sql.text ts) = statements ts ↔ ReadsEach (Sql.pieces ts) := by
  rw [← Sql.joined_pieces, statements_eq]
  exact splitSqlStatements_joined_iff (Sql.pieces_ne_nil ts) (leads_pieces h)

/-- `DO $x$ BEGIN; END $x$; SELECT 'a;b' -- c; d` -/
def quotedSemicolons : List Sql.Token :=
  [.word "DO".toList, .space ' ', .dollarString "x".toList " BEGIN; END ".toList, .semicolon,
    .space ' ', .word "SELECT".toList, .space ' ', .string "a;b".toList, .space ' ',
    .lineComment " c; d".toList]

theorem quotedSemicolons_read :
    Sql.Lexed quotedSemicolons ∧ ReadsEach (Sql.pieces quotedSemicolons) ∧
      splitSqlStatements (Sql.text quotedSemicolons) =
        ["DO $x$ BEGIN; END $x$".toList, "SELECT 'a;b' -- c; d".toList] :=
  ⟨by decide, (splitSqlStatements_iff quotedSemicolons (by decide)).mp (by decide), by decide⟩

/-! ## Scripts without the unknown kinds -/

/-- `SELECT 1 /* a /* b */ ; */; SELECT 2` -/
def nestedComment : List Sql.Token :=
  [.word "SELECT".toList, .space ' ', .number ['1'], .space ' ',
    .blockComment " a /* b */ ; */".toList, .semicolon, .space ' ', .word "SELECT".toList,
    .space ' ', .number ['2']]

/-- `SELECT a$b$c; SELECT 2` -/
def dollarInName : List Sql.Token :=
  [.word "SELECT".toList, .space ' ', .word "a$b$c".toList, .semicolon, .space ' ',
    .word "SELECT".toList, .space ' ', .number ['2']]

/-- `SELECT "a;b"; SELECT 2` -/
def semicolonInName : List Sql.Token :=
  [.word "SELECT".toList, .space ' ', .quotedIdent "a;b".toList, .semicolon, .space ' ',
    .word "SELECT".toList, .space ' ', .number ['2']]

/-- A nested comment and a quoted name are cut, and a name with dollar signs swallows the
semicolon behind it. -/
theorem nestedComment_cut :
    (Sql.Lexed nestedComment ∧ statements nestedComment =
        ["SELECT 1 /* a /* b */ ; */".toList, "SELECT 2".toList] ∧
      splitSqlStatements (Sql.text nestedComment) =
        ["SELECT 1 /* a /* b */".toList, "*/".toList, "SELECT 2".toList]) ∧
    (Sql.Lexed dollarInName ∧ statements dollarInName =
        ["SELECT a$b$c".toList, "SELECT 2".toList] ∧
      splitSqlStatements (Sql.text dollarInName) = ["SELECT a$b$c; SELECT 2".toList]) ∧
    (Sql.Lexed semicolonInName ∧ (statements semicolonInName).length = 2 ∧
      (splitSqlStatements (Sql.text semicolonInName)).length = 3) := by
  decide

end FestivalPlanner.Migrations
