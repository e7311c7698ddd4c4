import FestivalPlanner.Lib.Js
import FestivalPlanner.Lib.SqlLexical
import Mathlib.Data.List.TakeWhile

/-!
# Splitting a migration script into statements

`splitSqlStatements` of `lib/db/sql-split.ts`, which cuts a script that cannot run as one
query, and what it makes of the scripts of PostgreSQL.

* `Loop`, `Loop.step`, `splitSqlStatements` — the loop over the script;
* `Reads` — the quotes and comments the loop knows: strings, dollar quotes with an ASCII tag,
  comments up to a line feed, and comments that are not nested;
* `Loop.finish` — the statements at the end of the loop, one iteration at a time;
* `Closes.finish_closed`, `Loop.finish_string` — how the loop passes a comment, a dollar quote
  and a string.

A script is a list of characters: it is read as UTF-8, and the characters the loop looks at
are ASCII.
-/

namespace FestivalPlanner.Migrations

open List

open Sql (Text quote doubled)

/-! ## The loop -/

/-- The flags of the loop, of which at most one is set. -/
inductive Mode where
  | outside
  | inSingle
  | inLineComment
  | inBlockComment
  | dollarTag (tag : Text)
  deriving DecidableEq

/-- The variables of the loop, with `sql.slice(i)` for the position. -/
structure Loop where
  rest : Text
  buf : Text
  statements : List Text
  mode : Mode

/-- `\w` -/
def isWord (c : Char) : Bool := c.isAlphanum || c = '_'

/-- `/^\$\$|^\$[A-Za-z_]\w*\$/.exec(cs)` -/
def dollarQuote : Text → Option Text
  | '$' :: '$' :: _ => some ['$', '$']
  | '$' :: c :: cs =>
      if (c.isAlpha || c = '_') && (cs.dropWhile isWord).head? = some '$' then
        some ('$' :: c :: (cs.takeWhile isWord ++ ['$']))
      else none
  | _ => none

/-- `const trimmed = buf.trim(); if (trimmed) statements.push(trimmed)` -/
def push (buf : Text) : List Text := if Js.trim buf = [] then [] else [Js.trim buf]

/-- The loop takes over the first `n` characters of the rest and goes on in `mode`. -/
@[grind =] def Loop.take (s : Loop) (n : ℕ) (mode : Mode) : Loop :=
  { s with rest := s.rest.drop n, buf := s.buf ++ s.rest.take n, mode := mode }

/-- One iteration. -/
@[grind =] def Loop.step (s : Loop) : Loop :=
  match s.rest with
  | [] => s
  | ch :: cs =>
      let next := cs.head?
      match s.mode with
      | .inLineComment => s.take 1 (if ch = '\n' then .outside else .inLineComment)
      | .inBlockComment =>
          if ch = '*' ∧ next = some '/' then s.take 2 .outside else s.take 1 .inBlockComment
      | .inSingle =>
          if ch = quote then
            if next = some quote then s.take 2 .inSingle else s.take 1 .outside
          else s.take 1 .inSingle
      | .dollarTag tag =>
          if ch = '$' ∧ tag <+: ch :: cs then s.take tag.length .outside
          else s.take 1 (.dollarTag tag)
      | .outside =>
          if ch = '-' ∧ next = some '-' then s.take 1 .inLineComment
          else if ch = '/' ∧ next = some '*' then s.take 2 .inBlockComment
          else if ch = quote then s.take 1 .inSingle
          else match dollarQuote (ch :: cs) with
            | some tag => s.take tag.length (.dollarTag tag)
            | none =>
                if ch = ';' then
                  { s with rest := cs, buf := [], statements := s.statements ++ push s.buf }
                else s.take 1 .outside

/-- `while (i < n)`, with a bound on the number of iterations. -/
@[grind =] def Loop.run : ℕ → Loop → Loop
  | 0, s => s
  | n + 1, s => Loop.run n s.step

def splitSqlStatements (sql : Text) : List Text :=
  let s := Loop.run sql.length { rest := sql, buf := [], statements := [], mode := .outside }
  s.statements ++ push s.buf

/-! ## What the loop reads -/

/-- `[A-Za-z_]\w*`, or nothing -/
def isTag : Text → Bool
  | [] => true
  | c :: cs => (c.isAlpha || c = '_') && cs.all isWord

/-- The quotes and comments that end at a fixed text, with how they begin and end. -/
inductive Delimited : Text → Text → Prop where
  | lineComment : Delimited ['-', '-'] ['\n']
  | blockComment : Delimited ['/', '*'] ['*', '/']
  | dollarQuote (tag : Text) : isTag tag = true → Delimited (Sql.delimiter tag) (Sql.delimiter tag)

/-- The text begins with one of them. -/
def Opens (cs : Text) : Prop := ∃ opening closing, Delimited opening closing ∧ opening <+: cs

/-- The text is made of strings, dollar quotes with an ASCII tag, comments up to a line feed,
unnested comments, and other characters, no semicolon among them.  Unless the text is
`closed`, the last quote or comment is left open. -/
inductive Reads : Text → Bool → Prop where
  | nil : Reads [] true
  | char {c : Char} {cs : Text} {closed : Bool} : c ≠ ';' → c ≠ quote → ¬ Opens (c :: cs) →
      Reads cs closed → Reads (c :: cs) closed
  | string (body : Text) {cs : Text} {closed : Bool} : cs.head? ≠ some quote →
      Reads cs closed → Reads (quote :: (doubled quote body ++ quote :: cs)) closed
  | openString (body : Text) : Reads (quote :: doubled quote body) false
  | delimited {opening closing : Text} (body : Text) {cs : Text} {closed : Bool} :
      Delimited opening closing → ¬ closing <:+: body ++ closing.dropLast →
      Reads cs closed → Reads (opening ++ (body ++ (closing ++ cs))) closed
  | openDelimited {opening closing : Text} (body : Text) : Delimited opening closing →
      ¬ closing <:+: body → Reads (opening ++ body) false

/-- The texts between semicolons read so: nothing is left open where a semicolon follows. -/
def ReadsEach : List Text → Prop
  | [] => True
  | [p] => ∃ closed, Reads p closed
  | p :: q :: ps => Reads p true ∧ ReadsEach (q :: ps)

variable {opening closing cs rest w body : Text} {ch : Char} {s : Loop} {n : ℕ} {m : Mode}

theorem Delimited.not_mem (h : Delimited opening closing) : ';' ∉ opening ∧ ';' ∉ closing := by
  cases h with
  | lineComment => simp
  | blockComment => simp
  | dollarQuote tag htag =>
    have hmem : ';' ∉ tag := by
      cases tag with
      | nil => simp
      | cons c cs =>
        simp only [isTag, Bool.and_eq_true, all_eq_true] at htag
        intro hc
        rcases mem_cons.mp hc with rfl | hc
        · exact absurd htag.1 (by decide)
        · exact absurd (htag.2 _ hc) (by decide)
    simp [Sql.delimiter, hmem]

theorem Delimited.closing_ne_nil (h : Delimited opening closing) : closing ≠ [] := by
  cases h <;> simp [Sql.delimiter]

theorem Opens.append (h : Opens cs) (rest : Text) : Opens (cs ++ rest) := by
  obtain ⟨o, w, hd, ho⟩ := h
  exact ⟨o, w, hd, ho.trans (prefix_append ..)⟩

/-- The end of the script, or a semicolon. -/
def Ends (rest : Text) : Prop := ∀ c ∈ rest.head?, c = ';'

/-- A text without a semicolon does not reach over the end of a piece. -/
theorem Ends.prefix_of_append (hrest : Ends rest) (hw : ';' ∉ w) (h : w <+: cs ++ rest) :
    w <+: cs := by
  induction cs generalizing w with
  | nil =>
    cases w with
    | nil => exact nil_prefix
    | cons c w =>
      cases rest with
      | nil => simp at h
      | cons d rest =>
        have hd : d = ';' := hrest d rfl
        obtain ⟨rfl, -⟩ := cons_prefix_cons.mp h
        simp [hd] at hw
  | cons c cs ih =>
    cases w with
    | nil => exact nil_prefix
    | cons d w =>
      obtain ⟨rfl, htail⟩ := cons_prefix_cons.mp h
      exact cons_prefix_cons.mpr ⟨rfl, ih (fun hm => hw (mem_cons_of_mem _ hm)) htail⟩

theorem Ends.opens_of_append (hrest : Ends rest) (h : Opens (cs ++ rest)) : Opens cs := by
  obtain ⟨o, w, hd, ho⟩ := h
  exact ⟨o, w, hd, hrest.prefix_of_append hd.not_mem.1 ho⟩

theorem Ends.nil : Ends [] := by simp [Ends]

theorem Ends.semicolon (cs : Text) : Ends (';' :: cs) := by simp [Ends]

/-- Every text reads so, or up to a first semicolon outside. -/
theorem reads_or_semicolon (p : Text) :
    (∃ closed, Reads p closed) ∨ ∃ x y, p = x ++ ';' :: y ∧ Reads x true := by
  induction hn : p.length using Nat.strong_induction_on generalizing p with
  | _ n ih =>
    subst hn
    cases p with
    | nil => exact .inl ⟨true, .nil⟩
    | cons c cs =>
      by_cases hopens : Opens (c :: cs)
      · obtain ⟨o, w, hd, q, hq⟩ := hopens
        rw [← hq]
        rcases Sql.exists_first hd.closing_ne_nil q with hno | ⟨body, r, rfl, hbody⟩
        · exact .inl ⟨false, .openDelimited q hd hno⟩
        · have hlen : r.length < (c :: cs).length := by
            have := length_pos_of_ne_nil hd.closing_ne_nil
            rw [← hq]
            simp only [length_append]
            omega
          rcases ih _ hlen r rfl with ⟨closed, hr⟩ | ⟨x, y, rfl, hx⟩
          · exact .inl ⟨closed, .delimited body hd hbody hr⟩
          · exact .inr ⟨o ++ (body ++ (w ++ x)), y, by simp, .delimited body hd hbody hx⟩
      · by_cases hquote : c = quote
        · subst hquote
          rcases Sql.exists_doubled quote cs with ⟨body, rfl⟩ | ⟨body, r, rfl, hr⟩
          · exact .inl ⟨false, .openString body⟩
          · rcases ih _ (by simp; omega) r rfl with ⟨closed, h⟩ | ⟨x, y, rfl, hx⟩
            · exact .inl ⟨closed, .string body hr h⟩
            · refine .inr ⟨_, y, ?_, .string body ?_ hx⟩
              · simp
              · cases x with
                | nil => simp
                | cons d x => simpa using hr
        · by_cases hsemi : c = ';'
          · exact .inr ⟨[], cs, by simp [hsemi], .nil⟩
          · rcases ih _ (by simp) cs rfl with ⟨closed, h⟩ | ⟨x, y, rfl, hx⟩
            · exact .inl ⟨closed, .char hsemi hquote hopens h⟩
            · exact .inr ⟨c :: x, y, rfl,
                .char hsemi hquote (fun ho => hopens (ho.append (';' :: y))) hx⟩

/-! ## Running the loop -/

theorem dollarQuote_eq_some {d : Text} (h : dollarQuote cs = some d) :
    ∃ tag, isTag tag = true ∧ d = Sql.delimiter tag ∧ d <+: cs := by
  unfold dollarQuote at h
  split at h
  · cases h
    exact ⟨[], rfl, rfl, by simp⟩
  · rename_i c cs _
    split at h
    · rename_i hc
      cases h
      rw [Bool.and_eq_true, decide_eq_true_eq] at hc
      refine ⟨c :: cs.takeWhile isWord, ?_, by simp [Sql.delimiter], ?_⟩
      · simp only [isTag, hc.1, Bool.true_and, all_eq_true]
        exact fun x hx => mem_takeWhile_imp hx
      · obtain ⟨r, hr⟩ : ∃ r, cs.dropWhile isWord = '$' :: r := by
          cases hdrop : cs.dropWhile isWord with
          | nil => simp [hdrop] at hc
          | cons e r => exact ⟨r, by simpa [hdrop] using hc.2⟩
        refine ⟨r, ?_⟩
        conv_rhs => rw [← takeWhile_append_dropWhile (p := isWord) (l := cs), hr]
        simp
    · cases h
  · cases h

theorem dollarQuote_delimiter {tag : Text} (h : isTag tag = true) (cs : Text) :
    dollarQuote (Sql.delimiter tag ++ cs) = some (Sql.delimiter tag) := by
  cases tag with
  | nil => rfl
  | cons c tag =>
    simp only [isTag, Bool.and_eq_true, all_eq_true] at h
    have hne : c ≠ '$' := by
      rintro rfl
      exact absurd h.1 (by decide)
    have hdollar : isWord '$' = false := by decide
    have hdrop : (tag ++ '$' :: cs).dropWhile isWord = '$' :: cs := by
      rw [dropWhile_append_of_pos h.2, dropWhile_cons_of_neg (by simp [hdollar])]
    have htake : (tag ++ '$' :: cs).takeWhile isWord = tag := by
      rw [takeWhile_append_of_pos h.2, takeWhile_cons_of_neg (by simp [hdollar]),
        append_nil]
    have happ : Sql.delimiter (c :: tag) ++ cs = '$' :: c :: (tag ++ '$' :: cs) := by
      simp [Sql.delimiter]
    rw [happ, dollarQuote]
    · simp only [h.1, hdrop, htake, head?_cons, decide_true, Bool.and_self, if_true]
      rfl
    · exact hne

/-- A tag that can be closed. -/
@[grind =] def Loop.Runs (s : Loop) : Prop := s.mode ≠ .dollarTag []

/-- An iteration takes characters over, or ends a statement. -/
theorem Loop.step_cases (s : Loop) (hrest : s.rest = ch :: cs) (hs : s.Runs) :
    (∃ n m, s.step = s.take (n + 1) m ∧ m ≠ .dollarTag []) ∨
      ch = ';' ∧
        s.step = { s with rest := cs, buf := [], statements := s.statements ++ push s.buf } := by
  unfold step
  rw [hrest]
  simp only
  cases hm : s.mode with
  | inLineComment =>
    refine .inl ⟨0, _, rfl, ?_⟩
    split <;> simp
  | inBlockComment =>
    refine .inl ?_
    simp only
    split_ifs
    · exact ⟨1, _, rfl, by simp⟩
    · exact ⟨0, _, rfl, by simp⟩
  | inSingle =>
    refine .inl ?_
    simp only
    split_ifs
    · exact ⟨1, _, rfl, by simp⟩
    · exact ⟨0, _, rfl, by simp⟩
    · exact ⟨0, _, rfl, by simp⟩
  | dollarTag tag =>
    refine .inl ?_
    simp only
    cases tag with
    | nil => exact absurd hm hs
    | cons d tag =>
      split_ifs
      · exact ⟨tag.length, _, rfl, by simp⟩
      · exact ⟨0, _, rfl, by simp⟩
  | outside =>
    simp only
    by_cases hline : ch = '-' ∧ cs.head? = some '-'
    · exact .inl ⟨0, _, if_pos hline, by simp⟩
    by_cases hblock : ch = '/' ∧ cs.head? = some '*'
    · exact .inl ⟨1, _, by rw [if_neg hline, if_pos hblock], by simp⟩
    by_cases hquote : ch = quote
    · exact .inl ⟨0, _, by rw [if_neg hline, if_neg hblock, if_pos hquote], by simp⟩
    rw [if_neg hline, if_neg hblock, if_neg hquote]
    cases hd : dollarQuote (ch :: cs) with
    | some d =>
      obtain ⟨tag, -, rfl, -⟩ := dollarQuote_eq_some hd
      exact .inl ⟨_, _, rfl, by simp [Sql.delimiter]⟩
    | none =>
      by_cases hsemi : ch = ';'
      · exact .inr ⟨hsemi, by simp [hsemi]⟩
      · exact .inl ⟨0, .outside, by simp [hsemi], by simp⟩

theorem Loop.step_runs (hs : s.Runs) : s.step.Runs := by
  cases hrest : s.rest with
  | nil => simpa [step, hrest] using hs
  | cons ch cs =>
    rcases s.step_cases hrest hs with ⟨n, m, h, hm⟩ | ⟨-, h⟩
    · simpa [h, take, Runs] using hm
    · simpa [h, Runs] using hs

theorem Loop.length_step_lt (hs : s.Runs) (hne : s.rest ≠ []) :
    s.step.rest.length < s.rest.length := by
  obtain ⟨ch, cs, hrest⟩ := exists_cons_of_ne_nil hne
  rcases s.step_cases hrest hs with ⟨n, m, h, -⟩ | ⟨-, h⟩
  · simp only [h, take, hrest, drop_succ_cons, length_drop, length_cons]
    omega
  · simp [h, hrest]

/-- More iterations than characters make no difference. -/
theorem Loop.run_succ (hs : s.Runs) (hn : s.rest.length ≤ n) :
    Loop.run (n + 1) s = Loop.run n s := by
  induction n generalizing s with
  | zero =>
    have hnil : s.rest = [] := length_eq_zero_iff.mp (by omega)
    simp [run, step, hnil]
  | succ n ih =>
    by_cases hnil : s.rest = []
    · have hstep : s.step = s := by simp [step, hnil]
      rw [run, hstep]
    · have hlt := length_step_lt hs hnil
      rw [run, ih (step_runs hs) (by omega), run]

theorem Loop.run_of_length_le (hs : s.Runs) (hn : s.rest.length ≤ n) :
    Loop.run n s = Loop.run s.rest.length s := by
  induction n, hn using Nat.le_induction with
  | base => rfl
  | succ n hn ih => rw [run_succ hs hn, ih]

/-- The statements at the end of the loop. -/
@[grind =] def Loop.finish (s : Loop) : List Text :=
  (Loop.run s.rest.length s).statements ++ push (Loop.run s.rest.length s).buf

theorem Loop.finish_nil (buf : Text) (sts : List Text) (m : Mode) :
    finish ⟨[], buf, sts, m⟩ = sts ++ push buf := rfl

theorem Loop.finish_step (hs : s.Runs) (hne : s.rest ≠ []) : s.finish = s.step.finish := by
  have hlt := length_step_lt hs hne
  obtain ⟨n, hn⟩ : ∃ n, s.rest.length = n + 1 := ⟨s.rest.length - 1, by omega⟩
  rw [finish, finish, hn, run, run_of_length_le (step_runs hs) (by omega)]

/-- The same position behind earlier statements. -/
def Loop.behind (sts : List Text) (s : Loop) : Loop :=
  { s with statements := sts ++ s.statements }

/-- The loop only appends to the statements. -/
theorem Loop.step_behind (sts : List Text) (s : Loop) :
    (s.behind sts).step = s.step.behind sts := by
  obtain ⟨rest, buf, sts', m⟩ := s
  cases rest with
  | nil => rfl
  | cons ch cs =>
    cases m with
    | outside =>
      simp only [step, behind]
      cases dollarQuote (ch :: cs) with
      | some tag =>
        simp only
        split_ifs <;> rfl
      | none =>
        simp only
        split_ifs
        · rfl
        · rfl
        · rfl
        · simp
        · rfl
    | _ =>
      simp only [step, behind]
      try split_ifs
      all_goals rfl

theorem Loop.run_behind (sts : List Text) (n : ℕ) (s : Loop) :
    run n (s.behind sts) = (run n s).behind sts := by
  induction n generalizing s with
  | zero => rfl
  | succ n ih => rw [run, step_behind, ih, run]

theorem Loop.finish_behind (sts : List Text) (s : Loop) :
    (s.behind sts).finish = sts ++ s.finish := by
  have hrest : (s.behind sts).rest = s.rest := rfl
  rw [finish, hrest, run_behind, finish, ← append_assoc]
  rfl

theorem splitSqlStatements_eq (sql : Text) :
    splitSqlStatements sql = Loop.finish ⟨sql, [], [], .outside⟩ := rfl

/-! ## One quote or comment -/

/-- The mode ends with the text. -/
inductive Closes : Mode → Text → Prop where
  | inLineComment : Closes .inLineComment ['\n']
  | inBlockComment : Closes .inBlockComment ['*', '/']
  | dollarTag (tag : Text) : Closes (.dollarTag (Sql.delimiter tag)) (Sql.delimiter tag)

theorem Closes.ne_dollarTag_nil (h : Closes m w) : m ≠ .dollarTag [] := by
  cases h <;> simp [Sql.delimiter]

theorem Closes.runs (h : Closes m w) (cs buf : Text) (sts : List Text) :
    Loop.Runs ⟨cs, buf, sts, m⟩ := h.ne_dollarTag_nil

theorem Loop.take_append (w cs buf : Text) (sts : List Text) (m m' : Mode) :
    take ⟨w ++ cs, buf, sts, m⟩ w.length m' = ⟨cs, buf ++ w, sts, m'⟩ := by
  simp [take]

/-- In a mode that `w` ends, the loop takes `w` over and is outside again. -/
theorem Closes.step_of_prefix (h : Closes m w) (hw : w <+: ch :: cs) (buf : Text)
    (sts : List Text) :
    Loop.step ⟨ch :: cs, buf, sts, m⟩ = Loop.take ⟨ch :: cs, buf, sts, m⟩ w.length .outside := by
  cases h with
  | inLineComment =>
    obtain ⟨rfl, -⟩ := cons_prefix_cons.mp hw
    rfl
  | inBlockComment =>
    obtain ⟨r, hr⟩ := hw
    obtain ⟨rfl, rfl⟩ := List.cons.inj hr
    rfl
  | dollarTag tag =>
    have hch : '$' = ch := (cons_prefix_cons.mp hw).1
    simp only [Loop.step]
    rw [if_pos ⟨hch.symm, hw⟩]

/-- In front of any other character it goes on. -/
theorem Closes.step_of_not_prefix (h : Closes m w) (hw : ¬ w <+: ch :: cs) (buf : Text)
    (sts : List Text) :
    Loop.step ⟨ch :: cs, buf, sts, m⟩ = Loop.take ⟨ch :: cs, buf, sts, m⟩ 1 m := by
  cases h with
  | inLineComment =>
    have hch : ch ≠ '\n' := fun hc => hw (by simp [hc])
    simp only [Loop.step, if_neg hch]
  | inBlockComment =>
    have hch : ¬ (ch = '*' ∧ cs.head? = some '/') := by
      rintro ⟨rfl, hcs⟩
      obtain ⟨r, rfl⟩ := head?_eq_some_iff.mp hcs
      exact hw (by simp)
    simp only [Loop.step, if_neg hch]
  | dollarTag tag =>
    simp only [Loop.step]
    rw [if_neg (fun hc => hw hc.2)]

/-- A mode whose end does not occur is left open. -/
theorem Closes.finish_open (h : Closes m w) (hsemi : ';' ∉ w) (hrest : Ends rest)
    (hbody : ¬ w <:+: body) (buf : Text) (sts : List Text) :
    Loop.finish ⟨body ++ rest, buf, sts, m⟩ = Loop.finish ⟨rest, buf ++ body, sts, m⟩ := by
  induction body generalizing buf with
  | nil => simp
  | cons c body ih =>
    rw [infix_cons_iff, not_or] at hbody
    have hp : ¬ w <+: c :: (body ++ rest) := fun hw => hbody.1 (hrest.prefix_of_append hsemi hw)
    rw [cons_append, Loop.finish_step (h.runs _ _ _) (cons_ne_nil _ _),
      h.step_of_not_prefix hp]
    simp [Loop.take, ih hbody.2]

/-- A mode is left after the first occurrence of its end. -/
theorem Closes.finish_closed (h : Closes m w) (hne : w ≠ []) (hbody : ¬ w <:+: body ++ w.dropLast)
    (rest buf : Text) (sts : List Text) :
    Loop.finish ⟨body ++ (w ++ rest), buf, sts, m⟩ =
      Loop.finish ⟨rest, buf ++ (body ++ w), sts, .outside⟩ := by
  induction body generalizing buf with
  | nil =>
    obtain ⟨d, w', rfl⟩ := exists_cons_of_ne_nil hne
    rw [nil_append, cons_append,
      Loop.finish_step (h.runs _ _ _) (cons_ne_nil _ _),
      h.step_of_prefix (by simp)]
    simp [Loop.take]
  | cons c body ih =>
    rw [cons_append, infix_cons_iff, not_or] at hbody
    have hp : ¬ w <+: c :: (body ++ (w ++ rest)) := by
      intro hw
      refine hbody.1 (prefix_of_prefix_length_le hw ?_ ?_)
      · have hdrop : w.dropLast <+: w ++ rest :=
          (List.dropLast_prefix w).trans (prefix_append ..)
        simpa using hdrop
      · simp only [length_cons, length_append, length_dropLast]
        omega
    rw [cons_append, Loop.finish_step (h.runs _ _ _) (cons_ne_nil _ _),
      h.step_of_not_prefix hp]
    simp [Loop.take, ih hbody.2]

theorem Loop.finish_openString (body rest buf : Text) (sts : List Text) :
    finish ⟨doubled quote body ++ rest, buf, sts, .inSingle⟩ =
      finish ⟨rest, buf ++ doubled quote body, sts, .inSingle⟩ := by
  induction body generalizing buf with
  | nil => simp [doubled]
  | cons c body ih =>
    by_cases hc : c = quote
    · simp only [doubled, if_pos hc, cons_append]
      rw [finish_step (by simp [Runs]) (by simp)]
      simp [step, take, ih]
    · simp only [doubled, if_neg hc, cons_append]
      rw [finish_step (by simp [Runs]) (by simp)]
      simp [step, take, hc, ih]

theorem Loop.finish_string (hrest : rest.head? ≠ some quote) (buf : Text) (sts : List Text) :
    finish ⟨doubled quote body ++ quote :: rest, buf, sts, .inSingle⟩ =
      finish ⟨rest, buf ++ (doubled quote body ++ [quote]), sts, .outside⟩ := by
  induction body generalizing buf with
  | nil =>
    simp only [doubled, nil_append]
    rw [finish_step (by simp [Runs]) (by simp)]
    simp [step, take, hrest]
  | cons c body ih =>
    by_cases hc : c = quote
    · simp only [doubled, if_pos hc, cons_append]
      rw [finish_step (by simp [Runs]) (by simp)]
      simp [step, take, ih]
    · simp only [doubled, if_neg hc, cons_append]
      rw [finish_step (by simp [Runs]) (by simp)]
      simp [step, take, hc, ih]

/-- The beginning of a comment or dollar quote sets the flag. -/
theorem Delimited.finish_opening {o : Text} (h : Delimited o w) :
    ∃ m, Closes m w ∧ ∀ cs buf sts, Loop.finish ⟨o ++ cs, buf, sts, .outside⟩ =
      Loop.finish ⟨cs, buf ++ o, sts, m⟩ := by
  cases h with
  | lineComment =>
    refine ⟨_, .inLineComment, fun cs buf sts => ?_⟩
    rw [cons_append, Loop.finish_step (by simp [Loop.Runs]) (by simp),
      show Loop.step ⟨'-' :: (['-'] ++ cs), buf, sts, .outside⟩ =
        ⟨'-' :: cs, buf ++ ['-'], sts, .inLineComment⟩ from rfl,
      Loop.finish_step (by simp [Loop.Runs]) (by simp)]
    simp [Loop.step, Loop.take]
  | blockComment =>
    refine ⟨_, .inBlockComment, fun cs buf sts => ?_⟩
    rw [cons_append, Loop.finish_step (by simp [Loop.Runs]) (by simp)]
    rfl
  | dollarQuote tag htag =>
    refine ⟨_, .dollarTag tag, fun cs buf sts => ?_⟩
    have hd := dollarQuote_delimiter htag cs
    have hquote : '$' ≠ quote := by decide
    have hstep : Loop.step ⟨Sql.delimiter tag ++ cs, buf, sts, .outside⟩ =
        ⟨cs, buf ++ Sql.delimiter tag, sts, .dollarTag (Sql.delimiter tag)⟩ := by
      rw [← Loop.take_append]
      simp only [Sql.delimiter, cons_append] at hd ⊢
      simp only [Loop.step, hd, if_neg hquote]
      rfl
    rw [Loop.finish_step (by simp [Loop.Runs]) (by simp [Sql.delimiter]), hstep]

theorem Loop.finish_char {c : Char} (hsemi : c ≠ ';') (hquote : c ≠ quote)
    (hopens : ¬ Opens (c :: cs)) (buf : Text) (sts : List Text) :
    finish ⟨c :: cs, buf, sts, .outside⟩ = finish ⟨cs, buf ++ [c], sts, .outside⟩ := by
  have hline : ¬ (c = '-' ∧ cs.head? = some '-') := by
    rintro ⟨rfl, hcs⟩
    obtain ⟨r, rfl⟩ := head?_eq_some_iff.mp hcs
    exact hopens ⟨_, _, .lineComment, by simp⟩
  have hblock : ¬ (c = '/' ∧ cs.head? = some '*') := by
    rintro ⟨rfl, hcs⟩
    obtain ⟨r, rfl⟩ := head?_eq_some_iff.mp hcs
    exact hopens ⟨_, _, .blockComment, by simp⟩
  have hdollar : dollarQuote (c :: cs) = none := by
    cases hd : dollarQuote (c :: cs) with
    | none => rfl
    | some d =>
      obtain ⟨tag, htag, rfl, hp⟩ := dollarQuote_eq_some hd
      exact absurd ⟨_, _, .dollarQuote tag htag, hp⟩ hopens
  rw [finish_step (by simp [Runs]) (by simp)]
  simp only [step, if_neg hline, if_neg hblock, if_neg hquote, hdollar, if_neg hsemi]
  rfl

end FestivalPlanner.Migrations
