import FestivalPlanner.Lib.Trim
import FestivalPlanner.Server.SqlSplit

/-!
# The texts between the semicolons of a script

What `splitSqlStatements` makes of texts with semicolons between them.

* `Reads.finish` — a text that reads as strings, dollar quotes, comments and other characters
  is taken over to its end;
* `Loop.finish_cut`, `Loop.finish_swallow` — a semicolon outside cuts the text, and an open
  quote or comment swallows the semicolon behind it;
* `splitSqlStatements_joined_iff` — the texts come back exactly when each of them reads so.
-/

namespace FestivalPlanner.Migrations

open List

open Sql (Text quote doubled)
open Js (Visible)

/-! ## The text of one statement -/

/-- The loop takes a text that reads so over to its end; it is outside again when nothing is
left open. -/
theorem Reads.finish {p : Text} {closed : Bool} (h : Reads p closed) {rest : Text}
    (hrest : Ends rest) (buf : Text) (sts : List Text) :
    ∃ m, (m = .outside ↔ closed = true) ∧ m ≠ .dollarTag [] ∧
      Loop.finish ⟨p ++ rest, buf, sts, .outside⟩ = Loop.finish ⟨rest, buf ++ p, sts, m⟩ := by
  induction h generalizing buf with
  | nil => exact ⟨.outside, by simp, by simp, by simp⟩
  | @char c cs closed hsemi hquote hopens _ ih =>
    obtain ⟨m, hm, hok, hcs⟩ := ih (buf ++ [c])
    refine ⟨m, hm, hok, ?_⟩
    have hopens' : ¬ Opens (c :: (cs ++ rest)) :=
      fun ho => hopens (@Ends.opens_of_append (c :: cs) rest hrest ho)
    rw [cons_append, Loop.finish_char hsemi hquote hopens', hcs]
    simp
  | @string body cs closed hcs _ ih =>
    obtain ⟨m, hm, hok, hfin⟩ := ih (buf ++ quote :: (doubled quote body ++ [quote]))
    refine ⟨m, hm, hok, ?_⟩
    have hhead : (cs ++ rest).head? ≠ some quote := by
      cases cs with
      | nil =>
        intro hq
        exact absurd (hrest _ hq) (by decide)
      | cons d cs => simpa using hcs
    rw [cons_append, Loop.finish_step (by simp [Loop.Runs]) (by simp),
      show Loop.step ⟨quote :: (doubled quote body ++ quote :: cs ++ rest), buf, sts, .outside⟩ =
        ⟨doubled quote body ++ quote :: cs ++ rest, buf ++ [quote], sts, .inSingle⟩ from rfl,
      append_assoc, cons_append, Loop.finish_string hhead, append_assoc,
      singleton_append, hfin]
    simp
  | openString body =>
    refine ⟨.inSingle, by simp, by simp, ?_⟩
    rw [cons_append, Loop.finish_step (by simp [Loop.Runs]) (by simp),
      show Loop.step ⟨quote :: (doubled quote body ++ rest), buf, sts, .outside⟩ =
        ⟨doubled quote body ++ rest, buf ++ [quote], sts, .inSingle⟩ from rfl,
      Loop.finish_openString]
    simp
  | @delimited o w body cs closed hd hbody _ ih =>
    obtain ⟨m, hm, hok, hfin⟩ := ih (buf ++ (o ++ (body ++ w)))
    refine ⟨m, hm, hok, ?_⟩
    obtain ⟨m', hclose, hopen⟩ := hd.finish_opening
    rw [append_assoc, hopen, append_assoc, append_assoc,
      hclose.finish_closed hd.closing_ne_nil hbody, append_assoc, hfin]
    simp
  | @openDelimited o w body hd hbody =>
    obtain ⟨m', hclose, hopen⟩ := hd.finish_opening
    refine ⟨m', ?_, hclose.ne_dollarTag_nil, ?_⟩
    · cases hclose <;> simp
    · rw [append_assoc, hopen, hclose.finish_open hd.not_mem.2 hrest hbody]
      simp

theorem push_of_visible {cs : Text} (h : Visible cs) : push cs = [Js.trim cs] := by
  rw [push, if_neg (Js.trim_ne_nil_iff.mpr h)]

/-- What the loop has taken over is the beginning of the next statement. -/
theorem Loop.finish_push (s : Loop) (hs : s.Runs) :
    ∃ x sts, s.finish = s.statements ++ (push (s.buf ++ x) ++ sts) := by
  induction hn : s.rest.length using Nat.strong_induction_on generalizing s with
  | _ n ih =>
    subst hn
    cases hrest : s.rest with
    | nil => exact ⟨[], [], by simp [finish, hrest, run]⟩
    | cons ch cs =>
      have hne : s.rest ≠ [] := by simp [hrest]
      have hlt := length_step_lt hs hne
      obtain ⟨x, sts, hx⟩ := ih _ hlt s.step (step_runs hs) rfl
      rw [finish_step hs hne, hx]
      rcases s.step_cases hrest hs with ⟨n, m, h, -⟩ | ⟨-, h⟩
      · exact ⟨s.rest.take (n + 1) ++ x, sts, by simp [h, take]⟩
      · exact ⟨[], push x ++ sts, by simp [h]⟩

/-- A character that is neither white space nor a semicolon ends up in a statement. -/
theorem Loop.finish_ne_nil (s : Loop) (hs : s.Runs) {c : Char} (hc : c ∈ s.buf ++ s.rest)
    (hspace : Js.isSpace c = false) (hsemi : c ≠ ';') : s.finish ≠ [] := by
  induction hn : s.rest.length using Nat.strong_induction_on generalizing s with
  | _ n ih =>
    subst hn
    cases hrest : s.rest with
    | nil =>
      have hbuf : Visible s.buf := ⟨c, by simpa [hrest] using hc, hspace⟩
      simp [finish, hrest, run, push_of_visible hbuf]
    | cons ch cs =>
      have hne : s.rest ≠ [] := by simp [hrest]
      have hlt := length_step_lt hs hne
      rcases s.step_cases hrest hs with ⟨n, m, h, -⟩ | ⟨hch, h⟩
      · rw [finish_step hs hne]
        refine ih _ hlt s.step (step_runs hs) ?_ rfl
        simpa [h, take] using hc
      · rw [hrest, mem_append, mem_cons] at hc
        rcases hc with hbuf | rfl | hcs
        · obtain ⟨x, sts, hx⟩ := finish_push s.step (step_runs hs)
          rw [finish_step hs hne, hx, h, push_of_visible ⟨c, hbuf, hspace⟩]
          simp
        · exact absurd hch hsemi
        · rw [finish_step hs hne]
          exact ih _ hlt s.step (step_runs hs) (by simpa [h] using hcs) rfl

theorem splitSqlStatements_ne_nil {sql : Text} {c : Char} (hc : c ∈ sql)
    (hspace : Js.isSpace c = false) (hsemi : c ≠ ';') : splitSqlStatements sql ≠ [] :=
  Loop.finish_ne_nil ⟨sql, [], [], .outside⟩ (by simp [Loop.Runs]) (by simpa using hc) hspace hsemi

/-! ## The texts between semicolons -/

/-- A semicolon in the text stands behind some visible character. -/
def Leads (p : Text) : Prop := ∀ x y, p = x ++ ';' :: y → Visible x

/-- A text that does not read so begins with a visible character that a quote or comment
begins with. -/
theorem Reads.visible {p : Text} (h : Reads p false) : Visible p := by
  generalize hc : false = closed at h
  induction h with
  | nil => cases hc
  | @char c cs _ _ _ _ _ ih => exact (ih hc).append_right [c]
  | @string body cs _ _ _ _ => exact ⟨quote, by simp, by decide⟩
  | openString body => exact ⟨quote, by simp, by decide⟩
  | @delimited o w body cs _ hd _ _ _ =>
    cases hd
    · exact ⟨'-', by simp, by decide⟩
    · exact ⟨'/', by simp, by decide⟩
    · exact ⟨'$', by simp [Sql.delimiter], by decide⟩
  | @openDelimited o w body hd _ =>
    cases hd
    · exact ⟨'-', by simp, by decide⟩
    · exact ⟨'/', by simp, by decide⟩
    · exact ⟨'$', by simp [Sql.delimiter], by decide⟩

/-- A text with a semicolon outside comes back cut. -/
theorem Loop.finish_cut {x y : Text} (hx : Reads x true) (hvis : Visible x) (p : Text)
    (hp : p = x ++ ';' :: y) (rest : Text) (ps : List Text) :
    finish ⟨p ++ rest, [], [], .outside⟩ ≠ push p ++ ps := by
  subst hp
  obtain ⟨m, hm, -, hfin⟩ := hx.finish (Ends.semicolon (y ++ rest)) [] []
  obtain rfl := hm.mpr rfl
  rw [append_assoc, cons_append, hfin, finish_step (by simp [Runs]) (by simp)]
  obtain ⟨z, sts, hz⟩ := finish_push (step ⟨';' :: (y ++ rest), [] ++ x, [], .outside⟩)
    (step_runs (by simp [Runs]))
  have hstep : (step ⟨';' :: (y ++ rest), [] ++ x, [], .outside⟩).statements = push x := by
    have hsemi : ';' ≠ quote := by decide
    simp [step, hsemi, dollarQuote]
  rw [hz, hstep, push_of_visible hvis, push_of_visible (hvis.append_left _)]
  intro h
  have hlt := Js.length_trim_lt hvis (c := ';') (by decide) y
  rw [(List.cons.inj h).1] at hlt
  omega

/-- A text that leaves a quote or comment open swallows the semicolon behind it. -/
theorem Loop.finish_swallow {p : Text} (hp : Reads p false) (rest : Text) (ps : List Text) :
    finish ⟨p ++ ';' :: rest, [], [], .outside⟩ ≠ push p ++ ps := by
  obtain ⟨m, hm, hok, hfin⟩ := hp.finish (Ends.semicolon rest) [] []
  have hout : m ≠ .outside := fun h => by simpa using hm.mp h
  have hstep : step ⟨';' :: rest, [] ++ p, [], m⟩ = ⟨rest, p ++ [';'], [], m⟩ := by
    cases m with
    | outside => exact absurd rfl hout
    | inSingle => rfl
    | inLineComment => rfl
    | inBlockComment => rfl
    | dollarTag tag => rfl
  rw [hfin, finish_step (show Runs ⟨_, _, _, m⟩ from hok) (by simp), hstep]
  obtain ⟨z, sts, hz⟩ := finish_push ⟨rest, p ++ [';'], [], m⟩ hok
  have hvis : Visible (p ++ [';'] ++ z) := (hp.visible.append_left _).append_left _
  rw [hz, push_of_visible hvis, push_of_visible hp.visible]
  intro h
  have hlt := Js.length_trim_lt hp.visible (c := ';') (by decide) z
  rw [← (List.cons.inj h).1] at hlt
  simp at hlt

/-- Texts with semicolons between them come back, trimmed and without the empty ones, exactly
when each of them reads so. -/
theorem splitSqlStatements_joined_iff {ps : List Text} (hne : ps ≠ [])
    (hleads : ∀ p ∈ ps, Leads p) :
    splitSqlStatements (Sql.joined ps) = ps.flatMap push ↔ ReadsEach ps := by
  rw [splitSqlStatements_eq]
  induction ps with
  | nil => exact absurd rfl hne
  | cons p ps ih =>
    have hp := hleads p (mem_cons_self ..)
    cases ps with
    | nil =>
      rcases reads_or_semicolon p with ⟨closed, hr⟩ | ⟨x, y, hxy, hx⟩
      · obtain ⟨m, -, -, hfin⟩ := hr.finish Ends.nil [] []
        rw [append_nil] at hfin
        refine ⟨fun _ => ⟨closed, hr⟩, fun _ => ?_⟩
        rw [Sql.joined, hfin, Loop.finish_nil]
        simp
      · have hcut := Loop.finish_cut hx (hp x y hxy) p hxy [] []
        constructor
        · intro h
          exact absurd (by simpa [Sql.joined] using h) hcut
        · rintro ⟨closed, hr⟩
          obtain ⟨m, -, -, hfin⟩ := hr.finish Ends.nil [] []
          exact absurd (by rw [hfin, Loop.finish_nil]; simp) hcut
    | cons q ps =>
      have hrest := ih (by simp) (fun r hr => hleads r (mem_cons_of_mem _ hr))
      rw [Sql.joined, flatMap_cons, ReadsEach]
      have hclosed (hr : Reads p true) :
          Loop.finish ⟨p ++ ';' :: Sql.joined (q :: ps), [], [], .outside⟩ =
            push p ++ Loop.finish ⟨Sql.joined (q :: ps), [], [], .outside⟩ := by
        obtain ⟨m, hm, -, hfin⟩ := hr.finish (Ends.semicolon (Sql.joined (q :: ps))) [] []
        obtain rfl := hm.mpr rfl
        have hsemi : ';' ≠ quote := by decide
        have hstep : Loop.step ⟨';' :: Sql.joined (q :: ps), [] ++ p, [], .outside⟩ =
            Loop.behind (push p) ⟨Sql.joined (q :: ps), [], [], .outside⟩ := by
          simp [Loop.step, Loop.behind, hsemi, dollarQuote]
        rw [hfin, Loop.finish_step (by simp [Loop.Runs]) (by simp), hstep, Loop.finish_behind]
      constructor
      · intro h
        rcases reads_or_semicolon p with ⟨closed, hr⟩ | ⟨x, y, hxy, hx⟩
        · cases closed with
          | false => exact absurd h (Loop.finish_swallow hr _ _)
          | true =>
            rw [hclosed hr] at h
            exact ⟨hr, hrest.mp (append_cancel_left h)⟩
        · exact absurd h (Loop.finish_cut hx (hp x y hxy) p hxy _ _)
      · rintro ⟨hr, heach⟩
        rw [hclosed hr, hrest.mpr heach]

end FestivalPlanner.Migrations
