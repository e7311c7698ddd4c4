import Mathlib.Data.List.Infix

/-!
# The lexical structure of PostgreSQL scripts

The tokens into which the scanner of PostgreSQL (version 16, with standard conforming
strings) cuts a script, as far as they decide where a statement ends.

* `Token` — the kinds of tokens, with the text of each;
* `Token.Fits` — a token is well formed, and the text after it does not make it longer;
* `Lexed` — the tokens are those of their text;
* `pieces` — the texts between the semicolons outside every other token.

A number is any run of letters, digits, underscores and dots that begins with a digit, and
an operator is cut into its characters: neither contains a semicolon, a quote or the
beginning of a comment.
-/

namespace Sql

open List

abbrev Text := List Char

/-! ## Characters -/

/-- The single quote. -/
def quote : Char := Char.ofNat 39

/-- The double quote. -/
def doubleQuote : Char := Char.ofNat 34

def backslash : Char := Char.ofNat 92

/-- Letters, the underscore, and every character outside ASCII. -/
def isIdentStart (c : Char) : Bool := c.isAlpha || c = '_' || 128 ≤ c.toNat

def isIdentCont (c : Char) : Bool := isIdentStart c || c.isDigit || c = '$'

/-- A character that can follow a digit in a number. -/
def isNumberCont (c : Char) : Bool := isIdentStart c || c.isDigit || c = '.'

def isTagCont (c : Char) : Bool := isIdentStart c || c.isDigit

def isNewline (c : Char) : Bool := c = '\n' || c = '\r'

/-- White space: blank, tab, the two line ends, vertical tab and form feed. -/
def isBlank (c : Char) : Bool := isNewline c || c = ' ' || c.toNat ∈ [9, 11, 12]

/-- The characters of operators, brackets and separators, the semicolon apart. -/
def isOperator (c : Char) : Bool :=
  c ∈ [',', '(', ')', '[', ']', '.', ':', '+', '-', '*', '/', '%', '^', '<', '>', '=', '~', '!',
    '@', '#', '&', '|', '?', Char.ofNat 96]

/-! ## Bodies of quotes and comments -/

/-- A text with every occurrence of the quote `q` doubled. -/
def doubled (q : Char) : Text → Text
  | [] => []
  | c :: cs => if c = q then q :: q :: doubled q cs else c :: doubled q cs

/-- The comment that is open `depth + 1` times ends exactly at the end of the text. -/
def closesAtEnd : ℕ → Text → Bool
  | _, [] => false
  | depth, '/' :: '*' :: cs => closesAtEnd (depth + 1) cs
  | 0, '*' :: '/' :: cs => cs.isEmpty
  | depth + 1, '*' :: '/' :: cs => closesAtEnd depth cs
  | depth, _ :: cs => closesAtEnd depth cs

/-- The text between the quotes of an escape string: a backslash goes with the character
after it, and a quote comes in pairs. -/
def isEscapeBody : Text → Bool
  | [] => true
  | [c] => c ≠ quote && c ≠ backslash
  | c :: d :: cs =>
      if c = backslash then isEscapeBody cs
      else if c = quote then d = quote && isEscapeBody cs
      else isEscapeBody (d :: cs)

/-- `$tag$` -/
@[grind =] def delimiter (tag : Text) : Text := '$' :: (tag ++ ['$'])

/-- The tag of a dollar quote: empty, or an identifier without a dollar sign. -/
def isTag : Text → Bool
  | [] => true
  | c :: cs => isIdentStart c && cs.all isTagCont

theorem not_infix_of_length {w cs : Text} (h : cs.length < w.length) : ¬ w <:+: cs :=
  fun hw => absurd hw.length_le (by omega)

/-- A text either has no occurrence of `w`, or a first one. -/
theorem exists_first {w : Text} (hw : w ≠ []) (cs : Text) :
    ¬ w <:+: cs ∨ ∃ body rest, cs = body ++ (w ++ rest) ∧ ¬ w <:+: body ++ w.dropLast := by
  have hlen : w.dropLast.length < w.length := by
    have := length_pos_of_ne_nil hw
    rw [length_dropLast]
    omega
  induction cs with
  | nil => exact .inl (not_infix_of_length (length_pos_of_ne_nil hw))
  | cons c cs ih =>
    by_cases hp : w <+: c :: cs
    · obtain ⟨rest, hrest⟩ := hp
      exact .inr ⟨[], rest, hrest.symm, not_infix_of_length hlen⟩
    · rcases ih with hno | ⟨body, rest, rfl, hbody⟩
      · exact .inl (by simp [infix_cons_iff, hp, hno])
      · refine .inr ⟨c :: body, rest, rfl, ?_⟩
        rw [cons_append, infix_cons_iff]
        rintro (h | h)
        · refine hp (h.trans ?_)
          have hw' : w.dropLast <+: w ++ rest := (List.dropLast_prefix w).trans (prefix_append ..)
          simpa using hw'
        · exact hbody h

/-- What follows an opening quote is the string, up to the quote that is not doubled. -/
theorem exists_doubled (q : Char) : ∀ cs : Text,
    (∃ body, cs = doubled q body) ∨
      ∃ body rest, cs = doubled q body ++ q :: rest ∧ rest.head? ≠ some q
  | [] => .inl ⟨[], rfl⟩
  | [c] => by
    by_cases hc : c = q
    · exact .inr ⟨[], [], by simp [doubled, hc], by simp⟩
    · exact .inl ⟨[c], by simp [doubled, hc]⟩
  | c :: d :: cs => by
    by_cases hc : c = q
    · by_cases hd : d = q
      · subst hc hd
        rcases exists_doubled d cs with ⟨body, rfl⟩ | ⟨body, rest, rfl, hrest⟩
        · exact .inl ⟨d :: body, by simp [doubled]⟩
        · exact .inr ⟨d :: body, rest, by simp [doubled], hrest⟩
      · exact .inr ⟨[], d :: cs, by simp [doubled, hc], by simpa using hd⟩
    · rcases exists_doubled q (d :: cs) with ⟨body, h⟩ | ⟨body, rest, h, hrest⟩
      · exact .inl ⟨c :: body, by simp [doubled, hc, h]⟩
      · exact .inr ⟨c :: body, rest, by simp [doubled, hc, h], hrest⟩

/-! ## Tokens -/

inductive Token where
  | space (c : Char)
  | semicolon
  /-- `--` and the rest of the line, its end left out. -/
  | lineComment (body : Text)
  /-- A comment, nested or not, with all that follows its first two characters. -/
  | blockComment (tail : Text)
  /-- A string in quotes; `body` is the string itself. -/
  | string (body : Text)
  /-- `E'...'`, with the text between the quotes. -/
  | escapeString (e : Char) (body : Text)
  /-- A further part of an escape string, on a later line. -/
  | continuation (body : Text)
  | dollarString (tag body : Text)
  /-- An identifier in double quotes; `name` is the identifier itself. -/
  | quotedIdent (name : Text)
  | word (cs : Text)
  | number (cs : Text)
  /-- `$1` -/
  | param (digits : Text)
  | operator (c : Char)

namespace Token

def text : Token → Text
  | space c => [c]
  | semicolon => [';']
  | lineComment body => '-' :: '-' :: body
  | blockComment tail => '/' :: '*' :: tail
  | string body => quote :: (doubled quote body ++ [quote])
  | escapeString e body => e :: quote :: (body ++ [quote])
  | continuation body => quote :: (body ++ [quote])
  | dollarString tag body => delimiter tag ++ (body ++ delimiter tag)
  | quotedIdent name => doubleQuote :: (doubled doubleQuote name ++ [doubleQuote])
  | word cs => cs
  | number cs => cs
  | param digits => '$' :: digits
  | operator c => [c]

/-- The text begins with one of these. -/
def Starts (p : Char → Bool) : Text → Prop
  | [] => False
  | c :: _ => p c = true

/-- The text does not begin with one of these. -/
def Stops (p : Char → Bool) : Text → Prop
  | [] => True
  | c :: _ => p c = false

instance (p : Char → Bool) : ∀ cs : Text, Decidable (Starts p cs)
  | [] => .isFalse id
  | c :: _ => inferInstanceAs (Decidable (p c = true))

instance (p : Char → Bool) : ∀ cs : Text, Decidable (Stops p cs)
  | [] => .isTrue trivial
  | c :: _ => inferInstanceAs (Decidable (p c = false))

/-- The token is well formed, and it ends where `rest` begins. -/
def Fits (rest : Text) : Token → Prop
  | space c => isBlank c = true
  | semicolon => True
  | lineComment body => body.all (fun c => !isNewline c) = true ∧ Stops (fun c => !isNewline c) rest
  | blockComment tail => closesAtEnd 0 tail = true
  | string _ => Stops (fun c => c = quote) rest
  | escapeString e body =>
      (e = 'e' ∨ e = 'E') ∧ isEscapeBody body = true ∧ Stops (fun c => c = quote) rest
  | continuation body => isEscapeBody body = true ∧ Stops (fun c => c = quote) rest
  | dollarString tag body =>
      isTag tag = true ∧ ¬ delimiter tag <:+: body ++ (delimiter tag).dropLast
  | quotedIdent name => name ≠ [] ∧ Stops (fun c => c = doubleQuote) rest
  | word cs =>
      Starts isIdentStart cs ∧ cs.all isIdentCont = true ∧ Stops isIdentCont rest ∧
        ((cs = ['e'] ∨ cs = ['E']) → Stops (fun c => c = quote) rest)
  | number cs => Starts Char.isDigit cs ∧ cs.all isNumberCont = true ∧ Stops isNumberCont rest
  | param digits =>
      Starts Char.isDigit digits ∧ digits.all Char.isDigit = true ∧ Stops isTagCont rest
  | operator c =>
      isOperator c = true ∧ (c = '-' → Stops (fun d => d = '-') rest) ∧
        (c = '/' → Stops (fun d => d = '*') rest)

instance (rest : Text) : ∀ t : Token, Decidable (t.Fits rest)
  | space _ | semicolon | lineComment _ | blockComment _ | string _ | escapeString .. |
    continuation _ | dollarString .. | quotedIdent _ | word _ | number _ | param _ |
    operator _ => by
      unfold Fits
      infer_instance

end Token

/-! ## Scripts -/

/-- The text of a script. -/
def text : List Token → Text
  | [] => []
  | t :: ts => t.text ++ text ts

/-- Is the scanner behind an escape string that a later line may continue, and if so, has a
line ended since? -/
inductive Behind where
  | other
  | escapeString (newline : Bool)
  deriving DecidableEq

def Behind.after : Behind → Token → Behind
  | _, .escapeString .. => .escapeString false
  | _, .continuation _ => .escapeString false
  | .escapeString newline, .space c => .escapeString (newline || isNewline c)
  | .escapeString newline, .lineComment _ => .escapeString newline
  | _, _ => .other

/-- A quote opens a continuation behind an escape string and a line end, and a string of
its own everywhere else. -/
def Behind.Allows (b : Behind) : Token → Prop
  | .string _ => b ≠ .escapeString true
  | .continuation _ => b = .escapeString true
  | _ => True

instance (b : Behind) : ∀ t : Token, Decidable (b.Allows t)
  | .space _ | .semicolon | .lineComment _ | .blockComment _ | .string _ | .escapeString .. |
    .continuation _ | .dollarString .. | .quotedIdent _ | .word _ | .number _ | .param _ |
    .operator _ => by
      unfold Behind.Allows
      infer_instance

/-- The tokens are those into which the scanner cuts their text. -/
def LexedBehind : Behind → List Token → Prop
  | _, [] => True
  | b, t :: ts => b.Allows t ∧ t.Fits (text ts) ∧ LexedBehind (b.after t) ts

instance LexedBehind.decidable : ∀ (b : Behind) (ts : List Token), Decidable (LexedBehind b ts)
  | _, [] => .isTrue trivial
  | b, t :: ts =>
      have := LexedBehind.decidable (b.after t) ts
      inferInstanceAs (Decidable (_ ∧ _ ∧ _))

/-- A whole script. -/
def Lexed (ts : List Token) : Prop := LexedBehind .other ts

instance (ts : List Token) : Decidable (Lexed ts) :=
  inferInstanceAs (Decidable (LexedBehind _ ts))

/-! ## Statements -/

/-- The text `cs` in front of the first of the texts. -/
def inFront (cs : Text) : List Text → List Text
  | [] => [cs]
  | p :: ps => (cs ++ p) :: ps

/-- The texts between the semicolons: the terminated ones, and what follows the last one. -/
@[grind =] def pieces : List Token → List Text
  | [] => [[]]
  | .semicolon :: ts => [] :: pieces ts
  | t :: ts => inFront t.text (pieces ts)

/-- Texts with a semicolon between any two of them. -/
def joined : List Text → Text
  | [] => []
  | [p] => p
  | p :: q :: ps => p ++ ';' :: joined (q :: ps)

theorem inFront_ne_nil (cs : Text) (ps : List Text) : inFront cs ps ≠ [] := by
  cases ps <;> simp [inFront]

theorem pieces_ne_nil (ts : List Token) : pieces ts ≠ [] := by
  cases ts with
  | nil => simp [pieces]
  | cons t ts =>
    cases t with
    | semicolon => simp [pieces]
    | _ => simp only [pieces, ne_eq, inFront_ne_nil, not_false_eq_true]

theorem joined_inFront (cs : Text) {ps : List Text} (h : ps ≠ []) :
    joined (inFront cs ps) = cs ++ joined ps := by
  cases ps with
  | nil => exact absurd rfl h
  | cons p ps => cases ps <;> simp [inFront, joined]

/-- The pieces and the semicolons between them are the whole text. -/
theorem joined_pieces (ts : List Token) : joined (pieces ts) = text ts := by
  induction ts with
  | nil => rfl
  | cons t ts ih =>
    have hne := pieces_ne_nil ts
    cases t with
    | semicolon =>
      obtain ⟨p, ps, hp⟩ := exists_cons_of_ne_nil hne
      simp only [pieces, text, Token.text, ← ih, hp, joined]
      rfl
    | _ => simp only [pieces, text, joined_inFront _ hne, ih]

end Sql
