import Mathlib.Data.List.Perm.Subperm
import Mathlib.Data.List.Sort
import Mathlib.Data.String.Basic

/-!
# Following cursors

A list is handed out in pages; each page comes with a cursor for the next one.  Nothing in this
file knows what the rows and the cursors are.

* `Follow` — the rows that are visited from a cursor to the end;
* `Paged` — pages of at most `n` rows of one list, where the rows after a cursor are those that
  a test of the row before it lets pass;
* `Paged.follow_iff` — the pages partition the list exactly when the test lets the right rows
  pass at each boundary;
* `boundaries_iff_of_threshold`, `boundaries_iff` — what that says of the rows;
* `Walk`, `VisitsOnce` — the same of a list that changes between two pages;
* `visitsOnce_iff` — the pages visit what is in the list throughout exactly when the list is in
  the order of the cursors;
* `Collation`, `newestFirst`, `oldestFirst` — the order of rows by time and id.
-/

namespace Keyset

open List

variable {α γ ε : Type*}

/-- A page and the cursor of the next one. -/
structure Page (α γ : Type*) where
  items : List α
  nextCursor : Option γ
  deriving DecidableEq

/-- From the cursor `c` to the end the rows `l` are visited; a page that fails has no end. -/
inductive Follow (page : Option γ → Except ε (Page α γ)) : Option γ → List α → Prop
  | last {c : Option γ} {p : Page α γ} (hp : page c = .ok p) (hlast : p.nextCursor = none) :
      Follow page c p.items
  | next {c : Option γ} {p : Page α γ} {d : γ} {l : List α} (hp : page c = .ok p)
      (hnext : p.nextCursor = some d) (hrest : Follow page (some d) l) :
      Follow page c (p.items ++ l)

/-- What is visited is determined by the cursor. -/
theorem Follow.eq {page : Option γ → Except ε (Page α γ)} {c : Option γ} {l l' : List α}
    (h : Follow page c l) (h' : Follow page c l') : l = l' := by
  induction h generalizing l' with
  | last hp hlast =>
    cases h' with
    | last hp' _ =>
      rw [hp] at hp'
      cases hp'
      rfl
    | next hp' hnext' _ =>
      rw [hp] at hp'
      cases hp'
      rw [hlast] at hnext'
      cases hnext'
  | next hp hnext _ ih =>
    cases h' with
    | last hp' hlast' =>
      rw [hp] at hp'
      cases hp'
      rw [hnext] at hlast'
      cases hlast'
    | next hp' hnext' hrest' =>
      rw [hp] at hp'
      cases hp'
      rw [hnext] at hnext'
      cases hnext'
      rw [ih hrest']

/-! ## Pages of a list -/

/-- A page of the rows `rest`: `n` of them, and the cursor of the last one of these when at
least `m` are left. -/
def pageOf (cur : α → γ) (n m : ℕ) (rest : List α) : Page α γ :=
  { items := rest.take n
    nextCursor := if m ≤ rest.length then (rest.take n).getLast?.map cur else none }

/-- The pages of the list `l`, of `n` rows: the rows after the cursor of `r` are those that
`after r` lets pass, and there is a next page when there are `m` of them. -/
structure Paged (page : Option γ → Except ε (Page α γ)) (cur : α → γ) (after : α → α → Bool)
    (n m : ℕ) (l : List α) : Prop where
  first : page none = .ok (pageOf cur n m l)
  next : ∀ r ∈ l, page (some (cur r)) = .ok (pageOf cur n m (l.filter (after r)))
  pos : 0 < n
  le : n ≤ m
  le_succ : m ≤ n + 1
  nodup : l.Nodup

/-- Pages of the rows `rest` are as those of the rows `s`. -/
def Agree (n m : ℕ) (rest s : List α) : Prop :=
  rest.take n = s.take n ∧ (m ≤ rest.length ↔ m ≤ s.length)

/-- At each boundary of the pages of `l` the test lets pass what is a page of the rest. -/
def Boundaries (after : α → α → Bool) (n m : ℕ) (l : List α) : Prop :=
  ∀ k r, n ∣ k → 0 < k → m + k ≤ l.length + n → l[k - 1]? = some r →
    Agree n m (l.filter (after r)) (l.drop k)

variable {page : Option γ → Except ε (Page α γ)} {cur : α → γ} {after : α → α → Bool} {n m : ℕ}
  {l : List α}

variable {p : α → Bool} {k size : ℕ} {t rest rows a b : List α} {key : α → ℤ × String}

/-- Rows of a list without repetitions that begin with its end are no more than that. -/
theorem filter_eq_drop_of_take_eq (hl : l.Nodup) (hn : 0 < n) (h : (l.filter p).take n = l.drop k) :
    l.filter p = l.drop k := by
  have hall : ∀ x ∈ l.drop k, p x = true := by
    intro x hx
    rw [← h] at hx
    exact (mem_filter.mp (mem_of_mem_take hx)).2
  have hsplit : l.filter p = (l.take k).filter p ++ l.drop k := by
    conv_lhs => rw [← take_append_drop k l, filter_append, filter_eq_self.mpr hall]
  rcases hfirst : (l.take k).filter p with _ | ⟨x, xs⟩
  · rw [hsplit, hfirst, nil_append]
  · -- a row before the end would come first
    exfalso
    have hx : x ∈ l.drop k := by
      rw [← h, hsplit, hfirst, cons_append]
      obtain ⟨n', rfl⟩ : ∃ n', n = n' + 1 := ⟨n - 1, by omega⟩
      rw [take_succ_cons]
      exact mem_cons_self
    have hx' : x ∈ l.take k := by
      have : x ∈ (l.take k).filter p := by
        rw [hfirst]
        exact mem_cons_self
      exact (mem_filter.mp this).1
    rw [← take_append_drop k l, nodup_append] at hl
    exact hl.2.2 x hx' x hx rfl

/-! ## Following the pages of a list -/

/-- The rows `t` are visited from a page on. -/
def Continues (page : Option γ → Except ε (Page α γ)) (p : Page α γ) (t : List α) : Prop :=
  (p.nextCursor = none ∧ t = p.items) ∨
    ∃ d t', p.nextCursor = some d ∧ Follow page (some d) t' ∧ t = p.items ++ t'

theorem follow_iff_continues {c : Option γ} {p : Page α γ} (hp : page c = .ok p) :
    Follow page c t ↔ Continues page p t := by
  constructor
  · intro h
    cases h with
    | last hp' hlast =>
      rw [hp] at hp'
      cases hp'
      exact .inl ⟨hlast, rfl⟩
    | next hp' hnext hrest =>
      rw [hp] at hp'
      cases hp'
      exact .inr ⟨_, _, hnext, hrest, rfl⟩
  · rintro (⟨hlast, rfl⟩ | ⟨d, t', hnext, hrest, rfl⟩)
    · exact Follow.last hp hlast
    · exact Follow.next hp hnext hrest

/-- A page of rows of which fewer than `m` are left is the last one. -/
theorem continues_of_lt (h : rest.length < m) :
    Continues page (pageOf cur n m rest) t ↔ t = rest.take n := by
  unfold Continues pageOf
  simp [not_le.mpr h]

/-- A page of rows of which `m` are left is followed by what comes after its last row. -/
theorem continues_of_le {r : α} (h : m ≤ rest.length) (hr : (rest.take n).getLast? = some r) :
    Continues page (pageOf cur n m rest) t ↔
      ∃ t', Follow page (some (cur r)) t' ∧ t = rest.take n ++ t' := by
  unfold Continues pageOf
  simp [h, hr]

/-- A full page has a last row. -/
theorem getLast?_take (hn : 0 < n) (h : n ≤ rest.length) :
    (rest.take n).getLast? = rest[n - 1]? := by
  rw [getLast?_eq_getElem?, length_take, Nat.min_eq_left h, getElem?_take,
    if_pos (by omega)]

/-- Rows that lead to the end of the list agree with it. -/
theorem Paged.agree_of_continues (h : Paged page cur after n m l)
    (hc : Continues page (pageOf cur n m (l.filter p)) (l.drop k)) :
    Agree n m (l.filter p) (l.drop k) := by
  have hpos := h.pos
  have hle := h.le
  have hsucc := h.le_succ
  by_cases hmore : m ≤ (l.filter p).length
  · have hlen : ((l.filter p).take n).length = n := by
      rw [length_take]
      omega
    obtain ⟨r, hr⟩ : ∃ r, ((l.filter p).take n).getLast? = some r := by
      rw [getLast?_take hpos (hle.trans hmore)]
      exact ⟨_, getElem?_eq_getElem (by omega)⟩
    obtain ⟨t', -, ht⟩ := (continues_of_le hmore hr).mp hc
    have htake : (l.filter p).take n = (l.drop k).take n := by
      rw [ht, take_left' hlen]
    refine ⟨htake, iff_of_true hmore ?_⟩
    -- with no row after the page the test would have let no more pass
    by_contra hless
    have hlenk := congrArg List.length ht
    rw [length_append, hlen] at hlenk
    have hnil : t' = [] := eq_nil_of_length_eq_zero (by omega)
    rw [hnil, append_nil] at ht
    have hall := filter_eq_drop_of_take_eq h.nodup hpos ht.symm
    rw [hall] at hmore
    exact hless hmore
  · have ht := (continues_of_lt (not_le.mp hmore)).mp hc
    have hall := filter_eq_drop_of_take_eq h.nodup hpos ht.symm
    exact ⟨by rw [hall], by rw [hall]⟩

/-- From a page that agrees with the list, the pages go through the rest of it exactly when
the test is right at each later boundary. -/
theorem Paged.continues_iff (h : Paged page cur after n m l) (k : ℕ) (hk : n ∣ k) (rest : List α)
    (hrest : Agree n m rest (l.drop k)) :
    Continues page (pageOf cur n m rest) (l.drop k) ↔
      ∀ k' r, n ∣ k' → k < k' → m + k' ≤ l.length + n → l[k' - 1]? = some r →
        Agree n m (l.filter (after r)) (l.drop k') := by
  have hpos := h.pos
  have hle := h.le
  have hsucc := h.le_succ
  obtain ⟨htake, hflag⟩ := hrest
  rw [length_drop] at hflag
  -- the next boundary is a page further
  have hnext : ∀ k', n ∣ k' → k < k' → k' = k + n ∨ k + n < k' := by
    intro k' hk' hlt
    obtain ⟨a, rfl⟩ := hk
    obtain ⟨b, rfl⟩ := hk'
    have hab : a < b := Nat.lt_of_mul_lt_mul_left hlt
    have : n * (a + 1) ≤ n * b := Nat.mul_le_mul_left n hab
    rw [Nat.mul_succ] at this
    omega
  by_cases hmore : m ≤ rest.length
  · have hlen : m ≤ l.length - k := hflag.mp hmore
    have hr : (rest.take n).getLast? = l[k + n - 1]? := by
      rw [htake, getLast?_take hpos (by rw [length_drop]; omega), getElem?_drop]
      congr 1
      omega
    have hget : l[k + n - 1]? = some l[k + n - 1] := getElem?_eq_getElem (by omega)
    have hmem : l[k + n - 1] ∈ l := getElem_mem _
    rw [continues_of_le hmore (hr.trans hget)]
    have hdrop : l.drop k = rest.take n ++ l.drop (k + n) := by
      rw [htake, ← drop_drop, take_append_drop]
    have hfollow : (∃ t', Follow page (some (cur l[k + n - 1])) t' ∧
        l.drop k = rest.take n ++ t') ↔
        Continues page (pageOf cur n m (l.filter (after l[k + n - 1]))) (l.drop (k + n)) := by
      rw [← follow_iff_continues (h.next _ hmem)]
      constructor
      · rintro ⟨t', hfollow, ht⟩
        rw [hdrop] at ht
        rwa [append_cancel_left ht]
      · intro hfollow
        exact ⟨_, hfollow, hdrop⟩
    rw [hfollow]
    constructor
    · intro hc k' r hk' hlt hbound hget'
      have hagree := h.agree_of_continues hc
      rcases hnext k' hk' hlt with rfl | hfar
      · rw [hget] at hget'
        cases hget'
        exact hagree
      · exact (h.continues_iff (k + n) (Nat.dvd_add hk (Nat.dvd_refl n)) _ hagree).mp hc k' r hk' hfar
          hbound hget'
    · intro hall
      have hagree := hall (k + n) _ (Nat.dvd_add hk (Nat.dvd_refl n)) (by omega) (by omega) hget
      refine (h.continues_iff (k + n) (Nat.dvd_add hk (Nat.dvd_refl n)) _ hagree).mpr ?_
      intro k' r hk' hlt
      exact hall k' r hk' (by omega)
  · rw [continues_of_lt (not_le.mp hmore), htake, take_of_length_le (by
      rw [length_drop]
      omega)]
    refine iff_of_true rfl ?_
    intro k' r hk' hlt hbound _
    exfalso
    rcases hnext k' hk' hlt with rfl | hfar <;> omega
termination_by l.length - k

/-- **Pages partition a list** exactly when the test is right at each of their boundaries. -/
theorem Paged.follow_iff (h : Paged page cur after n m l) :
    Follow page none l ↔ Boundaries after n m l := by
  rw [follow_iff_continues h.first]
  have hself : Agree n m l (l.drop 0) := ⟨rfl, Iff.rfl⟩
  have := h.continues_iff 0 (Nat.dvd_zero n) l hself
  rwa [drop_zero] at this

/-! ## The boundaries by their rows -/

/-- Where the test lets pass all rows from some place on, and not the row of the cursor, the
boundaries are right when it lets pass the row that follows. -/
theorem boundaries_iff_of_threshold (hn : 0 < n) (hself : ∀ r ∈ l, after r r = false)
    (hmono : ∀ r ∈ l, l.Pairwise (fun x y => after r x = true → after r y = true)) :
    Boundaries after n n l ↔
      ∀ k r s, n ∣ k → 0 < k → l[k - 1]? = some r → l[k]? = some s → after r s = true := by
  constructor
  · intro h k r s hk hpos hr hs
    obtain ⟨hlt, -⟩ := List.getElem?_eq_some_iff.mp hs
    obtain ⟨htake, -⟩ := h k r hk hpos (by omega) hr
    have hmem : s ∈ (l.drop k).take n := by
      apply mem_of_getElem? (i := 0)
      rw [getElem?_take, if_pos hn, getElem?_drop, Nat.add_zero, hs]
    rw [← htake] at hmem
    exact (mem_filter.mp (mem_of_mem_take hmem)).2
  · intro h k r hk hpos _ hr
    have hmem := mem_of_getElem? hr
    have hbefore : (l.take k).filter (after r) = [] := by
      rw [filter_eq_nil_iff]
      intro x hx hafter
      have hlast : (l.take k) = l.take (k - 1) ++ [r] := by
        obtain ⟨k', rfl⟩ : ∃ k', k = k' + 1 := ⟨k - 1, by omega⟩
        rw [take_add_one, show l[k']? = some r from hr]
        rfl
      have hpair := (hmono r hmem).sublist (take_sublist k l)
      rw [hlast, pairwise_append] at hpair
      rw [hlast, mem_append, mem_singleton] at hx
      rcases hx with hx | rfl
      · have := hpair.2.2 x hx r (mem_singleton.mpr rfl) hafter
        rw [hself r hmem] at this
        cases this
      · rw [hself x hmem] at hafter
        cases hafter
    have hrest : (l.drop k).filter (after r) = l.drop k := by
      rw [filter_eq_self]
      intro x hx
      cases hdrop : l.drop k with
      | nil =>
        rw [hdrop] at hx
        cases hx
      | cons s t =>
        have hs : l[k]? = some s := by
          have hhead := congrArg List.head? hdrop
          rwa [head?_drop, head?_cons] at hhead
        have hafter := h k r s hk hpos hr hs
        have hpair := (hmono r hmem).sublist (drop_sublist k l)
        rw [hdrop] at hpair hx
        rcases mem_cons.mp hx with rfl | hx
        · exact hafter
        · exact (pairwise_cons.mp hpair).1 x hx hafter
    have hall : l.filter (after r) = l.drop k := by
      conv_lhs => rw [← take_append_drop k l, filter_append, hbefore, hrest]
      rfl
    rw [hall]
    exact ⟨rfl, Iff.rfl⟩

/-- Where a row more than the page is asked for, a boundary is right when the test lets pass
no row up to it, all rows of the next page, and another one when more remain. -/
theorem boundaries_iff (hn : 0 < n) (hl : l.Nodup) :
    Boundaries after n (n + 1) l ↔
      ∀ k r, n ∣ k → 0 < k → k < l.length → l[k - 1]? = some r →
        (∀ x ∈ l.take k, after r x = false) ∧ (∀ x ∈ (l.drop k).take n, after r x = true) ∧
          (n + k < l.length → ∃ x ∈ l.drop (k + n), after r x = true) := by
  have hstep : ∀ k r, k < l.length → (Agree n (n + 1) (l.filter (after r)) (l.drop k) ↔
      (∀ x ∈ l.take k, after r x = false) ∧ (∀ x ∈ (l.drop k).take n, after r x = true) ∧
        (n + k < l.length → ∃ x ∈ l.drop (k + n), after r x = true)) := by
    intro k r hlt
    have hparts : l.filter (after r) = (l.take k).filter (after r) ++
        (((l.drop k).take n).filter (after r) ++ (l.drop (k + n)).filter (after r)) := by
      rw [← filter_append, ← drop_drop, take_append_drop, ← filter_append,
        take_append_drop]
    have hlen : ((l.drop k).take n).length = min n (l.length - k) := by
      rw [length_take, length_drop]
    constructor
    · rintro ⟨htake, hflag⟩
      have hnone : (l.take k).filter (after r) = [] := by
        rcases hfirst : (l.take k).filter (after r) with _ | ⟨x, xs⟩
        · rfl
        · exfalso
          have hx' : x ∈ (l.take k).filter (after r) := hfirst ▸ mem_cons_self
          have hx : x ∈ (l.drop k).take n := by
            rw [← htake, hparts, hfirst, cons_append]
            obtain ⟨n', rfl⟩ : ∃ n', n = n' + 1 := ⟨n - 1, by omega⟩
            rw [take_succ_cons]
            exact mem_cons_self
          have hnodup := hl
          rw [← take_append_drop k l, nodup_append] at hnodup
          exact hnodup.2.2 x (mem_of_mem_filter hx') x (mem_of_mem_take hx) rfl
      refine ⟨?_, ?_, ?_⟩
      · intro x hx
        have := filter_eq_nil_iff.mp hnone x hx
        simpa using this
      · intro x hx
        rw [← htake] at hx
        exact (mem_filter.mp (mem_of_mem_take hx)).2
      · intro hmore
        rw [length_drop] at hflag
        have hlong := hflag.mpr (by omega)
        rw [hparts, hnone, nil_append, length_append] at hlong
        have hfew := length_filter_le (after r) ((l.drop k).take n)
        have hsome : 0 < ((l.drop (k + n)).filter (after r)).length := by omega
        obtain ⟨x, hx⟩ := exists_mem_of_length_pos hsome
        exact ⟨x, (mem_filter.mp hx).1, (mem_filter.mp hx).2⟩
    · rintro ⟨hbefore, hpage, hmore⟩
      have hnone : (l.take k).filter (after r) = [] := by
        rw [filter_eq_nil_iff]
        intro x hx
        simp [hbefore x hx]
      have hself : ((l.drop k).take n).filter (after r) = (l.drop k).take n :=
        filter_eq_self.mpr hpage
      rw [hnone, hself, nil_append] at hparts
      rw [hparts]
      by_cases hlong : n ≤ l.length - k
      · refine ⟨take_left' (by omega), ?_⟩
        rw [length_append, hlen, length_drop]
        constructor
        · intro h
          by_contra hless
          have hnil : l.drop (k + n) = [] := drop_eq_nil_of_le (by omega)
          rw [hnil, filter_nil, length_nil] at h
          omega
        · intro h
          obtain ⟨x, hx, hafter⟩ := hmore (by omega)
          have := length_pos_of_mem (mem_filter.mpr ⟨hx, hafter⟩)
          omega
      · have hnil : l.drop (k + n) = [] := drop_eq_nil_of_le (by omega)
        have hself' : (l.drop k).take n = l.drop k :=
          take_of_length_le (by rw [length_drop]; omega)
        rw [hnil, filter_nil, append_nil, hself']
        exact ⟨rfl, Iff.rfl⟩
  constructor
  · intro h k r hk hpos hlt hr
    exact (hstep k r hlt).mp (h k r hk hpos (by omega) hr)
  · intro h k r hk hpos hle hr
    have hlt : k < l.length := by omega
    exact (hstep k r hlt).mpr (h k r hk hpos hlt hr)

/-! ## Lists that change -/

/-- From the request with the number `i`, which has the cursor `c`, to the end before the one with
the number `n` the rows `l` are visited. -/
inductive Walk (page : ℕ → Option γ → Page α γ) : ℕ → Option γ → ℕ → List α → Prop
  | last {i : ℕ} {c : Option γ} (hlast : (page i c).nextCursor = none) :
      Walk page i c (i + 1) (page i c).items
  | next {i : ℕ} {c : Option γ} {d : γ} {n : ℕ} {l : List α}
      (hnext : (page i c).nextCursor = some d) (hrest : Walk page (i + 1) (some d) n l) :
      Walk page i c n ((page i c).items ++ l)

/-- A page of `size` rows of the list, from the first one that is after the cursor. -/
def pageFrom (cur : α → γ) (after : γ → α → Bool) (size : ℕ) (l : List α) (c : Option γ) :
    Page α γ :=
  pageOf cur size (size + 1) (l.drop (c.elim 0 fun c => l.findIdx (after c)))

/-- Is the row in the list at all of the first `n` requests? -/
def throughout (here : ℕ → α → Bool) (n : ℕ) (x : α) : Bool := decide (∀ i < n, here i x = true)

/-- Whatever comes and goes of the rows `all` between two pages of any size, the pages come to an
end and visit the rows that are there throughout, once and in the order of the list. -/
def VisitsOnce (cur : α → γ) (after : γ → α → Bool) (all : List α) : Prop :=
  ∀ size, 0 < size → ∀ here : ℕ → α → Bool, ∃ n l,
    Walk (fun i => pageFrom cur after size (all.filter (here i))) 0 none n l ∧
      l.filter (throughout here n) = all.filter (throughout here n)

section Changing

variable {all : List α} {cursorAfter : γ → α → Bool}

/-- The first rows that a test lets pass, of which there are more, end at a row of the list. -/
theorem exists_split_filter (hpos : 0 < size) (h : size < (rows.filter p).length) :
    ∃ a y b, rows = a ++ y :: b ∧ (rows.filter p).take size = (a ++ [y]).filter p ∧
      ((rows.filter p).take size).getLast? = some y := by
  have hget : (rows.filter p)[size - 1]? = some (rows.filter p)[size - 1] :=
    getElem?_eq_getElem (by omega)
  generalize hy : (rows.filter p)[size - 1] = y at hget
  have htake : (rows.filter p).take size = (rows.filter p).take (size - 1) ++ [y] := by
    obtain ⟨k, rfl⟩ : ∃ k, size = k + 1 := ⟨size - 1, by omega⟩
    rw [take_add_one, show (rows.filter p)[k]? = some y from hget]
    rfl
  have hsplit : rows.filter p =
      (rows.filter p).take (size - 1) ++ y :: (rows.filter p).drop size := by
    conv_lhs => rw [← take_append_drop size (rows.filter p), htake]
    simp
  generalize (rows.filter p).take (size - 1) = t at htake hsplit
  obtain ⟨m, n, rfl, hm, hn⟩ := filter_eq_append_iff.mp hsplit
  obtain ⟨n₁, n₂, rfl, hn₁, hpy, -⟩ := filter_eq_cons_iff.mp hn
  refine ⟨m ++ n₁, y, n₂, by simp, ?_, by rw [htake]; simp⟩
  have hnil : n₁.filter p = [] := filter_eq_nil_iff.mpr hn₁
  rw [htake, filter_append, filter_append, hm, hnil, append_nil]
  simp [hpy]

/-- In a list in the order of the cursors the rows after a cursor are those that follow its row,
whatever else is missing. -/
theorem drop_findIdx (hasymm : ∀ x ∈ all, ∀ y ∈ all, cursorAfter (cur x) y = true →
      cursorAfter (cur y) x = false)
    (hall : all.Pairwise (fun x y => cursorAfter (cur x) y = true)) {x : α}
    (hsplit : all = a ++ x :: b) (p : α → Bool) :
    (all.filter p).drop ((all.filter p).findIdx (cursorAfter (cur x))) = b.filter p := by
  have hx : x ∈ all := by simp [hsplit]
  have hself : cursorAfter (cur x) x = false := by
    by_contra h
    have h : cursorAfter (cur x) x = true := by simpa using h
    rw [hasymm x hx x hx h] at h
    cases h
  have hbefore : ∀ y ∈ (a ++ [x]).filter p, cursorAfter (cur x) y = false := by
    intro y hy
    rcases mem_append.mp (mem_of_mem_filter hy) with hya | hyx
    · rw [hsplit, pairwise_append] at hall
      exact hasymm y (by simp [hsplit, hya]) x hx (hall.2.2 y hya x (by simp))
    · rw [mem_singleton.mp hyx]
      exact hself
  have hafter : ∀ y ∈ b.filter p, cursorAfter (cur x) y = true := by
    intro y hy
    rw [hsplit, pairwise_append] at hall
    exact (pairwise_cons.mp hall.2.1).1 y (mem_of_mem_filter hy)
  have hparts : all.filter p = (a ++ [x]).filter p ++ b.filter p := by
    rw [hsplit, ← filter_append]
    simp
  have hidx : ((a ++ [x]).filter p).findIdx (cursorAfter (cur x)) =
      ((a ++ [x]).filter p).length := findIdx_eq_length.mpr hbefore
  have hzero : (b.filter p).findIdx (cursorAfter (cur x)) = 0 := by
    cases hb : b.filter p with
    | nil => rfl
    | cons y t =>
      rw [findIdx_cons, hafter y (by simp [hb])]
      rfl
  rw [hparts, findIdx_append, hidx, if_neg (lt_irrefl _), hzero, Nat.zero_add, drop_left]

/-- The walk through the rest of the list, from any request on. -/
theorem exists_walk (hasymm : ∀ x ∈ all, ∀ y ∈ all, cursorAfter (cur x) y = true →
      cursorAfter (cur y) x = false)
    (hall : all.Pairwise (fun x y => cursorAfter (cur x) y = true)) (hpos : 0 < size)
    (here : ℕ → α → Bool) (k : ℕ) (hk : b.length ≤ k) (hsplit : all = a ++ b) (i : ℕ)
    (c : Option γ) (hc : ∀ p : α → Bool, (all.filter p).drop
      (c.elim 0 fun c => (all.filter p).findIdx (cursorAfter c)) = b.filter p) :
    ∃ n l, Walk (fun i => pageFrom cur cursorAfter size (all.filter (here i))) i c n l ∧ i < n ∧
      ∀ p : α → Bool, (∀ x, p x = true → ∀ j, i ≤ j → j < n → here j x = true) →
        l.filter p = b.filter p := by
  induction k generalizing a b i c with
  | zero =>
    have hb : b = [] := eq_nil_of_length_eq_zero (by omega)
    subst hb
    have hpage : pageFrom cur cursorAfter size (all.filter (here i)) c = ⟨[], none⟩ := by
      unfold pageFrom
      rw [hc]
      simp [pageOf]
    refine ⟨i + 1, [], ?_, by omega, fun p _ => rfl⟩
    have hlast : (pageFrom cur cursorAfter size (all.filter (here i)) c).nextCursor = none := by
      rw [hpage]
    have hwalk : Walk (fun i => pageFrom cur cursorAfter size (all.filter (here i))) i c (i + 1)
        (pageFrom cur cursorAfter size (all.filter (here i)) c).items := .last hlast
    rwa [show (pageFrom cur cursorAfter size (all.filter (here i)) c).items = [] by
      rw [hpage]] at hwalk
  | succ k ih =>
    have hpage : pageFrom cur cursorAfter size (all.filter (here i)) c =
        pageOf cur size (size + 1) (b.filter (here i)) := by
      unfold pageFrom
      rw [hc]
    by_cases hmore : size + 1 ≤ (b.filter (here i)).length
    · obtain ⟨m, y, d, rfl, htake, hlast⟩ := exists_split_filter hpos (Nat.lt_of_succ_le hmore)
      have hnext : (pageFrom cur cursorAfter size (all.filter (here i)) c).nextCursor =
          some (cur y) := by
        rw [hpage]
        unfold pageOf
        rw [if_pos hmore, hlast]
        rfl
      have hitems : (pageFrom cur cursorAfter size (all.filter (here i)) c).items =
          (m ++ [y]).filter (here i) := by
        rw [hpage]
        exact htake
      have hrow : all = (a ++ m) ++ y :: d := by rw [hsplit, append_assoc]
      obtain ⟨n, l, hwalk, hlt, hvisit⟩ := ih (a := a ++ (m ++ [y])) (b := d)
        (by simp only [length_append, length_cons] at hk; omega)
        (by rw [hrow]; simp) (i + 1) (some (cur y)) (drop_findIdx hasymm hall hrow)
      refine ⟨n, _, Walk.next hnext hwalk, by omega, fun p hp => ?_⟩
      rw [hitems, filter_append, hvisit p fun x hx j hj hjn => hp x hx j (by omega) hjn,
        filter_filter]
      have hsame : ∀ x ∈ m ++ [y], (p x && here i x) = p x := by
        intro x _
        cases hpx : p x with
        | false => rfl
        | true => rw [hp x hpx i (le_refl i) (by omega)]; rfl
      rw [filter_congr hsame, ← filter_append]
      simp
    · have hnext : (pageFrom cur cursorAfter size (all.filter (here i)) c).nextCursor = none := by
        rw [hpage]
        unfold pageOf
        rw [if_neg hmore]
      have hitems : (pageFrom cur cursorAfter size (all.filter (here i)) c).items =
          b.filter (here i) := by
        rw [hpage]
        exact take_of_length_le (by omega)
      refine ⟨i + 1, _, Walk.last hnext, by omega, fun p hp => ?_⟩
      rw [hitems, filter_filter]
      refine filter_congr fun x _ => ?_
      cases hpx : p x with
      | false => rfl
      | true => rw [hp x hpx i (le_refl i) (by omega)]; rfl

/-- Two rows of which the second is not after the cursor of the first: it is on no page. -/
theorem not_visits_pair {x y : α} {here : ℕ → α → Bool} (hself : cursorAfter (cur x) x = false)
    (hxy : cursorAfter (cur x) y = false) (hpair : ∀ i, all.filter (here i) = [x, y]) :
    ∀ n l, Walk (fun i => pageFrom cur cursorAfter 1 (all.filter (here i))) 0 none n l → l = [x] := by
  have hfirst : pageFrom cur cursorAfter 1 (all.filter (here 0)) none = ⟨[x], some (cur x)⟩ := by
    rw [hpair]
    rfl
  have hsecond : pageFrom cur cursorAfter 1 (all.filter (here 1)) (some (cur x)) = ⟨[], none⟩ := by
    rw [hpair]
    unfold pageFrom
    simp [findIdx_cons, hself, hxy, pageOf]
  intro n l h
  cases h with
  | last hlast =>
    simp only [hfirst] at hlast
    cases hlast
  | next hnext hrest =>
    simp only [hfirst] at hnext ⊢
    obtain rfl := Option.some.inj hnext
    cases hrest with
    | last hlast => simp only [Nat.zero_add, hsecond, append_nil]
    | next hnext' hrest' =>
      simp only [Nat.zero_add, hsecond] at hnext'
      cases hnext'

/-- **Pages of a list that changes** visit what stays exactly when the list is in the order of its
cursors. -/
theorem visitsOnce_iff (hnodup : all.Nodup)
    (hasymm : ∀ x ∈ all, ∀ y ∈ all, cursorAfter (cur x) y = true → cursorAfter (cur y) x = false) :
    VisitsOnce cur cursorAfter all ↔ all.Pairwise (fun x y => cursorAfter (cur x) y = true) := by
  constructor
  · intro h
    rw [pairwise_iff_forall_sublist]
    intro x y hsub
    by_contra hxy
    have hxy : cursorAfter (cur x) y = false := by simpa using hxy
    have hx : x ∈ all := hsub.subset (by simp)
    have hself : cursorAfter (cur x) x = false := by
      by_contra hx'
      have hx' : cursorAfter (cur x) x = true := by simpa using hx'
      rw [hasymm x hx x hx hx'] at hx'
      cases hx'
    -- only the two rows are ever there
    classical
    have hpair : all.filter (fun z => decide (z = x ∨ z = y)) = [x, y] := by
      have hsub' := hsub.filter (fun z => decide (z = x ∨ z = y))
      rw [show [x, y].filter (fun z => decide (z = x ∨ z = y)) = [x, y] by simp] at hsub'
      refine (hsub'.eq_of_length_le ?_).symm
      have hperm : (all.filter (fun z => decide (z = x ∨ z = y))).Subperm [x, y] :=
        (hnodup.filter _).subperm fun z hz => by simpa using (mem_filter.mp hz).2
      exact hperm.length_le
    obtain ⟨n, l, hwalk, hvisit⟩ := h 1 one_pos fun _ z => decide (z = x ∨ z = y)
    have hl := not_visits_pair hself hxy (fun _ => hpair) n l hwalk
    have hkept : ∀ z, (z = x ∨ z = y) →
        throughout (fun _ z => decide (z = x ∨ z = y)) n z = true := by
      intro z hz
      unfold throughout
      simp [hz]
    have hmem : y ∈ all.filter (throughout (fun _ z => decide (z = x ∨ z = y)) n) :=
      mem_filter.mpr ⟨hsub.subset (by simp), hkept y (.inr rfl)⟩
    rw [← hvisit, hl] at hmem
    have hyx : y = x := mem_singleton.mp (mem_of_mem_filter hmem)
    have hdup := hsub.nodup hnodup
    simp [hyx] at hdup
  · intro hall size hpos here
    obtain ⟨n, l, hwalk, -, hvisit⟩ := exists_walk hasymm hall hpos here all.length
      (le_refl _) (nil_append all).symm 0 none fun p => rfl
    refine ⟨n, l, hwalk, hvisit _ fun x hx j _ hj => ?_⟩
    unfold throughout at hx
    exact of_decide_eq_true hx j hj

end Changing

/-! ## Newest first -/

/-- The order of texts in a database: strict and total. -/
structure Collation where
  lt : String → String → Bool
  irrefl : ∀ a, lt a a = false
  trans : ∀ a b c, lt a b = true → lt b c = true → lt a c = true
  total : ∀ a b, a ≠ b → lt a b = true ∨ lt b a = true

/-- The order by code points, collation `C`. -/
def Collation.codePoints : Collation where
  lt a b := decide (a < b)
  irrefl a := decide_eq_false (lt_irrefl a)
  trans _ _ _ hab hbc := decide_eq_true (lt_trans (of_decide_eq_true hab) (of_decide_eq_true hbc))
  total _ _ hne := (lt_or_gt_of_ne hne).imp decide_eq_true decide_eq_true

/-- `(t, id) < (t', id')`, the comparison of rows. -/
def Collation.keyLt (c : Collation) (x y : ℤ × String) : Bool :=
  decide (x.1 < y.1) || (decide (x.1 = y.1) && c.lt x.2 y.2)

/-- `ORDER BY created_at DESC, id DESC`, for rows with these keys. -/
def newestFirst (c : Collation) (key : α → ℤ × String) (rows : List α) : List α :=
  rows.insertionSort (fun a b => c.keyLt (key a) (key b) = false)

namespace Collation

variable {c : Collation} {x y z : ℤ × String}

theorem keyLt_iff : c.keyLt x y = true ↔ x.1 < y.1 ∨ (x.1 = y.1 ∧ c.lt x.2 y.2 = true) := by
  unfold keyLt
  rw [Bool.or_eq_true, Bool.and_eq_true, decide_eq_true_eq, decide_eq_true_eq]

theorem keyLt_irrefl (c : Collation) (x : ℤ × String) : c.keyLt x x = false := by
  rw [Bool.eq_false_iff, ne_eq, keyLt_iff]
  rintro (h | ⟨-, h⟩)
  · exact lt_irrefl _ h
  · rw [c.irrefl] at h
    cases h

theorem keyLt_trans (hxy : c.keyLt x y = true) (hyz : c.keyLt y z = true) :
    c.keyLt x z = true := by
  rw [keyLt_iff] at hxy hyz ⊢
  rcases hxy with hxy | ⟨hxy, hxy'⟩
  · rcases hyz with hyz | ⟨hyz, -⟩
    · exact .inl (lt_trans hxy hyz)
    · exact .inl (hyz ▸ hxy)
  · rcases hyz with hyz | ⟨hyz, hyz'⟩
    · exact .inl (hxy ▸ hyz)
    · exact .inr ⟨hxy.trans hyz, c.trans _ _ _ hxy' hyz'⟩

theorem keyLt_trichotomy (c : Collation) (x y : ℤ × String) :
    c.keyLt x y = true ∨ x = y ∨ c.keyLt y x = true := by
  rw [keyLt_iff, keyLt_iff]
  rcases lt_trichotomy x.1 y.1 with h | h | h
  · exact .inl (.inl h)
  · by_cases hids : x.2 = y.2
    · exact .inr (.inl (Prod.ext h hids))
    · rcases c.total _ _ hids with h' | h'
      · exact .inl (.inr ⟨h, h'⟩)
      · exact .inr (.inr (.inr ⟨h.symm, h'⟩))
  · exact .inr (.inr (.inl h))

theorem keyLt_asymm (h : c.keyLt x y = true) : c.keyLt y x = false := by
  rw [Bool.eq_false_iff]
  intro h'
  have := keyLt_trans h h'
  rw [keyLt_irrefl] at this
  cases this

end Collation

theorem perm_newestFirst (c : Collation) (key : α → ℤ × String) (rows : List α) :
    (newestFirst c key rows).Perm rows := perm_insertionSort _ _

/-- Each row is newer than those that come after it, when the ids differ. -/
theorem pairwise_newestFirst (c : Collation) (hids : (rows.map fun r => (key r).2).Nodup) :
    (newestFirst c key rows).Pairwise (fun a b => c.keyLt (key b) (key a) = true) := by
  have hids' : ((newestFirst c key rows).map fun r => (key r).2).Nodup :=
    ((perm_newestFirst c key rows).map _).nodup_iff.mpr hids
  have hsorted : (newestFirst c key rows).Pairwise
      (fun a b => c.keyLt (key a) (key b) = false) := by
    have : Std.Total (fun a b : α => c.keyLt (key a) (key b) = false) := by
      refine ⟨fun a b => ?_⟩
      cases hab : c.keyLt (key a) (key b) with
      | false => exact .inl rfl
      | true => exact .inr (Collation.keyLt_asymm hab)
    have : IsTrans α (fun a b => c.keyLt (key a) (key b) = false) := by
      refine ⟨fun a b d hab hbd => ?_⟩
      rw [Bool.eq_false_iff]
      intro had
      rcases c.keyLt_trichotomy (key a) (key b) with h | h | h
      · rw [hab] at h
        cases h
      · rw [h, hbd] at had
        cases had
      · rw [Collation.keyLt_trans h had] at hbd
        cases hbd
    exact pairwise_insertionSort _ _
  have hdistinct := pairwise_map.mp hids'
  refine (hsorted.and hdistinct).imp ?_
  rintro a b ⟨hab, hne⟩
  rcases c.keyLt_trichotomy (key a) (key b) with h | h | h
  · rw [hab] at h
    cases h
  · exact absurd (congrArg Prod.snd h) hne
  · exact h

/-- Rows may be selected before they are ordered, or after. -/
theorem newestFirst_filter (c : Collation) (hids : (rows.map fun r => (key r).2).Nodup)
    (p : α → Bool) : newestFirst c key (rows.filter p) = (newestFirst c key rows).filter p := by
  have hsub : List.Sublist ((rows.filter p).map fun r => (key r).2)
      (rows.map fun r => (key r).2) := filter_sublist.map _
  have hperm : (newestFirst c key (rows.filter p)).Perm ((newestFirst c key rows).filter p) :=
    (perm_newestFirst c key _).trans ((perm_newestFirst c key rows).filter p).symm
  apply hperm.eq_of_pairwise _ (pairwise_newestFirst c (hids.sublist hsub))
    ((pairwise_newestFirst c hids).sublist filter_sublist)
  intro a b _ _ hab hba
  rw [Collation.keyLt_asymm hab] at hba
  cases hba

/-! ## Oldest first -/

/-- The order the other way round. -/
def Collation.flip (c : Collation) : Collation where
  lt a b := c.lt b a
  irrefl a := c.irrefl a
  trans a b d hab hbd := c.trans d b a hbd hab
  total a b hne := (c.total a b hne).symm

/-- `ORDER BY created_at ASC, id ASC`, for rows with these keys. -/
def oldestFirst (c : Collation) (key : α → ℤ × String) (rows : List α) : List α :=
  newestFirst c.flip (fun r => (-(key r).1, (key r).2)) rows

theorem perm_oldestFirst (c : Collation) (key : α → ℤ × String) (rows : List α) :
    (oldestFirst c key rows).Perm rows := perm_newestFirst _ _ _

theorem oldestFirst_filter (c : Collation) (hids : (rows.map fun r => (key r).2).Nodup)
    (p : α → Bool) : oldestFirst c key (rows.filter p) = (oldestFirst c key rows).filter p := by
  have hids' : (rows.map fun r => (-(key r).1, (key r).2).2).Nodup := hids
  exact newestFirst_filter c.flip hids' p

end Keyset
