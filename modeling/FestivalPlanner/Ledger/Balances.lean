import Mathlib.Algebra.Order.BigOperators.Group.List
import FestivalPlanner.Ledger.Crew
import FestivalPlanner.Lib.Positions

/-!
# The balances of a crew

`computeBalanceCents` of `lib/db/stores/expenses.ts`, and what it comes to: every
expense moves the position of its payer up and those of the members who share it down.

* `computeBalanceCents` — the source's loop over the expenses;
* `position` — the position of one user in one expense; `computeBalanceCents_eq` — the
  balances are the sums of the positions;
* `ZeroSum` — what the comment of the source promises; `ledger_zeroSum_iff` — it holds
  exactly when every payer of a shared expense is still a member.

The payer is credited only while a member, but the shares are charged to the members
who are left: a payer who leaves takes the credit away (`departed_payer_breaks_zeroSum`).
-/

namespace FestivalPlanner.Ledger

open Positions List Function

/-! ## The computation -/

/-- `BalanceCents`. -/
structure BalanceCents where
  userId : String
  username : String
  balanceCents : ℤ
  deriving DecidableEq

/-- `cents`: the members' balances by id. -/
abbrev Cents := String → Option ℤ

/-- `cents[userId] += delta`, for a member. -/
def Cents.add (cents : Cents) (userId : String) (delta : ℤ) : Cents :=
  match cents userId with
  | some cur => update cents userId (some (cur + delta))
  | none => cents

/-- The members an expense is split among: the named ones, or the whole crew; only
those who are still members. -/
def splitMembers (cents : Cents) (memberIds : List String) (exp : Expense) : List String :=
  (if exp.splitWith ≠ [] then exp.splitWith else memberIds).filter (fun uid => (cents uid).isSome)

/-- One round of the loop over the members who share; the second component is
`remainder`. -/
def chargeShare (baseShare : ℤ) (acc : Cents × ℤ) (uid : String) : Cents × ℤ :=
  match acc.1 uid with
  | none => acc
  | some cur =>
      let owed := baseShare + (if 0 < acc.2 then 1 else 0)
      (update acc.1 uid (some (cur - owed)), if 0 < acc.2 then acc.2 - 1 else acc.2)

/-- One round of the loop over the expenses. -/
def applyExpense (memberIds : List String) (cents : Cents) (exp : Expense) : Cents :=
  let split := splitMembers cents memberIds exp
  if split.length = 0 then cents
  else
    -- Payer fronted the whole amount.
    let cents := cents.add exp.paidBy exp.amountCents
    let baseShare := exp.amountCents / split.length
    let remainder := exp.amountCents - baseShare * split.length
    (split.foldl (chargeShare baseShare) (cents, remainder)).1

/-- `computeBalanceCents`, on the rows its two queries return. -/
def computeBalanceCents (members : List Member) (expenses : List Expense) : List BalanceCents :=
  let memberIds := members.map Member.userId
  let cents : Cents := fun id => if id ∈ memberIds then some 0 else none
  let cents := expenses.foldl (applyExpense memberIds) cents
  members.map (fun m => ⟨m.userId, m.username, (cents m.userId).getD 0⟩)

/-- The expenses that are not planned. -/
def Crew.actualExpenses (s : Crew) : List Expense :=
  (s.expenses.map StoredExpense.toExpense).filter (fun e => !e.planned)

/-- The rows of the two queries, which have no `ORDER BY`. -/
structure Rows (s : Crew) (members : List Member) (expenses : List Expense) : Prop where
  members : members.Perm s.getMembers
  expenses : expenses.Perm s.actualExpenses

/-! ## Positions -/

/-- The named members who are still members, or the whole crew. -/
def sharers (memberIds : List String) (exp : Expense) : List String :=
  (if exp.splitWith ≠ [] then exp.splitWith else memberIds).filter (fun uid => uid ∈ memberIds)

/-- What an expense charges a user. -/
def charge (memberIds : List String) (exp : Expense) : String → ℤ :=
  let split := sharers memberIds exp
  let baseShare := exp.amountCents / split.length
  spread baseShare (exp.amountCents - baseShare * split.length) split

/-- The position of a user in an expense. -/
def position (memberIds : List String) (exp : Expense) (u : String) : ℤ :=
  if sharers memberIds exp = [] then 0
  else (if exp.paidBy = u then exp.amountCents else 0) - charge memberIds exp u

/-- The balances are kept for the members. -/
def OnMembers (memberIds : List String) (cents : Cents) : Prop :=
  ∀ u, (cents u).isSome = true ↔ u ∈ memberIds

variable {memberIds ids : List String} {cents : Cents}

theorem splitMembers_eq (h : OnMembers memberIds cents) (exp : Expense) :
    splitMembers cents memberIds exp = sharers memberIds exp := by
  unfold splitMembers sharers
  refine filter_congr fun u _ => ?_
  rw [Bool.eq_iff_iff, h u]
  simp

theorem add_apply (cents : Cents) (userId : String) (delta : ℤ) (u : String) :
    cents.add userId delta u = (cents u).map (fun cur => cur + if userId = u then delta else 0) := by
  unfold Cents.add
  by_cases hu : userId = u
  · subst hu
    cases h : cents userId <;> simp [h]
  · cases h : cents userId with
    | none => simp [hu]
    | some cur => simp [hu, update_of_ne (Ne.symm hu)]

/-- The loop over the members who share charges each their share. -/
theorem foldl_chargeShare {baseShare : ℤ} {vs : List String} (hvs : ∀ v ∈ vs, v ∈ memberIds)
    (h : OnMembers memberIds cents) (remainder : ℤ) (u : String) :
    (vs.foldl (chargeShare baseShare) (cents, remainder)).1 u =
      (cents u).map (fun cur => cur - spread baseShare remainder vs u) := by
  induction vs generalizing cents remainder with
  | nil => simp [spread]
  | cons v vs ih =>
    obtain ⟨cur, hcur⟩ := Option.isSome_iff_exists.mp ((h v).mpr (hvs v (mem_cons_self ..)))
    set owed := baseShare + (if 0 < remainder then 1 else 0) with howed
    set rest := if 0 < remainder then remainder - 1 else remainder with hrest
    have hstep : chargeShare baseShare (cents, remainder) v =
        (update cents v (some (cur - owed)), rest) := by
      simp only [chargeShare, hcur]
      rfl
    have h' : OnMembers memberIds (update cents v (some (cur - owed))) := by
      intro w
      by_cases hw : w = v
      · subst hw
        rw [update_self]
        exact ⟨fun _ => hvs w (mem_cons_self ..), fun _ => rfl⟩
      · rw [update_of_ne hw]
        exact h w
    rw [foldl_cons, hstep, ih (fun w hw => hvs w (mem_cons_of_mem _ hw)) h']
    by_cases hu : v = u
    · subst hu
      rw [update_self, hcur, spread, if_pos rfl]
      simp only [Option.map_some, Option.some.injEq, ← hrest]
      omega
    · rw [update_of_ne (Ne.symm hu), spread, if_neg hu, zero_add]

/-- An expense moves every member's balance by their position in it. -/
theorem applyExpense_apply (h : OnMembers memberIds cents) (exp : Expense) (u : String) :
    applyExpense memberIds cents exp u =
      (cents u).map (fun cur => cur + position memberIds exp u) := by
  unfold applyExpense
  simp only [splitMembers_eq h]
  by_cases hsplit : sharers memberIds exp = []
  · simp [hsplit, position]
  · have hmem : ∀ v ∈ sharers memberIds exp, v ∈ memberIds := fun v hv => by
      simpa using (mem_filter.mp hv).2
    have h' : OnMembers memberIds (cents.add exp.paidBy exp.amountCents) := by
      intro w
      rw [add_apply, Option.isSome_map]
      exact h w
    rw [if_neg (by simpa using hsplit), foldl_chargeShare hmem h', add_apply, Option.map_map,
      position, if_neg hsplit]
    refine congrArg (fun f => Option.map f (cents u)) (funext fun cur => ?_)
    show cur + _ - charge memberIds exp u = _
    omega

/-- The whole loop adds up the positions. -/
theorem foldl_applyExpense (h : OnMembers memberIds cents) (expenses : List Expense) (u : String) :
    expenses.foldl (applyExpense memberIds) cents u =
      (cents u).map (fun cur => cur + (expenses.map (fun e => position memberIds e u)).sum) := by
  induction expenses generalizing cents with
  | nil => simp
  | cons e expenses ih =>
    have h' : OnMembers memberIds (applyExpense memberIds cents e) := by
      intro w
      rw [applyExpense_apply h, Option.isSome_map]
      exact h w
    rw [foldl_cons, ih h', applyExpense_apply h, Option.map_map]
    refine congrArg (fun f => Option.map f (cents u)) (funext fun cur => ?_)
    simp only [comp_apply, map_cons, sum_cons]
    omega

/-- **The balances are the sums of the positions.** -/
theorem computeBalanceCents_eq (members : List Member) (expenses : List Expense) :
    computeBalanceCents members expenses = members.map (fun m => ⟨m.userId, m.username,
      (expenses.map (fun e => position (members.map Member.userId) e m.userId)).sum⟩) := by
  have h : OnMembers (members.map Member.userId)
      (fun id => if id ∈ members.map Member.userId then some 0 else none) := by
    intro u
    by_cases hu : u ∈ members.map Member.userId <;> simp [hu]
  refine map_congr_left fun m hm => ?_
  have hmem : m.userId ∈ members.map Member.userId := mem_map_of_mem hm
  simp only [foldl_applyExpense h, if_pos hmem]
  simp

/-! ## The sum of the balances -/

/-- What an expense leaves without a payer: everything, when the payer is not a member
but someone who shares it is. -/
@[grind =] def unpaid (memberIds : List String) (exp : Expense) : ℤ :=
  if sharers memberIds exp ≠ [] ∧ exp.paidBy ∉ memberIds then exp.amountCents else 0

theorem total_position (hn : memberIds.Nodup) (exp : Expense) :
    total memberIds (position memberIds exp) = -unpaid memberIds exp := by
  unfold unpaid
  by_cases hsplit : sharers memberIds exp = []
  · have hzero : ∀ u ∈ memberIds, position memberIds exp u = 0 := fun u _ => if_pos hsplit
    rw [total_congr hzero, total_zero, if_neg (by simp [hsplit]), neg_zero]
  · have hmem : ∀ v ∈ sharers memberIds exp, v ∈ memberIds := fun v hv => by
      simpa using (mem_filter.mp hv).2
    have hshared : ∀ u ∈ memberIds, position memberIds exp u =
        (if exp.paidBy = u then exp.amountCents else 0) - charge memberIds exp u :=
      fun u _ => if_neg hsplit
    rw [total_congr hshared, total_sub, total_single hn, charge, total_spread_div hn hmem hsplit]
    by_cases hpaid : exp.paidBy ∈ memberIds <;> simp [hsplit, hpaid]

/-- The sum of the balances. -/
def balanceSum (balances : List BalanceCents) : ℤ :=
  (balances.map BalanceCents.balanceCents).sum

/-- **The balances miss exactly what has no payer.** -/
theorem balanceSum_eq {members : List Member} (hn : (members.map Member.userId).Nodup)
    (expenses : List Expense) :
    balanceSum (computeBalanceCents members expenses) =
      -(expenses.map (unpaid (members.map Member.userId))).sum := by
  set ids := members.map Member.userId with hids
  have htotal : balanceSum (computeBalanceCents members expenses) =
      total ids (fun u => (expenses.map (fun e => position ids e u)).sum) := by
    rw [balanceSum, computeBalanceCents_eq, total, hids, map_map, map_map]
    rfl
  rw [htotal, total_sum, sum_neg, map_map]
  exact congrArg List.sum (map_congr_left fun e _ => total_position hn e)

/-! ## The ledger of a crew -/

/-- The balances add up to nothing, in whatever order the rows come. -/
def ZeroSum (s : Crew) : Prop :=
  ∀ members expenses, Rows s members expenses →
    balanceSum (computeBalanceCents members expenses) = 0

/-- Who paid an actual expense that a member shares is still a member. -/
def PayersStay (s : Crew) : Prop :=
  ∀ e ∈ s.expenses, e.planned = false → (∃ u ∈ e.splitWith, u ∈ s.memberIds) →
    e.paidBy ∈ s.memberIds

instance (s : Crew) : Decidable (PayersStay s) :=
  inferInstanceAs (Decidable (∀ e ∈ s.expenses, e.planned = false →
    (∃ u ∈ e.splitWith, u ∈ s.memberIds) → e.paidBy ∈ s.memberIds))

theorem Crew.rows_self (s : Crew) : Rows s s.getMembers s.actualExpenses :=
  ⟨List.Perm.refl _, List.Perm.refl _⟩

theorem mem_actualExpenses {s : Crew} {e : Expense} :
    e ∈ s.actualExpenses ↔ ∃ x ∈ s.expenses, x.planned = false ∧ x.toExpense = e := by
  unfold Crew.actualExpenses
  rw [mem_filter, mem_map]
  constructor
  · rintro ⟨⟨x, hx, rfl⟩, hp⟩
    exact ⟨x, hx, by simpa using hp, rfl⟩
  · rintro ⟨x, hx, hp, rfl⟩
    exact ⟨⟨x, hx, rfl⟩, by simp [hp]⟩

namespace Rows

variable {s : Crew} {members : List Member} {expenses : List Expense}

theorem perm_memberIds (h : Rows s members expenses) :
    (members.map Member.userId).Perm s.memberIds :=
  h.members.map _

theorem nodup_ids (h : Rows s members expenses) : (members.map Member.userId).Nodup :=
  h.perm_memberIds.nodup_iff.mpr s.nodup_memberIds

/-- The rows are stored expenses: they name who shares them. -/
theorem shared (h : Rows s members expenses) {e : Expense} (he : e ∈ expenses) :
    e.splitWith ≠ [] := by
  obtain ⟨x, -, -, rfl⟩ := mem_actualExpenses.mp (h.expenses.mem_iff.mp he)
  exact x.shared

end Rows

/-- Who shares an expense with named members does not depend on the order of the rows. -/
theorem sharers_perm {ids' : List String} (hp : ids.Perm ids') {exp : Expense}
    (h : exp.splitWith ≠ []) : sharers ids exp = sharers ids' exp := by
  unfold sharers
  rw [if_pos h, if_pos h]
  exact filter_congr fun u _ => by simp [hp.mem_iff]

theorem unpaid_perm {ids' : List String} (hp : ids.Perm ids') {exp : Expense}
    (h : exp.splitWith ≠ []) : unpaid ids exp = unpaid ids' exp := by
  unfold unpaid
  simp only [sharers_perm hp h, hp.mem_iff]

/-- An expense of the crew has a payer, or nobody to share it. -/
theorem unpaid_eq_zero_iff (x : StoredExpense) :
    unpaid ids x.toExpense = 0 ↔ ((∃ u ∈ x.splitWith, u ∈ ids) → x.paidBy ∈ ids) := by
  have hsharers : sharers ids x.toExpense ≠ [] ↔ ∃ u ∈ x.splitWith, u ∈ ids := by
    unfold sharers
    rw [if_pos x.shared, Ne, filter_eq_nil_iff]
    simp
  unfold unpaid
  constructor
  · intro h hu
    by_contra hpaid
    rw [if_pos ⟨hsharers.mpr hu, hpaid⟩] at h
    exact absurd h x.positive.ne'
  · intro h
    refine if_neg ?_
    rintro ⟨hu, hpaid⟩
    exact hpaid (h (hsharers.mp hu))

theorem unpaid_nonneg (x : StoredExpense) : 0 ≤ unpaid ids x.toExpense := by
  unfold unpaid
  split
  · exact x.positive.le
  · exact le_refl 0

theorem zeroSum_iff (s : Crew) : ZeroSum s ↔ PayersStay s := by
  constructor
  · intro h x hx hplanned
    have hsum : (s.actualExpenses.map (unpaid s.memberIds)).sum = 0 := by
      have := h _ _ s.rows_self
      rw [balanceSum_eq s.rows_self.nodup_ids] at this
      show (s.actualExpenses.map (unpaid (s.getMembers.map Member.userId))).sum = 0
      omega
    have hnonneg : ∀ y ∈ s.actualExpenses.map (unpaid s.memberIds), 0 ≤ y := by
      intro y hy
      obtain ⟨e, he, rfl⟩ := mem_map.mp hy
      obtain ⟨x, -, -, rfl⟩ := mem_actualExpenses.mp he
      exact unpaid_nonneg x
    have hzero : unpaid s.memberIds x.toExpense = 0 :=
      all_zero_of_le_zero_le_of_sum_eq_zero hnonneg hsum
        (mem_map_of_mem (mem_actualExpenses.mpr ⟨x, hx, hplanned, rfl⟩))
    exact (unpaid_eq_zero_iff x).mp hzero
  · intro h members expenses hrows
    rw [balanceSum_eq hrows.nodup_ids, neg_eq_zero]
    refine sum_eq_zero fun y hy => ?_
    obtain ⟨e, he, rfl⟩ := mem_map.mp hy
    obtain ⟨x, hx, hplanned, rfl⟩ := mem_actualExpenses.mp (hrows.expenses.mem_iff.mp he)
    rw [unpaid_perm hrows.perm_memberIds x.shared]
    exact (unpaid_eq_zero_iff x).mpr (h x hx hplanned)

/-- **The ledger of a crew is zero-sum exactly while its payers stay**: after any
requests the routes accept, the balances add up to zero if and only if who paid an
actual expense that a member still shares is a member. -/
theorem ledger_zeroSum_iff (userId username : String) (maxMembers : ℕ) (as : List Action)
    (s : Crew) (_ : Machine.run step (createWithOwner userId username maxMembers) as = some s) :
    ZeroSum s ↔ PayersStay s :=
  zeroSum_iff s

/-! ## A payer who leaves -/

/-- A member who shares an expense leaves, another settles. -/
def sharerLeaves : List Action :=
  [.join "ben" "Ben", .join "cam" "Cam", .addExpense "ana" ⟨10, 1000⟩ ["ana", "ben", "cam"] false,
    .leave "cam", .settle "ben" "ana" ⟨5, 500⟩]

/-- The ledger stays zero-sum when a member leaves who paid nothing. -/
theorem zeroSum_sharerLeaves :
    ∃ s, Machine.run step (createWithOwner "ana" "Ana" 30) sharerLeaves = some s ∧ ZeroSum s := by
  obtain ⟨s, hs, hstay⟩ : ∃ s ∈ Machine.run step (createWithOwner "ana" "Ana" 30) sharerLeaves,
      PayersStay s := by decide
  exact ⟨s, hs, (ledger_zeroSum_iff "ana" "Ana" 30 sharerLeaves s hs).mpr hstay⟩

/-- A member pays for two, and leaves. -/
def payerLeaves : List Action :=
  [.join "ben" "Ben", .addExpense "ben" ⟨30, 3000⟩ ["ana", "ben"] false, .leave "ben"]

/-- **A payer who leaves breaks the ledger**: the whole expense is charged to the member
who stays, and credited to nobody. -/
theorem departed_payer_breaks_zeroSum :
    ∃ s ∈ Machine.run step (createWithOwner "ana" "Ana" 30) payerLeaves, ¬ZeroSum s := by
  obtain ⟨s, hs, hsum⟩ : ∃ s ∈ Machine.run step (createWithOwner "ana" "Ana" 30) payerLeaves,
      balanceSum (computeBalanceCents s.getMembers s.actualExpenses) = -3000 := by
    decide
  refine ⟨s, hs, fun h => ?_⟩
  rw [h _ _ s.rows_self] at hsum
  exact absurd hsum (by decide)

end FestivalPlanner.Ledger
