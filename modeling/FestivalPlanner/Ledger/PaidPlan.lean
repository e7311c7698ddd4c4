import FestivalPlanner.Ledger.SimplifyDebts

/-!
# Paying the settlement plan

Every transfer of the plan is recorded as a settlement: an expense the debtor pays and
the creditor alone shares.

* `Crew.balance` — what the expenses come to for a user; `computeBalanceCents_rows` — the
  balances in whatever order the rows come;
* `run_payments` — recording payments moves every balance by what the payments do to it;
* `settlementPlan_paid` — when the whole plan is recorded there is nothing left to plan.
-/

namespace FestivalPlanner.Ledger

open Positions List

/-! ## Balances of the stored expenses -/

/-- What the expenses of the crew come to for a user. -/
def Crew.balance (s : Crew) (u : String) : ℤ :=
  (s.actualExpenses.map (fun e => position s.memberIds e u)).sum

/-- A position does not depend on the order of the rows. -/
theorem position_perm {ids ids' : List String} (hp : ids.Perm ids') {exp : Expense}
    (h : exp.splitWith ≠ []) (u : String) : position ids exp u = position ids' exp u := by
  unfold position charge
  rw [sharers_perm hp h]

/-- The balances do not depend on the order of the rows. -/
theorem computeBalanceCents_rows {s : Crew} {members : List Member} {expenses : List Expense}
    (h : Rows s members expenses) :
    computeBalanceCents members expenses =
      members.map (fun m => ⟨m.userId, m.username, s.balance m.userId⟩) := by
  rw [computeBalanceCents_eq]
  refine map_congr_left fun m _ => ?_
  have hpositions : expenses.map (fun e => position (members.map Member.userId) e m.userId) =
      expenses.map (fun e => position s.memberIds e m.userId) :=
    map_congr_left fun e he => position_perm h.perm_memberIds (h.shared he) _
  rw [hpositions, Crew.balance, (h.expenses.map _).sum_eq]

/-- **Two reads of the rows, in any two orders, give the same balances.** -/
theorem computeBalanceCents_perm {s : Crew} {members members' : List Member}
    {expenses expenses' : List Expense} (h : Rows s members expenses)
    (h' : Rows s members' expenses') :
    (computeBalanceCents members expenses).Perm (computeBalanceCents members' expenses') := by
  rw [computeBalanceCents_rows h, computeBalanceCents_rows h']
  exact (h.members.trans h'.members.symm).map _

theorem computeBalanceCents_perm_sharerLeaves :
    ∃ s ∈ Machine.run step (createWithOwner "ana" "Ana" 30) sharerLeaves,
      (computeBalanceCents s.getMembers.reverse s.actualExpenses.reverse).Perm
        (computeBalanceCents s.getMembers s.actualExpenses) := by
  obtain ⟨s, hs⟩ := Option.isSome_iff_exists.mp
    (by decide : (Machine.run step (createWithOwner "ana" "Ana" 30) sharerLeaves).isSome = true)
  exact ⟨s, hs, computeBalanceCents_perm ⟨reverse_perm _, reverse_perm _⟩ s.rows_self⟩

/-! ## Payments -/

/-- The request that records a transfer: the dollars the plan shows, which are rounded to
the same cents. -/
def payment (t : Settlement) : Action :=
  .settle t.fromUserId t.toUserId ⟨t.amountCents / 100, t.amountCents⟩

/-- A recorded payment is a transfer. -/
theorem position_payment {ids : List String} {t : Settlement} (h : t.toUserId ∈ ids) (id : ℕ)
    (u : String) :
    position ids ⟨id, t.fromUserId, t.amountCents, [t.toUserId], false⟩ u =
      t.transfer.effect u := by
  have hsharers : sharers ids ⟨id, t.fromUserId, t.amountCents, [t.toUserId], false⟩ =
      [t.toUserId] := by
    simp [sharers, h]
  have hcharge : charge ids ⟨id, t.fromUserId, t.amountCents, [t.toUserId], false⟩ u =
      if t.toUserId = u then t.amountCents else 0 := by
    simp [charge, hsharers, spread]
  rw [position, if_neg (by simp [hsharers]), hcharge]
  rfl

/-- One payment. -/
theorem step_payment {s s' : Crew} {p : Settlement} (h : step s (payment p) = some s') :
    s'.getMembers = s.getMembers ∧ ∀ u, s'.balance u = s.balance u + p.transfer.effect u := by
  obtain ⟨-, hmember, e, he, rfl⟩ := step_settle h
  refine ⟨rfl, fun u => ?_⟩
  have hplanned : e.planned = false := congrArg Expense.planned he
  have hactual : ∀ s' : Crew, s'.expenses = s.expenses ++ [e] →
      s'.actualExpenses = s.actualExpenses ++ [e.toExpense] := by
    intro s' hs'
    unfold Crew.actualExpenses
    rw [hs', map_append, filter_append]
    simp [hplanned]
  unfold Crew.balance
  rw [hactual _ rfl, map_append, sum_append, map_singleton, sum_singleton, he]
  exact congrArg _ (position_payment hmember s.nextId u)

/-- **Recorded payments move the balances** by what the payments do to them. -/
theorem run_payments {s t : Crew} {plan : List Settlement}
    (hrun : Machine.run step s (plan.map payment) = some t) :
    t.getMembers = s.getMembers ∧ ∀ u, t.balance u = s.balance u + planEffect plan u := by
  induction plan generalizing s with
  | nil =>
    obtain rfl := Option.some.inj hrun
    exact ⟨rfl, fun u => (add_zero _).symm⟩
  | cons p plan ih =>
    obtain ⟨m, hstep, hrun⟩ := Machine.run_cons_eq_some.mp hrun
    obtain ⟨hmembers, hbalance⟩ := step_payment hstep
    obtain ⟨hmembers', hbalance'⟩ := ih hrun
    refine ⟨hmembers'.trans hmembers, fun u => ?_⟩
    rw [hbalance' u, hbalance u, planEffect_cons, add_assoc]

/-! ## The paid plan -/

/-- **A paid plan leaves nothing to plan**, in whatever order the transfers were
recorded. -/
theorem settlementPlan_paid {s t : Crew} {members members' : List Member}
    {expenses expenses' : List Expense} (hrows : Rows s members expenses)
    {plan : List Settlement}
    (hplan : plan.Perm (simplifyDebts (computeBalanceCents members expenses)))
    (hrun : Machine.run step s (plan.map payment) = some t)
    (hrows' : Rows t members' expenses') :
    simplifyDebts (computeBalanceCents members' expenses') = [] := by
  obtain ⟨hmembers, hbalance⟩ := run_payments hrun
  have hunique : ((computeBalanceCents members expenses).map BalanceCents.userId).Nodup := by
    rw [computeBalanceCents_eq, List.map_map]
    exact hrows.nodup_ids
  refine simplifyDebts_of_residual hunique fun b' hb' => ?_
  rw [computeBalanceCents_rows hrows'] at hb'
  obtain ⟨m, hm, rfl⟩ := List.mem_map.mp hb'
  have hm : m ∈ members := by
    have hm := hrows'.members.mem_iff.mp hm
    rw [hmembers] at hm
    exact hrows.members.mem_iff.mpr hm
  refine ⟨⟨m.userId, m.username, s.balance m.userId⟩, ?_, ?_⟩
  · rw [computeBalanceCents_rows hrows]
    exact List.mem_map_of_mem hm
  · have heffect : planEffect plan m.userId =
        planEffect (simplifyDebts (computeBalanceCents members expenses)) m.userId :=
      net_perm (hplan.map _) _
    rw [residual, ← heffect]
    exact hbalance m.userId

/-- Ana and Cem each paid for three; the ten dollars leave a cent over. -/
def trip : List Action :=
  [.join "ben" "Ben", .join "cem" "Cem",
    .addExpense "ana" ⟨90, 9000⟩ ["ana", "ben", "cem"] false,
    .addExpense "cem" ⟨10, 1000⟩ ["cem", "ana", "ben"] false]

/-- The transfers of the plan of the trip, the last one first. -/
def tripPlan : List Settlement :=
  [⟨"cem", "Cem", "ana", "Ana", 2334⟩, ⟨"ben", "Ben", "ana", "Ana", 3333⟩]

/-- The trip is settled by its two payments. -/
theorem trip_paid :
    ∃ s t, Machine.run step (createWithOwner "ana" "Ana" 30) trip = some s ∧
      Machine.run step s (tripPlan.map payment) = some t ∧
      simplifyDebts (computeBalanceCents t.getMembers t.actualExpenses) = [] := by
  obtain ⟨s, hs, hrun, hcreditors, hdebtors⟩ :
      ∃ s ∈ Machine.run step (createWithOwner "ana" "Ana" 30) trip,
        (Machine.run step s (tripPlan.map payment)).isSome = true ∧
          creditors (computeBalanceCents s.getMembers s.actualExpenses) = [⟨"ana", "Ana", 5667⟩] ∧
          debtors (computeBalanceCents s.getMembers s.actualExpenses) =
            [⟨"ben", "Ben", 3333⟩, ⟨"cem", "Cem", 2334⟩] := by
    decide +kernel
  obtain ⟨t, ht⟩ := Option.isSome_iff_exists.mp hrun
  have hplan : simplifyDebts (computeBalanceCents s.getMembers s.actualExpenses) =
      tripPlan.reverse := by
    rw [simplifyDebts, hcreditors, hdebtors, settleUp_left (by decide) (by decide),
      settleUp_both (by decide) (by decide) (by decide), settleUp]
    decide
  refine ⟨s, t, hs, ht, settlementPlan_paid s.rows_self ?_ ht t.rows_self⟩
  rw [hplan]
  exact (List.reverse_perm _).symm

end FestivalPlanner.Ledger
