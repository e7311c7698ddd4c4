import FestivalPlanner.Ledger.SimplifyDebts

/-!
# Who pays whom in the plan

The loop of `simplifyDebts` with its two cursors, and what its transfers are.

* `Loop.round`, `Loop.run` — the loop on the two lists as they are changed in place;
* `Loop.run_eq` — it ends, within as many rounds as there are parties, with the plan;
* `length_settleUp` — every round uses up a creditor or a debtor;
* `simplifyDebts_sound` — debtors pay creditors, nobody more than the balance, and in fewer
  transfers than there are parties.
-/

namespace FestivalPlanner.Ledger

open Positions List

/-! ## The loop with its cursors -/

/-- The variables of the loop. -/
structure Loop where
  creditors : List Party
  debtors : List Party
  ci : ℕ
  di : ℕ
  settlements : List Settlement

namespace Loop

/-- The loop as it starts. -/
def start (balances : List BalanceCents) : Loop :=
  { creditors := Ledger.creditors balances, debtors := Ledger.debtors balances, ci := 0, di := 0,
    settlements := [] }

/-- The party at each cursor, while both are within their lists. -/
def heads (l : Loop) : Option (Party × Party) := do
  return (← l.creditors[l.ci]?, ← l.debtors[l.di]?)

/-- One round. -/
def round (l : Loop) (creditor debtor : Party) : Loop :=
  let amountCents := min creditor.remaining debtor.remaining
  { creditors := l.creditors.set l.ci (creditor.take amountCents)
    debtors := l.debtors.set l.di (debtor.take amountCents)
    ci := if (creditor.take amountCents).remaining ≤ 1 then l.ci + 1 else l.ci
    di := if (debtor.take amountCents).remaining ≤ 1 then l.di + 1 else l.di
    settlements := l.settlements ++
      if 1 < amountCents then [settlement creditor debtor amountCents] else [] }

/-- At most `n` rounds; `none` when the loop has not ended by then. -/
def run : ℕ → Loop → Option Loop
  | n, l =>
    match l.heads with
    | none => some l
    | some (creditor, debtor) =>
      match n with
      | 0 => none
      | n + 1 => run n (l.round creditor debtor)

/-- The parties from the cursors on. -/
def rest (l : Loop) : List Party × List Party := (l.creditors.drop l.ci, l.debtors.drop l.di)

/-- One party changed at the cursor, and the cursor moved on when a penny is left. -/
theorem drop_set {ps : List Party} {i : ℕ} {p : Party} (h : ps[i]? = some p) (q : Party) :
    (ps.set i q).drop (if q.remaining ≤ 1 then i + 1 else i) = advance q (ps.drop (i + 1)) := by
  obtain ⟨hlt, -⟩ := List.getElem?_eq_some_iff.mp h
  unfold advance
  split
  · rw [drop_set_of_lt (Nat.lt_succ_self i)]
  · rw [List.drop_set, if_neg (Nat.lt_irrefl i), Nat.sub_self, drop_eq_getElem_cons hlt,
      set_cons_zero]

theorem heads_eq_some {l : Loop} {c d : Party} (h : l.heads = some (c, d)) :
    l.creditors[l.ci]? = some c ∧ l.debtors[l.di]? = some d := by
  unfold heads at h
  cases hc : l.creditors[l.ci]? with
  | none => simp [hc] at h
  | some c' =>
    cases hd : l.debtors[l.di]? with
    | none => simp [hc, hd] at h
    | some d' => simpa [hc, hd] using h

theorem heads_eq_none {l : Loop} (h : l.heads = none) : l.rest.1 = [] ∨ l.rest.2 = [] := by
  unfold heads at h
  cases hc : l.creditors[l.ci]? with
  | none => exact .inl (drop_eq_nil_of_le (List.getElem?_eq_none_iff.mp hc))
  | some c =>
    cases hd : l.debtors[l.di]? with
    | none => exact .inr (drop_eq_nil_of_le (List.getElem?_eq_none_iff.mp hd))
    | some d => simp [hc, hd] at h

end Loop

theorem settleUp_nil (cs : List Party) : settleUp cs [] = [] := by
  cases cs <;> rw [settleUp]

/-- One of the two is used up in a round. -/
theorem length_advance_lt (c d : Party) (cs ds : List Party) :
    (advance (c.take (min c.remaining d.remaining)) cs).length +
      (advance (d.take (min c.remaining d.remaining)) ds).length <
      (c :: cs).length + (d :: ds).length := by
  have hc := length_advance_le (c.take (min c.remaining d.remaining)) cs
  have hd := length_advance_le (d.take (min c.remaining d.remaining)) ds
  simp only [length_cons]
  rcases le_total c.remaining d.remaining with h | h
  · rw [min_eq_left h, advance_take_of_le (by omega) cs] at *
    omega
  · rw [min_eq_right h, advance_take_of_le (by omega) ds] at *
    omega

/-- **The loop ends** within as many rounds as there are parties left, with the transfers of
`settleUp`. -/
theorem Loop.run_eq (n : ℕ) (l : Loop) (hn : l.rest.1.length + l.rest.2.length ≤ n) :
    ∃ t, l.run n = some t ∧ t.settlements = l.settlements ++ settleUp l.rest.1 l.rest.2 := by
  induction n generalizing l with
  | zero =>
    have hc : l.rest.1 = [] := length_eq_zero_iff.mp (by omega)
    have hheads : l.heads = none := by
      cases h : l.heads with
      | none => rfl
      | some p =>
        obtain ⟨hget, -⟩ := Loop.heads_eq_some (c := p.1) (d := p.2) h
        obtain ⟨hlt, -⟩ := List.getElem?_eq_some_iff.mp hget
        have := drop_eq_nil_iff.mp hc
        omega
    refine ⟨l, by rw [run, hheads], ?_⟩
    rw [hc, settleUp, append_nil]
  | succ n ih =>
    cases h : l.heads with
    | none =>
      refine ⟨l, by rw [run, h], ?_⟩
      rcases Loop.heads_eq_none h with hnil | hnil
      · rw [hnil, settleUp, append_nil]
      · rw [hnil, settleUp_nil, append_nil]
    | some p =>
      obtain ⟨c, d⟩ := p
      obtain ⟨hc, hd⟩ := Loop.heads_eq_some h
      have hcs : l.rest.1 = c :: l.creditors.drop (l.ci + 1) := by
        obtain ⟨hlt, rfl⟩ := List.getElem?_eq_some_iff.mp hc
        exact drop_eq_getElem_cons hlt
      have hds : l.rest.2 = d :: l.debtors.drop (l.di + 1) := by
        obtain ⟨hlt, rfl⟩ := List.getElem?_eq_some_iff.mp hd
        exact drop_eq_getElem_cons hlt
      have hrest : (l.round c d).rest =
          (advance (c.take (min c.remaining d.remaining)) (l.creditors.drop (l.ci + 1)),
            advance (d.take (min c.remaining d.remaining)) (l.debtors.drop (l.di + 1))) :=
        Prod.ext (Loop.drop_set hc _) (Loop.drop_set hd _)
      have hlt := length_advance_lt c d (l.creditors.drop (l.ci + 1)) (l.debtors.drop (l.di + 1))
      rw [hcs, hds] at hn
      obtain ⟨t, ht, hsettlements⟩ := ih (l.round c d) (by simp only [hrest]; omega)
      refine ⟨t, by rw [run, h]; exact ht, ?_⟩
      rw [hsettlements, hrest, hcs, hds, settleUp_cons]
      by_cases hpenny : 1 < min c.remaining d.remaining
      · simp only [Loop.round, if_pos hpenny, append_assoc, singleton_append]
      · simp only [Loop.round, if_neg hpenny, append_nil]

/-! ## The number of transfers -/

/-- Every round uses up a party, and the last one two. -/
theorem length_settleUp (cs ds : List Party) :
    settleUp cs ds = [] ∨ (settleUp cs ds).length < cs.length + ds.length := by
  fun_induction settleUp cs ds with
  | case1 => exact .inl rfl
  | case2 => exact .inl rfl
  | case3 c cs d ds amountCents rest hlt ih =>
    have hused : (advance (c.take amountCents) cs).length + (advance (d.take amountCents) ds).length <
      (c :: cs).length + (d :: ds).length := length_advance_lt c d cs ds
    refine .inr ?_
    rcases ih with hnil | hlength
    · rw [show rest = [] from hnil]
      simp only [length_cons, length_nil]
      omega
    · exact Nat.lt_of_le_of_lt (Nat.succ_le_of_lt hlength) hused
  | case4 c cs d ds amountCents rest hlt ih =>
    have hused : (advance (c.take amountCents) cs).length + (advance (d.take amountCents) ds).length <
      (c :: cs).length + (d :: ds).length := length_advance_lt c d cs ds
    exact ih.imp_right fun hlength => hlength.trans hused

theorem amount_pos {cs ds : List Party} {t : Settlement} (h : t ∈ settleUp cs ds) :
    0 < t.amountCents := by
  fun_induction settleUp cs ds with
  | case1 => cases h
  | case2 => cases h
  | case3 c cs d ds amountCents rest hlt ih =>
    rcases mem_cons.mp h with rfl | h
    · exact zero_lt_one.trans hlt
    · exact ih h
  | case4 c cs d ds amountCents rest hlt ih => exact ih h

/-! ## What a member pays and receives -/

/-- What a member pays in total. -/
def paid (plan : List Settlement) (u : String) : ℤ :=
  ((plan.filter (fun t => t.fromUserId = u)).map Settlement.amountCents).sum

/-- What a member receives in total. -/
def received (plan : List Settlement) (u : String) : ℤ :=
  ((plan.filter (fun t => t.toUserId = u)).map Settlement.amountCents).sum

theorem paid_eq_zero {plan : List Settlement} {u : String} (h : ∀ t ∈ plan, t.fromUserId ≠ u) :
    paid plan u = 0 := by
  rw [paid, filter_eq_nil_iff.mpr fun t ht => by simpa using h t ht]
  rfl

theorem received_eq_zero {plan : List Settlement} {u : String} (h : ∀ t ∈ plan, t.toUserId ≠ u) :
    received plan u = 0 := by
  rw [received, filter_eq_nil_iff.mpr fun t ht => by simpa using h t ht]
  rfl

theorem planEffect_eq (plan : List Settlement) (u : String) :
    planEffect plan u = paid plan u - received plan u := by
  induction plan with
  | nil => rfl
  | cons t plan ih =>
    rw [planEffect_cons, ih, Transfer.effect]
    simp only [Settlement.transfer, paid, received, filter_cons, decide_eq_true_eq]
    by_cases hfrom : t.fromUserId = u <;> by_cases hto : t.toUserId = u <;>
      simp only [hfrom, hto, if_true, if_false, map_cons, sum_cons] <;> ring

/-! ## The plan -/

/-- The members with a balance that is not zero. -/
def unsettled (balances : List BalanceCents) : List BalanceCents :=
  balances.filter (fun b => b.balanceCents ≠ 0)

/-- A debtor pays a creditor, and each of them no more than the balance. -/
structure Sound (balances : List BalanceCents) (plan : List Settlement) : Prop where
  transfers : ∀ t ∈ plan, 0 < t.amountCents ∧ t.fromUserId ≠ t.toUserId ∧
    (∃ b ∈ balances, b.userId = t.fromUserId ∧ b.balanceCents < 0) ∧
    ∃ b ∈ balances, b.userId = t.toUserId ∧ 0 < b.balanceCents
  paid_le : ∀ b ∈ balances, paid plan b.userId ≤ |b.balanceCents|
  received_le : ∀ b ∈ balances, received plan b.userId ≤ |b.balanceCents|
  count : plan.length < (unsettled balances).length ∨ unsettled balances = [] ∧ plan = []

theorem length_parties (balances : List BalanceCents) :
    (creditors balances).length + (debtors balances).length = (unsettled balances).length := by
  unfold creditors debtors sortParties unsettled
  rw [length_insertionSort, length_insertionSort, length_map, length_map]
  induction balances with
  | nil => rfl
  | cons b balances ih =>
    rcases lt_trichotomy b.balanceCents 0 with h | h | h
    · rw [filter_cons_of_neg (by simp; omega), filter_cons_of_pos (by simpa using h),
        filter_cons_of_pos (by simp; omega), length_cons, length_cons]
      omega
    · rw [filter_cons_of_neg (by simp; omega), filter_cons_of_neg (by simp; omega),
        filter_cons_of_neg (by simpa using h)]
      exact ih
    · rw [filter_cons_of_pos (by simpa using h), filter_cons_of_neg (by simp; omega),
        filter_cons_of_pos (by simp; omega), length_cons, length_cons]
      omega

/-- **The plan is sound, and the loop that makes it ends.** -/
theorem simplifyDebts_sound (balances : List BalanceCents)
    (hunique : (balances.map BalanceCents.userId).Nodup) :
    (∃ t, (Loop.start balances).run (unsettled balances).length = some t ∧
      t.settlements = simplifyDebts balances) ∧ Sound balances (simplifyDebts balances) := by
  have hends := Loop.run_eq (unsettled balances).length (Loop.start balances)
    (length_parties balances).le
  have hparties : ∀ t ∈ simplifyDebts balances,
      (∃ b ∈ balances, b.userId = t.fromUserId ∧ b.balanceCents < 0) ∧
      ∃ b ∈ balances, b.userId = t.toUserId ∧ 0 < b.balanceCents := by
    intro t ht
    obtain ⟨hto, hfrom⟩ := mem_settleUp ht
    obtain ⟨p, hp, hpid⟩ := List.mem_map.mp hfrom
    obtain ⟨b, hb, hneg, rfl⟩ := mem_debtors.mp hp
    obtain ⟨q, hq, hqid⟩ := List.mem_map.mp hto
    obtain ⟨c, hc, hpos, rfl⟩ := mem_creditors.mp hq
    exact ⟨⟨b, hb, hpid, hneg⟩, c, hc, hqid, hpos⟩
  have hsame : ∀ b ∈ balances, ∀ c ∈ balances, b.userId = c.userId → b = c :=
    fun b hb c hc hid => List.inj_on_of_nodup_map hunique hb hc hid
  -- a member is on one side only, so the residual bounds what is paid or received
  have hpays : ∀ b ∈ balances, 0 ≤ b.balanceCents → paid (simplifyDebts balances) b.userId = 0 := by
    intro b hb h0
    refine paid_eq_zero fun t ht hid => ?_
    obtain ⟨⟨c, hc, hcid, hneg⟩, -⟩ := hparties t ht
    obtain rfl := hsame c hc b hb (hcid.trans hid)
    omega
  have hreceives : ∀ b ∈ balances, b.balanceCents ≤ 0 →
      received (simplifyDebts balances) b.userId = 0 := by
    intro b hb h0
    refine received_eq_zero fun t ht hid => ?_
    obtain ⟨-, c, hc, hcid, hpos⟩ := hparties t ht
    obtain rfl := hsame c hc b hb (hcid.trans hid)
    omega
  refine ⟨hends, ⟨fun t ht => ?_, fun b hb => ?_, fun b hb => ?_, ?_⟩⟩
  · obtain ⟨⟨b, hb, hbid, hneg⟩, c, hc, hcid, hpos⟩ := hparties t ht
    refine ⟨amount_pos ht, fun hid => ?_, ⟨b, hb, hbid, hneg⟩, c, hc, hcid, hpos⟩
    obtain rfl := hsame b hb c hc (hbid.trans (hid.trans hcid.symm))
    omega
  · rcases le_total 0 b.balanceCents with h | h
    · rw [hpays b hb h]
      exact abs_nonneg _
    · obtain ⟨-, hneg, hzero⟩ := residual_sign hunique hb
      rw [residual, planEffect_eq, hreceives b hb h, sub_zero] at hneg hzero
      rw [abs_of_nonpos h]
      rcases h.lt_or_eq with hlt | heq
      · have := hneg hlt
        omega
      · have := hzero heq
        omega
  · rcases le_total b.balanceCents 0 with h | h
    · rw [hreceives b hb h]
      exact abs_nonneg _
    · obtain ⟨hpos, -, hzero⟩ := residual_sign hunique hb
      rw [residual, planEffect_eq, hpays b hb h, zero_sub] at hpos hzero
      rw [abs_of_nonneg h]
      rcases h.lt_or_eq with hlt | heq
      · have := hpos hlt
        omega
      · have := hzero heq.symm
        omega
  · rw [← length_parties]
    rcases length_settleUp (creditors balances) (debtors balances) with hnil | hlt
    · by_cases hparties : unsettled balances = []
      · exact .inr ⟨hparties, hnil⟩
      · refine .inl ?_
        rw [length_parties, simplifyDebts, hnil]
        exact List.length_pos_iff.mpr hparties
    · exact .inl hlt

theorem dinner_sound : (∃ t, (Loop.start dinner).run 4 = some t ∧
    t.settlements = simplifyDebts dinner) ∧ Sound dinner (simplifyDebts dinner) :=
  simplifyDebts_sound dinner (by decide)

/-- Where everybody is settled there is no transfer, which is not fewer than no members. -/
theorem settled_plan_not_fewer : ¬∀ balances : List BalanceCents,
    (balances.map BalanceCents.userId).Nodup → balanceSum balances = 0 →
      (simplifyDebts balances).length < (unsettled balances).length := by
  intro h
  exact absurd (h [⟨"ana", "Ana", 0⟩] (by decide) (by decide)) (Nat.not_lt_zero _)

end FestivalPlanner.Ledger
