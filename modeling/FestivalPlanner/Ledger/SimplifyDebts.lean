import Mathlib.Data.List.Sort
import FestivalPlanner.Ledger.Balances
import FestivalPlanner.Lib.Matching

/-!
# The settlement plan

`simplifyDebts` of `lib/db/stores/expenses.ts`: match the largest creditor against the
largest debtor until one side is used up.

* `settleUp` — the loop, with the two cursors as the two remaining lists;
* `settleUp_matched` — the loop is the matching of `Matching.Matched`: what a member is
  left with after paying the plan is what the matching leaves of their amount;
* `simplifyDebts_settles_iff` — the plan settles everything but single cents exactly when
  the credits and the debts of two cents and more pair off.

Matches of one cent are taken off both sides without a transfer, so a creditor whose
debtors owe one cent each is left with everything (`cent_debts_not_settled`).
-/

namespace FestivalPlanner.Ledger

open Positions Matching List

/-! ## The algorithm -/

/-- `Settlement`. -/
structure Settlement where
  fromUserId : String
  fromName : String
  toUserId : String
  toName : String
  amountCents : ℤ
  deriving DecidableEq

/-- A creditor or a debtor, with what remains of the amount. -/
structure Party where
  userId : String
  username : String
  remaining : ℤ
  deriving DecidableEq

/-- `party.remaining -= amountCents`. -/
def Party.take (p : Party) (amountCents : ℤ) : Party :=
  { p with remaining := p.remaining - amountCents }

/-- The transfer from a debtor to a creditor. -/
def settlement (creditor debtor : Party) (amountCents : ℤ) : Settlement where
  fromUserId := debtor.userId
  fromName := debtor.username
  toUserId := creditor.userId
  toName := creditor.username
  amountCents := amountCents

/-- Move on when a rounding penny is left. -/
def advance (p : Party) (rest : List Party) : List Party :=
  if p.remaining ≤ 1 then rest else p :: rest

theorem length_advance_le (p : Party) (rest : List Party) :
    (advance p rest).length ≤ rest.length + 1 := by
  unfold advance
  split <;> simp

/-- The loop: the creditors and debtors from the two cursors on. -/
@[grind =] def settleUp : List Party → List Party → List Settlement
  | [], _ => []
  | _ :: _, [] => []
  | creditor :: creditors, debtor :: debtors =>
      let amountCents := min creditor.remaining debtor.remaining
      let rest := settleUp (advance (creditor.take amountCents) creditors)
        (advance (debtor.take amountCents) debtors)
      -- Only emit a transfer worth more than a rounding penny.
      if 1 < amountCents then settlement creditor debtor amountCents :: rest else rest
termination_by creditors debtors => creditors.length + debtors.length
decreasing_by
  have hc := length_advance_le (creditor.take (min creditor.remaining debtor.remaining)) creditors
  have hd := length_advance_le (debtor.take (min creditor.remaining debtor.remaining)) debtors
  rw [length_cons, length_cons]
  rcases le_total creditor.remaining debtor.remaining with h | h
  · have : advance (creditor.take (min creditor.remaining debtor.remaining)) creditors =
        creditors := if_pos (by simp [Party.take, min_eq_left h])
    rw [this]
    omega
  · have : advance (debtor.take (min creditor.remaining debtor.remaining)) debtors =
        debtors := if_pos (by simp [Party.take, min_eq_right h])
    rw [this]
    omega

/-- Largest first, stably. -/
@[grind =] def sortParties (ps : List Party) : List Party :=
  ps.insertionSort (fun a b => b.remaining ≤ a.remaining)

/-- The members who are owed money. -/
def creditors (balances : List BalanceCents) : List Party :=
  sortParties ((balances.filter (fun b => 0 < b.balanceCents)).map
    (fun b => ⟨b.userId, b.username, b.balanceCents⟩))

/-- The members who owe money. -/
def debtors (balances : List BalanceCents) : List Party :=
  sortParties ((balances.filter (fun b => b.balanceCents < 0)).map
    (fun b => ⟨b.userId, b.username, -b.balanceCents⟩))

/-- `simplifyDebts`. -/
def simplifyDebts (balances : List BalanceCents) : List Settlement :=
  settleUp (creditors balances) (debtors balances)

/-- The payment a settlement asks for. -/
def Settlement.transfer (t : Settlement) : Transfer String ℤ :=
  ⟨t.fromUserId, t.toUserId, t.amountCents⟩

/-- What paying a plan does to a member's balance. -/
@[grind =] def planEffect (plan : List Settlement) (u : String) : ℤ := net (plan.map Settlement.transfer) u

/-! ## The loop -/

/-- One round of the loop. -/
theorem settleUp_cons (c d : Party) (cs ds : List Party) :
    settleUp (c :: cs) (d :: ds) =
      if 1 < min c.remaining d.remaining then
        settlement c d (min c.remaining d.remaining) ::
          settleUp (advance (c.take (min c.remaining d.remaining)) cs)
            (advance (d.take (min c.remaining d.remaining)) ds)
      else settleUp (advance (c.take (min c.remaining d.remaining)) cs)
        (advance (d.take (min c.remaining d.remaining)) ds) := by
  rw [settleUp]

variable {p : Party} {ps : List Party} {b : BalanceCents}

theorem advance_take_of_le {a : ℤ} (h : p.remaining ≤ a + 1) (ps : List Party) :
    advance (p.take a) ps = ps := by
  refine if_pos ?_
  show p.remaining - a ≤ 1
  omega

theorem advance_take_of_lt {a : ℤ} (h : a + 2 ≤ p.remaining) (ps : List Party) :
    advance (p.take a) ps = p.take a :: ps := by
  refine if_neg ?_
  show ¬p.remaining - a ≤ 1
  omega

/-- The heads pay for each other. -/
theorem settleUp_both {c d : Party} (hc : 2 ≤ c.remaining) (hd : 2 ≤ d.remaining)
    (hclose : |c.remaining - d.remaining| ≤ 1) (cs ds : List Party) :
    settleUp (c :: cs) (d :: ds) =
      settlement c d (min c.remaining d.remaining) :: settleUp cs ds := by
  rw [abs_le] at hclose
  rw [settleUp_cons, if_pos (by omega), advance_take_of_le (by omega) cs,
    advance_take_of_le (by omega) ds]

/-- The creditor outlasts the debtor. -/
theorem settleUp_left {c d : Party} (hd : 2 ≤ d.remaining) (hlt : d.remaining + 2 ≤ c.remaining)
    (cs ds : List Party) :
    settleUp (c :: cs) (d :: ds) =
      settlement c d d.remaining :: settleUp (c.take d.remaining :: cs) ds := by
  rw [settleUp_cons, min_eq_right (by omega), if_pos (by omega), advance_take_of_lt hlt,
    advance_take_of_le (by omega) ds]

/-- The debtor outlasts the creditor. -/
theorem settleUp_right {c d : Party} (hc : 2 ≤ c.remaining)
    (hlt : c.remaining + 2 ≤ d.remaining) (cs ds : List Party) :
    settleUp (c :: cs) (d :: ds) =
      settlement c d c.remaining :: settleUp cs (d.take c.remaining :: ds) := by
  rw [settleUp_cons, min_eq_left (by omega), if_pos (by omega), advance_take_of_lt hlt,
    advance_take_of_le (by omega) cs]

/-- The transfers go from debtors to creditors. -/
theorem mem_settleUp {cs ds : List Party} {t : Settlement} (h : t ∈ settleUp cs ds) :
    t.toUserId ∈ cs.map Party.userId ∧ t.fromUserId ∈ ds.map Party.userId := by
  have hadvance : ∀ (p : Party) (a : ℤ) (ps : List Party) {u : String},
      u ∈ (advance (p.take a) ps).map Party.userId → u ∈ (p :: ps).map Party.userId := by
    intro p a ps u hu
    unfold advance at hu
    split at hu
    · exact mem_cons_of_mem _ hu
    · exact hu
  fun_induction settleUp cs ds with
  | case1 => cases h
  | case2 => cases h
  | case3 c cs d ds amountCents rest hlt ih =>
    rcases mem_cons.mp h with rfl | h
    · exact ⟨mem_cons_self .., mem_cons_self ..⟩
    · exact ⟨hadvance c _ cs (ih h).1, hadvance d _ ds (ih h).2⟩
  | case4 c cs d ds amountCents rest hlt ih =>
    exact ⟨hadvance c _ cs (ih h).1, hadvance d _ ds (ih h).2⟩

/-- A plan does not touch who is neither creditor nor debtor. -/
theorem planEffect_of_notMem {cs ds : List Party} {u : String} (hc : u ∉ cs.map Party.userId)
    (hd : u ∉ ds.map Party.userId) : planEffect (settleUp cs ds) u = 0 := by
  refine net_of_notMem fun t ht => ?_
  obtain ⟨s, hs, rfl⟩ := mem_map.mp ht
  obtain ⟨hto, hfrom⟩ := mem_settleUp hs
  exact ⟨fun h => hd (h ▸ hfrom), fun h => hc (h ▸ hto)⟩

/-- Single cents are not transferred. -/
theorem settleUp_eq_nil {cs ds : List Party} (hc : ∀ c ∈ cs, 0 ≤ c.remaining)
    (hd : ∀ d ∈ ds, 0 ≤ d.remaining)
    (h : (∀ c ∈ cs, c.remaining ≤ 1) ∨ ∀ d ∈ ds, d.remaining ≤ 1) : settleUp cs ds = [] := by
  have hadvance : ∀ (p : Party) (a b : ℤ) (ps : List Party), a ≤ p.remaining → 0 ≤ a →
      (∀ x ∈ p :: ps, 0 ≤ x.remaining) →
      (∀ x ∈ advance (p.take a) ps, 0 ≤ x.remaining) ∧
        ((∀ x ∈ p :: ps, x.remaining ≤ b) → ∀ x ∈ advance (p.take a) ps, x.remaining ≤ b) := by
    intro p a b ps hle h0 hps
    unfold advance
    split
    · exact ⟨fun x hx => hps x (mem_cons_of_mem _ hx),
        fun h x hx => h x (mem_cons_of_mem _ hx)⟩
    · refine ⟨fun x hx => ?_, fun h x hx => ?_⟩
      · rcases mem_cons.mp hx with rfl | hx
        · show 0 ≤ p.remaining - a
          omega
        · exact hps x (mem_cons_of_mem _ hx)
      · rcases mem_cons.mp hx with rfl | hx
        · have := h p (mem_cons_self ..)
          show p.remaining - a ≤ b
          omega
        · exact h x (mem_cons_of_mem _ hx)
  fun_induction settleUp cs ds with
  | case1 => rfl
  | case2 => rfl
  | case3 c cs d ds amountCents rest hlt ih =>
    -- One of the heads is at most one cent.
    exfalso
    rcases h with h | h
    · have := h c (mem_cons_self ..)
      omega
    · have := h d (mem_cons_self ..)
      omega
  | case4 c cs d ds amountCents rest hlt ih =>
    have hc0 := hc c (mem_cons_self ..)
    have hd0 := hd d (mem_cons_self ..)
    have hcs := hadvance c amountCents 1 cs (min_le_left _ _) (le_min hc0 hd0) hc
    have hds := hadvance d amountCents 1 ds (min_le_right _ _) (le_min hc0 hd0) hd
    exact ih hcs.1 hds.1 (h.imp hcs.2 hds.2)

/-! ## What the plan leaves -/

/-- A side as the loop finds it: everyone has a cent left, and who has only one comes
last. -/
structure Ready (ps : List Party) : Prop where
  pos : ∀ p ∈ ps, 1 ≤ p.remaining
  last : ps.Pairwise (fun p q => p.remaining = 1 → q.remaining = 1)

theorem Ready.tail (h : Ready (p :: ps)) : Ready ps :=
  ⟨fun q hq => h.pos q (mem_cons_of_mem _ hq), (pairwise_cons.mp h.last).2⟩

/-- Behind a single cent there are single cents only. -/
theorem Ready.eq_one (h : Ready (p :: ps)) (hp : p.remaining ≤ 1) :
    ∀ q ∈ p :: ps, q.remaining = 1 := by
  have hone : p.remaining = 1 := le_antisymm hp (h.pos p (mem_cons_self ..))
  intro q hq
  rcases mem_cons.mp hq with rfl | hq
  · exact hone
  · exact (pairwise_cons.mp h.last).1 q hq hone

/-- A head with more than a cent left may stay. -/
theorem Ready.take (h : Ready (p :: ps)) {a : ℤ} (ha : a + 2 ≤ p.remaining) :
    Ready (p.take a :: ps) := by
  have htake : (p.take a).remaining = p.remaining - a := rfl
  refine ⟨fun q hq => ?_, pairwise_cons.mpr ⟨fun q _ hone => ?_, h.tail.last⟩⟩
  · rcases mem_cons.mp hq with rfl | hq
    · omega
    · exact h.tail.pos q hq
  · omega

theorem ready_sortParties (h : ∀ p ∈ ps, 0 < p.remaining) : Ready (sortParties ps) := by
  have hpos : ∀ p ∈ sortParties ps, 1 ≤ p.remaining := fun p hp =>
    h p ((perm_insertionSort _ ps).mem_iff.mp hp)
  refine ⟨hpos, ?_⟩
  have hsorted : (sortParties ps).Pairwise (fun a b => b.remaining ≤ a.remaining) :=
    pairwise_insertionSort _ ps
  refine hsorted.imp_of_mem fun hp hq hle hone => ?_
  have := hpos _ hq
  omega

/-- What the creditors are still owed after a plan is paid. -/
def creditsLeft (plan : List Settlement) (cs : List Party) : List ℤ :=
  cs.map (fun c => c.remaining + planEffect plan c.userId)

/-- What the debtors still owe after a plan is paid. -/
def debtsLeft (plan : List Settlement) (ds : List Party) : List ℤ :=
  ds.map (fun d => d.remaining - planEffect plan d.userId)

theorem creditsLeft_nil (cs : List Party) : creditsLeft [] cs = cs.map Party.remaining := by
  simp [creditsLeft, planEffect]

theorem debtsLeft_nil (ds : List Party) : debtsLeft [] ds = ds.map Party.remaining := by
  simp [debtsLeft, planEffect]

theorem creditsLeft_cons (plan : List Settlement) (c : Party) (cs : List Party) :
    creditsLeft plan (c :: cs) =
      (c.remaining + planEffect plan c.userId) :: creditsLeft plan cs := rfl

theorem debtsLeft_cons (plan : List Settlement) (d : Party) (ds : List Party) :
    debtsLeft plan (d :: ds) = (d.remaining - planEffect plan d.userId) :: debtsLeft plan ds := rfl

theorem planEffect_cons (t : Settlement) (plan : List Settlement) (u : String) :
    planEffect (t :: plan) u = t.transfer.effect u + planEffect plan u :=
  net_cons ..

section Transfers

variable {c d : Party} {a : ℤ} {plan : List Settlement}

/-- A transfer does not touch the others. -/
theorem planEffect_settlement_of_ne {u : String} (hc : c.userId ≠ u) (hd : d.userId ≠ u) :
    planEffect (settlement c d a :: plan) u = planEffect plan u := by
  rw [planEffect_cons, Transfer.effect_of_ne (t := (settlement c d a).transfer) hd hc, zero_add]

theorem planEffect_settlement_creditor (h : d.userId ≠ c.userId) :
    planEffect (settlement c d a :: plan) c.userId = planEffect plan c.userId - a := by
  have heffect : (settlement c d a).transfer.effect c.userId = -a :=
    Transfer.effect_target (t := (settlement c d a).transfer) h
  rw [planEffect_cons, heffect]
  omega

theorem planEffect_settlement_debtor (h : d.userId ≠ c.userId) :
    planEffect (settlement c d a :: plan) d.userId = planEffect plan d.userId + a := by
  have heffect : (settlement c d a).transfer.effect d.userId = a :=
    Transfer.effect_source (t := (settlement c d a).transfer) h.symm
  rw [planEffect_cons, heffect]
  omega

/-- A transfer takes its amount off its creditor. -/
theorem creditsLeft_settlement {cs : List Party} (h : d.userId ≠ c.userId)
    (hc : c.userId ∉ cs.map Party.userId) (hd : d.userId ∉ cs.map Party.userId) :
    creditsLeft (settlement c d a :: plan) (c :: cs) = creditsLeft plan (c.take a :: cs) := by
  have htail : creditsLeft (settlement c d a :: plan) cs = creditsLeft plan cs := by
    refine map_congr_left fun x hx => ?_
    have hx : x.userId ∈ cs.map Party.userId := mem_map_of_mem hx
    rw [planEffect_settlement_of_ne (fun h => hc (h ▸ hx)) (fun h => hd (h ▸ hx))]
  rw [creditsLeft_cons, creditsLeft_cons, htail, planEffect_settlement_creditor h]
  show _ = (c.remaining - a + planEffect plan c.userId) :: _
  rw [show c.remaining + (planEffect plan c.userId - a) =
    c.remaining - a + planEffect plan c.userId by omega]

/-- A transfer takes its amount off its debtor. -/
theorem debtsLeft_settlement {ds : List Party} (h : d.userId ≠ c.userId)
    (hc : c.userId ∉ ds.map Party.userId) (hd : d.userId ∉ ds.map Party.userId) :
    debtsLeft (settlement c d a :: plan) (d :: ds) = debtsLeft plan (d.take a :: ds) := by
  have htail : debtsLeft (settlement c d a :: plan) ds = debtsLeft plan ds := by
    refine map_congr_left fun x hx => ?_
    have hx : x.userId ∈ ds.map Party.userId := mem_map_of_mem hx
    rw [planEffect_settlement_of_ne (fun h => hc (h ▸ hx)) (fun h => hd (h ▸ hx))]
  rw [debtsLeft_cons, debtsLeft_cons, htail, planEffect_settlement_debtor h]
  show _ = (d.remaining - a - planEffect plan d.userId) :: _
  rw [show d.remaining - (planEffect plan d.userId + a) =
    d.remaining - a - planEffect plan d.userId by omega]

end Transfers

/-! ## The plan is a matching -/

/-- The members of the two sides are different people. -/
def Distinct (cs ds : List Party) : Prop := ((cs ++ ds).map Party.userId).Nodup

namespace Distinct

variable {c d : Party} {cs ds : List Party}

theorem tails (h : Distinct (c :: cs) (d :: ds)) : Distinct cs ds :=
  List.Nodup.sublist
    (((sublist_cons_self c cs).append (sublist_cons_self d ds)).map _) h

theorem left (h : Distinct (c :: cs) (d :: ds)) (a : ℤ) : Distinct (c.take a :: cs) ds := by
  have h : Distinct (c.take a :: cs) (d :: ds) := h
  exact List.Nodup.sublist (((List.Sublist.refl _).append (sublist_cons_self d ds)).map _) h

theorem right (h : Distinct (c :: cs) (d :: ds)) (a : ℤ) : Distinct cs (d.take a :: ds) := by
  have h : ((c :: cs).map Party.userId ++ (d.take a :: ds).map Party.userId).Nodup := by
    rw [Distinct, map_append] at h
    exact h
  rw [Distinct, map_append]
  exact List.Nodup.sublist ((sublist_cons_self _ _).append (List.Sublist.refl _)) h

/-- The two heads are not each other, and are not among the rest. -/
theorem heads (h : Distinct (c :: cs) (d :: ds)) :
    d.userId ≠ c.userId ∧ c.userId ∉ cs.map Party.userId ∧ c.userId ∉ ds.map Party.userId ∧
      d.userId ∉ cs.map Party.userId ∧ d.userId ∉ ds.map Party.userId := by
  rw [Distinct, map_append, nodup_append'] at h
  obtain ⟨hcs, hds, hdisjoint⟩ := h
  have hc : c.userId ∉ (d :: ds).map Party.userId := hdisjoint (mem_cons_self ..)
  have hd : d.userId ∉ (c :: cs).map Party.userId := fun hd =>
    hdisjoint hd (mem_cons_self ..)
  rw [map_cons, mem_cons, not_or] at hc hd
  exact ⟨hd.1, (nodup_cons.mp hcs).1, hc.2, hd.2, (nodup_cons.mp hds).1⟩

end Distinct

/-- Where one side has single cents only, nothing is transferred. -/
theorem matched_of_single {cs ds : List Party} (hc : Ready cs) (hd : Ready ds)
    (h : (∀ c ∈ cs, c.remaining = 1) ∨ ∀ d ∈ ds, d.remaining = 1) :
    Matched (cs.map Party.remaining) (ds.map Party.remaining)
      (creditsLeft (settleUp cs ds) cs) (debtsLeft (settleUp cs ds) ds) := by
  have hnil : settleUp cs ds = [] := by
    refine settleUp_eq_nil (fun c h => ?_) (fun d h => ?_)
      (h.imp (fun h c hc => (h c hc).le) (fun h d hd => (h d hd).le))
    · exact zero_le_one.trans (hc.pos c h)
    · exact zero_le_one.trans (hd.pos d h)
  rw [hnil, creditsLeft_nil, debtsLeft_nil]
  refine .stop (h.imp (fun h x hx => ?_) (fun h x hx => ?_))
  · obtain ⟨c, hc, rfl⟩ := mem_map.mp hx
    exact h c hc
  · obtain ⟨d, hd, rfl⟩ := mem_map.mp hx
    exact h d hd

/-- **The loop is a matching**: it leaves everyone what the matching of the amounts
leaves. -/
theorem settleUp_matched {cs ds : List Party} (hc : Ready cs) (hd : Ready ds)
    (hn : Distinct cs ds) :
    Matched (cs.map Party.remaining) (ds.map Party.remaining)
      (creditsLeft (settleUp cs ds) cs) (debtsLeft (settleUp cs ds) ds) := by
  induction hlen : cs.length + ds.length using Nat.strong_induction_on generalizing cs ds with
  | _ n ih =>
    subst hlen
    rcases cs with _ | ⟨c, cs⟩
    · exact matched_of_single hc hd (.inl fun c h => absurd h not_mem_nil)
    rcases ds with _ | ⟨d, ds⟩
    · exact matched_of_single hc hd (.inr fun d h => absurd h not_mem_nil)
    by_cases hc2 : c.remaining ≤ 1
    · exact matched_of_single hc hd (.inl (hc.eq_one hc2))
    by_cases hd2 : d.remaining ≤ 1
    · exact matched_of_single hc hd (.inr (hd.eq_one hd2))
    rw [not_le] at hc2 hd2
    obtain ⟨hne, hccs, hcds, hdcs, hdds⟩ := hn.heads
    by_cases hclose : |c.remaining - d.remaining| ≤ 1
    · rw [settleUp_both hc2 hd2 hclose, creditsLeft_settlement hne hccs hdcs,
        debtsLeft_settlement hne hcds hdds, creditsLeft_cons, debtsLeft_cons]
      have hcrest : planEffect (settleUp cs ds) c.userId = 0 := planEffect_of_notMem hccs hcds
      have hdrest : planEffect (settleUp cs ds) d.userId = 0 := planEffect_of_notMem hdcs hdds
      show Matched _ _ ((c.remaining - _ + planEffect _ c.userId) :: _)
        ((d.remaining - _ - planEffect _ d.userId) :: _)
      rw [hcrest, hdrest, add_zero, sub_zero]
      exact .both hc2 hd2 hclose
        (ih _ (by simp only [length_cons]; omega) hc.tail hd.tail hn.tails rfl)
    rw [abs_le] at hclose
    by_cases hlt : d.remaining + 2 ≤ c.remaining
    · rw [settleUp_left hd2 hlt, creditsLeft_settlement hne hccs hdcs,
        debtsLeft_settlement hne hcds hdds, debtsLeft_cons]
      have hdrest : planEffect (settleUp (c.take d.remaining :: cs) ds) d.userId = 0 := by
        refine planEffect_of_notMem ?_ hdds
        rw [map_cons, mem_cons, not_or]
        exact ⟨hne, hdcs⟩
      show Matched _ _ _ ((d.remaining - d.remaining - planEffect _ d.userId) :: _)
      rw [hdrest, sub_self, sub_zero]
      exact .left hd2 hlt
        (ih _ (by simp only [length_cons]; omega) (hc.take hlt) hd.tail (hn.left _) rfl)
    · have hlt : c.remaining + 2 ≤ d.remaining := by omega
      rw [settleUp_right hc2 hlt, creditsLeft_settlement hne hccs hdcs,
        debtsLeft_settlement hne hcds hdds, creditsLeft_cons]
      have hcrest : planEffect (settleUp cs (d.take c.remaining :: ds)) c.userId = 0 := by
        refine planEffect_of_notMem hccs ?_
        rw [map_cons, mem_cons, not_or]
        exact ⟨hne.symm, hcds⟩
      show Matched _ _ ((c.remaining - c.remaining + planEffect _ c.userId) :: _) _
      rw [hcrest, sub_self, add_zero]
      exact .right hc2 hlt
        (ih _ (by simp only [length_cons]; omega) hc.tail (hd.take hlt) (hn.right _) rfl)

/-! ## The balances -/

theorem mem_creditors {balances : List BalanceCents} :
    p ∈ creditors balances ↔
      ∃ b ∈ balances, 0 < b.balanceCents ∧ ⟨b.userId, b.username, b.balanceCents⟩ = p := by
  unfold creditors sortParties
  rw [(perm_insertionSort _ _).mem_iff, mem_map]
  constructor
  · rintro ⟨b, hb, rfl⟩
    obtain ⟨hb, hpos⟩ := mem_filter.mp hb
    exact ⟨b, hb, of_decide_eq_true hpos, rfl⟩
  · rintro ⟨b, hb, hpos, rfl⟩
    exact ⟨b, mem_filter.mpr ⟨hb, decide_eq_true hpos⟩, rfl⟩

theorem mem_debtors {balances : List BalanceCents} :
    p ∈ debtors balances ↔
      ∃ b ∈ balances, b.balanceCents < 0 ∧ ⟨b.userId, b.username, -b.balanceCents⟩ = p := by
  unfold debtors sortParties
  rw [(perm_insertionSort _ _).mem_iff, mem_map]
  constructor
  · rintro ⟨b, hb, rfl⟩
    obtain ⟨hb, hneg⟩ := mem_filter.mp hb
    exact ⟨b, hb, of_decide_eq_true hneg, rfl⟩
  · rintro ⟨b, hb, hneg, rfl⟩
    exact ⟨b, mem_filter.mpr ⟨hb, decide_eq_true hneg⟩, rfl⟩

theorem ready_creditors (balances : List BalanceCents) : Ready (creditors balances) := by
  refine ready_sortParties fun p hp => ?_
  obtain ⟨b, hb, rfl⟩ := mem_map.mp hp
  exact of_decide_eq_true (mem_filter.mp hb).2

theorem ready_debtors (balances : List BalanceCents) : Ready (debtors balances) := by
  refine ready_sortParties fun p hp => ?_
  obtain ⟨b, hb, rfl⟩ := mem_map.mp hp
  have hneg : b.balanceCents < 0 := of_decide_eq_true (mem_filter.mp hb).2
  show 0 < -b.balanceCents
  omega

section Unique

variable {balances : List BalanceCents} (hunique : (balances.map BalanceCents.userId).Nodup)

include hunique

/-- A member is on one side only. -/
theorem balance_pos_of_creditor (hb : b ∈ balances)
    (h : b.userId ∈ (creditors balances).map Party.userId) : 0 < b.balanceCents := by
  obtain ⟨p, hp, hid⟩ := mem_map.mp h
  obtain ⟨b', hb', hpos, rfl⟩ := mem_creditors.mp hp
  rwa [inj_on_of_nodup_map hunique hb hb' hid.symm]

theorem balance_neg_of_debtor (hb : b ∈ balances)
    (h : b.userId ∈ (debtors balances).map Party.userId) : b.balanceCents < 0 := by
  obtain ⟨p, hp, hid⟩ := mem_map.mp h
  obtain ⟨b', hb', hneg, rfl⟩ := mem_debtors.mp hp
  rwa [inj_on_of_nodup_map hunique hb hb' hid.symm]

theorem distinct_parties : Distinct (creditors balances) (debtors balances) := by
  have hside : ∀ (q : BalanceCents → Bool) (f : BalanceCents → Party),
      (∀ b, (f b).userId = b.userId) →
      ((sortParties ((balances.filter q).map f)).map Party.userId).Nodup := by
    intro q f hf
    have hperm := (perm_insertionSort (fun a b : Party => b.remaining ≤ a.remaining)
      ((balances.filter q).map f)).map Party.userId
    rw [sortParties, hperm.nodup_iff, map_map, show Party.userId ∘ f = BalanceCents.userId
      from funext hf]
    exact List.Nodup.sublist (filter_sublist.map _) hunique
  rw [Distinct, map_append, nodup_append']
  refine ⟨hside _ _ fun _ => rfl, hside _ _ fun _ => rfl, fun u hc hd => ?_⟩
  obtain ⟨p, hp, rfl⟩ := mem_map.mp hc
  obtain ⟨b, hb, hpos, rfl⟩ := mem_creditors.mp hp
  have hneg := balance_neg_of_debtor hunique hb hd
  omega

/-- **The plan is a matching** of the credits and the debts. -/
theorem simplifyDebts_matched :
    Matched ((creditors balances).map Party.remaining) ((debtors balances).map Party.remaining)
      (creditsLeft (simplifyDebts balances) (creditors balances))
      (debtsLeft (simplifyDebts balances) (debtors balances)) :=
  settleUp_matched (ready_creditors balances) (ready_debtors balances) (distinct_parties hunique)

/-- Nobody pays who is owed nothing and owes nothing. -/
theorem planEffect_of_settled (hb : b ∈ balances) (h : b.balanceCents = 0) :
    planEffect (simplifyDebts balances) b.userId = 0 := by
  refine planEffect_of_notMem (fun hc => ?_) (fun hd => ?_)
  · have := balance_pos_of_creditor hunique hb hc
    omega
  · have := balance_neg_of_debtor hunique hb hd
    omega

end Unique

/-- Whoever was owed money is owed no less than nothing after the plan is paid. -/
theorem creditsLeft_nonneg {balances : List BalanceCents}
    (hunique : (balances.map BalanceCents.userId).Nodup) :
    ∀ r ∈ creditsLeft (simplifyDebts balances) (creditors balances), 0 ≤ r := by
  refine (simplifyDebts_matched hunique).nonneg fun x hx => ?_
  obtain ⟨p, hp, rfl⟩ := mem_map.mp hx
  exact zero_le_one.trans ((ready_creditors balances).pos p hp)

/-- Whoever owed money owes no less than nothing after the plan is paid. -/
theorem debtsLeft_nonneg {balances : List BalanceCents}
    (hunique : (balances.map BalanceCents.userId).Nodup) :
    ∀ r ∈ debtsLeft (simplifyDebts balances) (debtors balances), 0 ≤ r := by
  refine (simplifyDebts_matched hunique).symm.nonneg fun x hx => ?_
  obtain ⟨p, hp, rfl⟩ := mem_map.mp hx
  exact zero_le_one.trans ((ready_debtors balances).pos p hp)

/-! ## What is settled -/

/-- The balance of a member once the plan is paid. -/
@[grind =] def residual (balances : List BalanceCents) (b : BalanceCents) : ℤ :=
  b.balanceCents + planEffect (simplifyDebts balances) b.userId

/-- The plan settles everything, but for single cents. -/
def Settles (balances : List BalanceCents) : Prop := ∀ b ∈ balances, |residual balances b| ≤ 1

/-- The credits of two cents and more, largest first. -/
def largeCredits (balances : List BalanceCents) : List ℤ :=
  (large (balances.map BalanceCents.balanceCents)).insertionSort (fun a b => b ≤ a)

/-- The debts of two cents and more, largest first. -/
def largeDebts (balances : List BalanceCents) : List ℤ :=
  (large (balances.map (fun b => -b.balanceCents))).insertionSort (fun a b => b ≤ a)

theorem mem_creditsLeft {balances : List BalanceCents} {r : ℤ} :
    r ∈ creditsLeft (simplifyDebts balances) (creditors balances) ↔
      ∃ b ∈ balances, 0 < b.balanceCents ∧ residual balances b = r := by
  unfold creditsLeft
  rw [mem_map]
  constructor
  · rintro ⟨p, hp, rfl⟩
    obtain ⟨b, hb, hpos, rfl⟩ := mem_creditors.mp hp
    exact ⟨b, hb, hpos, rfl⟩
  · rintro ⟨b, hb, hpos, rfl⟩
    exact ⟨_, mem_creditors.mpr ⟨b, hb, hpos, rfl⟩, rfl⟩

theorem mem_debtsLeft {balances : List BalanceCents} {r : ℤ} :
    r ∈ debtsLeft (simplifyDebts balances) (debtors balances) ↔
      ∃ b ∈ balances, b.balanceCents < 0 ∧ -residual balances b = r := by
  have hneg : ∀ b : BalanceCents, -residual balances b =
      -b.balanceCents - planEffect (simplifyDebts balances) b.userId := fun b => by
    unfold residual
    omega
  unfold debtsLeft
  rw [mem_map]
  constructor
  · rintro ⟨p, hp, rfl⟩
    obtain ⟨b, hb, hlt, rfl⟩ := mem_debtors.mp hp
    exact ⟨b, hb, hlt, hneg b⟩
  · rintro ⟨b, hb, hlt, rfl⟩
    exact ⟨_, mem_debtors.mpr ⟨b, hb, hlt, rfl⟩, (hneg b).symm⟩

/-- Nobody changes sides. -/
theorem residual_sign {balances : List BalanceCents}
    (hunique : (balances.map BalanceCents.userId).Nodup) (hb : b ∈ balances) :
    (0 < b.balanceCents → 0 ≤ residual balances b) ∧
      (b.balanceCents < 0 → residual balances b ≤ 0) ∧
      (b.balanceCents = 0 → residual balances b = 0) := by
  refine ⟨fun h => ?_, fun h => ?_, fun h => ?_⟩
  · exact creditsLeft_nonneg hunique _ (mem_creditsLeft.mpr ⟨b, hb, h, rfl⟩)
  · have := debtsLeft_nonneg hunique _ (mem_debtsLeft.mpr ⟨b, hb, h, rfl⟩)
    omega
  · rw [residual, planEffect_of_settled hunique hb h, h, add_zero]

theorem settles_iff_left {balances : List BalanceCents}
    (hunique : (balances.map BalanceCents.userId).Nodup) :
    Settles balances ↔
      (∀ r ∈ creditsLeft (simplifyDebts balances) (creditors balances), r ≤ 1) ∧
        ∀ r ∈ debtsLeft (simplifyDebts balances) (debtors balances), r ≤ 1 := by
  constructor
  · intro h
    refine ⟨fun r hr => ?_, fun r hr => ?_⟩
    · obtain ⟨b, hb, -, rfl⟩ := mem_creditsLeft.mp hr
      exact (abs_le.mp (h b hb)).2
    · obtain ⟨b, hb, -, rfl⟩ := mem_debtsLeft.mp hr
      have := (abs_le.mp (h b hb)).1
      omega
  · rintro ⟨hcredits, hdebts⟩ b hb
    obtain ⟨hpos, hneg, hzero⟩ := residual_sign hunique hb
    rw [abs_le]
    rcases lt_trichotomy b.balanceCents 0 with h | h | h
    · have := hneg h
      have := hdebts _ (mem_debtsLeft.mpr ⟨b, hb, h, rfl⟩)
      omega
    · have := hzero h
      omega
    · have := hpos h
      have := hcredits _ (mem_creditsLeft.mpr ⟨b, hb, h, rfl⟩)
      omega

/-- Nothing is left to transfer between members who are left what a plan leaves them. -/
theorem simplifyDebts_of_residual {balances balances' : List BalanceCents}
    (hunique : (balances.map BalanceCents.userId).Nodup)
    (h : ∀ b' ∈ balances', ∃ b ∈ balances, b'.balanceCents = residual balances b) :
    simplifyDebts balances' = [] := by
  refine settleUp_eq_nil (fun c hc => ?_) (fun d hd => ?_)
    ((simplifyDebts_matched hunique).oneSide.imp (fun hleft c hc => ?_) (fun hleft d hd => ?_))
  · exact zero_le_one.trans ((ready_creditors balances').pos c hc)
  · exact zero_le_one.trans ((ready_debtors balances').pos d hd)
  · obtain ⟨b', hb', hpos, rfl⟩ := mem_creditors.mp hc
    obtain ⟨b, hb, hres⟩ := h b' hb'
    obtain ⟨-, hneg, hzero⟩ := residual_sign hunique hb
    have hbpos : 0 < b.balanceCents := by
      rcases lt_trichotomy b.balanceCents 0 with hlt | heq | hgt
      · have := hneg hlt
        omega
      · have := hzero heq
        omega
      · exact hgt
    show b'.balanceCents ≤ 1
    rw [hres]
    exact hleft _ (mem_creditsLeft.mpr ⟨b, hb, hbpos, rfl⟩)
  · obtain ⟨b', hb', hneg, rfl⟩ := mem_debtors.mp hd
    obtain ⟨b, hb, hres⟩ := h b' hb'
    obtain ⟨hpos, -, hzero⟩ := residual_sign hunique hb
    have hbneg : b.balanceCents < 0 := by
      rcases lt_trichotomy b.balanceCents 0 with hlt | heq | hgt
      · exact hlt
      · have := hzero heq
        omega
      · have := hpos hgt
        omega
    show -b'.balanceCents ≤ 1
    rw [hres]
    exact hleft _ (mem_debtsLeft.mpr ⟨b, hb, hbneg, rfl⟩)

/-- The amounts of a side, sorted before or after the small ones are dropped. -/
theorem large_sortParties (ps : List Party) :
    large ((sortParties ps).map Party.remaining) =
      (large (ps.map Party.remaining)).insertionSort (fun a b => b ≤ a) := by
  have hperm : (large ((sortParties ps).map Party.remaining)).Perm
      ((large (ps.map Party.remaining)).insertionSort (fun a b => b ≤ a)) :=
    (((perm_insertionSort _ ps).map _).filter _).trans (perm_insertionSort _ _).symm
  refine hperm.eq_of_pairwise (fun a b _ _ hab hba => le_antisymm hba hab) ?_
    (pairwise_insertionSort _ _)
  refine List.Pairwise.filter _ ?_
  rw [pairwise_map]
  exact pairwise_insertionSort (fun a b : Party => b.remaining ≤ a.remaining) ps

/-- Dropping the amounts of the other side changes no large amount. -/
theorem large_map_filter {β : Type} {f : β → ℤ} {q : β → Bool} {bs : List β}
    (h : ∀ b ∈ bs, 2 ≤ f b → q b = true) :
    large ((bs.filter q).map f) = large (bs.map f) := by
  unfold large
  rw [filter_map, filter_map, filter_filter]
  refine congrArg (List.map f) (filter_congr fun b hb => ?_)
  rw [Bool.eq_iff_iff, Bool.and_eq_true]
  simp only [Function.comp_apply, decide_eq_true_eq]
  exact ⟨fun h => h.1, fun h2 => ⟨h2, h b hb h2⟩⟩

theorem large_creditors (balances : List BalanceCents) :
    large ((creditors balances).map Party.remaining) = largeCredits balances := by
  unfold creditors largeCredits
  rw [large_sortParties, map_map]
  refine congrArg (List.insertionSort _) (large_map_filter fun b _ h => decide_eq_true ?_)
  have h : 2 ≤ b.balanceCents := h
  omega

theorem large_debtors (balances : List BalanceCents) :
    large ((debtors balances).map Party.remaining) = largeDebts balances := by
  unfold debtors largeDebts
  rw [large_sortParties, map_map]
  refine congrArg (List.insertionSort _) (large_map_filter fun b _ h => decide_eq_true ?_)
  have h : 2 ≤ -b.balanceCents := h
  omega

/-- **The plan settles everything but single cents** exactly when the large credits and
the large debts pair off. -/
theorem simplifyDebts_settles_iff (balances : List BalanceCents)
    (hunique : (balances.map BalanceCents.userId).Nodup) :
    Settles balances ↔ PairsOff (largeCredits balances) (largeDebts balances) := by
  rw [settles_iff_left hunique, (simplifyDebts_matched hunique).small_iff, large_creditors,
    large_debtors]

/-- Two who paid and two who owe. -/
def dinner : List BalanceCents :=
  [⟨"ana", "Ana", 7000⟩, ⟨"ben", "Ben", -6000⟩, ⟨"cem", "Cem", 3000⟩, ⟨"dia", "Dia", -4000⟩]

/-- The three transfers of the plan settle the dinner. -/
theorem dinner_settled : balanceSum dinner = 0 ∧ Settles dinner := by
  refine ⟨by decide, (simplifyDebts_settles_iff dinner (by decide)).mpr ?_⟩
  show PairsOff [7000, 3000] [6000, 4000]
  rw [pairsOff_left (by decide) (by decide), pairsOff_right (by decide) (by decide),
    pairsOff_both (by decide)]
  exact .nil

/-- Ana paid four cents for four. -/
def fourCents : List BalanceCents :=
  [⟨"ana", "Ana", 3⟩, ⟨"ben", "Ben", -1⟩, ⟨"cem", "Cem", -1⟩, ⟨"dia", "Dia", -1⟩]

/-- A single cent from each of three debtors is never transferred: the creditor is left
with all three. -/
theorem cent_debts_not_settled :
    (fourCents.map BalanceCents.userId).Nodup ∧ balanceSum fourCents = 0 ∧
      simplifyDebts fourCents = [] ∧ ¬Settles fourCents := by
  have hnil : simplifyDebts fourCents = [] := by
    refine settleUp_eq_nil ?_ ?_ (.inr ?_) <;> decide
  refine ⟨by decide, by decide, hnil, fun h => ?_⟩
  have := h ⟨"ana", "Ana", 3⟩ (by simp [fourCents])
  rw [residual, hnil] at this
  exact absurd this (by decide)

end FestivalPlanner.Ledger
