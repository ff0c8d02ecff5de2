import TradingApp.Account.Fills

/-!
# The tranch counter

A completed hedged mode counts a tranch on the account it has hedged.  A close
fill takes one off when it brings the position, in lots, below a multiple of
the maximum position, whether or not a tranch was ever counted.  The counter is
unsigned, so it holds the difference of the two counts as a machine word.
-/

namespace TradingApp.Account

open TradingApp.Machine TradingApp.Transition

/-- The position the requote orders of an account aim at. -/
def TradeAccount.targetPos (account : TradeAccount) : ℕ :=
  account.maxPos * word32 (account.tranchCounter + 1)

/-! ## Fills and completions -/

/-- What moves the counters. -/
inductive TranchLabel where
  | fill (fill : TradeAccounts.Fill)
  /-- a `HedgedMode` that has hedged the other account is destroyed -/
  | hedgedMode (isDone : Bool) (otherAccount : OrderAccountType)
deriving DecidableEq, Repr

namespace TradeAccounts

/-- The two positions are equal. -/
def samePosition (accounts : TradeAccounts) : Bool :=
  accounts.shortAcc.getPosition = accounts.longAcc.getPosition

/-- The destructor of `HedgedMode`. -/
def destroyHedgedMode (accounts : TradeAccounts) (isDone : Bool)
    (otherAccount : OrderAccountType) : TradeAccounts :=
  if isDone && accounts.samePosition then
    accounts.set otherAccount (accounts.get otherAccount).incTranch
  else accounts

/-- Fills and the destructor of `HedgedMode` change the tranches. -/
def tranchStep (accounts : TradeAccounts) : TranchLabel → TradeAccounts
  | .fill fill => accounts.onFill fill
  | .hedgedMode isDone otherAccount => accounts.destroyHedgedMode isDone otherAccount

/-- A close fill brings the account's total below a multiple of its maximum
position. -/
def Crosses (side : OrderAccountType) (accounts : TradeAccounts) : TranchLabel → Prop
  | .fill fill =>
      fill.side = side ∧ fill.isOpen = false ∧
        (accounts.get side).total.tdiv (accounts.get side).maxPos >
          ((accounts.get side).total - fill.size).tdiv (accounts.get side).maxPos
  | .hedgedMode _ _ => False

/-- A hedged mode that has hedged the account is completed. -/
def Completes (side : OrderAccountType) (accounts : TradeAccounts) : TranchLabel → Prop
  | .fill _ => False
  | .hedgedMode isDone otherAccount =>
      otherAccount = side ∧ isDone = true ∧ accounts.samePosition = true

instance (side : OrderAccountType) (accounts : TradeAccounts) :
    (label : TranchLabel) → Decidable (Crosses side accounts label)
  | .fill _ => inferInstanceAs (Decidable (_ ∧ _ ∧ _))
  | .hedgedMode _ _ => inferInstanceAs (Decidable False)

instance (side : OrderAccountType) (accounts : TradeAccounts) :
    (label : TranchLabel) → Decidable (Completes side accounts label)
  | .fill _ => inferInstanceAs (Decidable False)
  | .hedgedMode _ _ => inferInstanceAs (Decidable (_ ∧ _ ∧ _))

/-- The account's counter is decremented at zero. -/
def DecrementsZero (side : OrderAccountType) (accounts : TradeAccounts) (label : TranchLabel) :
    Prop :=
  Crosses side accounts label ∧ (accounts.get side).tranchCounter = 0

/-- The target is at least the maximum position. -/
def ReachesMaxPos (side : OrderAccountType) (accounts : TradeAccounts) : Prop :=
  (accounts.get side).maxPos ≤ (accounts.get side).targetPos

instance (side : OrderAccountType) (accounts : TradeAccounts) (label : TranchLabel) :
    Decidable (DecrementsZero side accounts label) :=
  inferInstanceAs (Decidable (_ ∧ _))

instance (side : OrderAccountType) : DecidablePred (ReachesMaxPos side) :=
  fun accounts => inferInstanceAs (Decidable ((accounts.get side).maxPos ≤ _))

/-! ## One step -/

/-- The maximum position and the counter. -/
def tranch (account : TradeAccount) : ℕ × ℕ :=
  (account.maxPos, account.tranchCounter)

theorem onOpenFill_tranch (account other : TradeAccount) (orderId : ℕ) (price : ℚ) (size : ℕ) :
    tranch (account.onOpenFill other orderId price size).1 = tranch account ∧
      tranch (account.onOpenFill other orderId price size).2 = tranch other := by
  obtain ⟨spread, otherSpread, spreads⟩ := account.calculateSpread_eq other price size true
  unfold TradeAccount.onOpenFill
  split
  · simp only [TradeAccount.onOpenFillLong, spreads]
    exact ⟨rfl, rfl⟩
  · simp only [TradeAccount.onOpenFillShort, spreads]
    split <;> exact ⟨rfl, rfl⟩

theorem onCloseFill_tranch (account : TradeAccount) (orderId : ℕ) (price : ℚ) (size : ℕ) :
    tranch (account.onCloseFill orderId price size) =
      (account.maxPos,
        if account.total.tdiv account.maxPos > (account.total - size).tdiv account.maxPos then
          word32 (account.tranchCounter - 1)
        else account.tranchCounter) := by
  unfold TradeAccount.onCloseFill
  dsimp only
  split <;> rfl

variable {side : OrderAccountType} {accounts : TradeAccounts}

/-- A fill moves the counter if it is a close that crosses. -/
theorem tranchStep_fill_tranch (fill : Fill) :
    tranch ((accounts.tranchStep (.fill fill)).get side) =
      ((accounts.get side).maxPos,
        if Crosses side accounts (.fill fill) then word32 ((accounts.get side).tranchCounter - 1)
        else (accounts.get side).tranchCounter) := by
  have opened := onOpenFill_tranch (accounts.get fill.side) (accounts.get fill.side.opposite)
    fill.orderId fill.price fill.size
  have closed := onCloseFill_tranch (accounts.get fill.side) fill.orderId fill.price fill.size
  change tranch ((accounts.onFill fill).get side) = _
  unfold onFill
  dsimp only
  by_cases different : fill.side ≠ side
  · obtain rfl := eq_opposite_of_ne different
    have stays : ¬ Crosses fill.side.opposite accounts (.fill fill) := fun crosses =>
      different crosses.1
    rw [if_neg stays]
    split
    · rw [get_setBoth_opposite]
      exact opened.2
    · rw [get_setBoth_opposite]
      rfl
  · obtain rfl := not_not.mp different
    split
    · rename_i isOpen
      have stays : ¬ Crosses fill.side accounts (.fill fill) := fun crosses =>
        absurd (crosses.2.1.symm.trans isOpen) nofun
      rw [get_setBoth_self, if_neg stays]
      exact opened.1
    · rename_i isClose
      rw [get_setBoth_self, closed]
      have isClose := Bool.eq_false_iff.mpr isClose
      by_cases below : (accounts.get fill.side).total.tdiv (accounts.get fill.side).maxPos >
          ((accounts.get fill.side).total - fill.size).tdiv (accounts.get fill.side).maxPos
      · rw [if_pos below, if_pos ⟨rfl, isClose, below⟩]
      · rw [if_neg below, if_neg fun crosses => below crosses.2.2]

/-- The end of a hedged mode moves it if the tranch is complete. -/
theorem tranchStep_hedgedMode_tranch (isDone : Bool) (otherAccount : OrderAccountType) :
    tranch ((accounts.tranchStep (.hedgedMode isDone otherAccount)).get side) =
      ((accounts.get side).maxPos,
        if Completes side accounts (.hedgedMode isDone otherAccount) then
          word32 ((accounts.get side).tranchCounter + 1)
        else (accounts.get side).tranchCounter) := by
  change tranch ((accounts.destroyHedgedMode isDone otherAccount).get side) = _
  unfold destroyHedgedMode
  by_cases completed : isDone = true ∧ accounts.samePosition = true
  · rw [if_pos (Bool.and_eq_true_iff.mpr completed)]
    by_cases different : otherAccount ≠ side
    · obtain rfl := eq_opposite_of_ne different
      have stays : ¬ Completes otherAccount.opposite accounts (.hedgedMode isDone otherAccount) :=
        fun completes => different completes.1
      rw [if_neg stays]
      cases otherAccount <;> rfl
    · obtain rfl := not_not.mp different
      have completes : Completes otherAccount accounts (.hedgedMode isDone otherAccount) :=
        ⟨rfl, completed⟩
      rw [if_pos completes]
      cases otherAccount <;> rfl
  · have stays : ¬ Completes side accounts (.hedgedMode isDone otherAccount) :=
      fun completes => completed completes.2
    rw [if_neg fun both => completed (Bool.and_eq_true_iff.mp both), if_neg stays]
    rfl

/-- The counter moves with completions and crossing closes. -/
theorem tranchStep_tranch (label : TranchLabel) :
    tranch ((accounts.tranchStep label).get side) =
      ((accounts.get side).maxPos,
        if Completes side accounts label then word32 ((accounts.get side).tranchCounter + 1)
        else if Crosses side accounts label then word32 ((accounts.get side).tranchCounter - 1)
        else (accounts.get side).tranchCounter) := by
  cases label with
  | fill fill => exact tranchStep_fill_tranch fill
  | hedgedMode isDone otherAccount => exact tranchStep_hedgedMode_tranch isDone otherAccount

/-! ## Runs -/

variable (side accounts) in
/-- Completions so far. -/
def completions (labels : List TranchLabel) : ℕ :=
  countSteps tranchStep (Completes side) accounts labels

variable (side accounts) in
/-- Crossing closes so far. -/
def crossings (labels : List TranchLabel) : ℕ :=
  countSteps tranchStep (Crosses side) accounts labels

theorem completions_concat (labels : List TranchLabel) (label : TranchLabel) :
    completions side accounts (labels ++ [label]) = completions side accounts labels +
      if Completes side (run tranchStep accounts labels) label then 1 else 0 :=
  countSteps_concat _ _ _ _ _

theorem crossings_concat (labels : List TranchLabel) (label : TranchLabel) :
    crossings side accounts (labels ++ [label]) = crossings side accounts labels +
      if Crosses side (run tranchStep accounts labels) label then 1 else 0 :=
  countSteps_concat _ _ _ _ _

/-- A label is not both. -/
theorem not_crosses_of_completes {label : TranchLabel} (completes : Completes side accounts label) :
    ¬ Crosses side accounts label := by
  cases label with
  | fill fill => exact completes.elim
  | hedgedMode isDone otherAccount => exact id

/-- The counter is the difference of the two counts, as a machine word. -/
theorem tranch_run (fresh : (accounts.get side).tranchCounter = 0) (labels : List TranchLabel) :
    tranch ((run tranchStep accounts labels).get side) =
      ((accounts.get side).maxPos,
        word32 ((completions side accounts labels : ℤ) - crossings side accounts labels)) := by
  induction labels using List.reverseRecOn with
  | nil => exact Prod.ext rfl fresh
  | append_singleton labels label ih =>
      obtain ⟨maxPos, counter⟩ := Prod.mk.inj ih
      rw [run_append, run_cons, run_nil, tranchStep_tranch, maxPos, counter, completions_concat,
        crossings_concat]
      refine Prod.ext rfl ?_
      dsimp only
      by_cases completes : Completes side (run tranchStep accounts labels) label
      · rw [if_pos completes, if_pos completes, if_neg (not_crosses_of_completes completes),
          word32_word32_add]
        congr 1
        push_cast
        ring
      · rw [if_neg completes, if_neg completes]
        by_cases crosses : Crosses side (run tranchStep accounts labels) label
        · rw [if_pos crosses, if_pos crosses, sub_eq_add_neg, word32_word32_add]
          congr 1
          push_cast
          ring
        · rw [if_neg crosses, if_neg crosses]
          rfl

/-- The number of tranches is one the counter can hold, and one below its
largest value. -/
def InRange (side : OrderAccountType) (accounts : TradeAccounts) (labels : List TranchLabel) :
    Prop :=
  crossings side accounts labels ≤ completions side accounts labels ∧
    completions side accounts labels < crossings side accounts labels + (2 ^ 32 - 1)

instance (labels : List TranchLabel) : Decidable (InRange side accounts labels) :=
  inferInstanceAs (Decidable (_ ∧ _))

/-- In range, the counter is the difference of the counts. -/
theorem InRange.counter (fresh : (accounts.get side).tranchCounter = 0)
    {labels : List TranchLabel} (inRange : InRange side accounts labels) :
    ((run tranchStep accounts labels).get side).tranchCounter + crossings side accounts labels =
      completions side accounts labels := by
  have counter := congrArg Prod.snd (tranch_run fresh labels)
  change ((run tranchStep accounts labels).get side).tranchCounter = _ at counter
  obtain ⟨le, lt⟩ := inRange
  rw [counter]
  unfold word32
  omega

/-- A step leaves the range by a crossing close at zero, or at the counter's
largest value. -/
theorem InRange.concat (fresh : (accounts.get side).tranchCounter = 0)
    {labels : List TranchLabel} {label : TranchLabel} (inRange : InRange side accounts labels)
    (stays : ¬ DecrementsZero side (run tranchStep accounts labels) label)
    (nonzero : word32
      (((run tranchStep accounts (labels ++ [label])).get side).tranchCounter + 1) ≠ 0) :
    InRange side accounts (labels ++ [label]) := by
  have counter := inRange.counter fresh
  have next := congrArg Prod.snd (tranch_run fresh (labels ++ [label]))
  change ((run tranchStep accounts (labels ++ [label])).get side).tranchCounter = _ at next
  obtain ⟨le, lt⟩ := inRange
  rw [next] at nonzero
  unfold InRange
  rw [completions_concat, crossings_concat] at nonzero ⊢
  by_cases completes : Completes side (run tranchStep accounts labels) label
  · rw [if_pos completes, if_neg (not_crosses_of_completes completes)] at nonzero ⊢
    unfold word32 at nonzero
    omega
  · by_cases crosses : Crosses side (run tranchStep accounts labels) label
    · have positive : ((run tranchStep accounts labels).get side).tranchCounter ≠ 0 :=
        fun zero => stays ⟨crosses, zero⟩
      rw [if_neg completes, if_pos crosses]
      omega
    · rw [if_neg completes, if_neg crosses]
      exact ⟨le, lt⟩

/-- The target falls short exactly of the counter's largest value. -/
theorem reachesMaxPos_iff (positive : 0 < (accounts.get side).maxPos) :
    ReachesMaxPos side accounts ↔ word32 ((accounts.get side).tranchCounter + 1) ≠ 0 := by
  unfold ReachesMaxPos TradeAccount.targetPos
  constructor
  · intro reaches zero
    rw [zero, mul_zero] at reaches
    exact absurd positive (Nat.not_lt.mpr reaches)
  · intro nonzero
    exact Nat.le_mul_of_pos_right _ (Nat.pos_of_ne_zero nonzero)

/-- The counter of an account that starts with none is never decremented at
zero, and its target is never below the maximum position, if and only if at
every point of the run the crossing closes so far are no more than the
completions so far, and these are not ahead by all the counter can hold. -/
theorem tranch_inRange_iff (fresh : (accounts.get side).tranchCounter = 0)
    (positive : 0 < (accounts.get side).maxPos) (labels : List TranchLabel) :
    EveryStep tranchStep (fun accounts label => ¬ DecrementsZero side accounts label) accounts
        labels ∧ EveryState tranchStep (ReachesMaxPos side) accounts labels ↔
      ∀ before, before <+: labels → InRange side accounts before := by
  have reaches_iff (before : List TranchLabel) :
      ReachesMaxPos side (run tranchStep accounts before) ↔
        word32 (((run tranchStep accounts before).get side).tranchCounter + 1) ≠ 0 := by
    apply reachesMaxPos_iff
    rwa [show ((run tranchStep accounts before).get side).maxPos = _ from
      congrArg Prod.fst (tranch_run fresh before)]
  rw [everyStep_iff_forall_concat, everyState_iff_forall_initial]
  constructor
  · rintro ⟨steps, states⟩ before
    induction before using List.reverseRecOn with
    | nil => exact fun _ => ⟨le_refl 0, Nat.zero_lt_succ _⟩
    | append_singleton before label ih =>
        intro isPrefix
        have before := ih ((List.prefix_append before [label]).trans isPrefix)
        exact before.concat fresh (steps _ label isPrefix)
          ((reaches_iff _).mp (states _ isPrefix))
  · intro all
    constructor
    · rintro before label isPrefix ⟨crosses, zero⟩
      have here := all before ((List.prefix_append before [label]).trans isPrefix)
      have counter := here.counter fresh
      obtain ⟨le, _⟩ := all (before ++ [label]) isPrefix
      have stays : ¬ Completes side (run tranchStep accounts before) label := fun completes =>
        not_crosses_of_completes completes crosses
      rw [completions_concat, crossings_concat, if_neg stays, if_pos crosses] at le
      omega
    · intro before isPrefix
      have counter := (all before isPrefix).counter fresh
      obtain ⟨_, lt⟩ := all before isPrefix
      rw [reaches_iff]
      unfold word32
      omega

/-- Two accounts in lots of 100 shares with a maximum position of 400. -/
def flatAccounts : TradeAccounts where
  longAcc := { TradeAccount.init .long ['L'] ['X'] 100 0 with maxPos := 400 }
  shortAcc := { TradeAccount.init .short ['S'] ['X'] 100 0 with maxPos := 400 }

/-- A fill of the long account at 10. -/
def longFill (isOpen : Bool) (size : ℕ) : TranchLabel :=
  .fill { side := .long, isOpen, orderId := 1, price := 10, size }

/-- A position of 400 lots is hedged and then reduced. -/
def hedgedThenReduced : List TranchLabel :=
  [longFill true 400,
    .fill { side := .short, isOpen := true, orderId := 2, price := 10, size := 400 },
    .hedgedMode true .long, longFill false 1]

theorem tranch_inRange_hedgedThenReduced :
    EveryStep tranchStep (fun accounts label => ¬ DecrementsZero .long accounts label) flatAccounts
        hedgedThenReduced ∧
      EveryState tranchStep (ReachesMaxPos .long) flatAccounts hedgedThenReduced := by
  rw [tranch_inRange_iff rfl (by decide)]
  have inits : ∀ before ∈ hedgedThenReduced.inits, InRange .long flatAccounts before := by
    decide +kernel
  exact fun before isPrefix => inits before (List.mem_inits _ _ |>.mpr isPrefix)

/-- The same position reduced without having been hedged. -/
theorem not_tranch_inRange_reduced :
    ¬ (EveryStep tranchStep (fun accounts label => ¬ DecrementsZero .long accounts label)
          flatAccounts [longFill true 400, longFill false 1] ∧
        EveryState tranchStep (ReachesMaxPos .long) flatAccounts
          [longFill true 400, longFill false 1]) := by
  decide +kernel

end TradeAccounts

end TradingApp.Account
