import TradingApp.Instance.Agreement
import TradingApp.Instance.Frame
import TradingApp.Position.Repackaging

/-!
# The units of a repackaged hedge

A hedge that has brought both positions to the same size repackages its
account when it is destroyed.  The base quantity is a number of shares, and
the table counts lots of `divisor` shares, yet the one is handed to the other
as it is: the records hold up to `baseQty` lots each.
-/

namespace TradingApp.Instance

open TradingApp.Account TradingApp.Machine TradingApp.Position TradingApp.Redis
  TradingApp.Transition TradeAccounts

/-! ## The destructor -/

/-- `~HedgeCurrent`. -/
def HedgeCurrent.destroyed (case : TradeCase) (inst : TradeInstance) : TradeInstance :=
  if inst.position case.currentAcc = inst.position case.oppositeAcc then
    match case.currentAcc with
    | none => inst
    | some side =>
        inst.modifyAccount side fun account =>
          repackagePositionTable account inst.config.baseQty inst.config.mpvValue 0
  else inst

/-- `~TradeCase`, which runs after the destructor of the case's class. -/
def TradeCase.destroyBase (case : TradeCase) : CaseM Unit := do
  let inst ← getInst
  whenever (inst.config.cancelOnTrigger = true) do
    cancelAll (some .long)
    cancelAll (some .short)
  modifyPointed case.currentAcc deleteCompletePositions
  modifyPointed case.oppositeAcc deleteCompletePositions
  modifyInst fun inst =>
    if inst.position case.currentAcc = inst.position case.oppositeAcc then
      { inst with
        waitForNextTimeWindow := true
        waitForNextTimeWindowAvicenna := inst.priceEstimate }
    else inst

theorem run_destroy_hedgeCurrent {case : TradeCase} (type : case.type = .hedgeCurrent)
    (context : Context) :
    case.destroy.run context =
      case.destroyBase.run (context.mapInst (HedgeCurrent.destroyed case)) := by
  unfold TradeCase.destroy TradeCase.destroyBase HedgeCurrent.destroyed
  rw [run_getInst_bind]
  by_cases equal : context.inst.position case.currentAcc = context.inst.position case.oppositeAcc
  · rw [whenever, if_pos ⟨type, equal⟩, Context.mapInst, if_pos equal]
    cases case.currentAcc with
    | none => rfl
    | some side => cases side <;> rfl
  · rw [whenever, if_neg fun both => equal both.2, Context.mapInst, if_neg equal]
    rfl

/-! ## Units -/

/-- Every record holds at most the base quantity in shares, and together the
records hold the position. -/
structure PacksInUnits (account : TradeAccount) (baseQty : ℕ) : Prop where
  within : ∀ record ∈ account.positionTable.records, record.openSize * account.divisor ≤ baseQty
  sum : ((account.positionTable.records.map (·.openSize)).sum : ℕ) =
    account.getPosition / account.divisor

/-- The table counts the account's position, and lots are shares or the
position fits in one base quantity. -/
structure FitsUnits (account : TradeAccount) (baseQty : ℕ) : Prop where
  openSize : (account.positionTable.openSize : ℤ) = account.total
  fits : account.divisor = 1 ∨ account.getPosition ≤ baseQty

instance (account : TradeAccount) (baseQty : ℕ) : Decidable (PacksInUnits account baseQty) :=
  decidable_of_iff (_ ∧ _) ⟨fun both => ⟨both.1, both.2⟩, fun packs => ⟨packs.within, packs.sum⟩⟩

instance (account : TradeAccount) (baseQty : ℕ) : Decidable (FitsUnits account baseQty) :=
  decidable_of_iff (_ ∧ _) ⟨fun both => ⟨both.1, both.2⟩, fun fits => ⟨fits.openSize, fits.fits⟩⟩

section Units

variable (account : TradeAccount) {baseQty : ℕ} (mpv : ℚ) (basePos : 0 < baseQty)

include basePos

/-- The first record holds the base quantity in lots, or the whole position. -/
theorem exists_record_repackaged {table : PositionRecordTable} (isOpen : 0 < table.openSize) :
    ∃ record ∈ (table.repackaging baseQty mpv 0).records,
      record.openSize = min baseQty table.openSize := by
  have several : 0 < PositionRecordTable.noe table.openSize baseQty := by
    have bounds := (PositionRecordTable.noe_bounds table.openSize basePos).1
    by_contra none
    have none : PositionRecordTable.noe table.openSize baseQty = 0 := Nat.eq_zero_of_not_pos none
    rw [none, Nat.zero_mul] at bounds
    omega
  have first : min baseQty table.openSize ∈
      (table.repackaging baseQty mpv 0).records.map (·.openSize) := by
    rw [PositionRecordTable.map_openSize_repackaging]
    exact List.mem_map.mpr ⟨0, List.mem_range.mpr several, by rw [Nat.zero_mul, Nat.sub_zero]⟩
  obtain ⟨record, member, size⟩ := List.mem_map.mp first
  exact ⟨record, member, size⟩

theorem within_repackaged_iff (divisorPos : 0 < account.divisor) :
    (∀ record ∈ (repackagePositionTable account baseQty mpv 0).positionTable.records,
        record.openSize * account.divisor ≤ baseQty) ↔
      account.divisor = 1 ∨ account.positionTable.openSize * account.divisor ≤ baseQty := by
  constructor
  · intro within
    rcases Nat.eq_zero_or_pos account.positionTable.openSize with none | isOpen
    · right
      rw [none, Nat.zero_mul]
      exact Nat.zero_le _
    · obtain ⟨record, member, size⟩ := exists_record_repackaged mpv basePos isOpen
      have shares := within record member
      rw [size] at shares
      rcases Nat.le_total baseQty account.positionTable.openSize with large | small
      · left
        rw [Nat.min_eq_left large] at shares
        have atMost : account.divisor ≤ 1 :=
          Nat.le_of_mul_le_mul_left (by rwa [Nat.mul_one]) basePos
        omega
      · right
        rwa [Nat.min_eq_right small] at shares
  · intro fits record member
    obtain ⟨k, -, size⟩ := PositionRecordTable.mem_sizes_repackaging member
    rcases fits with shares | whole
    · rw [shares, Nat.mul_one, ← size]
      exact Nat.min_le_left _ _
    · have atMost : record.openSize ≤ account.positionTable.openSize := by
        rw [← size]
        exact (Nat.min_le_right _ _).trans (Nat.sub_le _ _)
      exact (Nat.mul_le_mul_right _ atMost).trans whole

theorem packsInUnits_repackaged_iff (divisorPos : 0 < account.divisor) :
    PacksInUnits (repackagePositionTable account baseQty mpv 0) baseQty ↔
      FitsUnits account baseQty := by
  have nonzero : (account.divisor : ℤ) ≠ 0 := by exact_mod_cast divisorPos.ne'
  have sum : ((repackagePositionTable account baseQty mpv 0).positionTable.records.map
      (·.openSize)).sum = account.positionTable.openSize :=
    PositionRecordTable.sum_repackaging _ basePos mpv 0
  have lots : account.getPosition / account.divisor = account.total :=
    Int.mul_ediv_cancel _ nonzero
  have within := within_repackaged_iff account mpv basePos divisorPos
  constructor
  · intro packs
    have openSize : (account.positionTable.openSize : ℤ) = account.total := by
      rw [← sum, ← lots]
      exact packs.sum
    refine ⟨openSize, ?_⟩
    rw [TradeAccount.getPosition, ← openSize]
    exact_mod_cast within.mp packs.within
  · intro fits
    refine ⟨within.mpr ?_, ?_⟩
    · have shares := fits.fits
      rw [TradeAccount.getPosition, ← fits.openSize] at shares
      exact_mod_cast shares
    · change _ = account.getPosition / account.divisor
      rw [lots, sum, fits.openSize]

end Units

/-! ## Runs -/

/-- Divisor, total, open size and averages are the same; the lots may differ. -/
structure SameTotals (account other : TradeAccount) : Prop where
  divisor : other.divisor = account.divisor
  total : other.total = account.total
  average : other.average = account.average
  openSize : other.positionTable.openSize = account.positionTable.openSize
  tableAverage : other.positionTable.average = account.positionTable.average

theorem SameTotals.refl (account : TradeAccount) : SameTotals account account := by
  constructor <;> rfl

/-- An account given the totals of another one. -/
def withTotalsOf (account totals : TradeAccount) : TradeAccount :=
  { account with
    divisor := totals.divisor
    total := totals.total
    average := totals.average
    positionTable :=
      { account.positionTable with
        openSize := totals.positionTable.openSize
        average := totals.positionTable.average } }

/-- What can happen to an instance, as far as its positions go. -/
inductive PositionLabel where
  | callback (callback : Callback)
  /-- a hedge is destroyed -/
  | destroy (case : TradeCase)
  /-- anything about the instance but its settings and its accounts' totals -/
  | other (inst : TradeInstance)

namespace TradeInstance

/-- Callbacks and the destructor of a hedge change the positions; all else leaves
the totals. -/
def positionStep (inst : TradeInstance) : PositionLabel → TradeInstance
  | .callback callback => inst.onCallback callback
  | .destroy case => HedgeCurrent.destroyed case inst
  | .other other =>
      { other with
        config := inst.config
        accounts :=
          { longAcc := withTotalsOf other.accounts.longAcc inst.accounts.longAcc
            shortAcc := withTotalsOf other.accounts.shortAcc inst.accounts.shortAcc } }

/-- A hedge destroyed with both positions equal leaves records in units. -/
def PacksHedge (inst : TradeInstance) : PositionLabel → Prop
  | .destroy case =>
      inst.position case.currentAcc = inst.position case.oppositeAcc → ∀ side ∈ case.currentAcc,
        PacksInUnits ((HedgeCurrent.destroyed case inst).accounts.get side) inst.config.baseQty
  | .callback _ | .other _ => True

/-- A hedge destroyed with both positions equal fits in units. -/
def FitsHedge (inst : TradeInstance) : PositionLabel → Prop
  | .destroy case =>
      inst.position case.currentAcc = inst.position case.oppositeAcc → ∀ side ∈ case.currentAcc,
        FitsUnits (inst.accounts.get side) inst.config.baseQty
  | .callback _ | .other _ => True

/-- A fill keeps the total of its account within an unsigned 32-bit integer. -/
def FillsInRange (inst : TradeInstance) : PositionLabel → Prop
  | .callback (.fill fill) =>
      0 ≤ ((inst.accounts.onFill fill).get fill.side).total ∧
        FillInRange fill.side inst.accounts fill
  | .callback _ | .destroy _ | .other _ => True

/-- The settings are the given ones, and the accounts count in its lots. -/
def Configured (config : Config) (inst : TradeInstance) : Prop :=
  inst.config = config ∧ ∀ side, (inst.accounts.get side).divisor = config.divisor

/-- The tables count the accounts' positions. -/
def Counted (inst : TradeInstance) : Prop :=
  ∀ side, ((inst.accounts.get side).positionTable.openSize : ℤ) = (inst.accounts.get side).total

section Decidable

variable (inst : TradeInstance)

instance : (label : PositionLabel) → Decidable (inst.PacksHedge label)
  | .destroy _ => inferInstanceAs (Decidable (_ → ∀ _ ∈ _, _))
  | .callback _ | .other _ => inferInstanceAs (Decidable True)

instance : (label : PositionLabel) → Decidable (inst.FitsHedge label)
  | .destroy _ => inferInstanceAs (Decidable (_ → ∀ _ ∈ _, _))
  | .callback _ | .other _ => inferInstanceAs (Decidable True)

end Decidable

end TradeInstance

/-! ## Totals -/

/-- Only fills change totals. -/
def PositionLabel.fill : PositionLabel → Option Fill
  | .callback (.fill fill) => some fill
  | .callback _ | .destroy _ | .other _ => none

section Totals

variable (inst : TradeInstance)

theorem sameTotals_modifyAccount (other : OrderAccountType) {f : TradeAccount → TradeAccount}
    (same : ∀ account, SameTotals account (f account)) (side : OrderAccountType) :
    SameTotals (inst.accounts.get side) ((inst.modifyAccount other f).accounts.get side) := by
  by_cases equal : side = other
  · subst equal
    have modified : (inst.modifyAccount side f).accounts.get side = f (inst.accounts.get side) := by
      cases side <;> rfl
    rw [modified]
    exact same _
  · have kept : (inst.modifyAccount other f).accounts.get side = inst.accounts.get side := by
      cases side <;> cases other <;> first | rfl | exact absurd rfl equal
    rw [kept]
    exact .refl _

theorem sameTotals_repackage (account : TradeAccount) (baseQty : ℕ) (mpv : ℚ) :
    SameTotals account (repackagePositionTable account baseQty mpv 0) := by
  refine ⟨rfl, rfl, rfl, rfl, ?_⟩
  change account.positionTable.average - 0 * account.positionTable.sign = _
  rw [zero_mul, sub_zero]

theorem sameTotals_onCallback {callback : Callback} (noFill : ∀ fill, callback ≠ .fill fill)
    (side : OrderAccountType) :
    SameTotals (inst.accounts.get side) ((inst.onCallback callback).accounts.get side) := by
  cases callback with
  | fill fill => exact absurd rfl (noFill fill)
  | counters other openBy closeBy executedBy =>
      apply sameTotals_modifyAccount
      exact fun _ => ⟨rfl, rfl, rfl, rfl, rfl⟩
  | requoteOrderDone => exact .refl _
  | tradeSendClose price size =>
      unfold TradeInstance.onCallback TradeInstance.onTradeSendClose
      dsimp only
      split
      · exact .refl _
      · split
        · split
          · exact .refl _
          · apply sameTotals_modifyAccount
            exact fun _ => ⟨rfl, rfl, rfl, rfl, rfl⟩
        · exact .refl _

theorem sameTotals_destroyed (case : TradeCase) (side : OrderAccountType) :
    SameTotals (inst.accounts.get side) ((HedgeCurrent.destroyed case inst).accounts.get side) := by
  unfold HedgeCurrent.destroyed
  split
  · split
    · exact .refl _
    · exact sameTotals_modifyAccount inst _ (fun _ => sameTotals_repackage _ _ _) side
  · exact .refl _

/-- A step without a fill leaves all totals. -/
theorem sameTotals_positionStep {label : PositionLabel} (noFill : label.fill = none)
    (side : OrderAccountType) :
    SameTotals (inst.accounts.get side) ((inst.positionStep label).accounts.get side) := by
  cases label with
  | callback callback =>
      refine sameTotals_onCallback inst (fun fill isFill => ?_) side
      subst isFill
      cases noFill
  | destroy case => exact sameTotals_destroyed inst case side
  | other other => cases side <;> exact ⟨rfl, rfl, rfl, rfl, rfl⟩

theorem positionStep_fill {label : PositionLabel} {fill : Fill} (isFill : label.fill = some fill) :
    label = .callback (.fill fill) := by
  cases label with
  | callback callback =>
      cases callback with
      | fill other =>
          cases isFill
          rfl
      | counters | requoteOrderDone | tradeSendClose => cases isFill
  | destroy case => cases isFill
  | other other => cases isFill

theorem positionStep_config (label : PositionLabel) :
    (inst.positionStep label).config = inst.config := by
  cases label with
  | callback callback =>
      obtain ⟨accounts, tradeCase, same, _⟩ := onCallback_eq inst callback
      change (inst.onCallback callback).config = inst.config
      rw [same]
  | destroy case =>
      change (HedgeCurrent.destroyed case inst).config = inst.config
      unfold HedgeCurrent.destroyed
      split
      · split <;> rfl
      · rfl
  | other other => rfl

/-- The settings and the divisors last. -/
theorem configured_positionStep {config : Config} (configured : inst.Configured config)
    (label : PositionLabel) : (inst.positionStep label).Configured config := by
  refine ⟨(positionStep_config inst label).trans configured.1, fun side => ?_⟩
  rw [← configured.2 side]
  cases filled : label.fill with
  | none => exact (sameTotals_positionStep inst filled side).divisor
  | some fill =>
      rw [positionStep_fill filled]
      exact onFill_divisor inst.accounts fill side

end Totals

/-- The totals that keep an account and its table in step. -/
theorem InStep.sameTotals {account other : TradeAccount} (inStep : InStep account)
    (same : SameTotals account other) : InStep other := by
  constructor
  · rw [same.openSize, same.total]
    exact inStep.openSize
  · rw [same.openSize]
    exact inStep.inRange
  · rw [same.total, same.average, TradeAccount.getAverage, same.tableAverage]
    exact inStep.average

/-- Fills in range keep every account and its table in step. -/
theorem inStep_positionStep {inst : TradeInstance}
    (inStep : ∀ side, InStep (inst.accounts.get side))
    {label : PositionLabel} (inRange : inst.FillsInRange label) (side : OrderAccountType) :
    InStep ((inst.positionStep label).accounts.get side) := by
  cases filled : label.fill with
  | none => exact (inStep side).sameTotals (sameTotals_positionStep inst filled side)
  | some fill =>
      rw [positionStep_fill filled] at inRange ⊢
      change InStep ((inst.accounts.onFill fill).get side)
      by_cases same : fill.side = side
      · subst same
        exact (inStep fill.side).onFill inRange.1 inRange.2
      · exact (inStep side).same (onFill_other inst.accounts fill same)

/-! ## Hedges -/

/-- A hedge is packed in units exactly when it fits. -/
theorem packsHedge_iff_fitsHedge {config : Config} (divisorPos : 1 ≤ config.divisor)
    (basePos : config.divisor ≤ config.baseQty) {inst : TradeInstance}
    (configured : inst.Configured config) (label : PositionLabel) :
    inst.PacksHedge label ↔ inst.FitsHedge label := by
  cases label with
  | callback | other => rfl
  | destroy case =>
      refine forall_congr' fun equal => forall_congr' fun side => forall_congr' fun current => ?_
      have divisor : 0 < (inst.accounts.get side).divisor := by
        rw [configured.2 side]
        exact divisorPos
      have base : 0 < inst.config.baseQty := by
        rw [configured.1]
        omega
      have repackaged : (HedgeCurrent.destroyed case inst).accounts.get side =
          repackagePositionTable (inst.accounts.get side) inst.config.baseQty
            inst.config.mpvValue 0 := by
        unfold HedgeCurrent.destroyed
        rw [if_pos equal, show case.currentAcc = some side from current]
        cases side <;> rfl
      rw [repackaged]
      exact packsInUnits_repackaged_iff _ _ base divisor

/-- On a new instance, whatever it found stored and whatever happens to it, a
hedge destroyed with both positions equal leaves records in units if and only
if its account fits in units then.  The tables count the positions of an
instance that started without one and whose fills stay in range. -/
theorem packsHedge_iff {config : Config} (divisorPos : 1 ≤ config.divisor)
    (basePos : config.divisor ≤ config.baseQty) {uninitialized : Uninitialized}
    {writer : RedisWriter} {inst : TradeInstance}
    (constructs : TradeInstance.construct config uninitialized writer = some inst)
    (labels : List PositionLabel) :
    (EveryStep TradeInstance.positionStep TradeInstance.PacksHedge inst labels ↔
        EveryStep TradeInstance.positionStep TradeInstance.FitsHedge inst labels) ∧
      ((∀ side, (inst.accounts.get side).total = 0) →
        EveryStep TradeInstance.positionStep TradeInstance.FillsInRange inst labels →
        EveryState TradeInstance.positionStep TradeInstance.Counted inst labels) := by
  obtain ⟨sameConfig, tables⟩ := construct_books constructs
  have configured : inst.Configured config := ⟨sameConfig, fun side => (tables side).divisor⟩
  constructor
  · exact everyStep_iff_everyStep_of_forall
      (fun inst label configured _ => configured_positionStep inst configured label)
      (fun _ label configured => packsHedge_iff_fitsHedge divisorPos basePos configured label)
      configured labels
  · intro flat inRange
    have inStep : ∀ side, InStep (inst.accounts.get side) := by
      intro side
      constructor
      · rw [(tables side).positionTable, flat side]
        rfl
      · rw [(tables side).positionTable]
        exact Nat.two_pow_pos 32
      · exact fun position => absurd (flat side) position
    have keeps : ∀ (inst : TradeInstance) label, (∀ side, InStep (inst.accounts.get side)) →
        inst.FillsInRange label → ∀ side, InStep ((inst.positionStep label).accounts.get side) :=
      fun _ _ inStep inRange => inStep_positionStep inStep inRange
    have always := everyState_of_everyStep keeps inStep inRange
    exact always.mono fun _ inStep side => (inStep side).openSize

/-- Both accounts open some lots, and the hedge of the long one is destroyed. -/
def hedgedRun (inst : TradeInstance) (lots : ℕ) : List PositionLabel :=
  [.callback (.fill { side := .short, isOpen := true, orderId := 1, price := 10, size := lots }),
    .callback (.fill { side := .long, isOpen := true, orderId := 1, price := 10, size := lots }),
    .destroy
      { TradeCase.create inst .hedgeCurrent with
        currentAcc := some .long
        oppositeAcc := some .short }]

/-- One lot of 100 shares fits in the base quantity. -/
theorem packsHedge_oneLot :
    ∃ inst, TradeInstance.construct .roundLots .zero nothingStored = some inst ∧
      EveryStep TradeInstance.positionStep TradeInstance.PacksHedge inst (hedgedRun inst 1) := by
  have fits : (TradeInstance.construct .roundLots .zero nothingStored).map (fun inst =>
      decide (EveryStep TradeInstance.positionStep TradeInstance.FitsHedge inst
        (hedgedRun inst 1))) = some true := by
    decide +kernel
  obtain ⟨inst, constructs, holds⟩ := Option.map_eq_some_iff.mp fits
  refine ⟨inst, constructs, ?_⟩
  exact (packsHedge_iff (by decide) (by decide) constructs _).1.mpr (of_decide_eq_true holds)

/-- Three lots are packed into one record of 300 shares. -/
theorem not_packsHedge_threeLots :
    ∃ inst, TradeInstance.construct .roundLots .zero nothingStored = some inst ∧
      ¬ EveryStep TradeInstance.positionStep TradeInstance.PacksHedge inst (hedgedRun inst 3) := by
  have exceeds : (TradeInstance.construct .roundLots .zero nothingStored).map (fun inst =>
      decide (EveryStep TradeInstance.positionStep TradeInstance.PacksHedge inst
        (hedgedRun inst 3))) = some false := by
    decide +kernel
  obtain ⟨inst, constructs, fails⟩ := Option.map_eq_some_iff.mp exceeds
  exact ⟨inst, constructs, of_decide_eq_false fails⟩

end TradingApp.Instance
