import TradingApp.Instance.HedgeUnits
import TradingApp.Instance.Requote
import TradingApp.Lots.Chunks
import TradingApp.Position.Ordering

/-!
# What remains to the target

Two loops bring an account to its target, the one for the requote orders and
that of a case 6C: they send orders of `baseQty` shares until nothing remains.
What remains is an unsigned difference of 64 bits, narrowed to a signed
integer, so that nothing is sent when the position is beyond the target.  The
source never selects a case 6C.
-/

namespace TradingApp.Instance

open TradingApp.Account TradingApp.Lots TradingApp.Machine TradingApp.Transition

/-! ## The loops -/

/-- The sizes the loops ask for; `none` if they still run when the fuel is
spent. -/
def requestedSizes (baseQty : ℕ) : ℕ → ℤ → Option (List ℕ)
  | 0, remainder => if remainder > 0 then none else some []
  | fuel + 1, remainder =>
      if remainder > 0 then
        let orderSize : ℤ := if remainder > baseQty then baseQty else remainder
        (requestedSizes baseQty fuel (remainder - orderSize)).map (word32 orderSize :: ·)
      else some []

namespace TradeCase6C

/-- Unlike the requote orders these step away from the price of the first
record, and the first of them already does. -/
def init (case : TradeCase) : CaseM Unit := do
  let inst ← getInst
  match case.currentAcc with
  | none => return
  | some side =>
      let account := inst.accounts.get side
      if account.tranchCounter = inst.config.tranchValue then setState .done
      else
        let targetPos : ℕ := inst.config.maxPos * word32 (account.tranchCounter + 1)
        let residual := int32 (word64 (targetPos - account.getPosition))
        let startingPrice := account.positionTable.startingPrice
        let _ ← sendRequoteLoop case.currentAcc inst.config.baseQty
          (fun i => startingPrice - case.sign * inst.config.mpvValue * i)
          residual.toNat residual 1
        setState .wait

end TradeCase6C

/-- `open` once the size is in lots. -/
def openLots (side : OrderAccountType) (price : ℚ) (lots : ℕ) : CaseM ℕ := do
  if price ≤ 0 ∨ lots > maximumOrderLimit ∨ lots > orderAccountMaximumLimit then return 0
  else
    let reply ← nextReply
    if reply.id = 0 then return 0
    else
      modifyAccount side fun account => { account with totalOpen := account.totalOpen + lots }
      record (.opened side reply.id lots price)
      return reply.id

/-- An order for each of some sizes in lots, and the ids of those
acknowledged. -/
def openEach (side : OrderAccountType) (price : ℕ → ℚ) : List ℕ → ℕ → CaseM (List ℕ)
  | [], _ => pure []
  | lots :: rest, i => do
      let id ← openLots side (price i) lots
      let ids ← openEach side price rest (i + 1)
      return if id = 0 then ids else id :: ids

/-! ## Narrowing -/

/-- In range nothing is lost. -/
theorem int32_eq {n : ℤ} (above : -2 ^ 31 ≤ n) (below : n < 2 ^ 31) : int32 n = n := by
  unfold int32
  omega

/-- Narrowing the unsigned difference is narrowing the difference. -/
@[simp]
theorem int32_word64 (n : ℤ) : int32 (word64 n) = int32 n := by
  unfold int32 word64
  omega

/-! ## The sizes -/

/-- The loop cuts the residual into chunks, with as much fuel as shares. -/
theorem requestedSizes_eq {baseQty fuel : ℕ} {remainder : ℤ} (basePos : 0 < baseQty)
    (enough : remainder.toNat ≤ fuel) (inRange : remainder < 2 ^ 31) :
    requestedSizes baseQty fuel remainder = some (chunks baseQty remainder.toNat) := by
  induction fuel generalizing remainder with
  | zero =>
      have done : ¬ remainder > 0 := by omega
      have nothing : remainder.toNat = 0 := by omega
      rw [requestedSizes, if_neg done, nothing, chunks_zero]
  | succ fuel ih =>
      unfold requestedSizes
      split
      · rename_i remains
        dsimp only
        split
        · rename_i more
          have size : word32 (baseQty : ℤ) = baseQty := word32_natCast (by omega)
          have left : (remainder - baseQty).toNat = remainder.toNat - baseQty := by omega
          have larger : baseQty < remainder.toNat := by omega
          rw [ih (by omega) (by omega), Option.map_some, size, left,
            ← chunks_of_lt basePos larger]
        · rename_i atMost
          have size : word32 remainder = remainder.toNat := by
            unfold word32
            omega
          have last : chunks baseQty remainder.toNat = [remainder.toNat] :=
            chunks_of_le (by omega) (by omega)
          rw [sub_self, ih (by omega) (by omega), size, last]
          exact congrArg (fun rest => some (remainder.toNat :: rest)) (chunks_zero baseQty)
      · rename_i done
        have nothing : remainder.toNat = 0 := by omega
        rw [nothing, chunks_zero]

/-! ## The orders -/

/-- Calls leave the divisor alone. -/
theorem divisor_frame (side : OrderAccountType) :
    ReplyFrame (Unchanged fun context : Context => (context.inst.accounts.get side).divisor) where
  nextReply := keeps_nextReply (fun _ _ => rfl) fun context callback => by
    cases callback with
    | fill fill => exact TradeAccounts.onFill_divisor context.inst.accounts fill side
    | counters | requoteOrderDone | tradeSendClose =>
        refine (sameTotals_onCallback context.inst ?_ side).divisor
        exact fun _ => nofun
  record _ _ := rfl
  modifyAccount other f same context := by
    change ((context.inst.modifyAccount other f).accounts.get side).divisor = _
    cases side <;> cases other <;> first | exact (same _).divisor | rfl

/-- `open` divides the size it is asked for. -/
theorem run_openOrder (side : OrderAccountType) (price : ℚ) (size : ℕ) (context : Context) :
    (openOrder (some side) price size).run context =
      (openLots side price (size / (context.inst.accounts.get side).divisor)).run context :=
  rfl

/-- A loop that ends opens each of the sizes it asks for. -/
theorem run_sendRequoteLoop {baseQty divisor fuel : ℕ} {remainder : ℤ} {sizes : List ℕ}
    {side : OrderAccountType} {context : Context} (price : ℕ → ℚ) (i : ℕ)
    (ends : requestedSizes baseQty fuel remainder = some sizes)
    (counted : (context.inst.accounts.get side).divisor = divisor) :
    (sendRequoteLoop (some side) baseQty price fuel remainder i).run context =
      (openEach side price (sizes.map (· / divisor)) i).run context := by
  induction fuel generalizing remainder sizes i context with
  | zero =>
      unfold requestedSizes at ends
      split at ends
      · exact absurd ends nofun
      · obtain rfl := Option.some.inj ends
        rfl
  | succ fuel ih =>
      unfold requestedSizes at ends
      unfold sendRequoteLoop
      split at ends
      · rename_i remains
        dsimp only at ends
        obtain ⟨rest, endsRest, rfl⟩ := Option.map_eq_some_iff.mp ends
        rw [if_pos remains, List.map_cons, openEach]
        dsimp only
        rw [run_bind, run_bind, run_openOrder, counted]
        have kept := (divisor_frame side).openOrder (some side) (price i)
          (word32 (if remainder > (baseQty : ℤ) then (baseQty : ℤ) else remainder)) context
        rw [run_openOrder, counted] at kept
        rw [run_bind, run_bind, ih (i + 1) endsRest (kept.trans counted)]
      · rename_i done
        obtain rfl := Option.some.inj ends
        rw [if_neg done]
        rfl

/-! ## The target -/

namespace TradeInstance

variable (inst : TradeInstance) (side : OrderAccountType)

/-- The position the loops aim at. -/
def targetPos : ℕ :=
  inst.config.maxPos * ((inst.accounts.get side).tranchCounter + 1)

/-- What remains to the target. -/
def residual : ℤ :=
  inst.targetPos side - (inst.accounts.get side).getPosition

/-- Target and position fit a signed integer.  The residual of a position that
is not negative fits then, too. -/
structure FitsInt : Prop where
  targetPos : inst.targetPos side < 2 ^ 31
  position : (inst.accounts.get side).getPosition < 2 ^ 31
  residual : inst.residual side < 2 ^ 31

/-- The loops end with the sizes, which cover the residual exactly, in shares
and in lots. -/
structure Covers (sizes : List ℕ) : Prop where
  ends : ∀ fuel, (inst.residual side).toNat ≤ fuel →
    requestedSizes inst.config.baseQty fuel (int32 (word64 (inst.residual side))) = some sizes
  within : ∀ size ∈ sizes, 1 ≤ size ∧ size ≤ inst.config.baseQty
  sum : (sizes.sum : ℤ) = max 0 (inst.residual side)
  lots : ((sizes.map (· / (inst.accounts.get side).divisor)).sum : ℤ) =
    max 0 (inst.residual side) / (inst.accounts.get side).divisor

/-- The side of the market that the requote orders join. -/
def requotePrice (case : TradeCase) : ℚ :=
  if case.sign = 1 then inst.bidPrice else inst.askPrice

/-- The price has not gone too far from the close of the last bar. -/
def PriceCondition (case : TradeCase) : Prop :=
  let rightSide :=
    inst.bar1.closePrice + inst.config.mpvValue * inst.config.mpvMultiplier * case.sign
  if case.sign > 0 then inst.requotePrice case ≤ rightSide else inst.requotePrice case ≥ rightSide

instance (case : TradeCase) : Decidable (inst.PriceCondition case) :=
  inferInstanceAs (Decidable (if case.sign > 0 then _ else _))

variable {inst side}

theorem fitsInt_of_nonneg (targetPos : inst.targetPos side < 2 ^ 31)
    (nonneg : 0 ≤ (inst.accounts.get side).getPosition)
    (position : (inst.accounts.get side).getPosition < 2 ^ 31) : inst.FitsInt side := by
  refine ⟨targetPos, position, ?_⟩
  unfold residual
  omega

/-- The counter does not wrap around on the way to a target that fits. -/
theorem FitsInt.maxPos_mul (fits : inst.FitsInt side) :
    inst.config.maxPos * word32 ((inst.accounts.get side).tranchCounter + 1) =
      inst.targetPos side := by
  unfold TradeInstance.targetPos
  rcases Nat.eq_zero_or_pos inst.config.maxPos with zero | positive
  · rw [zero, Nat.zero_mul, Nat.zero_mul]
  · have counted := Nat.le_mul_of_pos_left ((inst.accounts.get side).tranchCounter + 1) positive
    have target := fits.targetPos
    unfold TradeInstance.targetPos at target
    have inRange : word32 ((inst.accounts.get side).tranchCounter + 1) =
        (inst.accounts.get side).tranchCounter + 1 := word32_add (n := 1) (by omega)
    rw [inRange]

/-- Narrowing loses nothing, and so the loops start with what remains. -/
theorem FitsInt.int32_residual (fits : inst.FitsInt side) :
    int32 (inst.residual side) = inst.residual side := by
  have position := fits.position
  refine int32_eq ?_ fits.residual
  unfold TradeInstance.residual
  omega

theorem FitsInt.int32_targetPos (fits : inst.FitsInt side) :
    int32 ((inst.config.maxPos * word32 ((inst.accounts.get side).tranchCounter + 1) : ℕ) -
      (inst.accounts.get side).getPosition) = inst.residual side := by
  rw [fits.maxPos_mul]
  exact fits.int32_residual

/-- Positions are counted in lots, and the target is a number of lots. -/
theorem divisor_dvd_residual (maxPos : (inst.accounts.get side).divisor ∣ inst.config.maxPos) :
    (inst.accounts.get side).divisor ∣ (inst.residual side).toNat := by
  have target : ((inst.accounts.get side).divisor : ℤ) ∣ inst.targetPos side :=
    Int.natCast_dvd_natCast.mpr (maxPos.mul_right _)
  have position : ((inst.accounts.get side).divisor : ℤ) ∣ (inst.accounts.get side).getPosition :=
    Dvd.intro_left _ rfl
  have both := dvd_sub target position
  rcases le_total 0 (inst.residual side) with nonneg | nonpos
  · rw [← Int.natCast_dvd_natCast, Int.toNat_of_nonneg nonneg]
    exact both
  · rw [Int.toNat_of_nonpos nonpos]
    exact dvd_zero _

theorem covers_chunks (basePos : 0 < inst.config.baseQty)
    (base : (inst.accounts.get side).divisor ∣ inst.config.baseQty)
    (maxPos : (inst.accounts.get side).divisor ∣ inst.config.maxPos)
    (fits : inst.FitsInt side) :
    inst.Covers side (chunks inst.config.baseQty (inst.residual side).toNat) where
  ends fuel enough := by
    rw [int32_word64, fits.int32_residual]
    exact requestedSizes_eq basePos enough fits.residual
  within _ member := chunks_within basePos member
  sum := by
    rw [chunks_sum, Int.ofNat_toNat, max_comm]
  lots := by
    rw [chunks_sum_div base (divisor_dvd_residual maxPos), Int.natCast_div, Int.ofNat_toNat,
      max_comm]

end TradeInstance

/-! ## Both functions -/

/-- Orders of some lots in steps from the requote price. -/
def openRequotes (inst : TradeInstance) (case : TradeCase) (side : OrderAccountType)
    (lots : List ℕ) : CaseM Unit := do
  priceRequotes (inst.requotePrice case)
  let ids ← openEach side
    (fun i => inst.requotePrice case - case.sign * inst.config.mpvValue * i) lots 0
  modifyCase fun case => { case with requoteOrders := case.requoteOrders ++ ids }

/-- Orders of some lots in steps from the price of the first record. -/
def openFromRecord (inst : TradeInstance) (case : TradeCase) (side : OrderAccountType)
    (lots : List ℕ) : CaseM Unit := do
  let _ ← openEach side
    (fun i => (inst.accounts.get side).positionTable.startingPrice -
      case.sign * inst.config.mpvValue * i) lots 1
  setState .wait

variable {context : Context} {case : TradeCase} {side : OrderAccountType} {sizes : List ℕ}

theorem run_sendRequoteOrders (isCurrent : case.currentAcc = some side)
    (below : (context.inst.accounts.get side).tranchCounter < context.inst.config.tranchValue)
    (fits : context.inst.FitsInt side) (covers : context.inst.Covers side sizes)
    (price : context.inst.PriceCondition case) :
    (sendRequoteOrders case).run context =
      (openRequotes context.inst case side
        (sizes.map (· / (context.inst.accounts.get side).divisor))).run context := by
  have ends := covers.ends _ (le_refl _)
  rw [int32_word64, fits.int32_residual] at ends
  unfold TradeInstance.PriceCondition TradeInstance.requotePrice at price
  dsimp only at price
  unfold sendRequoteOrders
  rw [run_getInst_bind, isCurrent]
  dsimp only
  rw [if_neg below.ne, fits.int32_targetPos, run_bind, if_pos price]
  unfold openRequotes
  rw [run_bind, run_bind, run_bind, run_sendRequoteLoop _ _ ends rfl]
  rfl

theorem run_init (isCurrent : case.currentAcc = some side)
    (below : (context.inst.accounts.get side).tranchCounter < context.inst.config.tranchValue)
    (fits : context.inst.FitsInt side) (covers : context.inst.Covers side sizes) :
    (TradeCase6C.init case).run context =
      (openFromRecord context.inst case side
        (sizes.map (· / (context.inst.accounts.get side).divisor))).run context := by
  have ends := covers.ends _ (le_refl _)
  rw [int32_word64, fits.int32_residual] at ends
  unfold TradeCase6C.init
  rw [run_getInst_bind, isCurrent]
  dsimp only
  rw [if_neg below.ne, int32_word64, fits.int32_targetPos, run_bind,
    run_sendRequoteLoop _ _ ends rfl]
  rfl

/-- Both loops end, with orders of at most `baseQty` shares that cover what
remains to the target exactly, in shares and in the lots that are opened. -/
theorem residual_covered (isCurrent : case.currentAcc = some side)
    (basePos : 0 < context.inst.config.baseQty)
    (base : (context.inst.accounts.get side).divisor ∣ context.inst.config.baseQty)
    (maxPos : (context.inst.accounts.get side).divisor ∣ context.inst.config.maxPos)
    (below : (context.inst.accounts.get side).tranchCounter < context.inst.config.tranchValue)
    (fits : context.inst.FitsInt side) :
    ∃ sizes, context.inst.Covers side sizes ∧
      (context.inst.PriceCondition case →
        (sendRequoteOrders case).run context =
          (openRequotes context.inst case side
            (sizes.map (· / (context.inst.accounts.get side).divisor))).run context) ∧
      (TradeCase6C.init case).run context =
        (openFromRecord context.inst case side
          (sizes.map (· / (context.inst.accounts.get side).divisor))).run context := by
  have covers := TradeInstance.covers_chunks basePos base maxPos fits
  exact ⟨_, covers, run_sendRequoteOrders isCurrent below fits covers,
    run_init isCurrent below fits covers⟩

/-- The requote orders of an account that holds nothing. -/
theorem residual_covered_roundLots :
    ∃ inst, TradeInstance.construct .roundLots .zero nothingStored = some inst ∧
      ∃ sizes, (buying inst 10).Covers .long sizes ∧
        (sendRequoteOrders (.create (buying inst 10) .hedgeCurrent)).run ⟨buying inst 10, [], []⟩ =
          (openRequotes (buying inst 10) (.create (buying inst 10) .hedgeCurrent) .long
            (sizes.map (· / ((buying inst 10).accounts.get .long).divisor))).run
            ⟨buying inst 10, [], []⟩ := by
  have settled : (TradeInstance.construct .roundLots .zero nothingStored).map (fun inst =>
      let buys := buying inst 10
      let account := buys.accounts.get .long
      decide (0 < buys.config.baseQty ∧ account.divisor ∣ buys.config.baseQty ∧
        account.divisor ∣ buys.config.maxPos ∧ account.tranchCounter < buys.config.tranchValue ∧
        buys.targetPos .long < 2 ^ 31 ∧ 0 ≤ account.getPosition ∧ account.getPosition < 2 ^ 31 ∧
        buys.PriceCondition (.create buys .hedgeCurrent))) = some true := by
    decide +kernel
  obtain ⟨inst, constructs, holds⟩ := Option.map_eq_some_iff.mp settled
  obtain ⟨basePos, base, maxPos, below, targetPos, nonneg, position, price⟩ :=
    of_decide_eq_true holds
  have fits : (Context.mk (buying inst 10) [] []).inst.FitsInt .long :=
    TradeInstance.fitsInt_of_nonneg targetPos nonneg position
  have isCurrent : (TradeCase.create (buying inst 10) .hedgeCurrent).currentAcc = some .long := rfl
  obtain ⟨sizes, covers, sends, -⟩ := residual_covered isCurrent basePos base maxPos below fits
  exact ⟨inst, constructs, sizes, covers, sends price⟩

end TradingApp.Instance
