import Mathlib.Tactic.FieldSimp
import Mathlib.Tactic.Ring
import TradingApp.Account.Fills
import TradingApp.Orders.OrderInfo
import TradingApp.Position.Average

/-!
# Opening in two fills

An exchange may fill an open order in parts.  On accounts that were only opened
on, two fills at one price leave what one fill of their sum leaves.

An average moves towards the price of a fill in proportion to its size, and
moving it twice is moving it once.  The spread uses the same rule to find the
average at the moment the two accounts are level, so that it does not matter in
which part of the fill that moment falls.
-/

namespace TradingApp.Account

open TradingApp.Machine TradingApp.Orders TradingApp.Position TradingApp.Transition

/-! ## Averages -/

/-- An average moved towards a price by a size out of a total. -/
def moveAverage (average price size total : ℚ) : ℚ :=
  average + (price - average) * size / total

/-- Moving twice is moving once. -/
theorem moveAverage_moveAverage (average price first second before : ℚ)
    (middle : before + first ≠ 0) (after : before + first + second ≠ 0) :
    moveAverage (moveAverage average price first (before + first)) price second
        (before + first + second) =
      moveAverage average price (first + second) (before + first + second) := by
  unfold moveAverage
  field_simp
  ring

namespace TradeAccount

variable (account other : TradeAccount) (orderId : ℕ) (price : ℚ) (size : ℕ)

/-! ## Single fills -/

/-- An open fill brings the account level with the other one. -/
def Levels : Prop :=
  account.total < other.total ∧ other.total ≤ account.total + size

instance : Decidable (account.Levels other size) :=
  inferInstanceAs (Decidable (_ ∧ _))

/-- The spread at the moment the accounts are level. -/
def levelSpread : ℚ :=
  |moveAverage account.average price |account.total - other.total| other.total - other.getAverage|

theorem calculateSpread_open :
    account.calculateSpread other price size true =
      if account.Levels other size then
        ({ account with spread := account.levelSpread other price },
          { other with spread := account.levelSpread other price })
      else (account, other) := by
  unfold calculateSpread
  dsimp only
  simp only [and_true, Bool.not_true, Bool.false_eq_true, and_false, if_false, ge_iff_le]
  rfl

/-- What an open fill leaves of the figures beside the position, with the price in
force after it. -/
structure Noted (pif : ℚ) (after otherAfter : TradeAccount) : Prop where
  accountType : after.accountType = account.accountType
  spread : after.spread =
    if account.Levels other size then account.levelSpread other price else account.spread
  otherSpread : otherAfter.spread =
    if account.Levels other size then account.levelSpread other price else other.spread
  pif : after.pif = pif
  otherPif : otherAfter.pif = other.pif
  lastOpenPrice : after.lastOpenPrice = price
  otherLastOpenPrice : otherAfter.lastOpenPrice = other.lastOpenPrice

theorem onOpenFillLong_noted :
    Noted account other price size account.pif
      (account.onOpenFillLong other orderId price size).1
      (account.onOpenFillLong other orderId price size).2 := by
  have spreads := calculateSpread_open account other price size
  unfold onOpenFillLong
  by_cases levels : account.Levels other size
  · rw [if_pos levels] at spreads
    rw [spreads]
    constructor <;> simp [recordOpenFill, levels]
  · rw [if_neg levels] at spreads
    rw [spreads]
    constructor <;> simp [recordOpenFill, levels]

/-- The short account does what the long one does, and notes the price. -/
theorem onOpenFillShort_eq :
    account.onOpenFillShort other orderId price size =
      ({ (account.onOpenFillLong other orderId price size).1 with
          pif :=
            if (account.total + size) * account.divisor ≥ other.getPosition then price
            else account.pif },
        (account.onOpenFillLong other orderId price size).2) := by
  obtain ⟨spread, otherSpread, spreads⟩ := calculateSpread_eq account other price size true
  simp only [onOpenFillShort, onOpenFillLong, spreads, getPosition, ge_iff_le]
  by_cases compared :
      other.total * other.divisor ≤ (account.total + (size : ℤ)) * account.divisor
  · simp only [compared, if_true]
    rfl
  · simp only [compared, if_false]
    rfl

/-- The price in force after an open fill. -/
def openPif : ℚ :=
  match account.accountType with
  | .long => account.pif
  | .short =>
      if (account.total + size) * account.divisor ≥ other.getPosition then price else account.pif

theorem onOpenFill_noted :
    Noted account other price size (account.openPif other price size)
      (account.onOpenFill other orderId price size).1
      (account.onOpenFill other orderId price size).2 := by
  have long := onOpenFillLong_noted account other orderId price size
  unfold onOpenFill openPif
  cases account.accountType with
  | long => exact long
  | short =>
      rw [onOpenFillShort_eq]
      exact { long with pif := rfl }

/-! ## Two fills -/

section Parts

variable {account other : TradeAccount} {a b : ℕ}

/-- The second part brings the accounts level exactly if the whole fill does and
the first part does not. -/
theorem levels_add_iff (a b : ℕ) (after otherAfter : TradeAccount)
    (total : after.total = account.total + a) (otherTotal : otherAfter.total = other.total) :
    account.Levels other (a + b) ↔ account.Levels other a ∨ after.Levels otherAfter b := by
  unfold Levels
  rw [total, otherTotal]
  push_cast
  omega

/-- The first part does not change what the average will be when the accounts
are level. -/
theorem levelSpread_part (nonneg : 0 ≤ account.total) (aPos : 0 < a)
    {after otherAfter : TradeAccount} (total : after.total = account.total + a)
    (otherTotal : otherAfter.total = other.total)
    (average : after.average = moveAverage account.average price a (account.total + a))
    (table : otherAfter.positionTable = other.positionTable)
    (levels : after.Levels otherAfter b) :
    after.levelSpread otherAfter price = account.levelSpread other price := by
  unfold levelSpread getAverage
  obtain ⟨below, -⟩ := levels
  have later : (account.total : ℚ) + a < other.total := by
    rw [total, otherTotal] at below
    exact_mod_cast below
  have start : (0 : ℚ) ≤ account.total := by exact_mod_cast nonneg
  have part : (0 : ℚ) < a := by exact_mod_cast aPos
  have rest : |(after.total : ℚ) - otherAfter.total| =
      other.total - (account.total + a) := by
    rw [total, otherTotal, abs_sub_comm]
    push_cast
    exact abs_of_pos (sub_pos.mpr later)
  have whole : |(account.total : ℚ) - other.total| =
      a + (other.total - (account.total + a)) := by
    rw [abs_sub_comm, abs_of_pos (by linarith)]
    ring
  have level : (other.total : ℚ) =
      account.total + a + (other.total - (account.total + a)) := by
    ring
  have moved := moveAverage_moveAverage account.average price a
    (other.total - (account.total + a)) account.total (by linarith) (by linarith)
  rw [← level] at moved
  rw [rest, whole, otherTotal, average, table, moved]

/-- The two parts leave the spread that the whole fill leaves, in whichever of
them the accounts come level. -/
theorem spread_add (nonneg : 0 ≤ account.total) (aPos : 0 < a)
    {after otherAfter : TradeAccount} (total : after.total = account.total + a)
    (otherTotal : otherAfter.total = other.total)
    (average : after.average = moveAverage account.average price a (account.total + a))
    (table : otherAfter.positionTable = other.positionTable) (old : ℚ) :
    (if after.Levels otherAfter b then after.levelSpread otherAfter price
      else if account.Levels other a then account.levelSpread other price else old) =
      if account.Levels other (a + b) then account.levelSpread other price else old := by
  have levels := levels_add_iff a b after otherAfter total otherTotal
  by_cases next : after.Levels otherAfter b
  · rw [if_pos next, if_pos (levels.mpr (Or.inr next))]
    exact levelSpread_part price nonneg aPos total otherTotal average table next
  · rw [if_neg next]
    simp only [levels, next, or_false]

end Parts

/-- The average after an open fill. -/
theorem openAverage_eq (nonneg : 0 ≤ account.total) {size : ℕ} (sizePos : 0 < size) :
    { account with total := account.total + size : TradeAccount }.openAverage price size =
      moveAverage account.average price size (account.total + size) := by
  unfold openAverage moveAverage
  dsimp only
  rw [if_pos (by omega)]
  push_cast
  rfl

/-- The two parts note what the whole fill notes. -/
theorem openPif_add {a b : ℕ} {after otherAfter : TradeAccount}
    (accountType : after.accountType = account.accountType)
    (divisor : after.divisor = account.divisor) (total : after.total = account.total + a)
    (pif : after.pif = account.openPif other price a)
    (otherPosition : otherAfter.getPosition = other.getPosition) :
    after.openPif otherAfter price b = account.openPif other price (a + b) := by
  unfold openPif at pif ⊢
  rw [accountType, divisor, total, otherPosition, pif]
  cases account.accountType with
  | long => rfl
  | short =>
      dsimp only
      push_cast
      rw [← add_assoc]
      split
      · rfl
      · rename_i below
        rw [if_neg]
        intro reached
        refine below (le_trans reached ?_)
        exact Int.mul_le_mul_of_nonneg_right (by omega) (Int.natCast_nonneg _)

end TradeAccount

end TradingApp.Account

namespace TradingApp.Position.PositionRecordTable

open TradingApp.Account TradingApp.Machine

/-! ## Tables -/

/-- The lots recorded at an open price. -/
def lotsAt (table : PositionRecordTable) (price : ℚ) : ℕ :=
  ((table.records.filter fun record => record.openPrice = price).map (·.openSize)).sum

theorem lotsAt_recordOpenPosition (table : PositionRecordTable) (id size : ℕ) (price at_ : ℚ) :
    (table.recordOpenPosition id size price).lotsAt at_ =
      (if price = at_ then size else 0) + table.lotsAt at_ := by
  have inserted := ((insertRecord_perm table.sign (.ofFill id size price
    (table.recordOpenPosition id size price).average table.sign) table.records).filter
      fun record => record.openPrice = at_).map (·.openSize)
  refine inserted.sum_eq.trans ?_
  rw [List.filter_cons]
  by_cases same : price = at_
  · simp [same, PositionRecord.ofFill, lotsAt]
  · simp [same, PositionRecord.ofFill, lotsAt]

theorem average_recordOpenPosition {table : PositionRecordTable} {size : ℕ}
    (fits : table.openSize + size < 2 ^ 32) (sizePos : 0 < size) (id : ℕ) (price : ℚ) :
    (table.recordOpenPosition id size price).average =
      moveAverage table.average price size (table.openSize + size) := by
  unfold recordOpenPosition moveAverage
  dsimp only
  rw [word32_add fits, if_pos (by omega)]
  push_cast
  rfl

theorem openSize_recordOpenPosition {table : PositionRecordTable} {size : ℕ}
    (fits : table.openSize + size < 2 ^ 32) (id : ℕ) (price : ℚ) :
    (table.recordOpenPosition id size price).openSize = table.openSize + size :=
  word32_add fits

/-- Two records at one price weigh as much as one of their sum. -/
theorem recordOpenPosition_add {table : PositionRecordTable} {a b : ℕ} (aPos : 0 < a) (bPos : 0 < b)
    (fits : table.openSize + a + b < 2 ^ 32) (id : ℕ) (price : ℚ) :
    let parts := (table.recordOpenPosition id a price).recordOpenPosition id b price
    let whole := table.recordOpenPosition id (a + b) price
    parts.openSize = whole.openSize ∧ parts.average = whole.average ∧
      ∀ at_, parts.lotsAt at_ = whole.lotsAt at_ := by
  intro parts whole
  have first : table.openSize + a < 2 ^ 32 := by omega
  have middle := openSize_recordOpenPosition first id price
  have second : (table.recordOpenPosition id a price).openSize + b < 2 ^ 32 := by
    rw [middle]
    exact fits
  have both : table.openSize + (a + b) < 2 ^ 32 := by omega
  refine ⟨?_, ?_, fun at_ => ?_⟩
  · rw [openSize_recordOpenPosition second, openSize_recordOpenPosition both, middle, add_assoc]
  · have positive : (0 : ℚ) < a := by exact_mod_cast aPos
    rw [average_recordOpenPosition second bPos, average_recordOpenPosition first aPos,
      average_recordOpenPosition both (by omega), middle]
    push_cast
    rw [moveAverage_moveAverage _ _ _ _ _ (by positivity) (by positivity), add_assoc]
  · rw [lotsAt_recordOpenPosition, lotsAt_recordOpenPosition, lotsAt_recordOpenPosition]
    split <;> omega

end TradingApp.Position.PositionRecordTable

namespace TradingApp.Account

open TradingApp.Machine TradingApp.Orders TradingApp.Position TradingApp.Transition

/-! ## Both accounts and the order -/

/-- The figures an open fill is to leave alike. -/
structure TradeAccount.SameFigures (first second : TradeAccount) : Prop where
  total : first.total = second.total
  average : first.average = second.average
  spread : first.spread = second.spread
  pif : first.pif = second.pif
  lastOpenPrice : first.lastOpenPrice = second.lastOpenPrice
  openSize : first.positionTable.openSize = second.positionTable.openSize
  tableAverage : first.positionTable.average = second.positionTable.average
  lotsAt : ∀ price, first.positionTable.lotsAt price = second.positionTable.lotsAt price

/-- Where the position is not negative and the lots fit, a fill may come in two
parts. -/
theorem TradeAccount.onOpenFill_add (account other : TradeAccount) (nonneg : 0 ≤ account.total)
    {a b : ℕ} (aPos : 0 < a) (bPos : 0 < b)
    (fits : account.positionTable.openSize + a + b < 2 ^ 32) (orderId : ℕ) (price : ℚ) :
    let first := account.onOpenFill other orderId price a
    let second := first.1.onOpenFill first.2 orderId price b
    let whole := account.onOpenFill other orderId price (a + b)
    second.1.SameFigures whole.1 ∧ second.2.SameFigures whole.2 := by
  intro first second whole
  obtain ⟨opened, otherKept⟩ := onOpenFill_spec account other orderId price a
  obtain ⟨openedNext, otherKeptNext⟩ := onOpenFill_spec first.1 first.2 orderId price b
  obtain ⟨openedWhole, otherKeptWhole⟩ := onOpenFill_spec account other orderId price (a + b)
  have noted := onOpenFill_noted account other orderId price a
  have notedNext := onOpenFill_noted first.1 first.2 orderId price b
  have notedWhole := onOpenFill_noted account other orderId price (a + b)
  have average : first.1.average =
      moveAverage account.average price a (account.total + a) :=
    opened.average.trans (openAverage_eq account price nonneg aPos)
  have spread (old : ℚ) := spread_add price nonneg aPos opened.total otherKept.total average
    otherKept.positionTable (b := b) old
  have records := PositionRecordTable.recordOpenPosition_add aPos bPos fits orderId price
  rw [← opened.positionTable, ← openedNext.positionTable, ← openedWhole.positionTable] at records
  have someFirst : (0 : ℚ) < a := by exact_mod_cast aPos
  have someNext : (0 : ℚ) < b := by exact_mod_cast bPos
  have start : (0 : ℚ) ≤ account.total := by exact_mod_cast nonneg
  refine ⟨?_, ?_⟩
  · refine
      { total := ?_
        average := ?_
        spread := ?_
        pif := ?_
        lastOpenPrice := notedNext.lastOpenPrice.trans notedWhole.lastOpenPrice.symm
        openSize := records.1
        tableAverage := records.2.1
        lotsAt := records.2.2 }
    · rw [openedNext.total, opened.total, openedWhole.total]
      push_cast
      ring
    · rw [openedNext.average, openedWhole.average,
        openAverage_eq first.1 price (by rw [opened.total]; omega) bPos,
        openAverage_eq account price nonneg (by omega), average, opened.total]
      push_cast
      rw [moveAverage_moveAverage _ _ _ _ _ (by positivity) (by positivity), add_assoc]
    · rw [notedNext.spread, noted.spread, notedWhole.spread]
      exact spread account.spread
    · rw [notedNext.pif, notedWhole.pif]
      exact openPif_add account other price noted.accountType opened.divisor opened.total noted.pif
        (by unfold getPosition; rw [otherKept.total, otherKept.divisor])
  · refine
      { total := ?_
        average := ?_
        spread := ?_
        pif := ?_
        lastOpenPrice := ?_
        openSize := ?_
        tableAverage := ?_
        lotsAt := ?_ }
    · rw [otherKeptNext.total, otherKept.total, otherKeptWhole.total]
    · rw [otherKeptNext.average, otherKept.average, otherKeptWhole.average]
    · rw [notedNext.otherSpread, noted.otherSpread, notedWhole.otherSpread]
      exact spread other.spread
    · rw [notedNext.otherPif, noted.otherPif, notedWhole.otherPif]
    · rw [notedNext.otherLastOpenPrice, noted.otherLastOpenPrice, notedWhole.otherLastOpenPrice]
    all_goals
      rw [otherKeptNext.positionTable, otherKept.positionTable, otherKeptWhole.positionTable]
    exact fun _ => rfl

/-- Accounts as they are constructed. -/
def TradeAccounts.init (longName shortName symbol : Text) (divisor : ℕ)
    (longPrice shortPrice : ℚ) : TradeAccounts where
  longAcc := .init .long longName symbol divisor longPrice
  shortAcc := .init .short shortName symbol divisor shortPrice

/-- Two accounts, and an open order of one of them. -/
structure Opening (α : Type) where
  accounts : TradeAccounts
  order : OrderInfo α

namespace Opening

variable {α : Type}

/-- The gateway fills the order in part or in whole. -/
def onOpenFill (opening : Opening α) (side : OrderAccountType) (orderId : ℕ) (price : ℚ)
    (size : ℕ) : Opening α where
  accounts := opening.accounts.onFill { side, isOpen := true, orderId, price, size }
  order := { opening.order with fillSize := opening.order.fillSize + size }

/-- The figures of both accounts and the order's fills are alike. -/
structure Same (first second : Opening α) : Prop where
  figures : ∀ side, (first.accounts.get side).SameFigures (second.accounts.get side)
  fillSize : first.order.fillSize = second.order.fillSize

theorem onOpenFill_onOpenFill {opening : Opening α} {side : OrderAccountType}
    (nonneg : 0 ≤ (opening.accounts.get side).total) {a b : ℕ} (aPos : 0 < a) (bPos : 0 < b)
    (fits : (opening.accounts.get side).positionTable.openSize + a + b < 2 ^ 32) (orderId : ℕ)
    (price : ℚ) :
    Same ((opening.onOpenFill side orderId price a).onOpenFill side orderId price b)
      (opening.onOpenFill side orderId price (a + b)) := by
  obtain ⟨own, opposite⟩ := TradeAccount.onOpenFill_add (opening.accounts.get side)
    (opening.accounts.get side.opposite) nonneg aPos bPos fits orderId price
  refine ⟨fun at_ => ?_, by simp only [onOpenFill, add_assoc]⟩
  by_cases different : side ≠ at_
  · obtain rfl := TradeAccounts.eq_opposite_of_ne different
    simpa [onOpenFill, TradeAccounts.onFill] using opposite
  · obtain rfl := not_not.mp different
    simpa [onOpenFill, TradeAccounts.onFill] using own

end Opening

/-- The lots opened on a side. -/
def openedLots (side : OrderAccountType) (fills : List TradeAccounts.Fill) : ℕ :=
  ((fills.filter fun fill => fill.side = side).map (·.size)).sum

theorem openedLots_cons (side : OrderAccountType) (fill : TradeAccounts.Fill)
    (rest : List TradeAccounts.Fill) :
    openedLots side (fill :: rest) =
      (if fill.side = side then fill.size else 0) + openedLots side rest := by
  unfold openedLots
  rw [List.filter_cons]
  by_cases same : fill.side = side
  · simp [same]
  · simp [same]

/-- What one open fill adds at most. -/
theorem onFill_opened (accounts : TradeAccounts) (side : OrderAccountType)
    (nonneg : 0 ≤ (accounts.get side).total) {fill : TradeAccounts.Fill}
    (opens : fill.isOpen = true) :
    0 ≤ ((accounts.onFill fill).get side).total ∧
      ((accounts.onFill fill).get side).positionTable.openSize ≤
        (accounts.get side).positionTable.openSize + if fill.side = side then fill.size else 0 := by
  by_cases same : fill.side = side
  · subst same
    have opened := TradeAccounts.onFill_open accounts fill opens
    rw [opened.total, opened.positionTable, if_pos rfl]
    exact ⟨by omega, word32_le rfl⟩
  · have kept := TradeAccounts.onFill_other accounts fill same
    rw [kept.total, kept.positionTable]
    exact ⟨nonneg, Nat.le_add_right _ _⟩

/-- After open fills the position is not negative, and there are no more lots
than were opened. -/
theorem onFill_run_opened (accounts : TradeAccounts) (side : OrderAccountType)
    (nonneg : 0 ≤ (accounts.get side).total) (fills : List TradeAccounts.Fill)
    (opens : ∀ fill ∈ fills, fill.isOpen = true) :
    0 ≤ ((run TradeAccounts.onFill accounts fills).get side).total ∧
      ((run TradeAccounts.onFill accounts fills).get side).positionTable.openSize ≤
        (accounts.get side).positionTable.openSize + openedLots side fills := by
  induction fills generalizing accounts with
  | nil => exact ⟨nonneg, Nat.le_refl _⟩
  | cons fill rest ih =>
      obtain ⟨first, later⟩ := List.forall_mem_cons.mp opens
      obtain ⟨positive, atMost⟩ := onFill_opened accounts side nonneg first
      obtain ⟨end', most⟩ := ih (accounts.onFill fill) positive later
      rw [run_cons, openedLots_cons]
      exact ⟨end', by omega⟩

/-- Two open fills at one price leave what one of their sum leaves, after any
open fills on a pair of accounts as constructed. -/
theorem onOpenFill_parts {α : Type} (longName shortName symbol : Text) (divisor : ℕ)
    (longPrice shortPrice : ℚ) (fills : List TradeAccounts.Fill)
    (opens : ∀ fill ∈ fills, fill.isOpen = true) (order : OrderInfo α) (side : OrderAccountType)
    (orderId : ℕ) (price : ℚ) {a b : ℕ} (aPos : 0 < a) (bPos : 0 < b)
    (fits : openedLots side fills + a + b < 2 ^ 32) :
    let accounts := run TradeAccounts.onFill
      (.init longName shortName symbol divisor longPrice shortPrice) fills
    let opening : Opening α := { accounts, order }
    Opening.Same ((opening.onOpenFill side orderId price a).onOpenFill side orderId price b)
      (opening.onOpenFill side orderId price (a + b)) := by
  intro accounts opening
  obtain ⟨nonneg, most⟩ := onFill_run_opened
    (.init longName shortName symbol divisor longPrice shortPrice) side
    (by cases side <;> exact le_rfl) fills opens
  have empty : ((TradeAccounts.init longName shortName symbol divisor longPrice shortPrice).get
      side).positionTable.openSize = 0 := by
    cases side <;> rfl
  rw [empty, Nat.zero_add] at most
  have within : (accounts.get side).positionTable.openSize + a + b < 2 ^ 32 := by
    change ((run TradeAccounts.onFill _ fills).get side).positionTable.openSize + a + b < 2 ^ 32
    omega
  exact Opening.onOpenFill_onOpenFill nonneg aPos bPos within orderId price

/-- A short account that comes level with the long one in the second part. -/
theorem onOpenFill_parts_level :
    let accounts := run TradeAccounts.onFill (.init ['L'] ['S'] ['X'] 1 0 0)
      [{ side := .long, isOpen := true, orderId := 1, price := 10, size := 5 }]
    let opening : Opening Unit := { accounts, order := .new 12 5 }
    Opening.Same ((opening.onOpenFill .short 2 12 3).onOpenFill .short 2 12 2)
      (opening.onOpenFill .short 2 12 5) :=
  onOpenFill_parts ['L'] ['S'] ['X'] 1 0 0 _ (by decide) _ .short 2 12 (by decide) (by decide)
    (by decide)

end TradingApp.Account
