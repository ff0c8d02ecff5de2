import TradingApp.Account.Fills
import TradingApp.Instance.Modes
import TradingApp.Orders.Book

/-!
# Panic close

From the moment panic mode is entered the only orders sent are those of a
panic close, and the log tells what became of them.  While each of them that is
replaced or superseded is out of the market, what has been closed and what may
still be closed stay within the imbalance at the start, so that the positions
meet but do not cross.

Nothing in the code sees to it that they are out of the market: with more live
orders than allowed every pass starts another panic close, and the earlier one
cancels its order only if it is configured to.
-/

namespace TradingApp.Instance

open TradingApp.Account TradingApp.Machine TradingApp.Orders TradingApp.Redis
  TradingApp.Transition

/-! ## The orders of a panic close -/

/-- Orders are told apart by their account and their request id. -/
abbrev OrderKey :=
  OrderAccountType × ℕ

/-- What an event does to the book of closing orders. -/
def Event.applyTo (book : Book OrderKey) : Event → Book OrderKey
  | .opened _ _ _ _ => book
  | .closed side id size _ => book.place (side, id) size
  | .changed side id newId newSize _ => book.replace (side, id) (side, newId) newSize
  | .cancelled side ids => book.cancel (ids.map fun id => (side, id))
  | .filled fill => book.fill (fill.side, fill.orderId) fill.size

/-- The book of closing orders after a log, which is newest first. -/
def closeBook : List Event → Book OrderKey
  | [] => []
  | event :: earlier => event.applyTo (closeBook earlier)

/-- A fill is of a live closing order and within its size; a replacement
accepted is of a live closing order without fills. -/
def Event.Admitted (book : Book OrderKey) : Event → Prop
  | .changed side id _ _ _ => book.CanReplace (side, id)
  | .filled fill => fill.isOpen = false ∧ book.CanFill (fill.side, fill.orderId) fill.size
  | .opened _ _ _ _ | .closed _ _ _ _ | .cancelled _ _ => True

instance (book : Book OrderKey) : (event : Event) → Decidable (event.Admitted book)
  | .changed side id _ _ _ => inferInstanceAs (Decidable (book.CanReplace (side, id)))
  | .filled _ => inferInstanceAs (Decidable (_ ∧ _))
  | .opened _ _ _ _ | .closed _ _ _ _ | .cancelled _ _ => inferInstanceAs (Decidable True)

/-- Only the closing orders of the log are filled or replaced. -/
def OnlyCloses : List Event → Prop
  | [] => True
  | event :: earlier => OnlyCloses earlier ∧ event.Admitted (closeBook earlier)

instance OnlyCloses.decidable : (log : List Event) → Decidable (OnlyCloses log)
  | [] => inferInstanceAs (Decidable True)
  | event :: earlier =>
      letI := OnlyCloses.decidable earlier
      inferInstanceAs (Decidable (OnlyCloses earlier ∧ event.Admitted (closeBook earlier)))

/-- The lots closed on an account. -/
def closedLots (side : OrderAccountType) : List Event → ℕ
  | [] => 0
  | .filled fill :: earlier =>
      if fill.side = side ∧ fill.isOpen = false then closedLots side earlier + fill.size
      else closedLots side earlier
  | _ :: earlier => closedLots side earlier

/-! ## The imbalance bounds the exposure -/

/-- Both accounts count in lots of `divisor` shares. -/
def SameDivisor (divisor : ℕ) (context : Context) : Prop :=
  ∀ side, (context.inst.accounts.get side).divisor = divisor

section Bounded

variable (divisor : ℕ) (entry : TradeAccounts) (larger : OrderAccountType)

/-- How much larger the larger account was. -/
def imbalance : ℤ :=
  (entry.get larger).total - (entry.get larger.opposite).total

/-- Accounts and log agree on what was closed of the larger account, and the
exposure is within the imbalance. -/
structure Bounded (context : Context) : Prop where
  divisors : SameDivisor divisor context
  large : (context.inst.accounts.get larger).total =
    (entry.get larger).total - closedLots larger context.log
  small : (context.inst.accounts.get larger.opposite).total =
    (entry.get larger.opposite).total
  sides : ∀ key ∈ (closeBook context.log).keys, key.1 = larger
  filled : (closeBook context.log).filledLots = closedLots larger context.log
  exposure : ((closeBook context.log).exposure : ℤ) ≤ imbalance entry larger

/-- If only closing orders are filled, they were before, and the bounds are
kept. -/
def KeepsBounds (first last : Context) : Prop :=
  OnlyCloses last.log → OnlyCloses first.log ∧
    (Bounded divisor entry larger first → Bounded divisor entry larger last)

instance : Std.Refl (KeepsBounds divisor entry larger) :=
  ⟨fun _ only => ⟨only, id⟩⟩

instance : IsTrans Context (KeepsBounds divisor entry larger) :=
  ⟨fun _ _ _ one two only =>
    have before := two only
    have first := one before.1
    ⟨first.1, fun bounded => before.2 (first.2 bounded)⟩⟩

end Bounded

section Calls

variable {divisor : ℕ} {entry : TradeAccounts} {larger : OrderAccountType}

/-- The bounds speak about the totals, the divisors and the log. -/
theorem keepsBounds_of_same {first last : Context} (log : last.log = first.log)
    (total : ∀ side, (last.inst.accounts.get side).total = (first.inst.accounts.get side).total)
    (sameDivisor : ∀ side, (last.inst.accounts.get side).divisor =
      (first.inst.accounts.get side).divisor) :
    KeepsBounds divisor entry larger first last := by
  intro only
  rw [log] at only
  refine ⟨only, fun bounded => ?_⟩
  constructor
  · intro side
    rw [sameDivisor]
    exact bounded.divisors side
  · rw [total, log]
    exact bounded.large
  · rw [total]
    exact bounded.small
  · rw [log]
    exact bounded.sides
  · rw [log]
    exact bounded.filled
  · rw [log]
    exact bounded.exposure

/-- An admitted fill moves lots from the live part of the exposure to the
closed part. -/
theorem fill_keepsBounds (context : Context) (fill : TradeAccounts.Fill) :
    KeepsBounds divisor entry larger context (context.onCallback (.fill fill)) := by
  rintro ⟨only, isClose, canFill⟩
  refine ⟨only, fun bounded => ?_⟩
  have side : fill.side = larger := by
    obtain ⟨order, found, _⟩ := canFill
    exact bounded.sides _ (Book.mem_keys_of_lookup found)
  have closed : closedLots larger (.filled fill :: context.log) =
      closedLots larger context.log + fill.size :=
    if_pos ⟨side, isClose⟩
  constructor
  · intro other
    exact (TradeAccounts.onFill_divisor _ fill other).trans (bounded.divisors other)
  · have total := TradeAccounts.onFill_total context.inst.accounts fill
    rw [side, bounded.large, TradeAccounts.Fill.signedSize, isClose] at total
    change ((context.inst.accounts.onFill fill).get larger).total =
      _ - (closedLots larger (.filled fill :: context.log) : ℕ)
    rw [total, closed]
    simp only [Bool.false_eq_true, if_false]
    omega
  · have different : fill.side ≠ larger.opposite := by
      rw [side]
      cases larger <;> decide
    exact (TradeAccounts.onFill_other context.inst.accounts fill different).total.trans
      bounded.small
  · change ∀ key ∈ (Book.fill (closeBook context.log) _ _).keys, _
    rw [Book.keys_fill]
    exact bounded.sides
  · change (Book.fill _ _ _).filledLots = closedLots larger (.filled fill :: context.log)
    rw [Book.filledLots_fill canFill, bounded.filled, closed]
  · change ((Book.fill _ _ _).exposure : ℤ) ≤ _
    rw [Book.exposure_fill canFill]
    exact bounded.exposure

theorem modifyAccount_same (inst : TradeInstance) (side : OrderAccountType)
    {f : TradeAccount → TradeAccount} {β : Type} {get : TradeAccount → β}
    (same : ∀ account, get (f account) = get account) (other : OrderAccountType) :
    get ((inst.modifyAccount side f).accounts.get other) = get (inst.accounts.get other) := by
  cases side <;> cases other
  · exact same _
  · rfl
  · rfl
  · exact same _

theorem onTradeSendClose_same (inst : TradeInstance) (price : ℚ) (size : ℕ) {β : Type}
    {get : TradeAccount → β}
    (same : ∀ account price size, get (account.closePending price size) = get account)
    (other : OrderAccountType) :
    get ((inst.onTradeSendClose price size).accounts.get other) =
      get (inst.accounts.get other) := by
  unfold TradeInstance.onTradeSendClose
  split
  · rfl
  · split
    · dsimp only
      split
      · rfl
      · exact modifyAccount_same inst _ (fun account => same account _ _) other
    · rfl

theorem onCallback_keepsBounds (context : Context) (callback : Callback) :
    KeepsBounds divisor entry larger context (context.onCallback callback) := by
  cases callback with
  | fill fill => exact fill_keepsBounds context fill
  | counters side openBy closeBy executedBy =>
      apply keepsBounds_of_same (by rfl)
      · exact modifyAccount_same context.inst side fun _ => rfl
      · exact modifyAccount_same context.inst side fun _ => rfl
  | requoteOrderDone => exact keepsBounds_of_same rfl (fun _ => rfl) fun _ => rfl
  | tradeSendClose price size =>
      apply keepsBounds_of_same (by rfl)
      · exact onTradeSendClose_same context.inst price size fun _ _ _ => rfl
      · exact onTradeSendClose_same context.inst price size fun _ _ _ => rfl

theorem nextReply_keepsBounds : Keeps (KeepsBounds divisor entry larger) nextReply :=
  keeps_nextReply (fun _ _ => keepsBounds_of_same rfl (fun _ => rfl) fun _ => rfl)
    onCallback_keepsBounds

theorem modifyInst_keepsBounds {f : TradeInstance → TradeInstance}
    (same : ∀ inst, (f inst).accounts = inst.accounts) :
    Keeps (KeepsBounds divisor entry larger) (modifyInst f) := by
  intro context
  apply keepsBounds_of_same (by rfl)
  · intro side
    exact congrArg (fun accounts => (accounts.get side).total) (same context.inst)
  · intro side
    exact congrArg (fun accounts => (accounts.get side).divisor) (same context.inst)

theorem modifyAccount_keepsBounds (side : OrderAccountType) {f : TradeAccount → TradeAccount}
    (total : ∀ account, (f account).total = account.total)
    (sameDivisor : ∀ account, (f account).divisor = account.divisor) :
    Keeps (KeepsBounds divisor entry larger) (modifyAccount side f) :=
  fun context => keepsBounds_of_same rfl (modifyAccount_same context.inst side total)
    (modifyAccount_same context.inst side sameDivisor)

/-- A confirmed cancellation lowers the exposure. -/
theorem record_cancelled_keepsBounds (side : OrderAccountType) (ids : List ℕ) :
    Keeps (KeepsBounds divisor entry larger) (record (.cancelled side ids)) := by
  rintro context ⟨only, _⟩
  refine ⟨only, fun bounded => ?_⟩
  constructor
  · exact bounded.divisors
  · exact bounded.large
  · exact bounded.small
  · change ∀ key ∈ (Book.cancel (closeBook context.log) _).keys, _
    rw [Book.keys_cancel]
    exact bounded.sides
  · exact (Book.filledLots_cancel _ _).trans bounded.filled
  · have lower := Book.exposure_cancel_le (closeBook context.log) (ids.map fun id => (side, id))
    exact (Int.ofNat_le.mpr lower).trans bounded.exposure

/-- A replacement of an order without fills keeps the exposure. -/
theorem record_changed_keepsBounds (side : OrderAccountType) (id newId : ℕ) (newPrice : ℚ) :
    Keeps (KeepsBounds divisor entry larger) (record (.changed side id newId 0 newPrice)) := by
  rintro context ⟨only, canReplace⟩
  refine ⟨only, fun bounded => ?_⟩
  obtain ⟨order, found, live, unfilled⟩ := canReplace
  constructor
  · exact bounded.divisors
  · exact bounded.large
  · exact bounded.small
  · intro key member
    rcases Book.mem_keys_replace member with older | ⟨rfl, replaced⟩
    · exact bounded.sides key older
    · exact bounded.sides (side, id) replaced
  · exact (Book.filledLots_replace _ _ _ _).trans bounded.filled
  · have exposure : (Book.replace _ _ (side, newId) 0).exposure = _ :=
      Book.exposure_replace found live (by omega)
    rw [unfilled, Nat.add_zero] at exposure
    exact (Int.ofNat_le.mpr exposure.le).trans bounded.exposure

/-- A new closing order adds its lots to the exposure. -/
theorem record_closed_keepsBounds {account : OrderAccountType} {id size : ℕ} {price : ℚ}
    {context : Context}
    (fits : Bounded divisor entry larger context → account = larger ∧
      ((closeBook context.log).exposure + size : ℤ) ≤ imbalance entry larger) :
    KeepsBounds divisor entry larger context
      ((record (.closed account id size price)).run context).2 := by
  rintro ⟨only, _⟩
  refine ⟨only, fun bounded => ?_⟩
  obtain ⟨rfl, within⟩ := fits bounded
  constructor
  · exact bounded.divisors
  · exact bounded.large
  · exact bounded.small
  · intro key member
    rcases List.mem_cons.mp member with rfl | older
    · rfl
    · exact bounded.sides key older
  · exact (Book.filledLots_place _ _ _).trans bounded.filled
  · change ((Book.place (closeBook context.log) _ _).exposure : ℤ) ≤ _
    rw [Book.exposure_place]
    exact within

/-- Waiting only moves lots within the exposure. -/
def KeepsExposure (first last : Context) : Prop :=
  OnlyCloses last.log → OnlyCloses first.log ∧
    (closeBook last.log).exposure = (closeBook first.log).exposure

instance : Std.Refl KeepsExposure :=
  ⟨fun _ only => ⟨only, rfl⟩⟩

instance : IsTrans Context KeepsExposure :=
  ⟨fun _ _ _ one two only =>
    have before := two only
    have first := one before.1
    ⟨first.1, before.2.trans first.2⟩⟩

theorem nextReply_keepsExposure : Keeps KeepsExposure nextReply := by
  apply keeps_nextReply
  · exact fun _ _ only => ⟨only, rfl⟩
  · intro context callback
    cases callback with
    | fill fill => exact fun only => ⟨only.1, Book.exposure_fill only.2.2⟩
    | counters side openBy closeBy executedBy => exact fun only => ⟨only, rfl⟩
    | requoteOrderDone => exact fun only => ⟨only, rfl⟩
    | tradeSendClose price size => exact fun only => ⟨only, rfl⟩

/-- A closing order of the larger account keeps the bounds if its lots fit
under the imbalance. -/
theorem closeOrder_keepsBounds {account : Option OrderAccountType} {price : ℚ} {size : ℕ}
    {context : Context}
    (fits : Bounded divisor entry larger context → account = some larger ∧
      ((closeBook context.log).exposure + (size / divisor : ℕ) : ℤ) ≤ imbalance entry larger) :
    KeepsBounds divisor entry larger context ((closeOrder account price size).run context).2 := by
  cases account with
  | none => exact Std.Refl.refl context
  | some side =>
      unfold closeOrder sendOrder
      rw [run_getInst_bind]
      dsimp only
      split
      · exact Std.Refl.refl context
      · have waits : KeepsBounds divisor entry larger context (nextReply.run context).2 :=
          nextReply_keepsBounds context
        have exposure : KeepsExposure context (nextReply.run context).2 :=
          nextReply_keepsExposure context
        rw [run_bind]
        generalize nextReply.run context = waited at waits exposure
        split
        · exact waits
        · intro only
          have before := waits only.1
          refine ⟨before.1, fun bounded => ?_⟩
          obtain ⟨account, within⟩ := fits bounded
          rw [← (exposure only.1).2, ← bounded.divisors side] at within
          let lots := size / (context.inst.accounts.get side).divisor
          let count (account : TradeAccount) : TradeAccount :=
            { account with totalClose := account.totalClose + lots }
          let counted := ((modifyAccount side count).run waited.2).2
          have counts : KeepsBounds divisor entry larger waited.2 counted :=
            modifyAccount_keepsBounds side (f := count) (fun _ => rfl) (fun _ => rfl) waited.2
          have records : KeepsBounds divisor entry larger counted
              ((record (.closed side waited.1.id lots price)).run counted).2 :=
            record_closed_keepsBounds fun _ => ⟨Option.some.inj account, within⟩
          exact (records only).2 ((counts only.1).2 (before.2 bounded))

/-- A change of price replaces an order by one of its size. -/
theorem changeOrder_keepsBounds (account : Option OrderAccountType) (requestId : ℕ)
    (newPrice : ℚ) :
    Keeps (KeepsBounds divisor entry larger) (changeOrder account requestId newPrice 0) := by
  cases account with
  | none => exact keeps_pure 0
  | some side =>
      refine keeps_getInst.bind fun inst => nextReply_keepsBounds.bind fun reply => ?_
      refine .ite (fun _ => keeps_pure _) fun _ => .ite (fun _ => keeps_pure _) fun _ => ?_
      rw [Nat.zero_div]
      exact (record_changed_keepsBounds side requestId reply.id newPrice).bind fun _ => keeps_pure _

theorem cancelAll_keepsBounds (account : Option OrderAccountType) :
    Keeps (KeepsBounds divisor entry larger) (cancelAll account) := by
  cases account with
  | none => exact keeps_pure ()
  | some side =>
      refine .bind ?_ fun _ => nextReply_keepsBounds.bind fun reply =>
        record_cancelled_keepsBounds side reply.cancelled
      exact modifyAccount_keepsBounds side
        (f := fun account => { account with pendingOrders := [] })
        (fun _ => rfl) fun _ => rfl

end Calls

/-! ## The case -/

section Case

variable {divisor : ℕ} {entry : TradeAccounts} {larger : OrderAccountType}

theorem setState_keepsBounds (state : CaseState) :
    Keeps (KeepsBounds divisor entry larger) (setState state) :=
  modifyInst_keepsBounds fun _ => rfl

theorem modifyCase_keepsBounds (f : TradeCase → TradeCase) :
    Keeps (KeepsBounds divisor entry larger) (modifyCase f) :=
  modifyInst_keepsBounds fun _ => rfl

theorem setTrigger_keepsBounds : Keeps (KeepsBounds divisor entry larger) setTrigger :=
  modifyInst_keepsBounds fun _ => rfl

theorem waitEqual_keepsBounds (case : TradeCase) :
    Keeps (KeepsBounds divisor entry larger) (waitEqual case) :=
  keeps_getInst.bind fun _ => (setState_keepsBounds .done).whenever

theorem panicClose_reprice_keepsBounds (case : TradeCase) :
    Keeps (KeepsBounds divisor entry larger) (PanicClose.reprice case) := by
  refine keeps_getInst.bind fun inst => .ite (fun _ => setState_keepsBounds .done) fun _ => ?_
  refine .ite (fun _ => keeps_pure ()) fun _ => (changeOrder_keepsBounds _ _ _).bind fun _ => ?_
  exact .ite (fun _ => setState_keepsBounds .wait) fun _ => modifyCase_keepsBounds _

/-- The larger account is larger by what is left of the imbalance. -/
theorem Bounded.difference {context : Context} (bounded : Bounded divisor entry larger context) :
    (context.inst.accounts.get larger).total - (context.inst.accounts.get larger.opposite).total =
      imbalance entry larger - closedLots larger context.log := by
  rw [bounded.large, bounded.small, imbalance]
  omega

theorem Bounded.closed_le {context : Context} (bounded : Bounded divisor entry larger context) :
    (closedLots larger context.log : ℤ) ≤ imbalance entry larger := by
  have exposure := bounded.exposure
  rw [Book.exposure, bounded.filled] at exposure
  omega

/-- The larger account is still not the smaller one. -/
theorem Bounded.not_crossed {context : Context} (bounded : Bounded divisor entry larger context) :
    (context.inst.accounts.get larger.opposite).total ≤
      (context.inst.accounts.get larger).total := by
  have difference := bounded.difference
  have closed := bounded.closed_le
  omega

/-- A panic close chooses the larger account to close, and no more than what
it is larger by. -/
theorem selectRoles_larger {inst : TradeInstance} (case : TradeCase)
    (unequal : inst.position (some .short) ≠ inst.position (some .long))
    (divisors : ∀ side, (inst.accounts.get side).divisor = divisor)
    (order : (inst.accounts.get larger.opposite).total ≤ (inst.accounts.get larger).total) :
    selectRoles inst case = (some larger.opposite, some larger) ∧
      ((word32 (inst.position (some larger) - inst.position (some larger.opposite)) / divisor :
        ℕ) : ℤ) ≤ (inst.accounts.get larger).total - (inst.accounts.get larger.opposite).total := by
  have position (side : OrderAccountType) :
      inst.position (some side) = (inst.accounts.get side).total * divisor := by
    rw [← divisors side]
    rfl
  have ordered : inst.position (some larger.opposite) ≤ inst.position (some larger) := by
    rw [position, position]
    exact Int.mul_le_mul_of_nonneg_right order (Int.natCast_nonneg divisor)
  constructor
  · unfold selectRoles
    cases larger with
    | long => exact (if_neg (not_lt.mpr ordered)).trans (if_pos (lt_of_le_of_ne ordered unequal))
    | short => exact if_pos (lt_of_le_of_ne ordered unequal.symm)
  · obtain ⟨lots, difference⟩ := Int.eq_ofNat_of_zero_le (sub_nonneg.mpr order)
    have shares : inst.position (some larger) - inst.position (some larger.opposite) =
        ((divisor * lots : ℕ) : ℤ) := by
      rw [position, position, ← sub_mul, difference, mul_comm]
      rfl
    rw [difference]
    exact Int.ofNat_le.mpr (Nat.div_le_of_le_mul (word32_le shares))

/-- A panic close that starts with no live order of an earlier one keeps the
bounds. -/
theorem panicClose_init_keepsBounds {context : Context} (case : TradeCase)
    (flat : (closeBook context.log).liveLots = 0) :
    KeepsBounds divisor entry larger context ((PanicClose.init case).run context).2 := by
  unfold PanicClose.init
  rw [run_getInst_bind]
  dsimp only
  split
  · exact setState_keepsBounds .done context
  · rename_i unequal
    let inst := context.inst
    let roles := selectRoles inst case
    let sendPrice := marketPrice inst (selectTrigger inst)
    let closeSize := word32 (inst.position roles.2 - inst.position roles.1)
    let prepared := ((do
      setTrigger
      modifyCase fun case =>
        { case with currentAcc := roles.1, oppositeAcc := roles.2, sendPrice, closeSize }).run
      context).2
    have prepares : KeepsBounds divisor entry larger context prepared :=
      (setTrigger_keepsBounds.bind fun _ => modifyCase_keepsBounds _) context
    have closes : KeepsBounds divisor entry larger prepared
        ((closeOrder roles.2 sendPrice closeSize).run prepared).2 := by
      refine closeOrder_keepsBounds fun bounded => ?_
      obtain ⟨chosen, within⟩ :=
        selectRoles_larger case unequal bounded.divisors bounded.not_crossed
      have difference :
          (inst.accounts.get larger).total - (inst.accounts.get larger.opposite).total =
        imbalance entry larger - closedLots larger prepared.log := bounded.difference
      have exposure : (closeBook prepared.log).exposure = closedLots larger prepared.log := by
        rw [Book.exposure, bounded.filled]
        exact congrArg (closedLots larger prepared.log + ·) flat
      have size : closeSize =
          word32 (inst.position (some larger) - inst.position (some larger.opposite)) := by
        change word32 (inst.position (selectRoles inst case).2 -
          inst.position (selectRoles inst case).1) = _
        rw [chosen]
      refine ⟨congrArg Prod.snd chosen, ?_⟩
      rw [exposure, size]
      linarith only [within, difference]
    have finishes (id : ℕ) : Keeps (KeepsBounds divisor entry larger) (do
        modifyCase fun case => { case with mainOrderId := id }
        setState (if id = 0 then .failed else .priceChange)) :=
      (modifyCase_keepsBounds _).bind fun _ => setState_keepsBounds _
    exact IsTrans.trans _ _ _ prepares (IsTrans.trans _ _ _ closes (finishes _ _))

theorem destroy_keepsBounds (case : TradeCase) :
    Keeps (KeepsBounds divisor entry larger) case.destroy := by
  apply keeps_destroy
  · intro account f same
    cases account with
    | none => exact keeps_pure ()
    | some side =>
        exact modifyAccount_keepsBounds side (fun account => (same account).total)
          fun account => (same account).divisor
  · exact cancelAll_keepsBounds
  · intro f waits
    refine modifyInst_keepsBounds fun inst => ?_
    obtain ⟨_, _, same⟩ := waits inst
    rw [same]

theorem replaceCase_keepsBounds (tradeCase : Option TradeCase) :
    Keeps (KeepsBounds divisor entry larger) (replaceCase tradeCase) := by
  refine keeps_getInst.bind fun inst => .bind (modifyInst_keepsBounds fun _ => rfl) fun _ => ?_
  cases inst.tradeCase with
  | none => exact keeps_pure ()
  | some old => exact destroy_keepsBounds old

end Case

/-! ## Panic mode -/

/-- Panic mode is on, and a panic close is held or about to be. -/
def Modes.Panic (modes : Modes) : Prop :=
  modes.isPanicClose = true ∧ (modes.panicCloseInit = true ∨ modes.held = some .panicClose)

/-- When a panic close is about to be started, no order of an earlier one is
live with lots to fill. -/
def StartsFlat (context : Context) : Label → Prop
  | .pass quote replies =>
      context.Running → 0 < (context.quoted quote replies).inst.priceEstimate →
        ∀ case ∈ (selection.run (context.quoted quote replies)).2.inst.tradeCase,
          case.type = .panicClose → case.state = .init →
            (closeBook (selection.run (context.quoted quote replies)).2.log).liveLots = 0
  | .disablePanicClose => False
  | _ => True

instance (context : Context) : (label : Label) → Decidable (StartsFlat context label)
  | .pass _ _ => inferInstanceAs (Decidable (_ → _ → ∀ _ ∈ _, _ → _ → _))
  | .disablePanicClose => inferInstanceAs (Decidable False)
  | .callback _ | .enablePanicClose | .enableSoftClose | .disableSoftClose | .resume | .pause
  | .avicennaToggle | .stopAction _ => inferInstanceAs (Decidable True)

section Panic

variable {divisor : ℕ} {entry : TradeAccounts} {larger : OrderAccountType}

theorem checked_panic {context : Context} (panic : context.modes.Panic) :
    context.checked.modes.Panic := by
  rcases checked_modes context with same | same
  · rw [same]
    exact panic
  · rw [same]
    exact ⟨rfl, Or.inl rfl⟩

/-- In panic mode a selection leaves a panic close to run. -/
theorem selection_panic_holds {context : Context} (panic : context.modes.Panic) :
    (selection.run context).2.modes.isPanicClose = true ∧
      (selection.run context).2.modes.held = some .panicClose := by
  have checked := checked_panic panic
  rw [selection_panic checked.1, createPanicClose_modes]
  refine ⟨checked.1, ?_⟩
  dsimp only
  split
  · rfl
  · rename_i notAsked
    exact checked.2.resolve_left notAsked

theorem createPanicClose_keepsBounds (inst : TradeInstance) :
    Keeps (KeepsBounds divisor entry larger) (createPanicClose inst) :=
  keeps_getInst.bind fun _ => .whenever <|
    .bind (modifyInst_keepsBounds fun _ => rfl) fun _ => replaceCase_keepsBounds _

theorem selection_panic_keepsBounds {context : Context} (panic : context.modes.Panic) :
    KeepsBounds divisor entry larger context (selection.run context).2 := by
  have checks : KeepsBounds divisor entry larger context context.checked := by
    have noted : Keeps (KeepsBounds divisor entry larger) (modifyInst fun inst =>
        { inst with tradePrice := inst.priceEstimate }) :=
      modifyInst_keepsBounds fun _ => rfl
    have destructs : Keeps (KeepsBounds divisor entry larger)
        (modifyInst TradeInstance.selfDestruct) :=
      modifyInst_keepsBounds fun inst => by
        unfold TradeInstance.selfDestruct
        split <;> rfl
    exact (noted.bind fun _ => destructs) context
  rw [selection_panic (checked_panic panic).1]
  exact IsTrans.trans _ _ _ checks (createPanicClose_keepsBounds _ context.checked)

/-- The held panic close runs within the bounds if it starts flat. -/
theorem panicClose_run_keepsBounds {context : Context} {case : TradeCase}
    (isPanic : case.type = .panicClose)
    (flat : case.state = .init → (closeBook context.log).liveLots = 0) :
    KeepsBounds divisor entry larger context (case.run.run context).2 := by
  unfold TradeCase.run TradeCase.init TradeCase.reprice TradeCase.wait
  rw [isPanic]
  cases state : case.state with
  | init => exact panicClose_init_keepsBounds case (flat state)
  | priceChange => exact panicClose_reprice_keepsBounds case context
  | wait => exact waitEqual_keepsBounds case context
  | done | failed | notSelected => exact Std.Refl.refl context

theorem finishCase_keepsBounds : Keeps (KeepsBounds divisor entry larger) finishCase := by
  refine keeps_getInst.bind fun inst => ?_
  cases inst.tradeCase with
  | none => exact keeps_pure ()
  | some case =>
      refine .ite (fun _ => .whenever (modifyInst_keepsBounds fun _ => rfl)) fun _ => .whenever ?_
      exact .bind (modifyInst_keepsBounds fun _ => rfl) fun _ => replaceCase_keepsBounds _

theorem runCase_keepsBounds {context : Context} (held : context.modes.held = some .panicClose)
    (flat : ∀ case ∈ context.inst.tradeCase, case.type = .panicClose → case.state = .init →
      (closeBook context.log).liveLots = 0) :
    KeepsBounds divisor entry larger context (runCase.run context).2 := by
  obtain ⟨case, present, isPanic⟩ := Option.map_eq_some_iff.mp held
  have finishes : Keeps (KeepsBounds divisor entry larger) (unlessCrashed do
      modifyInst fun inst =>
        { inst with lastState := (inst.tradeCase.map TradeCase.state).getD inst.lastState }
      finishCase) :=
    keeps_unlessCrashed <|
      .bind (modifyInst_keepsBounds fun _ => rfl) fun _ => finishCase_keepsBounds
  unfold runCase
  rw [run_getInst_bind, present]
  exact IsTrans.trans _ _ _ (panicClose_run_keepsBounds isPanic (flat case present isPanic))
    (finishes _)

/-- A panic close that is held stays held. -/
theorem runCase_panic {context : Context} (isPanicClose : context.modes.isPanicClose = true)
    (held : context.modes.held = some .panicClose) : (runCase.run context).2.modes.Panic := by
  rcases runCase_modes context with same | ⟨_, same⟩ | ⟨⟨type, present, opens⟩, _⟩
  · rw [same]
    exact ⟨isPanicClose, Or.inr held⟩
  · rw [same]
    exact ⟨isPanicClose, Or.inr held⟩
  · rw [held] at present
    cases present
    exact absurd (Or.inl rfl) opens

/-! ## Runs -/

/-- In panic mode, and within the bounds as long as only closing orders are
filled. -/
def PanicBounded (divisor : ℕ) (entry : TradeAccounts) (larger : OrderAccountType)
    (context : Context) : Prop :=
  context.modes.Panic ∧ (OnlyCloses context.log → Bounded divisor entry larger context)

theorem PanicBounded.step {context next : Context}
    (bounded : PanicBounded divisor entry larger context) (panic : next.modes.Panic)
    (keeps : KeepsBounds divisor entry larger context next) :
    PanicBounded divisor entry larger next :=
  ⟨panic, fun only => (keeps only).2 (bounded.2 (keeps only).1)⟩

theorem pass_panicBounded {context : Context} {quote : Quote} {replies : List Reply}
    (bounded : PanicBounded divisor entry larger context)
    (flat : StartsFlat context (.pass quote replies)) :
    PanicBounded divisor entry larger (context.step (.pass quote replies)) := by
  have reads : KeepsBounds divisor entry larger context (context.quoted quote replies) :=
    keepsBounds_of_same rfl (fun _ => rfl) fun _ => rfl
  by_cases active : context.Running ∧ 0 < (context.quoted quote replies).inst.priceEstimate
  · have panic : (context.quoted quote replies).modes.Panic := bounded.1
    obtain ⟨isPanicClose, held⟩ := selection_panic_holds panic
    let selected := (selection.run (context.quoted quote replies)).2
    have selects : KeepsBounds divisor entry larger (context.quoted quote replies) selected :=
      selection_panic_keepsBounds panic
    have runs : KeepsBounds divisor entry larger selected (runCase.run selected).2 :=
      runCase_keepsBounds held (flat active.1 active.2)
    have writes : KeepsBounds divisor entry larger (runCase.run selected).2
        ((runCase.run selected).2.mapInst writeBack) :=
      modifyInst_keepsBounds writeBack_accounts _
    have stays : ((runCase.run selected).2.mapInst writeBack).modes.Panic := by
      rw [writeBack_modes]
      exact runCase_panic isPanicClose held
    have stepped : context.step (.pass quote replies) =
        (runCase.run selected).2.mapInst writeBack :=
      Context.step_pass active.1 active.2
    rw [stepped]
    exact bounded.step stays <| IsTrans.trans _ _ _ reads <| IsTrans.trans _ _ _ selects <|
      IsTrans.trans _ _ _ runs writes
  · exact Context.step_pass_skipped active bounded (bounded.step bounded.1 reads)

/-- In panic mode every step that starts flat keeps the bounds. -/
theorem step_panicBounded (context : Context) (label : Label)
    (bounded : PanicBounded divisor entry larger context) (flat : StartsFlat context label) :
    PanicBounded divisor entry larger (context.step label) := by
  have same (f : TradeInstance → TradeInstance)
      (accounts : ∀ inst, (f inst).accounts = inst.accounts)
      (panic : (context.mapInst f).modes.Panic) :
      PanicBounded divisor entry larger (context.mapInst f) :=
    bounded.step panic (modifyInst_keepsBounds accounts context)
  refine Context.step_cases (fun _ => bounded) fun _ => ?_
  cases label with
  | pass quote replies =>
      rw [Context.act_pass]
      exact pass_panicBounded bounded flat
  | callback callback =>
      have panic : (context.onCallback callback).modes.Panic := by
        rw [onCallback_modes]
        exact bounded.1
      exact bounded.step panic (onCallback_keepsBounds context callback)
  | stopAction replies =>
      have stops : KeepsBounds divisor entry larger { context with replies }
          (context.act (.stopAction replies)) :=
        Context.act_stopAction cancelAll_keepsBounds (modifyInst_keepsBounds fun _ => rfl) context
          replies
      have reads : KeepsBounds divisor entry larger context { context with replies } :=
        keepsBounds_of_same rfl (fun _ => rfl) fun _ => rfl
      have panic : (context.act (.stopAction replies)).modes.Panic := by
        rw [act_stopAction_modes]
        exact bounded.1
      exact bounded.step panic (IsTrans.trans _ _ _ reads stops)
  | enablePanicClose => exact same .enablePanicClose (fun _ => rfl) ⟨rfl, Or.inl rfl⟩
  | disablePanicClose => exact absurd flat id
  | enableSoftClose => exact same .enableSoftClose (fun _ => rfl) bounded.1
  | disableSoftClose => exact same .disableSoftClose (fun _ => rfl) bounded.1
  | resume => exact same (fun inst => { inst with isEnable := true }) (fun _ => rfl) bounded.1
  | pause => exact same (fun inst => { inst with isEnable := false }) (fun _ => rfl) bounded.1
  | avicennaToggle =>
      exact same (fun inst => { inst with avicennaToggle := !inst.avicennaToggle }) (fun _ => rfl)
        bounded.1

end Panic

/-! ## Entering panic mode -/

/-- Panic mode is entered by command, or by a pass that finds more live orders
than allowed. -/
def EntersPanic (context : Context) : Label → Prop
  | .enablePanicClose => context.inst.crashed = false
  | .pass quote replies =>
      context.Running ∧ 0 < (context.quoted quote replies).inst.priceEstimate ∧
        (context.quoted quote replies).inst.LiveLimitExceeded
  | _ => False

/-- A pass that enters panic mode selects as if the command had come before
it. -/
theorem selection_enters {context : Context} (exceeded : context.inst.LiveLimitExceeded) :
    selection.run context = selection.run (context.mapInst .enablePanicClose) := by
  have checked : (context.mapInst .enablePanicClose).checked = context.checked := by
    unfold Context.checked Context.mapInst TradeInstance.selfDestruct
    rw [if_pos (by exact exceeded), if_pos (by exact exceeded)]
    rfl
  have panic : context.checked.inst.isPanicClose = true := by
    unfold Context.checked Context.mapInst TradeInstance.selfDestruct
    rw [if_pos (by exact exceeded)]
    rfl
  rw [selection_panic panic, selection_panic (by rw [checked]; exact panic), checked]

/-- The first step in panic mode is one from a context in panic mode. -/
theorem enters_panicBounded {divisor : ℕ} {larger : OrderAccountType} {context : Context}
    {label : Label} (divisors : SameDivisor divisor context) (fresh : context.log = [])
    (order : (context.inst.accounts.get larger.opposite).total ≤
      (context.inst.accounts.get larger).total)
    (enters : EntersPanic context label) (flat : StartsFlat context label) :
    PanicBounded divisor context.inst.accounts larger (context.step label) := by
  have start : PanicBounded divisor context.inst.accounts larger
      (context.mapInst .enablePanicClose) := by
    refine ⟨⟨rfl, Or.inl rfl⟩, fun _ => ?_⟩
    have log : (context.mapInst .enablePanicClose).log = [] := fresh
    constructor
    · exact divisors
    · rw [log]
      exact (sub_zero _).symm
    · rfl
    · rw [log]
      exact List.forall_mem_nil _
    · rw [log]
      rfl
    · rw [log]
      exact sub_nonneg.mpr order
  cases label with
  | enablePanicClose =>
      rw [Context.step_of_alive enters]
      exact start
  | pass quote replies =>
      obtain ⟨running, positive, exceeded⟩ := enters
      have selects : selection.run (context.quoted quote replies) =
          selection.run ((context.mapInst .enablePanicClose).quoted quote replies) :=
        selection_enters exceeded
      have stepped : context.step (.pass quote replies) =
          (context.mapInst .enablePanicClose).step (.pass quote replies) := by
        rw [Context.step_pass running positive,
          Context.step_pass (by exact running) (by exact positive), run_bind, selects]
        rfl
      rw [stepped]
      refine pass_panicBounded start fun _ _ => ?_
      rw [← selects]
      exact flat running positive
  | callback | disablePanicClose | enableSoftClose | disableSoftClose | resume | pause
  | avicennaToggle | stopAction => exact absurd enters id

/-! ## Every run -/

theorem sameDivisor_frame (divisor : ℕ) : StepFrame (Preserves (SameDivisor divisor)) where
  replies _ _ divisors := divisors
  onCallback context callback divisors side := by
    cases callback with
    | fill fill => exact (TradeAccounts.onFill_divisor _ fill side).trans (divisors side)
    | counters account openBy closeBy executedBy =>
        have kept : ∀ side, ((context.inst.onCallback
            (.counters account openBy closeBy executedBy)).accounts.get side).divisor =
              (context.inst.accounts.get side).divisor :=
          modifyAccount_same context.inst account fun _ => rfl
        exact (kept side).trans (divisors side)
    | requoteOrderDone => exact divisors side
    | tradeSendClose price size =>
        exact (onTradeSendClose_same context.inst price size (fun _ _ _ => rfl) side).trans
          (divisors side)
  record _ _ divisors := divisors
  modifyAccount side f same context divisors other :=
    (modifyAccount_same context.inst side (fun account => (same account).divisor) other).trans
      (divisors other)
  modifyInst f same context divisors side := by
    change ((f context.inst).accounts.get side).divisor = divisor
    rw [same]
    exact divisors side

/-- No more is closed than the imbalance at the start, and the larger account
is still not the smaller one, if only closing orders were filled. -/
def ClosesWithin (entry : TradeAccounts) (larger : OrderAccountType) (context : Context) : Prop :=
  OnlyCloses context.log →
    (closedLots larger context.log : ℤ) ≤ imbalance entry larger ∧
      (context.inst.accounts.get larger.opposite).total ≤ (context.inst.accounts.get larger).total

instance (entry : TradeAccounts) (larger : OrderAccountType) :
    DecidablePred (ClosesWithin entry larger) :=
  fun _ => inferInstanceAs (Decidable (_ → _ ∧ _))

/-- From any state of a run of a new instance in which panic mode is entered,
and as long as it is not left and every panic close starts flat, the closing
orders of the larger account are never filled for more than the imbalance, and
the positions do not cross. -/
theorem panic_close_within_imbalance {config : Config} {uninitialized : Uninitialized}
    {writer : RedisWriter} {inst : TradeInstance}
    (constructs : TradeInstance.construct config uninitialized writer = some inst)
    (before : List Label) {larger : OrderAccountType} {label : Label} {labels : List Label} :
    let reached := run Context.step { inst, replies := [], log := [] } before
    let entry : Context := { reached with log := [] }
    EntersPanic entry label →
      (entry.inst.accounts.get larger.opposite).total ≤ (entry.inst.accounts.get larger).total →
        EveryStep Context.step StartsFlat entry (label :: labels) →
          EveryState Context.step (ClosesWithin entry.inst.accounts larger) entry
            (label :: labels) := by
  intro reached entry enters order flat
  have divisors : SameDivisor config.divisor reached :=
    (everyState_of_forall_step (sameDivisor_frame config.divisor).step
      (fun side => ((construct_books constructs).2 side).divisor) before).last
  have start : PanicBounded config.divisor entry.inst.accounts larger (entry.step label) :=
    enters_panicBounded divisors rfl order enters flat.1
  have states := everyState_of_everyStep step_panicBounded start flat.2
  refine ⟨fun _ => ⟨sub_nonneg.mpr order, order⟩, states.mono fun context bounded only => ?_⟩
  exact ⟨(bounded.2 only).closed_le, (bounded.2 only).not_crossed⟩

/-- The state in which panic mode is entered, after a pass that chose the trigger.
The log begins anew. -/
def afterTrigger (inst : TradeInstance) : Context :=
  { run Context.step { inst, replies := [], log := [] } [.pass (.around 10) []] with log := [] }

/-- A panic close of ten lots, filled. -/
def panicCloseOnce : List Label :=
  [.enablePanicClose, .pass (.around 9) [acknowledged 1],
    .callback (.fill { side := .long, isOpen := false, orderId := 1, price := 9, size := 10 })]

theorem panic_close_within_imbalance_once :
    ∃ inst, TradeInstance.construct .roundLots .zero tenLongLots = some inst ∧
      EveryState Context.step (ClosesWithin (afterTrigger inst).inst.accounts .long)
        (afterTrigger inst) panicCloseOnce := by
  have starts : (TradeInstance.construct .roundLots .zero tenLongLots).map (fun inst =>
      let entry := afterTrigger inst
      decide (entry.inst.crashed = false ∧
        (entry.inst.accounts.get .short).total ≤ (entry.inst.accounts.get .long).total ∧
        EveryStep Context.step StartsFlat entry panicCloseOnce)) = some true := by
    decide +kernel
  obtain ⟨inst, constructs, holds⟩ := Option.map_eq_some_iff.mp starts
  obtain ⟨alive, order, flat⟩ := of_decide_eq_true holds
  exact ⟨inst, constructs, panic_close_within_imbalance constructs [.pass (.around 10) []] alive
    order flat⟩

/-- The order sent leaves more than five lots live, so the next pass sends
another one, and both are filled. -/
def panicCloseTwice : List Label :=
  [.enablePanicClose, .pass (.around 9) [acknowledged 1], .pass (.around 9) [acknowledged 2],
    .callback (.fill { side := .long, isOpen := false, orderId := 1, price := 9, size := 10 }),
    .callback (.fill { side := .long, isOpen := false, orderId := 2, price := 9, size := 10 })]

/-- No pass of it ends the program. -/
theorem not_closesWithin_twice :
    ∃ inst, TradeInstance.construct .roundLots .zero tenLongLots = some inst ∧
      (run Context.step (afterTrigger inst) panicCloseTwice).inst.crashed = false ∧
        ¬ EveryState Context.step (ClosesWithin (afterTrigger inst).inst.accounts .long)
          (afterTrigger inst) panicCloseTwice := by
  have crosses : (TradeInstance.construct .roundLots .zero tenLongLots).map (fun inst =>
      let entry := afterTrigger inst
      decide ((run Context.step entry panicCloseTwice).inst.crashed = false ∧
        ¬ EveryState Context.step (ClosesWithin entry.inst.accounts .long) entry
          panicCloseTwice)) = some true := by
    decide +kernel
  obtain ⟨inst, constructs, fails⟩ := Option.map_eq_some_iff.mp crosses
  exact ⟨inst, constructs, of_decide_eq_true fails⟩

end TradingApp.Instance
