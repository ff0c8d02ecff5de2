import TradingApp.Instance.Requests

/-!
# Closing at no loss

A soft close is to close the larger account without a loss.  It takes the
trigger for the account it closes to be the one that opens the other account,
while the price and the profit it computes are those of closing the account
the trigger opens.  What it sends is therefore a loss unless it breaks even.
-/

namespace TradingApp.Instance

open TradingApp.Account TradingApp.Machine TradingApp.Transition

/-- Closing the account of a side at a price is no loss against its average. -/
def TradeInstance.NoLoss (inst : TradeInstance) (side : OrderAccountType) (price : ℚ) : Prop :=
  match side with
  | .long => price - inst.average (some .long) ≥ 0
  | .short => inst.average (some .short) - price ≥ 0

/-- Whatever the gateway replies, everything that is sent closes at no loss. -/
def ClosesAtNoLoss (inst : TradeInstance) (m : CaseM Unit) : Prop :=
  ∀ replies, ∀ accepted ∈ (m.run ⟨inst, replies, []⟩).2.accepted,
    inst.NoLoss accepted.side accepted.price

/-- Under this trigger, prices and profits are those of closing the account. -/
def TriggerState.Closes (trigger : TriggerState) (side : OrderAccountType) : Prop :=
  match side with
  | .long => trigger = .positive
  | .short => trigger = .negative

/-- What closing the account of a side earns under a trigger. -/
def TradeInstance.pnlUnder (inst : TradeInstance) (trigger : TriggerState)
    (side : OrderAccountType) (price : ℚ) : ℚ :=
  (inst.under trigger).oppositePnl (some side) price

instance (inst : TradeInstance) (side : OrderAccountType) (price : ℚ) :
    Decidable (inst.NoLoss side price) := by
  unfold TradeInstance.NoLoss
  cases side <;> infer_instance

instance decidableTriggerCloses (trigger : TriggerState) (side : OrderAccountType) :
    Decidable (trigger.Closes side) := by
  unfold TriggerState.Closes
  cases side <;> infer_instance

/-- Under the right trigger, what is no loss to the code is none. -/
theorem noLoss_of_closes {inst : TradeInstance} {trigger : TriggerState}
    {side : OrderAccountType} {price : ℚ} (closes : trigger.Closes side)
    (noLoss : ¬ inst.pnlUnder trigger side price < 0) : inst.NoLoss side price := by
  cases side with
  | long | short =>
      cases closes
      exact not_lt.mp noLoss

/-- Under any other trigger, what is a loss is none to the code. -/
theorem noLoss_of_pnl_neg {inst : TradeInstance} {trigger : TriggerState}
    {side : OrderAccountType} {price : ℚ} (opens : ¬ trigger.Closes side)
    (loss : inst.pnlUnder trigger side price < 0) : inst.NoLoss side price := by
  cases side with
  | long =>
      cases trigger with
      | init => exact absurd loss (lt_irrefl 0)
      | positive => exact absurd rfl opens
      | negative =>
          change inst.average (some .long) - price < 0 at loss
          change price - inst.average (some .long) ≥ 0
          linarith
  | short =>
      cases trigger with
      | init => exact absurd loss (lt_irrefl 0)
      | negative => exact absurd rfl opens
      | positive =>
          change price - inst.average (some .short) < 0 at loss
          change inst.average (some .short) - price ≥ 0
          linarith

theorem noLoss_or_iff {inst : TradeInstance} {trigger : TriggerState} {side : OrderAccountType}
    {price : ℚ} :
    (¬ inst.pnlUnder trigger side price < 0 → inst.NoLoss side price) ↔
      trigger.Closes side ∨ inst.NoLoss side price := by
  constructor
  · intro sent
    by_cases loss : inst.pnlUnder trigger side price < 0
    · by_cases closes : trigger.Closes side
      · exact Or.inl closes
      · exact Or.inr (noLoss_of_pnl_neg closes loss)
    · exact Or.inr (sent loss)
  · rintro (closes | noLoss) noPnl
    · exact noLoss_of_closes closes noPnl
    · exact noLoss

namespace SoftClose

/-- What `init` sends to be closed, and at which price. -/
def initRequest (inst : TradeInstance) (case : TradeCase) : Option (OrderAccountType × ℚ) :=
  match selectRoles inst case with
  | (some current, some side) =>
      let closeSize := word32 (inst.position (some side) - inst.position (some current))
      let price := (inst.under (selectTrigger inst)).closePrice closeSize 0
      if inst.pnlUnder (selectTrigger inst) side price < 0 then none
      else if inst.Sends side price closeSize then some (side, price)
      else none
  | _ => none

/-- What `reprice` asks to be changed, and to which price. -/
def repriceRequest (inst : TradeInstance) (case : TradeCase) : Option (OrderAccountType × ℚ) :=
  match case.oppositeAcc with
  | none => none
  | some side =>
      let price := inst.closePrice case.closeSize 0
      if inst.position (some side) = inst.position case.currentAcc then none
      else if case.sendPrice = price ∨ inst.oppositePnl (some side) price < 0 then none
      else some (side, price)

/-- What is accepted once a request is answered with an id. -/
def answered (request : Option (OrderAccountType × ℚ)) (id : ℕ) (accepted : List Acceptance) :
    List Acceptance :=
  match request with
  | none => accepted
  | some (side, price) => ⟨side, id, price⟩ :: accepted

section

variable {inst : TradeInstance} {replies : List Reply} {accepted : List Acceptance}

theorem init_leads (case : TradeCase) :
    Leads (At inst replies accepted) (init case) fun _ later =>
      later.accepted =
        if nextId replies = 0 then accepted
        else answered (initRequest inst case) (nextId replies) accepted := by
  unfold init
  refine at_getInst_bind fun tradeCase => ?_
  refine (Leads.whenever (fun _ => at_modifyCase _) fun _ _ here => here).bind fun _ => ?_
  refine at_setTrigger.bind fun _ => ?_
  rw [TradeInstance.selectRoles_holding]
  unfold initRequest
  rcases selectRoles inst case with ⟨current, opposite⟩
  cases current with
  | none =>
      rw [if_pos (Or.inl rfl)]
      refine at_crash.post fun _ _ accepts => ?_
      rw [answered, ite_self]
      exact accepts
  | some current =>
  cases opposite with
  | none =>
      rw [if_pos (Or.inr rfl)]
      refine at_crash.post fun _ _ accepts => ?_
      rw [answered, ite_self]
      exact accepts
  | some side =>
      rw [if_neg (by simp), TradeInstance.holding_position]
      dsimp only
      generalize word32 (inst.position (some side) - inst.position (some current)) = closeSize
      refine (at_modifyCase _).bind fun _ => at_getInst_bind fun tradeCase => ?_
      rw [TradeInstance.holding_closePrice, TradeInstance.holding_oppositePnl]
      generalize (inst.under (selectTrigger inst)).closePrice closeSize 0 = price
      refine (at_modifyCase _).bind fun _ => .ite (fun loss => ?_) fun noLoss => ?_
      · have loss : inst.pnlUnder (selectTrigger inst) side price < 0 := loss
        refine leads_pure fun _ here => ?_
        rw [if_pos loss, answered, ite_self]
        exact here.accepted
      · have noLoss : ¬ inst.pnlUnder (selectTrigger inst) side price < 0 := noLoss
        intro context here
        obtain ⟨tradeCase, same⟩ := here.inst
        refine (accepted_bind (fun _ => (modifyCase_accepted _).bind fun _ =>
          setState_accepted _) context).trans ?_
        have unchanged : context.inst.Sends side price closeSize ↔
            inst.Sends side price closeSize := by
          rw [same, TradeInstance.holding_sends, TradeInstance.under_sends]
        rw [closeOrder_accepted, here.answer, here.accepted, if_neg noLoss]
        by_cases sends : inst.Sends side price closeSize
        · by_cases refused : nextId replies = 0 <;> simp [unchanged, sends, refused, answered]
        · simp [unchanged, sends, answered]

theorem reprice_leads (case : TradeCase) :
    Leads (At inst replies accepted) (reprice case) fun _ later =>
      later.accepted =
        if nextId replies = 0 ∨ nextId replies = case.mainOrderId then accepted
        else answered (repriceRequest inst case) (nextId replies) accepted := by
  unfold reprice repriceRequest
  refine at_getInst_bind fun tradeCase => ?_
  rw [TradeInstance.holding_position, TradeInstance.holding_closePrice,
    TradeInstance.holding_oppositePnl]
  cases opposite : case.oppositeAcc with
  | none =>
      refine .ite (fun _ => ?_) fun _ => .ite (fun _ => ?_) fun _ => ?_
      · refine (at_modifyCase _).post fun _ _ here => ?_
        rw [answered, ite_self]
        exact here.accepted
      · refine leads_pure fun _ here => ?_
        rw [answered, ite_self]
        exact here.accepted
      · intro context here
        refine (accepted_bind (fun _ => (Keeps.whenever (setState_accepted _)).bind fun _ =>
          modifyCase_accepted _) context).trans ?_
        rw [answered, ite_self]
        exact here.accepted
  | some side =>
      dsimp only
      refine .ite (fun equal => ?_) fun differ => ?_
      · refine (at_modifyCase _).post fun _ _ here => ?_
        rw [if_pos equal, answered, ite_self]
        exact here.accepted
      · rw [if_neg differ]
        generalize inst.closePrice case.closeSize 0 = price
        refine .ite (fun stays => ?_) fun asks => ?_
        · refine leads_pure fun _ here => ?_
          rw [if_pos stays, answered, ite_self]
          exact here.accepted
        · intro context here
          refine (accepted_bind (fun _ => (Keeps.whenever (setState_accepted _)).bind fun _ =>
            modifyCase_accepted _) context).trans ?_
          rw [changeOrder_accepted, here.answer, here.accepted, if_neg asks]
          rfl

end

/-- What a call asks, if anything, closes at no loss exactly if everything it
gets accepted does, whatever is replied. -/
theorem closesAtNoLoss_iff {inst : TradeInstance} {m : CaseM Unit}
    {request : Option (OrderAccountType × ℚ)} (refused : ℕ → Prop) [DecidablePred refused]
    (id : ℕ) (accepts : ¬ refused id)
    (outcome : ∀ replies, (m.run ⟨inst, replies, []⟩).2.accepted =
      if refused (nextId replies) then [] else answered request (nextId replies) []) :
    ClosesAtNoLoss inst m ↔ ∀ asked ∈ request, inst.NoLoss asked.1 asked.2 := by
  constructor
  · intro noLoss asked isRequest
    have result := outcome [acknowledged id]
    have answer : nextId [acknowledged id] = id := rfl
    rw [answer, if_neg accepts, Option.mem_def.mp isRequest] at result
    have accepted := noLoss [acknowledged id]
    rw [result] at accepted
    exact accepted _ List.mem_cons_self
  · intro noLoss replies accepted member
    rw [outcome replies] at member
    split at member
    · exact absurd member List.not_mem_nil
    · cases request with
      | none => exact absurd member List.not_mem_nil
      | some asked =>
          rw [List.mem_singleton.mp member]
          exact noLoss asked rfl

/-- Closing an account under a trigger, at the price for an order of `size`
shares, is safe: the trigger is the one of that account, or the price is no
loss, or no such order is sent. -/
def Harmless (inst : TradeInstance) (trigger : TriggerState) (side : OrderAccountType)
    (size : ℕ) : Prop :=
  let price := (inst.under trigger).closePrice size 0
  trigger.Closes side ∨ inst.NoLoss side price ∨ ¬ inst.Sends side price size

/-- `init` closes the larger account under the trigger of the other one, or,
when the positions are equal, nothing of the opposite account. -/
def InitHarmless (inst : TradeInstance) (case : TradeCase) : Prop :=
  let short := inst.position (some .short)
  let long := inst.position (some .long)
  if short > long then Harmless inst .positive .short (word32 (short - long))
  else if short < long then Harmless inst .negative .long (word32 (long - short))
  else
    match case.currentAcc, case.oppositeAcc with
    | some _, some side => Harmless inst inst.triggerState side 0
    | _, _ => True

/-- `reprice` asks nothing, or the trigger is the one of the opposite account,
or the new price is no loss. -/
def RepriceHarmless (inst : TradeInstance) (case : TradeCase) : Prop :=
  match case.oppositeAcc with
  | none => True
  | some side =>
      let price := inst.closePrice case.closeSize 0
      inst.position (some side) = inst.position case.currentAcc ∨ case.sendPrice = price ∨
        inst.triggerState.Closes side ∨ inst.NoLoss side price

variable {inst : TradeInstance}

/-- An order under a trigger is safe exactly if it is no loss where the code
sees none. -/
theorem harmless_iff (trigger : TriggerState) (side : OrderAccountType) (size : ℕ) :
    Harmless inst trigger side size ↔
      ∀ asked ∈
        (if inst.pnlUnder trigger side ((inst.under trigger).closePrice size 0) < 0 then none
        else if inst.Sends side ((inst.under trigger).closePrice size 0) size then
          some (side, (inst.under trigger).closePrice size 0)
        else none), inst.NoLoss asked.1 asked.2 := by
  unfold Harmless
  dsimp only
  generalize (inst.under trigger).closePrice size 0 = price
  rw [← or_assoc, ← noLoss_or_iff]
  by_cases loss : inst.pnlUnder trigger side price < 0
  · simp [loss]
  · by_cases sends : inst.Sends side price size <;> simp [loss, sends]

theorem position_eq_of_equal (equal : inst.position (some .short) = inst.position (some .long))
    (first second : OrderAccountType) :
    inst.position (some first) = inst.position (some second) := by
  cases first <;> cases second <;> first | rfl | exact equal | exact equal.symm

theorem initHarmless_iff (case : TradeCase) :
    InitHarmless inst case ↔
      ∀ asked ∈ initRequest inst case, inst.NoLoss asked.1 asked.2 := by
  unfold InitHarmless initRequest selectRoles selectTrigger
  dsimp only
  split
  · exact harmless_iff .positive .short _
  · split
    · exact harmless_iff .negative .long _
    · rename_i notShort notLong
      have equal : inst.position (some .short) = inst.position (some .long) :=
        le_antisymm (not_lt.mp notShort) (not_lt.mp notLong)
      cases case.currentAcc with
      | none => simp
      | some current =>
          cases case.oppositeAcc with
          | none => simp
          | some side =>
              have none :
                  word32 (inst.position (some side) - inst.position (some current)) = 0 := by
                rw [position_eq_of_equal equal side current, sub_self]
                rfl
              dsimp only
              rw [none]
              exact harmless_iff inst.triggerState side 0

theorem repriceHarmless_iff (case : TradeCase) :
    RepriceHarmless inst case ↔
      ∀ asked ∈ repriceRequest inst case, inst.NoLoss asked.1 asked.2 := by
  unfold RepriceHarmless repriceRequest
  cases case.oppositeAcc with
  | none => simp
  | some side =>
      dsimp only
      generalize inst.closePrice case.closeSize 0 = price
      have same : inst.oppositePnl (some side) price = inst.pnlUnder inst.triggerState side price :=
        rfl
      rw [← noLoss_or_iff, same]
      by_cases equal : inst.position (some side) = inst.position case.currentAcc
      · simp [equal]
      · by_cases stays : case.sendPrice = price
        · simp [equal, stays]
        · by_cases loss : inst.pnlUnder inst.triggerState side price < 0 <;>
            simp [equal, stays, loss]

end SoftClose

/-- In every state and for every quote, whatever is replied: `init` sends no
loss if and only if it closes an account under its own trigger, or at a price
that is none, or sends nothing; and so for the price that `reprice` asks. -/
theorem softClose_noLoss_iff (inst : TradeInstance) (case : TradeCase) :
    (ClosesAtNoLoss inst (SoftClose.init case) ↔ SoftClose.InitHarmless inst case) ∧
      (ClosesAtNoLoss inst (SoftClose.reprice case) ↔ SoftClose.RepriceHarmless inst case) := by
  rw [SoftClose.initHarmless_iff, SoftClose.repriceHarmless_iff]
  have start (replies : List Reply) : At inst replies [] ⟨inst, replies, []⟩ :=
    ⟨⟨inst.tradeCase, rfl⟩, rfl, rfl⟩
  constructor
  · exact SoftClose.closesAtNoLoss_iff (· = 0) 1 Nat.one_ne_zero fun replies =>
      SoftClose.init_leads case _ (start replies)
  · exact SoftClose.closesAtNoLoss_iff (fun id => id = 0 ∨ id = case.mainOrderId)
      (case.mainOrderId + 1) (by omega) fun replies =>
        SoftClose.reprice_leads case _ (start replies)

/-- Ten lots are bought at 10, and the quote falls to 9. -/
def boughtAtTen (inst : TradeInstance) : TradeInstance :=
  let fill : TradeAccounts.Fill :=
    { side := .long, isOpen := true, orderId := 1, price := 10, size := 10 }
  { inst.onCallback (.fill fill) with
    askSize := 1000, askPrice := 901 / 100, bidSize := 1000, bidPrice := 9 }

/-- The soft close sells them. -/
theorem not_softClose_noLoss_boughtAtTen :
    ∃ inst, TradeInstance.construct .roundLots .zero nothingStored = some inst ∧
      ¬ ClosesAtNoLoss (boughtAtTen inst)
        (SoftClose.init (TradeCase.create (boughtAtTen inst) .softClose)) := by
  have sells : (TradeInstance.construct .roundLots .zero nothingStored).map (fun inst =>
      decide (∃ accepted ∈ ((SoftClose.init (TradeCase.create (boughtAtTen inst) .softClose)).run
          ⟨boughtAtTen inst, [acknowledged 1], []⟩).2.accepted,
        ¬ (boughtAtTen inst).NoLoss accepted.side accepted.price)) = some true := by
    decide +kernel
  obtain ⟨inst, constructs, loss⟩ := Option.map_eq_some_iff.mp sells
  obtain ⟨accepted, member, loses⟩ := of_decide_eq_true loss
  exact ⟨inst, constructs, fun noLoss => loses (noLoss [acknowledged 1] accepted member)⟩

end TradingApp.Instance
