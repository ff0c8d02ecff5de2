import TradingApp.Instance.Tracked

/-!
# What a case asks of the gateway

The log records a request once the gateway has accepted it.  The price of a
request is fixed before the reply comes, so that what holds of the accepted
requests whatever the replies are holds of all requests.
-/

namespace TradingApp.Instance

open TradingApp.Account TradingApp.Transition

/-- The orders and replacements accepted so far, newest first. -/
def Context.accepted (context : Context) : List Acceptance :=
  acceptances context.log

/-- An order of `size` shares is sent: its price is positive, and it is not too
large for the trade account or its order account. -/
def TradeInstance.Sends (inst : TradeInstance) (side : OrderAccountType) (price : ℚ)
    (size : ℕ) : Prop :=
  let lots := size / (inst.accounts.get side).divisor
  0 < price ∧ lots ≤ maximumOrderLimit ∧ lots ≤ orderAccountMaximumLimit

instance (inst : TradeInstance) (side : OrderAccountType) (price : ℚ) (size : ℕ) :
    Decidable (inst.Sends side price size) :=
  inferInstanceAs (Decidable (_ ∧ _))

theorem nextReply_accepted : Keeps (Unchanged Context.accepted) nextReply := by
  refine keeps_nextReply (fun _ _ => rfl) fun context callback => ?_
  cases callback with
  | fill | counters | requoteOrderDone | tradeSendClose => rfl

theorem modifyInst_accepted (f : TradeInstance → TradeInstance) :
    Keeps (Unchanged Context.accepted) (modifyInst f) :=
  fun _ => rfl

theorem modifyCase_accepted (f : TradeCase → TradeCase) :
    Keeps (Unchanged Context.accepted) (modifyCase f) :=
  modifyInst_accepted _

theorem setState_accepted (state : CaseState) :
    Keeps (Unchanged Context.accepted) (setState state) :=
  modifyCase_accepted _

theorem checkOrderStatus_accepted (account : Option OrderAccountType) :
    Keeps (Unchanged Context.accepted) (checkOrderStatus account) := by
  cases account with
  | none => exact keeps_pure false
  | some side => exact nextReply_accepted.bind fun _ => keeps_pure _

theorem cancelAll_accepted (account : Option OrderAccountType) :
    Keeps (Unchanged Context.accepted) (cancelAll account) := by
  cases account with
  | none => exact keeps_pure ()
  | some side =>
      exact (modifyInst_accepted _).bind fun _ => nextReply_accepted.bind fun _ _ => rfl

/-- The id in the gateway's next reply. -/
def Context.answer (context : Context) : ℕ :=
  context.takeReply.1.id

/-- An order that is sent is accepted if an id comes back. -/
theorem sendOrder_accepted {side : OrderAccountType} {price : ℚ} {size : ℕ}
    {event : OrderAccountType → ℕ → ℕ → ℚ → Event}
    (isOrder : ∀ side id size price, (event side id size price).acceptance = some ⟨side, id, price⟩)
    (count : ℕ → TradeAccount → TradeAccount) (context : Context) :
    ((sendOrder (some side) price size event count).run context).2.accepted =
      if context.inst.Sends side price size ∧ context.answer ≠ 0 then
        ⟨side, context.answer, price⟩ :: context.accepted
      else context.accepted := by
  have waited : (nextReply.run context).2.accepted = context.accepted :=
    nextReply_accepted context
  unfold sendOrder
  simp only [run_getInst_bind]
  split
  · rename_i stops
    have notSent : ¬ context.inst.Sends side price size := by
      rintro ⟨positive, fits, fitsOrders⟩
      rcases stops with nonpositive | tooLarge | tooLarge
      · exact absurd positive (not_lt.mpr nonpositive)
      · exact absurd fits (Nat.not_le.mpr tooLarge)
      · exact absurd fitsOrders (Nat.not_le.mpr tooLarge)
    rw [if_neg fun both => notSent both.1]
    rfl
  · rename_i sends
    rw [not_or, not_or, not_le, Nat.not_lt, Nat.not_lt] at sends
    rw [run_bind]
    split
    · rename_i refused
      rw [if_neg fun both => both.2 refused]
      exact waited
    · rename_i answered
      rw [if_pos ⟨sends, answered⟩, ← waited]
      exact List.filterMap_cons_some (isOrder side _ _ price)

theorem openOrder_accepted (side : OrderAccountType) (price : ℚ) (size : ℕ) (context : Context) :
    ((openOrder (some side) price size).run context).2.accepted =
      if context.inst.Sends side price size ∧ context.answer ≠ 0 then
        ⟨side, context.answer, price⟩ :: context.accepted
      else context.accepted :=
  sendOrder_accepted (fun _ _ _ _ => rfl) _ context

theorem closeOrder_accepted (side : OrderAccountType) (price : ℚ) (size : ℕ) (context : Context) :
    ((closeOrder (some side) price size).run context).2.accepted =
      if context.inst.Sends side price size ∧ context.answer ≠ 0 then
        ⟨side, context.answer, price⟩ :: context.accepted
      else context.accepted :=
  sendOrder_accepted (fun _ _ _ _ => rfl) _ context

/-- A replacement of the same size is accepted if an id comes back that is not the
order's own. -/
theorem changeOrder_accepted (side : OrderAccountType) (requestId : ℕ) (newPrice : ℚ)
    (context : Context) :
    ((changeOrder (some side) requestId newPrice 0).run context).2.accepted =
      if context.answer = 0 ∨ context.answer = requestId then context.accepted
      else ⟨side, context.answer, newPrice⟩ :: context.accepted := by
  have waited : (nextReply.run context).2.accepted = context.accepted :=
    nextReply_accepted context
  unfold changeOrder
  simp only [run_getInst_bind, Nat.zero_div]
  rw [run_bind]
  split
  · rename_i refused
    have refused : context.answer = 0 ∨ context.answer = requestId := refused
    rw [if_pos refused]
    exact waited
  · rename_i answered
    have answered : ¬ (context.answer = 0 ∨ context.answer = requestId) := answered
    rw [if_neg answered, ← waited]
    rfl

/-! ## States up to the held case -/

namespace TradeInstance

variable (inst : TradeInstance) (tradeCase : Option TradeCase) (trigger : TriggerState)

/-- The instance holding another case. -/
def holding : TradeInstance :=
  { inst with tradeCase }

/-- The instance under another trigger. -/
def under : TradeInstance :=
  { inst with triggerState := trigger }

@[simp]
theorem holding_position : (inst.holding tradeCase).position = inst.position :=
  rfl

@[simp]
theorem holding_closePrice : (inst.holding tradeCase).closePrice = inst.closePrice :=
  rfl

@[simp]
theorem holding_oppositePnl : (inst.holding tradeCase).oppositePnl = inst.oppositePnl :=
  rfl

@[simp]
theorem holding_sends : (inst.holding tradeCase).Sends = inst.Sends :=
  rfl

@[simp]
theorem selectRoles_holding : selectRoles (inst.holding tradeCase) = selectRoles inst :=
  rfl

@[simp]
theorem under_sends : (inst.under trigger).Sends = inst.Sends :=
  rfl

end TradeInstance

/-- The instance is the given one, up to its case, and the replies and the
accepted requests are the given ones. -/
structure At (inst : TradeInstance) (replies : List Reply) (accepted : List Acceptance)
    (context : Context) : Prop where
  inst : ∃ tradeCase, context.inst = inst.holding tradeCase
  replies : context.replies = replies
  accepted : context.accepted = accepted

/-- The id in the next of some replies. -/
def nextId (replies : List Reply) : ℕ :=
  (replies.head?.getD .refused).id

section At

variable {inst : TradeInstance} {replies : List Reply} {accepted : List Acceptance} {α : Type}
  {Q : α → Context → Prop} {context : Context}

theorem At.answer (here : At inst replies accepted context) : context.answer = nextId replies := by
  rw [← here.replies]
  unfold Context.answer Context.takeReply nextId
  cases context.replies <;> rfl

theorem at_getInst_bind {m : TradeInstance → CaseM α}
    (next : ∀ tradeCase, Leads (At inst replies accepted) (m (inst.holding tradeCase)) Q) :
    Leads (At inst replies accepted) (getInst >>= m) Q := by
  intro context before
  obtain ⟨tradeCase, same⟩ := before.inst
  rw [run_getInst_bind, same]
  exact next tradeCase context before

theorem at_modifyCase (f : TradeCase → TradeCase) :
    Leads (At inst replies accepted) (modifyCase f) fun _ => At inst replies accepted := by
  intro context before
  obtain ⟨tradeCase, same⟩ := before.inst
  exact ⟨⟨tradeCase.map f, by rw [modifyCase, run_modifyInst, Context.mapInst, same]; rfl⟩,
    before.replies, before.accepted⟩

theorem at_setTrigger :
    Leads (At inst replies accepted) setTrigger fun _ =>
      At (inst.under (selectTrigger inst)) replies accepted := by
  intro context before
  obtain ⟨tradeCase, same⟩ := before.inst
  refine ⟨⟨tradeCase, ?_⟩, before.replies, before.accepted⟩
  rw [setTrigger, run_modifyInst, Context.mapInst, same]
  rfl

/-- The end of the program accepts nothing. -/
theorem at_crash :
    Leads (At inst replies accepted) crash fun _ later => later.accepted = accepted :=
  fun _ before => before.accepted

/-- What follows a call and asks nothing leaves what is accepted. -/
theorem accepted_bind {m : CaseM α} {f : α → CaseM Unit}
    (later : ∀ a, Keeps (Unchanged Context.accepted) (f a)) (context : Context) :
    ((m >>= f).run context).2.accepted = (m.run context).2.accepted := by
  rw [run_bind]
  exact later _ _

end At

end TradingApp.Instance
