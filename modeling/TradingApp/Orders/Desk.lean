import TradingApp.Orders.Handover
import TradingApp.Orders.Threads

/-!
# The order accounts of both sides

A symbol has an account on each side, and one trading thread for both.  What one
order account does leaves the other alone, except that a fill that opens also
sets the spread of the symbol's other account.

As long as its trading thread does not run, the two accounts of a symbol change
by fills and by their counters only.
-/

namespace TradingApp.Account

open TradingApp.Orders

namespace TradeAccount

variable {α : Type} (account : TradeAccount)

/-- Move the live counters and the counter of executed lots. -/
def count (openBy closeBy executedBy : ℤ) : TradeAccount :=
  { account with
    totalOpen := account.totalOpen + openBy
    totalClose := account.totalClose + closeBy
    totalExecuted := account.totalExecuted + executedBy }

/-- Only counters are moved. -/
def Counts (after : TradeAccount) : Prop :=
  ∃ openBy closeBy executedBy, after = account.count openBy closeBy executedBy

theorem Counts.refl : account.Counts account := by
  refine ⟨0, 0, 0, ?_⟩
  simp [count]

variable {account}

theorem Counts.trans {middle after : TradeAccount} (first : account.Counts middle)
    (second : middle.Counts after) : account.Counts after := by
  obtain ⟨open₁, close₁, executed₁, rfl⟩ := first
  obtain ⟨open₂, close₂, executed₂, rfl⟩ := second
  refine ⟨open₁ + open₂, close₁ + close₂, executed₁ + executed₂, ?_⟩
  simp only [count, add_assoc]

variable (account)

theorem counts_addLive (request : RequestType) (lots : ℤ) :
    account.Counts (account.addLive request lots) := by
  cases request with
  | «open» =>
      refine ⟨lots, 0, 0, ?_⟩
      simp [count, addLive]
  | close =>
      refine ⟨0, lots, 0, ?_⟩
      simp [count, addLive]

theorem counts_subtractLive (info : OrderInfo α) (lots : ℕ) :
    account.Counts (account.subtractLive info lots) := by
  unfold subtractLive
  split
  · exact counts_addLive account _ _
  · exact .refl account

theorem counts_countDone (info : OrderInfo α) : account.Counts (account.countDone info) := by
  apply (counts_subtractLive account info info.size).trans
  refine ⟨0, 0, info.size, ?_⟩
  obtain ⟨openBy, closeBy, executedBy, same⟩ := counts_subtractLive account info info.size
  have executed : (account.subtractLive info info.size).totalExecuted = account.totalExecuted := by
    unfold subtractLive
    split
    · unfold addLive
      split <;> rfl
    · rfl
  simp [count, countDone, executed]

theorem counts_countChange (original changed : OrderInfo α) :
    account.Counts (account.countChange original changed) := by
  have twice (first second : RequestType) (less more : ℤ) :
      account.Counts ((account.addLive first less).addLive second more) :=
    (counts_addLive account first less).trans (counts_addLive _ second more)
  unfold countChange
  dsimp only
  split_ifs
  · exact twice _ _ _ _
  · exact twice _ _ _ _
  · exact twice _ _ _ _
  · exact twice _ _ _ _
  · exact .refl account

end TradeAccount

namespace TradeAccounts

theorem set_get (accounts : TradeAccounts) (side : OrderAccountType) :
    accounts.set side (accounts.get side) = accounts := by
  cases side <;> rfl

end TradeAccounts

end TradingApp.Account

namespace TradingApp.Orders

open TradingApp.Account TradingApp.Transition

/-! ## A thread in a call -/

namespace OrderSystem

variable {α : Type} [DecidableEq α] {system : OrderSystem α} {a : α} {wait : Wait} {id : ℕ}

/-- A thread that waits for an order goes on doing so, or gets no answer. -/
theorem advance_waiting {asleep : Bool} (sent : Bool)
    (thread : system.thread a = .waiting wait asleep) (posted : wait.posted = some id) :
    ((system.step (.advance a sent)).thread a).wait = some wait ∨
      ∃ returned, (system.step (.advance a sent)).thread a = .idle returned ∧
        ∀ request, wait = .acknowledgement request id → returned = 0 := by
  unfold step advance
  dsimp only
  rw [thread]
  dsimp only
  split
  · cases wait with
    | acknowledgement request key =>
        unfold leave
        dsimp only
        split
        · exact Or.inl (by simp [Thread.wait])
        · exact Or.inr ⟨0, by simp, fun _ _ => rfl⟩
    | change original key newSize =>
        unfold leave
        dsimp only
        split
        · exact Or.inl (by simp [Thread.wait])
        · refine Or.inr ⟨original, by simp, ?_⟩
          intro request same
          cases same
    | cancel key rest => cases posted
  · exact Or.inl (by simp [Thread.wait])

/-- A thread in `cancelAll` goes on with it, or reports a success. -/
theorem advance_toCancel {rest : List ℕ} (sent : Bool)
    (toCancel : (system.thread a).toCancel = some rest)
    (inCall : (system.thread a).isIdle = false) :
    (∃ rest, ((system.step (.advance a sent)).thread a).toCancel = some rest ∧
        ((system.step (.advance a sent)).thread a).isIdle = false) ∨
      (system.step (.advance a sent)).thread a = .idle 1 := by
  unfold step advance
  dsimp only
  cases thread : system.thread a with
  | idle returned =>
      rw [thread] at inCall
      cases inCall
  | acknowledged wait =>
      rw [thread] at toCancel
      cases toCancel
  | waiting wait asleep =>
      rw [thread] at toCancel
      cases wait with
      | acknowledgement | change => cases toCancel
      | cancel id others =>
          cases others with
          | none => cases toCancel
          | some others =>
              left
              dsimp only
              split
              · unfold leave
                dsimp only
                split
                · exact ⟨others, by simp [Thread.afterCancel, Thread.toCancel],
                    by simp [Thread.afterCancel, Thread.isIdle]⟩
                · exact ⟨others, by simp [Thread.afterCancel, Thread.toCancel],
                    by simp [Thread.afterCancel, Thread.isIdle]⟩
              · refine ⟨id :: others, ?_, by simp [Thread.isIdle]⟩
                simp [Thread.toCancel, Wait.toCancel]
  | cancelling rest =>
      cases rest with
      | nil => exact Or.inr (by simp [cancelNext])
      | cons id others =>
          left
          dsimp only [cancelNext]
          split
          · unfold cancel
            split
            · exact ⟨others, by simp [Thread.afterCancel, Thread.toCancel],
                by simp [Thread.afterCancel, Thread.isIdle]⟩
            · split
              · exact ⟨others, by simp [Thread.afterCancel, Thread.toCancel],
                  by simp [Thread.afterCancel, Thread.isIdle]⟩
              · rw [setThread_thread, Function.update_self]
                split
                · exact ⟨others, rfl, rfl⟩
                · exact ⟨id :: others, rfl, rfl⟩
          · exact ⟨others, by simp [Thread.toCancel], by simp [Thread.isIdle]⟩

/-- An order that is not sent returns at once; of one that is sent the thread waits
for the acknowledgement. -/
theorem post_begins (system : OrderSystem α) (request : RequestType) (a : α) (price : ℚ) (size : ℕ)
    (posting : Posting) :
    (system.post request a price size posting).account = system.account ∧
      ((system.post request a price size posting).thread a = .idle 0 ∨
        ¬ (price ≤ 0 ∨ size / (system.account a).divisor > maximumOrderLimit ∨
            size / (system.account a).divisor > orderAccountMaximumLimit) ∧
          (system.post request a price size posting).thread a =
            .waiting (.acknowledgement request (system.requestIdGenerator + 1)) false ∧
          (system.post request a price size posting).requestIdGenerator =
            system.requestIdGenerator + 1 ∧
          ((system.post request a price size posting).info (system.requestIdGenerator + 1)).size =
            size / (system.account a).divisor) := by
  unfold post
  dsimp only
  split
  · exact ⟨rfl, Or.inl (Function.update_self ..)⟩
  · rename_i passes
    split
    · exact ⟨rfl, Or.inl (Function.update_self ..)⟩
    · rename_i fits
      refine ⟨rfl, ?_⟩
      cases sent : posting.sent with
      | false => exact Or.inl (by simp)
      | true =>
          refine Or.inr ⟨?_, by simp, rfl, by simp [newInfo, OrderInfo.new]⟩
          rintro (nonpositive | tooLarge | tooLarge)
          · exact passes (.inl nonpositive)
          · exact passes (.inr tooLarge)
          · exact fits (.inl tooLarge)

/-- A change that is not sent returns zero or the order's own id; one that is sent
is not too large. -/
theorem change_begins (system : OrderSystem α) (a : α) (id : ℕ) (newPrice : ℚ) (newSize : ℕ)
    (posting : Posting) :
    (system.change a id newPrice newSize posting).account = system.account ∧
      ((∃ returned, (returned = 0 ∨ returned = id) ∧
          (system.change a id newPrice newSize posting).thread a = .idle returned) ∨
        newSize / (system.account a).divisor ≤ orderAccountMaximumLimit ∧
          (system.change a id newPrice newSize posting).thread a =
            .waiting (.change id (system.requestIdGenerator + 1) newSize) false) := by
  unfold change
  split
  · dsimp only
    split
    · exact ⟨rfl, Or.inl ⟨id, .inr rfl, by simp⟩⟩
    · rename_i passes
      split
      · refine ⟨rfl, Or.inr ⟨?_, by simp⟩⟩
        have fits := Nat.not_lt.mp fun tooLarge => passes (.inl tooLarge)
        unfold changedInfo OrderInfo.replacement at fits
        dsimp only at fits
        split at fits
        · rename_i kept
          rw [kept]
          exact Nat.zero_le _
        · exact fits
      · exact ⟨rfl, Or.inl ⟨id, .inr rfl, by simp⟩⟩
  · exact ⟨rfl, Or.inl ⟨0, .inl rfl, by simp⟩⟩

end OrderSystem

/-! ## Both sides -/

/-- The order accounts for long and for short positions. -/
structure Desk (α : Type) where
  long : OrderSystem α
  short : OrderSystem α

namespace Desk

variable {α : Type}

/-- No order has been sent. -/
def start (accounts : α → TradeAccounts) : Desk α where
  long := .start .long fun a => (accounts a).longAcc
  short := .start .short fun a => (accounts a).shortAcc

/-- The order account of a side. -/
def get (desk : Desk α) : OrderAccountType → OrderSystem α
  | .long => desk.long
  | .short => desk.short

/-- Replace the order account of a side. -/
def set (desk : Desk α) (side : OrderAccountType) (system : OrderSystem α) : Desk α :=
  match side with
  | .long => { desk with long := system }
  | .short => { desk with short := system }

/-- The two accounts of a symbol. -/
def accounts (desk : Desk α) (a : α) : TradeAccounts where
  longAcc := desk.long.account a
  shortAcc := desk.short.account a

variable [DecidableEq α]

/-- Whom a fill is passed to. -/
def filled (desk : Desk α) (side : OrderAccountType) (id : ℕ) : Option (α × RequestType) :=
  if id ∈ (desk.get side).orderHash then ((desk.get side).info id).onFillFunction else none

/-- A fill is told of the symbol's other account; nobody is told of the account that
the label gives. -/
def inform (desk : Desk α) (side : OrderAccountType) : OrderSystem.Label α → OrderSystem.Label α
  | .onFill id price size openSize unused =>
      .onFill id price size openSize
        (match desk.filled side id with
        | some (a, _) => (desk.get side.opposite).account a
        | none => unused)
  | label => label

/-- A fill that opens sets the spread of the other account. -/
def spread (desk : Desk α) (side : OrderAccountType) : OrderSystem.Label α → Desk α
  | .onFill id price size _ _ =>
      match desk.filled side id with
      | some (a, .open) =>
          let other := (desk.get side.opposite).account a
          desk.set side.opposite
            ((desk.get side.opposite).setAccount a
              (((desk.get side).account a).onOpenFill other id price size).2)
      | _ => desk
  | _ => desk

/-- A label of one of the order accounts. -/
abbrev Label (α : Type) : Type :=
  OrderAccountType × OrderSystem.Label α

/-- A label of one order account; of a fill the other one learns too. -/
def step (desk : Desk α) (label : Label α) : Desk α :=
  (desk.spread label.1 label.2).set label.1
    ((desk.get label.1).step (desk.inform label.1 label.2))

/-! ## Single steps -/

variable {desk : Desk α} {side other : OrderAccountType} {a : α}

omit [DecidableEq α] in
@[simp]
theorem get_set_self (desk : Desk α) (side : OrderAccountType) (system : OrderSystem α) :
    (desk.set side system).get side = system := by
  cases side <;> rfl

omit [DecidableEq α] in
theorem get_set_of_ne (different : other ≠ side) (system : OrderSystem α) :
    (desk.set side system).get other = desk.get other := by
  cases side <;> cases other <;> first | rfl | exact absurd rfl different

omit [DecidableEq α] in
@[simp]
theorem accounts_get (desk : Desk α) (a : α) (side : OrderAccountType) :
    (desk.accounts a).get side = (desk.get side).account a := by
  cases side <;> rfl

omit [DecidableEq α] in
theorem accounts_set (desk : Desk α) (side : OrderAccountType) (system : OrderSystem α) (a : α) :
    (desk.set side system).accounts a = (desk.accounts a).set side (system.account a) := by
  cases side <;> rfl

omit [DecidableEq α] in
@[simp]
theorem opposite_ne (side : OrderAccountType) : side.opposite ≠ side := by
  cases side <;> exact OrderAccountType.noConfusion

omit [DecidableEq α] in
theorem caller_inform (label : OrderSystem.Label α) :
    (desk.inform side label).caller = label.caller := by
  cases label <;> rfl

omit [DecidableEq α] in
theorem actor_inform (label : OrderSystem.Label α) :
    (desk.inform side label).actor = label.actor := by
  cases label <;> rfl

/-- The order account of a label takes its step. -/
theorem get_step_self (desk : Desk α) (label : Label α) :
    (desk.step label).get label.1 = (desk.get label.1).step (desk.inform label.1 label.2) :=
  get_set_self _ _ _

/-- Of the other one a fill may set an account. -/
theorem get_step_of_ne (desk : Desk α) (label : Label α) (different : other ≠ label.1) :
    (desk.step label).get other = desk.get other ∨
      ∃ b account, (desk.step label).get other = (desk.get other).setAccount b account := by
  unfold step
  rw [get_set_of_ne different]
  obtain ⟨side, label⟩ := label
  obtain rfl : other = side.opposite := TradeAccounts.eq_opposite_of_ne (Ne.symm different)
  cases label with
  | onFill id price size openSize unused =>
      dsimp only [spread]
      split
      · exact Or.inr ⟨_, _, get_set_self _ _ _⟩
      · exact Or.inl rfl
  | _ => exact Or.inl rfl

/-- A fill is delivered to the accounts of the symbol whose order it is for. -/
theorem accounts_onFill (desk : Desk α) (side : OrderAccountType) (id : ℕ) (price : ℚ)
    (size openSize : ℕ) (unused : TradeAccount) (a : α) :
    (desk.step (side, .onFill id price size openSize unused)).accounts a = desk.accounts a ∨
      ∃ fill, (desk.step (side, .onFill id price size openSize unused)).accounts a =
        (desk.accounts a).onFill fill := by
  cases filled : desk.filled side id with
  | none =>
      left
      have same (unused : TradeAccount) : ((desk.get side).onFill id price size openSize
          unused).account = (desk.get side).account := by
        unfold Desk.filled at filled
        unfold OrderSystem.onFill
        split
        · rename_i found
          rw [if_pos found] at filled
          dsimp only
          rw [filled]
          rfl
        · rfl
      dsimp only [step, spread, inform]
      rw [filled, accounts_set]
      change (desk.accounts a).set side (((desk.get side).onFill id price size openSize
        unused).account a) = _
      rw [same, ← accounts_get, TradeAccounts.set_get]
  | some owner =>
      obtain ⟨b, request⟩ := owner
      have found : id ∈ (desk.get side).orderHash := by
        by_contra missing
        unfold Desk.filled at filled
        rw [if_neg missing] at filled
        cases filled
      have function : ((desk.get side).info id).onFillFunction = some (b, request) := by
        unfold Desk.filled at filled
        rwa [if_pos found] at filled
      have delivered := OrderSystem.onFill_account id price size openSize
        ((desk.get side.opposite).account b) found function
      dsimp only [step, spread, inform]
      rw [filled]
      by_cases same : a = b
      · subst same
        right
        refine ⟨{ side, isOpen := decide (request = .open), orderId := id, price, size }, ?_⟩
        rw [accounts_set]
        change TradeAccounts.set _ side (((desk.get side).onFill id price size openSize
          ((desk.get side.opposite).account a)).account a) = _
        rw [delivered, Function.update_self]
        cases request with
        | «open» =>
            dsimp only
            rw [accounts_set]
            cases side <;> simp [TradeAccounts.onFill, TradeAccounts.setBoth, TradeAccounts.set,
              TradeAccounts.get, TradeAccount.onFill, OrderAccountType.opposite, accounts, get]
        | close =>
            cases side <;> simp [TradeAccounts.onFill, TradeAccounts.setBoth, TradeAccounts.set,
              TradeAccounts.get, TradeAccount.onFill, OrderAccountType.opposite, accounts, get]
      · left
        rw [accounts_set]
        change TradeAccounts.set _ side (((desk.get side).onFill id price size openSize
          ((desk.get side.opposite).account b)).account a) = _
        rw [delivered, Function.update_of_ne same]
        cases request with
        | «open» =>
            dsimp only
            rw [accounts_set]
            cases side <;> simp [TradeAccounts.set, OrderAccountType.opposite, accounts, get,
              Function.update_of_ne same]
        | close => cases side <;> rfl

/-- A symbol's accounts are filled, or counters are moved. -/
inductive Changes (before : TradeAccounts) : TradeAccounts → Prop
  | same : Changes before before
  | counts (side : OrderAccountType) {after : TradeAccount}
      (counts : (before.get side).Counts after) : Changes before (before.set side after)
  | fills (fill : TradeAccounts.Fill) : Changes before (before.onFill fill)

/-- Unless the trading thread begins a call or counts the order of one, its
accounts are no more than filled and counted. -/
theorem changes_step (desk : Desk α) {label : Label α} (noCall : label.2.caller ≠ some a)
    (notFinishing : ∀ sent, label.2 = .advance a sent → ∀ request id,
      (desk.get label.1).thread a ≠ .acknowledged (.acknowledgement request id)) :
    Changes (desk.accounts a) ((desk.step label).accounts a) := by
  obtain ⟨side, label⟩ := label
  dsimp only at noCall notFinishing
  by_cases isFill : ∃ id price size openSize unused, label = .onFill id price size openSize unused
  · obtain ⟨id, price, size, openSize, unused, rfl⟩ := isFill
    rcases desk.accounts_onFill side id price size openSize unused a with same | ⟨fill, filled⟩
    · rw [same]
      exact .same
    · rw [filled]
      exact .fills fill
  · have plain : (desk.step (side, label)).accounts a =
        (desk.accounts a).set side (((desk.get side).step label).account a) := by
      cases label with
      | onFill id price size openSize unused =>
          exact absurd ⟨id, price, size, openSize, unused, rfl⟩ isFill
      | _ => exact accounts_set desk side _ a
    rw [plain]
    have books := (OrderSystem.step_spec (desk.get side) label).books a
    generalize ((desk.get side).step label).account a = after at books
    have counted {after : TradeAccount} (counts : ((desk.get side).account a).Counts after) :
        Changes (desk.accounts a) ((desk.accounts a).set side after) := by
      rw [← accounts_get] at counts
      exact .counts side counts
    cases books with
    | same => exact counted (.refl _)
    | clears isLabel =>
        subst isLabel
        exact absurd rfl noCall
    | withdraws => exact counted (TradeAccount.counts_subtractLive _ _ _)
    | counts request id sent isLabel thread =>
        exact absurd thread (notFinishing sent isLabel request id)
    | countsChange => exact counted (TradeAccount.counts_countChange _ _ _)
    | done => exact counted (TradeAccount.counts_countDone _ _)
    | fills id price size openSize other request isLabel =>
        exact absurd ⟨id, price, size, openSize, other, isLabel⟩ isFill

/-! ## Runs -/

/-- The order accounts keep their orders wired. -/
structure Wired (desk : Desk α) : Prop where
  long : desk.long.Wired
  short : desk.short.Wired

omit [DecidableEq α] in
theorem Wired.get (wired : desk.Wired) (side : OrderAccountType) : (desk.get side).Wired := by
  cases side with
  | long => exact wired.long
  | short => exact wired.short

theorem Wired.step (wired : desk.Wired) (label : Label α) : (desk.step label).Wired := by
  have own (side : OrderAccountType) : ((desk.step label).get side).Wired := by
    by_cases same : side = label.1
    · rw [same, get_step_self]
      exact (wired.get label.1).step _
    · rcases desk.get_step_of_ne _ same with next | ⟨b, account, next⟩
      · rw [next]
        exact wired.get side
      · rw [next]
        exact Trading.wired_setAccount (wired.get side) account
  exact ⟨own .long, own .short⟩

theorem wired_run (accounts : α → TradeAccounts) (labels : List (Label α)) :
    (run step (start accounts) labels).Wired :=
  EveryState.last (everyState_of_forall_step (fun _ label wired => wired.step label)
    ⟨OrderSystem.wired_start _ _, OrderSystem.wired_start _ _⟩ labels)

/-- The size of an order that was sent stays. -/
theorem Wired.size (wired : desk.Wired) {id : ℕ} (label : Label α)
    (le : id ≤ (desk.get side).requestIdGenerator) :
    (((desk.step label).get side).info id).size = ((desk.get side).info id).size ∧
      id ≤ ((desk.step label).get side).requestIdGenerator := by
  by_cases same : side = label.1
  · subst same
    rw [get_step_self]
    have next := OrderSystem.step_spec (desk.get label.1) (desk.inform label.1 label.2)
    exact ⟨(next.later (wired.get label.1) le).size, le.trans next.requestIdGenerator_le⟩
  · rcases desk.get_step_of_ne _ same with next | ⟨b, account, next⟩
    · rw [next]
      exact ⟨rfl, le⟩
    · rw [next]
      exact ⟨rfl, le⟩

/-- A thread that is in no call stays so until it makes one. -/
theorem idle_step {returned : ℕ} (idle : (desk.get side).thread a = .idle returned)
    {label : Label α} (noCall : label.2.caller ≠ some a) :
    ((desk.step label).get side).thread a = .idle returned := by
  by_cases same : side = label.1
  · subst same
    rw [get_step_self]
    apply OrderSystem.idle_step idle
    rw [caller_inform]
    exact noCall
  · rcases desk.get_step_of_ne _ same with next | ⟨b, account, next⟩
    · rw [next]
      exact idle
    · rw [next]
      exact idle

/-- A thread that waits goes on waiting, maybe woken, until it runs. -/
theorem waiting_step {label : Label α} (others : ∀ sent, label ≠ (side, .advance a sent))
    (noCall : label.2.caller ≠ some a) :
    ((desk.step label).get side).thread a = (desk.get side).thread a ∨
      ((desk.step label).get side).thread a = ((desk.get side).thread a).wake := by
  by_cases same : side = label.1
  · subst same
    rw [get_step_self]
    apply OrderSystem.step_thread_of_ne
    rw [actor_inform]
    intro own
    obtain ⟨sent, isAdvance⟩ := OrderSystem.eq_advance_of_actor noCall own
    exact others sent (Prod.ext rfl isAdvance)
  · rcases desk.get_step_of_ne _ same with next | ⟨b, account, next⟩
    · rw [next]
      exact Or.inl rfl
    · rw [next]
      exact Or.inl rfl

end Desk

end TradingApp.Orders
