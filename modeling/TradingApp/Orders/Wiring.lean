import TradingApp.Orders.Steps
import TradingApp.Transition.Run

/-!
# Whose functions an order carries

Every order that was ever sent carries the functions of the trade account that
sent it, also after it was changed, and its account's thread is the only one
that waits for it.  This holds in every state a run reaches.
-/

namespace TradingApp.Orders

open TradingApp.Account TradingApp.Transition

variable {α : Type}

namespace OrderInfo

/-- The order carries the functions of an account for its opens or closes. -/
structure WiredTo (info : OrderInfo α) (side : OrderAccountType) (a : α)
    (request : RequestType) : Prop where
  acknowledgement : info.onAcknowledgementFunction = some a
  fill : info.onFillFunction = some (a, request)
  done : info.onOrderDoneFunction = some a
  cancel : ∀ b, info.onOrderCancelFunction = some b → b = a
  change : ∀ b, info.onOrderChangeFunction = some b → b = a
  accountType : info.accountType = side
  type : info.type = some (limitType side request)

/-- What never changes of an order, and what may be set. -/
structure Later (before after : OrderInfo α) : Prop where
  acknowledgement : after.onAcknowledgementFunction = before.onAcknowledgementFunction
  fill : after.onFillFunction = before.onFillFunction
  done : after.onOrderDoneFunction = before.onOrderDoneFunction
  cancel : after.onOrderCancelFunction = before.onOrderCancelFunction ∨
    after.onOrderCancelFunction = before.onAcknowledgementFunction
  change : after.onOrderChangeFunction = before.onOrderChangeFunction ∨
    after.onOrderChangeFunction = before.onAcknowledgementFunction
  accountType : after.accountType = before.accountType
  type : after.type = before.type
  size : after.size = before.size

theorem Later.refl (info : OrderInfo α) : Later info info :=
  ⟨rfl, rfl, rfl, Or.inl rfl, Or.inl rfl, rfl, rfl, rfl⟩

theorem later_receive (info : OrderInfo α) (order : OrderMessage) :
    Later info (info.receive order) := by
  unfold receive
  cases order.condition with
  | new | denied | rejected | orderUnknown | other | done | canceled | cancelRejected |
    tooLateToCancel =>
      dsimp only
      split <;> exact ⟨rfl, rfl, rfl, Or.inl rfl, Or.inl rfl, rfl, rfl, rfl⟩
  | _ => exact ⟨rfl, rfl, rfl, Or.inl rfl, Or.inl rfl, rfl, rfl, rfl⟩

variable {info after : OrderInfo α} {side : OrderAccountType} {a : α}
  {request : RequestType}

theorem WiredTo.later (wired : info.WiredTo side a request) (later : info.Later after) :
    after.WiredTo side a request where
  acknowledgement := later.acknowledgement.trans wired.acknowledgement
  fill := later.fill.trans wired.fill
  done := later.done.trans wired.done
  cancel b set := by
    rcases later.cancel with same | own
    · exact wired.cancel b (same.symm.trans set)
    · rw [own, wired.acknowledgement] at set
      exact (Option.some.inj set).symm
  change b set := by
    rcases later.change with same | own
    · exact wired.change b (same.symm.trans set)
    · rw [own, wired.acknowledgement] at set
      exact (Option.some.inj set).symm
  accountType := later.accountType.trans wired.accountType
  type := later.type.trans wired.type

/-- Once set, the function for cancellations stays. -/
theorem WiredTo.cancel_later (wired : info.WiredTo side a request)
    (set : info.onOrderCancelFunction = some a) (later : info.Later after) :
    after.onOrderCancelFunction = some a := by
  rcases later.cancel with same | own
  · exact same.trans set
  · exact own.trans wired.acknowledgement

/-- An order counts for what its account sent it for. -/
theorem WiredTo.counter (wired : info.WiredTo side a request) :
    info.counter = some request := by
  unfold OrderInfo.counter
  rw [wired.accountType, wired.type]
  cases side <;> cases request <;> rfl

/-- A replacement is wired as the order it replaces. -/
theorem WiredTo.replacement (wired : info.WiredTo side a request) (price : ℚ)
    (size : ℕ) : (info.replacement price size).WiredTo side a request :=
  ⟨wired.acknowledgement, wired.fill, wired.done, wired.cancel, wired.change, wired.accountType,
    wired.type⟩

end OrderInfo

namespace OrderSystem

/-- An order that an account has sent. -/
structure Posted (system : OrderSystem α) (id : ℕ) (a : α) (request : RequestType) : Prop where
  pos : 0 < id
  le : id ≤ system.requestIdGenerator
  wired : (system.info id).WiredTo system.accountType a request

/-- The orders of a wait were sent by the account that waits. -/
def WaitWired (system : OrderSystem α) (a : α) : Wait → Prop
  | .acknowledgement request id => system.Posted id a request
  | .change original id _ =>
      ∃ request, system.Posted original a request ∧ system.Posted id a request
  | .cancel id _ =>
      (∃ request, system.Posted id a request) ∧ (system.info id).onOrderCancelFunction = some a

/-- Every order that was sent is wired to the account that sent it, and hash, maps
and waits hold only such orders. -/
structure Wired (system : OrderSystem α) : Prop where
  order : ∀ id, 0 < id → id ≤ system.requestIdGenerator → ∃ a request, system.Posted id a request
  hash : ∀ id ∈ system.orderHash, 0 < id ∧ id ≤ system.requestIdGenerator
  orders : ∀ a, ∀ id ∈ system.orders a, ∃ request, system.Posted id a request
  thread : ∀ a wait, (system.thread a).wait = some wait → system.WaitWired a wait

theorem wired_start (accountType : OrderAccountType) (account : α → TradeAccount) :
    Wired (start accountType account) where
  order _ pos le := absurd le (Nat.not_le.mpr pos)
  hash _ member := absurd member (Finset.notMem_empty _)
  orders _ _ member := absurd member List.not_mem_nil
  thread _ _ waits := nomatch waits

variable {system : OrderSystem α}

theorem Wired.posted_of_mem_orderHash (wired : Wired system) {id : ℕ}
    (found : id ∈ system.orderHash) : ∃ a request, system.Posted id a request :=
  wired.order id (wired.hash id found).1 (wired.hash id found).2

/-- An order belongs to one account. -/
theorem Posted.unique {id : ℕ} {a b : α} {request request' : RequestType}
    (posted : system.Posted id a request) (posted' : system.Posted id b request') :
    a = b ∧ request = request' :=
  Prod.mk.inj (Option.some.inj (posted.wired.fill.symm.trans posted'.wired.fill))

variable [DecidableEq α]

omit [DecidableEq α] in
theorem update_later {info : ℕ → OrderInfo α} {id : ℕ} {after : OrderInfo α}
    (later : (info id).Later after) (other : ℕ) :
    (info other).Later (Function.update info id after other) := by
  rw [Function.update_apply]
  split
  · rename_i same
    subst same
    exact later
  · exact .refl _

omit [DecidableEq α] in
theorem askChange_later {a : α} {id : ℕ} {request : RequestType}
    (posted : system.Posted id a request) (other : ℕ) :
    (system.info other).Later ((system.askChange a id).info other) := by
  apply update_later
  exact ⟨rfl, rfl, rfl, Or.inl rfl, Or.inr posted.wired.acknowledgement.symm, rfl, rfl, rfl⟩

omit [DecidableEq α] in
theorem askCancel_later {a : α} {id : ℕ} {request : RequestType}
    (posted : system.Posted id a request) (other : ℕ) :
    (system.info other).Later ((system.askCancel a id).info other) := by
  apply update_later
  exact ⟨rfl, rfl, rfl, Or.inr posted.wired.acknowledgement.symm, Or.inl rfl, rfl, rfl, rfl⟩

theorem onFill_later (id : ℕ) (price : ℚ) (size openSize : ℕ) (otherAccount : TradeAccount)
    (other : ℕ) :
    (system.info other).Later ((system.onFill id price size openSize otherAccount).info other) := by
  unfold onFill
  split
  · dsimp only
    split
    · unfold onFillReceived
      rw [modify_modify]
      apply update_later
      exact ⟨rfl, rfl, rfl, Or.inl rfl, Or.inl rfl, rfl, rfl, rfl⟩
    · apply update_later
      exact ⟨rfl, rfl, rfl, Or.inl rfl, Or.inl rfl, rfl, rfl, rfl⟩
  · exact .refl _

/-- What stays of every order that was sent. -/
theorem Next.later (wired : Wired system) {label : Label α} {next : OrderSystem α}
    (step : Next system label next) {id : ℕ} (le : id ≤ system.requestIdGenerator) :
    (system.info id).Later (next.info id) := by
  cases step with
  | same | returns | drops | cancelsAll | sleeps | fails | accepts | cancelled | finishes | sweeps =>
      exact .refl _
  | posts =>
      rw [setThread_info, emplace_info_of_le _ le]
      exact .refl _
  | asks idle isKey =>
      obtain ⟨request, posted⟩ := wired.orders _ _ isKey
      exact askChange_later posted id
  | changes idle isKey =>
      obtain ⟨request, posted⟩ := wired.orders _ _ isKey
      rw [setThread_info, askChange_emplace_info le]
      exact askChange_later posted id
  | unsent idle isKey =>
      obtain ⟨request, posted⟩ := wired.orders _ _ isKey
      rw [setThread_info, eraseHash_info, askChange_emplace_info le]
      exact askChange_later posted id
  | cancelUnsent a key thread before after isKey =>
      obtain ⟨request, posted⟩ := wired.orders _ _ isKey
      exact askCancel_later posted id
  | cancels a key rest before isKey =>
      obtain ⟨request, posted⟩ := wired.orders _ _ isKey
      exact askCancel_later posted id
  | cancelFails | cancelMessage | changeMessage =>
      apply update_later
      exact ⟨rfl, rfl, rfl, Or.inl rfl, Or.inl rfl, rfl, rfl, rfl⟩
  | finishesChange =>
      split <;> exact .refl _
  | message found =>
      rw [onOrderFound_info]
      apply update_later
      exact OrderInfo.later_receive _ _
  | fill => exact onFill_later _ _ _ _ _ id

/-! ## Reachable states -/

omit [DecidableEq α] in
theorem wiredTo_newInfo (request : RequestType) (a : α) (price : ℚ) (lots : ℕ) :
    (system.newInfo request a price lots).WiredTo system.accountType a request :=
  ⟨rfl, rfl, rfl, nofun, nofun, rfl, rfl⟩

omit [DecidableEq α] in
theorem posted_emplace {info : OrderInfo α} {a : α} {request : RequestType}
    (wired : info.WiredTo system.accountType a request) :
    (system.emplace info).Posted (system.requestIdGenerator + 1) a request where
  pos := Nat.succ_pos _
  le := le_refl _
  wired := by
    rw [emplace_info, Function.update_self]
    exact wired

omit [DecidableEq α] in
/-- A replacement belongs to the account of the order it replaces. -/
theorem posted_changed {a : α} {id : ℕ} {request : RequestType}
    (posted : system.Posted id a request) (newPrice : ℚ) (newSize : ℕ) :
    ((system.askChange a id).emplace (system.changedInfo a id newPrice newSize)).Posted
      (system.requestIdGenerator + 1) a request :=
  posted_emplace (posted.wired.replacement _ _)

theorem Posted.setThread {id : ℕ} {a : α} {request : RequestType}
    (posted : system.Posted id a request) (b : α) (thread : Thread) :
    (system.setThread b thread).Posted id a request :=
  ⟨posted.pos, posted.le, posted.wired⟩

/-- What a thread begins to wait for in a step, and the state it does so in. -/
inductive Begins (system : OrderSystem α) (a : α) : Label α → OrderSystem α → Wait → Prop
  | post {request : RequestType} {price : ℚ} {size : ℕ} {posting : Posting} {thread : Thread} :
      Begins system a (.post request a price size posting)
        ((system.emplace
          (system.newInfo request a price (size / (system.account a).divisor))).setThread a thread)
        (.acknowledgement request (system.requestIdGenerator + 1))
  | change {original : ℕ} {newPrice : ℚ} {newSize : ℕ} {posting : Posting} {thread : Thread}
      (isKey : original ∈ system.orders a) :
      Begins system a (.change a original newPrice newSize posting)
        (((system.askChange a original).emplace
          (system.changedInfo a original newPrice newSize)).setThread a thread)
        (.change original (system.requestIdGenerator + 1) newSize)
  | cancel {label : Label α} {id : ℕ} {rest : Option (List ℕ)} {thread : Thread}
      (isKey : id ∈ system.orders a) (live : (system.info id).canCancel = true) :
      Begins system a label ((system.askCancel a id).setThread a thread) (.cancel id rest)

section Next

variable {label : Label α} {next : OrderSystem α} (step : Next system label next)

include step

theorem Next.accountType : next.accountType = system.accountType := by
  cases step with
  | message => exact (onOrderFound_fixed _ _ _).1
  | fill => exact (onFill_fixed _ _ _ _ _).1
  | finishesChange => split <;> rfl
  | _ => rfl

theorem Next.requestIdGenerator_le : system.requestIdGenerator ≤ next.requestIdGenerator := by
  cases step with
  | posts | changes | unsent => exact Nat.le_succ _
  | message => exact (onOrderFound_fixed _ _ _).2.ge
  | fill => exact (onFill_fixed _ _ _ _ _).2.1.ge
  | finishesChange => split <;> exact le_refl _
  | _ => exact le_refl _

theorem Posted.stays (wired : Wired system) {id : ℕ} {a : α} {request : RequestType}
    (posted : system.Posted id a request) : next.Posted id a request where
  pos := posted.pos
  le := posted.le.trans step.requestIdGenerator_le
  wired := by
    rw [step.accountType]
    exact posted.wired.later (step.later wired posted.le)

theorem WaitWired.stays (wired : Wired system) {a : α} {wait : Wait}
    (waits : system.WaitWired a wait) : next.WaitWired a wait := by
  cases wait with
  | acknowledgement request id => exact Posted.stays step wired waits
  | change original id newSize =>
      obtain ⟨request, first, second⟩ := waits
      exact ⟨request, first.stays step wired, second.stays step wired⟩
  | cancel id rest =>
      obtain ⟨⟨request, posted⟩, set⟩ := waits
      exact ⟨⟨request, posted.stays step wired⟩,
        posted.wired.cancel_later set (step.later wired posted.le)⟩

/-- An order that is new is wired to the account that sends it. -/
theorem Next.posted_new (wired : Wired system) {id : ℕ} (new : system.requestIdGenerator < id)
    (le : id ≤ next.requestIdGenerator) : ∃ a request, next.Posted id a request := by
  have none (same : next.requestIdGenerator = system.requestIdGenerator) :
      ∃ a request, next.Posted id a request :=
    absurd (same ▸ le) (Nat.not_le.mpr new)
  cases step with
  | @posts request a price size =>
      obtain rfl : id = system.requestIdGenerator + 1 := Nat.le_antisymm le new
      exact ⟨a, request, (posted_emplace (wiredTo_newInfo request a price _)).setThread a _⟩
  | @changes a original _ _ _ idle isKey =>
      obtain rfl : id = system.requestIdGenerator + 1 := Nat.le_antisymm le new
      obtain ⟨request, posted⟩ := wired.orders _ _ isKey
      exact ⟨a, request, (posted_changed posted _ _).setThread a _⟩
  | @unsent a original newPrice newSize _ idle isKey =>
      obtain rfl : id = system.requestIdGenerator + 1 := Nat.le_antisymm le new
      obtain ⟨request, posted⟩ := wired.orders _ _ isKey
      have changed := posted_changed posted newPrice newSize
      exact ⟨a, request, changed.pos, changed.le, changed.wired⟩
  | message => exact none (onOrderFound_fixed _ _ _).2
  | fill => exact none (onFill_fixed _ _ _ _ _).2.1
  | finishesChange => exact none (by split <;> rfl)
  | _ => exact none rfl

/-- What is in the hash was there, or is new. -/
theorem Next.mem_orderHash {id : ℕ} (found : id ∈ next.orderHash) :
    id ∈ system.orderHash ∨
      id = system.requestIdGenerator + 1 ∧
        next.requestIdGenerator = system.requestIdGenerator + 1 := by
  cases step with
  | posts | changes =>
      rcases Finset.mem_insert.mp found with new | old
      · exact Or.inr ⟨new, rfl⟩
      · exact Or.inl old
  | unsent =>
      rcases Finset.mem_insert.mp (Finset.mem_of_mem_erase found) with new | old
      · exact Or.inr ⟨new, rfl⟩
      · exact Or.inl old
  | message =>
      rw [onOrderFound_orderHash] at found
      split at found
      · exact Or.inl (Finset.mem_of_mem_erase found)
      · exact Or.inl found
  | fill =>
      rw [(onFill_fixed _ _ _ _ _).2.2.1] at found
      exact Or.inl found
  | finishesChange =>
      left
      split at found <;> exact found
  | _ => exact Or.inl found

/-- An order comes into its account's map when the wait for its
acknowledgement ends. -/
theorem Next.mem_orders {a : α} {id : ℕ} (isKey : id ∈ next.orders a) :
    id ∈ system.orders a ∨
      ∃ wait asleep, system.thread a = .waiting wait asleep ∧ wait.posted = some id ∧
        (system.info id).acknowledged = true ∧ (∃ sent, label = .advance a sent) ∧
        next = (system.addOrder a id).setThread a (.acknowledged wait) := by
  have erased {b : α} {other : ℕ} (isKey : id ∈ (system.eraseOrder b other).orders a) :
      id ∈ system.orders a := by
    rw [eraseOrder_orders, Function.update_apply] at isKey
    split at isKey
    · rename_i same
      subst same
      exact List.mem_of_mem_filter isKey
    · exact isKey
  cases step with
  | drops => exact Or.inl (erased isKey)
  | accepts thread posted acknowledged =>
      rename_i b sent asleep wait other
      rw [setThread_orders, addOrder_orders, Function.update_apply] at isKey
      split at isKey
      · rename_i same
        subst same
        split at isKey
        · exact Or.inl isKey
        · rcases List.mem_append.mp isKey with old | new
          · exact Or.inl old
          · obtain rfl := List.mem_singleton.mp new
            exact Or.inr ⟨wait, asleep, thread, posted, acknowledged, ⟨sent, rfl⟩, rfl⟩
      · exact Or.inl isKey
  | sweeps =>
      left
      dsimp only at isKey
      rw [Function.update_apply] at isKey
      split at isKey
      · rename_i same
        subst same
        exact List.mem_of_mem_filter isKey
      · exact isKey
  | message =>
      left
      rw [onOrderFound_orders] at isKey
      split at isKey
      · exact erased isKey
      · exact isKey
  | fill =>
      rw [(onFill_fixed _ _ _ _ _).2.2.2.1] at isKey
      exact Or.inl isKey
  | finishesChange =>
      left
      split at isKey <;> exact isKey
  | _ => exact Or.inl isKey

omit step in
theorem wait_setThread {a b : α} {thread : Thread} {wait : Wait}
    (waits : ((system.setThread a thread).thread b).wait = some wait) :
    b = a ∧ thread.wait = some wait ∨ (system.thread b).wait = some wait := by
  rw [setThread_thread, Function.update_apply] at waits
  split at waits
  · rename_i same
    exact Or.inl ⟨same, waits⟩
  · exact Or.inr waits

omit step in
theorem wait_wake {a b : α} :
    (Function.update system.thread a (system.thread a).wake b).wait = (system.thread b).wait := by
  rw [Function.update_apply]
  split
  · rename_i same
    subst same
    cases system.thread b <;> rfl
  · rfl

omit step in
/-- A thread that ends up in no wait has kept its own or is another one. -/
theorem wait_of_setThread {a b : α} {thread : Thread} {other : OrderSystem α} {wait : Wait}
    (same : other.thread = system.thread) (after : thread.wait = none)
    (waits : ((other.setThread b thread).thread a).wait = some wait) :
    (system.thread a).wait = some wait := by
  rcases wait_setThread waits with ⟨_, new⟩ | old
  · exact absurd (after.symm.trans new) (Option.some_ne_none wait).symm
  · exact same ▸ old

omit step in
/-- Where a thread is that was not left there, it has stayed. -/
theorem thread_of_setThread {a b : α} {thread target : Thread} (ne : thread ≠ target)
    (equal : (system.setThread b thread).thread a = target) : system.thread a = target := by
  rw [setThread_thread, Function.update_apply] at equal
  split at equal
  · exact absurd equal ne
  · exact equal

omit step in
/-- A thread that waits has not returned. -/
theorem thread_of_returned {a b : α} {thread target : Thread} {wait : Wait}
    (waits : target.wait = some wait) (after : thread.wait = none)
    (equal : (system.setThread b thread).thread a = target) : system.thread a = target := by
  refine thread_of_setThread ?_ equal
  rintro rfl
  exact absurd (after.symm.trans waits) (Option.some_ne_none wait).symm

/-- A thread waits for what it has waited for, or begins to. -/
theorem Next.begins {a : α} {wait : Wait} (waits : (next.thread a).wait = some wait) :
    (system.thread a).wait = some wait ∨ Begins system a label next wait := by
  cases step with
  | same => exact Or.inl waits
  | returns b thread before after => exact Or.inl (wait_of_setThread rfl after waits)
  | posts =>
      rcases wait_setThread waits with ⟨rfl, new⟩ | old
      · split at new
        · obtain rfl := Option.some.inj new
          exact Or.inr .post
        · exact absurd new (Option.some_ne_none wait).symm
      · exact Or.inl old
  | changes idle isKey =>
      rcases wait_setThread waits with ⟨rfl, new⟩ | old
      · obtain rfl := Option.some.inj new
        exact Or.inr (.change isKey)
      · exact Or.inl old
  | asks | unsent | cancelsAll | fails | finishes => exact Or.inl (wait_of_setThread rfl rfl waits)
  | drops b id thread before after => exact Or.inl (wait_of_setThread rfl after waits)
  | cancelUnsent b id thread before after => exact Or.inl (wait_of_setThread rfl after waits)
  | cancels b id rest before isKey live =>
      rcases wait_setThread waits with ⟨rfl, new⟩ | old
      · obtain rfl := Option.some.inj new
        exact Or.inr (.cancel isKey live)
      · exact Or.inl old
  | sleeps thread | accepts thread =>
      left
      rcases wait_setThread waits with ⟨rfl, same⟩ | old
      · rw [thread]
        exact same
      · exact old
  | cancelFails | cancelled =>
      exact Or.inl (wait_of_setThread rfl (wait_afterCancel _ _) waits)
  | finishesChange => exact Or.inl (wait_of_setThread (by split <;> rfl) rfl waits)
  | @sweeps b =>
      have waits : ((system.setThread b (.idle 1)).thread a).wait = some wait := waits
      exact Or.inl (wait_of_setThread rfl rfl waits)
  | message =>
      left
      rw [onOrderFound_thread] at waits
      split at waits
      · rw [wait_wake] at waits
        exact waits
      · exact waits
  | cancelMessage | changeMessage => exact Or.inl waits
  | fill =>
      rw [(onFill_fixed _ _ _ _ _).2.2.2.2] at waits
      exact Or.inl waits

/-- What a thread begins to wait for, its account has just sent or asked to
cancel. -/
theorem Next.wait (wired : Wired system) {a : α} {wait : Wait}
    (waits : (next.thread a).wait = some wait) :
    (system.thread a).wait = some wait ∨ next.WaitWired a wait := by
  have stays {id : ℕ} {b : α} {request : RequestType} (posted : system.Posted id b request) :
      next.Posted id b request :=
    posted.stays step wired
  refine (step.begins waits).imp_right fun begins => ?_
  cases begins with
  | post => exact (posted_emplace (wiredTo_newInfo _ a _ _)).setThread a _
  | change isKey =>
      obtain ⟨request, posted⟩ := wired.orders _ _ isKey
      exact ⟨request, stays posted, (posted_changed posted _ _).setThread a _⟩
  | cancel isKey live =>
      obtain ⟨request, posted⟩ := wired.orders _ _ isKey
      refine ⟨⟨request, stays posted⟩, ?_⟩
      rw [setThread_info, askCancel_info, Function.update_self]

theorem Wired.stays (wired : Wired system) : Wired next := by
  constructor
  · intro id pos le
    by_cases old : id ≤ system.requestIdGenerator
    · obtain ⟨a, request, posted⟩ := wired.order id pos old
      exact ⟨a, request, posted.stays step wired⟩
    · exact step.posted_new wired (Nat.not_le.mp old) le
  · intro id found
    rcases step.mem_orderHash found with old | ⟨rfl, last⟩
    · obtain ⟨pos, le⟩ := wired.hash id old
      exact ⟨pos, le.trans step.requestIdGenerator_le⟩
    · exact ⟨Nat.succ_pos _, last.ge⟩
  · intro a id isKey
    rcases step.mem_orders isKey with old | ⟨wait, asleep, thread, posted, _⟩
    · obtain ⟨request, posted⟩ := wired.orders a id old
      exact ⟨request, posted.stays step wired⟩
    · have waits : system.WaitWired a wait := wired.thread a wait (by rw [thread]; rfl)
      cases wait with
      | acknowledgement request key =>
          obtain rfl := Option.some.inj posted
          exact ⟨request, Posted.stays step wired waits⟩
      | change original key newSize =>
          obtain rfl := Option.some.inj posted
          obtain ⟨request, _, second⟩ := waits
          exact ⟨request, second.stays step wired⟩
      | cancel key rest => exact nomatch posted
  · intro a wait waits
    rcases step.wait wired waits with old | new
    · exact WaitWired.stays step wired (wired.thread a wait old)
    · exact new

end Next

theorem Wired.step (wired : Wired system) (label : Label α) : Wired (system.step label) :=
  Wired.stays (step_spec system label) wired

/-- In every run orders carry their accounts' functions. -/
theorem wired_run (accountType : OrderAccountType) (account : α → TradeAccount)
    (labels : List (Label α)) :
    EveryState OrderSystem.step Wired (start accountType account) labels :=
  everyState_of_forall_step (fun _ label wired => wired.step label) (wired_start _ _) labels

end OrderSystem

end TradingApp.Orders
