import TradingApp.Orders.Messages

/-!
# Threads

A thread is moved on by its own steps only; a message may wake it.  A call that
is made in another one does nothing.
-/

namespace TradingApp.Orders

open TradingApp.Account

variable {α : Type}

namespace OrderSystem

/-- The account whose thread makes a call. -/
def Label.caller : Label α → Option α
  | .post _ a _ _ _ => some a
  | .change a _ _ _ _ => some a
  | .cancel a _ _ => some a
  | .cancelAll a => some a
  | _ => none

/-- The account whose thread makes a step. -/
def Label.actor : Label α → Option α
  | .advance a _ => some a
  | label => label.caller

variable [DecidableEq α] {system : OrderSystem α} {label : Label α} {a : α}

/-! ## The other threads -/

section Others

variable {b : α}

theorem post_thread_of_ne (ne : a ≠ b) (request : RequestType) (price : ℚ) (size : ℕ)
    (posting : Posting) :
    (system.post request b price size posting).thread a = system.thread a := by
  unfold post
  dsimp only
  split_ifs <;> simp [Function.update_of_ne ne]

theorem change_thread_of_ne (ne : a ≠ b) (id : ℕ) (newPrice : ℚ) (newSize : ℕ)
    (posting : Posting) :
    (system.change b id newPrice newSize posting).thread a = system.thread a := by
  unfold change
  dsimp only
  split_ifs <;> simp [Function.update_of_ne ne]

theorem cancel_thread_of_ne (ne : a ≠ b) (id : ℕ) (rest : Option (List ℕ)) (sent : Bool) :
    (system.cancel b id rest sent).thread a = system.thread a := by
  unfold cancel
  split_ifs <;> simp [Function.update_of_ne ne]

theorem leave_thread_of_ne (ne : a ≠ b) (wait : Wait) :
    (system.leave b wait).thread a = system.thread a := by
  unfold leave
  cases wait with
  | acknowledgement request id =>
      dsimp only
      split <;> simp [Function.update_of_ne ne]
  | change original id newSize =>
      dsimp only
      split <;> simp [Function.update_of_ne ne]
  | cancel id rest =>
      dsimp only
      split <;> simp [Function.update_of_ne ne]

theorem finish_thread_of_ne (ne : a ≠ b) (wait : Wait) :
    (system.finish b wait).thread a = system.thread a := by
  cases wait with
  | acknowledgement request id => exact Function.update_of_ne ne _ _
  | change original id newSize =>
      unfold finish
      dsimp only
      rw [setThread_thread, Function.update_of_ne ne]
      split <;> rfl
  | cancel id rest => rfl

theorem advance_thread_of_ne (ne : a ≠ b) (sent : Bool) :
    (system.advance b sent).thread a = system.thread a := by
  unfold advance
  split
  · rfl
  · split
    · exact leave_thread_of_ne ne _
    · exact Function.update_of_ne ne _ _
  · exact finish_thread_of_ne ne _
  · rename_i rest _
    cases rest with
    | nil => exact Function.update_of_ne ne _ _
    | cons id rest =>
        unfold cancelNext
        dsimp only
        split
        · exact cancel_thread_of_ne ne id _ sent
        · exact Function.update_of_ne ne _ _

/-- A message may wake a thread. -/
theorem onOrder_thread (id : ℕ) (order : OrderMessage) :
    (system.onOrder id order).thread a = system.thread a ∨
      (system.onOrder id order).thread a = (system.thread a).wake := by
  unfold onOrder
  split
  · rw [onOrderFound_thread]
    split
    · rw [Function.update_apply]
      split
      · rename_i same
        subst same
        exact Or.inr rfl
      · exact Or.inl rfl
    · exact Or.inl rfl
  · exact Or.inl rfl

omit [DecidableEq α] in
/-- What is done only under a condition. -/
theorem ite_thread {P : Prop} [Decidable P] {next : OrderSystem α}
    (same : next.thread a = system.thread a) :
    (if P then next else system).thread a = system.thread a := by
  split
  · exact same
  · rfl

end Others

/-- A step of another account's thread or of the gateway's may wake the thread. -/
theorem step_thread_of_ne (others : label.actor ≠ some a) :
    (system.step label).thread a = system.thread a ∨
      (system.step label).thread a = (system.thread a).wake := by
  have ne {b : α} (actor : label.actor = some b) : a ≠ b := by
    rintro rfl
    exact others actor
  cases label with
  | post request b price size posting =>
      exact Or.inl (ite_thread (post_thread_of_ne (ne rfl) request price size posting))
  | change b id newPrice newSize posting =>
      exact Or.inl (ite_thread (change_thread_of_ne (ne rfl) id newPrice newSize posting))
  | cancel b id sent => exact Or.inl (ite_thread (cancel_thread_of_ne (ne rfl) id none sent))
  | cancelAll b => exact Or.inl (ite_thread (Function.update_of_ne (ne rfl) _ _))
  | advance b sent => exact Or.inl (advance_thread_of_ne (ne rfl) sent)
  | onOrder id order => exact onOrder_thread id order
  | onOrderCancel id => exact Or.inl (ite_thread rfl)
  | onOrderChange id condition => exact Or.inl (ite_thread rfl)
  | onFill id price size openSize other =>
      exact Or.inl (congrFun (onFill_fixed id price size openSize other).2.2.2.2 a)

/-! ## A thread's own steps -/

omit [DecidableEq α] in
/-- A thread that makes no call only runs on. -/
theorem eq_advance_of_actor (noCall : label.caller ≠ some a) (own : label.actor = some a) :
    ∃ sent, label = .advance a sent := by
  cases label with
  | advance b sent =>
      obtain rfl := Option.some.inj own
      exact ⟨sent, rfl⟩
  | _ => exact absurd own noCall

/-- A thread that is in no call stays so until it makes one. -/
theorem idle_step {returned : ℕ} (idle : system.thread a = .idle returned)
    (noCall : label.caller ≠ some a) : (system.step label).thread a = .idle returned := by
  by_cases own : label.actor = some a
  · obtain ⟨sent, rfl⟩ := eq_advance_of_actor noCall own
    have same : system.step (.advance a sent) = system := by
      change system.advance a sent = system
      unfold OrderSystem.advance
      rw [idle]
    rw [same]
    exact idle
  · rcases step_thread_of_ne own with same | woken
    · exact same.trans idle
    · rw [woken, idle]
      rfl

/-- A thread that is in a call makes no other one. -/
theorem step_of_caller (calls : label.caller = some a)
    (inCall : (system.thread a).isIdle = false) : system.step label = system := by
  have busy : ¬ (system.thread a).isIdle = true := by
    rw [inCall]
    exact Bool.false_ne_true
  cases label with
  | post request b price size posting =>
      obtain rfl := Option.some.inj calls
      exact if_neg busy
  | change b id newPrice newSize posting =>
      obtain rfl := Option.some.inj calls
      exact if_neg busy
  | cancel b id sent =>
      obtain rfl := Option.some.inj calls
      exact if_neg busy
  | cancelAll b =>
      obtain rfl := Option.some.inj calls
      exact if_neg busy
  | _ => cases calls

/-- A thread in a call stays as it is, or is woken, until it runs on. -/
theorem step_thread_of_inCall (inCall : (system.thread a).isIdle = false) :
    (system.step label).thread a = system.thread a ∨
      (system.step label).thread a = (system.thread a).wake ∨
        ∃ sent, label = .advance a sent := by
  by_cases own : label.actor = some a
  · by_cases calls : label.caller = some a
    · left
      rw [step_of_caller calls inCall]
    · exact Or.inr (Or.inr (eq_advance_of_actor calls own))
  · rcases step_thread_of_ne own with same | woken
    · exact Or.inl same
    · exact Or.inr (Or.inl woken)

/-! ## What a thread does when it runs -/

variable {wait : Wait} {asleep : Bool} {id : ℕ}

omit [DecidableEq α] in
theorem ends_of_acknowledged (posted : wait.posted = some id)
    (acknowledged : (system.info id).isAcknowledged = true) : system.ends wait = true := by
  cases wait with
  | acknowledgement request key =>
      obtain rfl := Option.some.inj posted
      exact acknowledged
  | change original key newSize =>
      obtain rfl := Option.some.inj posted
      exact acknowledged
  | cancel key rest => exact nomatch posted

/-- The step of a thread whose order has been acknowledged. -/
theorem advance_accepts {a : α} {wait : Wait} {asleep : Bool} {id : ℕ} (sent : Bool)
    (thread : system.thread a = .waiting wait asleep) (posted : wait.posted = some id)
    (acknowledged : (system.info id).acknowledged = true) :
    system.step (.advance a sent) = (system.addOrder a id).setThread a (.acknowledged wait) := by
  have ends : system.ends wait = true := by
    apply ends_of_acknowledged posted
    unfold OrderInfo.isAcknowledged
    rw [acknowledged, Bool.or_true]
  unfold step advance
  dsimp only
  rw [thread]
  dsimp only
  rw [if_pos ends]
  cases wait with
  | acknowledgement request key =>
      obtain rfl := Option.some.inj posted
      exact if_pos acknowledged
  | change original key newSize =>
      obtain rfl := Option.some.inj posted
      exact if_pos acknowledged
  | cancel key rest => cases posted

theorem step_acknowledged (sent : Bool) (thread : system.thread a = .acknowledged wait) :
    system.step (.advance a sent) = system.finish a wait := by
  unfold step advance
  dsimp only
  rw [thread]

theorem step_cancelled {rest : Option (List ℕ)} (sent : Bool)
    (thread : system.thread a = .waiting (.cancel id rest) asleep)
    (done : (system.info id).cancelStage = .done) :
    system.step (.advance a sent) =
      (system.setAccount a
        ((system.account a).subtractLive (system.info id) (system.info id).order.openSize)).setThread
        a (.afterCancel rest true) := by
  have ends : system.ends (.cancel id rest) = true := by
    simp [OrderSystem.ends, done]
  have notFail : ¬ (system.info id).cancelStage = .fail := by
    rw [done]
    intro fail
    cases fail
  unfold step advance
  dsimp only
  rw [thread]
  dsimp only
  rw [if_pos ends]
  unfold leave
  dsimp only
  rw [if_neg notFail]

/-- After a wait for an acknowledgement and after one for a cancellation the
thread waits for nothing. -/
theorem wait_step_of_acknowledged (sent : Bool) (thread : system.thread a = .acknowledged wait)
    (posted : wait.posted = some id) :
    ((system.step (.advance a sent)).thread a).wait = none := by
  rw [step_acknowledged sent thread]
  cases wait with
  | acknowledgement request key => simp [finish, Thread.wait]
  | change original key newSize => simp [finish, Thread.wait]
  | cancel key rest => cases posted

theorem wait_step_of_cancelled {rest : Option (List ℕ)} (sent : Bool)
    (thread : system.thread a = .waiting (.cancel id rest) asleep)
    (done : (system.info id).cancelStage = .done) :
    ((system.step (.advance a sent)).thread a).wait = none := by
  rw [step_cancelled sent thread done]
  cases rest <;> simp [Thread.afterCancel, Thread.wait]

end OrderSystem

end TradingApp.Orders
