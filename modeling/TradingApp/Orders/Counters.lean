import Mathlib.Algebra.BigOperators.Group.Finset.Basic
import Mathlib.Tactic.Ring
import TradingApp.Orders.Entries

/-!
# The live counters

The live counters of an account are the sizes of the orders that were counted,
less those of the orders that were replaced, done or taken off after a
cancellation.  These are the same orders once all of an account's acknowledged
orders are terminal.
-/

namespace TradingApp.Account.TradeAccount

open TradingApp.Orders

variable {α : Type} {info changed : OrderInfo α} {side : OrderAccountType} {a : α}
  {request : RequestType}

/-- Lots are taken off the counter that the order belongs to. -/
theorem subtractLive_live (account : TradeAccount) (wired : info.WiredTo side a request)
    (lots : ℕ) (counter : RequestType) :
    (account.subtractLive info lots).live counter =
      account.live counter - if request = counter then (lots : ℤ) else 0 := by
  unfold subtractLive
  rw [wired.counter]
  dsimp only
  rw [addLive_live]
  split <;> omega

theorem countDone_live (account : TradeAccount) (wired : info.WiredTo side a request)
    (counter : RequestType) :
    (account.countDone info).live counter =
      account.live counter - if request = counter then (info.size : ℤ) else 0 := by
  rw [← subtractLive_live account wired]
  cases counter <;> rfl

theorem countChange_live (account : TradeAccount) (wired : info.WiredTo side a request)
    (wired' : changed.WiredTo side a request) (counter : RequestType) :
    (account.countChange info changed).live counter =
      account.live counter +
        if request = counter then (changed.size : ℤ) - (info.size : ℤ) else 0 := by
  unfold countChange
  rw [wired.type, wired'.type, wired'.accountType]
  cases side <;> cases request <;> cases counter <;> simp [limitType, addLive_live] <;> omega

end TradingApp.Account.TradeAccount

namespace TradingApp.Orders

open TradingApp.Account TradingApp.Transition

variable {α : Type} [DecidableEq α]

namespace OrderSystem

/-- The lots of some orders that count for a live counter of an account. -/
def liveLots (system : OrderSystem α) (a : α) (counter : RequestType) (ids : Finset ℕ) : ℤ :=
  ∑ id ∈ ids,
    if (system.info id).onFillFunction = some (a, counter) then ((system.info id).size : ℤ) else 0

variable {system : OrderSystem α} {ledger : Ledger} {label : Label α} {a b : α}
  {counter request : RequestType}

theorem liveLots_union {first second : Finset ℕ} (disjoint : Disjoint first second) :
    system.liveLots a counter (first ∪ second) =
      system.liveLots a counter first + system.liveLots a counter second :=
  Finset.sum_union disjoint

/-- Orders that were sent keep counting for the same lots. -/
theorem liveLots_step (wired : Wired system) {ids : Finset ℕ}
    (sent : ∀ id ∈ ids, id ≤ system.requestIdGenerator) :
    (system.step label).liveLots a counter ids = system.liveLots a counter ids := by
  refine Finset.sum_congr rfl fun id member => ?_
  have later := (step_spec system label).later wired (sent id member)
  rw [later.fill, later.size]

@[simp]
theorem liveLots_none : system.liveLots a counter (Option.toFinset none) = 0 :=
  rfl

theorem liveLots_some {id : ℕ} (posted : system.Posted id b request) :
    system.liveLots a counter (some id).toFinset =
      if a = b ∧ request = counter then ((system.info id).size : ℤ) else 0 := by
  have owner : some (b, request) = some (a, counter) ↔ a = b ∧ request = counter := by
    rw [Option.some.injEq, Prod.mk.injEq, @eq_comm α b a]
  unfold liveLots
  rw [Option.toFinset_some, Finset.sum_singleton, posted.wired.fill]
  simp only [owner]

/-! ## Steps -/

/-- What a step adds to a live counter. -/
def liveDelta (system : OrderSystem α) (label : Label α) (a : α) (counter : RequestType) : ℤ :=
  system.liveLots a counter ((system.finished label).bind Wait.posted).toFinset -
        system.liveLots a counter ((system.finished label).bind Wait.original).toFinset -
      system.liveLots a counter (system.messaged .done label).toFinset -
    system.liveLots a counter (system.withdrawn label).toFinset

omit [DecidableEq α] in
/-- Live counters change when a thread runs on, and when an order is done. -/
theorem Books.live {account : TradeAccount} (books : Books system label b account)
    (counted : ∀ a sent wait, label = .advance a sent → system.thread a ≠ .acknowledged wait)
    (withdrawn : ∀ a sent id rest asleep, label = .advance a sent →
      system.thread a = .waiting (.cancel id rest) asleep → (system.info id).cancelStage ≠ .done)
    (done : ∀ id order, label = .onOrder id order → id ∈ system.orderHash →
      order.condition ≠ .done) (counter : RequestType) :
    account.live counter = (system.account b).live counter := by
  cases books with
  | same => rfl
  | clears => cases counter <;> rfl
  | withdraws id rest asleep sent isLabel thread stage =>
      exact absurd stage (withdrawn b sent id rest asleep isLabel thread)
  | counts request id sent isLabel thread => exact absurd thread (counted b sent _ isLabel)
  | countsChange original id newSize sent isLabel thread =>
      exact absurd thread (counted b sent _ isLabel)
  | done id order isLabel found condition => exact absurd condition (done id order isLabel found)
  | fills => exact TradeAccount.onFill_live _ _ _ _ _ _ _

theorem setAccount_live (account : TradeAccount) (lots : ℤ)
    (changed : account.live counter =
      (system.account a).live counter + if request = counter then lots else 0) :
    ((system.setAccount a account).account b).live counter =
      (system.account b).live counter + if b = a ∧ request = counter then lots else 0 := by
  rw [setAccount_account, Function.update_apply]
  by_cases same : b = a
  · subst same
    rw [if_pos rfl, changed]
    simp only [true_and]
  · rw [if_neg same, if_neg fun both => same both.1, add_zero]

section Entered

variable (entered : Entered (system, ledger))

include entered

/-- A call that returns counts its order, in place of the one it has replaced. -/
theorem Entered.live_finish {wait : Wait} (thread : system.thread a = .acknowledged wait)
    (b : α) (counter : RequestType) :
    ((system.finish a wait).account b).live counter =
      (system.account b).live counter +
        (system.liveLots b counter wait.posted.toFinset -
          system.liveLots b counter wait.original.toFinset) := by
  have waits : (system.thread a).wait = some wait := by
    rw [thread]
    rfl
  have waitWired : system.WaitWired a wait := entered.wired.thread a wait waits
  have here := entered.waits a wait waits
  cases wait with
  | acknowledgement request id =>
      have posted : system.Posted id a request := waitWired
      change _ = _ + (system.liveLots b counter (some id).toFinset - 0)
      rw [liveLots_some posted, sub_zero]
      exact setAccount_live _ _ (TradeAccount.addLive_live _ _ _ _)
  | change original id newSize =>
      obtain ⟨request, before, posted⟩ := waitWired
      change _ = _ + (system.liveLots b counter (some id).toFinset -
        system.liveLots b counter (some original).toFinset)
      rw [liveLots_some posted, liveLots_some before]
      unfold finish
      dsimp only
      rw [setThread_account]
      split
      · rw [setAccount_live _ _ (TradeAccount.countChange_live _ before.wired posted.wired counter)]
        split <;> omega
      · rename_i unchanged
        have size : (system.info id).size = (system.info original).size :=
          here.2.2.2 (Nat.eq_zero_of_not_pos unchanged)
        rw [size, sub_self, add_zero]
  | cancel id rest => exact (add_zero _).symm

/-- A cancellation that was confirmed takes its order off. -/
theorem Entered.live_withdraw {id : ℕ} {rest : Option (List ℕ)} {asleep : Bool} (sent : Bool)
    (thread : system.thread a = .waiting (.cancel id rest) asleep)
    (stage : (system.info id).cancelStage = .done) (b : α) (counter : RequestType) :
    ((system.step (.advance a sent)).account b).live counter =
      (system.account b).live counter + system.liveDelta (.advance a sent) b counter := by
  have waits : (system.thread a).wait = some (.cancel id rest) := by
    rw [thread]
    rfl
  have waitWired : system.WaitWired a (.cancel id rest) := entered.wired.thread a _ waits
  obtain ⟨⟨request, posted⟩, _⟩ := waitWired
  obtain ⟨acknowledged, out⟩ := entered.waits a _ waits
  have openSize : (system.info id).order.openSize = (system.info id).size := by
    rcases entered.canceled id (entered.cancelled id stage) acknowledged with
      withdrawn | ⟨_, _, _, _, _, openSize⟩
    · exact absurd withdrawn out
    · exact openSize
  have finished : system.finished (.advance a sent) = none := by
    simp [OrderSystem.finished, thread]
  have withdrawn : system.withdrawn (.advance a sent) = some id := by
    simp [OrderSystem.withdrawn, thread, stage]
  have delta : system.liveDelta (.advance a sent) b counter =
      -(if b = a ∧ request = counter then ((system.info id).size : ℤ) else 0) := by
    unfold liveDelta
    rw [finished, withdrawn, liveLots_some posted]
    exact zero_sub _
  have subtracted :
      ((system.account a).subtractLive (system.info id)
          (system.info id).order.openSize).live counter =
        (system.account a).live counter +
          if request = counter then -((system.info id).size : ℤ) else 0 := by
    rw [TradeAccount.subtractLive_live _ posted.wired, openSize]
    split <;> omega
  rw [step_cancelled sent thread stage, setThread_account, setAccount_live _ _ subtracted, delta]
  split <;> omega

theorem Entered.live_advance (sent : Bool) (b : α) (counter : RequestType) :
    ((system.step (.advance a sent)).account b).live counter =
      (system.account b).live counter + system.liveDelta (.advance a sent) b counter := by
  -- a step that counts nothing
  have quiet (finished : system.finished (.advance a sent) = none)
      (withdrawn : system.withdrawn (.advance a sent) = none)
      (counted : ∀ wait, system.thread a ≠ .acknowledged wait)
      (cancels : ∀ id rest asleep, system.thread a = .waiting (.cancel id rest) asleep →
        (system.info id).cancelStage ≠ .done) :
      ((system.step (.advance a sent)).account b).live counter =
        (system.account b).live counter + system.liveDelta (.advance a sent) b counter := by
    have delta : system.liveDelta (.advance a sent) b counter = 0 := by
      unfold liveDelta
      rw [finished, withdrawn]
      rfl
    rw [delta, add_zero]
    refine ((step_spec system _).books b).live ?_ ?_ ?_ counter
    · rintro _ _ wait same
      cases same
      exact counted wait
    · rintro _ _ id rest asleep same
      cases same
      exact cancels id rest asleep
    · rintro _ _ same
      cases same
  cases thread : system.thread a with
  | idle | cancelling =>
      refine quiet ?_ ?_ ?_ ?_ <;> simp [finished, OrderSystem.withdrawn, thread]
  | acknowledged wait =>
      have finished : system.finished (.advance a sent) = some wait :=
        finished_eq_some.mpr ⟨a, sent, rfl, thread⟩
      have withdrawn : system.withdrawn (.advance a sent) = none := by
        simp [OrderSystem.withdrawn, thread]
      have delta : system.liveDelta (.advance a sent) b counter =
          system.liveLots b counter wait.posted.toFinset -
            system.liveLots b counter wait.original.toFinset := by
        unfold liveDelta
        rw [finished, withdrawn]
        exact (sub_zero _).trans (sub_zero _)
      rw [step_acknowledged sent thread, delta]
      exact entered.live_finish thread b counter
  | waiting wait asleep =>
      cases wait with
      | acknowledgement | change =>
          refine quiet ?_ ?_ ?_ ?_ <;> simp [finished, OrderSystem.withdrawn, thread]
      | cancel id rest =>
          by_cases stage : (system.info id).cancelStage = .done
          · exact entered.live_withdraw sent thread stage b counter
          · refine quiet ?_ ?_ ?_ ?_ <;> simp [finished, OrderSystem.withdrawn, thread, stage]

theorem Entered.live_onOrder (id : ℕ) (order : OrderMessage) (b : α) (counter : RequestType) :
    ((system.step (.onOrder id order)).account b).live counter =
      (system.account b).live counter + system.liveDelta (.onOrder id order) b counter := by
  by_cases counts : id ∈ system.orderHash ∧ order.condition = .done
  · obtain ⟨found, condition⟩ := counts
    obtain ⟨a, request, posted⟩ : ∃ a request, system.Posted id a request :=
      entered.wired.posted_of_mem_orderHash found
    have messaged : system.messaged .done (.onOrder id order) = some id :=
      if_pos ⟨found, condition⟩
    have delta : system.liveDelta (.onOrder id order) b counter =
        -(if b = a ∧ request = counter then ((system.info id).size : ℤ) else 0) := by
      unfold liveDelta
      rw [messaged, liveLots_some posted]
      exact (sub_zero _).trans (zero_sub _)
    have subtracted : ((system.account a).countDone (system.info id)).live counter =
        (system.account a).live counter +
          if request = counter then -((system.info id).size : ℤ) else 0 := by
      rw [TradeAccount.countDone_live _ posted.wired]
      split <;> omega
    have after : (system.step (.onOrder id order)).account =
        (system.setAccount a ((system.account a).countDone (system.info id))).account := by
      rw [step_onOrder found, onOrderFound_account, condition, posted.wired.done]
      rfl
    rw [after, setAccount_live _ _ subtracted, delta]
    split <;> omega
  · have delta : system.liveDelta (.onOrder id order) b counter = 0 := by
      unfold liveDelta
      rw [show system.messaged .done (.onOrder id order) = none from if_neg counts]
      rfl
    rw [delta, add_zero]
    refine ((step_spec system _).books b).live ?_ ?_ ?_ counter
    · rintro _ _ _ same
      cases same
    · rintro _ _ _ _ _ same
      cases same
    · rintro _ _ same found condition
      cases same
      exact counts ⟨found, condition⟩

/-- Every step adds to a live counter what it adds to the ledger. -/
theorem Entered.live_step (label : Label α) (b : α) (counter : RequestType) :
    ((system.step label).account b).live counter =
      (system.account b).live counter + system.liveDelta label b counter := by
  cases label with
  | advance a sent => exact entered.live_advance sent b counter
  | onOrder id order => exact entered.live_onOrder id order b counter
  | _ =>
      refine ((((step_spec system _).books b).live ?_ ?_ ?_ counter).trans (add_zero _).symm)
      · rintro _ _ _ same
        cases same
      · rintro _ _ _ _ _ same
        cases same
      · rintro _ _ same
        cases same

end Entered

/-! ## Runs -/

/-- The counters are those of the orders in the ledger. -/
def Balanced (state : OrderSystem α × Ledger) : Prop :=
  ∀ a counter, (state.1.account a).live counter =
    state.1.liveLots a counter state.2.accepted - state.1.liveLots a counter state.2.replaced -
        state.1.liveLots a counter state.2.done -
      state.1.liveLots a counter state.2.withdrawn

theorem balanced_start (accountType : OrderAccountType) {account : α → TradeAccount}
    (none : ∀ a counter, (account a).live counter = 0) :
    Balanced (start accountType account, Ledger.empty) :=
  none

omit [DecidableEq α] in
/-- What a step adds to the ledger is new. -/
theorem Entered.new_entries (entered : Entered (system, ledger)) (label : Label α) :
    Disjoint ledger.accepted ((system.finished label).bind Wait.posted).toFinset ∧
      Disjoint ledger.replaced ((system.finished label).bind Wait.original).toFinset ∧
      Disjoint ledger.done (system.messaged .done label).toFinset ∧
      Disjoint ledger.withdrawn (system.withdrawn label).toFinset := by
  have returns {a : α} {wait : Wait} (thread : system.thread a = .acknowledged wait) :
      WaitEntered (system, ledger) wait := by
    apply entered.waits a
    rw [thread]
    rfl
  refine ⟨?_, ?_, ?_, ?_⟩ <;> refine Finset.disjoint_right.mpr fun id member => ?_
  · obtain ⟨a, sent, wait, _, thread, posted⟩ := mem_finished.mp member
    have here := returns thread
    cases wait with
    | acknowledgement request key =>
        obtain rfl := Option.some.inj posted
        exact here.1
    | change original key newSize =>
        obtain rfl := Option.some.inj posted
        exact here.1
    | cancel key rest => cases posted
  · obtain ⟨a, sent, wait, _, thread, isOriginal⟩ := mem_finished.mp member
    have here := returns thread
    cases wait with
    | acknowledgement request key => cases isOriginal
    | change original key newSize =>
        obtain rfl := Option.some.inj isOriginal
        obtain ⟨out, isParent, _⟩ := here
        intro replaced
        obtain ⟨_, new, accepted, isParent'⟩ := entered.replaced _ replaced
        have same : new = key := entered.only new (entered.accepted new accepted).1 key
          (entered.passed a _ key thread rfl) _ isParent' isParent
        exact out (same ▸ accepted)
    | cancel key rest => cases isOriginal
  · obtain ⟨_, _, found, _⟩ := mem_messaged.mp member
    exact (entered.notEnded found).1
  · obtain ⟨a, sent, rest, asleep, _, thread, _⟩ := mem_withdrawn.mp member
    have waits : (system.thread a).wait = some (.cancel id rest) := by
      rw [thread]
      rfl
    exact (entered.waits a _ waits).2

theorem Balanced.step (entered : Entered (system, ledger)) (balanced : Balanced (system, ledger)) :
    Balanced (system.step label, system.ledger ledger label) := by
  intro a counter
  obtain ⟨newAccepted, newReplaced, newDone, newWithdrawn⟩ := entered.new_entries label
  have before : (system.account a).live counter =
      system.liveLots a counter ledger.accepted - system.liveLots a counter ledger.replaced -
          system.liveLots a counter ledger.done -
        system.liveLots a counter ledger.withdrawn :=
    balanced a counter
  have accepted : (system.step label).liveLots a counter (system.ledger ledger label).accepted =
      system.liveLots a counter ledger.accepted +
        system.liveLots a counter ((system.finished label).bind Wait.posted).toFinset :=
    (liveLots_step entered.wired fun _ member =>
      entered.le_of_acknowledged (entered.accepted_step member).1).trans
        (liveLots_union newAccepted)
  have replaced : (system.step label).liveLots a counter (system.ledger ledger label).replaced =
      system.liveLots a counter ledger.replaced +
        system.liveLots a counter ((system.finished label).bind Wait.original).toFinset :=
    (liveLots_step entered.wired fun _ member =>
      entered.le_of_acknowledged (entered.replaced_step member).1).trans
        (liveLots_union newReplaced)
  have done : (system.step label).liveLots a counter (system.ledger ledger label).done =
      system.liveLots a counter ledger.done +
        system.liveLots a counter (system.messaged .done label).toFinset := by
    refine (liveLots_step entered.wired fun id member => ?_).trans (liveLots_union newDone)
    rcases mem_done_step.mp member with old | ⟨_, _, found, _⟩
    · exact (entered.ended id (Or.inl old)).1
    · exact (entered.wired.hash id found).2
  have withdrawn : (system.step label).liveLots a counter (system.ledger ledger label).withdrawn =
      system.liveLots a counter ledger.withdrawn +
        system.liveLots a counter (system.withdrawn label).toFinset :=
    (liveLots_step entered.wired fun _ member =>
      entered.le_of_acknowledged (entered.withdrawn_step member).1).trans
        (liveLots_union newWithdrawn)
  change ((system.step label).account a).live counter = _
  rw [entered.live_step label a counter, before, accepted, replaced, done, withdrawn]
  unfold liveDelta
  ring

/-! ## Terminal orders -/

omit [DecidableEq α] in
theorem counting_of_posted {wait : Wait} {id : ℕ} (waits : (system.thread a).wait = some wait)
    (posted : wait.posted = some id) (acknowledged : id ∈ ledger.acknowledged) :
    Counting (system, ledger) a := by
  unfold Counting
  dsimp only
  cases thread : system.thread a with
  | waiting other asleep =>
      rw [thread] at waits
      obtain rfl := Option.some.inj waits
      cases other with
      | acknowledgement | change => exact ⟨id, acknowledged, posted⟩
      | cancel => cases posted
  | acknowledged other =>
      rw [thread] at waits
      obtain rfl := Option.some.inj waits
      exact ⟨id, acknowledged, posted⟩
  | idle | cancelling =>
      rw [thread] at waits
      cases waits

section Clear

variable (entered : Entered (system, ledger)) (counted : ¬ Counting (system, ledger) a)
  (terminal : ∀ id ∈ ledger.acknowledged,
    (system.info id).onAcknowledgementFunction = some a → ledger.Terminal id)

include entered counted terminal

omit [DecidableEq α]

/-- An order that is terminal was counted. -/
theorem Entered.accepted_of_terminal {id : ℕ} (acknowledged : id ∈ ledger.acknowledged)
    (posted : system.Posted id a request) : id ∈ ledger.accepted := by
  rcases entered.lives id acknowledged with accepted | rejected | ⟨b, wait, waits, isPosted, _⟩
  · exact accepted
  · obtain ⟨_, notDone, notCanceled, notChanged⟩ := rejected
    cases terminal id acknowledged posted.wired.acknowledgement with
    | done member => exact absurd member notDone
    | canceled member => exact absurd member notCanceled
    | changed member => exact absurd member notChanged
  · obtain ⟨_, other⟩ := entered.posted_of_wait waits isPosted
    obtain rfl := (posted.unique other).1
    exact absurd (counting_of_posted waits isPosted acknowledged) counted

/-- It was also taken off again. -/
theorem Entered.taken_off {id : ℕ} (acknowledged : id ∈ ledger.acknowledged)
    (posted : system.Posted id a request) :
    id ∈ ledger.replaced ∨ id ∈ ledger.done ∨ id ∈ ledger.withdrawn := by
  cases terminal id acknowledged posted.wired.acknowledgement with
  | done member => exact Or.inr (Or.inl member)
  | canceled member =>
      rcases entered.canceled id member acknowledged with
        withdrawn | ⟨b, rest, asleep, thread, stage, _⟩
      · exact Or.inr (Or.inr withdrawn)
      · have waits : (system.thread b).wait = some (.cancel id rest) := by
          rw [thread]
          rfl
        have waitWired : system.WaitWired b (.cancel id rest) := entered.wired.thread b _ waits
        obtain ⟨⟨_, other⟩, _⟩ := waitWired
        obtain rfl := (posted.unique other).1
        have counting : Counting (system, ledger) a := by
          unfold Counting
          dsimp only
          rw [thread]
          exact stage
        exact absurd counting counted
  | changed member replaces isNew =>
      left
      obtain ⟨b, request', before, after⟩ :=
        entered.parents _ id (entered.acknowledged_le isNew) replaces
      obtain ⟨rfl, rfl⟩ := posted.unique before
      have accepted := entered.accepted_of_terminal counted terminal isNew after
      exact (entered.accepted _ accepted).2 id replaces

end Clear

/-- Only the orders of a counter's account matter to it. -/
theorem liveLots_congr {first second : Finset ℕ}
    (same : ∀ id, (system.info id).onFillFunction = some (a, counter) →
      (id ∈ first ↔ id ∈ second)) :
    system.liveLots a counter first = system.liveLots a counter second := by
  unfold liveLots
  rw [← Finset.sum_filter, ← Finset.sum_filter]
  congr 1
  ext id
  rw [Finset.mem_filter, Finset.mem_filter]
  exact and_congr_left fun owned => same id owned

omit [DecidableEq α] in
/-- An order is taken off in one way. -/
theorem Entered.taken_off_once (entered : Entered (system, ledger)) :
    Disjoint ledger.replaced ledger.done ∧
      Disjoint (ledger.replaced ∪ ledger.done) ledger.withdrawn := by
  have unreplaced {id : ℕ} (acknowledged : id ∈ ledger.acknowledged)
      (ended : id ∈ ledger.done ∨ id ∈ ledger.canceled) : id ∉ ledger.replaced := by
    intro replaced
    obtain ⟨_, new, accepted, isParent⟩ := entered.replaced id replaced
    exact entered.unreplaced id acknowledged ended new (entered.accepted new accepted).1 isParent
  constructor <;> refine Finset.disjoint_right.mpr fun id member => ?_
  · exact unreplaced (entered.done id member) (Or.inl member)
  · obtain ⟨acknowledged, canceled, _⟩ := entered.withdrawn id member
    rw [Finset.mem_union]
    rintro (replaced | done)
    · exact unreplaced acknowledged (Or.inr canceled) replaced
    · exact ((entered.apart id).1 done).1 canceled

/-- The counters of an account come back to zero. -/
theorem Balanced.countersClear (entered : Entered (system, ledger))
    (balanced : Balanced (system, ledger)) : CountersClear (system, ledger) := by
  intro a counted terminal counter
  obtain ⟨once, once'⟩ := entered.taken_off_once
  have same : system.liveLots a counter ledger.accepted =
      system.liveLots a counter (ledger.replaced ∪ ledger.done ∪ ledger.withdrawn) := by
    refine liveLots_congr fun id owned => ?_
    have posted (acknowledged : id ∈ ledger.acknowledged) :
        ∃ request, system.Posted id a request := by
      obtain ⟨b, request, posted⟩ := entered.posted id acknowledged
      obtain ⟨rfl, rfl⟩ := Prod.mk.inj (Option.some.inj (posted.wired.fill.symm.trans owned))
      exact ⟨_, posted⟩
    have accepted (acknowledged : id ∈ ledger.acknowledged) : id ∈ ledger.accepted := by
      obtain ⟨_, posted⟩ := posted acknowledged
      exact entered.accepted_of_terminal counted terminal acknowledged posted
    rw [Finset.mem_union, Finset.mem_union, or_assoc]
    constructor
    · intro member
      have acknowledged := (entered.accepted id member).1
      obtain ⟨_, posted⟩ := posted acknowledged
      exact entered.taken_off counted terminal acknowledged posted
    · rintro (replaced | done | withdrawn)
      · exact accepted (entered.replaced id replaced).1
      · exact accepted (entered.done id done)
      · exact accepted (entered.withdrawn id withdrawn).1
  have before : (system.account a).live counter =
      system.liveLots a counter ledger.accepted - system.liveLots a counter ledger.replaced -
          system.liveLots a counter ledger.done -
        system.liveLots a counter ledger.withdrawn :=
    balanced a counter
  change (system.account a).live counter = 0
  rw [before, same, liveLots_union once', liveLots_union once]
  ring

/-- In every run whose messages come in order, and in which orders are cancelled
on request and with nothing filled, the live counters come back to zero. -/
theorem counters_clear (accountType : OrderAccountType) {account : α → TradeAccount}
    (none : ∀ a counter, (account a).live counter = 0) {labels : List (Label α)}
    (reports : EveryStep (recording OrderSystem.step OrderSystem.ledger) ReportsUnfilled
      (start accountType account, Ledger.empty) labels)
    (orderly : EveryStep (recording OrderSystem.step OrderSystem.ledger) Orderly
      (start accountType account, Ledger.empty) labels)
    (cancels : EveryStep (recording OrderSystem.step OrderSystem.ledger) CancelsUnfilled
      (start accountType account, Ledger.empty) labels) :
    EveryState (recording OrderSystem.step OrderSystem.ledger) CountersClear
      (start accountType account, Ledger.empty) labels := by
  have both : EveryState (recording OrderSystem.step OrderSystem.ledger)
      (fun state => Entered state ∧ Balanced state) (start accountType account, Ledger.empty)
      labels := by
    refine everyState_of_everyStep ?_
      ⟨entered_start accountType account, balanced_start accountType none⟩
      ((everyStep_and_iff _ _).mpr ⟨reports, (everyStep_and_iff _ _).mpr ⟨orderly, cancels⟩⟩)
    rintro ⟨system, ledger⟩ label ⟨entered, balanced⟩ ⟨reports, orderly, cancels⟩
    exact ⟨entered.step reports orderly cancels, balanced.step entered⟩
  exact both.mono fun _ inv => inv.2.countersClear inv.1

/-- An order for ten lots is reduced to six and done after two fills; another one
is cancelled before it is filled. -/
def filledAndCancelled : List (Label Unit) :=
  let other : TradeAccount := .init .short ['S'] ['X'] 1 0
  [.post .open () 5 10 ⟨true, true⟩, .onOrder 1 ⟨.new, 10⟩, .advance () true, .advance () true,
    .change () 1 6 6 ⟨true, true⟩, .onOrder 2 ⟨.new, 6⟩, .onOrder 1 ⟨.changed, 10⟩,
    .advance () true, .advance () true, .onFill 2 6 4 2 other, .onFill 2 6 2 0 other,
    .onOrder 2 ⟨.done, 0⟩, .post .close () 7 3 ⟨true, true⟩, .onOrder 3 ⟨.new, 3⟩,
    .advance () true, .advance () true, .cancel () 3 true, .onOrder 3 ⟨.canceled, 3⟩,
    .advance () true]

theorem counters_clear_filledAndCancelled :
    EveryState (recording OrderSystem.step OrderSystem.ledger) CountersClear
        (singleSymbol, Ledger.empty) filledAndCancelled ∧
      (run (recording OrderSystem.step OrderSystem.ledger) (singleSymbol, Ledger.empty)
        filledAndCancelled).2.acknowledged = {1, 2, 3} := by
  refine ⟨counters_clear _ ?_ (by decide +kernel) (by decide +kernel) (by decide +kernel),
    by decide +kernel⟩
  intro _ counter
  cases counter <;> rfl

/-- An order for ten lots is filled for four, and the other six are cancelled. -/
def cancelledAfterFill : List (Label Unit) :=
  let other : TradeAccount := .init .short ['S'] ['X'] 1 0
  [.post .open () 5 10 ⟨true, true⟩, .onOrder 1 ⟨.new, 10⟩, .advance () true, .advance () true,
    .onFill 1 5 4 6 other, .cancel () 1 true, .onOrder 1 ⟨.canceled, 6⟩, .advance () true]

/-- The four lots stay on the counter. -/
theorem not_countersClear_cancelledAfterFill :
    ¬ ∀ labels, EveryStep (recording OrderSystem.step OrderSystem.ledger) ReportsUnfilled
        (singleSymbol, Ledger.empty) labels →
      EveryStep (recording OrderSystem.step OrderSystem.ledger) Orderly
        (singleSymbol, Ledger.empty) labels →
      EveryState (recording OrderSystem.step OrderSystem.ledger) CountersClear
        (singleSymbol, Ledger.empty) labels := by
  intro all
  have clear := (all cancelledAfterFill (by decide +kernel) (by decide +kernel)).last ()
  have idle : (run (recording OrderSystem.step OrderSystem.ledger) (singleSymbol, Ledger.empty)
      cancelledAfterFill).1.thread () = .idle 1 := by
    decide +kernel
  have canceled : ∀ id ∈ (run (recording OrderSystem.step OrderSystem.ledger)
      (singleSymbol, Ledger.empty) cancelledAfterFill).2.acknowledged,
        id ∈ (run (recording OrderSystem.step OrderSystem.ledger) (singleSymbol, Ledger.empty)
          cancelledAfterFill).2.canceled := by
    decide +kernel
  refine absurd (clear ?_ (fun id member _ => .canceled (canceled id member)) .open)
    (by decide +kernel)
  unfold Counting
  rw [idle]
  exact not_false

end OrderSystem

end TradingApp.Orders
