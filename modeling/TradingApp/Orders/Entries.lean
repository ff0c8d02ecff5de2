import TradingApp.Orders.Ledger
import TradingApp.Orders.Threads

/-!
# Orders are entered once

What the ledger says of the orders, of the threads that wait for them and of
each other stays true while the messages about an order come in order.  There is
one lemma for each entry, and what the messages have to keep to is a hypothesis
of the entries that need it.
-/

namespace TradingApp.Orders

open TradingApp.Account TradingApp.Transition

variable {α : Type} [DecidableEq α]

namespace OrderSystem

variable {system next : OrderSystem α} {ledger : Ledger} {label : Label α}

section Step

variable (entered : Entered (system, ledger))

include entered

omit [DecidableEq α] in
theorem Entered.acknowledged_le {id : ℕ} (member : id ∈ ledger.acknowledged) :
    id ≤ system.requestIdGenerator := by
  obtain ⟨_, _, posted⟩ := entered.posted id member
  exact posted.le

theorem Entered.le_of_acknowledged {id : ℕ}
    (member : id ∈ (system.ledger ledger label).acknowledged) : id ≤ system.requestIdGenerator := by
  rcases mem_acknowledged_step.mp member with before | ⟨_, _, found, _⟩
  · exact entered.acknowledged_le before
  · exact (entered.wired.hash id found).2

theorem Entered.posted_step {id : ℕ}
    (member : id ∈ (system.ledger ledger label).acknowledged) :
    ∃ a request, (system.step label).Posted id a request := by
  have steps : Next system label (system.step label) := step_spec system label
  have here : ∃ a request, system.Posted id a request := by
    rcases mem_acknowledged_step.mp member with before | ⟨_, _, found, _⟩
    · exact entered.posted id before
    · exact entered.wired.posted_of_mem_orderHash found
  obtain ⟨a, request, posted⟩ := here
  exact ⟨a, request, posted.stays steps entered.wired⟩

omit [DecidableEq α] in
/-- An order in the hash has not ended. -/
theorem Entered.notEnded {id : ℕ} (found : id ∈ system.orderHash) :
    id ∉ ledger.done ∧ id ∉ ledger.canceled ∧ id ∉ ledger.changed :=
  ⟨fun member => (entered.ended id (Or.inl member)).2 found,
    fun member => (entered.ended id (Or.inr (Or.inl member))).2 found,
    fun member => (entered.ended id (Or.inr (Or.inr member))).2 found⟩

theorem Entered.ended_step {id : ℕ}
    (member : id ∈ (system.ledger ledger label).done ∨ id ∈ (system.ledger ledger label).canceled ∨
      id ∈ (system.ledger ledger label).changed) :
    id ≤ (system.step label).requestIdGenerator ∧ id ∉ (system.step label).orderHash := by
  have steps : Next system label (system.step label) := step_spec system label
  have old (member : id ∈ ledger.done ∨ id ∈ ledger.canceled ∨ id ∈ ledger.changed) :
      id ≤ (system.step label).requestIdGenerator ∧ id ∉ (system.step label).orderHash := by
    obtain ⟨le, erased⟩ := entered.ended id member
    exact ⟨le.trans steps.requestIdGenerator_le, steps.not_mem_orderHash le erased⟩
  have message {order : OrderMessage} (isLabel : label = .onOrder id order)
      (found : id ∈ system.orderHash) (final : order.condition.isFinal = true) :
      id ≤ (system.step label).requestIdGenerator ∧ id ∉ (system.step label).orderHash := by
    subst isLabel
    exact ⟨(entered.wired.hash id found).2.trans steps.requestIdGenerator_le,
      not_mem_orderHash_of_isFinal found final⟩
  rcases member with member | member | member
  · rcases mem_done_step.mp member with before | ⟨order, isLabel, found, condition⟩
    · exact old (Or.inl before)
    · exact message isLabel found (by rw [condition]; rfl)
  · rcases mem_canceled_step.mp member with before | ⟨order, isLabel, found, condition⟩
    · exact old (Or.inr (Or.inl before))
    · exact message isLabel found (by rw [condition]; rfl)
  · rcases mem_changed_step.mp member with before | ⟨order, isLabel, found, condition⟩
    · exact old (Or.inr (Or.inr before))
    · exact message isLabel found (by rw [condition]; rfl)

theorem Entered.flag_step {id : ℕ} (flag : ((system.step label).info id).acknowledged = true) :
    id ∈ (system.ledger ledger label).acknowledged := by
  have steps : Next system label (system.step label) := step_spec system label
  rw [mem_acknowledged_step]
  by_cases le : id ≤ system.requestIdGenerator
  · rcases (steps.lives le).acknowledged flag with before | ⟨order, isLabel, condition, found⟩
    · exact Or.inl (entered.flag id before)
    · exact Or.inr ⟨order, isLabel, found, condition⟩
  · rcases steps.new_or_same entered.wired (Nat.not_le.mp le) with ⟨creates, rfl⟩ | same
    · rw [creates.acknowledged] at flag
      cases flag
    · rw [same] at flag
      exact Or.inl (entered.flag id flag)

theorem Entered.keys_step {a : α} {id : ℕ} (isKey : id ∈ (system.step label).orders a) :
    id ∈ (system.ledger ledger label).acknowledged := by
  rw [mem_acknowledged_step]
  left
  rcases (step_spec system label).mem_orders isKey with before | ⟨_, _, _, _, flag, _⟩
  · exact entered.keys a id before
  · exact entered.flag id flag

theorem Entered.parents_step {id original : ℕ} (le : id ≤ (system.step label).requestIdGenerator)
    (isParent : (system.ledger ledger label).parent id = some original) :
    ∃ a request, (system.step label).Posted original a request ∧
      (system.step label).Posted id a request := by
  have steps : Next system label (system.step label) := step_spec system label
  by_cases old : id ≤ system.requestIdGenerator
  · rw [ledger_parent_of_le old] at isParent
    obtain ⟨a, request, before, posted⟩ := entered.parents id original old isParent
    exact ⟨a, request, before.stays steps entered.wired, posted.stays steps entered.wired⟩
  · have draws : system.Draws label := fun same => old (same ▸ le)
    obtain ⟨last, creates⟩ := steps.creates entered.wired draws
    obtain rfl : id = system.requestIdGenerator + 1 :=
      Nat.le_antisymm (last ▸ le) (Nat.not_le.mp old)
    rw [ledger_parent_new draws] at isParent
    cases creates with
    | post => cases isParent
    | @change request a key newPrice newSize posting before info posted =>
        obtain rfl := Option.some.inj isParent
        exact ⟨a, request, before.stays steps entered.wired, posted⟩

theorem Entered.apart_step (id : ℕ) :
    (id ∈ (system.ledger ledger label).done →
      id ∉ (system.ledger ledger label).canceled ∧ id ∉ (system.ledger ledger label).changed) ∧
      (id ∈ (system.ledger ledger label).canceled → id ∉ (system.ledger ledger label).changed) := by
  rw [mem_done_step, mem_canceled_step, mem_changed_step]
  obtain ⟨ofDone, ofCanceled⟩ := entered.apart id
  constructor
  · rintro (done | ⟨order, rfl, found, condition⟩)
    · have notFound := (entered.ended id (Or.inl done)).2
      obtain ⟨notCanceled, notChanged⟩ := ofDone done
      constructor
      · rintro (canceled | ⟨_, _, found, _⟩)
        · exact notCanceled canceled
        · exact notFound found
      · rintro (changed | ⟨_, _, found, _⟩)
        · exact notChanged changed
        · exact notFound found
    · obtain ⟨_, notCanceled, notChanged⟩ := entered.notEnded found
      constructor
      · rintro (canceled | ⟨_, same, _, other⟩)
        · exact notCanceled canceled
        · cases same
          rw [condition] at other
          cases other
      · rintro (changed | ⟨_, same, _, other⟩)
        · exact notChanged changed
        · cases same
          rw [condition] at other
          cases other
  · rintro (canceled | ⟨order, rfl, found, condition⟩)
    · have notFound := (entered.ended id (Or.inr (Or.inl canceled))).2
      rintro (changed | ⟨_, _, found, _⟩)
      · exact ofCanceled canceled changed
      · exact notFound found
    · obtain ⟨_, _, notChanged⟩ := entered.notEnded found
      rintro (changed | ⟨_, same, _, other⟩)
      · exact notChanged changed
      · cases same
        rw [condition] at other
        cases other

theorem Entered.cancelled_step {id : ℕ}
    (stage : ((system.step label).info id).cancelStage = .done) :
    id ∈ (system.ledger ledger label).canceled := by
  have steps : Next system label (system.step label) := step_spec system label
  rw [mem_canceled_step]
  by_cases le : id ≤ system.requestIdGenerator
  · rcases (steps.lives le).cancelStage_done stage with
      before | ⟨_, order, isLabel, condition, found⟩
    · exact Or.inl (entered.cancelled id before)
    · exact Or.inr ⟨order, isLabel, found, condition⟩
  · rcases steps.new_or_same entered.wired (Nat.not_le.mp le) with ⟨creates, rfl⟩ | same
    · rw [creates.cancelStage] at stage
      cases stage
    · rw [same] at stage
      exact Or.inl (entered.cancelled id stage)

omit [DecidableEq α] in
/-- The order whose acknowledgement a thread waits for is its own. -/
theorem Entered.posted_of_wait {a : α} {wait : Wait} {id : ℕ}
    (waits : (system.thread a).wait = some wait) (posted : wait.posted = some id) :
    ∃ request, system.Posted id a request := by
  have waitWired := entered.wired.thread a wait waits
  cases wait with
  | acknowledgement request key =>
      obtain rfl := Option.some.inj posted
      exact ⟨request, waitWired⟩
  | change original key newSize =>
      obtain rfl := Option.some.inj posted
      obtain ⟨request, _, isPosted⟩ := waitWired
      exact ⟨request, isPosted⟩
  | cancel key rest => cases posted

omit [DecidableEq α] in
/-- Two threads that wait for one order are one. -/
theorem Entered.same_thread {a b : α} {wait other : Wait} {id : ℕ}
    (waits : (system.thread a).wait = some wait) (posted : wait.posted = some id)
    (waits' : (system.thread b).wait = some other) (posted' : other.posted = some id) : a = b := by
  obtain ⟨_, first⟩ := entered.posted_of_wait waits posted
  obtain ⟨_, second⟩ := entered.posted_of_wait waits' posted'
  exact (first.unique second).1

theorem Entered.waits_old {a : α} {wait : Wait} (before : (system.thread a).wait = some wait)
    (waits : ((system.step label).thread a).wait = some wait) :
    WaitEntered (system.step label, system.ledger ledger label) wait := by
  have steps : Next system label (system.step label) := step_spec system label
  have here := entered.waits a wait before
  have unaccepted {id : ℕ} (posted : wait.posted = some id) (out : id ∉ ledger.accepted) :
      id ∉ (system.ledger ledger label).accepted := by
    intro member
    rcases mem_accepted_step.mp member with isIn | ⟨b, sent, other, rfl, thread, posted'⟩
    · exact out isIn
    · have waits' : (system.thread b).wait = some other := by
        rw [thread]
        rfl
      obtain rfl := entered.same_thread before posted waits' posted'
      rw [wait_step_of_acknowledged sent thread posted'] at waits
      cases waits
  cases wait with
  | acknowledgement request id =>
      obtain ⟨out, orphan⟩ := here
      have posted := entered.wired.thread a _ before
      exact ⟨unaccepted rfl out, (ledger_parent_of_le posted.le).trans orphan⟩
  | change original id newSize =>
      obtain ⟨out, isParent, acknowledged, size⟩ := here
      obtain ⟨request, isOriginal, posted⟩ := entered.wired.thread a _ before
      refine ⟨unaccepted rfl out, (ledger_parent_of_le posted.le).trans isParent,
        mem_acknowledged_step.mpr (Or.inl acknowledged), fun unchanged => ?_⟩
      exact (steps.later entered.wired posted.le).size.trans
        ((size unchanged).trans (steps.later entered.wired isOriginal.le).size.symm)
  | cancel id rest =>
      obtain ⟨acknowledged, out⟩ := here
      refine ⟨mem_acknowledged_step.mpr (Or.inl acknowledged), fun member => ?_⟩
      rcases mem_withdrawn_step.mp member with isIn | ⟨b, sent, later, asleep, rfl, thread, done⟩
      · exact out isIn
      · have waits' : (system.thread b).wait = some (.cancel id later) := by
          rw [thread]
          rfl
        obtain ⟨⟨_, first⟩, _⟩ := entered.wired.thread a _ before
        obtain ⟨⟨_, second⟩, _⟩ := entered.wired.thread b _ waits'
        obtain rfl := (first.unique second).1
        rw [wait_step_of_cancelled sent thread done] at waits
        cases waits

/-- A new order was not counted. -/
theorem Entered.new_not_accepted (draws : system.Draws label) :
    system.requestIdGenerator + 1 ∉ (system.ledger ledger label).accepted := by
  intro member
  rcases mem_accepted_step.mp member with isIn | ⟨b, sent, wait, rfl, thread, posted⟩
  · exact absurd (entered.acknowledged_le (entered.accepted _ isIn).1)
      (Nat.not_succ_le_self _)
  · apply draws
    rw [step_acknowledged sent thread]
    cases wait with
    | acknowledgement request key => rfl
    | change original key newSize =>
        unfold finish
        dsimp only
        split <;> rfl
    | cancel key rest => rfl

theorem Entered.waits_step {a : α} {wait : Wait}
    (waits : ((system.step label).thread a).wait = some wait) :
    WaitEntered (system.step label, system.ledger ledger label) wait := by
  have steps : Next system label (system.step label) := step_spec system label
  have drawn (draws : (system.step label).requestIdGenerator = system.requestIdGenerator + 1) :
      system.Draws label := by
    intro same
    exact Nat.succ_ne_self _ (draws.symm.trans same)
  rcases steps.newWait waits with before | new
  · exact entered.waits_old before waits
  · cases new with
    | post isLabel draws =>
        refine ⟨entered.new_not_accepted (drawn draws), ?_⟩
        change (system.ledger ledger label).parent _ = none
        rw [ledger_parent_new (drawn draws), isLabel]
        rfl
    | @change original newPrice newSize posting isLabel draws isKey =>
        refine ⟨entered.new_not_accepted (drawn draws), ?_,
          mem_acknowledged_step.mpr (Or.inl (entered.keys a original isKey)), ?_⟩
        · change (system.ledger ledger label).parent _ = some original
          rw [ledger_parent_new (drawn draws), isLabel]
          rfl
        · rintro rfl
          obtain ⟨_, creates⟩ := steps.creates entered.wired (drawn draws)
          subst isLabel
          cases creates with
          | change before info =>
              rw [info, (steps.later entered.wired before.le).size]
              exact size_changedInfo a original newPrice
    | @cancel id rest isKey live =>
        have acknowledged := entered.keys a id isKey
        refine ⟨mem_acknowledged_step.mpr (Or.inl acknowledged), fun member => ?_⟩
        rcases mem_withdrawn_step.mp member with isIn | ⟨b, sent, later, asleep, rfl, thread, done⟩
        · have stage := (entered.withdrawn id isIn).2.2
          rw [canCancel_eq_false_of_cancelled stage] at live
          cases live
        · rw [canCancel_eq_false_of_cancelled (entered.erased id done).2.1] at live
          cases live

theorem Entered.passed_step {a : α} {wait : Wait} {id : ℕ}
    (passed : (system.step label).thread a = .acknowledged wait) (posted : wait.posted = some id) :
    id ∈ (system.ledger ledger label).acknowledged := by
  rw [mem_acknowledged_step]
  left
  rcases (step_spec system label).passed passed with before | ⟨asleep, key, thread, isPosted, flag⟩
  · exact entered.passed a wait id before posted
  · obtain rfl := Option.some.inj (isPosted.symm.trans posted)
    exact entered.flag key flag

theorem Entered.accepted_step {id : ℕ} (member : id ∈ (system.ledger ledger label).accepted) :
    id ∈ (system.ledger ledger label).acknowledged ∧
      ∀ original, (system.ledger ledger label).parent id = some original →
        original ∈ (system.ledger ledger label).replaced := by
  rcases mem_accepted_step.mp member with before | ⟨a, sent, wait, rfl, thread, posted⟩
  · obtain ⟨acknowledged, replaced⟩ := entered.accepted id before
    refine ⟨mem_acknowledged_step.mpr (Or.inl acknowledged), fun original isParent => ?_⟩
    rw [ledger_parent_of_le (entered.acknowledged_le acknowledged)] at isParent
    exact mem_replaced_step.mpr (Or.inl (replaced original isParent))
  · have acknowledged := entered.passed a wait id thread posted
    refine ⟨mem_acknowledged_step.mpr (Or.inl acknowledged), fun original isParent => ?_⟩
    rw [ledger_parent_of_le (entered.acknowledged_le acknowledged)] at isParent
    have waits : (system.thread a).wait = some wait := by
      rw [thread]
      rfl
    have here := entered.waits a wait waits
    cases wait with
    | acknowledgement request key =>
        obtain rfl := Option.some.inj posted
        exact absurd (here.2.symm.trans isParent) (Option.some_ne_none original).symm
    | change first key newSize =>
        obtain rfl := Option.some.inj posted
        obtain rfl := Option.some.inj (here.2.1.symm.trans isParent)
        exact mem_replaced_step.mpr (Or.inr ⟨a, sent, _, rfl, thread, rfl⟩)
    | cancel key rest => cases posted

theorem Entered.replaced_step {id : ℕ} (member : id ∈ (system.ledger ledger label).replaced) :
    id ∈ (system.ledger ledger label).acknowledged ∧
      ∃ new ∈ (system.ledger ledger label).accepted,
        (system.ledger ledger label).parent new = some id := by
  rcases mem_replaced_step.mp member with before | ⟨a, sent, wait, rfl, thread, isOriginal⟩
  · obtain ⟨acknowledged, new, accepted, isParent⟩ := entered.replaced id before
    have le := entered.acknowledged_le (entered.accepted new accepted).1
    exact ⟨mem_acknowledged_step.mpr (Or.inl acknowledged), new,
      mem_accepted_step.mpr (Or.inl accepted), (ledger_parent_of_le le).trans isParent⟩
  · have waits : (system.thread a).wait = some wait := by
      rw [thread]
      rfl
    have here := entered.waits a wait waits
    cases wait with
    | acknowledgement request key => cases isOriginal
    | change original key newSize =>
        obtain rfl := Option.some.inj isOriginal
        obtain ⟨_, isParent, acknowledged, _⟩ := here
        obtain ⟨_, _, posted⟩ := entered.wired.thread a _ waits
        exact ⟨mem_acknowledged_step.mpr (Or.inl acknowledged), key,
          mem_accepted_step.mpr (Or.inr ⟨a, sent, _, rfl, thread, rfl⟩),
          (ledger_parent_of_le posted.le).trans isParent⟩
    | cancel key rest => cases isOriginal

theorem Entered.withdrawn_step {id : ℕ} (member : id ∈ (system.ledger ledger label).withdrawn) :
    id ∈ (system.ledger ledger label).acknowledged ∧ id ∈ (system.ledger ledger label).canceled ∧
      ((system.step label).info id).stage = .cancelled := by
  have stays (canceled : id ∈ ledger.canceled) (stage : (system.info id).stage = .cancelled) :
      ((system.step label).info id).stage = .cancelled := by
    obtain ⟨le, erased⟩ := entered.ended id (Or.inr (Or.inl canceled))
    exact (((step_spec system label).lives le).erased erased).1.trans stage
  rcases mem_withdrawn_step.mp member with before | ⟨a, sent, rest, asleep, rfl, thread, done⟩
  · obtain ⟨acknowledged, canceled, stage⟩ := entered.withdrawn id before
    exact ⟨mem_acknowledged_step.mpr (Or.inl acknowledged),
      mem_canceled_step.mpr (Or.inl canceled), stays canceled stage⟩
  · have waits : (system.thread a).wait = some (.cancel id rest) := by
      rw [thread]
      rfl
    have acknowledged := (entered.waits a _ waits).1
    have canceled := entered.cancelled id done
    exact ⟨mem_acknowledged_step.mpr (Or.inl acknowledged),
      mem_canceled_step.mpr (Or.inl canceled), stays canceled (entered.erased id done).2.1⟩

/-! ## Orderly messages -/

theorem Entered.done_step (orderly : Orderly (system, ledger) label) {id : ℕ}
    (member : id ∈ (system.ledger ledger label).done) :
    id ∈ (system.ledger ledger label).acknowledged := by
  rw [mem_acknowledged_step]
  left
  rcases mem_done_step.mp member with before | ⟨order, rfl, found, condition⟩
  · exact entered.done id before
  · exact ((orderly found).2.1 condition).1

theorem Entered.only_step (orderly : Orderly (system, ledger) label) {id other original : ℕ}
    (member : id ∈ (system.ledger ledger label).acknowledged)
    (member' : other ∈ (system.ledger ledger label).acknowledged)
    (isParent : (system.ledger ledger label).parent id = some original)
    (isParent' : (system.ledger ledger label).parent other = some original) : id = other := by
  rw [ledger_parent_of_le (entered.le_of_acknowledged member)] at isParent
  rw [ledger_parent_of_le (entered.le_of_acknowledged member')] at isParent'
  by_cases before : id ∈ ledger.acknowledged
  · by_cases before' : other ∈ ledger.acknowledged
    · exact entered.only id before other before' original isParent isParent'
    · rcases mem_acknowledged_step.mp member' with old | ⟨order, rfl, found, condition⟩
      · exact absurd old before'
      · have unreplaced := (((orderly found).1 condition before').2 original isParent').1
        exact absurd isParent (unreplaced id before)
  · rcases mem_acknowledged_step.mp member with old | ⟨order, rfl, found, condition⟩
    · exact absurd old before
    · rcases mem_acknowledged_step.mp member' with old' | ⟨_, same, _, _⟩
      · have unreplaced := (((orderly found).1 condition before).2 original isParent).1
        exact absurd isParent' (unreplaced other old')
      · cases same
        rfl

omit entered in
/-- Only `NEW` acknowledges an order. -/
theorem acknowledged_of_step {id : ℕ}
    (member : id ∈ (system.ledger ledger label).acknowledged)
    (notNew : ∀ order, label = .onOrder id order → order.condition ≠ .new) :
    id ∈ ledger.acknowledged := by
  rcases mem_acknowledged_step.mp member with before | ⟨order, isLabel, _, condition⟩
  · exact before
  · exact absurd condition (notNew order isLabel)

theorem Entered.unreplaced_step (orderly : Orderly (system, ledger) label) {id : ℕ}
    (member : id ∈ (system.ledger ledger label).acknowledged)
    (ended : id ∈ (system.ledger ledger label).done ∨ id ∈ (system.ledger ledger label).canceled) :
    (system.ledger ledger label).Unreplaced id := by
  intro new isNew isParent
  rw [ledger_parent_of_le (entered.le_of_acknowledged isNew)] at isParent
  by_cases before : id ∈ ledger.done ∨ id ∈ ledger.canceled
  · have notFound : id ∉ system.orderHash := (entered.ended id (before.imp_right Or.inl)).2
    rcases mem_acknowledged_step.mp member with acknowledged | ⟨_, _, found, _⟩
    · rcases mem_acknowledged_step.mp isNew with old | ⟨order, rfl, found, condition⟩
      · exact entered.unreplaced id acknowledged before new old isParent
      · by_cases old : new ∈ ledger.acknowledged
        · exact entered.unreplaced id acknowledged before new old isParent
        · obtain ⟨_, notDone, notCanceled⟩ := ((orderly found).1 condition old).2 id isParent
          rcases before with done | canceled
          · exact notDone done
          · exact notCanceled canceled
    · exact notFound found
  · obtain ⟨order, rfl, found, condition⟩ : ∃ order, label = .onOrder id order ∧
        id ∈ system.orderHash ∧ (order.condition = .done ∨ order.condition = .canceled) := by
      rcases ended with done | canceled
      · rcases mem_done_step.mp done with old | ⟨order, isLabel, found, condition⟩
        · exact absurd (Or.inl old) before
        · exact ⟨order, isLabel, found, Or.inl condition⟩
      · rcases mem_canceled_step.mp canceled with old | ⟨order, isLabel, found, condition⟩
        · exact absurd (Or.inr old) before
        · exact ⟨order, isLabel, found, Or.inr condition⟩
    have notNew {key : ℕ} : ∀ other, Label.onOrder (α := α) id order = .onOrder key other →
        other.condition ≠ .new := by
      rintro _ same new
      cases same
      rcases condition with condition | condition
      · cases condition.symm.trans new
      · cases condition.symm.trans new
    have isOld := acknowledged_of_step isNew notNew
    rcases condition with condition | condition
    · exact ((orderly found).2.1 condition).2 new isOld isParent
    · exact (orderly found).2.2 condition (acknowledged_of_step member notNew) new isOld
        isParent

/-- A thread that waits for a cancellation that was confirmed still does, or has
taken the order off. -/
theorem Entered.canceled_stays {a : α} {id : ℕ} {rest : Option (List ℕ)} {asleep : Bool}
    (thread : system.thread a = .waiting (.cancel id rest) asleep)
    (stage : (system.info id).cancelStage = .done)
    (openSize : (system.info id).order.openSize = (system.info id).size) :
    id ∈ (system.ledger ledger label).withdrawn ∨ ∃ asleep,
      (system.step label).thread a = .waiting (.cancel id rest) asleep ∧
        ((system.step label).info id).cancelStage = .done ∧
          ((system.step label).info id).order.openSize = ((system.step label).info id).size := by
  have steps : Next system label (system.step label) := step_spec system label
  have waits : (system.thread a).wait = some (.cancel id rest) := by
    rw [thread]
    rfl
  have inCall : (system.thread a).isIdle = false := by
    rw [thread]
    rfl
  obtain ⟨⟨_, posted⟩, _⟩ := entered.wired.thread a _ waits
  have kept : ((system.step label).info id).cancelStage = .done ∧
      ((system.step label).info id).order.openSize = ((system.step label).info id).size := by
    obtain ⟨_, _, notFound⟩ := entered.erased id stage
    have lives := steps.lives posted.le
    constructor
    · generalize (system.step label).info id = after at lives
      cases lives with
      | asksCancel b free isKey =>
          obtain ⟨_, other⟩ := entered.wired.orders b id isKey
          obtain rfl := (posted.unique other).1
          exact absurd (free.symm.trans waits) (Option.some_ne_none _).symm
      | cancelFails b _ _ _ fails => cases stage.symm.trans fails
      | receives _ found => exact absurd found notFound
      | _ => exact stage
    · rw [(lives.erased notFound).2, (steps.later entered.wired posted.le).size]
      exact openSize
  have moved : _ ∨ _ ∨ ∃ sent, label = .advance a sent := step_thread_of_inCall inCall
  rcases moved with same | woken | ⟨sent, rfl⟩
  · exact Or.inr ⟨asleep, same.trans thread, kept⟩
  · rw [thread] at woken
    exact Or.inr ⟨false, woken, kept⟩
  · exact Or.inl (mem_withdrawn_step.mpr (Or.inr ⟨a, sent, rest, asleep, rfl, thread, stage⟩))

omit [DecidableEq α] entered in
theorem awaitsCancel_eq_true {id : ℕ} (awaits : system.awaitsCancel id = true) :
    ∃ a rest asleep, system.thread a = .waiting (.cancel id rest) asleep := by
  unfold awaitsCancel at awaits
  cases function : (system.info id).onAcknowledgementFunction with
  | none => simp [function] at awaits
  | some a =>
      rw [function] at awaits
      dsimp only at awaits
      split at awaits
      · rename_i key rest asleep thread
        obtain rfl : key = id := of_decide_eq_true awaits
        exact ⟨a, rest, asleep, thread⟩
      · cases awaits

theorem Entered.canceled_step (reports : ReportsUnfilled (system, ledger) label)
    (cancels : CancelsUnfilled (system, ledger) label) {id : ℕ}
    (member : id ∈ (system.ledger ledger label).canceled)
    (acknowledged : id ∈ (system.ledger ledger label).acknowledged) :
    id ∈ (system.ledger ledger label).withdrawn ∨ ∃ a rest asleep,
      (system.step label).thread a = .waiting (.cancel id rest) asleep ∧
        ((system.step label).info id).cancelStage = .done ∧
          ((system.step label).info id).order.openSize = ((system.step label).info id).size := by
  rcases mem_canceled_step.mp member with before | ⟨order, rfl, found, condition⟩
  · have notFound := (entered.ended id (Or.inr (Or.inl before))).2
    have isOld : id ∈ ledger.acknowledged := by
      rcases mem_acknowledged_step.mp acknowledged with isOld | ⟨_, _, found, _⟩
      · exact isOld
      · exact absurd found notFound
    rcases entered.canceled id before isOld with
      withdrawn | ⟨a, rest, asleep, thread, stage, openSize⟩
    · exact Or.inl (mem_withdrawn_step.mpr (Or.inl withdrawn))
    · rcases entered.canceled_stays thread stage openSize with withdrawn | ⟨later, waits⟩
      · exact Or.inl withdrawn
      · exact Or.inr ⟨a, rest, later, waits⟩
  · right
    have isOld : id ∈ ledger.acknowledged := by
      refine acknowledged_of_step acknowledged fun other same new => ?_
      cases same
      cases condition.symm.trans new
    obtain ⟨awaits, unfilled⟩ := cancels found condition isOld
    obtain ⟨a, rest, asleep, thread⟩ := awaitsCancel_eq_true awaits
    have waits : (system.thread a).wait = some (.cancel id rest) := by
      rw [thread]
      rfl
    obtain ⟨⟨_, posted⟩, function⟩ := entered.wired.thread a _ waits
    have openSize := reports condition
    rw [unfilled, Nat.add_zero] at openSize
    have received : (system.step (.onOrder id order)).info id =
        { system.info id with order := order, stage := .cancelled, cancelStage := .done } := by
      rw [step_onOrder found, onOrderFound_info, Function.update_self]
      unfold OrderInfo.receive
      rw [condition]
      exact if_pos (by rw [function]; rfl)
    have woken : (system.step (.onOrder id order)).thread a = .waiting (.cancel id rest) false := by
      rw [step_onOrder found, onOrderFound_thread]
      unfold OrderInfo.notified
      rw [condition, function]
      dsimp only
      rw [Function.update_self, thread]
      rfl
    refine ⟨a, rest, false, woken, ?_⟩
    rw [received]
    exact ⟨rfl, openSize⟩

/-! ## Lives -/

omit entered in
theorem Rejected.step {id : ℕ} (le : id ≤ system.requestIdGenerator)
    (rejected : Rejected (system, ledger) id) :
    Rejected (system.step label, system.ledger ledger label) id := by
  obtain ⟨notFound, notDone, notCanceled, notChanged⟩ := rejected
  refine ⟨(step_spec system label).not_mem_orderHash le notFound, ?_, ?_, ?_⟩
  · rw [mem_done_step]
    rintro (done | ⟨_, _, found, _⟩)
    · exact notDone done
    · exact notFound found
  · rw [mem_canceled_step]
    rintro (canceled | ⟨_, _, found, _⟩)
    · exact notCanceled canceled
    · exact notFound found
  · rw [mem_changed_step]
    rintro (changed | ⟨_, _, found, _⟩)
    · exact notChanged changed
    · exact notFound found

/-- An order is rejected by a message of failure. -/
theorem Entered.rejected_of_failure {id : ℕ} {order : OrderMessage}
    (found : id ∈ system.orderHash) (failure : order.condition.isFailure = true) :
    Rejected (system.step (.onOrder id order), system.ledger ledger (.onOrder id order)) id := by
  obtain ⟨notDone, notCanceled, notChanged⟩ := entered.notEnded found
  have other {condition : OrderCondition} (ends : condition.isFailure = false) :
      ¬ ∃ message, Label.onOrder (α := α) id order = .onOrder id message ∧ id ∈ system.orderHash ∧
        message.condition = condition := by
    rintro ⟨_, same, _, rfl⟩
    cases same
    rw [failure] at ends
    cases ends
  refine ⟨not_mem_orderHash_of_isFinal found (OrderCondition.isFinal_of_isFailure failure), ?_⟩
  rw [mem_done_step, mem_canceled_step, mem_changed_step]
  exact ⟨not_or.mpr ⟨notDone, other rfl⟩, not_or.mpr ⟨notCanceled, other rfl⟩,
    not_or.mpr ⟨notChanged, other rfl⟩⟩

omit entered [DecidableEq α] in
theorem awaits_eq_true {id : ℕ} (awaits : system.awaits id = true) :
    ∃ a wait asleep, (system.info id).onAcknowledgementFunction = some a ∧
      system.thread a = .waiting wait asleep ∧ wait.posted = some id := by
  unfold OrderSystem.awaits at awaits
  cases function : (system.info id).onAcknowledgementFunction with
  | none => simp [function] at awaits
  | some a =>
      rw [function] at awaits
      dsimp only at awaits
      split at awaits
      · rename_i wait asleep thread
        exact ⟨a, wait, asleep, rfl, thread, of_decide_eq_true awaits⟩
      · cases awaits

/-- A call whose order is acknowledged goes on, counts it, or finds it rejected. -/
theorem Entered.lives_stays {a : α} {wait : Wait} {id : ℕ}
    (waits : (system.thread a).wait = some wait) (posted : wait.posted = some id)
    (flag : (system.info id).acknowledged = true) :
    id ∈ (system.ledger ledger label).accepted ∨
      Rejected (system.step label, system.ledger ledger label) id ∨
        ((system.step label).thread a).wait = some wait ∧
          ((system.step label).info id).acknowledged = true := by
  have le : id ≤ system.requestIdGenerator := entered.acknowledged_le (entered.flag id flag)
  have inCall : (system.thread a).isIdle = false := by
    cases thread : system.thread a with
    | idle =>
        rw [thread] at waits
        cases waits
    | _ => rfl
  have moved : _ ∨ _ ∨ ∃ sent, label = .advance a sent := step_thread_of_inCall inCall
  have stays : ((system.step label).info id).acknowledged = true ∨
      Rejected (system.step label, system.ledger ledger label) id := by
    rcases ((step_spec system label).lives le).keepsAcknowledged flag with
      still | ⟨order, rfl, failure, found⟩
    · exact Or.inl still
    · exact Or.inr (entered.rejected_of_failure found failure)
  rcases stays with still | rejected
  · rcases moved with same | woken | ⟨sent, rfl⟩
    · exact Or.inr (Or.inr ⟨same ▸ waits, still⟩)
    · refine Or.inr (Or.inr ⟨?_, still⟩)
      rw [woken]
      cases thread : system.thread a <;> rw [thread] at waits <;> exact waits
    · cases thread : system.thread a with
      | waiting other asleep =>
          rw [thread] at waits
          obtain rfl := Option.some.inj waits
          refine Or.inr (Or.inr ⟨?_, still⟩)
          rw [advance_accepts sent thread posted flag, setThread_thread, Function.update_self]
          rfl
      | acknowledged other =>
          rw [thread] at waits
          obtain rfl := Option.some.inj waits
          exact Or.inl (mem_accepted_step.mpr (Or.inr ⟨a, sent, other, rfl, thread, posted⟩))
      | idle | cancelling =>
          rw [thread] at waits
          cases waits
  · exact Or.inr (Or.inl rejected)

theorem Entered.lives_step (orderly : Orderly (system, ledger) label) {id : ℕ}
    (member : id ∈ (system.ledger ledger label).acknowledged) :
    id ∈ (system.ledger ledger label).accepted ∨
      Rejected (system.step label, system.ledger ledger label) id ∨
        ∃ a wait, ((system.step label).thread a).wait = some wait ∧ wait.posted = some id ∧
          ((system.step label).info id).acknowledged = true := by
  by_cases before : id ∈ ledger.acknowledged
  · rcases entered.lives id before with accepted | rejected | ⟨a, wait, waits, posted, flag⟩
    · exact Or.inl (mem_accepted_step.mpr (Or.inl accepted))
    · exact Or.inr (Or.inl (Rejected.step (entered.acknowledged_le before) rejected))
    · rcases entered.lives_stays waits posted flag with accepted | rejected | ⟨still, flag⟩
      · exact Or.inl accepted
      · exact Or.inr (Or.inl rejected)
      · exact Or.inr (Or.inr ⟨a, wait, still, posted, flag⟩)
  · rcases mem_acknowledged_step.mp member with old | ⟨order, rfl, found, condition⟩
    · exact absurd old before
    · obtain ⟨a, wait, asleep, function, thread, posted⟩ :=
        awaits_eq_true ((orderly found).1 condition before).1
      refine Or.inr (Or.inr ⟨a, wait, ?_, posted, ?_⟩)
      · rw [step_onOrder found, onOrderFound_thread]
        unfold OrderInfo.notified
        rw [condition, function]
        dsimp only
        rw [Function.update_self, thread]
        rfl
      · rw [step_onOrder found, onOrderFound_info, Function.update_self]
        unfold OrderInfo.receive
        rw [condition]
        dsimp only
        rw [if_pos (by rw [function]; rfl)]

/-- The ledger stays as it should be while messages come in order, and orders are
cancelled on request with nothing filled. -/
theorem Entered.step (reports : ReportsUnfilled (system, ledger) label)
    (orderly : Orderly (system, ledger) label) (cancels : CancelsUnfilled (system, ledger) label) :
    Entered (system.step label, system.ledger ledger label) where
  wired := entered.wired.step label
  erased := entered.erased.step entered.wired label
  posted _ member := entered.posted_step member
  ended _ member := entered.ended_step member
  flag _ flag := entered.flag_step flag
  keys _ _ isKey := entered.keys_step isKey
  parents _ _ le isParent := entered.parents_step le isParent
  waits _ _ waits := entered.waits_step waits
  passed _ _ _ passed posted := entered.passed_step passed posted
  lives _ member := entered.lives_step orderly member
  accepted _ member := entered.accepted_step member
  replaced _ member := entered.replaced_step member
  only _ member _ member' _ := entered.only_step orderly member member'
  apart id := entered.apart_step id
  done _ member := entered.done_step orderly member
  unreplaced _ member ended := entered.unreplaced_step orderly member ended
  cancelled _ stage := entered.cancelled_step stage
  canceled _ member acknowledged := entered.canceled_step reports cancels member acknowledged
  withdrawn _ member := entered.withdrawn_step member

end Step

end OrderSystem

end TradingApp.Orders
