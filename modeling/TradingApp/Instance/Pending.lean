import TradingApp.Account.Fills
import TradingApp.Instance.Frame
import TradingApp.Transition.Run

/-!
# Queued requests

The gateway's thread queues requests with `closePending` and `openPending`.
The trading thread sends them: it copies the first one, issues it and waits
for the reply, and after a success takes the first one out of the queue.
Meanwhile a command may empty the queue with `cancelAll`.

Requests are numbered in queueing order.  Numbers never come back, so that the
order and the number of the issues are seen from the numbers issued.
-/

namespace TradingApp.Instance

open TradingApp.Account TradingApp.Transition

/-- Where the trading thread is in `sendPendingOrders`. -/
inductive Sender where
  | idle
  /-- has copied a request, and waits for the reply to it -/
  | issuing (request : PositionRequest)
  | popping
deriving DecidableEq, Repr

/-- A trade account, and how far the trading thread is with the first of its
requests. -/
structure PendingOrders where
  account : TradeAccount
  sender : Sender

namespace PendingOrders

/-- Nothing is queued. -/
def start (account : TradeAccount) : PendingOrders where
  account := { account with pendingOrders := [] }
  sender := .idle

/-- What can happen to the queue. -/
inductive Label where
  | closePending (price : ℚ) (size : ℕ)
  | openPending (price : ℚ) (size : ℕ)
  | cancelAll
  /-- `sendPendingOrders` up to the call of `open` or `close` -/
  | copy
  /-- what `open` or `close` returns -/
  | reply (returned : ℕ)
  | pop
deriving DecidableEq, Repr

/-- A request stays in the queue until its order was sent, and whatever is first
by then is taken out. -/
def step (pending : PendingOrders) : Label → PendingOrders
  | .closePending price size => { pending with account := pending.account.closePending price size }
  | .openPending price size => { pending with account := pending.account.openPending price size }
  | .cancelAll => { pending with account := { pending.account with pendingOrders := [] } }
  | .copy =>
      match pending.sender, pending.account.pendingOrders with
      | .idle, request :: _ => { pending with sender := .issuing request }
      | _, _ => pending
  | .reply returned =>
      match pending.sender with
      | .issuing _ => { pending with sender := if returned = 0 then .idle else .popping }
      | _ => pending
  | .pop =>
      match pending.sender with
      | .popping =>
          { account :=
              { pending.account with pendingOrders := pending.account.pendingOrders.tail }
            sender := .idle }
      | _ => pending

/-! ## What becomes of the requests -/

/-- What has become of the requests, which are numbered as they are queued. -/
structure History where
  /-- what the requests asked for, in queueing order -/
  asked : List RequestType
  /-- the numbers of the requests in the queue -/
  queued : List ℕ
  /-- the number of the request last copied -/
  copied : ℕ
  /-- the numbers of the requests issued with success, and how, newest first -/
  issued : List (ℕ × RequestType)
  /-- the numbers of the requests dropped by `cancelAll` -/
  dropped : List ℕ
  /-- how often a request was to be taken out of an empty queue -/
  emptyPops : ℕ
deriving DecidableEq, Repr

namespace History

/-- Nothing has been asked for. -/
def none : History where
  asked := []
  queued := []
  copied := 0
  issued := []
  dropped := []
  emptyPops := 0

/-- A request is queued. -/
def ask (history : History) (request : RequestType) : History :=
  { history with
    asked := history.asked ++ [request]
    queued := history.queued ++ [history.asked.length] }

/-- The requests issued with success. -/
def issuedNumbers (history : History) : List ℕ :=
  history.issued.map Prod.fst

/-- The number comes before all that are queued or are yet to be. -/
def Passed (history : History) (number : ℕ) : Prop :=
  number < history.asked.length ∧ ∀ later ∈ history.queued, number < later

end History

/-- The history after a step. -/
def history (history : History) (pending : PendingOrders) : Label → History
  | .closePending _ _ => history.ask .close
  | .openPending _ _ => history.ask .open
  | .cancelAll => { history with queued := [], dropped := history.dropped ++ history.queued }
  | .copy =>
      match pending.sender, history.queued with
      | .idle, number :: _ => { history with copied := number }
      | _, _ => history
  | .reply returned =>
      match pending.sender with
      | .issuing request =>
          if returned = 0 then history
          else { history with issued := (history.copied, request.type) :: history.issued }
      | _ => history
  | .pop =>
      match pending.sender with
      | .popping =>
          { history with
            queued := history.queued.tail
            emptyPops :=
              history.emptyPops + if pending.account.pendingOrders = [] then 1 else 0 }
      | _ => history

/-- Requests are issued in queueing order, each at most once and as it asked;
the ones that are no longer queued were issued or dropped; and none is taken
out of an empty queue. -/
structure HandledAsAsked (state : PendingOrders × History) : Prop where
  inOrder : state.2.issuedNumbers.Pairwise (· > ·)
  asAsked : ∀ number request, (number, request) ∈ state.2.issued →
    state.2.asked[number]? = some request
  accounted : ∀ number < state.2.asked.length,
    number ∈ state.2.queued ∨ number ∈ state.2.issuedNumbers ∨ number ∈ state.2.dropped
  noEmptyPop : state.2.emptyPops = 0

/-- A request issued with success is one of `closePending`, and it has not been
dropped when the first request is taken out for it. -/
def Undisturbed (state : PendingOrders × History) : Label → Prop
  | .reply returned =>
      (∃ request, state.1.sender = .issuing request) → returned ≠ 0 →
        state.2.asked[state.2.copied]? = some .close
  | .pop => state.1.sender = .popping → state.2.copied ∉ state.2.dropped
  | _ => True

/-- How the queue, the history and the trading thread fit together. -/
structure Numbered (state : PendingOrders × History) : Prop where
  length : state.1.account.pendingOrders.length = state.2.queued.length
  closes : ∀ request ∈ state.1.account.pendingOrders, request.type = .close
  queued_sorted : state.2.queued.Pairwise (· < ·)
  queued_lt : ∀ number ∈ state.2.queued, number < state.2.asked.length
  dropped : ∀ number ∈ state.2.dropped, state.2.Passed number
  /-- what the thread has copied is first in the queue, or was dropped -/
  copied : state.1.sender ≠ .idle → state.2.copied < state.2.asked.length ∧
    (state.2.copied ∈ state.2.dropped ∨ state.2.queued.head? = some state.2.copied)
  issuing : ∀ request, state.1.sender = .issuing request →
    request.type = .close ∧ ∀ number ∈ state.2.issuedNumbers, number < state.2.copied
  popping : state.1.sender = .popping → state.2.issuedNumbers.head? = some state.2.copied
  issued : state.1.sender ≠ .popping → ∀ number ∈ state.2.issuedNumbers, state.2.Passed number
  handled : HandledAsAsked state

/-- The system with its history. -/
abbrev recorded : PendingOrders × History → Label → PendingOrders × History :=
  recording step history

theorem numbered_start (account : TradeAccount) : Numbered (start account, .none) where
  length := rfl
  closes _ member := nomatch member
  queued_sorted := .nil
  queued_lt _ member := nomatch member
  dropped _ member := nomatch member
  copied busy := absurd rfl busy
  issuing _ issues := nomatch issues
  popping pops := nomatch pops
  issued _ _ member := nomatch member
  handled :=
    { inOrder := .nil
      asAsked := fun _ _ member => nomatch member
      accounted := fun _ lt => absurd lt (Nat.not_lt_zero _)
      noEmptyPop := rfl }

namespace History

variable {events : History} {number : ℕ}

theorem length_ask (request : RequestType) :
    (events.ask request).asked.length = events.asked.length + 1 :=
  List.length_append

/-- What is queued next comes later. -/
theorem Passed.ask (passed : events.Passed number) (request : RequestType) :
    (events.ask request).Passed number := by
  constructor
  · rw [length_ask]
    exact Nat.lt_succ_of_lt passed.1
  · intro later member
    rcases List.mem_append.mp member with before | last
    · exact passed.2 later before
    · rw [List.mem_singleton.mp last]
      exact passed.1

end History

section Step

variable {pending : PendingOrders} {events : History} (numbered : Numbered (pending, events))

include numbered

/-- The last issue is the copied request's. -/
theorem Numbered.issued_le (pops : pending.sender = .popping) :
    ∀ number ∈ events.issuedNumbers, number ≤ events.copied := by
  intro number member
  have last := numbered.popping pops
  have sorted := numbered.handled.inOrder
  cases issues : events.issuedNumbers with
  | nil => rw [issues] at member; cases member
  | cons head rest =>
      rw [issues] at last member
      rw [show events.issuedNumbers = head :: rest from issues] at sorted
      cases last
      rcases List.mem_cons.mp member with same | before
      · exact le_of_eq same
      · exact le_of_lt (List.rel_of_pairwise_cons sorted before)

/-- A request is queued, whatever it asks for, as a close. -/
theorem Numbered.ask (request : RequestType) (price : ℚ) (size : ℕ) :
    Numbered ({ pending with account := pending.account.closePending price size },
      events.ask request) where
  length := by
    have length := numbered.length
    simp only [TradeAccount.closePending, History.ask, List.length_append, List.length_singleton]
    rw [length]
  closes other member := by
    rcases List.mem_append.mp member with before | last
    · exact numbered.closes other before
    · rw [List.mem_singleton.mp last]
  queued_sorted := by
    refine List.pairwise_append.mpr ⟨numbered.queued_sorted, List.pairwise_singleton _ _, ?_⟩
    intro number member last isLast
    rw [List.mem_singleton.mp isLast]
    exact numbered.queued_lt number member
  queued_lt number member := by
    rw [History.length_ask]
    rcases List.mem_append.mp member with before | last
    · exact Nat.lt_succ_of_lt (numbered.queued_lt number before)
    · rw [List.mem_singleton.mp last]
      exact Nat.lt_succ_self _
  dropped number dropped := (numbered.dropped number dropped).ask request
  copied busy := by
    obtain ⟨lt, droppedOrFirst⟩ := numbered.copied busy
    rw [History.length_ask]
    refine ⟨Nat.lt_succ_of_lt lt, ?_⟩
    rcases droppedOrFirst with dropped | first
    · exact Or.inl dropped
    · right
      change (events.queued ++ [events.asked.length]).head? = some events.copied
      rw [List.head?_append, first]
      rfl
  issuing := numbered.issuing
  popping := numbered.popping
  issued notPopping number issued := (numbered.issued notPopping number issued).ask request
  handled :=
    { inOrder := numbered.handled.inOrder
      asAsked := by
        intro number how issued
        have before := numbered.handled.asAsked number how issued
        have lt : number < events.asked.length := (List.getElem?_eq_some_iff.mp before).1
        exact (List.getElem?_append_left lt).trans before
      accounted := by
        intro number lt
        rw [History.length_ask] at lt
        rcases Nat.lt_succ_iff_lt_or_eq.mp lt with before | last
        · rcases numbered.handled.accounted number before with queued | issued | dropped
          · exact Or.inl (List.mem_append_left _ queued)
          · exact Or.inr (Or.inl issued)
          · exact Or.inr (Or.inr dropped)
        · left
          rw [last]
          exact List.mem_append_right _ (List.mem_singleton_self _)
      noEmptyPop := numbered.handled.noEmptyPop }

/-- The queue is emptied. -/
theorem Numbered.cancelAll : Numbered (recorded (pending, events) .cancelAll) where
  length := rfl
  closes _ member := nomatch member
  queued_sorted := .nil
  queued_lt _ member := nomatch member
  dropped number dropped := by
    refine ⟨?_, fun _ member => nomatch member⟩
    rcases List.mem_append.mp dropped with before | queued
    · exact (numbered.dropped number before).1
    · exact numbered.queued_lt number queued
  copied busy := by
    obtain ⟨lt, droppedOrFirst⟩ := numbered.copied busy
    refine ⟨lt, Or.inl ?_⟩
    rcases droppedOrFirst with dropped | first
    · exact List.mem_append_left _ dropped
    · exact List.mem_append_right _ (List.mem_of_head? first)
  issuing := numbered.issuing
  popping := numbered.popping
  issued notPopping number issued :=
    ⟨(numbered.issued notPopping number issued).1, fun _ member => nomatch member⟩
  handled :=
    { inOrder := numbered.handled.inOrder
      asAsked := numbered.handled.asAsked
      accounted := by
        intro number lt
        rcases numbered.handled.accounted number lt with queued | issued | dropped
        · exact Or.inr (Or.inr (List.mem_append_right _ queued))
        · exact Or.inr (Or.inl issued)
        · exact Or.inr (Or.inr (List.mem_append_left _ dropped))
      noEmptyPop := numbered.handled.noEmptyPop }

/-- The trading thread copies the first request. -/
theorem Numbered.copy : Numbered (recorded (pending, events) .copy) := by
  have length := numbered.length
  cases sender : pending.sender with
  | issuing | popping =>
      have same : recorded (pending, events) .copy = (pending, events) := by
        simp only [recorded, recording, step, history, sender]
      rw [same]
      exact numbered
  | idle =>
      cases numbers : events.queued with
      | nil =>
          have empty : pending.account.pendingOrders = [] :=
            List.length_eq_zero_iff.mp (length.trans (congrArg List.length numbers))
          have same : recorded (pending, events) .copy = (pending, events) := by
            simp only [recorded, recording, step, history, sender, numbers, empty]
          rw [same]
          exact numbered
      | cons number rest =>
          obtain ⟨request, others, requests⟩ : ∃ request others,
              pending.account.pendingOrders = request :: others := by
            apply List.exists_cons_of_length_eq_add_one (n := rest.length)
            exact length.trans (congrArg List.length numbers)
          have copies : recorded (pending, events) .copy =
              ({ pending with sender := .issuing request }, { events with copied := number }) := by
            simp only [recorded, recording, step, history, sender, numbers, requests]
          have isFirst : number ∈ events.queued := numbers ▸ List.mem_cons_self
          have notPopping : pending.sender ≠ .popping := sender ▸ nofun
          rw [copies]
          exact
            { length := numbered.length
              closes := numbered.closes
              queued_sorted := numbered.queued_sorted
              queued_lt := numbered.queued_lt
              dropped := numbered.dropped
              copied := fun _ =>
                ⟨numbered.queued_lt number isFirst, Or.inr (congrArg List.head? numbers)⟩
              issuing := by
                intro copied same
                cases same
                refine ⟨numbered.closes request (requests ▸ List.mem_cons_self), ?_⟩
                intro issued member
                exact (numbered.issued notPopping issued member).2 number isFirst
              popping := fun pops => nomatch pops
              issued := fun _ => numbered.issued notPopping
              handled := ⟨numbered.handled.inOrder, numbered.handled.asAsked,
                numbered.handled.accounted, numbered.handled.noEmptyPop⟩ }

omit numbered in
/-- What was issued is put down when the reply is a success. -/
theorem recorded_reply {request : PositionRequest} (sender : pending.sender = .issuing request)
    {returned : ℕ} (accepted : returned ≠ 0) :
    recorded (pending, events) (.reply returned) =
      ({ pending with sender := .popping },
        { events with issued := (events.copied, request.type) :: events.issued }) := by
  simp only [recorded, recording, step, history, sender, if_neg accepted]

/-- A reply comes. -/
theorem Numbered.reply {returned : ℕ}
    (undisturbed : Undisturbed (pending, events) (.reply returned)) :
    Numbered (recorded (pending, events) (.reply returned)) := by
  cases sender : pending.sender with
  | idle | popping =>
      have same : recorded (pending, events) (.reply returned) = (pending, events) := by
        simp only [recorded, recording, step, history, sender]
      rw [same]
      exact numbered
  | issuing request =>
      have busy : pending.sender ≠ .idle := sender ▸ nofun
      have notPopping : pending.sender ≠ .popping := sender ▸ nofun
      obtain ⟨isClose, before⟩ := numbered.issuing request sender
      by_cases refused : returned = 0
      · have returns : recorded (pending, events) (.reply returned) =
            ({ pending with sender := .idle }, events) := by
          simp only [recorded, recording, step, history, sender, if_pos refused]
        rw [returns]
        exact
          { length := numbered.length
            closes := numbered.closes
            queued_sorted := numbered.queued_sorted
            queued_lt := numbered.queued_lt
            dropped := numbered.dropped
            copied := fun idle => absurd rfl idle
            issuing := fun _ issues => nomatch issues
            popping := fun pops => nomatch pops
            issued := fun _ => numbered.issued notPopping
            handled := ⟨numbered.handled.inOrder, numbered.handled.asAsked,
              numbered.handled.accounted, numbered.handled.noEmptyPop⟩ }
      · rw [recorded_reply sender refused]
        exact
          { length := numbered.length
            closes := numbered.closes
            queued_sorted := numbered.queued_sorted
            queued_lt := numbered.queued_lt
            dropped := numbered.dropped
            copied := fun _ => numbered.copied busy
            issuing := fun _ issues => nomatch issues
            popping := fun _ => rfl
            issued := fun pops => absurd rfl pops
            handled :=
              { inOrder := List.pairwise_cons.mpr ⟨before, numbered.handled.inOrder⟩
                asAsked := by
                  intro number how member
                  rcases List.mem_cons.mp member with same | earlier
                  · cases same
                    rw [isClose]
                    exact undisturbed ⟨request, sender⟩ refused
                  · exact numbered.handled.asAsked number how earlier
                accounted := by
                  intro number lt
                  rcases numbered.handled.accounted number lt with queued | issued | dropped
                  · exact Or.inl queued
                  · exact Or.inr (Or.inl (List.mem_cons_of_mem _ issued))
                  · exact Or.inr (Or.inr dropped)
                noEmptyPop := numbered.handled.noEmptyPop } }

omit numbered in
theorem recorded_pop (sender : pending.sender = .popping) :
    recorded (pending, events) .pop =
      ({ account :=
          { pending.account with pendingOrders := pending.account.pendingOrders.tail }
         sender := .idle },
        { events with
          queued := events.queued.tail
          emptyPops :=
            events.emptyPops + if pending.account.pendingOrders = [] then 1 else 0 }) := by
  simp only [recorded, recording, step, history, sender]

/-- The first request is taken out, which is the one that was issued. -/
theorem Numbered.pop (undisturbed : Undisturbed (pending, events) .pop) :
    Numbered (recorded (pending, events) .pop) := by
  cases sender : pending.sender with
  | idle | issuing =>
      have same : recorded (pending, events) .pop = (pending, events) := by
        simp only [recorded, recording, step, history, sender]
      rw [same]
      exact numbered
  | popping =>
      have busy : pending.sender ≠ .idle := sender ▸ nofun
      have first := (numbered.copied busy).2.resolve_left (undisturbed sender)
      have last := numbered.issued_le sender
      have isIssued : events.copied ∈ events.issuedNumbers :=
        List.mem_of_head? (numbered.popping sender)
      obtain ⟨rest, numbers⟩ : ∃ rest, events.queued = events.copied :: rest :=
        List.head?_eq_some_iff.mp first
      have length : pending.account.pendingOrders.length = events.queued.length := numbered.length
      have sorted : events.queued.Pairwise (· < ·) := numbered.queued_sorted
      have later : ∀ other ∈ events.queued.tail, other ∈ events.queued :=
        fun other member => List.mem_of_mem_tail member
      have nonempty : pending.account.pendingOrders ≠ [] := by
        intro empty
        rw [empty, numbers] at length
        cases length
      rw [recorded_pop sender, if_neg nonempty]
      exact
        { length := by
            rw [List.length_tail, List.length_tail, length]
          closes := fun request member =>
            numbered.closes request (List.mem_of_mem_tail member)
          queued_sorted := sorted.tail
          queued_lt := fun other member => numbered.queued_lt other (later other member)
          dropped := fun other dropped =>
            ⟨(numbered.dropped other dropped).1, fun next member =>
              (numbered.dropped other dropped).2 next (later next member)⟩
          copied := fun idle => absurd rfl idle
          issuing := fun _ issues => nomatch issues
          popping := fun pops => nomatch pops
          issued := by
            intro _ other issued
            have before := last other issued
            refine ⟨lt_of_le_of_lt before (numbered.copied busy).1, fun next member => ?_⟩
            rw [numbers] at member sorted
            exact lt_of_le_of_lt before (List.rel_of_pairwise_cons sorted member)
          handled :=
            { inOrder := numbered.handled.inOrder
              asAsked := numbered.handled.asAsked
              accounted := by
                intro other lt
                rcases numbered.handled.accounted other lt with queued | issued | dropped
                · have queued : other ∈ events.queued := queued
                  rw [numbers] at queued
                  rcases List.mem_cons.mp queued with same | behind
                  · exact Or.inr (Or.inl (same ▸ isIssued))
                  · left
                    change other ∈ events.queued.tail
                    rw [numbers]
                    exact behind
                · exact Or.inr (Or.inl issued)
                · exact Or.inr (Or.inr dropped)
              noEmptyPop := numbered.handled.noEmptyPop } }

end Step

/-! ## Exactness -/

theorem Numbered.step {state : PendingOrders × History} (numbered : Numbered state) {label : Label}
    (undisturbed : Undisturbed state label) : Numbered (recorded state label) := by
  obtain ⟨pending, events⟩ := state
  cases label with
  | closePending price size => exact numbered.ask .close price size
  | openPending price size => exact numbered.ask .open price size
  | cancelAll => exact numbered.cancelAll
  | copy => exact numbered.copy
  | reply returned => exact numbered.reply undisturbed
  | pop => exact numbered.pop undisturbed

/-- A disturbed step leaves a request handled otherwise. -/
theorem Numbered.undisturbed {state : PendingOrders × History} (numbered : Numbered state)
    {label : Label} (handled : HandledAsAsked (recorded state label)) :
    Undisturbed state label := by
  obtain ⟨pending, events⟩ := state
  cases label with
  | closePending | openPending | cancelAll | copy => trivial
  | reply returned =>
      rintro ⟨request, sender⟩ accepted
      have sender : pending.sender = .issuing request := sender
      have isClose := (numbered.issuing request sender).1
      rw [recorded_reply sender accepted] at handled
      have asked := handled.asAsked events.copied request.type List.mem_cons_self
      rw [isClose] at asked
      exact asked
  | pop =>
      intro sender isDropped
      have sender : pending.sender = .popping := sender
      have length : pending.account.pendingOrders.length = events.queued.length := numbered.length
      have passed := (numbered.dropped _ isDropped).2
      have sorted : events.queued.Pairwise (· < ·) := numbered.queued_sorted
      rw [recorded_pop sender] at handled
      cases numbers : events.queued with
      | nil =>
          -- nothing is left to be taken out
          have empty : pending.account.pendingOrders = [] :=
            List.length_eq_zero_iff.mp (length.trans (congrArg List.length numbers))
          have noEmptyPop := handled.noEmptyPop
          rw [if_pos empty] at noEmptyPop
          exact absurd noEmptyPop (Nat.succ_ne_zero _)
      | cons number rest =>
          -- a request that was neither issued nor dropped is taken out
          have isFirst : number ∈ events.queued := numbers ▸ List.mem_cons_self
          rcases handled.accounted number (numbered.queued_lt number isFirst) with
            queued | issued | dropped
          · have queued : number ∈ events.queued.tail := queued
            rw [numbers] at queued sorted
            exact absurd (List.rel_of_pairwise_cons sorted queued) (lt_irrefl number)
          · have before := numbered.issued_le sender number issued
            exact absurd (passed number isFirst) (Nat.not_lt.mpr before)
          · have before := (numbered.dropped number dropped).2 number isFirst
            exact absurd before (lt_irrefl number)

/-- The requests of a run are handled as they asked, exactly once and in order,
if and only if no copied request is dropped before its success is noted, and
only requests of `closePending` succeed. -/
theorem handledAsAsked_iff (account : TradeAccount) (labels : List Label) :
    EveryState recorded HandledAsAsked (start account, .none) labels ↔
      EveryStep recorded Undisturbed (start account, .none) labels := by
  have keeps : ∀ state label, Numbered state → Undisturbed state label →
      Numbered (recorded state label) := fun _ _ numbered => numbered.step
  exact everyState_iff_everyStep_of_forall keeps (fun _ numbered => numbered.handled)
    (fun _ _ numbered => numbered.undisturbed) (numbered_start account) labels

/-- The queue is emptied between a success and its `pop`. -/
theorem not_handledAsAsked_emptied :
    ¬ EveryState recorded HandledAsAsked (start (.init .long [] [] 100 0), .none)
      [.closePending 10 100, .copy, .cancelAll, .reply 1, .pop] := by
  intro every
  have noEmptyPop := every.last.noEmptyPop
  cases noEmptyPop

end PendingOrders

/-! ## The instance's own calls -/

/-- The queue of an account. -/
def Context.queue (context : Context) (side : OrderAccountType) : List PositionRequest :=
  (context.inst.accounts.get side).pendingOrders

/-- A request as `closePending` queues it. -/
def closeRequest (request : ℚ × ℕ) : PositionRequest where
  type := .close
  price := request.1
  size := request.2

/-- Requests are only queued, and behind those that are there. -/
def Queues (side : OrderAccountType) (context after : Context) : Prop :=
  ∃ more : List (ℚ × ℕ), after.queue side = context.queue side ++ more.map closeRequest

instance (side : OrderAccountType) : Std.Refl (Queues side) :=
  ⟨fun _ => ⟨[], (List.append_nil _).symm⟩⟩

instance (side : OrderAccountType) : IsTrans Context (Queues side) where
  trans _ _ _ first second := by
    obtain ⟨more, queued⟩ := first
    obtain ⟨still, later⟩ := second
    exact ⟨more ++ still, by rw [later, queued, List.map_append, List.append_assoc]⟩

theorem queues_of_eq {side : OrderAccountType} {context after : Context}
    (same : after.queue side = context.queue side) : Queues side context after :=
  ⟨[], same.trans (List.append_nil _).symm⟩

theorem queue_modifyAccount (side other : OrderAccountType) (context : Context)
    (f : TradeAccount → TradeAccount) :
    ((modifyAccount other f).run context).2.queue side =
      if side = other then (f (context.inst.accounts.get other)).pendingOrders
      else context.queue side := by
  cases side <;> cases other <;> rfl

theorem closePending_queues (side other : OrderAccountType) (context : Context) (price : ℚ)
    (size : ℕ) :
    Queues side context
      ((modifyAccount other fun account => account.closePending price size).run context).2 := by
  by_cases same : side = other
  · refine ⟨[(price, size)], ?_⟩
    rw [queue_modifyAccount, if_pos same, same]
    rfl
  · apply queues_of_eq
    rw [queue_modifyAccount, if_neg same]

/-- A callback queues the close of an order that is done, or nothing. -/
theorem onCallback_queues (side : OrderAccountType) (context : Context) (callback : Callback) :
    Queues side context (context.onCallback callback) := by
  cases callback with
  | fill fill => exact queues_of_eq (TradeAccounts.onFill_pendingOrders _ fill side)
  | counters other openBy closeBy executedBy =>
      apply queues_of_eq
      change ((modifyAccount other _).run context).2.queue side = _
      rw [queue_modifyAccount]
      split
      · rename_i same
        rw [same]
        rfl
      · rfl
  | requoteOrderDone => exact queues_of_eq rfl
  | tradeSendClose price size =>
      change Queues side context (context.mapInst fun inst => inst.onTradeSendClose price size)
      unfold TradeInstance.onTradeSendClose Context.mapInst
      dsimp only
      split
      · exact queues_of_eq rfl
      · split
        · split
          · exact queues_of_eq rfl
          · rename_i other _
            exact closePending_queues side other context _ _
        · exact queues_of_eq rfl

theorem nextReply_queues (side : OrderAccountType) : Keeps (Queues side) nextReply :=
  keeps_nextReply (fun _ _ => queues_of_eq rfl) (onCallback_queues side)

/-- What is sent is counted, and not taken out of the queue. -/
theorem sendOrder_queues (side : OrderAccountType) (price : ℚ) (size : ℕ)
    (event : OrderAccountType → ℕ → ℕ → ℚ → Event) {count : ℕ → TradeAccount → TradeAccount}
    (counts : ∀ size account, (count size account).pendingOrders = account.pendingOrders) :
    Keeps (Queues side) (sendOrder (some side) price size event count) := by
  refine keeps_getInst.bind fun inst => .ite (fun _ => keeps_pure 0) fun _ => ?_
  refine (nextReply_queues side).bind fun reply => .ite (fun _ => keeps_pure 0) fun _ => ?_
  have counted : ∀ size, Keeps (Queues side) (modifyAccount side (count size)) := by
    intro size context
    apply queues_of_eq
    rw [queue_modifyAccount, if_pos rfl, counts]
    rfl
  have logged : ∀ event, Keeps (Queues side) (record event) := fun _ _ => queues_of_eq rfl
  exact (counted _).bind fun _ => (logged _).bind fun _ => keeps_pure _

theorem sendRequest_queues (side : OrderAccountType) (request : PositionRequest) :
    Keeps (Queues side) (sendRequest (some side) request) := by
  unfold sendRequest
  split
  · exact sendOrder_queues side _ _ _ fun _ _ => rfl
  · exact sendOrder_queues side _ _ _ fun _ _ => rfl

namespace PendingOrders

theorem run_closePending (pending : PendingOrders) (more : List (ℚ × ℕ)) :
    run step pending (more.map fun request => .closePending request.1 request.2) =
      { pending with
        account :=
          { pending.account with
            pendingOrders := pending.account.pendingOrders ++ more.map closeRequest } } := by
  induction more generalizing pending with
  | nil => simp
  | cons request rest ih =>
      rw [List.map_cons, run_cons, ih]
      simp [step, TradeAccount.closePending, closeRequest]

/-- `sendPendingOrders` in one go is a run of its steps, with the requests queued
during the wait in between. -/
theorem sendPendingOrders_run (side : OrderAccountType) (context : Context) :
    ∃ (more : List (ℚ × ℕ)) (returned : ℕ),
      ((sendPendingOrders (some side)).run context).2.queue side =
        (run step { account := context.inst.accounts.get side, sender := .idle }
          (.copy :: (more.map fun request => .closePending request.1 request.2) ++
            [.reply returned, .pop])).account.pendingOrders := by
  unfold sendPendingOrders
  rw [run_getInst_bind]
  cases requests : (context.inst.accounts.get side).pendingOrders with
  | nil =>
      refine ⟨[], 0, requests.trans ?_⟩
      simp [step, requests]
  | cons request others =>
      obtain ⟨more, queued⟩ := sendRequest_queues side request context
      refine ⟨more, ((sendRequest (some side) request).run context).1, ?_⟩
      have queue : context.queue side = request :: others := requests
      rw [queue] at queued
      rw [List.cons_append, run_cons, run_append]
      simp only [step, requests, run_closePending, run_cons, run_nil]
      rw [run_bind]
      by_cases refused : ((sendRequest (some side) request).run context).1 = 0
      · rw [if_pos refused, whenever, if_neg (not_not.mpr refused)]
        exact queued
      · simp only [if_neg refused]
        have taken := queue_modifyAccount side side
          ((sendRequest (some side) request).run context).2
          fun account => { account with pendingOrders := account.pendingOrders.tail }
        rw [if_pos rfl] at taken
        rw [whenever, if_pos refused]
        exact taken.trans (congrArg List.tail queued)

end PendingOrders

end TradingApp.Instance
