import TradingApp.Instance.Frame
import TradingApp.Transition.Triple

/-!
# The order a case tracks

Every case tracks one order, by an id and the price the order is thought to
have; a new price equal to the recorded one is not sent.  What the gateway
accepted is in the log, which only grows.  The pre- and postconditions of a
case's methods speak of the case, up to its requote orders, and of the log.
-/

namespace TradingApp.Instance

open TradingApp.Account TradingApp.Transition

/-! ## Accepted orders -/

/-- An order or replacement that the gateway accepted. -/
structure Acceptance where
  side : OrderAccountType
  id : ℕ
  price : ℚ
deriving DecidableEq, Repr

/-- An order or a replacement that was accepted. -/
def Event.acceptance : Event → Option Acceptance
  | .opened side id _ price => some { side, id, price }
  | .closed side id _ price => some { side, id, price }
  | .changed side _ id _ price => some { side, id, price }
  | .cancelled _ _ | .filled _ => none

/-- The acceptances of a log, newest first. -/
def acceptances (log : List Event) : List Acceptance :=
  log.filterMap Event.acceptance

/-- The price last accepted for an order of an account. -/
def lastAccepted (log : List Event) (side : OrderAccountType) (id : ℕ) : Option ℚ :=
  ((acceptances log).find? fun accepted => accepted.side = side ∧ accepted.id = id).map (·.price)

/-- An account is not given the same id twice. -/
def FreshIds (log : List Event) : Prop :=
  ((acceptances log).map fun accepted => (accepted.side, accepted.id)).Nodup

instance (log : List Event) : Decidable (FreshIds log) :=
  inferInstanceAs (Decidable (List.Nodup _))

theorem acceptances_subset {log later : List Event} (grows : log <:+ later) {accepted : Acceptance}
    (member : accepted ∈ acceptances log) : accepted ∈ acceptances later :=
  (grows.filterMap Event.acceptance).subset member

theorem FreshIds.of_suffix {log later : List Event} (grows : log <:+ later)
    (fresh : FreshIds later) : FreshIds log :=
  ((grows.filterMap Event.acceptance).map _).sublist.nodup fresh

/-- With fresh ids an order has one price. -/
theorem lastAccepted_eq_some_iff {log : List Event} (fresh : FreshIds log)
    {side : OrderAccountType} {id : ℕ} {price : ℚ} :
    lastAccepted log side id = some price ↔
      { side, id, price : Acceptance } ∈ acceptances log := by
  unfold lastAccepted
  rw [Option.map_eq_some_iff]
  constructor
  · rintro ⟨⟨side', id', price'⟩, found, rfl⟩
    have same := List.find?_some found
    obtain ⟨rfl, rfl⟩ : side' = side ∧ id' = id := of_decide_eq_true same
    exact List.mem_of_find?_eq_some found
  · intro member
    have isSome : ((acceptances log).find? fun accepted =>
        accepted.side = side ∧ accepted.id = id).isSome :=
      List.find?_isSome.mpr ⟨_, member, decide_eq_true ⟨rfl, rfl⟩⟩
    obtain ⟨found, isFound⟩ := Option.isSome_iff_exists.mp isSome
    have same : found.side = side ∧ found.id = id := by simpa using List.find?_some isFound
    have unique := List.inj_on_of_nodup_map fresh (List.mem_of_find?_eq_some isFound) member
      (Prod.ext same.1 same.2)
    exact ⟨found, isFound, congrArg Acceptance.price unique⟩

/-- If the id is one of an order, the order was accepted for the account, at
the price. -/
def Accepts (account : Option OrderAccountType) (id : ℕ) (price : ℚ) (log : List Event) : Prop :=
  id ≠ 0 → ∃ side ∈ account, { side, id, price : Acceptance } ∈ acceptances log

/-! ## Tracked orders -/

/-- The order a case tracks. -/
structure Tracked where
  account : Option OrderAccountType
  id : ℕ
  price : ℚ
deriving DecidableEq, Repr

/-- The order that a case follows, by the type of the case. -/
def TradeCase.tracked (case : TradeCase) : Tracked :=
  match case.type with
  | .none => { account := none, id := 0, price := 0 }
  | .case4 =>
      { account := case.currentAcc, id := case.firstOrder, price := case.firstOrderPrice }
  | .hedgeCurrent | .case9 =>
      { account := case.currentAcc, id := case.mainOrderId, price := case.sendPrice }
  | .case10 =>
      { account := case.accountToClose, id := case.mainOrderId, price := case.sendPrice }
  | .panicClose | .softClose =>
      { account := case.oppositeAcc, id := case.mainOrderId, price := case.sendPrice }

/-! ## Calls -/

/-- The log grows, and the held case changes no more than its requote orders. -/
structure Calls (context later : Context) : Prop where
  held : later.inst.tradeCase.map TradeCase.withoutRequotes =
    context.inst.tradeCase.map TradeCase.withoutRequotes
  log : context.log <:+ later.log

instance : Std.Refl Calls :=
  ⟨fun context => ⟨rfl, List.suffix_refl context.log⟩⟩

instance : IsTrans Context Calls :=
  ⟨fun _ _ _ first second => ⟨second.held.trans first.held, first.log.trans second.log⟩⟩

theorem onCallback_calls (context : Context) (callback : Callback) :
    Calls context (context.onCallback callback) := by
  obtain ⟨_, _, same, held⟩ := onCallback_withoutRequotes context.inst callback
  constructor
  · change (context.inst.onCallback callback).tradeCase.map _ = _
    rw [same]
    exact held
  · cases callback with
    | fill fill => exact List.suffix_cons _ context.log
    | counters _ _ _ _ | requoteOrderDone | tradeSendClose _ _ => exact List.suffix_refl context.log

theorem calls_frame : CallFrame Calls where
  nextReply :=
    keeps_nextReply (fun context _ => ⟨rfl, List.suffix_refl context.log⟩) onCallback_calls
  record event := fun context => ⟨rfl, List.suffix_cons event context.log⟩
  modifyRequotes f same := by
    refine fun context => ⟨?_, List.suffix_refl context.log⟩
    change (context.inst.tradeCase.map f).map TradeCase.withoutRequotes = _
    rw [Option.map_map]
    exact congrArg (fun g => context.inst.tradeCase.map g) (funext same)
  modifyAccount side f same := fun context => ⟨rfl, List.suffix_refl context.log⟩

/-- What is true of a log stays true as it grows. -/
def Lasting (K : List Event → Prop) : Prop :=
  ∀ log later, log <:+ later → K log → K later

theorem lasting_accepts (account : Option OrderAccountType) (id : ℕ) (price : ℚ) :
    Lasting (Accepts account id price) := by
  intro log later grows accepts nonzero
  obtain ⟨side, pointed, member⟩ := accepts nonzero
  exact ⟨side, pointed, acceptances_subset grows member⟩

theorem lasting_true : Lasting fun _ => True :=
  fun _ _ _ => id

/-- The held case is the given one, up to its requote orders, and something
is true of the log. -/
def Holds (case : TradeCase) (K : List Event → Prop) (context : Context) : Prop :=
  context.inst.tradeCase.map TradeCase.withoutRequotes = some case.withoutRequotes ∧ K context.log

section Calls

variable {α : Type} {case : TradeCase} {K : List Event → Prop}

theorem Holds.of_calls (lasting : Lasting K) {context later : Context} (calls : Calls context later)
    (holds : Holds case K context) : Holds case K later :=
  ⟨calls.held.trans holds.1, lasting _ _ calls.log holds.2⟩

theorem holds_calls (lasting : Lasting K) {m : CaseM α} (keeps : Keeps Calls m) :
    Leads (Holds case K) m fun _ => Holds case K :=
  keeps.leads fun _ _ => Holds.of_calls lasting

/-- The case may set its fields. -/
theorem holds_modifyCase {f : TradeCase → TradeCase}
    (commutes : ∀ case, (f case).withoutRequotes = f case.withoutRequotes) :
    Leads (Holds case K) (modifyCase f) fun _ => Holds (f case) K := by
  refine leads_modify fun context holds => ⟨?_, holds.2⟩
  change (context.inst.tradeCase.map f).map TradeCase.withoutRequotes = _
  calc (context.inst.tradeCase.map f).map TradeCase.withoutRequotes
      = (context.inst.tradeCase.map TradeCase.withoutRequotes).map f := by
        rw [Option.map_map, Option.map_map]
        exact congrArg (fun g => context.inst.tradeCase.map g) (funext commutes)
    _ = some (f case).withoutRequotes := by rw [holds.1, commutes case]; rfl

theorem holds_setState (state : CaseState) :
    Leads (Holds case K) (setState state) fun _ => Holds { case with state } K :=
  holds_modifyCase fun _ => rfl

/-- An order that is sent is accepted if an id comes back. -/
theorem holds_sendOrder (lasting : Lasting K) (account : Option OrderAccountType) (price : ℚ)
    (size : ℕ) (event : OrderAccountType → ℕ → ℕ → ℚ → Event)
    (accepted : ∀ side id size price,
      (event side id size price).acceptance = some ⟨side, id, price⟩)
    (count : ℕ → TradeAccount → TradeAccount)
    (counts : ∀ size account, SameHolding account (count size account)) :
    Leads (Holds case K) (sendOrder account price size event count) fun id =>
      Holds case fun log => K log ∧ Accepts account id price log := by
  have nothing (context : Context) (holds : Holds case K context) :
      Holds case (fun log => K log ∧ Accepts account 0 price log) context :=
    ⟨holds.1, holds.2, fun nonzero => absurd rfl nonzero⟩
  cases account with
  | none => exact leads_pure nothing
  | some side =>
      refine (holds_calls lasting keeps_getInst).bind fun inst => ?_
      refine .ite (fun _ => leads_pure nothing) fun _ => ?_
      refine (holds_calls lasting calls_frame.nextReply).bind fun reply => ?_
      refine .ite (fun _ => leads_pure nothing) fun _ => ?_
      refine (holds_calls lasting (calls_frame.modifyAccount _ _ (counts _))).bind fun _ => ?_
      intro context holds
      refine ⟨holds.1, lasting _ _ (List.suffix_cons _ _) holds.2, fun _ => ⟨side, rfl, ?_⟩⟩
      refine List.mem_filterMap.mpr ⟨_, List.mem_cons_self, accepted _ _ _ _⟩

theorem holds_openOrder (lasting : Lasting K) (account : Option OrderAccountType) (price : ℚ)
    (size : ℕ) :
    Leads (Holds case K) (openOrder account price size) fun id =>
      Holds case fun log => K log ∧ Accepts account id price log :=
  holds_sendOrder lasting account price size _ (fun _ _ _ _ => rfl) _ fun _ _ =>
    ⟨rfl, rfl, rfl, rfl, rfl, rfl, rfl, rfl, rfl⟩

theorem holds_closeOrder (lasting : Lasting K) (account : Option OrderAccountType) (price : ℚ)
    (size : ℕ) :
    Leads (Holds case K) (closeOrder account price size) fun id =>
      Holds case fun log => K log ∧ Accepts account id price log :=
  holds_sendOrder lasting account price size _ (fun _ _ _ _ => rfl) _ fun _ _ =>
    ⟨rfl, rfl, rfl, rfl, rfl, rfl, rfl, rfl, rfl⟩

/-- An order that is changed is gone, unchanged or accepted at the new price. -/
theorem holds_changeOrder (lasting : Lasting K) (account : Option OrderAccountType)
    (requestId : ℕ) (newPrice : ℚ) (newSize : ℕ) :
    Leads (Holds case K) (changeOrder account requestId newPrice newSize) fun id =>
      Holds case fun log =>
        K log ∧ (id = 0 ∨ id = requestId ∨ Accepts account id newPrice log) := by
  cases account with
  | none => exact leads_pure fun context holds => ⟨holds.1, holds.2, Or.inl rfl⟩
  | some side =>
      refine (holds_calls lasting keeps_getInst).bind fun inst => ?_
      refine (holds_calls lasting calls_frame.nextReply).bind fun reply => .ite ?_ fun _ => ?_
      · rintro (zero | same)
        · exact leads_pure fun context holds => ⟨holds.1, holds.2, Or.inl zero⟩
        · exact leads_pure fun context holds => ⟨holds.1, holds.2, Or.inr (Or.inl same)⟩
      · refine .ite (fun _ => ?_) fun _ context holds => ?_
        · exact leads_pure fun context holds => ⟨holds.1, holds.2, Or.inr (Or.inl rfl)⟩
        refine ⟨holds.1, lasting _ _ (List.suffix_cons _ _) holds.2, Or.inr (Or.inr fun _ => ?_)⟩
        exact ⟨side, rfl, List.mem_filterMap.mpr ⟨_, List.mem_cons_self, rfl⟩⟩

end Calls

end TradingApp.Instance
