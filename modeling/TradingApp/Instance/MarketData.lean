import TradingApp.Instance.Inputs
import TradingApp.Market.Stamps

/-!
# A trade instance and its symbol

Market data and timer threads update the symbol while the trading thread makes
passes.  A pass takes the newest stamp of the symbol, or waits for one.  The
bars are read outside the symbol's lock, so they are left to the label.

The trading thread waits only on data it has seen: the stamps reach its passes
in the order they were pushed, none of them twice, and the newest one always.
-/

namespace TradingApp.Instance

open TradingApp.Market TradingApp.Transition

/-- The quote of a pass that takes a stamp. -/
def Quote.ofStamp (stamp : SymbolStamp) (bar0 bar1 : Bar) : Quote where
  askSize := stamp.askSize
  askPrice := stamp.askPrice
  bidSize := stamp.bidSize
  bidPrice := stamp.bidPrice
  priceEstimate1 := stamp.priceEstimate1
  priceEstimate2 := stamp.priceEstimate2
  bar0 := bar0
  bar1 := bar1

/-- A call of a thread other than the trading thread. -/
abbrev Feed : Type :=
  { call : Symbol.Call // call ≠ .pop }

/-- A symbol and the instance that trades it. -/
structure Trading where
  symbol : Symbol
  context : Context

/-- A pass takes the bars and the replies of its label, and the rest of its
quote from the symbol. -/
inductive TradingLabel where
  | market (call : Feed)
  | act (label : Label)

namespace Trading

/-- The stamp that a step takes, with what it leaves of the symbol. -/
def taken (state : Trading) : TradingLabel → Option (SymbolStamp × Symbol)
  | .act (.pass _ _) => if state.context.Running then state.symbol.pop else none
  | _ => none

/-- A pass without a stamp waits, and changes nothing. -/
def step (state : Trading) : TradingLabel → Trading
  | .market call => { state with symbol := state.symbol.step call.val }
  | .act (.pass quote replies) =>
      match state.taken (.act (.pass quote replies)) with
      | none => state
      | some (stamp, symbol) =>
          { symbol
            context := state.context.step (.pass (.ofStamp stamp quote.bar0 quote.bar1) replies) }
  | .act label => { state with context := state.context.step label }

end Trading

/-- The inputs are a view of the market, with the estimate that the toggle
chooses. -/
structure Inputs.Knows (inputs : Inputs) (toggle : Bool) (view : MarketView) : Prop where
  askSize : inputs.askSize = view.askSize
  askPrice : inputs.askPrice = view.askPrice
  bidSize : inputs.bidSize = view.bidSize
  bidPrice : inputs.bidPrice = view.bidPrice
  priceEstimate :
    inputs.priceEstimate = if toggle then view.priceEstimate1 else view.priceEstimate2

/-- The toggle of the last pass, if there was one, and the stamps that were
pushed and taken. -/
structure Reading where
  toggle : Option Bool
  history : History MarketView

namespace Reading

/-- No pass has read anything. -/
def start : Reading where
  toggle := none
  history := .start

/-- A step is noted. -/
def record (reading : Reading) (state : Trading) (label : TradingLabel) : Reading :=
  match label, state.taken label with
  | .market call, _ =>
      { reading with
        history := reading.history.post (Symbol.publisher.box state.symbol)
          (Symbol.publisher.box (state.symbol.step call.val)) }
  | .act _, some _ =>
      { toggle := some state.context.inst.avicennaToggle
        history := reading.history.take (Symbol.publisher.box state.symbol) }
  | .act _, none => reading

end Reading

/-! ## Steps of the instance -/

/-- A pass knows the view of its stamp. -/
theorem pass_knows {context : Context} (running : context.Running) (stamp : SymbolStamp)
    (bar0 bar1 : Bar) (replies : List Reply) :
    (context.step (.pass (.ofStamp stamp bar0 bar1) replies)).inputs.Knows
      context.inst.avicennaToggle stamp.view := by
  have inputs := pass_inputs (.ofStamp stamp bar0 bar1) { context with replies }
  rw [← Context.act_pass, Context.act, if_pos running, Context.exec, inputs]
  exact ⟨rfl, rfl, rfl, rfl, rfl⟩

/-- Only a pass reads the market. -/
theorem knows_step {context : Context} {toggle : Bool} {view : MarketView}
    (knows : context.inputs.Knows toggle view) {label : Label}
    (noPass : ∀ quote replies, label ≠ .pass quote replies) :
    (context.step label).inputs.Knows toggle view := by
  refine Context.step_cases (P := (·.inputs.Knows toggle view)) (fun _ => knows) fun _ => ?_
  obtain ⟨askSize, askPrice, bidSize, bidPrice, priceEstimate⟩ := knows
  cases label with
  | pass quote replies => exact absurd rfl (noPass quote replies)
  | callback callback =>
      change (context.onCallback callback).inputs.Knows toggle view
      rw [onCallback_inputs]
      exact ⟨askSize, askPrice, bidSize, bidPrice, priceEstimate⟩
  | stopAction replies =>
      rw [act_stopAction_inputs]
      exact ⟨askSize, askPrice, bidSize, bidPrice, priceEstimate⟩
  | enablePanicClose | disablePanicClose | enableSoftClose | disableSoftClose | resume | pause
  | avicennaToggle => exact ⟨askSize, askPrice, bidSize, bidPrice, priceEstimate⟩

/-! ## Steps of both -/

variable {state : Trading} {reading : Reading}

/-- What holds after every step: the newest stamp shows the symbol, the stamps
are met in order, and unless a newer one waits the inputs are the symbol. -/
structure UpToDate (state : Trading × Reading) : Prop where
  fresh : Symbol.publisher.Fresh state.1.symbol
  inOrder : Symbol.publisher.InOrder state.2.history state.1.symbol
  knows : ∀ toggle ∈ state.2.toggle, ∃ view,
    state.1.context.inputs.Knows toggle view ∧ Symbol.publisher.Informed view state.1.symbol

theorem UpToDate.market (upToDate : UpToDate (state, reading)) (call : Feed) :
    UpToDate (recording Trading.step Reading.record (state, reading) (.market call)) := by
  have posts : Symbol.publisher.Posts state.symbol (state.symbol.step call.val) :=
    Symbol.step_posts call.property
  constructor
  · exact posts.fresh upToDate.fresh
  · exact posts.inOrder upToDate.inOrder
  · intro toggle member
    obtain ⟨view, knows, informed⟩ := upToDate.knows toggle member
    exact ⟨view, knows, posts.informed informed⟩

theorem UpToDate.take (upToDate : UpToDate (state, reading)) {stamp : SymbolStamp}
    {symbol : Symbol} {quote : Quote} {replies : List Reply}
    (taken : state.taken (.act (.pass quote replies)) = some (stamp, symbol)) :
    UpToDate
      (recording Trading.step Reading.record (state, reading) (.act (.pass quote replies))) := by
  obtain ⟨running, popped⟩ : state.context.Running ∧ state.symbol.pop = some (stamp, symbol) := by
    change (if state.context.Running then state.symbol.pop else none) = _ at taken
    split at taken
    · rename_i running
      exact ⟨running, taken⟩
    · cases taken
  have cleared := Symbol.pop_cleared popped
  have next : recording Trading.step Reading.record (state, reading) (.act (.pass quote replies)) =
      ({ symbol
         context := state.context.step (.pass (.ofStamp stamp quote.bar0 quote.bar1) replies) },
        { toggle := some state.context.inst.avicennaToggle
          history := reading.history.take (Symbol.publisher.box state.symbol) }) := by
    simp only [recording, Trading.step, Reading.record, taken]
  rw [next]
  constructor
  · exact cleared.fresh
  · exact cleared.inOrder upToDate.inOrder
  · rintro toggle ⟨⟩
    refine ⟨stamp.view, pass_knows running stamp _ _ replies, ?_⟩
    exact cleared.informed upToDate.fresh (Symbol.pop_newest popped)

theorem UpToDate.act (upToDate : UpToDate (state, reading)) {label : Label}
    (noPass : ∀ quote replies, label ≠ .pass quote replies) :
    UpToDate (recording Trading.step Reading.record (state, reading) (.act label)) := by
  have next : recording Trading.step Reading.record (state, reading) (.act label) =
      ({ state with context := state.context.step label }, reading) := by
    cases label with
    | pass quote replies => exact absurd rfl (noPass quote replies)
    | _ => rfl
  rw [next]
  refine ⟨upToDate.fresh, upToDate.inOrder, fun toggle member => ?_⟩
  obtain ⟨view, knows, informed⟩ := upToDate.knows toggle member
  exact ⟨view, knows_step knows noPass, informed⟩

theorem UpToDate.step (upToDate : UpToDate (state, reading)) (label : TradingLabel) :
    UpToDate (recording Trading.step Reading.record (state, reading) label) := by
  cases label with
  | market call => exact upToDate.market call
  | act label =>
      by_cases noPass : ∀ quote replies, label ≠ .pass quote replies
      · exact upToDate.act noPass
      · push Not at noPass
        obtain ⟨quote, replies, rfl⟩ := noPass
        cases taken : state.taken (.act (.pass quote replies)) with
        | some stamp => exact upToDate.take taken
        | none =>
            have next : recording Trading.step Reading.record (state, reading)
                (.act (.pass quote replies)) = (state, reading) := by
              simp only [recording, Trading.step, Reading.record, taken]
            rw [next]
            exact upToDate

/-! ## Runs -/

variable (prev : Market.Bar) (context : Context)

theorem everyState_upToDate (labels : List TradingLabel) :
    EveryState (recording Trading.step Reading.record) UpToDate
      ({ symbol := .new prev, context }, .start) labels := by
  refine everyState_of_forall_step (fun state label upToDate => upToDate.step label) ?_ labels
  exact ⟨Publisher.fresh_of_box_eq_nil rfl, Publisher.inOrder_start rfl, nofun⟩

/-- Once it has made a pass, the trading thread waits for a stamp only while it
holds the symbol's sizes, prices and estimate as they are. -/
theorem everyState_waits_informed (labels : List TradingLabel) :
    EveryState (recording Trading.step Reading.record)
      (fun state => ∀ toggle ∈ state.2.toggle, state.1.symbol.pop = none →
        state.1.context.inputs.Knows toggle state.1.symbol.view)
      ({ symbol := .new prev, context }, .start) labels := by
  refine (everyState_upToDate prev context labels).mono fun state upToDate toggle member waits => ?_
  obtain ⟨view, knows, informed⟩ := upToDate.knows toggle member
  have same : view = state.1.symbol.view :=
    informed (Symbol.box_eq_nil_iff.mpr (Symbol.pop_eq_none_iff.mp waits))
  rw [← same]
  exact knows

/-- The passes meet the stamps in the order they were pushed, none twice; the
newest stamp was met, or it is the newest on the stack. -/
theorem everyState_stamps_inOrder (labels : List TradingLabel) :
    EveryState (recording Trading.step Reading.record)
      (fun state =>
        state.2.history.taken.Sublist state.2.history.put ∧
          (state.1.symbol.symbolStack = [] →
            state.2.history.taken.getLast? = state.2.history.put.getLast?) ∧
          ∀ stamp ∈ state.1.symbol.symbolStack.getLast?,
            state.2.history.put.getLast? = some stamp.view)
      ({ symbol := .new prev, context }, .start) labels := by
  refine (everyState_upToDate prev context labels).mono fun state upToDate => ?_
  obtain ⟨sublist, newest⟩ := upToDate.inOrder
  refine ⟨(List.sublist_append_left _ _).trans sublist, fun empty => ?_, fun stamp member => ?_⟩
  · rw [Symbol.box_eq_nil_iff.mpr empty, List.append_nil] at newest
    exact newest
  · have box : (Symbol.publisher.box state.1.symbol).getLast? = some stamp.view := by
      change (state.1.symbol.symbolStack.map SymbolStamp.view).getLast? = _
      rw [List.getLast?_map, Option.mem_def.mp member]
      rfl
    rw [← newest, List.getLast?_append, box]
    rfl

end TradingApp.Instance
