import Mathlib.Order.Bounds.Basic
import TradingApp.Market.Symbol

/-!
# Price bars

A symbol keeps two bars.  A timer only marks that the next trade starts a new
bar; that trade moves the bar to the previous one, so that timeouts without a
trade between them leave no bar of their own.

The history of a symbol is cut at the timeouts, and the intervals without a
trade are dropped.  The bars are the open, highest, lowest and close of the last
two intervals that are left.
-/

namespace TradingApp.Market

open TradingApp.Transition

/-! ## Cutting a list -/

section Cutting

variable {α : Type} {p : α → Bool}

/-- A cut at the end opens a new piece. -/
theorem splitOnP_concat_cut (xs : List α) {x : α} (isCut : p x = true) :
    (xs ++ [x]).splitOnP p = xs.splitOnP p ++ [[]] :=
  List.splitOnP_append_cons xs [] isCut

/-- Anything else belongs to the last piece. -/
theorem splitOnP_concat (xs : List α) {x : α} (noCut : p x = false) :
    ∃ closed last, xs.splitOnP p = closed ++ [last] ∧
      (xs ++ [x]).splitOnP p = closed ++ [last ++ [x]] := by
  induction xs with
  | nil => exact ⟨[], [], rfl, by simp [List.splitOnP_cons_eq_if_modifyHead, noCut]⟩
  | cons y xs ih =>
      obtain ⟨closed, last, pieces, next⟩ := ih
      rw [List.cons_append, List.splitOnP_cons_eq_if_modifyHead,
        List.splitOnP_cons_eq_if_modifyHead, pieces, next]
      split
      · exact ⟨[] :: closed, last, rfl, rfl⟩
      · cases closed with
        | nil => exact ⟨[], y :: last, rfl, rfl⟩
        | cons first closed => exact ⟨(y :: first) :: closed, last, rfl, rfl⟩

end Cutting

namespace Bar

/-- The open, highest, lowest and close of an interval. -/
structure Summarises (bar : Bar) (prices : List ℚ) : Prop where
  openPrice : prices.head? = some bar.openPrice
  maxPrice : IsGreatest {price | price ∈ prices} bar.maxPrice
  minPrice : IsLeast {price | price ∈ prices} bar.minPrice
  closePrice : prices.getLast? = some bar.closePrice

/-- The bar before any trade. -/
def initial : Bar where
  openPrice := -1
  minPrice := -1
  maxPrice := -1
  closePrice := -1

/-- The bar of the last interval, if there is one. -/
def IsLastOf (bar : Bar) (intervals : List (List ℚ)) : Prop :=
  match intervals.getLast? with
  | none => bar = initial
  | some prices => bar.Summarises prices

theorem isLastOf_concat (bar : Bar) (earlier : List (List ℚ)) (prices : List ℚ) :
    bar.IsLastOf (earlier ++ [prices]) ↔ bar.Summarises prices := by
  unfold IsLastOf
  rw [List.getLast?_concat]

/-- The bar of a single trade. -/
def single (price : ℚ) : Bar where
  openPrice := price
  minPrice := price
  maxPrice := price
  closePrice := price

theorem summarises_single (price : ℚ) : (single price).Summarises [price] where
  openPrice := rfl
  maxPrice := by simp [single]
  minPrice := by simp [single]
  closePrice := rfl

/-- A bar after one more trade. -/
def add (bar : Bar) (price : ℚ) : Bar :=
  { bar with
    maxPrice := if price > bar.maxPrice then price else bar.maxPrice
    minPrice := if price < bar.minPrice then price else bar.minPrice
    closePrice := price }

theorem Summarises.add {bar : Bar} {prices : List ℚ} (summary : bar.Summarises prices)
    (price : ℚ) : (bar.add price).Summarises (prices ++ [price]) where
  openPrice := by
    rw [List.head?_append, summary.openPrice]
    rfl
  maxPrice := by
    obtain ⟨member, bound⟩ := summary.maxPrice
    unfold Bar.add
    dsimp only
    split
    · rename_i higher
      refine ⟨by simp, fun p isPrice => ?_⟩
      rcases List.mem_append.mp isPrice with earlier | last
      · exact (bound earlier).trans higher.le
      · exact (List.mem_singleton.mp last).le
    · rename_i lower
      refine ⟨List.mem_append_left _ member, fun p isPrice => ?_⟩
      rcases List.mem_append.mp isPrice with earlier | last
      · exact bound earlier
      · exact (List.mem_singleton.mp last).le.trans (not_lt.mp lower)
  minPrice := by
    obtain ⟨member, bound⟩ := summary.minPrice
    unfold Bar.add
    dsimp only
    split
    · rename_i lower
      refine ⟨by simp, fun p isPrice => ?_⟩
      rcases List.mem_append.mp isPrice with earlier | last
      · exact lower.le.trans (bound earlier)
      · exact (List.mem_singleton.mp last).ge
    · rename_i higher
      refine ⟨List.mem_append_left _ member, fun p isPrice => ?_⟩
      rcases List.mem_append.mp isPrice with earlier | last
      · exact bound earlier
      · exact (not_lt.mp higher).trans (List.mem_singleton.mp last).ge
  closePrice := List.getLast?_concat

/-- The open and the close are between the lowest and the highest price. -/
structure Within (bar : Bar) : Prop where
  min_le_open : bar.minPrice ≤ bar.openPrice
  open_le_max : bar.openPrice ≤ bar.maxPrice
  min_le_close : bar.minPrice ≤ bar.closePrice
  close_le_max : bar.closePrice ≤ bar.maxPrice

theorem Summarises.within {bar : Bar} {prices : List ℚ} (summary : bar.Summarises prices) :
    bar.Within := by
  have isOpen := List.mem_of_mem_head? summary.openPrice
  have isClose := List.mem_of_getLast? summary.closePrice
  exact ⟨summary.minPrice.2 isOpen, summary.maxPrice.2 isOpen, summary.minPrice.2 isClose,
    summary.maxPrice.2 isClose⟩

end Bar

/-! ## Intervals -/

namespace Symbol

/-- The call is that of a timer. -/
def Call.isTimeout : Call → Bool
  | .timeout _ _ => true
  | _ => false

/-- The price of a trade. -/
def Call.price : Call → Option ℚ
  | .trade price => some price
  | _ => none

/-- The prices between consecutive timeouts. -/
def pieces (calls : List Call) : List (List ℚ) :=
  (calls.splitOnP Call.isTimeout).map (·.filterMap Call.price)

/-- The prices between consecutive timeouts, where there are any. -/
def intervals (calls : List Call) : List (List ℚ) :=
  (pieces calls).filter (· ≠ [])

/-- The bars are those of the last intervals, and a new one is due exactly if
the last piece is still empty. -/
structure Charts (symbol : Symbol) (closed : List (List ℚ)) (last : List ℚ) : Prop where
  startInterval : symbol.startInterval = true ↔ last = []
  bar : symbol.bar.IsLastOf ((closed ++ [last]).filter (· ≠ []))
  prev : last ≠ [] → symbol.prev.IsLastOf (closed.filter (· ≠ []))

theorem pieces_timeout (calls : List Call) {call : Call} (isTimeout : call.isTimeout = true) :
    pieces (calls ++ [call]) = pieces calls ++ [[]] := by
  unfold pieces
  rw [splitOnP_concat_cut calls isTimeout, List.map_append]
  rfl

theorem pieces_concat (calls : List Call) {call : Call} (noTimeout : call.isTimeout = false) :
    ∃ closed last, pieces calls = closed ++ [last] ∧
      pieces (calls ++ [call]) = closed ++ [last ++ call.price.toList] := by
  obtain ⟨closed, last, before, after⟩ := splitOnP_concat calls noTimeout
  refine ⟨closed.map (·.filterMap Call.price), last.filterMap Call.price, ?_, ?_⟩
  · unfold pieces
    rw [before, List.map_append]
    rfl
  · unfold pieces
    rw [after, List.map_append]
    cases call <;> simp [Call.price]

theorem filter_concat_nil (closed : List (List ℚ)) :
    (closed ++ [[]]).filter (· ≠ []) = closed.filter (· ≠ []) := by
  simp

theorem filter_concat {last : List ℚ} (some : last ≠ []) (closed : List (List ℚ)) :
    (closed ++ [last]).filter (· ≠ []) = closed.filter (· ≠ []) ++ [last] := by
  simp [some]

/-! ## Steps -/

section Step

variable {symbol : Symbol} {closed : List (List ℚ)} {last : List ℚ}

/-- A timeout leaves both bars. -/
theorem resetIntervalCallback_bars (symbol : Symbol) (newEstimate : ℚ → ℚ → ℚ → ℚ → ℚ)
    (index : ℕ) :
    let next := symbol.resetIntervalCallback newEstimate index
    next.startInterval = true ∧ next.bar = symbol.bar ∧ next.prev = symbol.prev := by
  intro next
  rcases symbol.resetIntervalCallback_cases newEstimate index with
    ⟨_, _, _, same⟩ | ⟨_, _, _, same⟩ | ⟨_, same⟩
  all_goals
    dsimp only [next]
    rw [same]
    exact ⟨rfl, rfl, rfl⟩

theorem Charts.timeout (charts : symbol.Charts closed last)
    (newEstimate : ℚ → ℚ → ℚ → ℚ → ℚ) (index : ℕ) :
    (symbol.resetIntervalCallback newEstimate index).Charts (closed ++ [last]) [] := by
  obtain ⟨due, bar, _⟩ := resetIntervalCallback_bars symbol newEstimate index
  refine ⟨iff_of_true due rfl, ?_, fun some => absurd rfl some⟩
  rw [bar, filter_concat_nil]
  exact charts.bar

/-- A trade opens a bar, or belongs to the current one. -/
theorem Charts.trade (charts : symbol.Charts closed last) (price : ℚ) :
    (symbol.updatePrice price).Charts closed (last ++ [price]) := by
  have some : last ++ [price] ≠ [] := by simp
  unfold updatePrice
  by_cases due : symbol.startInterval = true
  · rw [if_pos due]
    obtain rfl := charts.startInterval.mp due
    refine ⟨iff_of_false Bool.false_ne_true some, ?_, fun _ => ?_⟩
    · rw [filter_concat some, Bar.isLastOf_concat]
      exact Bar.summarises_single price
    · rw [← filter_concat_nil]
      exact charts.bar
  · rw [if_neg due]
    have begun : last ≠ [] := fun empty => due (charts.startInterval.mpr empty)
    have bar := charts.bar
    rw [filter_concat begun, Bar.isLastOf_concat] at bar
    refine ⟨iff_of_false due some, ?_, fun _ => charts.prev begun⟩
    rw [filter_concat some, Bar.isLastOf_concat]
    exact bar.add price

/-- Nothing else concerns the bars. -/
theorem step_bars (symbol : Symbol) {call : Call} (noTimeout : call.isTimeout = false)
    (noTrade : call.price = none) :
    (symbol.step call).startInterval = symbol.startInterval ∧
      (symbol.step call).bar = symbol.bar ∧ (symbol.step call).prev = symbol.prev := by
  have quote (skew : ℚ) (bidSize : ℕ) (bidPrice : ℚ) (askSize : ℕ) (askPrice : ℚ) :
      let next := symbol.updateQuoteDataSkew skew bidSize bidPrice askSize askPrice
      next.startInterval = symbol.startInterval ∧ next.bar = symbol.bar ∧
        next.prev = symbol.prev := by
    intro next
    dsimp only [next, updateQuoteDataSkew]
    split
    · exact ⟨rfl, rfl, rfl⟩
    · exact ⟨rfl, rfl, rfl⟩
  cases call with
  | timeout => cases noTimeout
  | trade => cases noTrade
  | quote => exact quote _ _ _ _ _
  | quoteSkew => exact quote _ _ _ _ _
  | skew => exact ⟨rfl, rfl, rfl⟩
  | pop =>
      dsimp only [step, pop]
      cases symbol.symbolStack.getLast? with
      | none => exact ⟨rfl, rfl, rfl⟩
      | some stamp => exact ⟨rfl, rfl, rfl⟩

theorem Charts.other (charts : symbol.Charts closed last) {call : Call}
    (noTimeout : call.isTimeout = false) (noTrade : call.price = none) :
    (symbol.step call).Charts closed last := by
  obtain ⟨due, bar, prev⟩ := step_bars symbol noTimeout noTrade
  exact ⟨by rw [due]; exact charts.startInterval, bar ▸ charts.bar, prev ▸ charts.prev⟩

end Step

/-! ## Runs -/

/-- In every run the bars are those of the last intervals. -/
theorem charts_run (prev : Bar) (calls : List Call) :
    ∃ closed last, pieces calls = closed ++ [last] ∧
      (run step (new prev) calls).Charts closed last := by
  induction calls using List.reverseRecOn with
  | nil => exact ⟨[], [], rfl, iff_of_true rfl rfl, rfl, fun some => absurd rfl some⟩
  | append_singleton calls call ih =>
      obtain ⟨closed, last, before, charts⟩ := ih
      rw [run_append, run_cons, run_nil]
      cases isTimeout : call.isTimeout with
      | true =>
          refine ⟨closed ++ [last], [], before ▸ pieces_timeout calls isTimeout, ?_⟩
          cases call with
          | timeout newEstimate estimator => exact charts.timeout newEstimate estimator.index
          | trade | quote | quoteSkew | skew | pop => cases isTimeout
      | false =>
          obtain ⟨closed', last', before', after⟩ := pieces_concat calls isTimeout
          obtain ⟨rfl, same⟩ := List.append_inj' (before'.symm.trans before) rfl
          obtain rfl := List.singleton_injective same
          refine ⟨closed', last' ++ call.price.toList, after, ?_⟩
          cases trade : call.price with
          | none =>
              rw [Option.toList_none, List.append_nil]
              exact charts.other isTimeout trade
          | some price =>
              cases call with
              | trade price =>
                  cases trade
                  exact charts.trade price
              | timeout | quote | quoteSkew | skew | pop => cases trade

/-- After every trade the current bar is that of the current interval, and the
previous bar that of the interval before it, if there is one. -/
theorem bars_after_trade (prev : Bar) (calls : List Call) (price : ℚ) :
    ∃ earlier current, intervals (calls ++ [.trade price]) = earlier ++ [current] ∧
      (run step (new prev) (calls ++ [.trade price])).bar.Summarises current ∧
      (run step (new prev) (calls ++ [.trade price])).bar.Within ∧
      (run step (new prev) (calls ++ [.trade price])).prev.IsLastOf earlier := by
  obtain ⟨closed, last, cut, charts⟩ := charts_run prev (calls ++ [.trade price])
  have begun : last ≠ [] := by
    intro empty
    have due := charts.startInterval.mpr empty
    rw [run_append, run_cons, run_nil] at due
    dsimp only [step, updatePrice] at due
    split at due
    · cases due
    · rename_i notDue
      exact notDue due
  have bar := charts.bar
  rw [filter_concat begun, Bar.isLastOf_concat] at bar
  refine ⟨closed.filter (· ≠ []), last, ?_, bar, bar.within, charts.prev begun⟩
  unfold intervals
  rw [cut, filter_concat begun]

end Symbol

end TradingApp.Market
