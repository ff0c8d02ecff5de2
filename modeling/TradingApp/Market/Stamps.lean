import TradingApp.Market.Symbol
import TradingApp.Transition.Mailbox

/-!
# The stamps of a symbol

The stack of stamps is the mailbox between the threads that update a symbol and
the one that trades it.  What it passes on are the sizes, the prices and the
estimates; the skew, which may change without a stamp, is not read.
-/

namespace TradingApp.Market

open TradingApp.Transition

/-- What the trading thread reads of a stamp. -/
structure MarketView where
  priceEstimate1 : ℚ
  priceEstimate2 : ℚ
  bidSize : ℕ
  bidPrice : ℚ
  askSize : ℕ
  askPrice : ℚ
deriving DecidableEq, Repr

/-- What a stamp shows. -/
def SymbolStamp.view (stamp : SymbolStamp) : MarketView where
  priceEstimate1 := stamp.priceEstimate1
  priceEstimate2 := stamp.priceEstimate2
  bidSize := stamp.bidSize
  bidPrice := stamp.bidPrice
  askSize := stamp.askSize
  askPrice := stamp.askPrice

namespace Symbol

variable {symbol : Symbol}

/-- What a stamp of the symbol would show. -/
def view (symbol : Symbol) : MarketView :=
  symbol.stamp.view

/-- A symbol shows its data, and its stack is the box. -/
def publisher : Publisher Symbol MarketView where
  shown := view
  box symbol := symbol.symbolStack.map SymbolStamp.view

/-- Whatever was updated, a push puts it. -/
theorem push_posts {updated : Symbol} (same : updated.symbolStack = symbol.symbolStack) :
    publisher.Posts symbol updated.push := by
  refine Or.inr ?_
  change (updated.symbolStack ++ [updated.stamp]).map SymbolStamp.view = _
  rw [same, List.map_append]
  rfl

theorem updateQuoteDataSkew_posts (skew : ℚ) (bidSize : ℕ) (bidPrice : ℚ) (askSize : ℕ)
    (askPrice : ℚ) :
    publisher.Posts symbol
      (symbol.updateQuoteDataSkew skew bidSize bidPrice askSize askPrice) := by
  unfold updateQuoteDataSkew
  split
  · exact push_posts rfl
  · exact Or.inl ⟨rfl, rfl⟩

theorem resetIntervalCallback_posts (newEstimate : ℚ → ℚ → ℚ → ℚ → ℚ) (index : ℕ) :
    publisher.Posts symbol (symbol.resetIntervalCallback newEstimate index) := by
  have started {next : Symbol} (posts : publisher.Posts symbol next) :
      publisher.Posts symbol { next with startInterval := true } :=
    posts
  unfold resetIntervalCallback
  refine started ?_
  split
  · split
    · exact push_posts rfl
    · split
      · exact push_posts rfl
      · exact Or.inl ⟨rfl, rfl⟩
  · exact Or.inl ⟨rfl, rfl⟩

theorem updatePrice_posts (price : ℚ) : publisher.Posts symbol (symbol.updatePrice price) := by
  unfold updatePrice
  split <;> exact Or.inl ⟨rfl, rfl⟩

/-- Every update puts what it changes. -/
theorem step_posts {call : Call} (notPop : call ≠ .pop) :
    publisher.Posts symbol (symbol.step call) := by
  cases call with
  | timeout newEstimate estimator => exact resetIntervalCallback_posts newEstimate _
  | trade price => exact updatePrice_posts price
  | quote bidSize bidPrice askSize askPrice => exact updateQuoteDataSkew_posts _ _ _ _ _
  | quoteSkew skew bidSize bidPrice askSize askPrice => exact updateQuoteDataSkew_posts _ _ _ _ _
  | skew skew => exact Or.inl ⟨rfl, rfl⟩
  | pop => exact absurd rfl notPop

/-- A pop takes the newest stamp and empties the stack. -/
theorem pop_eq_some_iff {stamp : SymbolStamp} {rest : Symbol} :
    symbol.pop = some (stamp, rest) ↔
      symbol.symbolStack.getLast? = some stamp ∧ rest = { symbol with symbolStack := [] } := by
  rw [pop, Option.map_eq_some_iff]
  constructor
  · rintro ⟨newest, isNewest, same⟩
    obtain ⟨rfl, rfl⟩ := Prod.mk.inj same
    exact ⟨isNewest, rfl⟩
  · rintro ⟨isNewest, rfl⟩
    exact ⟨stamp, isNewest, rfl⟩

/-- A pop waits exactly if there is no stamp. -/
theorem pop_eq_none_iff : symbol.pop = none ↔ symbol.symbolStack = [] := by
  rw [pop, Option.map_eq_none_iff, List.getLast?_eq_none_iff]

theorem box_eq_nil_iff : publisher.box symbol = [] ↔ symbol.symbolStack = [] :=
  List.map_eq_nil_iff

theorem pop_cleared {stamp : SymbolStamp} {rest : Symbol}
    (popped : symbol.pop = some (stamp, rest)) : publisher.Cleared symbol rest := by
  obtain ⟨_, rfl⟩ := pop_eq_some_iff.mp popped
  exact ⟨rfl, rfl⟩

theorem pop_newest {stamp : SymbolStamp} {rest : Symbol}
    (popped : symbol.pop = some (stamp, rest)) :
    (publisher.box symbol).getLast? = some stamp.view := by
  obtain ⟨isNewest, _⟩ := pop_eq_some_iff.mp popped
  change (symbol.symbolStack.map SymbolStamp.view).getLast? = _
  rw [List.getLast?_map, isNewest]
  rfl

end Symbol

end TradingApp.Market
