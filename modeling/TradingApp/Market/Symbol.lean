import Mathlib.Algebra.Order.Ring.Rat
import TradingApp.Transition.Run

/-!
# The two price estimates of a symbol

A symbol is shared by the market data thread, two timer threads and the trading
thread.  Each timer thread has an estimator and is to keep an estimate of its
own; whatever changes a quote or an estimate pushes a stamp, and the trading
thread reads the newest stamp.

The first timer's callback falls through to the second estimate when its own
has not changed, so the estimates stay apart exactly as long as the first
estimator repeats no result that the second estimate differs from.
-/

namespace TradingApp.Market

open TradingApp.Transition

/-- What the trading thread is shown of a symbol. -/
structure SymbolStamp where
  priceEstimate1 : ℚ
  priceEstimate2 : ℚ
  instrumentSkew : ℚ
  bidSize : ℕ
  bidPrice : ℚ
  askSize : ℕ
  askPrice : ℚ
deriving DecidableEq, Repr

/-- The prices of an interval. -/
structure Bar where
  openPrice : ℚ
  minPrice : ℚ
  maxPrice : ℚ
  closePrice : ℚ
deriving DecidableEq, Repr

/-- A symbol's market data, its estimates and its stack of stamps, the newest
last. -/
structure Symbol where
  startInterval : Bool
  bar : Bar
  prev : Bar
  priceEstimate1 : ℚ
  priceEstimate2 : ℚ
  instrumentSkew : ℚ
  bidSize : ℕ
  bidPrice : ℚ
  askSize : ℕ
  askPrice : ℚ
  symbolStack : List SymbolStamp
deriving DecidableEq, Repr

/-- The estimator of each timer thread. -/
inductive Estimator where
  | first
  | second
deriving DecidableEq, Repr

/-- The number the source gives the estimator. -/
def Estimator.index : Estimator → ℕ
  | .first => 0
  | .second => 1

namespace Symbol

/-- The constructor leaves the previous bar as it finds it. -/
def new (prev : Bar) : Symbol where
  startInterval := true
  bar := { openPrice := -1, minPrice := -1, maxPrice := -1, closePrice := -1 }
  prev := prev
  priceEstimate1 := -1
  priceEstimate2 := -1
  instrumentSkew := 0
  bidSize := 0
  bidPrice := 0
  askSize := 0
  askPrice := 0
  symbolStack := []

/-- What a stamp records of the symbol. -/
def stamp (symbol : Symbol) : SymbolStamp where
  priceEstimate1 := symbol.priceEstimate1
  priceEstimate2 := symbol.priceEstimate2
  instrumentSkew := symbol.instrumentSkew
  bidSize := symbol.bidSize
  bidPrice := symbol.bidPrice
  askSize := symbol.askSize
  askPrice := symbol.askPrice

/-- Put a stamp on the stack. -/
def push (symbol : Symbol) : Symbol :=
  { symbol with symbolStack := symbol.symbolStack ++ [symbol.stamp] }

/-- The newest stamp; the others are dropped.  An empty stack makes the caller
wait. -/
def pop (symbol : Symbol) : Option (SymbolStamp × Symbol) :=
  symbol.symbolStack.getLast?.map fun stamp => (stamp, { symbol with symbolStack := [] })

/-- The first price of an interval starts a bar, and the others extend it. -/
def updatePrice (symbol : Symbol) (price : ℚ) : Symbol :=
  if symbol.startInterval then
    { symbol with
      startInterval := false
      prev := symbol.bar
      bar := { openPrice := price, minPrice := price, maxPrice := price, closePrice := price } }
  else
    { symbol with
      bar :=
        { symbol.bar with
          maxPrice := if price > symbol.bar.maxPrice then price else symbol.bar.maxPrice
          minPrice := if price < symbol.bar.minPrice then price else symbol.bar.minPrice
          closePrice := price } }

/-- A quote that differs and has both prices is kept. -/
def updateQuoteDataSkew (symbol : Symbol) (skew : ℚ) (bidSize : ℕ) (bidPrice : ℚ) (askSize : ℕ)
    (askPrice : ℚ) : Symbol :=
  if (symbol.bidSize ≠ bidSize ∨ symbol.askSize ≠ askSize ∨ symbol.bidPrice ≠ bidPrice ∨
      symbol.askPrice ≠ askPrice) ∧ bidPrice > 1 / 1000 ∧ askPrice > 1 / 1000 then
    push
      { symbol with
        bidSize := bidSize
        bidPrice := bidPrice
        askSize := askSize
        askPrice := askPrice
        instrumentSkew := skew }
  else symbol

/-- The same with the skew computed from the sizes. -/
def updateQuoteData (symbol : Symbol) (bidSize : ℕ) (bidPrice : ℚ) (askSize : ℕ)
    (askPrice : ℚ) : Symbol :=
  symbol.updateQuoteDataSkew (((bidSize : ℚ) - askSize) / (bidSize + askSize)) bidSize bidPrice
    askSize askPrice

/-- The skew is noted. -/
def updateInstrumentSkew (symbol : Symbol) (skew : ℚ) : Symbol :=
  { symbol with instrumentSkew := skew }

/-- What an estimator returns for the interval so far. -/
def result (symbol : Symbol) (newEstimate : ℚ → ℚ → ℚ → ℚ → ℚ) : ℚ :=
  newEstimate symbol.bar.closePrice symbol.bar.minPrice symbol.bar.maxPrice symbol.bar.openPrice

/-- The callback of a timer thread. -/
def resetIntervalCallback (symbol : Symbol) (newEstimate : ℚ → ℚ → ℚ → ℚ → ℚ) (index : ℕ) :
    Symbol :=
  let temp := symbol.result newEstimate
  let updated :=
    if temp > 0 then
      if index = 0 ∧ temp ≠ symbol.priceEstimate1 then
        push { symbol with priceEstimate1 := temp }
      else if temp ≠ symbol.priceEstimate2 then push { symbol with priceEstimate2 := temp }
      else symbol
    else symbol
  { updated with startInterval := true }

/-! ## The threads -/

/-- A call of one of the threads, made under the symbol's lock. -/
inductive Call where
  | timeout (newEstimate : ℚ → ℚ → ℚ → ℚ → ℚ) (estimator : Estimator)
  | trade (price : ℚ)
  | quote (bidSize : ℕ) (bidPrice : ℚ) (askSize : ℕ) (askPrice : ℚ)
  | quoteSkew (skew : ℚ) (bidSize : ℕ) (bidPrice : ℚ) (askSize : ℕ) (askPrice : ℚ)
  | skew (skew : ℚ)
  | pop

/-- A `pop` that finds nothing waits, and changes nothing. -/
def step (symbol : Symbol) : Call → Symbol
  | .timeout newEstimate estimator => symbol.resetIntervalCallback newEstimate estimator.index
  | .trade price => symbol.updatePrice price
  | .quote bidSize bidPrice askSize askPrice =>
      symbol.updateQuoteData bidSize bidPrice askSize askPrice
  | .quoteSkew skew bidSize bidPrice askSize askPrice =>
      symbol.updateQuoteDataSkew skew bidSize bidPrice askSize askPrice
  | .skew skew => symbol.updateInstrumentSkew skew
  | .pop => (symbol.pop.map Prod.snd).getD symbol

/-- The estimate of a timer thread. -/
def estimate (symbol : Symbol) : Estimator → ℚ
  | .first => symbol.priceEstimate1
  | .second => symbol.priceEstimate2

/-- A callback pushes a stamp if and only if its own estimate changes. -/
def PushesOwn (symbol : Symbol) : Call → Prop
  | .timeout newEstimate estimator =>
      (symbol.step (.timeout newEstimate estimator)).symbolStack ≠ symbol.symbolStack ↔
        (symbol.step (.timeout newEstimate estimator)).estimate estimator ≠
          symbol.estimate estimator
  | _ => True

/-- The first estimator returns its last result again only if the second
estimate is the same, or the result is not positive. -/
def Unrepeated (symbol : Symbol) : Call → Prop
  | .timeout newEstimate .first =>
      0 < symbol.result newEstimate → symbol.result newEstimate = symbol.priceEstimate1 →
        symbol.result newEstimate = symbol.priceEstimate2
  | _ => True

/-! ## Single calls -/

section Callback

variable {symbol : Symbol} {newEstimate : ℚ → ℚ → ℚ → ℚ → ℚ} {index : ℕ}

/-- A callback sets one estimate and pushes a stamp, or it only starts a new
interval. -/
theorem resetIntervalCallback_cases (symbol : Symbol) (newEstimate : ℚ → ℚ → ℚ → ℚ → ℚ)
    (index : ℕ) :
    let r := symbol.result newEstimate
    let next := symbol.resetIntervalCallback newEstimate index
    (0 < r ∧ index = 0 ∧ r ≠ symbol.priceEstimate1 ∧
      next = { push { symbol with priceEstimate1 := r } with startInterval := true }) ∨
    (0 < r ∧ (index = 0 → r = symbol.priceEstimate1) ∧ r ≠ symbol.priceEstimate2 ∧
      next = { push { symbol with priceEstimate2 := r } with startInterval := true }) ∨
    ((0 < r → (index = 0 → r = symbol.priceEstimate1) ∧ r = symbol.priceEstimate2) ∧
      next = { symbol with startInterval := true }) := by
  intro r next
  by_cases positive : 0 < r
  · by_cases own : index = 0 ∧ r ≠ symbol.priceEstimate1
    · refine Or.inl ⟨positive, own.1, own.2, ?_⟩
      dsimp only [next, resetIntervalCallback]
      rw [if_pos positive, if_pos own]
    · have repeated : index = 0 → r = symbol.priceEstimate1 := by
        simpa using own
      by_cases differs : r ≠ symbol.priceEstimate2
      · refine Or.inr (Or.inl ⟨positive, repeated, differs, ?_⟩)
        dsimp only [next, resetIntervalCallback]
        rw [if_pos positive, if_neg own, if_pos differs]
      · refine Or.inr (Or.inr ⟨fun _ => ⟨repeated, not_not.mp differs⟩, ?_⟩)
        dsimp only [next, resetIntervalCallback]
        rw [if_pos positive, if_neg own, if_neg differs]
  · refine Or.inr (Or.inr ⟨fun now => absurd now positive, ?_⟩)
    dsimp only [next, resetIntervalCallback]
    rw [if_neg positive]

end Callback

variable {symbol : Symbol}

theorem push_symbolStack_ne : symbol.push.symbolStack ≠ symbol.symbolStack := by
  simp [push]

theorem updateQuoteDataSkew_cases (symbol : Symbol) (skew : ℚ) (bidSize : ℕ) (bidPrice : ℚ)
    (askSize : ℕ) (askPrice : ℚ) :
    (∃ quoted : Symbol, symbol.updateQuoteDataSkew skew bidSize bidPrice askSize askPrice =
        quoted.push ∧ ∀ estimator, quoted.estimate estimator = symbol.estimate estimator) ∨
      symbol.updateQuoteDataSkew skew bidSize bidPrice askSize askPrice = symbol := by
  unfold updateQuoteDataSkew
  split
  · exact Or.inl ⟨_, rfl, fun estimator => by cases estimator <;> rfl⟩
  · exact Or.inr rfl

/-- Only a timer thread changes an estimate. -/
theorem estimate_step {call : Call}
    (noTimeout : ∀ newEstimate estimator, call ≠ .timeout newEstimate estimator)
    (estimator : Estimator) :
    (symbol.step call).estimate estimator = symbol.estimate estimator := by
  have quote (skew : ℚ) (bidSize : ℕ) (bidPrice : ℚ) (askSize : ℕ) (askPrice : ℚ) :
      (symbol.updateQuoteDataSkew skew bidSize bidPrice askSize askPrice).estimate estimator =
        symbol.estimate estimator := by
    rcases symbol.updateQuoteDataSkew_cases skew bidSize bidPrice askSize askPrice with
      ⟨quoted, pushed, same⟩ | same
    · rw [pushed, ← same estimator]
      cases estimator <;> rfl
    · rw [same]
  cases call with
  | timeout newEstimate estimator => exact absurd rfl (noTimeout newEstimate estimator)
  | trade price =>
      change (symbol.updatePrice price).estimate estimator = _
      unfold updatePrice
      cases estimator <;> split <;> rfl
  | quote bidSize bidPrice askSize askPrice => exact quote _ _ _ _ _
  | quoteSkew skew bidSize bidPrice askSize askPrice => exact quote _ _ _ _ _
  | skew skew => cases estimator <;> rfl
  | pop =>
      change ((symbol.pop.map Prod.snd).getD symbol).estimate estimator = _
      unfold pop
      cases symbol.symbolStack.getLast? with
      | none => rfl
      | some stamp => cases estimator <;> rfl

/-! ## Stamps -/

/-- The newest stamp shows the estimates as they are. -/
def Fresh (symbol : Symbol) : Prop :=
  ∀ stamp ∈ symbol.symbolStack.getLast?,
    stamp.priceEstimate1 = symbol.priceEstimate1 ∧ stamp.priceEstimate2 = symbol.priceEstimate2

theorem fresh_push : symbol.push.Fresh := by
  intro stamp newest
  rw [push, List.getLast?_concat, Option.mem_some_iff] at newest
  subst newest
  exact ⟨rfl, rfl⟩

theorem Fresh.updateQuoteDataSkew (fresh : symbol.Fresh) (skew : ℚ) (bidSize : ℕ) (bidPrice : ℚ)
    (askSize : ℕ) (askPrice : ℚ) :
    (symbol.updateQuoteDataSkew skew bidSize bidPrice askSize askPrice).Fresh := by
  rcases symbol.updateQuoteDataSkew_cases skew bidSize bidPrice askSize askPrice with
    ⟨quoted, pushed, _⟩ | same
  · rw [pushed]
    exact fresh_push
  · rw [same]
    exact fresh

/-- Every change of an estimate is pushed. -/
theorem Fresh.step (fresh : symbol.Fresh) (call : Call) : (symbol.step call).Fresh := by
  cases call with
  | timeout newEstimate estimator =>
      change (symbol.resetIntervalCallback newEstimate estimator.index).Fresh
      rcases symbol.resetIntervalCallback_cases newEstimate estimator.index with
        ⟨_, _, _, next⟩ | ⟨_, _, _, next⟩ | ⟨_, next⟩
      · rw [next]
        exact fresh_push
      · rw [next]
        exact fresh_push
      · rw [next]
        exact fresh
  | trade price =>
      change (symbol.updatePrice price).Fresh
      unfold Symbol.updatePrice
      split
      · exact fresh
      · exact fresh
  | quote bidSize bidPrice askSize askPrice => exact fresh.updateQuoteDataSkew _ _ _ _ _
  | quoteSkew skew bidSize bidPrice askSize askPrice => exact fresh.updateQuoteDataSkew _ _ _ _ _
  | skew skew => exact fresh
  | pop =>
      change ((symbol.pop.map Prod.snd).getD symbol).Fresh
      unfold Symbol.pop
      cases symbol.symbolStack.getLast? with
      | none => exact fresh
      | some stamp => exact nofun

/-- In every run the trading thread pops the estimates as they are. -/
theorem pop_estimates (prev : Bar) (calls : List Call) {stamp : SymbolStamp} {rest : Symbol}
    (popped : (run step (new prev) calls).pop = some (stamp, rest)) :
    stamp.priceEstimate1 = rest.priceEstimate1 ∧ stamp.priceEstimate2 = rest.priceEstimate2 := by
  have states : EveryState step Fresh (new prev) calls :=
    everyState_of_forall_step (fun _ call fresh => fresh.step call) nofun calls
  obtain ⟨newest, isNewest, same⟩ := Option.map_eq_some_iff.mp popped
  obtain ⟨rfl, rfl⟩ := Prod.mk.inj same
  exact states.last newest isNewest

/-- Stamps are pushed for the callback's own estimate unless the first estimator
repeats a result. -/
theorem pushesOwn_of_unrepeated {call : Call} (unrepeated : Unrepeated symbol call) :
    PushesOwn symbol call := by
  cases call with
  | timeout newEstimate estimator =>
      unfold PushesOwn
      dsimp only [Symbol.step]
      rcases symbol.resetIntervalCallback_cases newEstimate estimator.index with
        ⟨_, isFirst, differs, next⟩ | ⟨positive, repeated, differs, next⟩ | ⟨_, next⟩
      · rw [next]
        cases estimator with
        | first => exact iff_of_true push_symbolStack_ne differs
        | second => exact nomatch isFirst
      · rw [next]
        cases estimator with
        | first => exact absurd (unrepeated positive (repeated rfl)) differs
        | second => exact iff_of_true push_symbolStack_ne differs
      · rw [next]
        refine iff_of_false (not_not_intro rfl) (not_not_intro ?_)
        cases estimator <;> rfl
  | _ => trivial

end Symbol

/-! ## Runs -/

/-- A symbol, with the last positive result of each estimator. -/
structure Observed where
  symbol : Symbol
  last : Estimator → ℚ

namespace Observed

/-- No estimator has returned anything yet. -/
def start (prev : Bar) : Observed where
  symbol := Symbol.new prev
  last _ := -1

/-- Beside the symbol, an estimator's last positive result is kept. -/
def step (observed : Observed) (call : Symbol.Call) : Observed where
  symbol := observed.symbol.step call
  last :=
    match call with
    | .timeout newEstimate estimator =>
        if 0 < observed.symbol.result newEstimate then
          Function.update observed.last estimator (observed.symbol.result newEstimate)
        else observed.last
    | _ => observed.last

/-- Each estimate is the last positive result of its estimator. -/
def Separate (observed : Observed) : Prop :=
  observed.symbol.priceEstimate1 = observed.last .first ∧
    observed.symbol.priceEstimate2 = observed.last .second

variable {observed : Observed}

/-- A callback of the first timer. -/
theorem Separate.timeout_first_iff (separate : observed.Separate)
    (newEstimate : ℚ → ℚ → ℚ → ℚ → ℚ) :
    (observed.step (.timeout newEstimate .first)).Separate ↔
      Symbol.Unrepeated observed.symbol (.timeout newEstimate .first) := by
  obtain ⟨first, second⟩ := separate
  dsimp only [Separate, step, Symbol.step, Symbol.Unrepeated]
  rcases observed.symbol.resetIntervalCallback_cases newEstimate 0 with
    ⟨positive, _, differs, next⟩ | ⟨positive, repeated, differs, next⟩ | ⟨same, next⟩
  · rw [Estimator.index, next, if_pos positive, Function.update_self,
      Function.update_of_ne (Ne.symm Estimator.noConfusion)]
    exact iff_of_true ⟨rfl, second⟩ fun _ repeated => absurd repeated differs
  · rw [Estimator.index, next, if_pos positive, Function.update_self,
      Function.update_of_ne (Ne.symm Estimator.noConfusion)]
    refine iff_of_false (fun both => differs ?_) fun unrepeated => ?_
    · exact both.2.trans second.symm
    · exact differs (unrepeated positive (repeated rfl))
  · rw [Estimator.index, next]
    refine iff_of_true ?_ fun positive _ => (same positive).2
    split
    · rename_i positive
      rw [Function.update_self, Function.update_of_ne (Ne.symm Estimator.noConfusion)]
      exact ⟨((same positive).1 rfl).symm, second⟩
    · exact ⟨first, second⟩

/-- A callback of the second timer. -/
theorem Separate.timeout_second (separate : observed.Separate)
    (newEstimate : ℚ → ℚ → ℚ → ℚ → ℚ) :
    (observed.step (.timeout newEstimate .second)).Separate := by
  obtain ⟨first, second⟩ := separate
  dsimp only [Separate, step, Symbol.step]
  rcases observed.symbol.resetIntervalCallback_cases newEstimate 1 with
    ⟨_, isFirst, _⟩ | ⟨positive, _, _, next⟩ | ⟨same, next⟩
  · exact absurd isFirst one_ne_zero
  · rw [Estimator.index, next, if_pos positive, Function.update_self,
      Function.update_of_ne Estimator.noConfusion]
    exact ⟨first, rfl⟩
  · rw [Estimator.index, next]
    split
    · rename_i positive
      rw [Function.update_self, Function.update_of_ne Estimator.noConfusion]
      exact ⟨first, (same positive).2.symm⟩
    · exact ⟨first, second⟩

theorem Separate.step_iff (separate : observed.Separate) (call : Symbol.Call) :
    (observed.step call).Separate ↔ Symbol.Unrepeated observed.symbol call := by
  have others (noTimeout : ∀ newEstimate estimator, call ≠ .timeout newEstimate estimator)
      (last : (observed.step call).last = observed.last) : (observed.step call).Separate := by
    unfold Separate
    rw [last]
    exact ⟨(Symbol.estimate_step noTimeout .first).trans separate.1,
      (Symbol.estimate_step noTimeout .second).trans separate.2⟩
  cases call with
  | timeout newEstimate estimator =>
      cases estimator with
      | first => exact separate.timeout_first_iff newEstimate
      | second => exact iff_of_true (separate.timeout_second newEstimate) trivial
  | trade | quote | quoteSkew | skew | pop => exact iff_of_true (others nofun rfl) trivial

/-- The estimates stay apart, and stamps are pushed for a callback's own
estimate, as long as the first estimator does not repeat a result that the
second estimate differs from. -/
theorem estimates_separate_iff (prev : Bar) (calls : List Symbol.Call) :
    EveryState step Separate (start prev) calls ∧
        EveryStep step (fun observed call => Symbol.PushesOwn observed.symbol call) (start prev)
          calls ↔
      EveryStep step (fun observed call => Symbol.Unrepeated observed.symbol call) (start prev)
        calls := by
  have separate : EveryState step Separate (start prev) calls ↔
      EveryStep step (fun observed call => Symbol.Unrepeated observed.symbol call) (start prev)
        calls :=
    everyState_iff_everyStep_of_forall
      (fun _ call separate unrepeated => (separate.step_iff call).mpr unrepeated)
      (fun _ separate => separate)
      (fun _ call separate next => (separate.step_iff call).mp next) ⟨rfl, rfl⟩ calls
  constructor
  · exact fun both => separate.mp both.1
  · exact fun unrepeated => ⟨separate.mpr unrepeated,
      unrepeated.mono fun _ _ unrepeated => Symbol.pushesOwn_of_unrepeated unrepeated⟩

/-- The first estimator returns five twice, and five becomes the second estimate. -/
theorem not_estimates_separate_repeated :
    ¬ ∀ (prev : Bar) (calls : List Symbol.Call),
      EveryState step Separate (start prev) calls ∧
        EveryStep step (fun observed call => Symbol.PushesOwn observed.symbol call) (start prev)
          calls := by
  intro all
  let five : Symbol.Call := .timeout (fun _ _ _ _ => 5) .first
  have states := (all ⟨0, 0, 0, 0⟩ [five, five]).1
  have second : (run step (start ⟨0, 0, 0, 0⟩) [five, five]).symbol.priceEstimate2 = -1 :=
    states.last.2
  exact absurd second (by decide +kernel)

end Observed

end TradingApp.Market
