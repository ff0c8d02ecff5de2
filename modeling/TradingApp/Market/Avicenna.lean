import Mathlib.Algebra.Group.Nat.Even
import TradingApp.Market.Bars
import TradingApp.Transition.LastWrite
import TradingApp.Utils.Rounding

/-!
# What the estimators are given

Each timer thread of a symbol has a connection to an estimator of its own, whose
code is not the program's: it takes prices one by one and can be asked for a
value.  A reset gives it the close of the interval.  Before the first one it is
given that price and one cent more in turns, until the estimate is positive.

The symbol stays locked meanwhile.  If the estimate never becomes positive, no
trade, quote or reset of the symbol happens any more.
-/

namespace TradingApp.Market

open TradingApp.Machine TradingApp.Transition TradingApp.Utils

/-! ## Connections -/

/-- The estimator: what a price makes of its state, and the value it gives. -/
structure SuperPlus (σ : Type) where
  calculate : σ → ℚ → σ
  exportValue4 : σ → ℚ

/-- A connection to the estimator, with the estimator's state. -/
structure Connection (σ : Type) extends AvicennaConnection where
  superPlus : σ
  startup : Bool

section Connection

variable {σ : Type} (dll : SuperPlus σ) (conversion : Conversion)

namespace Connection

/-- Nothing is estimated yet. -/
def new (superPlus : σ) : Connection σ where
  priceEstimate := -1
  superPlus := superPlus
  startup := true

/-- Give the estimator a price and keep its value to four digits. -/
def calculate (connection : Connection σ) (price : ℚ) : Connection σ :=
  let superPlus := dll.calculate connection.superPlus price
  { connection with
    superPlus
    toAvicennaConnection :=
      connection.toAvicennaConnection.calculate conversion (fun _ => dll.exportValue4 superPlus)
        price }

/-- The condition of the warm-up loop. -/
def Warms (connection : Connection σ) : Prop :=
  connection.priceEstimate ≤ 0 ∧ connection.startup = true

instance (connection : Connection σ) : Decidable connection.Warms :=
  inferInstanceAs (Decidable (_ ∧ _))

/-- Give the estimator one price after the other. -/
def feed (connection : Connection σ) (prices : List ℚ) : Connection σ :=
  prices.foldl (calculate dll conversion) connection

variable {dll conversion}

@[simp]
theorem calculate_startup (connection : Connection σ) (price : ℚ) :
    (connection.calculate dll conversion price).startup = connection.startup :=
  rfl

@[simp]
theorem feed_startup (connection : Connection σ) (prices : List ℚ) :
    (connection.feed dll conversion prices).startup = connection.startup := by
  induction prices generalizing connection with
  | nil => rfl
  | cons price rest ih => exact ih (connection.calculate dll conversion price)

theorem feed_concat (connection : Connection σ) (prices : List ℚ) (price : ℚ) :
    connection.feed dll conversion (prices ++ [price]) =
      (connection.feed dll conversion prices).calculate dll conversion price :=
  List.foldl_concat ..

end Connection

/-- The variables of the warm-up loop. -/
structure WarmUp where
  latest : ℚ
  val : ℚ
  invert : Bool
deriving DecidableEq, Repr

namespace WarmUp

/-- The warm-up begins at the latest price. -/
def start (latest : ℚ) : WarmUp where
  latest := latest
  val := latest
  invert := true

/-- The next price is a cent more, or a cent less. -/
def next (warmUp : WarmUp) : WarmUp :=
  if warmUp.invert then { warmUp with val := warmUp.val + 1 / 100, invert := false }
  else { warmUp with val := warmUp.val - 1 / 100, invert := true }

/-- The variables after some rounds. -/
def after (latest : ℚ) (rounds : ℕ) : WarmUp where
  latest := latest
  val := if Even rounds then latest else latest + 1 / 100
  invert := decide (Even rounds)

theorem next_after (latest : ℚ) (rounds : ℕ) :
    (after latest rounds).next = after latest (rounds + 1) := by
  unfold next after
  by_cases even : Even rounds
  · simp [even, Nat.even_add_one]
  · simp [even, Nat.even_add_one]

/-- The prices of the first rounds. -/
def prices (latest : ℚ) (rounds : ℕ) : List ℚ :=
  (List.range rounds).map fun round => if Even round then latest + 1 / 100 else latest

theorem prices_succ (latest : ℚ) (rounds : ℕ) :
    prices latest (rounds + 1) = prices latest rounds ++ [(after latest (rounds + 1)).val] := by
  unfold prices after
  rw [List.range_succ, List.map_append, List.map_singleton]
  congr 2
  by_cases even : Even rounds
  · simp [even, Nat.even_add_one]
  · simp [even, Nat.even_add_one]

end WarmUp

end Connection

/-! ## The threads of a symbol -/

/-- A symbol with both connections, and the timer thread that warms its estimator
up and keeps the symbol locked. -/
structure Feed (σ : Type) where
  symbol : Symbol
  connections : Estimator → Connection σ
  holder : Option (Estimator × WarmUp)

namespace Feed

/-- A call of the market data or the trading thread, the start of a reset, or a
round of a warm-up. -/
inductive Label where
  | call (call : { call : Symbol.Call // call.isTimeout = false })
  | timeout (estimator : Estimator)
  | warm (estimator : Estimator)

/-- Only the trading thread does without the symbol's lock. -/
def needsLock : Symbol.Call → Bool
  | .pop => false
  | .timeout _ _ | .trade _ | .quote _ _ _ _ | .quoteSkew _ _ _ _ _ | .skew _ => true

variable {σ : Type} (dll : SuperPlus σ) (conversion : Conversion)

/-- No timer is in its callback. -/
def new (prev : Bar) (init : Estimator → σ) : Feed σ where
  symbol := Symbol.new prev
  connections estimator := .new (init estimator)
  holder := none

/-- The end of `newEstimate`, and the reset with its result. -/
def finish (feed : Feed σ) (estimator : Estimator) (latest : ℚ) : Feed σ :=
  let connection :=
    { (feed.connections estimator).calculate dll conversion latest with startup := false }
  { symbol := feed.symbol.step (.timeout (fun _ _ _ _ => connection.priceEstimate) estimator)
    connections := Function.update feed.connections estimator connection
    holder := none }

/-- One round of the warm-up loop, and what follows the last one. -/
def warm (feed : Feed σ) (estimator : Estimator) (warmUp : WarmUp) : Feed σ :=
  let warmUp := warmUp.next
  let connection := (feed.connections estimator).calculate dll conversion warmUp.val
  let warmed :=
    { feed with connections := Function.update feed.connections estimator connection }
  if connection.Warms then { warmed with holder := some (estimator, warmUp) }
  else warmed.finish dll conversion estimator warmUp.latest

/-- A thread that finds the symbol locked has to wait. -/
def step (feed : Feed σ) : Label → Option (Feed σ)
  | .call call =>
      if needsLock call.val = true ∧ feed.holder ≠ none then none
      else some { feed with symbol := feed.symbol.step call.val }
  | .timeout estimator =>
      let latest := feed.symbol.bar.closePrice
      if feed.holder ≠ none then none
      else if 0 < latest then
        if (feed.connections estimator).Warms then
          some { feed with holder := some (estimator, .start latest) }
        else some (feed.finish dll conversion estimator latest)
      else
        some { feed with symbol := feed.symbol.step (.timeout (fun _ _ _ _ => 0) estimator) }
  | .warm estimator =>
      match feed.holder with
      | none => none
      | some (owner, warmUp) =>
          if owner = estimator then some (feed.warm dll conversion estimator warmUp) else none

/-- Steps one after the other, none of which had to wait. -/
def runs (feed : Feed σ) (trace : List Label) : Option (Feed σ) :=
  trace.foldlM (step dll conversion) feed

/-! ## What a trace says -/

/-- The price of a trade. -/
def Label.price : Label → Option ℚ
  | .call made => made.val.price
  | .timeout _ | .warm _ => none

/-- The price of the last trade. -/
def lastTrade (trace : List Label) : Option ℚ :=
  (trace.filterMap Label.price).getLast?

/-- The positive closes that a timer thread finds. -/
def closes (estimator : Estimator) : List Label → List ℚ :=
  heard (fun before label =>
    match label with
    | .timeout other =>
        if other = estimator then (lastTrade before).toList.filter (0 < ·) else []
    | .call _ | .warm _ => []) []

/-- The rounds of a timer thread's warm-up. -/
def rounds (estimator : Estimator) (trace : List Label) : ℕ :=
  trace.countP fun label =>
    match label with
    | .warm other => decide (other = estimator)
    | .call _ | .timeout _ => false

section Concat

variable (trace : List Label) (label : Label) (estimator : Estimator)

theorem lastTrade_concat :
    lastTrade (trace ++ [label]) = label.price.or (lastTrade trace) := by
  unfold lastTrade
  rw [List.filterMap_append, List.getLast?_append]
  cases trade : label.price with
  | none => rw [List.filterMap_cons_none trade]; rfl
  | some price => rw [List.filterMap_cons_some trade]; rfl

theorem closes_concat_timeout :
    closes estimator (trace ++ [.timeout estimator]) =
      closes estimator trace ++ (lastTrade trace).toList.filter (0 < ·) := by
  unfold closes
  rw [heard_concat]
  dsimp only
  rw [if_pos rfl, List.nil_append]

theorem closes_concat_of_ne (other : label ≠ .timeout estimator) :
    closes estimator (trace ++ [label]) = closes estimator trace := by
  unfold closes
  rw [heard_concat]
  cases label with
  | timeout thread =>
      dsimp only
      rw [if_neg fun same => other (congrArg Label.timeout same), List.append_nil]
  | call | warm => exact List.append_nil _

theorem rounds_concat_warm :
    rounds estimator (trace ++ [.warm estimator]) = rounds estimator trace + 1 := by
  unfold rounds
  rw [List.countP_append, List.countP_singleton, if_pos (decide_eq_true rfl)]

theorem rounds_concat_of_ne (other : label ≠ .warm estimator) :
    rounds estimator (trace ++ [label]) = rounds estimator trace := by
  unfold rounds
  rw [List.countP_append, List.countP_singleton]
  cases label with
  | warm thread =>
      dsimp only
      rw [if_neg fun same => other (congrArg Label.warm (of_decide_eq_true same)), Nat.add_zero]
  | call | timeout => exact Nat.add_zero _

end Concat

/-! ## What a connection has been given -/

variable {dll conversion} {init : Estimator → σ} {feed next : Feed σ} {trace : List Label}
  {estimator : Estimator}

/-- A new connection after some rounds of the warm-up. -/
def warmed (dll : SuperPlus σ) (conversion : Conversion) (superPlus : σ) (latest : ℚ)
    (rounds : ℕ) : Connection σ :=
  (Connection.new superPlus).feed dll conversion (WarmUp.prices latest rounds)

theorem warmed_succ (superPlus : σ) (latest : ℚ) (rounds : ℕ) :
    warmed dll conversion superPlus latest (rounds + 1) =
      (warmed dll conversion superPlus latest rounds).calculate dll conversion
        (WarmUp.after latest (rounds + 1)).val := by
  unfold warmed
  rw [WarmUp.prices_succ, Connection.feed_concat]

theorem warmed_startup (dll : SuperPlus σ) (conversion : Conversion) (superPlus : σ)
    (latest : ℚ) (rounds : ℕ) :
    (warmed dll conversion superPlus latest rounds).startup = true :=
  Connection.feed_startup _ _

/-- A connection has been given nothing; or the warm-up for the first positive
close, so far without a positive estimate; or all of it, and every positive close
found. -/
inductive Fed (dll : SuperPlus σ) (conversion : Conversion) (init : Estimator → σ)
    (feed : Feed σ) (trace : List Label) (estimator : Estimator) : Prop where
  | unused
      (closes : closes estimator trace = [])
      (rounds : rounds estimator trace = 0)
      (free : ∀ warmUp, feed.holder ≠ some (estimator, warmUp))
      (connection : feed.connections estimator = .new (init estimator))
  | warming (first : ℚ)
      (closes : closes estimator trace = [first])
      (holder : feed.holder = some (estimator, .after first (rounds estimator trace)))
      (least : ∀ earlier ≤ rounds estimator trace,
        (warmed dll conversion (init estimator) first earlier).priceEstimate ≤ 0)
      (connection : feed.connections estimator =
        warmed dll conversion (init estimator) first (rounds estimator trace))
  | started (first : ℚ) (later : List ℚ)
      (closes : closes estimator trace = first :: later)
      (free : ∀ warmUp, feed.holder ≠ some (estimator, warmUp))
      (least : ∀ earlier < rounds estimator trace,
        (warmed dll conversion (init estimator) first earlier).priceEstimate ≤ 0)
      (positive : 0 < (warmed dll conversion (init estimator) first
        (rounds estimator trace)).priceEstimate)
      (connection : feed.connections estimator =
        { (warmed dll conversion (init estimator) first (rounds estimator trace)).feed dll
            conversion (first :: later) with startup := false })

/-- What does not concern a timer thread. -/
theorem Fed.congr (fed : Fed dll conversion init feed trace estimator) {after : List Label}
    (closes : closes estimator after = closes estimator trace)
    (rounds : rounds estimator after = rounds estimator trace)
    (holder : ∀ warmUp, next.holder = some (estimator, warmUp) ↔
      feed.holder = some (estimator, warmUp))
    (connection : next.connections estimator = feed.connections estimator) :
    Fed dll conversion init next after estimator := by
  have stays (free : ∀ warmUp, feed.holder ≠ some (estimator, warmUp)) (warmUp : WarmUp) :
      next.holder ≠ some (estimator, warmUp) :=
    fun held => free warmUp ((holder warmUp).mp held)
  cases fed with
  | unused none zero free same =>
      exact .unused (closes.trans none) (rounds.trans zero) (stays free) (connection.trans same)
  | warming first one held least same =>
      rw [← rounds] at held least same
      exact .warming first (closes.trans one) ((holder _).mpr held) least (connection.trans same)
  | started first later some free least positive same =>
      rw [← rounds] at least positive same
      exact .started first later (closes.trans some) (stays free) least positive
        (connection.trans same)

/-! ## Steps -/

/-- Everything that a step can be. -/
theorem step_cases {label : Label} (steps : feed.step dll conversion label = some next) :
    (∃ call, label = .call call ∧ (needsLock call.val = true → feed.holder = none) ∧
      next = { feed with symbol := feed.symbol.step call.val }) ∨
    (∃ estimator, label = .timeout estimator ∧ feed.holder = none ∧
      ((0 < feed.symbol.bar.closePrice ∧ (feed.connections estimator).Warms ∧
          next = { feed with holder := some (estimator, .start feed.symbol.bar.closePrice) }) ∨
        (0 < feed.symbol.bar.closePrice ∧ ¬ (feed.connections estimator).Warms ∧
          next = feed.finish dll conversion estimator feed.symbol.bar.closePrice) ∨
        (¬ 0 < feed.symbol.bar.closePrice ∧
          next = { feed with
            symbol := feed.symbol.step (.timeout (fun _ _ _ _ => 0) estimator) }))) ∨
    ∃ estimator warmUp, label = .warm estimator ∧ feed.holder = some (estimator, warmUp) ∧
      next = feed.warm dll conversion estimator warmUp := by
  cases label with
  | call call =>
      simp only [step] at steps
      split at steps
      · cases steps
      · rename_i passes
        exact Or.inl ⟨call, rfl, fun needs => not_not.mp fun held => passes ⟨needs, held⟩,
          (Option.some.inj steps).symm⟩
  | timeout estimator =>
      simp only [step] at steps
      split at steps
      · cases steps
      · rename_i free
        refine Or.inr (Or.inl ⟨estimator, rfl, not_not.mp free, ?_⟩)
        split at steps
        · rename_i positive
          split at steps
          · rename_i warms
            exact Or.inl ⟨positive, warms, (Option.some.inj steps).symm⟩
          · rename_i started
            exact Or.inr (Or.inl ⟨positive, started, (Option.some.inj steps).symm⟩)
        · rename_i noPrice
          exact Or.inr (Or.inr ⟨noPrice, (Option.some.inj steps).symm⟩)
  | warm estimator =>
      cases held : feed.holder with
      | none =>
          simp only [step, held] at steps
          cases steps
      | some both =>
          obtain ⟨owner, warmUp⟩ := both
          simp only [step, held] at steps
          split at steps
          · rename_i same
            subst same
            exact Or.inr (Or.inr ⟨owner, warmUp, rfl, rfl, (Option.some.inj steps).symm⟩)
          · cases steps

theorem finish_bar (feed : Feed σ) (estimator : Estimator) (latest : ℚ) :
    (feed.finish dll conversion estimator latest).symbol.bar = feed.symbol.bar :=
  (Symbol.resetIntervalCallback_bars feed.symbol _ _).2.1

theorem finish_connections_self (feed : Feed σ) (estimator : Estimator) (latest : ℚ) :
    (feed.finish dll conversion estimator latest).connections estimator =
      { (feed.connections estimator).calculate dll conversion latest with startup := false } :=
  Function.update_self ..

theorem finish_connections_of_ne (feed : Feed σ) {estimator other : Estimator}
    (different : other ≠ estimator) (latest : ℚ) :
    (feed.finish dll conversion estimator latest).connections other = feed.connections other :=
  Function.update_of_ne different ..

theorem warm_cases (dll : SuperPlus σ) (conversion : Conversion) (feed : Feed σ)
    (estimator : Estimator) (warmUp : WarmUp) :
    let connection := (feed.connections estimator).calculate dll conversion warmUp.next.val
    let warmed :=
      { feed with connections := Function.update feed.connections estimator connection }
    (connection.Warms ∧ feed.warm dll conversion estimator warmUp =
      { warmed with holder := some (estimator, warmUp.next) }) ∨
    (¬ connection.Warms ∧ feed.warm dll conversion estimator warmUp =
      warmed.finish dll conversion estimator warmUp.next.latest) := by
  intro connection warmed
  unfold warm
  by_cases warms : connection.Warms
  · exact Or.inl ⟨warms, if_pos warms⟩
  · exact Or.inr ⟨warms, if_neg warms⟩

theorem warm_bar (feed : Feed σ) (estimator : Estimator) (warmUp : WarmUp) :
    (feed.warm dll conversion estimator warmUp).symbol.bar = feed.symbol.bar := by
  rcases warm_cases dll conversion feed estimator warmUp with ⟨_, same⟩ | ⟨_, same⟩
  · rw [same]
  · rw [same]
    exact finish_bar _ estimator _

/-- The close is the price of the last trade. -/
theorem step_closePrice {label : Label} (steps : feed.step dll conversion label = some next) :
    next.symbol.bar.closePrice = label.price.getD feed.symbol.bar.closePrice := by
  rcases step_cases steps with ⟨call, rfl, _, rfl⟩ | ⟨estimator, rfl, _, reset⟩ |
    ⟨estimator, warmUp, rfl, _, rfl⟩
  · obtain ⟨made, noTimeout⟩ := call
    cases noTrade : made.price with
    | none =>
        have bars := Symbol.step_bars feed.symbol noTimeout noTrade
        change (feed.symbol.step made).bar.closePrice = (made.price).getD _
        rw [noTrade, bars.2.1]
        rfl
    | some price =>
        cases made with
        | trade price =>
            change (feed.symbol.updatePrice price).bar.closePrice = price
            unfold Symbol.updatePrice
            split
            · rfl
            · rfl
        | timeout | quote | quoteSkew | skew | pop => cases noTrade
  · rcases reset with ⟨_, _, rfl⟩ | ⟨_, _, rfl⟩ | ⟨_, rfl⟩
    · rfl
    · exact congrArg Bar.closePrice (finish_bar feed estimator _)
    · exact congrArg Bar.closePrice (Symbol.resetIntervalCallback_bars feed.symbol _ _).2.1
  · exact congrArg Bar.closePrice (feed.warm_bar estimator warmUp)

/-- A call of another thread gives no estimator anything. -/
theorem Fed.call (fed : Fed dll conversion init feed trace estimator)
    (call : { call : Symbol.Call // call.isTimeout = false }) :
    Fed dll conversion init { feed with symbol := feed.symbol.step call.val }
      (trace ++ [.call call]) estimator :=
  fed.congr (closes_concat_of_ne _ _ _ nofun) (rounds_concat_of_ne _ _ _ nofun)
    (fun _ => Iff.rfl) rfl

/-- Nor does the reset of the other timer. -/
theorem Fed.other (fed : Fed dll conversion init feed trace estimator) {thread : Estimator}
    (different : estimator ≠ thread) {label : Label}
    (own : label = .timeout thread ∨ label = .warm thread)
    (before : ∀ warmUp, feed.holder ≠ some (estimator, warmUp))
    (after : ∀ warmUp, next.holder ≠ some (estimator, warmUp))
    (connection : next.connections estimator = feed.connections estimator) :
    Fed dll conversion init next (trace ++ [label]) estimator := by
  have noTimeout : label ≠ .timeout estimator := by
    rcases own with rfl | rfl
    · exact fun same => different (Label.timeout.inj same).symm
    · exact nofun
  have noWarm : label ≠ .warm estimator := by
    rcases own with rfl | rfl
    · exact nofun
    · exact fun same => different (Label.warm.inj same).symm
  refine fed.congr (closes_concat_of_ne _ _ _ noTimeout) (rounds_concat_of_ne _ _ _ noWarm)
    (fun warmUp => ?_) connection
  exact iff_of_false (after warmUp) (before warmUp)

section Timeout

variable (close : feed.symbol.bar.closePrice = (lastTrade trace).getD (-1))

include close

/-- A positive close is the price of a trade. -/
theorem closes_of_pos (estimator : Estimator) (positive : 0 < feed.symbol.bar.closePrice) :
    closes estimator (trace ++ [.timeout estimator]) =
      closes estimator trace ++ [feed.symbol.bar.closePrice] := by
  rw [closes_concat_timeout]
  cases last : lastTrade trace with
  | none =>
      rw [last] at close
      rw [close] at positive
      norm_num at positive
  | some price =>
      rw [last, Option.getD_some] at close
      rw [close] at positive ⊢
      simp [positive]

/-- Any other close is not given to the estimator. -/
theorem closes_of_not_pos (estimator : Estimator) (noPrice : ¬ 0 < feed.symbol.bar.closePrice) :
    closes estimator (trace ++ [.timeout estimator]) = closes estimator trace := by
  rw [closes_concat_timeout]
  cases last : lastTrade trace with
  | none => exact List.append_nil _
  | some price =>
      rw [last, Option.getD_some] at close
      rw [close] at noPrice
      simp [noPrice]

/-- The first positive close starts the warm-up. -/
theorem Fed.warms (fed : Fed dll conversion init feed trace estimator)
    (free : feed.holder = none) (positive : 0 < feed.symbol.bar.closePrice)
    (warms : (feed.connections estimator).Warms) :
    Fed dll conversion init
      { feed with holder := some (estimator, .start feed.symbol.bar.closePrice) }
      (trace ++ [.timeout estimator]) estimator := by
  have rounds := rounds_concat_of_ne trace (.timeout estimator) estimator nofun
  have closes := closes_of_pos close estimator positive
  cases fed with
  | unused none zero _ same =>
      rw [zero] at rounds
      rw [none, List.nil_append] at closes
      apply Fed.warming feed.symbol.bar.closePrice closes
      · rw [rounds]
        rfl
      · intro earlier first
        rw [rounds, Nat.le_zero] at first
        subst first
        exact (by norm_num : (-1 : ℚ) ≤ 0)
      · rw [rounds]
        exact same
  | warming _ _ held =>
      rw [free] at held
      cases held
  | started _ _ _ _ _ _ same =>
      have started := warms.2
      rw [same] at started
      cases started

/-- Every later one is given to the estimator at once. -/
theorem Fed.finish (fed : Fed dll conversion init feed trace estimator)
    (free : feed.holder = none) (positive : 0 < feed.symbol.bar.closePrice)
    (started : ¬ (feed.connections estimator).Warms) :
    Fed dll conversion init (feed.finish dll conversion estimator feed.symbol.bar.closePrice)
      (trace ++ [.timeout estimator]) estimator := by
  have rounds := rounds_concat_of_ne trace (.timeout estimator) estimator nofun
  have closes := closes_of_pos close estimator positive
  cases fed with
  | unused _ _ _ same =>
      refine absurd ?_ started
      rw [same]
      exact ⟨(by norm_num : (-1 : ℚ) ≤ 0), rfl⟩
  | warming _ _ held =>
      rw [free] at held
      cases held
  | started first later some _ least warm same =>
      rw [some] at closes
      rw [← rounds] at least warm same
      refine .started first (later ++ [feed.symbol.bar.closePrice]) closes (fun _ => nofun) least
        warm ?_
      rw [finish_connections_self, same, ← List.cons_append, Connection.feed_concat]
      rfl

end Timeout

/-- A round of the warm-up. -/
theorem Fed.warm (fed : Fed dll conversion init feed trace estimator) {warmUp : WarmUp}
    (held : feed.holder = some (estimator, warmUp)) :
    Fed dll conversion init (feed.warm dll conversion estimator warmUp)
      (trace ++ [.warm estimator]) estimator := by
  have closes := closes_concat_of_ne trace (.warm estimator) estimator nofun
  have rounds := rounds_concat_warm trace estimator
  cases fed with
  | unused _ _ free => exact absurd held (free warmUp)
  | started _ _ _ free => exact absurd held (free warmUp)
  | warming first one holder least same =>
      rw [holder] at held
      obtain rfl := (Prod.mk.inj (Option.some.inj held)).2
      rw [one] at closes
      have given : (feed.connections estimator).calculate dll conversion
          (WarmUp.after first (Feed.rounds estimator trace)).next.val =
          warmed dll conversion (init estimator) first
            (Feed.rounds estimator (trace ++ [.warm estimator])) := by
        rw [same, WarmUp.next_after, rounds, warmed_succ]
      have earlier : ∀ earlier < Feed.rounds estimator (trace ++ [.warm estimator]),
          (warmed dll conversion (init estimator) first earlier).priceEstimate ≤ 0 := by
        intro earlier before
        exact least earlier (by omega)
      have startup := warmed_startup dll conversion (init estimator) first
        (Feed.rounds estimator (trace ++ [.warm estimator]))
      rcases warm_cases dll conversion feed estimator
        (.after first (Feed.rounds estimator trace)) with ⟨warms, next⟩ | ⟨done, next⟩
      · rw [given] at warms
        rw [next, given]
        apply Fed.warming first closes
        · rw [WarmUp.next_after, rounds]
        · intro round upTo
          rcases Nat.lt_or_eq_of_le upTo with before | rfl
          · exact earlier round before
          · exact warms.1
        · exact Function.update_self ..
      · rw [given] at done
        rw [next, given]
        refine .started first [] closes (fun _ => nofun) earlier ?_ ?_
        · exact not_le.mp fun still => done ⟨still, startup⟩
        · rw [finish_connections_self, WarmUp.next_after]
          dsimp only
          rw [Function.update_self]
          rfl

/-! ## Runs -/

/-- A step is at most one call of the symbol. -/
theorem step_symbol {label : Label} (steps : feed.step dll conversion label = some next) :
    (next.symbol = feed.symbol ∧ label.price = none) ∨
      ∃ call, next.symbol = feed.symbol.step call ∧ call.price = label.price := by
  rcases step_cases steps with ⟨call, rfl, _, rfl⟩ | ⟨estimator, rfl, _, reset⟩ |
    ⟨estimator, warmUp, rfl, _, rfl⟩
  · exact Or.inr ⟨call.val, rfl, rfl⟩
  · rcases reset with ⟨_, _, rfl⟩ | ⟨_, _, rfl⟩ | ⟨_, rfl⟩
    · exact Or.inl ⟨rfl, rfl⟩
    · exact Or.inr ⟨.timeout _ estimator, rfl, rfl⟩
    · exact Or.inr ⟨.timeout _ estimator, rfl, rfl⟩
  · rcases warm_cases dll conversion feed estimator warmUp with ⟨_, same⟩ | ⟨_, same⟩
    · rw [same]
      exact Or.inl ⟨rfl, rfl⟩
    · rw [same]
      exact Or.inr ⟨.timeout _ estimator, rfl, rfl⟩

/-- The symbol has made the calls of a run of its own, the close is that of the
last trade, and each connection has been given what the trace says. -/
structure Follows (dll : SuperPlus σ) (conversion : Conversion) (prev : Bar)
    (init : Estimator → σ) (feed : Feed σ) (trace : List Label) : Prop where
  symbol : ∃ calls, feed.symbol = run Symbol.step (Symbol.new prev) calls ∧
    calls.filterMap Symbol.Call.price = trace.filterMap Label.price
  close : feed.symbol.bar.closePrice = (lastTrade trace).getD (-1)
  fed : ∀ estimator, Fed dll conversion init feed trace estimator

theorem Follows.step {prev : Bar} (follows : Follows dll conversion prev init feed trace)
    {label : Label} (steps : feed.step dll conversion label = some next) :
    Follows dll conversion prev init next (trace ++ [label]) := by
  constructor
  · obtain ⟨calls, same, prices⟩ := follows.symbol
    rcases step_symbol steps with ⟨stays, silent⟩ | ⟨call, calls', price⟩
    · refine ⟨calls, stays.trans same, ?_⟩
      rw [List.filterMap_append, List.filterMap_cons_none silent, List.filterMap_nil,
        List.append_nil, prices]
    · refine ⟨calls ++ [call], ?_, ?_⟩
      · rw [run_append, run_cons, run_nil, ← same, calls']
      · rw [List.filterMap_append, List.filterMap_append, prices, List.filterMap_cons,
          List.filterMap_cons, price]
        rfl
  · rw [step_closePrice steps, follows.close, lastTrade_concat]
    cases label.price with
    | none => rfl
    | some price => rfl
  · intro estimator
    have fed := follows.fed estimator
    have free (none : feed.holder = none) (warmUp : WarmUp) :
        feed.holder ≠ some (estimator, warmUp) := by
      rw [none]
      exact nofun
    rcases step_cases steps with ⟨call, rfl, _, rfl⟩ | ⟨thread, rfl, none, reset⟩ |
      ⟨thread, warmUp, rfl, held, rfl⟩
    · exact fed.call call
    · by_cases same : estimator = thread
      · subst same
        rcases reset with ⟨positive, warms, rfl⟩ | ⟨positive, started, rfl⟩ | ⟨noPrice, rfl⟩
        · exact fed.warms follows.close none positive warms
        · exact fed.finish follows.close none positive started
        · exact fed.congr (closes_of_not_pos follows.close estimator noPrice)
            (rounds_concat_of_ne _ _ _ nofun) (fun _ => Iff.rfl) rfl
      · rcases reset with ⟨_, _, rfl⟩ | ⟨_, _, rfl⟩ | ⟨_, rfl⟩
        · refine fed.other same (Or.inl rfl) (free none) (fun warmUp held => same ?_) rfl
          exact (Prod.mk.inj (Option.some.inj held)).1.symm
        · exact fed.other same (Or.inl rfl) (free none) (fun _ => nofun)
            (finish_connections_of_ne feed same _)
        · exact fed.other same (Or.inl rfl) (free none) (free none) rfl
    · by_cases same : estimator = thread
      · subst same
        exact fed.warm held
      · have before (warmUp : WarmUp) : feed.holder ≠ some (estimator, warmUp) := by
          intro holds
          exact same (Prod.mk.inj (Option.some.inj (holds.symm.trans held))).1
        rcases warm_cases dll conversion feed thread warmUp with ⟨_, next⟩ | ⟨_, next⟩
        · rw [next]
          refine fed.other same (Or.inr rfl) before (fun warmUp holds => same ?_)
            (Function.update_of_ne same ..)
          exact (Prod.mk.inj (Option.some.inj holds)).1.symm
        · rw [next]
          refine fed.other same (Or.inr rfl) before (fun _ => nofun) ?_
          rw [finish_connections_of_ne _ same]
          exact Function.update_of_ne same ..

theorem runs_concat (feed : Feed σ) (trace : List Label) (label : Label) :
    feed.runs dll conversion (trace ++ [label]) =
      (feed.runs dll conversion trace).bind fun reached => reached.step dll conversion label := by
  unfold runs
  rw [List.foldlM_append]
  simp only [List.foldlM_cons, List.foldlM_nil, bind_pure]
  rfl

/-- Whatever the threads of a symbol do in whatever order, each estimator has been
given the warm-up for the first positive close its timer found, of as many rounds
as it takes to a positive estimate, and then every positive close, in order. -/
theorem follows_run (prev : Bar) {trace : List Label}
    (ran : (new prev init).runs dll conversion trace = some feed) :
    Follows dll conversion prev init feed trace := by
  induction trace using List.reverseRecOn generalizing feed with
  | nil =>
      obtain rfl := Option.some.inj ran
      exact ⟨⟨[], rfl, rfl⟩, rfl, fun estimator => .unused rfl rfl (fun _ => nofun) rfl⟩
  | append_singleton trace label ih =>
      rw [runs_concat] at ran
      obtain ⟨before, ranBefore, steps⟩ := Option.bind_eq_some_iff.mp ran
      exact (ih ranBefore).step steps

/-! ## The locked symbol -/

/-- A timer thread is in the warm-up, after some rounds, and the market data are as
they were. -/
structure Warming (dll : SuperPlus σ) (conversion : Conversion) (superPlus : σ) (first : ℚ)
    (locked : Symbol) (estimator : Estimator) (rounds : ℕ) (feed : Feed σ) : Prop where
  holder : feed.holder = some (estimator, .after first rounds)
  connection : feed.connections estimator = warmed dll conversion superPlus first rounds
  data : { feed.symbol with symbolStack := [] } = { locked with symbolStack := [] }

variable {superPlus : σ} {first : ℚ} {locked : Symbol} {round : ℕ}

/-- A round ends the warm-up if and only if the estimate is positive then. -/
theorem Warming.warm
    (warming : Warming dll conversion superPlus first locked estimator round feed) :
    let estimate := (warmed dll conversion superPlus first (round + 1)).priceEstimate
    (estimate ≤ 0 ∧ Warming dll conversion superPlus first locked estimator (round + 1)
      (feed.warm dll conversion estimator (.after first round))) ∨
    (0 < estimate ∧ (feed.warm dll conversion estimator (.after first round)).holder = none) := by
  have given : (feed.connections estimator).calculate dll conversion
      (WarmUp.after first round).next.val =
        warmed dll conversion superPlus first (round + 1) := by
    rw [warming.connection, WarmUp.next_after, warmed_succ]
  have startup := warmed_startup dll conversion superPlus first (round + 1)
  rcases warm_cases dll conversion feed estimator (.after first round) with
    ⟨warms, next⟩ | ⟨done, next⟩
  · rw [given] at warms
    refine Or.inl ⟨warms.1, ?_⟩
    rw [next, given, WarmUp.next_after]
    exact ⟨rfl, Function.update_self .., warming.data⟩
  · rw [given] at done
    refine Or.inr ⟨not_le.mp fun still => done ⟨still, startup⟩, ?_⟩
    rw [next]
    rfl

/-- A `pop` changes nothing but the stamps. -/
theorem pop_data (symbol : Symbol) :
    { symbol.step .pop with symbolStack := [] } = { symbol with symbolStack := [] } := by
  unfold Symbol.step Symbol.pop
  dsimp only
  cases symbol.symbolStack.getLast? with
  | none => rfl
  | some stamp => rfl

/-- Nothing else happens to the symbol but a `pop`. -/
theorem Warming.step
    (warming : Warming dll conversion superPlus first locked estimator round feed)
    (never : ∀ round, (warmed dll conversion superPlus first round).priceEstimate ≤ 0)
    {label : Label} (steps : feed.step dll conversion label = some next) :
    ∃ later, Warming dll conversion superPlus first locked estimator later next := by
  have holder := warming.holder
  rcases step_cases steps with ⟨call, rfl, free, rfl⟩ | ⟨_, _, none, _⟩ |
    ⟨thread, warmUp, rfl, held, rfl⟩
  · obtain ⟨made, noTimeout⟩ := call
    cases made with
    | pop => exact ⟨round, holder, warming.connection, (pop_data feed.symbol).trans warming.data⟩
    | timeout => cases noTimeout
    | trade | quote | quoteSkew | skew =>
        rw [free rfl] at holder
        cases holder
  · rw [none] at holder
    cases holder
  · rw [held] at holder
    obtain ⟨rfl, rfl⟩ := Prod.mk.inj (Option.some.inj holder)
    rcases warming.warm with ⟨_, next⟩ | ⟨positive, _⟩
    · exact ⟨round + 1, next⟩
    · exact absurd positive (not_lt.mpr (never (round + 1)))

/-- Once the estimate will be positive, the rounds to there unlock the symbol. -/
theorem Warming.unlocks
    (warming : Warming dll conversion superPlus first locked estimator round feed) (more : ℕ)
    (positive : 0 < (warmed dll conversion superPlus first (round + more + 1)).priceEstimate) :
    ∃ later next, feed.runs dll conversion later = some next ∧ next.holder = none := by
  induction more generalizing feed round with
  | zero =>
      rcases warming.warm with ⟨still, _⟩ | ⟨_, unlocked⟩
      · exact absurd positive (not_lt.mpr still)
      · refine ⟨[.warm estimator], _, ?_, unlocked⟩
        simp [runs, Feed.step, warming.holder]
  | succ more ih =>
      have step : feed.step dll conversion (.warm estimator) =
          some (feed.warm dll conversion estimator (.after first round)) := by
        simp [Feed.step, warming.holder]
      rcases warming.warm with ⟨_, next⟩ | ⟨_, unlocked⟩
      · obtain ⟨later, reached, ran, unlocked⟩ := ih next (by
          rwa [Nat.add_right_comm round 1 more, Nat.add_assoc round more 1])
        refine ⟨.warm estimator :: later, reached, ?_, unlocked⟩
        rw [runs, List.foldlM_cons, step]
        exact ran
      · refine ⟨[.warm estimator], _, ?_, unlocked⟩
        simp [runs, step]

/-- Where the warm-up of a run stands. -/
theorem warming_run {prev : Bar} (ran : (new prev init).runs dll conversion trace = some feed)
    {warmUp : WarmUp} (held : feed.holder = some (estimator, warmUp)) :
    Warming dll conversion (init estimator) warmUp.latest feed.symbol estimator
        (rounds estimator trace) feed ∧
      ∀ earlier ≤ rounds estimator trace,
        (warmed dll conversion (init estimator) warmUp.latest earlier).priceEstimate ≤ 0 := by
  have fed := (follows_run prev ran).fed estimator
  cases fed with
  | unused _ _ free => exact absurd held (free warmUp)
  | started _ _ _ free => exact absurd held (free warmUp)
  | warming first _ holder least connection =>
      rw [holder] at held
      obtain rfl := (Prod.mk.inj (Option.some.inj held)).2
      exact ⟨⟨holder, connection, rfl⟩, least⟩

/-- In whatever run a timer thread begins a warm-up, the symbol stays locked for
good, with its market data as they are, if and only if the estimator gives no
positive estimate for the two prices in turns, however often. -/
theorem locked_forever_iff (prev : Bar)
    (ran : (new prev init).runs dll conversion trace = some feed) {warmUp : WarmUp}
    (held : feed.holder = some (estimator, warmUp)) :
    (∀ later next, feed.runs dll conversion later = some next →
      next.holder ≠ none ∧
        { next.symbol with symbolStack := [] } = { feed.symbol with symbolStack := [] }) ↔
      ∀ round, (warmed dll conversion (init estimator) warmUp.latest round).priceEstimate ≤ 0 := by
  obtain ⟨warming, least⟩ := warming_run ran held
  constructor
  · intro locked round
    by_contra positive
    have beyond : rounds estimator trace < round :=
      not_le.mp fun upTo => positive (least round upTo)
    obtain ⟨more, rfl⟩ := Nat.exists_eq_add_of_lt beyond
    obtain ⟨later, next, ranLater, unlocked⟩ := warming.unlocks more (not_le.mp positive)
    exact (locked later next ranLater).1 unlocked
  · intro never later next ranLater
    have still : ∃ round, Warming dll conversion (init estimator) warmUp.latest feed.symbol
        estimator round next := by
      induction later using List.reverseRecOn generalizing next with
      | nil =>
          obtain rfl := Option.some.inj ranLater
          exact ⟨_, warming⟩
      | append_singleton later label ih =>
          rw [runs_concat] at ranLater
          obtain ⟨before, ranBefore, steps⟩ := Option.bind_eq_some_iff.mp ranLater
          obtain ⟨round, warming⟩ := ih before ranBefore
          exact warming.step never steps
    obtain ⟨round, warming⟩ := still
    exact ⟨by rw [warming.holder]; exact nofun, warming.data⟩

/-! ## An estimator that gives the last price -/

/-- An estimator whose estimate is the last price. -/
def lastPrice : SuperPlus ℚ where
  calculate _ price := price
  exportValue4 price := price

/-- A trade at a price. -/
def trade (price : ℚ) : Label :=
  .call ⟨.trade price, rfl⟩

theorem follows_run_lastPrice : ∃ feed,
    (new .initial fun _ => 0).runs lastPrice .smallest
        [trade 10, .timeout .first, .warm .first, trade 11, .timeout .second, .warm .second,
          .timeout .first] = some feed ∧
      Follows lastPrice .smallest .initial (fun _ => 0) feed
        [trade 10, .timeout .first, .warm .first, trade 11, .timeout .second, .warm .second,
          .timeout .first] := by
  have isSome : ((new .initial fun _ => 0).runs lastPrice .smallest
      [trade 10, .timeout .first, .warm .first, trade 11, .timeout .second, .warm .second,
        .timeout .first]).isSome = true := by
    decide +kernel
  obtain ⟨feed, ran⟩ := Option.isSome_iff_exists.mp isSome
  exact ⟨feed, ran, follows_run .initial ran⟩

theorem locked_forever_iff_lastPrice : ∃ feed,
    (new .initial fun _ => 0).runs lastPrice .smallest [trade 10, .timeout .first] = some feed ∧
      feed.holder = some (.first, .start 10) ∧
        ((∀ later next, feed.runs lastPrice .smallest later = some next →
          next.holder ≠ none ∧
            { next.symbol with symbolStack := [] } = { feed.symbol with symbolStack := [] }) ↔
          ∀ round, (warmed lastPrice .smallest 0 10 round).priceEstimate ≤ 0) := by
  have holds : ((new .initial fun _ => 0).runs lastPrice .smallest
      [trade 10, .timeout .first]).map Feed.holder = some (some (.first, .start 10)) := by
    decide +kernel
  obtain ⟨feed, ran, held⟩ := Option.map_eq_some_iff.mp holds
  have forever := locked_forever_iff .initial ran held
  refine ⟨feed, ran, held, ?_⟩
  exact forever

end Feed

end TradingApp.Market
