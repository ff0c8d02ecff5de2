import TradingApp.Orders.System
import TradingApp.Utils.Rounding

/-!
# The orders handed to the gateway

A trade account has six calls that end in `PostOrder` or `ChangeOrder`: two
overloads of `open`, three of `close`, and `change`.  Each of them checks its
arguments, and the order account checks the size once more; what the library
makes of the price and the size when the order is filled in is left open.

Sizes are refused from above only.  The order against an open order gets its
price after the check, and the price of a change is not checked.
-/

namespace TradingApp.Orders

open TradingApp.Account TradingApp.Machine

/-- The price to close an account's position at, a variation away from its
average. -/
def mmfPrice (conversion : Conversion) (accountType : OrderAccountType) (average mmfMpv : ℚ) : ℚ :=
  match accountType with
  | .long => Utils.truncate conversion average 2 + mmfMpv
  | .short => Utils.dceil conversion average 2 - mmfMpv

/-- The calls of a trade account, with sizes in shares unless the order closes
an open order, whose size is in lots. -/
inductive Entry where
  | open (price : ℚ) (size : ℕ) (sendMmf : Bool)
  | openTradeDone (price : ℚ) (size : ℕ)
  | close (price : ℚ) (size : ℕ) (isFco : Bool)
  | closeTradeDone (price : ℚ) (size : ℕ)
  | closeOpenOrder (price : ℚ) (size : ℕ) (openOrder : ℕ)
  | change (requestId : ℕ) (newPrice : ℚ) (newSize : ℕ)
deriving DecidableEq, Repr

/-- The price is positive, and the size a number of lots that an order account
lets pass. -/
structure OrderInfo.WellFormed {α : Type} (info : OrderInfo α) : Prop where
  price : 0 < info.price
  least : 1 ≤ info.size
  most : info.size ≤ orderAccountMaximumLimit

namespace OrderSystem

variable {α : Type} (system : OrderSystem α) (conversion : Conversion)
  (setLimitOrder : OrderInfo α → Bool) (a : α) (mmfMpv : ℚ)

/-- `limitBuy` and `limitSell` of the order account up to `PostOrder`. -/
def limitOrder (info : OrderInfo α) : Option (OrderInfo α) :=
  if info.size > orderAccountMaximumLimit then none
  else if !setLimitOrder info then none
  else some info

/-- `open` and `close` with a size in shares. -/
def handShares (request : RequestType) (price : ℚ) (size : ℕ) : Option (OrderInfo α) :=
  let lots := size / (system.account a).divisor
  if price ≤ 0 ∨ lots > maximumOrderLimit then none
  else limitOrder setLimitOrder (system.newInfo request a price lots)

/-- `close` against an open order: the current average goes into the order. -/
def handAverage (price : ℚ) (size : ℕ) : Option (OrderInfo α) :=
  if price ≤ 0 ∨ size > maximumOrderLimit then none
  else
    let priceDouble :=
      mmfPrice conversion system.accountType (system.account a).average mmfMpv
    limitOrder setLimitOrder { system.newInfo .close a price size with price := priceDouble }

/-- `change` of the trade account and of the order account up to `ChangeOrder`. -/
def handChange (requestId : ℕ) (newPrice : ℚ) (newSize : ℕ) : Option (OrderInfo α) :=
  if requestId ∈ system.orders a then
    let changed := system.changedInfo a requestId newPrice newSize
    if changed.size > orderAccountMaximumLimit then none
    else if !setLimitOrder changed then none
    else if (system.info requestId).isOver then none
    else some changed
  else none

/-- What a call hands to `PostOrder` or `ChangeOrder`, if it does. -/
def handed : Entry → Option (OrderInfo α)
  | .open price size _ => system.handShares setLimitOrder a .open price size
  | .openTradeDone price size => system.handShares setLimitOrder a .open price size
  | .close price size _ => system.handShares setLimitOrder a .close price size
  | .closeTradeDone price size => system.handShares setLimitOrder a .close price size
  | .closeOpenOrder price size _ => system.handAverage conversion setLimitOrder a mmfMpv price size
  | .change requestId newPrice newSize =>
      system.handChange setLimitOrder a requestId newPrice newSize

/-- Whatever the library accepts, only well-formed orders are handed over. -/
def HandsWellFormed (entry : Entry) : Prop :=
  ∀ setLimitOrder : OrderInfo α → Bool,
    ∀ info ∈ system.handed conversion setLimitOrder a mmfMpv entry, info.WellFormed

/-- The arguments a call hands a well-formed order for, or none. -/
def Suits : Entry → Prop
  | .open price size _ | .openTradeDone price size | .close price size _
  | .closeTradeDone price size => price ≤ 0 ∨ (system.account a).divisor ≤ size
  | .closeOpenOrder price size _ =>
      price ≤ 0 ∨ orderAccountMaximumLimit < size ∨
        0 < size ∧ 0 < mmfPrice conversion system.accountType (system.account a).average mmfMpv
  | .change requestId newPrice newSize =>
      requestId ∈ system.orders a → (system.info requestId).isOver = false →
        if (system.account a).divisor ≤ newSize then
          newSize / (system.account a).divisor ≤ orderAccountMaximumLimit → 0 < newPrice
        else
          (system.info requestId).size ≤ orderAccountMaximumLimit →
            0 < newPrice ∧ 0 < (system.info requestId).size

/-! ## Single calls -/

section Calls

variable {system : OrderSystem α} {conversion : Conversion} {a : α} {mmfMpv : ℚ}

/-- What passes the order account is well formed if the order is, or is too
large. -/
theorem limitOrder_wellFormed_iff (info : OrderInfo α) :
    (∀ setLimitOrder, ∀ posted ∈ limitOrder setLimitOrder info, posted.WellFormed) ↔
      (info.size ≤ orderAccountMaximumLimit → info.WellFormed) := by
  constructor
  · intro all fits
    refine all (fun _ => true) info ?_
    unfold limitOrder
    rw [if_neg (Nat.not_lt.mpr fits)]
    rfl
  · intro wellFormed setLimitOrder posted isPosted
    unfold limitOrder at isPosted
    split at isPosted
    · cases isPosted
    · rename_i fits
      split at isPosted
      · cases isPosted
      · cases isPosted
        exact wellFormed (Nat.not_lt.mp fits)

theorem one_le_div_iff {divisor : ℕ} (lotted : 1 ≤ divisor) (size : ℕ) :
    1 ≤ size / divisor ↔ divisor ≤ size := by
  rw [Nat.le_div_iff_mul_le lotted, one_mul]

/-- A size in shares has to reach a lot. -/
theorem handShares_wellFormed_iff (lotted : 1 ≤ (system.account a).divisor) (request : RequestType)
    (price : ℚ) (size : ℕ) :
    (∀ setLimitOrder, ∀ info ∈ system.handShares setLimitOrder a request price size,
        info.WellFormed) ↔
      price ≤ 0 ∨ (system.account a).divisor ≤ size := by
  unfold handShares
  dsimp only
  have lots := one_le_div_iff lotted size
  split
  · rename_i refused
    refine iff_of_true (fun _ _ isPosted => nomatch isPosted) ?_
    rcases refused with free | large
    · exact Or.inl free
    · exact Or.inr (lots.mp (Nat.lt_of_le_of_lt (Nat.zero_le _) large))
  · rename_i accepted
    rw [not_or, not_le] at accepted
    rw [limitOrder_wellFormed_iff, or_iff_right (not_le.mpr accepted.1)]
    constructor
    · intro wellFormed
      by_contra short
      have none : size / (system.account a).divisor = 0 := by
        rw [← lots] at short
        exact Nat.lt_one_iff.mp (not_le.mp short)
      have order := wellFormed (none.le.trans (Nat.zero_le _))
      have least : 1 ≤ size / (system.account a).divisor := order.least
      exact absurd (least.trans none.le) (by decide)
    · exact fun reaches fits => ⟨accepted.1, lots.mpr reaches, fits⟩

/-- The average has to give a price. -/
theorem handAverage_wellFormed_iff (price : ℚ) (size : ℕ) :
    (∀ setLimitOrder, ∀ info ∈ system.handAverage conversion setLimitOrder a mmfMpv price size,
        info.WellFormed) ↔
      price ≤ 0 ∨ orderAccountMaximumLimit < size ∨
        0 < size ∧
          0 < mmfPrice conversion system.accountType (system.account a).average mmfMpv := by
  unfold handAverage
  dsimp only
  split
  · rename_i refused
    refine iff_of_true (fun _ _ isPosted => nomatch isPosted) ?_
    rcases refused with free | large
    · exact Or.inl free
    · exact Or.inr (Or.inl (lt_trans (by decide) large))
  · rename_i accepted
    rw [not_or, not_le] at accepted
    rw [limitOrder_wellFormed_iff, or_iff_right (not_le.mpr accepted.1)]
    constructor
    · intro wellFormed
      rcases Nat.lt_or_ge orderAccountMaximumLimit size with large | fits
      · exact Or.inl large
      · exact Or.inr ⟨(wellFormed fits).least, (wellFormed fits).price⟩
    · rintro (large | ⟨some, priced⟩) fits
      · exact absurd large (Nat.not_lt.mpr fits)
      · exact ⟨priced, some, fits⟩

/-- The size an order is changed to, in lots: its own, if the new one does not
reach a lot. -/
theorem changedInfo_size (lotted : 1 ≤ (system.account a).divisor) (requestId : ℕ) (newPrice : ℚ)
    (newSize : ℕ) :
    (system.changedInfo a requestId newPrice newSize).size =
      if (system.account a).divisor ≤ newSize then newSize / (system.account a).divisor
      else (system.info requestId).size := by
  have lots := one_le_div_iff lotted newSize
  unfold changedInfo OrderInfo.replacement
  dsimp only
  split
  · rename_i none
    rw [if_neg (fun reaches => absurd (lots.mpr reaches) (by omega))]
  · rename_i some
    rw [if_pos (lots.mp (Nat.one_le_iff_ne_zero.mpr some))]

/-- What `change` hands over. -/
theorem mem_handChange_iff {setLimitOrder : OrderInfo α → Bool} {requestId : ℕ} {newPrice : ℚ}
    {newSize : ℕ} {info : OrderInfo α} :
    info ∈ system.handChange setLimitOrder a requestId newPrice newSize ↔
      requestId ∈ system.orders a ∧ info.size ≤ orderAccountMaximumLimit ∧
        setLimitOrder info = true ∧ (system.info requestId).isOver = false ∧
        info = system.changedInfo a requestId newPrice newSize := by
  unfold handChange
  dsimp only
  constructor
  · intro handed
    split at handed
    · rename_i isKey
      split at handed
      · cases handed
      · rename_i fits
        split at handed
        · cases handed
        · rename_i set
          split at handed
          · cases handed
          · rename_i live
            cases handed
            exact ⟨isKey, Nat.not_lt.mp fits, by simpa using set, by simpa using live, rfl⟩
    · cases handed
  · rintro ⟨isKey, fits, set, live, rfl⟩
    rw [if_pos isKey, if_neg (Nat.not_lt.mpr fits), set, live]
    rfl

/-- A change has to bring a price, and a size unless the order has one. -/
theorem handChange_wellFormed_iff (lotted : 1 ≤ (system.account a).divisor) (requestId : ℕ)
    (newPrice : ℚ) (newSize : ℕ) :
    (∀ setLimitOrder, ∀ info ∈ system.handChange setLimitOrder a requestId newPrice newSize,
        info.WellFormed) ↔
      system.Suits conversion a mmfMpv (.change requestId newPrice newSize) := by
  have size := system.changedInfo_size lotted requestId newPrice newSize
  have lots := one_le_div_iff lotted newSize
  constructor
  · intro wellFormed isKey live
    have order (fits : (system.changedInfo a requestId newPrice newSize).size ≤
        orderAccountMaximumLimit) :
        (system.changedInfo a requestId newPrice newSize).WellFormed :=
      wellFormed (fun _ => true) _ (mem_handChange_iff.mpr ⟨isKey, fits, rfl, live, rfl⟩)
    split
    · rename_i reaches
      rw [if_pos reaches] at size
      exact fun fits => (order (size.le.trans fits)).price
    · rename_i short
      rw [if_neg short] at size
      intro fits
      exact ⟨(order (size.le.trans fits)).price, (order (size.le.trans fits)).least.trans size.le⟩
  · intro suits setLimitOrder info handed
    obtain ⟨isKey, fits, -, live, rfl⟩ := mem_handChange_iff.mp handed
    have order := suits isKey live
    split at order
    · rename_i reaches
      rw [if_pos reaches] at size
      exact ⟨order (size.symm.le.trans fits), (lots.mpr reaches).trans size.symm.le, fits⟩
    · rename_i short
      rw [if_neg short] at size
      obtain ⟨priced, some⟩ := order (size.symm.le.trans fits)
      exact ⟨priced, some.trans_le size.symm.le, fits⟩

/-- A call hands over well-formed orders only, exactly when its arguments suit. -/
theorem handsWellFormed_iff (lotted : 1 ≤ (system.account a).divisor) (entry : Entry) :
    system.HandsWellFormed conversion a mmfMpv entry ↔ system.Suits conversion a mmfMpv entry := by
  cases entry with
  | «open» | openTradeDone | close | closeTradeDone =>
      exact handShares_wellFormed_iff lotted _ _ _
  | closeOpenOrder => exact handAverage_wellFormed_iff _ _
  | change => exact handChange_wellFormed_iff lotted _ _ _

end Calls

/-- The long account of a single symbol, traded in lots of a hundred shares. -/
def hundreds : OrderSystem Unit :=
  start .long fun _ => .init .long ['L'] ['X'] 100 0

/-- Five hundred shares are handed over in lots of a hundred. -/
theorem handsWellFormed_lots :
    hundreds.HandsWellFormed .smallest () 0 (.open 10 500 false) :=
  (handsWellFormed_iff (by decide) _).mpr (Or.inr (by decide))

/-- Fifty shares are handed over as an order of no lots. -/
theorem not_handsWellFormed_short :
    ¬ ∀ (system : OrderSystem Unit) (conversion : Conversion) (mmfMpv : ℚ) (entry : Entry),
      1 ≤ (system.account ()).divisor → system.HandsWellFormed conversion () mmfMpv entry := by
  intro all
  have order := all hundreds .smallest 0 (.open 10 50 false) (by decide) (fun _ => true)
    (hundreds.newInfo .open () 10 0) rfl
  exact absurd order.least (by decide)

/-! ## The calls of the order system -/

section System

variable [DecidableEq α] (posting : Posting)

/-- `open` and `close` of the order system post what they hand over. -/
theorem post_eq_handShares (request : RequestType) (price : ℚ) (size : ℕ) :
    system.post request a price size posting =
      match system.handShares (fun _ => posting.limitSet) a request price size with
      | none => system.setThread a (.idle 0)
      | some info =>
          (system.emplace info).setThread a
            (if posting.sent then
              .waiting (.acknowledgement request (system.requestIdGenerator + 1)) false
            else .idle 0) := by
  unfold post handShares limitOrder
  dsimp only
  rw [show (system.newInfo request a price (size / (system.account a).divisor)).size =
    size / (system.account a).divisor from rfl]
  split
  · rfl
  · by_cases large : size / (system.account a).divisor > orderAccountMaximumLimit
    · rw [if_pos (Or.inl large), if_pos large]
    · simp only [large, false_or, if_false]
      cases posting.limitSet <;> rfl

/-- So does `change`, which takes the order out again if it is not sent. -/
theorem change_eq_handChange (id : ℕ) (newPrice : ℚ) (newSize : ℕ) {info : OrderInfo α}
    (handed : info ∈ system.handChange (fun _ => posting.limitSet) a id newPrice newSize) :
    system.change a id newPrice newSize posting =
      let newId := system.requestIdGenerator + 1
      let posted := (system.askChange a id).emplace info
      if posting.sent then posted.setThread a (.waiting (.change id newId newSize) false)
      else (posted.eraseHash newId).setThread a (.idle id) := by
  obtain ⟨isKey, fits, set, live, rfl⟩ := mem_handChange_iff.mp handed
  unfold change
  rw [if_pos isKey]
  dsimp only
  rw [if_neg]
  rintro (large | unset | isOver)
  · exact absurd large (Nat.not_lt.mpr fits)
  · rw [set] at unset
    cases unset
  · rw [live] at isOver
    cases isOver

end System

end OrderSystem

end TradingApp.Orders
