import TradingApp.Orders.System

/-!
# The calls of an order account

`OrderAccount::open`, `close` and `change` from the first check of an order to
the return, with the ways each of them can fail.  An order is a shared pointer,
which may be of any type; the hash holds the pointers under request ids, which
are unsigned 32-bit numbers and wrap.

A call that fails before it generates an id has not touched the hash.  After
that `change` takes its order out again, and `open` and `close` do not.
-/

namespace TradingApp.Orders

open TradingApp.Account

/-- `OrderAccount`: the hash of its orders, which are shared with the trade
accounts. -/
structure OrderAccount (ι α : Type) where
  accountType : OrderAccountType
  requestIdGenerator : UInt32
  orderHash : UInt32 → Option ι
  /-- what the pointers point to -/
  info : ι → OrderInfo α
  requestId : ι → UInt32

namespace OrderAccount

variable {ι α : Type}

/-- The id that `++request_id_generator` is to give. -/
def nextId (account : OrderAccount ι α) : UInt32 :=
  account.requestIdGenerator + 1

/-- `order_hash.emplace`, which leaves an entry under the id as it is. -/
def emplace (account : OrderAccount ι α) (id : UInt32) (order : ι) : OrderAccount ι α :=
  match account.orderHash id with
  | some _ => account
  | none => { account with orderHash := Function.update account.orderHash id (some order) }

/-- An order is taken out of the hash. -/
def erase (account : OrderAccount ι α) (id : UInt32) : OrderAccount ι α :=
  { account with orderHash := Function.update account.orderHash id none }

variable [DecidableEq ι]

/-- A pointer's order gets the next id and goes into the hash. -/
def post (account : OrderAccount ι α) (order : ι) (info : OrderInfo α) : OrderAccount ι α :=
  let generated := { account with
    requestIdGenerator := account.nextId
    info := Function.update account.info order info
    requestId := Function.update account.requestId order account.nextId }
  generated.emplace account.nextId order

/-- What `limitBuy` and `limitSell` have in common. -/
def limitOrder (account : OrderAccount ι α) (type : BuySell) (order : ι) (posting : Posting) :
    Bool × OrderAccount ι α :=
  if (account.info order).size > orderAccountMaximumLimit then (false, account)
  else if !posting.limitSet then (false, account)
  else
    let info := { account.info order with type := some type, accountType := account.accountType }
    let posted := account.post order info
    if !posting.sent then (false, posted) else (true, posted)

/-- A limit order to buy. -/
def limitBuy (account : OrderAccount ι α) (order : ι) (posting : Posting) :
    Bool × OrderAccount ι α :=
  account.limitOrder .buy order posting

/-- A limit order to sell, which is a short sale for a short account. -/
def limitSell (account : OrderAccount ι α) (order : ι) (posting : Posting) :
    Bool × OrderAccount ι α :=
  account.limitOrder (if account.accountType = .short then .sellShort else .sell) order posting

/-- A long account buys to open, and a short one sells. -/
def «open» (account : OrderAccount ι α) (order : ι) (posting : Posting) :
    Bool × OrderAccount ι α :=
  match account.accountType with
  | .long => account.limitBuy order posting
  | .short => account.limitSell order posting

/-- A long account sells to close, and a short one buys. -/
def close (account : OrderAccount ι α) (order : ι) (posting : Posting) :
    Bool × OrderAccount ι α :=
  match account.accountType with
  | .long => account.limitSell order posting
  | .short => account.limitBuy order posting

/-- The change of an order into another one; here `posting.sent` is the result
of `ChangeOrder`. -/
def change (account : OrderAccount ι α) (order changed : ι) (posting : Posting) :
    Bool × OrderAccount ι α :=
  if (account.info changed).size > orderAccountMaximumLimit then (false, account)
  else if !posting.limitSet then (false, account)
  else if (account.info order).isOver then (false, account)
  else
    let posted := account.post changed (account.info changed)
    if !posting.sent then (false, posted.erase account.nextId) else (true, posted)

/-! ## Failures -/

/-- The calls of an order account that change the hash. -/
inductive Call (ι : Type) where
  | open (order : ι)
  | close (order : ι)
  | change (order changed : ι)

/-- What a call returns, and the account after it. -/
def call (account : OrderAccount ι α) (posting : Posting) : Call ι → Bool × OrderAccount ι α
  | .open order => account.open order posting
  | .close order => account.close order posting
  | .change order changed => account.change order changed posting

/-- A call that fails leaves the entries of the hash as they were. -/
def LeavesNoTrace (account : OrderAccount ι α) (posting : Posting) (call : Call ι) : Prop :=
  (account.call posting call).1 = false →
    (account.call posting call).2.orderHash = account.orderHash

/-- The order is within the limit, and its price and size can be set. -/
def Passes (account : OrderAccount ι α) (posting : Posting) (order : ι) : Prop :=
  (account.info order).size ≤ orderAccountMaximumLimit ∧ posting.limitSet = true

/-- The call gets past its checks, and generates an id. -/
def Generates (account : OrderAccount ι α) (posting : Posting) : Call ι → Prop
  | .open order | .close order => account.Passes posting order
  | .change order changed => account.Passes posting changed ∧ (account.info order).isOver = false

/-- Where a failure goes unnoticed in the hash: `open` and `close` find an entry
under the next id, `change` finds none. -/
def Undoes (account : OrderAccount ι α) : Call ι → Prop
  | .open _ | .close _ => account.orderHash account.nextId ≠ none
  | .change _ _ => account.orderHash account.nextId = none

section Hash

variable (account : OrderAccount ι α) (id : UInt32) (order : ι)

omit [DecidableEq ι]

/-- An entry is added exactly where there was none. -/
theorem emplace_orderHash_eq_iff :
    (account.emplace id order).orderHash = account.orderHash ↔ account.orderHash id ≠ none := by
  unfold emplace
  cases found : account.orderHash id with
  | none =>
      constructor
      · intro same
        have entry := congrFun same id
        simp [found] at entry
      · intro entry
        exact absurd rfl entry
  | some other => simp

/-- What was put under an id and is taken out again leaves no trace if there was
nothing before. -/
theorem erase_emplace_orderHash_eq_iff :
    ((account.emplace id order).erase id).orderHash = account.orderHash ↔
      account.orderHash id = none := by
  constructor
  · intro same
    rw [← same]
    exact Function.update_self _ _ _
  · intro nothing
    unfold emplace erase
    rw [nothing]
    simp only [Function.update_idem]
    rw [← nothing]
    exact Function.update_eq_self _ _

end Hash

section Call

variable (account : OrderAccount ι α) (posting : Posting)

/-! An entry in the hash does not depend on what its pointer points to. -/

theorem post_orderHash (order : ι) (info : OrderInfo α) :
    (account.post order info).orderHash = (account.emplace account.nextId order).orderHash := by
  unfold post emplace
  dsimp only
  cases account.orderHash account.nextId <;> rfl

theorem post_requestIdGenerator (order : ι) (info : OrderInfo α) :
    (account.post order info).requestIdGenerator = account.nextId := by
  unfold post emplace
  dsimp only
  cases account.orderHash account.nextId <;> rfl

theorem post_accountType (order : ι) (info : OrderInfo α) :
    (account.post order info).accountType = account.accountType := by
  unfold post emplace
  dsimp only
  cases account.orderHash account.nextId <;> rfl

/-- `limitBuy` and `limitSell` fail at a check, or post the order. -/
theorem limitOrder_spec (type : BuySell) (order : ι) :
    account.Passes posting order ∧
        (∃ info, account.limitOrder type order posting =
          (posting.sent, account.post order info)) ∨
      ¬ account.Passes posting order ∧
        account.limitOrder type order posting = (false, account) := by
  unfold limitOrder
  split
  · rename_i large
    right
    exact ⟨fun passes => absurd passes.1 (Nat.not_le.mpr large), rfl⟩
  · rename_i fits
    split
    · rename_i unset
      right
      refine ⟨fun passes => ?_, rfl⟩
      rw [passes.2] at unset
      cases unset
    · rename_i set
      left
      refine ⟨⟨Nat.not_lt.mp fits, by simpa using set⟩, ?_⟩
      exact ⟨_, by cases posting.sent <;> rfl⟩

/-- `open` and `close` are `limitBuy` or `limitSell`. -/
theorem open_eq (order : ι) :
    account.open order posting =
      account.limitOrder (limitType account.accountType .open) order posting := by
  unfold OrderAccount.open limitBuy limitSell
  cases account.accountType <;> rfl

theorem close_eq (order : ι) :
    account.close order posting =
      account.limitOrder (limitType account.accountType .close) order posting := by
  unfold OrderAccount.close limitBuy limitSell
  cases account.accountType <;> rfl

/-- `change` fails at a check, or posts the order and takes it out again if it
is not sent. -/
theorem change_spec (order changed : ι) :
    account.Generates posting (.change order changed) ∧
        (∃ info, account.change order changed posting =
          (posting.sent, if posting.sent then account.post changed info
            else (account.post changed info).erase account.nextId)) ∨
      ¬ account.Generates posting (.change order changed) ∧
        account.change order changed posting = (false, account) := by
  unfold change
  split
  · rename_i large
    right
    exact ⟨fun generates => absurd generates.1.1 (Nat.not_le.mpr large), rfl⟩
  · rename_i fits
    split
    · rename_i unset
      right
      refine ⟨fun generates => ?_, rfl⟩
      rw [generates.1.2] at unset
      cases unset
    · rename_i set
      split
      · rename_i isOver
        right
        refine ⟨fun generates => ?_, rfl⟩
        rw [generates.2] at isOver
        cases isOver
      · rename_i live
        left
        refine ⟨⟨⟨Nat.not_lt.mp fits, by simpa using set⟩, by simpa using live⟩, ?_⟩
        exact ⟨_, by cases posting.sent <;> rfl⟩

/-! ## What a failure leaves -/

theorem limitOrder_leavesNoTrace_iff (type : BuySell) (order : ι) :
    ((account.limitOrder type order posting).1 = false →
        (account.limitOrder type order posting).2.orderHash = account.orderHash) ↔
      (posting.sent = false → account.Passes posting order → account.Undoes (.open order)) := by
  rcases limitOrder_spec account posting type order with ⟨passes, info, result⟩ | ⟨fails, result⟩
  · rw [result, post_orderHash, emplace_orderHash_eq_iff]
    constructor
    · intro entry unsent _
      exact entry unsent
    · intro entry unsent
      exact entry unsent passes
  · rw [result]
    constructor
    · intro _ _ passes
      exact absurd passes fails
    · intro _ _
      rfl

theorem change_leavesNoTrace_iff (order changed : ι) :
    ((account.change order changed posting).1 = false →
        (account.change order changed posting).2.orderHash = account.orderHash) ↔
      (posting.sent = false → account.Generates posting (.change order changed) →
        account.Undoes (.change order changed)) := by
  rcases change_spec account posting order changed with ⟨generates, info, result⟩ | ⟨fails, result⟩
  · rw [result]
    have undone : (((account.post changed info).erase account.nextId).orderHash =
        account.orderHash) ↔ account.orderHash account.nextId = none := by
      rw [← erase_emplace_orderHash_eq_iff account account.nextId changed]
      unfold erase
      rw [post_orderHash]
    constructor
    · intro entry unsent _
      have erased := entry unsent
      simp only [unsent, Bool.false_eq_true, if_false] at erased
      exact undone.mp erased
    · intro entry unsent
      have nothing := entry unsent generates
      simp only [show posting.sent = false from unsent, Bool.false_eq_true, if_false]
      exact undone.mpr nothing
  · rw [result]
    constructor
    · intro _ _ generates
      exact absurd generates fails
    · intro _ _
      rfl

/-- A failure leaves no trace exactly when the request was sent, or no id was
generated for it, or nothing shows in the hash. -/
theorem leavesNoTrace_iff (call : Call ι) :
    account.LeavesNoTrace posting call ↔
      (posting.sent = false → account.Generates posting call → account.Undoes call) := by
  unfold LeavesNoTrace
  cases call with
  | «open» order =>
      have limit := limitOrder_leavesNoTrace_iff account posting
        (limitType account.accountType .open) order
      rw [← open_eq] at limit
      exact limit
  | close order =>
      have limit := limitOrder_leavesNoTrace_iff account posting
        (limitType account.accountType .close) order
      rw [← close_eq] at limit
      exact limit
  | change order changed => exact change_leavesNoTrace_iff account posting order changed

end Call

/-- A long account that has sent nothing, and an order for ten lots. -/
def nothingSent : OrderAccount Unit Unit where
  accountType := .long
  requestIdGenerator := 0
  orderHash _ := none
  info _ := OrderInfo.new 10 10
  requestId _ := 0

/-- An order that is not sent stays in the hash. -/
theorem not_leavesNoTrace_unsent :
    ¬ nothingSent.LeavesNoTrace { limitSet := true, sent := false } (.open ()) := by
  intro leaves
  have entry := congrFun (leaves rfl) 1
  cases entry

/-! ## The order account of a system -/

/-- The hash and the generator are those of an order system, as long as ids do
not wrap. -/
structure Represents (account : OrderAccount ι α) (system : OrderSystem α) : Prop where
  accountType : account.accountType = system.accountType
  generator : account.requestIdGenerator.toNat = system.requestIdGenerator
  hash : ∀ id : UInt32, id.toNat ∈ system.orderHash ↔ account.orderHash id ≠ none

namespace Represents

variable {account : OrderAccount ι α} {system : OrderSystem α}

section Ids

variable (represents : Represents account system)
  (inRange : system.requestIdGenerator + 1 < 2 ^ 32)

include represents inRange

omit [DecidableEq ι]

theorem nextId_toNat : account.nextId.toNat = system.requestIdGenerator + 1 := by
  unfold nextId
  rw [UInt32.toNat_add, represents.generator]
  exact Nat.mod_eq_of_lt inRange

theorem eq_nextId_iff (id : UInt32) :
    id.toNat = system.requestIdGenerator + 1 ↔ id = account.nextId := by
  rw [← represents.nextId_toNat inRange]
  exact UInt32.toNat_inj

end Ids

omit [DecidableEq ι] in
/-- `emplace` under the next id. -/
theorem mem_insert_iff (represents : Represents account system)
    (inRange : system.requestIdGenerator + 1 < 2 ^ 32) (order : ι) (id : UInt32) :
    id.toNat ∈ insert (system.requestIdGenerator + 1) system.orderHash ↔
      (account.emplace account.nextId order).orderHash id ≠ none := by
  rw [Finset.mem_insert, represents.eq_nextId_iff inRange, represents.hash]
  unfold emplace
  by_cases same : id = account.nextId
  · subst same
    cases entry : account.orderHash account.nextId with
    | none => simp
    | some other => simp [entry]
  · cases account.orderHash account.nextId with
    | none => simp [same]
    | some other => simp [same]

/-- Posting an order. -/
theorem post (represents : Represents account system)
    (inRange : system.requestIdGenerator + 1 < 2 ^ 32) (order : ι) (info posted : OrderInfo α) :
    Represents (account.post order info) (system.emplace posted) where
  accountType := (post_accountType account order info).trans represents.accountType
  generator := by
    rw [post_requestIdGenerator]
    exact represents.nextId_toNat inRange
  hash id := by
    rw [post_orderHash]
    exact represents.mem_insert_iff inRange order id

omit [DecidableEq ι] in
/-- Taking an order out again. -/
theorem eraseHash (represents : Represents account system) {id : UInt32} {key : ℕ}
    (same : id.toNat = key) : Represents (account.erase id) (system.eraseHash key) where
  accountType := represents.accountType
  generator := represents.generator
  hash other := by
    subst same
    change other.toNat ∈ system.orderHash.erase id.toNat ↔
      Function.update account.orderHash id none other ≠ none
    rw [Finset.mem_erase, represents.hash]
    by_cases equal : other = id
    · simp [equal]
    · have apart : other.toNat ≠ id.toNat := fun toNat => equal (UInt32.toNat_inj.mp toNat)
      simp [equal, apart]

variable [DecidableEq α]

omit [DecidableEq ι] in
theorem setThread (represents : Represents account system) (a : α) (thread : Thread) :
    Represents account (system.setThread a thread) :=
  ⟨represents.accountType, represents.generator, represents.hash⟩

omit [DecidableEq ι] [DecidableEq α] in
theorem askChange (represents : Represents account system) (a : α) (id : ℕ) :
    Represents account (system.askChange a id) :=
  ⟨represents.accountType, represents.generator, represents.hash⟩

/-- `open` and `close` of a trade account call those of the order account unless
they refuse the price or the size themselves. -/
theorem post_call (represents : Represents account system)
    (inRange : system.requestIdGenerator + 1 < 2 ^ 32) (request : RequestType) (a : α) {price : ℚ}
    {size : ℕ} (posting : Posting) {order : ι}
    (lots : (account.info order).size = size / (system.account a).divisor) (priced : 0 < price)
    (within : size / (system.account a).divisor ≤ maximumOrderLimit) :
    Represents (account.limitOrder (limitType account.accountType request) order posting).2
      (system.post request a price size posting) := by
  have accepted : ¬ (price ≤ 0 ∨ size / (system.account a).divisor > maximumOrderLimit) := by
    rintro (free | large)
    · exact absurd priced (not_lt.mpr free)
    · exact absurd large (Nat.not_lt.mpr within)
  unfold OrderSystem.post
  dsimp only
  rw [if_neg accepted, ← lots]
  rcases limitOrder_spec account posting (limitType account.accountType request) order with
    ⟨passes, info, result⟩ | ⟨fails, result⟩
  · have goesOn : ¬ ((account.info order).size > orderAccountMaximumLimit ∨
        (!posting.limitSet) = true) := by
      rintro (large | unset)
      · exact absurd large (Nat.not_lt.mpr passes.1)
      · rw [passes.2] at unset
        cases unset
    rw [if_neg goesOn, result]
    exact (represents.post inRange order info _).setThread a _
  · have stops : (account.info order).size > orderAccountMaximumLimit ∨
        (!posting.limitSet) = true := by
      by_contra goesOn
      rw [not_or] at goesOn
      exact fails ⟨Nat.not_lt.mp goesOn.1, by simpa using goesOn.2⟩
    rw [if_pos stops, result]
    exact represents.setThread a _

/-- `change` of a trade account calls that of the order account for an order of
its map. -/
theorem change_call (represents : Represents account system)
    (inRange : system.requestIdGenerator + 1 < 2 ^ 32) {a : α} {id : ℕ}
    (isKey : id ∈ system.orders a) (newPrice : ℚ) (newSize : ℕ) (posting : Posting)
    {order changed : ι} (isOver : (account.info order).isOver = (system.info id).isOver)
    (size : (account.info changed).size = (system.changedInfo a id newPrice newSize).size) :
    Represents (account.change order changed posting).2
      (system.change a id newPrice newSize posting) := by
  unfold OrderSystem.change
  rw [if_pos isKey]
  dsimp only
  rw [← size]
  rcases change_spec account posting order changed with ⟨generates, info, result⟩ | ⟨fails, result⟩
  · have goesOn : ¬ ((account.info changed).size > orderAccountMaximumLimit ∨
        (!posting.limitSet) = true ∨ (system.info id).isOver = true) := by
      rintro (large | unset | over')
      · exact absurd large (Nat.not_lt.mpr generates.1.1)
      · rw [generates.1.2] at unset
        cases unset
      · rw [← isOver, generates.2] at over'
        cases over'
    rw [if_neg goesOn, result]
    have posted := (represents.askChange a id).post inRange changed info
      (system.changedInfo a id newPrice newSize)
    cases posting.sent with
    | true => exact posted.setThread a _
    | false =>
        have erased := posted.eraseHash (represents.nextId_toNat inRange)
        exact erased.setThread a _
  · have stops : (account.info changed).size > orderAccountMaximumLimit ∨
        (!posting.limitSet) = true ∨ (system.info id).isOver = true := by
      by_contra goesOn
      rw [not_or, not_or] at goesOn
      apply fails
      refine ⟨⟨Nat.not_lt.mp goesOn.1, by simpa using goesOn.2.1⟩, ?_⟩
      rw [isOver]
      simpa using goesOn.2.2
    rw [if_pos stops, result]
    exact (represents.askChange a id).setThread a _

end Represents

end OrderAccount

end TradingApp.Orders
