import TradingApp.Lots.Worth
import TradingApp.Position.Average

/-!
# Equity

How much of its profit a table has realised depends on the records its closes
happened to choose, and so does what its incomplete records would earn.
Together they do not: they are what the fills have earned.  The profit that is
told by the average alone is what they have earned since the table was last
flat.
-/

namespace TradingApp.Position.PositionRecordTable

open TradingApp.Lots TradingApp.Machine TradingApp.Transition PositionRecord

/-- What the incomplete records would earn at a reference price. -/
def incompleteProfit (table : PositionRecordTable) (reference : ℚ) : ℚ :=
  ((table.records.filter fun record => !record.isComplete).map fun record =>
    (reference - record.openPrice) * record.openSize * record.sign).sum

/-- The profit that is realised and the one that is not. -/
def equity (table : PositionRecordTable) (reference : ℚ) : ℚ :=
  table.pnl + table.incompleteProfit reference

/-- What the fill of a step has earned at a reference price. -/
def Op.earned (sign : ℤ) (reference : ℚ) : Op → ℚ
  | .openPosition _ size price => (reference - price) * size * sign
  | .closePosition _ size price => (price - reference) * size * sign
  | .deleteComplete => 0
  | .repackage _ _ _ => 0

/-- The lots stay what they were bought or sold as. -/
def Op.KeepsLots : Op → Prop
  | .repackage _ _ _ => False
  | _ => True

/-- The step leaves something open. -/
def StaysOpen (table : PositionRecordTable) (op : Op) : Prop :=
  (table.step op).openSize ≠ 0

instance (table : PositionRecordTable) : (op : Op) → Decidable (table.StaysClosable op)
  | .openPosition _ size _ => inferInstanceAs (Decidable (table.openSize + size < 2 ^ 32))
  | .closePosition _ size price => inferInstanceAs (Decidable (size ≤ table.closable price))
  | .deleteComplete | .repackage _ _ _ => inferInstanceAs (Decidable True)

instance : (op : Op) → Decidable op.KeepsLots
  | .openPosition _ _ _ | .closePosition _ _ _ | .deleteComplete =>
      inferInstanceAs (Decidable True)
  | .repackage _ _ _ => inferInstanceAs (Decidable False)

instance (table : PositionRecordTable) (op : Op) : Decidable (table.StaysOpen op) :=
  inferInstanceAs (Decidable (_ ≠ _))

variable {table : PositionRecordTable}

@[simp]
theorem step_sign (table : PositionRecordTable) (op : Op) : (table.step op).sign = table.sign := by
  cases op <;> rfl

/-! ## Lots -/

/-- What the incomplete records would earn, as a charge on the lots. -/
theorem incompleteProfit_eq (table : PositionRecordTable) (id : ℕ) (price average reference : ℚ) :
    table.incompleteProfit reference =
      (closing id price average).openCharge (unitProfit reference) table.visited := by
  have worth (record : PositionRecord) :
      (reference - record.openPrice) * record.openSize * record.sign =
        record.openSize • unitProfit reference record := by
    rw [unitProfit, nsmul_eq_mul]
    ring
  unfold incompleteProfit Closing.openCharge
  simp only [worth]
  exact ((table.visited_perm.filter _).map _).sum_eq.symm

theorem unitProfit_stable (reference : ℚ) (id : ℕ) (price average : ℚ) :
    (closing id price average).Stable (unitProfit reference) :=
  closing_stable id price average fun openPrice sign => (reference - openPrice) * sign

/-- An opened record would earn the difference of the prices. -/
theorem equity_recordOpenPosition (table : PositionRecordTable) (id size : ℕ)
    (price reference : ℚ) :
    (table.recordOpenPosition id size price).equity reference =
      table.equity reference + (reference - price) * size * table.sign := by
  have opened : (table.recordOpenPosition id size price).incompleteProfit reference =
      (reference - price) * size * table.sign + table.incompleteProfit reference := by
    have perm := (insertRecord_perm table.sign
      (.ofFill id size price (table.recordOpenPosition id size price).average table.sign)
      table.records).filter fun record => !record.isComplete
    exact (perm.map fun record =>
      (reference - record.openPrice) * record.openSize * record.sign).sum_eq
  have pnl : (table.recordOpenPosition id size price).pnl = table.pnl := rfl
  rw [equity, equity, opened, pnl]
  ring

/-- A close within what the table can close turns what the closed lots would
earn into what they do, whichever lots these are. -/
theorem equity_recordClosePosition (signed : table.Signed) {id size : ℕ} {price : ℚ}
    (within : size ≤ table.closable price) (reference : ℚ) :
    (table.recordClosePosition id size price).equity reference =
      table.equity reference + (price - reference) * size * table.sign := by
  rw [← table.closable_eq_reach id size price] at within
  have stable := unitProfit_stable reference id price (table.closeAverage size price)
  have left := stable.openCharge_sweep within
  have differ : ∀ record ∈ table.visited, unitProfit price record =
      unitProfit reference record + (price - reference) * table.sign := by
    intro record member
    rw [unitProfit, unitProfit, signed record (mem_visited.mp member)]
    ring
  have booked := (unitProfit_stable price id price (table.closeAverage size price))
    |>.sweepCharge_add_const stable differ within
  rw [equity, equity, recordClosePosition_pnl, closingOf, booked,
    incompleteProfit_eq _ id price (table.closeAverage size price), recordClosePosition_visited,
    incompleteProfit_eq table id price (table.closeAverage size price), closingOf, ← left,
    nsmul_eq_mul]
  ring

@[simp]
theorem equity_deleteCompletePosition (table : PositionRecordTable) (reference : ℚ) :
    table.deleteCompletePosition.equity reference = table.equity reference := by
  simp [equity, incompleteProfit, deleteCompletePosition]

/-- A step that keeps the lots changes the equity by what its fill has
earned. -/
theorem equity_step (signed : table.Signed) {op : Op} (closable : table.StaysClosable op)
    (keeps : op.KeepsLots) (reference : ℚ) :
    (table.step op).equity reference =
      table.equity reference + op.earned table.sign reference := by
  cases op with
  | openPosition id size price => exact table.equity_recordOpenPosition id size price reference
  | closePosition id size price => exact equity_recordClosePosition signed closable reference
  | deleteComplete => exact (table.equity_deleteCompletePosition reference).trans (add_zero _).symm
  | repackage baseQty mpv adjustment => exact absurd keeps id

/-! ## The average -/

/-- The step leaves the average at what makes up for its fill. -/
theorem average_step (inRange : table.openSize < 2 ^ 32) {op : Op}
    (admissible : table.Admissible op) (closable : table.StaysClosable op) (keeps : op.KeepsLots)
    (staysOpen : table.StaysOpen op) :
    (table.step op).average * (table.step op).openSize * table.sign =
        table.average * table.openSize * table.sign - op.earned table.sign 0 ∧
      ∀ reference, reference * (table.step op).openSize * table.sign =
        reference * table.openSize * table.sign + (op.earned table.sign reference -
          op.earned table.sign 0) := by
  cases op with
  | openPosition id size price =>
      have openSize : (table.step (.openPosition id size price)).openSize =
          table.openSize + size :=
        word32_add closable
      have some : table.openSize + size ≠ 0 := openSize ▸ staysOpen
      have nonzero : ((table.openSize + size : ℕ) : ℚ) ≠ 0 := by exact_mod_cast some
      have average : (table.step (.openPosition id size price)).average =
          table.average + (price - table.average) * size / (table.openSize + size : ℕ) := by
        rw [← openSize] at some ⊢
        exact if_pos (Nat.pos_of_ne_zero some)
      constructor
      · rw [openSize, average, add_mul, div_mul_cancel₀ _ nonzero, Op.earned]
        push_cast
        ring
      · intro reference
        rw [openSize, Op.earned, Op.earned]
        push_cast
        ring
  | closePosition id size price =>
      have openSize : (table.step (.closePosition id size price)).openSize =
          table.openSize - size :=
        word32_sub inRange admissible.2
      have some : table.openSize - size ≠ 0 := openSize ▸ staysOpen
      have nonzero : ((table.openSize - size : ℕ) : ℚ) ≠ 0 := by exact_mod_cast some
      have remaining : ((table.openSize - size : ℕ) : ℚ) = table.openSize - size :=
        Nat.cast_sub admissible.2
      have average : (table.step (.closePosition id size price)).average =
          table.average + (table.average - price) * size / (table.openSize - size : ℕ) := by
        rw [← openSize] at some ⊢
        exact if_pos (Nat.pos_of_ne_zero some)
      constructor
      · rw [openSize, average, add_mul, div_mul_cancel₀ _ nonzero, remaining, Op.earned]
        ring
      · intro reference
        rw [openSize, remaining, Op.earned, Op.earned]
        ring
  | deleteComplete =>
      refine ⟨(sub_zero _).symm, fun reference => ?_⟩
      exact (add_zero _).symm.trans (congrArg _ (sub_zero _).symm)
  | repackage baseQty mpv adjustment => exact absurd keeps id

/-- A step that leaves something open changes the profit told by the average
by what its fill has earned. -/
theorem getOpenPNL_step (inRange : table.openSize < 2 ^ 32) {op : Op}
    (admissible : table.Admissible op) (closable : table.StaysClosable op) (keeps : op.KeepsLots)
    (staysOpen : table.StaysOpen op) (reference : ℚ) :
    (table.step op).getOpenPNL reference =
      table.getOpenPNL reference + op.earned table.sign reference := by
  obtain ⟨average, size⟩ := average_step inRange admissible closable keeps staysOpen
  calc (table.step op).getOpenPNL reference
      = reference * (table.step op).openSize * table.sign -
          (table.step op).average * (table.step op).openSize * table.sign := by
        rw [getOpenPNL, step_sign]
        ring
    _ = table.getOpenPNL reference + op.earned table.sign reference := by
        rw [average, size, getOpenPNL]
        ring

/-! ## Runs -/

/-- A flat table has nothing to earn. -/
theorem Sound.incompleteProfit_of_flat (sound : table.Sound) (flat : table.openSize = 0)
    (reference : ℚ) : table.incompleteProfit reference = 0 := by
  have none : table.records.filter (fun record => !record.isComplete) = [] := by
    refine List.eq_nil_iff_forall_not_mem.mpr fun record member => ?_
    have nothing : table.incompleteSize = 0 := sound.conserves.trans flat
    have isZero := List.sum_eq_zero_iff_forall_eq_nat.mp nothing record.openSize
      (List.mem_map_of_mem member)
    have positive := sound.positive record (List.mem_filter.mp member).1
    omega
  rw [incompleteProfit, none, List.map_nil, List.sum_nil]

/-- What a run that stays closable maintains of the lots. -/
structure Books (sign : ℤ) (table : PositionRecordTable) : Prop where
  sound : table.Sound
  signed : table.Signed
  sign : table.sign = sign

theorem books_empty (isLong : Bool) : (empty isLong).Books (empty isLong).sign where
  sound := sound_empty isLong
  signed := fun _ member => absurd member List.not_mem_nil
  sign := rfl

theorem Books.step {sign : ℤ} (books : table.Books sign) {op : Op}
    (admissible : table.Admissible op) (closable : table.StaysClosable op) :
    (table.step op).Books sign where
  sound := books.sound.step admissible closable
  signed := books.signed.step op
  sign := (step_sign table op).trans books.sign

section Run

variable {isLong : Bool} {before after : List Op}

theorem books_run
    (admissible : EveryStep step Admissible (empty isLong) before)
    (closable : EveryStep step StaysClosable (empty isLong) before) :
    (run step (empty isLong) before).Books (empty isLong).sign := by
  have steps := (everyStep_and_iff _ _).mpr ⟨admissible, closable⟩
  have every : EveryState step (Books (empty isLong).sign) (empty isLong) before :=
    everyState_of_everyStep (fun _ _ books meets => books.step meets.1 meets.2)
      (books_empty isLong) steps
  exact every.last

/-- Along the second part of a run, a measure gains what the fills have earned
if each step that keeps the lots adds that. -/
theorem measure_run (measure : PositionRecordTable → ℚ) (C : PositionRecordTable → Op → Prop)
    (reference : ℚ)
    (adds : ∀ (table : PositionRecordTable) (op : Op), table.Books (empty isLong).sign →
      table.Admissible op → table.StaysClosable op → op.KeepsLots → C table op →
        measure (table.step op) = measure table + op.earned table.sign reference)
    (admissible : EveryStep step Admissible (empty isLong) (before ++ after))
    (closable : EveryStep step StaysClosable (empty isLong) (before ++ after))
    (keeps : ∀ op ∈ after, op.KeepsLots)
    (meets : EveryStep step C (run step (empty isLong) before) after) :
    measure (run step (empty isLong) (before ++ after)) =
      measure (run step (empty isLong) before) +
        (after.map (Op.earned (empty isLong).sign reference)).sum := by
  rw [everyStep_append] at admissible closable
  have start := books_run admissible.1 closable.1
  have steps := (everyStep_and_iff _ _).mpr
    ⟨(everyStep_and_iff _ _).mpr ⟨admissible.2, closable.2⟩,
      (everyStep_and_iff _ _).mpr ⟨everyStep_of_forall_mem keeps _, meets⟩⟩
  have each : EveryStep step
      (fun table op =>
        measure (table.step op) = measure table + op.earned (empty isLong).sign reference)
      (run step (empty isLong) before) after := by
    refine everyStep_of_everyStep (fun _ _ books meets => ?_) (fun table op books meets => ?_)
      start steps
    · exact books.step meets.1.1 meets.1.2
    · have here := adds table op books meets.1.1 meets.1.2 meets.2.1 meets.2.2
      rwa [books.sign] at here
  rw [run_append]
  exact run_measure each

end Run

/-- Whatever has happened to a table, from then on its equity changes by what
the fills have earned, until its lots are repackaged. -/
theorem equity_run (isLong : Bool) (before after : List Op)
    (admissible : EveryStep step Admissible (empty isLong) (before ++ after))
    (closable : EveryStep step StaysClosable (empty isLong) (before ++ after))
    (keeps : ∀ op ∈ after, op.KeepsLots) (reference : ℚ) :
    (run step (empty isLong) (before ++ after)).equity reference =
      (run step (empty isLong) before).equity reference +
        (after.map (Op.earned (empty isLong).sign reference)).sum := by
  refine measure_run (equity · reference) (fun _ _ => True) reference ?_ admissible closable keeps
    (everyStep_true _ _)
  intro table op books _ closable keeps _
  exact equity_step books.signed closable keeps reference

/-- A short table that is repackaged, and then closed at a profit and at a
loss. -/
theorem equity_run_repackaged :
    (run step (empty false) ([.openPosition 1 100 20, .openPosition 2 50 22,
        .repackage 50 (1 / 100) 0] ++ [.openPosition 3 30 21, .closePosition 4 70 19,
          .deleteComplete, .closePosition 5 20 23])).equity 20 =
      (run step (empty false) [.openPosition 1 100 20, .openPosition 2 50 22,
        .repackage 50 (1 / 100) 0]).equity 20 +
        ([.openPosition 3 30 21, .closePosition 4 70 19, .deleteComplete,
          .closePosition 5 20 23].map (Op.earned (empty false).sign 20)).sum :=
  equity_run false _ _ (by decide +kernel) (by decide +kernel) (by decide) 20

/-- While something is open, the profit told by the average is what has been
realised since the table was last flat and what the open lots would earn. -/
theorem getOpenPNL_run (isLong : Bool) (before after : List Op)
    (admissible : EveryStep step Admissible (empty isLong) (before ++ after))
    (closable : EveryStep step StaysClosable (empty isLong) (before ++ after))
    (keeps : ∀ op ∈ after, op.KeepsLots)
    (flat : (run step (empty isLong) before).openSize = 0)
    (staysOpen : EveryStep step StaysOpen (run step (empty isLong) before) after)
    (reference : ℚ) :
    (run step (empty isLong) (before ++ after)).getOpenPNL reference =
      (run step (empty isLong) (before ++ after)).equity reference -
        (run step (empty isLong) before).pnl := by
  have told : (run step (empty isLong) (before ++ after)).getOpenPNL reference =
      (run step (empty isLong) before).getOpenPNL reference +
        (after.map (Op.earned (empty isLong).sign reference)).sum := by
    refine measure_run (getOpenPNL · reference) StaysOpen reference ?_ admissible closable keeps
      staysOpen
    intro table op books admissible closable keeps staysOpen
    exact getOpenPNL_step books.sound.inRange admissible closable keeps staysOpen reference
  have nothing : (run step (empty isLong) before).getOpenPNL reference = 0 := by
    rw [getOpenPNL, flat]
    simp
  have start := books_run ((everyStep_append _ _ _).mp admissible).1
    ((everyStep_append _ _ _).mp closable).1
  have gained := measure_run (equity · reference) (fun _ _ => True) reference
    (fun table op books _ closable keeps _ => equity_step books.signed closable keeps reference)
    admissible closable keeps (everyStep_true _ _)
  rw [told, nothing, gained, equity, start.sound.incompleteProfit_of_flat flat]
  ring

/-- A long table that was sold at a profit, bought again and sold in part at a
loss. -/
theorem getOpenPNL_run_bought_again :
    (run step (empty true) ([.openPosition 1 100 20, .closePosition 2 100 25, .deleteComplete] ++
        [.openPosition 3 100 10, .closePosition 4 40 5])).getOpenPNL 12 =
      (run step (empty true) ([.openPosition 1 100 20, .closePosition 2 100 25, .deleteComplete] ++
        [.openPosition 3 100 10, .closePosition 4 40 5])).equity 12 -
        (run step (empty true) [.openPosition 1 100 20, .closePosition 2 100 25,
          .deleteComplete]).pnl :=
  getOpenPNL_run true _ _ (by decide +kernel) (by decide +kernel) (by decide) (by decide +kernel)
    (by decide +kernel) 12

end TradingApp.Position.PositionRecordTable
