import TradingApp.Transition.Run

/-!
# What a part of a system hears

A register holds the value that was written last.  More generally the parts of a
system hear of its trace what concerns them, and the part that a trace leads to
is the one that its own trace leads to.  Whether a label concerns a part may
depend on the labels before it.
-/

namespace TradingApp.Transition

universe u v w

section Registers

variable {α : Type u} {β : Type v}

/-- The value written last, or the initial one. -/
def lastWrite (writes : α → Option β) (initial : β) (trace : List α) : β :=
  (trace.filterMap writes).getLast?.getD initial

variable (writes : α → Option β) (initial : β)

@[simp]
theorem lastWrite_nil : lastWrite writes initial [] = initial :=
  rfl

theorem lastWrite_concat (trace : List α) (label : α) :
    lastWrite writes initial (trace ++ [label]) =
      (writes label).getD (lastWrite writes initial trace) := by
  unfold lastWrite
  rw [List.filterMap_append]
  cases written : writes label with
  | none => simp [written]
  | some value => simp [written]

/-- Labels that do not write are passed over. -/
theorem lastWrite_concat_of_none {trace : List α} {label : α} (silent : writes label = none) :
    lastWrite writes initial (trace ++ [label]) = lastWrite writes initial trace := by
  rw [lastWrite_concat, silent]
  rfl

/-- A register that each step writes or leaves alone holds the last write. -/
theorem run_lastWrite {σ : Type w} {step : σ → α → σ} (register : σ → β)
    (written : ∀ state label, register (step state label) = (writes label).getD (register state))
    (state : σ) (trace : List α) :
    register (run step state trace) = lastWrite writes (register state) trace := by
  induction trace using List.reverseRecOn with
  | nil => rfl
  | append_singleton trace label ih => rw [run_append, lastWrite_concat, ← ih, ← written]; rfl

end Registers

section Latches

variable {α : Type u} {σ : Type w} {step : σ → α → σ} {P : σ → Prop} {sets : σ → α → Prop}

/-- What some labels set and others clear holds if it held at first, or was set,
and has not been cleared since. -/
theorem run_latch_iff (clears : α → Prop)
    (latch : ∀ state label, P (step state label) ↔ sets state label ∨ P state ∧ ¬ clears label)
    (state : σ) (trace : List α) :
    P (run step state trace) ↔
      (P state ∧ ∀ label ∈ trace, ¬ clears label) ∨
        ∃ before label after, trace = before ++ label :: after ∧
          sets (run step state before) label ∧ ∀ later ∈ after, ¬ clears later := by
  induction trace using List.reverseRecOn with
  | nil => simp
  | append_singleton trace last ih =>
      rw [run_append, run_cons, run_nil, latch, ih]
      constructor
      · rintro (sets | ⟨⟨holds, kept⟩ | ⟨before, label, after, rfl, sets, kept⟩, keeps⟩)
        · exact Or.inr ⟨trace, last, [], rfl, sets, by simp⟩
        · refine Or.inl ⟨holds, fun label member => ?_⟩
          rcases List.mem_append.mp member with earlier | isLast
          · exact kept label earlier
          · rwa [List.mem_singleton.mp isLast]
        · refine Or.inr ⟨before, label, after ++ [last], by simp, sets, fun later member => ?_⟩
          rcases List.mem_append.mp member with earlier | isLast
          · exact kept later earlier
          · rwa [List.mem_singleton.mp isLast]
      · rintro (⟨holds, kept⟩ | ⟨before, label, after, splits, sets, kept⟩)
        · refine Or.inr ⟨Or.inl ⟨holds, fun label member => ?_⟩, kept last (by simp)⟩
          exact kept label (List.mem_append_left _ member)
        · rcases List.eq_nil_or_concat' after with rfl | ⟨earlier, final, rfl⟩
          · obtain ⟨rfl, same⟩ := List.append_inj' splits rfl
            obtain rfl := List.singleton_inj.mp same
            exact Or.inl sets
          · rw [← List.cons_append, ← List.append_assoc] at splits
            obtain ⟨rfl, same⟩ := List.append_inj' splits rfl
            obtain rfl := List.singleton_inj.mp same
            refine Or.inr ⟨Or.inr ⟨before, label, earlier, rfl, sets, fun later member => ?_⟩,
              kept last (by simp)⟩
            exact kept later (List.mem_append_left _ member)

end Latches

section Parts

variable {α : Type u} {β : Type v}

/-- What a part hears of a trace, each label in the light of those before. -/
def heard (hears : List α → α → List β) : List α → List α → List β
  | _, [] => []
  | before, label :: rest => hears before label ++ heard hears (before ++ [label]) rest

variable (hears : List α → α → List β)

@[simp]
theorem heard_nil (before : List α) : heard hears before [] = [] :=
  rfl

theorem heard_concat (before trace : List α) (label : α) :
    heard hears before (trace ++ [label]) =
      heard hears before trace ++ hears (before ++ trace) label := by
  induction trace generalizing before with
  | nil => simp [heard]
  | cons first rest ih =>
      rw [List.cons_append, heard, heard, ih, List.append_assoc, List.append_assoc]
      rfl

end Parts

end TradingApp.Transition
