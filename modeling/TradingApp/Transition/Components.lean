import Mathlib.Logic.Function.Basic
import TradingApp.Transition.LastWrite

/-!
# Systems of independent components

The components of a system are filed under keys.  A loop goes through some keys
and changes the components that a test selects; if each label makes at most one
step of a component, a trace of the system is a trace of each of them.
-/

namespace TradingApp.Transition

universe u v w x

section Visit

variable {κ : Type u} {β : Type v} [DecidableEq κ]

/-- Go through some keys and change the components that a test selects. -/
def visit (p : κ → Prop) [DecidablePred p] (f : κ → β → β) (keys : List κ) (store : κ → β) :
    κ → β :=
  keys.foldl (fun store key =>
    if p key then Function.update store key (f key (store key)) else store) store

variable (p : κ → Prop) [DecidablePred p] (f : κ → β → β) (store : κ → β)

@[simp]
theorem visit_nil : visit p f [] store = store :=
  rfl

theorem visit_append (first second : List κ) :
    visit p f (first ++ second) store = visit p f second (visit p f first store) :=
  List.foldl_append

/-- Different keys are changed once. -/
theorem visit_apply {keys : List κ} (distinct : keys.Nodup) (key : κ) :
    visit p f keys store key = if key ∈ keys ∧ p key then f key (store key) else store key := by
  induction keys generalizing store with
  | nil => rw [visit_nil, if_neg fun both => nomatch both.1]
  | cons first rest ih =>
      obtain ⟨fresh, distinct⟩ := List.nodup_cons.mp distinct
      change visit p f rest (if p first then _ else store) key = _
      rw [ih _ distinct]
      by_cases same : key = first
      · subst same
        rw [if_neg fun both => fresh both.1]
        by_cases selected : p key
        · rw [if_pos selected, Function.update_self, if_pos ⟨List.mem_cons_self .., selected⟩]
        · rw [if_neg selected, if_neg fun both => selected both.2]
      · have other : (if p first then Function.update store first (f first (store first))
            else store) key = store key := by
          split
          · exact Function.update_of_ne same _ _
          · rfl
        rw [other]
        simp only [List.mem_cons, same, false_or]

/-- Nothing is changed if no key is selected. -/
theorem visit_of_forall_not {keys : List κ} (none : ∀ key ∈ keys, ¬ p key) :
    visit p f keys store = store := by
  induction keys with
  | nil => rfl
  | cons first rest ih =>
      change visit p f rest (if p first then _ else store) = store
      rw [if_neg (none first (List.mem_cons_self ..))]
      exact ih fun key member => none key (List.mem_cons_of_mem _ member)

/-- Only what the test says of the keys matters. -/
theorem visit_congr (q : κ → Prop) [DecidablePred q] {keys : List κ}
    (same : ∀ key ∈ keys, p key ↔ q key) : visit p f keys store = visit q f keys store := by
  induction keys generalizing store with
  | nil => rfl
  | cons first rest ih =>
      have here : (if p first then Function.update store first (f first (store first))
          else store) =
          if q first then Function.update store first (f first (store first)) else store :=
        if_congr (same first (List.mem_cons_self ..)) rfl rfl
      change visit p f rest (if p first then _ else store) =
        visit q f rest (if q first then _ else store)
      rw [here]
      exact ih _ fun key member => same key (List.mem_cons_of_mem _ member)

end Visit

section Run

variable {κ : Type u} {σ : Type v} {α : Type w} {β : Type x}

/-- A component that each label makes step at most once runs through the labels
that are its own. -/
theorem run_component {step : (κ → σ) → α → κ → σ} {stepOne : σ → β → σ} {key : κ}
    {own : α → Option β}
    (steps : ∀ store label, step store label key = ((own label).map (stepOne (store key))).getD
      (store key)) (store : κ → σ) (trace : List α) :
    run step store trace key = run stepOne (store key) (trace.filterMap own) := by
  induction trace generalizing store with
  | nil => rfl
  | cons label rest ih =>
      rw [run_cons, ih, steps]
      cases mine : own label with
      | none => rw [List.filterMap_cons_none mine]; rfl
      | some one => rw [List.filterMap_cons_some mine]; rfl

end Run

end TradingApp.Transition
