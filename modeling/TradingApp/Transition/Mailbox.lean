import Mathlib.Data.List.Basic

/-!
# Latest-value mailboxes

A publisher shows something and keeps a box of what it has shown.  Whenever
what it shows changes, it puts the new value into the box; a reader takes the
newest value and drops the others.

A reader that follows this protocol knows what is shown unless a newer value
awaits it, and it meets the values in the order they were put, none of them
twice and the newest one in any case.
-/

namespace TradingApp.Transition

universe u v

/-- What the state of a publisher shows, and the values that no reader has
taken, the newest last. -/
structure Publisher (σ : Type u) (β : Type v) where
  shown : σ → β
  box : σ → List β

/-- The values that were put into a box, and those taken out of it, the oldest
first. -/
structure History (β : Type v) where
  put : List β
  taken : List β

namespace History

variable {β : Type v}

/-- Nothing was put yet. -/
def start : History β where
  put := []
  taken := []

/-- Values are put at the end of a box. -/
def post (history : History β) (before after : List β) : History β :=
  { history with put := history.put ++ after.drop before.length }

/-- The newest value of a box is taken. -/
def take (history : History β) (box : List β) : History β :=
  { history with taken := history.taken ++ box.getLast?.toList }

end History

namespace Publisher

variable {σ : Type u} {β : Type v} (publisher : Publisher σ β) {s t : σ}

/-- A step leaves what is shown and the box alone, or it puts what it then
shows. -/
def Posts (s t : σ) : Prop :=
  (publisher.shown t = publisher.shown s ∧ publisher.box t = publisher.box s) ∨
    publisher.box t = publisher.box s ++ [publisher.shown t]

/-- A reader emptied the box. -/
structure Cleared (s t : σ) : Prop where
  shown : publisher.shown t = publisher.shown s
  box : publisher.box t = []

/-- The newest value in the box is the one shown. -/
def Fresh (s : σ) : Prop :=
  ∀ newest ∈ (publisher.box s).getLast?, newest = publisher.shown s

/-- A reader knows what is shown, unless a value awaits it. -/
def Informed (known : β) (s : σ) : Prop :=
  publisher.box s = [] → known = publisher.shown s

/-- The values taken and those in the box were put in this order, and the
newest of them was put last. -/
structure InOrder (history : History β) (s : σ) : Prop where
  sublist : (history.taken ++ publisher.box s).Sublist history.put
  newest : (history.taken ++ publisher.box s).getLast? = history.put.getLast?

variable {publisher} {known : β} {history : History β}

theorem fresh_of_box_eq_nil (empty : publisher.box s = []) : publisher.Fresh s := by
  intro newest member
  rw [empty] at member
  cases member

theorem Posts.fresh (posts : publisher.Posts s t) (fresh : publisher.Fresh s) :
    publisher.Fresh t := by
  intro newest member
  rcases posts with ⟨shown, box⟩ | box
  · rw [box] at member
    exact (fresh newest member).trans shown.symm
  · rw [box, List.getLast?_concat, Option.mem_some_iff] at member
    exact member.symm

theorem Cleared.fresh (cleared : publisher.Cleared s t) : publisher.Fresh t :=
  fresh_of_box_eq_nil cleared.box

theorem Posts.informed (posts : publisher.Posts s t) (informed : publisher.Informed known s) :
    publisher.Informed known t := by
  intro empty
  rcases posts with ⟨shown, box⟩ | box
  · rw [shown]
    exact informed (box.symm.trans empty)
  · rw [box] at empty
    exact absurd empty (List.concat_ne_nil _ _)

/-- Who takes the newest value knows what is shown. -/
theorem Cleared.informed (cleared : publisher.Cleared s t) (fresh : publisher.Fresh s)
    (newest : known ∈ (publisher.box s).getLast?) : publisher.Informed known t :=
  fun _ => (fresh known newest).trans cleared.shown.symm

theorem inOrder_start (empty : publisher.box s = []) : publisher.InOrder .start s := by
  constructor
  · rw [empty]
    exact List.Sublist.refl []
  · rw [empty]
    rfl

theorem Posts.inOrder (posts : publisher.Posts s t) (inOrder : publisher.InOrder history s) :
    publisher.InOrder (history.post (publisher.box s) (publisher.box t)) t := by
  obtain ⟨sublist, newest⟩ := inOrder
  rcases posts with ⟨_, box⟩ | box
  · constructor
    · rw [box, History.post, List.drop_length, List.append_nil]
      exact sublist
    · rw [box, History.post, List.drop_length, List.append_nil]
      exact newest
  · constructor
    · rw [box, History.post, List.drop_left, ← List.append_assoc]
      exact sublist.append_right _
    · rw [box, History.post, List.drop_left, ← List.append_assoc, List.getLast?_concat,
        List.getLast?_concat]

theorem Cleared.inOrder (cleared : publisher.Cleared s t)
    (inOrder : publisher.InOrder history s) :
    publisher.InOrder (history.take (publisher.box s)) t := by
  obtain ⟨sublist, newest⟩ := inOrder
  rcases List.eq_nil_or_concat (publisher.box s) with box | ⟨dropped, last, box⟩
  · rw [box] at sublist newest ⊢
    constructor
    · rw [cleared.box]
      simpa [History.take] using sublist
    · rw [cleared.box]
      simpa [History.take] using newest
  · rw [List.concat_eq_append] at box
    rw [box] at sublist newest ⊢
    have taken : (history.take (dropped ++ [last])).taken = history.taken ++ [last] := by
      rw [History.take, List.getLast?_concat]
      rfl
    constructor
    · rw [cleared.box, taken, List.append_nil]
      exact (List.Sublist.append_left (List.sublist_append_right dropped [last]) _).trans sublist
    · rw [← List.append_assoc, List.getLast?_concat] at newest
      rw [cleared.box, taken, List.append_nil, List.getLast?_concat]
      exact newest

end Publisher

end TradingApp.Transition
