import Mathlib.Data.List.Perm.Basic

/-!
# Rearranged lists

What does not change when the elements of a list are put in another order, because only
some of them matter and these keep theirs.
-/

namespace LimbAnimation

variable {α β : Type}

/-- Lists of one element at most have no other order. -/
theorem eq_of_perm_of_length_le_one {items others : List α} (perm : items.Perm others)
    (few : items.length ≤ 1) : items = others := by
  match items with
  | [] => exact perm.nil_eq
  | [item] => exact List.singleton_perm.mp perm
  | _ :: _ :: _ => simp at few

/-- If one element at most has a part in what is put together, the others can move around
it. -/
theorem flatMap_eq_of_perm {part : α → List β} {items others : List α}
    (perm : items.Perm others)
    (alone : items.Pairwise fun item other => part item = [] ∨ part other = []) :
    items.flatMap part = others.flatMap part := by
  induction perm with
  | nil => rfl
  | cons item _ ih =>
      rw [List.flatMap_cons, List.flatMap_cons, ih (List.pairwise_cons.mp alone).2]
  | swap item other rest =>
      obtain ⟨apart, _⟩ := List.pairwise_cons.mp alone
      simp only [List.flatMap_cons]
      rcases apart item List.mem_cons_self with none | none
      · simp [none]
      · simp [none]
  | trans first _ ih ih' =>
      have symmetric : ∀ {item other : α}, part item = [] ∨ part other = [] →
          part other = [] ∨ part item = [] := Or.symm
      rw [ih alone, ih' ((first.pairwise_iff symmetric).mp alone)]

/-- Two lists in order are the same if of each key they have the same elements in the same
order. -/
theorem eq_of_pairwise_of_filter {κ : Type} [DecidableEq κ] {key : α → κ}
    {InOrder : α → α → Prop}
    (antisymmetric : ∀ item other, InOrder item other → InOrder other item → key item = key other)
    {items others : List α} (ordered : items.Pairwise InOrder) (ordered' : others.Pairwise InOrder)
    (same : ∀ wanted, (items.filter fun item => key item = wanted) =
      others.filter fun item => key item = wanted) : items = others := by
  induction items generalizing others with
  | nil =>
      cases others with
      | nil => rfl
      | cons other rest' => simpa using same (key other)
  | cons item rest ih =>
      cases others with
      | nil => simpa using same (key item)
      | cons other rest' =>
          obtain ⟨first, later⟩ := List.pairwise_cons.mp ordered
          obtain ⟨first', later'⟩ := List.pairwise_cons.mp ordered'
          -- Each of the two heads occurs in the other list, so neither key comes before the other.
          have sameKey : key item = key other := by
            have inOthers : item ∈ (other :: rest').filter fun entry => key entry = key item := by
              rw [← same]
              simp
            have inItems : other ∈ (item :: rest).filter fun entry => key entry = key other := by
              rw [same]
              simp
            rcases List.mem_cons.mp (List.mem_filter.mp inOthers).1 with rfl | behind
            · rfl
            · rcases List.mem_cons.mp (List.mem_filter.mp inItems).1 with rfl | behind'
              · rfl
              · exact antisymmetric item other (first other behind') (first' item behind)
          have heads := same (key item)
          simp only [List.filter_cons, sameKey, decide_true, if_true] at heads
          obtain ⟨rfl, _⟩ := List.cons.inj heads
          rw [ih later later' ?_]
          intro wanted
          have both := same wanted
          by_cases here : key item = wanted
          · simpa [List.filter_cons, here] using both
          · simpa [List.filter_cons, here] using both

end LimbAnimation
