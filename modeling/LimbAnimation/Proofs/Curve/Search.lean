import LimbAnimation.Proofs.Curve.Scan

/-!
# Searching an ordered curve

Where the positions of the keys never fall, the scan finds what a binary search finds: the
first key, the one at the start aside, that does not stand before the position.  The segment
that ends there gives the value.
-/

namespace LimbAnimation

/-- The least number from `low` on of which something holds, by halving, or `high` if there is
none before it.  What holds once has to hold from there on. -/
def leastFrom (holds : Nat → Bool) (low high : Nat) : Nat :=
  if low < high then
    if holds ((low + high) / 2) then leastFrom holds low ((low + high) / 2)
    else leastFrom holds ((low + high) / 2 + 1) high
  else low
termination_by high - low

theorem leastFrom_bounds (holds : Nat → Bool) {low high : Nat} (ordered : low ≤ high) :
    low ≤ leastFrom holds low high ∧ leastFrom holds low high ≤ high := by
  fun_induction leastFrom holds low high with
  | case1 low high apart found ih =>
      have bounds := ih (by omega)
      omega
  | case2 low high apart missed ih =>
      have bounds := ih (by omega)
      omega
  | case3 low high together => omega

theorem leastFrom_spec {holds : Nat → Bool} {low high : Nat}
    (kept : ∀ index later, index ≤ later → later < high → holds index = true →
      holds later = true) :
    (∀ index, low ≤ index → index < leastFrom holds low high → holds index = false) ∧
      (leastFrom holds low high < high → holds (leastFrom holds low high) = true) := by
  fun_induction leastFrom holds low high with
  | case1 low high apart found ih =>
      have within := leastFrom_bounds holds (show low ≤ (low + high) / 2 by omega)
      obtain ⟨before, there⟩ := ih fun index later ahead inRange =>
        kept index later ahead (by omega)
      refine ⟨before, fun _ => ?_⟩
      rcases Nat.lt_or_eq_of_le within.2 with less | same
      · exact there less
      · rw [same, found]
  | case2 low high apart missed ih =>
      obtain ⟨before, there⟩ := ih kept
      refine ⟨fun index above below => ?_, there⟩
      by_cases beyond : (low + high) / 2 < index
      · exact before index beyond below
      · refine Bool.eq_false_iff.mpr fun held => missed ?_
        exact kept index _ (by omega) (by omega) held
  | case3 low high together => exact ⟨fun index above below => by omega, fun less => by omega⟩

namespace Curve

variable {α : Type}

/-- Positions that never fall.  Where there are two, none of them is a NaN. -/
def Ordered (keys : List (Key α)) : Prop :=
  keys.Pairwise fun before after => before.position ≤ after.position

/-- Where, from the second one on, the keys are stored that do not stand before a position. -/
def reached (keys : List (Key α)) (position : Single) : Set Nat :=
  { index | 1 ≤ index ∧ ∃ key, keys[index]? = some key ∧ position ≤ key.position }

def reaches (keys : List (Key α)) (position : Single) (index : Nat) : Bool :=
  keys[index]?.any fun key => position ≤ key.position

/-- The place in `reached` that a binary search finds; the number of keys if there is none. -/
def search (keys : List (Key α)) (position : Single) : Nat :=
  leastFrom (reaches keys position) 1 keys.length

section Reached

variable {keys : List (Key α)} {position : Single} {index : Nat}

theorem pairwise_getElem? {β : Type} {items : List β} {Related : β → β → Prop}
    (pairwise : items.Pairwise Related) {earlier later : Nat} {before after : β}
    (beforeAt : items[earlier]? = some before) (afterAt : items[later]? = some after)
    (less : earlier < later) : Related before after := by
  obtain ⟨beforeRange, rfl⟩ := List.getElem?_eq_some_iff.mp beforeAt
  obtain ⟨afterRange, rfl⟩ := List.getElem?_eq_some_iff.mp afterAt
  exact List.pairwise_iff_getElem.mp pairwise earlier later beforeRange afterRange less

theorem Ordered.le {earlier later : Nat} {before after : Key α} (ordered : Ordered keys)
    (beforeAt : keys[earlier]? = some before) (afterAt : keys[later]? = some after)
    (less : earlier < later) : before.position ≤ after.position :=
  pairwise_getElem? ordered beforeAt afterAt less

theorem reaches_eq_true_iff :
    reaches keys position index = true ↔
      ∃ key, keys[index]? = some key ∧ position ≤ key.position := by
  simp [reaches, Option.any_eq_true]

theorem reaches_mono (ordered : Ordered keys) {later : Nat} (ahead : index ≤ later)
    (inRange : later < keys.length) (here : reaches keys position index = true) :
    reaches keys position later = true := by
  obtain ⟨key, found, atMost⟩ := reaches_eq_true_iff.mp here
  rcases Nat.lt_or_eq_of_le ahead with less | rfl
  · have there := List.getElem?_eq_getElem inRange
    exact reaches_eq_true_iff.mpr ⟨_, there, Single.le_trans atMost (ordered.le found there less)⟩
  · exact here

/-- A binary search finds the first key that does not stand before the position. -/
theorem search_cases (ordered : Ordered keys) (some : 1 ≤ keys.length) (position : Single) :
    (reached keys position = ∅ ∧ search keys position = keys.length) ∨
      IsLeast (reached keys position) (search keys position) := by
  have bounds := leastFrom_bounds (reaches keys position) some
  have spec : (∀ index, 1 ≤ index → index < search keys position →
        reaches keys position index = false) ∧
      (search keys position < keys.length →
        reaches keys position (search keys position) = true) :=
    leastFrom_spec fun index later ahead inRange => reaches_mono ordered ahead inRange
  obtain ⟨before, there⟩ := spec
  have lower : ∀ index ∈ reached keys position, search keys position ≤ index := by
    intro index member
    obtain ⟨above, key, found, atMost⟩ := member
    refine Nat.le_of_not_lt fun less => ?_
    have missed := before index above less
    rw [reaches_eq_true_iff.mpr ⟨key, found, atMost⟩] at missed
    cases missed
  rcases Nat.lt_or_eq_of_le bounds.2 with less | same
  · exact .inr ⟨⟨bounds.1, reaches_eq_true_iff.mp (there less)⟩, lower⟩
  · refine .inl ⟨Set.eq_empty_iff_forall_notMem.mpr fun index member => ?_, same⟩
    have beyond := lower index member
    obtain ⟨_, key, found, _⟩ := member
    obtain ⟨inRange, _⟩ := List.getElem?_eq_some_iff.mp found
    rw [search, same] at beyond
    omega

/-- Neighbours lie around a position only if the second one does not stand before it. -/
theorem succ_mem_reached (member : index ∈ bracketing keys position) :
    index + 1 ∈ reached keys position := by
  obtain ⟨before, after, neighbours, around⟩ := member
  exact ⟨Nat.le_add_left 1 index, after, neighbours.after, around.2⟩

/-- No neighbours lie around a position before the first key. -/
theorem bracketing_of_lt (ordered : Ordered keys) {first : Key α}
    (firstAt : keys[0]? = some first) (ahead : position < first.position) :
    bracketing keys position = ∅ := by
  refine Set.eq_empty_iff_forall_notMem.mpr fun index member => ?_
  obtain ⟨before, after, neighbours, above, _⟩ := member
  have beyond : first.position ≤ position := by
    cases index with
    | zero =>
        cases firstAt.symm.trans neighbours.before
        exact above
    | succ index =>
        exact Single.le_trans (ordered.le firstAt neighbours.before (Nat.succ_pos index)) above
  exact Single.not_lt_of_le beyond ahead

/-- The key before the first one in `reached` stands before the position, unless that is the
first key of all. -/
theorem lt_of_isLeast_reached (ordered : Ordered keys) (isNumber : position.isNaN = false)
    (least : IsLeast (reached keys position) (index + 1)) {before : Key α}
    (beforeAt : keys[index]? = some before) (later : 0 < index) :
    before.position < position := by
  obtain ⟨⟨_, after, afterAt, _⟩, lower⟩ := least
  have notReached : ¬ position ≤ before.position := by
    intro atMost
    have bound := lower ⟨later, before, beforeAt, atMost⟩
    omega
  have inOrder := ordered.le beforeAt afterAt (Nat.lt_succ_self index)
  exact Single.lt_of_not_le isNumber (Single.isNaN_left_of_le inOrder) notReached

/-- The first neighbours around a position behind the first key end where the search does. -/
theorem isLeast_bracketing (ordered : Ordered keys) {first : Key α}
    (firstAt : keys[0]? = some first) (behind : first.position ≤ position)
    (least : IsLeast (reached keys position) (index + 1)) :
    IsLeast (bracketing keys position) index := by
  obtain ⟨_, after, afterAt, below⟩ := least.1
  obtain ⟨inRange, _⟩ := List.getElem?_eq_some_iff.mp afterAt
  have beforeAt := List.getElem?_eq_getElem (Nat.lt_of_succ_lt inRange)
  refine ⟨⟨_, after, ⟨beforeAt, afterAt⟩, ?_, below⟩, ?_⟩
  · cases index with
    | zero =>
        cases firstAt.symm.trans beforeAt
        exact behind
    | succ index =>
        exact Single.le_of_lt (lt_of_isLeast_reached ordered (Single.isNaN_left_of_le below)
          least beforeAt (Nat.succ_pos index))
  · intro other member
    exact Nat.le_of_succ_le_succ (least.2 (succ_mem_reached member))

end Reached

variable [Blendable α]

/-- The value that a search gives which has ended at an index: there the segment ends on which
the position lies, unless it lies before all keys or, where there is no such key, behind
them. -/
def valueBy? (curve : Curve α) (position : Single) (index : Nat) : Option α :=
  match curve.keys[0]?, curve.keys[index - 1]?, curve.keys[index]? with
  | some first, some before, some after =>
    let span := after.position - before.position
    if position < first.position then some first.value
    else if span ≤ shortestSegment ∨ position.equals after.position then some after.value
    else if index = 1 ∧ position.equals first.position then some first.value
    else some (Blendable.blend before.value after.value ((position - before.position) / span))
  | _, _, _ => curve.last?

section Values

variable {curve : Curve α} {query : Single}

theorem valueAt?_of_isLeast_reached (ordered : Ordered curve.keys) {index : Nat}
    (least : IsLeast (reached curve.keys (queried query)) index) :
    curve.valueAt? query = curve.valueBy? (queried query) index := by
  have isNumber := (queried_inUnit query).isNaN
  obtain ⟨index, rfl⟩ : ∃ before, index = before + 1 := ⟨index - 1, by have := least.1.1; omega⟩
  obtain ⟨_, after, afterAt, below⟩ := least.1
  obtain ⟨inRange, _⟩ := List.getElem?_eq_some_iff.mp afterAt
  obtain ⟨before, beforeAt⟩ : ∃ before, curve.keys[index]? = some before :=
    ⟨_, List.getElem?_eq_getElem (Nat.lt_of_succ_lt inRange)⟩
  obtain ⟨first, rest, keys⟩ := List.exists_cons_of_length_pos (Nat.zero_lt_of_lt inRange)
  have firstAt : curve.keys[0]? = some first := by rw [keys]; rfl
  simp only [valueBy?, firstAt, Nat.add_sub_cancel, beforeAt, afterAt]
  by_cases ahead : queried query < first.position
  · have nowhere := bracketing_of_lt ordered firstAt ahead
    rw [if_pos ahead, valueAt?_of_not_bracketed nowhere keys, if_pos (Single.le_of_lt ahead)]
  · have firstNumber : first.position.isNaN = false := by
      cases index with
      | zero => exact Single.isNaN_left_of_le (ordered.le firstAt afterAt Nat.one_pos)
      | succ index => exact Single.isNaN_left_of_le (ordered.le firstAt afterAt (by omega))
    have behind := Single.le_of_not_lt firstNumber isNumber ahead
    have found := isLeast_bracketing ordered firstAt behind least
    rw [if_neg ahead, valueAt?_of_isLeast found ⟨beforeAt, afterAt⟩, within]
    cases index with
    | zero =>
        cases firstAt.symm.trans beforeAt
        simp only [Nat.zero_add, true_and, apply_ite some]
    | succ index =>
        -- Only the first key can be hit as the start of a segment.
        have beyond := lt_of_isLeast_reached ordered isNumber least beforeAt (Nat.succ_pos index)
        have notBefore : (queried query).equals before.position = false := by
          rw [Single.equals_comm]
          exact Single.equals_of_lt beyond
        have notFirst : ¬ index + 1 + 1 = 1 := by omega
        simp only [notBefore, notFirst, false_and, Bool.false_eq_true, if_false, apply_ite some]

theorem valueBy?_length (curve : Curve α) (position : Single) :
    curve.valueBy? position curve.keys.length = curve.last? := by
  unfold valueBy?
  split
  next afterAt =>
      rw [List.getElem?_eq_none (Nat.le_refl _)] at afterAt
      cases afterAt
  next => rfl

theorem valueAt?_of_not_reached (several : 2 ≤ curve.keys.length) (ordered : Ordered curve.keys)
    (nowhere : reached curve.keys (queried query) = ∅) : curve.valueAt? query = curve.last? := by
  match keys : curve.keys with
  | [] => simp [keys] at several
  | [only] => simp [keys] at several
  | first :: second :: rest =>
      have secondAt : curve.keys[1]? = some second := by rw [keys]; rfl
      have unbracketed : bracketing curve.keys (queried query) = ∅ := by
        refine Set.eq_empty_iff_forall_notMem.mpr fun index member => ?_
        have there := succ_mem_reached member
        rw [nowhere] at there
        exact there
      have behind : ¬ queried query ≤ first.position := by
        intro atMost
        have inOrder := ordered.le (by rw [keys]; rfl) secondAt Nat.one_pos
        have there : 1 ∈ reached curve.keys (queried query) :=
          ⟨Nat.le_refl 1, second, secondAt, Single.le_trans atMost inOrder⟩
        rw [nowhere] at there
        exact there
      rw [valueAt?_of_not_bracketed unbracketed keys, if_neg behind]

end Values

/-- On at least two keys whose positions never fall, however many of them coincide, the scan
gives the value that the first key gives, from the second one on, that does not stand before
the position; and that is the key which a binary search finds. -/
theorem valueAt?_agrees_with_search {curve : Curve α} (several : 2 ≤ curve.keys.length)
    (ordered : Ordered curve.keys) (query : Single) :
    (∀ index, IsLeast (reached curve.keys (queried query)) index →
        curve.valueAt? query = curve.valueBy? (queried query) index) ∧
      (reached curve.keys (queried query) = ∅ → curve.valueAt? query = curve.last?) ∧
      curve.valueAt? query =
        curve.valueBy? (queried query) (search curve.keys (queried query)) := by
  refine ⟨fun index least => valueAt?_of_isLeast_reached ordered least,
    valueAt?_of_not_reached several ordered, ?_⟩
  rcases search_cases ordered (Nat.le_of_succ_le several) (queried query) with
    ⟨nowhere, ended⟩ | least
  · rw [valueAt?_of_not_reached several ordered nowhere, ended, valueBy?_length]
  · exact valueAt?_of_isLeast_reached ordered least

/-- Two keys in the middle coincide; the position lies on the segment behind them. -/
theorem valueAt?_agrees_with_search_behind_coincident_keys :
    let curve : Curve Single := ⟨[⟨0, 0⟩, ⟨1, Single.half⟩, ⟨5, Single.half⟩, ⟨6, 1⟩]⟩
    let query := Single.ofRatio false 3 4
    2 ≤ curve.keys.length ∧ Ordered curve.keys ∧
      IsLeast (reached curve.keys (queried query)) 3 ∧
      curve.valueAt? query = curve.valueBy? (queried query) 3 ∧
      curve.valueAt? query =
        curve.valueBy? (queried query) (search curve.keys (queried query)) := by
  intro curve query
  have several : 2 ≤ curve.keys.length := by decide
  have facts : (curve.keys.Pairwise fun before after => before.position ≤ after.position) ∧
      ¬ queried query ≤ Single.half ∧ queried query ≤ 1 := by decide +kernel
  obtain ⟨ordered, beyond, atMost⟩ := facts
  have least : IsLeast (reached curve.keys (queried query)) 3 := by
    refine ⟨⟨by decide, ⟨6, 1⟩, rfl, atMost⟩, ?_⟩
    rintro index ⟨above, key, found, reach⟩
    match index, above with
    | 1, _ =>
        cases found
        exact absurd reach beyond
    | 2, _ =>
        cases found
        exact absurd reach beyond
    | _ + 3, _ => exact Nat.le_add_left _ _
  obtain ⟨byIndex, _, bySearch⟩ := valueAt?_agrees_with_search several ordered query
  exact ⟨several, ordered, least, byIndex 3 least, bySearch⟩

end Curve

end LimbAnimation
