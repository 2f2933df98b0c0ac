import LimbAnimation.Proofs.Curve.Search

/-!
# Keys that are hit

A curve whose positions rise shows at the position of each key the value of that key.  The
only exception is the first key when the second one follows at once: a segment that is too
short to be crossed jumps to its end from its very start.
-/

namespace LimbAnimation.Curve

open Single (InUnit)

variable {α : Type}

def Rising (keys : List (Key α)) : Prop :=
  keys.Pairwise fun before after => before.position < after.position

theorem Rising.ordered {keys : List (Key α)} (rising : Rising keys) : Ordered keys :=
  List.Pairwise.imp Single.le_of_lt rising

theorem Rising.lt {keys : List (Key α)} {earlier later : Nat} {before after : Key α}
    (rising : Rising keys) (beforeAt : keys[earlier]? = some before)
    (afterAt : keys[later]? = some after) (less : earlier < later) :
    before.position < after.position :=
  pairwise_getElem? rising beforeAt afterAt less

/-- A search for the position of a key ends at that key. -/
theorem isLeast_reached_of_key {keys : List (Key α)} (rising : Rising keys) {index : Nat}
    {key : Key α}
    (found : keys[index + 1]? = some key) (isNumber : key.position.isNaN = false) :
    IsLeast (reached keys key.position) (index + 1) := by
  refine ⟨⟨Nat.le_add_left 1 index, key, found, Single.le_refl isNumber⟩, ?_⟩
  rintro other ⟨_, earlier, earlierAt, atMost⟩
  refine Nat.le_of_not_lt fun less => ?_
  exact Single.not_lt_of_le atMost (rising.lt earlierAt found less)

/-- The second key follows the first one so closely that the segment between them is not
crossed. -/
def StartsShort (curve : Curve α) : Prop :=
  ∃ first second, Neighbours curve.keys 0 first second ∧
    second.position - first.position ≤ shortestSegment

section Rising

variable [Blendable α] {curve : Curve α}

theorem valueAt?_of_later_key (rising : Rising curve.keys) {index : Nat} {key : Key α}
    (found : curve.keys[index + 1]? = some key) (inUnit : InUnit key.position) :
    curve.valueAt? key.position = some key.value := by
  have asked := queried_of_inUnit inUnit
  have least := isLeast_reached_of_key rising found inUnit.isNaN
  obtain ⟨inRange, _⟩ := List.getElem?_eq_some_iff.mp found
  have beforeAt := List.getElem?_eq_getElem (Nat.lt_of_succ_lt inRange)
  obtain ⟨first, rest, keys⟩ := List.exists_cons_of_length_pos (Nat.zero_lt_of_lt inRange)
  have firstAt : curve.keys[0]? = some first := by rw [keys]; rfl
  have notAhead := Single.lt_asymm (rising.lt firstAt found (Nat.succ_pos index))
  rw [← asked] at least
  rw [valueAt?_of_isLeast_reached rising.ordered least, asked]
  simp only [valueBy?, firstAt, Nat.add_sub_cancel, beforeAt, found, notAhead, if_false,
    Single.equals_self inUnit.isNaN, or_true, if_true]

/-- At the first one of several keys, the length of the first segment decides. -/
theorem valueAt?_of_first_key (rising : Rising curve.keys) {first second : Key α}
    (neighbours : Neighbours curve.keys 0 first second) (inUnit : InUnit first.position) :
    curve.valueAt? first.position =
      if second.position - first.position ≤ shortestSegment then some second.value
      else some first.value := by
  have asked := queried_of_inUnit inUnit
  have beyond := rising.lt neighbours.before neighbours.after Nat.one_pos
  have least : IsLeast (reached curve.keys (queried first.position)) 1 := by
    refine ⟨⟨Nat.le_refl 1, second, neighbours.after, ?_⟩, fun other member => member.1⟩
    rw [asked]
    exact Single.le_of_lt beyond
  rw [valueAt?_of_isLeast_reached rising.ordered least, asked]
  simp only [valueBy?, neighbours.before, neighbours.after, Nat.sub_self, Single.lt_irrefl,
    if_false, Single.equals_of_lt beyond, Bool.false_eq_true, or_false,
    Single.equals_self inUnit.isNaN, and_self, if_true]

/-- Every key is hit, the last one in particular, except that a short start hides the first
key behind the second one. -/
theorem valueAt?_hits_keys_unless_start_is_short {curve : Curve α}
    (unit : ∀ key ∈ curve.keys, InUnit key.position) (rising : Rising curve.keys) :
    (∀ index key, curve.keys[index]? = some key → (index = 0 → ¬ curve.StartsShort) →
        curve.valueAt? key.position = some key.value) ∧
      (∀ key, curve.keys.getLast? = some key → curve.valueAt? key.position = some key.value) ∧
      (curve.StartsShort → ∀ first second, Neighbours curve.keys 0 first second →
        curve.valueAt? first.position = some second.value) := by
  have hits : ∀ index key, curve.keys[index]? = some key → (index = 0 → ¬ curve.StartsShort) →
      curve.valueAt? key.position = some key.value := by
    intro index key found far
    have inUnit := unit key (List.mem_of_getElem? found)
    cases index with
    | succ index => exact valueAt?_of_later_key rising found inUnit
    | zero =>
        cases next : curve.keys[1]? with
        | some second =>
            have long : ¬ second.position - key.position ≤ shortestSegment :=
              fun short => far rfl ⟨key, second, ⟨found, next⟩, short⟩
            rw [valueAt?_of_first_key rising ⟨found, next⟩ inUnit, if_neg long]
        | none =>
            match keys : curve.keys with
            | [] => simp [keys] at found
            | [only] =>
                rw [keys] at found
                cases found
                rw [valueAt?, keys]
            | _ :: _ :: _ => simp [keys] at next
  refine ⟨hits, fun key last => ?_, ?_⟩
  · rw [List.getLast?_eq_getElem?] at last
    refine hits _ key last fun only short => ?_
    obtain ⟨_, _, neighbours, _⟩ := short
    obtain ⟨inRange, _⟩ := List.getElem?_eq_some_iff.mp neighbours.after
    omega
  · rintro ⟨first, second, neighbours, short⟩ first' second' neighbours'
    cases neighbours.before.symm.trans neighbours'.before
    cases neighbours.after.symm.trans neighbours'.after
    have inUnit := unit first neighbours.mem_before
    rw [valueAt?_of_first_key rising neighbours inUnit, if_pos short]

end Rising

/-- The second key follows half a millionth behind the first one. -/
def shortStart : Curve Single :=
  ⟨[⟨0, 0⟩, ⟨10, Single.ofRatio false 1 2000000⟩, ⟨20, 1⟩]⟩

theorem shortStart_facts :
    (∀ key ∈ shortStart.keys, 0 ≤ key.position ∧ key.position ≤ 1) ∧
      (shortStart.keys.Pairwise fun before after => before.position < after.position) ∧
      Single.ofRatio false 1 2000000 - 0 ≤ shortestSegment ∧
      shortStart.valueAt? 0 = some 10 ∧ (10 : Single) ≠ 0 := by
  decide +kernel

theorem shortStart_inUnit : ∀ key ∈ shortStart.keys, InUnit key.position :=
  fun key member => ⟨(shortStart_facts.1 key member).1, (shortStart_facts.1 key member).2⟩

theorem shortStart_rising : Rising shortStart.keys := shortStart_facts.2.1

/-- All keys of this curve but the first one are hit. -/
theorem valueAt?_hits_keys_behind_short_start :
    (∀ key ∈ shortStart.keys, InUnit key.position) ∧ Rising shortStart.keys ∧
      shortStart.valueAt? (Single.ofRatio false 1 2000000) = some 10 ∧
      shortStart.valueAt? 1 = some 20 ∧
      shortStart.StartsShort ∧ shortStart.valueAt? 0 = some 10 := by
  obtain ⟨hits, last, hidden⟩ :=
    valueAt?_hits_keys_unless_start_is_short shortStart_inUnit shortStart_rising
  have start : Neighbours shortStart.keys 0 ⟨0, 0⟩ ⟨10, Single.ofRatio false 1 2000000⟩ :=
    ⟨rfl, rfl⟩
  have short : shortStart.StartsShort := ⟨_, _, start, shortStart_facts.2.2.1⟩
  refine ⟨shortStart_inUnit, shortStart_rising, ?_, ?_, short, ?_⟩
  · exact hits 1 ⟨10, _⟩ rfl nofun
  · exact last ⟨20, 1⟩ rfl
  · exact hidden short ⟨0, 0⟩ _ start

/-- The position of the first key shows the second one. -/
theorem close_second_key_hides_first :
    (∀ key ∈ shortStart.keys, InUnit key.position) ∧ Rising shortStart.keys ∧
      shortStart.keys[0]? = some ⟨0, 0⟩ ∧ shortStart.valueAt? 0 = some 10 ∧
      shortStart.valueAt? 0 ≠ some 0 := by
  obtain ⟨_, _, _, shown, different⟩ := shortStart_facts
  refine ⟨shortStart_inUnit, shortStart_rising, rfl, shown, fun hit => different ?_⟩
  exact Option.some.inj (shown.symm.trans hit)

end LimbAnimation.Curve
