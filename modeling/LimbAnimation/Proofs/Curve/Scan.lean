import LimbAnimation.Curve
import LimbAnimation.Proofs.Single.Differences
import LimbAnimation.Proofs.Single.UnitInterval
import Mathlib.Order.Bounds.Basic

/-!
# Scanning a curve

The scan of a curve stops at the first neighbours around a position.  Whatever the order of
the keys, the value is one of theirs or a blend of two neighbours between which the position
lies, so a curve is never continued beyond its keys.
-/

namespace LimbAnimation.Curve

open Single (InUnit)

theorem queried_inUnit (query : Single) : InUnit (queried query) := by
  unfold queried
  split
  next => exact Single.inUnit_zero
  next isNumber => exact Single.clampUnit_inUnit (Bool.not_eq_true _ ▸ isNumber)

theorem queried_of_inUnit {query : Single} (inUnit : InUnit query) : queried query = query := by
  rw [queried, inUnit.isNaN, if_neg Bool.false_ne_true, Single.clampUnit_of_inUnit inUnit]

variable {α : Type}

/-- A key and the one that is stored next. -/
structure Neighbours (keys : List (Key α)) (index : Nat) (before after : Key α) : Prop where
  before : keys[index]? = some before
  after : keys[index + 1]? = some after

/-- Where the keys are stored that lie, with the next one, around a position. -/
def bracketing (keys : List (Key α)) (position : Single) : Set Nat :=
  { index | ∃ before after, Neighbours keys index before after ∧ Brackets before after position }

section Bracketing

variable {first second : Key α} {rest : List (Key α)} {position : Single} {index : Nat}

theorem Neighbours.mem_before {keys : List (Key α)} {before after : Key α}
    (neighbours : Neighbours keys index before after) : before ∈ keys :=
  List.mem_of_getElem? neighbours.before

theorem Neighbours.mem_after {keys : List (Key α)} {before after : Key α}
    (neighbours : Neighbours keys index before after) : after ∈ keys :=
  List.mem_of_getElem? neighbours.after

theorem bracketing_nil : bracketing ([] : List (Key α)) position = ∅ := by
  refine Set.eq_empty_iff_forall_notMem.mpr fun index member => ?_
  obtain ⟨before, after, neighbours, _⟩ := member
  cases neighbours.before

theorem bracketing_singleton : bracketing [first] position = ∅ := by
  refine Set.eq_empty_iff_forall_notMem.mpr fun index member => ?_
  obtain ⟨before, after, neighbours, _⟩ := member
  cases neighbours.after

theorem zero_mem_bracketing :
    0 ∈ bracketing (first :: second :: rest) position ↔ Brackets first second position := by
  constructor
  · rintro ⟨before, after, ⟨⟨⟩, ⟨⟩⟩, around⟩
    exact around
  · intro around
    exact ⟨first, second, ⟨rfl, rfl⟩, around⟩

theorem succ_mem_bracketing :
    index + 1 ∈ bracketing (first :: rest) position ↔ index ∈ bracketing rest position := by
  constructor
  · rintro ⟨before, after, ⟨here, next⟩, around⟩
    exact ⟨before, after, ⟨here, next⟩, around⟩
  · rintro ⟨before, after, ⟨here, next⟩, around⟩
    exact ⟨before, after, ⟨here, next⟩, around⟩

end Bracketing

theorem exists_key_of_last? {curve : Curve α} {value : α} (last : curve.last? = some value) :
    ∃ key ∈ curve.keys, value = key.value := by
  obtain ⟨key, found, rfl⟩ := Option.map_eq_some_iff.mp last
  exact ⟨key, List.mem_of_getLast? found, rfl⟩

variable [Blendable α]

/-- The scan finds the first neighbours around a position, if there are any. -/
theorem scan?_cases (position : Single) (keys : List (Key α)) :
    (bracketing keys position = ∅ ∧ scan? position keys = none) ∨
      ∃ index before after, IsLeast (bracketing keys position) index ∧
        Neighbours keys index before after ∧ Brackets before after position ∧
        scan? position keys = some (within before after position) := by
  induction keys with
  | nil => exact .inl ⟨bracketing_nil, rfl⟩
  | cons first rest ih =>
      cases rest with
      | nil => exact .inl ⟨bracketing_singleton, rfl⟩
      | cons second rest =>
          rw [scan?]
          by_cases around : Brackets first second position
          · rw [if_pos around]
            have least : IsLeast (bracketing (first :: second :: rest) position) 0 :=
              ⟨zero_mem_bracketing.mpr around, fun _ _ => Nat.zero_le _⟩
            exact .inr ⟨0, first, second, least, ⟨rfl, rfl⟩, around, rfl⟩
          · rw [if_neg around]
            rcases ih with ⟨nowhere, scanned⟩ | ⟨index, before, after, least, neighbours, found⟩
            · refine .inl ⟨Set.eq_empty_iff_forall_notMem.mpr fun index member => ?_, scanned⟩
              cases index with
              | zero => exact around (zero_mem_bracketing.mp member)
              | succ index =>
                  have later := succ_mem_bracketing.mp member
                  rw [nowhere] at later
                  exact later
            · refine .inr ⟨index + 1, before, after, ⟨succ_mem_bracketing.mpr least.1, ?_⟩,
                ⟨neighbours.before, neighbours.after⟩, found⟩
              intro other member
              cases other with
              | zero => exact absurd (zero_mem_bracketing.mp member) around
              | succ other => exact Nat.succ_le_succ (least.2 (succ_mem_bracketing.mp member))

section Values

variable {curve : Curve α} {query : Single}

theorem valueAt?_of_two {first second : Key α} {rest : List (Key α)}
    (keys : curve.keys = first :: second :: rest) :
    curve.valueAt? query = (scan? (queried query) curve.keys).or
      (if queried query ≤ first.position then some first.value else curve.last?) := by
  rw [valueAt?, keys]

/-- The first neighbours around the position give the value. -/
theorem valueAt?_of_isLeast {index : Nat} {before after : Key α}
    (least : IsLeast (bracketing curve.keys (queried query)) index)
    (neighbours : Neighbours curve.keys index before after) :
    curve.valueAt? query = some (within before after (queried query)) := by
  rcases scan?_cases (queried query) curve.keys with
    ⟨nowhere, _⟩ | ⟨found, before', after', foundLeast, foundNeighbours, _, scanned⟩
  · exact absurd least.1 (nowhere ▸ Set.notMem_empty index)
  · cases foundLeast.unique least
    cases foundNeighbours.before.symm.trans neighbours.before
    cases foundNeighbours.after.symm.trans neighbours.after
    match keys : curve.keys with
    | [] => cases keys ▸ neighbours.before
    | [only] => cases keys ▸ neighbours.after
    | first :: second :: rest => rw [valueAt?_of_two keys, scanned, Option.some_or]

/-- Where no neighbours lie around the position, an end of the curve gives the value. -/
theorem valueAt?_of_not_bracketed {first : Key α} {rest : List (Key α)}
    (nowhere : bracketing curve.keys (queried query) = ∅) (keys : curve.keys = first :: rest) :
    curve.valueAt? query =
      if queried query ≤ first.position then some first.value else curve.last? := by
  cases rest with
  | nil =>
      have last : curve.last? = some first.value := by rw [last?, keys]; rfl
      rw [last, ite_self, valueAt?, keys]
  | cons second rest =>
      rcases scan?_cases (queried query) curve.keys with
        ⟨_, scanned⟩ | ⟨index, _, _, least, _⟩
      · rw [valueAt?_of_two keys, scanned, Option.none_or]
      · exact absurd least.1 (nowhere ▸ Set.notMem_empty index)

theorem valueAt?_eq_none_iff : curve.valueAt? query = none ↔ curve.keys = [] := by
  constructor
  · intro nothing
    cases keys : curve.keys with
    | nil => rfl
    | cons first rest =>
        rcases scan?_cases (queried query) curve.keys with
          ⟨nowhere, _⟩ | ⟨_, _, _, least, neighbours, _⟩
        · have last : ∃ value, curve.last? = some value := by
            simp [last?, keys, List.getLast?_cons]
          obtain ⟨value, last⟩ := last
          rw [valueAt?_of_not_bracketed nowhere keys, last] at nothing
          split at nothing <;> cases nothing
        · rw [valueAt?_of_isLeast least neighbours] at nothing
          cases nothing
  · intro keys
    rw [valueAt?, keys]

end Values

theorem shortestSegment_nonnegative : 0 ≤ shortestSegment := by
  rw [shortestSegment, Single.ofRatio]
  exact Single.le_iff.mpr
    ⟨0, _, Single.rank?_zero, Single.rank?_ofUnits _ _ _, Int.natCast_nonneg _⟩

/-- What two neighbours can give at a position: the value of one of them or, strictly between
them, a blend of both. -/
inductive Gives (before after : Key α) (position : Single) : α → Prop where
  | before : Gives before after position before.value
  | after : Gives before after position after.value
  | between {weight : Single} :
      before.position < position → position < after.position → InUnit weight →
      Gives before after position (Blendable.blend before.value after.value weight)

theorem within_gives {before after : Key α} {position : Single}
    (around : Brackets before after position) (inUnit : InUnit position)
    (beforeFinite : before.position.isFinite = true)
    (afterFinite : after.position.isFinite = true) :
    Gives before after position (within before after position) := by
  obtain ⟨above, below⟩ := around
  unfold within
  dsimp only
  split
  next => exact .after
  next notAtEnd =>
      obtain ⟨long, notAfter⟩ := not_or.mp notAtEnd
      split
      next => exact .before
      next notBefore =>
          have beyond : before.position < position := by
            refine (Single.lt_or_equals_of_le above).resolve_right fun same => notBefore ?_
            rwa [Single.equals_comm]
          have ahead : position < after.position :=
            (Single.lt_or_equals_of_le below).resolve_right notAfter
          have nonnegative : 0 ≤ after.position - before.position :=
            Single.sub_nonnegative (Single.le_trans above below) afterFinite beforeFinite
          have apart : 0 < after.position - before.position := by
            refine Decidable.byContradiction fun notApart => long ?_
            have atMost := Single.le_of_not_lt (Single.isNaN_of_le nonnegative) Single.zero_isNaN
              notApart
            exact Single.le_trans atMost shortestSegment_nonnegative
          exact .between beyond ahead
            (Single.sub_div_sub_inUnit inUnit above below beforeFinite afterFinite apart)

/-- A curve with keys has a value everywhere: that of a key, or a blend of two neighbours
strictly between which the position lies.  Neighbours around the position are asked in the
order in which they are stored, also when that is not the order of their positions. -/
theorem valueAt?_never_extrapolates {curve : Curve α}
    (finite : ∀ key ∈ curve.keys, key.position.isFinite = true) (query : Single) :
    (curve.valueAt? query = none ↔ curve.keys = []) ∧
      (∀ value, curve.valueAt? query = some value →
        (∃ key ∈ curve.keys, value = key.value) ∨
          ∃ index before after weight, Neighbours curve.keys index before after ∧
            before.position < queried query ∧ queried query < after.position ∧
            InUnit weight ∧ value = Blendable.blend before.value after.value weight) ∧
      ((bracketing curve.keys (queried query)).Nonempty →
        ∃ index before after value, IsLeast (bracketing curve.keys (queried query)) index ∧
          Neighbours curve.keys index before after ∧ curve.valueAt? query = some value ∧
          Gives before after (queried query) value) := by
  refine ⟨valueAt?_eq_none_iff, ?_, ?_⟩
  · intro value given
    rcases scan?_cases (queried query) curve.keys with
      ⟨nowhere, _⟩ | ⟨index, before, after, least, neighbours, around, _⟩
    · left
      cases keys : curve.keys with
      | nil =>
          rw [valueAt?_eq_none_iff.mpr keys] at given
          cases given
      | cons first rest =>
          rw [valueAt?_of_not_bracketed nowhere keys] at given
          rw [← keys]
          split at given
          · cases given
            exact ⟨first, by simp [keys], rfl⟩
          · exact exists_key_of_last? given
    · rw [valueAt?_of_isLeast least neighbours] at given
      cases given
      have gives := within_gives around (queried_inUnit query) (finite _ neighbours.mem_before)
        (finite _ neighbours.mem_after)
      generalize within before after (queried query) = value at gives
      cases gives with
      | before => exact .inl ⟨before, neighbours.mem_before, rfl⟩
      | after => exact .inl ⟨after, neighbours.mem_after, rfl⟩
      | between beyond ahead inUnit =>
          exact .inr ⟨index, before, after, _, neighbours, beyond, ahead, inUnit, rfl⟩
  · intro somewhere
    rcases scan?_cases (queried query) curve.keys with
      ⟨nowhere, _⟩ | ⟨index, before, after, least, neighbours, around, _⟩
    · exact absurd somewhere (nowhere ▸ Set.not_nonempty_empty)
    · exact ⟨index, before, after, _, least, neighbours, valueAt?_of_isLeast least neighbours,
        within_gives around (queried_inUnit query) (finite _ neighbours.mem_before)
          (finite _ neighbours.mem_after)⟩

/-- Keys in another order than that of their positions. -/
theorem valueAt?_never_extrapolates_of_turned_keys :
    let curve : Curve Single := ⟨[⟨5, Single.half⟩, ⟨0, 0⟩, ⟨10, 1⟩]⟩
    let query := Single.ofRatio false 3 4
    (∀ key ∈ curve.keys, key.position.isFinite = true) ∧
      (bracketing curve.keys (queried query)).Nonempty ∧
      ∃ index before after value, IsLeast (bracketing curve.keys (queried query)) index ∧
        Neighbours curve.keys index before after ∧ curve.valueAt? query = some value ∧
        Gives before after (queried query) value := by
  intro curve query
  have facts : (∀ key ∈ curve.keys, key.position.isFinite = true) ∧
      Brackets ⟨(0 : Single), 0⟩ ⟨10, 1⟩ (queried query) := by decide +kernel
  obtain ⟨finite, around⟩ := facts
  have somewhere : (bracketing curve.keys (queried query)).Nonempty :=
    ⟨1, _, _, ⟨rfl, rfl⟩, around⟩
  obtain ⟨_, _, first⟩ := valueAt?_never_extrapolates finite query
  exact ⟨finite, somewhere, first somewhere⟩

end LimbAnimation.Curve
