import LimbAnimation.Single.Basic

/-!
# The order of single precision numbers

Comparisons go through ranks, so a NaN is neither smaller nor larger than anything.
The main statement is about folding `larger` over a list: from a number, it leads
to a largest one.
-/

namespace LimbAnimation.Single

theorem lt_iff {left right : Single} :
    left < right ↔ ∃ low high, left.rank? = some low ∧ right.rank? = some high ∧ low < high := by
  show left.lt right = true ↔ _
  unfold lt
  cases left.rank? <;> cases right.rank? <;> simp

theorem le_iff {left right : Single} :
    left ≤ right ↔ ∃ low high, left.rank? = some low ∧ right.rank? = some high ∧ low ≤ high := by
  show left.le right = true ↔ _
  unfold le
  cases left.rank? <;> cases right.rank? <;> simp

theorem equals_iff {left right : Single} :
    left.equals right = true ↔
      ∃ low high, left.rank? = some low ∧ right.rank? = some high ∧ low = high := by
  unfold equals
  cases left.rank? with
  | none => simp
  | some low =>
      cases right.rank? with
      | none => simp
      | some high =>
          constructor
          · intro same
            exact ⟨low, high, rfl, rfl, eq_of_beq same⟩
          · rintro ⟨_, _, ⟨⟩, ⟨⟩, same⟩
            exact beq_iff_eq.mpr same

theorem exists_rank {number : Single} (isNumber : number.isNaN = false) :
    ∃ rank, number.rank? = some rank := by
  cases number with
  | nan negative payload inRange => cases isNumber
  | infinite negative => exact ⟨_, rfl⟩
  | finite negative magnitude fits => exact ⟨_, rfl⟩

theorem isNaN_of_rank {number : Single} {rank : Int} (ranked : number.rank? = some rank) :
    number.isNaN = false := by
  cases number with
  | nan negative payload inRange => cases ranked
  | infinite negative => rfl
  | finite negative magnitude fits => rfl

theorem lt_irrefl (number : Single) : ¬ number < number := by
  intro smaller
  obtain ⟨low, high, left, right, less⟩ := lt_iff.mp smaller
  rw [left] at right
  cases right
  exact Int.lt_irrefl _ less

theorem lt_asymm {left right : Single} (smaller : left < right) : ¬ right < left := by
  intro larger
  obtain ⟨low, high, leftRank, rightRank, less⟩ := lt_iff.mp smaller
  obtain ⟨low', high', rightRank', leftRank', less'⟩ := lt_iff.mp larger
  rw [rightRank] at rightRank'
  rw [leftRank] at leftRank'
  cases rightRank'
  cases leftRank'
  omega

/-- Not being smaller is transitive as long as the number in the middle is one. -/
theorem not_lt_trans {first second third : Single} (isNumber : second.isNaN = false)
    (firstNot : ¬ first < second) (secondNot : ¬ second < third) : ¬ first < third := by
  intro smaller
  obtain ⟨low, high, firstRank, thirdRank, less⟩ := lt_iff.mp smaller
  obtain ⟨middle, secondRank⟩ := exists_rank isNumber
  have above : ¬ low < middle := fun below =>
    firstNot (lt_iff.mpr ⟨low, middle, firstRank, secondRank, below⟩)
  have beyond : ¬ middle < high := fun below =>
    secondNot (lt_iff.mpr ⟨middle, high, secondRank, thirdRank, below⟩)
  omega

theorem not_lt_of_isNaN {left right : Single} (isNaN : left.isNaN = true) : ¬ left < right := by
  intro smaller
  obtain ⟨low, _, ranked, _⟩ := lt_iff.mp smaller
  rw [isNaN_of_rank ranked] at isNaN
  cases isNaN

theorem not_lt_of_le {left right : Single} (atMost : left ≤ right) : ¬ right < left := by
  intro smaller
  obtain ⟨low, high, leftRank, rightRank, most⟩ := le_iff.mp atMost
  obtain ⟨high', low', rightRank', leftRank', less⟩ := lt_iff.mp smaller
  cases leftRank.symm.trans leftRank'
  cases rightRank.symm.trans rightRank'
  omega

theorem le_trans {first second third : Single} (firstMost : first ≤ second)
    (secondMost : second ≤ third) : first ≤ third := by
  obtain ⟨low, middle, firstRank, secondRank, below⟩ := le_iff.mp firstMost
  obtain ⟨middle', high, secondRank', thirdRank, above⟩ := le_iff.mp secondMost
  cases secondRank.symm.trans secondRank'
  exact le_iff.mpr ⟨low, high, firstRank, thirdRank, Int.le_trans below above⟩

theorem le_of_lt {left right : Single} (smaller : left < right) : left ≤ right := by
  obtain ⟨low, high, leftRank, rightRank, less⟩ := lt_iff.mp smaller
  exact le_iff.mpr ⟨low, high, leftRank, rightRank, Int.le_of_lt less⟩

theorem lt_or_equals_of_le {left right : Single} (atMost : left ≤ right) :
    left < right ∨ left.equals right = true := by
  obtain ⟨low, high, leftRank, rightRank, most⟩ := le_iff.mp atMost
  rcases Int.lt_or_eq_of_le most with less | same
  · exact .inl (lt_iff.mpr ⟨low, high, leftRank, rightRank, less⟩)
  · exact .inr (equals_iff.mpr ⟨low, high, leftRank, rightRank, same⟩)

theorem le_of_equals {left right : Single} (same : left.equals right = true) : left ≤ right := by
  obtain ⟨low, high, leftRank, rightRank, together⟩ := equals_iff.mp same
  exact le_iff.mpr ⟨low, high, leftRank, rightRank, Int.le_of_eq together⟩

theorem equals_comm (left right : Single) : left.equals right = right.equals left := by
  unfold equals
  cases left.rank? with
  | none => cases right.rank? <;> rfl
  | some low =>
      cases right.rank? with
      | none => rfl
      | some high => exact BEq.comm

theorem isNaN_of_le {left right : Single} (atMost : left ≤ right) : right.isNaN = false := by
  obtain ⟨_, _, _, ranked, _⟩ := le_iff.mp atMost
  exact isNaN_of_rank ranked

theorem isNaN_left_of_le {left right : Single} (atMost : left ≤ right) :
    left.isNaN = false := by
  obtain ⟨_, _, ranked, _⟩ := le_iff.mp atMost
  exact isNaN_of_rank ranked

theorem le_of_not_lt {left right : Single} (leftNumber : left.isNaN = false)
    (rightNumber : right.isNaN = false) (notSmaller : ¬ right < left) : left ≤ right := by
  obtain ⟨low, leftRank⟩ := exists_rank leftNumber
  obtain ⟨high, rightRank⟩ := exists_rank rightNumber
  refine le_iff.mpr ⟨low, high, leftRank, rightRank, Int.not_lt.mp fun less => notSmaller ?_⟩
  exact lt_iff.mpr ⟨high, low, rightRank, leftRank, less⟩

theorem lt_of_not_le {left right : Single} (leftNumber : left.isNaN = false)
    (rightNumber : right.isNaN = false) (notAtMost : ¬ left ≤ right) : right < left :=
  Decidable.byContradiction fun notSmaller =>
    notAtMost (le_of_not_lt leftNumber rightNumber notSmaller)

theorem equals_self {number : Single} (isNumber : number.isNaN = false) :
    number.equals number = true := by
  obtain ⟨rank, ranked⟩ := exists_rank isNumber
  exact equals_iff.mpr ⟨rank, rank, ranked, ranked, rfl⟩

theorem equals_of_lt {left right : Single} (smaller : left < right) :
    left.equals right = false := by
  obtain ⟨low, high, leftRank, rightRank, less⟩ := lt_iff.mp smaller
  simp only [equals, leftRank, rightRank, beq_eq_false_iff_ne]
  exact Int.ne_of_lt less

theorem le_refl {number : Single} (isNumber : number.isNaN = false) : number ≤ number :=
  le_of_not_lt isNumber isNumber (lt_irrefl number)

theorem ofUnits_isNaN (negative : Bool) (numerator denominator : Nat) :
    (ofUnits negative numerator denominator).isNaN = false := by
  unfold ofUnits
  split <;> rfl

theorem ofNat_isNaN (value : Nat) : (ofNat value).isNaN = false := ofUnits_isNaN _ _ _

theorem zero_isNaN : (0 : Single).isNaN = false := ofNat_isNaN 0

theorem rank?_zero : (0 : Single).rank? = some 0 := rfl

theorem rank?_one : (1 : Single).rank? = some unitsPerOne := rfl

theorem infinite_negative : infinite true < 0 :=
  lt_iff.mpr ⟨_, 0, rfl, rank?_zero, by decide⟩

theorem infinite_positive : 0 < infinite false :=
  lt_iff.mpr ⟨0, _, rank?_zero, rfl, by decide⟩

theorem infinite_nonnegative : 0 ≤ infinite false := le_of_lt infinite_positive

/-- Numbers of the unit interval; a NaN is none of them. -/
structure InUnit (value : Single) : Prop where
  nonnegative : 0 ≤ value
  atMostOne : value ≤ 1

theorem inUnit_iff {value : Single} :
    InUnit value ↔ ∃ rank, value.rank? = some rank ∧ 0 ≤ rank ∧ rank ≤ unitsPerOne := by
  constructor
  · rintro ⟨nonnegative, atMostOne⟩
    obtain ⟨zero, rank, zeroRank, ranked, above⟩ := le_iff.mp nonnegative
    obtain ⟨rank', one, ranked', oneRank, below⟩ := le_iff.mp atMostOne
    cases rank?_zero.symm.trans zeroRank
    cases rank?_one.symm.trans oneRank
    cases ranked.symm.trans ranked'
    exact ⟨rank, ranked, above, below⟩
  · rintro ⟨rank, ranked, above, below⟩
    exact ⟨le_iff.mpr ⟨0, rank, rank?_zero, ranked, above⟩,
      le_iff.mpr ⟨rank, _, ranked, rank?_one, below⟩⟩

theorem InUnit.isNaN {value : Single} (inUnit : InUnit value) : value.isNaN = false := by
  obtain ⟨rank, ranked, _⟩ := inUnit_iff.mp inUnit
  exact isNaN_of_rank ranked

theorem inUnit_zero : InUnit 0 := inUnit_iff.mpr ⟨0, rank?_zero, by decide, by decide⟩

theorem inUnit_one : InUnit 1 := inUnit_iff.mpr ⟨_, rank?_one, by decide, Int.le_refl _⟩

theorem clampUnit_cases (value : Single) :
    (value.clampUnit = value ∧ ¬ value < 0 ∧ ¬ 1 < value) ∨
      (value.clampUnit = 0 ∧ value < 0) ∨ (value.clampUnit = 1 ∧ 1 < value) := by
  have ordered : ¬ (1 : Single) < 0 := not_lt_of_le inUnit_one.nonnegative
  unfold clampUnit clamp
  dsimp only
  by_cases below : value < 0
  · exact .inr (.inl ⟨by rw [if_pos below, if_neg ordered], below⟩)
  · by_cases above : 1 < value
    · exact .inr (.inr ⟨by rw [if_neg below, if_pos above], above⟩)
    · exact .inl ⟨by rw [if_neg below, if_neg above], below, above⟩

theorem clampUnit_ranged (value : Single) :
    value.clampUnit.isNaN = true ∨ InUnit value.clampUnit := by
  rcases clampUnit_cases value with ⟨same, notBelow, notAbove⟩ | ⟨zero, _⟩ | ⟨one, _⟩
  · rw [same]
    cases isNumber : value.isNaN with
    | true => exact .inl rfl
    | false =>
        exact .inr ⟨le_of_not_lt zero_isNaN isNumber notBelow,
          le_of_not_lt isNumber (ofNat_isNaN 1) notAbove⟩
  · exact .inr (zero ▸ inUnit_zero)
  · exact .inr (one ▸ inUnit_one)

theorem clampUnit_of_inUnit {value : Single} (inUnit : InUnit value) : value.clampUnit = value := by
  rcases clampUnit_cases value with ⟨same, _⟩ | ⟨_, below⟩ | ⟨_, above⟩
  · exact same
  · exact absurd below (not_lt_of_le inUnit.nonnegative)
  · exact absurd above (not_lt_of_le inUnit.atMostOne)

/-- Clamping does not lift a value above a number of the unit interval. -/
theorem not_lt_clampUnit {bound value : Single} (inUnit : InUnit bound)
    (notAbove : ¬ bound < value) : ¬ bound < value.clampUnit := by
  rcases clampUnit_cases value with ⟨same, _⟩ | ⟨zero, _⟩ | ⟨_, beyond⟩
  · rwa [same]
  · rw [zero]
    exact not_lt_of_le inUnit.nonnegative
  · exact absurd beyond (not_lt_trans inUnit.isNaN (not_lt_of_le inUnit.atMostOne) notAbove)

/-- Nor does it push a value below one. -/
theorem le_clampUnit {bound value : Single} (inUnit : InUnit bound) (atMost : bound ≤ value) :
    bound ≤ value.clampUnit := by
  rcases clampUnit_cases value with ⟨same, _⟩ | ⟨_, below⟩ | ⟨one, _⟩
  · rwa [same]
  · exact absurd below (not_lt_of_le (le_trans inUnit.nonnegative atMost))
  · rw [one]
    exact inUnit.atMostOne

/-- What `larger` gives, from a number on the left. -/
theorem larger_cases {left : Single} (isNumber : left.isNaN = false) (right : Single) :
    (left.larger right = left ∧ ¬ left < right) ∨ (left.larger right = right ∧ left < right) := by
  by_cases smaller : left < right
  · exact .inr ⟨by simp [larger, smaller], smaller⟩
  · exact .inl ⟨by simp [larger, smaller, isNumber], smaller⟩

theorem larger_isNaN {left : Single} (isNumber : left.isNaN = false) (right : Single) :
    (left.larger right).isNaN = false := by
  rcases larger_cases isNumber right with ⟨same, _⟩ | ⟨same, smaller⟩
  · rw [same, isNumber]
  · obtain ⟨_, rank, _, ranked, _⟩ := lt_iff.mp smaller
    rw [same, isNaN_of_rank ranked]

/-- A NaN on the left gives way. -/
theorem le_larger {right : Single} (isNumber : right.isNaN = false) (left : Single) :
    right ≤ left.larger right := by
  unfold larger
  split
  next => exact le_refl isNumber
  next neither =>
      rw [not_or] at neither
      exact le_of_not_lt isNumber (Bool.eq_false_iff.mpr neither.1) neither.2

/-- The number is the first one or stands in the list, and nothing there is larger;
a NaN in the list does not count. -/
structure IsLargest (first : Single) (others : List Single) (number : Single) : Prop where
  attained : number = first ∨ number ∈ others
  first : ¬ number < first
  others : ∀ other ∈ others, ¬ number < other

/-- The largest one of some numbers that are not negative. -/
theorem IsLargest.bounds {others : List Single} {number : Single}
    (largest : IsLargest 0 others number) (nonnegative : ∀ other ∈ others, 0 ≤ other) :
    0 ≤ number ∧ ∀ other ∈ others, other ≤ number := by
  have isNumber : number.isNaN = false := by
    rcases largest.attained with rfl | member
    · exact zero_isNaN
    · exact isNaN_of_le (nonnegative number member)
  refine ⟨le_of_not_lt zero_isNaN isNumber largest.first, fun other member => ?_⟩
  exact le_of_not_lt (isNaN_of_le (nonnegative other member)) isNumber
    (largest.others other member)

theorem isLargest_foldl_larger {first : Single} (isNumber : first.isNaN = false)
    (others : List Single) : IsLargest first others (others.foldl larger first) := by
  induction others generalizing first with
  | nil => exact ⟨.inl rfl, lt_irrefl first, by simp⟩
  | cons other rest ih =>
      have next := larger_isNaN isNumber other
      obtain ⟨attained, notFirst, notOthers⟩ := ih next
      rw [List.foldl_cons]
      rcases larger_cases isNumber other with ⟨same, notSmaller⟩ | ⟨same, smaller⟩
      · rw [same] at attained notFirst notOthers ⊢
        refine ⟨attained.imp_right (List.mem_cons_of_mem _), notFirst, ?_⟩
        rw [List.forall_mem_cons]
        exact ⟨not_lt_trans isNumber notFirst notSmaller, notOthers⟩
      · rw [same] at next attained notFirst notOthers ⊢
        refine ⟨.inr (List.mem_cons.mpr attained), ?_, ?_⟩
        · exact not_lt_trans next notFirst (lt_asymm smaller)
        · rw [List.forall_mem_cons]
          exact ⟨notFirst, notOthers⟩

end LimbAnimation.Single
