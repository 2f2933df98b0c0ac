import LimbAnimation.Proofs.ClipFile.Cut
import LimbAnimation.Proofs.Text.Trim

/-!
# Tokens as runs of a line

A gap of a line is a blank outside all parentheses.  The tokens of a line are the longest
runs without a gap, each at its place, so that nothing but gaps is lost; and tokens with
blanks between them are the ones that the line is cut into.
-/

namespace LimbAnimation.ClipFile

/-- Whether a blank stands at a place of a line, with no parenthesis open in front of it. -/
def isGap (text : List Char) (place : Nat) : Bool :=
  text[place]?.any Text.isBlank && (text.take place).count '(' == (text.take place).count ')'

/-- A longest run of a line without a gap, by the places of its first character and of the
one behind its last. -/
structure IsRun (line : List Char) (start stop : Nat) : Prop where
  nonempty : start < stop
  inside : stop ≤ line.length
  noGap : ∀ place, start ≤ place → place < stop → isGap line place = false
  startsAfter : start = 0 ∨ isGap line (start - 1) = true
  stopsBefore : stop = line.length ∨ isGap line stop = true

/-- All runs of a line, from left to right. -/
structure AreRuns (line : List Char) (runs : List (Nat × Nat)) : Prop where
  mem_iff : ∀ start stop, (start, stop) ∈ runs ↔ IsRun line start stop
  ordered : runs.Pairwise fun earlier later => earlier.2 < later.1

/-- What stands at the places of some runs. -/
def textAt (line : List Char) (runs : List (Nat × Nat)) : List (List Char) :=
  runs.map fun run => line.extract run.1 run.2

def withoutGaps (line : List Char) : List Char :=
  (line.zipIdx.filter fun item => !isGap line item.2).map Prod.fst

/-- Texts in one line, with one blank or more between any two of them. -/
inductive Spaced : List (List Char) → List Char → Prop where
  | nil : Spaced [] []
  | single (text : List Char) : Spaced [text] text
  | cons {text next gap line : List Char} {rest : List (List Char)} :
      gap ≠ [] → Text.AllBlank gap → Spaced (next :: rest) line →
      Spaced (text :: next :: rest) (text ++ gap ++ line)

section Append

variable {front rest : List Char} {place start stop : Nat}

theorem isGap_append_left (inside : place < front.length) (rest : List Char) :
    isGap (front ++ rest) place = isGap front place := by
  rw [isGap, isGap, List.getElem?_append_left inside,
    List.take_append_of_le_length (Nat.le_of_lt inside)]

/-- Closed parentheses in front do not matter. -/
theorem isGap_append_right (closed : front.count ')' = front.count '(') (rest : List Char)
    (place : Nat) : isGap (front ++ rest) (front.length + place) = isGap rest place := by
  have counts : (List.count '(' front + List.count '(' (rest.take place) ==
      List.count ')' front + List.count ')' (rest.take place)) =
        (List.count '(' (rest.take place) == List.count ')' (rest.take place)) := by
    rw [closed, Bool.eq_iff_iff, beq_iff_eq, beq_iff_eq]
    omega
  rw [isGap, isGap, List.getElem?_append_right (Nat.le_add_right _ _), Nat.add_sub_cancel_left,
    List.take_length_add_append, List.count_append, List.count_append, counts]

theorem IsRun.isGap_zero (run : IsRun rest 0 stop) : isGap rest 0 = false :=
  run.noGap 0 (Nat.le_refl 0) run.nonempty

/-- The runs of the rest stay, when there is a gap on one side of where it begins. -/
theorem isRun_append_iff (some : front ≠ []) (closed : front.count ')' = front.count '(')
    (border : isGap (front ++ rest) (front.length - 1) = true ∨ rest = [] ∨ isGap rest 0 = true) :
    IsRun (front ++ rest) (front.length + start) (front.length + stop) ↔ IsRun rest start stop := by
  have length := List.length_pos_iff.mpr some
  have moved := isGap_append_right closed rest
  have startsAfter : start ≠ 0 → front.length + start - 1 = front.length + (start - 1) := by omega
  constructor
  · intro run
    obtain ⟨nonempty, inside, noGap, starts, stops⟩ := run
    rw [List.length_append] at inside stops
    refine ⟨by omega, by omega, ?_, ?_, ?_⟩
    · intro place after before
      rw [← moved]
      exact noGap _ (by omega) (by omega)
    · by_cases first : start = 0
      · exact .inl first
      · rw [startsAfter first, moved] at starts
        exact .inr (starts.resolve_left (by omega))
    · rw [moved] at stops
      exact stops.imp_left (by omega)
  · intro run
    obtain ⟨nonempty, inside, noGap, starts, stops⟩ := run
    have together : (front ++ rest).length = front.length + rest.length := List.length_append
    refine ⟨by omega, by omega, ?_, ?_, ?_⟩
    · intro place after before
      obtain ⟨later, rfl⟩ := Nat.exists_eq_add_of_le (Nat.le_trans (Nat.le_add_right _ _) after)
      rw [moved]
      exact noGap later (by omega) (by omega)
    · refine .inr ?_
      by_cases first : start = 0
      · -- A run that begins with the rest has its gap in front of it.
        rw [first, Nat.add_zero]
        have notAtZero := noGap 0 (by omega) (by omega)
        refine border.resolve_right ?_
        rintro (none | gap)
        · rw [none, List.length_nil] at inside
          omega
        · rw [gap] at notAtZero
          cases notAtZero
      · rw [startsAfter first, moved]
        exact starts.resolve_left first
    · rw [moved]
      exact stops.imp_left (by omega)

theorem withoutGaps_append (closed : front.count ')' = front.count '(') (rest : List Char) :
    withoutGaps (front ++ rest) = withoutGaps front ++ withoutGaps rest := by
  have early : ∀ item ∈ front.zipIdx,
      (!isGap (front ++ rest) item.2) = !isGap front item.2 := by
    intro item member
    rw [isGap_append_left (List.snd_lt_of_mem_zipIdx member)]
  have late : (rest.zipIdx front.length).filter (fun item => !isGap (front ++ rest) item.2) =
      (rest.zipIdx.filter fun item => !isGap rest item.2).map
        fun item => (item.1, front.length + item.2) := by
    rw [List.zipIdx_eq_map_add, List.filter_map]
    simp only [Function.comp_def, isGap_append_right closed]
  rw [withoutGaps, List.zipIdx_append, List.filter_append, List.filter_congr early,
    Nat.zero_add, late, List.map_append, List.map_map]
  rfl

end Append

section Runs

variable {line rest token : List Char} {tokens : List (List Char)} {runs : List (Nat × Nat)}

/-- The places of runs behind some more characters. -/
def shiftedBy (length : Nat) (runs : List (Nat × Nat)) : List (Nat × Nat) :=
  runs.map fun run => (length + run.1, length + run.2)

theorem mem_shiftedBy_iff {length start stop : Nat} :
    (start, stop) ∈ shiftedBy length runs ↔
      ∃ first last, (first, last) ∈ runs ∧ start = length + first ∧ stop = length + last := by
  simp only [shiftedBy, List.mem_map, Prod.mk.injEq, Prod.exists, eq_comm]

theorem textAt_shiftedBy (front rest : List Char) (runs : List (Nat × Nat)) :
    textAt (front ++ rest) (shiftedBy front.length runs) = textAt rest runs := by
  simp only [textAt, shiftedBy, List.map_map]
  apply List.map_congr_left
  intro run _
  simp only [Function.comp_apply, List.extract_eq_take_drop, Nat.add_sub_add_left,
    List.drop_length_add_append]

theorem ordered_shiftedBy (length : Nat)
    (ordered : runs.Pairwise fun earlier later => earlier.2 < later.1) :
    (shiftedBy length runs).Pairwise fun earlier later => earlier.2 < later.1 := by
  rw [shiftedBy, List.pairwise_map]
  exact ordered.imp fun before => Nat.add_lt_add_left before length

theorem isGap_blank {blank : Char} (isBlank : Text.isBlank blank = true) (rest : List Char) :
    isGap (blank :: rest) 0 = true := by
  simp [isGap, isBlank]

theorem count_of_isBlank {blank : Char} (isBlank : Text.isBlank blank = true) :
    [blank].count ')' = [blank].count '(' := by
  have other : ∀ parenthesis ∈ ['(', ')'], blank ≠ parenthesis := by
    rintro parenthesis member rfl
    have visible : ∀ parenthesis ∈ ['(', ')'], Text.isBlank parenthesis = false := by
      simp [Text.isBlank]
    rw [visible blank member] at isBlank
    cases isBlank
  rw [List.count_singleton, List.count_singleton, if_neg (by simp [other]),
    if_neg (by simp [other])]

/-- A blank in front begins no run. -/
theorem AreRuns.behindBlank {blank : Char} (isBlank : Text.isBlank blank = true)
    (areRuns : AreRuns rest runs) : AreRuns (blank :: rest) (shiftedBy 1 runs) := by
  have gap := isGap_blank isBlank rest
  refine ⟨?_, ordered_shiftedBy 1 areRuns.ordered⟩
  intro start stop
  have later : ∀ {first last : Nat},
      IsRun (blank :: rest) (1 + first) (1 + last) ↔ IsRun rest first last :=
    isRun_append_iff (List.cons_ne_nil blank []) (count_of_isBlank isBlank) (.inl gap)
  rw [mem_shiftedBy_iff]
  constructor
  · rintro ⟨first, last, member, rfl, rfl⟩
    exact later.mpr ((areRuns.mem_iff first last).mp member)
  · intro run
    have positive : start ≠ 0 := by
      rintro rfl
      rw [run.isGap_zero] at gap
      cases gap
    have longer := run.nonempty
    obtain ⟨first, rfl⟩ := Nat.exists_eq_add_of_le (show 1 ≤ start by omega)
    obtain ⟨last, rfl⟩ := Nat.exists_eq_add_of_le (show 1 ≤ stop by omega)
    exact ⟨first, last, (areRuns.mem_iff first last).mpr (later.mp run), rfl, rfl⟩

theorem IsToken.isGap_eq_false (isToken : IsToken token) {place : Nat}
    (inside : place < token.length) : isGap token place = false := by
  rw [isGap, Bool.and_eq_false_imp, List.getElem?_eq_getElem inside, Option.any_some]
  intro isBlank
  have cut : token = token.take place ++ token[place] :: token.drop (place + 1) := by
    rw [← List.drop_eq_getElem_cons inside, List.take_append_drop]
  have unclosed := isToken.whole _ _ _ cut isBlank
  rw [beq_eq_false_iff_ne]
  omega

/-- A token in front is a run, and the runs behind it stay. -/
theorem AreRuns.behindToken (isToken : IsToken token)
    (ends : ∀ next ∈ rest.head?, Text.isBlank next = true) (areRuns : AreRuns rest runs) :
    AreRuns (token ++ rest) ((0, token.length) :: shiftedBy token.length runs) := by
  have border : rest = [] ∨ isGap rest 0 = true := by
    cases rest with
    | nil => exact .inl rfl
    | cons next others => exact .inr (isGap_blank (ends next rfl) others)
  have closed := isToken.balanced.closed
  have together : (token ++ rest).length = token.length + rest.length := List.length_append
  have behind : rest = [] ∨ isGap (token ++ rest) token.length = true := by
    rwa [← isGap_append_right closed rest 0, Nat.add_zero] at border
  have within : ∀ place, place < token.length → isGap (token ++ rest) place = false := by
    intro place inside
    rw [isGap_append_left inside, isToken.isGap_eq_false inside]
  have later : ∀ {first last : Nat},
      IsRun (token ++ rest) (token.length + first) (token.length + last) ↔ IsRun rest first last :=
    isRun_append_iff isToken.nonempty closed (.inr border)
  have first : IsRun (token ++ rest) 0 token.length := by
    refine ⟨List.length_pos_iff.mpr isToken.nonempty, by omega, fun place _ => within place,
      .inl rfl, ?_⟩
    rcases behind with none | gap
    · exact .inl (by rw [none, List.append_nil])
    · exact .inr gap
  constructor
  · intro start stop
    rw [List.mem_cons, mem_shiftedBy_iff, Prod.mk.injEq]
    constructor
    · rintro (⟨rfl, rfl⟩ | ⟨start, stop, member, rfl, rfl⟩)
      · exact first
      · exact later.mpr ((areRuns.mem_iff start stop).mp member)
    · intro run
      obtain ⟨nonempty, inside, noGap, starts, stops⟩ := run
      by_cases early : start < token.length
      · -- A run that begins in the token is the token.
        refine .inl ⟨?_, ?_⟩
        · refine starts.resolve_right ?_
          rw [within _ (by omega)]
          exact Bool.false_ne_true
        · apply Nat.le_antisymm
          · apply Nat.le_of_not_lt
            intro beyond
            rcases behind with none | gap
            · have empty : rest.length = 0 := List.length_eq_zero_iff.mpr none
              omega
            · rw [noGap _ (Nat.le_of_lt early) beyond] at gap
              cases gap
          · apply Nat.le_of_not_lt
            intro before
            rcases stops with atEnd | gap
            · omega
            · rw [within stop before] at gap
              cases gap
      · obtain ⟨first, rfl⟩ := Nat.exists_eq_add_of_le (Nat.le_of_not_lt early)
        obtain ⟨last, rfl⟩ := Nat.exists_eq_add_of_le (show token.length ≤ stop by omega)
        have same := later.mp ⟨nonempty, inside, noGap, starts, stops⟩
        exact .inr ⟨first, last, (areRuns.mem_iff first last).mpr same, rfl, rfl⟩
  · refine List.pairwise_cons.mpr ⟨?_, ordered_shiftedBy token.length areRuns.ordered⟩
    rintro ⟨start, stop⟩ member
    obtain ⟨begin, last, isPlace, rfl, rfl⟩ := mem_shiftedBy_iff.mp member
    have run := (areRuns.mem_iff begin last).mp isPlace
    have positive : begin ≠ 0 := by
      rintro rfl
      rcases border with none | gap
      · have inside := run.inside
        have nonempty := run.nonempty
        rw [none, List.length_nil] at inside
        omega
      · rw [run.isGap_zero] at gap
        cases gap
    show token.length < token.length + begin
    omega

theorem areRuns_nil : AreRuns [] [] := by
  refine ⟨?_, .nil⟩
  intro start stop
  constructor
  · exact fun member => nomatch member
  · intro run
    have inside := run.inside
    have nonempty := run.nonempty
    rw [List.length_nil] at inside
    omega

/-- A line is cut into its runs. -/
theorem Cuts.exists_areRuns (cuts : Cuts line tokens) :
    ∃ runs, AreRuns line runs ∧ tokens = textAt line runs := by
  induction cuts with
  | nil => exact ⟨[], areRuns_nil, rfl⟩
  | @blank blank rest tokens isBlank _ ih =>
      obtain ⟨runs, areRuns, same⟩ := ih
      refine ⟨_, areRuns.behindBlank isBlank, ?_⟩
      rw [same]
      exact (textAt_shiftedBy [blank] rest runs).symm
  | @token token rest tokens isToken ends _ ih =>
      obtain ⟨runs, areRuns, same⟩ := ih
      refine ⟨_, areRuns.behindToken isToken ends, ?_⟩
      have own : (token ++ rest).extract 0 token.length = token := by
        rw [List.extract_eq_take_drop, List.drop_zero, Nat.sub_zero, List.take_left]
      have later := textAt_shiftedBy token rest runs
      rw [textAt] at later
      rw [textAt, List.map_cons, own, later, same]

theorem Cuts.flatten_eq (cuts : Cuts line tokens) : tokens.flatten = withoutGaps line := by
  induction cuts with
  | nil => rfl
  | @blank blank rest tokens isBlank _ ih =>
      have alone : withoutGaps [blank] = [] := by simp [withoutGaps, isGap_blank isBlank]
      have apart := withoutGaps_append (count_of_isBlank isBlank) rest
      rw [alone, List.nil_append, ← ih] at apart
      exact apart.symm
  | @token token rest tokens isToken _ _ ih =>
      have noGap : ∀ item ∈ token.zipIdx, (!isGap token item.2) = true := by
        intro item member
        rw [isToken.isGap_eq_false (List.snd_lt_of_mem_zipIdx member)]
        rfl
      have whole : withoutGaps token = token := by
        rw [withoutGaps, List.filter_eq_self.mpr noGap, List.zipIdx_map_fst]
      rw [withoutGaps_append isToken.balanced.closed, whole, List.flatten_cons, ih]

theorem Cuts.blanks {gap : List Char} (blank : Text.AllBlank gap) (cuts : Cuts line tokens) :
    Cuts (gap ++ line) tokens := by
  induction gap with
  | nil => exact cuts
  | cons first gap ih =>
      obtain ⟨isBlank, others⟩ := List.forall_mem_cons.mp blank
      exact .blank isBlank (ih others)

theorem Spaced.cuts (spaced : Spaced tokens line) (whole : ∀ token ∈ tokens, IsToken token) :
    Cuts line tokens := by
  induction spaced with
  | nil => exact .nil
  | single token =>
      have alone : Cuts (token ++ []) [token] :=
        .token (whole token List.mem_cons_self) (by simp) .nil
      rwa [List.append_nil] at alone
  | @cons token next gap line rest some blank _ ih =>
      obtain ⟨isToken, others⟩ := List.forall_mem_cons.mp whole
      rw [List.append_assoc]
      refine .token isToken ?_ ((ih others).blanks blank)
      cases gap with
      | nil => exact absurd rfl some
      | cons first gap =>
          intro next atHead
          cases atHead
          exact blank first List.mem_cons_self

/-- Cutting goes through exactly on balanced lines.  The tokens are the runs of the line in
order, so that together they are the line without its gaps; and tokens that stand in a line
with blanks between them are found again. -/
theorem cut_loses_only_gaps (line : List Char) :
    ((cut? line).isSome = true ↔ Balanced line) ∧
      (∀ tokens, cut? line = some tokens →
        (∀ token ∈ tokens, IsToken token) ∧
          (∃ runs, AreRuns line runs ∧ tokens = textAt line runs) ∧
            tokens.flatten = withoutGaps line) ∧
        ∀ tokens, (∀ token ∈ tokens, IsToken token) → Spaced tokens line →
          cut? line = some tokens := by
  refine ⟨cut?_isSome_iff, ?_, ?_⟩
  · intro tokens cut
    have cuts := cut?_eq_some_iff.mp cut
    exact ⟨cuts.isToken, cuts.exists_areRuns, cuts.flatten_eq⟩
  · intro tokens whole spaced
    exact cut?_eq_some_iff.mpr (spaced.cuts whole)

end Runs

end LimbAnimation.ClipFile
