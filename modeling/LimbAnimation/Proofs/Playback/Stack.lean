import LimbAnimation.Playback.Stack

/-!
# A step of a stack

One pass over a stack parts its playbacks: those that are over leave from the top
to the bottom, and the others stay in their order.  The main playback is the last one
of these.
-/

namespace LimbAnimation.Stack

theorem main?_eq_find? (stack : Stack) :
    stack.main? = stack.playbacks.reverse.find? fun playback => !playback.isOver := by
  rw [main?, unfinished, ← List.head?_eq_getElem?, List.head?_filter]

theorem main?_eq_some_iff {stack : Stack} {main : Playback} :
    stack.main? = some main ↔ ∃ below above, stack.playbacks = below ++ main :: above ∧
      main.isOver = false ∧ ∀ playback ∈ above, playback.isOver = true := by
  rw [main?_eq_find?, List.find?_eq_some_iff_append]
  constructor
  · rintro ⟨unfinished, above, below, reversed, isOver⟩
    refine ⟨below.reverse, above.reverse, ?_, by simpa using unfinished, by simpa using isOver⟩
    rw [← List.reverse_reverse stack.playbacks, reversed]
    simp
  · rintro ⟨below, above, parted, unfinished, isOver⟩
    exact ⟨by simpa using unfinished, above.reverse, below.reverse, by simp [parted],
      by simpa using isOver⟩

theorem main?_eq_none_iff {stack : Stack} :
    stack.main? = none ↔ ∀ playback ∈ stack.playbacks, playback.isOver = true := by
  simp [main?_eq_find?]

theorem sweep_eq (change : Playback → Playback) (left playbacks : List Playback) :
    sweep change left playbacks =
      ((playbacks.filter fun playback => !playback.isOver).map change,
        (playbacks.filter Playback.isOver).reverse ++ left) := by
  induction playbacks generalizing left with
  | nil => rfl
  | cons playback above ih =>
      cases ended : playback.isOver with
      | true => simp [sweep, ended, ih]
      | false => simp [sweep, ended, ih]

theorem advance_left (stack : Stack) (seconds : Single) :
    (stack.advance seconds).left = (stack.playbacks.filter Playback.isOver).reverse := by
  simp [advance, sweep_eq]

theorem advance_playbacks (stack : Stack) (seconds : Single) :
    (stack.advance seconds).stack.playbacks =
      (stack.playbacks.filter fun playback => !playback.isOver).map fun playback =>
        if stack.clockRuns then playback.advanced seconds else playback := by
  simp [advance, sweep_eq]

/-- What a step does not touch is seen as before on the playbacks that stay. -/
theorem advance_stay {β : Type} (view : Playback → β)
    (kept : ∀ playback seconds, view (playback.advanced seconds) = view playback)
    (stack : Stack) (seconds : Single) :
    (stack.advance seconds).stack.playbacks.map view =
      (stack.playbacks.filter fun playback => !playback.isOver).map view := by
  rw [advance_playbacks, List.map_map]
  apply List.map_congr_left
  intro playback _
  by_cases runs : stack.clockRuns <;> simp [runs, kept]

/-- What a step does not touch is parted between the playbacks that stay and those
that leave. -/
theorem advance_parts {β : Type} (view : Playback → β)
    (kept : ∀ playback seconds, view (playback.advanced seconds) = view playback)
    (stack : Stack) (seconds : Single) :
    (stack.playbacks.map view).Perm
      ((stack.advance seconds).stack.playbacks.map view ++
        (stack.advance seconds).left.map view) := by
  have parted : (stack.playbacks.filter Playback.isOver ++
      stack.playbacks.filter fun playback => !playback.isOver).Perm stack.playbacks :=
    List.filter_append_perm Playback.isOver stack.playbacks
  rw [advance_stay view kept, advance_left, ← List.map_append]
  refine (parted.symm.trans ?_).map view
  exact List.perm_append_comm.trans
    (List.Perm.append_left _ (List.reverse_perm _).symm)

end LimbAnimation.Stack
