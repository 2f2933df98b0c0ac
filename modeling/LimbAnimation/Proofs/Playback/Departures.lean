import LimbAnimation.Proofs.Playback.Stack
import Mathlib.Data.List.Induction

/-!
# Who leaves a stack in a step

A step takes the playbacks that are over off the stack and moves the others.  The same
comes of a walk that visits one place after the other, from the top to the bottom, and
changes the stack in place: what leaves shifts only places that were visited before.
-/

namespace LimbAnimation.Stack

/-- The playback after a step in which it stays. -/
def moved (stack : Stack) (seconds : Single) (playback : Playback) : Playback :=
  { playback with
    timer := if stack.clockRuns then playback.timer + seconds * playback.speed
      else playback.timer }

/-- A stack in the middle of a step: who is on it, and who has left it so far. -/
structure Walk where
  present : List Playback
  left : List Playback

namespace Walk

/-- A visit to one place: a playback that is over leaves, any other one changes. -/
def visit (change : Playback → Playback) (walk : Walk) (place : Nat) : Walk :=
  match walk.present[place]? with
  | none => walk
  | some playback =>
    if playback.isOver then ⟨walk.present.eraseIdx place, walk.left ++ [playback]⟩
    else ⟨walk.present.set place (change playback), walk.left⟩

/-- Visits to all places below a bound, the highest first. -/
def descend (change : Playback → Playback) : (bound : Nat) → Walk → Walk
  | 0, walk => walk
  | place + 1, walk => descend change place (walk.visit change place)

variable (change : Playback → Playback) (below above left : List Playback) (playback : Playback)

theorem visit_over (isOver : playback.isOver = true) :
    visit change ⟨below ++ playback :: above, left⟩ below.length =
      ⟨below ++ above, left ++ [playback]⟩ := by
  have erased : (below ++ playback :: above).eraseIdx below.length = below ++ above := by
    rw [List.eraseIdx_append_of_length_le (Nat.le_refl _), Nat.sub_self, List.eraseIdx_cons_zero]
  simp [visit, isOver, erased]

theorem visit_unfinished (unfinished : playback.isOver = false) :
    visit change ⟨below ++ playback :: above, left⟩ below.length =
      ⟨below ++ change playback :: above, left⟩ := by
  simp [visit, unfinished]

/-- What stands above the places to be visited is not touched any more. -/
theorem descend_eq :
    descend change below.length ⟨below ++ above, left⟩ =
      ⟨(below.filter fun playback => !playback.isOver).map change ++ above,
        left ++ (below.filter Playback.isOver).reverse⟩ := by
  induction below using List.reverseRecOn generalizing above left with
  | nil => simp [descend]
  | append_singleton below playback ih =>
      rw [List.length_append, List.length_singleton, descend, List.append_assoc,
        List.singleton_append]
      cases ended : playback.isOver with
      | true =>
          rw [visit_over change below above left playback ended, ih]
          simp [ended]
      | false =>
          rw [visit_unfinished change below above left playback ended, ih]
          simp [ended]

end Walk

theorem advance_stack (stack : Stack) (seconds : Single) :
    (stack.advance seconds).stack =
      ⟨(stack.playbacks.filter fun playback => !playback.isOver).map (stack.moved seconds),
        stack.clockRuns⟩ := by
  have same : (fun playback => if stack.clockRuns then Playback.advanced playback seconds
      else playback) = stack.moved seconds := by
    funext playback
    cases runs : stack.clockRuns <;> simp [moved, Playback.advanced, runs]
  have playbacks := advance_playbacks stack seconds
  rw [same] at playbacks
  rw [← playbacks]
  rfl

/-- The next step takes off those who came to their end in this one. -/
theorem advance_advance_left (stack : Stack) (seconds later : Single) :
    ((stack.advance seconds).stack.advance later).left =
      ((stack.playbacks.filter fun playback =>
        !playback.isOver && (stack.moved seconds playback).isOver).map
          (stack.moved seconds)).reverse := by
  rw [advance_left, advance_stack, List.filter_map, List.filter_filter]
  congr 3
  funext playback
  exact Bool.and_comm _ _

/-- A step reports the playbacks that are over, from the top to the bottom, each with its id,
its key and the timer it had, and tells those who wait for one of them in the same order.
All others stay in their order and move by the time at their own speed, if the clock runs;
one that comes to its end in this way leaves with the next step.  The walk through the
stack from the top to the bottom, which changes it in place, does the same. -/
theorem advance_removes_finished_and_moves_rest (stack : Stack) (seconds : Single) :
    let step := stack.advance seconds
    let finished := stack.playbacks.reverse.filter Playback.isOver
    let record (playback : Playback) : Ended :=
      ⟨playback.id, playback.clip.key, playback.timer⟩
    step.left = finished ∧
      step.ended = finished.map record ∧
      step.announced = (finished.filter Playback.awaited).map record ∧
      step.stack.playbacks =
        (stack.playbacks.filter fun playback => !playback.isOver).map (stack.moved seconds) ∧
      step.stack.clockRuns = stack.clockRuns ∧
      (∀ later, (step.stack.advance later).left =
        ((stack.playbacks.filter fun playback =>
          !playback.isOver && (stack.moved seconds playback).isOver).map
            (stack.moved seconds)).reverse) ∧
      Walk.descend (stack.moved seconds) stack.playbacks.length ⟨stack.playbacks, []⟩ =
        ⟨step.stack.playbacks, step.left⟩ := by
  intro step finished record
  have left : step.left = finished := by
    rw [advance_left, ← List.filter_reverse]
  have stays : step.stack = _ := advance_stack stack seconds
  have walked := Walk.descend_eq (stack.moved seconds) stack.playbacks [] []
  rw [List.append_nil, List.append_nil, List.nil_append, List.filter_reverse.symm] at walked
  refine ⟨left, ?_, ?_, ?_, ?_, advance_advance_left stack seconds, ?_⟩
  · rw [Step.ended, left]
    rfl
  · rw [Step.announced, left]
    rfl
  · rw [stays]
  · rw [stays]
  · rw [walked, stays, left]

end LimbAnimation.Stack
