import LimbAnimation.Proofs.Playback.Stack
import LimbAnimation.Proofs.Stage.History
import Mathlib.Data.List.Perm.Basic

/-!
# The accounts of a run

Every performance that has begun is at each moment in exactly one place: on a
stack, reported as ended, or dropped.  The start of each is reported once, in the
order of the plays and before its end.
-/

namespace LimbAnimation

/-- No end is reported before the start of the same performance. -/
def Preceded (events : List Event) : Prop :=
  ∀ before event behind performance, events = before ++ event :: behind →
    event.ended? = some performance → performance ∈ before.filterMap Event.started?

theorem preceded_nil : Preceded [] := by
  intro before event behind performance cut
  simp at cut

theorem Preceded.append {events more : List Event} (preceded : Preceded events)
    (later : ∀ event ∈ more, ∀ performance, event.ended? = some performance →
      performance ∈ events.filterMap Event.started?) :
    Preceded (events ++ more) := by
  intro before event behind performance cut ends
  rcases List.append_eq_append_iff.mp cut with
    ⟨between, beforeEq, moreEq⟩ | ⟨between, eventsEq, behindEq⟩
  · have member : event ∈ more := by simp [moreEq]
    rw [beforeEq, List.filterMap_append]
    exact List.mem_append_left _ (later event member performance ends)
  · cases between with
    | nil =>
        have member : event ∈ more := by simp [← (show event :: behind = more from behindEq)]
        rw [List.append_nil] at eventsEq
        exact eventsEq ▸ later event member performance ends
    | cons first rest =>
        obtain ⟨rfl, rfl⟩ := List.cons.inj behindEq
        exact preceded before event rest performance eventsEq ends

/-- The accounts of a stage with the given history are in order. -/
structure Balanced (stage : Stage) (history : History) : Prop where
  /-- What has begun is reported in its order; the last starts may still wait. -/
  waiting : ∃ waiting : List Performance,
    stage.pending = waiting.map Performance.start ∧ history.begun = history.started ++ waiting
  /-- What has begun is running, has ended or was dropped. -/
  conserved :
    history.begun.Perm (stage.performances ++ (history.ended ++ history.dropped))
  preceded : Preceded history.events

namespace Balanced

theorem start (timing : Timing) : Balanced (Stage.start timing) .none :=
  ⟨⟨[], rfl, rfl⟩, List.Perm.nil, preceded_nil⟩

/-- Accounts look at what runs and at what waits to be reported only. -/
theorem congr {stage other : Stage} {history : History} (balanced : Balanced stage history)
    (performances : other.performances = stage.performances)
    (pending : other.pending = stage.pending) : Balanced other history :=
  ⟨pending ▸ balanced.waiting, performances ▸ balanced.conserved, balanced.preceded⟩

/-- What waits to be reported are no ends. -/
theorem quiet {stage : Stage} {history : History} (balanced : Balanced stage history) :
    ∀ event ∈ stage.pending, event.ended? = none := by
  intro event member
  obtain ⟨waiting, waits, _⟩ := balanced.waiting
  rw [waits] at member
  obtain ⟨performance, _, rfl⟩ := List.mem_map.mp member
  rfl

/-- A performance begins: it is on a stack and waits to be reported. -/
theorem begin {stage next : Stage} {history : History} {performance : Performance}
    (balanced : Balanced stage history)
    (performances : next.performances.Perm (performance :: stage.performances))
    (pending : next.pending = stage.pending ++ [performance.start]) :
    Balanced next (history ++ ⟨[performance], [], []⟩) := by
  obtain ⟨⟨waiting, waits, begun⟩, conserved, preceded⟩ := balanced
  refine ⟨⟨waiting ++ [performance], ?_, ?_⟩, ?_, ?_⟩
  · rw [pending, waits, List.map_append, List.map_singleton]
  · simp [begun, History.started]
  · have counted : (performance :: history.begun).Perm
        (next.performances ++ (history.ended ++ history.dropped)) :=
      (conserved.cons performance).trans (performances.symm.append_right _)
    have last : (history.begun ++ [performance]).Perm (performance :: history.begun) :=
      List.perm_append_singleton performance history.begun
    simpa [History.ended] using last.trans counted
  · simpa using preceded

/-- Performances are taken from their stacks without a report. -/
theorem drop {stage next : Stage} {history : History} {dropped : List Performance}
    (balanced : Balanced stage history)
    (performances : stage.performances.Perm (next.performances ++ dropped))
    (pending : next.pending = stage.pending) :
    Balanced next (history ++ ⟨[], dropped, []⟩) := by
  obtain ⟨⟨waiting, waits, begun⟩, conserved, preceded⟩ := balanced
  refine ⟨⟨waiting, pending.trans waits, ?_⟩, ?_, ?_⟩
  · simp [begun, History.started]
  · have moved : (stage.performances ++ (history.ended ++ history.dropped)).Perm
        (next.performances ++ (dropped ++ (history.ended ++ history.dropped))) := by
      simpa using performances.append_right (history.ended ++ history.dropped)
    have last : (dropped ++ (history.ended ++ history.dropped)).Perm
        (history.ended ++ (history.dropped ++ dropped)) := by
      rw [← List.append_assoc history.ended]
      exact List.perm_append_comm
    simpa [History.ended] using conserved.trans (moved.trans (last.append_left _))
  · simpa using preceded

/-- A frame reports what waits and then the ends; rejections do not count. -/
theorem report {stage next : Stage} {history : History} {rejections endings : List Event}
    (balanced : Balanced stage history)
    (quiet : ∀ event ∈ rejections, event.started? = none ∧ event.ended? = none)
    (onlyEnds : ∀ event ∈ endings, event.started? = none)
    (performances :
      stage.performances.Perm (next.performances ++ endings.filterMap Event.ended?))
    (pending : next.pending = []) :
    Balanced next (history ++ ⟨[], [], rejections ++ (stage.pending ++ endings)⟩) := by
  have noEndWaits := balanced.quiet
  obtain ⟨⟨waiting, waits, begun⟩, conserved, preceded⟩ := balanced
  have noStart : rejections.filterMap Event.started? = [] :=
    List.filterMap_eq_nil_iff.mpr fun event member => (quiet event member).1
  have noEnd : rejections.filterMap Event.ended? = [] :=
    List.filterMap_eq_nil_iff.mpr fun event member => (quiet event member).2
  have starts : stage.pending.filterMap Event.started? = waiting := by
    rw [waits, List.filterMap_map]
    exact List.filterMap_some
  have endsOnly : endings.filterMap Event.started? = [] :=
    List.filterMap_eq_nil_iff.mpr onlyEnds
  refine ⟨⟨[], by simp [pending], ?_⟩, ?_, ?_⟩
  · simp [begun, History.started, noStart, starts, endsOnly]
  · have reported : stage.pending.filterMap Event.ended? = [] :=
      List.filterMap_eq_nil_iff.mpr noEndWaits
    have moved := performances.append_right (history.ended ++ history.dropped)
    have sorted : (endings.filterMap Event.ended? ++ (history.ended ++ history.dropped)).Perm
        (history.ended ++ (endings.filterMap Event.ended? ++ history.dropped)) :=
      List.perm_append_comm_assoc _ _ _
    rw [List.append_assoc] at moved
    have total := conserved.trans (moved.trans (sorted.append_left next.performances))
    simpa [History.ended, noEnd, reported] using total
  · -- What waited and is reported now may be the start of what ends in the same frame.
    have quietly : Preceded (history.events ++ (rejections ++ stage.pending)) := by
      apply preceded.append
      intro event member performance ends
      rcases List.mem_append.mp member with rejected | waited
      · rw [(quiet event rejected).2] at ends
        cases ends
      · rw [noEndWaits event waited] at ends
        cases ends
    have complete : Preceded (history.events ++ (rejections ++ stage.pending) ++ endings) := by
      apply quietly.append
      intro event member performance ends
      have running : performance ∈ stage.performances :=
        performances.mem_iff.mpr (List.mem_append_right _
          (List.mem_filterMap.mpr ⟨event, member, ends⟩))
      have known : performance ∈ history.begun :=
        conserved.mem_iff.mpr (List.mem_append_left _ running)
      simpa [begun, History.started, noStart, starts] using known
    simpa using complete

end Balanced

namespace Stage

/-- A change of one actor exchanges the performances of that actor. -/
theorem performances_modifyActor {stage : Stage} {id : ActorId} {actor : Actor}
    (found : stage.actor? id = some actor) (change : Actor → Actor) :
    ∃ before behind, stage.performances = before ++ (actor.performances ++ behind) ∧
      (stage.modifyActor id change).performances =
        before ++ ((change actor).performances ++ behind) := by
  obtain ⟨before, behind, cut, changed⟩ := modifyFirst_of_find?_eq_some change found
  refine ⟨before.flatMap Actor.performances, behind.flatMap Actor.performances, ?_, ?_⟩
  · simp [performances, cut]
  · simp [performances, modifyActor, changed]

theorem performances_modifyAnimator {stage : Stage} {id : ActorId} {actor : Actor}
    (found : stage.actor? id = some actor) (change : Animator → Animator) :
    ∃ before behind, stage.performances = before ++ (actor.performances ++ behind) ∧
      (stage.modifyAnimator id change).performances =
        before ++ (Actor.performances { actor with animator := change actor.animator } ++
          behind) :=
  performances_modifyActor found fun actor => { actor with animator := change actor.animator }

theorem performances_modifyActor_of_kept {change : Actor → Actor}
    (kept : ∀ actor, (change actor).performances = actor.performances)
    (stage : Stage) (id : ActorId) :
    (stage.modifyActor id change).performances = stage.performances := by
  simp only [performances, modifyActor, List.flatMap_def, map_modifyFirst kept]

theorem performances_play (actor : Actor) (clip : Clip) (speed : Single) :
    Actor.performances { actor with animator := actor.animator.play clip speed } =
      actor.performances ++ [⟨actor.id, actor.animator.nextId, clip.key⟩] := by
  simp [Actor.performances, Animator.play, Animator.push, Stack.push, Playback.start]

/-- A command keeps the accounts in order. -/
theorem Obeys.balanced {stage : Stage} {command : Command} {attempt : Attempt Unit}
    {history : History} (obeys : Obeys stage command attempt)
    (balanced : Balanced stage history) :
    Balanced attempt.stage (history ++ stage.commandHistory command) := by
  cases obeys with
  | refused refusal =>
      rw [commandHistory_of_refused refusal, History.append_none]
      exact balanced
  | @played id key speed clip actor stored found =>
      obtain ⟨before, behind, current, next⟩ := performances_modifyAnimator found
        fun animator => animator.play clip (speed.getD stage.timing.defaultSpeed)
      rw [performances_play, id_of_actor? found] at next
      have moved : (stage.modifyAnimator id fun animator =>
          animator.play clip (speed.getD stage.timing.defaultSpeed)).performances.Perm
            (⟨id, actor.animator.nextId, clip.key⟩ :: stage.performances) := by
        rw [next, current]
        simp only [List.append_assoc, List.singleton_append]
        rw [← List.append_assoc, ← List.append_assoc]
        exact List.perm_middle
      rw [commandHistory_play stored found]
      exact balanced.begin moved rfl
  | @cleared id actor found =>
      obtain ⟨before, behind, current, next⟩ :=
        performances_modifyAnimator found Animator.clear
      have emptied :
          Actor.performances { actor with animator := actor.animator.clear } = [] := rfl
      have moved : stage.performances.Perm
          ((stage.modifyAnimator id Animator.clear).performances ++ actor.performances) := by
        rw [next, current, emptied, List.nil_append, List.append_assoc]
        exact List.Perm.append_left before List.perm_append_comm
      rw [commandHistory_clear found]
      exact balanced.drop moved rfl
  | @switched id actor runs found =>
      have same : (stage.modifyAnimator id fun animator =>
          animator.setClock runs).performances = stage.performances :=
        performances_modifyActor_of_kept (by intro _; rfl) stage id
      have nothing : stage.commandHistory (.setClock id runs) = .none := rfl
      rw [nothing, History.append_none]
      exact balanced.congr same rfl

theorem takeInputs_balanced {stage : Stage} {history : History}
    (balanced : Balanced stage history) (inputs : List ActorInput) :
    Balanced (applyAll takeInput stage inputs).1 history := by
  induction inputs generalizing stage with
  | nil => exact balanced
  | cons input rest ih =>
      rw [applyAll_cons]
      apply ih
      unfold takeInput Stage.change
      cases stage.actor? input.actor with
      | none => exact balanced
      | some actor =>
          exact balanced.congr (performances_modifyActor_of_kept (by intro _; rfl) stage _) rfl

theorem commands_balanced {stage : Stage} {history : History}
    (balanced : Balanced stage history) (commands : List Command) :
    Balanced (applyAll obey stage commands).1
      (history ++ stage.commandsHistory commands) := by
  induction commands generalizing stage history with
  | nil =>
      rw [commandsHistory_nil, History.append_none]
      exact balanced
  | cons command rest ih =>
      rw [applyAll_cons, commandsHistory, ← History.append_assoc]
      exact ih ((obey_obeys stage command).balanced balanced)

theorem actor_parts (actor : Actor) (seconds : Single) :
    actor.performances.Perm
      (Actor.performances { actor with animator := (actor.update seconds).animator } ++
        (actor.endings (actor.update seconds)).filterMap Event.ended?) := by
  have parts := Stack.advance_parts
    (fun playback => (⟨actor.id, playback.id, playback.clip.key⟩ : Performance))
    (by intro _ _; rfl) actor.animator.stack seconds
  simpa [Actor.performances, Actor.endings, Actor.update, Animator.update,
    Animator.Update.ended, Ended.ofPlayback, Event.ended?, List.filterMap_map,
    Function.comp_def] using parts

theorem step_parts (stage : Stage) (seconds : Single) :
    stage.performances.Perm ((stage.step seconds).1.performances ++
      (stage.actors.flatMap fun actor =>
        actor.endings (actor.update seconds)).filterMap Event.ended?) := by
  have each := List.Perm.flatMap_left stage.actors fun actor _ => actor_parts actor seconds
  have joined := each.trans (List.flatMap_append_perm stage.actors _ _).symm
  simpa [step, performances, List.flatMap_map, List.filterMap_flatMap] using joined

theorem update_balanced {stage : Stage} {history : History} (balanced : Balanced stage history)
    (seconds : Single) (inputs : Inputs) :
    Balanced (stage.update seconds inputs).1
      (history ++ stage.actionHistory (.update seconds inputs)) := by
  have ready := commands_balanced (takeInputs_balanced balanced inputs.actors) inputs.commands
  have rejections : ∀ event ∈ (stage.takeInputs inputs).2.map Event.ofFailure,
      event.started? = none ∧ event.ended? = none := by
    intro event member
    obtain ⟨failure, _, rfl⟩ := List.mem_map.mp member
    exact ⟨rfl, rfl⟩
  have endings : ∀ event ∈ (stage.takeInputs inputs).1.actors.flatMap
      fun actor => actor.endings (actor.update seconds), event.started? = none := by
    intro event member
    obtain ⟨actor, _, ending⟩ := List.mem_flatMap.mp member
    obtain ⟨ended, _, rfl⟩ := List.mem_map.mp ending
    rfl
  have reported := ready.report rejections endings (step_parts _ seconds) rfl
  rw [actionHistory, ← History.append_assoc, update_events]
  exact reported

theorem after_balanced {stage : Stage} {history : History} (balanced : Balanced stage history)
    (action : Action) :
    Balanced (stage.after action) (history ++ stage.actionHistory action) := by
  cases action with
  | setLibrary library =>
      have same : Balanced (stage.after (.setLibrary library)) history := balanced.congr rfl rfl
      rwa [actionHistory, History.append_none]
  | createActor name =>
      have same : Balanced (stage.after (.createActor name)) history := by
        refine balanced.congr ?_ rfl
        simp [Stage.after, createActor, performances, Actor.performances, Animator.start,
          Stack.empty]
      rwa [actionHistory, History.append_none]
  | removeActor id =>
      refine balanced.drop ?_ rfl
      have parted := (List.filter_append_perm (fun actor => decide (actor.id ≠ id))
        stage.actors).symm.flatMap_right Actor.performances
      simpa [Stage.after, removeActor, performances] using parted
  | request command => exact (obey_obeys stage command).balanced balanced
  | update seconds inputs => exact update_balanced balanced seconds inputs

theorem run_balanced {stage : Stage} {history : History} (balanced : Balanced stage history)
    (actions : List Action) :
    Balanced (stage.run actions) (history ++ stage.history actions) := by
  induction actions generalizing stage history with
  | nil =>
      rw [history_nil, History.append_none]
      exact balanced
  | cons action rest ih =>
      rw [Stage.history, ← History.append_assoc]
      exact ih (after_balanced balanced action)

end Stage

end LimbAnimation
