import LimbAnimation.Proofs.Stage.History
import LimbAnimation.Proofs.Stage.Rejections
import Mathlib.Data.List.Induction

/-!
# Whom frames speak of

A start waits to be reported until the next frame, and nothing calls it back.  So a frame
tells of the start of an actor whom it does not show exactly when the actor has been
removed in the meantime; of an end it tells only when it shows the actor.
-/

namespace LimbAnimation

namespace Stage

variable {stage : Stage}

/-- Only a play begins something, and only for an actor who is there. -/
theorem play_of_begun? {command : Command} {performance : Performance}
    (begun : stage.begun? command = some performance) :
    performance.actor ∈ stage.cast ∧
      ∃ key speed, command = .play performance.actor key speed := by
  have history : (stage.commandHistory command).begun = [performance] := by
    rw [commandHistory, begun, Option.toList_some]
  have obeys := obey_obeys stage command
  generalize stage.obey command = attempt at obeys
  cases obeys with
  | refused refusal =>
      rw [commandHistory_of_refused refusal] at history
      cases history
  | @played id key speed clip actor stored found =>
      rw [commandHistory_play stored found] at history
      cases history
      exact ⟨mem_cast_of_actor? found, key, speed, rfl⟩
  | cleared found => cases begun
  | switched found => cases begun

/-- A command adds the start of what it begins to what waits. -/
theorem Obeys.pending_eq {command : Command} {attempt : Attempt Unit}
    (obeys : Obeys stage command attempt) :
    attempt.stage.pending =
      stage.pending ++ (stage.commandHistory command).begun.map Performance.start := by
  cases obeys with
  | refused refusal =>
      rw [commandHistory_of_refused refusal]
      exact (List.append_nil _).symm
  | played stored found =>
      rw [commandHistory_play stored found]
      rfl
  | cleared found => exact (List.append_nil _).symm
  | switched found => exact (List.append_nil _).symm

theorem mem_pending_obey {command : Command} {event : Event}
    (waits : event ∈ (stage.obey command).stage.pending) :
    event ∈ stage.pending ∨
      ∃ performance, stage.begun? command = some performance ∧ performance.start = event := by
  rw [(obey_obeys stage command).pending_eq] at waits
  simpa [commandHistory] using waits

/-- What waits once some commands have been obeyed has waited before, or is the start of
an actor who is there. -/
theorem mem_pending_commands {commands : List Command} {event : Event}
    (waits : event ∈ (applyAll obey stage commands).1.pending) :
    event ∈ stage.pending ∨
      ∃ performance : Performance, performance.actor ∈ stage.cast ∧ performance.start = event := by
  induction commands generalizing stage with
  | nil => exact .inl waits
  | cons command rest ih =>
      rw [applyAll_cons] at waits
      have keeps := (obey_respects stage command).keeps
      rcases ih waits with waited | ⟨performance, present, same⟩
      · rcases mem_pending_obey waited with earlier | ⟨performance, begun, same⟩
        · exact .inl earlier
        · exact .inr ⟨performance, (play_of_begun? begun).1, same⟩
      · exact .inr ⟨performance, keeps.cast ▸ present, same⟩

theorem mem_pending_takeInputs {inputs : Inputs} {event : Event}
    (waits : event ∈ (stage.takeInputs inputs).1.pending) :
    event ∈ stage.pending ∨
      ∃ performance : Performance, performance.actor ∈ stage.cast ∧ performance.start = event := by
  have keeps := applyAll_keeps takeInput_respects stage inputs.actors
  have same := applyAll_takeInput_pending stage inputs.actors
  rcases mem_pending_commands waits with waited | ⟨performance, present, start⟩
  · exact .inl (same ▸ waited)
  · exact .inr ⟨performance, keeps.cast ▸ present, start⟩

/-- A play outside a frame has begun a performance, and no frame has come since. -/
structure Unreported (stage : Stage) (actions early since : List Action)
    (performance : Performance) : Prop where
  begun : ∃ key speed,
    actions = early ++ .request (.play performance.actor key speed) :: since ∧
      (stage.run early).begun? (.play performance.actor key speed) = some performance
  noFrame : updates since = 0

theorem Unreported.concat {actions early since : List Action} {performance : Performance}
    (unreported : stage.Unreported actions early since performance) {action : Action}
    (quiet : action.isUpdate = false) :
    stage.Unreported (actions ++ [action]) early (since ++ [action]) performance := by
  obtain ⟨⟨key, speed, rfl, begun⟩, noFrame⟩ := unreported
  refine ⟨⟨key, speed, by simp, begun⟩, ?_⟩
  rw [updates_append, noFrame, updates, List.countP_singleton, quiet]
  rfl

/-- An actor who was there stays, or is the one that is removed. -/
theorem mem_cast_after {id : ActorId} (present : id ∈ stage.cast) (action : Action) :
    id ∈ (stage.after action).cast ∨ action = .removeActor id := by
  cases action with
  | setLibrary library => exact .inl present
  | createActor name =>
      refine .inl ?_
      rw [cast, after, createActor, List.map_append]
      exact List.mem_append_left _ present
  | removeActor other =>
      by_cases same : other = id
      · exact .inr (congrArg Action.removeActor same)
      · refine .inl ?_
        obtain ⟨actor, member, rfl⟩ := List.mem_map.mp present
        have stays : decide (actor.id ≠ other) = true := decide_eq_true (Ne.symm same)
        exact List.mem_map_of_mem (List.mem_filter.mpr ⟨member, stays⟩)
  | request command => exact .inl ((obey_respects stage command).keeps.cast.symm ▸ present)
  | update seconds inputs => exact .inl ((update_keeps stage seconds inputs).cast.symm ▸ present)

/-- Between frames, what waits has waited before or has just been begun. -/
theorem mem_pending_after {action : Action} {event : Event}
    (waits : event ∈ (stage.after action).pending) :
    action.isUpdate = false ∧ (event ∈ stage.pending ∨
      ∃ performance command, action = .request command ∧
        stage.begun? command = some performance ∧ performance.start = event) := by
  cases action with
  | request command =>
      refine ⟨rfl, (mem_pending_obey waits).imp_right ?_⟩
      rintro ⟨performance, begun, same⟩
      exact ⟨performance, command, rfl, begun, same⟩
  | update seconds inputs => cases waits
  | setLibrary library => exact ⟨rfl, .inl waits⟩
  | createActor name => exact ⟨rfl, .inl waits⟩
  | removeActor id => exact ⟨rfl, .inl waits⟩

/-- Whatever waits is the start of an actor who is there, or was removed after the play. -/
theorem unreported_of_mem_pending (quiet : stage.pending = []) {actions : List Action}
    {event : Event} (waits : event ∈ (stage.run actions).pending) :
    ∃ performance early since, performance.start = event ∧
      stage.Unreported actions early since performance ∧
      (performance.actor ∈ (stage.run actions).cast ∨ .removeActor performance.actor ∈ since) := by
  induction actions using List.reverseRecOn with
  | nil =>
      rw [run_nil, quiet] at waits
      cases waits
  | append_singleton actions action ih =>
      have last : stage.run (actions ++ [action]) = (stage.run actions).after action :=
        run_append stage actions [action]
      rw [last] at waits ⊢
      obtain ⟨noFrame, waited | ⟨performance, command, rfl, begun, start⟩⟩ :=
        mem_pending_after waits
      · obtain ⟨performance, early, since, start, unreported, place⟩ := ih waited
        refine ⟨performance, early, since ++ [action], start, unreported.concat noFrame, ?_⟩
        rcases place with present | removed
        · rcases mem_cast_after present action with stays | rfl
          · exact .inl stays
          · exact .inr (List.mem_append_right _ List.mem_cons_self)
        · exact .inr (List.mem_append_left _ removed)
      · obtain ⟨present, key, speed, rfl⟩ := play_of_begun? begun
        refine ⟨performance, actions, [], start, ⟨⟨key, speed, rfl, begun⟩, rfl⟩, .inl ?_⟩
        exact (obey_respects _ _).keeps.cast.symm ▸ present

/-- What waits goes on waiting until the next frame. -/
theorem mem_pending_after_of_mem {action : Action} {event : Event} (waits : event ∈ stage.pending)
    (quiet : action.isUpdate = false) : event ∈ (stage.after action).pending := by
  cases action with
  | request command =>
      rw [after, (obey_obeys stage command).pending_eq]
      exact List.mem_append_left _ waits
  | update seconds inputs => cases quiet
  | setLibrary library => exact waits
  | createActor name => exact waits
  | removeActor id => exact waits

theorem mem_pending_run {since : List Action} {event : Event} (waits : event ∈ stage.pending)
    (noFrame : updates since = 0) : event ∈ (stage.run since).pending := by
  induction since generalizing stage with
  | nil => exact waits
  | cons action rest ih =>
      rw [updates_cons] at noFrame
      cases quiet : action.isUpdate with
      | true =>
          rw [quiet, if_pos rfl] at noFrame
          cases noFrame
      | false =>
          have none : updates rest = 0 := Nat.eq_zero_of_add_eq_zero_right noFrame
          exact ih (mem_pending_after_of_mem waits quiet) none

theorem Unreported.mem_pending {actions early since : List Action} {performance : Performance}
    (unreported : stage.Unreported actions early since performance) :
    performance.start ∈ (stage.run actions).pending := by
  obtain ⟨⟨key, speed, rfl, begun⟩, noFrame⟩ := unreported
  rw [run_append, run_cons]
  refine mem_pending_run ?_ noFrame
  rw [after, (obey_obeys _ _).pending_eq, commandHistory, begun]
  exact List.mem_append_right _ (List.mem_singleton.mpr rfl)

/-- A frame tells of what waits, whatever comes in with it. -/
theorem mem_events_of_mem_pending {event : Event} (waits : event ∈ stage.pending)
    (seconds : Single) (inputs : Inputs) : event ∈ (stage.update seconds inputs).2.events := by
  obtain ⟨starts, pending, _⟩ :=
    applyAll_obey_pending (applyAll takeInput stage inputs.actors).1 inputs.commands
  rw [applyAll_takeInput_pending] at pending
  have kept : event ∈ (stage.takeInputs inputs).1.pending :=
    pending.symm ▸ List.mem_append_left _ waits
  rw [update_events]
  exact List.mem_append_right _ (List.mem_append_left _ kept)

/-- The events of a frame: rejections, what waited, and the ends of actors it shows. -/
theorem mem_events_update {seconds : Single} {inputs : Inputs} {event : Event}
    (reported : event ∈ (stage.update seconds inputs).2.events) :
    (event.started? = none ∧ event.ended? = none) ∨
      event ∈ (stage.takeInputs inputs).1.pending ∨
      ∃ performance : Performance, event.started? = none ∧ event.ended? = some performance ∧
        performance.actor ∈ stage.cast := by
  rw [update_events] at reported
  rcases List.mem_append.mp reported with rejected | told
  · obtain ⟨failure, _, rfl⟩ := List.mem_map.mp rejected
    exact .inl ⟨rfl, rfl⟩
  · rcases List.mem_append.mp told with waited | ending
    · exact .inr (.inl waited)
    · obtain ⟨actor, member, ends⟩ := List.mem_flatMap.mp ending
      obtain ⟨ended, _, rfl⟩ := List.mem_map.mp ends
      refine .inr (.inr ⟨⟨actor.id, ended.id, ended.key⟩, rfl, rfl, ?_⟩)
      rw [← (takeInputs_keeps stage inputs).cast]
      exact List.mem_map_of_mem member

/-- Take any frame of any run from the start.  Every end that it reports is that of an
actor whom it shows.  So is every start, unless the play came from outside a frame, since
the last one, and the actor was removed between the play and this frame.  The start of such
a play is reported in any case. -/
theorem events_speak_of_shown_or_removed (timing : Timing) (before : List Action)
    (seconds : Single) (inputs : Inputs) :
    let stage := Stage.start timing
    let outputs := ((stage.run before).update seconds inputs).2
    let shown := outputs.frames.map Frame.actor
    (∀ event ∈ outputs.events, ∀ performance,
      (event.ended? = some performance → performance.actor ∈ shown) ∧
        (event.started? = some performance → performance.actor ∈ shown ∨
          ∃ early since, stage.Unreported before early since performance ∧
            .removeActor performance.actor ∈ since)) ∧
    ∀ early since performance, stage.Unreported before early since performance →
      performance.start ∈ outputs.events := by
  intro stage outputs shown
  refine ⟨fun event reported performance => ?_, fun early since performance unreported =>
    mem_events_of_mem_pending unreported.mem_pending seconds inputs⟩
  have cast : shown = (stage.run before).cast := update_frames _ seconds inputs
  rw [cast]
  rcases mem_events_update reported with ⟨noStart, noEnd⟩ | waited | ⟨other, noStart, ends, present⟩
  · simp [noStart, noEnd]
  · rcases mem_pending_takeInputs waited with earlier | ⟨begun, present, rfl⟩
    · obtain ⟨begun, early, since, rfl, unreported, place⟩ := unreported_of_mem_pending rfl earlier
      refine ⟨fun ends => (nomatch ends), fun starts => ?_⟩
      cases starts
      exact place.imp_right fun removed => ⟨early, since, unreported, removed⟩
    · refine ⟨fun ends => (nomatch ends), fun starts => ?_⟩
      cases starts
      exact .inl present
  · refine ⟨fun same => ?_, fun starts => (nomatch noStart.symm.trans starts)⟩
    cases ends.symm.trans same
    exact present

/-- An actor waves and is removed before the next frame, which tells of the start all the
same and shows nobody. -/
theorem start_of_removed_actor_is_reported :
    let wave : Clip := ⟨⟨"wave", "guard"⟩, none, none, [], .empty, 1, false, false⟩
    let before : List Action :=
      [.setLibrary (Library.empty.insert wave).1, .createActor "guard",
        .request (.play ⟨0⟩ wave.key none), .removeActor ⟨0⟩]
    let outputs := (((Stage.start .standard).run before).update 0 .none).2
    .started ⟨0⟩ ⟨0⟩ wave.key ∈ outputs.events ∧
      (⟨0⟩ : ActorId) ∉ outputs.frames.map Frame.actor := by
  decide +kernel

end Stage

end LimbAnimation
