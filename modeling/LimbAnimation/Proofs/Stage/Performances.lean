import LimbAnimation.Proofs.Stage.Accounts
import LimbAnimation.Proofs.Stage.Numbers
import Mathlib.Data.List.DropRight

/-!
# What frames tell of performances

Over a whole run, every play that succeeds before the last frame is reported as
begun exactly once, and each performance is reported as ended at most once, never
before its start and never after it was dropped.
-/

namespace LimbAnimation

/-- The actions up to the last frame. -/
def framed (actions : List Action) : List Action :=
  actions.rdropWhile fun action => !action.isUpdate

namespace Stage

/-- Right after a frame nothing waits to be reported. -/
theorem pending_framed {stage : Stage} (quiet : stage.pending = []) (actions : List Action) :
    (stage.run (framed actions)).pending = [] := by
  induction actions using List.reverseRecOn with
  | nil => exact quiet
  | append_singleton earlier action ih =>
      rw [framed, List.rdropWhile_concat]
      cases action with
      | update seconds inputs =>
          rw [if_neg (by simp [Action.isUpdate]), run_append]
          rfl
      | setLibrary library => exact ih
      | createActor name => exact ih
      | removeActor id => exact ih
      | request command => exact ih

theorem outputs_of_no_update (stage : Stage) {actions : List Action}
    (still : ∀ action ∈ actions, action.isUpdate = false) : stage.outputs actions = [] := by
  induction actions generalizing stage with
  | nil => rfl
  | cons action rest ih =>
      have silent : stage.outputs? action = none := by
        cases action with
        | update seconds inputs => cases still _ List.mem_cons_self
        | setLibrary library => rfl
        | createActor name => rfl
        | removeActor id => rfl
        | request command => rfl
      have onRest := ih (stage.after action) fun other member =>
        still other (List.mem_cons_of_mem _ member)
      simp [outputs, silent, onRest]

theorem outputs_framed (stage : Stage) (actions : List Action) :
    stage.outputs (framed actions) = stage.outputs actions := by
  have cut : framed actions ++ actions.rtakeWhile (fun action => !action.isUpdate) = actions :=
    List.rdropWhile_append_rtakeWhile
  have silent : (stage.run (framed actions)).outputs
      (actions.rtakeWhile fun action => !action.isUpdate) = [] :=
    outputs_of_no_update _ fun action member => by
      simpa using List.mem_rtakeWhile_imp member
  conv_rhs => rw [← cut, outputs_append, silent, List.append_nil]

theorem balanced_of_start (timing : Timing) (actions : List Action) :
    Balanced ((Stage.start timing).run actions) ((Stage.start timing).history actions) :=
  run_balanced (Balanced.start timing) actions

/-- The starts reported in a run are the performances begun until its last frame. -/
theorem started_eq_begun (timing : Timing) (actions : List Action) :
    ((Stage.start timing).history actions).started =
      ((Stage.start timing).history (framed actions)).begun := by
  obtain ⟨waiting, waits, begun⟩ := (balanced_of_start timing (framed actions)).waiting
  rw [pending_framed rfl, eq_comm, List.map_eq_nil_iff] at waits
  rw [waits, List.append_nil] at begun
  rw [begun, History.started, History.started, history_events, history_events, outputs_framed]

/-- As long as no counter wraps around, no two performances have the same label. -/
theorem labels_nodup {timing : Timing} {actions : List Action}
    (fewActors : creations actions < 2 ^ 32)
    (fewPlays : ∀ id, plays id ((Stage.start timing).history actions).begun < 2 ^ 32) :
    (((Stage.start timing).history actions).begun.map Performance.label).Nodup := by
  have start : Numbered Roster.empty.created (Stage.start timing) [] := .start timing
  have numbered := start.run (lists_start timing) Roster.ascends_empty actions
    (by simpa [Roster.empty] using fewActors.le) fewPlays
  exact numbered.distinct

/-- The frames of a run from the start account for all performances.  What is
reported as begun is what the plays until the last frame have begun, in their
order.  As long as fewer than 2 ^ 32 actors are created and none of them plays
2 ^ 32 times, no start and no end is reported twice.  An end is never reported
before the start, nor for a performance that was dropped from its stack. -/
theorem frames_account_for_performances (timing : Timing) (actions : List Action)
    (fewActors : creations actions < 2 ^ 32)
    (fewPlays : ∀ id, plays id ((Stage.start timing).history actions).begun < 2 ^ 32) :
    let stage := Stage.start timing
    let events := (stage.outputs actions).flatMap Outputs.events
    let started := events.filterMap Event.started?
    let ended := events.filterMap Event.ended?
    started = (stage.history (framed actions)).begun ∧
      (started.map Performance.label).Nodup ∧
      (ended.map Performance.label).Nodup ∧
      Preceded events ∧
      ∀ performance ∈ (stage.history actions).dropped,
        performance.label ∉ ended.map Performance.label := by
  intro stage events started ended
  have reports : (stage.history actions).events = events := history_events stage actions
  have startedEq : (stage.history actions).started = started :=
    congrArg (List.filterMap Event.started?) reports
  have endedEq : (stage.history actions).ended = ended :=
    congrArg (List.filterMap Event.ended?) reports
  obtain ⟨⟨waiting, _, begun⟩, conserved, preceded⟩ := balanced_of_start timing actions
  have distinct := labels_nodup fewActors fewPlays
  have startedDistinct : ((stage.history actions).started.map Performance.label).Nodup := by
    rw [begun, List.map_append] at distinct
    exact distinct.of_append_left
  have accounted : (((stage.history actions).ended ++ (stage.history actions).dropped).map
      Performance.label).Nodup := by
    have total := (conserved.map Performance.label).nodup_iff.mp distinct
    rw [List.map_append] at total
    exact total.of_append_right
  rw [List.map_append] at accounted
  refine ⟨?_, startedEq ▸ startedDistinct, endedEq ▸ accounted.of_append_left,
    reports ▸ preceded, ?_⟩
  · exact startedEq.symm.trans (started_eq_begun timing actions)
  · intro performance member reported
    rw [← endedEq] at reported
    exact List.disjoint_of_nodup_append accounted reported (List.mem_map_of_mem member)

/-- Two waves are played, the first is cleared before the only frame, and an actor
who never came is asked to wave as well. -/
theorem frames_account_for_two_waves :
    let wave : Clip := ⟨⟨"wave", "guard"⟩, none, none, [], .empty, 0, false, false⟩
    let actions : List Action :=
      [.setLibrary (Library.empty.insert wave).1, .createActor "guard",
        .request (.play ⟨0⟩ wave.key none), .request (.clear ⟨0⟩),
        .request (.play ⟨1⟩ wave.key none),
        .update 0 ⟨[], [.play ⟨0⟩ wave.key none]⟩]
    let stage := Stage.start .standard
    let events := (stage.outputs actions).flatMap Outputs.events
    creations actions < 2 ^ 32 ∧ (∀ id, plays id (stage.history actions).begun < 2 ^ 32) ∧
      events.filterMap Event.started? = [⟨⟨0⟩, ⟨0⟩, wave.key⟩, ⟨⟨0⟩, ⟨1⟩, wave.key⟩] ∧
      (⟨0⟩, ⟨0⟩) ∉ (events.filterMap Event.ended?).map Performance.label := by
  intro wave actions stage events
  have fewActors : creations actions < 2 ^ 32 := by decide
  have begun :
      (stage.history actions).begun = [⟨⟨0⟩, ⟨0⟩, wave.key⟩, ⟨⟨0⟩, ⟨1⟩, wave.key⟩] := rfl
  have fewPlays : ∀ id, plays id (stage.history actions).begun < 2 ^ 32 := by
    intro id
    have bound : plays id (stage.history actions).begun ≤ 2 := begun ▸ List.countP_le_length
    omega
  obtain ⟨started, _, _, _, dropped⟩ :=
    frames_account_for_performances .standard actions fewActors fewPlays
  refine ⟨fewActors, fewPlays, started, ?_⟩
  exact dropped ⟨⟨0⟩, ⟨0⟩, wave.key⟩ List.mem_cons_self

end Stage

end LimbAnimation
