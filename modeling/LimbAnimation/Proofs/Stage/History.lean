import LimbAnimation.Proofs.Stage.Runs

/-!
# What becomes of performances

A performance is a clip that an actor was made to play, under the id that the play
returned.  The history of a run lists the performances that have begun and those
that were dropped, each where it happens, and the events that the frames report.
-/

namespace LimbAnimation

/-- A clip that an actor plays or has played. -/
structure Performance where
  actor : ActorId
  playback : PlaybackId
  key : ClipKey
  deriving DecidableEq

def Performance.label (performance : Performance) : ActorId × PlaybackId :=
  (performance.actor, performance.playback)

def Performance.start (performance : Performance) : Event :=
  .started performance.actor performance.playback performance.key

namespace Event

def started? : Event → Option Performance
  | .started actor playback key => some ⟨actor, playback, key⟩
  | _ => none

def ended? : Event → Option Performance
  | .ended actor playback key _ => some ⟨actor, playback, key⟩
  | _ => none

end Event

/-- The performances that an actor has on its stack. -/
def Actor.performances (actor : Actor) : List Performance :=
  actor.animator.stack.playbacks.map fun playback => ⟨actor.id, playback.id, playback.clip.key⟩

structure History where
  /-- In the order of the plays that have succeeded. -/
  begun : List Performance
  /-- Those taken from a stack by clearing it or removing its actor. -/
  dropped : List Performance
  /-- In the order of the outputs. -/
  events : List Event

namespace History

def none : History := ⟨[], [], []⟩

instance : Append History :=
  ⟨fun first later => ⟨first.begun ++ later.begun, first.dropped ++ later.dropped,
    first.events ++ later.events⟩⟩

def started (history : History) : List Performance := history.events.filterMap Event.started?

def ended (history : History) : List Performance := history.events.filterMap Event.ended?

@[simp] theorem begun_none : none.begun = [] := rfl

@[simp] theorem begun_append (first later : History) :
    (first ++ later).begun = first.begun ++ later.begun := rfl

@[simp] theorem dropped_append (first later : History) :
    (first ++ later).dropped = first.dropped ++ later.dropped := rfl

@[simp] theorem events_append (first later : History) :
    (first ++ later).events = first.events ++ later.events := rfl

@[simp] theorem started_append (first later : History) :
    (first ++ later).started = first.started ++ later.started := List.filterMap_append

@[simp] theorem ended_append (first later : History) :
    (first ++ later).ended = first.ended ++ later.ended := List.filterMap_append

theorem append_assoc (first second third : History) :
    first ++ second ++ third = first ++ (second ++ third) := by
  show History.mk _ _ _ = History.mk _ _ _
  simp

@[simp] theorem append_none (history : History) : history ++ none = history := by
  show History.mk _ _ _ = history
  simp [none]

@[simp] theorem none_append (history : History) : none ++ history = history := rfl

end History

namespace Stage

def performances (stage : Stage) : List Performance := stage.actors.flatMap Actor.performances

/-- The performance that a command begins, if it is a play that succeeds. -/
def begun? (stage : Stage) : Command → Option Performance
  | .play actor key speed =>
    match (stage.play actor key speed).result, stage.library.get? key with
    | .ok playback, some clip => some ⟨actor, playback, clip.key⟩
    | _, _ => none
  | _ => none

/-- The performances that a command drops. -/
def droppedBy (stage : Stage) : Command → List Performance
  | .clear actor => ((stage.actor? actor).map Actor.performances).getD []
  | _ => []

def commandHistory (stage : Stage) (command : Command) : History :=
  ⟨(stage.begun? command).toList, stage.droppedBy command, []⟩

def commandsHistory : Stage → List Command → History
  | _, [] => .none
  | stage, command :: rest =>
    stage.commandHistory command ++ (stage.obey command).stage.commandsHistory rest

@[simp] theorem commandsHistory_nil (stage : Stage) : stage.commandsHistory [] = .none := rfl

/-- What an action adds to the history: commands first, then the events of the
frame. -/
def actionHistory (stage : Stage) : Action → History
  | .setLibrary _ => .none
  | .createActor _ => .none
  | .removeActor id =>
    ⟨[], (stage.actors.filter fun actor => actor.id = id).flatMap Actor.performances, []⟩
  | .request command => stage.commandHistory command
  | .update seconds inputs =>
    (applyAll takeInput stage inputs.actors).1.commandsHistory inputs.commands ++
      ⟨[], [], (stage.update seconds inputs).2.events⟩

def history : Stage → List Action → History
  | _, [] => .none
  | stage, action :: rest => stage.actionHistory action ++ (stage.after action).history rest

@[simp] theorem history_nil (stage : Stage) : stage.history [] = .none := rfl

theorem actor?_eq_none_of_absence? {stage : Stage} {id : ActorId} {failure : Failure}
    (absence : stage.absence? id = some failure) : stage.actor? id = none := by
  cases found : stage.actor? id with
  | none => rfl
  | some actor =>
      rw [absence?_of_found found] at absence
      cases absence

theorem commandHistory_of_refused {stage : Stage} {command : Command} {failure : Failure}
    (refusal : stage.commandRefusal? command = some failure) :
    stage.commandHistory command = .none := by
  cases command with
  | play id key speed =>
      have attempt := (play_respects stage id key speed).refused failure refusal
      simp [commandHistory, begun?, droppedBy, attempt, History.none]
  | clear id =>
      have absent := actor?_eq_none_of_absence? refusal
      simp [commandHistory, begun?, droppedBy, absent, History.none]
  | setClock id runs => rfl

theorem commandHistory_play {stage : Stage} {id : ActorId} {key : ClipKey} {clip : Clip}
    {actor : Actor} (stored : stage.library.get? key = some clip)
    (found : stage.actor? id = some actor) (speed : Option Single) :
    stage.commandHistory (.play id key speed) =
      ⟨[⟨id, actor.animator.nextId, clip.key⟩], [], []⟩ := by
  simp [commandHistory, begun?, droppedBy, play_of_found stored found, stored]

theorem commandHistory_clear {stage : Stage} {id : ActorId} {actor : Actor}
    (found : stage.actor? id = some actor) :
    stage.commandHistory (.clear id) = ⟨[], actor.performances, []⟩ := by
  simp [commandHistory, begun?, droppedBy, found]

theorem commandsHistory_events (stage : Stage) (commands : List Command) :
    (stage.commandsHistory commands).events = [] := by
  induction commands generalizing stage with
  | nil => rfl
  | cons command rest ih => simp [commandsHistory, commandHistory, ih]

theorem history_events (stage : Stage) (actions : List Action) :
    (stage.history actions).events = (stage.outputs actions).flatMap Outputs.events := by
  induction actions generalizing stage with
  | nil => rfl
  | cons action rest ih =>
      have here : (stage.actionHistory action).events =
          (stage.outputs? action).toList.flatMap Outputs.events := by
        cases action with
        | setLibrary library => rfl
        | createActor name => rfl
        | removeActor id => rfl
        | request command => rfl
        | update seconds inputs =>
            simp [actionHistory, outputs?, commandsHistory_events]
      simp [history, outputs, here, ih]

end Stage

end LimbAnimation
