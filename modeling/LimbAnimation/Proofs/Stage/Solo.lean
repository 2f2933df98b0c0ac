import LimbAnimation.Proofs.Stage.Runs

/-!
# Actors by themselves

The cues for an actor are those things in a run that concern this actor only.  A
solo follows them with nothing but an animator and a pose; it knows of no stage,
no library and nobody else.
-/

namespace LimbAnimation

/-- What an actor is asked to do.  A clip is handed over itself, not by its key. -/
inductive Cue where
  | play (clip : Clip) (speed : Single)
  | clear
  | setClock (runs : Bool)
  | adjust (procedural : Option Pose) (placement : Option Placement)
      (additional : Option Restrictions)
  | tick (seconds : Single)

structure Solo where
  animator : Animator
  procedural : Pose

structure Shown where
  pose : Pose
  restrictions : Restrictions
  ended : List Ended

namespace Solo

def start (timing : Timing) : Solo := ⟨.start timing, .rest⟩

def update (solo : Solo) (seconds : Single) : Animator.Update :=
  solo.animator.update seconds solo.procedural

def after (solo : Solo) : Cue → Solo
  | .play clip speed => { solo with animator := solo.animator.play clip speed }
  | .clear => { solo with animator := solo.animator.clear }
  | .setClock runs => { solo with animator := solo.animator.setClock runs }
  | .adjust procedural placement additional =>
    { procedural := procedural.getD solo.procedural
      animator :=
        { solo.animator with
          placement := placement.getD solo.animator.placement
          additional := additional.getD solo.animator.additional } }
  | .tick seconds => { solo with animator := (solo.update seconds).animator }

def afterAll (solo : Solo) (cues : List Cue) : Solo := cues.foldl after solo

def shown (solo : Solo) (seconds : Single) : Shown :=
  let update := solo.update seconds
  ⟨update.animator.pose, update.animator.restrictions, update.ended⟩

/-- What is shown on a cue; only a tick shows something. -/
def shown? (solo : Solo) : Cue → Option Shown
  | .tick seconds => some (solo.shown seconds)
  | _ => none

def shows : Solo → List Cue → List Shown
  | _, [] => []
  | solo, cue :: rest => (solo.shown? cue).toList ++ (solo.after cue).shows rest

@[simp] theorem afterAll_nil (solo : Solo) : solo.afterAll [] = solo := rfl

@[simp] theorem afterAll_cons (solo : Solo) (cue : Cue) (rest : List Cue) :
    solo.afterAll (cue :: rest) = (solo.after cue).afterAll rest := rfl

theorem afterAll_append (solo : Solo) (first later : List Cue) :
    solo.afterAll (first ++ later) = (solo.afterAll first).afterAll later := List.foldl_append

theorem shows_append (solo : Solo) (first later : List Cue) :
    solo.shows (first ++ later) = solo.shows first ++ (solo.afterAll first).shows later := by
  induction first generalizing solo with
  | nil => rfl
  | cons cue rest ih => simp [shows, ih]

end Solo

namespace Cue

def isTick : Cue → Bool
  | tick _ => true
  | _ => false

end Cue

theorem Solo.shows_of_no_tick (solo : Solo) {cues : List Cue}
    (still : ∀ cue ∈ cues, cue.isTick = false) : solo.shows cues = [] := by
  induction cues generalizing solo with
  | nil => rfl
  | cons cue rest ih =>
      have silent : solo.shown? cue = none := by
        cases cue with
        | tick seconds => cases still _ List.mem_cons_self
        | play clip speed => rfl
        | clear => rfl
        | setClock runs => rfl
        | adjust procedural placement additional => rfl
      have onRest := ih (solo.after cue) fun other member =>
        still other (List.mem_cons_of_mem _ member)
      simp [shows, silent, onRest]

section Cues

variable (timing : Timing) (id : ActorId)

/-- The cue for an actor in an input. -/
def ActorInput.cue? (input : ActorInput) : Option Cue :=
  if input.actor = id then some (.adjust input.procedural input.placement input.additional)
  else none

/-- The cue for an actor in a command.  A clip comes from the library as it is. -/
def Command.cue? (library : Library) : Command → Option Cue
  | .play actor key speed =>
    if actor = id then
      (library.get? key).map fun clip => .play clip (speed.getD timing.defaultSpeed)
    else none
  | .clear actor => if actor = id then some .clear else none
  | .setClock actor runs => if actor = id then some (.setClock runs) else none

/-- The cues for an actor in the inputs of a frame. -/
def Inputs.cues (library : Library) (inputs : Inputs) : List Cue :=
  inputs.actors.filterMap (ActorInput.cue? id) ++
    inputs.commands.filterMap (Command.cue? timing id library)

def Action.cues (library : Library) : Action → List Cue
  | .request command => (command.cue? timing id library).toList
  | .update seconds inputs => inputs.cues timing id library ++ [.tick seconds]
  | _ => []

def Action.libraryAfter (library : Library) : Action → Library
  | .setLibrary next => next
  | _ => library

/-- The cues for an actor in a run, each with the library of its moment. -/
def cues : Library → List Action → List Cue
  | _, [] => []
  | library, action :: rest =>
    action.cues timing id library ++ cues (action.libraryAfter library) rest

theorem Command.cue?_isTick (command : Command) (library : Library) :
    ∀ cue ∈ (command.cue? timing id library).toList, cue.isTick = false := by
  intro cue member
  rw [Option.mem_toList] at member
  cases command with
  | play actor key speed =>
      simp only [Command.cue?] at member
      split at member
      next same =>
          obtain ⟨clip, _, rfl⟩ := Option.map_eq_some_iff.mp member
          rfl
      next different => cases member
  | clear actor =>
      simp only [Command.cue?, Option.ite_none_right_eq_some] at member
      rw [← Option.some.inj member.2]
      rfl
  | setClock actor runs =>
      simp only [Command.cue?, Option.ite_none_right_eq_some] at member
      rw [← Option.some.inj member.2]
      rfl

theorem Inputs.cues_isTick (inputs : Inputs) (library : Library) :
    ∀ cue ∈ inputs.cues timing id library, cue.isTick = false := by
  intro cue member
  rcases List.mem_append.mp member with adjusts | commands
  · obtain ⟨input, _, given⟩ := List.mem_filterMap.mp adjusts
    simp only [ActorInput.cue?, Option.ite_none_right_eq_some] at given
    rw [← Option.some.inj given.2]
    rfl
  · obtain ⟨command, _, given⟩ := List.mem_filterMap.mp commands
    exact command.cue?_isTick timing id library cue (Option.mem_toList.mpr given)

end Cues

/-- What outputs tell of one actor. -/
structure Part where
  frames : List Frame
  endings : List Event
  deriving DecidableEq

/-- Whether an event is the end of a performance of an actor. -/
def Event.endsFor (id : ActorId) : Event → Bool
  | .ended actor .. => actor = id
  | _ => false

/-- The frames and the ends of one actor. -/
def Outputs.part (id : ActorId) (outputs : Outputs) : Part :=
  ⟨outputs.frames.filter fun frame => frame.actor = id,
    outputs.events.filter fun event => event.endsFor id⟩

def Part.none : Part := ⟨[], []⟩

/-- What a solo shows, as a stage reports it. -/
def Shown.part (id : ActorId) (shown : Shown) : Part :=
  ⟨[⟨id, shown.pose, shown.restrictions⟩],
    shown.ended.map fun ended => .ended id ended.id ended.key ended.timer⟩

end LimbAnimation
