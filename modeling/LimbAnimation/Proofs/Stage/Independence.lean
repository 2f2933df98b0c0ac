import LimbAnimation.Proofs.Stage.Cues
import LimbAnimation.Proofs.Stage.Simulation

/-!
# Actors do not disturb each other

In a whole run, what the frames tell of an actor is what a solo shows on the cues
for this actor from its creation to its removal.  So nothing that others do, and
no clip that is exchanged after it was played, makes a difference.
-/

namespace LimbAnimation

namespace Stage

/-- What holds of every stage that a run from the start leads to. -/
structure Reached (roster : Roster) (stage : Stage) : Prop where
  lists : Lists roster stage
  ascends : roster.Ascends
  balanced : ∃ history, Balanced stage history

theorem reached_start (timing : Timing) : Reached .empty (Stage.start timing) :=
  ⟨lists_start timing, Roster.ascends_empty, .none, .start timing⟩

namespace Reached

variable {roster : Roster} {stage : Stage}

theorem nodup (reached : Reached roster stage) : stage.cast.Nodup :=
  reached.lists.cast ▸ reached.ascends.nodup

theorem after (reached : Reached roster stage) (action : Action)
    (few : (roster.after action).created ≤ 2 ^ 32) :
    Reached (roster.after action) (stage.after action) := by
  obtain ⟨lists, ascends, history, balanced⟩ := reached
  exact ⟨lists.after action, Roster.ascends_after ascends action few, _,
    after_balanced balanced action⟩

theorem run (reached : Reached roster stage) (actions : List Action)
    (few : roster.created + creations actions ≤ 2 ^ 32) :
    Reached (roster.run actions) (stage.run actions) := by
  obtain ⟨lists, ascends, history, balanced⟩ := reached
  exact ⟨lists.run actions, Roster.ascends_run ascends actions few, _,
    run_balanced balanced actions⟩

end Reached

/-- The actions do not create so many actors that ids repeat, and none of the new
actors gets the given id. -/
structure Apart (id : ActorId) (roster : Roster) (actions : List Action) : Prop where
  few : roster.created + creations actions ≤ 2 ^ 32
  other : id.number.toNat < roster.created ∨
    roster.created + creations actions ≤ id.number.toNat

namespace Apart

variable {id : ActorId} {roster : Roster} {stage : Stage} {action : Action}
  {rest : List Action}

theorem fresh (apart : Apart id roster (action :: rest)) (lists : Lists roster stage)
    (creation : action.isCreation = true) : stage.nextId ≠ id := by
  obtain ⟨few, other⟩ := apart
  rw [creations_cons, if_pos creation] at few other
  have below : roster.created < 2 ^ 32 := by omega
  have number : roster.nextId.number.toNat = roster.created := UInt32.toNat_ofNat_of_lt below
  rw [lists.nextId]
  rintro rfl
  omega

theorem few_after (apart : Apart id roster (action :: rest)) :
    (roster.after action).created ≤ 2 ^ 32 := by
  have few := apart.few
  rw [creations_cons] at few
  rw [Roster.after_created]
  omega

theorem tail (apart : Apart id roster (action :: rest)) :
    Apart id (roster.after action) rest := by
  obtain ⟨few, other⟩ := apart
  rw [creations_cons] at few other
  have created := Roster.after_created roster action
  exact ⟨by omega, by omega⟩

end Apart

/-- What the frames of a run tell of an actor. -/
def parts (stage : Stage) (id : ActorId) (actions : List Action) : List Part :=
  (stage.outputs actions).map (Outputs.part id)

theorem parts_cons (stage : Stage) (id : ActorId) (action : Action) (rest : List Action) :
    stage.parts id (action :: rest) =
      (stage.outputs? action).toList.map (Outputs.part id) ++
        (stage.after action).parts id rest := by
  simp [parts, outputs]

theorem parts_append (stage : Stage) (id : ActorId) (first later : List Action) :
    stage.parts id (first ++ later) =
      stage.parts id first ++ (stage.run first).parts id later := by
  simp [parts, outputs_append]

/-- Nothing is told of an actor who is not there and does not come. -/
theorem parts_of_absent {stage : Stage} {roster : Roster} {id : ActorId}
    (reached : Reached roster stage) (absent : stage.solo? id = none) (actions : List Action)
    (apart : Apart id roster actions) :
    stage.parts id actions = List.replicate (updates actions) .none := by
  induction actions generalizing stage roster with
  | nil => rfl
  | cons action rest ih =>
      obtain ⟨history, balanced⟩ := reached.balanced
      have fresh := apart.fresh reached.lists
      rw [parts_cons, outputs?_part_of_absent reached.nodup balanced absent,
        ih (reached.after action apart.few_after) (after_solo?_of_absent fresh absent) apart.tail,
        List.replicate_append_replicate, updates_cons, Nat.add_comm]

/-- As long as an actor is not removed, the frames tell of it what its solo shows. -/
theorem parts_of_present {stage : Stage} {roster : Roster} {id : ActorId} {solo : Solo}
    (reached : Reached roster stage) (here : stage.solo? id = some solo) (actions : List Action)
    (apart : Apart id roster actions)
    (stays : ∀ action ∈ actions, action.removes id = false) :
    stage.parts id actions =
      (solo.shows (cues stage.timing id stage.library actions)).map (Shown.part id) := by
  induction actions generalizing stage roster solo with
  | nil => rfl
  | cons action rest ih =>
      obtain ⟨history, balanced⟩ := reached.balanced
      have fresh := apart.fresh reached.lists
      have next := after_solo? fresh (stays action List.mem_cons_self)
      rw [here] at next
      have onRest := ih (reached.after action apart.few_after) next apart.tail
        fun other member => stays other (List.mem_cons_of_mem _ member)
      rw [parts_cons, outputs?_part reached.nodup balanced here, onRest, after_timing,
        after_library, cues, Solo.shows_append, List.map_append]

/-- Once an actor is removed, nothing more is told of it. -/
theorem parts_of_leaving {stage : Stage} {roster : Roster} {id : ActorId}
    (reached : Reached roster stage) (actions : List Action) (apart : Apart id roster actions)
    (leaves : ∀ action ∈ actions.head?, action.removes id = true) :
    stage.parts id actions = List.replicate (updates actions) .none := by
  cases actions with
  | nil => rfl
  | cons action rest =>
      have removes := leaves action rfl
      cases action with
      | removeActor other =>
          obtain rfl : other = id := of_decide_eq_true removes
          have absent := removeActor_solo?_self stage other
          exact parts_of_absent (reached.after _ apart.few_after) absent rest apart.tail
      | setLibrary library => cases removes
      | createActor name => cases removes
      | request command => cases removes
      | update seconds inputs => cases removes

/-- From an actor on the stage, a solo is shown until the actor is removed. -/
theorem parts_of_joined {stage : Stage} {roster : Roster} {id : ActorId} {solo : Solo}
    (reached : Reached roster stage) (here : stage.solo? id = some solo)
    (old : id.number.toNat < roster.created) (actions : List Action)
    (few : roster.created + creations actions ≤ 2 ^ 32) :
    stage.parts id actions =
      (solo.shows (cues stage.timing id stage.library (stay id actions))).map (Shown.part id) ++
        List.replicate (updates (leave id actions)) .none := by
  rw [← stay_append_leave id actions, creations_append] at few
  have during := parts_of_present reached here (stay id actions) ⟨by omega, .inl old⟩
    fun action member => removes_of_mem_stay member
  have created := Roster.run_created roster (stay id actions)
  have later := parts_of_leaving (reached.run (stay id actions) (by omega)) (leave id actions)
    ⟨by omega, .inl (by omega)⟩ fun action first => removes_of_head_leave first
  have whole := stage.parts_append id (stay id actions) (leave id actions)
  rwa [stay_append_leave, during, later] at whole

/-- In a run from the start, the frames tell of an actor what a solo shows from the
creation of the actor to its removal. -/
theorem parts_of_run {timing : Timing} {stage : Stage} {before : List Action}
    (arrives : (Stage.start timing).run before = stage) (rest : List Action) (name : String)
    (fewActors : creations (before ++ .createActor name :: rest) < 2 ^ 32) :
    (Stage.start timing).parts stage.nextId (before ++ .createActor name :: rest) =
      List.replicate (updates before) .none ++
        (((Solo.start timing).shows
              (cues timing stage.nextId stage.library (stay stage.nextId rest))).map
            (Shown.part stage.nextId) ++
          List.replicate (updates (leave stage.nextId rest)) .none) := by
  rw [creations_append, creations_cons, if_pos (by rfl)] at fewActors
  have empty : Roster.empty.created = 0 := rfl
  have created : (Roster.empty.run before).created = creations before := by
    rw [Roster.run_created, empty, Nat.zero_add]
  have below : creations before < 2 ^ 32 := by omega
  have start := reached_start timing
  have reached : Reached (Roster.empty.run before) stage :=
    arrives ▸ start.run before (by omega)
  have number : stage.nextId.number.toNat = creations before := by
    rw [reached.lists.nextId, Roster.nextId, created]
    exact UInt32.toNat_ofNat_of_lt below
  -- Ids are given out in order, so none before is the actor's.
  have early : (Stage.start timing).parts stage.nextId before =
      List.replicate (updates before) .none :=
    parts_of_absent start rfl before ⟨by omega, .inr (by omega)⟩
  have fresh : stage.nextId ∉ stage.cast := by
    rw [reached.lists.cast, reached.lists.nextId]
    exact reached.ascends.nextId_fresh (created ▸ below)
  have createdNow := Roster.after_created (Roster.empty.run before) (.createActor name)
  rw [created, if_pos (by rfl)] at createdNow
  have joined : Reached _ (stage.createActor name) :=
    reached.after (.createActor name) (by omega)
  have sameTiming : stage.timing = timing := arrives ▸ run_timing _ before
  have here := createActor_solo?_nextId fresh name
  have later := parts_of_joined joined here (by omega) rest (by omega)
  rw [show (stage.createActor name).timing = timing from sameTiming, sameTiming] at later
  rw [parts_append, early, arrives, parts_cons]
  exact congrArg _ later

/-- In a run from the start, take any actor from its creation on.  Every frame
shows everybody who is there once, in the order of creation.  What the frames tell
of the actor is what a solo shows that follows the cues for this actor until the
actor is removed.  It stays the same when everything that is for others is left
out of the run, and when the library is exchanged once the actor does not play any
more. -/
theorem actors_play_alone (timing : Timing) (before rest : List Action) (name : String)
    (fewActors : creations (before ++ .createActor name :: rest) < 2 ^ 32) :
    let start := Stage.start timing
    let stage := start.run before
    let id := stage.nextId
    let run := fun rest => before ++ Action.createActor name :: rest
    (start.outputs (run rest)).map (fun outputs => outputs.frames.map Frame.actor) =
        Roster.empty.casts (run rest) ∧
      (∀ cast ∈ Roster.empty.casts (run rest),
        cast.Pairwise fun left right => left.number < right.number) ∧
      start.parts id (run rest) =
        List.replicate (updates before) .none ++
          (((Solo.start timing).shows (cues timing id stage.library (stay id rest))).map
              (Shown.part id) ++
            List.replicate (updates (leave id rest)) .none) ∧
      start.parts id (run (only id rest)) = start.parts id (run rest) ∧
      ∀ first later library, rest = first ++ later →
        (∀ action ∈ later, action.playsOn id = false) →
        start.parts id (run (first ++ .setLibrary library :: later)) =
          start.parts id (run rest) := by
  intro start stage id run
  have arrives : start.run before = stage := rfl
  have alone := parts_of_run arrives rest name fewActors
  refine ⟨(lists_start timing).casts (run rest), ?_, alone, ?_, ?_⟩
  · have few : Roster.empty.created + creations (run rest) ≤ 2 ^ 32 := by
      rw [show Roster.empty.created = 0 from rfl, Nat.zero_add]
      exact fewActors.le
    exact Roster.ascends_empty.casts (run rest) few
  · have fewer : creations (run (only id rest)) < 2 ^ 32 := by
      simp only [run, creations_append, creations_cons, creations_only] at fewActors ⊢
      omega
    have other := parts_of_run arrives (only id rest) name fewer
    rw [stay_only, cues_only, leave_only, updates_only] at other
    exact other.trans alone.symm
  · rintro first later library rfl noPlay
    have same : creations (run (first ++ .setLibrary library :: later)) =
        creations (run (first ++ later)) := by
      simp [run, creations_append, creations_cons, Action.isCreation]
    have other := parts_of_run arrives (first ++ .setLibrary library :: later) name
      (same ▸ fewActors)
    rw [cues_stay_setLibrary timing id noPlay, updates_leave_setLibrary] at other
    exact other.trans alone.symm

/-- The second of two actors waves, while the first is sent away and the library
is emptied; after two frames the second is removed as well. -/
theorem second_actor_plays_alone :
    let wave : Clip := ⟨⟨"wave", "guard"⟩, none, none, [], .empty, 0, false, false⟩
    let before : List Action :=
      [.setLibrary (Library.empty.insert wave).1, .createActor "first", .update 0 .none]
    let rest : List Action :=
      [.request (.play ⟨1⟩ wave.key none), .update 0 ⟨[], [.setClock ⟨0⟩ false]⟩,
        .setLibrary .empty, .removeActor ⟨0⟩, .update 0 ⟨[], [.clear ⟨0⟩]⟩,
        .removeActor ⟨1⟩, .update 0 .none]
    creations (before ++ .createActor "second" :: rest) < 2 ^ 32 ∧
      (Stage.start .standard).parts ⟨1⟩ (before ++ .createActor "second" :: rest) =
        .none :: (((Solo.start .standard).shows [.play wave 1, .tick 0, .tick 0]).map
          (Shown.part ⟨1⟩) ++ [.none]) := by
  intro wave before rest
  have few : creations (before ++ .createActor "second" :: rest) < 2 ^ 32 := by decide
  obtain ⟨_, _, alone, _, _⟩ := actors_play_alone .standard before rest "second" few
  exact ⟨few, alone⟩

end Stage

end LimbAnimation
