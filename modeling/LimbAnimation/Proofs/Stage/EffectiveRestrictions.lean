import LimbAnimation.Proofs.Playback.InForce
import LimbAnimation.Proofs.Stage.Places

/-!
# The restrictions of frames

A frame shows the restrictions in force for the main playback when the commands of the
frame have been obeyed, and those that inputs supplied last for its actor.  Whatever else
happens to the actor in between, the supplied ones are kept.
-/

namespace LimbAnimation

section Supplies

/-- The restrictions that an input supplies for an actor. -/
def ActorInput.supplied? (id : ActorId) (input : ActorInput) : Option Restrictions :=
  if input.actor = id then input.additional else none

def Inputs.supplies (id : ActorId) (inputs : Inputs) : List Restrictions :=
  inputs.actors.filterMap (ActorInput.supplied? id)

def Action.supplies (id : ActorId) : Action → List Restrictions
  | .update _ inputs => inputs.supplies id
  | _ => []

theorem Action.supplies_of_quiet {id : ActorId} {action : Action}
    (quiet : action.isUpdate = false) : action.supplies id = [] := by
  cases action with
  | update seconds inputs => cases quiet
  | _ => rfl

def latest (supplies : List Restrictions) (otherwise : Restrictions) : Restrictions :=
  supplies.getLast?.getD otherwise

theorem latest_append (earlier later : List Restrictions) (otherwise : Restrictions) :
    latest (earlier ++ later) otherwise = latest later (latest earlier otherwise) := by
  rw [latest, List.getLast?_append, Option.getD_or]
  rfl

/-- What has reached an actor of an id: inputs go to the first one of that id. -/
def reaching (front : List ActorId) (id : ActorId) (supplies : List Restrictions)
    (otherwise : Restrictions) : Restrictions :=
  if id ∈ front then otherwise else latest supplies otherwise

theorem reaching_nil (front : List ActorId) (id : ActorId) (otherwise : Restrictions) :
    reaching front id [] otherwise = otherwise := ite_self _

theorem reaching_congr {front front' : List ActorId} {id : ActorId}
    (same : id ∈ front' ↔ id ∈ front) : reaching front' id = reaching front id := by
  funext supplies otherwise
  simp only [reaching, same]

theorem reaching_append (front : List ActorId) (id : ActorId)
    (earlier later : List Restrictions) (otherwise : Restrictions) :
    reaching front id (earlier ++ later) otherwise =
      reaching front id later (reaching front id earlier otherwise) := by
  unfold reaching
  split
  · rfl
  · exact latest_append earlier later otherwise

end Supplies

namespace Stage

/-- The ids of the actors with their additional restrictions. -/
def additionals (stage : Stage) : List (ActorId × Restrictions) :=
  stage.actors.map fun actor => (actor.id, actor.animator.additional)

/-- Behind `front` stands an actor of an id with some additional restrictions. -/
def Stands (stage : Stage) (front : List ActorId) (id : ActorId) (additional : Restrictions) :
    Prop :=
  ∃ ahead behind, stage.additionals = ahead ++ (id, additional) :: behind ∧
    ahead.map Prod.fst = front

theorem step_additionals (stage : Stage) (seconds : Single) :
    (stage.step seconds).1.additionals = stage.additionals := by
  simp [step, additionals, Actor.update, Animator.update, Function.comp_def]

theorem modifyAnimator_additionals {change : Animator → Animator}
    (kept : ∀ animator, (change animator).additional = animator.additional) (stage : Stage)
    (id : ActorId) : (stage.modifyAnimator id change).additionals = stage.additionals := by
  unfold additionals modifyAnimator modifyActor
  apply map_modifyFirst
  intro actor
  rw [kept]

theorem Obeys.additionals {stage : Stage} {command : Command} {attempt : Attempt Unit}
    (obeys : Obeys stage command attempt) :
    attempt.stage.additionals = stage.additionals := by
  cases obeys with
  | refused refusal => rfl
  | @played id key speed clip actor stored found =>
      have kept : ∀ animator : Animator,
          (animator.play clip (speed.getD stage.timing.defaultSpeed)).additional =
            animator.additional := by
        intro animator
        rfl
      exact modifyAnimator_additionals kept stage id
  | cleared found => exact modifyAnimator_additionals (by intro _; rfl) stage _
  | switched found => exact modifyAnimator_additionals (by intro _; rfl) stage _

theorem applyAll_obey_additionals (stage : Stage) (commands : List Command) :
    (applyAll obey stage commands).1.additionals = stage.additionals := by
  induction commands generalizing stage with
  | nil => rfl
  | cons command rest ih => rw [applyAll_cons, ih, (obey_obeys stage command).additionals]

theorem takeInput_additionals (stage : Stage) (input : ActorInput) :
    (stage.takeInput input).stage.additionals =
      modifyFirst (fun entry => entry.1 = input.actor)
        (fun entry => (entry.1, input.additional.getD entry.2)) stage.additionals := by
  have changed : (stage.takeInput input).stage.additionals =
      (stage.modifyActor input.actor fun actor => actor.withInput input).additionals := by
    cases found : stage.actor? input.actor with
    | some actor => rw [takeInput, change_of_found found]
    | none =>
        rw [takeInput, change_of_absent found, modifyActor, modifyFirst_of_find?_eq_none _ found]
  rw [changed]
  exact map_modifyFirst_eq_modifyFirst (by intro _; rfl) (by intro _; rfl) stage.actors

theorem after_additionals (stage : Stage) {action : Action} (quiet : action.isUpdate = false) :
    (stage.after action).additionals =
      stage.additionals.filter (fun entry => !action.removes entry.1) ++
        if action.isCreation then [(stage.nextId, .empty)] else [] := by
  have everybody : stage.additionals.filter (fun _ => !false) = stage.additionals :=
    List.filter_eq_self.mpr fun _ _ => rfl
  cases action with
  | setLibrary library => exact ((List.append_nil _).trans everybody).symm
  | createActor name =>
      have created : (stage.after (.createActor name)).additionals =
          stage.additionals ++ [(stage.nextId, .empty)] := List.map_append
      rw [created]
      exact congrArg (· ++ _) everybody.symm
  | removeActor other =>
      have removed : stage.additionals.filter (fun entry => !(Action.removeActor other).removes
          entry.1) = (stage.after (.removeActor other)).additionals := by
        rw [additionals, List.filter_map]
        exact congrArg (fun stays => (stage.actors.filter fun actor => stays actor.id).map _)
          (Action.not_removes_removeActor other)
      exact ((List.append_nil _).trans removed).symm
  | request command =>
      have kept := (obey_obeys stage command).additionals
      exact kept.trans ((List.append_nil _).trans everybody).symm
  | update seconds inputs => cases quiet

namespace Stands

variable {stage : Stage} {front : List ActorId} {id : ActorId} {additional : Restrictions}

theorem congr {other : Stage} (stands : stage.Stands front id additional)
    (same : other.additionals = stage.additionals) : other.Stands front id additional := by
  rwa [Stands, same]

theorem takeInput (stands : stage.Stands front id additional) (input : ActorInput) :
    (stage.takeInput input).stage.Stands front id
      (reaching front id (input.supplied? id).toList additional) := by
  obtain ⟨ahead, behind, additionals, rfl⟩ := stands
  rw [Stands, takeInput_additionals, additionals, modifyFirst_append]
  split
  next present =>
      -- An actor in front has the id of the input.
      have kept : reaching (ahead.map Prod.fst) id (input.supplied? id).toList additional =
          additional := by
        by_cases mine : input.actor = id
        · rw [reaching, if_pos]
          simpa [mine] using present
        · rw [ActorInput.supplied?, if_neg mine]
          exact reaching_nil _ _ _
      rw [kept]
      exact ⟨_, behind, rfl, map_modifyFirst (by intro _; rfl) ahead⟩
  next absent =>
      by_cases mine : input.actor = id
      · have first : id ∉ ahead.map Prod.fst := by simpa [mine] using absent
        have reached : reaching (ahead.map Prod.fst) id (input.supplied? id).toList additional =
            input.additional.getD additional := by
          rw [reaching, if_neg first, ActorInput.supplied?, if_pos mine, latest]
          cases input.additional <;> rfl
        rw [reached, modifyFirst, if_pos (decide_eq_true mine.symm)]
        exact ⟨ahead, behind, rfl, rfl⟩
      · have other : ¬ decide (id = input.actor) = true := fun same =>
          mine (of_decide_eq_true same).symm
        rw [ActorInput.supplied?, if_neg mine, Option.toList_none, reaching_nil, modifyFirst,
          if_neg other]
        exact ⟨ahead, _, rfl, rfl⟩

theorem takeInputs (stands : stage.Stands front id additional) (inputs : Inputs) :
    (stage.takeInputs inputs).1.Stands front id
      (reaching front id (inputs.supplies id) additional) := by
  have taken : (applyAll Stage.takeInput stage inputs.actors).1.Stands front id
      (reaching front id (inputs.supplies id) additional) := by
    unfold Inputs.supplies
    induction inputs.actors generalizing stage additional with
    | nil => rwa [List.filterMap_nil, reaching_nil]
    | cons input rest ih =>
        have cut : (input :: rest).filterMap (ActorInput.supplied? id) =
            (input.supplied? id).toList ++ rest.filterMap (ActorInput.supplied? id) := by
          rw [List.filterMap_cons]
          cases input.supplied? id <;> rfl
        rw [applyAll_cons, cut, reaching_append]
        exact ih (stands.takeInput input)
  exact taken.congr (applyAll_obey_additionals _ inputs.commands)

theorem after (stands : stage.Stands front id additional) {action : Action}
    (stays : action.removes id = false) :
    (stage.after action).Stands (front.filter fun other => !action.removes other) id
      (reaching front id (action.supplies id) additional) := by
  cases quiet : action.isUpdate with
  | false =>
      rw [Action.supplies_of_quiet quiet, reaching_nil]
      obtain ⟨ahead, behind, additionals, rfl⟩ := stands
      rw [List.filter_map]
      have cut : (stage.after action).additionals =
          ahead.filter (fun entry => !action.removes entry.1) ++
            (id, additional) :: (behind.filter (fun entry => !action.removes entry.1) ++
              if action.isCreation then [(stage.nextId, .empty)] else []) := by
        rw [after_additionals stage quiet, additionals, List.filter_append,
          List.filter_cons_of_pos (by simp [stays]), List.append_assoc, List.cons_append]
      exact ⟨_, _, cut, rfl⟩
  | true =>
      cases action with
      | update seconds inputs =>
          have everybody :
              (front.filter fun other => !(Action.update seconds inputs).removes other) =
              front := List.filter_eq_self.mpr fun _ _ => rfl
          rw [everybody]
          exact (stands.takeInputs inputs).congr (step_additionals _ seconds)
      | _ => cases quiet

theorem run (stands : stage.Stands front id additional) {actions : List Action}
    (stays : outlasts actions id = true) :
    (stage.run actions).Stands (front.filter (outlasts actions)) id
      (reaching front id (actions.flatMap (Action.supplies id)) additional) := by
  induction actions generalizing stage front additional with
  | nil =>
      have everybody : front.filter (outlasts []) = front :=
        List.filter_eq_self.mpr fun _ _ => rfl
      rwa [List.flatMap_nil, reaching_nil, everybody]
  | cons action rest ih =>
      rw [outlasts, List.all_cons, Bool.and_eq_true, Bool.not_eq_true'] at stays
      have next := ih (stands.after stays.1) stays.2
      have same : id ∈ front.filter (fun other => !action.removes other) ↔ id ∈ front := by
        simp [stays.1]
      have both : front.filter (outlasts (action :: rest)) =
          (front.filter fun other => !action.removes other).filter (outlasts rest) := by
        rw [List.filter_filter]
        exact List.filter_congr fun other _ => Bool.and_comm _ _
      rw [reaching_congr same] at next
      rw [both, List.flatMap_cons, reaching_append]
      exact next

/-- In a run from the start, what has reached an actor is decided from its creation on. -/
theorem of_joins {actions early since : List Action}
    (joins : Joins actions front id early since) (timing : Timing) :
    ((Stage.start timing).run actions).Stands front id
      (reaching (Roster.empty.run early).present id (since.flatMap (Action.supplies id))
        .empty) := by
  obtain ⟨⟨name, rfl⟩, numbered, stays, rfl⟩ := joins
  have lists := (lists_start timing).run early
  have created : (((Stage.start timing).run early).createActor name).Stands
      (Roster.empty.run early).present id .empty := by
    rw [numbered, ← lists.nextId, ← lists.cast]
    exact ⟨_, [], List.map_append, List.map_map⟩
  rw [run_append]
  exact created.run stays

theorem additional_eq {ahead behind : List Actor} {actor : Actor}
    (stands : stage.Stands front id additional)
    (actors : stage.actors = ahead ++ actor :: behind) (place : ahead.length = front.length) :
    actor.animator.additional = additional := by
  obtain ⟨ahead', behind', additionals, rfl⟩ := stands
  rw [Stage.additionals, actors, List.map_append, List.map_cons] at additionals
  have lengths : (ahead.map fun actor => (actor.id, actor.animator.additional)).length =
      ahead'.length := by simpa using place
  obtain ⟨_, same⟩ := List.append_inj additionals lengths
  exact congrArg Prod.snd (List.cons.inj same).1

end Stands

theorem exists_update_of_mem_outputs {stage : Stage} {actions : List Action} {outputs : Outputs}
    (shown : outputs ∈ stage.outputs actions) :
    ∃ before seconds inputs later, actions = before ++ .update seconds inputs :: later ∧
      outputs = ((stage.run before).update seconds inputs).2 := by
  induction actions generalizing stage with
  | nil => cases shown
  | cons action rest ih =>
      rcases List.mem_append.mp shown with now | later
      · rw [Option.mem_toList] at now
        cases action with
        | update seconds inputs =>
            cases now
            exact ⟨[], seconds, inputs, rest, rfl, rfl⟩
        | _ => cases now
      · obtain ⟨before, seconds, inputs, behind, rfl, rfl⟩ := ih later
        exact ⟨action :: before, seconds, inputs, behind, rfl, rfl⟩

/-- The frame of an actor shows the restrictions that its stack brings and the additional
ones, as they are when the inputs have been taken. -/
theorem exists_actor_of_frame {stage : Stage} {seconds : Single} {inputs : Inputs}
    {ahead behind : List Frame} {frame : Frame}
    (listed : (stage.update seconds inputs).2.frames = ahead ++ frame :: behind) :
    ∃ before actor after, (stage.takeInputs inputs).1.actors = before ++ actor :: after ∧
      before.length = ahead.length ∧ actor.id = frame.actor ∧
      frame.restrictions =
        actor.animator.stack.ownRestrictions ∪ actor.animator.additional := by
  have frames : (stage.takeInputs inputs).1.actors.map (fun actor =>
      actor.frame (actor.update seconds)) = ahead ++ frame :: behind := by
    rw [← listed]
    simp [Stage.update, step]
  obtain ⟨before, rest, actors, rfl, tail⟩ := List.map_eq_append_iff.mp frames
  obtain ⟨actor, after, rfl, rfl, _⟩ := List.map_eq_cons_iff.mp tail
  exact ⟨before, actor, after, actors, (List.length_map _).symm, rfl, rfl⟩

/-- Take any frame of any run from the start.  It belongs to an update, and to the actor at
its place when the inputs of this update have been taken.  The frame shows what the stack
of the actor brings at that moment, and what inputs supplied last since the actor was
created, this update included; nothing else counts.  Unless as many actors were created
as there are ids, nobody had the id before. -/
theorem frames_show_effective_restrictions (timing : Timing) (actions : List Action)
    {outputs : Outputs} (shown : outputs ∈ (Stage.start timing).outputs actions)
    {ahead behind : List Frame} {frame : Frame}
    (listed : outputs.frames = ahead ++ frame :: behind) :
    ∃ before seconds inputs later, actions = before ++ .update seconds inputs :: later ∧
      let stage := (Stage.start timing).run before
      let ready := (stage.takeInputs inputs).1
      outputs = (stage.update seconds inputs).2 ∧
      ∃ actor own early since, ready.actors[ahead.length]? = some actor ∧
        actor.id = frame.actor ∧
        Joins (before ++ [.update seconds inputs]) (ahead.map Frame.actor) frame.actor early
          since ∧
        frame.restrictions = own ∪ reaching (Roster.empty.run early).present frame.actor
          (since.flatMap (Action.supplies frame.actor)) .empty ∧
        (creations early < 2 ^ 32 → frame.actor ∉ (Roster.empty.run early).present) ∧
        actor.animator.stack.Brings own ∧
        ∀ main last, actor.animator.stack.main? = some main →
          main.clip.restrictions.entries.getLast? = some last → last.time ≤ main.timer →
          own = last.restrictions := by
  obtain ⟨before, seconds, inputs, later, rfl, rfl⟩ := exists_update_of_mem_outputs shown
  refine ⟨before, seconds, inputs, later, rfl, rfl, ?_⟩
  have ended : (Stage.start timing).run (before ++ [.update seconds inputs]) =
      (((Stage.start timing).run before).update seconds inputs).1 := by
    rw [run_append]
    rfl
  have present : (Roster.empty.run (before ++ [.update seconds inputs])).present =
      ahead.map Frame.actor ++ frame.actor :: behind.map Frame.actor := by
    rw [← ((lists_start timing).run _).cast, ended, (update_keeps _ seconds inputs).cast,
      ← update_frames _ seconds inputs, listed, List.map_append, List.map_cons]
  obtain ⟨early, since, joins⟩ := Roster.exists_joins present
  obtain ⟨peers, actor, others, actors, place, sameId, restrictions⟩ :=
    exists_actor_of_frame listed
  -- Moving on does not touch the additional restrictions.
  have stands := Stands.of_joins joins timing
  rw [ended] at stands
  have ready := stands.congr (step_additionals _ seconds).symm
  have additional := ready.additional_eq actors (by rw [place, List.length_map])
  have brings : actor.animator.stack.Brings actor.animator.stack.ownRestrictions :=
    Stack.brings_iff.mpr rfl
  refine ⟨actor, _, early, since, ?_, sameId, joins, ?_, ?_, brings, ?_⟩
  · rw [actors, ← place, List.getElem?_append_right (Nat.le_refl _), Nat.sub_self]
    rfl
  · rw [restrictions, additional]
  · exact joins.fresh
  · exact fun main last playing final begun => brings.eq_last playing final begun

/-- The first of two actors walks and may not shoot; in the next frame it is cleared, and
still may not shoot. -/
theorem walker_keeps_supplied_restrictions :
    let walking := Restriction.preventWalking.set
    let shooting := Restriction.preventShooting.set
    let walk : Clip := ⟨⟨"walk", "guard"⟩, none, none, [], ⟨[⟨0, walking⟩]⟩, 1, false, false⟩
    let actions : List Action :=
      [.setLibrary (Library.empty.insert walk).1, .createActor "first", .createActor "second",
        .update 0 ⟨[⟨⟨0⟩, none, none, some shooting⟩], [.play ⟨0⟩ walk.key none]⟩,
        .update 0 ⟨[], [.clear ⟨0⟩]⟩]
    let first : Outputs :=
      ⟨[⟨⟨0⟩, .rest, walking ∪ shooting⟩, ⟨⟨1⟩, .rest, .empty⟩], [.started ⟨0⟩ ⟨0⟩ walk.key]⟩
    let second : Outputs := ⟨[⟨⟨0⟩, .rest, shooting⟩, ⟨⟨1⟩, .rest, .empty⟩], []⟩
    first ∈ (Stage.start .standard).outputs actions ∧
      second ∈ (Stage.start .standard).outputs actions ∧
      ∃ (own : Restrictions) (early since : List Action),
        shooting = own ∪ reaching (Roster.empty.run early).present ⟨0⟩
          (since.flatMap (Action.supplies ⟨0⟩)) .empty ∧
        (creations early < 2 ^ 32 → ⟨0⟩ ∉ (Roster.empty.run early).present) := by
  intro walking shooting walk actions first second
  have shown : first ∈ (Stage.start .standard).outputs actions := by decide +kernel
  have kept : second ∈ (Stage.start .standard).outputs actions := by decide +kernel
  have listed : second.frames = [] ++ ⟨⟨0⟩, .rest, shooting⟩ :: [⟨⟨1⟩, .rest, .empty⟩] := rfl
  obtain ⟨_, _, _, _, _, _, _, own, early, since, _, _, _, union, fresh, _⟩ :=
    frames_show_effective_restrictions .standard actions kept listed
  exact ⟨shown, kept, own, early, since, union, fresh⟩

end Stage

end LimbAnimation
