import LimbAnimation.Proofs.Stage.Runs
import Mathlib.Data.List.Induction

/-!
# Places on a stage

Actors stand in the order in which they were created, and whoever is removed leaves no
gap.  So the place of an actor tells which action has created it, even when ids have
wrapped around and are shared.
-/

namespace LimbAnimation

theorem Action.not_removes_removeActor (other : ActorId) :
    (fun id => !(removeActor other).removes id) = fun id => decide (id ≠ other) := by
  funext id
  rw [removes, decide_not, decide_eq_decide.mpr eq_comm]

/-- Whether some actions leave an actor of an id on the stage. -/
def outlasts (actions : List Action) (id : ActorId) : Bool :=
  actions.all fun action => !action.removes id

theorem outlasts_concat (actions : List Action) (action : Action) :
    outlasts (actions ++ [action]) = fun id => outlasts actions id && !action.removes id := by
  funext id
  simp [outlasts]

/-- Who stands behind `front` after a run: an action has created the actor, and no later
one has removed it.  Those in front were there at that time and have stayed as well. -/
structure Joins (actions : List Action) (front : List ActorId) (id : ActorId)
    (early since : List Action) : Prop where
  created : ∃ name, actions = early ++ .createActor name :: since
  numbered : id = (Roster.empty.run early).nextId
  stays : outlasts since id = true
  ahead : front = (Roster.empty.run early).present.filter (outlasts since)

theorem Joins.concat {actions : List Action} {front : List ActorId} {id : ActorId}
    {early since : List Action} (joins : Joins actions front id early since) {action : Action}
    (stays : action.removes id = false) :
    Joins (actions ++ [action]) (front.filter fun other => !action.removes other) id early
      (since ++ [action]) := by
  obtain ⟨⟨name, created⟩, numbered, outlasted, ahead⟩ := joins
  refine ⟨⟨name, by simp [created]⟩, numbered, by simp [outlasts_concat, outlasted, stays], ?_⟩
  rw [outlasts_concat, ahead, List.filter_filter]
  simp only [Bool.and_comm]

namespace Roster

theorem run_concat (roster : Roster) (actions : List Action) (action : Action) :
    roster.run (actions ++ [action]) = (roster.run actions).after action := by
  rw [run, List.foldl_append]
  rfl

/-- Who stands there after an action has just been created, or was there before. -/
theorem after_cut {roster : Roster} {action : Action} {front behind : List ActorId}
    {id : ActorId} (cut : (roster.after action).present = front ++ id :: behind) :
    (∃ name, action = .createActor name ∧ roster.present = front ∧ roster.nextId = id) ∨
      (action.removes id = false ∧ ∃ front' behind', roster.present = front' ++ id :: behind' ∧
        front'.filter (fun other => !action.removes other) = front) := by
  cases action with
  | createActor name =>
      rcases List.eq_nil_or_concat behind with rfl | ⟨rest, last, rfl⟩
      · obtain ⟨same, next⟩ := List.append_singleton_inj.mp cut
        exact .inl ⟨name, rfl, same, next⟩
      · rw [List.concat_eq_append, ← List.cons_append, ← List.append_assoc] at cut
        obtain ⟨same, _⟩ := List.append_singleton_inj.mp cut
        exact .inr ⟨rfl, front, rest, same, by simp [Action.removes]⟩
  | removeActor other =>
      rw [Action.not_removes_removeActor]
      obtain ⟨first, later, parted, rfl, tail⟩ := List.filter_eq_append_iff.mp cut
      obtain ⟨skipped, behind', rfl, removed, stays, _⟩ := List.filter_eq_cons_iff.mp tail
      have nobody : skipped.filter (fun id => id ≠ other) = [] := List.filter_eq_nil_iff.mpr removed
      refine .inr ⟨?_, first ++ skipped, behind', ?_, ?_⟩
      · exact decide_eq_false fun same => of_decide_eq_true stays same.symm
      · rw [parted, List.append_assoc]
      · rw [List.filter_append, nobody, List.append_nil]
  | _ => exact .inr ⟨rfl, front, behind, cut, by simp [Action.removes]⟩

theorem exists_joins {actions : List Action} {front behind : List ActorId} {id : ActorId}
    (cut : (empty.run actions).present = front ++ id :: behind) :
    ∃ early since, Joins actions front id early since := by
  induction actions using List.reverseRecOn generalizing front behind with
  | nil =>
      have nobody : [] = front ++ id :: behind := cut
      simp at nobody
  | append_singleton actions action ih =>
      rw [run_concat] at cut
      rcases after_cut cut with ⟨name, rfl, rfl, rfl⟩ | ⟨stays, front', behind', before, rfl⟩
      · exact ⟨actions, [], ⟨name, rfl⟩, rfl, rfl, (List.filter_eq_self.mpr fun _ _ => rfl).symm⟩
      · obtain ⟨early, since, joins⟩ := ih before
        exact ⟨early, since ++ [action], joins.concat stays⟩

end Roster

/-- Ids are not shared before they wrap around. -/
theorem Joins.fresh {actions : List Action} {front : List ActorId} {id : ActorId}
    {early since : List Action} (joins : Joins actions front id early since)
    (few : creations early < 2 ^ 32) : id ∉ (Roster.empty.run early).present := by
  have created : (Roster.empty.run early).created = creations early := by
    rw [Roster.run_created]
    exact Nat.zero_add _
  have bound : Roster.empty.created + creations early ≤ 2 ^ 32 := by
    rw [show Roster.empty.created = 0 from rfl, Nat.zero_add]
    exact Nat.le_of_lt few
  rw [joins.numbered]
  exact (Roster.ascends_run Roster.ascends_empty early bound).nextId_fresh (created ▸ few)

end LimbAnimation
