import LimbAnimation.Proofs.Stage.History
import Mathlib.Data.List.Nodup

/-!
# The numbers of performances

The counter of an actor counts its plays.  As long as neither actors nor plays are
so many that a counter wraps around, no two performances get the same label.
-/

namespace LimbAnimation

/-- The number of performances of an actor. -/
def plays (id : ActorId) (begun : List Performance) : Nat :=
  begun.countP fun performance => performance.actor = id

@[simp] theorem plays_append (id : ActorId) (first later : List Performance) :
    plays id (first ++ later) = plays id first + plays id later := List.countP_append

/-- What an actor needs to number its next play. -/
def Actor.numbering (actor : Actor) : ActorId × Counter := (actor.id, actor.animator.ids)

/-- Performances are numbered by the counters of their actors, of whom fewer than
`created` have been created. -/
structure Numbered (created : Nat) (stage : Stage) (begun : List Performance) : Prop where
  counters : ∀ actor ∈ stage.actors, actor.animator.ids.next = .ofNat (plays actor.id begun)
  known : ∀ performance ∈ begun, performance.actor.number.toNat < created
  below : ∀ performance ∈ begun,
    performance.playback.number.toNat < plays performance.actor begun
  distinct : (begun.map Performance.label).Nodup

namespace Numbered

theorem start (timing : Timing) : Numbered 0 (Stage.start timing) [] :=
  ⟨by simp [Stage.start], by simp, by simp, List.nodup_nil⟩

theorem congr {created : Nat} {stage other : Stage} {begun : List Performance}
    (numbered : Numbered created stage begun)
    (same : other.actors.map Actor.numbering = stage.actors.map Actor.numbering) :
    Numbered created other begun := by
  refine ⟨?_, numbered.known, numbered.below, numbered.distinct⟩
  intro actor member
  have listed : actor.numbering ∈ stage.actors.map Actor.numbering :=
    same ▸ List.mem_map_of_mem member
  obtain ⟨before, place, equal⟩ := List.mem_map.mp listed
  obtain ⟨sameId, sameIds⟩ := Prod.mk.inj equal
  rw [← sameId, ← sameIds]
  exact numbered.counters before place

/-- A new play gets a number that its actor has not used. -/
theorem play {created : Nat} {stage : Stage} {begun : List Performance} {id : ActorId}
    {actor : Actor} (numbered : Numbered created stage begun) (nodup : stage.cast.Nodup)
    (found : stage.actor? id = some actor) (old : id.number.toNat < created)
    (few : plays id begun < 2 ^ 32) (clip : Clip) (speed : Single) :
    Numbered created (stage.modifyAnimator id fun animator => animator.play clip speed)
      (begun ++ [⟨id, actor.animator.nextId, clip.key⟩]) := by
  obtain ⟨counters, known, below, distinct⟩ := numbered
  have same : actor.id = id := Stage.id_of_actor? found
  have counter : actor.animator.ids.next = .ofNat (plays id begun) := by
    rw [← same]
    exact counters actor (List.mem_of_find?_eq_some found)
  have number : actor.animator.nextId.number.toNat = plays id begun := by
    rw [Animator.nextId, counter]
    exact UInt32.toNat_ofNat_of_lt few
  refine ⟨?_, ?_, ?_, ?_⟩
  · intro other member
    rcases Stage.mem_modifyActor nodup found member with rfl | ⟨unchanged, different⟩
    · simp [Animator.play, Animator.push, Counter.succ, counter, same, plays]
    · simpa [plays, different.symm] using counters other unchanged
  · intro performance member
    rcases List.mem_append.mp member with earlier | new
    · exact known performance earlier
    · rw [List.mem_singleton.mp new]
      exact old
  · intro performance member
    rcases List.mem_append.mp member with earlier | new
    · have smaller := below performance earlier
      rw [plays_append]
      omega
    · rw [List.mem_singleton.mp new]
      simp [number, plays]
  · rw [List.map_append, List.map_singleton]
    apply distinct.append (List.nodup_singleton _)
    simp only [List.disjoint_singleton, List.mem_map, not_exists, not_and]
    intro performance member equal
    obtain ⟨sameActor, samePlayback⟩ := Prod.mk.inj equal
    have smaller : actor.animator.nextId.number.toNat < plays id begun := by
      have usual := below performance member
      rwa [sameActor, samePlayback] at usual
    exact Nat.lt_irrefl _ (number ▸ smaller)

/-- A new actor has not played yet. -/
theorem create {stage : Stage} {roster : Roster} {begun : List Performance}
    (numbered : Numbered roster.created stage begun) (lists : Stage.Lists roster stage)
    (few : roster.created < 2 ^ 32) (name : String) :
    Numbered (roster.created + 1) (stage.createActor name) begun := by
  obtain ⟨counters, known, below, distinct⟩ := numbered
  have number : stage.nextId.number.toNat = roster.created := by
    rw [lists.nextId]
    exact UInt32.toNat_ofNat_of_lt few
  -- The new counter starts at zero, so nothing may have been played under the new id.
  have silent : plays stage.nextId begun = 0 := by
    rw [plays, List.countP_eq_zero]
    intro performance member
    have older := known performance member
    simp only [decide_eq_true_eq]
    intro equal
    rw [equal, number] at older
    exact Nat.lt_irrefl _ older
  refine ⟨?_, fun performance member => Nat.lt_succ_of_lt (known performance member), below,
    distinct⟩
  intro actor member
  rcases List.mem_append.mp member with before | new
  · exact counters actor before
  · rw [List.mem_singleton.mp new]
    simp [silent, Animator.start, Counter.start]

theorem command {created : Nat} {stage : Stage} {command : Command} {attempt : Stage.Attempt Unit}
    {begun : List Performance} (numbered : Numbered created stage begun)
    (obeys : stage.Obeys command attempt) (nodup : stage.cast.Nodup)
    (old : ∀ id ∈ stage.cast, id.number.toNat < created)
    (few : ∀ id, plays id (begun ++ (stage.commandHistory command).begun) < 2 ^ 32) :
    Numbered created attempt.stage (begun ++ (stage.commandHistory command).begun) := by
  cases obeys with
  | refused refusal =>
      rw [Stage.commandHistory_of_refused refusal]
      simpa [History.none] using numbered
  | @played id key speed clip actor stored found =>
      have earlier := few id
      rw [Stage.commandHistory_play stored found] at earlier ⊢
      rw [plays_append] at earlier
      exact (numbered.play nodup found (old id (Stage.mem_cast_of_actor? found)) (by omega)
        clip _).congr rfl
  | cleared found =>
      rw [Stage.commandHistory_clear found, List.append_nil]
      exact numbered.congr (map_modifyFirst (by intro _; rfl) stage.actors)
  | @switched id actor runs found =>
      have nothing : (stage.commandHistory (.setClock id runs)).begun = [] := rfl
      rw [nothing, List.append_nil]
      exact numbered.congr (map_modifyFirst (by intro _; rfl) stage.actors)

theorem inputs {created : Nat} {stage : Stage} {begun : List Performance}
    (numbered : Numbered created stage begun) (inputs : List ActorInput) :
    Numbered created (Stage.applyAll Stage.takeInput stage inputs).1 begun := by
  induction inputs generalizing stage with
  | nil => exact numbered
  | cons input rest ih =>
      rw [Stage.applyAll_cons]
      apply ih
      unfold Stage.takeInput Stage.change
      cases stage.actor? input.actor with
      | none => exact numbered
      | some actor => exact numbered.congr (map_modifyFirst (by intro _; rfl) stage.actors)

theorem commands {created : Nat} {stage : Stage} {begun : List Performance}
    (numbered : Numbered created stage begun) (commands : List Command)
    (nodup : stage.cast.Nodup) (old : ∀ id ∈ stage.cast, id.number.toNat < created)
    (few : ∀ id, plays id (begun ++ (stage.commandsHistory commands).begun) < 2 ^ 32) :
    Numbered created (Stage.applyAll Stage.obey stage commands).1
      (begun ++ (stage.commandsHistory commands).begun) := by
  induction commands generalizing stage begun with
  | nil => simpa [Stage.applyAll, History.none] using numbered
  | cons command rest ih =>
      have keeps := (Stage.obey_respects stage command).keeps
      simp only [Stage.commandsHistory, History.begun_append, ← List.append_assoc] at few ⊢
      rw [Stage.applyAll_cons]
      refine ih (numbered.command (Stage.obey_obeys stage command) nodup old ?_)
        (keeps.cast ▸ nodup) (keeps.cast ▸ old) few
      intro id
      have total := few id
      rw [plays_append] at total
      omega

/-- An action keeps the numbers in order. -/
theorem after {stage : Stage} {roster : Roster} {begun : List Performance}
    (numbered : Numbered roster.created stage begun) (lists : Stage.Lists roster stage)
    (ascends : roster.Ascends) (action : Action)
    (fewActors : (roster.after action).created ≤ 2 ^ 32)
    (fewPlays : ∀ id, plays id (begun ++ (stage.actionHistory action).begun) < 2 ^ 32) :
    Numbered (roster.after action).created (stage.after action)
      (begun ++ (stage.actionHistory action).begun) := by
  have nodup : stage.cast.Nodup := lists.cast ▸ ascends.nodup
  have old : ∀ id ∈ stage.cast, id.number.toNat < roster.created := lists.cast ▸ ascends.below
  cases action with
  | setLibrary library =>
      have same : Numbered roster.created (stage.after (.setLibrary library)) begun :=
        numbered.congr rfl
      rwa [Stage.actionHistory, History.begun_none, List.append_nil]
  | createActor name =>
      rw [Stage.actionHistory, History.begun_none, List.append_nil]
      exact numbered.create lists fewActors name
  | removeActor id =>
      rw [Stage.actionHistory, List.append_nil]
      refine ⟨?_, numbered.known, numbered.below, numbered.distinct⟩
      intro actor member
      exact numbered.counters actor (List.mem_filter.mp member).1
  | request command => exact numbered.command (Stage.obey_obeys stage command) nodup old fewPlays
  | update seconds inputs =>
      have keeps := Stage.applyAll_keeps Stage.takeInput_respects stage inputs.actors
      simp only [Stage.actionHistory, History.begun_append, List.append_nil] at fewPlays ⊢
      have ready := (numbered.inputs inputs.actors).commands inputs.commands
        (keeps.cast ▸ nodup) (keeps.cast ▸ old) fewPlays
      apply ready.congr
      simp [Stage.after, Stage.update, Stage.step, Stage.takeInputs, Function.comp_def,
        Actor.numbering, Actor.update, Animator.update]

theorem run {stage : Stage} {roster : Roster} {begun : List Performance}
    (numbered : Numbered roster.created stage begun) (lists : Stage.Lists roster stage)
    (ascends : roster.Ascends) (actions : List Action)
    (fewActors : roster.created + creations actions ≤ 2 ^ 32)
    (fewPlays : ∀ id, plays id (begun ++ (stage.history actions).begun) < 2 ^ 32) :
    Numbered (roster.run actions).created (stage.run actions)
      (begun ++ (stage.history actions).begun) := by
  induction actions generalizing stage roster begun with
  | nil =>
      rw [Stage.history_nil, History.begun_none, List.append_nil]
      exact numbered
  | cons action rest ih =>
      have created := Roster.after_created roster action
      rw [creations_cons] at fewActors
      have few : (roster.after action).created ≤ 2 ^ 32 := by omega
      simp only [Stage.history, History.begun_append, ← List.append_assoc] at fewPlays ⊢
      refine ih (numbered.after lists ascends action few ?_) (lists.after action)
        (Roster.ascends_after ascends action few) (by omega) fewPlays
      intro id
      have bound := fewPlays id
      rw [plays_append] at bound
      omega

end Numbered

end LimbAnimation
