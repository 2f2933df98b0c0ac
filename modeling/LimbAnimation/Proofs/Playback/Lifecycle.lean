import LimbAnimation.Proofs.FirstMatch
import LimbAnimation.Proofs.Playback.Stack
import Mathlib.Data.List.Nodup

/-!
# The fates of playbacks

A playback that was pushed on a stack stays there until a step finds that it is over
or the stack is cleared.  In the first case that step reports its end, once, and tells
whoever waits for it, once; in the second case nobody hears of it any more.
-/

namespace LimbAnimation

/-- What a playback is apart from its speed and its timer. -/
structure Playback.Identity where
  id : PlaybackId
  clip : Clip
  awaited : Bool
  deriving DecidableEq

def Playback.identity (playback : Playback) : Identity :=
  ⟨playback.id, playback.clip, playback.awaited⟩

namespace Stack

/-- The playback that an owner changes: the main one, or the lowest of an id. -/
inductive Target where
  | main
  | named (id : PlaybackId)

/-- What an owner does with a stack. -/
inductive Request where
  | push (playback : Playback)
  | advance (seconds : Single)
  | clear
  | setClock (runs : Bool)
  | setTimer (target : Target) (seconds : Single)
  | setSpeed (target : Target) (speed : Single)
  | stop (target : Target)

def adjust (stack : Stack) (change : Playback → Playback) : Target → Stack
  | .main => stack.modifyMain change
  | .named id => stack.modify id change

def after (stack : Stack) : Request → Stack
  | .push playback => stack.push playback
  | .advance seconds => (stack.advance seconds).stack
  | .clear => stack.clear
  | .setClock runs => stack.setClock runs
  | .setTimer target seconds => stack.adjust (fun playback => playback.setTimer seconds) target
  | .setSpeed target speed => stack.adjust (fun playback => playback.setSpeed speed) target
  | .stop target => stack.adjust Playback.stopped target

def Request.pushed? : Request → Option Playback
  | .push playback => some playback
  | _ => none

def step? (stack : Stack) : Request → Option Step
  | .advance seconds => some (stack.advance seconds)
  | _ => none

/-- The playbacks that a request drops. -/
def droppedBy (stack : Stack) : Request → List Playback
  | .clear => stack.playbacks
  | _ => []

def pushes (requests : List Request) : List Playback := requests.filterMap Request.pushed?

def run (stack : Stack) (requests : List Request) : Stack := requests.foldl after stack

def steps : Stack → List Request → List Step
  | _, [] => []
  | stack, request :: rest => (stack.step? request).toList ++ (stack.after request).steps rest

def dropped : Stack → List Request → List Playback
  | _, [] => []
  | stack, request :: rest => stack.droppedBy request ++ (stack.after request).dropped rest

theorem pushes_cons (request : Request) (rest : List Request) :
    pushes (request :: rest) = request.pushed?.toList ++ pushes rest := by
  cases request <;> rfl

theorem run_cons (stack : Stack) (request : Request) (rest : List Request) :
    stack.run (request :: rest) = (stack.after request).run rest := rfl

theorem adjust_identities {change : Playback → Playback}
    (kept : ∀ playback, (change playback).identity = playback.identity) (stack : Stack)
    (target : Target) :
    (stack.adjust change target).playbacks.map Playback.identity =
      stack.playbacks.map Playback.identity := by
  cases target with
  | main =>
      rw [adjust, modifyMain, List.map_reverse, map_modifyFirst kept, ← List.map_reverse,
        List.reverse_reverse]
  | named id => exact map_modifyFirst kept stack.playbacks

/-- The ways in which a request can change who is on a stack. -/
inductive Moves (stack : Stack) : Request → Prop where
  | pushed (playback : Playback) : Moves stack (.push playback)
  | stepped (seconds : Single) : Moves stack (.advance seconds)
  | cleared : Moves stack .clear
  | kept {request : Request} : request.pushed? = none → stack.step? request = none →
      stack.droppedBy request = [] →
      (stack.after request).playbacks.map Playback.identity =
        stack.playbacks.map Playback.identity →
      Moves stack request

theorem moves (stack : Stack) (request : Request) : Moves stack request := by
  cases request with
  | push playback => exact .pushed playback
  | advance seconds => exact .stepped seconds
  | clear => exact .cleared
  | setClock runs => exact .kept rfl rfl rfl rfl
  | setTimer target seconds =>
      exact .kept rfl rfl rfl (adjust_identities (by intro _; rfl) stack target)
  | setSpeed target speed =>
      exact .kept rfl rfl rfl (adjust_identities (by intro _; rfl) stack target)
  | stop target =>
      exact .kept rfl rfl rfl (adjust_identities (by intro _; rfl) stack target)

/-- Whoever was there or is pushed stays, leaves with a step or is dropped. -/
theorem after_parts (stack : Stack) (request : Request) :
    ((stack.playbacks ++ request.pushed?.toList).map Playback.identity).Perm
      (((stack.after request).playbacks ++
        ((stack.step? request).toList.flatMap Step.left ++ stack.droppedBy request)).map
          Playback.identity) := by
  cases moves stack request with
  | pushed playback =>
      have nobody : (stack.step? (.push playback)).toList.flatMap Step.left ++
          stack.droppedBy (.push playback) = [] := rfl
      rw [nobody, List.append_nil]
      exact List.Perm.refl _
  | stepped seconds =>
      have parts := advance_parts Playback.identity (by intro _ _; rfl) stack seconds
      simpa [after, step?, droppedBy, Request.pushed?] using parts
  | cleared => simp [after, clear, step?, droppedBy, Request.pushed?]
  | kept noPush noStep noDrop same => simp [noPush, noStep, noDrop, same]

/-- Nobody is put before somebody who is there already. -/
theorem after_sublist (stack : Stack) (request : Request) :
    ((stack.after request).playbacks.map Playback.identity).Sublist
      ((stack.playbacks ++ request.pushed?.toList).map Playback.identity) := by
  cases moves stack request with
  | pushed playback => exact List.Sublist.refl _
  | stepped seconds =>
      have stay := advance_stay Playback.identity (by intro _ _; rfl) stack seconds
      have nobody : (Request.advance seconds).pushed?.toList = [] := rfl
      rw [after, stay, nobody, List.append_nil]
      exact List.filter_sublist.map _
  | cleared => exact List.nil_sublist _
  | kept noPush noStep noDrop same => simp [noPush, same]

theorem run_parts (stack : Stack) (requests : List Request) :
    ((stack.playbacks ++ pushes requests).map Playback.identity).Perm
      (((stack.run requests).playbacks ++
        ((stack.steps requests).flatMap Step.left ++ stack.dropped requests)).map
          Playback.identity) := by
  induction requests generalizing stack with
  | nil => simp [pushes, run, steps, dropped]
  | cons request rest ih =>
      have here := after_parts stack request
      have later := ih (stack.after request)
      simp only [List.perm_iff_count, List.map_append, List.count_append] at here later
      simp only [List.perm_iff_count, pushes_cons, run_cons, steps, dropped, List.flatMap_append,
        List.map_append, List.count_append]
      intro identity
      have now := here identity
      have afterwards := later identity
      omega

theorem run_sublist (stack : Stack) (requests : List Request) :
    ((stack.run requests).playbacks.map Playback.identity).Sublist
      ((stack.playbacks ++ pushes requests).map Playback.identity) := by
  induction requests generalizing stack with
  | nil => simp [pushes, run]
  | cons request rest ih =>
      have here := (after_sublist stack request).append_right
        ((pushes rest).map Playback.identity)
      have later := ih (stack.after request)
      rw [List.map_append] at later
      rw [run_cons, pushes_cons, ← List.append_assoc, List.map_append]
      exact later.trans here

/-- Where a playback can be that was pushed. -/
inductive Fate where
  | running
  | finished
  | dropped

/-- A step reports nothing of an id and tells nobody of it. -/
structure Step.Silent (step : Step) (id : PlaybackId) : Prop where
  unreported : ∀ ended ∈ step.ended, ended.id ≠ id
  unannounced : ∀ ended ∈ step.announced, ended.id ≠ id

/-- A step reports the end of a playback once, and tells whoever waits for it once,
with the same timer. -/
structure Step.Finishes (step : Step) (playback : Playback) (timer : Single) : Prop where
  reported : (step.ended.filter fun ended => ended.id = playback.id) =
    [⟨playback.id, playback.clip.key, timer⟩]
  announced : (step.announced.filter fun ended => ended.id = playback.id) =
    if playback.awaited then [⟨playback.id, playback.clip.key, timer⟩] else []

/-- The playback is on the stack once. -/
structure Running (requests : List Request) (playback : Playback) : Prop where
  present : ((empty.run requests).playbacks.map Playback.id).count playback.id = 1
  silent : ∀ step ∈ empty.steps requests, step.Silent playback.id
  kept : playback.id ∉ (empty.dropped requests).map Playback.id

/-- The playback has left the stack, and one step has told of it. -/
structure Finished (requests : List Request) (playback : Playback) : Prop where
  gone : playback.id ∉ (empty.run requests).playbacks.map Playback.id
  told : ∃ before step later timer, empty.steps requests = before ++ step :: later ∧
    step.Finishes playback timer ∧ ∀ other ∈ before ++ later, other.Silent playback.id
  kept : playback.id ∉ (empty.dropped requests).map Playback.id

/-- The stack was cleared when the playback was on it. -/
structure Dropped (requests : List Request) (playback : Playback) : Prop where
  gone : playback.id ∉ (empty.run requests).playbacks.map Playback.id
  silent : ∀ step ∈ empty.steps requests, step.Silent playback.id
  dropped : ((empty.dropped requests).map Playback.id).count playback.id = 1

def Fate.Meets (requests : List Request) (playback : Playback) : Fate → Prop
  | .running => Running requests playback
  | .finished => Finished requests playback
  | .dropped => Dropped requests playback

theorem Step.silent_of_not_mem {step : Step} {id : PlaybackId}
    (absent : id ∉ step.left.map Playback.id) : step.Silent id := by
  have other : ∀ playback ∈ step.left, playback.id ≠ id := fun playback member same =>
    absent (same ▸ List.mem_map_of_mem member)
  constructor
  · intro ended member
    obtain ⟨playback, leaves, rfl⟩ := List.mem_map.mp member
    exact other playback leaves
  · intro ended member
    obtain ⟨playback, leaves, rfl⟩ := List.mem_map.mp member
    exact other playback (List.mem_filter.mp leaves).1

theorem Step.finishes_of_mem {step : Step} {playback : Playback}
    (nodup : (step.left.map Playback.id).Nodup) (leaves : playback ∈ step.left) :
    step.Finishes playback playback.timer := by
  have own : (step.left.filter fun other => other.id = playback.id) = [playback] := by
    rw [filter_eq_find?_toList nodup, find?_eq_some_of_mem nodup leaves, Option.toList_some]
  constructor
  · rw [Step.ended, List.filter_map]
    exact congrArg (List.map Ended.ofPlayback) own
  · have awaited : ((step.left.filter Playback.awaited).filter fun other =>
        other.id = playback.id) = if playback.awaited then [playback] else [] := by
      rw [List.filter_comm, own, List.filter_singleton, Bool.cond_eq_ite]
    rw [Step.announced, List.filter_map]
    refine (congrArg (List.map Ended.ofPlayback) awaited).trans ?_
    cases playback.awaited <;> rfl

theorem Step.Finishes.of_identity {step : Step} {playback other : Playback} {timer : Single}
    (finishes : step.Finishes other timer) (same : other.identity = playback.identity) :
    step.Finishes playback timer := by
  obtain ⟨id, clip, awaited⟩ := Playback.Identity.mk.inj same
  obtain ⟨reported, announced⟩ := finishes
  rw [id, clip] at reported announced
  rw [awaited] at announced
  exact ⟨reported, announced⟩

section Fates

variable {requests : List Request}

/-- No id is in two places. -/
theorem places_nodup (distinct : ((pushes requests).map Playback.id).Nodup) :
    ((empty.run requests).playbacks.map Playback.id ++
      (((empty.steps requests).flatMap Step.left).map Playback.id ++
        (empty.dropped requests).map Playback.id)).Nodup := by
  have parts := (run_parts empty requests).map Playback.Identity.id
  simp only [List.map_append, List.map_map] at parts
  exact parts.nodup_iff.mp distinct

theorem silent_of_not_left {steps : List Step} {id : PlaybackId}
    (absent : id ∉ (steps.flatMap Step.left).map Playback.id) :
    ∀ step ∈ steps, step.Silent id := by
  intro step member
  apply Step.silent_of_not_mem
  intro leaves
  obtain ⟨playback, left, same⟩ := List.mem_map.mp leaves
  exact absent (List.mem_map.mpr ⟨playback, List.mem_flatMap_of_mem member left, same⟩)

/-- A playback that has left with some step has left with no other. -/
theorem exists_finishing_step {steps : List Step} {gone : Playback}
    (nodup : ((steps.flatMap Step.left).map Playback.id).Nodup)
    (left : gone ∈ steps.flatMap Step.left) :
    ∃ before step later, steps = before ++ step :: later ∧ step.Finishes gone gone.timer ∧
      ∀ other ∈ before ++ later, other.Silent gone.id := by
  obtain ⟨step, member, leaves⟩ := List.mem_flatMap.mp left
  obtain ⟨before, later, rfl⟩ := List.append_of_mem member
  rw [List.flatMap_append, List.flatMap_cons, ← List.append_assoc, List.map_append,
    List.map_append, List.nodup_append', List.nodup_append'] at nodup
  obtain ⟨⟨_, own, notBefore⟩, _, notLater⟩ := nodup
  have here : gone.id ∈ step.left.map Playback.id := List.mem_map_of_mem leaves
  have absent : gone.id ∉ ((before ++ later).flatMap Step.left).map Playback.id := by
    rw [List.flatMap_append, List.map_append, List.mem_append]
    rintro (earlier | after)
    · exact notBefore earlier here
    · exact notLater (List.mem_append_right _ here) after
  exact ⟨before, step, later, rfl, Step.finishes_of_mem own leaves, silent_of_not_left absent⟩

theorem meets_some_fate (distinct : ((pushes requests).map Playback.id).Nodup)
    {playback : Playback} (pushed : playback ∈ pushes requests) :
    ∃ fate : Fate, fate.Meets requests playback := by
  have nodup := places_nodup distinct
  rw [List.nodup_append', List.nodup_append'] at nodup
  obtain ⟨onStack, ⟨left, dropped, apart⟩, elsewhere⟩ := nodup
  have place := (run_parts empty requests).mem_iff.mp (List.mem_map_of_mem pushed)
  rw [List.map_append, List.map_append, List.mem_append, List.mem_append] at place
  have idOf {other : Playback} {items : List Playback} (member : other ∈ items)
      (same : other.identity = playback.identity) : playback.id ∈ items.map Playback.id :=
    List.mem_map.mpr ⟨other, member, congrArg Playback.Identity.id same⟩
  rcases place with stays | leaves | goes
  · obtain ⟨other, member, same⟩ := List.mem_map.mp stays
    have present := idOf member same
    refine ⟨.running, List.count_eq_one_of_mem onStack present, ?_, ?_⟩
    · exact silent_of_not_left fun gone => elsewhere present (List.mem_append_left _ gone)
    · exact fun gone => elsewhere present (List.mem_append_right _ gone)
  · obtain ⟨other, member, same⟩ := List.mem_map.mp leaves
    have gone := idOf member same
    have sameId : other.id = playback.id := congrArg Playback.Identity.id same
    obtain ⟨before, step, later, cut, finishes, silent⟩ := exists_finishing_step left member
    refine ⟨.finished, fun present => elsewhere present (List.mem_append_left _ gone), ?_,
      fun clear => apart gone clear⟩
    exact ⟨before, step, later, other.timer, cut, finishes.of_identity same, sameId ▸ silent⟩
  · obtain ⟨other, member, same⟩ := List.mem_map.mp goes
    have gone := idOf member same
    refine ⟨.dropped, fun present => elsewhere present (List.mem_append_right _ gone), ?_,
      List.count_eq_one_of_mem dropped gone⟩
    exact silent_of_not_left fun leaves => apart leaves gone

theorem Finished.not_silent {playback : Playback} (finished : Finished requests playback) :
    ¬ ∀ step ∈ empty.steps requests, step.Silent playback.id := by
  intro silent
  obtain ⟨before, step, later, timer, cut, finishes, _⟩ := finished.told
  have member : step ∈ empty.steps requests := by
    rw [cut]
    exact List.mem_append_right _ List.mem_cons_self
  have reported : (⟨playback.id, playback.clip.key, timer⟩ : Ended) ∈
      step.ended.filter fun ended => ended.id = playback.id :=
    finishes.reported ▸ List.mem_singleton_self _
  exact (silent step member).unreported _ (List.mem_filter.mp reported).1 rfl

theorem Running.on_stack {playback : Playback} (running : Running requests playback) :
    playback.id ∈ (empty.run requests).playbacks.map Playback.id :=
  List.count_pos_iff.mp (by rw [running.present]; exact Nat.one_pos)

theorem Fate.Meets.unique {playback : Playback} {fate other : Fate}
    (meets : fate.Meets requests playback) (also : other.Meets requests playback) :
    other = fate := by
  cases fate with
  | running =>
      have present := Running.on_stack meets
      cases other with
      | running => rfl
      | finished => exact absurd present also.gone
      | dropped => exact absurd present also.gone
  | finished =>
      cases other with
      | running => exact absurd (Running.on_stack also) meets.gone
      | finished => rfl
      | dropped => exact absurd also.silent meets.not_silent
  | dropped =>
      cases other with
      | running => exact absurd (Running.on_stack also) meets.gone
      | finished => exact absurd meets.silent also.not_silent
      | dropped => rfl

end Fates

/-- Take any requests to an empty stack that push no id twice.  Each playback that was
pushed is on the stack once, or one step has told of its end, or it was dropped by a
clearing; it is one of these, and never two.  The stack lists its playbacks in the
order in which they were pushed, and the main one is the last that is not over. -/
theorem each_push_has_one_fate (requests : List Request)
    (distinct : ((pushes requests).map Playback.id).Nodup) :
    (∀ playback ∈ pushes requests, ∃! fate : Fate, fate.Meets requests playback) ∧
      ((empty.run requests).playbacks.map Playback.identity).Sublist
        ((pushes requests).map Playback.identity) ∧
      (∀ main, (empty.run requests).main? = some main ↔
        ∃ below above, (empty.run requests).playbacks = below ++ main :: above ∧
          main.isOver = false ∧ ∀ playback ∈ above, playback.isOver = true) ∧
      ((empty.run requests).main? = none ↔
        ∀ playback ∈ (empty.run requests).playbacks, playback.isOver = true) := by
  refine ⟨?_, run_sublist empty requests, fun _ => main?_eq_some_iff, main?_eq_none_iff⟩
  intro playback pushed
  obtain ⟨fate, meets⟩ := meets_some_fate distinct pushed
  exact ⟨fate, meets, fun _ also => meets.unique also⟩

/-- Of three waves the first is stopped and leaves with the next step, the second is
dropped by a clearing, and the third plays on. -/
theorem three_waves_have_one_fate_each :
    let wave : Clip := ⟨⟨"wave", "guard"⟩, none, none, [], .empty, 1, false, false⟩
    let first : Playback := ⟨⟨0⟩, wave, 1, 0, true⟩
    let second : Playback := ⟨⟨1⟩, wave, 1, 0, true⟩
    let third : Playback := ⟨⟨2⟩, wave, 1, 0, false⟩
    let requests : List Request := [.push first, .push second, .stop (.named ⟨0⟩),
      .advance Single.half, .setTimer .main 0, .clear, .push third, .advance Single.half]
    ((pushes requests).map Playback.id).Nodup ∧ Finished requests first ∧
      Dropped requests second ∧ Running requests third := by
  intro wave first second third requests
  have distinct : ((pushes requests).map Playback.id).Nodup := by decide
  obtain ⟨fates, _⟩ := each_push_has_one_fate requests distinct
  have onStack : (empty.run requests).playbacks.map Playback.id = [⟨2⟩] := by decide +kernel
  have dropped : (empty.dropped requests).map Playback.id = [⟨1⟩] := by decide +kernel
  obtain ⟨fate, ofFirst, _⟩ := fates first (by decide)
  obtain ⟨fate', ofSecond, _⟩ := fates second (by decide)
  obtain ⟨fate'', ofThird, _⟩ := fates third (by decide)
  refine ⟨distinct, ?_, ?_, ?_⟩
  · cases fate with
    | running => exact absurd ofFirst.on_stack (by rw [onStack]; decide)
    | finished => exact ofFirst
    | dropped => exact absurd ofFirst.dropped (by rw [dropped]; decide)
  · cases fate' with
    | running => exact absurd ofSecond.on_stack (by rw [onStack]; decide)
    | finished => exact absurd ofSecond.kept (by rw [dropped]; decide)
    | dropped => exact ofSecond
  · cases fate'' with
    | running => exact ofThird
    | finished => exact absurd ofThird.gone (by rw [onStack]; decide)
    | dropped => exact absurd ofThird.gone (by rw [onStack]; decide)

end Stack

end LimbAnimation
