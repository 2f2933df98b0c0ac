import LimbAnimation.Library.Basic
import Mathlib.Data.List.Nodup

/-!
# The entries of a library

A library is read through its keys: each request for a clip, each store and each removal
is one equation about `get?`.  The list of keys names every stored clip once, in order.
-/

namespace LimbAnimation.Library

variable {library : Library}

theorem get?_empty (key : ClipKey) : empty.get? key = none := rfl

theorem get?_remove (library : Library) (removed key : ClipKey) :
    (library.remove removed).1.get? key = if key = removed then none else library.get? key := by
  unfold get? remove
  rw [List.find?_filter]
  split
  next same =>
      rw [same, List.find?_eq_none]
      simp
  next other =>
      congr 1
      funext clip
      by_cases mine : clip.key = key
      · simp [mine, other]
      · simp [mine]

theorem get?_insert (library : Library) (clip : Clip) (key : ClipKey) :
    (library.insert clip).1.get? key = if key = clip.key then some clip else library.get? key := by
  have rest := get?_remove library clip.key key
  unfold get? insert at *
  rw [List.find?_cons]
  by_cases same : clip.key = key
  · simp [same]
  · rw [if_neg (Ne.symm same)] at rest ⊢
    simpa [same] using rest

theorem key_of_get? {key : ClipKey} {clip : Clip} (found : library.get? key = some clip) :
    clip.key = key := by
  have matched := List.find?_some found
  simpa using matched

/-- No two clips of the library have the same key. -/
def Distinct (library : Library) : Prop := (library.clips.map Clip.key).Nodup

theorem distinct_empty : empty.Distinct := List.nodup_nil

theorem Distinct.remove (distinct : library.Distinct) (key : ClipKey) :
    (library.remove key).1.Distinct :=
  distinct.sublist (List.filter_sublist.map Clip.key)

theorem Distinct.insert (distinct : library.Distinct) (clip : Clip) :
    (library.insert clip).1.Distinct := by
  refine List.nodup_cons.mpr ⟨?_, distinct.remove clip.key⟩
  intro member
  obtain ⟨other, stays, same⟩ := List.mem_map.mp member
  exact of_decide_eq_true (List.mem_filter.mp stays).2 same

theorem mem_keys_iff {key : ClipKey} :
    key ∈ library.keys ↔ ∃ clip, library.get? key = some clip := by
  rw [keys, (List.mergeSort_perm _ _).mem_iff, List.mem_map]
  constructor
  · rintro ⟨clip, member, rfl⟩
    apply Option.isSome_iff_exists.mp
    exact List.find?_isSome.mpr ⟨clip, member, decide_eq_true rfl⟩
  · rintro ⟨clip, found⟩
    exact ⟨clip, List.mem_of_find?_eq_some found, key_of_get? found⟩

section Order

variable {left middle right : ClipKey}

/-- Strictly before another key: by name, then by group. -/
def Precedes (left right : ClipKey) : Prop :=
  left.name < right.name ∨ (left.name = right.name ∧ left.group < right.group)

theorem comesBefore_iff : comesBefore left right = true ↔ Precedes left right ∨ left = right := by
  obtain ⟨name, group⟩ := left
  obtain ⟨name', group'⟩ := right
  simp only [comesBefore, Precedes, Bool.or_eq_true, Bool.and_eq_true, decide_eq_true_eq,
    beq_iff_eq, Bool.not_eq_true', decide_eq_false_iff_not, ClipKey.mk.injEq]
  constructor
  · rintro (smaller | ⟨same, notLarger⟩)
    · exact .inl (.inl smaller)
    · by_cases less : group < group'
      · exact .inl (.inr ⟨same, less⟩)
      · exact .inr ⟨same, String.le_antisymm notLarger less⟩
  · rintro ((smaller | ⟨same, less⟩) | ⟨same, rfl⟩)
    · exact .inl smaller
    · exact .inr ⟨same, fun larger => String.lt_irrefl _ (String.lt_trans less larger)⟩
    · exact .inr ⟨same, String.lt_irrefl _⟩

theorem precedes_trans (first : Precedes left middle) (second : Precedes middle right) :
    Precedes left right := by
  rcases first with smaller | ⟨same, less⟩
  · rcases second with smaller' | ⟨same', _⟩
    · exact .inl (String.lt_trans smaller smaller')
    · exact .inl (same' ▸ smaller)
  · rcases second with smaller' | ⟨same', less'⟩
    · exact .inl (same ▸ smaller')
    · exact .inr ⟨same.trans same', String.lt_trans less less'⟩

theorem comesBefore_trans (left middle right : ClipKey)
    (first : comesBefore left middle = true) (second : comesBefore middle right = true) :
    comesBefore left right = true := by
  rw [comesBefore_iff] at first second ⊢
  rcases first with before | rfl
  · rcases second with before' | rfl
    · exact .inl (precedes_trans before before')
    · exact .inl before
  · exact second

theorem comesBefore_total (left right : ClipKey) :
    (comesBefore left right || comesBefore right left) = true := by
  simp only [Bool.or_eq_true, comesBefore_iff]
  by_cases less : left.name < right.name
  · exact .inl (.inl (.inl less))
  · by_cases more : right.name < left.name
    · exact .inr (.inl (.inl more))
    · have sameName : left.name = right.name := String.le_antisymm more less
      by_cases less' : left.group < right.group
      · exact .inl (.inl (.inr ⟨sameName, less'⟩))
      · by_cases more' : right.group < left.group
        · exact .inr (.inl (.inr ⟨sameName.symm, more'⟩))
        · have sameGroup : left.group = right.group := String.le_antisymm more' less'
          obtain ⟨name, group⟩ := left
          obtain ⟨name', group'⟩ := right
          cases sameName
          cases sameGroup
          exact .inl (.inr rfl)

end Order

theorem Distinct.keys_ascend (distinct : library.Distinct) : library.keys.Pairwise Precedes := by
  have sorted : library.keys.Pairwise fun left right => comesBefore left right = true :=
    List.pairwise_mergeSort comesBefore_trans comesBefore_total _
  have apart : library.keys.Pairwise (· ≠ ·) :=
    (List.mergeSort_perm _ _).nodup_iff.mpr distinct
  refine (sorted.and apart).imp ?_
  rintro left right ⟨before, different⟩
  exact (comesBefore_iff.mp before).resolve_right different

end LimbAnimation.Library
