import LimbAnimation.Proofs.ClipFile.Grammar

/-!
# A file has one sheet

The lines of a sheet tell where its settings end and where each passage begins, since only
a passage has a header, and it stands first.
-/

namespace LimbAnimation.ClipFile

/-- A line that begins no passage. -/
def Line.IsPlain (line : Line) : Prop := ∀ header, line ≠ .header header

theorem Setting.line_isPlain (setting : Setting) : setting.line.IsPlain := by
  cases setting <;> exact nofun

theorem Entry.line_isPlain (entry : Entry) : entry.line.IsPlain := by
  cases entry <;> exact nofun

theorem Setting.line_injective {setting setting' : Setting}
    (same : setting.line = setting'.line) : setting = setting' := by
  cases setting <;> cases setting' <;> cases same <;> rfl

theorem Entry.line_injective {entry entry' : Entry} (same : entry.line = entry'.line) :
    entry = entry' := by
  cases entry <;> cases entry' <;> cases same <;> rfl

/-- A header and the plain lines after it. -/
inductive IsGroup : List Line → Prop where
  | headed (header : Header) {rest : List Line} : (∀ line ∈ rest, line.IsPlain) →
      IsGroup (.header header :: rest)

theorem Passage.lines_isGroup (passage : Passage) : IsGroup passage.lines :=
  .headed passage.header (List.forall_mem_map.mpr fun entry _ => entry.line_isPlain)

theorem Passage.lines_injective {passage passage' : Passage}
    (same : passage.lines = passage'.lines) : passage = passage' := by
  obtain ⟨header, entries⟩ := passage
  obtain ⟨header', entries'⟩ := passage'
  obtain ⟨headers, others⟩ := List.cons.inj same
  obtain rfl := Line.header.inj headers
  obtain rfl := List.map_injective_iff.mpr (fun _ _ => Entry.line_injective) others
  rfl

section Groups

variable {front front' : List Line} {groups groups' : List (List Line)}

theorem flatten_ne_cons_isPlain (headed : ∀ group ∈ groups, IsGroup group) {line : Line}
    (plain : line.IsPlain) (rest : List Line) : groups.flatten ≠ line :: rest := by
  intro same
  cases groups with
  | nil => cases same
  | cons group others =>
      obtain ⟨header, _⟩ := headed group List.mem_cons_self
      rw [List.flatten_cons, List.cons_append, List.cons.injEq] at same
      exact plain header same.1.symm

/-- Plain lines end where the first group begins. -/
theorem plain_append_flatten_inj (plain : ∀ line ∈ front, line.IsPlain)
    (plain' : ∀ line ∈ front', line.IsPlain) (headed : ∀ group ∈ groups, IsGroup group)
    (headed' : ∀ group ∈ groups', IsGroup group)
    (same : front ++ groups.flatten = front' ++ groups'.flatten) :
    front = front' ∧ groups.flatten = groups'.flatten := by
  induction front generalizing front' with
  | nil =>
      cases front' with
      | nil => exact ⟨rfl, same⟩
      | cons line rest =>
          exact absurd same (flatten_ne_cons_isPlain headed (plain' line List.mem_cons_self) _)
  | cons line rest ih =>
      cases front' with
      | nil =>
          exact absurd same.symm (flatten_ne_cons_isPlain headed' (plain line List.mem_cons_self) _)
      | cons line' rest' =>
          obtain ⟨rfl, others⟩ := List.cons.inj same
          obtain ⟨rfl, groupsSame⟩ := ih (List.forall_mem_cons.mp plain).2
            (List.forall_mem_cons.mp plain').2 others
          exact ⟨rfl, groupsSame⟩

/-- Each group ends where the next one begins. -/
theorem flatten_groups_injective (headed : ∀ group ∈ groups, IsGroup group)
    (headed' : ∀ group ∈ groups', IsGroup group) (same : groups.flatten = groups'.flatten) :
    groups = groups' := by
  induction groups generalizing groups' with
  | nil =>
      cases groups' with
      | nil => rfl
      | cons group' rest' =>
          obtain ⟨_, _⟩ := headed' group' List.mem_cons_self
          cases same
  | cons group rest ih =>
      cases groups' with
      | nil =>
          obtain ⟨_, _⟩ := headed group List.mem_cons_self
          cases same
      | cons group' rest' =>
          obtain ⟨here, others⟩ := List.forall_mem_cons.mp headed
          obtain ⟨here', others'⟩ := List.forall_mem_cons.mp headed'
          obtain ⟨header, plain⟩ := here
          obtain ⟨header', plain'⟩ := here'
          simp only [List.flatten_cons, List.cons_append] at same
          obtain ⟨headers, later⟩ := List.cons.inj same
          obtain rfl := Line.header.inj headers
          obtain ⟨rfl, restSame⟩ := plain_append_flatten_inj plain plain' others others' later
          rw [ih others others' restSame]

/-- Plain lines with groups behind them can be told apart in one way only. -/
theorem plain_append_groups_inj (plain : ∀ line ∈ front, line.IsPlain)
    (plain' : ∀ line ∈ front', line.IsPlain) (headed : ∀ group ∈ groups, IsGroup group)
    (headed' : ∀ group ∈ groups', IsGroup group)
    (same : front ++ groups.flatten = front' ++ groups'.flatten) :
    front = front' ∧ groups = groups' := by
  obtain ⟨fronts, flattened⟩ := plain_append_flatten_inj plain plain' headed headed' same
  exact ⟨fronts, flatten_groups_injective headed headed' flattened⟩

end Groups

namespace Sheet

theorem settings_isPlain (sheet : Sheet) :
    ∀ line ∈ sheet.settings.map Setting.line, line.IsPlain :=
  List.forall_mem_map.mpr fun setting _ => setting.line_isPlain

theorem passages_isGroup (sheet : Sheet) :
    ∀ group ∈ sheet.passages.map Passage.lines, IsGroup group :=
  List.forall_mem_map.mpr fun passage _ => passage.lines_isGroup

theorem lines_injective {sheet sheet' : Sheet} (same : sheet.lines = sheet'.lines) :
    sheet = sheet' := by
  simp only [lines, List.flatMap_def] at same
  obtain ⟨settingLines, passageLines⟩ := plain_append_groups_inj sheet.settings_isPlain
    sheet'.settings_isPlain sheet.passages_isGroup sheet'.passages_isGroup same
  obtain ⟨settings, passages⟩ := sheet
  obtain ⟨settings', passages'⟩ := sheet'
  obtain rfl := List.map_injective_iff.mpr (fun _ _ => Setting.line_injective) settingLines
  obtain rfl := List.map_injective_iff.mpr (fun _ _ => Passage.lines_injective) passageLines
  rfl

theorem Written.unique {content : Bytes} {sheet sheet' : Sheet} (written : sheet.Written content)
    (written' : sheet'.Written content) : sheet = sheet' := by
  obtain ⟨texts, version, rest, decoded, cut, spelled⟩ := written
  obtain ⟨texts', version', rest', decoded', cut', spelled'⟩ := written'
  obtain rfl := Option.some.inj (decoded.symm.trans decoded')
  obtain ⟨rfl, rfl⟩ := List.cons.inj (cut.symm.trans cut')
  exact lines_injective ((spelled_iff.mp spelled).symm.trans (spelled_iff.mp spelled'))

end Sheet

end LimbAnimation.ClipFile
