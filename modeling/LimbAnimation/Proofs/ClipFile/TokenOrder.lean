import LimbAnimation.Proofs.ClipFile.KeyframeLines
import LimbAnimation.Proofs.Rearrangement

/-!
# The order of tokens

A keyframe line says the same in whatever order its tokens stand, as long as the offsets
keep theirs: of all tokens only these make up a pair.
-/

namespace LimbAnimation.ClipFile

/-- Tokens in one line, with a blank between any two of them. -/
def joined (tokens : List (List Char)) : List Char := [' '].intercalate tokens

/-- Whether a token is written like an offset. -/
def isOffset (token : List Char) : Bool := (measured? "px" token).isSome

/-- The offset that a token gives. -/
def offsetOf? (token : List Char) : Option Single := (measured? "px" token).bind Text.readSingle?

theorem cuts_joined {tokens : List (List Char)} (whole : ∀ token ∈ tokens, IsToken token) :
    Cuts (joined tokens) tokens := by
  induction tokens with
  | nil => exact .nil
  | cons token rest ih =>
      obtain ⟨isToken, others⟩ := List.forall_mem_cons.mp whole
      cases rest with
      | nil =>
          have alone : joined [token] = token ++ [] := by simp [joined]
          rw [alone]
          exact .token isToken (by simp) .nil
      | cons next rest =>
          have apart : joined (token :: next :: rest) =
              token ++ ' ' :: joined (next :: rest) := by
            simp [joined, List.intercalate_cons_cons]
          rw [apart]
          exact .token isToken (by simp [Text.isBlank]) (.blank rfl (ih others))

section Parts

variable {settings : Settings} {inHand : Bool}

/-- What is written like an offset is taken for one. -/
theorem offsetOf?_eq_none {token : List Char} {kind : Token}
    (spelled : Token.ofSpelling token = kind) (other : ∀ number, kind ≠ .offset number) :
    offsetOf? token = none := by
  rw [offsetOf?, Option.bind_eq_none_iff]
  intro number found
  obtain ⟨rfl, begins⟩ := measured?_eq_some_iff.mp found
  exact absurd (spelled.symm.trans (Token.ofSpelling_offset begins)) (other number)

/-- Offsets are given by the tokens that are written like them, and by no others. -/
theorem Gives.offset?_eq {token : List Char} {part : Part}
    (gives : Gives settings inHand token part) : part.offset? = offsetOf? token := by
  cases gives with
  | restrictions known => exact (offsetOf?_eq_none (Token.ofSpelling_restrictions _) nofun).symm
  | scale two xRead yRead => exact (offsetOf?_eq_none (Token.ofSpelling_scale _) nofun).symm
  | rotation read =>
      have spelled := Token.ofSpelling_rotation (beginsNumber_of_readSingle? read)
      exact (offsetOf?_eq_none spelled nofun).symm
  | @offset number pixels read =>
      have found : measured? "px" (number ++ "px".toList) = some number :=
        measured?_eq_some_iff.mpr ⟨rfl, beginsNumber_of_readSingle? read⟩
      rw [offsetOf?, found, Option.bind_some, read]
      rfl
  | seconds read =>
      have spelled := Token.ofSpelling_seconds (beginsNumber_of_readSingle? read)
      exact (offsetOf?_eq_none spelled nofun).symm
  | frames read low high => exact (offsetOf?_eq_none (Token.ofSpelling_frames read) nofun).symm
  | shape known hand => exact (offsetOf?_eq_none (Token.ofSpelling_word known) nofun).symm

theorem offsets_of_gives {tokens : List (List Char)} {parts : List Part}
    (gives : List.Forall₂ (Gives settings inHand) tokens parts) :
    parts.filterMap Part.offset? = (tokens.filter isOffset).filterMap offsetOf? := by
  induction gives with
  | nil => rfl
  | @cons token part tokens parts here _ ih =>
      rw [List.filterMap_cons, here.offset?_eq, ih, List.filter_cons]
      cases found : measured? "px" token with
      | none => simp [isOffset, offsetOf?, found]
      | some number => simp [isOffset, List.filterMap_cons, found]

theorem Compatible.of_perm {parts others : List Part} (compatible : Compatible parts)
    (perm : parts.Perm others) : Compatible others := by
  have sameLength : ∀ {α : Type} (channel? : Part → Option α),
      (others.filterMap channel?).length = (parts.filterMap channel?).length :=
    fun channel? => (perm.filterMap channel?).length_eq.symm
  constructor
  · rw [sameLength]
    exact compatible.restrictions
  · rw [sameLength]
    exact compatible.scale
  · rw [sameLength]
    exact compatible.rotation
  · rw [sameLength]
    exact compatible.time
  · rw [sameLength]
    exact compatible.shape
  · intro time member
    exact compatible.notNegative time ((perm.filterMap Part.time?).mem_iff.mpr member)

/-- Of each kind but the offsets there is one part at most, so its order does not matter. -/
theorem Draft.ofParts_of_perm {parts others : List Part} (compatible : Compatible parts)
    (perm : parts.Perm others)
    (inOrder : parts.filterMap Part.offset? = others.filterMap Part.offset?) :
    Draft.ofParts parts = Draft.ofParts others := by
  have same : ∀ {α : Type} (channel? : Part → Option α), (parts.filterMap channel?).length ≤ 1 →
      parts.filterMap channel? = others.filterMap channel? :=
    fun channel? few => eq_of_perm_of_length_le_one (perm.filterMap channel?) few
  simp only [Draft.ofParts, inOrder, same _ compatible.time, same _ compatible.rotation,
    same _ compatible.scale, same _ compatible.shape, same _ compatible.restrictions]

/-- What can be entered in one order of the tokens can be entered in the other. -/
theorem Draft.ofLine_of_perm {tokens others : List (List Char)} {draft : Draft}
    (whole : ∀ token ∈ tokens, IsToken token) (perm : tokens.Perm others)
    (inOrder : tokens.filter isOffset = others.filter isOffset)
    (read : Draft.ofLine settings inHand (joined tokens) = .ok draft) :
    Draft.ofLine settings inHand (joined others) = .ok draft := by
  obtain ⟨cut, parts, _, cuts, gives, compatible, same⟩ := Draft.ofLine_eq_ok_iff.mp read
  have own : cut = tokens := by
    rw [← Option.some.injEq, ← cut?_eq_some_iff.mpr cuts, cut?_eq_some_iff.mpr (cuts_joined whole)]
  subst own
  obtain ⟨otherParts, otherGives, otherPerm⟩ := List.perm_comp_forall₂ perm.symm gives
  have otherCuts : Cuts (joined others) others :=
    cuts_joined fun token member => whole token (perm.mem_iff.mpr member)
  have balanced : Balanced (joined others) :=
    cut?_isSome_iff.mp (Option.isSome_of_eq_some (cut?_eq_some_iff.mpr otherCuts))
  have offsets : parts.filterMap Part.offset? = otherParts.filterMap Part.offset? := by
    rw [offsets_of_gives gives, offsets_of_gives otherGives, inOrder]
  refine Draft.ofLine_eq_ok_iff.mpr ⟨others, otherParts, balanced, otherCuts, otherGives,
    compatible.of_perm otherPerm.symm, ?_⟩
  rw [← same, Draft.ofParts_of_perm compatible otherPerm.symm offsets]

end Parts

/-- Whether a keyframe line is accepted, and what comes of it then, does not depend on the
order of its tokens, as long as the offsets keep theirs; the fault may be another one. -/
theorem token_order_is_immaterial (reader : Reader) {tokens others : List (List Char)}
    (whole : ∀ token ∈ tokens, IsToken token) (rearranged : tokens.Perm others)
    (inOrder : tokens.filter isOffset = others.filter isOffset) :
    (∃ next, reader.keyframe (joined tokens) = .ok next ∧
        reader.keyframe (joined others) = .ok next) ∨
      ∃ fault otherFault, reader.keyframe (joined tokens) = .error fault ∧
        reader.keyframe (joined others) = .error otherFault := by
  have othersWhole : ∀ token ∈ others, IsToken token := fun token member =>
    whole token (rearranged.mem_iff.mpr member)
  unfold Reader.keyframe
  cases reader.block with
  | none => exact .inr ⟨_, _, rfl, rfl⟩
  | some block =>
      dsimp only
      cases read : Draft.ofLine reader.settings (isHand block.limb) (joined tokens) with
      | ok draft =>
          rw [Draft.ofLine_of_perm whole rearranged inOrder read]
          dsimp only [ok_bind]
          cases draft.keyframe reader.settings with
          | ok keyframe => exact .inl ⟨_, rfl, rfl⟩
          | error fault => exact .inr ⟨fault, fault, rfl, rfl⟩
      | error fault =>
          cases otherRead : Draft.ofLine reader.settings (isHand block.limb) (joined others) with
          | ok draft =>
              have back := Draft.ofLine_of_perm othersWhole rearranged.symm inOrder.symm otherRead
              cases back.symm.trans read
          | error otherFault => exact .inr ⟨fault, otherFault, rfl, rfl⟩

/-- A line for a hand, with blanks in its groups, in two orders. -/
theorem token_order_is_immaterial_to_fist :
    let reader : Reader :=
      { Reader.start ⟨"fall", "guard"⟩ with
        versionSeen := true, settings := ⟨30, 2, 10⟩, block := some (.start (.hand 0)) }
    let tokens := ["45", "constraints(PreventWalking PreventAiming)", "1px", "scale( 2 , 3 )",
      "-2px", "fist", "90deg"].map String.toList
    let others := ["fist", "1px", "scale( 2 , 3 )", "90deg", "-2px", "45",
      "constraints(PreventWalking PreventAiming)"].map String.toList
    (∀ token ∈ tokens, IsToken token) ∧ tokens.Perm others ∧
      tokens.filter isOffset = others.filter isOffset ∧
      ∃ next, reader.keyframe (joined tokens) = .ok next ∧
        reader.keyframe (joined others) = .ok next ∧
        next.block = some ⟨.hand 0, false, [⟨.ofRatio false 3 4, some ⟨10, .ofInt (-20)⟩, some 90,
          some ⟨2, 3⟩, some .fist⟩]⟩ := by
  intro reader tokens others
  have whole : ∀ token ∈ tokens, IsToken token := by decide +kernel
  have rearranged : tokens.Perm others := by decide +kernel
  have inOrder : tokens.filter isOffset = others.filter isOffset := by decide +kernel
  have accepted : (reader.keyframe (joined tokens)).toOption.map Reader.block =
      some (some ⟨.hand 0, false, [⟨.ofRatio false 3 4, some ⟨10, .ofInt (-20)⟩, some 90,
        some ⟨2, 3⟩, some .fist⟩]⟩) := by decide +kernel
  refine ⟨whole, rearranged, inOrder, ?_⟩
  rcases token_order_is_immaterial reader whole rearranged inOrder with both | refused
  · obtain ⟨next, read, otherRead⟩ := both
    rw [read] at accepted
    exact ⟨next, read, otherRead, Option.some.inj accepted⟩
  · obtain ⟨fault, _, failed, _⟩ := refused
    rw [failed] at accepted
    cases accepted

end LimbAnimation.ClipFile
