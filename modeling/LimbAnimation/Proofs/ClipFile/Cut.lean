import LimbAnimation.ClipFile.Token
import LimbAnimation.Proofs.Outcome
import Mathlib.Data.List.Basic

/-!
# Cutting lines

A line is cut exactly when its parentheses are balanced.  Its tokens are the longest runs
that have no blank outside parentheses.
-/

namespace LimbAnimation.ClipFile

/-- No parenthesis closes that was never opened, and all of them are closed in the end. -/
structure Balanced (text : List Char) : Prop where
  opened : ∀ front, front <+: text → front.count ')' ≤ front.count '('
  closed : text.count ')' = text.count '('

/-- A part of a line without a blank outside its parentheses. -/
structure IsToken (token : List Char) : Prop where
  nonempty : token ≠ []
  balanced : Balanced token
  whole : ∀ front blank rest, token = front ++ blank :: rest → Text.isBlank blank = true →
    front.count ')' < front.count '('

/-- The tokens of a line, which are kept apart by blanks. -/
inductive Cuts : List Char → List (List Char) → Prop where
  | nil : Cuts [] []
  | blank {blank : Char} {rest : List Char} {tokens : List (List Char)} :
      Text.isBlank blank = true → Cuts rest tokens → Cuts (blank :: rest) tokens
  | token {token rest : List Char} {tokens : List (List Char)} :
      IsToken token → (∀ next ∈ rest.head?, Text.isBlank next = true) → Cuts rest tokens →
      Cuts (token ++ rest) (token :: tokens)

/-- The number of open parentheses after a text. -/
def depthAlong? (depth : Nat) (text : List Char) : Option Nat := text.foldlM depthAfter? depth

theorem depthAlong?_cons (depth : Nat) (character : Char) (rest : List Char) :
    depthAlong? depth (character :: rest) =
      (depthAfter? depth character).bind fun next => depthAlong? next rest := by
  rw [depthAlong?, List.foldlM_cons]
  rfl

theorem depthAfter?_eq_some_iff {depth next : Nat} {character : Char} :
    depthAfter? depth character = some next ↔
      [character].count ')' ≤ depth + [character].count '(' ∧
        next + [character].count ')' = depth + [character].count '(' := by
  unfold depthAfter?
  by_cases opens : character = '('
  · subst opens
    simp [eq_comm]
  · by_cases closes : character = ')'
    · subst closes
      by_cases none : depth = 0
      · simp [none]
      · simp [none]
        omega
    · simp [opens, closes, eq_comm]

/-- The depth is told by the counts of parentheses, of which none may close too early. -/
theorem depthAlong?_eq_some_iff {depth last : Nat} {text : List Char} :
    depthAlong? depth text = some last ↔
      (∀ front, front <+: text → front.count ')' ≤ depth + front.count '(') ∧
        last + text.count ')' = depth + text.count '(' := by
  induction text generalizing depth with
  | nil =>
      simp only [depthAlong?, List.foldlM_nil, pure, Option.some.injEq, List.prefix_nil,
        List.count_nil]
      constructor
      · intro same
        subst same
        simp
      · intro given
        omega
  | cons character rest ih =>
      have counts : ∀ (letter : Char) (front : List Char),
          (character :: front).count letter = [character].count letter + front.count letter := by
        intro letter front
        rw [← List.count_append, List.singleton_append]
      rw [depthAlong?_cons, Option.bind_eq_some_iff]
      constructor
      · intro given
        obtain ⟨next, here, later⟩ := given
        obtain ⟨allowed, moved⟩ := depthAfter?_eq_some_iff.mp here
        obtain ⟨fronts, ends⟩ := ih.mp later
        refine ⟨?_, ?_⟩
        · intro front isFront
          cases front with
          | nil => simp
          | cons first front =>
              obtain ⟨same, isInner⟩ := List.cons_prefix_cons.mp isFront
              subst same
              have inner := fronts front isInner
              rw [counts ')' front, counts '(' front]
              omega
        · rw [counts ')' rest, counts '(' rest]
          omega
      · intro given
        obtain ⟨fronts, ends⟩ := given
        have allowed := fronts [character] (by simp)
        obtain ⟨next, moved⟩ :
            ∃ next, next + [character].count ')' = depth + [character].count '(' :=
          ⟨depth + [character].count '(' - [character].count ')', by omega⟩
        refine ⟨next, depthAfter?_eq_some_iff.mpr ⟨allowed, moved⟩, ih.mpr ⟨?_, ?_⟩⟩
        · intro front isFront
          have outer := fronts (character :: front) (List.cons_prefix_cons.mpr ⟨rfl, isFront⟩)
          rw [counts ')' front, counts '(' front] at outer
          omega
        · rw [counts ')' rest, counts '(' rest] at ends
          omega

theorem balanced_iff {text : List Char} : Balanced text ↔ depthAlong? 0 text = some 0 := by
  rw [depthAlong?_eq_some_iff]
  constructor
  · intro balanced
    refine ⟨?_, ?_⟩
    · intro front isFront
      have opened := balanced.opened front isFront
      omega
    · have closed := balanced.closed
      omega
  · intro given
    obtain ⟨opened, closed⟩ := given
    refine ⟨?_, by omega⟩
    intro front isFront
    have allowed := opened front isFront
    omega

theorem depthAfter?_of_isBlank {character : Char} (isBlank : Text.isBlank character = true)
    (depth : Nat) : depthAfter? depth character = some depth := by
  have other : character ≠ '(' ∧ character ≠ ')' := by
    constructor
    · intro same
      subst same
      cases isBlank
    · intro same
      subst same
      cases isBlank
  rw [depthAfter?, if_neg other.1, if_neg other.2]

/-- Cutting goes through exactly when the depth is zero again at the end. -/
theorem cutFrom?_isSome_iff {depth : Nat} {token text : List Char} :
    (cutFrom? depth token text).isSome = true ↔ depthAlong? depth text = some 0 := by
  induction text generalizing depth token with
  | nil =>
      by_cases outside : depth = 0 <;> simp [cutFrom?, depthAlong?, pure, outside]
  | cons character rest ih =>
      rw [depthAlong?_cons, cutFrom?]
      cases depthAfter? depth character with
      | none => simp
      | some next =>
          rw [Option.bind_some]
          dsimp only
          split
          · rw [Option.isSome_map, ih]
          · exact ih

theorem cut?_isSome_iff {line : List Char} : (cut? line).isSome = true ↔ Balanced line := by
  rw [cut?, cutFrom?_isSome_iff, balanced_iff]

/-- What stands open in a part: the depth after it, and no blank where nothing is open. -/
structure Opens (depth : Nat) (part : List Char) (last : Nat) : Prop where
  along : depthAlong? depth part = some last
  whole : ∀ front blank rest, part = front ++ blank :: rest → Text.isBlank blank = true →
    depthAlong? depth front ≠ some 0

theorem isToken_iff {token : List Char} : IsToken token ↔ token ≠ [] ∧ Opens 0 token 0 := by
  have enclosed : ∀ {front : List Char},
      (∀ earlier, earlier <+: front → earlier.count ')' ≤ earlier.count '(') →
      (front.count ')' < front.count '(' ↔ depthAlong? 0 front ≠ some 0) := by
    intro front opened
    have own := opened front (List.prefix_refl front)
    rw [Ne, depthAlong?_eq_some_iff]
    constructor
    · intro less given
      omega
    · intro unclosed
      apply Nat.lt_of_le_of_ne own
      intro same
      apply unclosed
      refine ⟨?_, by omega⟩
      intro earlier isEarlier
      have allowed := opened earlier isEarlier
      omega
  have fronts : ∀ {front rest : List Char} {blank : Char}, token = front ++ blank :: rest →
      Balanced token → ∀ earlier, earlier <+: front → earlier.count ')' ≤ earlier.count '(' := by
    intro front rest blank cut balanced earlier isEarlier
    apply balanced.opened
    rw [cut]
    exact isEarlier.trans (List.prefix_append front _)
  constructor
  · intro isToken
    refine ⟨isToken.nonempty, balanced_iff.mp isToken.balanced, ?_⟩
    intro front blank rest cut isBlank
    exact (enclosed (fronts cut isToken.balanced)).mp (isToken.whole front blank rest cut isBlank)
  · intro given
    obtain ⟨nonempty, along, whole⟩ := given
    have balanced : Balanced token := balanced_iff.mpr along
    refine ⟨nonempty, balanced, ?_⟩
    intro front blank rest cut isBlank
    exact (enclosed (fronts cut balanced)).mpr (whole front blank rest cut isBlank)

theorem Opens.nil (depth : Nat) : Opens depth [] depth := by
  refine ⟨rfl, ?_⟩
  intro front blank rest cut
  simp at cut

theorem Opens.concat {depth last next : Nat} {part : List Char} {character : Char}
    (opens : Opens depth part last) (follows : depthAfter? last character = some next)
    (inside : ¬ (Text.isBlank character = true ∧ next = 0)) :
    Opens depth (part ++ [character]) next := by
  refine ⟨?_, ?_⟩
  · rw [depthAlong?, List.foldlM_append, ← depthAlong?, opens.along]
    simp [follows]
  · intro front blank rest cut isBlank
    rcases List.eq_nil_or_concat rest with none | ⟨others, final, some⟩
    · subst none
      obtain ⟨same, sameLast⟩ := List.append_singleton_inj.mp cut
      subst same
      subst sameLast
      rw [depthAfter?_of_isBlank isBlank, Option.some.injEq] at follows
      intro zero
      rw [opens.along, Option.some.injEq] at zero
      exact inside ⟨isBlank, follows.symm.trans zero⟩
    · subst some
      rw [List.concat_eq_append, ← List.cons_append, ← List.append_assoc] at cut
      obtain ⟨same, _⟩ := List.append_singleton_inj.mp cut
      exact opens.whole front blank others same isBlank

theorem Opens.cons_inv {depth last : Nat} {character : Char} {part : List Char}
    (opens : Opens depth (character :: part) last) :
    ∃ next, depthAfter? depth character = some next ∧ Opens next part last ∧
      ¬ (Text.isBlank character = true ∧ next = 0) := by
  have along := opens.along
  rw [depthAlong?_cons, Option.bind_eq_some_iff] at along
  obtain ⟨next, here, later⟩ := along
  refine ⟨next, here, ⟨later, ?_⟩, ?_⟩
  · intro front blank rest cut isBlank
    have longer : character :: part = character :: front ++ blank :: rest := by
      rw [cut, List.cons_append]
    have outer := opens.whole (character :: front) blank rest longer isBlank
    rwa [depthAlong?_cons, here, Option.bind_some] at outer
  · intro both
    obtain ⟨isBlank, zero⟩ := both
    rw [depthAfter?_of_isBlank isBlank, Option.some.injEq] at here
    exact opens.whole [] character part rfl isBlank (congrArg some (here.trans zero))

/-- A part without a loose blank is gathered as a whole. -/
theorem cutFrom?_append {depth last : Nat} {part : List Char} (opens : Opens depth part last)
    (token rest : List Char) :
    cutFrom? depth token (part ++ rest) = cutFrom? last (part.reverse ++ token) rest := by
  induction part generalizing depth token with
  | nil =>
      cases opens.along
      rfl
  | cons character part ih =>
      obtain ⟨next, here, later, inside⟩ := opens.cons_inv
      rw [List.cons_append, cutFrom?, here]
      dsimp only
      rw [if_neg inside, ih later, List.reverse_cons, List.append_assoc, List.singleton_append]

theorem cutFrom?_blank {blank : Char} (isBlank : Text.isBlank blank = true)
    (token rest : List Char) :
    cutFrom? 0 token (blank :: rest) = (cutFrom? 0 [] rest).map (gathered token ++ ·) := by
  rw [cutFrom?, depthAfter?_of_isBlank isBlank]
  dsimp only
  rw [if_pos ⟨isBlank, rfl⟩]

/-- A gathered token ends at a blank or with the line. -/
theorem cutFrom?_ends {token rest : List Char} (nonempty : token ≠ [])
    (ends : ∀ next ∈ rest.head?, Text.isBlank next = true) :
    cutFrom? 0 token.reverse rest = (cutFrom? 0 [] rest).map (token :: ·) := by
  have whole : gathered token.reverse = [token] := by
    simp [gathered, nonempty]
  cases rest with
  | nil =>
      rw [cutFrom?, cutFrom?, if_pos rfl, if_pos rfl, whole]
      rfl
  | cons next rest =>
      have isBlank := ends next rfl
      rw [cutFrom?_blank isBlank, cutFrom?_blank isBlank, whole, Option.map_map]
      rfl

/-- What has been gathered is a token, when it is anything. -/
theorem Cuts.gathered {token rest : List Char} {later : List (List Char)}
    (opens : Opens 0 token.reverse 0) (ends : ∀ next ∈ rest.head?, Text.isBlank next = true)
    (cuts : Cuts rest later) : Cuts (token.reverse ++ rest) (gathered token ++ later) := by
  cases token with
  | nil => exact cuts
  | cons last token =>
      have nonempty : (last :: token).reverse ≠ [] := by simp
      exact .token (isToken_iff.mpr ⟨nonempty, opens⟩) ends cuts

/-- The gathered part and the text after it are cut together. -/
theorem cuts_of_cutFrom? {depth : Nat} {token text : List Char} {tokens : List (List Char)}
    (opens : Opens 0 token.reverse depth) (cut : cutFrom? depth token text = some tokens) :
    Cuts (token.reverse ++ text) tokens := by
  induction text generalizing depth token tokens with
  | nil =>
      rw [cutFrom?, Option.ite_none_right_eq_some, Option.some.injEq] at cut
      obtain ⟨zero, same⟩ := cut
      subst zero
      have ended : Cuts (token.reverse ++ []) (ClipFile.gathered token ++ []) :=
        .gathered opens (by simp) .nil
      rwa [List.append_nil (ClipFile.gathered token), same] at ended
  | cons character rest ih =>
      rw [cutFrom?] at cut
      cases follows : depthAfter? depth character with
      | none => simp [follows] at cut
      | some next =>
          simp only [follows] at cut
          split at cut
          next loose =>
              obtain ⟨isBlank, zero⟩ := loose
              obtain ⟨later, cutLater, same⟩ := Option.map_eq_some_iff.mp cut
              subst same
              rw [depthAfter?_of_isBlank isBlank, Option.some.injEq] at follows
              subst zero
              subst follows
              have begun : Opens 0 ([] : List Char).reverse 0 := .nil 0
              have cuts : Cuts rest later := ih begun cutLater
              exact .gathered opens (by simpa using isBlank) (.blank isBlank cuts)
          next inside =>
              have grown : Opens 0 (character :: token).reverse next := by
                rw [List.reverse_cons]
                exact opens.concat follows inside
              have cuts := ih grown cut
              rwa [List.reverse_cons, List.append_assoc, List.singleton_append] at cuts

/-- The tokens of a line are the ones that it is cut into. -/
theorem cut?_eq_some_iff {line : List Char} {tokens : List (List Char)} :
    cut? line = some tokens ↔ Cuts line tokens := by
  constructor
  · intro cut
    have begun : Opens 0 ([] : List Char).reverse 0 := .nil 0
    exact cuts_of_cutFrom? begun cut
  · intro cuts
    induction cuts with
    | nil => rfl
    | blank isBlank cuts ih => rw [cut?, cutFrom?_blank isBlank, ← cut?, ih]; rfl
    | token isToken ends cuts ih =>
        obtain ⟨nonempty, opens⟩ := isToken_iff.mp isToken
        rw [cut?, cutFrom?_append opens, List.append_nil, cutFrom?_ends nonempty ends, ← cut?, ih]
        rfl

theorem Cuts.isToken {line : List Char} {tokens : List (List Char)} (cuts : Cuts line tokens) :
    ∀ token ∈ tokens, IsToken token := by
  induction cuts with
  | nil => exact fun _ member => nomatch member
  | blank _ _ ih => exact ih
  | token isToken _ _ ih => exact List.forall_mem_cons.mpr ⟨isToken, ih⟩

/-- A token is a line of its own. -/
theorem isToken_iff_cut? {token : List Char} : IsToken token ↔ cut? token = some [token] := by
  constructor
  · intro isToken
    have alone : Cuts (token ++ []) [token] := .token isToken (by simp) .nil
    rw [List.append_nil] at alone
    exact cut?_eq_some_iff.mpr alone
  · intro cut
    exact (cut?_eq_some_iff.mp cut).isToken token List.mem_cons_self

instance : DecidablePred IsToken := fun _ => decidable_of_iff _ isToken_iff_cut?.symm

end LimbAnimation.ClipFile
