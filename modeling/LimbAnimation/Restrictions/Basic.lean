import LimbAnimation.Text.Blank

/-!
# Restrictions

A set of actions that an animation forbids, kept as 32 bits.  Sixteen bits have
names of their own, and five names stand for combinations or repeat a bit;
further bits are kept as they are.
-/

namespace LimbAnimation

/-- The named restrictions: sixteen bits in order, then an alias and the
combinations. -/
inductive Restriction where
  | preventDying
  | preventWalking
  | preventAiming
  | preventDodge
  | preventShooting
  | preventMelee
  | preventBeingShot
  | preventBeingMeleed
  | preventRagdoll
  | preventWorldInteraction
  | preventThrowing
  | preventIronSight
  | preventMixTransition
  | preventFlip
  | faceForwards
  | preventDeathAnimation
  | preventBlock
  | preventAllAttacking
  | preventAllMovement
  | preventAllDamage
  | preventAll
  deriving DecidableEq

structure Restrictions where
  bits : BitVec 32
  deriving DecidableEq

namespace Restrictions

def empty : Restrictions := ⟨0⟩

instance : Inhabited Restrictions := ⟨empty⟩

instance : Union Restrictions := ⟨fun left right => ⟨left.bits ||| right.bits⟩⟩

def single (index : Nat) : Restrictions := ⟨BitVec.twoPow 32 index⟩

def meets (set other : Restrictions) : Bool := set.bits &&& other.bits != 0

/-- Whether every restriction of `other` is in the set. -/
def includes (set other : Restrictions) : Bool := set.bits &&& other.bits == other.bits

/-- The restrictions of the set that are not in `other`. -/
def without (set other : Restrictions) : Restrictions := ⟨set.bits &&& ~~~other.bits⟩

end Restrictions

namespace Restriction

def all : List Restriction :=
  [preventDying, preventWalking, preventAiming, preventDodge, preventShooting, preventMelee,
    preventBeingShot, preventBeingMeleed, preventRagdoll, preventWorldInteraction,
    preventThrowing, preventIronSight, preventMixTransition, preventFlip, faceForwards,
    preventDeathAnimation, preventBlock, preventAllAttacking, preventAllMovement,
    preventAllDamage, preventAll]

def set : Restriction → Restrictions
  | preventDying => .single 0
  | preventWalking => .single 1
  | preventAiming => .single 2
  | preventDodge => .single 3
  | preventShooting => .single 4
  | preventMelee => .single 5
  | preventBeingShot => .single 6
  | preventBeingMeleed => .single 7
  | preventRagdoll => .single 8
  | preventWorldInteraction => .single 9
  | preventThrowing => .single 10
  | preventIronSight => .single 11
  | preventMixTransition => .single 12
  | preventFlip => .single 13
  | faceForwards => .single 14
  | preventDeathAnimation => .single 15
  | preventBlock => .single 11
  | preventAllAttacking => .single 5 ∪ .single 4 ∪ .single 10
  | preventAllMovement => .single 1 ∪ .single 2 ∪ .single 13
  | preventAllDamage => .single 6 ∪ .single 7
  | preventAll => ⟨.allOnes 32⟩

def flagName : Restriction → String
  | preventDying => "PREVENT_DYING"
  | preventWalking => "PREVENT_WALKING"
  | preventAiming => "PREVENT_AIMING"
  | preventDodge => "PREVENT_DODGE"
  | preventShooting => "PREVENT_SHOOTING"
  | preventMelee => "PREVENT_MELEE"
  | preventBeingShot => "PREVENT_BEING_SHOT"
  | preventBeingMeleed => "PREVENT_BEING_MELEED"
  | preventRagdoll => "PREVENT_RAGDOLL"
  | preventWorldInteraction => "PREVENT_WORLD_INTERACTION"
  | preventThrowing => "PREVENT_THROWING"
  | preventIronSight => "PREVENT_IRON_SIGHT"
  | preventMixTransition => "PREVENT_MIX_TRANSITION"
  | preventFlip => "PREVENT_FLIP"
  | faceForwards => "FACE_FORWARDS"
  | preventDeathAnimation => "PREVENT_DEATH_ANIMATION"
  | preventBlock => "PREVENT_BLOCK"
  | preventAllAttacking => "PREVENT_ALL_ATTACKING"
  | preventAllMovement => "PREVENT_ALL_MOVEMENT"
  | preventAllDamage => "PREVENT_ALL_DAMAGE"
  | preventAll => "PREVENT_ALL"

/-- The name in clip files: the flag name without underscores. -/
def fileName (restriction : Restriction) : List Char :=
  restriction.flagName.toList.filter (· != '_')

end Restriction

namespace Restrictions

/-- The word in clip files for no restriction at all. -/
def allowAll : List Char := "AllowAll".toList

/-- The set that a word of a clip file names, in any case. -/
def ofFileName? (name : List Char) : Option Restrictions :=
  if Text.sameIgnoringCase allowAll name then some empty
  else
    (Restriction.all.find? fun restriction =>
      Text.sameIgnoringCase restriction.fileName name).map Restriction.set

end Restrictions

end LimbAnimation
