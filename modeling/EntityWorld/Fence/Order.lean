import EntityWorld.Error

/-!
# Fence order

Fences are asked for beside other fences, which may be asked for later. Requests are placed in the
order they were made, in repeated passes, each as soon as its target is placed. A pass that places
nothing shows a cycle or a missing target, so as many passes as requests are enough.
-/
namespace EntityWorld

/-- The side of the target that a fence is put on. -/
inductive Anchor where
  | before
  | after
  deriving DecidableEq, Repr

/-- The name that phase errors give to asking for a fence on this side. -/
def Anchor.operation : Anchor → String
  | .before => "create_fence_before"
  | .after => "create_fence_after"

structure FenceRequest where
  fence : FenceId
  target : FenceId
  anchor : Anchor
  deriving DecidableEq, Repr

namespace FenceRequest

/-- Puts the fence right beside its target, if the target is there. -/
def placeIn? (r : FenceRequest) : List FenceId → Option (List FenceId)
  | [] => none
  | head :: rest =>
    if head = r.target then
      match r.anchor with
      | .before => some (r.fence :: head :: rest)
      | .after => some (head :: r.fence :: rest)
    else (r.placeIn? rest).map (head :: ·)

/-- The fence is somewhere on the side of its target that was asked for. -/
def isHonoured (r : FenceRequest) (order : List FenceId) : Bool :=
  match order.idxOf? r.fence, order.idxOf? r.target, r.anchor with
  | some fence, some target, .before => fence < target
  | some fence, some target, .after => fence > target
  | _, _, _ => false

end FenceRequest

/-- Goes through the requests once; gives the order and the requests that are left. -/
def placePass : List FenceId → List FenceRequest → List FenceId × List FenceRequest
  | order, [] => (order, [])
  | order, r :: rest =>
    match r.placeIn? order with
    | some order => placePass order rest
    | none =>
      let (order, left) := placePass order rest
      (order, r :: left)

/-- Passes until nothing is left or nothing can be placed. -/
def placeAll : Nat → List FenceId → List FenceRequest → List FenceId × List FenceRequest
  | 0, order, left => (order, left)
  | fuel + 1, order, left =>
    match placePass order left with
    | (order, []) => (order, [])
    | (order, left') =>
      if left'.length = left.length then (order, left') else placeAll fuel order left'

/-- The order of the built-in fences and all requested ones. -/
def fenceOrder (requests : List FenceRequest) : Except FenceError (List FenceId) :=
  match placeAll requests.length FenceId.builtins requests with
  | (order, []) =>
    match requests.find? fun r => !r.isHonoured order with
    | some r => .error (.orderingConflict r.fence r.target)
    | none => .ok order
  | (_, left) => .error (.unresolvedFences (left.map FenceRequest.fence))

end EntityWorld
