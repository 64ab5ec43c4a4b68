import Tenancy.Cell
import Tenancy.SortedMap
import Tenancy.Store.Provisioned

/-!
# Markers

A side effect that does no more than to remember names, and that can be made to fail.  All markers
share a board with a log of what was asked of them.
-/

namespace Tenancy

structure Marker where
  label : String
  failsToPerform : Bool
  failsToUndo : Bool
  names : SortedMap String Unit := ∅

structure MarkerBoard where
  log : List String := []
  markers : List Marker := []

namespace MarkerBoard

abbrev Op (α : Type) := ExceptT StoreError (StateM MarkerBoard) α

def note (line : String) (b : MarkerBoard) : MarkerBoard := { b with log := b.log ++ [line] }

def setNames (b : MarkerBoard) (i : Nat) (f : SortedMap String Unit → SortedMap String Unit) :
    MarkerBoard :=
  { b with markers := b.markers.modify i fun marker => { marker with names := f marker.names } }

/-- Makes the marker at a place fail or not. -/
def setFailures (i : Nat) (failsToPerform failsToUndo : Bool) (b : MarkerBoard) : MarkerBoard :=
  { b with
    markers := b.markers.modify i fun marker =>
      { marker with failsToPerform := failsToPerform, failsToUndo := failsToUndo } }

def perform (i : Nat) (label name : String) : Op Unit := do
  modify (note ("apply " ++ label ++ " " ++ name))
  if (← get).markers[i]?.any (·.failsToPerform) then throw (.internal (label ++ " unavailable"))
  modify fun b => b.setNames i (·.insert name ())

def undo (i : Nat) (label name : String) : Op Unit := do
  modify (note ("revert " ++ label ++ " " ++ name))
  if (← get).markers[i]?.any (·.failsToUndo) then throw (.internal (label ++ " revert failed"))
  modify fun b => b.setNames i (·.erase name)

end MarkerBoard

/-- The marker at a place of the board as a side effect. -/
def markerEffect {m : Type → Type} {α : Type} (board : Cell m MarkerBoard) (i : Nat)
    (label : String) : SideEffect m α where
  kind := label
  perform _ resource := board.access (MarkerBoard.perform i label resource.name)
  undo _ resource := board.access (MarkerBoard.undo i label resource.name)

end Tenancy
