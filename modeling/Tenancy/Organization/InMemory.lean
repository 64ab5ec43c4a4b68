import Tenancy.Access.GrantTable
import Tenancy.Organization.Api
import Tenancy.Store.Memory

/-!
# The resource API in memory

The API over a container in memory for each collection.  One table of grants keeps the owner grants
of new organizations and decides every request.
-/

namespace Tenancy

/-- What the API in memory keeps. -/
structure ApiState where
  containers : Collection → MemoryContainer
  grants : GrantTable

namespace ApiState

/-- The state before the first call. -/
def fresh (config : StoreConfig) (grants : GrantTable) : ApiState :=
  ⟨fun _ => .ofConfig config, grants⟩

/-- The container of a collection. -/
def container (collection : Collection) : Part ApiState MemoryContainer where
  read s := s.containers collection
  write c s :=
    { s with containers := fun other => if other = collection then c else s.containers other }
  read_write c s := if_pos rfl
  write_read s := by
    have hSame : (fun other => if other = collection then s.containers collection
        else s.containers other) = s.containers := by
      funext other
      split
      · rename_i hEq
        rw [hEq]
      · rfl
    simp only [hSame]
  write_write c d s := by
    have hLast : (fun other => if other = collection then c
        else if other = collection then d else s.containers other) =
        fun other => if other = collection then c else s.containers other := by
      funext other
      split <;> rfl
    simp only [hLast]

/-- The table of grants. -/
def table : Part ApiState GrantTable where
  read s := s.grants
  write t s := { s with grants := t }
  read_write _ _ := rfl
  write_read _ := rfl
  write_write _ _ _ := rfl

end ApiState

/-- The API over the containers and the table of an `ApiState`. -/
def ResourceApi.inMemory (config : StoreConfig) : ResourceApi (StateM ApiState) :=
  onContainers (fun collection => MemoryContainer.container (ApiState.container collection).cell)
    (GrantTable.grants ApiState.table.cell) (GrantTable.authorizer ApiState.table.cell) config

end Tenancy
