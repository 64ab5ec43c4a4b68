import Tenancy.Feed.Bus
import Tenancy.Feed.Channel
import Tenancy.Text.Numeral

/-!
# Configuration of stores

The sizes of watch buffers, pages and change feeds.  They can be given by variables; a variable
that is no number is passed over.
-/

namespace Tenancy

/-- A setting that cannot be used. -/
structure ConfigError where
  key : String
  reason : String
  deriving DecidableEq

def ConfigError.message (e : ConfigError) : String :=
  "Invalid configuration value for " ++ e.key ++ ": " ++ e.reason

/-- The first of the named numbers that is zero is an error. -/
def requirePositive : List (String × Nat) → Except ConfigError Unit
  | [] => .ok ()
  | (key, value) :: rest =>
    if value = 0 then .error ⟨key, "must be greater than zero"⟩ else requirePositive rest

/-- The number that a variable sets, or `default`. -/
def numberFrom (env : String → Option String) (key : String) (default : Nat) : Nat :=
  ((env key).bind Numeral.readWord?).getD default

structure StoreConfig where
  /-- The number of events that wait for the consumer of a watch. -/
  watchBufferSize : Nat := Channel.defaultCapacity
  maxPageSize : Nat := 500
  /-- The number of events that a container keeps for watches that are behind. -/
  changeFeedCapacity : Nat := ChangeBus.defaultCapacity
  deriving DecidableEq

namespace StoreConfig

/-- The configuration that the variables of an environment give. -/
def ofEnv (env : String → Option String) : StoreConfig where
  watchBufferSize := numberFrom env "STORE_WATCH_BUFFER_SIZE" Channel.defaultCapacity
  maxPageSize := numberFrom env "STORE_MAX_PAGE_SIZE" 500
  changeFeedCapacity := numberFrom env "STORE_CHANGE_FEED_CAPACITY" ChangeBus.defaultCapacity

def validate (c : StoreConfig) : Except ConfigError Unit :=
  requirePositive [("watch_buffer_size", c.watchBufferSize), ("max_page_size", c.maxPageSize),
    ("change_feed_capacity", c.changeFeedCapacity)]

/-- The size of a page when `requested` items are asked for; none and zero ask for as many as are
allowed. -/
def pageSize (c : StoreConfig) : Option Nat → Nat
  | some (limit + 1) => min (limit + 1) c.maxPageSize
  | _ => c.maxPageSize

end StoreConfig

end Tenancy
