import Tenancy.Billing.Directory
import Tenancy.Billing.Memory
import Tenancy.Billing.Scavenger
import Tenancy.Proofs.Operation
import Tenancy.Proofs.Time

/-!
# Processes that share a record table

Creations, sweeps and readings run at the same time over one record table.  Each is the program of
the directory or of the scavenger, over a record system whose calls are data (`RecordProgram`), so
that others can come between any two calls.  A call is atomic, has the time of the clock, and may be
made to fail.

* `SharedTable.move`: everything that can happen next.
* `SharedTable.Permits`: the clock does not go back, and creations clear their markers in time.
* `RecordProgram.mirrors_directory_create`, `RecordProgram.mirrors_sweepAt`,
  `RecordProgram.mirrors_get`, `RecordProgram.mirrors_list`: with nobody between its calls, a
  program does what the same code does over the table itself.
-/

namespace Tenancy

/-! ## Programs -/

/-- A program that uses a record system: it is at its end, or makes a call and goes on with the
reply. -/
inductive RecordProgram (α : Type) where
  | done (result : α)
  | create (r : NewRecord) (next : Except BillingError Int → RecordProgram α)
  | update (ids : List Int) (patch : RecordPatch)
      (next : Except BillingError Unit → RecordProgram α)
  | delete (ids : List Int) (next : Except BillingError Unit → RecordProgram α)
  | search (filter : SearchFilter)
      (next : Except BillingError (List PartnerRecord) → RecordProgram α)

/-- The reply to a call and the table after it; a failure that is injected changes nothing. -/
def answer {α : Type} (fault : Option BillingError) (op : RecordTable.Op α) (t : RecordTable) :
    Except BillingError α × RecordTable :=
  match fault with
  | some e => (.error e, t)
  | none => runOn op t

namespace RecordProgram

variable {α β : Type}

def bind (f : α → RecordProgram β) : RecordProgram α → RecordProgram β
  | .done a => f a
  | .create r next => .create r fun reply => (next reply).bind f
  | .update ids patch next => .update ids patch fun reply => (next reply).bind f
  | .delete ids next => .delete ids fun reply => (next reply).bind f
  | .search filter next => .search filter fun reply => (next reply).bind f

instance : Monad RecordProgram where
  pure := .done
  bind x f := x.bind f

/-- The record system of programs: a call is left to whoever runs the program. -/
def system : RecordSystem RecordProgram where
  create r := ExceptT.mk (.create r .done)
  update ids patch := ExceptT.mk (.update ids patch .done)
  delete ids := ExceptT.mk (.delete ids .done)
  search filter := ExceptT.mk (.search filter .done)

def step (now : Time) (fault : Option BillingError) (t : RecordTable) :
    RecordProgram α → RecordProgram α × RecordTable
  | .done a => (.done a, t)
  | .create r next => (answer fault (RecordTable.create now r) t).map next id
  | .update ids patch next => (answer fault (RecordTable.update ids patch) t).map next id
  | .delete ids next => (answer fault (RecordTable.delete ids) t).map next id
  | .search filter next => (answer fault (RecordTable.search filter) t).map next id

def alone (now : Time) : RecordProgram α → StateM RecordTable α
  | .done a => pure a
  | .create r next => (RecordTable.create now r).run >>= fun reply => (next reply).alone now
  | .update ids patch next =>
    (RecordTable.update ids patch).run >>= fun reply => (next reply).alone now
  | .delete ids next => (RecordTable.delete ids).run >>= fun reply => (next reply).alone now
  | .search filter next => (RecordTable.search filter).run >>= fun reply => (next reply).alone now

theorem alone_bind (now : Time) (x : RecordProgram α) (f : α → RecordProgram β) :
    (x >>= f).alone now = x.alone now >>= fun a => (f a).alone now := by
  change (x.bind f).alone now = _
  induction x with
  | done a => rfl
  | create r next ih => simp only [RecordProgram.bind, alone, ih, bind_assoc]
  | update ids patch next ih => simp only [RecordProgram.bind, alone, ih, bind_assoc]
  | delete ids next ih => simp only [RecordProgram.bind, alone, ih, bind_assoc]
  | search filter next ih => simp only [RecordProgram.bind, alone, ih, bind_assoc]

/-- The program alone does what the operation does on the table. -/
def Mirrors {ε : Type} (now : Time) (x : ExceptT ε RecordProgram α)
    (y : ExceptT ε (StateM RecordTable) α) : Prop :=
  x.run.alone now = y.run

section Mirrors

variable {ε ε' : Type} {now : Time}

theorem Mirrors.bind {x : ExceptT ε RecordProgram α} {y : ExceptT ε (StateM RecordTable) α}
    {f : α → ExceptT ε RecordProgram β} {g : α → ExceptT ε (StateM RecordTable) β}
    (hFirst : Mirrors now x y) (hThen : ∀ a, Mirrors now (f a) (g a)) :
    Mirrors now (x >>= f) (y >>= g) := by
  rw [Mirrors, ExceptT.run_bind, ExceptT.run_bind, alone_bind, hFirst]
  refine congrArg (y.run >>= ·) (funext fun result => ?_)
  cases result with
  | ok a => exact hThen a
  | error e => rfl

theorem Mirrors.pure (a : α) :
    Mirrors now (pure a : ExceptT ε RecordProgram α) (pure a) := rfl

theorem Mirrors.throw (e : ε) :
    Mirrors now (throw e : ExceptT ε RecordProgram α) (throw e) := rfl

theorem Mirrors.ofExcept (x : Except ε α) :
    Mirrors now (liftM x : ExceptT ε RecordProgram α) (liftM x) := rfl

theorem Mirrors.map {γ : Type} {x : ExceptT ε RecordProgram α}
    {y : ExceptT ε (StateM RecordTable) α} (h : Mirrors now x y) (f : Except ε α → γ) :
    (f <$> x.run).alone now = f <$> y.run := by
  change (x.run >>= fun a => .done (f a)).alone now = _
  rw [alone_bind, h]
  rfl

theorem Mirrors.lift {x : ExceptT ε RecordProgram α} {y : ExceptT ε (StateM RecordTable) α}
    (h : Mirrors now x y) :
    Mirrors now (ExceptT.lift x.run : ExceptT ε' RecordProgram (Except ε α))
      (ExceptT.lift y.run) :=
  h.map (Except.ok : Except ε α → Except ε' (Except ε α))

theorem Mirrors.adapt {x : ExceptT ε RecordProgram α} {y : ExceptT ε (StateM RecordTable) α}
    (h : Mirrors now x y) (f : ε → ε') : Mirrors now (x.adapt f) (y.adapt f) :=
  h.map (Except.mapError f)

theorem mirrors_create (r : NewRecord) :
    Mirrors now (system.create r) ((RecordTable.system Cell.whole (Pure.pure now)).create r) := rfl

theorem mirrors_update (ids : List Int) (patch : RecordPatch) :
    Mirrors now (system.update ids patch)
      ((RecordTable.system Cell.whole (Pure.pure now)).update ids patch) := rfl

theorem mirrors_delete (ids : List Int) :
    Mirrors now (system.delete ids)
      ((RecordTable.system Cell.whole (Pure.pure now)).delete ids) := rfl

theorem mirrors_search (filter : SearchFilter) :
    Mirrors now (system.search filter)
      ((RecordTable.system Cell.whole (Pure.pure now)).search filter) := rfl

/-- A creation with nobody between its calls is the creation over the table. -/
theorem mirrors_directory_create (marker : String) (account : BillingAccount) :
    Mirrors now (BillingDirectory.create system marker account)
      (BillingDirectory.create (RecordTable.system Cell.whole (Pure.pure now)) marker account) := by
  have hMarked : Mirrors now (BillingDirectory.createMarked system marker account)
      (BillingDirectory.createMarked (RecordTable.system Cell.whole (Pure.pure now)) marker
        account) :=
    (mirrors_create _).bind fun companyId => (mirrors_create _).bind fun invoiceId =>
      (mirrors_update _ _).bind fun _ => .pure _
  refine hMarked.lift.bind fun result => ?_
  cases result with
  | ok link => exact .pure link
  | error e => exact (mirrors_search _).lift.bind fun _ => .throw e

/-- A sweep with nobody between its calls is the sweep over the table. -/
theorem mirrors_sweepAt (config : ScavengerConfig) (began : Time) :
    Mirrors now (Scavenger.sweepAt system config began)
      (Scavenger.sweepAt (RecordTable.system Cell.whole (Pure.pure now)) config began) := by
  rw [Scavenger.sweepAt, Scavenger.sweepAt]
  cases config.cutoff? began with
  | none => exact .throw _
  | some cutoff =>
    refine ((mirrors_search _).adapt _).bind fun marked => ?_
    dsimp only
    split
    · exact ((mirrors_delete _).adapt _).bind fun _ => .pure _
    · exact .pure _

/-- A reading with nobody between its calls is the reading over the table. -/
theorem mirrors_get (link : RecordLink) :
    Mirrors now (BillingDirectory.get system link)
      (BillingDirectory.get (RecordTable.system Cell.whole (Pure.pure now)) link) :=
  (mirrors_search _).bind fun _ => (Mirrors.ofExcept _).bind fun _ =>
    (mirrors_search _).bind fun _ => (Mirrors.ofExcept _).bind fun _ => .pure _

theorem mirrors_list :
    Mirrors now (BillingDirectory.list system)
      (BillingDirectory.list (RecordTable.system Cell.whole (Pure.pure now))) :=
  (mirrors_search _).bind fun _ => .pure _

end Mirrors

end RecordProgram

/-! ## Processes -/

structure Attempt where
  program : RecordProgram (Except BillingError RecordLink)
  /-- The records that it has created, as they were stored. -/
  created : List PartnerRecord := []
  /-- The update that clears the markers has been carried out. -/
  confirmed : Bool := false

namespace Attempt

def start (marker : String) (account : BillingAccount) : Attempt where
  program := (BillingDirectory.create RecordProgram.system marker account).run

def step (now : Time) (fault : Option BillingError) (t : RecordTable) (a : Attempt) :
    Attempt × RecordTable :=
  match a.program with
  | .create r next =>
    let (reply, u) := answer fault (RecordTable.create now r) t
    let new := reply.toOption.map fun id => r.stored id now
    ({ a with program := next reply, created := a.created ++ new.toList }, u)
  | .update ids patch next =>
    let (reply, u) := answer fault (RecordTable.update ids patch) t
    ({ a with program := next reply, confirmed := a.confirmed || reply.isOk }, u)
  | program =>
    let (program, u) := program.step now fault t
    ({ a with program := program }, u)

/-- If the next call is the update, it comes no later than the grace period after the creation of
the company record. -/
def isTimely (config : ScavengerConfig) (now : Time) (a : Attempt) : Bool :=
  match a.program with
  | .update .. => a.created.head?.all (now ≤ ·.createdAt.after config.gracePeriodSecs)
  | _ => true

end Attempt

inductive Process where
  | creation (attempt : Attempt)
  | sweep (program : RecordProgram (Except SweepError SweepReport))
  | reading (link : RecordLink) (program : RecordProgram (Except BillingError BillingEntity))
  | listing (program : RecordProgram (Except BillingError (List BillingEntity)))

namespace Process

def step (now : Time) (fault : Option BillingError) (t : RecordTable) :
    Process → Process × RecordTable
  | .creation a => (a.step now fault t).map .creation id
  | .sweep program => (program.step now fault t).map .sweep id
  | .reading link program => (program.step now fault t).map (.reading link) id
  | .listing program => (program.step now fault t).map .listing id

def isTimely (config : ScavengerConfig) (now : Time) : Process → Bool
  | .creation a => a.isTimely config now
  | _ => true

end Process

/-! ## The shared table -/

structure SharedTable where
  table : RecordTable
  /-- The last time that was read. -/
  clock : Time
  processes : List Process := []

/-- What may happen next: a process starts, one makes its next call, or the table is ordered to let
some of its calls fail. -/
inductive Move where
  | create (marker : String) (account : BillingAccount)
  | sweep (now : Time)
  | get (link : RecordLink)
  | list
  | call (process : Nat) (now : Time) (fault : Option BillingError)
  | order (failures : RecordFailures)

namespace SharedTable

def start (p : Process) (s : SharedTable) : SharedTable :=
  { s with processes := s.processes ++ [p] }

def call (i : Nat) (now : Time) (fault : Option BillingError) (s : SharedTable) : SharedTable :=
  match s.processes[i]? with
  | none => s
  | some p =>
    let (next, t) := p.step now fault s.table
    ⟨t, now, s.processes.set i next⟩

def move (config : ScavengerConfig) (s : SharedTable) : Move → SharedTable
  | .create marker account => s.start (.creation (.start marker account))
  | .sweep now =>
    { s.start (.sweep (Scavenger.sweepAt RecordProgram.system config now).run) with clock := now }
  | .get link => s.start (.reading link (BillingDirectory.get RecordProgram.system link).run)
  | .list => s.start (.listing (BillingDirectory.list RecordProgram.system).run)
  | .call i now fault => s.call i now fault
  | .order failures => { s with table.failures := failures }

def run (config : ScavengerConfig) (moves : List Move) (s : SharedTable) : SharedTable :=
  moves.foldl (move config) s

/-- The time can be read after what was read before; no clock shows a leap second. -/
def Ticks (s : SharedTable) (now : Time) : Prop := s.clock ≤ now ∧ now.IsOrdinary

instance (s : SharedTable) (now : Time) : Decidable (s.Ticks now) :=
  inferInstanceAs (Decidable (_ ∧ _))

/-- The move does not set the clock back, draws a marker of the right length, and is not the update
of a creation that comes too late. -/
def Permits (config : ScavengerConfig) (s : SharedTable) : Move → Prop
  | .create marker _ => marker.length = markerLength
  | .sweep now => s.Ticks now
  | .call i now _ => s.Ticks now ∧ s.processes[i]?.all (·.isTimely config now) = true
  | _ => True

instance (config : ScavengerConfig) (s : SharedTable) : (m : Move) → Decidable (s.Permits config m)
  | .create marker _ => inferInstanceAs (Decidable (marker.length = markerLength))
  | .sweep now => inferInstanceAs (Decidable (s.Ticks now))
  | .call _ now _ => inferInstanceAs (Decidable (s.Ticks now ∧ _ = true))
  | .get _ | .list | .order _ => inferInstanceAs (Decidable True)

def Permitted (config : ScavengerConfig) : SharedTable → List Move → Prop
  | _, [] => True
  | s, m :: moves => s.Permits config m ∧ (s.move config m).Permitted config moves

instance (config : ScavengerConfig) :
    (s : SharedTable) → (moves : List Move) → Decidable (s.Permitted config moves)
  | _, [] => inferInstanceAs (Decidable True)
  | s, m :: moves =>
    have := instDecidablePermitted config (s.move config m) moves
    inferInstanceAs (Decidable (_ ∧ _))

end SharedTable

end Tenancy
