import Registry.Database.Basic

/-! # Pool — access to a database until it is closed

A pool hands out its database. Once it is closed, every demand is refused. -/

namespace Registry

structure Pool where
  database : Database
  isClosed : Bool
  deriving DecidableEq

namespace Pool

def fresh : Pool := { database := .empty, isClosed := false }

-- The database of a pool that is not closed.
def acquire (p : Pool) : Except DatabaseFault Database :=
  if p.isClosed then .error .poolClosed else .ok p.database

def check (p : Pool) : Except DatabaseFault Unit := p.acquire.map fun _ => ()

def close (p : Pool) : Pool := { p with isClosed := true }

def withDatabase (p : Pool) (db : Database) : Pool := { p with database := db }

theorem acquire_close (p : Pool) : p.close.acquire = .error .poolClosed := rfl

end Pool

end Registry
