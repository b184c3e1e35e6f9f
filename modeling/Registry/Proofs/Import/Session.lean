import Registry.Import.World
import Registry.Proofs.History.Engine

/-!
# Session — a parser that works on the registers by calls

A session makes calls one by one, and what it does next may depend on every answer so far.  The
database behind it is the one that its calls leave when they are made again in their order.
-/

namespace Registry

/-- Calls on the registers, each with what follows its answer.  In the end there is an outcome, the
files as they were left, and the time. -/
inductive Session where
  | ended (outcome : Except ParserFault Unit) (files : Tree) (now : Instant)
  | call (c : EngineCall) (next : Except HistoryFault EngineAnswer → Session)

namespace Session

def calls (w : Recorder) : Session → Database → List EngineCall
  | ended .., _ => []
  | call c next, db => c :: (next (c.run w db).1).calls w (c.run w db).2

def perform (w : Recorder) : Session → World → Except ParserFault Unit × World
  | ended outcome files now, world => (outcome, { world with files, now })
  | call c next, world =>
    (next (c.run w world.database).1).perform w (world.withDatabase (c.run w world.database).2)

theorem database_perform (w : Recorder) (s : Session) (world : World) :
    (s.perform w world).2.database = EngineCall.replay w (s.calls w world.database) world.database := by
  -- On the session: each answer leads on to what follows it, from the world that the call has left.
  induction s generalizing world with
  | ended outcome files now => rfl
  | call c next ih => exact ih (c.run w world.database).1 (world.withDatabase (c.run w world.database).2)

/-- The parser that works on each data set in a session. -/
def parser (work : DataSet → Run → Tree → Instant → Session) : Parser := fun dataSet run w =>
  (work dataSet run w.files w.now).perform run.recorder w

-- What the calls of a session leave is all that becomes of the database.
theorem parser_database {work : DataSet → Run → Tree → Instant → Session} {dataSet : DataSet}
    {run : Run} {w after : World} {outcome : Except ParserFault Unit}
    (h : parser work dataSet run w = (outcome, after)) :
    after.database = EngineCall.replay run.recorder
      ((work dataSet run w.files w.now).calls run.recorder w.database) w.database := by
  have hperform := database_perform run.recorder (work dataSet run w.files w.now) w
  rw [show (work dataSet run w.files w.now).perform run.recorder w = (outcome, after) from h]
    at hperform
  exact hperform

end Session

end Registry
