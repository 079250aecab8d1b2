import Notebook.Kernel.Command
import Notebook.Kernel.Event
import Notebook.Session.Basic
/-!
# Executing cells

Queueing a cell issues a ticket. Events of the kernel carry tickets and change the cell that the
ticket was issued for, wherever it stands by then. A ticket is valid until its cell is queued
again, its namespace summary arrives, the kernel restarts or ends, or an event finds that the cell
is gone.
-/
namespace Notebook

inductive Reaction where
  | applied (id : Text)
  /-- Its execution or its cell does not exist any more. -/
  | discarded
  | notice (message : Text)
  | ignored
  deriving DecidableEq, Repr

namespace Session

/-- Change the cell of an identity. The views do not show what this may change. -/
def withCell (session : Session) (id : Text) (change : Cell → Cell) : Session :=
  { session with cells := session.cells.modifyCell id change }

/-- Queue a code cell. Its outputs are dropped. -/
def queue (session : Session) (index : Nat) : Outcome Command :=
  session.flushed fun session =>
    match session.cells.get? index with
    | none => (.error (.indexOutOfRange index session.cells.length), session)
    | some cell =>
      if !cell.kind.isCode then (.error (.notExecutable cell.id), session)
      else
        let ticket := session.nextTicket
        let command : Command :=
          { code := cell.source, ticket
            namespaceExpression := session.settings.namespaceExpression }
        (.ok command, { session with
          cells := session.cells.modifyAt index fun cell =>
            { cell with outputs := [], progress := .queued }
          nextTicket := ticket + 1
          -- Of one cell only the newest execution is followed.
          executions := Table.set (session.executions.filter fun entry => entry.2 ≠ cell.id)
            ticket cell.id })

/-- A cell that is not executed any more. -/
def settled (cell : Cell) : Cell := { cell with progress := .idle }

/-- No execution is under way any more. -/
def settleAll (session : Session) : Session :=
  session.executions.foldl (fun session entry => session.withCell entry.2 settled) session

/-- React to an event that belongs to no execution. -/
def applyGeneral (session : Session) : Event → Reaction × Session
  | .shutdown =>
    (.notice "kernel shut down", { session.settleAll with executions := [] })
  | .restarted =>
    (.notice "kernel restarted", { session.settleAll with executions := [] })
  | .interrupted => (.notice "kernel interrupted", session.settleAll)
  | .error message _ => (.notice message, session)
  | _ => (.ignored, session)

/-- A cell after an output was reported. An output may tell the execution count. -/
def withOutput (output : Output) (cell : Cell) : Cell :=
  { cell with
    outputs := cell.outputs ++ [output]
    executionCount :=
      ((Members.get? output.fields "execution_count").bind Json.asNat?).or cell.executionCount }

/-- React to an event about the execution of a live cell. -/
def applyTo (session : Session) (ticket : Nat) (id : Text) : Event → Reaction × Session
  | .status state _ =>
    if state = "busy" then
      (.applied id, session.withCell id fun cell => { cell with progress := .busy })
    else if state = "idle" then (.applied id, session.withCell id settled)
    else (.ignored, session)
  | .executeRequest _ _ =>
    (.applied id, session.withCell id fun cell => { cell with progress := .queued })
  | .executeInput _ count =>
    (.applied id, session.withCell id fun cell =>
      { cell with progress := .busy, executionCount := count.or cell.executionCount })
  | .output _ output => (.applied id, session.withCell id (withOutput output))
  | .namespaceSummary _ summary =>
    (.applied id, { session with
      namespaces := Table.set session.namespaces id summary
      executions := Table.erase session.executions ticket })
  | .error message _ => (.notice message, session.withCell id settled)
  | _ => (.ignored, session)

def applyEvent (session : Session) (event : Event) : Reaction × Session :=
  match event.ticket with
  | none => session.applyGeneral event
  | some ticket => match Table.get? session.executions ticket with
    | none => (.discarded, session)
    | some id => match session.cells.find? id with
      | none => (.discarded,
          { session with executions := Table.erase session.executions ticket })
      | some _ => session.applyTo ticket id event

end Session

end Notebook
