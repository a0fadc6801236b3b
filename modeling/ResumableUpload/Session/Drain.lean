import ResumableUpload.Session

/-!
# Transferring what is queued

`advance` does the next thing of one engine against the endpoint of a session.  `runEngine` repeats
that to the engine's end and applies every report to the queue as it comes.  `drain` gives the slot
to one upload after another, as the executor chooses them, until none is left that may run.

Waits take no time here: an engine that backs off goes on at once.
-/

namespace ResumableUpload.Session

/-- Does the next thing of an engine; gives the report that it made, if it made one. -/
def advance (session : Session) (engine : Engine) : Session × Engine × Option Report :=
  match engine.phase with
  | .idle | .ended _ => (session, engine, none)
  | .creating attempt =>
    let (session, answer) := session.callCreate engine.path engine.size
    (session, engine.afterCreate attempt answer, none)
  | .pausingCreate attempt => (session, engine.afterCreatePause attempt, none)
  | .checking => (session, engine.check, none)
  | .reading =>
    (session, engine.afterRead (engine.file.source.read engine.offset engine.chunkLast), none)
  | .sending content =>
    let (session, call) := session.sendChunk engine.path content engine.offset
    let (session, answer) := session.answerChunk call
    (session, engine.afterChunk answer, none)
  | .accepted | .refused _ | .concluding _ => (session, engine.afterReport, engine.report?)
  | .backingOff => (session, engine.afterBackOff, none)
  | .resyncing =>
    let (session, answer) := session.callStatus engine.path
    (session, engine.afterStatus answer, none)

/-- Takes note of a report: the executor counts it and the queue applies it. -/
def hear (session : Session) : Option Report → Session
  | none => session
  | some report =>
    { session with
      executor := session.executor.emit report
      queue := session.queue.reconcile report }

/-- Runs an engine for at most `fuel` things to do, or to its end. -/
def runEngine (session : Session) (engine : Engine) : (fuel : Nat) → Session × Engine
  | 0 => (session, engine)
  | fuel + 1 =>
    if engine.hasEnded then (session, engine)
    else
      let (session, engine, report) := session.advance engine
      (session.hear report).runEngine engine fuel

/--
More things to do than an engine has.  Each chunk call uses up a canned answer, or brings the offset
to the end of the stored bytes, or has the endpoint store one more byte, or shortens the chunk;
between two calls there are fewer than eight things to do.
-/
def patience (session : Session) (engine : Engine) : Nat :=
  let canned := session.endpoint.chunkScript.length + session.endpoint.statusScript.length
  2 * engine.tuning.createLimit + 8 * (canned + engine.size + 4) * (Nat.pow 2 64 + 1)

/-- Gives the slot to the next upload; returns the number of its run. -/
def claimSlot (session : Session) : Session × Option Nat :=
  let (executor, started) := session.executor.sync session.queue.snapshot
  ({ session with executor := executor }, started)

/-- Frees the slot of a run whose engine came to rest like this. -/
def freeSlot (session : Session) (run : Nat) (engine : Engine) : Session :=
  let settled := (session.executor.modifyEngine run fun _ => engine).settle run .returned
  { session with executor := settled.release engine.path }

/-- Transfers one upload after another, `turns` at most. -/
def drainFor (session : Session) : (turns : Nat) → Session
  | 0 => session
  | turns + 1 =>
    match session.claimSlot with
    | (session, none) => session
    | (session, some run) =>
      match session.executor.engine? run with
      | none => session
      | some engine =>
        let rested := session.runEngine engine (session.patience engine)
        (rested.1.freeSlot run rested.2).drainFor turns

/-- Transfers what is queued, one upload after another; every one of them has a single turn. -/
def drain (session : Session) : Session :=
  session.drainFor session.queue.entries.length

end ResumableUpload.Session
