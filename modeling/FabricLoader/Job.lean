import FabricLoader.Action
import FabricLoader.Files.Store

/-! Jobs: programs that read and write whole files and leave events behind. A job is a tree of
requests, so it can be run on any `FileSystem`, such as a `FileStore`, where its meaning is a
function, and just as well be carried out on a real system one request after another. -/
namespace FabricLoader

inductive Job (α : Type) where
  | done (value : α)
  | emit (event : Event) (next : Job α)
  | openFile (path : String) (next : Except IoError (Except IoError (List UInt8)) → Job α)
  | writeFile (path : String) (content : List UInt8) (next : Except IoError Unit → Job α)

structure Job.Result (φ α : Type) where
  value : α
  store : φ
  events : List Event

namespace Job
variable {φ σ α β : Type} [FileSystem φ]

protected def bind : Job α → (α → Job β) → Job β
  | done value, next => next value
  | emit event rest, next => emit event (rest.bind next)
  | openFile path rest, next => openFile path fun answer => (rest answer).bind next
  | writeFile path content rest, next => writeFile path content fun answer => (rest answer).bind next

instance : Monad Job where
  pure := done
  bind := Job.bind

def log (level : Level) (text : String) : Job Unit := emit (.line ⟨level, text⟩) (done ())

def print (text : String) : Job Unit := emit (.print text) (done ())

def emitAll : List Event → Job Unit
  | [] => done ()
  | event :: events => emit event (emitAll events)

/-- Performs an action on a state that the caller keeps. -/
def perform (action : Action Event σ α) (state : σ) : Job (α × σ) := do
  let outcome := action state
  emitAll outcome.events
  return (outcome.value, outcome.state)

def run (store : φ) : Job α → Result φ α
  | done value => ⟨value, store, []⟩
  | emit event next =>
    let rest := next.run store
    { rest with events := event :: rest.events }
  | openFile path next => (next (FileSystem.openFile store path)).run store
  | writeFile path content next =>
    let written := FileSystem.writeFile store path content
    (next written.1).run written.2

@[simp] theorem run_pure (store : φ) (value : α) :
    (pure value : Job α).run store = ⟨value, store, []⟩ := rfl

/-- Running two jobs in turn passes the files on and joins the events. -/
@[simp] theorem run_bind (store : φ) (job : Job α) (next : α → Job β) :
    (job >>= next).run store =
      ⟨((next (job.run store).value).run (job.run store).store).value,
        ((next (job.run store).value).run (job.run store).store).store,
        (job.run store).events ++ ((next (job.run store).value).run (job.run store).store).events⟩ := by
  change (Job.bind job next).run store = _
  induction job generalizing store with
  | done value => rfl
  | emit event rest ih => simp [Job.bind, run, ih]
  | openFile path rest ih => simp [Job.bind, run, ih]
  | writeFile path content rest ih => simp [Job.bind, run, ih]

@[simp] theorem run_emitAll (store : φ) (events : List Event) :
    (emitAll events).run store = ⟨(), store, events⟩ := by
  induction events with
  | nil => rfl
  | cons event events ih => simp [emitAll, run, ih]

/-- Performing an action touches no file and leaves the events of the action. -/
@[simp] theorem run_perform (store : φ) (action : Action Event σ α) (state : σ) :
    (perform action state).run store =
      ⟨((action state).value, (action state).state), store, (action state).events⟩ := by
  simp [perform]

end Job
end FabricLoader
