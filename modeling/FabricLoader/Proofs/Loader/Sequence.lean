import FabricLoader.Proofs.Loader.Requested

/-! Loads one after another. Each begins with the bus that the one before has left, and the first that
fails is the last: no file is opened and nothing is sent to the bus after it. -/
namespace FabricLoader

namespace Job
variable {φ σ α β : Type} [FileSystem φ]

def opened (store : φ) : Job α → List String
  | done _ => []
  | emit _ next => next.opened store
  | openFile path next => path :: (next (FileSystem.openFile store path)).opened store
  | writeFile path content next =>
    let written := FileSystem.writeFile store path content
    (next written.1).opened written.2

@[simp] theorem opened_pure (store : φ) (value : α) :
    (pure value : Job α).opened store = [] := rfl

@[simp] theorem opened_bind (store : φ) (job : Job α) (next : α → Job β) :
    (job >>= next).opened store =
      job.opened store ++ (next (job.run store).value).opened (job.run store).store := by
  change (Job.bind job next).opened store = _
  induction job generalizing store with
  | done value => rfl
  | emit event rest ih => exact ih store
  | openFile path rest ih => simp [Job.bind, opened, run, ih]
  | writeFile path content rest ih => simp [Job.bind, opened, run, ih]

@[simp] theorem opened_perform (store : φ) (action : Action Event σ α) (state : σ) :
    (perform action state).opened store = [] := by
  have lines (events : List Event) : (emitAll events).opened store = [] := by
    induction events with
    | nil => rfl
    | cons event events ih => exact ih
  simp [perform, lines]

end Job

theorem Table.load_opened {φ : Type} [FileSystem φ] (path : String) (store : φ) :
    (Table.load path).opened store = [path] := by
  simp only [Table.load, readBytes, Job.opened_bind]
  rw [Job.opened, Job.run]
  rcases FileSystem.openFile store path with cause | (cause | bytes)
  · rfl
  · rfl
  · simp only [Job.run_pure]
    cases Table.ofBytes path bytes <;> rfl

namespace Loader
variable {δ : Type} [Peripheral δ] {loader : Loader} {store : FileStore}
  {request : ImageRequest} {requests : List ImageRequest} {bus : SessionBus δ}

@[simp] theorem load_store (loader : Loader) (request : ImageRequest) (bus : SessionBus δ)
    (store : FileStore) : ((loader.load request bus).run store).store = store := by
  rw [load_run]
  dsimp only
  split
  · rfl
  · split <;> rfl

theorem load_opened (loader : Loader) (request : ImageRequest) (bus : SessionBus δ)
    (store : FileStore) : (loader.load request bus).opened store = [request.file] := by
  simp only [load, Job.opened_bind, Table.load_opened]
  generalize ((Table.load request.file).run store).value = read
  cases read with
  | error cause => rfl
  | ok table =>
    dsimp only
    cases loader.checker.checkTable { table with control := table.control <|> request.control } with
    | error cause => rfl
    | ok image => simp [Job.opened, Job.log]

/-- Loads one after another, each of which succeeds on the bus that the one before has left, and the
accesses of all of them. -/
inductive Loaded (loader : Loader) (store : FileStore) :
    SessionBus δ → List ImageRequest → List Access → SessionBus δ → Prop
  | nil (bus : SessionBus δ) : Loaded loader store bus [] [] bus
  | cons {bus final : SessionBus δ} {request : ImageRequest} {requests : List ImageRequest}
      {accesses : List Access} {report : ApplyReport}
      (loads : ((loader.load request bus).run store).value.1 = .ok report)
      (rest : Loaded loader store ((loader.load request bus).run store).value.2 requests
        accesses final) :
      Loaded loader store bus (request :: requests)
        (Event.accesses ((loader.load request bus).run store).events ++ accesses) final

theorem loadAll_cons (loader : Loader) (request : ImageRequest) (requests : List ImageRequest)
    (bus : SessionBus δ) (store : FileStore) :
    let first := (loader.load request bus).run store
    (loader.loadAll (request :: requests) bus).run store =
      (match first.value.1 with
        | .error e => ⟨(.error e, first.value.2), store, first.events⟩
        | .ok _ =>
          let rest := (loader.loadAll requests first.value.2).run store
          ⟨rest.value, rest.store, first.events ++ rest.events⟩) ∧
    (loader.loadAll (request :: requests) bus).opened store =
      request.file :: match first.value.1 with
        | .error _ => []
        | .ok _ => (loader.loadAll requests first.value.2).opened store := by
  simp only [loadAll, Job.run_bind, Job.opened_bind, load_store, load_opened, List.singleton_append]
  generalize (loader.load request bus).run store = first
  obtain ⟨⟨result, next⟩, _, events⟩ := first
  cases result with
  | error e => simp
  | ok report => simp

/-- After a load that fails, nothing more is opened or sent. -/
theorem loadAll_fails {e : LoadError}
    (fails : ((loader.load request bus).run store).value.1 = .error e)
    (later : List ImageRequest) :
    (loader.loadAll (request :: later) bus).run store =
      ⟨(.error e, ((loader.load request bus).run store).value.2), store,
        ((loader.load request bus).run store).events⟩ ∧
    (loader.loadAll (request :: later) bus).opened store = [request.file] := by
  obtain ⟨ran, opened⟩ := loadAll_cons loader request later bus store
  simp only [fails] at ran opened
  exact ⟨ran, opened⟩

namespace Loaded
variable {accesses : List Access} {final : SessionBus δ}

/-- A session goes on after loads that succeed as it would begin with the bus that they leave. -/
theorem loadAll (loaded : Loaded loader store bus requests accesses final)
    (later : List ImageRequest) :
    let run := (loader.loadAll (requests ++ later) bus).run store
    let rest := (loader.loadAll later final).run store
    run.value = rest.value ∧
    Event.accesses run.events = accesses ++ Event.accesses rest.events ∧
    (loader.loadAll (requests ++ later) bus).opened store =
      requests.map (·.file) ++ (loader.loadAll later final).opened store := by
  induction loaded with
  | nil bus => exact ⟨rfl, rfl, rfl⟩
  | @cons bus final request requests accesses report loads _ ih =>
    obtain ⟨value, sent, opened⟩ := ih
    obtain ⟨ran, files⟩ := loadAll_cons loader request (requests ++ later) bus store
    simp only [loads] at ran files
    simp only [List.cons_append, ran, files, value, opened, Event.accesses_append, sent]
    simp

theorem split {before later : List ImageRequest}
    (loaded : Loaded loader store bus (before ++ later) accesses final) :
    ∃ first further middle, accesses = first ++ further ∧
      Loaded loader store bus before first middle ∧ Loaded loader store middle later further final := by
  induction before generalizing bus accesses with
  | nil => exact ⟨[], accesses, bus, rfl, .nil bus, loaded⟩
  | cons request before ih =>
    cases loaded with
    | cons loads rest =>
      obtain ⟨first, further, middle, rfl, done, left⟩ := ih rest
      exact ⟨_, further, middle, (List.append_assoc _ _ _).symm, .cons loads done, left⟩

end Loaded

/-- Either all loads succeed, or there is a first one that fails. -/
theorem loaded_or_fails (loader : Loader) (store : FileStore) (requests : List ImageRequest)
    (bus : SessionBus δ) :
    (∃ accesses final, Loaded loader store bus requests accesses final) ∨
    ∃ done request later accesses middle e, requests = done ++ request :: later ∧
      Loaded loader store bus done accesses middle ∧
      ((loader.load request middle).run store).value.1 = .error e := by
  induction requests generalizing bus with
  | nil => exact .inl ⟨_, _, .nil bus⟩
  | cons request requests ih =>
    cases result : ((loader.load request bus).run store).value.1 with
    | error e => exact .inr ⟨[], request, requests, _, _, e, rfl, .nil bus, result⟩
    | ok report =>
      rcases ih ((loader.load request bus).run store).value.2 with
        ⟨accesses, final, rest⟩ | ⟨done, failing, later, accesses, middle, e, rfl, rest, fails⟩
      · exact .inl ⟨_, _, .cons result rest⟩
      · exact .inr ⟨request :: done, failing, later, _, _, e, rfl, .cons result rest, fails⟩

end Loader
end FabricLoader
