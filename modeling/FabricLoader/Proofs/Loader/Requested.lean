import FabricLoader.Proofs.Loader.Configured

/-! A load as it is requested. The table is read and checked first, with no part for the bus; only an
image is programmed, and verified afterwards if that was asked for. What a load that succeeds has
sent to the bus is the whole image once, after the shorter attempts that were refused. -/
namespace FabricLoader

/-- The table that a request asks to check. A control word of its own comes first. -/
def ImageRequest.filled (request : ImageRequest) (table : Table) : Table :=
  { table with control := table.control <|> request.control }

theorem ImageRequest.filled_bare {request : ImageRequest} (bare : request.control = none)
    (table : Table) : request.filled table = table := by
  simp [filled, bare]

theorem mapError_eq_ok {ε ζ α : Type} {result : Except ε α} {f : ε → ζ} {a : α} :
    result.mapError f = .ok a ↔ result = .ok a := by
  cases result <;> simp [Except.mapError]

theorem toOption_eq_some {ε α : Type} {result : Except ε α} {a : α} :
    result.toOption = some a ↔ result = .ok a := by
  cases result <;> simp [Except.toOption]

theorem toOption_eq_none {ε α : Type} {result : Except ε α} :
    result.toOption = none ↔ ∃ e, result = .error e := by
  cases result <;> simp [Except.toOption]

namespace Loader
variable {δ : Type} [Peripheral δ] {settings : Settings} {loader : Loader} {bus : SessionBus δ}
  {block : Block} {events : List Event} {name : String} {image : Image} {applier : Applier}
  {request : ImageRequest} {report : ApplyReport} {store : FileStore}

def loadingLine (name : String) (image : Image) : LogLine where
  level := .info
  text := s!"Loading image={name} entries={image.size} width={image.width} " ++
    s!"control={Text.hexWordOrNone image.control}"

theorem load_run (loader : Loader) (request : ImageRequest) (bus : SessionBus δ)
    (store : FileStore) : (loader.load request bus).run store =
      let read := (Table.load request.file).run store
      match read.value with
      | .error cause => ⟨(.error (.file cause), bus), store, read.events⟩
      | .ok table =>
        match loader.checker.checkTable (request.filled table) with
        | .error cause => ⟨(.error (.image table.name cause), bus), store, read.events⟩
        | .ok image =>
          let installed := loader.install table.name image request bus
          ⟨(installed.value, installed.state), store, read.events ++
            .line image.checkedLine :: .line (loadingLine table.name image) :: installed.events⟩ := by
  simp only [load, Job.run_bind, Table.load_store]
  generalize (Table.load request.file).run store = read
  cases read.value with
  | error cause => simp
  | ok table =>
    simp only [ImageRequest.filled]
    cases loader.checker.checkTable { table with control := table.control <|> request.control } with
    | error cause => simp
    | ok image => simp [Job.run, Job.log, loadingLine, pure]

theorem install_apply (loader : Loader) (name : String) (image : Image) (request : ImageRequest)
    (bus : SessionBus δ) : loader.install name image request bus =
      let ran := loader.program name image (Applier.ofAddress? request.controlAddress)
        request.retries bus
      match ran.value with
      | .error e => ⟨.error e, ran.state, ran.events⟩
      | .ok report =>
        if request.verify then
          let seen := loader.verify name image ran.state
          ⟨seen.value.map fun _ => report, seen.state, ran.events ++ seen.events⟩
        else ⟨.ok report, ran.state, ran.events⟩ := by
  simp only [install, Action.bind_apply]
  generalize loader.program name image (Applier.ofAddress? request.controlAddress) request.retries
    bus = ran
  cases ran.value with
  | error e => simp
  | ok report => by_cases asked : request.verify = true <;> simp [asked]

def readBack (loader : Loader) : List Access :=
  [.read (loader.base + Register.selector.offset), .read (loader.base + Register.data.offset)]

theorem accesses_verify (loader : Loader) (name : String) (image : Image) (bus : SessionBus δ) :
    Event.accesses (loader.verify name image bus).events = loader.readBack := by
  simp only [verify, Action.bind_apply, Event.accesses_append, Bus.accesses_read]
  split <;> rfl

theorem install_eq_ok : (loader.install name image request bus).value = .ok report ↔
    let ran := loader.program name image (Applier.ofAddress? request.controlAddress)
      request.retries bus
    ran.value = .ok report ∧
      (request.verify = true → (loader.verify name image ran.state).value = .ok ()) := by
  rw [install_apply]
  generalize loader.program name image (Applier.ofAddress? request.controlAddress) request.retries
    bus = ran
  cases result : ran.value with
  | error e => simp [result]
  | ok found =>
    by_cases asked : request.verify = true
    · cases seen : (loader.verify name image ran.state).value <;>
        simp [result, asked, seen, Except.map]
    · simp [result, asked]

/-- What follows a program that succeeds reads only. -/
theorem install_accesses (loads : (loader.install name image request bus).value = .ok report) :
    Event.accesses (loader.install name image request bus).events =
      Event.accesses (loader.program name image (Applier.ofAddress? request.controlAddress)
        request.retries bus).events ++ if request.verify then loader.readBack else [] := by
  have ran := (install_eq_ok.mp loads).1
  rw [install_apply]
  simp only [ran]
  by_cases asked : request.verify = true
  · simp [asked, accesses_verify]
  · simp [asked]

/-- A load succeeds exactly if its table is there, is an image, and can be installed. -/
theorem load_eq_ok : ((loader.load request bus).run store).value.1 = .ok report ↔
    ∃ table image, ((Table.load request.file).run store).value = .ok table ∧
      loader.checker.checkTable (request.filled table) = .ok image ∧
      (loader.install table.name image request bus).value = .ok report := by
  rw [load_run]
  cases read : ((Table.load request.file).run store).value with
  | error cause => simp [read]
  | ok table =>
    cases checked : loader.checker.checkTable (request.filled table) <;> simp [read, checked]

theorem load_installs {table : Table} (read : ((Table.load request.file).run store).value = .ok table)
    (checked : loader.checker.checkTable (request.filled table) = .ok image) (bus : SessionBus δ) :
    let run := (loader.load request bus).run store
    let installed := loader.install table.name image request bus
    run.value = (installed.value, installed.state) ∧
    Event.accesses run.events = Event.accesses installed.events := by
  have before := Table.load_accesses request.file store
  rw [load_run]
  simp only [read, checked, Event.accesses_append, before]
  exact ⟨trivial, rfl⟩

theorem Completes.controlled {before : List Access} {number : Nat}
    {run : Outcome Event (SessionBus δ) (Except LoadError ApplyReport)}
    (completes : Completes loader name image applier bus before number run)
    (loads : run.value = .ok report) : loader.controlResult image applier
      (bus.replay (before ++ loader.entriesScript image.entries)) = .ok report := by
  rw [← mapError_eq_ok]
  exact completes.value.symm.trans loads

/-- A program that succeeds has sent the whole image once, after attempts at its first entries. -/
theorem program_sent (carries : Carries loader.base block bus) {retries : UInt32}
    (loads : (loader.program name image applier retries bus).value = .ok report) :
    ∃ (refused : List (List Entry)) (filled : SessionBus δ),
      (∀ entries ∈ refused, entries <+: image.entries) ∧
      Event.accesses (loader.program name image applier retries bus).events =
        refused.flatMap loader.entriesScript ++ loader.script image applier ∧
      loader.controlResult image applier filled = .ok report := by
  cases pending : block.refusal? image.size with
  | none =>
    have completes := program_accepted name applier carries pending retries
    exact ⟨[], _, by simp, completes.accesses, completes.controlled loads⟩
  | some i =>
    by_cases final : retries = 0
    · subst final
      cases (program_refused name applier carries pending).1.symm.trans loads
    · have completes := program_restarted name applier carries pending final
      refine ⟨[image.entries.take (i + 1)], _, ?_, ?_, completes.controlled loads⟩
      · simp [List.take_prefix]
      · simpa using completes.accesses

/-- A control word that was accepted has an address on the bus. -/
theorem controlAccesses_of_ok (loads : loader.controlResult image applier bus = .ok report) :
    (image.control ≠ none → loader.base.toNat + applier.controlAddress.toNat < UInt32.size) ∧
    loader.controlAccesses image applier =
      (image.control.map (.write (loader.base + applier.controlAddress))).toList := by
  unfold controlResult at loads
  unfold controlAccesses
  cases control : image.control with
  | none => simp
  | some word =>
    simp only [control] at loads
    by_cases room : loader.base.toNat + applier.controlAddress.toNat < UInt32.size
    · simp [HostSink.address?, room]
    · simp [HostSink.address?, room] at loads

def spiStore : FileStore :=
  let source := "const uint32_t spi[] = { 1, 10, 2, 20 }; const uint32_t spi_count = 2; " ++
    "const uint32_t spi_width = 32; const uint32_t spi_ctrlReg = 9;"
  FileStore.ofPaths [("spi.c", source.toUTF8.toList)]

end Loader
end FabricLoader
