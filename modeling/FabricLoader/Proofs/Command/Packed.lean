import FabricLoader.Command.Outcome
import FabricLoader.Proofs.Files.Written
import FabricLoader.Proofs.Loader.Naming

/-! What the commands `pack` and `plan` do with the table in a file. Packing writes the container of a
table that passes the check and nothing else; planning prints what the check and the entries of the
table decide, and nothing that a container leaves out. -/
namespace FabricLoader

namespace Recording

/-- Nothing is refused. -/
def Open (r : Recording) : Prop := r.failAt = none ∧ r.failControl = false

theorem open_make (call : SinkCall) (r : Recording) (opened : r.Open) :
    (call.make r).value = .ok () ∧ (call.make r).state.Open := by
  obtain ⟨writes, attempts, failAt, failControl⟩ := r
  obtain ⟨rfl, rfl⟩ := opened
  cases call with
  | entry address value => exact ⟨rfl, rfl, rfl⟩
  | control address value => exact ⟨rfl, rfl, rfl⟩

end Recording

theorem writeBytes_run {φ : Type} [FileSystem φ] (path : String) (content : List UInt8) (store : φ) :
    let written := FileSystem.writeFile store path content
    (writeBytes path content).run store =
      ⟨written.1.mapError (.writing path), written.2, []⟩ := by
  simp only [writeBytes, Job.run]
  cases (FileSystem.writeFile store path content).1 <;> rfl

namespace Command
variable {φ : Type} [FileSystem φ] {store : φ} {file output : String} {table : Table} {image : Image}

theorem printLines_run (lines : List String) (store : φ) :
    (printLines lines).run store = ⟨(), store, lines.map fun line => .print (line ++ "\n")⟩ := by
  induction lines with
  | nil => rfl
  | cons line rest ih => simp [printLines, printLine, Job.print, Job.run, ih]

theorem checkedImage_run (table : Table) (store : φ) :
    (checkedImage table).run store = match Checker.standard.checkTable table with
      | .ok image => ⟨.ok image, store, [.line image.checkedLine]⟩
      | .error e => ⟨.error e, store, []⟩ := by
  unfold checkedImage
  cases Checker.standard.checkTable table <;> rfl

theorem loadImage_store (file : String) (named : Bool) (store : φ) :
    ((loadImage file named).run store).store = store := by
  simp only [loadImage, Job.run_bind, Table.load_store]
  cases ((Table.load file).run store).value with
  | error e => rfl
  | ok table =>
    simp only [Job.run_bind, checkedImage_run]
    cases Checker.standard.checkTable table <;> rfl

theorem loadImage_eq_ok {named : Bool} :
    ((loadImage file named).run store).value = .ok (table, image) ↔
      ((Table.load file).run store).value = .ok table ∧
        Checker.standard.checkTable table = .ok image := by
  simp only [loadImage, Job.run_bind, Table.load_store]
  cases ((Table.load file).run store).value with
  | error e => simp
  | ok loaded =>
    simp only [Job.run_bind, checkedImage_run]
    cases checked : Checker.standard.checkTable loaded with
    | error e =>
      simp only [Job.run_pure, reduceCtorEq, Except.ok.injEq, false_iff]
      rintro ⟨rfl, accepted⟩
      cases checked.symm.trans accepted
    | ok found =>
      simp only [Job.run_pure, Except.ok.injEq, Prod.mk.injEq]
      refine and_congr_right fun same => ?_
      rw [← same, checked, Except.ok.injEq]

/-- A table that cannot be loaded or does not pass the check is not packed. -/
theorem runPack_missing (output : String) (missing : ¬∃ table image,
      ((Table.load file).run store).value = .ok table ∧
        Checker.standard.checkTable table = .ok image) :
    let run := (runPack file output).run store
    (∃ messages, run.value = .error messages) ∧ run.store = store := by
  simp only [runPack, Job.run_bind, loadImage_store]
  cases result : ((loadImage file true).run store).value with
  | error messages => exact ⟨⟨messages, rfl⟩, rfl⟩
  | ok found => exact (missing ⟨found.1, found.2, loadImage_eq_ok.mp result⟩).elim

/-- A table that passes the check is packed if its container can be written. -/
theorem runPack_loaded {store : FileStore} (output : String) (loaded : ((Table.load file).run store).value = .ok table)
    (checked : Checker.standard.checkTable table = .ok image) :
    let run := (runPack file output).run store
    match store.write output (Container.encode table) with
    | .ok written => run.value = .ok () ∧ run.store = written
    | .error cause => run.value = .error (FileError.writing output cause).messages ∧
        run.store = store := by
  have found : ((loadImage file true).run store).value = .ok (table, image) :=
    loadImage_eq_ok.mpr ⟨loaded, checked⟩
  simp only [runPack, Job.run_bind, loadImage_store, found, writeBytes_run, FileSystem.writeFile]
  cases store.write output (Container.encode table) with
  | ok written => exact ⟨rfl, rfl⟩
  | error cause => exact ⟨rfl, rfl⟩

def planEvents (address : Option UInt32) (table : Table) : List Event :=
  let applied := (Applier.ofAddress? address).applyTable .standard table (Recording.new none false)
  applied.events ++ ((applied.state.writes.zipIdx.map fun (write, i) => planLine i write).map
    fun line => .print (line ++ "\n"))

/-- A container keeps all that a plan depends on. -/
theorem planEvents_contained (address : Option UInt32) (table : Table) (name : String) :
    planEvents address (table.contained name) = planEvents address table := rfl

/-- A table that passes the check is planned without a failure. -/
theorem runPlan_run (loaded : ((Table.load file).run store).value = .ok table)
    (checked : Checker.standard.checkTable table = .ok image) (address : Option UInt32) :
    (runPlan file address).run store =
      ⟨.ok (), store, .line (table.loadedLine file) :: planEvents address table⟩ := by
  have applied : ((Applier.ofAddress? address).applyTable .standard table
      (Recording.new none false)).value = .ok ⟨image.size, image.control.isSome⟩ := by
    have accepted := Applier.apply_accepting Recording.open_make (Applier.ofAddress? address) image
      (show (Recording.new none false).Open from ⟨rfl, rfl⟩)
    simp only [Applier.applyTable, checked, Action.bind_apply, Action.emit_apply, Action.pure_apply,
      accepted]
    rfl
  simp only [runPlan, Job.run_bind, loaded, Table.load_events loaded, Table.load_store,
    Job.run_perform, applied, printLines_run, Job.run_pure, planEvents]
  simp

/-- What the program answers to a plan, by default. -/
theorem runProgram_plan {arguments : List String} {address : Option UInt32}
    (asked : Arguments.parse arguments = .run .info (.plan file address))
    (loaded : ((Table.load file).run store).value = .ok table)
    (checked : Checker.standard.checkTable table = .ok image) (colour : Bool) :
    runProgram colour store arguments = ⟨0, String.join
      ((Console.start.shown .info (planEvents address table)).map Shown.render), "", store⟩ := by
  have ran : (Command.run colour (.plan file address)).run store = _ :=
    runPlan_run loaded checked address
  simp only [runProgram, asked, ran]
  rfl

variable {arguments : List String} {threshold : Level}

theorem runProgram_pack_missing
    (asked : Arguments.parse arguments = .run threshold (.pack file output))
    (missing : ¬∃ table image, ((Table.load file).run store).value = .ok table ∧
      Checker.standard.checkTable table = .ok image) (colour : Bool) :
    let run := runProgram colour store arguments
    run.exit = 1 ∧ run.store = store := by
  obtain ⟨⟨messages, failed⟩, same⟩ := runPack_missing output missing
  simp only [runProgram, asked, Command.run, failed]
  exact ⟨trivial, same⟩

theorem runProgram_pack_loaded {store : FileStore}
    (asked : Arguments.parse arguments = .run threshold (.pack file output))
    (loaded : ((Table.load file).run store).value = .ok table)
    (checked : Checker.standard.checkTable table = .ok image) (colour : Bool) :
    let run := runProgram colour store arguments
    match store.write output (Container.encode table) with
    | .ok written => run.exit = 0 ∧ run.store = written
    | .error _ => run.exit = 1 ∧ run.store = store := by
  have outcome := runPack_loaded output loaded checked
  simp only [runProgram, asked, Command.run]
  cases wrote : store.write output (Container.encode table) with
  | ok written =>
    simp only [wrote] at outcome
    simp only [outcome.1]
    exact ⟨trivial, outcome.2⟩
  | error cause =>
    simp only [wrote] at outcome
    simp only [outcome.1]
    exact ⟨trivial, outcome.2⟩

end Command
end FabricLoader
