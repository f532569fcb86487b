import FabricLoader.Image.Check
import FabricLoader.Proofs.Container.RoundTrip
import FabricLoader.Table.File

/-! Tables as they come out of files. What a load yields is decided by the bytes in the file and by
the path alone, and a container under a path that is none of a source gives back the table that was
put into it, under the stem of the path. -/
namespace FabricLoader.Table

variable {φ : Type} [FileSystem φ] {store : φ} {path : String} {table : Table} {bytes : List UInt8}

def loadedLine (path : String) (table : Table) : LogLine where
  level := .debug
  text := s!"Loaded table={table.name} from file={path} words={table.words.length} " ++
    s!"count={table.count} width={table.width}"

theorem load_run (path : String) (store : φ) :
    (load path).run store = match FileSystem.openFile store path with
      | .error cause => ⟨.error (.opening path cause), store, []⟩
      | .ok (.error cause) => ⟨.error (.reading path cause), store, []⟩
      | .ok (.ok bytes) =>
        match ofBytes path bytes with
        | .error cause => ⟨.error (.table path cause), store, []⟩
        | .ok table => ⟨.ok table, store, [.line (loadedLine path table)]⟩ := by
  simp only [load, readBytes, Job.run_bind]
  rw [Job.run]
  rcases FileSystem.openFile store path with cause | (cause | bytes)
  · rfl
  · rfl
  · simp only [Job.run_pure]
    cases ofBytes path bytes <;> rfl

@[simp] theorem load_store (path : String) (store : φ) :
    ((load path).run store).store = store := by
  rw [load_run]
  split
  · rfl
  · rfl
  · split <;> rfl

theorem load_eq_ok : ((load path).run store).value = .ok table ↔
    ∃ bytes, FileSystem.openFile store path = .ok (.ok bytes) ∧ ofBytes path bytes = .ok table := by
  rw [load_run]
  rcases FileSystem.openFile store path with cause | (cause | bytes)
  · simp
  · simp
  · cases read : ofBytes path bytes <;> simp [read]

theorem load_events (loaded : ((load path).run store).value = .ok table) :
    ((load path).run store).events = [.line (loadedLine path table)] := by
  obtain ⟨bytes, opened, read⟩ := load_eq_ok.mp loaded
  rw [load_run]
  simp [opened, read]

theorem load_events_error {cause : FileError}
    (failed : ((load path).run store).value = .error cause) :
    ((load path).run store).events = [] := by
  rw [load_run] at failed ⊢
  generalize FileSystem.openFile store path = opened at failed ⊢
  rcases opened with cause | (cause | bytes)
  · rfl
  · rfl
  · cases read : ofBytes path bytes with
    | error cause => simp [read]
    | ok table => simp [read] at failed

/-- The container of a table gives the table under any path that is not one of a source. -/
theorem ofBytes_encode {stem : String} (named : Path.stem? path = some stem)
    (notC : Path.extension? path ≠ some "c") (notH : Path.extension? path ≠ some "h") :
    ofBytes path (Container.encode table) = .ok (table.contained stem) := by
  unfold ofBytes
  split
  · exact (notC ‹_›).elim
  · exact (notH ‹_›).elim
  · rw [named, Option.getD_some, Container.decode_contained]
    rfl

end FabricLoader.Table
