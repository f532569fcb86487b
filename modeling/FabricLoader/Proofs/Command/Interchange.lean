import FabricLoader.Proofs.Command.Packed

/-! A packed table is as good as its source. The name and the origin of a table are lost on the way
into a container, and neither plans nor containers nor loads depend on them. -/
namespace FabricLoader

variable {colour : Bool} {store written : FileStore} {arguments : List String} {threshold : Level}
  {file output : String} {table : Table} {image : Image}

/-- The file under one path, after it was written, does for the table that another path led to
before. Loads are compared with the other path as it is before and after, since it may lead to the
file that was written. -/
structure Interchangeable (colour : Bool) (before after : FileStore) (file output : String)
    (table : Table) : Prop where
  read : ((Table.load file).run before).value = .ok table
  content : after.openFile output = .ok (some (Container.encode table))
  reread : ∃ stem, Path.stem? output = some stem ∧ ((Table.load output).run after).value =
    .ok { table with name := stem, source := none, pins := none }
  plan : ∀ address arguments argumentsOther,
    Arguments.parse arguments = .run .info (.plan file address) →
    Arguments.parse argumentsOther = .run .info (.plan output address) →
    let one := runProgram colour before arguments
    let other := runProgram colour after argumentsOther
    one.exit = 0 ∧ other.exit = 0 ∧ one.stdout = other.stdout ∧ one.stderr = other.stderr
  repack : ∀ threshold arguments copy,
    Arguments.parse arguments = .run threshold (.pack output copy) →
    let again := runProgram colour after arguments
    match after.write copy (Container.encode table) with
    | .ok twice => again.exit = 0 ∧ again.store = twice ∧
        twice.openFile copy = .ok (some (Container.encode table))
    | .error _ => again.exit = 1 ∧ again.store = after
  load : ∀ (δ : Type) [Peripheral δ] (loader : Loader) (request : ImageRequest) (bus : SessionBus δ),
    ∀ store ∈ [before, after],
      let one := (loader.load { request with file } bus).run store
      let other := (loader.load { request with file := output } bus).run after
      SameSuccess one.value.1 other.value.1 ∧ one.value.2 = other.value.2

theorem FileStore.stem?_of_opened {path : String} {content : List UInt8}
    (opened : store.openFile path = .ok (some content)) : ∃ stem, Path.stem? path = some stem := by
  obtain ⟨name, last⟩ := fileName?_of_opened opened
  exact ⟨_, by rw [Path.stem?, last, Option.map_some]⟩

namespace Table

theorem load_stored_iff {path : String} : ((load path).run store).value = .ok table ↔
    ∃ bytes, store.openFile path = .ok (some bytes) ∧ ofBytes path bytes = .ok table := by
  simp only [load_eq_ok, FileStore.read_eq_ok_iff]

theorem load_written (wrote : store.write output (Container.encode table) = .ok written)
    (notC : Path.extension? output ≠ some "c") (notH : Path.extension? output ≠ some "h") :
    ∃ stem, Path.stem? output = some stem ∧
      ((load output).run written).value = .ok (table.contained stem) := by
  have opened := FileStore.openFile_write wrote
  obtain ⟨stem, named⟩ := FileStore.stem?_of_opened opened
  exact ⟨_, named, load_stored_iff.mpr ⟨_, opened, ofBytes_encode named notC notH⟩⟩

/-- A path to a table leads to that table still, or to the container that was written over it. -/
theorem load_written_other (wrote : store.write output (Container.encode table) = .ok written)
    (notC : Path.extension? output ≠ some "c") (notH : Path.extension? output ≠ some "h")
    (loaded : ((load file).run store).value = .ok table) :
    ∃ kept, ((load file).run written).value = .ok kept ∧
      ∀ name, kept.contained name = table.contained name := by
  obtain ⟨bytes, opened, read⟩ := load_stored_iff.mp loaded
  rcases FileStore.openFile_write_other wrote opened with still | ⟨overwritten, same⟩
  · exact ⟨table, load_stored_iff.mpr ⟨bytes, still, read⟩, fun _ => rfl⟩
  · obtain ⟨stem, named⟩ := FileStore.stem?_of_opened opened
    have extension : Path.extension? file = Path.extension? output := by
      rw [Path.extension?, Path.extension?, same]
    refine ⟨_, load_stored_iff.mpr ⟨_, overwritten, ofBytes_encode named ?_ ?_⟩, fun _ => rfl⟩
    · rwa [extension]
    · rwa [extension]

end Table

/-- A file that holds the container of a table that passes the check. -/
theorem interchangeable_written (loaded : ((Table.load file).run store).value = .ok table)
    (checked : Checker.standard.checkTable table = .ok image)
    (wrote : store.write output (Container.encode table) = .ok written)
    (notC : Path.extension? output ≠ some "c") (notH : Path.extension? output ≠ some "h") :
    Interchangeable colour store written file output table := by
  obtain ⟨stem, named, reread⟩ := Table.load_written wrote notC notH
  have passes : Checker.standard.checkTable (table.contained stem) = .ok image := checked
  refine ⟨loaded, FileStore.openFile_write wrote, ⟨stem, named, reread⟩, ?_, ?_, ?_⟩
  · intro address arguments argumentsOther asked askedOther
    rw [Command.runProgram_plan asked loaded checked colour,
      Command.runProgram_plan askedOther reread passes colour, Command.planEvents_contained]
    exact ⟨rfl, rfl, rfl, rfl⟩
  · intro threshold arguments copy asked again
    have outcome := Command.runProgram_pack_loaded asked reread passes colour
    rw [Container.encode_contained] at outcome
    cases twice : written.write copy (Container.encode table) with
    | ok twiceWritten =>
      simp only [twice] at outcome
      exact ⟨outcome.1, outcome.2, FileStore.openFile_write twice⟩
    | error cause =>
      simp only [twice] at outcome
      exact outcome
  · intro δ _ loader request bus before member
    rcases List.mem_pair.mp member with rfl | rfl
    · exact loader.load_alike loaded reread rfl request bus
    · obtain ⟨kept, loadedStill, same⟩ := Table.load_written_other wrote notC notH loaded
      exact loader.load_alike loadedStill reread (same kept.name).symm request bus

/-- Packing a table into a file that is not named like a source makes the file interchangeable with
the table's own; a table that cannot be loaded or does not pass the check leaves every file as it
is. -/
theorem Command.pack_interchanges
    (asked : Arguments.parse arguments = .run threshold (.pack file output))
    (notC : Path.extension? output ≠ some "c") (notH : Path.extension? output ≠ some "h") :
    let run := runProgram colour store arguments
    (run.exit = 0 → ∃ table, Interchangeable colour store run.store file output table) ∧
    ((¬∃ table image, ((Table.load file).run store).value = .ok table ∧
        Checker.standard.checkTable table = .ok image) → run.exit = 1 ∧ run.store = store) := by
  intro run
  by_cases found : ∃ table image, ((Table.load file).run store).value = .ok table ∧
      Checker.standard.checkTable table = .ok image
  · refine ⟨fun done => ?_, fun missing => (missing found).elim⟩
    obtain ⟨table, image, loaded, checked⟩ := found
    have outcome := runProgram_pack_loaded asked loaded checked colour
    cases wrote : store.write output (Container.encode table) with
    | ok written =>
      simp only [wrote] at outcome
      refine ⟨table, ?_⟩
      rw [outcome.2]
      exact interchangeable_written loaded checked wrote notC notH
    | error cause =>
      simp only [wrote] at outcome
      cases outcome.1.symm.trans done
  · have ended := runProgram_pack_missing asked found colour
    refine ⟨fun done => ?_, fun _ => ended⟩
    cases ended.1.symm.trans done

/-- A source that names its origin. -/
theorem Command.pack_interchanges_source :
    let source := "/*\nInput: spi.sv\n*/ const uint32_t spi[] = { 1, 0x2A }; " ++
      "const uint32_t spi_count = 1; const uint32_t spi_width = 8;"
    let store := FileStore.ofPaths [("spi.c", source.toUTF8.toList)]
    let arguments := ["pack", "spi.c", "-o", "out.bin"]
    let run := runProgram false store arguments
    Arguments.parse arguments = .run .info (.pack "spi.c" "out.bin") ∧
      Path.extension? "out.bin" ≠ some "c" ∧ Path.extension? "out.bin" ≠ some "h" ∧
      run.exit = 0 ∧ ∃ table, Interchangeable false store run.store "spi.c" "out.bin" table := by
  intro source store arguments run
  have asked : Arguments.parse arguments = .run .info (.pack "spi.c" "out.bin") := by decide +kernel
  have notC : Path.extension? "out.bin" ≠ some "c" := by decide +kernel
  have notH : Path.extension? "out.bin" ≠ some "h" := by decide +kernel
  have done : run.exit = 0 := by decide +kernel
  exact ⟨asked, notC, notH, done, (Command.pack_interchanges asked notC notH).1 done⟩

end FabricLoader
