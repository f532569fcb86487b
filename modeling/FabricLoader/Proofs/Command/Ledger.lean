import FabricLoader.Proofs.Loader.Booked

/-! What the log of a load says about its host writes. -/
namespace FabricLoader.Command

/-- The log of a load is a ledger of its host writes, whatever is in the files and however the load
ends. At any level the counters never decrease, each is the one before it and its delta, and a line
carries the number of writes issued before it. With every line shown, a write is entered under its
number by the one line that the bus logs for it, and no other line carries a delta. -/
theorem load_ledger {arguments : List String} {threshold : Level} {path : String}
    (asked : Arguments.parse arguments = .run threshold (.load path)) (colour : Bool)
    (store : FileStore) :
    let events := ((Command.run colour (.load path)).run store).events
    let shown := Console.start.shown threshold events
    let marks := Shown.marks shown
    (runProgram colour store arguments).stdout = String.join (shown.map Shown.render) ∧
    (∀ entry ∈ shown, ∃ writes since line, entry = .line writes since line) ∧
    (marks.map Prod.fst).Pairwise (· ≤ ·) ∧
    (∀ before mark later, marks = before ++ mark :: later →
      mark.1 = (before.map Prod.fst).getLastD 0 + mark.2) ∧
    (marks.map Prod.snd).sum = (marks.map Prod.fst).getLastD 0 ∧
    (∀ before line later, events = before ++ .line line :: later →
      threshold.shownAt line.level = true → ∃ since rest, shown =
        Console.start.shown threshold before ++ .line (Event.hostWrites before) since line :: rest) ∧
    (threshold = .trace → Entered 0 events shown ∧ marks.filter (·.2 ≠ 0) =
      (List.range' 1 (Event.hostWrites events)).map fun number => (number, 1)) := by
  intro events shown marks
  have booked : Booked events := books_runLoad path store
  have balanced : Balanced 0 marks := Console.start.balanced_shown (Nat.le_refl 0) events
  refine ⟨?_, booked.shown_line threshold .start, balanced.increasing,
    fun _ _ _ split => balanced.counter_eq split, ?_, ?_, ?_⟩
  · simp only [runProgram, asked]
    split <;> rfl
  · rw [← balanced.sum_eq, Nat.zero_add]
  · intro before line later split seen
    obtain ⟨since, rest, shows⟩ := Console.start.shown_line seen before later
    rw [← split, Console.start, Nat.zero_add] at shows
    exact ⟨since, rest, shows⟩
  · rintro rfl
    have entered : Entered 0 events shown := booked.entered 0
    exact ⟨entered, entered.marks⟩

/-- A load with everything shown that starts again at its second entry, five writes for each attempt. -/
theorem load_ledger_restarted :
    let table := "const uint32_t two[] = { 1, 10, 2, 20 }; const uint32_t two_count = 2; " ++
      "const uint32_t two_width = 32;"
    let settings := "prism: \x7bfail_write: 1\x7d\nimages:\n  - file: two.c\n    retries: 1\n"
    let store := FileStore.ofPaths
      [("two.c", table.toUTF8.toList), ("load.yaml", settings.toUTF8.toList)]
    let arguments := ["-vv", "load", "load.yaml"]
    let events := ((Command.run false (.load "load.yaml")).run store).events
    let shown := Console.start.shown .trace events
    Arguments.parse arguments = .run .trace (.load "load.yaml") ∧
      (runProgram false store arguments).stdout = String.join (shown.map Shown.render) ∧
      Entered 0 events shown ∧
      (Shown.marks shown).filter (·.2 ≠ 0) = (List.range' 1 10).map fun number => (number, 1) := by
  intro table settings store arguments events shown
  have asked : Arguments.parse arguments = .run .trace (.load "load.yaml") := by decide +kernel
  have issued : Event.hostWrites events = 10 := by decide +kernel
  obtain ⟨stdout, _, _, _, _, _, full⟩ := load_ledger asked false store
  obtain ⟨entered, numbered⟩ := full rfl
  exact ⟨asked, stdout, entered, issued ▸ numbered⟩

end FabricLoader.Command
