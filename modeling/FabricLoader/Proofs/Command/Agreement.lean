import FabricLoader.Proofs.Command.Asked
import FabricLoader.Proofs.Command.Planned
import FabricLoader.Proofs.Console.Shown

/-! The commands agree on which files are valid. Whatever a command does with the image in a file, it
succeeds exactly if there is one, and if there is none it ends with the same cause under headings of
its own. A check of several files goes on after a failure, and what it tells of one of them does not
depend on the others. -/
namespace FabricLoader
open Arguments (Plain parse)

inductive Fault where
  | file (cause : FileError)
  | image (name : String) (cause : ImageError)
  deriving DecidableEq, Repr

namespace Fault

/-- The messages of a command; a heading goes before the name of a table without an image. -/
def messages (heading : Option String) : Fault → List String
  | file cause => cause.messages
  | image name cause => (heading.map fun heading => s!"{heading} {name}").toList ++ [cause.message]

def innermost : Fault → String
  | file cause => cause.messages.getLastD ""
  | image _ cause => cause.message

theorem messages_innermost (heading : Option String) (fault : Fault) :
    ∃ outer, fault.messages heading = outer ++ [fault.innermost] := by
  cases fault with
  | file cause => cases cause <;> exact ⟨[_], rfl⟩
  | image name cause => exact ⟨_, rfl⟩

end Fault

namespace Command
variable {φ : Type} [FileSystem φ] {colour : Bool} {store : φ} {file output : String}
  {arguments : List String} {threshold : Level}

/-- The table in a file, with its image. -/
def imageIn (store : φ) (file : String) : Except Fault (Table × Image) :=
  match ((Table.load file).run store).value with
  | .error cause => .error (.file cause)
  | .ok table =>
    match Checker.standard.checkTable table with
    | .error cause => .error (.image table.name cause)
    | .ok image => .ok (table, image)

def reported (heading : Option String) : Except Fault (Table × Image) →
    Except (List String) (Table × Image)
  | .ok found => .ok found
  | .error fault => .error (fault.messages heading)

/-- The end of a command that needs an image and nothing else. -/
def ended (heading : String) (found : Except Fault (Table × Image)) : Result :=
  match found with
  | .error fault => .error (fault.messages (some heading))
  | .ok _ => .ok ()

/-- The output can be written, at least with what packing the file gives. -/
def CanPack (store : φ) (file output : String) : Prop :=
  ∀ table image, imageIn store file = .ok (table, image) →
    (FileSystem.writeFile store output (Container.encode table)).1 = .ok ()

theorem loadImage_value (file : String) (named : Bool) (store : φ) :
    ((loadImage file named).run store).value =
      reported (if named then some "Invalid image" else none) (imageIn store file) := by
  simp only [loadImage, Job.run_bind, Table.load_store, imageIn]
  cases ((Table.load file).run store).value with
  | error cause => rfl
  | ok table =>
    simp only [Job.run_bind, checkedImage_run]
    cases Checker.standard.checkTable table with
    | error cause => cases named <;> rfl
    | ok image => rfl

theorem runDump_value (file : String) (store : φ) :
    ((runDump file).run store).value = ended "Invalid image" (imageIn store file) := by
  simp only [runDump, Job.run_bind, loadImage_value]
  cases imageIn store file with
  | error fault => rfl
  | ok found => simp [reported, printLines_run, ended]

theorem runPlan_value (file : String) (address : Option UInt32) (store : φ) :
    ((runPlan file address).run store).value = ended "Failed to plan" (imageIn store file) := by
  unfold imageIn
  cases loaded : ((Table.load file).run store).value with
  | error cause => simp [runPlan, loaded, ended, Fault.messages]
  | ok table =>
    cases checked : Checker.standard.checkTable table with
    | error cause =>
      simp [runPlan, loaded, Applier.applyTable_apply, checked, ended, Fault.messages,
        Applier.TableFailure.messages]
      rfl
    | ok image => simp [runPlan_run loaded checked, ended, checked]

theorem runPack_value (writable : CanPack store file output) :
    ((runPack file output).run store).value = ended "Invalid image" (imageIn store file) := by
  simp only [runPack, Job.run_bind, loadImage_value, loadImage_store]
  cases found : imageIn store file with
  | error fault => rfl
  | ok held =>
    have wrote := writable held.1 held.2 found
    simp [reported, writeBytes_run, wrote, Except.mapError, ended, Job.log, Job.run]

/-- What a failing command reports: some messages and, under them, a cause. -/
def Blames (result : RunResult φ) (cause : String) : Prop :=
  result.exit = 1 ∧ ∃ outer, result.stderr = complaint (outer ++ [cause])

theorem runProgram_ended (colour : Bool) {command : Command} {heading : String}
    (asked : parse arguments = .run threshold command)
    (value : ((command.run colour).run store).value = ended heading (imageIn store file)) :
    let result := runProgram colour store arguments
    (result.exit = 0 ↔ (imageIn store file).isOk) ∧
      ∀ fault, imageIn store file = .error fault → Blames result fault.innermost := by
  simp only [runProgram, asked, value]
  cases imageIn store file with
  | ok found =>
    refine ⟨by simp [ended, Except.isOk, Except.toBool], fun fault fails => ?_⟩
    cases fails
  | error fault =>
    obtain ⟨outer, split⟩ := fault.messages_innermost (some heading)
    refine ⟨by simp [ended, Except.isOk, Except.toBool], fun other fails => ?_⟩
    cases fails
    exact ⟨rfl, outer, congrArg complaint split⟩

def lineOf (colour : Bool) (store : φ) (file : String) : String :=
  verdict colour file (reported none (imageIn store file))

def failures (store : φ) (files : List String) : Nat :=
  files.countP fun file => !(imageIn store file).isOk

def checkEvents (colour : Bool) (store : φ) (file : String) : List Event :=
  ((loadImage file false).run store).events ++ [.print (lineOf colour store file ++ "\n")]

theorem checkFiles_run (colour : Bool) (files : List String) (store : φ) :
    (checkFiles colour files).run store =
      ⟨failures store files, store, files.flatMap (checkEvents colour store)⟩ := by
  induction files with
  | nil => rfl
  | cons file files ih =>
    have told : verdict colour file ((loadImage file false).run store).value =
        lineOf colour store file := by rw [loadImage_value]; rfl
    have failed : (if ((loadImage file false).run store).value.isOk then 0 else 1) +
        failures store files = failures store (file :: files) := by
      rw [loadImage_value, failures, failures, List.countP_cons, Nat.add_comm]
      cases imageIn store file <;> rfl
    simp only [checkFiles, Job.run_bind, loadImage_store, told, printLine, Job.print, Job.run, ih,
      Job.run_pure, failed, List.flatMap_cons, checkEvents]
    simp

/-- Reading and checking a table leaves log lines and nothing else. -/
theorem loadImage_events (file : String) (named : Bool) (store : φ) :
    ∃ lines : List LogLine, ((loadImage file named).run store).events = lines.map .line ∧
      ∀ line ∈ lines, Level.info.shownAt line.level = false := by
  cases loaded : ((Table.load file).run store).value with
  | error cause =>
    exact ⟨[], by simp [loadImage, loaded, Table.load_events_error loaded], nofun⟩
  | ok table =>
    cases checked : Checker.standard.checkTable table with
    | error cause =>
      refine ⟨[table.loadedLine file], ?_, ?_⟩
      · cases named <;> simp [loadImage, loaded, Table.load_events loaded, checkedImage_run, checked]
      · simp [Table.loadedLine, Level.shownAt, Level.rank]
    | ok image =>
      refine ⟨[table.loadedLine file, image.checkedLine], ?_, ?_⟩
      · simp [loadImage, loaded, Table.load_events loaded, checkedImage_run, checked]
      · simp [Table.loadedLine, Image.checkedLine, Level.shownAt, Level.rank]

/-- The log lines that are shown while a file is checked. -/
def logOf (threshold : Level) (store : φ) (file : String) : String :=
  String.join ((Console.start.shown threshold ((loadImage file false).run store).events).map
    Shown.render)

theorem logOf_info (store : φ) (file : String) : logOf .info store file = "" := by
  obtain ⟨lines, only, hidden⟩ := loadImage_events file false store
  have nothing : Console.start.shown .info (lines.map .line) = [] := by
    clear only
    induction lines with
    | nil => rfl
    | cons line lines ih =>
      have first := hidden line List.mem_cons_self
      rw [List.map_cons, Console.shown_cons]
      simp only [Console.step, first, Bool.false_eq_true, if_false]
      exact ih fun later member => hidden later (List.mem_cons_of_mem _ member)
  rw [logOf, only, nothing]
  rfl

theorem shown_checkFiles (colour : Bool) (threshold : Level) (store : φ)
    (files : List String) :
    String.join ((Console.start.shown threshold (files.flatMap (checkEvents colour store))).map
        Shown.render) =
      String.join (files.map fun file => logOf threshold store file ++
        lineOf colour store file ++ "\n") := by
  have quiet (file : String) : ∀ event ∈ ((loadImage file false).run store).events,
      event.isHostWrite = false := by
    obtain ⟨lines, only, _⟩ := loadImage_events file false store
    rw [only]
    intro event member
    obtain ⟨line, _, rfl⟩ := List.mem_map.mp member
    rfl
  have still (file : String) : Console.start.after threshold (checkEvents colour store file) =
      .start := by
    refine Console.after_quiet rfl fun event member => ?_
    rcases List.mem_append.mp member with inside | last
    · exact quiet file event inside
    · cases List.mem_singleton.mp last
      rfl
  rw [Console.shown_flatMap fun file _ => still file]
  induction files with
  | nil => rfl
  | cons file files ih =>
    have shown : Console.start.shown threshold (checkEvents colour store file) =
        Console.start.shown threshold ((loadImage file false).run store).events ++
          [.text (lineOf colour store file ++ "\n")] := by
      rw [checkEvents, Console.shown_append, Console.after_quiet rfl (quiet file)]
      rfl
    simp [shown, ih, logOf, Shown.render, String.append_assoc]

theorem runCheck_run (colour : Bool) (files : List String) (store : φ) :
    (runCheck colour files).run store =
      ⟨if failures store files = 0 then .ok () else
        .error [s!"{failures store files} of {files.length} table(s) failed validation"],
      store, files.flatMap (checkEvents colour store)⟩ := by
  simp only [runCheck, Job.run_bind, checkFiles_run]
  by_cases none : failures store files = 0
  · simp [none]
  · simp [none, Nat.pos_of_ne_zero none]

theorem failures_eq_zero {files : List String} :
    failures store files = 0 ↔ ∀ file ∈ files, (imageIn store file).isOk := by
  simp [failures, List.countP_eq_zero]

theorem printed_checkFiles (colour : Bool) (store : φ) (files : List String) :
    Event.printed (files.flatMap (checkEvents colour store)) =
      files.map fun file => lineOf colour store file ++ "\n" := by
  induction files with
  | nil => rfl
  | cons file files ih =>
    obtain ⟨lines, only, _⟩ := loadImage_events file false store
    have nothing : Event.printed (lines.map .line) = [] := by simp [Event.printed]
    have split (a b : List Event) : Event.printed (a ++ b) = Event.printed a ++ Event.printed b :=
      List.filterMap_append
    rw [List.flatMap_cons, split, ih, checkEvents, split, only, nothing]
    rfl

theorem lineOf_begins (colour : Bool) (store : φ) (file : String) : ∃ rest,
    lineOf colour store file = (if (imageIn store file).isOk then coloured colour .green "OK  "
      else coloured colour .red "FAIL") ++ rest := by
  unfold lineOf
  cases imageIn store file with
  | ok found => exact ⟨_, rfl⟩
  | error fault => exact ⟨_, String.append_assoc⟩

/-- The answer to a check of some files: a line for each in their order, which depends on that file
alone, between log lines if these are wanted, and the number of those that fail. -/
structure ChecksEach (colour : Bool) (store : φ) (files : List String) (threshold : Level)
    (result : RunResult φ) : Prop where
  stdout : result.stdout = String.join (files.map fun file =>
    logOf threshold store file ++ lineOf colour store file ++ "\n")
  alone : threshold = .info → result.stdout =
    String.join (files.map fun file => lineOf colour store file ++ "\n")
  exits : result.exit = 0 ↔ ∀ file ∈ files, (imageIn store file).isOk
  reports : result.exit ≠ 0 → result.exit = 1 ∧ result.stderr = complaint
    [s!"{failures store files} of {files.length} table(s) failed validation"]

theorem runProgram_check {files : List String}
    (asked : parse arguments = .run threshold (.check files)) (colour : Bool) (store : φ) :
    ChecksEach colour store files threshold (runProgram colour store arguments) := by
  have ran : (Command.run colour (.check files)).run store = _ := runCheck_run colour files store
  have stdout : (runProgram colour store arguments).stdout = String.join (files.map fun file =>
      logOf threshold store file ++ lineOf colour store file ++ "\n") := by
    simp only [runProgram, asked, ran, ← shown_checkFiles]
    split <;> rfl
  refine ⟨stdout, ?_, ?_, ?_⟩
  · rintro rfl
    exact stdout.trans (by simp [logOf_info])
  · simp only [runProgram, asked, ran, ← failures_eq_zero]
    by_cases none : failures store files = 0 <;> simp [none]
  · simp only [runProgram, asked, ran]
    by_cases none : failures store files = 0 <;> simp [none]

/-- A command line asks for a command, with whatever log lines. -/
def Asks (arguments : List String) (command : Command) : Prop :=
  ∃ threshold, parse arguments = .run threshold command

/-- The answers of four commands to one file: they exit with 0 exactly if it holds a table with an
image, and otherwise report the same innermost cause, a check in its line and the others at their
end. -/
structure AgreeOn (colour : Bool) (store : φ) (file : String)
    (check dump plan pack : RunResult φ) : Prop where
  exits : ∀ result ∈ [check, dump, plan, pack], (result.exit = 0 ↔ (imageIn store file).isOk)
  told : ∀ fault, imageIn store file = .error fault → ∃ log outer, check.stdout = log ++
    coloured colour .red "FAIL" ++ s!" {file}: " ++
      ": ".intercalate (outer ++ [fault.innermost]) ++ "\n"
  blamed : ∀ fault, imageIn store file = .error fault →
    ∀ result ∈ [dump, plan, pack], Blames result fault.innermost

theorem agreeOn_file {address : Option UInt32} {checkLine dumpLine planLine packLine : List String}
    (writable : CanPack store file output) (checks : Asks checkLine (.check [file]))
    (dumps : Asks dumpLine (.dump file)) (plans : Asks planLine (.plan file address))
    (packs : Asks packLine (.pack file output)) (colour : Bool) :
    let run := runProgram colour store
    AgreeOn colour store file (run checkLine) (run dumpLine) (run planLine) (run packLine) := by
  intro run
  obtain ⟨threshold, checks⟩ := checks
  obtain ⟨_, dumps⟩ := dumps
  obtain ⟨_, plans⟩ := plans
  obtain ⟨_, packs⟩ := packs
  have checked := runProgram_check checks colour store
  have dumped := runProgram_ended colour dumps (runDump_value file store)
  have planned := runProgram_ended colour plans (runPlan_value file address store)
  have packed := runProgram_ended colour packs (runPack_value writable)
  constructor
  · simp only [List.forall_mem_cons, List.not_mem_nil, false_imp_iff, implies_true, and_true]
    exact ⟨by simpa using checked.exits, dumped.1, planned.1, packed.1⟩
  · intro fault fails
    obtain ⟨outer, split⟩ := fault.messages_innermost none
    refine ⟨logOf threshold store file, outer, checked.stdout.trans ?_⟩
    rw [← split]
    simp [lineOf, fails, reported, verdict, String.append_assoc]
  · intro fault fails
    simp only [List.forall_mem_cons, List.not_mem_nil, false_imp_iff, implies_true, and_true]
    exact ⟨dumped.2 fault fails, planned.2 fault fails, packed.2 fault fails⟩

/-- The commands agree on the table in a file, and a check of any number of files answers for each of
them as if it were alone. The simple command lines about a file ask for these commands. -/
theorem commands_agree (colour : Bool) (store : φ) :
    (∀ file address output checkLine dumpLine planLine packLine,
      CanPack store file output →
      Asks checkLine (.check [file]) → Asks dumpLine (.dump file) →
      Asks planLine (.plan file address) → Asks packLine (.pack file output) →
      let run := runProgram colour store
      AgreeOn colour store file (run checkLine) (run dumpLine) (run planLine) (run packLine)) ∧
    (∀ files,
      let run := (Command.run colour (.check files)).run store
      Event.printed run.events = files.map (fun file => lineOf colour store file ++ "\n") ∧
      (run.value = .ok () ↔ ∀ file ∈ files, (imageIn store file).isOk) ∧
      ∀ threshold arguments, parse arguments = .run threshold (.check files) →
        ChecksEach colour store files threshold (runProgram colour store arguments)) ∧
    (∀ file, ∃ rest, lineOf colour store file = (if (imageIn store file).isOk
      then coloured colour .green "OK  " else coloured colour .red "FAIL") ++ rest) ∧
    (∀ file, Plain file → Asks ["dump", file] (.dump file) ∧
      Asks ["plan", file] (.plan file none) ∧
      (∀ text address, Arguments.address? text = some address →
        Asks ["plan", file, "--control-address", text] (.plan file (some address))) ∧
      (∀ output, Plain output → Asks ["pack", file, "-o", output] (.pack file output)) ∧
      ∀ output, Asks ["pack", file, "--output=" ++ output] (.pack file output)) ∧
    ∀ files, files ≠ [] → (∀ file ∈ files, Plain file) → Asks ("check" :: files) (.check files) := by
  refine ⟨?_, fun files => ?_, lineOf_begins colour store, fun file plain => ?_, ?_⟩
  · intro file address output checkLine dumpLine planLine packLine writable checks dumps plans packs
    exact agreeOn_file writable checks dumps plans packs colour
  · have ran : (Command.run colour (.check files)).run store = _ := runCheck_run colour files store
    rw [ran, ← failures_eq_zero]
    refine ⟨printed_checkFiles colour store files, ?_, fun _ _ asked => runProgram_check asked colour store⟩
    by_cases none : failures store files = 0 <;> simp [none]
  · exact ⟨⟨_, Arguments.parse_dump plain⟩, ⟨_, Arguments.parse_plan plain⟩,
      fun text address reads => ⟨_, Arguments.parse_plan_address plain reads⟩,
      fun output plainOutput => ⟨_, Arguments.parse_pack plain plainOutput⟩,
      fun output => ⟨_, Arguments.parse_pack_joined plain output⟩⟩
  · exact fun files some plain => ⟨_, Arguments.parse_check some plain⟩

/-- A store in which one of the files cannot be read to its end. -/
structure Damaged where
  store : FileStore
  path : String
  cause : IoError

instance : FileSystem Damaged where
  openFile files path :=
    if path = files.path then .ok (.error files.cause) else FileSystem.openFile files.store path
  writeFile files path content :=
    let written := FileSystem.writeFile files.store path content
    (written.1, { files with store := written.2 })

/-- One file that holds a table and one behind which the medium fails. -/
theorem commands_agree_damaged :
    let source := "const uint32_t spi[] = { 1, 0x2A }; const uint32_t spi_count = 1; " ++
      "const uint32_t spi_width = 8;"
    let failure := "Input/output error (os error 5)"
    let store : Damaged := ⟨.ofPaths [("spi.c", source.toUTF8.toList)], "lost.bin", .other failure⟩
    let run := runProgram false store
    (∀ file, CanPack store file "out.bin") ∧
      (∀ result ∈ [run ["check", "spi.c"], run ["dump", "spi.c"], run ["plan", "spi.c"],
        run ["pack", "spi.c", "-o", "out.bin"]], result.exit = 0) ∧
      (run ["check", "lost.bin"]).exit ≠ 0 ∧
      ∀ result ∈ [run ["dump", "lost.bin"], run ["plan", "lost.bin"],
        run ["pack", "lost.bin", "-o", "out.bin"]], Blames result failure := by
  intro source failure store run
  have writable (file : String) : CanPack store file "out.bin" := by
    intro table image _
    obtain ⟨written, wrote⟩ := FileStore.write_any
      (show store.store.write "out.bin" [] = .ok (store.store.put ["out.bin"] []) by decide +kernel)
      (Container.encode table)
    simp [FileSystem.writeFile, wrote]
  obtain ⟨agree, _, _, asks, asksCheck⟩ := commands_agree false store
  have answers (file : String) (plain : Plain file) :=
    agree file none "out.bin" _ _ _ _ (writable file)
      (asksCheck [file] (by simp) (by simpa using plain)) (asks file plain).1 (asks file plain).2.1
      ((asks file plain).2.2.2.1 "out.bin" (by decide))
  have held : (imageIn store "spi.c").isOk := by decide +kernel
  have lost : imageIn store "lost.bin" = .error (.file (.reading "lost.bin" (.other failure))) := rfl
  have good := answers "spi.c" (by decide)
  have bad := answers "lost.bin" (by decide)
  refine ⟨writable, fun result among => (good.exits result among).mpr held, fun done => ?_,
    bad.blamed _ lost⟩
  have found := (bad.exits _ List.mem_cons_self).mp done
  rw [lost] at found
  cases found

end Command
end FabricLoader
