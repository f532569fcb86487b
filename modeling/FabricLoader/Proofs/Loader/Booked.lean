import FabricLoader.Command.Outcome
import FabricLoader.Proofs.Bus.Slotwise
import FabricLoader.Proofs.Console.Ledger
import FabricLoader.Proofs.Loader.Driven
import FabricLoader.Proofs.Table.Loaded

/-! The ledger of a load. All that a load does to the bus it does by the bus's own operations, so every
host write of a run stands directly in front of the line that the bus logs for it, through restarts
and failures, and the counters in front of the log lines account for it. -/
namespace FabricLoader

/-- Whatever state the action begins in, its host writes are booked. -/
def Action.Books {σ α : Type} (action : Action Event σ α) : Prop := ∀ s, Booked (action s).events

namespace Bus
variable {δ : Type} [Peripheral δ]

theorem describe_block (bus : Bus δ) (address : UInt32) :
    ∃ block : String, bus.describe address = s!"addr={Text.hexWord address} block={block}" := by
  unfold describe
  cases bus.route? address with
  | none => exact ⟨"????", by simp [toString, String.append_assoc]⟩
  | some found =>
    refine ⟨s!"{Peripheral.name found.2.device} reg={
      Peripheral.registerName found.2.device (address - found.2.start)}", ?_⟩
    simp [toString, String.append_assoc]

theorem books_write (address value : UInt32) : Action.Books (write (δ := δ) address value) := by
  intro bus
  obtain ⟨block, place⟩ := bus.describe_block address
  have issued (lines : List LogLine) : Booked ([.access (.write address value),
      .line ⟨.trace, s!"write: {bus.describe address} value={Text.hexWord value}"⟩] ++
        lines.map .line) := by
    have told : (⟨.trace, s!"write: {bus.describe address} value={Text.hexWord value}"⟩ : LogLine) =
        writeLine address value block := by
      rw [place, writeLine]
      exact congrArg _ (String.ext (by simp [toString]))
    rw [told]
    exact .write (booked_lines lines)
  rw [write_apply]
  cases bus.route? address with
  | none => exact issued [_]
  | some found => exact issued _

theorem books_read (address : UInt32) : Action.Books (read (δ := δ) address) := by
  intro bus
  rw [read_apply]
  cases bus.route? address with
  | none => exact .access rfl (.line (.line .nil))
  | some found => exact .access rfl (.line (booked_lines _))

theorem books_reset : Action.Books (reset (δ := δ)) :=
  fun _ => .access rfl (booked_lines _)

theorem books_mount (base : UInt32) (device : δ) : Action.Books (mount base device) := by
  intro bus
  by_cases outside : base.toNat + (Peripheral.size device).toNat ≥ UInt32.size
  · simpa [mount, outside] using Booked.nil
  · cases conflict : conflict? bus.slots ⟨base, base + Peripheral.size device, device⟩ <;>
      simpa [mount, outside, conflict, Action.log] using Booked.line .nil

end Bus

/-- What reaches the bus only by the operations of the bus is booked by them. -/
theorem Drives.books {δ σ α : Type} [Peripheral δ] {view : σ → Bus δ} {action : Action Event σ α}
    (drives : Drives view action) : Action.Books action := by
  induction drives with
  | quiet _ lines =>
    intro s
    obtain ⟨logged, _, only⟩ := lines s
    exact only ▸ booked_lines logged
  | write address value => exact Bus.books_write address value
  | read address => exact Bus.books_read address
  | reset => exact Bus.books_reset
  | bind _ _ first rest => exact fun s => (first s).append (rest _ _)
  | part _ _ _ ih | around _ _ _ ih => exact fun t => ih _

namespace Job
variable {σ α β : Type}

def Books (job : Job α) : Prop := ∀ store : FileStore, Booked (job.run store).events

theorem books_pure (a : α) : Books (pure a) := fun _ => .nil

theorem books_log (level : Level) (text : String) : Books (log level text) := fun _ => .line .nil

theorem Books.bind {first : Job α} {next : α → Job β} (h : Books first)
    (rest : ∀ a, Books (next a)) : Books (first >>= next) := by
  intro store
  rw [run_bind]
  exact (h store).append (rest _ _)

theorem books_perform {action : Action Event σ α} (h : Action.Books action) (state : σ) :
    Books (perform action state) := by
  intro store
  rw [run_perform]
  exact h state

end Job

theorem Table.books_load (path : String) : Job.Books (load path) := by
  intro store
  rw [load_run]
  rcases FileSystem.openFile store path with cause | (cause | bytes)
  · exact .nil
  · exact .nil
  · simp only
    cases ofBytes path bytes with
    | error cause => exact .nil
    | ok table => exact .line .nil

theorem books_readText (path : String) : Job.Books (readText path) := by
  refine Job.Books.bind ?_ fun read => ?_
  · intro store
    rw [readBytes, Job.run]
    rcases FileSystem.openFile store path with cause | (cause | bytes) <;> exact .nil
  · cases read with
    | error e => exact Job.books_pure _
    | ok bytes =>
      dsimp only
      cases Text.Utf8.decode bytes <;> exact Job.books_pure _

namespace Loader
variable {δ : Type} [Peripheral δ]

theorem books_load (loader : Loader) (request : ImageRequest) (bus : SessionBus δ) :
    Job.Books (loader.load request bus) := by
  refine (Table.books_load _).bind fun read => ?_
  cases read with
  | error cause => exact Job.books_pure _
  | ok table =>
    dsimp only
    split
    · exact Job.books_pure _
    · rename_i image _
      have checked : Job.Books (Job.emit (.line image.checkedLine) (pure ())) := fun _ => .line .nil
      exact checked.bind fun _ => (Job.books_log _ _).bind fun _ =>
        Job.books_perform (loader.drives_install _ image request).books bus

theorem books_loadAll (loader : Loader) (requests : List ImageRequest) (bus : SessionBus δ) :
    Job.Books (loader.loadAll requests bus) := by
  induction requests generalizing bus with
  | nil => exact Job.books_pure _
  | cons request requests ih =>
    refine (loader.books_load request bus).bind fun (result, bus) => ?_
    cases result with
    | error e => exact Job.books_pure _
    | ok report => exact ih bus

theorem books_session (settings : Settings) : Job.Books (session (δ := δ) settings) := by
  have started : Job.Books (start (δ := δ) settings) := by
    unfold start
    split
    · refine (Job.books_perform (Bus.books_mount _ _) _).bind fun (result, bus) => ?_
      cases result <;> exact Job.books_pure _
    · exact Job.books_pure _
  refine started.bind fun result => ?_
  cases result with
  | error e => exact Job.books_pure _
  | ok found =>
    refine (found.1.books_loadAll settings.images found.2).bind fun (result, bus) => ?_
    cases result with
    | error e => exact Job.books_pure _
    | ok => exact (Job.books_log _ _).bind fun _ => Job.books_pure _

end Loader

namespace Command

theorem books_runLoad (path : String) : Job.Books (runLoad path) := by
  refine (books_readText path).bind fun read => ?_
  cases read with
  | error e => exact Job.books_pure _
  | ok text =>
    dsimp only
    cases Settings.ofText text with
    | error e => exact Job.books_pure _
    | ok settings => exact (Loader.books_session settings).bind fun _ => Job.books_pure _

end Command
end FabricLoader
