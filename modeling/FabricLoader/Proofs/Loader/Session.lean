import FabricLoader.Proofs.Loader.Carries
import FabricLoader.Proofs.Table.Loaded

/-! The states of a session: whatever is done to the bus after a successful start, the block at the
base is the one that a block after power-on becomes by the accesses so far. Neither a device that
is mounted later nor the reading of files has a part in it. -/
namespace FabricLoader

namespace Table

theorem load_accesses (path : String) (store : FileStore) :
    Event.accesses ((load path).run store).events = [] := by
  rw [load_run]
  rcases FileSystem.openFile store path with cause | (cause | bytes)
  · rfl
  · rfl
  · dsimp only
    cases ofBytes path bytes <;> rfl

end Table

namespace Loader
variable {δ : Type} [Peripheral δ] {settings : Settings} {loader : Loader} {bus : SessionBus δ}
  {block : Block} {events : List Event}

inductive Operation (δ : Type) where
  | read (address : UInt32)
  | write (address value : UInt32)
  | reset
  | mount (base : UInt32) (device : Block ⊕ δ)
  | load (request : ImageRequest) (store : FileStore)
  | program (name : String) (image : Image) (applier : Applier) (retries : UInt32)
  | verify (name : String) (image : Image)

namespace Operation

/-- A device that is mounted has to have some room. -/
def Admissible : Operation δ → Prop
  | mount _ device => Peripheral.size device ≠ 0
  | _ => True

def perform (loader : Loader) : Operation δ → Action Event (SessionBus δ) Unit
  | read address => (fun _ => ()) <$> Bus.read address
  | write address value => (fun _ => ()) <$> Bus.write address value
  | reset => Bus.reset
  | mount base device => (fun _ => ()) <$> Bus.mount base device
  | load request store => fun bus =>
    let run := (loader.load request bus).run store
    ⟨(), run.value.2, run.events⟩
  | program name image applier retries => (fun _ => ()) <$> loader.program name image applier retries
  | verify name image => (fun _ => ()) <$> loader.verify name image

theorem replayed_load (request : ImageRequest) (store : FileStore) :
    Action.Replayed id (perform (δ := δ) loader (load request store)) := by
  intro bus
  simp only [perform, Loader.load, Job.run_bind, Event.accesses_append, Table.load_accesses, id_eq]
  generalize (Table.load request.file).run store = read
  cases read.value with
  | error cause => rfl
  | ok table =>
    dsimp only
    cases loader.checker.checkTable { table with control := table.control <|> request.control } with
    | error cause => rfl
    | ok image =>
      simp only [Job.run_bind, Job.run_perform]
      exact loader.replayed_install _ image request bus

/-- All operations act by accesses, except for the mounting of a device. -/
theorem mounts_or_replayed (loader : Loader) (operation : Operation δ) :
    (∃ base device, operation = mount base device) ∨
    Action.Replayed id (operation.perform loader) := by
  cases operation with
  | read address => exact .inr ((Action.replayed_read address).map _)
  | write address value => exact .inr ((Action.replayed_write address value).map _)
  | reset => exact .inr Action.replayed_reset
  | mount base device => exact .inl ⟨base, device, rfl⟩
  | load request store => exact .inr (replayed_load request store)
  | program name image applier retries =>
    exact .inr ((loader.replayed_program name image applier retries).map _)
  | verify name image => exact .inr ((loader.replayed_verify name image).map _)

/-- Every operation leaves the block that its accesses make of the one before. -/
theorem carries (carries : Carries loader.base block bus) {operation : Operation δ}
    (admissible : operation.Admissible) :
    Carries loader.base
      (block.replay loader.base (Event.accesses (operation.perform loader bus).events))
      (operation.perform loader bus).state := by
  rcases mounts_or_replayed loader operation with ⟨base, device, rfl⟩ | replayed
  · simp only [perform, Action.map_apply, Bus.accesses_mount, Block.replay_nil]
    exact carries.mount admissible
  · have reached : (operation.perform loader bus).state =
        bus.replay (Event.accesses (operation.perform loader bus).events) := replayed bus
    rw [reached]
    exact carries.replay _

end Operation

/-- The loader, the bus and all events so far of a session that was started with `settings`. -/
inductive Reached (settings : Settings) : Loader → SessionBus δ → List Event → Prop
  | start {loader : Loader} {bus : SessionBus δ} {store : FileStore}
      (began : ((start settings).run store).value = .ok (loader, bus)) :
      Reached settings loader bus ((start (δ := δ) settings).run store).events
  | step {loader : Loader} {bus : SessionBus δ} {events : List Event}
      (reached : Reached settings loader bus events) (operation : Operation δ)
      (admissible : operation.Admissible) :
      Reached settings loader (operation.perform loader bus).state
        (events ++ (operation.perform loader bus).events)

/-- A session starts exactly if its chain can hold a word and its block fits. -/
theorem start_value (store : FileStore) :
    ((start (δ := δ) settings).run store).value =
      if positive : 0 < settings.block.depth then
        if Block.Fits settings.block.base then
          .ok (⟨settings.block.base, settings.block.depth, positive,
              settings.widths.elim .standard Checker.mk⟩,
            ⟨[Block.slot δ settings.block.base
              (Block.new settings.block.depth settings.block.failAt)]⟩)
        else .error (.mapping (.outOfSpace "PRISM" settings.block.base))
      else .error .noDepth := by
  by_cases positive : 0 < settings.block.depth
  · simp only [start, positive, ↓reduceDIte, Job.run_bind, Job.run_perform]
    generalize taken : (.inl (Block.new settings.block.depth settings.block.failAt) : Block ⊕ δ) = device
    have size : Peripheral.size device = 0x40 := taken ▸ rfl
    by_cases fits : Block.Fits settings.block.base
    · rw [Bus.mount_empty (size ▸ fits), if_pos fits, size, ← taken]
      rfl
    · rw [Bus.mount_outside (size ▸ Nat.le_of_not_lt fits), if_neg fits, ← taken]
      rfl
  · simp [start, positive]

theorem start_ok (positive : 0 < settings.block.depth) (fits : Block.Fits settings.block.base)
    (store : FileStore) : ((start (δ := δ) settings).run store).value =
      .ok (⟨settings.block.base, settings.block.depth, positive,
          settings.widths.elim .standard Checker.mk⟩,
        ⟨[Block.slot δ settings.block.base
          (Block.new settings.block.depth settings.block.failAt)]⟩) := by
  rw [start_value, dif_pos positive, if_pos fits]

theorem start_accesses (store : FileStore) :
    Event.accesses ((start (δ := δ) settings).run store).events = [] := by
  by_cases positive : 0 < settings.block.depth
  · simp only [start, positive, ↓reduceDIte, Job.run_bind, Job.run_perform, Event.accesses_append,
      Bus.accesses_mount, List.nil_append]
    split <;> rfl
  · simp only [start, positive, ↓reduceDIte]
    rfl

/-- A session starts with the block alone on the bus. -/
theorem start_carries {store : FileStore}
    (began : ((start settings).run store).value = .ok (loader, bus)) :
    loader.base = settings.block.base ∧ loader.depth = settings.block.depth ∧
    Carries loader.base (Block.new settings.block.depth settings.block.failAt) bus := by
  rw [start_value] at began
  split at began
  · split at began
    · rename_i fits
      obtain ⟨rfl, rfl⟩ := Prod.mk.inj (Except.ok.inj began)
      exact ⟨rfl, rfl, Slot.ordered_singleton (Block.slot_inhabited.mpr fits), List.mem_singleton_self _⟩
    · cases began
  · cases began

/-- The block of a session is what the accesses so far made of a block after power-on. -/
theorem Reached.carries (reached : Reached settings loader bus events) :
    Carries loader.base ((Block.new settings.block.depth settings.block.failAt).replay loader.base
      (Event.accesses events)) bus := by
  induction reached with
  | start began =>
    rw [start_accesses]
    exact (start_carries began).2.2
  | step reached operation admissible ih =>
    rw [Event.accesses_append, Block.replay_append]
    exact Operation.carries ih admissible

theorem Reached.configuration (reached : Reached settings loader bus events) :
    loader.base = settings.block.base ∧ loader.depth = settings.block.depth := by
  induction reached with
  | start began => exact ⟨(start_carries began).1, (start_carries began).2.1⟩
  | step reached operation admissible ih => exact ih

end Loader
end FabricLoader
