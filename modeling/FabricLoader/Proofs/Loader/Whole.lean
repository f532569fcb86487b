import FabricLoader.Proofs.Loader.Alone
import FabricLoader.Proofs.Loader.Sequence

/-! A whole session. It loads its images in order and ends at the first that fails, and a table that
does not pass the check never gets to the bus. Of a session that gets to its end only the last image
is left in the block. -/
namespace FabricLoader

/-- The same session without a refusal, and with one image only. -/
def Settings.only (settings : Settings) (request : ImageRequest) : Settings :=
  { settings with block := { settings.block with failAt := none }, images := [request] }

theorem Event.hostWrites_of_accesses {events : List Event} (none : accesses events = []) :
    hostWrites events = 0 := by
  rw [hostWrites_eq_countP, none, List.countP_nil]

namespace Loader
variable {δ : Type} [Peripheral δ] {settings : Settings} {loader : Loader} {store : FileStore}
  {request : ImageRequest} {requests : List ImageRequest} {bus : SessionBus δ} {block : Block}

/-- Why a request comes to no image: its file holds no table, or the table does not pass the check. -/
def Rejects (loader : Loader) (request : ImageRequest) (store : FileStore) (e : LoadError) : Prop :=
  let read := (Table.load request.file).run store
  (∃ cause, read.value = .error cause ∧ e = .file cause) ∨
  ∃ table cause, read.value = .ok table ∧
    loader.checker.checkTable (request.filled table) = .error cause ∧ e = .image table.name cause

theorem load_rejected {e : LoadError} (rejects : loader.Rejects request store e)
    (bus : SessionBus δ) :
    let run := (loader.load request bus).run store
    run.value = (.error e, bus) ∧ Event.accesses run.events = [] := by
  have silent := Table.load_accesses request.file store
  rw [load_run]
  rcases rejects with ⟨cause, read, rfl⟩ | ⟨table, cause, read, checked, rfl⟩
  · simp only [read]
    exact ⟨trivial, silent⟩
  · simp only [read, checked]
    exact ⟨trivial, silent⟩

theorem start_touches (settings : Settings) (store : FileStore) :
    ((start (δ := δ) settings).run store).store = store ∧
    (start (δ := δ) settings).opened store = [] := by
  by_cases positive : 0 < settings.block.depth
  · simp only [start, positive, ↓reduceDIte, Job.run_bind, Job.opened_bind, Job.run_perform,
      Job.opened_perform, List.nil_append]
    split <;> exact ⟨rfl, rfl⟩
  · simp only [start, positive, ↓reduceDIte]
    exact ⟨rfl, rfl⟩

theorem session_refused {e : LoadError}
    (refused : ((start (δ := δ) settings).run store).value = .error e) :
    let run := (session (δ := δ) settings).run store
    run.value = (.error e, none) ∧ (session (δ := δ) settings).opened store = [] ∧
    Event.accesses run.events = [] := by
  have silent : Event.accesses ((start (δ := δ) settings).run store).events = [] :=
    start_accesses store
  have touches := start_touches (δ := δ) settings store
  simp only [session, Job.run_bind, Job.opened_bind, refused, touches, Event.accesses_append, silent]
  exact ⟨rfl, rfl, rfl⟩

theorem session_started (began : ((start settings).run store).value = .ok (loader, bus)) :
    let run := (session (δ := δ) settings).run store
    let all := (loader.loadAll settings.images bus).run store
    run.value = (all.value.1, some all.value.2) ∧
    (session (δ := δ) settings).opened store = (loader.loadAll settings.images bus).opened store ∧
    Event.accesses run.events = Event.accesses all.events := by
  have silent : Event.accesses ((start (δ := δ) settings).run store).events = [] :=
    start_accesses store
  have touches := start_touches (δ := δ) settings store
  simp only [session, Job.run_bind, Job.opened_bind, began, touches, Event.accesses_append, silent]
  generalize (loader.loadAll settings.images bus).run store = all
  obtain ⟨⟨result, last⟩, _, events⟩ := all
  cases result with
  | error e => simp [Event.accesses]
  | ok => simp [Job.run, Job.opened, Job.log, Event.accesses]

theorem Alone.loaded {accesses : List Access} {final : SessionBus δ}
    (loaded : Loaded loader store bus requests accesses final) (alone : Alone loader block bus) :
    ∃ after, Alone loader after final := by
  induction loaded generalizing block with
  | nil bus => exact ⟨block, alone⟩
  | @cons bus _ request _ _ _ _ _ ih =>
    exact ih (alone.act (Operation.replayed_load request store))

theorem Alone.load_alike {other : SessionBus δ} {blockOther : Block} {report : ApplyReport}
    (alone : Alone loader block bus) (aloneOther : Alone loader blockOther other)
    (unarmed : blockOther.failAt = none)
    (loads : ((loader.load request bus).run store).value.1 = .ok report) :
    (∃ reportOther, ((loader.load request other).run store).value.1 = .ok reportOther) ∧
    ∃ after afterOther, Alone loader after ((loader.load request bus).run store).value.2 ∧
      Alone loader afterOther ((loader.load request other).run store).value.2 ∧
      after.visible = afterOther.visible := by
  obtain ⟨table, image, read, checked, installs⟩ := load_eq_ok.mp loads
  rw [(load_installs read checked bus).1, (load_installs read checked other).1]
  exact alone.installed_alike aloneOther unarmed installs

theorem start_alone (began : ((start settings).run store).value = .ok (loader, bus)) :
    Alone loader (Block.new settings.block.depth settings.block.failAt) bus ∧
    ∀ request, ∃ other : SessionBus δ,
      ((start (settings.only request)).run store).value = .ok (loader, other) ∧
      Alone loader (Block.new settings.block.depth none) other := by
  have value := began
  rw [start_value] at value
  split at value
  · rename_i positive
    split at value
    · rename_i fits
      obtain ⟨rfl, rfl⟩ := Prod.mk.inj (Except.ok.inj value)
      refine ⟨⟨rfl, fits, rfl⟩, fun request => ⟨_, ?_, ⟨rfl, fits, rfl⟩⟩⟩
      exact start_ok (show 0 < (settings.only request).block.depth from positive) fits store
    · cases value
  · cases value

/-- How a session ends that could be started: with all its images, or at the first that fails. -/
theorem session_ends (began : ((start settings).run store).value = .ok (loader, bus)) :
    let run := (session (δ := δ) settings).run store
    let opened := (session (δ := δ) settings).opened store
    (∀ accesses final, Loaded loader store bus settings.images accesses final →
      run.value = (.ok (), some final) ∧ opened = settings.images.map (·.file) ∧
      Event.accesses run.events = accesses) ∧
    ∀ done request later accesses middle e, settings.images = done ++ request :: later →
      Loaded loader store bus done accesses middle →
      let failed := (loader.load request middle).run store
      failed.value.1 = .error e →
      run.value = (.error e, some failed.value.2) ∧
      opened = (done ++ [request]).map (·.file) ∧
      Event.accesses run.events = accesses ++ Event.accesses failed.events := by
  intro run opened
  obtain ⟨value, files, sent⟩ := session_started began
  constructor
  · intro accesses final loaded
    obtain ⟨value', sent', files'⟩ := loaded.loadAll []
    rw [List.append_nil] at value' sent' files'
    refine ⟨?_, ?_, ?_⟩
    · rw [value, value']
      rfl
    · rw [show opened = _ from files, files']
      simp [loadAll]
    · rw [sent, sent']
      simp [loadAll, Event.accesses]
  · intro done request later accesses middle e images loaded failed fails
    obtain ⟨value', sent', files'⟩ := loaded.loadAll (request :: later)
    obtain ⟨ran, stops⟩ := loadAll_fails fails later
    rw [← images, ran] at value' sent'
    rw [← images, stops] at files'
    refine ⟨by rw [value, value'], ?_, by rw [sent, sent']⟩
    rw [show opened = _ from files, files']
    simp

theorem session_succeeds (began : ((start settings).run store).value = .ok (loader, bus))
    (done : ((session (δ := δ) settings).run store).value.1 = .ok ()) :
    ∃ accesses final, Loaded loader store bus settings.images accesses final := by
  rcases loaded_or_fails loader store settings.images bus with
    loaded | ⟨before, request, later, accesses, middle, e, images, loaded, fails⟩
  · exact loaded
  · rw [((session_ends began).2 before request later accesses middle e images loaded fails).1] at done
    cases done

theorem session_fails (began : ((start settings).run store).value = .ok (loader, bus))
    (failed : ((session (δ := δ) settings).run store).value.1 ≠ .ok ()) :
    ∃ done request later accesses middle e, settings.images = done ++ request :: later ∧
      Loaded loader store bus done accesses middle ∧
      ((loader.load request middle).run store).value.1 = .error e := by
  rcases loaded_or_fails loader store settings.images bus with ⟨accesses, final, loaded⟩ | fails
  · exact absurd (congrArg Prod.fst ((session_ends began).1 accesses final loaded).1) failed
  · exact fails

/-- A session that gets to its end leaves what its last image leaves by itself. -/
theorem session_last {accesses : List Access} {final : SessionBus δ}
    {earlier : List ImageRequest} {last : ImageRequest}
    (began : ((start settings).run store).value = .ok (loader, bus))
    (loaded : Loaded loader store bus (earlier ++ [last]) accesses final) :
    let only := (session (δ := δ) (settings.only last)).run store
    ∃ after afterOnly, Alone loader after final ∧
      (∃ lone, only.value = (.ok (), some lone) ∧ Alone loader afterOnly lone) ∧
      after.visible = afterOnly.visible := by
  obtain ⟨alone, others⟩ := start_alone began
  obtain ⟨other, beganOther, aloneOther⟩ := others last
  -- An earlier load may have used up the refusal; what is needed of it is only that the block is
  -- still the one device on the bus.
  obtain ⟨_, _, middle, _, done, rest⟩ := loaded.split
  obtain ⟨before, reached⟩ := Alone.loaded done alone
  cases rest with
  | cons loads nothing =>
    cases nothing
    obtain ⟨⟨report, again⟩, after, afterOnly, left, leftOther, same⟩ :=
      reached.load_alike aloneOther rfl loads
    obtain ⟨value, _⟩ := (session_ends beganOther).1 _ _ (.cons again (.nil _))
    exact ⟨after, afterOnly, left, ⟨_, value, leftOther⟩, same⟩

/-- A table that fails the check gets to no sink and no bus. A session that could be started loads its
images in order, each on the bus that the one before has left, up to the first that fails; if none
does, the block shows what the last image would have made of it by itself, without a refusal. A
session that cannot be started opens no file. -/
theorem session_in_order {σ : Type} [RegisterSink σ] (applier : Applier) (checker : Checker)
    (table : Table) (sink : σ) (loader : Loader) (request : ImageRequest) (bus : SessionBus δ)
    (settings : Settings) (store : FileStore) :
    (∀ cause, checker.checkTable table = .error cause →
      applier.applyTable checker table sink = ⟨.error (.image cause), sink, []⟩) ∧
    (∀ e, loader.Rejects request store e →
      let run := (loader.load request bus).run store
      run.value = (.error e, bus) ∧ Event.accesses run.events = [] ∧
        Event.hostWrites run.events = 0) ∧
    let began := (start (δ := δ) settings).run store
    let run := (session (δ := δ) settings).run store
    let opened := (session (δ := δ) settings).opened store
    (∀ e, began.value = .error e →
      run.value = (.error e, none) ∧ opened = [] ∧ Event.accesses run.events = []) ∧
    ∀ loader bus, began.value = .ok (loader, bus) →
      (run.value.1 = .ok () ↔
        ∃ accesses final, Loaded loader store bus settings.images accesses final) ∧
      (∀ accesses final, Loaded loader store bus settings.images accesses final →
        run.value.2 = some final ∧ opened = settings.images.map (·.file) ∧
        Event.accesses run.events = accesses) ∧
      (run.value.1 ≠ .ok () → ∃ done request later accesses middle e,
        settings.images = done ++ request :: later ∧
        Loaded loader store bus done accesses middle ∧
        let failed := (loader.load request middle).run store
        failed.value.1 = .error e ∧ run.value = (.error e, some failed.value.2) ∧
        opened = (done ++ [request]).map (·.file) ∧
        Event.accesses run.events = accesses ++ Event.accesses failed.events) ∧
      ∀ earlier last, settings.images = earlier ++ [last] → run.value.1 = .ok () →
        let only := (session (δ := δ) (settings.only last)).run store
        ∃ block blockOnly, run.value.2 = some ⟨[Block.slot δ loader.base block]⟩ ∧
          only.value = (.ok (), some ⟨[Block.slot δ loader.base blockOnly]⟩) ∧
          block.visible = blockOnly.visible := by
  refine ⟨fun cause failed => ?_, fun e rejects => ?_, ?_⟩
  · rw [Applier.applyTable_apply, failed]
  · obtain ⟨value, silent⟩ := load_rejected rejects bus
    exact ⟨value, silent, Event.hostWrites_of_accesses silent⟩
  intro began run opened
  refine ⟨fun e => session_refused, fun loader bus started => ?_⟩
  obtain ⟨whole, stops⟩ := session_ends started
  refine ⟨⟨session_succeeds started, fun ⟨accesses, final, loaded⟩ => ?_⟩, ?_, ?_, ?_⟩
  · rw [(whole accesses final loaded).1]
  · intro accesses final loaded
    obtain ⟨value, rest⟩ := whole accesses final loaded
    exact ⟨congrArg Prod.snd value, rest⟩
  · intro failed
    obtain ⟨before, request, later, accesses, middle, e, images, loaded, fails⟩ :=
      session_fails started failed
    exact ⟨before, request, later, accesses, middle, e, images, loaded, fails,
      stops before request later accesses middle e images loaded fails⟩
  · intro earlier last images done only
    obtain ⟨accesses, final, loaded⟩ := session_succeeds started done
    have value := (whole accesses final loaded).1
    rw [images] at loaded
    obtain ⟨after, afterOnly, left, ⟨lone, ended, leftOnly⟩, same⟩ := session_last started loaded
    refine ⟨after, afterOnly, ?_, ?_, same⟩
    · rw [← left.slots]
      exact congrArg Prod.snd value
    · rw [← leftOnly.slots]
      exact ended

/-- The first of two images is refused once; and a file is missing between two others. -/
theorem session_in_order_spi :
    let spi : ImageRequest := ⟨"spi.c", none, none, 1, false⟩
    let missing : ImageRequest := ⟨"none.c", none, none, 0, false⟩
    let whole : Settings := ⟨⟨0, 8, some 1⟩, none, [spi, spi]⟩
    let cut : Settings := ⟨⟨0, 8, some 1⟩, none, [spi, missing, spi]⟩
    let table : Table := ⟨"none", [], 0, 32, none, none, none⟩
    let sink : HostSink (Block ⊕ Empty) := ⟨Bus.empty, 0⟩
    (Applier.ofAddress? none).applyTable .standard table sink = ⟨.error (.image .empty), sink, []⟩ ∧
    (∃ (loader : Loader) (bus : SessionBus Empty),
      ((loader.load missing bus).run spiStore).value.2 = bus) ∧
    ((session (δ := Empty) whole).run spiStore).value.1 = .ok () ∧
    (∃ block blockOnly,
      ((session (δ := Empty) whole).run spiStore).value.2 = some ⟨[Block.slot Empty 0 block]⟩ ∧
      ((session (δ := Empty) (whole.only spi)).run spiStore).value =
        (.ok (), some ⟨[Block.slot Empty 0 blockOnly]⟩) ∧
      block.visible = blockOnly.visible) ∧
    ∃ done request later, cut.images = done ++ request :: later ∧
      (session (δ := Empty) cut).opened spiStore = (done ++ [request]).map (·.file) := by
  intro spi missing whole cut table sink
  have beganWhole := start_ok (δ := Empty) (show 0 < whole.block.depth by decide) (by decide) spiStore
  have beganCut := start_ok (δ := Empty) (show 0 < cut.block.depth by decide) (by decide) spiStore
  have ends : ((session (δ := Empty) whole).run spiStore).value.1 = .ok () :=
    toOption_eq_some.mp (by decide +kernel)
  have stops : ((session (δ := Empty) cut).run spiStore).value.1 ≠ .ok () := by
    rw [Ne, ← toOption_eq_some]
    decide +kernel
  obtain ⟨_, absent⟩ : ∃ cause, ((Table.load missing.file).run spiStore).value = .error cause :=
    toOption_eq_none.mp (by decide +kernel)
  let empty : SessionBus Empty := Bus.empty
  let loader : Loader := ⟨0, 8, by decide, .standard⟩
  obtain ⟨checked, rejected, _, images⟩ := session_in_order (Applier.ofAddress? none) .standard table
    sink loader missing empty whole spiStore
  obtain ⟨_, _, _, last⟩ := images _ _ beganWhole
  obtain ⟨_, _, _, cutImages⟩ := session_in_order (Applier.ofAddress? none) .standard table
    sink loader missing empty cut spiStore
  obtain ⟨done, request, later, _, _, _, split, _, _, _, opened, _⟩ :=
    (cutImages _ _ beganCut).2.2.1 stops
  have untouched := congrArg Prod.snd (rejected _ (.inl ⟨_, absent, rfl⟩)).1
  exact ⟨checked _ rfl, ⟨loader, empty, untouched⟩, ends, last [spi] spi rfl ends,
    done, request, later, split, opened⟩

/-- A session that cannot be started fails without a load that fails. -/
theorem session_noDepth :
    let settings : Settings := ⟨⟨0, 0, none⟩, none, []⟩
    ¬ (((session (δ := Empty) settings).run (⟨[]⟩ : FileStore)).value.1 = .ok () ↔
      ∀ request ∈ settings.images, ∀ (loader : Loader) (bus : SessionBus Empty),
        ∃ report, ((loader.load request bus).run (⟨[]⟩ : FileStore)).value.1 = .ok report) := by
  intro settings ends
  have refused : ((session (δ := Empty) settings).run (⟨[]⟩ : FileStore)).value.1 = .error .noDepth := rfl
  cases refused.symm.trans (ends.mpr (by simp [settings]))

end Loader
end FabricLoader
