import FabricLoader.Proofs.Command.Planned
import FabricLoader.Proofs.Loader.Requested

/-! A plan tells what a load writes. Both start from the same file, and the lines of the plan are the
calls that the image asks of any sink; the sink of a load turns each of them into its accesses to
the bus. -/
namespace FabricLoader

def AcceptedWrite.issued (base : UInt32) : AcceptedWrite → List Access
  | entry address value => [.write (base + 0x14) address, .write (base + 0x10) value]
  | control address value => [.write (base + address) value]

namespace Applier
variable {applier : Applier} {image : Image}

theorem countP_planned (applier : Applier) (image : Image) :
    (applier.planned image).countP AcceptedWrite.isEntry = image.size ∧
    (applier.planned image).countP (!·.isEntry) = image.control.isSome.toNat := by
  have entry : AcceptedWrite.isEntry ∘ (fun e : Entry => .entry e.address e.value) = fun _ => true :=
    rfl
  cases control : image.control <;>
    simp [planned, control, entry, AcceptedWrite.isEntry, List.countP_map, Image.size]

theorem address_of_mem_planned {address value : UInt32}
    (member : .control address value ∈ applier.planned image) :
    image.control ≠ none ∧ address = applier.controlAddress := by
  cases control : image.control with
  | none => simp [planned, control] at member
  | some word =>
    have found : address = applier.controlAddress ∧ value = word := by
      simpa [planned, control] using member
    exact ⟨Option.some_ne_none word, found.1⟩

end Applier

namespace Loader
variable {δ : Type} [Peripheral δ] {settings : Settings} {loader : Loader} {bus : SessionBus δ}
  {events : List Event} {image : Image} {applier : Applier} {request : ImageRequest}
  {report : ApplyReport} {store : FileStore}

theorem entriesScript_issued (loader : Loader) (entries : List Entry) :
    loader.entriesScript entries = .reset :: .write loader.base 0x40000000 ::
      (entries.map fun e => .entry e.address e.value).flatMap (AcceptedWrite.issued loader.base) := by
  have control : loader.base + Register.control.offset = loader.base := UInt32.add_zero _
  rw [entriesScript, control, List.flatMap_map]
  rfl

/-- An attempt whose control word is accepted issues the writes of the plan. -/
theorem script_issued (loads : loader.controlResult image applier bus = .ok report) :
    loader.script image applier = .reset :: .write loader.base 0x40000000 ::
      (applier.planned image).flatMap (AcceptedWrite.issued loader.base) := by
  rw [script, entriesScript_issued, (controlAccesses_of_ok loads).2, Applier.planned,
    List.flatMap_append]
  cases image.control <;> rfl

/-- A load that succeeds writes what the plan of its file shows, and what was refused before was the
beginning of it. -/
theorem plan_foretells (reached : Reached settings loader bus events)
    (widths : loader.checker = .standard) (bare : request.control = none)
    (loads : ((loader.load request bus).run store).value.1 = .ok report) (colour : Bool) :
    let plan := (Command.run colour (.plan request.file request.controlAddress)).run store
    let load := (loader.load request bus).run store
    plan.value = .ok () ∧
    ∃ (lines : List String) (writes : List AcceptedWrite) (refused : List (List Access)),
      Event.printed plan.events = lines.map (· ++ "\n") ∧
      lines.mapM AcceptedWrite.ofLine? = some writes ∧
      let sequence := .write loader.base 0x40000000 ::
        writes.flatMap (AcceptedWrite.issued loader.base)
      Event.accesses load.events = refused.flatMap (.reset :: ·) ++ .reset :: sequence ++
        (if request.verify then loader.readBack else []) ∧
      (∀ earlier ∈ refused, earlier <+: sequence) ∧
      (∀ address value, .control address value ∈ writes →
        loader.base.toNat + address.toNat < UInt32.size) ∧
      report.entries = writes.countP AcceptedWrite.isEntry ∧
      report.control.toNat = writes.countP (!·.isEntry) := by
  intro plan load
  obtain ⟨table, image, read, checked, installs⟩ := load_eq_ok.mp loads
  obtain ⟨block, carries, _⟩ := reached.carriesBlock
  obtain ⟨refused, filled, prefixes, sent, controlled⟩ :=
    program_sent carries (install_eq_ok.mp installs).1
  obtain ⟨done, lines, printed, shown⟩ := Command.runPlan_lines read
    (by rw [← widths, ← checked, ImageRequest.filled_bare bare]) request.controlAddress
  have issued : Event.accesses load.events = _ :=
    ((load_installs read checked bus).2.trans (install_accesses installs))
  rw [sent, script_issued controlled] at issued
  obtain ⟨entries, control⟩ :=
    Applier.countP_planned (Applier.ofAddress? request.controlAddress) image
  obtain rfl := report_of_ok controlled
  refine ⟨done, lines, _, refused.map fun entries => (loader.entriesScript entries).tail, printed,
    shown, ?_, ?_, ?_, entries.symm, control.symm⟩
  · rw [issued, List.flatMap_map]
    rfl
  · intro earlier member
    obtain ⟨first, among, rfl⟩ := List.mem_map.mp member
    obtain ⟨rest, whole⟩ := prefixes first among
    rw [entriesScript_issued, List.tail_cons, Applier.planned, ← whole]
    simp
  · intro address value member
    obtain ⟨present, rfl⟩ := Applier.address_of_mem_planned member
    exact (controlAccesses_of_ok controlled).1 present

/-- The second entry is refused once, so the load starts again; the plan is the same. -/
theorem plan_foretells_restarted :
    let request : ImageRequest := ⟨"spi.c", none, none, 1, true⟩
    ∃ (loader : Loader) (bus : SessionBus Empty) (events : List Event),
      Reached refusingSecond loader bus events ∧ loader.checker = .standard ∧
      request.control = none ∧
      let load := (loader.load request bus).run spiStore
      let plan := (Command.run false (.plan request.file request.controlAddress)).run spiStore
      load.value.1 = .ok ⟨2, true⟩ ∧ plan.value = .ok () ∧
      ∃ (lines : List String) (writes : List AcceptedWrite),
        Event.printed plan.events = lines.map (· ++ "\n") ∧
        lines.mapM AcceptedWrite.ofLine? = some writes ∧
        writes.countP AcceptedWrite.isEntry = 2 ∧ writes.countP (!·.isEntry) = 1 := by
  intro request
  have began := start_ok (δ := Empty) (show 0 < refusingSecond.block.depth by decide) (by decide) ⟨[]⟩
  have reached := Reached.start began
  refine ⟨_, _, _, reached, rfl, rfl, ?_⟩
  intro load plan
  have loads : load.value.1 = .ok ⟨2, true⟩ := toOption_eq_some.mp (by decide +kernel)
  obtain ⟨done, lines, writes, _, printed, shown, _, _, _, entries, control⟩ :=
    plan_foretells reached rfl rfl loads false
  exact ⟨loads, done, lines, writes, printed, shown, entries.symm, control.symm⟩

end Loader
end FabricLoader
