import FabricLoader.Proofs.Loader.Requested

/-! The block by itself on a bus, as in a session that nothing else is mounted in. Whether an image can
be installed then depends on nothing that was there before but the refusal still ahead, and what can
be seen afterwards depends on the image and the request alone. -/
namespace FabricLoader.Loader
variable {δ : Type} {loader : Loader} {bus : SessionBus δ} {block : Block}

structure Alone (loader : Loader) (block : Block) (bus : SessionBus δ) : Prop where
  slots : bus = ⟨[Block.slot δ loader.base block]⟩
  fits : Block.Fits loader.base
  depth : block.depth = loader.depth

namespace Alone

theorem carries (alone : Alone loader block bus) : Carries loader.base block bus := by
  rw [alone.slots]
  exact ⟨Slot.ordered_singleton (Block.slot_inhabited.mpr alone.fits), List.mem_singleton_self _⟩

variable [Peripheral δ] {name : String} {image : Image} {applier : Applier}
  {request : ImageRequest} {report : ApplyReport}

theorem replay (alone : Alone loader block bus) (accesses : List Access) :
    Alone loader (block.replay loader.base accesses) (bus.replay accesses) := by
  have slots := Bus.replay_slots alone.carries.ordered accesses
  refine ⟨congrArg Bus.mk (slots.trans ?_), alone.fits,
    (Block.counts_replay alone.fits block accesses).depth.trans alone.depth⟩
  rw [alone.slots, List.map_singleton, Block.replay_slot]

theorem act {α : Type} {action : Action Event (SessionBus δ) α} (alone : Alone loader block bus)
    (replayed : Action.Replayed id action) :
    Alone loader (block.replay loader.base (Event.accesses (action bus).events))
      (action bus).state := by
  have reached : (action bus).state = bus.replay (Event.accesses (action bus).events) := replayed bus
  rw [reached]
  exact alone.replay _

/-- A control word that leads past the block is taken by nobody. -/
theorem inside_of_ok (alone : Alone loader block bus)
    (loads : loader.controlResult image applier bus = .ok report) :
    image.control = none ∨ applier.controlAddress.toNat < 0x40 := by
  by_cases inside : applier.controlAddress.toNat < 0x40
  · exact .inr inside
  · refine .inl ?_
    cases control : image.control with
    | none => rfl
    | some value =>
      have room := (controlAccesses_of_ok loads).1 (by simp [control])
      have missed := Block.spans_beyond alone.fits room inside
      have unrouted : bus.route? (loader.base + applier.controlAddress) = none := by
        rw [Bus.route?_eq_none_iff alone.carries.ordered, alone.slots]
        intro slot member
        obtain rfl := List.mem_singleton.mp member
        exact Bool.eq_false_iff.mp missed
      simp [controlResult, control, HostSink.address?, room, Bus.write_apply, unrouted] at loads

/-- A block that refuses nothing takes a control word at any of its offsets. -/
theorem controlResult_unarmed (alone : Alone loader block bus) (unarmed : block.failAt = none)
    (inside : image.control = none ∨ applier.controlAddress.toNat < 0x40) :
    loader.controlResult image applier bus = .ok ⟨image.size, image.control.isSome⟩ := by
  unfold controlResult
  cases control : image.control with
  | none => rfl
  | some value =>
    have inside := inside.resolve_left (by simp [control])
    have accepted : (Bus.write (loader.base + applier.controlAddress) value bus).value = .ok () := by
      rw [alone.carries.write_value inside]
      by_cases data : applier.controlAddress = Register.data.offset
      · rw [data, Block.write_data, Block.push_value]
        simp [Block.refuses, unarmed]
      · exact (Block.write_other data value block).1
    simp [HostSink.address?_eq_ok alone.fits inside, accepted]

/-- What a program that succeeds leaves behind, whatever was there before. -/
theorem programmed (alone : Alone loader block bus) {retries : UInt32}
    (loads : (loader.program name image applier retries bus).value = .ok report) :
    (image.control = none ∨ applier.controlAddress.toNat < 0x40) ∧
    ∃ after, Alone loader after (loader.program name image applier retries bus).state ∧
      after.visible = (Block.loaded loader.depth image applier.controlAddress).visible := by
  obtain ⟨before, number, completes, accepts⟩ := completes_of_ok alone.carries loads
  have tried := alone.replay before
  have controlled := completes.controlled loads
  have filled := alone.replay (before ++ loader.entriesScript image.entries)
  refine ⟨filled.inside_of_ok controlled, _,
    alone.act (loader.replayed_program name image applier retries), ?_⟩
  rw [Bus.replay_append] at controlled
  rw [completes.accesses, Block.replay_append]
  exact visible_controlled tried.carries tried.depth accepts controlled

theorem programmed_unarmed (alone : Alone loader block bus) (unarmed : block.failAt = none)
    (inside : image.control = none ∨ applier.controlAddress.toNat < 0x40) (retries : UInt32) :
    (loader.program name image applier retries bus).value =
      .ok ⟨image.size, image.control.isSome⟩ := by
  have accepts : block.refusal? image.size = none := by simp [Block.refusal?, unarmed]
  have completes := program_accepted name applier alone.carries accepts retries
  have filled := alone.replay ([] ++ loader.entriesScript image.entries)
  have still := (Block.counts_replay alone.fits block
    ([] ++ loader.entriesScript image.entries)).failAt.trans unarmed
  rw [completes.value, filled.controlResult_unarmed still inside]
  rfl

theorem installed (loads : (loader.install name image request bus).value = .ok report)
    (programmed : Alone loader block (loader.program name image
      (Applier.ofAddress? request.controlAddress) request.retries bus).state) :
    Alone loader block (loader.install name image request bus).state := by
  have ran := (install_eq_ok.mp loads).1
  have read := programmed.act (loader.replayed_verify name image)
  rw [accesses_verify] at read
  rw [install_apply]
  simp only [ran]
  by_cases asked : request.verify = true
  · rw [if_pos asked]
    exact read
  · rw [if_neg asked]
    exact programmed

/-- Two installations on two buses: if the first one succeeds and the second block refuses nothing,
the second one succeeds, and no register tells the blocks apart. -/
theorem installed_alike {other : SessionBus δ} {blockOther : Block}
    (alone : Alone loader block bus) (aloneOther : Alone loader blockOther other)
    (unarmed : blockOther.failAt = none)
    (loads : (loader.install name image request bus).value = .ok report) :
    (∃ reportOther, (loader.install name image request other).value = .ok reportOther) ∧
    ∃ after afterOther, Alone loader after (loader.install name image request bus).state ∧
      Alone loader afterOther (loader.install name image request other).state ∧
      after.visible = afterOther.visible := by
  obtain ⟨ran, verified⟩ := install_eq_ok.mp loads
  obtain ⟨inside, after, left, seen⟩ := alone.programmed ran
  have again : (loader.program name image (Applier.ofAddress? request.controlAddress)
    request.retries other).value = _ := aloneOther.programmed_unarmed unarmed inside request.retries
  obtain ⟨_, afterOther, leftOther, seenOther⟩ := aloneOther.programmed again
  have same := seen.trans seenOther.symm
  have loadsOther : (loader.install name image request other).value =
      .ok ⟨image.size, image.control.isSome⟩ := by
    refine install_eq_ok.mpr ⟨again, fun asked => ?_⟩
    -- Only the head is read back, and it is one of the registers that show the same.
    have head : after.head = afterOther.head := by
      change after.visible.head = afterOther.visible.head
      rw [same]
    have answer := verified asked
    rw [verify_value left.carries] at answer
    rw [verify_value leftOther.carries, ← head]
    by_cases oldest : after.head = (loader.oldest image).2.word
    · rw [if_pos oldest]
    · cases (if_neg oldest).symm.trans answer
  exact ⟨⟨_, loadsOther⟩, after, afterOther, installed loads left, installed loadsOther leftOther, same⟩

end Alone

end FabricLoader.Loader
