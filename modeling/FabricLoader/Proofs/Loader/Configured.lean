import FabricLoader.Proofs.Loader.Retry

/-! What a load that succeeds leaves in the block. Every register and the chain are set again by the
reset, the entries and the control word, so the image, the control address and the depth alone
decide what can be read afterwards; the count of data writes and the refusal cannot be read. -/
namespace FabricLoader

namespace Block
variable {block : Block} {base offset register value : UInt32} {image : Image}

/-- A block without what no register shows: its count of data writes and its refusal. -/
def visible (block : Block) : Block := { block with failAt := none, received := 0, failed := false }

/-- A block held in reset that has taken all entries of an image, and only these. -/
def configured (depth : Nat) (image : Image) : Block :=
  { new depth none with
    control := resetBit
    selector := (image.entries.getLast image.entries_ne_nil).address &&& selectorMask
    chain := (image.entries.map Entry.word).drop (image.size - depth) }

def loaded (depth : Nat) (image : Image) (controlAddress : UInt32) : Block :=
  match image.control with
  | none => configured depth image
  | some value => (write controlAddress value (configured depth image)).state

/-- The entries of an image leave the same behind in every block of the same depth. -/
theorem visible_stream (fits : Fits base) (deep : 0 < block.depth)
    (accepts : block.refusal? image.size = none) :
    (block.held.replay base (streamAccesses base image.entries)).visible =
      configured block.depth image := by
  have capacity : block.held.capacity = block.depth := Nat.max_eq_left deep
  have empty (cut : Nat) : block.held.chain = [].drop cut := by simp [held, cleared]
  rw [replay_stream fits [] (empty _) accepts, capacity,
    List.getLast?_eq_some_getLast image.entries_ne_nil]
  simp [visible, configured, held, cleared, new, Image.size]

theorem visible_push (accepted : block.refuses = false) (data : UInt32) :
    (push data block).state.visible = (push data block.visible).state.visible := by
  have unarmed : block.visible.refuses = false := rfl
  rw [(push_accepted accepted data).2, (push_accepted unarmed data).2]
  rfl

/-- An accepted write does to what can be seen what it would do to a block that refuses nothing. -/
theorem visible_write (accepted : (write offset value block).value = .ok ()) :
    (write offset value block).state.visible =
      (write offset value block.visible).state.visible := by
  cases found : Register.at? offset with
  | none => simp [write, found, stray, Action.note, visible]
  | some r =>
    obtain rfl := Register.offset_of_at? found
    cases r with
    | data =>
      rw [write_data] at accepted ⊢
      rw [push_value] at accepted
      refine visible_push ?_ value
      by_contra refuses
      simp [refuses] at accepted
    | control =>
      rw [write_control_state, write_control_state]
      rfl
    | selector =>
      rw [write_selector_state, write_selector_state]
      rfl
    | comControl | shiftOut | shiftIn => simp [write, visible]

end Block

namespace HostSink
variable {δ : Type} [Peripheral δ] {base offset register value : UInt32} {block : Block}
  {bus : SessionBus δ}

theorem at?_eq_none (outside : ¬ offset.toNat < 0x40) : Register.at? offset = none := by
  cases found : Register.at? offset with
  | none => rfl
  | some r =>
    obtain rfl := Register.offset_of_at? found
    exact absurd (by cases r <;> decide) outside

/-- What a write to an offset from the base does to the block is told by the offset alone, also
when the address belongs to another device. -/
theorem access_reached (fits : Block.Fits base) (reaches : address? base offset = .ok register) :
    block.access base (.write register value) = (Block.write offset value block).state := by
  simp only [address?] at reaches
  split at reaches
  · rename_i room
    obtain rfl := Except.ok.inj reaches
    by_cases inside : offset.toNat < 0x40
    · exact Block.access_write fits inside
    · have missed := Block.spans_beyond fits room inside
      simp [Block.access, missed, Block.write, at?_eq_none inside, Block.stray, Action.note]
  · cases reaches

theorem write_accepted (carries : Carries base block bus)
    (reaches : address? base offset = .ok register)
    (accepted : (Bus.write register value bus).value = .ok ()) :
    (Block.write offset value block).value = .ok () := by
  by_cases inside : offset.toNat < 0x40
  · rw [address?_eq_ok carries.fits inside] at reaches
    obtain rfl := Except.ok.inj reaches
    rwa [carries.write_value inside] at accepted
  · refine (Block.write_other ?_ value block).1
    rintro rfl
    exact inside (by decide)

end HostSink

namespace Loader
variable {δ : Type} [Peripheral δ] {settings : Settings} {loader : Loader} {bus : SessionBus δ}
  {block : Block} {events : List Event} {name : String} {image : Image} {applier : Applier}

/-- Verification compares the oldest word of the chain with the entry that should be there. -/
theorem verify_value (carries : Carries loader.base block bus) :
    (loader.verify name image bus).value =
      if block.head = (loader.oldest image).2.word then .ok ()
      else .error (.mismatch name ⟨(loader.oldest image).1,
        ⟨block.head.selector, block.head.data⟩, (loader.oldest image).2⟩) := by
  have selector : (Bus.read (loader.base + Register.selector.offset) bus).value =
      block.head.selector := by
    rw [carries.read_value (by decide)]
    simp [Block.read, Block.register]
  have data : (Bus.read (loader.base + Register.data.offset)
      (Bus.read (loader.base + Register.selector.offset) bus).state).value = block.head.data := by
    have still := carries.access (.read (loader.base + Register.selector.offset))
    rw [Bus.access] at still
    rw [still.read_value (by decide)]
    simp [Block.access, Block.read, Block.register]
  simp only [verify, Action.bind_apply, selector, data]
  by_cases same : block.head = (loader.oldest image).2.word
  · have agrees : block.head.selector = (loader.oldest image).2.address &&& Block.selectorMask ∧
        block.head.data = (loader.oldest image).2.value := by simp [same, Entry.word]
    simpa [agrees] using same
  · have differs : ¬ (block.head.selector = (loader.oldest image).2.address &&& Block.selectorMask ∧
        block.head.data = (loader.oldest image).2.value) := by
      rintro ⟨selector, data⟩
      exact same (by rw [Entry.word, ← selector, ← data])
    simpa [differs] using same

variable {report : ApplyReport}

/-- If the control word is accepted after all entries, the block is the loaded one. -/
theorem visible_controlled (carries : Carries loader.base block bus)
    (depth : block.depth = loader.depth) (accepts : block.refusal? image.size = none)
    (loads : loader.controlResult image applier (bus.replay (loader.entriesScript image.entries)) =
      .ok report) :
    (block.replay loader.base (loader.script image applier)).visible =
      (Block.loaded loader.depth image applier.controlAddress).visible := by
  have filled := carries.replay (loader.entriesScript image.entries)
  rw [replay_entriesScript carries.fits] at filled
  have seen := Block.visible_stream carries.fits (depth ▸ loader.depth_pos) accepts
  rw [depth] at seen
  rw [script, Block.replay_append, replay_entriesScript carries.fits]
  generalize block.held.replay loader.base (Block.streamAccesses loader.base image.entries) = full
    at filled seen ⊢
  unfold controlResult at loads
  unfold controlAccesses Block.loaded
  cases control : image.control with
  | none =>
    rw [Block.replay_nil, seen]
    rfl
  | some value =>
    simp only [control] at loads ⊢
    cases reaches : HostSink.address? loader.base applier.controlAddress with
    | error cause => simp [reaches] at loads
    | ok register =>
      simp only [reaches] at loads ⊢
      have accepted : (Bus.write register value
          (bus.replay (loader.entriesScript image.entries))).value = .ok () := by
        cases answer : (Bus.write register value
          (bus.replay (loader.entriesScript image.entries))).value with
        | ok => rfl
        | error cause => simp [answer] at loads
      have taken := HostSink.write_accepted filled reaches accepted
      rw [Block.replay_cons, Block.replay_nil, HostSink.access_reached carries.fits reaches,
        Block.visible_write taken, seen]

theorem completes_of_ok (carries : Carries loader.base block bus) {retries : UInt32}
    (loads : (loader.program name image applier retries bus).value = .ok report) :
    ∃ before number,
      Completes loader name image applier bus before number
        (loader.program name image applier retries bus) ∧
      (block.replay loader.base before).refusal? image.size = none := by
  cases pending : block.refusal? image.size with
  | none => exact ⟨[], 1, program_accepted name applier carries pending retries, pending⟩
  | some i =>
    by_cases final : retries = 0
    · subst final
      have refused := (program_refused name applier carries pending).1
      cases refused.symm.trans loads
    · exact ⟨_, 2, program_restarted name applier carries pending final,
        Block.refusal?_of_failed (failed_of_refused carries.fits pending)⟩

theorem head_configured : (Block.configured loader.depth image).head =
    (loader.oldest image).2.word := by
  have inside : image.entries.length - loader.depth < image.entries.length :=
    Nat.sub_lt image.size_pos loader.depth_pos
  simp [Block.configured, Block.head, oldest, Image.size, List.head?_drop, inside]

/-- A control word that is not a data write leaves the oldest word where it is. -/
theorem head_loaded (other : image.control = none ∨ applier.controlAddress ≠ Register.data.offset) :
    (Block.loaded loader.depth image applier.controlAddress).head =
      (loader.oldest image).2.word := by
  rw [← head_configured]
  unfold Block.loaded
  cases control : image.control with
  | none => rfl
  | some value =>
    have elsewhere := other.resolve_left (by simp [control])
    have kept := (Block.write_other elsewhere value (Block.configured loader.depth image)).2.2
    simp only [Block.head, kept]

/-- What can be read from the block after a load that succeeds depends on the image, the control
address and the depth alone, and it passes verification unless the control word was a data write. -/
theorem program_loaded (reached : Reached settings loader bus events) (name : String)
    (image : Image) (applier : Applier) (retries : UInt32) (report : ApplyReport)
    (loads : (loader.program name image applier retries bus).value = .ok report) :
    let after := (loader.program name image applier retries bus).state
    (∃ block, Carries loader.base block after ∧
      block.visible = (Block.loaded loader.depth image applier.controlAddress).visible) ∧
    (image.control = none ∨ applier.controlAddress ≠ 0x10 →
      (loader.verify name image after).value = .ok ()) := by
  intro after
  obtain ⟨block, carries, depth, _⟩ := reached.carriesBlock
  obtain ⟨before, number, completes, accepts⟩ := completes_of_ok carries loads
  have final : after = bus.replay (before ++ loader.script image applier) := by
    rw [← completes.accesses]
    exact loader.replayed_program name image applier retries bus
  have tried := carries.replay before
  have deep := (Block.counts_replay carries.fits block before).depth.trans depth
  have result : loader.controlResult image applier
      ((bus.replay before).replay (loader.entriesScript image.entries)) = .ok report := by
    have value := completes.value.symm.trans loads
    rw [Bus.replay_append] at value
    cases answer : loader.controlResult image applier
      ((bus.replay before).replay (loader.entriesScript image.entries)) with
    | error cause => simp [answer, Except.mapError] at value
    | ok found => simpa [answer, Except.mapError] using value
  have ended : Carries loader.base
      ((block.replay loader.base before).replay loader.base (loader.script image applier)) after := by
    rw [final, Bus.replay_append]
    exact tried.replay _
  have seen := visible_controlled tried deep accepts result
  refine ⟨⟨_, ended, seen⟩, ?_⟩
  intro other
  have oldest : ((block.replay loader.base before).replay loader.base
      (loader.script image applier)).head = (loader.oldest image).2.word :=
    (congrArg Block.head seen).trans (head_loaded other)
  rw [verify_value ended, if_pos oldest]

/-- Also where the first attempt was refused at its second entry. -/
theorem program_loaded_twoEntries : ∃ (loader : Loader) (bus : SessionBus Block)
    (events : List Event), Reached refusingSecond loader bus events ∧
    let run := loader.program "two" twoEntries ⟨0⟩ 1 bus
    run.value = .ok ⟨2, false⟩ ∧
    (∃ block, Carries 0 block run.state ∧
      block.visible = ⟨8, none, 0x40000000, 2, [⟨1, 10⟩, ⟨2, 20⟩], 0, 0, 0, 0, false⟩) ∧
    (loader.verify "two" twoEntries run.state).value = .ok () := by
  have began := start_ok (δ := Block) (show 0 < refusingSecond.block.depth by decide) (by decide) ⟨[]⟩
  have carries := (start_carries began).2.2
  have loads := (program_restarted "two" ⟨0⟩ carries
    (show (Block.new 8 (some 1)).refusal? twoEntries.size = some 1 from rfl)
    (show (1 : UInt32) ≠ 0 by decide)).value
  have reached := Reached.start began
  obtain ⟨visible, verified⟩ := program_loaded reached "two" twoEntries ⟨0⟩ 1 ⟨2, false⟩ loads
  exact ⟨_, _, _, reached, loads, visible, verified (.inl rfl)⟩

end Loader
end FabricLoader
