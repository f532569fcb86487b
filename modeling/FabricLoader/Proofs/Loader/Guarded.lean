import FabricLoader.Proofs.Loader.Configured
import FabricLoader.Proofs.Loader.Logged

/-! The fabric between two accesses of a load. A reset empties the chain before it lets the fabric
go, and every entry finds the fabric held; so it runs only on an empty chain until the control word
of the image has been written, and a load that fails leaves it held. -/
namespace FabricLoader

namespace Block
variable {block : Block} {base offset value : UInt32} {a : Access}

/-- The fabric is held or has nothing to run. -/
def Safe (block : Block) : Prop := holds block.control = true ∨ block.chain = []

/-- A reset or a write to a block that leaves it safe and, if it is a data write, finds it held. -/
structure Guarded (base : UInt32) (block : Block) (a : Access) : Prop where
  safe : Safe (block.access base a)
  held : isDataWrite base a = true → block.control = resetBit
  inside : a = .reset ∨ ∃ address value, a = .write address value ∧ spans base address

def Steps (base : UInt32) (block : Block) : List Access → Prop
  | [] => True
  | a :: rest => Guarded base block a ∧ Steps base (block.access base a) rest

theorem steps_append (before after : List Access) : Steps base block (before ++ after) ↔
    Steps base block before ∧ Steps base (block.replay base before) after := by
  induction before generalizing block with
  | nil => simp [Steps]
  | cons a rest ih => simp [Steps, ih, and_assoc]

theorem Steps.guarded {before after : List Access} (steps : Steps base block (before ++ a :: after)) :
    Guarded base (block.replay base before) a :=
  ((steps_append _ _).mp steps).2.1

theorem holds_resetBit : holds resetBit = true := by decide

theorem control_push (data : UInt32) (block : Block) :
    (push data block).state.control = block.control := by
  cases h : block.refuses with
  | true => rw [(push_refused h data).2]
  | false => rw [(push_accepted h data).2]

/-- An entry finds the block held and leaves it so. -/
theorem steps_entry (fits : Fits base) (held : block.control = resetBit) (e : Entry) :
    Steps base block (entryAccesses base e) ∧
    (block.replay base (entryAccesses base e)).control = resetBit := by
  have selected : (block.access base (.write (base + Register.selector.offset) e.address)).control =
      resetBit := by
    rw [access_write fits (by decide), write_selector_state]
    exact held
  have pushed : (block.replay base (entryAccesses base e)).control = resetBit := by
    rw [replay_entry fits, control_push]
    exact held
  refine ⟨⟨⟨.inl ?_, fun _ => held, ?_⟩, ⟨.inl ?_, fun _ => selected, ?_⟩, trivial⟩, pushed⟩
  · rw [selected]
    exact holds_resetBit
  · exact .inr ⟨_, _, rfl, spans_offset fits (by decide)⟩
  · exact pushed.symm ▸ holds_resetBit
  · exact .inr ⟨_, _, rfl, spans_offset fits (by decide)⟩

theorem steps_stream (fits : Fits base) (held : block.control = resetBit) (entries : List Entry) :
    Steps base block (streamAccesses base entries) ∧
    (block.replay base (streamAccesses base entries)).control = resetBit := by
  induction entries generalizing block with
  | nil => exact ⟨trivial, held⟩
  | cons e rest ih =>
    obtain ⟨first, still⟩ := steps_entry fits held e
    obtain ⟨later, final⟩ := ih still
    rw [streamAccesses_cons, steps_append, replay_append]
    exact ⟨⟨first, later⟩, final⟩

/-- No other warning of a block reads like the one of a running fabric. -/
theorem runningWarning_ne (first rest : String)
    (differs : ¬ first.toList <+: runningWarning.text.toList) :
    runningWarning ≠ ⟨.warn, first ++ rest⟩ := by
  intro same
  apply differs
  rw [same, String.toList_append]
  exact List.prefix_append _ _

/-- A write warns of a running fabric only if it is a data write and the fabric runs. -/
theorem write_silent (held : offset = Register.data.offset → holds block.control = true) :
    runningWarning ∉ (write offset value block).events := by
  have quiet {level : Level} (text : String) (other : level ≠ .warn) :
      runningWarning ≠ ⟨level, text⟩ := fun same => other (congrArg LogLine.level same).symm
  cases found : Register.at? offset with
  | none =>
    have other := runningWarning_ne "PRISM invalid offset=" (Text.hexWord offset) (by decide)
    simpa [write, found, stray, Action.note, toString] using other
  | some r =>
    obtain rfl := Register.offset_of_at? found
    cases r with
    | data =>
      rw [write_data, push_apply]
      cases refuses : block.refuses with
      | true =>
        have other := runningWarning_ne "PRISM injected fault on config write #" block.received.repr
          (by decide)
        simpa [toString] using other
      | false => simp [held rfl, quiet]
    | control =>
      simp only [write, Register.at?_offset, Action.map_apply, setControl]
      cases new : holds value <;> cases old : holds block.control <;>
        simp [old, Action.note, quiet]
    | selector =>
      simp only [write, Register.at?_offset, Action.map_apply, select]
      have other := runningWarning_ne "PRISM selector "
        (Text.hexWord value ++ " truncated to 12 bits") (by decide)
      split
      · simpa [Action.note, toString, String.append_assoc] using other
      · simp
    | comControl | shiftOut | shiftIn => simp [write]

theorem runningWarning_not_own : ¬ runningWarning.Own := by
  intro own
  obtain ⟨front, same⟩ := own rfl
  have ends : "Restarting from entry 0".toList <:+ runningWarning.text.toList := by
    rw [same, String.toList_append]
    exact List.suffix_append _ _
  exact absurd ends (by decide)

theorem runningWarning_not_ofBus : ¬ runningWarning.OfBus := by
  intro ofBus
  obtain ⟨rest, read | written⟩ := ofBus rfl
  · exact runningWarning_ne "read of unmapped addr=" rest (by decide) (congrArg (LogLine.mk .warn) read)
  · exact runningWarning_ne "write to unmapped addr=" rest (by decide)
      (congrArg (LogLine.mk .warn) written)

theorem read_silent : runningWarning ∉ (read offset block).events := by
  cases found : Register.at? offset with
  | none =>
    have other := runningWarning_ne "PRISM invalid offset=" (Text.hexWord offset) (by decide)
    simpa [read, found, stray, Action.note, toString] using other
  | some r => simp [read, found]

/-- A block on a bus warns of a running fabric only behind a data write that finds it running. -/
theorem warned_by_slot {δ : Type} [Peripheral δ] {slot : Slot (Block ⊕ δ)}
    (mounted : slot.device = .inl block) (warned : runningWarning ∈ slot.lines a) :
    holds block.control = false ∧ ∃ value, a = .write (slot.start + Register.data.offset) value := by
  obtain ⟨start, stop, device⟩ := slot
  obtain rfl : device = .inl block := mounted
  cases a with
  | reset => cases warned
  | read address =>
    simp only [Slot.lines] at warned
    split at warned
    · exact (read_silent warned).elim
    · cases warned
  | write address value =>
    simp only [Slot.lines] at warned
    split at warned
    · have reaches : address - start = Register.data.offset ∧ holds block.control = false := by
        by_contra silent
        refine write_silent (fun data => ?_) warned
        simpa [data] using silent
      obtain rfl : address = start + Register.data.offset := by
        rw [← reaches.1, UInt32.add_comm, UInt32.sub_add_cancel]
      exact ⟨reaches.2, value, rfl⟩
    · cases warned

/-- A write that is refused leaves the control register alone. -/
theorem control_of_refused (refused : (write offset value block).value ≠ .ok ()) :
    (write offset value block).state.control = block.control := by
  by_cases data : offset = Register.data.offset
  · subst data
    rw [write_data, control_push]
  · exact absurd (write_other data value block).1 refused

end Block

namespace HostSink
variable {δ : Type} [Peripheral δ] {base offset register value : UInt32} {block : Block}
  {bus : SessionBus δ}

/-- A refused control word leaves the control register of the block alone, whoever refused it. -/
theorem control_of_refused (carries : Carries base block bus)
    (reaches : address? base offset = .ok register)
    (refused : (Bus.write register value bus).value ≠ .ok ()) :
    (block.access base (.write register value)).control = block.control := by
  rw [access_reached carries.fits reaches]
  by_cases inside : offset.toNat < 0x40
  · rw [address?_eq_ok carries.fits inside] at reaches
    obtain rfl := Except.ok.inj reaches
    rw [carries.write_value inside] at refused
    exact Block.control_of_refused refused
  · simp [Block.write, at?_eq_none inside, Block.stray, Action.note]

end HostSink

namespace Loader
variable {δ : Type} [Peripheral δ] {settings : Settings} {loader : Loader} {bus : SessionBus δ}
  {block : Block} {events : List Event} {name : String} {image : Image} {applier : Applier}

/-- An attempt is guarded up to its control word, whatever state the block was in. -/
theorem steps_entriesScript (fits : Block.Fits loader.base) (block : Block)
    (entries : List Entry) :
    Block.Steps loader.base block (loader.entriesScript entries) ∧
    (block.replay loader.base (loader.entriesScript entries)).control = Block.resetBit := by
  have hold : (block.access loader.base .reset).access loader.base
      (.write (loader.base + Register.control.offset) Block.resetBit) = block.held := by
    rw [Block.access_write fits (by decide), Block.write_control_state]
    rfl
  have entriesHeld : Block.Steps loader.base block.held
        (Block.streamAccesses loader.base entries) ∧
      (block.held.replay loader.base (Block.streamAccesses loader.base entries)).control =
        Block.resetBit := Block.steps_stream fits rfl entries
  rw [replay_entriesScript fits]
  refine ⟨⟨⟨.inr rfl, ?_, .inl rfl⟩, ⟨.inl ?_, ?_, ?_⟩, ?_⟩, entriesHeld.2⟩
  · simp [Block.isDataWrite]
  · rw [hold]
    exact Block.holds_resetBit
  · simp [Block.isDataWrite, Register.offset]
  · exact .inr ⟨_, _, rfl, Block.spans_offset fits (by decide)⟩
  · rw [hold]
    exact entriesHeld.1

/-- Every entry of the image has been accepted since the last reset, and its control word has been
written. -/
def Released (loader : Loader) (image : Image) (applier : Applier) (bus : SessionBus δ)
    (before : List Access) : Prop :=
  ∃ earlier register value,
    before = earlier ++ loader.entriesScript image.entries ++ [.write register value] ∧
    (bus.replay earlier).Accepts (loader.entriesScript image.entries) ∧
    image.control = some value ∧
    HostSink.address? loader.base applier.controlAddress = .ok register

/-- A load is guarded until it ends or comes to the control word of a complete image. -/
theorem program_lead (carries : Carries loader.base block bus) (name : String) (image : Image)
    (applier : Applier) (retries : UInt32) :
    let run := loader.program name image applier retries bus
    ∃ lead, Block.Steps loader.base block lead ∧
      (block.replay loader.base lead).control = Block.resetBit ∧
      ((∃ e, run.value = .error e ∧ Event.accesses run.events = lead) ∨
        ∃ earlier number, lead = earlier ++ loader.entriesScript image.entries ∧
          Completes loader name image applier bus earlier number run) := by
  intro run
  have after {earlier : List Access} (steps : Block.Steps loader.base block earlier) :
      Block.Steps loader.base block (earlier ++ loader.entriesScript image.entries) ∧
      (block.replay loader.base (earlier ++ loader.entriesScript image.entries)).control =
        Block.resetBit := by
    obtain ⟨later, held⟩ := steps_entriesScript carries.fits (block.replay loader.base earlier)
      image.entries
    rw [Block.steps_append, Block.replay_append]
    exact ⟨⟨steps, later⟩, held⟩
  cases pending : block.refusal? image.size with
  | none =>
    obtain ⟨steps, held⟩ := after (show Block.Steps loader.base block [] from trivial)
    exact ⟨_, steps, held, .inr ⟨[], 1, rfl, program_accepted name applier carries pending retries⟩⟩
  | some i =>
    obtain ⟨first, held⟩ := steps_entriesScript carries.fits block (image.entries.take (i + 1))
    by_cases final : retries = 0
    · subst final
      obtain ⟨value, accesses⟩ := program_refused name applier carries pending
      exact ⟨_, first, held, .inl ⟨_, value, accesses⟩⟩
    · obtain ⟨steps, heldAgain⟩ := after first
      exact ⟨_, steps, heldAgain, .inr ⟨_, 2, rfl, program_restarted name applier carries pending final⟩⟩

theorem controlAccesses_cases : loader.controlAccesses image applier = [] ∨
    ∃ register value, loader.controlAccesses image applier = [.write register value] ∧
      image.control = some value ∧
      HostSink.address? loader.base applier.controlAddress = .ok register := by
  unfold controlAccesses
  split
  · rename_i value register control reaches
    exact .inr ⟨register, value, rfl, control, reaches⟩
  · exact .inl rfl

/-- Every access of a load is guarded, except for the control word of a complete image; that one
finds the block held too. -/
theorem program_access (carries : Carries loader.base block bus) {retries : UInt32}
    {before after : List Access} {a : Access}
    (split : Event.accesses (loader.program name image applier retries bus).events =
      before ++ a :: after) :
    Block.Guarded loader.base (block.replay loader.base before) a ∨
    (block.replay loader.base before).control = Block.resetBit ∧
      Released loader image applier bus (before ++ [a]) := by
  obtain ⟨lead, steps, held, ⟨_, _, accesses⟩ | ⟨earlier, number, rfl, completes⟩⟩ :=
    program_lead carries name image applier retries
  · rw [← accesses, split] at steps
    exact .inl steps.guarded
  · rw [completes.accesses, script, ← List.append_assoc] at split
    rcases loader.controlAccesses_cases with none | ⟨register, value, word, control, reaches⟩
    · rw [none, List.append_nil] at split
      rw [split] at steps
      exact .inl steps.guarded
    · rw [word] at split
      rcases List.eq_nil_or_concat after with rfl | ⟨init, last, rfl⟩
      · rw [(List.append_inj' split rfl).1] at held
        exact .inr ⟨held, earlier, register, value, split.symm, completes.accepts, control, reaches⟩
      · rw [List.concat_eq_append, ← List.cons_append, ← List.append_assoc] at split
        rw [(List.append_inj' split rfl).1] at steps
        exact .inl steps.guarded

/-- Every data write of a load finds the block held. -/
theorem program_held (carries : Carries loader.base block bus) {retries : UInt32}
    {before after : List Access} {a : Access}
    (split : Event.accesses (loader.program name image applier retries bus).events =
      before ++ a :: after) (data : Block.isDataWrite loader.base a = true) :
    (block.replay loader.base before).control = Block.resetBit := by
  rcases program_access carries split with guarded | ⟨held, _⟩
  · exact guarded.held data
  · exact held

/-- A load writes nothing outside the block but the control word of a complete image. -/
theorem program_inside (carries : Carries loader.base block bus) {retries : UInt32}
    {before after : List Access} {a : Access}
    (split : Event.accesses (loader.program name image applier retries bus).events =
      before ++ a :: after) :
    (a = .reset ∨ ∃ address value, a = .write address value ∧ Block.spans loader.base address) ∨
      Released loader image applier bus (before ++ [a]) :=
  (program_access carries split).imp (·.inside) (·.2)

/-- The warning of a running fabric among the events of a load comes from another device than the block
of the session, which a reset or the control word of a complete image has reached; from another
block only at its data register. -/
theorem program_warned (carries : Carries loader.base block bus) {retries : UInt32}
    {before after : List Event} (split : (loader.program name image applier retries bus).events =
      before ++ .line Block.runningWarning :: after) :
    ∃ earlier last slot, Event.accesses before = earlier ++ [last] ∧
      slot ∈ (bus.replay earlier).slots ∧ Block.runningWarning ∈ slot.lines last ∧
      slot.start ≠ loader.base ∧
      (last = .reset ∨ Released loader image applier bus (earlier ++ [last])) ∧
      ∀ other, slot.device = .inl other →
        ∃ value, last = .write (slot.start + Register.data.offset) value := by
  rcases (loader.drives_program name image applier retries).line_split (s := bus)
    carries.ordered split with own | ⟨earlier, last, accesses, ofBus | ⟨slot, member, warned⟩⟩
  · exact absurd own Block.runningWarning_not_own
  · exact absurd ofBus Block.runningWarning_not_ofBus
  have issued : Event.accesses (loader.program name image applier retries bus).events =
      earlier ++ last :: Event.accesses after := by
    rw [split, Event.accesses_append, accesses, List.append_assoc]
    rfl
  have now := carries.replay earlier
  -- the block of the session is held whenever a data write comes to it
  have other : slot ≠ Block.slot δ loader.base (block.replay loader.base earlier) := by
    rintro rfl
    obtain ⟨running, value, rfl⟩ := Block.warned_by_slot rfl warned
    rw [program_held carries issued (by simp [Block.isDataWrite, Block.slot]),
      Block.holds_resetBit] at running
    cases running
  refine ⟨earlier, last, slot, accesses, member, warned, now.start_ne member other, ?_,
    fun _ device => (Block.warned_by_slot device warned).2⟩
  refine (program_inside carries issued).imp_left ?_
  rintro (reset | ⟨address, value, rfl, spans⟩)
  · exact reset
  · have covers : slot.covers address := by
      by_contra missed
      simp [Slot.lines, missed] at warned
    exact absurd spans (now.outside member other covers)

theorem program_failed (carries : Carries loader.base block bus) {retries : UInt32} {e : LoadError}
    (failed : (loader.program name image applier retries bus).value = .error e) :
    (block.replay loader.base
      (Event.accesses (loader.program name image applier retries bus).events)).control =
        Block.resetBit := by
  obtain ⟨lead, _, held, ⟨_, _, accesses⟩ | ⟨earlier, number, rfl, completes⟩⟩ :=
    program_lead carries name image applier retries
  · rw [accesses]
    exact held
  · have value := completes.value.symm.trans failed
    rw [completes.accesses, script, ← List.append_assoc, Block.replay_append]
    have filled := carries.replay (earlier ++ loader.entriesScript image.entries)
    unfold controlResult at value
    unfold controlAccesses
    cases control : image.control with
    | none => simp [control, Except.mapError] at value
    | some word =>
      cases reaches : HostSink.address? loader.base applier.controlAddress with
      | error cause => exact held
      | ok register =>
        simp only [control, reaches] at value ⊢
        refine (HostSink.control_of_refused filled reaches ?_).trans held
        intro accepted
        rw [Bus.replay_append] at accepted
        simp [accepted, Except.mapError] at value

/-- The fabric of a session runs during a load only while its chain is empty, or after the control
word of the image and all its entries before. Every data write finds it held, and nothing but the
control word is written elsewhere; so a block that warns of a running fabric is another one, to whose
data register the control word has come. A load that fails leaves the fabric held and nothing else in
the control register. -/
theorem program_guarded (reached : Reached settings loader bus events) (name : String)
    (image : Image) (applier : Applier) (retries : UInt32) :
    let run := loader.program name image applier retries bus
    let accesses := Event.accesses run.events
    run.state = bus.replay accesses ∧
    (∀ before after, accesses = before ++ after → .reset ∈ before →
      ∃ block, Carries loader.base block (bus.replay before) ∧
        (Block.holds block.control = false →
          block.chain = [] ∨ Released loader image applier bus before)) ∧
    (∀ before address value after, accesses = before ++ .write address value :: after →
      ∃ block, Carries loader.base block (bus.replay before) ∧
        (address = loader.base + 0x10 → Block.holds block.control = true) ∧
        (Block.spans loader.base address ∨
          Released loader image applier bus (before ++ [.write address value]))) ∧
    (∀ before after, run.events = before ++ .line Block.runningWarning :: after →
      ∃ earlier last slot, Event.accesses before = earlier ++ [last] ∧
        slot ∈ (bus.replay earlier).slots ∧ Block.runningWarning ∈ slot.lines last ∧
        slot.start ≠ loader.base ∧
        (last = .reset ∨ Released loader image applier bus (earlier ++ [last])) ∧
        ∀ other, slot.device = .inl other → ∃ value, last = .write (slot.start + 0x10) value) ∧
    (∀ e, run.value = .error e →
      ∃ block, Carries loader.base block run.state ∧ block.control = 0x40000000) := by
  intro run accesses
  obtain ⟨block, carries, _⟩ := reached.carriesBlock
  have final : run.state = bus.replay accesses :=
    loader.replayed_program name image applier retries bus
  refine ⟨final, ?_, ?_, fun before after split => program_warned carries split, ?_⟩
  · intro before after split reset
    refine ⟨_, carries.replay before, fun running => ?_⟩
    obtain ⟨init, a, rfl⟩ :=
      (List.eq_nil_or_concat before).resolve_left (List.ne_nil_of_mem reset)
    rw [List.concat_eq_append] at split running ⊢
    rw [List.append_assoc, List.singleton_append] at split
    rw [Block.replay_append] at running ⊢
    rcases program_access carries split with guarded | ⟨_, released⟩
    · rcases guarded.safe with held | empty
      · exact absurd (held.symm.trans running) (by decide)
      · exact .inl empty
    · exact .inr released
  · intro before address value after split
    refine ⟨_, carries.replay before, ?_⟩
    constructor
    · rintro rfl
      rw [program_held carries split (by simp [Block.isDataWrite, Register.offset])]
      exact Block.holds_resetBit
    · refine (program_inside carries split).imp_left ?_
      rintro (reset | ⟨_, _, ⟨⟩, spans⟩)
      · cases reset
      · exact spans
  · intro e failed
    refine ⟨block.replay loader.base accesses, ?_, program_failed carries failed⟩
    rw [final]
    exact carries.replay accesses

/-- A load that is refused at its second entry and may not start again. -/
theorem program_guarded_twoEntries : ∃ (loader : Loader) (bus : SessionBus Block)
    (events : List Event), Reached refusingSecond loader bus events ∧
    let run := loader.program "two" twoEntries ⟨0⟩ 0 bus
    run.value = .error (.apply "two" 1 (.entryWrite 1 (.rejected 0x10))) ∧
    ∃ block, Carries 0 block run.state ∧ block.control = 0x40000000 := by
  have began := start_ok (δ := Block) (show 0 < refusingSecond.block.depth by decide) (by decide) ⟨[]⟩
  have refused := (program_refused "two" ⟨0⟩ (start_carries began).2.2
    (show (Block.new 8 (some 1)).refusal? twoEntries.size = some 1 from rfl)).1
  have reached := Reached.start began
  obtain ⟨_, _, _, _, failed⟩ := program_guarded reached "two" twoEntries ⟨0⟩ 0
  exact ⟨_, _, _, reached, refused, failed _ refused⟩

def oneEntry : Image := ⟨[⟨1, 2⟩], 32, some 1, by decide⟩

/-- A control word may reach the data register of another block on the bus. That block warns, since
nothing has held it. -/
theorem other_block_warns : ∃ (loader : Loader) (bus : SessionBus Block) (events : List Event),
    Reached ⟨.standard, none, []⟩ loader bus events ∧
    .line Block.runningWarning ∈ (loader.program "one" oneEntry ⟨0x50⟩ 0 bus).events := by
  have began := start_ok (δ := Block)
    (show 0 < (⟨.standard, none, []⟩ : Settings).block.depth by decide) (by decide) ⟨[]⟩
  have reached := Reached.step (Reached.start began) (.mount 0x40 (.inl (Block.new 8 none)))
    (show (0x40 : UInt32) ≠ 0 by decide)
  exact ⟨_, _, _, reached, by decide +kernel⟩

end Loader
end FabricLoader
