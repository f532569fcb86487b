import FabricLoader.Proofs.Apply.Simulation
import FabricLoader.Proofs.Loader.Carries

/-! What an attempt does, access by access. The refusal that lies ahead of the block decides how far
the entries get; the control word comes only after all of them. From this follows what all attempts
of a load do: a second one is made only after a refusal, and it meets no further one. -/
namespace FabricLoader

namespace HostSink
variable {δ : Type} [Peripheral δ] {base offset : UInt32} {block : Block}
  {sink : HostSink (Block ⊕ δ)}

theorem address?_eq_ok (fits : Block.Fits base) (inside : offset.toNat < 0x40) :
    address? base offset = .ok (base + offset) := by
  simp only [Block.Fits] at fits
  rw [address?, if_pos (by omega)]

/-- An entry is two accesses, of which only the second can be refused. -/
theorem writeEntry_run (carries : Carries sink.base block sink.bus) (e : Entry) :
    (writeEntry e.address e.value sink).value =
      (if block.refuses then .error (.rejected Register.data.offset) else .ok ()) ∧
    Event.accesses (writeEntry e.address e.value sink).events = Block.entryAccesses sink.base e ∧
    (writeEntry e.address e.value sink).state.base = sink.base := by
  have selects : (Bus.write (sink.base + Register.selector.offset) e.address sink.bus).value = .ok () := by
    rw [carries.write_value (by decide)]
    exact (Block.write_other (by decide) _ _).1
  have pushes := (carries.access (.write (sink.base + Register.selector.offset) e.address)).write_value
    (show Register.data.offset.toNat < 0x40 by decide) e.value
  rw [Block.access_write carries.fits (by decide), Block.write_selector_state, Block.write_data] at pushes
  simp only [Bus.access] at pushes
  simp only [writeEntry, Action.bind_apply, Action.state_apply,
    address?_eq_ok carries.fits (show Register.selector.offset.toNat < 0x40 by decide),
    address?_eq_ok carries.fits (show Register.data.offset.toNat < 0x40 by decide),
    busWrite, Action.onPart_apply, selects, Event.accesses_append, Bus.accesses_write]
  exact ⟨pushes.trans (Block.push_value e.value _), rfl, trivial⟩

/-- The control word is one access, or none if its address would lie past the last one. -/
theorem writeControl_run (sink : HostSink (Block ⊕ δ)) (address value : UInt32) :
    (writeControl address value sink).value =
      (match address? sink.base address with
        | .ok register => (Bus.write register value sink.bus).value
        | .error cause => .error cause) ∧
    Event.accesses (writeControl address value sink).events =
      (match address? sink.base address with
        | .ok register => [.write register value]
        | .error _ => []) := by
  simp only [writeControl, Action.bind_apply, Action.state_apply]
  cases address? sink.base address with
  | error cause => exact ⟨rfl, rfl⟩
  | ok register => exact ⟨rfl, Bus.accesses_write register value⟩

end HostSink

namespace Traced
variable {δ : Type} [Peripheral δ] {block : Block} {sink : Traced (HostSink (Block ⊕ δ))}

theorem write_run (carries : Carries sink.inner.base block sink.inner.bus) (e : Entry) :
    (RegisterSink.write e.address e.value sink).value =
      (if block.refuses then .error (.rejected Register.data.offset) else .ok ()) ∧
    Event.accesses (RegisterSink.write e.address e.value sink).events =
      Block.entryAccesses sink.inner.base e ∧
    (RegisterSink.write e.address e.value sink).state.inner.base = sink.inner.base :=
  HostSink.writeEntry_run carries e

theorem drives_write (address value : UInt32) :
    Drives (fun sink : Traced (HostSink (Block ⊕ δ)) => sink.inner.bus)
      (RegisterSink.write address value) :=
  drives_through (HostSink.drives_writeEntry address value) _ _ _

theorem carries_write (carries : Carries sink.inner.base block sink.inner.bus) (e : Entry) :
    let after := (RegisterSink.write e.address e.value sink).state
    Carries after.inner.base
      (block.replay sink.inner.base (Block.entryAccesses sink.inner.base e)) after.inner.bus := by
  obtain ⟨_, accesses, base⟩ := write_run carries e
  have replayed : (RegisterSink.write e.address e.value sink).state.inner.bus =
      sink.inner.bus.replay (Block.entryAccesses sink.inner.base e) :=
    accesses ▸ (drives_write e.address e.value).replayed sink
  simp only [base, replayed]
  exact carries.replay _

end Traced

namespace Applier

variable {δ : Type} [Peripheral δ] {block : Block} {entries : List Entry}

theorem stream_accepted (sink : Traced (HostSink (Block ⊕ δ)))
    (carries : Carries sink.inner.base block sink.inner.bus)
    (accepts : block.refusal? entries.length = none) (index : Nat) :
    let run := stream (fun _ _ => false) index entries sink
    run.value = .ok () ∧
    Event.accesses run.events = Block.streamAccesses sink.inner.base entries ∧
    run.state.inner.base = sink.inner.base := by
  induction entries generalizing block sink index with
  | nil => exact ⟨rfl, rfl, rfl⟩
  | cons e rest ih =>
    rw [List.length_cons] at accepts
    have accepted : block.refuses = false :=
      Block.accepts_of_refusal? (n := rest.length) (by simp [accepts])
    obtain ⟨value, accesses, base⟩ := Traced.write_run carries e
    rw [if_neg (by simp [accepted])] at value
    have later := (Block.refusal?_entry carries.fits accepted e).symm.trans accepts
    obtain ⟨laterValue, laterAccesses, laterBase⟩ :=
      ih _ (Traced.carries_write carries e) (Option.map_eq_none_iff.mp later) (index + 1)
    simp only [stream_cons, value]
    refine ⟨laterValue, ?_, laterBase.trans base⟩
    rw [Event.accesses_append, accesses, laterAccesses, base]
    rfl

theorem stream_refused {i : Nat} (sink : Traced (HostSink (Block ⊕ δ)))
    (carries : Carries sink.inner.base block sink.inner.bus)
    (refusal : block.refusal? entries.length = some i) (index : Nat) :
    let run := stream (fun _ _ => false) index entries sink
    run.value = .error (.entryWrite (index + i) (.rejected Register.data.offset)) ∧
    Event.accesses run.events = Block.streamAccesses sink.inner.base (entries.take (i + 1)) := by
  induction entries generalizing block sink index i with
  | nil => exact absurd (Block.refusal?_eq_some_iff.mp refusal).2.1 (by simp)
  | cons e rest ih =>
    obtain ⟨value, accesses, base⟩ := Traced.write_run carries e
    cases i with
    | zero =>
      rw [if_pos (Block.refuses_iff_refusal?.mpr refusal)] at value
      simp only [stream_cons, value]
      refine ⟨rfl, ?_⟩
      rw [Event.accesses_append, accesses]
      rfl
    | succ i =>
      rw [List.length_cons] at refusal
      have accepted : block.refuses = false :=
        Block.accepts_of_refusal? (n := rest.length) (by simp [refusal])
      rw [if_neg (by simp [accepted])] at value
      have later := (Block.refusal?_entry carries.fits accepted e).symm.trans refusal
      obtain ⟨laterValue, laterAccesses⟩ :=
        ih _ (Traced.carries_write carries e) (by simpa using later) (index + 1)
      simp only [stream_cons, value]
      refine ⟨by rw [laterValue, Nat.add_right_comm, Nat.add_assoc], ?_⟩
      rw [Event.accesses_append, accesses, laterAccesses, base]
      rfl

end Applier

namespace Loader
variable {δ : Type} [Peripheral δ] (loader : Loader) (name : String) (image : Image)
  (applier : Applier)

/-- The accesses of an attempt up to some entries: the block is reset and held before the first. -/
def entriesScript (entries : List Entry) : List Access :=
  .reset :: .write (loader.base + Register.control.offset) Block.resetBit ::
    Block.streamAccesses loader.base entries

/-- The access of the control word, if there is a word and an address for it. -/
def controlAccesses : List Access :=
  match image.control, HostSink.address? loader.base applier.controlAddress with
  | some value, .ok register => [.write register value]
  | _, _ => []

def script : List Access :=
  loader.entriesScript image.entries ++ loader.controlAccesses image applier

/-- How an attempt ends that has every entry in place on the bus. -/
def controlResult (bus : SessionBus δ) : Except ApplyError ApplyReport :=
  match image.control with
  | none => .ok ⟨image.size, false⟩
  | some value =>
    match HostSink.address? loader.base applier.controlAddress with
    | .error cause => .error (.controlWrite image.size cause)
    | .ok register =>
      match (Bus.write register value bus).value with
      | .ok () => .ok ⟨image.size, true⟩
      | .error cause => .error (.controlWrite image.size cause)

variable {block : Block} {bus : SessionBus δ}

theorem controlResult_cases (bus : SessionBus δ) :
    loader.controlResult image applier bus = .ok ⟨image.size, image.control.isSome⟩ ∨
    ∃ cause, loader.controlResult image applier bus = .error (.controlWrite image.size cause) := by
  unfold controlResult
  cases image.control with
  | none => exact .inl rfl
  | some value =>
    cases HostSink.address? loader.base applier.controlAddress with
    | error cause => exact .inr ⟨cause, rfl⟩
    | ok register =>
      dsimp only
      cases (Bus.write register value bus).value with
      | ok => exact .inl rfl
      | error cause => exact .inr ⟨cause, rfl⟩

variable {loader image applier}

theorem report_of_ok {report : ApplyReport}
    (loads : loader.controlResult image applier bus = .ok report) :
    report = ⟨image.size, image.control.isSome⟩ := by
  rcases loader.controlResult_cases image applier bus with accepted | ⟨cause, refused⟩
  · exact Except.ok.inj (loads.symm.trans accepted)
  · cases loads.symm.trans refused

variable (applier)

theorem attempt_value (number : Nat) : (loader.attempt name image applier number bus).value =
    (applier.apply image (loader.tracedSink name bus)).value := rfl

theorem attempt_accesses (number : Nat) :
    Event.accesses (loader.attempt name image applier number bus).events =
      Event.accesses (applier.apply image (loader.tracedSink name bus)).events := by
  simp only [attempt, Action.bind_apply, Action.around_apply, Event.accesses_append]
  exact List.append_nil _

theorem attempt_accepted (carries : Carries loader.base block bus)
    (accepts : block.refusal? image.size = none) (number : Nat) :
    let run := loader.attempt name image applier number bus
    run.value = loader.controlResult image applier
      (bus.replay (Block.streamAccesses loader.base image.entries)) ∧
    Event.accesses run.events = Block.streamAccesses loader.base image.entries ++
      loader.controlAccesses image applier := by
  have streamed := Applier.stream_accepted (loader.tracedSink name bus) carries accepts 0
  have replayed := (Applier.drives_stream Traced.drives_write (fun _ _ => false) image.entries
    0).replayed (loader.tracedSink name bus)
  simp only [attempt_value, attempt_accesses, Applier.apply_apply]
  generalize Applier.stream (fun _ _ => false) 0 image.entries (loader.tracedSink name bus) = run
    at streamed replayed ⊢
  obtain ⟨value, accesses, base⟩ := streamed
  rw [accesses] at replayed
  simp only [value, controlResult, controlAccesses]
  cases image.control with
  | none => exact ⟨rfl, accesses.trans (List.append_nil _).symm⟩
  | some word =>
    obtain ⟨wrote, issued⟩ := HostSink.writeControl_run run.state.inner applier.controlAddress word
    have target : run.state.inner.base = loader.base := base
    have reached : run.state.inner.bus =
      bus.replay (Block.streamAccesses loader.base image.entries) := replayed
    rw [target, reached] at wrote
    rw [target] at issued
    have answer : (RegisterSink.writeControl applier.controlAddress word run.state).value = _ := wrote
    have left : Event.accesses
      (RegisterSink.writeControl applier.controlAddress word run.state).events = _ := issued
    simp only [answer, Event.accesses_append, accesses, left]
    cases HostSink.address? loader.base applier.controlAddress <;> exact ⟨rfl, rfl⟩

theorem attempt_refused {i : Nat} (carries : Carries loader.base block bus)
    (refusal : block.refusal? image.size = some i) (number : Nat) :
    let run := loader.attempt name image applier number bus
    run.value = .error (.entryWrite i (.rejected Register.data.offset)) ∧
    Event.accesses run.events = Block.streamAccesses loader.base (image.entries.take (i + 1)) := by
  obtain ⟨value, accesses⟩ :=
    Applier.stream_refused (loader.tracedSink name bus) carries refusal 0
  simp only [attempt_value, attempt_accesses, Applier.apply_apply, value]
  exact ⟨by rw [Nat.zero_add], accesses⟩

/-- Holding the block in reset never fails, so the first attempt is made. -/
theorem attempts_apply (carries : Carries loader.base block bus) (number left : Nat) :
    ∃ before : List Event, Event.accesses before = loader.entriesScript [] ∧
    loader.attempts name image applier number left bus =
      let tried := loader.attempt name image applier number (bus.replay (loader.entriesScript []))
      match tried.value, left with
      | .ok report, _ => ⟨.ok report, tried.state, before ++ (tried.events ++ [.line ⟨.info,
          s!"Loaded image={name} entries={report.entries} control={report.control}"⟩])⟩
      | .error (.entryWrite index cause), fewer + 1 =>
        let e := ApplyError.entryWrite index cause
        let later := loader.attempts name image applier (number + 1) fewer tried.state
        ⟨later.value, later.state, before ++ (tried.events ++ (.line ⟨.warn,
          s!"{name} attempt {number}/{number + fewer + 1} failed: {e.message}. " ++
          "Restarting from entry 0"⟩ :: later.events))⟩
      | .error e, _ => ⟨.error (.apply name number e), tried.state, before ++ tried.events⟩ := by
  have holds : (Bus.write (loader.base + Register.control.offset) Block.resetBit
      (Bus.reset bus).state).value = .ok () :=
    ((carries.access .reset).write_value (by decide) _).trans (Block.write_other (by decide) _ _).1
  refine ⟨(Bus.reset bus).events ++ (Bus.write (loader.base + Register.control.offset)
    Block.resetBit (Bus.reset bus).state).events, ?_, ?_⟩
  · rw [Event.accesses_append, Bus.accesses_reset, Bus.accesses_write]
    rfl
  · have ready : bus.replay (loader.entriesScript []) =
      (Bus.write (loader.base + Register.control.offset) Block.resetBit (Bus.reset bus).state).state := rfl
    rw [attempts, ready]
    simp only [Action.bind_apply, holds]
    generalize loader.attempt name image applier number (Bus.write (loader.base +
      Register.control.offset) Block.resetBit (Bus.reset bus).state).state = tried
    cases tried.value with
    | ok report => simp [Action.log]
    | error e =>
      cases e with
      | entryWrite index cause => cases left <;> simp [Action.log]
      | controlWrite | cancelled => simp

/-- Before its entries an attempt holds the block, whatever state it was in. -/
theorem replay_entriesScript (fits : Block.Fits loader.base) (block : Block)
    (entries : List Entry) : block.replay loader.base (loader.entriesScript entries) =
      block.held.replay loader.base (Block.streamAccesses loader.base entries) := by
  simp only [entriesScript, Block.replay_cons]
  rw [Block.access_write fits (by decide), Block.write_control_state]
  rfl

theorem carries_held (carries : Carries loader.base block bus) :
    Carries loader.base block.held (bus.replay (loader.entriesScript [])) := by
  have held := carries.replay (loader.entriesScript [])
  rwa [replay_entriesScript carries.fits] at held

theorem failed_of_refused {i : Nat} (fits : Block.Fits loader.base)
    (refusal : block.refusal? image.size = some i) :
    (block.replay loader.base (loader.entriesScript (image.entries.take (i + 1)))).failed = true := by
  rw [replay_entriesScript fits]
  exact Block.failed_of_refusal? fits (Block.refusal?_held.trans refusal)

theorem entriesScript_eq_append (entries : List Entry) : loader.entriesScript entries =
    loader.entriesScript [] ++ Block.streamAccesses loader.base entries := rfl

/-- Without a refusal ahead the first attempt gets to the control word and is the only one. -/
theorem attempts_accepted (carries : Carries loader.base block bus)
    (accepts : block.refusal? image.size = none) (number left : Nat) :
    let run := loader.attempts name image applier number left bus
    run.value = (loader.controlResult image applier
      (bus.replay (loader.entriesScript image.entries))).mapError (.apply name number) ∧
    Event.accesses run.events = loader.script image applier := by
  obtain ⟨value, accesses⟩ := attempt_accepted name applier (carries_held carries) accepts number
  obtain ⟨before, issued, opened⟩ := attempts_apply name applier carries number left
  rw [opened, script, entriesScript_eq_append image.entries, Bus.replay_append]
  simp only [value]
  rcases loader.controlResult_cases image applier
    ((bus.replay (loader.entriesScript [])).replay (Block.streamAccesses loader.base image.entries))
    with ends | ⟨cause, ends⟩
  · refine ⟨by rw [ends]; rfl, ?_⟩
    simp only [ends, Event.accesses_append, issued, accesses]
    simp [Event.accesses]
  · refine ⟨by rw [ends]; rfl, ?_⟩
    simp only [ends, Event.accesses_append, issued, accesses]
    simp

/-- An attempt with a refusal ahead of it and none left after it is the last. -/
theorem attempts_refused {i : Nat} (carries : Carries loader.base block bus)
    (refusal : block.refusal? image.size = some i) (number : Nat) :
    let run := loader.attempts name image applier number 0 bus
    run.value = .error (.apply name number (.entryWrite i (.rejected Register.data.offset))) ∧
    Event.accesses run.events = loader.entriesScript (image.entries.take (i + 1)) := by
  obtain ⟨value, accesses⟩ := attempt_refused name applier (carries_held carries) refusal number
  obtain ⟨before, issued, opened⟩ := attempts_apply name applier carries number 0
  rw [opened]
  simp only [value, Event.accesses_append, issued, accesses]
  exact ⟨trivial, rfl⟩

/-- After a refusal there is none ahead, so the second attempt is the last. -/
theorem attempts_restarted {i : Nat} (carries : Carries loader.base block bus)
    (refusal : block.refusal? image.size = some i) (number left : Nat) :
    let run := loader.attempts name image applier number (left + 1) bus
    let again := loader.entriesScript (image.entries.take (i + 1))
    run.value = (loader.controlResult image applier
      (bus.replay (again ++ loader.entriesScript image.entries))).mapError (.apply name (number + 1)) ∧
    Event.accesses run.events = again ++ loader.script image applier := by
  obtain ⟨value, accesses⟩ := attempt_refused name applier (carries_held carries) refusal number
  obtain ⟨before, issued, opened⟩ := attempts_apply name applier carries number (left + 1)
  have replayed : (loader.attempt name image applier number
      (bus.replay (loader.entriesScript []))).state =
      bus.replay (loader.entriesScript (image.entries.take (i + 1))) := by
    rw [entriesScript_eq_append (image.entries.take (i + 1)), Bus.replay_append, ← accesses]
    exact loader.replayed_attempt name image applier number _
  have carriesAgain := carries.replay (loader.entriesScript (image.entries.take (i + 1)))
  have accepts := Block.refusal?_of_failed (n := image.size) (failed_of_refused carries.fits refusal)
  obtain ⟨laterValue, laterAccesses⟩ := attempts_accepted name applier
    carriesAgain accepts (number + 1) left
  rw [opened]
  simp only [value, replayed]
  refine ⟨by rw [laterValue, Bus.replay_append], ?_⟩
  rw [Event.accesses_append, Event.accesses_append, issued, accesses, ← laterAccesses]
  simp [entriesScript, Event.accesses]

end Loader
end FabricLoader
