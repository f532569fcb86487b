import FabricLoader.Proofs.Loader.Retry
import FabricLoader.Proofs.Sink.Host

/-! How many host writes a load issues. A write counts once it is sent to the bus, whatever becomes
of it there; a control word without an address on the bus is never sent. So what an attempt costs can
be told from its end, and a load costs what its attempts do. -/
namespace FabricLoader

theorem Block.writes_streamAccesses (base : UInt32) (entries : List Entry) :
    (Block.streamAccesses base entries).countP Access.isWrite = 2 * entries.length := by
  induction entries with
  | nil => rfl
  | cons e rest ih =>
    rw [Block.streamAccesses_cons, List.countP_append, ih, List.length_cons]
    change 2 + 2 * rest.length = 2 * (rest.length + 1)
    omega

namespace Loader
variable {δ : Type} [Peripheral δ] {settings : Settings} {loader : Loader} {bus : SessionBus δ}
  {block : Block} {events : List Event} {name : String} {image : Image} {applier : Applier}

/-- The host writes of an attempt at an image, by how it ended: one to hold the block, two for each
entry that was tried, and one for the control word of the image if it was sent. -/
def attemptWrites (loader : Loader) (image : Image) (applier : Applier) :
    Except ApplyError ApplyReport → Nat
  | .ok _ => if image.control.isSome then 1 + 2 * image.size + 1 else 1 + 2 * image.size
  | .error (.entryWrite i _) => 1 + 2 * (i + 1)
  | .error (.controlWrite _ _) =>
    if loader.base.toNat + applier.controlAddress.toNat < UInt32.size then 1 + 2 * image.size + 1
    else 1 + 2 * image.size
  | .error (.cancelled i) => 1 + 2 * i

theorem writes_entriesScript (loader : Loader) (entries : List Entry) :
    (loader.entriesScript entries).countP Access.isWrite = 1 + 2 * entries.length := by
  simp [entriesScript, List.countP_cons, Access.isWrite, Block.writes_streamAccesses, Nat.add_comm]

/-- A first part of the entries that ends at the entry `i`. -/
theorem writes_refused {i : Nat} (inside : i < image.size) :
    (loader.entriesScript (image.entries.take (i + 1))).countP Access.isWrite =
      1 + 2 * (i + 1) := by
  rw [writes_entriesScript, List.length_take_of_le inside]

/-- A whole attempt costs what its end says, whatever the bus answers to the control word. -/
theorem writes_script (bus : SessionBus δ) :
    (loader.script image applier).countP Access.isWrite =
      loader.attemptWrites image applier (loader.controlResult image applier bus) := by
  rw [script, List.countP_append, writes_entriesScript]
  change 1 + 2 * image.size + _ = _
  unfold controlAccesses controlResult
  cases control : image.control with
  | none => simp [attemptWrites, control]
  | some word =>
    by_cases room : loader.base.toNat + applier.controlAddress.toNat < UInt32.size
    · simp only [HostSink.address?_inside room]
      cases (Bus.write (loader.base + applier.controlAddress) word bus).value with
      | ok => simp [attemptWrites, control, Access.isWrite]
      | error cause => exact (if_pos room).symm
    · simp only [HostSink.address?_outside (Nat.le_of_not_lt room)]
      exact (if_neg room).symm

theorem Completes.hostWrites {before : List Access} {number : Nat}
    {run : Outcome Event (SessionBus δ) (Except LoadError ApplyReport)}
    (completes : Completes loader name image applier bus before number run) :
    Event.hostWrites run.events = before.countP Access.isWrite +
      loader.attemptWrites image applier (loader.controlResult image applier
        (bus.replay (before ++ loader.entriesScript image.entries))) := by
  rw [Event.hostWrites_eq_countP, completes.accesses, List.countP_append,
    writes_script (bus.replay (before ++ loader.entriesScript image.entries))]

/-- How an attempt at an image may end: with all entries and the control word of the image reported,
at one of its entries, or at its control word. A word without an address fails for this reason. -/
structure AttemptEnd (loader : Loader) (image : Image) (applier : Applier)
    (ended : Except ApplyError ApplyReport) : Prop where
  report : ∀ report, ended = .ok report → report = ⟨image.size, image.control.isSome⟩
  entry : ∀ i cause, ended = .error (.entryWrite i cause) → i < image.size
  control : ∀ n cause, ended = .error (.controlWrite n cause) → n = image.size ∧
    image.control.isSome ∧ (UInt32.size ≤ loader.base.toNat + applier.controlAddress.toNat →
      cause = .outOfSpace applier.controlAddress loader.base)
  completes : ∀ i, ended ≠ .error (.cancelled i)

/-- Behind the entries an attempt can only fail at the control word. -/
theorem attemptEnd_controlResult (bus : SessionBus δ) :
    loader.AttemptEnd image applier (loader.controlResult image applier bus) := by
  rcases loader.controlResult_cases image applier bus with accepted | ⟨cause, refused⟩
  · rw [accepted]
    exact ⟨fun _ same => (Except.ok.inj same).symm, nofun, nofun, nofun⟩
  · rw [refused]
    refine ⟨nofun, nofun, ?_, nofun⟩
    rintro n cause ⟨⟩
    refine ⟨rfl, ?_⟩
    unfold controlResult at refused
    cases control : image.control with
    | none => simp [control] at refused
    | some word =>
      refine ⟨rfl, fun past => ?_⟩
      simpa [control, HostSink.address?_outside past, eq_comm] using refused

/-- In any state of a session, a load adds to the host writes so far those of its attempts. If the
first one ends at an entry and may be repeated, its writes come first; the last one, whose end is
that of the load, is then the second. -/
theorem program_hostWrites (reached : Reached settings loader bus events) (name : String)
    (image : Image) (applier : Applier) (retries : UInt32) :
    let first := (loader.attempt name image applier 1 (bus.replay (loader.entriesScript []))).value
    let run := loader.program name image applier retries bus
    ∃ (restarted : Option Nat) (last : Except ApplyError ApplyReport),
      (∀ i, restarted = some i ↔ retries ≠ 0 ∧ ∃ cause, first = .error (.entryWrite i cause)) ∧
      (restarted = none → last = first) ∧
      run.value = last.mapError (.apply name (if restarted.isSome then 2 else 1)) ∧
      loader.AttemptEnd image applier last ∧
      Event.hostWrites (events ++ run.events) = Event.hostWrites events +
        ((restarted.elim 0 fun i => 1 + 2 * (i + 1)) + loader.attemptWrites image applier last) := by
  intro first run
  obtain ⟨block, carries, _⟩ := reached.carriesBlock
  simp only [Event.hostWrites_append, Nat.add_left_cancel_iff]
  -- whether an entry will be refused, and which one, is settled by the block before the load begins
  cases pending : block.refusal? image.size with
  | none =>
    have completes : Completes loader name image applier bus [] 1 run :=
      program_accepted name applier carries pending retries
    have tried : first = loader.controlResult image applier
        (bus.replay (loader.entriesScript image.entries)) := by
      rw [entriesScript_eq_append, Bus.replay_append]
      exact (attempt_accepted name applier (carries_held carries) pending 1).1
    refine ⟨none, _, fun i => ?_, fun _ => tried.symm, completes.value, attemptEnd_controlResult _,
      completes.hostWrites⟩
    refine ⟨fun none => (by cases none), fun ⟨_, cause, refused⟩ => ?_⟩
    rcases loader.controlResult_cases image applier
      (bus.replay (loader.entriesScript image.entries)) with ends | ⟨_, ends⟩
    · cases ends.symm.trans (tried.symm.trans refused)
    · cases ends.symm.trans (tried.symm.trans refused)
  | some i =>
    have inside := (Block.refusal?_eq_some_iff.mp pending).2.1
    have tried : first = .error (.entryWrite i (.rejected Register.data.offset)) :=
      (attempt_refused name applier (carries_held carries) pending 1).1
    by_cases final : retries = 0
    · subst final
      obtain ⟨value, accesses⟩ := program_refused name applier carries pending
      refine ⟨none, first, fun j => ?_, fun _ => rfl, ?_, ?_, ?_⟩
      · exact ⟨fun none => (by cases none), fun ⟨again, _⟩ => absurd rfl again⟩
      · rw [tried]
        exact value
      · rw [tried]
        refine ⟨nofun, ?_, nofun, nofun⟩
        rintro _ _ ⟨⟩
        exact inside
      · rw [Event.hostWrites_eq_countP, tried]
        exact (congrArg (List.countP Access.isWrite) accesses).trans
          ((writes_refused inside).trans (Nat.zero_add _).symm)
    · have completes : Completes loader name image applier bus
          (loader.entriesScript (image.entries.take (i + 1))) 2 run :=
        program_restarted name applier carries pending final
      refine ⟨some i, _, fun j => ?_, fun none => (by cases none), completes.value,
        attemptEnd_controlResult _, ?_⟩
      · rw [tried]
        constructor
        · rintro ⟨⟩
          exact ⟨final, _, rfl⟩
        · rintro ⟨_, cause, ⟨⟩⟩
          rfl
      · rw [completes.hostWrites, writes_refused inside]
        rfl

/-- A restart at the second of two entries, and then a control word for which there is no device: five
writes for the first attempt and six for the second. -/
theorem program_hostWrites_unmapped :
    let image : Image := ⟨[⟨1, 10⟩, ⟨2, 20⟩], 32, some 9, by decide⟩
    ∃ (loader : Loader) (bus : SessionBus Empty) (events : List Event),
      Reached refusingSecond loader bus events ∧
      let run := loader.program "two" image ⟨0x40⟩ 1 bus
      run.value = .error (.apply "two" 2 (.controlWrite 2 (.unmapped 0x40))) ∧
      Event.hostWrites (events ++ run.events) = Event.hostWrites events + (5 + 6) := by
  intro image
  have began := start_ok (δ := Empty) (show 0 < refusingSecond.block.depth by decide) (by decide) ⟨[]⟩
  have reached := Reached.start began
  obtain ⟨restarted, last, restart, _, value, _, grown⟩ :=
    program_hostWrites reached "two" image ⟨0x40⟩ 1
  obtain rfl : restarted = some 1 :=
    (restart 1).mpr ⟨by decide, .rejected 0x10, by decide +kernel⟩
  refine ⟨_, _, _, reached, by decide +kernel, grown.trans ?_⟩
  have ended : Except.error (.apply "two" 2 (.controlWrite 2 (.unmapped 0x40))) =
      last.mapError (LoadError.apply "two" 2) := Eq.trans (by decide +kernel) value
  cases last with
  | ok report => cases ended
  | error e =>
    cases ended
    rfl

end Loader
end FabricLoader
