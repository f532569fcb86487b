import FabricLoader.Proofs.Loader.Attempts
import FabricLoader.Proofs.Loader.Session

/-! What a load does in any state that a session can be in. The block counts the data writes since
power-on, and its one refusal lies at a fixed ordinal among them; so the accesses so far decide
whether the load meets the refusal, and at which entry. -/
namespace FabricLoader

namespace Carries
variable {δ : Type} [Peripheral δ] {base : UInt32} {block : Block} {bus : SessionBus δ}

theorem accepts_entry (carries : Carries base block bus) (accepted : block.refuses = false)
    (e : Entry) : bus.Accepts (Block.entryAccesses base e) := by
  have selects : (Bus.write (base + Register.selector.offset) e.address bus).value = .ok () := by
    rw [carries.write_value (by decide)]
    exact (Block.write_other (by decide) _ _).1
  have pushes := (carries.access (.write (base + Register.selector.offset) e.address)).write_value
    (show Register.data.offset.toNat < 0x40 by decide) e.value
  rw [Block.access_write carries.fits (by decide), Block.write_selector_state, Block.write_data,
    Block.push_value, if_neg (by simpa [Block.refuses] using accepted)] at pushes
  exact ⟨selects, pushes, trivial⟩

theorem accepts_stream {entries : List Entry} (carries : Carries base block bus)
    (accepts : block.refusal? entries.length = none) :
    bus.Accepts (Block.streamAccesses base entries) := by
  induction entries generalizing block bus with
  | nil => trivial
  | cons e rest ih =>
    rw [List.length_cons] at accepts
    have accepted : block.refuses = false :=
      Block.accepts_of_refusal? (n := rest.length) (by simp [accepts])
    have later := (Block.refusal?_entry carries.fits accepted e).symm.trans accepts
    rw [Block.streamAccesses_cons, Bus.accepts_append]
    exact ⟨carries.accepts_entry accepted e,
      ih (carries.replay _) (Option.map_eq_none_iff.mp later)⟩

end Carries

namespace Loader
variable {δ : Type} [Peripheral δ] {settings : Settings} {loader : Loader} {bus : SessionBus δ}
  {block : Block} {events : List Event} {name : String} {image : Image} {applier : Applier}

theorem accepts_entriesScript (carries : Carries loader.base block bus)
    (accepts : block.refusal? image.size = none) :
    bus.Accepts (loader.entriesScript image.entries) := by
  have holds : (Bus.write (loader.base + Register.control.offset) Block.resetBit
      (bus.access .reset)).value = .ok () :=
    ((carries.access .reset).write_value (by decide) _).trans (Block.write_other (by decide) _ _).1
  exact ⟨holds, (carries_held carries).accepts_stream accepts⟩

/-- How often a load resets the bus is how many attempts it makes. -/
theorem count_reset_entriesScript (entries : List Entry) :
    (loader.entriesScript entries).count .reset = 1 := by
  have stream (rest : List Entry) : Access.reset ∉ Block.streamAccesses loader.base rest := by
    simp [Block.streamAccesses, Block.entryAccesses]
  simp [entriesScript, List.count_eq_zero_of_not_mem (stream entries)]

theorem count_reset_script : (loader.script image applier).count .reset = 1 := by
  have control : Access.reset ∉ loader.controlAccesses image applier := by
    unfold controlAccesses
    split <;> simp
  rw [script, List.count_append, count_reset_entriesScript,
    List.count_eq_zero_of_not_mem control]

/-- After the accesses `before` the load makes one more attempt, in which every entry is accepted,
and ends as the control word does. -/
structure Completes (loader : Loader) (name : String) (image : Image) (applier : Applier)
    (bus : SessionBus δ) (before : List Access) (number : Nat)
    (run : Outcome Event (SessionBus δ) (Except LoadError ApplyReport)) : Prop where
  accesses : Event.accesses run.events = before ++ loader.script image applier
  accepts : (bus.replay before).Accepts (loader.entriesScript image.entries)
  value : run.value = (loader.controlResult image applier
    (bus.replay (before ++ loader.entriesScript image.entries))).mapError (.apply name number)

namespace Completes
variable {before : List Access} {number : Nat}
  {run : Outcome Event (SessionBus δ) (Except LoadError ApplyReport)}

theorem cases (completes : Completes loader name image applier bus before number run) :
    run.value = .ok ⟨image.size, image.control.isSome⟩ ∨
    ∃ cause, run.value = .error (.apply name number (.controlWrite image.size cause)) := by
  have value := completes.value
  rcases loader.controlResult_cases image applier
    (bus.replay (before ++ loader.entriesScript image.entries)) with accepted | ⟨cause, refused⟩
  · exact .inl (by rw [value, accepted]; rfl)
  · exact .inr ⟨cause, by rw [value, refused]; rfl⟩

end Completes

theorem attemptLimit_pos {retries : UInt32} (h : retries ≠ 0) :
    ∃ left, attemptLimit retries - 1 = left + 1 := by
  have positive : retries.toNat ≠ 0 := fun zero => h (UInt32.toNat_inj.mp zero)
  have size : UInt32.size = 4294967296 := rfl
  exact ⟨attemptLimit retries - 2, by simp only [attemptLimit]; omega⟩

theorem program_accepted (name : String) (applier : Applier) (carries : Carries loader.base block bus)
    (accepts : block.refusal? image.size = none) (retries : UInt32) :
    Completes loader name image applier bus [] 1 (loader.program name image applier retries bus) := by
  obtain ⟨value, accesses⟩ := attempts_accepted name applier carries accepts
    1 (attemptLimit retries - 1)
  exact ⟨accesses, accepts_entriesScript carries accepts, value⟩

theorem program_refused {i : Nat} (name : String) (applier : Applier)
    (carries : Carries loader.base block bus)
    (refusal : block.refusal? image.size = some i) :
    let run := loader.program name image applier 0 bus
    run.value = .error (.apply name 1 (.entryWrite i (.rejected Register.data.offset))) ∧
    Event.accesses run.events = loader.entriesScript (image.entries.take (i + 1)) :=
  attempts_refused name applier carries refusal 1

/-- With a refusal ahead and retries left there is a second attempt, and no third. -/
theorem program_restarted {i : Nat} (name : String) (applier : Applier)
    (carries : Carries loader.base block bus)
    (refusal : block.refusal? image.size = some i) {retries : UInt32} (again : retries ≠ 0) :
    Completes loader name image applier bus (loader.entriesScript (image.entries.take (i + 1))) 2
      (loader.program name image applier retries bus) := by
  obtain ⟨left, limit⟩ := attemptLimit_pos again
  have ran := attempts_restarted name applier carries refusal 1 left
  rw [← limit] at ran
  have retried := carries.replay (loader.entriesScript (image.entries.take (i + 1)))
  have accepts := Block.refusal?_of_failed (n := image.size) (failed_of_refused carries.fits refusal)
  exact ⟨ran.2, accepts_entriesScript retried accepts, ran.1⟩

/-- The block of a session counts the data writes since power-on, and it has refused one of them if
and only if the ordinal of the one to refuse has been passed. -/
theorem Reached.carriesBlock (reached : Reached settings loader bus events) : ∃ block,
    Carries loader.base block bus ∧ block.depth = loader.depth ∧
    block.failAt = settings.block.failAt ∧
    block.received = Block.dataWrites loader.base (Event.accesses events) ∧ block.Settled := by
  have carries := reached.carries
  have counts := Block.counts_replay carries.fits
    (Block.new settings.block.depth settings.block.failAt) (Event.accesses events)
  refine ⟨_, carries, counts.depth.trans reached.configuration.2.symm, counts.failAt, ?_,
    counts.settled (Block.settled_new _ _)⟩
  exact counts.received.trans (Nat.zero_add _)

/-- What decides how a load goes: the data writes of the session so far, and the ordinal of the one
to refuse. If that ordinal lies among the entries of the image, the first attempt ends at it, and
one more attempt is made if there may be one. In any other case one attempt is made. -/
theorem program_attempts (reached : Reached settings loader bus events) (name : String)
    (image : Image) (applier : Applier) (retries : UInt32) :
    let received := Block.dataWrites loader.base (Event.accesses events)
    let run := loader.program name image applier retries bus
    (∃ block, Carries loader.base block bus ∧ block.received = received ∧
      (block.failed = true ↔ ∃ f, settings.block.failAt = some f ∧ f.toNat < received)) ∧
    (∀ f i, settings.block.failAt = some f → f.toNat = received + i → i < image.size →
      let first := loader.entriesScript (image.entries.take (i + 1))
      let refusal := ApplyError.entryWrite i (.rejected 0x10)
      (loader.attempt name image applier 1 (bus.replay (loader.entriesScript []))).value =
        .error refusal ∧
      (retries = 0 → run.value = .error (.apply name 1 refusal) ∧ Event.accesses run.events = first) ∧
      (retries ≠ 0 → Completes loader name image applier bus first 2 run)) ∧
    ((∀ f i, settings.block.failAt = some f → f.toNat = received + i → image.size ≤ i) →
      Completes loader name image applier bus [] 1 run) ∧
    (Event.accesses run.events).count .reset ≤ 2 ∧
    (run.value = .ok ⟨image.size, image.control.isSome⟩ ∨
      (∃ number cause, run.value = .error (.apply name number (.controlWrite image.size cause))) ∨
      retries = 0 ∧ ∃ i, run.value = .error (.apply name 1 (.entryWrite i (.rejected 0x10)))) := by
  intro received run
  obtain ⟨block, carries, _, failAt, counted, settled⟩ := reached.carriesBlock
  change block.received = received at counted
  have ahead (i : Nat) : block.refusal? image.size = some i ↔
      i < image.size ∧ ∃ f, settings.block.failAt = some f ∧ f.toNat = received + i := by
    rw [settled.refusal?_eq_some_iff, failAt, counted]
  have restarted {i : Nat} (refusal : block.refusal? image.size = some i) (again : retries ≠ 0) :
      Completes loader name image applier bus
        (loader.entriesScript (image.entries.take (i + 1))) 2 run :=
    program_restarted name applier carries refusal again
  refine ⟨⟨block, carries, counted, ?_⟩, ?_, ?_, ?_⟩
  · rw [← failAt, ← counted]
    exact settled
  · intro f i atF place inside first refusal
    have pending := (ahead i).mpr ⟨inside, f, atF, place⟩
    refine ⟨(attempt_refused name applier (carries_held carries) pending 1).1, ?_, restarted pending⟩
    rintro rfl
    exact program_refused name applier carries pending
  · intro passed
    cases pending : block.refusal? image.size with
    | none => exact program_accepted name applier carries pending retries
    | some i =>
      obtain ⟨inside, f, atF, place⟩ := (ahead i).mp pending
      exact absurd (passed f i atF place) (Nat.not_le.mpr inside)
  · cases pending : block.refusal? image.size with
    | none =>
      have completes : Completes loader name image applier bus [] 1 run :=
        program_accepted name applier carries pending retries
      refine ⟨by simp [completes.accesses, count_reset_script], ?_⟩
      exact completes.cases.imp_right fun ⟨cause, refused⟩ => .inl ⟨1, cause, refused⟩
    | some i =>
      by_cases final : retries = 0
      · subst final
        obtain ⟨value, accesses⟩ := program_refused name applier carries pending
        refine ⟨?_, .inr (.inr ⟨rfl, i, value⟩)⟩
        have made : Event.accesses run.events = _ := accesses
        simp [made, count_reset_entriesScript]
      · have completes := restarted pending final
        refine ⟨by simp [completes.accesses, count_reset_script, count_reset_entriesScript], ?_⟩
        exact completes.cases.imp_right fun ⟨cause, refused⟩ => .inl ⟨2, cause, refused⟩

def refusingSecond : Settings := ⟨⟨0, 8, some 1⟩, none, []⟩

def twoEntries : Image := ⟨[⟨1, 10⟩, ⟨2, 20⟩], 32, none, by decide⟩

/-- However many attempts are allowed, one restart is enough. -/
theorem program_attempts_twoEntries : ∃ (loader : Loader) (bus : SessionBus Block)
    (events : List Event), Reached refusingSecond loader bus events ∧
    let run := loader.program "two" twoEntries ⟨0⟩ 0xFFFFFFFF bus
    run.value = .ok ⟨2, false⟩ ∧ Event.accesses run.events =
      [.reset, .write 0 0x40000000, .write 0x14 1, .write 0x10 10, .write 0x14 2, .write 0x10 20,
        .reset, .write 0 0x40000000, .write 0x14 1, .write 0x10 10, .write 0x14 2, .write 0x10 20] := by
  have began := start_ok (δ := Block) (show 0 < refusingSecond.block.depth by decide) (by decide) ⟨[]⟩
  have reached := Reached.start began
  refine ⟨_, _, _, reached, ?_⟩
  have restarts := ((program_attempts reached "two" twoEntries ⟨0⟩ 0xFFFFFFFF).2.1 1 1 rfl
    (by rw [start_accesses]; rfl) (by decide)).2.2 (by decide)
  exact ⟨restarts.value, restarts.accesses⟩

end Loader
end FabricLoader
