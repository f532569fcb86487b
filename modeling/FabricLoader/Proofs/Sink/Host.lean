import FabricLoader.Proofs.Bus.Blocks
import FabricLoader.Proofs.Loader.Attempts

/-! Writes through a host sink, on any bus. An entry is two bus writes, and both addresses are known
to exist before the first of them; so an entry without a place on the bus touches nothing, and one
that is refused at either write has not reached the chain of the block that it was meant for. -/
namespace FabricLoader

namespace HostSink
variable {δ : Type} [Peripheral δ] {sink : HostSink δ} {base offset address value : UInt32}
  {run : Outcome Event (HostSink δ) (Except WriteError Unit)}

theorem address?_inside (room : base.toNat + offset.toNat < UInt32.size) :
    address? base offset = .ok (base + offset) := if_pos room

theorem address?_outside (past : UInt32.size ≤ base.toNat + offset.toNat) :
    address? base offset = .error (.outOfSpace offset base) := if_neg (Nat.not_lt.mpr past)

/-- A run sends writes to the bus of a sink, which all count, and does nothing else to it. -/
structure Sends (sink : HostSink δ) (run : Outcome Event (HostSink δ) (Except WriteError Unit))
    (writes : List Access) : Prop where
  accesses : Event.accesses run.events = writes
  state : run.state = { sink with bus := sink.bus.replay writes }
  counted : Event.hostWrites run.events = writes.length

theorem sends_nothing (value : Except WriteError Unit) : Sends sink ⟨value, sink, []⟩ [] :=
  ⟨rfl, rfl, rfl⟩

theorem sends_busWrite (register value : UInt32) (sink : HostSink δ) :
    Sends sink (busWrite register value sink) [.write register value] := by
  have accesses : Event.accesses (busWrite register value sink).events = [.write register value] :=
    Bus.accesses_write register value
  refine ⟨accesses, rfl, ?_⟩
  rw [Event.hostWrites_eq_countP, accesses]
  rfl

theorem Sends.append {next : Outcome Event (HostSink δ) (Except WriteError Unit)}
    {before after : List Access} (first : Sends sink run before) (later : Sends run.state next after) :
    Sends sink ⟨next.value, next.state, run.events ++ next.events⟩ (before ++ after) := by
  refine ⟨?_, ?_, ?_⟩
  · rw [Event.accesses_append, first.accesses, later.accesses]
  · rw [later.state, first.state, Bus.replay_append]
  · rw [Event.hostWrites_append, first.counted, later.counted, List.length_append]

theorem writeEntry_outside (past : UInt32.size ≤ sink.base.toNat + 0x14) :
    writeEntry address value sink = ⟨.error (.outOfSpace 0x14 sink.base), sink, []⟩ := by
  have missing : address? sink.base Register.selector.offset = .error (.outOfSpace 0x14 sink.base) :=
    address?_outside past
  simp [writeEntry, missing]

/-- The data follow the selector if it was accepted. -/
theorem writeEntry_inside (room : sink.base.toNat + 0x14 < UInt32.size) :
    writeEntry address value sink =
      let selected := busWrite (sink.base + 0x14) address sink
      match selected.value with
      | .error cause => ⟨.error cause, selected.state, selected.events⟩
      | .ok () =>
        let pushed := busWrite (sink.base + 0x10) value selected.state
        ⟨pushed.value, pushed.state, selected.events ++ pushed.events⟩ := by
  have selector : address? sink.base Register.selector.offset = .ok (sink.base + 0x14) :=
    address?_inside room
  have data : address? sink.base Register.data.offset = .ok (sink.base + 0x10) :=
    address?_inside (Nat.lt_trans (Nat.add_lt_add_left (by decide) _) room)
  simp only [writeEntry, Action.bind_apply, Action.state_apply, selector, data]
  cases (busWrite (sink.base + 0x14) address sink).value <;> simp

theorem writeControl_apply (address value : UInt32) (sink : HostSink δ) :
    writeControl address value sink =
      match address? sink.base address with
      | .error cause => ⟨.error cause, sink, []⟩
      | .ok register => busWrite register value sink := by
  simp only [writeControl, Action.bind_apply, Action.state_apply]
  cases address? sink.base address <;> simp

section Block
variable {δ : Type} [Peripheral δ] {sink : HostSink (Block ⊕ δ)} {block : Block}

/-- An entry that is accepted adds one word to the chain of the block at the base, in the place of the
oldest one if there is no room; an entry that is refused leaves the chain alone. -/
theorem writeEntry_chain (carries : Carries sink.base block sink.bus) (within : block.Within)
    (address value : UInt32) :
    let run := writeEntry address value sink
    ∃ after, Carries sink.base after run.state.bus ∧
      (run.value = .ok () → after.chain =
        (if block.chain.length < block.capacity then block.chain else block.chain.tail) ++
          [⟨address &&& 0xFFF, value⟩]) ∧
      ∀ cause, run.value = .error cause → after.chain = block.chain := by
  intro run
  let e : Entry := ⟨address, value⟩
  obtain ⟨answer, accesses, _⟩ := writeEntry_run carries e
  have replayed : run.state.bus = sink.bus.replay (Block.entryAccesses sink.base e) :=
    accesses ▸ (drives_writeEntry address value).replayed sink
  refine ⟨block.replay sink.base (Block.entryAccesses sink.base e), ?_, ?_⟩
  · rw [replayed]
    exact carries.replay _
  cases refuses : block.refuses with
  | true =>
    rw [refuses, if_pos rfl] at answer
    rw [Block.replay_entry_refused carries.fits refuses]
    exact ⟨fun accepted => (by cases answer.symm.trans accepted), fun _ _ => rfl⟩
  | false =>
    rw [refuses, if_neg Bool.false_ne_true] at answer
    refine ⟨fun _ => ?_, fun cause refused => (by cases answer.symm.trans refused)⟩
    rw [Block.replay_entry_accepted carries.fits refuses, ← within.drop]
    rfl

variable {requests : List (Request (Block ⊕ δ))}

/-- On any bus that was made by mounting devices and using them, an entry is sent as a whole or not at
all, as far as the sink can tell: it fails without a trace if one of its addresses does not exist,
and otherwise the data follow a selector that was accepted. The control word is one write or none.
The chain of the block at the base, if there is one, takes in an entry that was accepted and no
other. -/
theorem write_sends (sized : ∀ r ∈ requests, r.Sized)
    (powered : ∀ start mounted, .mount start (.inl mounted) ∈ requests → mounted.Powered)
    (base address value : UInt32) :
    let sink : HostSink (Block ⊕ δ) := ⟨Bus.empty.serve requests, base⟩
    let entry := RegisterSink.write address value sink
    let control := RegisterSink.writeControl address value sink
    let selected := Bus.write (base + 0x14) address sink.bus
    (UInt32.size ≤ base.toNat + 0x14 →
      entry.value = .error (.outOfSpace 0x14 base) ∧ Sends sink entry []) ∧
    (base.toNat + 0x14 < UInt32.size →
      (∀ cause, selected.value = .error cause →
        entry.value = .error cause ∧ Sends sink entry [.write (base + 0x14) address]) ∧
      (selected.value = .ok () →
        entry.value = (Bus.write (base + 0x10) value selected.state).value ∧
        Sends sink entry [.write (base + 0x14) address, .write (base + 0x10) value])) ∧
    (UInt32.size ≤ base.toNat + address.toNat →
      control.value = .error (.outOfSpace address base) ∧ Sends sink control []) ∧
    (base.toNat + address.toNat < UInt32.size →
      control.value = (Bus.write (base + address) value sink.bus).value ∧
      Sends sink control [.write (base + address) value]) ∧
    ∀ block, Block.slot δ base block ∈ sink.bus.slots → block.chain.length ≤ block.capacity ∧
      ∃ after, Carries base after entry.state.bus ∧
        (entry.value = .ok () → after.chain =
          (if block.chain.length < block.capacity then block.chain else block.chain.tail) ++
            [⟨address &&& 0xFFF, value⟩]) ∧
        ∀ cause, entry.value = .error cause → after.chain = block.chain := by
  intro sink entry control selected
  have based : sink.base = base := rfl
  have written : entry = writeEntry address value sink := rfl
  have controlled : control = writeControl address value sink := rfl
  refine ⟨fun past => ?_, fun room => ⟨fun cause refused => ?_, fun accepted => ?_⟩,
    fun past => ?_, fun room => ?_, fun block member => ?_⟩
  · rw [written, writeEntry_outside past]
    exact ⟨rfl, sends_nothing _⟩
  · have answer : (busWrite (base + 0x14) address sink).value = .error cause := refused
    rw [← based] at room
    rw [written, writeEntry_inside room]
    simp only [sink, answer]
    have sent := sends_busWrite (base + 0x14) address sink
    exact ⟨trivial, sent.accesses, sent.state, sent.counted⟩
  · have answer : (busWrite (base + 0x14) address sink).value = .ok () := accepted
    rw [← based] at room
    rw [written, writeEntry_inside room]
    simp only [sink, answer]
    exact ⟨rfl, (sends_busWrite (base + 0x14) address sink).append
      (sends_busWrite (base + 0x10) value _)⟩
  · rw [controlled, writeControl_apply, address?_outside past]
    exact ⟨rfl, sends_nothing _⟩
  · rw [controlled, writeControl_apply, address?_inside room]
    exact ⟨rfl, sends_busWrite (base + address) value sink⟩
  · have carries : Carries sink.base block sink.bus := ⟨(Bus.serve_slots Slot.ordered_nil sized).1, member⟩
    have within : block.Within := Bus.within_of_serve sized powered member
    exact ⟨within, writeEntry_chain carries within address value⟩

/-- A block with room for one word, which a bus write has filled. -/
theorem write_sends_full :
    let requests : List (Request (Block ⊕ Empty)) :=
      [.mount 0x100 (.inl (Block.new 1 none)), .access (.write 0x110 5)]
    let sink : HostSink (Block ⊕ Empty) := ⟨Bus.empty.serve requests, 0x100⟩
    let entry := RegisterSink.write 0x13C0 7 sink
    (∀ r ∈ requests, r.Sized) ∧
    (∀ start mounted, .mount start (.inl mounted) ∈ requests → mounted.Powered) ∧
    Block.slot Empty 0x100 { Block.new 1 none with chain := [⟨0, 5⟩], received := 1 } ∈ sink.bus.slots ∧
    entry.value = .ok () ∧ Sends sink entry [.write 0x114 0x13C0, .write 0x110 7] ∧
    ∃ after, Carries 0x100 after entry.state.bus ∧ after.chain = [⟨0x3C0, 7⟩] := by
  intro requests sink entry
  have sized : ∀ r ∈ requests, r.Sized := by
    simp [requests, Request.Sized, Peripheral.size]
  have powered : ∀ start mounted, .mount start (.inl mounted) ∈ requests → mounted.Powered := by
    intro start mounted member
    simp only [requests, List.mem_cons, Request.mount.injEq, Sum.inl.injEq, reduceCtorEq,
      List.not_mem_nil, or_false] at member
    exact ⟨1, none, [], member.2⟩
  have member : Block.slot Empty 0x100 { Block.new 1 none with chain := [⟨0, 5⟩], received := 1 } ∈
      sink.bus.slots := by decide +kernel
  have selected : (Bus.write (0x100 + 0x14) 0x13C0 sink.bus).value = .ok () := by decide +kernel
  have accepted : entry.value = .ok () := by decide +kernel
  obtain ⟨_, inside, _, _, blocks⟩ := write_sends sized powered 0x100 0x13C0 7
  obtain ⟨_, after, carries, pushed, _⟩ := blocks _ member
  exact ⟨sized, powered, member, accepted, ((inside (by decide)).2 selected).2, after, carries,
    pushed accepted⟩

end Block

end HostSink
end FabricLoader
