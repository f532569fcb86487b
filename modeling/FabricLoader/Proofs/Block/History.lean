import FabricLoader.Proofs.Block.Stream

/-! A block by itself, under any operations at any offsets. What it shows at each moment is a
function of the operations so far: registers give back what they were last given since the last
reset, and the chain is the end of a log to which every accepted data write since then has added
one word. Nothing of the log is ever taken back; the chain only forgets its front. A history lists
the operations with the latest first. -/
namespace FabricLoader.Block
variable {block : Block} {depth : Nat} {failAt : Option UInt32} {past : List Access}
  {offset value : UInt32}

/-- One operation on a block; its address is an offset into the block. A read answers with what it
gives. -/
def operate : Access → Action LogLine Block (Except WriteError UInt32)
  | .reset => (fun _ => .ok 0) <$> (Peripheral.reset : Action LogLine Block Unit)
  | .read offset => .ok <$> read offset
  | .write offset value => (Except.map fun _ => 0) <$> write offset value

def operateAll (operations : List Access) :
    Action LogLine Block (List (Except WriteError UInt32)) := operations.mapM operate

/-- What was last written to a register since the last reset. -/
def latest (register : Register) : List Access → UInt32
  | [] | .reset :: _ => 0
  | .read _ :: past => latest register past
  | .write offset value :: past => if offset = register.offset then value else latest register past

/-- The words of the data writes accepted since the last reset, the oldest first. A data write is
refused if its ordinal among all data writes, resets or not, is the one to refuse; otherwise its
word has the low bits of the latest selector. -/
def accepted (failAt : Option UInt32) : List Access → List ConfigWord
  | [] | .reset :: _ => []
  | .read _ :: past => accepted failAt past
  | .write offset value :: past =>
    if offset = Register.data.offset ∧ failAt.map UInt32.toNat ≠ some (dataWrites 0 past) then
      accepted failAt past ++ [⟨latest .selector past &&& selectorMask, value⟩]
    else accepted failAt past

/-- What a block holds of the last write to a register; data go to the chain instead. -/
def kept : Register → UInt32 → UInt32
  | .data, _ => 0
  | .selector, value => value &&& selectorMask
  | _, value => value

def latch (block : Block) : Register → UInt32
  | .control => block.control
  | .data => 0
  | .selector => block.selector
  | .comControl => block.comControl
  | .shiftOut => block.shiftOut
  | .shiftIn => block.shiftIn

theorem write_stray (stray : Register.at? offset = none) (value : UInt32) (block : Block) :
    (write offset value block).state = block := by
  simp [write, stray, Block.stray, Action.note]

/-- A write to a register other than the data register is kept there and nowhere else. -/
theorem latch_write (other : offset ≠ Register.data.offset) (value : UInt32) (block : Block)
    (register : Register) : (write offset value block).state.latch register =
      if offset = register.offset then kept register value else block.latch register := by
  cases found : Register.at? offset with
  | none =>
    have apart : offset ≠ register.offset := by
      rintro rfl
      simp at found
    rw [write_stray found, if_neg apart]
  | some target =>
    obtain rfl := Register.offset_of_at? found
    cases target with
    | data => exact absurd rfl other
    | control =>
      rw [write_control_state]
      cases register <;> rfl
    | selector =>
      rw [write_selector_state]
      cases register <;> rfl
    | comControl | shiftOut | shiftIn => cases register <;> simp [write] <;> rfl

/-- A block is in the state that its history tells. -/
structure Follows (depth : Nat) (failAt : Option UInt32) (past : List Access) (block : Block) :
    Prop where
  chain : block.chain =
    (accepted failAt past).drop ((accepted failAt past).length - max depth 1)
  latch : ∀ register, block.latch register = kept register (latest register past)
  received : block.received = dataWrites 0 past
  settled : block.Settled
  depth : block.depth = depth
  failAt : block.failAt = failAt

theorem follows_new (depth : Nat) (failAt : Option UInt32) :
    Follows depth failAt [] (new depth failAt) where
  chain := List.drop_nil.symm
  latch register := by cases register <;> rfl
  received := rfl
  settled := settled_new depth failAt
  depth := rfl
  failAt := rfl

theorem Follows.refuses_iff (follows : Follows depth failAt past block) :
    block.refuses ↔ failAt.map UInt32.toNat = some (dataWrites 0 past) := by
  rw [Block.refuses_iff, follows.failAt, follows.received, Option.map_eq_some_iff]
  -- The block also asks whether it has refused before, which it cannot have at this ordinal.
  refine ⟨And.right, fun pending => ⟨?_, pending⟩⟩
  obtain ⟨f, atF, now⟩ := pending
  by_contra failed
  obtain ⟨g, atG, passed⟩ := follows.settled.mp (by simpa using failed)
  rw [follows.failAt, atF] at atG
  obtain rfl := Option.some.inj atG
  rw [follows.received] at passed
  omega

theorem dataWrites_cons (a : Access) (past : List Access) :
    dataWrites 0 (a :: past) = dataWrites 0 past + dataWrites 0 [a] := by
  rw [← List.singleton_append, dataWrites_append, Nat.add_comm]

theorem latch_push (data : UInt32) (block : Block) (register : Register) :
    (push data block).state.latch register = block.latch register := by
  cases refuses : block.refuses with
  | true =>
    rw [(push_refused refuses data).2]
    cases register <;> rfl
  | false =>
    rw [(push_accepted refuses data).2]
    cases register <;> rfl

/-- A data write adds to the log what the chain takes in, or is refused by both. -/
theorem Follows.push (follows : Follows depth failAt past block) (data : UInt32) :
    Follows depth failAt (.write Register.data.offset data :: past) (push data block).state := by
  obtain ⟨received, sameDepth, sameFailAt⟩ := push_received data block
  refine ⟨?_, ?_, ?_, settled_push follows.settled data, sameDepth.trans follows.depth,
    sameFailAt.trans follows.failAt⟩
  -- Block and history refuse together, or the word goes to the end of both chain and log.
  · cases refuses : block.refuses with
    | true =>
      have ordinal := follows.refuses_iff.mp refuses
      rw [(push_refused refuses data).2, accepted, if_neg fun both => both.2 ordinal]
      exact follows.chain
    | false =>
      have ordinal : failAt.map UInt32.toNat ≠ some (dataWrites 0 past) := by
        rw [Ne, ← follows.refuses_iff, refuses]
        exact Bool.false_ne_true
      have selector : block.selector = latest .selector past &&& selectorMask :=
        follows.latch .selector
      have capacity : block.capacity = max depth 1 := by rw [Block.capacity, follows.depth]
      rw [(push_accepted refuses data).2, accepted, if_pos ⟨rfl, ordinal⟩, List.length_append,
        List.length_singleton, ← drop_push (Nat.le_max_right depth 1)]
      simp only [pushed, follows.chain, selector, capacity]
  · intro register
    rw [latch_push, follows.latch]
    cases register <;> rfl
  · rw [received, follows.received, dataWrites_cons]
    rfl

/-- Anything but a data write leaves log and chain as they are. -/
theorem Follows.store (follows : Follows depth failAt past block)
    (other : offset ≠ Register.data.offset) (value : UInt32) :
    Follows depth failAt (.write offset value :: past) (write offset value block).state := by
  obtain ⟨_, recalls, chain⟩ := write_other other value block
  have logged : accepted failAt (.write offset value :: past) = accepted failAt past := by
    rw [accepted, if_neg fun both => other both.1]
  have counted : dataWrites 0 (.write offset value :: past) = dataWrites 0 past := by
    rw [dataWrites_cons]
    simpa [dataWrites, isDataWrite] using other
  refine ⟨?_, ?_, ?_, ?_, recalls.depth.trans follows.depth, recalls.failAt.trans follows.failAt⟩
  · rw [chain, logged, follows.chain]
  · intro register
    rw [latch_write other, latest]
    split
    · rfl
    · exact follows.latch register
  · rw [recalls.received, follows.received, counted]
  · simpa only [Settled, recalls.failed, recalls.failAt, recalls.received] using follows.settled

@[simp] theorem operate_reset : operate .reset block = ⟨.ok 0, block.cleared, []⟩ := by
  rw [operate, Action.map_apply]
  rfl

@[simp] theorem operate_read : operate (.read offset) block =
    ⟨.ok (read offset block).value, block, (read offset block).events⟩ := by
  simp [operate]

@[simp] theorem operate_write : operate (.write offset value) block =
    ⟨(write offset value block).value.map fun _ => 0, (write offset value block).state,
      (write offset value block).events⟩ := by
  simp [operate]

theorem Follows.operate (follows : Follows depth failAt past block) (a : Access) :
    Follows depth failAt (a :: past) (operate a block).state := by
  cases a with
  | reset =>
    rw [operate_reset]
    -- Registers and chain are gone, but the data writes before still count towards the ordinal.
    refine ⟨List.drop_nil.symm, ?_, ?_, follows.settled, follows.depth, follows.failAt⟩
    · intro register
      cases register with
      | selector => exact UInt32.zero_and.symm
      | _ => rfl
    · rw [dataWrites_cons]
      exact follows.received
  | read offset =>
    rw [operate_read]
    refine ⟨follows.chain, follows.latch, ?_, follows.settled, follows.depth, follows.failAt⟩
    rw [dataWrites_cons]
    exact follows.received
  | write offset value =>
    rw [operate_write]
    by_cases toData : offset = Register.data.offset
    · subst toData
      rw [write_data]
      exact follows.push value
    · exact follows.store toData value

/-- The history of a whole run. -/
theorem Follows.operateAll (follows : Follows depth failAt past block) (operations : List Access) :
    Follows depth failAt (operations.reverse ++ past) (operateAll operations block).state := by
  induction operations generalizing block past with
  | nil => exact follows
  | cons a rest ih =>
    have later := ih (follows.operate a)
    rw [List.reverse_cons, List.append_assoc]
    simpa [Block.operateAll] using later

theorem Follows.write_value (follows : Follows depth failAt past block) (offset value : UInt32) :
    (write offset value block).value =
      if offset = 0x10 ∧ failAt.map UInt32.toNat = some (dataWrites 0 past) then
        .error (.rejected 0x10)
      else .ok () := by
  by_cases toData : offset = Register.data.offset
  · subst toData
    rw [write_data, push_value]
    simp only [follows.refuses_iff, Register.offset, true_and]
  · rw [(write_other toData value block).1, if_neg fun both => toData both.1]

theorem Follows.head (follows : Follows depth failAt past block) :
    block.head = ((accepted failAt past)[(accepted failAt past).length - max depth 1]?).getD
      ⟨0, 0⟩ := by
  rw [Block.head, follows.chain, List.head?_drop]

theorem read_value (register : Register) (block : Block) :
    (read register.offset block).value = block.register register := by
  simp [read]

/-- Every refusal leaves its mark, and a block that has the mark refuses no more. -/
theorem refusals_operate (a : Access) (block : Block) :
    (operate a block).value.isOk.not.toNat + block.failed.toNat =
      (operate a block).state.failed.toNat := by
  cases a with
  | reset =>
    rw [operate_reset]
    exact Nat.zero_add _
  | read offset =>
    rw [operate_read]
    exact Nat.zero_add _
  | write offset value =>
    rw [operate_write]
    by_cases toData : offset = Register.data.offset
    · subst toData
      rw [write_data]
      cases refuses : block.refuses with
      | true =>
        obtain ⟨value, state⟩ := push_refused refuses value
        rw [value, state, (refuses_iff.mp refuses).1]
        rfl
      | false =>
        obtain ⟨value, state⟩ := push_accepted refuses value
        rw [value, state]
        exact Nat.zero_add _
    · obtain ⟨value, recalls, _⟩ := write_other toData value block
      rw [value, recalls.failed]
      exact Nat.zero_add _

theorem refusals_operateAll (operations : List Access) (block : Block) :
    (operateAll operations block).value.countP (·.isOk.not) + block.failed.toNat =
      (operateAll operations block).state.failed.toNat := by
  induction operations generalizing block with
  | nil => exact Nat.zero_add _
  | cons a rest ih =>
    have first := refusals_operate a block
    have later := ih (operate a block).state
    have answers : (operateAll (a :: rest) block).value =
        (operate a block).value :: (operateAll rest (operate a block).state).value := by
      simp [operateAll]
    have final : (operateAll (a :: rest) block).state =
        (operateAll rest (operate a block).state).state := by
      simp [operateAll]
    have refused : (if (operate a block).value.isOk.not then 1 else 0) =
        (operate a block).value.isOk.not.toNat := by
      cases (operate a block).value.isOk <;> rfl
    rw [answers, final, List.countP_cons, refused]
    omega

/-- A refused write is remembered and counted, and that is all. -/
theorem state_of_refused {cause : WriteError}
    (refused : (write offset value block).value = .error cause) :
    (write offset value block).state =
      { block with received := block.received + 1, failed := true } := by
  by_cases toData : offset = Register.data.offset
  · subst toData
    rw [write_data] at refused ⊢
    cases refuses : block.refuses with
    | true => exact (push_refused refuses value).2
    | false => cases (push_accepted refuses value).1.symm.trans refused
  · cases (write_other toData value block).1.symm.trans refused

theorem at?_of_not_mem (elsewhere : offset ∉ Register.all.map Register.offset) :
    Register.at? offset = none := by
  cases found : Register.at? offset with
  | none => rfl
  | some register =>
    obtain rfl := Register.offset_of_at? found
    exact absurd (List.mem_map_of_mem (by cases register <;> decide)) elsewhere

/-- After any operations, a block answers as its log says. A write fails exactly if it is the data
write whose ordinal is the one to refuse, which happens once at most and changes nothing to be
seen. The data and selector registers show the word of the log that is `max depth 1` from its end,
or the first if there are fewer; the others show what they were last given. Offsets without a
register read as zero and take nothing. -/
theorem operateAll_log (depth : Nat) (failAt : Option UInt32) (operations : List Access) :
    let run := operateAll operations (new depth failAt)
    let past := operations.reverse
    let words := accepted failAt past
    let oldest := (words[words.length - max depth 1]?).getD ⟨0, 0⟩
    (∀ offset value, (write offset value run.state).value =
      if offset = 0x10 ∧ failAt.map UInt32.toNat = some (dataWrites 0 past) then
        .error (.rejected 0x10)
      else .ok ()) ∧
    run.value.countP (·.isOk.not) ≤ 1 ∧
    (read 0x10 run.state).value = oldest.data ∧
    (read 0x14 run.state).value = oldest.selector ∧
    (∀ register ∈ [Register.control, .comControl, .shiftOut, .shiftIn],
      (read register.offset run.state).value = latest register past) ∧
    (∀ offset ∉ [0x00, 0x10, 0x14, 0x18, 0x20, 0x24], (read offset run.state).value = 0 ∧
      ∀ value, (write offset value run.state).state = run.state) ∧
    (∀ offset value cause, (write offset value run.state).value = .error cause →
      (write offset value run.state).state =
        { run.state with received := run.state.received + 1, failed := true }) ∧
    run.state.chain.length ≤ max depth 1 := by
  intro run past words oldest
  have follows : Follows depth failAt past run.state := by
    simpa using (follows_new depth failAt).operateAll operations
  have head : run.state.head = oldest := follows.head
  refine ⟨follows.write_value, ?_, ?_, ?_, ?_, ?_, fun _ _ _ => state_of_refused, ?_⟩
  · calc run.value.countP (·.isOk.not) = run.state.failed.toNat :=
          refusals_operateAll operations (new depth failAt)
      _ ≤ 1 := Bool.toNat_le _
  · exact (read_value .data run.state).trans (congrArg ConfigWord.data head)
  · exact (read_value .selector run.state).trans (congrArg ConfigWord.selector head)
  · intro register plain
    have latched := follows.latch register
    rw [read_value]
    simp only [List.mem_cons, List.not_mem_nil, or_false] at plain
    rcases plain with rfl | rfl | rfl | rfl <;> exact latched
  · intro offset elsewhere
    have none := at?_of_not_mem elsewhere
    exact ⟨by simp [read, none], fun value => write_stray none value run.state⟩
  · rw [follows.chain, List.length_drop]
    omega

end FabricLoader.Block
