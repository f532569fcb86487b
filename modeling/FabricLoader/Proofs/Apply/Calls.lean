import FabricLoader.Proofs.Apply.Simulation

/-! Applying an image as its sink sees it. An image is a row of calls, one for each entry and one
for the control word if there is one; they are made in this order with nothing in between, until
one is refused or the flag is seen raised before it. -/
namespace FabricLoader

namespace SinkCall
variable {σ : Type} [RegisterSink σ]

def isEntry : SinkCall → Bool
  | entry .. => true
  | control .. => false

/-- A sink after some calls, whatever it answered. -/
def after (calls : List SinkCall) (sink : σ) : σ :=
  calls.foldl (fun s call => (call.make s).state) sink

def accepted (calls : List SinkCall) : List (SinkCall × Except WriteError Unit) :=
  calls.map (·, .ok ())

@[simp] theorem accepted_nil : accepted [] = [] := rfl

@[simp] theorem accepted_cons (call : SinkCall) (calls : List SinkCall) :
    accepted (call :: calls) = (call, .ok ()) :: accepted calls := rfl

@[simp] theorem accepted_append (before later : List SinkCall) :
    accepted (before ++ later) = accepted before ++ accepted later := List.map_append

end SinkCall

def Entry.call (e : Entry) : SinkCall := .entry e.address e.value

def Applier.calls (applier : Applier) (image : Image) : List SinkCall :=
  image.entries.map Entry.call ++ (image.control.map (SinkCall.control applier.controlAddress)).toList

/-- A sink that passes every call on, and keeps it with its answer. -/
structure Observed (σ : Type) where
  inner : σ
  calls : List (SinkCall × Except WriteError Unit)

namespace Observed
variable {σ : Type} [RegisterSink σ]

def pass (call : SinkCall) : Action Event (Observed σ) (Except WriteError Unit) := fun sink =>
  let taken := call.make sink.inner
  ⟨taken.value, ⟨taken.state, sink.calls ++ [(call, taken.value)]⟩, taken.events⟩

instance : RegisterSink (Observed σ) where
  write address value := pass (.entry address value)
  writeControl address value := pass (.control address value)

theorem alike_inner : SinkCall.Alike fun (observed : Observed σ) sink => observed.inner = sink := by
  rintro call observed sink rfl
  cases call <;> exact ⟨rfl, rfl⟩

theorem write_apply (e : Entry) (sink : Observed σ) : RegisterSink.write e.address e.value sink =
    ⟨(e.call.make sink.inner).value,
      ⟨(e.call.make sink.inner).state, sink.calls ++ [(e.call, (e.call.make sink.inner).value)]⟩,
      (e.call.make sink.inner).events⟩ := rfl

theorem writeControl_apply (address value : UInt32) (sink : Observed σ) :
    RegisterSink.writeControl address value sink =
      let taken := (SinkCall.control address value).make sink.inner
      ⟨taken.value, ⟨taken.state, sink.calls ++ [(.control address value, taken.value)]⟩,
        taken.events⟩ := rfl

end Observed

namespace Applier
variable {σ : Type} [RegisterSink σ]

/-- A stream ends behind its last entry, in front of an entry at the flag, or at a refused entry. -/
theorem stream_observed (cancel : Nat → σ → Bool) (entries : List Entry) (index : Nat) (sink : σ)
    (log : List (SinkCall × Except WriteError Unit)) :
    let calls := entries.map Entry.call
    let run := stream (fun i (s : Observed σ) => cancel i s.inner) index entries ⟨sink, log⟩
    ∃ i ≤ entries.length, (∀ j < i, cancel (index + j) (SinkCall.after (calls.take j) sink) = false) ∧
      (i = entries.length ∧ run.value = .ok () ∧
        run.state = ⟨SinkCall.after calls sink, log ++ SinkCall.accepted calls⟩ ∨
      i < entries.length ∧ cancel (index + i) (SinkCall.after (calls.take i) sink) = true ∧
        run.value = .error (.cancelled (index + i)) ∧
        run.state.calls = log ++ SinkCall.accepted (calls.take i) ∨
      ∃ e cause, entries[i]? = some e ∧
        cancel (index + i) (SinkCall.after (calls.take i) sink) = false ∧
        run.value = .error (.entryWrite (index + i) cause) ∧
        run.state.calls = log ++ SinkCall.accepted (calls.take i) ++ [(e.call, .error cause)]) := by
  induction entries generalizing index sink log with
  | nil => exact ⟨0, Nat.le_refl 0, by simp, .inl ⟨rfl, rfl, by simp [stream, SinkCall.after]⟩⟩
  | cons e rest ih =>
    by_cases raised : cancel index sink = true
    · refine ⟨0, Nat.zero_le _, by simp, .inr (.inl ⟨Nat.succ_pos _, raised, ?_⟩)⟩
      simp [stream_cons_apply, raised]
    · have clear : cancel index sink = false := by simpa using raised
      cases answer : (e.call.make sink).value with
      | error cause =>
        refine ⟨0, Nat.zero_le _, by simp, .inr (.inr ⟨e, cause, rfl, clear, ?_⟩)⟩
        simp [stream_cons_apply, raised, Observed.write_apply, answer]
      | ok =>
        have passed : stream (fun i (s : Observed σ) => cancel i s.inner) index (e :: rest) ⟨sink, log⟩ =
          let later := stream (fun i (s : Observed σ) => cancel i s.inner) (index + 1) rest
            ⟨(e.call.make sink).state, log ++ [(e.call, .ok ())]⟩
          ⟨later.value, later.state, (e.call.make sink).events ++ later.events⟩ := by
          simp [stream_cons_apply, raised, Observed.write_apply, answer]
        obtain ⟨i, bound, before, ends⟩ := ih (index + 1) (e.call.make sink).state
          (log ++ [(e.call, .ok ())])
        rw [passed]
        simp only [List.append_assoc, Nat.add_assoc, Nat.add_comm 1] at before ends
        refine ⟨i + 1, Nat.succ_le_succ bound, ?_, ?_⟩
        · rintro (_ | j) lt
          · exact clear
          · exact before j (Nat.lt_of_succ_lt_succ lt)
        · rcases ends with ⟨all, value, state⟩ | ⟨inside, flag, value, state⟩ |
            ⟨refused, cause, inside, flag, value, state⟩
          · exact .inl ⟨congrArg _ all, value, state⟩
          · exact .inr (.inl ⟨Nat.succ_lt_succ inside, flag, value, by simpa using state⟩)
          · exact .inr (.inr ⟨refused, cause, inside, flag, value, by simpa using state⟩)

variable (applier : Applier) (image : Image)

theorem length_calls_le : (applier.calls image).length ≤ image.size + 1 := by
  cases control : image.control <;> simp [calls, Image.size, control]

theorem size_le_length_calls : image.size ≤ (applier.calls image).length := by
  simp [calls, Image.size]

theorem take_calls {i : Nat} (bound : i ≤ image.size) :
    (applier.calls image).take i = (image.entries.map Entry.call).take i :=
  List.take_append_of_le_length (by simpa [Image.size] using bound)

theorem take_size_calls :
    (applier.calls image).take image.size = image.entries.map Entry.call := by
  rw [applier.take_calls image (Nat.le_refl _), List.take_of_length_le (by simp [Image.size])]

/-- The calls before the control word are entries. -/
theorem entry_of_take_calls {i : Nat} (bound : i ≤ image.size) :
    ∀ made ∈ SinkCall.accepted ((applier.calls image).take i),
      made.1.isEntry = true ∧ made.2.isOk = true := by
  intro made member
  rw [applier.take_calls image bound] at member
  obtain ⟨call, taken, rfl⟩ := List.mem_map.mp member
  obtain ⟨e, _, rfl⟩ := List.mem_map.mp (List.mem_of_mem_take taken)
  exact ⟨rfl, rfl⟩

theorem length_take_calls {i : Nat} (bound : i ≤ image.size) :
    (SinkCall.accepted ((applier.calls image).take i)).length = i := by
  rw [SinkCall.accepted, List.length_map, List.length_take]
  exact Nat.min_eq_left (Nat.le_trans bound (applier.size_le_length_calls image))

theorem countP_take_calls {i : Nat} (bound : i ≤ image.size) :
    (SinkCall.accepted ((applier.calls image).take i)).countP
      (fun (call, answer) => call.isEntry && answer.isOk) = i := by
  rw [List.countP_eq_length.mpr, applier.length_take_calls image bound]
  intro made member
  simpa using applier.entry_of_take_calls image bound made member

variable {applier image} in
theorem calls_of_none (control : image.control = none) :
    applier.calls image = image.entries.map Entry.call := by
  simp [calls, control]

variable {applier image} in
theorem calls_of_some {word : UInt32} (control : image.control = some word) :
    applier.calls image =
      image.entries.map Entry.call ++ [.control applier.controlAddress word] := by
  simp [calls, control]

variable {applier image} in
/-- The control word is the call with the number of entries for its place. -/
theorem getElem?_calls_size {word : UInt32} (control : image.control = some word) :
    (applier.calls image)[image.size]? = some (.control applier.controlAddress word) := by
  rw [calls_of_some control, List.getElem?_append_right (by simp [Image.size])]
  simp [Image.size]

/-- How an image ends whose calls are made of a sink in order: all of them accepted; or in front of
the call that finds the flag raised; or at the call that is refused, which is the last one made. -/
def Ends (cancel : Nat → σ → Bool) (sink : σ) (value : Except ApplyError ApplyReport)
    (made : List (SinkCall × Except WriteError Unit)) : Prop :=
  let calls := applier.calls image
  let reached := fun i => SinkCall.after (calls.take i) sink
  ∃ i ≤ calls.length, (∀ j < i, cancel j (reached j) = false) ∧
    (i = calls.length ∧ made = SinkCall.accepted calls ∧
      value = .ok ⟨image.size, image.control.isSome⟩ ∨
    i < calls.length ∧ cancel i (reached i) = true ∧
      made = SinkCall.accepted (calls.take i) ∧ value = .error (.cancelled i) ∨
    ∃ call cause, calls[i]? = some call ∧ cancel i (reached i) = false ∧
      made = SinkCall.accepted (calls.take i) ++ [(call, .error cause)] ∧
      value = .error (if i < image.size then .entryWrite i cause else .controlWrite i cause))

variable {applier image} {cancel : Nat → σ → Bool} {sink : σ}

/-- Once every entry was accepted, only the control word is left. -/
private theorem ends_of_streamed
    (clear : ∀ j < image.size, cancel j
      (SinkCall.after ((applier.calls image).take j) sink) = false)
    (value : (stream (fun i (s : Observed σ) => cancel i s.inner) 0 image.entries ⟨sink, []⟩).value =
      .ok ())
    (state : (stream (fun i (s : Observed σ) => cancel i s.inner) 0 image.entries ⟨sink, []⟩).state =
      ⟨SinkCall.after (image.entries.map Entry.call) sink,
        SinkCall.accepted (image.entries.map Entry.call)⟩) :
    let run := applier.applyUntil (fun i (s : Observed σ) => cancel i s.inner) image ⟨sink, []⟩
    applier.Ends image cancel sink run.value run.state.calls := by
  simp only [applyUntil_apply, value, state]
  cases control : image.control with
  | none =>
    have all : applier.calls image = image.entries.map Entry.call := calls_of_none control
    have length : image.size = (applier.calls image).length := by simp [all, Image.size]
    refine ⟨_, Nat.le_refl _, length ▸ clear, .inl ⟨rfl, by rw [all], ?_⟩⟩
    simp [control]
  | some word =>
    have last : applier.calls image = image.entries.map Entry.call ++ [.control applier.controlAddress word] :=
      calls_of_some control
    have length : (applier.calls image).length = image.size + 1 := by simp [last, Image.size]
    rw [← applier.take_size_calls image]
    generalize entered : SinkCall.after ((applier.calls image).take image.size) sink = s
    by_cases raised : cancel image.size s = true
    · simp only [if_pos raised]
      rw [← entered] at raised
      exact ⟨image.size, by omega, clear, .inr (.inl ⟨by omega, raised, rfl, rfl⟩)⟩
    simp only [if_neg raised, Observed.writeControl_apply]
    have unraised : cancel image.size
        (SinkCall.after ((applier.calls image).take image.size) sink) = false := by
      simpa [entered] using raised
    cases answer : ((SinkCall.control applier.controlAddress word).make s).value with
    | ok =>
      refine ⟨_, Nat.le_refl _, fun j lt => ?_, .inl ⟨rfl, ?_, ?_⟩⟩
      · rcases Nat.lt_or_ge j image.size with inside | beyond
        · exact clear j inside
        · obtain rfl : j = image.size := by omega
          exact unraised
      · rw [applier.take_size_calls image, last, SinkCall.accepted_append]
        simp
      · simp [control]
    | error cause =>
      refine ⟨image.size, by omega, clear, .inr (.inr ⟨_, cause, getElem?_calls_size control, unraised, ?_, ?_⟩)⟩
      · simp
      · simp

/-- The calls of an image end as those of its entries do, or at the control word. -/
theorem applyUntil_observed (applier : Applier) (image : Image) (cancel : Nat → σ → Bool)
    (sink : σ) :
    let run := applier.applyUntil (fun i (s : Observed σ) => cancel i s.inner) image ⟨sink, []⟩
    applier.Ends image cancel sink run.value run.state.calls := by
  obtain ⟨i, bound, before, ends⟩ := stream_observed cancel image.entries 0 sink []
  simp only [Nat.zero_add, List.nil_append] at before ends
  have clear : ∀ j < i, cancel j
      (SinkCall.after ((applier.calls image).take j) sink) = false := by
    intro j lt
    rw [applier.take_calls image (Nat.le_trans (Nat.le_of_lt lt) bound)]
    exact before j lt
  have within : i ≤ (applier.calls image).length :=
    Nat.le_trans bound (applier.size_le_length_calls image)
  rcases ends with ⟨rfl, value, state⟩ | ⟨inside, flag, value, made⟩ |
    ⟨e, cause, inside, flag, value, made⟩
  · exact ends_of_streamed clear value state
  · have inside : i < (applier.calls image).length :=
      Nat.lt_of_lt_of_le inside (applier.size_le_length_calls image)
    rw [← applier.take_calls image bound] at flag made
    simp only [applyUntil_apply, value]
    exact ⟨i, within, clear, .inr (.inl ⟨inside, flag, made, rfl⟩)⟩
  · have entry : (image.entries.map Entry.call)[i]? = some e.call := by simp [inside]
    have lt : i < image.size := (List.getElem?_eq_some_iff.mp inside).1
    have found : (applier.calls image)[i]? = some e.call :=
      (List.getElem?_append_left (List.getElem?_eq_some_iff.mp entry).1).trans entry
    rw [← applier.take_calls image bound] at flag made
    simp only [applyUntil_apply, value]
    exact ⟨i, within, clear, .inr (.inr ⟨e.call, cause, found, flag, made, by rw [if_pos lt]⟩)⟩

/-- Applying an image to any sink, under any flag: the sink is called for the entries in order and
then for the control word, up to the first call that finds the flag raised, which is not made, or
that the sink refuses, which is the last. The result names that call; it is a report exactly if
there is none, and a failure tells how many entries the sink has accepted. -/
theorem applyUntil_calls (applier : Applier) (cancel : Nat → σ → Bool) (image : Image) (sink : σ) :
    let run := applier.applyUntil (fun i (s : Observed σ) => cancel i s.inner) image ⟨sink, []⟩
    (run.value = (applier.applyUntil cancel image sink).value ∧
      run.state.inner = (applier.applyUntil cancel image sink).state) ∧
    applier.Ends image cancel sink run.value run.state.calls ∧
    ∀ e, run.value = .error e →
      e.completed = run.state.calls.countP fun (call, answer) => call.isEntry && answer.isOk := by
  intro run
  have same : run.value = (applier.applyUntil cancel image sink).value ∧
      run.state.inner = (applier.applyUntil cancel image sink).state :=
    applyUntil_alike Observed.alike_inner (by rintro i s t rfl; rfl) applier image rfl
  have ends := applyUntil_observed applier image cancel sink
  refine ⟨same, ends, fun e failed => ?_⟩
  have most := applier.length_calls_le image
  obtain ⟨i, _, _, ⟨_, _, value⟩ | ⟨inside, _, made, value⟩ | ⟨call, cause, found, _, made, value⟩⟩ := ends
  · cases value.symm.trans failed
  · obtain rfl := Except.error.inj (value.symm.trans failed)
    rw [made, applier.countP_take_calls image (by omega)]
    rfl
  · have inside := (List.getElem?_eq_some_iff.mp found).1
    obtain rfl := Except.error.inj (value.symm.trans failed)
    have bound : i ≤ image.size := by omega
    rw [made, List.countP_append, applier.countP_take_calls image bound]
    by_cases lt : i < image.size
    · simp [if_pos lt, ApplyError.completed, Except.isOk, Except.toBool]
    · simp only [if_neg lt, ApplyError.completed, List.countP_singleton, Except.isOk, Except.toBool,
        Bool.and_false, Bool.false_eq_true, if_false]
      omega

end Applier
end FabricLoader
