import FabricLoader.Proofs.Apply.Simulation
import FabricLoader.Sink.Recording

/-! A sink that implements one kind of write. To such a sink the control word is one more entry: the
image is a row of pairs, offered one by one until the first that is refused, and only the name of
that refusal tells the last pair from the others. -/
namespace FabricLoader

/-- A register write, as a sink implements it. -/
abbrev Writer (σ : Type) : Type := UInt32 → UInt32 → Action Event σ (Except WriteError Unit)

namespace Writer
variable {σ : Type} (write : Writer σ)

/-- The sink that implements nothing else. -/
@[reducible] def plain : RegisterSink σ where
  write := write

/-- Offers pairs in order, the first of them as pair `index`, up to the first that is refused. -/
def offer (index : Nat) : List Entry → Action Event σ (Except (Nat × WriteError) Unit)
  | [] => pure (.ok ())
  | e :: rest => do
    match ← write e.address e.value with
    | .ok () => offer (index + 1) rest
    | .error cause => return .error (index, cause)

def after (pairs : List Entry) (sink : σ) : σ :=
  pairs.foldl (fun s e => (write e.address e.value s).state) sink

/-- Every pair is accepted in the state that those before it lead to. -/
def Accepts : List Entry → σ → Prop
  | [], _ => True
  | e :: rest, s => (write e.address e.value s).value = .ok () ∧
      Accepts rest (write e.address e.value s).state

def FirstRefused (pairs : List Entry) (sink : σ) (i : Nat) (cause : WriteError) : Prop :=
  ∃ e, pairs[i]? = some e ∧ write.Accepts (pairs.take i) sink ∧
    (write e.address e.value (write.after (pairs.take i) sink)).value = .error cause

variable {write} {sink : σ} {index i : Nat} {e : Entry} {pairs rest : List Entry} {cause : WriteError}

theorem offer_cons (index : Nat) (e : Entry) (rest : List Entry) (sink : σ) :
    write.offer index (e :: rest) sink =
      let taken := write e.address e.value sink
      match taken.value with
      | .ok () =>
        let later := write.offer (index + 1) rest taken.state
        ⟨later.value, later.state, taken.events ++ later.events⟩
      | .error cause => ⟨.error (index, cause), taken.state, taken.events⟩ := by
  simp only [offer, Action.bind_apply]
  cases (write e.address e.value sink).value <;> simp

theorem firstRefused_cons : write.FirstRefused (e :: rest) sink i cause ↔
    i = 0 ∧ (write e.address e.value sink).value = .error cause ∨
    ∃ j, i = j + 1 ∧ (write e.address e.value sink).value = .ok () ∧
      write.FirstRefused rest (write e.address e.value sink).state j cause := by
  cases i with
  | zero => simp [FirstRefused, Accepts, after]
  | succ j =>
    simp only [FirstRefused, Accepts, after, List.take_succ_cons, List.getElem?_cons_succ,
      List.foldl_cons]
    constructor
    · rintro ⟨refused, found, ⟨accepted, before⟩, answer⟩
      exact .inr ⟨j, rfl, accepted, refused, found, before, answer⟩
    · rintro (⟨⟨⟩, _⟩ | ⟨_, ⟨⟩, accepted, refused, found, before, answer⟩)
      exact ⟨refused, found, ⟨accepted, before⟩, answer⟩

theorem offer_ok_iff : (write.offer index pairs sink).value = .ok () ↔ write.Accepts pairs sink := by
  induction pairs generalizing index sink with
  | nil => simp [offer, Accepts]
  | cons e rest ih =>
    cases answer : (write e.address e.value sink).value with
    | error cause => simp [offer_cons, Accepts, answer]
    | ok => simp [offer_cons, Accepts, answer, ih]

theorem offer_error_iff {position : Nat} :
    (write.offer index pairs sink).value = .error (position, cause) ↔
      ∃ i, position = index + i ∧ write.FirstRefused pairs sink i cause := by
  induction pairs generalizing index sink with
  | nil => simp [offer, FirstRefused]
  | cons e rest ih =>
    simp only [offer_cons, firstRefused_cons]
    cases answer : (write e.address e.value sink).value with
    | error refusal =>
      constructor
      · rintro ⟨⟩
        exact ⟨0, rfl, .inl ⟨rfl, rfl⟩⟩
      · rintro ⟨i, rfl, ⟨rfl, ⟨⟩⟩ | ⟨_, _, accepted, _⟩⟩
        · rfl
        · cases accepted
    | ok =>
      simp only [ih]
      constructor
      · rintro ⟨i, rfl, refused⟩
        exact ⟨i + 1, by omega, .inr ⟨i, rfl, trivial, refused⟩⟩
      · rintro ⟨_, rfl, ⟨_, rejected⟩ | ⟨i, rfl, _, refused⟩⟩
        · cases rejected
        · exact ⟨i, by omega, refused⟩

theorem FirstRefused.lt_length (refused : write.FirstRefused pairs sink i cause) : i < pairs.length := by
  obtain ⟨e, found, _⟩ := refused
  exact (List.getElem?_eq_some_iff.mp found).1

theorem offer_error_zero : (write.offer 0 pairs sink).value = .error (i, cause) ↔
    write.FirstRefused pairs sink i cause := by
  simp [offer_error_iff]

theorem offer_append (index : Nat) (before later : List Entry) (sink : σ) :
    write.offer index (before ++ later) sink =
      let first := write.offer index before sink
      match first.value with
      | .error refusal => ⟨.error refusal, first.state, first.events⟩
      | .ok () =>
        let rest := write.offer (index + before.length) later first.state
        ⟨rest.value, rest.state, first.events ++ rest.events⟩ := by
  induction before generalizing index sink with
  | nil => simp [offer]
  | cons e rest ih =>
    simp only [List.cons_append, offer_cons, ih]
    cases (write e.address e.value sink).value with
    | error cause => rfl
    | ok =>
      simp only [List.length_cons, Nat.add_comm 1, Nat.add_assoc]
      cases (write.offer (index + 1) rest (write e.address e.value sink).state).value with
      | error refusal => rfl
      | ok => simp

end Writer

namespace Applier
variable {σ : Type} (write : Writer σ) (applier : Applier) {image : Image} {word : UInt32}

theorem stream_offer (index : Nat) (entries : List Entry) (sink : σ) :
    letI := write.plain
    let streamed := stream (fun _ _ => false) index entries sink
    let offered := write.offer index entries sink
    streamed.state = offered.state ∧
      streamed.value = offered.value.mapError fun (i, cause) => .entryWrite i cause := by
  induction entries generalizing index sink with
  | nil => exact ⟨rfl, rfl⟩
  | cons e rest ih =>
    have written : @RegisterSink.write σ write.plain = write := rfl
    simp only [@stream_cons σ write.plain, Writer.offer_cons, written]
    cases (write e.address e.value sink).value with
    | error cause => exact ⟨rfl, rfl⟩
    | ok => exact ih (index + 1) _

/-- The control word is offered as one more pair. -/
theorem apply_offer (control : image.control = some word) (sink : σ) :
    letI := write.plain
    let run := applier.apply image sink
    let offered := write.offer 0 (image.entries ++ [⟨applier.controlAddress, word⟩]) sink
    run.state = offered.state ∧ run.value = match offered.value with
      | .ok () => .ok ⟨image.size, true⟩
      | .error (i, cause) =>
        .error (if i < image.size then .entryWrite i cause else .controlWrite image.size cause) := by
  obtain ⟨state, value⟩ := stream_offer write 0 image.entries sink
  simp only [@apply_apply σ write.plain, control, Writer.offer_append]
  cases answer : (write.offer 0 image.entries sink).value with
  | error refusal =>
    obtain ⟨i, cause⟩ := refusal
    have inside : i < image.size := (Writer.offer_error_zero.mp answer).lt_length
    have streamed : (@stream σ write.plain (fun _ _ => false) 0 image.entries sink).value =
        .error (.entryWrite i cause) := by
      rw [value, answer]
      rfl
    simp only [streamed, if_pos inside]
    exact ⟨state, trivial⟩
  | ok =>
    have streamed : (@stream σ write.plain (fun _ _ => false) 0 image.entries sink).value = .ok () := by
      rw [value, answer]
      rfl
    -- where the sink has no control write of its own, this is its write
    have written : @RegisterSink.writeControl σ write.plain = write := rfl
    simp only [streamed, state, Writer.offer_cons, written]
    cases (write applier.controlAddress word (write.offer 0 image.entries sink).state).value with
    | error cause =>
      refine ⟨rfl, ?_⟩
      simp [Image.size]
    | ok => exact ⟨rfl, rfl⟩

/-- A sink that implements one write sees the image as one row of pairs, the control word at its
control address being the last. The pairs are offered in order up to the first that is refused; the
result is a report if there is none, and otherwise tells whether it is an entry or that last pair. -/
theorem apply_plain (image : Image) (word : UInt32) (control : image.control = some word) (sink : σ) :
    letI := write.plain
    let pairs := image.entries ++ [⟨applier.controlAddress, word⟩]
    let run := applier.apply image sink
    run.state = (write.offer 0 pairs sink).state ∧
    (∀ report, run.value = .ok report ↔ report = ⟨image.size, true⟩ ∧ write.Accepts pairs sink) ∧
    (∀ i cause, run.value = .error (.entryWrite i cause) ↔
      i < image.size ∧ write.FirstRefused pairs sink i cause) ∧
    (∀ entries cause, run.value = .error (.controlWrite entries cause) ↔
      entries = image.size ∧ write.FirstRefused pairs sink image.size cause) ∧
    ∀ completed, run.value ≠ .error (.cancelled completed) := by
  intro pairs run
  obtain ⟨state, value⟩ := apply_offer write applier control sink
  have accepts : write.Accepts pairs sink ↔ (write.offer 0 pairs sink).value = .ok () :=
    Writer.offer_ok_iff.symm
  have refused (i : Nat) (cause : WriteError) : write.FirstRefused pairs sink i cause ↔
      (write.offer 0 pairs sink).value = .error (i, cause) := Writer.offer_error_zero.symm
  refine ⟨state, ?_⟩
  simp only [run, value, accepts, refused]
  cases answer : (write.offer 0 pairs sink).value with
  | ok => simp [eq_comm]
  | error refusal =>
    obtain ⟨i, cause⟩ := refusal
    have bound : i < pairs.length := ((refused i cause).mpr answer).lt_length
    have most : i ≤ image.size := by simpa [pairs, Image.size, Nat.lt_succ_iff] using bound
    rcases Nat.lt_or_eq_of_le most with inside | rfl
    · have before : i ≠ image.size := Nat.ne_of_lt inside
      simp [inside, before]
    · have apart : ∀ i < image.size, i ≠ image.size := fun i => Nat.ne_of_lt
      simpa [eq_comm] using apart

/-- A sink that refuses its second pair, which is the control word. -/
theorem apply_plain_refused :
    let write : Writer Recording := RegisterSink.write
    let image : Image := ⟨[⟨1, 2⟩], 32, some 9, by decide⟩
    let sink := Recording.new (some 1) false
    letI := write.plain
    let run := (⟨0x18⟩ : Applier).apply image sink
    image.control = some 9 ∧
    run.value = .error (.controlWrite 1 (.rejected 0x18)) ∧
    write.FirstRefused [⟨1, 2⟩, ⟨0x18, 9⟩] sink 1 (.rejected 0x18) ∧
    run.state = ⟨[.entry 1 2], 2, some 1, false⟩ := by
  intro write image sink run
  have refused : run.value = .error (.controlWrite 1 (.rejected 0x18)) := rfl
  obtain ⟨state, _, _, control, _⟩ := apply_plain write ⟨0x18⟩ image 9 rfl sink
  exact ⟨rfl, refused, ((control 1 _).mp refused).2, state⟩

end Applier

end FabricLoader
