import FabricLoader.Apply

/-! Sinks that answer alike. What applying an image does to a sink is decided by the sink's answers
and by the flag; so two sinks that answer every call alike, and keep doing so, lead to the same
result, whatever else they keep or log. -/
namespace FabricLoader

inductive SinkCall where
  | entry (address value : UInt32)
  | control (address value : UInt32)
  deriving DecidableEq, Repr

namespace SinkCall
variable {σ τ : Type} [RegisterSink σ] [RegisterSink τ]

def make : SinkCall → Action Event σ (Except WriteError Unit)
  | entry address value => RegisterSink.write address value
  | control address value => RegisterSink.writeControl address value

/-- Related sinks answer a call alike and are related after it. -/
def Alike (related : σ → τ → Prop) : Prop :=
  ∀ (call : SinkCall) (s : σ) (t : τ), related s t →
    (call.make s).value = (call.make t).value ∧ related (call.make s).state (call.make t).state

end SinkCall

namespace Applier
variable {σ τ : Type} [RegisterSink σ] [RegisterSink τ]

theorem stream_cons_apply (cancel : Nat → σ → Bool) (index : Nat) (e : Entry) (rest : List Entry)
    (sink : σ) : stream cancel index (e :: rest) sink =
      if cancel index sink then ⟨.error (.cancelled index), sink,
        [.line ⟨.debug, s!"apply cancelled completed={index}"⟩]⟩
      else
        let taken := RegisterSink.write e.address e.value sink
        match taken.value with
        | .ok () =>
          let later := stream cancel (index + 1) rest taken.state
          ⟨later.value, later.state, taken.events ++ later.events⟩
        | .error cause => ⟨.error (.entryWrite index cause), taken.state, taken.events ++ [.line ⟨.debug,
            s!"entry write failed index={index} address={Text.hexWord e.address}: {cause.message}"⟩]⟩ := by
  simp only [stream, Action.bind_apply, Action.state_apply]
  by_cases raised : cancel index sink = true
  · simp [raised, Action.log]
  · cases answer : (RegisterSink.write e.address e.value sink).value <;>
      simp [raised, answer, Action.log]

theorem applyUntil_apply (applier : Applier) (cancel : Nat → σ → Bool) (image : Image) (sink : σ) :
    applier.applyUntil cancel image sink =
      let streamed := stream cancel 0 image.entries sink
      match streamed.value, image.control with
      | .error e, _ => ⟨.error e, streamed.state, streamed.events⟩
      | .ok (), none => ⟨.ok ⟨image.size, false⟩, streamed.state, streamed.events⟩
      | .ok (), some word =>
        if cancel image.size streamed.state then ⟨.error (.cancelled image.size), streamed.state,
          streamed.events ++ [.line ⟨.debug, "apply cancelled before control write"⟩]⟩
        else
          let wrote := RegisterSink.writeControl applier.controlAddress word streamed.state
          ⟨match wrote.value with
            | .ok () => .ok ⟨image.size, true⟩
            | .error cause => .error (.controlWrite image.size cause),
            wrote.state, streamed.events ++ wrote.events⟩ := by
  simp only [applyUntil, Action.bind_apply]
  generalize stream cancel 0 image.entries sink = streamed
  cases streamed.value with
  | error e => simp
  | ok =>
    cases image.control with
    | none => simp
    | some word =>
      by_cases raised : cancel image.size streamed.state = true
      · simp [raised, Action.log]
      · cases answer : (RegisterSink.writeControl applier.controlAddress word streamed.state).value <;>
          simp [raised, answer]

/-- Without a flag. -/
theorem stream_cons (index : Nat) (e : Entry) (rest : List Entry)
    (sink : σ) : stream (fun _ _ => false) index (e :: rest) sink =
      let taken := RegisterSink.write e.address e.value sink
      match taken.value with
      | .ok () =>
        let later := stream (fun _ _ => false) (index + 1) rest taken.state
        ⟨later.value, later.state, taken.events ++ later.events⟩
      | .error cause => ⟨.error (.entryWrite index cause), taken.state, taken.events ++ [.line ⟨.debug,
          s!"entry write failed index={index} address={Text.hexWord e.address}: {cause.message}"⟩]⟩ := by
  rw [stream_cons_apply, if_neg Bool.false_ne_true]

theorem apply_apply (applier : Applier) (image : Image) (sink : σ) :
    applier.apply image sink =
      let streamed := stream (fun _ _ => false) 0 image.entries sink
      match streamed.value, image.control with
      | .error e, _ => ⟨.error e, streamed.state, streamed.events⟩
      | .ok (), none => ⟨.ok ⟨image.size, false⟩, streamed.state, streamed.events⟩
      | .ok (), some word =>
        let wrote := RegisterSink.writeControl applier.controlAddress word streamed.state
        ⟨match wrote.value with
          | .ok () => .ok ⟨image.size, true⟩
          | .error cause => .error (.controlWrite image.size cause),
          wrote.state, streamed.events ++ wrote.events⟩ := by
  rw [apply, applyUntil_apply]
  rfl

/-- A table that fails the check leaves the sink alone. -/
theorem applyTable_apply (applier : Applier) (checker : Checker) (table : Table) (sink : σ) :
    applier.applyTable checker table sink = match checker.checkTable table with
      | .error cause => ⟨.error (.image cause), sink, []⟩
      | .ok image =>
        let applied := applier.apply image sink
        ⟨applied.value.mapError .apply, applied.state, .line image.checkedLine :: applied.events⟩ := by
  simp only [applyTable]
  cases checker.checkTable table with
  | error cause => rfl
  | ok image => simp

variable {related : σ → τ → Prop} {cancel : Nat → σ → Bool} {cancelToo : Nat → τ → Bool}
  {s : σ} {t : τ}

theorem stream_alike (alike : SinkCall.Alike related)
    (flags : ∀ i s t, related s t → cancel i s = cancelToo i t) (entries : List Entry) (index : Nat)
    (start : related s t) :
    (stream cancel index entries s).value = (stream cancelToo index entries t).value ∧
    related (stream cancel index entries s).state (stream cancelToo index entries t).state := by
  induction entries generalizing index s t with
  | nil => exact ⟨rfl, start⟩
  | cons e rest ih =>
    have flag := flags index s t start
    obtain ⟨answers, stays⟩ := alike (.entry e.address e.value) s t start
    simp only [SinkCall.make] at answers stays
    simp only [stream_cons_apply, flag, answers]
    by_cases raised : cancelToo index t = true
    · simp only [if_pos raised]
      exact ⟨trivial, start⟩
    · simp only [if_neg raised]
      cases (RegisterSink.write e.address e.value t).value with
      | error cause => exact ⟨rfl, stays⟩
      | ok => exact ih (index + 1) stays

/-- Applying an image to related sinks, under flags that agree on them, ends alike. -/
theorem applyUntil_alike (alike : SinkCall.Alike related)
    (flags : ∀ i s t, related s t → cancel i s = cancelToo i t) (applier : Applier) (image : Image)
    (start : related s t) :
    (applier.applyUntil cancel image s).value = (applier.applyUntil cancelToo image t).value ∧
    related (applier.applyUntil cancel image s).state (applier.applyUntil cancelToo image t).state := by
  obtain ⟨same, streamed⟩ := stream_alike alike flags image.entries 0 start
  simp only [applyUntil_apply, same]
  generalize (stream cancel 0 image.entries s).state = s' at streamed
  cases (stream cancelToo 0 image.entries t).value with
  | error e => exact ⟨rfl, streamed⟩
  | ok =>
    cases image.control with
    | none => exact ⟨rfl, streamed⟩
    | some word =>
      obtain ⟨answers, stays⟩ := alike (.control applier.controlAddress word) _ _ streamed
      simp only [SinkCall.make] at answers stays
      have flag := flags image.size _ _ streamed
      simp only [flag, answers]
      split
      · exact ⟨rfl, streamed⟩
      · exact ⟨rfl, stays⟩

theorem apply_alike (alike : SinkCall.Alike related) (applier : Applier) (image : Image)
    (start : related s t) : (applier.apply image s).value = (applier.apply image t).value ∧
    related (applier.apply image s).state (applier.apply image t).state :=
  applyUntil_alike alike (fun _ _ _ _ => rfl) applier image start

/-- Sinks that accept a call and go on accepting. -/
private theorem stream_accepting {accepting : σ → Prop} (accepts : ∀ (call : SinkCall) (s : σ),
      accepting s → (call.make s).value = .ok () ∧ accepting (call.make s).state)
    (entries : List Entry) (index : Nat) (start : accepting s) :
    (stream (fun _ _ => false) index entries s).value = .ok () ∧
    accepting (stream (fun _ _ => false) index entries s).state := by
  induction entries generalizing index s with
  | nil => exact ⟨rfl, start⟩
  | cons e rest ih =>
    obtain ⟨accepted, goesOn⟩ := accepts (.entry e.address e.value) s start
    simp only [SinkCall.make] at accepted goesOn
    simp only [stream_cons, accepted]
    exact ih (index + 1) goesOn

/-- A sink that goes on accepting takes the whole image. -/
theorem apply_accepting {accepting : σ → Prop} (accepts : ∀ (call : SinkCall) (s : σ),
      accepting s → (call.make s).value = .ok () ∧ accepting (call.make s).state)
    (applier : Applier) (image : Image) (start : accepting s) :
    (applier.apply image s).value = .ok ⟨image.size, image.control.isSome⟩ := by
  obtain ⟨streamed, goesOn⟩ := stream_accepting accepts image.entries 0 start
  simp only [apply_apply, streamed]
  generalize (stream (fun _ _ => false) 0 image.entries s).state = s' at goesOn
  cases image.control with
  | none => rfl
  | some word =>
    have accepted := (accepts (.control applier.controlAddress word) s' goesOn).1
    simp only [SinkCall.make] at accepted
    simp [accepted]

end Applier
end FabricLoader
