import FabricLoader.Proofs.Apply.Calls
import FabricLoader.Sink.Recording

/-! What a failure tells about the entries of an image. All of them are in place if the control word
was refused, and just as well if the flag was seen raised between the last entry and the control
word; only the first of these two failures says so. -/
namespace FabricLoader.Applier
variable {σ : Type} [RegisterSink σ] {applier : Applier} {image : Image} {cancel : Nat → σ → Bool}
  {sink : σ} {value : Except ApplyError ApplyReport} {e : ApplyError}
  {made : List (SinkCall × Except WriteError Unit)}

def entriesAccepted (made : List (SinkCall × Except WriteError Unit)) : Nat :=
  made.countP fun (call, answer) => call.isEntry && answer.isOk

theorem entriesAccepted_take {i : Nat} (bound : i ≤ image.size)
    (further : List (SinkCall × Except WriteError Unit)) (refused : further.all (!·.2.isOk)) :
    entriesAccepted (SinkCall.accepted ((applier.calls image).take i) ++ further) = i := by
  have nothing : entriesAccepted further = 0 := by
    refine List.countP_eq_zero.mpr fun call member => ?_
    have unanswered := List.all_eq_true.mp refused call member
    simp_all
  rw [entriesAccepted, List.countP_append, applier.countP_take_calls image bound]
  exact congrArg (i + ·) nothing

/-- The call behind the entries is the control word. -/
theorem control_of_calls {i : Nat} (behind : image.size ≤ i)
    (inside : i < (applier.calls image).length) : i = image.size ∧ image.control.isSome := by
  have most := applier.length_calls_le image
  refine ⟨by omega, ?_⟩
  cases control : image.control with
  | some word => rfl
  | none =>
    rw [calls_of_none control, List.length_map] at inside
    exact absurd inside (Nat.not_lt.mpr behind)

/-- A failure comes after all entries if it is the refusal of the control word, or a cancellation
that counts every entry; any other comes before the last one was accepted. -/
theorem Ends.bulk (ends : applier.Ends image cancel sink value made) (failed : value = .error e) :
    (entriesAccepted made = image.size ↔ e.bulkApplied = true ∨ e = .cancelled image.size) ∧
    (entriesAccepted made = image.size → image.control.isSome) := by
  have most := applier.length_calls_le image
  obtain ⟨i, _, _, ⟨_, _, complete⟩ | ⟨inside, _, rfl, cancelled⟩ |
    ⟨call, cause, found, _, rfl, refused⟩⟩ := ends
  · cases complete.symm.trans failed
  · have counted : entriesAccepted (SinkCall.accepted ((applier.calls image).take i) ++ []) = i :=
      entriesAccepted_take (by omega) [] rfl
    rw [List.append_nil] at counted
    obtain rfl := Except.error.inj (cancelled.symm.trans failed)
    rw [counted]
    refine ⟨by simp [ApplyError.bulkApplied], ?_⟩
    rintro rfl
    exact (control_of_calls (Nat.le_refl _) inside).2
  · have inside := (List.getElem?_eq_some_iff.mp found).1
    rw [entriesAccepted_take (by omega) [(call, .error cause)] rfl]
    obtain rfl := Except.error.inj (refused.symm.trans failed)
    by_cases entry : i < image.size
    · have before : i ≠ image.size := by omega
      simp [entry, before, ApplyError.bulkApplied]
    · obtain ⟨rfl, some⟩ := control_of_calls (Nat.le_of_not_lt entry) inside
      simp [some, ApplyError.bulkApplied]

/-- Applying an image to any sink, under any flag: a failure says that only the control word is
missing if and only if every entry was accepted and the failure is no cancellation. A cancellation
that counts every entry leaves the control word as the only call missing too, and says nothing of it. -/
theorem bulkApplied_iff (applier : Applier) (cancel : Nat → σ → Bool) (image : Image) (sink : σ)
    (e : ApplyError) (failed : (applier.applyUntil cancel image sink).value = .error e) :
    let run := applier.applyUntil (fun i (s : Observed σ) => cancel i s.inner) image ⟨sink, []⟩
    let accepted := entriesAccepted run.state.calls
    (run.value = .error e ∧ run.state.inner = (applier.applyUntil cancel image sink).state) ∧
    (e.bulkApplied = true ↔ accepted = image.size ∧ e ≠ .cancelled image.size) ∧
    (e = .cancelled image.size → accepted = image.size ∧ e.bulkApplied = false) ∧
    (accepted = image.size → image.control.isSome) := by
  intro run accepted
  obtain ⟨same, inner⟩ :
      run.value = (applier.applyUntil cancel image sink).value ∧
        run.state.inner = (applier.applyUntil cancel image sink).state :=
    applyUntil_alike Observed.alike_inner (by rintro i s t rfl; rfl) applier image rfl
  have observed : run.value = .error e := same.trans failed
  obtain ⟨after, control⟩ := (applyUntil_observed applier image cancel sink).bulk observed
  refine ⟨⟨observed, inner⟩, ?_, ?_, control⟩
  · by_cases cancelled : e = .cancelled image.size
    · simp [cancelled, ApplyError.bulkApplied]
    · simpa [cancelled] using after.symm
  · rintro rfl
    exact ⟨after.mpr (.inr rfl), rfl⟩

/-- A control word that is refused. -/
theorem bulkApplied_iff_refused :
    let image : Image := ⟨[⟨1, 2⟩], 32, some 9, by decide⟩
    let sink := Recording.new none true
    let e := ApplyError.controlWrite 1 (.rejected 0)
    let run := (⟨0⟩ : Applier).applyUntil (fun _ (_ : Observed Recording) => false) image ⟨sink, []⟩
    ((⟨0⟩ : Applier).applyUntil (fun _ _ => false) image sink).value = .error e ∧
      run.value = .error e ∧
      (e.bulkApplied = true ↔ entriesAccepted run.state.calls = 1 ∧ e ≠ .cancelled 1) := by
  intro image sink e run
  have failed : ((⟨0⟩ : Applier).applyUntil (fun _ _ => false) image sink).value = .error e := rfl
  obtain ⟨⟨observed, _⟩, iff, _⟩ := bulkApplied_iff ⟨0⟩ (fun _ _ => false) image sink e failed
  exact ⟨failed, observed, iff⟩

/-- A flag that the last entry raises: every entry is in place, and the failure does not say so. -/
theorem bulkApplied_false_of_complete :
    let image : Image := ⟨[⟨1, 2⟩], 32, some 9, by decide⟩
    let cancel := fun (_ : Nat) (sink : Observed Recording) => sink.inner.writes.length == 1
    let run := (⟨0⟩ : Applier).applyUntil cancel image ⟨Recording.new none false, []⟩
    ∃ e, run.value = .error e ∧
      ¬(e.bulkApplied = true ↔ entriesAccepted run.state.calls = image.size) := by
  intro image cancel run
  exact ⟨.cancelled 1, rfl, by decide⟩

end FabricLoader.Applier
