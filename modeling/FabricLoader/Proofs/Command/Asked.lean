import FabricLoader.Command.Arguments

/-! Command lines without surprises: the name of a command, files whose names do not look like
options, and an option with its value behind them. -/
namespace FabricLoader.Arguments

variable {argument name text file output : String} {files rest : List String} {verb : Verb}
  {c : Collected} {command : Command} {address : UInt32}

/-- An argument that does not look like an option. -/
def Plain (argument : String) : Prop := argument.toList.head? ≠ some '-'

instance : DecidablePred Plain := fun _ => inferInstanceAs (Decidable (_ ≠ _))

theorem pieces?_plain (plain : Plain argument) (verb : Option Verb) : pieces? verb argument = none := by
  unfold pieces?
  split
  · rename_i dashes
    exact (plain (by simp [dashes])).elim
  · rename_i dash
    exact (plain (by simp [dash])).elim
  · rfl

theorem collect_file (plain : Plain file) (rest : List String) :
    collect verb c (file :: rest) = addFiles verb c [file] >>= fun c => collect verb c rest := by
  have notDashes : file ≠ "--" := by
    rintro rfl
    exact plain (by decide)
  rw [collect]
  · simp only [pieces?_plain plain]
  · exact notDashes

/-- Files are collected as long as the command takes that many. -/
theorem collect_files (plain : ∀ file ∈ files, Plain file)
    (taken : verb.takes (c.files ++ files).length) (rest : List String) :
    collect verb c (files ++ rest) = collect verb { c with files := c.files ++ files } rest := by
  induction files generalizing c with
  | nil => simp
  | cons file files ih =>
    have fewer : verb.takes (c.files ++ [file]).length := by
      simp only [Verb.takes, Bool.or_eq_true, decide_eq_true_eq, List.length_append,
        List.length_cons, List.length_nil] at taken ⊢
      exact taken.imp id (by omega)
    have added : addFiles verb c [file] = .ok { c with files := c.files ++ [file] } := by
      simp only [addFiles, if_pos fewer]
    rw [List.cons_append, collect_file (plain file List.mem_cons_self), added]
    change collect verb { c with files := c.files ++ [file] } (files ++ rest) = _
    rw [ih (fun f member => plain f (List.mem_cons_of_mem _ member)) (by simpa using taken)]
    simp

/-- An option takes the argument after it. -/
theorem collect_awaiting {opt : Opt} (found : pieces? (some verb) argument = some [.awaiting opt])
    (notDashes : argument ≠ "--") (plain : Plain text) (rest : List String) :
    collect verb c (argument :: text :: rest) = collect verb (c.add opt text) rest := by
  rw [collect]
  · simp only [found, take]
    change (if (pieces? none text).isSome then _ else _) = _
    rw [pieces?_plain plain]
    rfl
  · exact notDashes

theorem collect_valued {opt : Opt} (found : pieces? (some verb) argument = some [.valued opt text])
    (notDashes : argument ≠ "--") (rest : List String) :
    collect verb c (argument :: rest) = collect verb (c.add opt text) rest := by
  rw [collect]
  · simp only [found, take]
    rfl
  · exact notDashes

theorem pieces?_output (output : String) :
    pieces? (some .pack) ("--output=" ++ output) = some [.valued .output output] := by
  have shape : ("--output=" ++ output).toList = '-' :: '-' :: ("output".toList ++ '=' :: output.toList) := by
    simp
  rw [pieces?, shape]
  simp [longPiece, longOpt?, Opt.takesValue]

theorem plain_of_address (reads : address? text = some address) : Plain text := by
  intro dash
  obtain ⟨digits, shape⟩ : ∃ digits, text.toList = '-' :: digits := List.head?_eq_some_iff.mp dash
  simp [address?, shape, Text.word?, Text.unsigned?, Text.digits?, Text.digitsFrom, Text.digitValue] at reads

theorem parse_verb (named : Verb.ofName? name = some verb) (collected : collect verb .empty rest = .ok c)
    (formed : command? verb c = some command) :
    parse (name :: rest) = .run (threshold c.verbose) command := by
  have noOption : pieces? none name = none ∧ name ≠ "help" := by
    unfold Verb.ofName? at named
    split at named <;> cases named <;> decide +kernel
  have quiet : (if c.verbose = 0 then 0 else c.verbose) = c.verbose := by
    split <;> simp_all
  simp only [parse, parseFrom, noOption.1, noOption.2, if_false, named, collected, formed, quiet]

theorem parse_check (some : files ≠ []) (plain : ∀ file ∈ files, Plain file) :
    parse ("check" :: files) = .run .info (.check files) := by
  have collected : collect .check .empty (files ++ []) = _ := collect_files plain rfl []
  rw [List.append_nil] at collected
  obtain ⟨first, others, rfl⟩ := List.exists_cons_of_ne_nil some
  exact parse_verb rfl collected rfl

/-- One file, and then what else there is to collect. -/
theorem collect_one (verb : Verb) (plain : Plain file) (rest : List String) :
    collect verb .empty (file :: rest) = collect verb ⟨0, [file], [], []⟩ rest := by
  have one : ∀ f ∈ [file], Plain f := by simpa using plain
  exact collect_files one (by cases verb <;> rfl) rest

theorem parse_dump (plain : Plain file) : parse ["dump", file] = .run .info (.dump file) :=
  parse_verb rfl (collect_one _ plain []) rfl

theorem parse_plan (plain : Plain file) : parse ["plan", file] = .run .info (.plan file none) :=
  parse_verb rfl (collect_one _ plain []) rfl

theorem parse_plan_address (plain : Plain file) (reads : address? text = some address) :
    parse ["plan", file, "--control-address", text] = .run .info (.plan file (some address)) := by
  have collected := collect_one .plan plain ["--control-address", text]
  rw [collect_awaiting rfl (by decide) (plain_of_address reads)] at collected
  refine parse_verb rfl collected ?_
  simp [command?, Collected.add, reads]

theorem parse_pack (plain : Plain file) (plainOutput : Plain output) :
    parse ["pack", file, "-o", output] = .run .info (.pack file output) := by
  have collected := collect_one .pack plain ["-o", output]
  rw [collect_awaiting rfl (by decide) plainOutput] at collected
  exact parse_verb rfl collected rfl

theorem parse_pack_joined (plain : Plain file) (output : String) :
    parse ["pack", file, "--output=" ++ output] = .run .info (.pack file output) := by
  have collected := collect_one .pack plain ["--output=" ++ output]
  have notDashes : "--output=" ++ output ≠ "--" := by
    intro same
    simpa using congrArg String.toList same
  rw [collect_valued (pieces?_output output) notDashes] at collected
  exact parse_verb rfl collected rfl

end FabricLoader.Arguments
