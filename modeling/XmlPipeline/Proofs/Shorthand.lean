import XmlPipeline.CommandLine.Shorthand
import XmlPipeline.Proofs.Operands
set_option autoImplicit false

/-!
The shorthand for running a program. Main statements: arguments that already tell a command are left
as they are, and where a command is added there is an operand without one. A file that runs under
the command runs without it too, unless its name begins with a hyphen.
-/

namespace XmlPipeline.CommandLine

/-- The argument stands behind an option that takes a value, and is that value. What is a value is
no option itself. -/
def SeparateValue (args : List String) : Nat → Prop
  | 0 => False
  | n + 1 => (∃ opt ∈ valueOptions, args[n]? = some opt) ∧ ¬ SeparateValue args n

/-- The word is an argument that is neither written like an option nor the value of one. -/
def OperandAt (args : List String) (n : Nat) (word : String) : Prop :=
  args[n]? = some word ∧ ¬ Dashed word ∧ ¬ SeparateValue args n

section Scan

theorem mem_valueOptions_iff {opt : String} :
    opt ∈ valueOptions ↔ opt = "--base-dir" ∨ opt = "-c" ∨ opt = "--category" := by
  simp [valueOptions]

theorem dashed_of_mem_valueOptions {opt : String} (h : opt ∈ valueOptions) : Dashed opt := by
  rcases mem_valueOptions_iff.1 h with rfl | rfl | rfl <;> decide

theorem firstOperand?_value {opt : String} (h : opt ∈ valueOptions) (rest : List String) :
    firstOperand? (opt :: rest) = firstOperand? rest.tail := by
  cases rest <;> simp [firstOperand?, h]

theorem firstOperand?_dashed {arg : String} (h : Dashed arg) (h' : arg ∉ valueOptions)
    (rest : List String) : firstOperand? (arg :: rest) = firstOperand? rest := by
  rw [Dashed] at h
  cases rest <;> simp [firstOperand?, h, h']

theorem firstOperand?_operand {arg : String} (h : ¬ Dashed arg) (rest : List String) :
    firstOperand? (arg :: rest) = some arg := by
  have h' : arg ∉ valueOptions := fun hm => h (dashed_of_mem_valueOptions hm)
  rw [Dashed] at h
  cases rest <;> simp [firstOperand?, h, h']

theorem separateValue_cons {arg : String} (h : arg ∉ valueOptions) (rest : List String) (n : Nat) :
    SeparateValue (arg :: rest) (n + 1) ↔ SeparateValue rest n := by
  induction n with
  | zero => simpa [SeparateValue] using h
  | succ n ih => rw [SeparateValue, ih, SeparateValue, List.getElem?_cons_succ]

theorem separateValue_value {opt : String} (h : opt ∈ valueOptions) (rest : List String) (n : Nat) :
    SeparateValue (opt :: rest) (n + 2) ↔ SeparateValue rest.tail n := by
  induction n with
  | zero => simp [SeparateValue, h]
  | succ n ih =>
    have hstep : SeparateValue (opt :: rest) (n + 1 + 2) ↔
        (∃ o ∈ valueOptions, rest.tail[n]? = some o) ∧ ¬ SeparateValue (opt :: rest) (n + 2) := by
      rw [List.getElem?_tail]
      exact Iff.rfl
    rw [hstep, ih]
    exact Iff.rfl

/-- What begins with a hyphen is skipped, and so is a value behind it. Whether what follows is an
operand does not depend on what was skipped. -/
theorem exists_skip {arg : String} (h : Dashed arg) (rest : List String) :
    ∃ k later, later.length ≤ rest.length ∧
      firstOperand? (arg :: rest) = firstOperand? later ∧
      ∀ n word, OperandAt (arg :: rest) n word ↔ ∃ m, n = m + k ∧ OperandAt later m word := by
  have hhead (word : String) : ¬ OperandAt (arg :: rest) 0 word := by
    rintro ⟨hword, hplain, _⟩
    rw [List.getElem?_cons_zero, Option.some.injEq] at hword
    exact hplain (hword ▸ h)
  by_cases hvalue : arg ∈ valueOptions
  · refine ⟨2, rest.tail, by simp, firstOperand?_value hvalue rest, fun n word => ?_⟩
    match n with
    | 0 => simp [hhead]
    | 1 => simp [OperandAt, SeparateValue, hvalue]
    | n + 2 => simp [OperandAt, separateValue_value hvalue, List.getElem?_tail]
  · refine ⟨1, rest, Nat.le_refl _, firstOperand?_dashed h hvalue rest, fun n word => ?_⟩
    match n with
    | 0 => simp [hhead]
    | n + 1 => simp [OperandAt, separateValue_cons hvalue]

theorem firstOperand?_cases (args : List String) :
    (firstOperand? args = none ∧ ∀ n word, ¬ OperandAt args n word) ∨
    ∃ n word, firstOperand? args = some word ∧ OperandAt args n word ∧
      ∀ m < n, ∀ other, ¬ OperandAt args m other := by
  match args with
  | [] => exact .inl ⟨rfl, by simp [OperandAt]⟩
  | arg :: rest =>
    by_cases hdashed : Dashed arg
    · obtain ⟨k, later, hlength, hscan, hat⟩ := exists_skip hdashed rest
      have hshort : later.length < (arg :: rest).length := Nat.lt_succ_of_le hlength
      simp only [hscan, hat]
      rcases firstOperand?_cases later with ⟨hnone, hfree⟩ | ⟨n, word, hsome, hword, hfirst⟩
      · refine .inl ⟨hnone, ?_⟩
        rintro n word ⟨m, _, hm⟩
        exact hfree m word hm
      · refine .inr ⟨n + k, word, hsome, ⟨n, rfl, hword⟩, ?_⟩
        rintro m hm other ⟨m, rfl, hother⟩
        exact hfirst m (Nat.lt_of_add_lt_add_right hm) other hother
    · exact .inr ⟨0, arg, firstOperand?_operand hdashed rest, ⟨rfl, hdashed, id⟩, by simp⟩
termination_by args.length

theorem firstOperand?_eq_some_iff {args : List String} {word : String} :
    firstOperand? args = some word ↔
      ∃ n, OperandAt args n word ∧ ∀ m < n, ∀ other, ¬ OperandAt args m other := by
  rcases firstOperand?_cases args with ⟨hnone, hfree⟩ | ⟨n, first, hsome, hat, hfirst⟩
  · simp [hnone, hfree]
  · rw [hsome, Option.some.injEq]
    constructor
    · rintro rfl
      exact ⟨n, hat, hfirst⟩
    · rintro ⟨m, hm, hbefore⟩
      rcases Nat.lt_trichotomy n m with hlt | rfl | hlt
      · exact absurd hat (hbefore n hlt first)
      · rw [OperandAt, hat.1, Option.some.injEq] at hm
        exact hm.1
      · exact absurd hm (hfirst m hlt word)

end Scan

section Expansion

theorem expandShorthand_cons (name : String) (args : List String) :
    expandShorthand (name :: args) =
      if ∃ word, firstOperand? args = some word ∧ word ∉ commandNames then name :: "run" :: args
      else name :: args := by
  rw [expandShorthand]
  cases h : firstOperand? args with
  | none => simp
  | some word => by_cases hword : word ∈ commandNames <;> simp [hword]

theorem expandShorthand_ne_iff (name : String) (args : List String) :
    expandShorthand (name :: args) ≠ name :: args ↔
      ∃ word, firstOperand? args = some word ∧ word ∉ commandNames := by
  rw [expandShorthand_cons]
  split
  · next h => simp [h]
  · next h => simp [h]

theorem firstOperand?_run (args : List String) : firstOperand? ("run" :: args) = some "run" :=
  firstOperand?_operand (by decide) args

theorem expandShorthand_run (name : String) (args : List String) :
    expandShorthand (name :: "run" :: args) = name :: "run" :: args := by
  rw [expandShorthand_cons, if_neg]
  rintro ⟨word, hfirst, hword⟩
  rw [firstOperand?_run, Option.some.injEq] at hfirst
  exact hword (hfirst ▸ by decide)

theorem expandShorthand_cases (args : List String) :
    expandShorthand args = args ∨
      ∃ name rest, args = name :: rest ∧ expandShorthand args = name :: "run" :: rest := by
  cases args with
  | nil => exact .inl rfl
  | cons name rest =>
    rw [expandShorthand_cons]
    split
    · exact .inr ⟨name, rest, rfl, rfl⟩
    · exact .inl rfl

end Expansion

/-- No option that takes a value can stand before a command. -/
theorem option?_programOptions_value {g : Given} {opt : String} (h : opt ∈ valueOptions) :
    Given.option? programOptions g opt = some (.error (.misuse .unknownArgument)) := by
  rcases mem_valueOptions_iff.1 h with rfl | rfl | rfl <;> rfl

theorem readProgram_cons_eq_ok {g : Given} {arg : String} {rest : List String} {command : Command}
    (h : readProgram g (arg :: rest) = .ok command) :
    (arg ∈ commandNames ∧ ¬ Dashed arg) ∨
      ∃ g', Given.option? programOptions g arg = some (.ok g') ∧
        readProgram g' rest = .ok command := by
  unfold readProgram at h
  split at h
  · next harg => exact .inl (by subst harg; decide)
  split at h
  · next harg => exact .inl (by subst harg; decide)
  split at h
  · cases h
  split at h
  · split at h <;> cases h
  split at h
  · next result hopt =>
    cases result with
    | error stop => cases h
    | ok g' => exact .inr ⟨g', hopt, h⟩
  · cases h

theorem firstOperand?_of_readProgram {args : List String} {g : Given} {command : Command}
    (h : readProgram g args = .ok command) :
    ∃ word ∈ commandNames, firstOperand? args = some word := by
  induction args generalizing g with
  | nil => cases h
  | cons arg rest ih =>
    rcases readProgram_cons_eq_ok h with ⟨hname, hplain⟩ | ⟨g', hopt, hrest⟩
    · exact ⟨arg, hname, firstOperand?_operand hplain rest⟩
    · have hvalue : arg ∉ valueOptions := by
        intro hm
        rw [option?_programOptions_value hm] at hopt
        cases hopt
      rw [firstOperand?_dashed (Given.dashed_of_option? hopt) hvalue]
      exact ih hrest

theorem expandShorthand_of_readArguments {args : List String} {command : Command}
    (h : readArguments args = .ok command) : expandShorthand args = args := by
  cases args with
  | nil => rfl
  | cons name rest =>
    have hread : readProgram {} rest = .ok command := h
    obtain ⟨word, hword, hfirst⟩ := firstOperand?_of_readProgram hread
    rw [expandShorthand_cons, if_neg]
    rintro ⟨other, hother, hnot⟩
    rw [hfirst, Option.some.injEq] at hother
    exact hnot (hother ▸ hword)

/-- Adding a command never changes what is told already: what tells a command is left as it is, and
nothing but one word is ever added, once. It is added if the first operand is no command's name. -/
theorem shorthand_keeps_commands (args : List String) :
    (∀ command, readArguments args = .ok command → expandShorthand args = args) ∧
    (expandShorthand args = args ∨
      ∃ name rest, args = name :: rest ∧ expandShorthand args = name :: "run" :: rest) ∧
    expandShorthand (expandShorthand args) = expandShorthand args ∧
    (expandShorthand args ≠ args ↔ ∃ n word, OperandAt args.tail n word ∧
      (∀ m < n, ∀ other, ¬ OperandAt args.tail m other) ∧ word ∉ commandNames) := by
  refine ⟨fun _ => expandShorthand_of_readArguments, expandShorthand_cases args, ?_, ?_⟩
  · rcases expandShorthand_cases args with hsame | ⟨name, rest, rfl, hadded⟩
    · rw [hsame, hsame]
    · rw [hadded, expandShorthand_run]
  · cases args with
    | nil => simp [expandShorthand, OperandAt]
    | cons name rest =>
      rw [expandShorthand_ne_iff]
      simp only [firstOperand?_eq_some_iff, List.tail_cons]
      constructor
      · rintro ⟨word, ⟨n, hat, hfirst⟩, hword⟩
        exact ⟨n, word, hat, hfirst, hword⟩
      · rintro ⟨n, word, hat, hfirst, hword⟩
        exact ⟨word, ⟨n, hat, hfirst⟩, hword⟩

def plainRun (file : String) : RunOptions :=
  { file, check := false, ast := false, tree := false, quiet := false, baseDir := ".",
    noColor := false }

def hyphenInTest : RunOptions := { plainRun "-" with baseDir := "test", noColor := true }

theorem shorthand_keeps_commands_value :
    readArguments ["xpl", "--no-color", "run", "--base-dir", "test", "-"] =
      .ok (.run hyphenInTest) ∧
    expandShorthand ["xpl", "--no-color", "run", "--base-dir", "test", "-"] =
      ["xpl", "--no-color", "run", "--base-dir", "test", "-"] := by
  have hread : readArguments ["xpl", "--no-color", "run", "--base-dir", "test", "-"] =
      .ok (.run hyphenInTest) := by
    rfl
  exact ⟨hread, (shorthand_keeps_commands _).1 _ hread⟩

section Run

variable {g g' : Given} {arg : String}

theorem baseDir_of_takesValue : ∀ opt ∈ runOptions, Given.takesValue opt = true →
    opt.long = "base-dir" ∧ opt.short = none := by
  decide

theorem awaits_iff_mem_valueOptions (h : Given.option? runOptions g arg = some (.ok g')) :
    g'.Awaits ↔ arg ∈ valueOptions := by
  constructor
  · intro hawaits
    obtain ⟨opt, hopt, htakes, harg⟩ := (Given.option?_ok h).2 hawaits
    obtain ⟨hlong, hnone⟩ := baseDir_of_takesValue opt hopt htakes
    rcases harg with hshort | rfl
    · simp [hnone] at hshort
    · rw [hlong]
      decide
  · intro hvalue
    rcases mem_valueOptions_iff.1 hvalue with rfl | rfl | rfl
    · have hawait : g.await { long := "base-dir", use := .single false } none = .ok g' :=
        Option.some.inj h
      exact (Given.await_ok hawait).2.2 rfl
    · cases Option.some.inj h
    · cases Option.some.inj h

theorem option?_ne_none_of_mem {opts : List Opt} (h : arg ∈ valueOptions) :
    Given.option? opts g arg ≠ none := by
  rcases mem_valueOptions_iff.1 h with rfl | rfl | rfl <;> exact Option.some_ne_none _

def plain? (operand : Option String) : Option String := operand.filter fun word => ¬ Dashed word

theorem plain?_dashed {word : String} (h : Dashed word) : plain? (some word) = none := by
  simp [plain?, h]

theorem plain?_some {word : String} (h : ¬ Dashed word) : plain? (some word) = some word := by
  simp [plain?, h]

theorem firstOperand?_singleton (word : String) : firstOperand? [word] = plain? (some word) := by
  by_cases hdashed : Dashed word
  · rw [plain?_dashed hdashed]
    by_cases hvalue : word ∈ valueOptions
    · exact firstOperand?_value hvalue []
    · exact firstOperand?_dashed hdashed hvalue []
  · rw [plain?_some hdashed, firstOperand?_operand hdashed]

theorem firstOperand?_cons_of_isOperand {opts : List Opt} (h : Given.option? opts g arg = none)
    (rest : List String) :
    firstOperand? (arg :: rest) = (plain? (some arg)).or (firstOperand? rest) := by
  by_cases hdashed : Dashed arg
  · rw [plain?_dashed hdashed, firstOperand?_dashed hdashed fun hm => option?_ne_none_of_mem hm h]
    rfl
  · rw [plain?_some hdashed, firstOperand?_operand hdashed]
    rfl

/-- The scan finds the operand of a run, if that does not begin with a hyphen. Where a value is
awaited the scan goes on behind it. -/
theorem firstOperand?_of_read {args : List String} (h : Given.read runOptions g args = .ok g')
    (unseen : plain? g.operand = none) :
    (g.Awaits → firstOperand? args.tail = plain? g'.operand) ∧
    (¬ g.Awaits → firstOperand? args = plain? g'.operand) := by
  -- Both halves go on together: an option that awaits a value leads from the second to the first.
  induction args generalizing g with
  | nil =>
    obtain ⟨hgives, _⟩ := Given.settle_ok h
    rw [hgives.operand, unseen]
    exact ⟨fun _ => rfl, fun _ => rfl⟩
  | cons arg rest ih =>
    cases Given.taken_of_read h with
    | separator isSeparator later =>
      obtain ⟨hidle, hoperands⟩ := Given.operands_ok later
      refine ⟨fun hawaits => absurd hawaits hidle, fun _ => ?_⟩
      rw [isSeparator, firstOperand?_dashed (by decide) (by decide)]
      rcases hoperands with ⟨rfl, hkept⟩ | ⟨word, rfl, _, hset⟩
      · rw [hkept, unseen]
        rfl
      · rw [hset, firstOperand?_singleton]
    | @option next given later =>
      obtain ⟨hgives, _⟩ := Given.option?_ok given
      obtain ⟨hawaiting, hidle⟩ := ih later (by rw [hgives.operand, unseen])
      refine ⟨fun hawaits => absurd hawaits hgives.idle, fun _ => ?_⟩
      rw [awaits_iff_mem_valueOptions given] at hawaiting hidle
      by_cases hvalue : arg ∈ valueOptions
      · rw [firstOperand?_value hvalue, hawaiting hvalue]
      · rw [firstOperand?_dashed (Given.dashed_of_option? given) hvalue, hidle hvalue]
    | value isValue awaited later =>
      obtain ⟨_, hidle⟩ := ih later unseen
      refine ⟨fun _ => hidle ?_, fun hno => absurd ⟨_, awaited⟩ hno⟩
      rintro ⟨opt, hpending⟩
      cases hpending
    | @operand next isOperand idle set later =>
      obtain ⟨_, _, hset, hpending⟩ := Given.setOperand_ok set
      refine ⟨fun hawaits => absurd hawaits idle, fun _ => ?_⟩
      rw [firstOperand?_cons_of_isOperand isOperand]
      by_cases hdashed : Dashed arg
      · rw [plain?_dashed hdashed]
        exact (ih later (by rw [hset, plain?_dashed hdashed])).2 (Given.not_awaits hpending)
      · rw [Given.operand_of_read later hset, plain?_some hdashed]
        rfl

theorem exists_read_of_readRun {noColor : Bool} {args : List String} {o : RunOptions}
    (h : readRun noColor args = .ok (.run o)) :
    ∃ g, Given.read runOptions {} args = .ok g ∧ g.operand = some o.file := by
  unfold readRun at h
  cases hread : Given.read runOptions {} args with
  | error stop =>
    rw [hread] at h
    cases h
  | ok g =>
    refine ⟨g, rfl, ?_⟩
    rw [hread] at h
    cases hoperand : g.operand with
    | none => simp [Except.bind, hoperand] at h
    | some file =>
      simp only [Except.bind, hoperand, Except.ok.injEq, Command.run.injEq] at h
      rw [← h]

theorem firstOperand?_of_readRun {noColor : Bool} {args : List String} {o : RunOptions}
    (h : readRun noColor args = .ok (.run o)) : firstOperand? args = plain? (some o.file) := by
  obtain ⟨g, hread, hfile⟩ := exists_read_of_readRun h
  rw [← hfile]
  exact (firstOperand?_of_read hread rfl).2 (Given.not_awaits rfl)

end Run

/-- A file that runs under the command runs without it too, with the same options, unless its name
begins with a hyphen. If it does the command is not added, and no command is told without it. -/
theorem shorthand_runs_file {name : String} {rest : List String} {o : RunOptions}
    (runs : readArguments (name :: "run" :: rest) = .ok (.run o))
    (notCommand : o.file ∉ commandNames) :
    (¬ Dashed o.file → expandShorthand (name :: rest) = name :: "run" :: rest ∧
      readArguments (expandShorthand (name :: rest)) = .ok (.run o)) ∧
    (Dashed o.file → expandShorthand (name :: rest) = name :: rest ∧
      ∀ command, readArguments (expandShorthand (name :: rest)) ≠ .ok command) := by
  have hread : readRun false rest = .ok (.run o) := by
    simpa [readArguments, readProgram] using runs
  have hscan := firstOperand?_of_readRun hread
  constructor
  · intro hplain
    rw [plain?_some hplain] at hscan
    have hadded : expandShorthand (name :: rest) = name :: "run" :: rest := by
      rw [expandShorthand_cons, if_pos ⟨o.file, hscan, notCommand⟩]
    exact ⟨hadded, by rw [hadded, runs]⟩
  · intro hdashed
    rw [plain?_dashed hdashed] at hscan
    have hkept : expandShorthand (name :: rest) = name :: rest := by
      rw [expandShorthand_cons, if_neg (by simp [hscan])]
    refine ⟨hkept, fun command hcommand => ?_⟩
    rw [hkept] at hcommand
    have hprogram : readProgram {} rest = .ok command := hcommand
    obtain ⟨word, _, hfirst⟩ := firstOperand?_of_readProgram hprogram
    rw [hscan] at hfirst
    cases hfirst

def fileInTest : RunOptions := { plainRun "p.xml" with baseDir := "test", quiet := true }

theorem shorthand_runs_file_separated :
    (readArguments ["xpl", "run", "--base-dir", "test", "-q", "--", "p.xml"] =
      .ok (.run fileInTest) ∧ fileInTest.file ∉ commandNames ∧ ¬ Dashed fileInTest.file) ∧
    readArguments (expandShorthand ["xpl", "--base-dir", "test", "-q", "--", "p.xml"]) =
      .ok (.run fileInTest) := by
  have hread : readArguments ["xpl", "run", "--base-dir", "test", "-q", "--", "p.xml"] =
      .ok (.run fileInTest) := by
    rfl
  have hcommand : fileInTest.file ∉ commandNames := by decide
  have hplain : ¬ Dashed fileInTest.file := by decide
  exact ⟨⟨hread, hcommand, hplain⟩, ((shorthand_runs_file hread hcommand).1 hplain).2⟩

/-- With the command these files run, and without it the command is not added: one with the name of
a hyphen, and one whose name begins with a hyphen, behind a separator. -/
theorem shorthand_loses_hyphen :
    (readArguments ["xpl", "run", "-"] = .ok (.run (plainRun "-")) ∧ "-" ∉ commandNames ∧
      expandShorthand ["xpl", "-"] ≠ ["xpl", "run", "-"]) ∧
    (readArguments ["xpl", "run", "--", "-f.xml"] = .ok (.run (plainRun "-f.xml")) ∧
      "-f.xml" ∉ commandNames ∧
      expandShorthand ["xpl", "--", "-f.xml"] ≠ ["xpl", "run", "--", "-f.xml"]) :=
  ⟨⟨by rfl, by decide, by decide⟩, by rfl, by decide, by decide⟩

end XmlPipeline.CommandLine
