import XmlPipeline.Proofs.Operations
set_option autoImplicit false

/-!
Typing: a look at a program that runs nothing of it, and tells whether there will be a text to print
at each print. Main statement: what it finds is the only type error that a run can end in, and a run
ends in it unless something else fails before. Whether anything else fails is NOT foretold.
-/

namespace XmlPipeline

def Instruction.inOrder (i : Instruction) : List Instruction := i.preorder.map Prod.snd

end XmlPipeline

namespace XmlPipeline.Run
open Markup (Span)

/-- The first print that is met without a text at hand. A pipeline takes away what there is as it
opens, a file brings a text, and all else leaves things as they are. -/
def firstStarved : Bool → List Instruction → Option Span
  | _, [] => none
  | _, .block .pipeline _ _ :: rest => firstStarved false rest
  | fed, .block .input _ _ :: rest => firstStarved fed rest
  | fed, .block .step _ _ :: rest => firstStarved fed rest
  | _, .act .file _ _ :: rest => firstStarved true rest
  | true, .act .print _ _ :: rest => firstStarved true rest
  | false, .act .print span _ :: _ => some span

def WellTyped (program : Program) : Prop := firstStarved false program.root.inOrder = none

instance (program : Program) : Decidable (WellTyped program) :=
  inferInstanceAs (Decidable (firstStarved false program.root.inOrder = none))

/-- Every file that is asked for can be read, and every line that is printed is taken, as far as the
first print that has no text. -/
def Unhindered (ctx : Context) : Value → Sink → List Instruction → Prop
  | _, _, [] => True
  | _, sink, .block .pipeline _ _ :: rest => Unhindered ctx .unit sink rest
  | value, sink, .block .input _ _ :: rest => Unhindered ctx value sink rest
  | value, sink, .block .step _ _ :: rest => Unhindered ctx value sink rest
  | _, sink, .act .file _ path :: rest =>
    ∃ content, ctx.read (Files.join ctx.base path) = .ok content ∧
      Unhindered ctx (.text content) sink rest
  | .text content, sink, .act .print _ _ :: rest =>
    (sink.write (printedLine content)).2 = .ok () ∧
      Unhindered ctx (.text content) (sink.write (printedLine content)).1 rest
  | .unit, _, .act .print _ _ :: _ => True

def Value.isText : Value → Bool
  | .unit => false
  | .text _ => true

def RunError.IsTypeError (e : RunError) : Prop := ∃ expected got, e.cause = .typeMismatch expected got

def starvation (ctx : Context) (span : Span) : RunError :=
  ⟨.typeMismatch "String" "Unit", some span, ctx.source⟩

/-- What an instruction does itself, without the instructions in it. -/
def operation? : Instruction → Option Operation
  | .block .pipeline _ _ => some .reset
  | .block .input _ _ | .block .step _ _ => none
  | .act .file span path => some (.read path span)
  | .act .print span _ => some (.print span)

mutual

theorem filterMap_preorderFrom (i : Instruction) (depth : Nat) :
    ((i.preorderFrom depth).map Prod.snd).filterMap operation? = flatten i := by
  cases i with
  | block scope span body =>
    have ih := filterMap_preorderAll body (depth + 1)
    rw [Instruction.preorderFrom, List.map_cons, List.filterMap_cons, ih]
    cases scope <;> rw [flatten] <;> rfl
  | act action span payload =>
    cases action <;> simp [Instruction.preorderFrom, operation?, flatten]

theorem filterMap_preorderAll (is : List Instruction) (depth : Nat) :
    ((Instruction.preorderAll depth is).map Prod.snd).filterMap operation? = flattenAll is := by
  cases is with
  | nil => rw [Instruction.preorderAll, flattenAll]; rfl
  | cons i rest =>
    rw [Instruction.preorderAll, List.map_append, List.filterMap_append, flattenAll,
      filterMap_preorderFrom i depth, filterMap_preorderAll rest depth]

end

def walk (ctx : Context) (is : List Instruction) : Value → Sink → Outcome :=
  runOperations ctx (is.filterMap operation?)

theorem observed_execute_eq_walk (ctx : Context) (i : Instruction) (input : Value) (s : State) :
    observed (execute ctx i input s) = walk ctx i.inOrder input s.sink := by
  rw [observed_execute, walk, Instruction.inOrder, Instruction.preorder, filterMap_preorderFrom]

theorem not_isTypeError_unreadable (path : String) (fault : Files.ReadFault) (span? : Option Span)
    (source : Nat) : ¬ RunError.IsTypeError ⟨.unreadable path fault, span?, source⟩ := by
  rintro ⟨expected, got, h⟩
  cases h

theorem not_isTypeError_output (fault : OutputFault) (span? : Option Span) (source : Nat) :
    ¬ RunError.IsTypeError ⟨.output fault, span?, source⟩ := by
  rintro ⟨expected, got, h⟩
  cases h

/-- How a walk meets its next instruction: it goes on, and what is at hand is as foretold; or the
world refuses; or there is nothing to print. -/
inductive Meets (ctx : Context) (i : Instruction) (rest : List Instruction) (value : Value)
    (sink : Sink) : Prop where
  | goesOn (value' : Value) (sink' : Sink)
      (walked : walk ctx (i :: rest) value sink = walk ctx rest value' sink')
      (foretold : firstStarved value.isText (i :: rest) = firstStarved value'.isText rest)
      (free : Unhindered ctx value sink (i :: rest) → Unhindered ctx value' sink' rest)
  | hindered (e : RunError) (walked : (walk ctx (i :: rest) value sink).2 = .error e)
      (other : ¬ e.IsTypeError) (hindered : ¬ Unhindered ctx value sink (i :: rest))
  | starved (span : Span)
      (walked : (walk ctx (i :: rest) value sink).2 = .error (starvation ctx span))
      (foretold : firstStarved value.isText (i :: rest) = some span)

theorem meets_file (ctx : Context) (span : Span) (path : String) (rest : List Instruction)
    (value : Value) (sink : Sink) : Meets ctx (.act .file span path) rest value sink := by
  have hwalk : walk ctx (.act .file span path :: rest) value sink =
      (Operation.step ctx value sink (.read path span)).andThen (walk ctx rest) := rfl
  cases hr : ctx.read (Files.join ctx.base path) with
  | ok content =>
    have hw : walk ctx (.act .file span path :: rest) value sink =
        walk ctx rest (.text content) sink := by
      rw [hwalk, Operation.step, hr]
      rfl
    refine .goesOn (.text content) sink hw ?_ ?_
    · cases value <;> rfl
    · intro hfree
      simp only [Unhindered, hr, Except.ok.injEq, exists_eq_left'] at hfree
      exact hfree
  | error fault =>
    have hw : (walk ctx (.act .file span path :: rest) value sink).2 =
        .error ⟨.unreadable path fault, some span, ctx.source⟩ := by
      rw [hwalk, Operation.step, hr]
      rfl
    refine .hindered _ hw (not_isTypeError_unreadable path fault _ _) ?_
    simp [Unhindered, hr]

theorem meets_print (ctx : Context) (span : Span) (label : String) (rest : List Instruction)
    (value : Value) (sink : Sink) : Meets ctx (.act .print span label) rest value sink := by
  have hwalk : walk ctx (.act .print span label :: rest) value sink =
      (Operation.step ctx value sink (.print span)).andThen (walk ctx rest) := rfl
  cases value with
  | unit => exact .starved span rfl rfl
  | text content =>
    cases hs : sink.write (printedLine content) with
    | mk sink' written =>
      cases written with
      | ok u =>
        have hw : walk ctx (.act .print span label :: rest) (.text content) sink =
            walk ctx rest (.text content) sink' := by
          rw [hwalk, Operation.step, hs]
          rfl
        refine .goesOn (.text content) sink' hw rfl ?_
        intro hfree
        rw [Unhindered, hs] at hfree
        exact hfree.2
      | error fault =>
        have hw : (walk ctx (.act .print span label :: rest) (.text content) sink).2 =
            .error ⟨.output fault, some span, ctx.source⟩ := by
          rw [hwalk, Operation.step, hs]
          rfl
        refine .hindered _ hw (not_isTypeError_output fault _ _) ?_
        simp [Unhindered, hs]

theorem meets (ctx : Context) (i : Instruction) (rest : List Instruction) (value : Value)
    (sink : Sink) : Meets ctx i rest value sink := by
  cases i with
  | block scope span body =>
    cases scope with
    | pipeline =>
      refine .goesOn .unit sink rfl ?_ fun hfree => hfree
      cases value <;> rfl
    | input =>
      refine .goesOn value sink rfl ?_ ?_
      · cases value <;> rfl
      · cases value <;> exact fun hfree => hfree
    | step =>
      refine .goesOn value sink rfl ?_ ?_
      · cases value <;> rfl
      · cases value <;> exact fun hfree => hfree
  | act action span payload =>
    cases action with
    | file => exact meets_file ctx span payload rest value sink
    | print => exact meets_print ctx span payload rest value sink

theorem walk_of_firstStarved_eq_none {ctx : Context} {is : List Instruction} {value : Value}
    {sink : Sink} {e : RunError} (h : firstStarved value.isText is = none)
    (he : (walk ctx is value sink).2 = .error e) : ¬ e.IsTypeError := by
  induction is generalizing value sink with
  | nil => cases he
  | cons i rest ih =>
    cases meets ctx i rest value sink with
    | goesOn value' sink' walked foretold free =>
      rw [foretold] at h
      rw [walked] at he
      exact ih h he
    | hindered e' walked other hindered =>
      rw [walked] at he
      cases he
      exact other
    | starved span walked foretold =>
      rw [foretold] at h
      cases h

theorem walk_of_firstStarved_eq_some {ctx : Context} {is : List Instruction} {value : Value}
    {sink : Sink} {span : Span} (h : firstStarved value.isText is = some span) :
    ∃ e, (walk ctx is value sink).2 = .error e ∧ (e.IsTypeError → e = starvation ctx span) ∧
      (Unhindered ctx value sink is → e = starvation ctx span) := by
  induction is generalizing value sink with
  | nil => cases value <;> cases h
  | cons i rest ih =>
    cases meets ctx i rest value sink with
    | goesOn value' sink' walked foretold free =>
      rw [foretold] at h
      obtain ⟨e, he, htype, hfree⟩ := @ih value' sink' h
      exact ⟨e, by rw [walked, he], htype, fun hf => hfree (free hf)⟩
    | hindered e walked other hindered =>
      exact ⟨e, walked, fun ht => absurd ht other, fun hf => absurd hf hindered⟩
    | starved span' walked foretold =>
      rw [foretold] at h
      cases h
      exact ⟨_, walked, fun _ => rfl, fun _ => rfl⟩

section
variable {read : String → Except Files.ReadFault String} {base : String} {program : Program}
  {s : State} {e : RunError}

theorem snd_execute_root (input : Value) :
    (execute ⟨read, base, program.source⟩ program.root input s).2 =
      (walk ⟨read, base, program.source⟩ program.root.inOrder input s.sink).2 := by
  rw [← observed_execute_eq_walk]
  rfl

theorem runProgram_of_walk_error
    (h : (walk ⟨read, base, program.source⟩ program.root.inOrder .unit s.sink).2 = .error e) :
    (runProgram read base program s).2 = .error e := by
  rw [← snd_execute_root] at h
  rw [runProgram]
  cases hx : execute ⟨read, base, program.source⟩ program.root .unit s with
  | mk t result =>
    rw [hx] at h
    cases h
    rfl

theorem runProgram_error (h : (runProgram read base program s).2 = .error e) :
    (walk ⟨read, base, program.source⟩ program.root.inOrder .unit s.sink).2 = .error e ∨
      ∃ fault, e = ⟨.output fault, none, program.source⟩ := by
  rw [← snd_execute_root]
  rw [runProgram] at h
  cases hx : execute ⟨read, base, program.source⟩ program.root .unit s with
  | mk t result =>
    rw [hx] at h
    cases result with
    | error e' => exact .inl h
    | ok value =>
      cases hf : t.sink.flushFault with
      | none => simp [Sink.flush, hf] at h
      | some fault =>
        simp only [Sink.flush, hf, Except.error.injEq] at h
        exact .inr ⟨fault, h.symm⟩

end

/-- Whether a program can end in a type error, and in which, is known before it is run. -/
theorem type_errors_foretold (program : Program) :
    (WellTyped program → ∀ read base s e, (runProgram read base program s).2 = .error e →
      ¬ e.IsTypeError) ∧
    (¬ WellTyped program → ∃ span, firstStarved false program.root.inOrder = some span ∧
      ∀ read base s, ∃ e, (runProgram read base program s).2 = .error e ∧
        (e.IsTypeError →
          e = ⟨.typeMismatch "String" "Unit", some span, program.source⟩) ∧
        (Unhindered ⟨read, base, program.source⟩ .unit s.sink program.root.inOrder →
          e = ⟨.typeMismatch "String" "Unit", some span, program.source⟩)) := by
  constructor
  · intro hw read base s e he
    rcases runProgram_error he with hwalk | ⟨fault, rfl⟩
    · have hstart : firstStarved Value.unit.isText program.root.inOrder = none := hw
      exact walk_of_firstStarved_eq_none hstart hwalk
    · exact not_isTypeError_output fault none program.source
  · intro hw
    obtain ⟨span, hspan⟩ := Option.ne_none_iff_exists'.1 hw
    refine ⟨span, hspan, ?_⟩
    intro read base s
    have hstart : firstStarved Value.unit.isText program.root.inOrder = some span := hspan
    obtain ⟨e, he, htype, hfree⟩ := @walk_of_firstStarved_eq_some
      ⟨read, base, program.source⟩ _ _ s.sink span hstart
    exact ⟨e, runProgram_of_walk_error he, htype, hfree⟩

theorem type_errors_foretold_reset :
    ¬ WellTyped ⟨.block .pipeline ⟨0, 10⟩ [.act .file ⟨10, 16⟩ "a", .block .step ⟨24, 30⟩
        [.block .pipeline ⟨30, 40⟩ [.act .print ⟨40, 47⟩ "b"]]], 3⟩ ∧
    Unhindered ⟨fun _ => .ok "text", "d", 3⟩ .unit {}
      (Instruction.block .pipeline ⟨0, 10⟩ [.act .file ⟨10, 16⟩ "a", .block .step ⟨24, 30⟩
        [.block .pipeline ⟨30, 40⟩ [.act .print ⟨40, 47⟩ "b"]]]).inOrder ∧
    (runProgram (fun _ => .ok "text") "d"
      ⟨.block .pipeline ⟨0, 10⟩ [.act .file ⟨10, 16⟩ "a", .block .step ⟨24, 30⟩
        [.block .pipeline ⟨30, 40⟩ [.act .print ⟨40, 47⟩ "b"]]], 3⟩ { sink := {} }).2 =
      .error ⟨.typeMismatch "String" "Unit", some ⟨40, 47⟩, 3⟩ := by
  have hw : ¬ WellTyped ⟨.block .pipeline ⟨0, 10⟩ [.act .file ⟨10, 16⟩ "a",
      .block .step ⟨24, 30⟩ [.block .pipeline ⟨30, 40⟩ [.act .print ⟨40, 47⟩ "b"]]], 3⟩ := by
    decide
  have hfree : Unhindered ⟨fun _ => .ok "text", "d", 3⟩ .unit {}
      (Instruction.block .pipeline ⟨0, 10⟩ [.act .file ⟨10, 16⟩ "a", .block .step ⟨24, 30⟩
        [.block .pipeline ⟨30, 40⟩ [.act .print ⟨40, 47⟩ "b"]]]).inOrder :=
    ⟨"text", rfl, trivial⟩
  obtain ⟨span, hspan, hrun⟩ := (type_errors_foretold _).2 hw
  cases hspan
  obtain ⟨e, he, _, hcertain⟩ := hrun (fun _ => .ok "text") "d" { sink := {} }
  exact ⟨hw, hfree, he.trans (congrArg Except.error (hcertain hfree))⟩

end XmlPipeline.Run
