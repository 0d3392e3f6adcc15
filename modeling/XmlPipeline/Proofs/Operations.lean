import XmlPipeline.Run.Execute
set_option autoImplicit false

/-!
Operations: a program without its tree, as a list that is run from its first entry to its last.
Main statement: running an instruction and running its operations cannot be told apart by the value,
the error or the sink. The log is NOT compared, since it tells of the tree.
-/

namespace XmlPipeline.Run
open Markup (Span)

inductive Operation where
  | reset
  | read (path : String) (span : Span)
  | print (span : Span)
  deriving DecidableEq, Repr

mutual

/-- In document order. Labels are dropped, and of the scopes only a pipeline leaves a trace. -/
def flatten : Instruction → List Operation
  | .block .pipeline _ body => .reset :: flattenAll body
  | .block .input _ body | .block .step _ body => flattenAll body
  | .act .file span path => [.read path span]
  | .act .print span _ => [.print span]

def flattenAll : List Instruction → List Operation
  | [] => []
  | i :: rest => flatten i ++ flattenAll rest

end

/-- What can be seen of a run when it has ended. -/
abbrev Outcome := Sink × Except RunError Value

def Outcome.andThen (o : Outcome) (next : Value → Sink → Outcome) : Outcome :=
  match o with
  | (sink, .ok value) => next value sink
  | (sink, .error e) => (sink, .error e)

def Operation.step (ctx : Context) (value : Value) (sink : Sink) : Operation → Outcome
  | .reset => (sink, .ok .unit)
  | .read path span =>
    (sink,
      match ctx.read (Files.join ctx.base path) with
      | .ok content => .ok (.text content)
      | .error fault => .error ⟨.unreadable path fault, some span, ctx.source⟩)
  | .print span =>
    match value with
    | .unit => (sink, .error ⟨.typeMismatch "String" "Unit", some span, ctx.source⟩)
    | .text content =>
      match sink.write (printedLine content) with
      | (sink, .ok ()) => (sink, .ok (.text content))
      | (sink, .error fault) => (sink, .error ⟨.output fault, some span, ctx.source⟩)

def runOperations (ctx : Context) : List Operation → Value → Sink → Outcome
  | [], value, sink => (sink, .ok value)
  | op :: rest, value, sink => (op.step ctx value sink).andThen (runOperations ctx rest)

def observed (r : State × Except RunError Value) : Outcome := (r.1.sink, r.2)

theorem Outcome.andThen_assoc (o : Outcome) (f g : Value → Sink → Outcome) :
    (o.andThen f).andThen g = o.andThen fun value sink => (f value sink).andThen g := by
  obtain ⟨sink, result⟩ := o
  cases result <;> rfl

theorem runOperations_append (ctx : Context) (a b : List Operation) (value : Value) (sink : Sink) :
    runOperations ctx (a ++ b) value sink =
      (runOperations ctx a value sink).andThen (runOperations ctx b) := by
  induction a generalizing value sink with
  | nil => rfl
  | cons op a ih =>
    have hn : runOperations ctx (a ++ b) =
        fun value sink => (runOperations ctx a value sink).andThen (runOperations ctx b) := by
      funext value sink
      exact ih value sink
    simp only [List.cons_append, runOperations, Outcome.andThen_assoc, hn]

theorem runOperations_singleton (ctx : Context) (op : Operation) (value : Value) (sink : Sink) :
    runOperations ctx [op] value sink = op.step ctx value sink := by
  cases h : op.step ctx value sink with
  | mk sink result => cases result <;> simp [runOperations, Outcome.andThen, h]

theorem observed_execute_file (ctx : Context) (span : Span) (path : String) (input : Value)
    (s : State) :
    observed (execute ctx (.act .file span path) input s) =
      Operation.step ctx input s.sink (.read path span) := by
  cases hr : ctx.read (Files.join ctx.base path) <;>
    simp only [execute, perform, readText, observed, Operation.step, State.note, hr] <;> rfl

theorem observed_execute_print (ctx : Context) (span : Span) (label : String) (input : Value)
    (s : State) :
    observed (execute ctx (.act .print span label) input s) =
      Operation.step ctx input s.sink (.print span) := by
  cases input with
  | unit =>
    rw [execute]
    rfl
  | text content =>
    cases hw : s.sink.write (printedLine content) with
    | mk sink written =>
      cases written <;>
        simp only [execute, perform, printValue, observed, Operation.step, State.note, hw] <;> rfl

theorem observed_executeAll_cons {ctx : Context} {i : Instruction} {rest : List Instruction}
    {input : Value} {s : State} {next : Value → Sink → Outcome}
    (h : ∀ value t, observed (executeAll ctx rest value t) = next value t.sink) :
    observed (executeAll ctx (i :: rest) input s) =
      (observed (execute ctx i input s)).andThen next := by
  rw [executeAll]
  cases he : execute ctx i input s with
  | mk t result =>
    cases result with
    | error e => rfl
    | ok value => exact h value (t.note (handedOn value))

mutual

theorem observed_execute (ctx : Context) (i : Instruction) (input : Value) (s : State) :
    observed (execute ctx i input s) = runOperations ctx (flatten i) input s.sink := by
  cases i with
  | block scope span body =>
    rw [execute]
    have ih := observed_executeAll ctx body (entryValue scope input)
      (s.note (executing (.block scope span body) input))
    -- Only a pipeline lets go of the value that it is handed, as its reset does.
    cases scope with
    | pipeline => exact ih
    | input => exact ih
    | step => exact ih
  | act action span payload =>
    cases action with
    | file => rw [observed_execute_file, flatten, runOperations_singleton]
    | print => rw [observed_execute_print, flatten, runOperations_singleton]

theorem observed_executeAll (ctx : Context) (is : List Instruction) (input : Value) (s : State) :
    observed (executeAll ctx is input s) = runOperations ctx (flattenAll is) input s.sink := by
  cases is with
  | nil => rw [executeAll]; rfl
  | cons i rest =>
    rw [observed_executeAll_cons fun value t => observed_executeAll ctx rest value t,
      observed_execute ctx i input s, flattenAll, runOperations_append]

end

theorem flattenAll_append (a b : List Instruction) :
    flattenAll (a ++ b) = flattenAll a ++ flattenAll b := by
  induction a with
  | nil => rfl
  | cons i a ih => simp [flattenAll, ih]

/-- The second row differs from the first by scopes that were put around neighbours in it, at any
place and at any depth. Such a scope hands on the value that it is handed. -/
inductive Wrapped : List Instruction → List Instruction → Prop where
  | refl (is : List Instruction) : Wrapped is is
  | wrap (before within after : List Instruction) {scope : Scope} (span : Span)
      (h : scope ≠ .pipeline) :
      Wrapped (before ++ within ++ after) (before ++ .block scope span within :: after)
  | inside (before after : List Instruction) (scope : Scope) (span : Span)
      {body wrapped : List Instruction} (h : Wrapped body wrapped) :
      Wrapped (before ++ .block scope span body :: after)
        (before ++ .block scope span wrapped :: after)
  | trans {is js ks : List Instruction} (h : Wrapped is js) (h' : Wrapped js ks) : Wrapped is ks

theorem flatten_block_of_ne {scope : Scope} (h : scope ≠ .pipeline) (span : Span)
    (body : List Instruction) : flatten (.block scope span body) = flattenAll body := by
  cases scope with
  | pipeline => exact absurd rfl h
  | input => rw [flatten]
  | step => rw [flatten]

theorem flatten_block_congr (scope : Scope) (span : Span) {body body' : List Instruction}
    (h : flattenAll body = flattenAll body') :
    flatten (.block scope span body) = flatten (.block scope span body') := by
  cases scope <;> simp [flatten, h]

theorem Wrapped.flattenAll_eq {is js : List Instruction} (h : Wrapped is js) :
    flattenAll is = flattenAll js := by
  induction h with
  | refl is => rfl
  | wrap before within after span h =>
    simp [flattenAll_append, flattenAll, flatten_block_of_ne h]
  | inside before after scope span _ ih =>
    simp only [flattenAll_append, flattenAll, flatten_block_congr scope span ih]
  | trans _ _ ih ih' => exact ih.trans ih'

/-- A tree does what its operations do and nothing else, so its nesting is of no account. -/
theorem execute_refines_operations (ctx : Context) :
    (∀ i input s, observed (execute ctx i input s) =
      runOperations ctx (flatten i) input s.sink) ∧
    (∀ is input s, observed (executeAll ctx is input s) =
      runOperations ctx (flattenAll is) input s.sink) ∧
    (∀ i j, flatten i = flatten j →
      ∀ input s, observed (execute ctx i input s) = observed (execute ctx j input s)) ∧
    (∀ is js, flattenAll is = flattenAll js →
      ∀ input s, observed (executeAll ctx is input s) = observed (executeAll ctx js input s)) ∧
    (∀ is js, Wrapped is js → flattenAll is = flattenAll js) := by
  refine ⟨observed_execute ctx, observed_executeAll ctx, ?_, ?_, fun _ _ => Wrapped.flattenAll_eq⟩
  · intro i j h input s
    rw [observed_execute, observed_execute, h]
  · intro is js h input s
    rw [observed_executeAll, observed_executeAll, h]

theorem execute_refines_operations_step :
    Wrapped [.act .file ⟨0, 6⟩ "a", .act .print ⟨14, 21⟩ "b"]
      [.block .step ⟨7, 9⟩ [.act .file ⟨0, 6⟩ "a", .act .print ⟨14, 21⟩ "b"]] ∧
    flatten (.block .pipeline ⟨0, 10⟩ [.act .file ⟨0, 6⟩ "a", .act .print ⟨14, 21⟩ "b"]) =
      flatten (.block .pipeline ⟨5, 15⟩
        [.block .step ⟨7, 9⟩ [.act .file ⟨0, 6⟩ "a", .act .print ⟨14, 21⟩ "c"]]) ∧
    observed (execute ⟨fun _ => .ok "text", "d", 3⟩
        (.block .pipeline ⟨0, 10⟩ [.act .file ⟨0, 6⟩ "a", .act .print ⟨14, 21⟩ "b"]) .unit
        { sink := { room := some 4 } }) =
      observed (execute ⟨fun _ => .ok "text", "d", 3⟩
        (.block .pipeline ⟨5, 15⟩
          [.block .step ⟨7, 9⟩ [.act .file ⟨0, 6⟩ "a", .act .print ⟨14, 21⟩ "c"]]) .unit
        { sink := { room := some 4 } }) ∧
    observed (executeAll ⟨fun _ => .ok "text", "d", 3⟩
        [.act .file ⟨0, 6⟩ "a", .act .print ⟨14, 21⟩ "b"] .unit { sink := {} }) =
      observed (executeAll ⟨fun _ => .ok "text", "d", 3⟩
        [.block .step ⟨7, 9⟩ [.act .file ⟨0, 6⟩ "a", .act .print ⟨14, 21⟩ "b"]] .unit
        { sink := {} }) := by
  have hw : Wrapped [.act .file ⟨0, 6⟩ "a", .act .print ⟨14, 21⟩ "b"]
      [.block .step ⟨7, 9⟩ [.act .file ⟨0, 6⟩ "a", .act .print ⟨14, 21⟩ "b"]] :=
    Wrapped.wrap [] [.act .file ⟨0, 6⟩ "a", .act .print ⟨14, 21⟩ "b"] [] ⟨7, 9⟩ (by decide)
  have hf : flatten (.block .pipeline ⟨0, 10⟩ [.act .file ⟨0, 6⟩ "a", .act .print ⟨14, 21⟩ "b"]) =
      flatten (.block .pipeline ⟨5, 15⟩
        [.block .step ⟨7, 9⟩ [.act .file ⟨0, 6⟩ "a", .act .print ⟨14, 21⟩ "c"]]) := by
    simp [flatten, flattenAll]
  obtain ⟨_, _, htree, hlist, hwrapped⟩ :=
    execute_refines_operations ⟨fun _ => .ok "text", "d", 3⟩
  exact ⟨hw, hf, htree _ _ hf _ _, hlist _ _ (hwrapped _ _ hw) _ _⟩

end XmlPipeline.Run
