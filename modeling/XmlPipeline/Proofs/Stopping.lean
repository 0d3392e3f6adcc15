import XmlPipeline.Proofs.Script
set_option autoImplicit false

/-!
Stopping: where a run that fails has come to. Main statement: it stops at one leaf, all that comes
before is done, nothing that comes after counts, and the output ends with the last whole line or
with a part of the line that was refused. Only the flush at the end of a run fails for no
instruction.
-/

namespace XmlPipeline.Run
open Markup (Span Located)

/-- Why a leaf cannot be completed with the value at hand, and the part of a line that it has
printed by then. -/
inductive Fails (ctx : Context) (value : Value) (refusal : OutputFault) :
    Instruction → Fault → List UInt8 → Prop where
  | unreadable (span : Span) (path : String) (fault : Files.ReadFault)
      (h : ctx.read (Files.join ctx.base path) = .error fault) :
      Fails ctx value refusal (.act .file span path) (.unreadable path fault) []
  | starved (span : Span) (label : String) (h : value = .unit) :
      Fails ctx value refusal (.act .print span label) (.typeMismatch "String" "Unit") []
  | refused (span : Span) (label content : String) (part : List UInt8) (h : value = .text content)
      (started : part <+: printedLine content) (notAll : part ≠ printedLine content) :
      Fails ctx value refusal (.act .print span label) (.output refusal) part

def printSpan? : Instruction → Option Span
  | .act .print span _ => some span
  | _ => none

def linesOf (ctx : Context) (is : List Instruction) : List (Located (List UInt8)) :=
  (script ctx (is.filterMap operation?) .unit).lines

/-- A run that began with the sink `start` has stopped at a leaf, which some instructions come
before. -/
structure StopsAt (ctx : Context) (start : Sink) (before : List Instruction) (leaf : Instruction)
    (e : RunError) (o : Outcome) : Prop where
  span : e.span? = some leaf.span
  /-- All that comes before the leaf is done. -/
  reached : ∃ value sink, walk ctx before .unit start = (sink, .ok value) ∧
    ∃ part, Fails ctx value start.refusal leaf e.cause part ∧
      o.1.accepted = start.accepted ++ linesBytes (linesOf ctx before) ++ part
  /-- Each print before the leaf has its line. -/
  prints : (linesOf ctx before).map (·.span) = before.filterMap printSpan?
  /-- What comes after the leaf might as well not be there. -/
  alone : o = walk ctx (before ++ [leaf]) .unit start
  unflushed : o.1.flushes = start.flushes

def meet (ctx : Context) (i : Instruction) (value : Value) (sink : Sink) : Outcome :=
  match operation? i with
  | some op => op.step ctx value sink
  | none => (sink, .ok value)

theorem walk_cons (ctx : Context) (i : Instruction) (rest : List Instruction) (value : Value)
    (sink : Sink) :
    walk ctx (i :: rest) value sink = (meet ctx i value sink).andThen (walk ctx rest) := by
  cases ho : operation? i with
  | none => rw [walk, List.filterMap_cons_none ho, meet, ho]; rfl
  | some op => rw [walk, List.filterMap_cons_some ho, meet, ho]; rfl

theorem walk_append (ctx : Context) (a b : List Instruction) (value : Value) (sink : Sink) :
    walk ctx (a ++ b) value sink = (walk ctx a value sink).andThen (walk ctx b) := by
  rw [walk, List.filterMap_append, runOperations_append]
  rfl

theorem walk_error {ctx : Context} {is : List Instruction} {value : Value} {sink sink' : Sink}
    {e : RunError} (h : walk ctx is value sink = (sink', .error e)) :
    ∃ before i after reached sink₁, is = before ++ i :: after ∧
      walk ctx before value sink = (sink₁, .ok reached) ∧
      meet ctx i reached sink₁ = (sink', .error e) := by
  induction is generalizing value sink with
  | nil => cases h
  | cons i rest ih =>
    rw [walk_cons] at h
    cases hm : meet ctx i value sink with
    | mk sink₁ result =>
      rw [hm] at h
      cases result with
      | error e' =>
        cases h
        exact ⟨[], i, rest, value, sink, rfl, rfl, hm⟩
      | ok next =>
        obtain ⟨before, j, after, reached, sink₂, rfl, hwalk, hmeet⟩ := ih h
        refine ⟨i :: before, j, after, reached, sink₂, rfl, ?_, hmeet⟩
        rw [walk_cons, hm]
        exact hwalk

theorem meet_error {ctx : Context} {i : Instruction} {value : Value} {sink sink' : Sink}
    {e : RunError} (h : meet ctx i value sink = (sink', .error e)) :
    e.span? = some i.span ∧ e.source = ctx.source ∧ sink.Kept sink' ∧
      ∃ part, Fails ctx value sink.refusal i e.cause part ∧
        sink'.accepted = sink.accepted ++ part := by
  cases i with
  | block scope span body => cases scope <;> cases h
  | act action span payload =>
    cases action with
    | file =>
      simp only [meet, operation?, Operation.step] at h
      cases hr : ctx.read (Files.join ctx.base payload) with
      | ok content => simp [hr] at h
      | error fault =>
        simp only [hr, Prod.mk.injEq, Except.error.injEq] at h
        obtain ⟨rfl, rfl⟩ := h
        exact ⟨rfl, rfl, .refl sink, [], .unreadable span payload fault hr,
          (List.append_nil _).symm⟩
    | print =>
      cases value with
      | unit =>
        cases h
        exact ⟨rfl, rfl, .refl sink, [], .starved span payload rfl, (List.append_nil _).symm⟩
      | text content =>
        have hkept := sink.kept_write (printedLine content)
        have haccepted := sink.accepted_write (printedLine content)
        simp only [meet, operation?, Operation.step] at h
        cases hw : sink.write (printedLine content) with
        | mk sink₁ written =>
          rw [hw] at hkept haccepted
          cases written with
          | ok u => simp [hw] at h
          | error fault =>
            obtain ⟨rfl, hprefix, hne⟩ := Sink.write_error hw
            simp only [hw, Prod.mk.injEq, Except.error.injEq] at h
            obtain ⟨rfl, rfl⟩ := h
            exact ⟨rfl, rfl, hkept, _, .refused span payload content _ rfl hprefix hne, haccepted⟩

theorem walk_ok {ctx : Context} {is : List Instruction} {value value' : Value} {sink sink' : Sink}
    (h : walk ctx is value sink = (sink', .ok value')) :
    (script ctx (is.filterMap operation?) value).ending = .ok value' ∧ sink.Kept sink' ∧
      sink'.accepted = sink.accepted ++
        linesBytes (script ctx (is.filterMap operation?) value).lines := by
  rw [walk, runOperations_eq_deliver] at h
  have hd := delivery ctx.source (script ctx (is.filterMap operation?) value).ending
    (script ctx (is.filterMap operation?) value).lines sink
  rw [h] at hd
  generalize (script ctx (is.filterMap operation?) value).ending = ending at hd ⊢
  cases hd with
  | whole _ accepted kept => exact ⟨rfl, kept, accepted⟩

/-- The lines of a script belong to the first prints, and to all prints if it comes to a value. -/
theorem prints_script (ctx : Context) (is : List Instruction) (value : Value) :
    ∃ left, is.filterMap printSpan? =
        (script ctx (is.filterMap operation?) value).lines.map (·.span) ++ left ∧
      ∀ value', (script ctx (is.filterMap operation?) value).ending = .ok value' → left = [] := by
  induction is generalizing value with
  | nil => exact ⟨[], rfl, fun _ _ => rfl⟩
  | cons i rest ih =>
    cases i with
    | block scope span body =>
      cases scope with
      | pipeline => exact ih .unit
      | input => exact ih value
      | step => exact ih value
    | act action span payload =>
      cases action with
      | file =>
        have hops : (Instruction.act .file span payload :: rest).filterMap operation? =
            .read payload span :: rest.filterMap operation? := rfl
        rw [hops, script]
        cases ctx.read (Files.join ctx.base payload) with
        | ok content => exact ih (.text content)
        | error fault => exact ⟨rest.filterMap printSpan?, rfl, fun _ h => by cases h⟩
      | print =>
        cases value with
        | unit => exact ⟨span :: rest.filterMap printSpan?, rfl, fun _ h => by cases h⟩
        | text content =>
          obtain ⟨left, hprints, hall⟩ := ih (.text content)
          exact ⟨left, congrArg (span :: ·) hprints, hall⟩

theorem prints_script_flatten (ctx : Context) (i : Instruction) (value : Value) :
    ∃ left, i.inOrder.filterMap printSpan? =
      (script ctx (flatten i) value).lines.map (·.span) ++ left := by
  obtain ⟨left, hprints, _⟩ := prints_script ctx i.inOrder value
  rw [Instruction.inOrder, Instruction.preorder, filterMap_preorderFrom] at hprints
  exact ⟨left, hprints⟩

theorem stopsAt_of_walk {ctx : Context} {is : List Instruction} {start sink : Sink} {e : RunError}
    (h : walk ctx is .unit start = (sink, .error e)) : e.source = ctx.source ∧
      ∃ before leaf after, is = before ++ leaf :: after ∧
        StopsAt ctx start before leaf e (sink, .error e) := by
  obtain ⟨before, leaf, after, value, sink₁, his, hwalk, hmeet⟩ := walk_error h
  obtain ⟨hspan, hsource, hkept, part, hfails, haccepted⟩ := meet_error hmeet
  obtain ⟨hending, hkept₁, haccepted₁⟩ := walk_ok hwalk
  refine ⟨hsource, before, leaf, after, his, ?_⟩
  obtain ⟨left, hprints, hall⟩ := prints_script ctx before .unit
  rw [hall value hending, List.append_nil] at hprints
  refine ⟨hspan, ⟨value, sink₁, hwalk, part, ?_, ?_⟩, hprints.symm, ?_, ?_⟩
  · rw [← hkept₁.refusal]
    exact hfails
  · rw [haccepted, haccepted₁]
    rfl
  · have hlast : walk ctx [leaf] value sink₁ = (sink, .error e) := by rw [walk_cons, hmeet]; rfl
    rw [walk_append, hwalk]
    exact hlast.symm
  · exact hkept.flushes.trans hkept₁.flushes

section
variable {read : String → Except Files.ReadFault String} {base : String} {program : Program}
  {s : State} {sink : Sink} {value : Value} {e : RunError}

theorem observed_runProgram_eq_walk (read : String → Except Files.ReadFault String) (base : String)
    (program : Program) (s : State) : observed (runProgram read base program s) =
      (walk ⟨read, base, program.source⟩ program.root.inOrder .unit s.sink).andThen
        (flushed program.source) := by
  rw [observed_runProgram, observed_execute_eq_walk]

theorem observed_of_walk_error
    (h : walk ⟨read, base, program.source⟩ program.root.inOrder .unit s.sink = (sink, .error e)) :
    observed (runProgram read base program s) = (sink, .error e) := by
  rw [observed_runProgram_eq_walk, h]
  rfl

theorem observed_of_walk_ok
    (h : walk ⟨read, base, program.source⟩ program.root.inOrder .unit s.sink =
      (sink, .ok value)) :
    observed (runProgram read base program s) = flushed program.source value sink := by
  rw [observed_runProgram_eq_walk, h]
  rfl

theorem snd_runProgram_of_walk_ok
    (h : walk ⟨read, base, program.source⟩ program.root.inOrder .unit s.sink =
      (sink, .ok value)) :
    (runProgram read base program s).2 = .error e ↔
      ∃ fault, s.sink.flushFault = some fault ∧ e = ⟨.output fault, none, program.source⟩ := by
  have hrun : (runProgram read base program s).2 = (flushed program.source value sink).2 :=
    congrArg Prod.snd (observed_of_walk_ok h)
  obtain ⟨_, hkept, _⟩ := walk_ok h
  rw [hrun, flushed, hkept.flushFault]
  cases s.sink.flushFault with
  | none => simp
  | some fault => simp [eq_comm]

end

/-- A run that fails is stopped by one leaf, or else by the flush after all leaves are done. -/
theorem failing_run_stops_once (read : String → Except Files.ReadFault String) (base : String)
    (program : Program) (s : State) :
    (∀ e, (runProgram read base program s).2 = .error e → e.source = program.source ∧
      (e.span? ≠ none → ∃ before leaf after, program.root.inOrder = before ++ leaf :: after ∧
        StopsAt ⟨read, base, program.source⟩ s.sink before leaf e
          (observed (runProgram read base program s)))) ∧
    (∀ e, (runProgram read base program s).2 = .error e ∧ e.span? = none ↔
      ∃ value sink fault,
        walk ⟨read, base, program.source⟩ program.root.inOrder .unit s.sink = (sink, .ok value) ∧
          s.sink.flushFault = some fault ∧ e = ⟨.output fault, none, program.source⟩) ∧
    (∀ value sink,
      walk ⟨read, base, program.source⟩ program.root.inOrder .unit s.sink = (sink, .ok value) →
        (runProgram read base program s).1.sink.flushes = s.sink.flushes + 1 ∧
          (runProgram read base program s).1.sink.accepted = s.sink.accepted ++
            linesBytes (linesOf ⟨read, base, program.source⟩ program.root.inOrder)) := by
  cases hwalk : walk ⟨read, base, program.source⟩ program.root.inOrder .unit s.sink with
  | mk sink result =>
    cases result with
    | error stopped =>
      have hrun := observed_of_walk_error hwalk
      have hresult : (runProgram read base program s).2 = .error stopped := congrArg Prod.snd hrun
      obtain ⟨hsource, before, leaf, after, his, hstops⟩ := stopsAt_of_walk hwalk
      refine ⟨?_, ?_, ?_⟩
      · intro e he
        rw [hresult, Except.error.injEq] at he
        subst he
        refine ⟨hsource, fun _ => ⟨before, leaf, after, his, ?_⟩⟩
        rw [hrun]
        exact hstops
      · intro e
        constructor
        · rintro ⟨he, hnone⟩
          rw [hresult, Except.error.injEq] at he
          rw [← he, hstops.span] at hnone
          cases hnone
        · rintro ⟨value, sink', fault, h, _⟩
          cases h
      · intro value sink' h
        cases h
    | ok value =>
      have hresult (e : RunError) :=
        @snd_runProgram_of_walk_ok read base program s sink value e hwalk
      refine ⟨?_, ?_, ?_⟩
      · intro e he
        obtain ⟨fault, _, rfl⟩ := (hresult e).1 he
        exact ⟨rfl, fun h => absurd rfl h⟩
      · intro e
        rw [hresult e]
        constructor
        · rintro ⟨⟨fault, hfault, rfl⟩, _⟩
          exact ⟨value, sink, fault, rfl, hfault, rfl⟩
        · rintro ⟨_, _, fault, _, hfault, rfl⟩
          exact ⟨⟨fault, hfault, rfl⟩, rfl⟩
      · intro value' sink' h
        cases h
        obtain ⟨_, hkept, haccepted⟩ := walk_ok hwalk
        have hsink : (runProgram read base program s).1.sink = sink.flush.1 :=
          congrArg Prod.fst (observed_of_walk_ok hwalk)
        rw [hsink]
        exact ⟨congrArg (· + 1) hkept.flushes, haccepted⟩

theorem failing_run_stops_once_partway :
    (runProgram (fun _ => .ok "x") "d"
      ⟨.block .step ⟨0, 6⟩ [.act .file ⟨6, 12⟩ "a", .act .print ⟨20, 27⟩ "b",
        .act .print ⟨36, 43⟩ "c"], 3⟩
      { sink := { room := some 6 } }).1.sink.accepted = [34, 120, 34, 10, 34, 120] ∧
    ∃ before leaf after, (Instruction.block .step ⟨0, 6⟩ [.act .file ⟨6, 12⟩ "a",
        .act .print ⟨20, 27⟩ "b", .act .print ⟨36, 43⟩ "c"]).inOrder = before ++ leaf :: after ∧
      StopsAt ⟨fun _ => .ok "x", "d", 3⟩ { room := some 6 } before leaf
        ⟨.output .closed, some ⟨36, 43⟩, 3⟩
        (observed (runProgram (fun _ => .ok "x") "d"
          ⟨.block .step ⟨0, 6⟩ [.act .file ⟨6, 12⟩ "a", .act .print ⟨20, 27⟩ "b",
            .act .print ⟨36, 43⟩ "c"], 3⟩ { sink := { room := some 6 } })) := by
  have haccepted : (runProgram (fun _ => .ok "x") "d"
      ⟨.block .step ⟨0, 6⟩ [.act .file ⟨6, 12⟩ "a", .act .print ⟨20, 27⟩ "b",
        .act .print ⟨36, 43⟩ "c"], 3⟩
      { sink := { room := some 6 } }).1.sink.accepted = [34, 120, 34, 10, 34, 120] := by
    rfl
  have hresult : (runProgram (fun _ => .ok "x") "d"
      ⟨.block .step ⟨0, 6⟩ [.act .file ⟨6, 12⟩ "a", .act .print ⟨20, 27⟩ "b",
        .act .print ⟨36, 43⟩ "c"], 3⟩
      { sink := { room := some 6 } }).2 = .error ⟨.output .closed, some ⟨36, 43⟩, 3⟩ := by
    rfl
  obtain ⟨hstops, _, _⟩ := failing_run_stops_once (fun _ => .ok "x") "d"
    ⟨.block .step ⟨0, 6⟩ [.act .file ⟨6, 12⟩ "a", .act .print ⟨20, 27⟩ "b",
      .act .print ⟨36, 43⟩ "c"], 3⟩ { sink := { room := some 6 } }
  exact ⟨haccepted, (hstops _ hresult).2 (by simp)⟩

end XmlPipeline.Run
