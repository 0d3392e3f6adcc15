import XmlPipeline.Proofs.Typing
set_option autoImplicit false

/-!
Scripts: what a run would print and come to if no output were refused. Main statement: a run hands
the lines of its script to the sink one by one, and comes to the end of the script if the sink takes
them all.
-/

namespace XmlPipeline.Run
open Markup (Span Located)

/-- The lines that are to be printed, each with the place of its print, and what comes after
them. -/
structure Script where
  lines : List (Located (List UInt8)) := []
  ending : Except RunError Value

def linesBytes (lines : List (Located (List UInt8))) : List UInt8 := lines.flatMap (·.value)

def script (ctx : Context) : List Operation → Value → Script
  | [], value => { ending := .ok value }
  | .reset :: rest, _ => script ctx rest .unit
  | .read path span :: rest, _ =>
    match ctx.read (Files.join ctx.base path) with
    | .ok content => script ctx rest (.text content)
    | .error fault => { ending := .error ⟨.unreadable path fault, some span, ctx.source⟩ }
  | .print span :: _, .unit => { ending := .error (starvation ctx span) }
  | .print span :: rest, .text content =>
    let later := script ctx rest (.text content)
    { later with lines := ⟨printedLine content, span⟩ :: later.lines }

/-- The first line that is not taken whole is the last that is handed over. -/
def deliver (source : Nat) (ending : Except RunError Value) :
    List (Located (List UInt8)) → Sink → Outcome
  | [], sink => (sink, ending)
  | line :: later, sink =>
    match sink.write line.value with
    | (sink, .ok ()) => deliver source ending later sink
    | (sink, .error fault) => (sink, .error ⟨.output fault, some line.span, source⟩)

theorem runOperations_eq_deliver (ctx : Context) (ops : List Operation) (value : Value)
    (sink : Sink) :
    runOperations ctx ops value sink =
      deliver ctx.source (script ctx ops value).ending (script ctx ops value).lines sink := by
  induction ops generalizing value sink with
  | nil => rfl
  | cons op rest ih =>
    have hrun : runOperations ctx (op :: rest) value sink =
        (op.step ctx value sink).andThen (runOperations ctx rest) := rfl
    cases op with
    | reset => exact ih .unit sink
    | read path span =>
      cases hr : ctx.read (Files.join ctx.base path) with
      | ok content =>
        rw [hrun, Operation.step, script, hr]
        exact ih (.text content) sink
      | error fault =>
        rw [hrun, Operation.step, script, hr]
        rfl
    | print span =>
      cases value with
      | unit => rfl
      | text content =>
        cases hw : sink.write (printedLine content) with
        | mk sink' written =>
          cases written with
          | ok u =>
            rw [hrun, Operation.step, hw]
            simp only [script, deliver, hw]
            exact ih (.text content) sink'
          | error fault =>
            rw [hrun, Operation.step, hw]
            simp only [script, deliver, hw]
            rfl

structure Sink.Kept (sink sink' : Sink) : Prop where
  refusal : sink'.refusal = sink.refusal
  flushFault : sink'.flushFault = sink.flushFault
  flushes : sink'.flushes = sink.flushes

namespace Sink

theorem Kept.refl (sink : Sink) : Kept sink sink := ⟨rfl, rfl, rfl⟩

theorem Kept.trans {a b c : Sink} (h : Kept a b) (h' : Kept b c) : Kept a c :=
  ⟨h'.refusal.trans h.refusal, h'.flushFault.trans h.flushFault, h'.flushes.trans h.flushes⟩

theorem kept_write (sink : Sink) (bs : List UInt8) : Kept sink (sink.write bs).1 := by
  cases h : sink.room <;> simp only [write, h] <;> exact ⟨rfl, rfl, rfl⟩

theorem write_error {sink sink' : Sink} {bs : List UInt8} {fault : OutputFault}
    (h : sink.write bs = (sink', .error fault)) :
    fault = sink.refusal ∧ sink.fitting bs <+: bs ∧ sink.fitting bs ≠ bs := by
  have hne : sink.fitting bs ≠ bs := by
    intro he
    have hok := (write_ok_iff sink bs).2 he
    rw [h] at hok
    cases hok
  cases hr : sink.room with
  | none => exact absurd (by simp [fitting, hr]) hne
  | some room =>
    refine ⟨?_, ?_, hne⟩
    · simp only [write, hr, Prod.mk.injEq] at h
      by_cases hle : bs.length ≤ room
      · simp [hle] at h
      · simp only [hle, ↓reduceIte, Except.error.injEq] at h
        exact h.2.symm
    · simp only [fitting, hr]
      exact List.take_prefix room bs

theorem accepted_of_write_ok {sink sink' : Sink} {bs : List UInt8}
    (h : sink.write bs = (sink', .ok ())) : sink'.accepted = sink.accepted ++ bs := by
  have hfit : sink.fitting bs = bs := (write_ok_iff sink bs).1 (by rw [h])
  have hacc := accepted_write sink bs
  rwa [h, hfit] at hacc

end Sink

inductive Delivery (source : Nat) (ending : Except RunError Value)
    (lines : List (Located (List UInt8))) (sink : Sink) : Outcome → Prop where
  | whole (sink' : Sink) (accepted : sink'.accepted = sink.accepted ++ linesBytes lines)
      (kept : sink.Kept sink') : Delivery source ending lines sink (sink', ending)
  | refused {before after : List (Located (List UInt8))} {line : Located (List UInt8)}
      (sink' : Sink) (part : List UInt8) (parts : lines = before ++ line :: after)
      (accepted : sink'.accepted = sink.accepted ++ linesBytes before ++ part)
      (started : part <+: line.value) (notAll : part ≠ line.value) (kept : sink.Kept sink') :
      Delivery source ending lines sink
        (sink', .error ⟨.output sink.refusal, some line.span, source⟩)

theorem delivery (source : Nat) (ending : Except RunError Value)
    (lines : List (Located (List UInt8))) (sink : Sink) :
    Delivery source ending lines sink (deliver source ending lines sink) := by
  induction lines generalizing sink with
  | nil => exact .whole sink (by simp [linesBytes]) (.refl sink)
  | cons line later ih =>
    cases hw : sink.write line.value with
    | mk sink₁ written =>
      have hkept : sink.Kept sink₁ := by
        have hk := sink.kept_write line.value
        rwa [hw] at hk
      cases written with
      | error fault =>
        obtain ⟨rfl, hprefix, hne⟩ := Sink.write_error hw
        have hacc := sink.accepted_write line.value
        rw [hw] at hacc
        simp only [deliver, hw]
        refine .refused sink₁ (sink.fitting line.value) (List.nil_append _).symm ?_ hprefix hne
          hkept
        simpa [linesBytes] using hacc
      | ok u =>
        have hacc := Sink.accepted_of_write_ok hw
        have hlater := ih sink₁
        simp only [deliver, hw]
        generalize deliver source ending later sink₁ = o at hlater
        cases hlater with
        | whole sink' accepted kept =>
          refine .whole sink' ?_ (hkept.trans kept)
          simp [accepted, hacc, linesBytes]
        | @refused before after last sink' part parts accepted started notAll kept =>
          have hparts : line :: later = (line :: before) ++ last :: after := by rw [parts]; rfl
          rw [hkept.refusal]
          refine .refused sink' part hparts ?_ started notAll (hkept.trans kept)
          simp [accepted, hacc, linesBytes]

theorem deliver_of_room_eq_none (source : Nat) (ending : Except RunError Value)
    (lines : List (Located (List UInt8))) {sink : Sink} (h : sink.room = none) :
    deliver source ending lines sink =
      ({ sink with accepted := sink.accepted ++ linesBytes lines }, ending) := by
  induction lines generalizing sink with
  | nil => simp [deliver, linesBytes]
  | cons line later ih =>
    have hw : sink.write line.value =
        ({ sink with accepted := sink.accepted ++ line.value }, .ok ()) := by
      simp [Sink.write, h]
    have hroom : ({ sink with accepted := sink.accepted ++ line.value } : Sink).room = none := h
    simp [deliver, hw, ih hroom, linesBytes]

theorem deliver_cons_of_full (source : Nat) (ending : Except RunError Value)
    {line : Located (List UInt8)} (later : List (Located (List UInt8))) {sink : Sink}
    (full : sink.room = some 0) (notEmpty : line.value ≠ []) :
    deliver source ending (line :: later) sink =
      (sink, .error ⟨.output sink.refusal, some line.span, source⟩) := by
  obtain ⟨accepted, room, refusal, flushFault, flushes⟩ := sink
  subst full
  have hlength : ¬ line.value.length ≤ 0 := by simpa using notEmpty
  simp [deliver, Sink.write, hlength]

theorem printedLine_ne_nil (content : String) : printedLine content ≠ [] := by
  have hne : (Text.quote content ++ "\n").toList ≠ [] := by simp
  exact Text.bytes_ne_nil hne

theorem exists_printedLine_of_mem (ctx : Context) (ops : List Operation) (value : Value)
    {line : Located (List UInt8)} (h : line ∈ (script ctx ops value).lines) :
    ∃ content, line.value = printedLine content := by
  induction ops generalizing value with
  | nil => cases h
  | cons op rest ih =>
    cases op with
    | reset =>
      rw [script] at h
      exact ih .unit h
    | read path span =>
      rw [script] at h
      split at h
      · next content _ => exact ih (.text content) h
      · cases h
    | print span =>
      cases value with
      | unit => cases h
      | text content =>
        simp only [script, List.mem_cons] at h
        rcases h with h | h
        · exact ⟨content, by rw [h]⟩
        · exact ih (.text content) h

/-- One script after another: the second is for the value that the first comes to. -/
def Script.andThen (first : Script) (next : Value → Script) : Script :=
  match first.ending with
  | .ok value => ⟨first.lines ++ (next value).lines, (next value).ending⟩
  | .error _ => first

theorem script_append (ctx : Context) (a b : List Operation) (value : Value) :
    script ctx (a ++ b) value = (script ctx a value).andThen (script ctx b) := by
  induction a generalizing value with
  | nil => rfl
  | cons op a ih =>
    cases op with
    | reset => exact ih .unit
    | read path span =>
      rw [List.cons_append, script, script]
      cases ctx.read (Files.join ctx.base path) with
      | ok content => exact ih (.text content)
      | error fault => rfl
    | print span =>
      cases value with
      | unit => rfl
      | text content =>
        rw [List.cons_append, script, script, ih]
        cases he : (script ctx a (.text content)).ending <;> simp [Script.andThen, he]

theorem observed_execute_eq_deliver (ctx : Context) (i : Instruction) (input : Value) (s : State) :
    observed (execute ctx i input s) = deliver ctx.source (script ctx (flatten i) input).ending
      (script ctx (flatten i) input).lines s.sink := by
  rw [observed_execute, runOperations_eq_deliver]

def flushed (source : Nat) (value : Value) (sink : Sink) : Outcome :=
  (sink.flush.1,
    match sink.flushFault with
    | none => .ok value
    | some fault => .error ⟨.output fault, none, source⟩)

theorem observed_runProgram (read : String → Except Files.ReadFault String) (base : String)
    (program : Program) (s : State) :
    observed (runProgram read base program s) =
      (observed (execute ⟨read, base, program.source⟩ program.root .unit s)).andThen
        (flushed program.source) := by
  rw [runProgram]
  cases execute ⟨read, base, program.source⟩ program.root .unit s with
  | mk t result =>
    cases result with
    | error e => rfl
    | ok value =>
      cases hf : t.sink.flushFault <;> simp [observed, Outcome.andThen, flushed, Sink.flush, hf]

theorem accepted_runProgram_of_unlimited {read : String → Except Files.ReadFault String}
    {base : String} {program : Program} {s : State} (h : s.sink.room = none) :
    (runProgram read base program s).1.sink.accepted = s.sink.accepted ++
      linesBytes (script ⟨read, base, program.source⟩ (flatten program.root) .unit).lines := by
  have hrun : (runProgram read base program s).1.sink = _ :=
    congrArg Prod.fst (observed_runProgram read base program s)
  rw [hrun, observed_execute_eq_deliver, deliver_of_room_eq_none _ _ _ h]
  cases (script ⟨read, base, program.source⟩ (flatten program.root) .unit).ending with
  | error e => rfl
  | ok value => rfl

theorem observed_runProgram_of_full {read : String → Except Files.ReadFault String} {base : String}
    {program : Program} {s : State} (full : s.sink.room = some 0)
    {line : Located (List UInt8)} {later : List (Located (List UInt8))}
    (h : (script ⟨read, base, program.source⟩ (flatten program.root) .unit).lines = line :: later) :
    observed (runProgram read base program s) =
      (s.sink, .error ⟨.output s.sink.refusal, some line.span, program.source⟩) := by
  have hmem : line ∈ (script ⟨read, base, program.source⟩ (flatten program.root) .unit).lines := by
    rw [h]
    exact List.mem_cons_self
  obtain ⟨content, hcontent⟩ := exists_printedLine_of_mem _ _ _ hmem
  have hne : line.value ≠ [] := by
    rw [hcontent]
    exact printedLine_ne_nil content
  rw [observed_runProgram, observed_execute_eq_deliver, h, deliver_cons_of_full _ _ _ full hne]
  rfl

end XmlPipeline.Run
