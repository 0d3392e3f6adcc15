import XmlPipeline.Proofs.Stopping
set_option autoImplicit false

/-!
Truncation: runs to a sink that fills up. Main statement: such a run prints the beginning of what it
would print to a sink without a limit, and ends at the print whose line is cut off. In which pieces
a line is handed over, and in how many attempts a piece, is of no account.
-/

namespace XmlPipeline.Run
open Markup (Span Located)

namespace Sink

/-- One attempt to write some bytes. It takes as many of the first as there is room for, and tells
how many they are. -/
def attempt (sink : Sink) (bs : List UInt8) : Sink × Except OutputFault Nat :=
  match sink.room with
  | none => ({ sink with accepted := sink.accepted ++ bs }, .ok bs.length)
  | some 0 => (sink, if sink.refusal = .nothingWritten then .ok 0 else .error sink.refusal)
  | some (room + 1) =>
    ({ sink with
        accepted := sink.accepted ++ bs.take (room + 1), room := some (room + 1 - bs.length) },
      .ok (min (room + 1) bs.length))

def writePiece (sink : Sink) (bs : List UInt8) : Sink × Except OutputFault Unit :=
  if _h : bs = [] then (sink, .ok ())
  else
    match sink.attempt bs with
    | (sink, .error fault) => (sink, .error fault)
    | (sink, .ok 0) => (sink, .error .nothingWritten)
    | (sink, .ok (n + 1)) => writePiece sink (bs.drop (n + 1))
termination_by bs.length
decreasing_by
  have := List.length_pos_iff.2 _h
  simp only [List.length_drop]
  omega

/-- The first piece that is not taken whole is the last that is handed over. -/
def writePieces : List (List UInt8) → Sink → Sink × Except OutputFault Unit
  | [], sink => (sink, .ok ())
  | piece :: rest, sink =>
    match sink.writePiece piece with
    | (sink, .ok ()) => writePieces rest sink
    | (sink, .error fault) => (sink, .error fault)

theorem write_nil (sink : Sink) : sink.write [] = (sink, .ok ()) := by
  obtain ⟨accepted, room, refusal, flushFault, flushes⟩ := sink
  cases room <;> simp [write]

theorem write_of_full {sink : Sink} {bs : List UInt8} (full : sink.room = some 0)
    (h : bs ≠ []) : sink.write bs = (sink, .error sink.refusal) := by
  obtain ⟨accepted, room, refusal, flushFault, flushes⟩ := sink
  subst full
  simp [write, h]

theorem write_append (sink : Sink) (a b : List UInt8) :
    sink.write (a ++ b) =
      match sink.write a with
      | (sink, .ok ()) => sink.write b
      | (sink, .error fault) => (sink, .error fault) := by
  obtain ⟨accepted, room, refusal, flushFault, flushes⟩ := sink
  cases room with
  | none => simp [write]
  | some room =>
    by_cases ha : a.length ≤ room
    · have hroom : room - a.length - b.length = room - (a.length + b.length) := by omega
      have hfits : b.length ≤ room - a.length ↔ a.length + b.length ≤ room := by omega
      simp [write, ha, List.take_append, List.take_of_length_le ha, hroom, hfits]
    · have hnone : room - a.length = 0 := by omega
      have hover : ¬ a.length + b.length ≤ room := by omega
      have hroom : room - (a.length + b.length) = 0 := by omega
      simp [write, ha, List.take_append, hnone, hover, hroom]

theorem exists_attempt {sink : Sink} {bs : List UInt8} (full : sink.room ≠ some 0) (h : bs ≠ []) :
    ∃ n sink', sink.attempt bs = (sink', .ok (n + 1)) ∧
      sink.write (bs.take (n + 1)) = (sink', .ok ()) := by
  have hpos := List.length_pos_iff.2 h
  obtain ⟨accepted, room, refusal, flushFault, flushes⟩ := sink
  cases room with
  | none =>
    obtain ⟨n, hn⟩ : ∃ n, bs.length = n + 1 := ⟨bs.length - 1, by omega⟩
    exact ⟨n, _, by simp only [attempt, hn]; rfl, by simp [write, ← hn]⟩
  | some room =>
    cases room with
    | zero => exact absurd rfl full
    | succ room =>
      obtain ⟨n, hn⟩ : ∃ n, min (room + 1) bs.length = n + 1 :=
        ⟨min (room + 1) bs.length - 1, by omega⟩
      have hsame : bs.take (n + 1) = bs.take (room + 1) := by
        rw [← hn, List.take_eq_take_iff]
        omega
      have hroom : room + 1 - min (room + 1) bs.length = room + 1 - bs.length := by omega
      have hle : min (room + 1) bs.length ≤ room + 1 := Nat.min_le_left _ _
      exact ⟨n, _, by simp only [attempt, hn]; rfl, by
        simp [write, hsame, hroom, List.take_take, hle]⟩

theorem writePiece_eq_write (sink : Sink) (bs : List UInt8) :
    sink.writePiece bs = sink.write bs := by
  by_cases h : bs = []
  · rw [h, writePiece, dif_pos rfl, write_nil]
  by_cases full : sink.room = some 0
  · rw [writePiece, dif_neg h, write_of_full full h]
    by_cases hr : sink.refusal = .nothingWritten <;> simp [attempt, full, hr]
  obtain ⟨n, sink', hattempt, hwrite⟩ := exists_attempt full h
  have hpos := List.length_pos_iff.2 h
  have hcut := sink.write_append (bs.take (n + 1)) (bs.drop (n + 1))
  rw [List.take_append_drop, hwrite] at hcut
  rw [writePiece, dif_neg h, hattempt, hcut]
  exact writePiece_eq_write sink' (bs.drop (n + 1))
termination_by bs.length
decreasing_by
  simp only [List.length_drop]
  omega

theorem writePieces_eq_write (pieces : List (List UInt8)) (sink : Sink) :
    writePieces pieces sink = sink.write pieces.flatten := by
  induction pieces generalizing sink with
  | nil => rw [List.flatten_nil, write_nil, writePieces]
  | cons piece rest ih =>
    rw [writePieces, writePiece_eq_write, List.flatten_cons, write_append]
    cases sink.write piece with
    | mk sink' written =>
      cases written with
      | ok u => exact ih sink'
      | error fault => rfl

def unlimited (sink : Sink) : Sink := { sink with room := none, flushFault := none }

def limited (sink : Sink) (room : Nat) : Sink := { sink with room := some room, flushFault := none }

def holding (sink : Sink) (bs : List UInt8) : Sink := { sink with accepted := sink.accepted ++ bs }

theorem write_limited_of_fits (sink : Sink) {room : Nat} {bs : List UInt8} (h : bs.length ≤ room) :
    (sink.limited room).write bs = ((sink.holding bs).limited (room - bs.length), .ok ()) := by
  simp [write, limited, holding, h, List.take_of_length_le h]

theorem write_limited_of_cut (sink : Sink) {room : Nat} {bs : List UInt8} (h : room < bs.length) :
    (sink.limited room).write bs =
      ((sink.holding (bs.take room)).limited 0, .error sink.refusal) := by
  have hnone : room - bs.length = 0 := by omega
  simp [write, limited, holding, hnone, h]

theorem holding_holding (sink : Sink) (a b : List UInt8) :
    (sink.holding a).holding b = sink.holding (a ++ b) := by
  simp [holding]

end Sink

theorem linesBytes_append (a b : List (Located (List UInt8))) :
    linesBytes (a ++ b) = linesBytes a ++ linesBytes b := by
  simp [linesBytes]

theorem linesBytes_cons (line : Located (List UInt8)) (later : List (Located (List UInt8))) :
    linesBytes (line :: later) = line.value ++ linesBytes later := rfl

theorem deliver_append_of_write {source : Nat} {ending : Except RunError Value}
    {before : List (Located (List UInt8))} (later : List (Located (List UInt8))) {sink sink' : Sink}
    (h : sink.write (linesBytes before) = (sink', .ok ())) :
    deliver source ending (before ++ later) sink = deliver source ending later sink' := by
  induction before generalizing sink with
  | nil =>
    have hnil : sink.write [] = (sink', .ok ()) := h
    rw [Sink.write_nil] at hnil
    cases hnil
    rfl
  | cons line rest ih =>
    rw [linesBytes_cons, Sink.write_append] at h
    cases hw : sink.write line.value with
    | mk sink₁ written =>
      cases written with
      | error fault => simp [hw] at h
      | ok u =>
        simp only [hw] at h
        simp only [List.cons_append, deliver, hw]
        exact ih h

theorem exists_line_of_lt {lines : List (Located (List UInt8))} {n : Nat}
    (h : n < (linesBytes lines).length) : ∃ before line later, lines = before ++ line :: later ∧
      (linesBytes before).length ≤ n ∧ n < (linesBytes before).length + line.value.length := by
  induction lines generalizing n with
  | nil => exact absurd h (Nat.not_lt_zero n)
  | cons line later ih =>
    by_cases hfirst : n < line.value.length
    · exact ⟨[], line, later, rfl, Nat.zero_le n, by simpa [linesBytes] using hfirst⟩
    · rw [linesBytes_cons, List.length_append] at h
      obtain ⟨before, cut, rest, rfl, hle, hlt⟩ := @ih (n - line.value.length) (by omega)
      refine ⟨line :: before, cut, rest, rfl, ?_, ?_⟩
      · rw [linesBytes_cons, List.length_append]
        omega
      · rw [linesBytes_cons, List.length_append]
        omega

section
variable {source : Nat} {ending : Except RunError Value} {lines : List (Located (List UInt8))}
  {room : Nat}

theorem deliver_limited_of_fits (sink : Sink) (h : (linesBytes lines).length ≤ room) :
    deliver source ending lines (sink.limited room) =
      ((sink.holding (linesBytes lines)).limited (room - (linesBytes lines).length), ending) := by
  have hall := @deliver_append_of_write source ending lines [] _ _ (sink.write_limited_of_fits h)
  rw [List.append_nil] at hall
  exact hall

/-- The line with the first byte that there is no room for is the last that is handed over. -/
theorem deliver_limited_of_cut (sink : Sink) {before later : List (Located (List UInt8))}
    {line : Located (List UInt8)} (parts : lines = before ++ line :: later)
    (hle : (linesBytes before).length ≤ room)
    (hlt : room < (linesBytes before).length + line.value.length) :
    deliver source ending lines (sink.limited room) =
      ((sink.holding ((linesBytes lines).take room)).limited 0,
        .error ⟨.output sink.refusal, some line.span, source⟩) := by
  have htaken : (linesBytes lines).take room =
      linesBytes before ++ line.value.take (room - (linesBytes before).length) := by
    have hnone : room - ((linesBytes before).length + line.value.length) = 0 := by omega
    rw [parts, linesBytes_append, linesBytes_cons, List.take_append, List.take_of_length_le hle,
      List.take_append, Nat.sub_sub, hnone, List.take_zero, List.append_nil]
  have hbefore := sink.write_limited_of_fits hle
  have hline := @Sink.write_limited_of_cut (sink.holding (linesBytes before))
    (room - (linesBytes before).length) line.value (by omega)
  rw [htaken, parts, deliver_append_of_write (line :: later) hbefore, deliver, hline,
    Sink.holding_holding]
  rfl

end

theorem exists_print_of_lines {ctx : Context} {ops : List Operation} {value : Value}
    {before later : List (Located (List UInt8))} {line : Located (List UInt8)}
    (h : (script ctx ops value).lines = before ++ line :: later) :
    ∃ first span rest content, ops = first ++ .print span :: rest ∧
      line = ⟨printedLine content, span⟩ ∧
      script ctx first value = ⟨before, .ok (.text content)⟩ := by
  induction ops generalizing value before with
  | nil => simp [script] at h
  | cons op ops ih =>
    cases op with
    | reset =>
      obtain ⟨first, span, rest, content, rfl, hline, hscript⟩ := @ih .unit before h
      exact ⟨.reset :: first, span, rest, content, rfl, hline, hscript⟩
    | read path place =>
      rw [script] at h
      cases hr : ctx.read (Files.join ctx.base path) with
      | error fault => simp [hr] at h
      | ok text =>
        rw [hr] at h
        obtain ⟨first, span, rest, content, rfl, hline, hscript⟩ := @ih (.text text) before h
        refine ⟨.read path place :: first, span, rest, content, rfl, hline, ?_⟩
        rw [script, hr]
        exact hscript
    | print place =>
      cases value with
      | unit => simp [script] at h
      | text text =>
        rw [script] at h
        cases before with
        | nil =>
          simp only [List.nil_append, List.cons.injEq] at h
          exact ⟨[], place, ops, text, rfl, h.1.symm, rfl⟩
        | cons printed before =>
          simp only [List.cons_append, List.cons.injEq] at h
          obtain ⟨first, span, rest, content, rfl, hline, hscript⟩ := @ih (.text text) before h.2
          refine ⟨.print place :: first, span, rest, content, rfl, hline, ?_⟩
          rw [script, hscript, ← h.1]

theorem exists_print_of_operation? {i : Instruction} {span : Span}
    (h : operation? i = some (.print span)) : ∃ label, i = .act .print span label := by
  cases i with
  | block scope place body => cases scope <;> cases h
  | act action place payload =>
    cases action with
    | file => cases h
    | print =>
      cases h
      exact ⟨payload, rfl⟩

theorem exists_print_of_filterMap {is : List Instruction} {first rest : List Operation}
    {span : Span} (h : is.filterMap operation? = first ++ .print span :: rest) :
    ∃ before label after, is = before ++ .act .print span label :: after ∧
      before.filterMap operation? = first := by
  obtain ⟨is₁, is₂, rfl, rfl, h₂⟩ := List.filterMap_eq_append_iff.1 h
  obtain ⟨idle, i, after, rfl, hidle, hi, rfl⟩ := List.filterMap_eq_cons_iff.1 h₂
  obtain ⟨label, rfl⟩ := exists_print_of_operation? hi
  refine ⟨is₁ ++ idle, label, after, (List.append_assoc _ _ _).symm, ?_⟩
  rw [List.filterMap_append, List.filterMap_eq_nil_iff.2 hidle, List.append_nil]

/-- The print at this place prints the line in which byte `n` stands, counted from 0, of the output
that some instructions give to a sink without a limit. -/
def PrintsByte (ctx : Context) (is : List Instruction) (output : List UInt8) (n : Nat)
    (span : Span) : Prop :=
  ∃ before label after sink content, is = before ++ .act .print span label :: after ∧
    walk ctx before .unit {} = (sink, .ok (.text content)) ∧
    sink.accepted ++ printedLine content <+: output ∧
    sink.accepted.length ≤ n ∧ n < sink.accepted.length + (printedLine content).length

theorem printsByte_of_lines {ctx : Context} {is : List Instruction}
    {before later : List (Located (List UInt8))} {line : Located (List UInt8)} {n : Nat}
    (h : (script ctx (is.filterMap operation?) .unit).lines = before ++ line :: later)
    (hle : (linesBytes before).length ≤ n)
    (hlt : n < (linesBytes before).length + line.value.length) :
    PrintsByte ctx is (linesBytes (before ++ line :: later)) n line.span := by
  obtain ⟨first, span, rest, content, hops, hline, hscript⟩ := exists_print_of_lines h
  obtain ⟨is₁, label, is₂, rfl, rfl⟩ := exists_print_of_filterMap hops
  have hvalue : line.value = printedLine content := by rw [hline]
  have hspan : line.span = span := by rw [hline]
  have hwalk : walk ctx is₁ .unit {} =
      ({ accepted := linesBytes before }, .ok (.text content)) := by
    rw [walk, runOperations_eq_deliver, hscript, deliver_of_room_eq_none _ _ _ rfl,
      List.nil_append]
  rw [hvalue] at hlt
  rw [linesBytes_append, linesBytes_cons, hvalue, hspan]
  refine ⟨is₁, label, is₂, _, content, rfl, hwalk, ?_, hle, hlt⟩
  exact ⟨linesBytes later, List.append_assoc _ _ _⟩

/-- What a program would print and come to if no output were refused. -/
def scriptOf (read : String → Except Files.ReadFault String) (base : String) (program : Program) :
    Script :=
  script ⟨read, base, program.source⟩ (program.root.inOrder.filterMap operation?) .unit

section
variable {read : String → Except Files.ReadFault String} {base : String} {program : Program}

/-- A flush that does not fail changes nothing about what is printed, or about what a run comes
to. -/
theorem runProgram_of_deliver {s : State} {sink : Sink} {result : Except RunError Value}
    (h : deliver program.source (scriptOf read base program).ending
      (scriptOf read base program).lines s.sink = (sink, result))
    (flushes : sink.flushFault = none) :
    (runProgram read base program s).1.sink.accepted = sink.accepted ∧
      (runProgram read base program s).2 = result := by
  have hrun := observed_runProgram_eq_walk read base program s
  have hwalk : walk ⟨read, base, program.source⟩ program.root.inOrder .unit s.sink =
      (sink, result) := by
    rw [walk, runOperations_eq_deliver]
    exact h
  rw [hwalk] at hrun
  cases result with
  | error e => exact ⟨congrArg (·.1.accepted) hrun, congrArg Prod.snd hrun⟩
  | ok value =>
    rw [Outcome.andThen, flushed, flushes] at hrun
    exact ⟨congrArg (·.1.accepted) hrun, congrArg Prod.snd hrun⟩

theorem runProgram_unlimited (s : State) :
    (runProgram read base program { s with sink := s.sink.unlimited }).1.sink.accepted =
        s.sink.accepted ++ linesBytes (scriptOf read base program).lines ∧
      (runProgram read base program { s with sink := s.sink.unlimited }).2 =
        (scriptOf read base program).ending :=
  runProgram_of_deliver (deliver_of_room_eq_none _ _ _ rfl) rfl

end

/-- A sink that fills up takes the beginning of the output, and the print whose line does not fit
into it fails, whatever would come after. -/
theorem full_sink_truncates (read : String → Except Files.ReadFault String) (base : String)
    (program : Program) (s : State) (room : Nat) :
    (∃ output,
      (runProgram read base program { s with sink := s.sink.unlimited }).1.sink.accepted =
        s.sink.accepted ++ output ∧
      (runProgram read base program { s with sink := s.sink.limited room }).1.sink.accepted =
        s.sink.accepted ++ output.take room ∧
      (output.length ≤ room →
        (runProgram read base program { s with sink := s.sink.limited room }).2 =
          (runProgram read base program { s with sink := s.sink.unlimited }).2) ∧
      (room < output.length → ∃ span,
        PrintsByte ⟨read, base, program.source⟩ program.root.inOrder output room span ∧
        (runProgram read base program { s with sink := s.sink.limited room }).2 =
          .error ⟨.output s.sink.refusal, some span, program.source⟩)) ∧
    (∀ pieces sink, Sink.writePieces pieces sink = sink.write pieces.flatten) := by
  refine ⟨?_, Sink.writePieces_eq_write⟩
  obtain ⟨hfree, hresult⟩ := @runProgram_unlimited read base program s
  refine ⟨linesBytes (scriptOf read base program).lines, hfree, ?_⟩
  by_cases hfits : (linesBytes (scriptOf read base program).lines).length ≤ room
  · obtain ⟨haccepted, hlimited⟩ := @runProgram_of_deliver read base program
      { s with sink := s.sink.limited room } _ _ (deliver_limited_of_fits s.sink hfits) rfl
    refine ⟨?_, fun _ => hlimited.trans hresult.symm, fun hlt => ?_⟩
    · rw [List.take_of_length_le hfits]
      exact haccepted
    · omega
  · obtain ⟨before, line, later, parts, hle, hlt⟩ :=
      exists_line_of_lt (Nat.lt_of_not_le hfits)
    obtain ⟨haccepted, hlimited⟩ := @runProgram_of_deliver read base program
      { s with sink := s.sink.limited room } _ _ (deliver_limited_of_cut s.sink parts hle hlt) rfl
    refine ⟨haccepted, fun h => absurd h hfits, fun _ => ⟨line.span, ?_, hlimited⟩⟩
    rw [parts]
    exact printsByte_of_lines parts hle hlt

/-- A run that would end in a type error ends in the middle of its second line. -/
theorem full_sink_truncates_midline :
    (runProgram (fun _ => .ok "x") "d"
      ⟨.block .step ⟨0, 6⟩ [.act .file ⟨6, 12⟩ "a", .act .print ⟨20, 27⟩ "b",
        .act .print ⟨36, 43⟩ "c", .block .pipeline ⟨52, 62⟩ [.act .print ⟨62, 69⟩ "d"]], 3⟩
      { sink := Sink.unlimited {} }).2 =
      .error ⟨.typeMismatch "String" "Unit", some ⟨62, 69⟩, 3⟩ ∧
    (runProgram (fun _ => .ok "x") "d"
      ⟨.block .step ⟨0, 6⟩ [.act .file ⟨6, 12⟩ "a", .act .print ⟨20, 27⟩ "b",
        .act .print ⟨36, 43⟩ "c", .block .pipeline ⟨52, 62⟩ [.act .print ⟨62, 69⟩ "d"]], 3⟩
      { sink := Sink.limited {} 5 }).1.sink.accepted = [34, 120, 34, 10, 34] ∧
    (runProgram (fun _ => .ok "x") "d"
      ⟨.block .step ⟨0, 6⟩ [.act .file ⟨6, 12⟩ "a", .act .print ⟨20, 27⟩ "b",
        .act .print ⟨36, 43⟩ "c", .block .pipeline ⟨52, 62⟩ [.act .print ⟨62, 69⟩ "d"]], 3⟩
      { sink := Sink.limited {} 5 }).2 = .error ⟨.output .closed, some ⟨36, 43⟩, 3⟩ ∧
    PrintsByte ⟨fun _ => .ok "x", "d", 3⟩
      (Instruction.block .step ⟨0, 6⟩ [.act .file ⟨6, 12⟩ "a", .act .print ⟨20, 27⟩ "b",
        .act .print ⟨36, 43⟩ "c", .block .pipeline ⟨52, 62⟩ [.act .print ⟨62, 69⟩ "d"]]).inOrder
      [34, 120, 34, 10, 34, 120, 34, 10] 5 ⟨36, 43⟩ := by
  obtain ⟨⟨output, hfree, hlimited, _, hcut⟩, _⟩ :=
    full_sink_truncates (fun _ => .ok "x") "d"
      ⟨.block .step ⟨0, 6⟩ [.act .file ⟨6, 12⟩ "a", .act .print ⟨20, 27⟩ "b",
        .act .print ⟨36, 43⟩ "c", .block .pipeline ⟨52, 62⟩ [.act .print ⟨62, 69⟩ "d"]], 3⟩
      { sink := {} } 5
  have houtput : [34, 120, 34, 10, 34, 120, 34, 10] = output := hfree
  subst houtput
  obtain ⟨span, hprints, hresult⟩ := hcut (by decide)
  have hspan : (⟨36, 43⟩ : Span) = span := by
    have hrun : (.error ⟨.output .closed, some ⟨36, 43⟩, 3⟩ : Except RunError Value) =
      .error ⟨.output .closed, some span, 3⟩ := hresult
    cases hrun
    rfl
  subst hspan
  exact ⟨rfl, hlimited, hresult, hprints⟩

end XmlPipeline.Run
