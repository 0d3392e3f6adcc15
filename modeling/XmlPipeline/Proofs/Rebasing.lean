import XmlPipeline.Files.Disk
import XmlPipeline.Proofs.Completion
import XmlPipeline.Proofs.PathOrder
set_option autoImplicit false

/-!
Rebasing: a program that runs in a folder of a folder. Main statement: the inner folder can be put
in front of each path of the program instead, and only the path that an error names tells the two
runs apart.
-/

namespace XmlPipeline

def Action.mapPath (f : String → String) : Action → String → String
  | .file, path => f path
  | .print, label => label

namespace Instruction

mutual

def mapPaths (f : String → String) : Instruction → Instruction
  | .block scope span body => .block scope span (mapPathsAll f body)
  | .act action span payload => .act action span (action.mapPath f payload)

def mapPathsAll (f : String → String) : List Instruction → List Instruction
  | [] => []
  | i :: rest => mapPaths f i :: mapPathsAll f rest

end

@[simp] theorem tag_mapPaths (f : String → String) (i : Instruction) :
    (i.mapPaths f).tag = i.tag := by
  cases i <;> rfl

mutual

theorem mapPaths_eq_self (f : String → String) (i : Instruction) (depth : Nat)
    (h : ∀ path ∈ ((i.preorderFrom depth).map Prod.snd).filterMap Run.filePath?, f path = path) :
    i.mapPaths f = i := by
  cases i with
  | block scope span body =>
    have hbody := mapPathsAll_eq_self f body (depth + 1) h
    rw [mapPaths, hbody]
  | act action span payload =>
    cases action with
    | file =>
      have hpayload := h payload List.mem_cons_self
      rw [mapPaths, Action.mapPath, hpayload]
    | print => rfl

theorem mapPathsAll_eq_self (f : String → String) (is : List Instruction) (depth : Nat)
    (h : ∀ path ∈ ((preorderAll depth is).map Prod.snd).filterMap Run.filePath?, f path = path) :
    mapPathsAll f is = is := by
  cases is with
  | nil => rfl
  | cons i rest =>
    simp only [preorderAll, List.map_append, List.filterMap_append, List.mem_append] at h
    rw [mapPathsAll, mapPaths_eq_self f i depth fun path hp => h path (.inl hp),
      mapPathsAll_eq_self f rest depth fun path hp => h path (.inr hp)]

end

end Instruction

def Program.mapPaths (f : String → String) (program : Program) : Program :=
  { program with root := program.root.mapPaths f }

namespace Files

theorem join_of_isAbsolute (base : String) {path : String} (h : isAbsolute path = true) :
    join base path = path := if_pos h

/-- Nothing joined onto a folder leaves it as it is, or puts a slash behind it. -/
theorem join_empty_cases (base : String) :
    join base "" = base ∨ (join base "").toList = base.toList ++ ['/'] := by
  by_cases hslash : base.toList.getLast?.all (· = '/') = true
  · exact .inl (String.toList_inj.1 (by simp [toList_join (rfl : isAbsolute "" = false), hslash]))
  · exact .inr (by simp [toList_join (rfl : isAbsolute "" = false), hslash])

theorem pieces_concat_slash (cs : List Char) : pieces (cs ++ ['/']) = pieces cs ++ [[]] := by
  rw [pieces_append_slash]
  rfl

theorem components_join_empty (base : String) : components (join base "") = components base := by
  rcases join_empty_cases base with hjoin | hjoin
  · rw [hjoin]
  · have hlead : lead (join base "") = lead base := by
      rw [lead, lead, isAbsolute_join, hjoin, head?_pieces_append_slash]
      rfl
    rw [components, components, hlead, hjoin, pieces_concat_slash, Component.ofPieces_append,
      Component.ofPieces_empty, List.append_nil]

theorem Place.foldlM_step_concat_empty {start : Place} {ps : List (List Char)}
    (h : ∀ content, ps.foldlM (fun place piece => place.step piece) start ≠ .ok (.file content)) :
    (ps ++ [[]]).foldlM (fun place piece => place.step piece) start =
      ps.foldlM (fun place piece => place.step piece) start := by
  rw [List.foldlM_append]
  cases hplace : ps.foldlM (fun place piece => place.step piece) start with
  | error fault => rfl
  | ok place =>
    cases place with
    | file content => exact absurd hplace (h content)
    | folder entries above => rfl
    | outside => rfl

theorem Disk.pathFault?_of_slash {base path : String} (h : path.toList = base.toList ++ ['/'])
    (hlong : isTooLong path = false) (hempty : base ≠ "") : pathFault? path = pathFault? base := by
  have hnul : '\x00' ∈ path.toList ↔ '\x00' ∈ base.toList := by simp [h]
  have hpath : path ≠ "" := by
    rintro rfl
    simp at h
  have hsize : Text.size path.toList = Text.size base.toList + Text.size ['/'] := by
    rw [h, Text.size_append]
  have hlongBase : isTooLong base = false := by
    simp only [isTooLong, decide_eq_false_iff_not] at hlong ⊢
    omega
  rw [pathFault?, pathFault?, if_neg hpath, if_neg hempty, hlong, hlongBase]
  simp only [hnul]

/-- A slash behind a path leads nowhere else, unless the path leads to a file or is as long as a
path can be. -/
theorem Disk.locate_join_empty (disk : Disk) {base : String}
    (hfile : ∀ content, disk.locate base ≠ .ok (.file content))
    (hlong : isTooLong (join base "") = false) :
    disk.locate (join base "") = disk.locate base := by
  rcases join_empty_cases base with hjoin | hjoin
  · rw [hjoin]
  · have hstart : disk.start (join base "") = disk.start base := by
      rw [start, start, isAbsolute_join]
      rfl
    have hempty : base ≠ "" := by
      rintro rfl
      cases hjoin
    rw [locate] at hfile
    rw [locate, locate, pathFault?_of_slash hjoin hlong hempty, hstart, hjoin,
      pieces_concat_slash]
    cases hfault : pathFault? base with
    | some fault => rfl
    | none =>
      rw [hfault] at hfile
      exact Place.foldlM_step_concat_empty hfile

end Files

theorem Program.mapPaths_join {program : Program}
    (h : ∀ path ∈ program.root.inOrder.filterMap Run.filePath?, Files.isAbsolute path = true)
    (folder : String) : program.mapPaths (Files.join folder) = program := by
  have hroot := Instruction.mapPaths_eq_self (Files.join folder) program.root 0 fun path hp =>
    Files.join_of_isAbsolute folder (h path hp)
  rw [mapPaths, hroot]

namespace Run
open Files (Disk ReadFault components isAbsolute isTooLong join)

def Fault.mapPath (f : String → String) : Fault → Fault
  | .unreadable path fault => .unreadable (f path) fault
  | .typeMismatch expected got => .typeMismatch expected got
  | .output fault => .output fault

def RunError.mapPath (f : String → String) (e : RunError) : RunError :=
  { e with cause := e.cause.mapPath f }

def retell {ε : Type} (f : ε → ε) (outcome : State × Except ε Value) : State × Except ε Value :=
  (outcome.1, outcome.2.mapError f)

variable (read : String → Except ReadFault String) (base folder : String) (source : Nat)

theorem readText_join (path : String) (s : State) :
    readText ⟨read, base, source⟩ (join folder path) s =
      retell (Fault.mapPath (join folder)) (readText ⟨read, join base folder, source⟩ path s) := by
  simp only [readText, Files.join_assoc]
  cases read (join base (join folder path)) <;> rfl

theorem printValue_retell (f : String → String) (value : Value) (s : State) :
    retell (Fault.mapPath f) (printValue value s) = printValue value s := by
  cases value with
  | unit => rfl
  | text content =>
    rw [printValue]
    split <;> rfl

theorem perform_join (action : Action) (payload : String) (input : Value) (s : State) :
    perform ⟨read, base, source⟩ action (action.mapPath (join folder) payload) input s =
      retell (Fault.mapPath (join folder))
        (perform ⟨read, join base folder, source⟩ action payload input s) := by
  cases action with
  | file => exact readText_join read base folder source payload s
  | print => exact (printValue_retell (join folder) input s).symm

theorem executing_mapPaths (f : String → String) (i : Instruction) (input : Value) :
    executing (i.mapPaths f) input = executing i input := by
  rw [executing, executing, Instruction.tag_mapPaths]

/- The two runs have the same sink and the same journal after each instruction, so that one state
serves for both in the induction. -/
mutual

theorem execute_mapPaths (i : Instruction) (input : Value) (s : State) :
    execute ⟨read, base, source⟩ (i.mapPaths (join folder)) input s =
      retell (RunError.mapPath (join folder))
        (execute ⟨read, join base folder, source⟩ i input s) := by
  have hnote := executing_mapPaths (join folder) i input
  cases i with
  | block scope span body =>
    rw [Instruction.mapPaths] at hnote ⊢
    rw [execute, execute, hnote]
    exact executeAll_mapPathsAll body _ _
  | act action span payload =>
    rw [Instruction.mapPaths] at hnote ⊢
    rw [execute, execute, hnote, perform_join]
    cases perform ⟨read, join base folder, source⟩ action payload input
        (s.note (executing (.act action span payload) input)) with
    | mk s' result => cases result <;> rfl

theorem executeAll_mapPathsAll (is : List Instruction) (input : Value) (s : State) :
    executeAll ⟨read, base, source⟩ (Instruction.mapPathsAll (join folder) is) input s =
      retell (RunError.mapPath (join folder))
        (executeAll ⟨read, join base folder, source⟩ is input s) := by
  cases is with
  | nil => rw [Instruction.mapPathsAll, executeAll, executeAll]; rfl
  | cons i rest =>
    rw [Instruction.mapPathsAll, executeAll, executeAll, execute_mapPaths i]
    cases execute ⟨read, join base folder, source⟩ i input s with
    | mk s' result =>
      cases result with
      | error e => rfl
      | ok value => exact executeAll_mapPathsAll rest value _

end

theorem runProgram_mapPaths (program : Program) (s : State) :
    runProgram read base (program.mapPaths (join folder)) s =
      retell (RunError.mapPath (join folder)) (runProgram read (join base folder) program s) := by
  rw [runProgram, runProgram, Program.mapPaths, execute_mapPaths]
  cases execute ⟨read, join base folder, program.source⟩ program.root .unit s with
  | mk s' result =>
    cases result with
    | error e => rfl
    | ok value =>
      simp only [retell, Except.mapError, Sink.flush]
      cases s'.sink.flushFault <;> rfl

theorem runProgram_of_absolute {program : Program}
    (h : ∀ path ∈ program.root.inOrder.filterMap filePath?, isAbsolute path = true)
    (other : String) (s : State) :
    runProgram read other program s = runProgram read base program s := by
  -- Such a program does not change when the root is put in front of its paths, and the root is the
  -- same folder whatever it is joined onto.
  have hroot : join other "/" = join base "/" := rfl
  have hmap := Program.mapPaths_join h "/"
  have hother := runProgram_mapPaths read other "/" program s
  have hbase := runProgram_mapPaths read base "/" program s
  rw [hmap] at hother hbase
  rw [hother, hbase, hroot]

/-- A folder that the base ends in can be put in front of the paths of a program instead. Absolute
paths are affected by neither, and the empty path is the base. -/
theorem base_composes_with_paths (program : Program) (s : State) :
    runProgram read base (program.mapPaths (join folder)) s =
      retell (RunError.mapPath (join folder)) (runProgram read (join base folder) program s) ∧
    ((∀ path ∈ program.root.inOrder.filterMap filePath?, isAbsolute path = true) →
      program.mapPaths (join folder) = program ∧
      ∀ other, runProgram read other program s = runProgram read base program s) ∧
    components (join base "") = components base ∧
    ∀ disk : Disk, (∀ content, disk.locate base ≠ .ok (.file content)) →
      isTooLong (join base "") = false → disk.locate (join base "") = disk.locate base :=
  ⟨runProgram_mapPaths read base folder program s,
    fun h => ⟨Program.mapPaths_join h folder, fun other =>
      runProgram_of_absolute read base h other s⟩,
    Files.components_join_empty base,
    fun disk hfile hlong => disk.locate_join_empty hfile hlong⟩

theorem base_composes_with_paths_slash :
    (runProgram (fun path => if path = "/x" then .ok "1" else .error .notFound) "d/q"
        ⟨.block .pipeline ⟨0, 10⟩ [.act .file ⟨10, 16⟩ "/x", .act .file ⟨25, 31⟩ ""], 0⟩
        { sink := {} }).2 = .error ⟨.unreadable "" .notFound, some ⟨25, 31⟩, 0⟩ ∧
    (runProgram (fun path => if path = "/x" then .ok "1" else .error .notFound) "d/"
        ⟨.block .pipeline ⟨0, 10⟩ [.act .file ⟨10, 16⟩ "/x", .act .file ⟨25, 31⟩ "q/"], 0⟩
        { sink := {} }).2 = .error ⟨.unreadable "q/" .notFound, some ⟨25, 31⟩, 0⟩ ∧
    (∀ other, runProgram .ok other ⟨.act .file ⟨0, 6⟩ "/x", 0⟩ { sink := {} } =
      runProgram .ok "d" ⟨.act .file ⟨0, 6⟩ "/x", 0⟩ { sink := {} }) ∧
    Disk.locate {} "./" = Disk.locate {} "." := by
  have hrun : (runProgram (fun path => if path = "/x" then .ok "1" else .error .notFound) "d/q"
      ⟨.block .pipeline ⟨0, 10⟩ [.act .file ⟨10, 16⟩ "/x", .act .file ⟨25, 31⟩ ""], 0⟩
      { sink := {} }).2 = .error ⟨.unreadable "" .notFound, some ⟨25, 31⟩, 0⟩ := by
    decide
  obtain ⟨hmap, _⟩ := base_composes_with_paths
    (fun path => if path = "/x" then .ok "1" else .error .notFound) "d/" "q"
    ⟨.block .pipeline ⟨0, 10⟩ [.act .file ⟨10, 16⟩ "/x", .act .file ⟨25, 31⟩ ""], 0⟩ { sink := {} }
  obtain ⟨_, habsolute, _⟩ := base_composes_with_paths .ok "d" "q" ⟨.act .file ⟨0, 6⟩ "/x", 0⟩
    { sink := {} }
  obtain ⟨_, _, _, hempty⟩ := base_composes_with_paths .ok "." "q" ⟨.act .file ⟨0, 6⟩ "/x", 0⟩
    { sink := {} }
  refine ⟨hrun, ?_, (habsolute (by decide)).2, hempty {} ?_ (by decide)⟩
  · have hspelled := congrArg Prod.snd hmap
    exact hspelled.trans (congrArg (Except.mapError _) hrun)
  · intro content hfile
    have hfolder : Disk.locate {} "." = .ok (.folder [] [("", [("", .folder [])])]) := rfl
    rw [hfolder] at hfile
    cases hfile

end Run

end XmlPipeline
