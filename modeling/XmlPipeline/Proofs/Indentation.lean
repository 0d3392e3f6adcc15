import XmlPipeline.Program.Outline
import XmlPipeline.Proofs.Unquoting
import XmlPipeline.Proofs.Writing
set_option autoImplicit false

/-!
Indentation: a tree told by how deep each line of its outline is indented. Main statement: trees
have the same outline only if they differ in nothing but their spans, and an outline has a line for
each instruction, whatever the payloads are.
-/

namespace XmlPipeline.Text

theorem takeWhile_and_dropWhile_append {α : Type} {p : α → Bool} {a b : List α}
    (inside : ∀ x ∈ a, p x = true) (outside : ∀ x, b.head? = some x → p x = false) :
    (a ++ b).takeWhile p = a ∧ (a ++ b).dropWhile p = b := by
  rw [List.takeWhile_append_of_pos inside, List.dropWhile_append_of_pos inside]
  cases b with
  | nil => simp
  | cons x b => simp [outside x rfl]

end XmlPipeline.Text

namespace XmlPipeline.Instruction

def heading (i : Instruction) : List Char :=
  i.tag.name.toList ++ match i.payload? with
    | some payload => ' ' :: Text.quoteBy Text.isHidden payload.toList
    | none => []

def line (depth : Nat) (i : Instruction) : List Char :=
  List.replicate (2 * depth) ' ' ++ (i.heading ++ ['\n'])

section Heading

theorem isAlpha_name (tag : Tag) : ∀ c ∈ tag.name.toList, c.isAlpha = true := by
  rw [← List.all_eq_true]
  rcases tag with s | a
  · cases s <;> rfl
  · cases a <;> rfl

theorem name_ne_nil (tag : Tag) : tag.name.toList ≠ [] := by
  rcases tag with s | a
  · cases s <;> decide
  · cases a <;> decide

theorem cut_name (tag : Tag) (rest : List Char)
    (h : ∀ c, rest.head? = some c → c.isAlpha = false) :
    (tag.name.toList ++ rest).takeWhile Char.isAlpha = tag.name.toList ∧
      (tag.name.toList ++ rest).dropWhile Char.isAlpha = rest :=
  Text.takeWhile_and_dropWhile_append (isAlpha_name tag) h

theorem heading_block (scope : Scope) (span : Markup.Span) (body : List Instruction) :
    (block scope span body).heading = (Tag.scope scope).name.toList := List.append_nil _

theorem heading_act (action : Action) (span : Markup.Span) (payload : String) :
    (act action span payload).heading =
      (Tag.action action).name.toList ++ ' ' :: Text.quoteBy Text.isHidden payload.toList := rfl

theorem newline_notMem_heading (i : Instruction) : '\n' ∉ i.heading := by
  have hname (tag : Tag) : '\n' ∉ tag.name.toList := fun h => by simpa using isAlpha_name tag _ h
  cases i with
  | block scope span body =>
    rw [heading_block]
    exact hname _
  | act action span payload =>
    rw [heading_act]
    simp [hname, Text.newline_notMem_quoteBy]

theorem cut_line (depth : Nat) (i : Instruction) :
    (i.line depth).takeWhile (· = ' ') = List.replicate (2 * depth) ' ' ∧
      (i.line depth).dropWhile (· = ' ') = i.heading ++ ['\n'] := by
  refine Text.takeWhile_and_dropWhile_append (by simp) fun c hc => ?_
  obtain ⟨first, rest, hname⟩ := List.exists_cons_of_ne_nil (name_ne_nil i.tag)
  have hfirst : first.isAlpha = true := isAlpha_name i.tag first (by simp [hname])
  rw [heading, hname, List.cons_append, List.cons_append, List.head?_cons, Option.some.injEq] at hc
  subst hc
  rw [decide_eq_false_iff_not]
  rintro rfl
  simp at hfirst

theorem toList_outlineLine (depth : Nat) (i : Instruction) :
    (outlineLine (depth, i)).toList = List.replicate (2 * depth) ' ' ++ i.heading := by
  cases i <;> simp [outlineLine, indented, heading, payload?, Text.toList_quote]

theorem splitLines_outline (i : Instruction) :
    Text.splitLines (Text.unlines i.outline).toList =
      i.preorder.map fun (depth, k) => k.line depth := by
  have hfree : ∀ line ∈ i.outline, '\n' ∉ line.toList := by
    intro line hline
    obtain ⟨⟨depth, k⟩, _, rfl⟩ := List.mem_map.1 hline
    simp [toList_outlineLine, newline_notMem_heading]
  rw [Text.splitLines_unlines hfree, outline, List.map_map]
  refine List.map_congr_left fun ⟨depth, k⟩ _ => ?_
  rw [Function.comp_apply, toList_outlineLine, List.append_assoc]
  rfl

end Heading

def readHeading (cs : List Char) : Option Instruction :=
  match Tag.ofName? (String.ofList (cs.takeWhile Char.isAlpha)), cs.dropWhile Char.isAlpha with
  | some (.scope scope), ['\n'] => some (.block scope (.point 0) [])
  | some (.action action), ' ' :: quoted =>
    (Text.readLine quoted).map fun payload => .act action (.point 0) payload
  | _, _ => none

def readOutlineLine (line : List Char) : Option (Nat × Instruction) :=
  (readHeading (line.dropWhile (· = ' '))).map fun i =>
    ((line.takeWhile (· = ' ')).length / 2, i)

def withBody (body : List Instruction) : Instruction → Instruction
  | .block scope span _ => .block scope span body
  | .act action span payload => .act action span payload

/-- Puts an instruction before trees whose depths are known: those that follow it and are deeper are
in it, up to the first that is not deeper. -/
def plant (line : Nat × Instruction) (grown : List (Nat × Instruction)) :
    List (Nat × Instruction) :=
  (line.1, line.2.withBody ((grown.takeWhile (line.1 < ·.1)).map (·.2))) ::
    grown.dropWhile (line.1 < ·.1)

def ofOutline? (text : String) : Option Instruction :=
  match ((Text.splitLines text.toList).mapM readOutlineLine).map (·.foldr plant []) with
  | some [(_, i)] => some i
  | _ => none

def lone (i : Instruction) : Instruction := (i.withBody []).withoutSpans

theorem readHeading_heading (i : Instruction) :
    readHeading (i.heading ++ ['\n']) = some i.lone := by
  have hfound (tag : Tag) : Tag.ofName? tag.name = some tag := Tag.ofName?_eq_some_iff.2 rfl
  cases i with
  | block scope span body =>
    obtain ⟨htake, hdrop⟩ := cut_name (.scope scope) ['\n'] (by simp)
    rw [heading_block, readHeading, htake, hdrop, String.ofList_toList, hfound]
    simp [lone, withBody, withoutSpans, withoutSpansAll]
  | act action span payload =>
    obtain ⟨htake, hdrop⟩ := cut_name (.action action)
      (' ' :: Text.quoteBy Text.isHidden payload.toList ++ ['\n']) (by simp)
    rw [heading_act, List.append_assoc, readHeading, htake, hdrop, String.ofList_toList, hfound]
    simp [Text.readLine_quoteBy, lone, withBody, withoutSpans]

theorem readOutlineLine_line (depth : Nat) (i : Instruction) :
    readOutlineLine (i.line depth) = some (depth, i.lone) := by
  obtain ⟨htake, hdrop⟩ := cut_line depth i
  rw [readOutlineLine, htake, hdrop, readHeading_heading]
  simp

theorem plant_inner {depth : Nat} (i : Instruction) (inner : List Instruction)
    {grown : List (Nat × Instruction)} (h : ∀ g, grown.head? = some g → g.1 ≤ depth) :
    plant (depth, i) (inner.map (depth + 1, ·) ++ grown) = (depth, i.withBody inner) :: grown := by
  obtain ⟨htake, hdrop⟩ := Text.takeWhile_and_dropWhile_append
    (p := fun g : Nat × Instruction => depth < g.1) (a := inner.map (depth + 1, ·)) (b := grown)
    (by simp) (by simpa using h)
  rw [plant, htake, hdrop]
  simp [Function.comp_def]

mutual

/-- The lines of a tree are planted as that tree, before what is not deeper than its root. -/
theorem foldr_plant_preorderFrom (i : Instruction) (depth : Nat) {grown : List (Nat × Instruction)}
    (h : ∀ g, grown.head? = some g → g.1 ≤ depth) :
    ((preorderFrom depth i).map fun p => (p.1, p.2.lone)).foldr plant grown =
      (depth, i.withoutSpans) :: grown := by
  cases i with
  | block scope span body =>
    have hbody := foldr_plant_preorderAll body (depth + 1) fun g hg => Nat.le_succ_of_le (h g hg)
    rw [preorderFrom, List.map_cons, List.foldr_cons, hbody, plant_inner _ _ h]
    rfl
  | act action span payload => exact plant_inner _ [] h

theorem foldr_plant_preorderAll (is : List Instruction) (depth : Nat)
    {grown : List (Nat × Instruction)} (h : ∀ g, grown.head? = some g → g.1 ≤ depth) :
    ((preorderAll depth is).map fun p => (p.1, p.2.lone)).foldr plant grown =
      (withoutSpansAll is).map (depth, ·) ++ grown := by
  cases is with
  | nil => rfl
  | cons i rest =>
    have hrest := foldr_plant_preorderAll rest depth h
    have hnext : ∀ g, ((withoutSpansAll rest).map (depth, ·) ++ grown).head? = some g →
        g.1 ≤ depth := by
      intro g hg
      cases hall : withoutSpansAll rest with
      | nil =>
        rw [hall] at hg
        exact h g hg
      | cons j js =>
        rw [hall] at hg
        cases hg
        exact Nat.le_refl depth
    rw [preorderAll, List.map_append, List.foldr_append, hrest,
      foldr_plant_preorderFrom i depth hnext]
    rfl

end

theorem mapM_readOutlineLine (lines : List (Nat × Instruction)) :
    (lines.map fun (depth, k) => k.line depth).mapM readOutlineLine =
      some (lines.map fun (depth, k) => (depth, k.lone)) := by
  induction lines with
  | nil => rfl
  | cons first lines ih =>
    rw [List.map_cons, List.mapM_cons, readOutlineLine_line, ih]
    rfl

theorem ofOutline?_outline (i : Instruction) :
    ofOutline? (Text.unlines i.outline) = some i.withoutSpans := by
  have hplanted := @foldr_plant_preorderFrom i 0 [] (by simp)
  rw [ofOutline?, splitLines_outline, mapM_readOutlineLine, Option.map_some, preorder, hplanted]

mutual

theorem outline_withoutSpansFrom (i : Instruction) (depth : Nat) :
    (preorderFrom depth i.withoutSpans).map outlineLine =
      (preorderFrom depth i).map outlineLine := by
  cases i with
  | block scope span body =>
    rw [withoutSpans, preorderFrom, preorderFrom, List.map_cons, List.map_cons,
      outline_withoutSpansAll]
    rfl
  | act action span payload => rfl

theorem outline_withoutSpansAll (is : List Instruction) (depth : Nat) :
    (preorderAll depth (withoutSpansAll is)).map outlineLine =
      (preorderAll depth is).map outlineLine := by
  cases is with
  | nil => rfl
  | cons i rest =>
    rw [withoutSpansAll, preorderAll, preorderAll, List.map_append, List.map_append,
      outline_withoutSpansFrom, outline_withoutSpansAll]

end

theorem outline_withoutSpans (i : Instruction) : i.withoutSpans.outline = i.outline :=
  outline_withoutSpansFrom i 0

theorem length_indentation_line (depth : Nat) (i : Instruction) :
    ((i.line depth).takeWhile (· = ' ')).length = 2 * depth := by
  rw [(cut_line depth i).1, List.length_replicate]

/-- An outline tells the tree that it is of, all but where its instructions stand in a source. It
has a line for each of them, and a line is indented by two blanks for each level. -/
theorem outline_tells_tree (i j : Instruction) :
    (Text.unlines i.outline = Text.unlines j.outline ↔ i.withoutSpans = j.withoutSpans) ∧
    Text.splitLines (Text.unlines i.outline).toList =
      i.preorder.map (fun (depth, k) => k.line depth) ∧
    ∀ depth k, ((line depth k).takeWhile (· = ' ')).length = 2 * depth := by
  refine ⟨⟨fun h => ?_, fun h => ?_⟩, splitLines_outline i, length_indentation_line⟩
  · have hread := ofOutline?_outline i
    rw [h, ofOutline?_outline, Option.some.injEq] at hread
    exact hread.symm
  · rw [← outline_withoutSpans i, h, outline_withoutSpans]

end XmlPipeline.Instruction
