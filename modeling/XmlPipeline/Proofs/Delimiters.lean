import XmlPipeline.Proofs.Cutting
import XmlPipeline.Proofs.Lines
import XmlPipeline.Proofs.Trimming
import XmlPipeline.Suite.FrontMatter
set_option autoImplicit false

/-!
Delimiters: where the front matter of a test file begins and ends. Main statements: what is written
between delimiters is read back, and so is the source behind them, whatever it holds; and a file is
read by its whole lines, unless it is one of those that are misread. Which these are is told by their
lines alone.
-/

namespace XmlPipeline.Suite
open Text (LineBreak Ruled dropEndWhile splitLines splitLines_eq_iff withoutEnd)

def dashes : List Char := "---".toList

/-- A test file as it can be written: byte order marks, a delimiter, the front matter, a delimiter,
the source. -/
structure WrittenTest where
  marks : Nat
  afterOpening : LineBreak
  toml : String
  beforeClosing : LineBreak
  afterClosing : LineBreak
  source : String

def WrittenTest.content (w : WrittenTest) : String :=
  String.ofList (List.replicate w.marks '\uFEFF' ++ (dashes ++ w.afterOpening.chars ++
    (w.toml.toList ++ w.beforeClosing.chars ++ (dashes ++ w.afterClosing.chars ++
      w.source.toList))))

def unmarked (content : String) : List Char := content.toList.dropWhile (· = '\uFEFF')

def linesOf (content : String) : List (List Char) := splitLines (unmarked content)

theorem dashes_ne_nil : dashes ≠ [] := by decide

theorem newline_notMem_dashes : '\n' ∉ dashes := by decide

theorem drop_dashes (cs : List Char) : (dashes ++ cs).drop 3 = cs := List.drop_left' (by decide)

def cutClosing (cs : List Char) : Except FrontMatterFault (List Char × List Char) :=
  match Markup.cutAt ('\n' :: dashes) cs with
  | some (toml, rest) => .ok (dropEndWhile (· = '\r') toml, afterLineEnd rest)
  | none => .error .noClosing

theorem splitFrontMatter_eq {content : String} {cs : List Char}
    (h : unmarked content = dashes ++ cs) :
    splitFrontMatter content = cutClosing (afterLineEnd cs) := by
  have hopens : "---".toList.isPrefixOf (dashes ++ cs) = true :=
    List.isPrefixOf_iff_prefix.2 (List.prefix_append dashes cs)
  have hmark : "\n---".toList = '\n' :: dashes := rfl
  rw [unmarked] at h
  simp only [splitFrontMatter, h, hopens, if_true, drop_dashes, hmark]
  rfl

theorem splitFrontMatter_of_unopened {content : String} (h : ¬ dashes <+: unmarked content) :
    splitFrontMatter content = .error .noOpening := by
  have hopens : ¬ "---".toList.isPrefixOf (unmarked content) = true := by
    rwa [List.isPrefixOf_iff_prefix]
  rw [unmarked] at hopens
  simp only [splitFrontMatter, if_neg hopens]

theorem cutClosing_ne_noOpening (cs : List Char) : cutClosing cs ≠ .error .noOpening := by
  unfold cutClosing
  split <;> simp

theorem afterLineEnd_chars (e : LineBreak) (cs : List Char) : afterLineEnd (e.chars ++ cs) = cs := by
  cases e <;> rfl

theorem cutClosing_of_not_infix {toml : List Char} (h : ¬ '\n' :: dashes <:+: toml)
    (rest : List Char) : cutClosing (toml ++ '\n' :: (dashes ++ rest)) =
      .ok (dropEndWhile (· = '\r') toml, afterLineEnd rest) := by
  have hcut := Markup.cutAt_append (Markup.unbordered_of_notMem newline_notMem_dashes) h rest
  rw [List.append_assoc, List.cons_append] at hcut
  rw [cutClosing, hcut]

theorem cutClosing_of_not_infix_all {cs : List Char} (h : ¬ '\n' :: dashes <:+: cs) :
    cutClosing cs = .error .noClosing := by
  unfold cutClosing
  split
  · next toml rest hcut =>
    rw [← Markup.eq_of_cutAt hcut, List.append_assoc] at h
    exact absurd ⟨toml, rest, List.append_assoc _ _ _⟩ h
  · rfl

theorem not_infix_append_return {cs : List Char} (h : ¬ '\n' :: dashes <:+: cs) :
    ¬ '\n' :: dashes <:+: cs ++ ['\r'] := by
  intro hin
  rcases List.infix_concat_iff.1 hin with hsuffix | hcs
  · rcases List.suffix_concat_iff.1 hsuffix with hnil | ⟨t, ht, _⟩
    · cases hnil
    · have hreturn : '\r' ∈ '\n' :: dashes := by rw [ht]; simp
      exact absurd hreturn (by decide)
  · exact h hcs

theorem cutClosing_break {toml : List Char} (free : ¬ '\n' :: dashes <:+: toml)
    (ending : toml.getLast? ≠ some '\r') (e : LineBreak) (rest : List Char) :
    cutClosing (toml ++ e.chars ++ (dashes ++ rest)) = .ok (toml, afterLineEnd rest) := by
  have hself : dropEndWhile (· = '\r') toml = toml := Text.dropEndWhile_eq_of_ne ending
  cases e with
  | feed =>
    have hcut := cutClosing_of_not_infix free rest
    rw [hself] at hcut
    rw [List.append_assoc]
    exact hcut
  | returnFeed =>
    have hcut := cutClosing_of_not_infix (not_infix_append_return free) rest
    rw [Text.dropEndWhile_append toml (by decide), hself, List.append_assoc] at hcut
    rw [List.append_assoc]
    exact hcut

theorem unmarked_content (w : WrittenTest) : unmarked w.content =
    dashes ++ (w.afterOpening.chars ++ (w.toml.toList ++ w.beforeClosing.chars ++
      (dashes ++ (w.afterClosing.chars ++ w.source.toList)))) := by
  have hmarks : ∀ c ∈ List.replicate w.marks '\uFEFF', decide (c = '\uFEFF') = true :=
    fun c hc => decide_eq_true (List.eq_of_mem_replicate hc)
  rw [unmarked, WrittenTest.content, String.toList_ofList, List.dropWhile_append_of_pos hmarks]
  simp [dashes]

/-- Front matter that holds no delimiter of its own is read as it was written, and the source is as
well, whatever it looks like. -/
theorem written_test_read_back (w : WrittenTest) (free : ¬ "\n---".toList <:+: w.toml.toList)
    (ending : w.toml.toList.getLast? ≠ some '\r') :
    splitFrontMatter w.content = .ok (w.toml.toList, w.source.toList) ∧
    ∀ e, Expectation.read? w.toml = some e → readTestFile w.content = .ok (e, w.source) := by
  have hsplit : splitFrontMatter w.content = .ok (w.toml.toList, w.source.toList) := by
    rw [splitFrontMatter_eq (unmarked_content w), afterLineEnd_chars, cutClosing_break free ending,
      afterLineEnd_chars]
  refine ⟨hsplit, ?_⟩
  intro e he
  simp [readTestFile, hsplit, Except.bind, he]

def dashedTest : WrittenTest where
  marks := 2
  afterOpening := .returnFeed
  toml := "# ---\ndescription = '--'"
  beforeClosing := .feed
  afterClosing := .returnFeed
  source := "---\n\n---\r\n\uFEFF"

theorem written_test_read_back_dashed :
    (¬ "\n---".toList <:+: dashedTest.toml.toList ∧
      dashedTest.toml.toList.getLast? ≠ some '\r' ∧
      Expectation.read? dashedTest.toml = some { description := some "--" }) ∧
    dashedTest.content =
      "\uFEFF\uFEFF---\r\n# ---\ndescription = '--'\n---\r\n---\n\n---\r\n\uFEFF" ∧
    splitFrontMatter dashedTest.content =
      .ok (dashedTest.toml.toList, dashedTest.source.toList) ∧
    readTestFile dashedTest.content = .ok ({ description := some "--" }, dashedTest.source) := by
  have hfree : ¬ "\n---".toList <:+: dashedTest.toml.toList := by
    rw [← Text.hasPart_iff_infix]
    decide
  have hending : dashedTest.toml.toList.getLast? ≠ some '\r' := by decide
  have hread : Expectation.read? dashedTest.toml = some { description := some "--" } := by
    decide +kernel
  obtain ⟨hsplit, hexpectation⟩ := written_test_read_back dashedTest hfree hending
  exact ⟨⟨hfree, hending, hread⟩, by decide +kernel, hsplit, hexpectation _ hread⟩

/-- How the lines of a file are to be read: up to the first delimiter behind one that they begin
with. The line end before it is no part of the front matter. -/
inductive Layout : List (List Char) → Except FrontMatterFault (List Char × List Char) → Prop where
  | unopened {lines : List (List Char)}
      (h : ∀ line, lines.head? = some line → withoutEnd line ≠ dashes) :
      Layout lines (.error .noOpening)
  | unclosed {opening : List Char} {rest : List (List Char)} (opens : withoutEnd opening = dashes)
      (inner : ∀ line ∈ rest, withoutEnd line ≠ dashes) :
      Layout (opening :: rest) (.error .noClosing)
  | closed {opening closing : List Char} {between after : List (List Char)}
      (opens : withoutEnd opening = dashes) (inner : ∀ line ∈ between, withoutEnd line ≠ dashes)
      (closes : withoutEnd closing = dashes) :
      Layout (opening :: (between ++ closing :: after))
        (.ok (withoutEnd between.flatten, after.flatten))

/-- The lines of a file that is not read as it is laid out. -/
inductive Misread : List (List Char) → Prop where
  /-- The first line goes on behind the dashes that it begins with. -/
  | opening {opening : List Char} {rest : List (List Char)} (begins : dashes <+: opening)
      (more : withoutEnd opening ≠ dashes) : Misread (opening :: rest)
  /-- There is no line between the delimiters. -/
  | adjacent {opening closing : List Char} {rest : List (List Char)}
      (opens : withoutEnd opening = dashes) (closes : withoutEnd closing = dashes) :
      Misread (opening :: closing :: rest)
  /-- Behind the second line, the first one that begins with dashes goes on behind them. -/
  | closing {opening first closing : List Char} {between after : List (List Char)}
      (opens : withoutEnd opening = dashes) (inner : ∀ line ∈ between, ¬ dashes <+: line)
      (begins : dashes <+: closing) (more : withoutEnd closing ≠ dashes) :
      Misread (opening :: first :: (between ++ closing :: after))
  /-- The last line of the front matter has a carriage return before its end. -/
  | returns {opening closing : List Char} {between after : List (List Char)}
      (opens : withoutEnd opening = dashes) (inner : ∀ line ∈ between, withoutEnd line ≠ dashes)
      (closes : withoutEnd closing = dashes)
      (stray : (withoutEnd between.flatten).getLast? = some '\r') :
      Misread (opening :: (between ++ closing :: after))

theorem eq_of_withoutEnd {line : List Char} (h : withoutEnd line = dashes) :
    line = dashes ∨ ∃ e : LineBreak, line = dashes ++ e.chars := by
  have hcases := Text.withoutEnd_cases line
  rwa [h] at hcases

theorem prefix_of_withoutEnd {line : List Char} (h : withoutEnd line = dashes) :
    dashes <+: line := by
  rcases eq_of_withoutEnd h with rfl | ⟨e, rfl⟩
  · exact List.prefix_rfl
  · exact List.prefix_append dashes e.chars

theorem afterLineEnd_lines {line : List Char} {rest : List (List Char)}
    (ruled : Ruled (line :: rest)) (h : withoutEnd line = dashes) :
    afterLineEnd (line.drop 3 ++ rest.flatten) = rest.flatten := by
  rcases eq_of_withoutEnd h with rfl | ⟨e, rfl⟩
  · rw [ruled.rest_eq_nil newline_notMem_dashes]
    rfl
  · rw [drop_dashes, afterLineEnd_chars]

theorem splitFrontMatter_of_opening {content : String} {opening : List Char}
    {rest : List (List Char)} (lines : splitLines (unmarked content) = opening :: rest)
    (opens : withoutEnd opening = dashes) :
    splitFrontMatter content = cutClosing rest.flatten := by
  obtain ⟨hruled, hflat⟩ := splitLines_eq_iff.1 lines
  obtain ⟨tail, htail⟩ := prefix_of_withoutEnd opens
  have hafter := afterLineEnd_lines hruled opens
  rw [← htail, drop_dashes] at hafter
  rw [List.flatten_cons, ← htail, List.append_assoc] at hflat
  rw [splitFrontMatter_eq hflat.symm, hafter]

theorem cutClosing_of_forall {rest : List (List Char)} (ruled : Ruled rest)
    (h : ∀ line ∈ rest.tail, ¬ dashes <+: line) :
    cutClosing rest.flatten = .error .noClosing := by
  apply cutClosing_of_not_infix_all
  rw [ruled.newline_infix_flatten_iff dashes_ne_nil newline_notMem_dashes]
  rintro ⟨line, hline, hbegins⟩
  exact h line hline hbegins

theorem dropEndWhile_withoutEnd (cs : List Char) :
    dropEndWhile (· = '\r') (withoutEnd (cs ++ ['\n'])) = dropEndWhile (· = '\r') cs := by
  by_cases h : cs.getLast? = some '\r'
  · obtain ⟨init, rfl⟩ := List.getLast?_eq_some_iff.1 h
    rw [List.append_assoc, List.singleton_append, Text.withoutEnd_append_returnFeed,
      Text.dropEndWhile_append init (by decide)]
  · rw [Text.withoutEnd_append_feed h]

theorem cutClosing_lines {first closing : List Char} {between after : List (List Char)}
    (ruled : Ruled (first :: between ++ closing :: after))
    (inner : ∀ line ∈ between, ¬ dashes <+: line) (begins : dashes <+: closing) :
    cutClosing (first :: between ++ closing :: after).flatten =
      .ok (dropEndWhile (· = '\r') (withoutEnd (first :: between).flatten),
        afterLineEnd (closing.drop 3 ++ after.flatten)) := by
  obtain ⟨cs, hcs⟩ := ruled.exists_flatten_eq
  obtain ⟨tail, rfl⟩ := begins
  have hfree : ¬ '\n' :: dashes <:+: cs := by
    intro hin
    have hlines : '\n' :: dashes <:+: (first :: between).flatten := by
      rw [hcs]
      exact hin.trans (List.prefix_append cs ['\n']).isInfix
    rw [ruled.of_append.1.newline_infix_flatten_iff dashes_ne_nil newline_notMem_dashes] at hlines
    obtain ⟨line, hline, hbegins⟩ := hlines
    exact inner line hline hbegins
  have hcut := cutClosing_of_not_infix hfree (tail ++ after.flatten)
  rw [List.flatten_append, hcs, dropEndWhile_withoutEnd, drop_dashes, List.flatten_cons]
  simpa using hcut

theorem forall_or_exists_first (lines : List (List Char)) :
    (∀ line ∈ lines, ¬ dashes <+: line) ∨ ∃ between closing after,
      lines = between ++ closing :: after ∧ (∀ line ∈ between, ¬ dashes <+: line) ∧
        dashes <+: closing := by
  cases h : lines.find? (dashes.isPrefixOf ·) with
  | none => exact .inl (by simpa using h)
  | some closing =>
    obtain ⟨hbegins, between, after, rfl, hinner⟩ := List.find?_eq_some_iff_append.1 h
    refine .inr ⟨between, closing, after, rfl, ?_, List.isPrefixOf_iff_prefix.1 hbegins⟩
    intro line hline hprefix
    have hnot := hinner line hline
    rw [List.isPrefixOf_iff_prefix.2 hprefix] at hnot
    cases hnot

/-- A file that is not misread is read as it is laid out. -/
theorem layout_of_not_misread {content : String} {lines : List (List Char)}
    (hlines : splitLines (unmarked content) = lines) (h : ¬ Misread lines) :
    Layout lines (splitFrontMatter content) := by
  obtain ⟨hruled, hflat⟩ := splitLines_eq_iff.1 hlines
  by_cases hbegins : dashes <+: unmarked content
  · rw [← hflat, hruled.prefix_flatten_iff dashes_ne_nil newline_notMem_dashes] at hbegins
    obtain ⟨opening, hhead, hbegins⟩ := hbegins
    obtain ⟨rest, rfl⟩ := List.head?_eq_some_iff.1 hhead
    have hopens : withoutEnd opening = dashes :=
      Decidable.byContradiction fun hmore => h (.opening hbegins hmore)
    rw [splitFrontMatter_of_opening hlines hopens]
    cases rest with
    | nil => exact .unclosed hopens (by simp)
    | cons first later =>
      have hfirst : withoutEnd first ≠ dashes := fun hcloses => h (.adjacent hopens hcloses)
      rcases forall_or_exists_first later with hnone | ⟨between, closing, after, rfl, hinner, hclose⟩
      · rw [cutClosing_of_forall hruled.tail (by simpa using hnone)]
        refine .unclosed hopens ?_
        intro line hline hdelimiter
        rcases List.mem_cons.1 hline with rfl | hline
        · exact hfirst hdelimiter
        · exact hnone line hline (prefix_of_withoutEnd hdelimiter)
      · have hcloses : withoutEnd closing = dashes :=
          Decidable.byContradiction fun hmore => h (.closing hopens hinner hclose hmore)
        have hbetween : ∀ line ∈ first :: between, withoutEnd line ≠ dashes := by
          intro line hline hdelimiter
          rcases List.mem_cons.1 hline with rfl | hline
          · exact hfirst hdelimiter
          · exact hinner line hline (prefix_of_withoutEnd hdelimiter)
        have hclean : dropEndWhile (· = '\r') (withoutEnd (first :: between).flatten) =
            withoutEnd (first :: between).flatten :=
          Text.dropEndWhile_eq_of_ne fun hstray => h (.returns hopens hbetween hcloses hstray)
        have hruled : Ruled (first :: between ++ closing :: after) := hruled.tail
        have hcut := cutClosing_lines hruled hinner hclose
        rw [hclean, afterLineEnd_lines hruled.of_append.2 hcloses] at hcut
        rw [← List.cons_append, hcut]
        exact .closed hopens hbetween hcloses
  · rw [splitFrontMatter_of_unopened hbegins]
    refine .unopened ?_
    intro line hhead hdelimiter
    apply hbegins
    rw [← hflat, hruled.prefix_flatten_iff dashes_ne_nil newline_notMem_dashes]
    exact ⟨line, hhead, prefix_of_withoutEnd hdelimiter⟩

/-- A list is cut in one way only at the first element of it that has a property. -/
theorem append_cons_inj {α : Type} {p : α → Prop} {a b c d : List α} {x y : α}
    (ha : ∀ z ∈ a, ¬ p z) (hx : p x) (hb : ∀ z ∈ b, ¬ p z) (hy : p y)
    (h : a ++ x :: c = b ++ y :: d) : a = b ∧ x = y ∧ c = d := by
  induction a generalizing b with
  | nil =>
    cases b with
    | nil => simpa using h
    | cons z b =>
      obtain ⟨rfl, _⟩ := List.cons_eq_cons.1 h
      exact absurd hx (hb x List.mem_cons_self)
  | cons z a ih =>
    cases b with
    | nil =>
      obtain ⟨rfl, _⟩ := List.cons_eq_cons.1 h
      exact absurd hy (ha z List.mem_cons_self)
    | cons w b =>
      obtain ⟨rfl, htail⟩ := List.cons_eq_cons.1 h
      obtain ⟨rfl, hrest⟩ := ih (fun z hz => ha z (List.mem_cons_of_mem _ hz))
        (fun z hz => hb z (List.mem_cons_of_mem _ hz)) htail
      exact ⟨rfl, hrest⟩

namespace Layout
variable {opening closing : List Char} {rest between after : List (List Char)}
  {found : Except FrontMatterFault (List Char × List Char)}

theorem eq_of_unopened (h : Layout (opening :: rest) found) (more : withoutEnd opening ≠ dashes) :
    found = .error .noOpening := by
  cases h with
  | unopened => rfl
  | unclosed opens _ => exact absurd opens more
  | closed opens _ _ => exact absurd opens more

theorem eq_of_unclosed (h : Layout (opening :: rest) found) (opens : withoutEnd opening = dashes)
    (inner : ∀ line ∈ rest, withoutEnd line ≠ dashes) : found = .error .noClosing := by
  cases h with
  | unopened hnot => exact absurd opens (hnot opening rfl)
  | unclosed _ _ => rfl
  | closed _ _ closes => exact absurd closes (inner _ (by simp))

theorem eq_of_closed (h : Layout (opening :: (between ++ closing :: after)) found)
    (opens : withoutEnd opening = dashes) (inner : ∀ line ∈ between, withoutEnd line ≠ dashes)
    (closes : withoutEnd closing = dashes) :
    found = .ok (withoutEnd between.flatten, after.flatten) := by
  generalize hlines : opening :: (between ++ closing :: after) = lines at h
  cases h with
  | unopened hnot =>
    rw [← hlines] at hnot
    exact absurd opens (hnot opening rfl)
  | unclosed _ hnot =>
    obtain ⟨_, rfl⟩ := List.cons_eq_cons.1 hlines
    exact absurd closes (hnot closing (by simp))
  | closed _ inner' closes' =>
    obtain ⟨_, hrest⟩ := List.cons_eq_cons.1 hlines
    obtain ⟨rfl, _, rfl⟩ := append_cons_inj inner closes inner' closes' hrest
    rfl

theorem unique {lines : List (List Char)}
    {found' : Except FrontMatterFault (List Char × List Char)} (h : Layout lines found)
    (h' : Layout lines found') : found = found' := by
  cases h with
  | @unopened lines hnot =>
    cases lines with
    | nil => cases h'; rfl
    | cons opening rest => exact (h'.eq_of_unopened (hnot opening rfl)).symm
  | unclosed opens inner => exact (h'.eq_of_unclosed opens inner).symm
  | closed opens inner closes => exact (h'.eq_of_closed opens inner closes).symm

theorem source_eq {lines : List (List Char)} {toml source : List Char}
    (h : Layout lines (.ok (toml, source))) : ∃ opening between closing after,
      lines = opening :: (between ++ closing :: after) ∧ withoutEnd closing = dashes ∧
        source = after.flatten := by
  cases h with
  | closed _ _ closes => exact ⟨_, _, _, _, rfl, closes, rfl⟩

end Layout

theorem length_afterLineEnd (cs : List Char) :
    (afterLineEnd cs).length ≤ cs.length ∧ cs.length ≤ (afterLineEnd cs).length + 2 := by
  unfold afterLineEnd Toml.newline?
  split <;> simp only [Option.getD_some, Option.getD_none, List.length_cons] <;> omega

theorem length_of_prefix {line : List Char} (h : dashes <+: line) : 3 ≤ line.length := h.length_le

theorem flatten_ne_afterLineEnd {between before after rest : List (List Char)}
    {closing delimiter : List Char} (begins : dashes <+: closing)
    (more : withoutEnd closing ≠ dashes) (closes : withoutEnd delimiter = dashes)
    (same : between ++ closing :: after = before ++ delimiter :: rest) :
    rest.flatten ≠ afterLineEnd (closing.drop 3 ++ after.flatten) := by
  intro hsource
  have hlength := length_afterLineEnd (closing.drop 3 ++ after.flatten)
  rw [← hsource, List.length_append, List.length_drop] at hlength
  have hclosing := length_of_prefix begins
  rcases List.append_eq_append_iff.1 same with ⟨t, _, ht⟩ | ⟨t, _, ht⟩
  · cases t with
    | nil =>
      obtain ⟨rfl, _⟩ := List.cons_eq_cons.1 ht
      exact more closes
    | cons line t =>
      -- The delimiter comes later.
      rw [List.cons_append] at ht
      obtain ⟨_, rfl⟩ := List.cons_eq_cons.1 ht
      have hdelimiter := length_of_prefix (prefix_of_withoutEnd closes)
      simp only [List.flatten_append, List.flatten_cons, List.length_append] at hlength
      omega
  · cases t with
    | nil =>
      obtain ⟨rfl, _⟩ := List.cons_eq_cons.1 ht
      exact more closes
    | cons line t =>
      -- The delimiter comes earlier.
      rw [List.cons_append] at ht
      obtain ⟨_, rfl⟩ := List.cons_eq_cons.1 ht
      simp only [List.flatten_append, List.flatten_cons, List.length_append] at hlength
      omega

theorem not_layout_of_misread {content : String} {lines : List (List Char)}
    (hlines : splitLines (unmarked content) = lines) (h : Misread lines) :
    ¬ Layout lines (splitFrontMatter content) := by
  intro hlayout
  obtain ⟨hruled, hflat⟩ := splitLines_eq_iff.1 hlines
  cases h with
  | @opening opening rest begins more =>
    obtain ⟨tail, rfl⟩ := begins
    rw [List.flatten_cons, List.append_assoc] at hflat
    have hnone := hlayout.eq_of_unopened more
    rw [splitFrontMatter_eq hflat.symm] at hnone
    exact cutClosing_ne_noOpening _ hnone
  | @adjacent opening closing rest opens closes =>
    have hfound := @Layout.eq_of_closed _ _ [] _ _ hlayout opens (by simp) closes
    rw [splitFrontMatter_of_opening hlines opens] at hfound
    have hruled : Ruled (closing :: rest) := hruled.tail
    rcases forall_or_exists_first rest with hnone | ⟨between, line, after, rfl, hinner, hbegins⟩
    · rw [cutClosing_of_forall hruled (by simpa using hnone)] at hfound
      cases hfound
    · rw [← List.cons_append, cutClosing_lines hruled hinner hbegins] at hfound
      have hdash : '-' ∈ withoutEnd (closing :: between).flatten := by
        apply Text.mem_withoutEnd _ (by decide) (by decide)
        rw [List.flatten_cons]
        exact List.mem_append_left _ ((prefix_of_withoutEnd closes).subset (by decide))
      have hmem := Text.mem_dropEndWhile (p := (· = '\r')) hdash (by decide)
      simp only [Except.ok.injEq, Prod.mk.injEq] at hfound
      rw [hfound.1] at hmem
      cases hmem
  | @closing opening first closing between after opens inner begins more =>
    have hruled : Ruled (first :: between ++ closing :: after) := hruled.tail
    rw [splitFrontMatter_of_opening hlines opens, ← List.cons_append,
      cutClosing_lines hruled inner begins] at hlayout
    obtain ⟨_, before, delimiter, rest, hsame, hcloses, hsource⟩ := hlayout.source_eq
    obtain ⟨_, hsame⟩ := List.cons_eq_cons.1 hsame
    exact flatten_ne_afterLineEnd begins more hcloses hsame hsource.symm
  | @returns opening closing between after opens inner closes stray =>
    have hfound := hlayout.eq_of_closed opens inner closes
    rw [splitFrontMatter_of_opening hlines opens, cutClosing] at hfound
    split at hfound
    · simp only [Except.ok.injEq, Prod.mk.injEq] at hfound
      rw [← hfound.1] at stray
      have hnot := Text.getLast?_dropEndWhile stray
      simp at hnot
    · cases hfound

theorem readTestFile_eq_error_iff {content : String} {fault : FrontMatterFault}
    (h : fault ≠ .badToml) :
    readTestFile content = .error fault ↔ splitFrontMatter content = .error fault := by
  unfold readTestFile
  cases splitFrontMatter content with
  | error other => simp [Except.bind]
  | ok parts =>
    cases hread : Expectation.read? (String.ofList parts.1) <;> simp [Except.bind, hread, h.symm]

theorem readTestFile_eq_ok_iff {content source : String} {e : Expectation} :
    readTestFile content = .ok (e, source) ↔ ∃ toml,
      splitFrontMatter content = .ok (toml, source.toList) ∧
        Expectation.read? (String.ofList toml) = some e := by
  unfold readTestFile
  cases splitFrontMatter content with
  | error fault => simp [Except.bind]
  | ok parts =>
    obtain ⟨toml, rest⟩ := parts
    cases hread : Expectation.read? (String.ofList toml) with
    | none => simp [Except.bind, hread]
    | some expectation =>
      have hsource : String.ofList rest = source ↔ rest = source.toList := by
        rw [← String.toList_inj, String.toList_ofList]
      simp only [Except.bind, hread, Except.ok.injEq, Prod.mk.injEq, hsource]
      constructor
      · rintro ⟨rfl, rfl⟩
        exact ⟨toml, ⟨rfl, rfl⟩, hread⟩
      · rintro ⟨_, ⟨rfl, rfl⟩, he⟩
        rw [hread, Option.some.injEq] at he
        exact ⟨he, rfl⟩

def Delimited (lines : List (List Char)) : Prop :=
  ∃ opening rest, lines = opening :: rest ∧ withoutEnd opening = dashes ∧
    ∃ line ∈ rest, withoutEnd line = dashes

theorem Layout.delimited_iff {lines : List (List Char)}
    {found : Except FrontMatterFault (List Char × List Char)} (h : Layout lines found) :
    (∃ parts, found = .ok parts) ↔ Delimited lines := by
  cases h with
  | unopened hnot =>
    refine ⟨nofun, ?_⟩
    rintro ⟨opening, rest, rfl, opens, _⟩
    exact absurd opens (hnot opening rfl)
  | unclosed _ inner =>
    refine ⟨nofun, ?_⟩
    rintro ⟨_, _, hlines, _, line, hline, closes⟩
    obtain ⟨_, rfl⟩ := List.cons_eq_cons.1 hlines
    exact absurd closes (inner line hline)
  | closed opens _ closes => exact ⟨fun _ => ⟨_, _, rfl, opens, _, by simp, closes⟩, fun _ => ⟨_, rfl⟩⟩

/-- A test file is read by its whole lines: there is a delimiter where a line is one and nothing
else. -/
structure ReadByLines (content : String) : Prop where
  found : ∀ found, splitFrontMatter content = found ↔ Layout (linesOf content) found
  delimited : (∃ parts, splitFrontMatter content = .ok parts) ↔ Delimited (linesOf content)
  read : ∀ e source, readTestFile content = .ok (e, source) ↔ ∃ toml,
    Layout (linesOf content) (.ok (toml, source.toList)) ∧
      Expectation.read? (String.ofList toml) = some e
  unopened : readTestFile content = .error .noOpening ↔
    Layout (linesOf content) (.error .noOpening)
  unclosed : readTestFile content = .error .noClosing ↔
    Layout (linesOf content) (.error .noClosing)

theorem Layout.readByLines {content : String}
    (h : Layout (linesOf content) (splitFrontMatter content)) : ReadByLines content := by
  have hfound : ∀ found, splitFrontMatter content = found ↔ Layout (linesOf content) found := by
    intro found
    constructor
    · rintro rfl
      exact h
    · exact h.unique
  exact {
    found := hfound
    delimited := h.delimited_iff
    read := fun e source => by simp only [readTestFile_eq_ok_iff, hfound]
    unopened := by rw [readTestFile_eq_error_iff (by decide), hfound]
    unclosed := by rw [readTestFile_eq_error_iff (by decide), hfound] }

/-- The test files that are not read by their whole lines are those that are misread, and no
others. -/
theorem read_by_whole_lines (content : String) :
    ReadByLines content ↔ ¬ Misread (linesOf content) := by
  constructor
  · exact fun h hmisread => not_layout_of_misread rfl hmisread ((h.found _).1 rfl)
  · exact fun h => (layout_of_not_misread rfl h).readByLines

/-- Front matter without any line is not found, and a line with more than dashes ends front matter
that has no end. -/
theorem not_readByLines_of_adjacent :
    (readTestFile "---\n---\n<pipeline/>" = .error .noClosing ∧
      Layout (linesOf "---\n---\n<pipeline/>") (.ok ([], "<pipeline/>".toList)) ∧
      ¬ ReadByLines "---\n---\n<pipeline/>") ∧
    (readTestFile "---\n#\n---- x\n" = .ok ({}, "- x\n") ∧
      Layout (linesOf "---\n#\n---- x\n") (.error .noClosing) ∧
      ¬ ReadByLines "---\n#\n---- x\n") := by
  have hadjacent : linesOf "---\n---\n<pipeline/>" =
      ["---\n".toList, "---\n".toList, "<pipeline/>".toList] := by decide
  have hlonger : linesOf "---\n#\n---- x\n" =
      ["---\n".toList, "#\n".toList, "---- x\n".toList] := by decide
  refine ⟨⟨rfl, ?_, ?_⟩, ⟨rfl, ?_, ?_⟩⟩
  · rw [hadjacent]
    exact @Layout.closed _ _ [] _ (by decide) (by simp) (by decide)
  · intro h
    refine not_layout_of_misread hadjacent (.adjacent (by decide) (by decide)) ?_
    rw [← hadjacent]
    exact (h.found _).1 rfl
  · rw [hlonger]
    exact .unclosed (by decide) (by decide)
  · intro h
    refine not_layout_of_misread hlonger
      (@Misread.closing _ _ _ [] _ (by decide) (by simp) (by decide) (by decide)) ?_
    rw [← hlonger]
    exact (h.found _).1 rfl

end XmlPipeline.Suite
