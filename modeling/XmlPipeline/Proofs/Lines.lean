import XmlPipeline.Text.Lines
set_option autoImplicit false

namespace XmlPipeline.Text

/-- Lines that a text can be cut into. Each ends with its only line feed, and the last may do
without one. -/
inductive Ruled : List (List Char) → Prop where
  | nil : Ruled []
  | last {line : List Char} (ne : line ≠ []) (free : '\n' ∉ line) : Ruled [line]
  | cons {line : List Char} {rest : List (List Char)} (free : '\n' ∉ line) (ruled : Ruled rest) :
      Ruled ((line ++ ['\n']) :: rest)

theorem ruled_splitLines (cs : List Char) : Ruled (splitLines cs) := by
  induction cs with
  | nil => exact .nil
  | cons c cs ih =>
    rw [splitLines]
    split
    · exact .cons List.not_mem_nil ih
    · next hc =>
      have hfree {line : List Char} (h : '\n' ∉ line) : '\n' ∉ c :: line := by
        rw [List.mem_cons, not_or]
        exact ⟨Ne.symm hc, h⟩
      split
      · exact .last (by simp) (hfree List.not_mem_nil)
      · next line rest hlines =>
        rw [hlines] at ih
        cases ih with
        | last ne free => exact .last (by simp) (hfree free)
        | cons free ruled => exact .cons (hfree free) ruled

theorem splitLines_line {line : List Char} (h : '\n' ∉ line) (rest : List Char) :
    splitLines (line ++ '\n' :: rest) = (line ++ ['\n']) :: splitLines rest := by
  induction line with
  | nil => simp [splitLines]
  | cons c line ih =>
    rw [List.mem_cons, not_or] at h
    rw [List.cons_append, splitLines, if_neg (Ne.symm h.1), ih h.2]
    rfl

theorem splitLines_of_notMem {line : List Char} (ne : line ≠ []) (h : '\n' ∉ line) :
    splitLines line = [line] := by
  induction line with
  | nil => exact absurd rfl ne
  | cons c line ih =>
    rw [List.mem_cons, not_or] at h
    rw [splitLines, if_neg (Ne.symm h.1)]
    cases line with
    | nil => rfl
    | cons d line => rw [ih (by simp) h.2]

theorem Ruled.splitLines_flatten {lines : List (List Char)} (h : Ruled lines) :
    splitLines lines.flatten = lines := by
  induction h with
  | nil => rfl
  | last ne free => rw [List.flatten_singleton, splitLines_of_notMem ne free]
  | cons free _ ih =>
    rw [List.flatten_cons, List.append_assoc, List.singleton_append, splitLines_line free, ih]

theorem ruled_map_feed {lines : List (List Char)} (h : ∀ line ∈ lines, '\n' ∉ line) :
    Ruled (lines.map fun line => line ++ ['\n']) := by
  induction lines with
  | nil => exact .nil
  | cons line rest ih =>
    obtain ⟨hline, hrest⟩ := List.forall_mem_cons.1 h
    exact .cons hline (ih hrest)

theorem splitLines_unlines {lines : List String} (h : ∀ line ∈ lines, '\n' ∉ line.toList) :
    splitLines (unlines lines).toList = lines.map fun line => line.toList ++ ['\n'] := by
  have hruled : Ruled ((lines.map String.toList).map fun line => line ++ ['\n']) :=
    ruled_map_feed (by simpa using h)
  have htext : (unlines lines).toList =
      ((lines.map String.toList).map fun line => line ++ ['\n']).flatten := by
    simp [unlines, List.flatMap_def, Function.comp_def]
  rw [htext, hruled.splitLines_flatten, List.map_map]
  rfl

/-- A text can be cut into lines in one way only. -/
theorem splitLines_eq_iff {cs : List Char} {lines : List (List Char)} :
    splitLines cs = lines ↔ Ruled lines ∧ lines.flatten = cs := by
  constructor
  · rintro rfl
    exact ⟨ruled_splitLines cs, flatten_splitLines cs⟩
  · rintro ⟨h, rfl⟩
    exact h.splitLines_flatten

theorem Ruled.of_append {a b : List (List Char)} (h : Ruled (a ++ b)) : Ruled a ∧ Ruled b := by
  induction a with
  | nil => exact ⟨.nil, h⟩
  | cons line a ih =>
    cases hlines : a ++ b with
    | nil =>
      obtain ⟨rfl, rfl⟩ := List.append_eq_nil_iff.1 hlines
      exact ⟨h, .nil⟩
    | cons next rest =>
      rw [List.cons_append, hlines] at h
      cases h with
      | cons free ruled =>
        rw [← hlines] at ruled
        exact ⟨.cons free (ih ruled).1, (ih ruled).2⟩

theorem Ruled.tail {line : List Char} {rest : List (List Char)} (h : Ruled (line :: rest)) :
    Ruled rest := (Ruled.of_append (a := [line]) h).2

theorem Ruled.exists_of_cons {line next : List Char} {rest : List (List Char)}
    (h : Ruled (line :: next :: rest)) : ∃ body, '\n' ∉ body ∧ line = body ++ ['\n'] := by
  cases h with
  | cons free _ => exact ⟨_, free, rfl⟩

theorem Ruled.exists_flatten_eq {line next : List Char} {between rest : List (List Char)}
    (h : Ruled (line :: between ++ next :: rest)) :
    ∃ cs, (line :: between).flatten = cs ++ ['\n'] := by
  induction between generalizing line with
  | nil =>
    obtain ⟨body, _, hline⟩ := h.exists_of_cons
    exact ⟨body, by rw [List.flatten_singleton, hline]⟩
  | cons second between ih =>
    obtain ⟨cs, hcs⟩ := ih h.tail
    exact ⟨line ++ cs, by rw [List.flatten_cons, hcs, List.append_assoc]⟩

theorem Ruled.rest_eq_nil {line : List Char} {rest : List (List Char)} (h : Ruled (line :: rest))
    (free : '\n' ∉ line) : rest = [] := by
  cases h with
  | last => rfl
  | cons => exact absurd (List.mem_append_right _ List.mem_cons_self) free

theorem prefix_of_prefix_append {m a b : List Char} {x : Char} (hx : x ∉ m)
    (h : m <+: a ++ x :: b) : m <+: a := by
  rcases List.prefix_or_prefix_of_prefix h (List.prefix_append a (x :: b)) with hm | ⟨s, rfl⟩
  · exact hm
  · cases s with
    | nil => simp
    | cons c s =>
      obtain ⟨rfl, _⟩ := List.cons_prefix_cons.1 ((List.prefix_append_right_inj a).1 h)
      exact absurd (List.mem_append_right a List.mem_cons_self) hx

theorem hasPart_iff_infix (part cs : List Char) : hasPart part cs = true ↔ part <:+: cs := by
  induction cs with
  | nil => rw [hasPart, List.isEmpty_iff, List.infix_nil]
  | cons c cs ih =>
    rw [hasPart, Bool.or_eq_true, List.isPrefixOf_iff_prefix, ih, List.infix_cons_iff]

section
variable {m : List Char}

theorem Ruled.prefix_flatten_iff {lines : List (List Char)} (h : Ruled lines) (ne : m ≠ [])
    (free : '\n' ∉ m) : m <+: lines.flatten ↔ ∃ line, lines.head? = some line ∧ m <+: line := by
  cases h with
  | nil => simp [ne]
  | last _ _ => simp
  | @cons line rest _ _ =>
    simp only [List.flatten_cons, List.head?_cons, Option.some.injEq, exists_eq_left']
    refine ⟨fun hm => ?_, fun hm => hm.trans (List.prefix_append _ _)⟩
    rw [List.append_assoc] at hm
    exact (prefix_of_prefix_append free hm).trans (List.prefix_append _ _)

theorem newline_infix_line_iff {line : List Char} (h : '\n' ∉ line) (rest : List Char) :
    '\n' :: m <:+: line ++ '\n' :: rest ↔ m <+: rest ∨ '\n' :: m <:+: rest := by
  induction line with
  | nil => rw [List.nil_append, List.infix_cons_iff, List.cons_prefix_cons, and_iff_right rfl]
  | cons c line ih =>
    rw [List.mem_cons, not_or] at h
    rw [List.cons_append, List.infix_cons_iff, List.cons_prefix_cons, ih h.2]
    simp [h.1]

/-- A text with a line feed before it stands in some lines exactly if one of them begins with it,
and is not the first. -/
theorem Ruled.newline_infix_flatten_iff {lines : List (List Char)} (h : Ruled lines) (ne : m ≠ [])
    (free : '\n' ∉ m) : '\n' :: m <:+: lines.flatten ↔ ∃ line ∈ lines.tail, m <+: line := by
  induction h with
  | nil => simp
  | @last line _ hline =>
    rw [List.flatten_singleton]
    simp only [List.tail_cons, List.not_mem_nil, false_and, exists_false, iff_false]
    exact fun hm => hline (hm.subset List.mem_cons_self)
  | @cons line rest hline ruled ih =>
    rw [List.flatten_cons, List.append_assoc, List.singleton_append,
      newline_infix_line_iff hline, ih, ruled.prefix_flatten_iff ne free, List.tail_cons]
    cases rest with
    | nil => simp
    | cons next rest => simp

end

inductive LineBreak where
  | feed
  | returnFeed
  deriving DecidableEq, Repr

def LineBreak.chars : LineBreak → List Char
  | .feed => ['\n']
  | .returnFeed => ['\r', '\n']

theorem withoutEnd_cases (line : List Char) :
    line = withoutEnd line ∨ ∃ e : LineBreak, line = withoutEnd line ++ e.chars := by
  unfold withoutEnd
  split
  · next rest h => exact .inr ⟨.returnFeed, by simpa [LineBreak.chars] using congrArg List.reverse h⟩
  · next rest _ h => exact .inr ⟨.feed, by simpa [LineBreak.chars] using congrArg List.reverse h⟩
  · exact .inl rfl

theorem mem_withoutEnd {c : Char} {line : List Char} (h : c ∈ line) (hreturn : c ≠ '\r')
    (hfeed : c ≠ '\n') : c ∈ withoutEnd line := by
  rcases withoutEnd_cases line with hline | ⟨e, hline⟩
  · rwa [← hline]
  · rw [hline, List.mem_append] at h
    cases e <;> simpa [LineBreak.chars, hreturn, hfeed] using h

theorem withoutEnd_append_feed {cs : List Char} (h : cs.getLast? ≠ some '\r') :
    withoutEnd (cs ++ ['\n']) = cs := by
  rcases List.eq_nil_or_concat cs with rfl | ⟨init, c, rfl⟩
  · rfl
  · rw [List.concat_eq_append] at h ⊢
    have hc : c ≠ '\r' := by simpa using h
    simp [withoutEnd, hc]

theorem withoutEnd_append_returnFeed (cs : List Char) : withoutEnd (cs ++ ['\r', '\n']) = cs := by
  simp [withoutEnd]

end XmlPipeline.Text
