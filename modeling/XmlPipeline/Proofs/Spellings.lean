import XmlPipeline.Proofs.Agreement
import XmlPipeline.Proofs.Gaps
import XmlPipeline.Proofs.Numerals
import XmlPipeline.Proofs.Rereading
set_option autoImplicit false

/-!
Spellings: the ways in which a text can be put into an action. Main statement: a payload is what its
pieces stand for, one after another, and does not depend on how they are spelled. A piece is never
read together with its neighbours as something else.
-/

namespace XmlPipeline.Markup

inductive Named where
  | amp
  | lt
  | gt
  | quot
  | apos
  deriving DecidableEq, Repr

def Named.name : Named → List Char
  | .amp => "amp".toList
  | .lt => "lt".toList
  | .gt => "gt".toList
  | .quot => "quot".toList
  | .apos => "apos".toList

def Named.character : Named → Char
  | .amp => '&'
  | .lt => '<'
  | .gt => '>'
  | .quot => '"'
  | .apos => '\''

/-- What may stand between the start tag and the end tag of an action. -/
inductive Piece where
  | run (text : List Char) (noTag : '<' ∉ text) (noReference : '&' ∉ text)
  | named (named : Named)
  | numbered (radix : Radix) (zeros : Nat) (digits : List Char) (c : Char) (notNull : c ≠ '\x00')
      (spells : SpellsNumber radix digits c.toNat)
  | verbatim (content : List Char) (free : ¬ "]]>".toList <:+: content)
  | comment (body : List Char) (free : ¬ "-->".toList <:+: body)
  | instruction (body : List Char) (free : ¬ "?>".toList <:+: body) (head : body.head? ≠ some '>')

namespace Piece

def spelling : Piece → List Char
  | .run text _ _ => text
  | .named n => '&' :: (n.name ++ [';'])
  | .numbered radix zeros digits _ _ _ => '&' :: (numeral radix zeros digits ++ [';'])
  | .verbatim content _ => "<![CDATA[".toList ++ content ++ "]]>".toList
  | .comment body _ => "<!--".toList ++ body ++ "-->".toList
  | .instruction body _ _ => "<?".toList ++ body ++ "?>".toList

/-- Nothing in a piece is trimmed, and no line end is changed. -/
def meaning : Piece → List Char
  | .run text _ _ => text
  | .named n => [n.character]
  | .numbered _ _ _ c _ _ => [c]
  | .verbatim content _ => content
  | .comment .. | .instruction .. => []

def spellings (pieces : List Piece) : List Char := pieces.flatMap spelling

def meanings (pieces : List Piece) : List Char := pieces.flatMap meaning

end Piece

theorem Named.referent_name (n : Named) (offset : Nat) :
    referent offset n.name = .ok n.character := by
  cases n <;> rfl

theorem Named.notMem_name (n : Named) : '<' ∉ n.name ∧ ';' ∉ n.name ∧ '&' ∉ n.name := by
  cases n <;> simp [name]

theorem Denotes.singleton_reference {body : List Char} {c : Char} (semi : ';' ∉ body)
    (amp : '&' ∉ body) (named : ∀ offset, referent offset body = .ok c) :
    Denotes ('&' :: (body ++ [';'])) [c] :=
  .reference semi amp named .nil

/-- A piece is text of a run, or else markup that ends the run before it. -/
inductive Piece.Kind (p : Piece) : Prop where
  | text (noTag : '<' ∉ p.spelling) (denotes : Denotes p.spelling p.meaning)
  | markup (item : Item) (event : Event) (spelling_eq : p.spelling = item.spelling)
      (head : p.spelling.head? = some '<')
      (cut : ∀ tail, Item.Cut (item.spelling ++ tail) item tail)
      (means : ∀ names, item.event names = .ok (event, names))
      (resolves : ∀ span, Event.Resolves ⟨event, span⟩)
      (marks : ∃ texts : List String, (∀ span, Event.marks ⟨event, span⟩ = texts.map .text) ∧
        (String.join texts).toList = p.meaning)

theorem Piece.kind (p : Piece) : p.Kind := by
  cases p with
  | run text noTag noReference => exact .text noTag (denotes_self noReference)
  | named n =>
    obtain ⟨hlt, hsemi, hamp⟩ := n.notMem_name
    have hdenotes : Denotes ('&' :: (n.name ++ [';'])) [n.character] :=
      .singleton_reference hsemi hamp n.referent_name
    refine .text ?_ hdenotes
    show '<' ∉ '&' :: (n.name ++ [';'])
    simp [hlt]
  | numbered radix zeros digits c notNull spells =>
    have hlt := spells.notMem_numeral zeros (c := '<') (by decide)
    have hsemi := spells.notMem_numeral zeros (c := ';') (by decide)
    have hamp := spells.notMem_numeral zeros (c := '&') (by decide)
    have hdenotes : Denotes ('&' :: (numeral radix zeros digits ++ [';'])) [c] :=
      .singleton_reference hsemi hamp (referent_numeral notNull spells zeros)
    refine .text ?_ hdenotes
    show '<' ∉ '&' :: (numeral radix zeros digits ++ [';'])
    simp [hlt]
  | verbatim content free =>
    refine .markup (.verbatim content) (.verbatim (String.ofList content)) rfl rfl ?_
      (fun _ => rfl) (by simp [Event.Resolves]) ⟨[String.ofList content], fun _ => rfl, ?_⟩
    · intro tail
      simpa [Item.spelling] using Item.Cut.verbatim free
    · simp [meaning]
  | comment body free =>
    refine .markup (.comment body) .aside rfl rfl ?_ (fun _ => rfl) (by simp [Event.Resolves])
      ⟨[], fun _ => rfl, rfl⟩
    intro tail
    simpa [Item.spelling] using Item.Cut.comment free
  | instruction body free head =>
    refine .markup (.instruction body) .aside rfl rfl ?_ (fun _ => rfl) (by simp [Event.Resolves])
      ⟨[], fun _ => rfl, rfl⟩
    intro tail
    simpa [Item.spelling] using Item.Cut.instruction free head

section
variable {names names' : List String} {offset : Nat} {ms : List Mark}

theorem Reads.of_cut (offset : Nat) {item : Item} {event : Event}
    (cut : ∀ tail, Item.Cut (item.spelling ++ tail) item tail)
    (means : item.event names = .ok (event, names'))
    (resolves : ∀ span, Event.Resolves ⟨event, span⟩) :
    Reads names offset item.spelling
      (Event.marks ⟨event, offset, offset + Text.size item.spelling⟩) names' := by
  refine ⟨[⟨event, offset, offset + Text.size item.spelling⟩], ?_, ?_, ?_⟩
  · intro tail
    exact Reading.from_cut (cut tail) means offset
  · intro e he
    rw [List.mem_singleton] at he
    subst he
    exact resolves _
  · simp

/-- Before markup a run is read for what it denotes, and not at all if it is empty. -/
theorem Reads.after_run {run content rest : List Char} (plain : '<' ∉ run)
    (denotes : Denotes run content) (head : rest.head? = some '<')
    (h : Reads names (offset + Text.size run) rest ms names') :
    ∃ texts : List String, Reads names offset (run ++ rest) (texts.map .text ++ ms) names' ∧
      (String.join texts).toList = content := by
  obtain ⟨events, hread, hres, hms⟩ := h
  have hstop (tail : List Char) : ∀ c, (rest ++ tail).head? = some c → c = '<' := by
    intro c hc
    rw [List.head?_append, head] at hc
    exact (Option.some.inj hc).symm
  have hrun (tail : List Char) : Reading.from names offset (run ++ rest ++ tail) =
      (Reading.from names' (offset + Text.size (run ++ rest)) tail).after
        (runEvents offset run ++ events) := by
    rw [List.append_assoc, Reading.from_run plain (hstop tail), hread, Reading.after_after,
      Text.size_append, Nat.add_assoc]
  by_cases hempty : run = []
  · subst hempty
    cases denotes
    exact ⟨[], ⟨events, hrun, hres, hms⟩, rfl⟩
  · have hresolve : resolve (String.ofList run) = .ok (String.ofList content) := by
      rw [resolve_eq_ok_iff, String.toList_ofList, String.toList_ofList]
      exact denotes
    refine ⟨[String.ofList content], ⟨runEvents offset run ++ events, hrun, ?_, ?_⟩, by simp⟩
    · intro e he
      rcases List.mem_append.1 he with he | he
      · rw [runEvents, if_neg hempty, List.mem_singleton] at he
        subst he
        rintro run' hr
        cases hr
        exact ⟨_, hresolve⟩
      · exact hres e he
    · rw [List.flatMap_append, hms, runEvents, if_neg hempty]
      simp [Event.marks, hresolve]

/-- The run before the pieces is carried along, since text that follows it becomes a part of it. -/
theorem exists_reads_pieces {name : String} (h : Plain name) (names : List String)
    (pieces : List Piece) (offset : Nat) {run content : List Char} (plain : '<' ∉ run) (denotes : Denotes run content) :
    ∃ texts : List String,
      Reads (name :: names) offset (run ++ (Piece.spellings pieces ++ closing name))
        (texts.map .text ++ [.leave]) names ∧
      (String.join texts).toList = content ++ Piece.meanings pieces := by
  induction pieces generalizing offset run content with
  | nil =>
    obtain ⟨texts, hreads, htexts⟩ :=
      (reads_closing h names (offset + Text.size run)).after_run plain denotes rfl
    exact ⟨texts, hreads, by simpa [Piece.meanings] using htexts⟩
  | cons p pieces ih =>
    have hspell : Piece.spellings (p :: pieces) ++ closing name =
        p.spelling ++ (Piece.spellings pieces ++ closing name) := by
      simp [Piece.spellings]
    have hmean : Piece.meanings (p :: pieces) = p.meaning ++ Piece.meanings pieces := rfl
    rw [hspell, hmean]
    cases p.kind with
    | text noTag denotes' =>
      have hplain : '<' ∉ run ++ p.spelling := by simp [plain, noTag]
      obtain ⟨texts, hreads, htexts⟩ := ih offset hplain (denotes.append denotes')
      rw [List.append_assoc] at hreads htexts
      exact ⟨texts, hreads, htexts⟩
    | markup item event spelling_eq head cut means resolves marks =>
      obtain ⟨own, hmarks, hown⟩ := marks
      have hitem := Reads.of_cut (offset + Text.size run) cut (means (name :: names)) resolves
      rw [hmarks, ← spelling_eq] at hitem
      obtain ⟨later, hlater, hlaterTexts⟩ :=
        ih (offset + Text.size run + Text.size p.spelling) List.not_mem_nil .nil
      have hhead : (p.spelling ++ ([] ++ (Piece.spellings pieces ++ closing name))).head? =
          some '<' := by
        rw [List.head?_append, head]
        rfl
      obtain ⟨texts, hreads, htexts⟩ :=
        (hitem.append hlater).after_run plain denotes hhead
      refine ⟨texts ++ (own ++ later), by simpa using hreads, ?_⟩
      rw [String.join_append, String.join_append, String.toList_append, String.toList_append,
        htexts, hown, hlaterTexts]
      rfl

end

end XmlPipeline.Markup

namespace XmlPipeline
open Markup (Span Node Piece Reads opening closing)

namespace Instruction

def spelled (action : Action) (pieces : List Piece) : List Char :=
  opening action.name ++ Piece.spellings pieces ++ closing action.name

/-- A pipeline in which an action that holds these pieces stands between others. -/
def spelledAmong (before : List Instruction) (action : Action) (pieces : List Piece)
    (after : List Instruction) : List Char :=
  opening Scope.pipeline.name ++
    (writtenAll before ++ (spelled action pieces ++ writtenAll after)) ++
    closing Scope.pipeline.name

theorem marksAll_texts (texts : List String) :
    Node.marksAll (texts.map .text) = texts.map .text := by
  induction texts with
  | nil => rfl
  | cons text texts ih => rw [List.map_cons, Node.marksAll, Node.marks, ih]; rfl

theorem exists_reads_spelled (action : Action) (pieces : List Piece) (names : List String)
    (offset : Nat) : ∃ texts : List String,
      Reads names offset (spelled action pieces)
        (Node.element action.name ⟨offset, offset + Text.size (opening action.name)⟩
          (texts.map .text)).marks names ∧
      String.join texts = String.ofList (Piece.meanings pieces) := by
  have hp : Markup.Plain action.name := Tag.plain_name (.action action)
  obtain ⟨texts, hreads, htexts⟩ := Markup.exists_reads_pieces hp names pieces
    (offset + Text.size (opening action.name)) List.not_mem_nil .nil
  refine ⟨texts, ?_, ?_⟩
  · rw [spelled, Node.marks, marksAll_texts]
    exact Reads.element hp hreads
  · rw [← String.toList_inj, htexts, String.toList_ofList]
    rfl

theorem ofNode_texts (action : Action) (span : Span) (texts : List String) :
    ofNode (.element action.name span (texts.map .text)) =
      .ok [.act action span (String.join texts)] := by
  have ht : Tag.ofName? action.name = some (.action action) := Tag.ofName?_eq_some_iff.2 rfl
  have hnone : Markup.elements (texts.map Node.text) = [] :=
    (ofNodes_eq_ok_nil_iff _).1 (ofNodes_texts texts)
  rw [ofNode]
  simp [assemble, ht, hnone, Markup.ownText_texts, Except.map]

theorem exists_reads_among (before : List Instruction) (action : Action) (pieces : List Piece)
    (after : List Instruction) (names : List String) (offset : Nat) :
    ∃ (first last : Nat) (span : Span) (texts : List String),
      Reads names offset (writtenAll before ++ (spelled action pieces ++ writtenAll after))
        (Node.marksAll (nodes (placedAll first before) ++
          .element action.name span (texts.map .text) :: nodes (placedAll last after))) names ∧
      String.join texts = String.ofList (Piece.meanings pieces) := by
  have hbefore := reads_writtenAll before names offset
  obtain ⟨texts, hleaf, htexts⟩ :=
    exists_reads_spelled action pieces names (offset + Text.size (writtenAll before))
  have hafter := reads_writtenAll after names
    (offset + Text.size (writtenAll before) + Text.size (spelled action pieces))
  have hall := hbefore.append (hleaf.append hafter)
  rw [← Node.marksAll, ← Node.marksAll_append] at hall
  exact ⟨_, _, _, texts, hall, htexts⟩

theorem ofElement_among (before after : List Instruction) (action : Action) (span span' : Span)
    (texts : List String) :
    ofElement ⟨Scope.pipeline.name, span',
        nodes before ++ .element action.name span (texts.map .text) :: nodes after⟩ =
      .ok (.block .pipeline span' (before ++ .act action span (String.join texts) :: after)) := by
  have ht : Tag.ofName? Scope.pipeline.name = some (.scope .pipeline) :=
    Tag.ofName?_eq_some_iff.2 rfl
  have hbody : ofNodes (nodes before ++ .element action.name span (texts.map .text) ::
      nodes after) = .ok (before ++ .act action span (String.join texts) :: after) := by
    rw [ofNodes_append, ofNodes_nodes, ofNodes, ofNode_texts, ofNodes_nodes]
    rfl
  rw [ofElement, hbody]
  simp [assemble, ht, Except.map]

theorem exists_parse_spelledAmong (before : List Instruction) (action : Action)
    (pieces : List Piece) (after : List Instruction) (source : Nat) :
    ∃ (first last : Nat) (span span' : Span),
      Program.parse (String.ofList (spelledAmong before action pieces after)) source =
        .ok ⟨.block .pipeline span' (placedAll first before ++
          .act action span (String.ofList (Piece.meanings pieces)) :: placedAll last after),
          source⟩ := by
  have hp : Markup.Plain Scope.pipeline.name := Tag.plain_name (.scope .pipeline)
  obtain ⟨first, last, span, texts, hreads, htexts⟩ :=
    exists_reads_among before action pieces after [Scope.pipeline.name]
      (0 + Text.size (opening Scope.pipeline.name))
  have hwhole := Reads.element hp (hreads.append (Markup.reads_closing hp [] _))
  refine ⟨first, last, span, ⟨0, 0 + Text.size (opening Scope.pipeline.name)⟩, ?_⟩
  rw [← htexts]
  refine Program.parse_eq_ok_iff.2 ⟨rfl, _, parseDocument_of_reads rfl ?_,
    ofElement_among (placedAll first before) (placedAll last after) action span _ texts, ?_⟩
  · rw [Markup.Element.marks_eq]
    exact hwhole
  · apply checkRoot_of_not_empty
    simp [children]

theorem withoutSpansAll_append (is js : List Instruction) :
    withoutSpansAll (is ++ js) = withoutSpansAll is ++ withoutSpansAll js := by
  induction is with
  | nil => rfl
  | cons i is ih => rw [List.cons_append, withoutSpansAll, withoutSpansAll, ih, List.cons_append]

/-- Whatever stands around the action, it is read as one instruction, and its payload is what the
pieces stand for. Other pieces that stand for the same give the same program, its spans apart. -/
theorem payload_independent_of_spelling (action : Action) (pieces : List Piece)
    (before after : List Instruction) (source : Nat) :
    ∃ program,
      Program.parse (String.ofList (spelledAmong before action pieces after)) source =
        .ok program ∧
      program.root.withoutSpans =
        (block .pipeline (.point 0) (before ++
          act action (.point 0) (String.ofList (Piece.meanings pieces)) :: after)).withoutSpans ∧
      ∀ others, Piece.meanings others = Piece.meanings pieces → ∃ program',
        Program.parse (String.ofList (spelledAmong before action others after)) source =
          .ok program' ∧ program'.root.withoutSpans = program.root.withoutSpans := by
  have hparse (ps : List Piece) : ∃ program,
      Program.parse (String.ofList (spelledAmong before action ps after)) source = .ok program ∧
      program.root.withoutSpans =
        (block .pipeline (.point 0) (before ++
          act action (.point 0) (String.ofList (Piece.meanings ps)) :: after)).withoutSpans := by
    obtain ⟨first, last, span, span', h⟩ :=
      exists_parse_spelledAmong before action ps after source
    refine ⟨_, h, ?_⟩
    simp [withoutSpans, withoutSpansAll, withoutSpansAll_append, withoutSpansAll_placedAll]
  obtain ⟨program, h, hroot⟩ := hparse pieces
  refine ⟨program, h, hroot, ?_⟩
  intro others hsame
  obtain ⟨program', h', hroot'⟩ := hparse others
  rw [hsame] at hroot'
  exact ⟨program', h', hroot'.trans hroot.symm⟩

def tagInSection : List Piece :=
  [.numbered .decimal 1 ['6', '0'] '<' (by decide) (by rfl),
    .verbatim ['<', '/', '>'] (by decide)]

def tagByReferences : List Piece :=
  [.named .lt, .comment ['&'] (by decide),
    .numbered .hexadecimal 0 ['3', 'C'] '<' (by decide) (by rfl),
    .run ['/', '>'] (by decide) (by decide)]

theorem payload_independent_of_spelling_lt :
    Piece.meanings tagInSection = Piece.meanings tagByReferences ∧
    ∃ program program',
      Program.parse "<pipeline><print>&lt;<!--&-->&#x3C;/></print></pipeline>" 3 = .ok program ∧
      Program.parse "<pipeline><print>&#060;<![CDATA[</>]]></print></pipeline>" 3 =
        .ok program' ∧ program'.root.withoutSpans = program.root.withoutSpans := by
  obtain ⟨program, h, _, hothers⟩ :=
    payload_independent_of_spelling .print tagByReferences [] [] 3
  obtain ⟨program', h', hsame⟩ := hothers tagInSection (by rfl)
  exact ⟨rfl, program, program', h, h', hsame⟩

end Instruction

end XmlPipeline
