import XmlPipeline.Text.Utf8
set_option autoImplicit false

/-!
Items: what markup is made of when it is cut at its delimiters and not looked into. Main statement:
an item that is cut off a text, spelled out again and followed by the rest, is that text.
-/

namespace XmlPipeline.Markup

inductive SyntaxFault where
  | unclosedTag
  | unclosedComment
  | unclosedVerbatim
  | unclosedDoctype
  | unclosedInstruction
  | namelessDoctype
  | unknownMarkup
  | mismatchedEnd (expected found : String)
  | unmatchedEnd (name : String)
  deriving DecidableEq, Repr

def SyntaxFault.message : SyntaxFault → String
  | .unclosedTag => "syntax error: tag not closed: \x60>\x60 not found before end of input"
  | .unclosedComment =>
    "syntax error: comment not closed: \x60-->\x60 not found before end of input"
  | .unclosedVerbatim => "syntax error: CDATA not closed: \x60]]>\x60 not found before end of input"
  | .unclosedDoctype => "syntax error: DOCTYPE not closed: \x60>\x60 not found before end of input"
  | .unclosedInstruction =>
    "syntax error: processing instruction or xml declaration not closed: \x60?>\x60 not found " ++
      "before end of input"
  | .namelessDoctype =>
    "ill-formed document: \x60<!DOCTYPE>\x60 declaration does not contain a name of a document type"
  | .unknownMarkup => "syntax error: unknown or missed symbol in markup"
  | .mismatchedEnd expected found =>
    "ill-formed document: expected \x60</" ++ expected ++ ">\x60, but \x60</" ++ found ++
      ">\x60 was found"
  | .unmatchedEnd name =>
    "ill-formed document: close tag \x60</" ++ name ++ ">\x60 does not match any open tag"

def isSpace (c : Char) : Bool := c = ' ' || c = '\t' || c = '\n' || c = '\r'

def cutAt (mark : List Char) : List Char → Option (List Char × List Char)
  | [] => none
  | c :: rest =>
    if mark.isPrefixOf (c :: rest) then some ([], (c :: rest).drop mark.length)
    else (cutAt mark rest).map fun (body, tail) => (c :: body, tail)

/-- A text up to its first `>` outside quotes, and what follows that. The first argument is the
quote that the text starts in. -/
def cutTag : Option Char → List Char → Option (List Char × List Char)
  | _, [] => none
  | none, c :: rest =>
    if c = '>' then some ([], rest)
    else
      let quote := if c = '"' ∨ c = '\'' then some c else none
      (cutTag quote rest).map fun (body, tail) => (c :: body, tail)
  | some q, c :: rest =>
    (cutTag (if c = q then none else some q) rest).map fun (body, tail) => (c :: body, tail)

/-- A text up to the first `>` that closes no `<` in it, `depth` of which were open before. -/
def cutBalanced : Nat → List Char → Option (List Char × List Char)
  | _, [] => none
  | depth, c :: rest =>
    let go (depth : Nat) := (cutBalanced depth rest).map fun (body, tail) => (c :: body, tail)
    if c = '<' then go (depth + 1)
    else if c = '>' then
      match depth with
      | 0 => some ([], rest)
      | depth + 1 => go depth
    else go depth

theorem eq_of_cutAt {mark cs body tail : List Char} (h : cutAt mark cs = some (body, tail)) :
    body ++ mark ++ tail = cs := by
  induction cs generalizing body with
  | nil => simp [cutAt] at h
  | cons c cs ih =>
    rw [cutAt] at h
    split at h
    · next hp =>
      obtain ⟨t, ht⟩ := List.isPrefixOf_iff_prefix.1 hp
      simp only [Option.some.injEq, Prod.mk.injEq] at h
      rw [← h.1, ← h.2, ← ht, List.drop_left]
      rfl
    · obtain ⟨⟨b, t⟩, hb, he⟩ := Option.map_eq_some_iff.1 h
      simp only [Prod.mk.injEq] at he
      obtain ⟨rfl, rfl⟩ := he
      simp [← ih hb]

theorem eq_of_cutTag {quote : Option Char} {cs body tail : List Char}
    (h : cutTag quote cs = some (body, tail)) : body ++ '>' :: tail = cs := by
  induction cs generalizing quote body with
  | nil => cases quote <;> simp [cutTag] at h
  | cons c cs ih =>
    cases quote with
    | none =>
      rw [cutTag] at h
      split at h
      · next hc => simp_all
      · obtain ⟨⟨b, t⟩, hb, he⟩ := Option.map_eq_some_iff.1 h
        simp only [Prod.mk.injEq] at he
        obtain ⟨rfl, rfl⟩ := he
        simp [← ih hb]
    | some q =>
      rw [cutTag] at h
      obtain ⟨⟨b, t⟩, hb, he⟩ := Option.map_eq_some_iff.1 h
      simp only [Prod.mk.injEq] at he
      obtain ⟨rfl, rfl⟩ := he
      simp [← ih hb]

theorem eq_of_cutBalanced {depth : Nat} {cs body tail : List Char}
    (h : cutBalanced depth cs = some (body, tail)) : body ++ '>' :: tail = cs := by
  induction cs generalizing depth body with
  | nil => simp [cutBalanced] at h
  | cons c cs ih =>
    have step {d : Nat} (h : ((cutBalanced d cs).map fun (b, t) => (c :: b, t)) =
        some (body, tail)) : body ++ '>' :: tail = c :: cs := by
      obtain ⟨⟨b, t⟩, hb, he⟩ := Option.map_eq_some_iff.1 h
      simp only [Prod.mk.injEq] at he
      obtain ⟨rfl, rfl⟩ := he
      simp [← ih hb]
    simp only [cutBalanced] at h
    split at h
    · exact step h
    · split at h
      · split at h
        · simp_all
        · exact step h
      · exact step h

inductive Item where
  | run (text : List Char)
  /-- A start tag or an empty element, between `<` and `>`. -/
  | tag (content : List Char)
  /-- An end tag, between `</` and `>`. -/
  | close (content : List Char)
  /-- A section between `<![CDATA[` and `]]>`. -/
  | verbatim (content : List Char)
  | comment (body : List Char)
  /-- A processing instruction or a declaration, between `<?` and `?>`. -/
  | instruction (body : List Char)
  /-- A document type, between `<!` and `>`. -/
  | doctype (body : List Char)
  deriving DecidableEq, Repr

def verbatimMark : List Char := "[CDATA[".toList

def Item.spelling : Item → List Char
  | .run text => text
  | .tag content => '<' :: content ++ ['>']
  | .close content => '<' :: '/' :: content ++ ['>']
  | .verbatim content => '<' :: '!' :: verbatimMark ++ content ++ "]]>".toList
  | .comment body => "<!--".toList ++ body ++ "-->".toList
  | .instruction body => '<' :: '?' :: body ++ "?>".toList
  | .doctype body => '<' :: '!' :: body ++ ['>']

/-- A fault, and how many bytes after the start of the item it is found. -/
structure Defect where
  fault : SyntaxFault
  ahead : Nat
  deriving DecidableEq, Repr

def isDoctype (body : List Char) : Bool :=
  (body.take 7).map Char.toUpper = "DOCTYPE".toList

def Item.declaration : List Char → Except Defect (Item × List Char)
  | '-' :: rest =>
    match rest with
    | '-' :: rest =>
      match cutAt "-->".toList rest with
      | some (body, tail) => .ok (.comment body, tail)
      | none => .error ⟨.unclosedComment, 0⟩
    | _ => .error ⟨.unclosedComment, 0⟩
  | '[' :: rest =>
    if verbatimMark.isPrefixOf ('[' :: rest) then
      match cutAt "]]>".toList (('[' :: rest).drop verbatimMark.length) with
      | some (content, tail) => .ok (.verbatim content, tail)
      | none => .error ⟨.unclosedVerbatim, 0⟩
    else .error ⟨.unclosedVerbatim, 0⟩
  | rest =>
    if rest.head? = some 'D' ∨ rest.head? = some 'd' then
      match cutBalanced 0 rest with
      | some (body, tail) =>
        if !isDoctype body then .error ⟨.unclosedDoctype, 0⟩
        else if (body.drop 7).all isSpace then .error ⟨.namelessDoctype, 2 + Text.size body⟩
        else .ok (.doctype body, tail)
      | none => .error ⟨.unclosedDoctype, 0⟩
    else .error ⟨.unknownMarkup, 0⟩

def Item.markup : List Char → Except Defect (Item × List Char)
  | '!' :: rest => declaration rest
  | '/' :: rest =>
    match cutTag none rest with
    | some (content, tail) => .ok (.close content, tail)
    | none => .error ⟨.unclosedTag, 0⟩
  | '?' :: rest =>
    if rest.head? = some '>' then .error ⟨.unclosedInstruction, 0⟩
    else
      match cutAt "?>".toList rest with
      | some (body, tail) => .ok (.instruction body, tail)
      | none => .error ⟨.unclosedInstruction, 0⟩
  | rest =>
    match cutTag none rest with
    | some (content, tail) => .ok (.tag content, tail)
    | none => .error ⟨.unclosedTag, 0⟩

def Item.next (c : Char) (cs : List Char) : Except Defect (Item × List Char) :=
  if c = '<' then markup cs
  else .ok (.run (c :: cs.takeWhile (· != '<')), cs.dropWhile (· != '<'))

theorem Item.spelling_declaration {cs tail : List Char} {item : Item}
    (h : declaration cs = .ok (item, tail)) : item.spelling ++ tail = '<' :: '!' :: cs := by
  unfold declaration at h
  split at h
  · split at h
    · split at h
      · next hb =>
        simp only [Except.ok.injEq, Prod.mk.injEq] at h
        obtain ⟨rfl, rfl⟩ := h
        simp [spelling, ← eq_of_cutAt hb]
      · simp at h
    · simp at h
  · split at h
    · next hp =>
      split at h
      · next hb =>
        simp only [Except.ok.injEq, Prod.mk.injEq] at h
        obtain ⟨rfl, rfl⟩ := h
        obtain ⟨t, ht⟩ := List.isPrefixOf_iff_prefix.1 hp
        rw [← ht, List.drop_left] at hb
        simp [spelling, ← ht, ← eq_of_cutAt hb]
      · simp at h
    · simp at h
  · split at h
    · split at h
      · next hb =>
        split at h
        · simp at h
        · split at h
          · simp at h
          · simp only [Except.ok.injEq, Prod.mk.injEq] at h
            obtain ⟨rfl, rfl⟩ := h
            simp [spelling, ← eq_of_cutBalanced hb]
      · simp at h
    · simp at h

theorem Item.spelling_markup {cs tail : List Char} {item : Item}
    (h : markup cs = .ok (item, tail)) : item.spelling ++ tail = '<' :: cs := by
  unfold markup at h
  split at h
  · exact spelling_declaration h
  · split at h
    · next hb =>
      simp only [Except.ok.injEq, Prod.mk.injEq] at h
      obtain ⟨rfl, rfl⟩ := h
      simp [spelling, ← eq_of_cutTag hb]
    · simp at h
  · split at h
    · simp at h
    · split at h
      · next hb =>
        simp only [Except.ok.injEq, Prod.mk.injEq] at h
        obtain ⟨rfl, rfl⟩ := h
        simp [spelling, ← eq_of_cutAt hb]
      · simp at h
  · split at h
    · next hb =>
      simp only [Except.ok.injEq, Prod.mk.injEq] at h
      obtain ⟨rfl, rfl⟩ := h
      simp [spelling, ← eq_of_cutTag hb]
    · simp at h

theorem Item.spelling_next {c : Char} {cs tail : List Char} {item : Item}
    (h : next c cs = .ok (item, tail)) : item.spelling ++ tail = c :: cs := by
  unfold next at h
  split at h
  · next hc => rw [hc]; exact spelling_markup h
  · simp only [Except.ok.injEq, Prod.mk.injEq] at h
    obtain ⟨rfl, rfl⟩ := h
    simp [spelling]

theorem Item.spelling_ne_nil {c : Char} {cs tail : List Char} {item : Item}
    (h : next c cs = .ok (item, tail)) : item.spelling ≠ [] := by
  unfold next at h
  split at h
  · cases item with
    | run text =>
      exfalso
      unfold markup declaration at h
      split at h <;> (repeat' split at h) <;> simp at h
    | _ => simp [spelling]
  · simp only [Except.ok.injEq, Prod.mk.injEq] at h
    rw [← h.1]
    simp [spelling]

theorem Item.length_next {c : Char} {cs tail : List Char} {item : Item}
    (h : next c cs = .ok (item, tail)) : tail.length < (c :: cs).length := by
  have hs := congrArg List.length (spelling_next h)
  have hp := List.length_pos_iff.2 (spelling_ne_nil h)
  simp only [List.length_append] at hs
  omega

end XmlPipeline.Markup
