import XmlPipeline.Markup.Reading
import XmlPipeline.Proofs.Cutting
import XmlPipeline.Proofs.Octets
set_option autoImplicit false

namespace XmlPipeline.Markup
open Text (octets IsAscii)

def octetParts (parts : List Char × List Char) : List Char × List Char :=
  (octets parts.1, octets parts.2)

theorem map_octetParts_cons {c : Char} (h : IsAscii c) (parts? : Option (List Char × List Char)) :
    ((parts?.map octetParts).map fun (body, tail) => (c :: body, tail)) =
      (parts?.map fun (body, tail) => (c :: body, tail)).map octetParts := by
  cases parts? with
  | none => rfl
  | some parts => simp [octetParts, Text.octets_cons h]

/-- A cut that goes on past each character outside ASCII goes on past the octets of one. -/
theorem cut_octets_of_pass {cut : List Char → Option (List Char × List Char)}
    (pass : ∀ d, ¬ IsAscii d → ∀ rest,
      cut (d :: rest) = (cut rest).map fun (body, tail) => (d :: body, tail))
    {c : Char} (hc : ¬ IsAscii c) {cs : List Char} (h : cut (octets cs) = (cut cs).map octetParts) :
    cut (octets (c :: cs)) = (cut (c :: cs)).map octetParts := by
  have hblock (block rest : List Char) (hall : ∀ d ∈ block, ¬ IsAscii d) :
      cut (block ++ rest) = (cut rest).map fun (body, tail) => (block ++ body, tail) := by
    induction block with
    | nil => simp
    | cons d block ih =>
      rw [List.cons_append, pass d (hall d List.mem_cons_self),
        ih fun e he => hall e (List.mem_cons_of_mem d he), Option.map_map]
      rfl
  rw [Text.octets_eq_append c cs, hblock _ _ fun d => Text.not_isAscii_of_mem hc, h, pass c hc,
    Option.map_map, Option.map_map]
  congr 1
  funext parts
  simp [octetParts, ← Text.octets_append]

theorem cutAt_octets {mark : List Char} (ne : mark ≠ []) (ascii : ∀ c ∈ mark, IsAscii c)
    (cs : List Char) : cutAt mark (octets cs) = (cutAt mark cs).map octetParts := by
  induction cs with
  | nil => rfl
  | cons c cs ih =>
    by_cases hc : IsAscii c
    · have hprefix := Text.isPrefixOf_octets ascii (c :: cs)
      have hdrop := @Text.drop_octets mark (c :: cs) ascii
      rw [Text.octets_cons hc] at hprefix hdrop ⊢
      rw [cutAt, cutAt, hprefix]
      split
      · next hmark =>
        rw [hdrop (List.isPrefixOf_iff_prefix.1 hmark)]
        rfl
      · rw [ih, map_octetParts_cons hc]
    · refine cut_octets_of_pass ?_ hc ih
      intro d hd rest
      have hnot : ¬ mark.isPrefixOf (d :: rest) = true := by
        rw [List.isPrefixOf_iff_prefix]
        intro hprefix
        obtain ⟨a, mark, rfl⟩ := List.exists_cons_of_ne_nil ne
        obtain ⟨rfl, _⟩ := List.cons_prefix_cons.1 hprefix
        exact hd (ascii a List.mem_cons_self)
      rw [cutAt, if_neg hnot]

theorem ne_of_not_isAscii {c a : Char} (hc : ¬ IsAscii c) (ha : IsAscii a) : c ≠ a := by
  rintro rfl
  exact hc ha

theorem nextQuote_of_not_isAscii {quote : Option Char} (ascii : ∀ q, quote = some q → IsAscii q)
    {c : Char} (hc : ¬ IsAscii c) : nextQuote quote c = quote := by
  cases quote with
  | none =>
    have hquotes : ¬ (c = '"' ∨ c = '\'') := by
      rintro (rfl | rfl)
      · exact hc (by decide)
      · exact hc (by decide)
    rw [nextQuote, if_neg hquotes]
  | some q => rw [nextQuote, if_neg (ne_of_not_isAscii hc (ascii q rfl))]

theorem isAscii_of_nextQuote {quote : Option Char} (ascii : ∀ q, quote = some q → IsAscii q)
    {c q : Char} (hc : IsAscii c) (h : nextQuote quote c = some q) : IsAscii q := by
  cases quote with
  | none =>
    rw [nextQuote, Option.ite_none_right_eq_some, Option.some.injEq] at h
    rwa [← h.2]
  | some q' =>
    rw [nextQuote, Option.ite_none_left_eq_some, Option.some.injEq] at h
    rw [← h.2]
    exact ascii q' rfl

theorem cutTag_octets (quote : Option Char) (ascii : ∀ q, quote = some q → IsAscii q)
    (cs : List Char) : cutTag quote (octets cs) = (cutTag quote cs).map octetParts := by
  induction cs generalizing quote with
  | nil => cases quote <;> rfl
  | cons c cs ih =>
    by_cases hc : IsAscii c
    · rw [Text.octets_cons hc, cutTag_cons, cutTag_cons]
      split
      · rfl
      · rw [ih _ fun q => isAscii_of_nextQuote ascii hc, map_octetParts_cons hc]
    · refine cut_octets_of_pass ?_ hc (ih quote ascii)
      intro d hd rest
      have hgt : ¬ (quote = none ∧ d = '>') := fun h => hd (h.2 ▸ by decide)
      rw [cutTag_cons, if_neg hgt, nextQuote_of_not_isAscii ascii hd]

theorem cutBalanced_octets (depth : Nat) (cs : List Char) :
    cutBalanced depth (octets cs) = (cutBalanced depth cs).map octetParts := by
  induction cs generalizing depth with
  | nil => rfl
  | cons c cs ih =>
    by_cases hc : IsAscii c
    · have hcons (depth : Nat) := map_octetParts_cons hc (cutBalanced depth cs)
      rw [Text.octets_cons hc]
      simp only [cutBalanced, ih]
      split
      · exact hcons (depth + 1)
      · split
        · cases depth with
          | zero => rfl
          | succ depth => exact hcons depth
        · exact hcons depth
    · refine cut_octets_of_pass ?_ hc (ih depth)
      intro d hd rest
      have hlt : d ≠ '<' := ne_of_not_isAscii hd (by decide)
      have hgt : d ≠ '>' := ne_of_not_isAscii hd (by decide)
      simp [cutBalanced, hlt, hgt]

def Item.octets : Item → Item
  | .run text => .run (Text.octets text)
  | .tag content => .tag (Text.octets content)
  | .close content => .close (Text.octets content)
  | .verbatim content => .verbatim (Text.octets content)
  | .comment body => .comment (Text.octets body)
  | .instruction body => .instruction (Text.octets body)
  | .doctype body => .doctype (Text.octets body)

theorem isAscii_of_toUpper {c : Char} (h : IsAscii c.toUpper) : IsAscii c := by
  have hlt : c.toUpper.toNat < 128 := h
  show c.toNat < 128
  unfold Char.toUpper at hlt
  split at hlt
  · next hlower =>
    have hz : c.toNat ≤ 'z'.toNat := hlower.2
    exact Nat.lt_of_le_of_lt hz (by decide)
  · exact hlt

theorem isDoctype_iff (body : List Char) : isDoctype body = true ↔ ∃ keyword rest,
    body = keyword ++ rest ∧ keyword.length = 7 ∧ keyword.map Char.toUpper = "DOCTYPE".toList := by
  rw [isDoctype, decide_eq_true_eq]
  constructor
  · intro h
    refine ⟨body.take 7, body.drop 7, (List.take_append_drop 7 body).symm, ?_, h⟩
    have hlength := congrArg List.length h
    rwa [List.length_map] at hlength
  · rintro ⟨keyword, rest, rfl, hlength, h⟩
    rwa [← hlength, List.take_left]

theorem isAscii_of_mem_keyword {keyword : List Char}
    (h : keyword.map Char.toUpper = "DOCTYPE".toList) : ∀ c ∈ keyword, IsAscii c := by
  have hall : ∀ d ∈ "DOCTYPE".toList, IsAscii d := by simp [IsAscii]
  intro c hc
  apply isAscii_of_toUpper
  apply hall
  rw [← h]
  exact List.mem_map_of_mem hc

theorem isDoctype_octets (body : List Char) : isDoctype (octets body) = isDoctype body := by
  rw [Bool.eq_iff_iff, isDoctype_iff, isDoctype_iff]
  constructor
  · rintro ⟨keyword, rest, hbody, hlength, h⟩
    have hprefix : keyword <+: octets body := ⟨rest, hbody.symm⟩
    obtain ⟨rest', hrest'⟩ := (Text.prefix_octets_iff (isAscii_of_mem_keyword h) body).1 hprefix
    exact ⟨keyword, rest', hrest'.symm, hlength, h⟩
  · rintro ⟨keyword, rest, rfl, hlength, h⟩
    refine ⟨keyword, octets rest, ?_, hlength, h⟩
    rw [Text.octets_append, Text.octets_of_ascii (isAscii_of_mem_keyword h)]

theorem isAscii_of_isSpace {c : Char} (h : isSpace c = true) : IsAscii c := by
  simp only [isSpace, Bool.or_eq_true, decide_eq_true_eq] at h
  rcases h with ((rfl | rfl) | rfl) | rfl <;> decide

theorem isSpace_of_not_isAscii (c : Char) (h : ¬ IsAscii c) : isSpace c = false := by
  cases hs : isSpace c with
  | false => rfl
  | true => exact absurd (isAscii_of_isSpace hs) h

/-- After the keyword there is a name if there is one in the octets. Without a name there are no
other characters than those of ASCII. -/
theorem doctype_octets {body : List Char} (h : isDoctype body = true) :
    ((octets body).drop 7).all isSpace = (body.drop 7).all isSpace ∧
      ((body.drop 7).all isSpace = true → octets body = body) := by
  obtain ⟨keyword, rest, rfl, hlength, hkeyword⟩ := (isDoctype_iff body).1 h
  have hascii := isAscii_of_mem_keyword hkeyword
  rw [Text.octets_append, Text.octets_of_ascii hascii, ← hlength, List.drop_left, List.drop_left]
  refine ⟨Text.all_octets isSpace_of_not_isAscii rest, ?_⟩
  intro hblank
  rw [Text.octets_of_ascii fun c hc => isAscii_of_isSpace (List.all_eq_true.1 hblank c hc)]

def Item.octetParts (parts : Item × List Char) : Item × List Char :=
  (parts.1.octets, Text.octets parts.2)

theorem Item.declaration_of_head?_ne {cs : List Char} (hdash : cs.head? ≠ some '-')
    (hbracket : cs.head? ≠ some '[') : declaration cs =
      if cs.head? = some 'D' ∨ cs.head? = some 'd' then
        match cutBalanced 0 cs with
        | some (body, tail) =>
          if !isDoctype body then .error ⟨.unclosedDoctype, 0⟩
          else if (body.drop 7).all isSpace then .error ⟨.namelessDoctype, 2 + Text.size body⟩
          else .ok (.doctype body, tail)
        | none => .error ⟨.unclosedDoctype, 0⟩
      else .error ⟨.unknownMarkup, 0⟩ := by
  unfold declaration
  split
  · exact absurd rfl hdash
  · exact absurd rfl hbracket
  · rfl

theorem Item.markup_of_head?_ne {cs : List Char} (hbang : cs.head? ≠ some '!')
    (hslash : cs.head? ≠ some '/') (hquery : cs.head? ≠ some '?') : markup cs =
      match cutTag none cs with
      | some (content, tail) => .ok (.tag content, tail)
      | none => .error ⟨.unclosedTag, 0⟩ := by
  unfold markup
  split
  · exact absurd rfl hbang
  · exact absurd rfl hslash
  · exact absurd rfl hquery
  · rfl

theorem Item.declaration_dash_of_head?_ne {rest : List Char} (h : rest.head? ≠ some '-') :
    declaration ('-' :: rest) = .error ⟨.unclosedComment, 0⟩ := by
  rw [declaration]
  rintro rest rfl
  exact h rfl

theorem Item.declaration_dash_octets (rest : List Char) :
    declaration ('-' :: Text.octets rest) = (declaration ('-' :: rest)).map octetParts := by
  by_cases h : rest.head? = some '-'
  · obtain ⟨rest, rfl⟩ := List.head?_eq_some_iff.1 h
    rw [Text.octets_cons (by decide), declaration, declaration,
      cutAt_octets (by decide) (by simp [IsAscii])]
    cases cutAt "-->".toList rest <;> rfl
  · have hoctets := mt (Text.head?_octets (by decide) rest).1 h
    rw [declaration_dash_of_head?_ne h, declaration_dash_of_head?_ne hoctets]
    rfl

theorem Item.declaration_bracket_octets (rest : List Char) :
    declaration ('[' :: Text.octets rest) = (declaration ('[' :: rest)).map octetParts := by
  have hmark : ∀ c ∈ verbatimMark, IsAscii c := by
    unfold verbatimMark
    simp [IsAscii]
  have hcons : Text.octets ('[' :: rest) = '[' :: Text.octets rest :=
    Text.octets_cons (by decide) rest
  rw [declaration, declaration, ← hcons, Text.isPrefixOf_octets hmark]
  split
  · next hprefix =>
    rw [Text.drop_octets hmark (List.isPrefixOf_iff_prefix.1 hprefix),
      cutAt_octets (by decide) (by simp [IsAscii])]
    cases cutAt "]]>".toList (('[' :: rest).drop verbatimMark.length) <;> rfl
  · rfl

theorem Item.declaration_octets (cs : List Char) :
    declaration (Text.octets cs) = (declaration cs).map octetParts := by
  by_cases hdash : cs.head? = some '-'
  · obtain ⟨rest, rfl⟩ := List.head?_eq_some_iff.1 hdash
    rw [Text.octets_cons (by decide), declaration_dash_octets]
  by_cases hbracket : cs.head? = some '['
  · obtain ⟨rest, rfl⟩ := List.head?_eq_some_iff.1 hbracket
    rw [Text.octets_cons (by decide), declaration_bracket_octets]
  have hdash' := mt (Text.head?_octets (by decide) cs).1 hdash
  have hbracket' := mt (Text.head?_octets (by decide) cs).1 hbracket
  have hupper : (Text.octets cs).head? = some 'D' ↔ _ := Text.head?_octets (by decide) cs
  have hlower : (Text.octets cs).head? = some 'd' ↔ _ := Text.head?_octets (by decide) cs
  rw [declaration_of_head?_ne hdash hbracket, declaration_of_head?_ne hdash' hbracket',
    cutBalanced_octets]
  simp only [hupper, hlower]
  split
  · cases hcut : cutBalanced 0 cs with
    | none => rfl
    | some parts =>
      obtain ⟨body, tail⟩ := parts
      simp only [Option.map_some, Markup.octetParts, isDoctype_octets]
      split
      · rfl
      · next hkeyword =>
        have hkeyword : isDoctype body = true := by simpa using hkeyword
        obtain ⟨hnamed, hascii⟩ := doctype_octets hkeyword
        rw [hnamed]
        split
        · next hblank =>
          -- The fault is put behind the body, which has as many characters as bytes.
          rw [hascii hblank]
          rfl
        · rfl
  · rfl

theorem Item.markup_octets (cs : List Char) :
    markup (Text.octets cs) = (markup cs).map octetParts := by
  have htag (rest : List Char) : cutTag none (Text.octets rest) = _ :=
    cutTag_octets none (by simp) rest
  by_cases hbang : cs.head? = some '!'
  · obtain ⟨rest, rfl⟩ := List.head?_eq_some_iff.1 hbang
    rw [Text.octets_cons (by decide), markup, markup, declaration_octets]
  by_cases hslash : cs.head? = some '/'
  · obtain ⟨rest, rfl⟩ := List.head?_eq_some_iff.1 hslash
    rw [Text.octets_cons (by decide), markup, markup, htag]
    cases cutTag none rest <;> rfl
  by_cases hquery : cs.head? = some '?'
  · obtain ⟨rest, rfl⟩ := List.head?_eq_some_iff.1 hquery
    have hgt : (Text.octets rest).head? = some '>' ↔ _ := Text.head?_octets (by decide) rest
    rw [Text.octets_cons (by decide), markup, markup, cutAt_octets (by decide) (by simp [IsAscii])]
    simp only [hgt]
    split
    · rfl
    · cases cutAt "?>".toList rest <;> rfl
  have hbang' := mt (Text.head?_octets (by decide) cs).1 hbang
  have hslash' := mt (Text.head?_octets (by decide) cs).1 hslash
  have hquery' := mt (Text.head?_octets (by decide) cs).1 hquery
  rw [markup_of_head?_ne hbang hslash hquery, markup_of_head?_ne hbang' hslash' hquery', htag]
  cases cutTag none cs <;> rfl

theorem tagName_octets (content : List Char) :
    (tagName (Text.octets content)).toList = Text.octets (tagName content).toList := by
  have hp : ∀ c, ¬ IsAscii c → (!isSpace c) = true := by
    intro c hc
    rw [isSpace_of_not_isAscii c hc]
    rfl
  rw [tagName, tagName, String.toList_ofList, String.toList_ofList]
  exact (Text.takeWhile_and_dropWhile_octets hp content).1

theorem closeName_octets (content : List Char) :
    (closeName (Text.octets content)).toList = Text.octets (closeName content).toList := by
  rw [closeName, closeName, Text.all_octets isSpace_of_not_isAscii]
  split
  · rw [String.toList_ofList, String.toList_ofList]
  · rw [String.toList_ofList, String.toList_ofList]
    exact Text.dropEndWhile_octets isSpace_of_not_isAscii content

end XmlPipeline.Markup
