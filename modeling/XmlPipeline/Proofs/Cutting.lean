import XmlPipeline.Markup.Item
set_option autoImplicit false

/-!
Cutting: where an item ends, said without reading it character by character. Main statements: a cut
finds the first mark that ends an item; and markup is cut alike whatever follows it, which is NOT so
of a run of text.
-/

namespace XmlPipeline.Markup

/-- A mark that cannot begin before the end of a text and end after it: its last character stands
nowhere else in it. -/
def Sharp (mark : List Char) : Prop := ∃ m x, mark = m ++ [x] ∧ x ∉ m

theorem sharp_comment : Sharp "-->".toList := ⟨['-', '-'], '>', rfl, by decide⟩

theorem sharp_verbatim : Sharp "]]>".toList := ⟨[']', ']'], '>', rfl, by decide⟩

theorem sharp_instruction : Sharp "?>".toList := ⟨['?'], '>', rfl, by decide⟩

/-- A mark that does not overlap itself: no beginning of it, short of the whole, is an end of it. -/
def Unbordered (mark : List Char) : Prop :=
  mark ≠ [] ∧ ∀ s, s ≠ [] → s <+: mark → s <:+ mark → s = mark

theorem Sharp.unbordered {mark : List Char} (hs : Sharp mark) : Unbordered mark := by
  obtain ⟨m, x, rfl, hx⟩ := hs
  refine ⟨by simp, ?_⟩
  intro s hne hprefix hsuffix
  rcases List.prefix_concat_iff.1 hprefix with rfl | hm
  · rfl
  -- An end of the mark ends with its last character, which stands in no other place.
  · obtain ⟨t, rfl, _⟩ := (List.suffix_concat_iff.1 hsuffix).resolve_left hne
    have hlast : x ∈ t ++ [x] := by simp
    exact absurd (hm.subset hlast) hx

theorem unbordered_of_notMem {m : List Char} {x : Char} (hx : x ∉ m) : Unbordered (x :: m) := by
  refine ⟨by simp, ?_⟩
  intro s hne hprefix hsuffix
  rcases List.suffix_cons_iff.1 hsuffix with rfl | hm
  · rfl
  · obtain ⟨c, s, rfl⟩ := List.exists_cons_of_ne_nil hne
    obtain ⟨rfl, _⟩ := List.cons_prefix_cons.1 hprefix
    exact absurd (hm.subset List.mem_cons_self) hx

theorem Unbordered.not_prefix {mark : List Char} (hu : Unbordered mark) {c : Char}
    {body : List Char} (hf : ¬ mark <:+: c :: body) (rest : List Char) :
    ¬ mark <+: c :: (body ++ mark ++ rest) := by
  intro hp
  have hall : c :: (body ++ mark ++ rest) = (c :: body) ++ (mark ++ rest) := by simp
  rw [hall] at hp
  rcases List.prefix_or_prefix_of_prefix hp (List.prefix_append (c :: body) _) with h | ⟨s, h⟩
  · exact hf h.isInfix
  -- The mark would begin in the body and end in itself.
  have hsp : s <+: mark ++ rest := by
    rw [← h] at hp
    rw [← h]
    exact (List.prefix_append_right_inj (c :: body)).1 (by simpa using hp)
  have hlen : s.length < mark.length := by
    rw [← h]
    simp only [List.length_append, List.length_cons]
    omega
  have hsm : s <+: mark :=
    List.prefix_of_prefix_length_le hsp (List.prefix_append mark rest) (Nat.le_of_lt hlen)
  by_cases hs : s = []
  · rw [hs, List.append_nil] at h
    exact hf (h ▸ List.infix_refl _)
  · have he := hu.2 s hs hsm ⟨c :: body, h⟩
    rw [he] at hlen
    exact Nat.lt_irrefl _ hlen

theorem not_infix_of_cutAt {mark : List Char} (hu : Unbordered mark) {cs body rest : List Char}
    (h : cutAt mark cs = some (body, rest)) : ¬ mark <:+: body := by
  induction cs generalizing body with
  | nil => simp [cutAt] at h
  | cons c cs ih =>
    rw [cutAt] at h
    split at h
    · simp only [Option.some.injEq, Prod.mk.injEq] at h
      rw [← h.1, List.infix_nil]
      exact hu.1
    · next hp =>
      obtain ⟨⟨b, t⟩, hb, he⟩ := Option.map_eq_some_iff.1 h
      simp only [Prod.mk.injEq] at he
      obtain ⟨rfl, rfl⟩ := he
      rw [List.infix_cons_iff]
      rintro (⟨s, hpre⟩ | hin)
      · apply hp
        rw [List.isPrefixOf_iff_prefix, ← eq_of_cutAt hb]
        exact ⟨s ++ mark ++ t, by simp [← List.append_assoc, hpre]⟩
      · exact ih hb hin

theorem cutAt_append {mark : List Char} (hu : Unbordered mark) {body : List Char}
    (hf : ¬ mark <:+: body) (rest : List Char) :
    cutAt mark (body ++ mark ++ rest) = some (body, rest) := by
  induction body with
  | nil =>
    have hp : mark.isPrefixOf (mark ++ rest) = true :=
      List.isPrefixOf_iff_prefix.2 (List.prefix_append mark rest)
    cases hm : mark ++ rest with
    | nil => exact absurd (List.append_eq_nil_iff.1 hm).1 hu.1
    | cons d ds => rw [List.nil_append, hm, cutAt, ← hm, if_pos hp, List.drop_left]
  | cons c body ih =>
    have hp := hu.not_prefix hf rest
    have hb : ¬ mark <:+: body := fun h => hf (h.trans (List.infix_cons (List.infix_refl body)))
    rw [List.cons_append, List.cons_append, cutAt, if_neg (by rwa [List.isPrefixOf_iff_prefix]),
      ih hb]
    rfl

def nextQuote : Option Char → Char → Option Char
  | none, c => if c = '"' ∨ c = '\'' then some c else none
  | some q, c => if c = q then none else some q

def quoteAfter (quote : Option Char) (cs : List Char) : Option Char := cs.foldl nextQuote quote

/-- What stands between the quote that is open before it and the `>` that closes the tag. No `>` in
it is outside quotes. -/
def Encloses (quote : Option Char) (content : List Char) : Prop :=
  quoteAfter quote content = none ∧
    ∀ a b, content = a ++ '>' :: b → quoteAfter quote a ≠ none

theorem cutTag_cons (quote : Option Char) (c : Char) (cs : List Char) :
    cutTag quote (c :: cs) =
      if quote = none ∧ c = '>' then some ([], cs)
      else (cutTag (nextQuote quote c) cs).map fun (body, tail) => (c :: body, tail) := by
  cases quote with
  | none =>
    by_cases hc : c = '>'
    · simp [cutTag, hc]
    · simp [cutTag, hc, nextQuote]
  | some q => simp [cutTag, nextQuote]

theorem encloses_nil (quote : Option Char) : Encloses quote [] ↔ quote = none := by
  simp [Encloses, quoteAfter]

theorem encloses_cons (quote : Option Char) (c : Char) (cs : List Char) :
    Encloses quote (c :: cs) ↔ ¬ (quote = none ∧ c = '>') ∧ Encloses (nextQuote quote c) cs := by
  constructor
  · rintro ⟨hend, hin⟩
    refine ⟨?_, hend, ?_⟩
    · rintro ⟨rfl, rfl⟩
      exact hin [] cs rfl rfl
    · rintro a b rfl
      exact hin (c :: a) b rfl
  · rintro ⟨hc, hend, hin⟩
    refine ⟨hend, ?_⟩
    intro a b he
    cases a with
    | nil =>
      rw [List.nil_append, List.cons.injEq] at he
      exact fun hq => hc ⟨hq, he.1⟩
    | cons d a =>
      rw [List.cons_append, List.cons.injEq] at he
      rw [he.1] at hin
      exact hin a b he.2

theorem cutTag_eq_some_iff {quote : Option Char} {cs content rest : List Char} :
    cutTag quote cs = some (content, rest) ↔
      cs = content ++ '>' :: rest ∧ Encloses quote content := by
  constructor
  · intro h
    refine ⟨(eq_of_cutTag h).symm, ?_⟩
    induction cs generalizing quote content with
    | nil => cases quote <;> simp [cutTag] at h
    | cons c cs ih =>
      rw [cutTag_cons] at h
      split at h
      · next hc =>
        simp only [Option.some.injEq, Prod.mk.injEq] at h
        rw [← h.1, encloses_nil]
        exact hc.1
      · next hc =>
        obtain ⟨⟨b, t⟩, hb, he⟩ := Option.map_eq_some_iff.1 h
        simp only [Prod.mk.injEq] at he
        obtain ⟨rfl, rfl⟩ := he
        exact (encloses_cons quote c b).2 ⟨hc, ih hb⟩
  · rintro ⟨rfl, he⟩
    induction content generalizing quote with
    | nil =>
      rw [encloses_nil] at he
      rw [List.nil_append, cutTag_cons, if_pos ⟨he, rfl⟩]
    | cons c content ih =>
      obtain ⟨hc, he⟩ := (encloses_cons quote c content).1 he
      rw [List.cons_append, cutTag_cons, if_neg hc, ih he]
      rfl

theorem cutBalanced_of_cutBalanced {depth : Nat} {cs body rest : List Char}
    (h : cutBalanced depth cs = some (body, rest)) (tail : List Char) :
    cutBalanced depth (body ++ '>' :: tail) = some (body, tail) := by
  induction cs generalizing depth body with
  | nil => simp [cutBalanced] at h
  | cons c cs ih =>
    have step {d : Nat} (h : ((cutBalanced d cs).map fun (b, t) => (c :: b, t)) =
        some (body, rest)) : ∃ b, body = c :: b ∧
          cutBalanced d (b ++ '>' :: tail) = some (b, tail) := by
      obtain ⟨⟨b, t⟩, hb, he⟩ := Option.map_eq_some_iff.1 h
      simp only [Prod.mk.injEq] at he
      obtain ⟨rfl, rfl⟩ := he
      exact ⟨b, rfl, ih hb⟩
    simp only [cutBalanced] at h
    split at h
    · next hlt =>
      obtain ⟨b, rfl, hb⟩ := step h
      simp [cutBalanced, hlt, hb]
    · next hlt =>
      split at h
      · next hgt =>
        split at h
        · simp only [Option.some.injEq, Prod.mk.injEq] at h
          simp [← h.1, cutBalanced]
        · obtain ⟨b, rfl, hb⟩ := step h
          simp [cutBalanced, hgt, hb]
      · next hgt =>
        obtain ⟨b, rfl, hb⟩ := step h
        simp [cutBalanced, hlt, hgt, hb]

inductive Item.Cut : List Char → Item → List Char → Prop where
  | run {text rest : List Char} (ne : text ≠ []) (plain : '<' ∉ text)
      (stop : ∀ c, rest.head? = some c → c = '<') : Cut (text ++ rest) (.run text) rest
  | tag {content rest : List Char} (enclosed : Encloses none content)
      (head : ∀ c, content.head? = some c → c ≠ '!' ∧ c ≠ '/' ∧ c ≠ '?') :
      Cut ('<' :: (content ++ '>' :: rest)) (.tag content) rest
  | close {content rest : List Char} (enclosed : Encloses none content) :
      Cut ('<' :: '/' :: (content ++ '>' :: rest)) (.close content) rest
  | verbatim {content rest : List Char} (free : ¬ "]]>".toList <:+: content) :
      Cut ('<' :: '!' :: (verbatimMark ++ (content ++ "]]>".toList ++ rest))) (.verbatim content)
        rest
  | comment {body rest : List Char} (free : ¬ "-->".toList <:+: body) :
      Cut ('<' :: '!' :: '-' :: '-' :: (body ++ "-->".toList ++ rest)) (.comment body) rest
  | instruction {body rest : List Char} (free : ¬ "?>".toList <:+: body)
      (head : body.head? ≠ some '>') :
      Cut ('<' :: '?' :: (body ++ "?>".toList ++ rest)) (.instruction body) rest
  | doctype {body rest : List Char} (balanced : cutBalanced 0 (body ++ '>' :: rest) =
      some (body, rest)) (head : body.head? = some 'D' ∨ body.head? = some 'd')
      (keyword : isDoctype body = true) (named : (body.drop 7).all isSpace = false) :
      Cut ('<' :: '!' :: (body ++ '>' :: rest)) (.doctype body) rest

theorem Item.cut_declaration {cs rest : List Char} {item : Item}
    (h : declaration cs = .ok (item, rest)) : Cut ('<' :: '!' :: cs) item rest := by
  unfold declaration at h
  split at h
  · split at h
    · split at h
      · next hb =>
        cases h
        have hf := not_infix_of_cutAt sharp_comment.unbordered hb
        rw [← eq_of_cutAt hb]
        exact .comment hf
      · cases h
    · cases h
  · next rest' =>
    split at h
    · next hp =>
      split at h
      · next hb =>
        cases h
        obtain ⟨t, ht⟩ := List.isPrefixOf_iff_prefix.1 hp
        rw [← ht, List.drop_left] at hb
        have hf := not_infix_of_cutAt sharp_verbatim.unbordered hb
        rw [← ht, ← eq_of_cutAt hb]
        exact .verbatim hf
      · cases h
    · cases h
  · split at h
    · next hd =>
      split at h
      · next body tail hb =>
        split at h
        · cases h
        · next hk =>
          split at h
          · cases h
          · next hn =>
            cases h
            have he := eq_of_cutBalanced hb
            subst he
            have hk : isDoctype body = true := by simpa using hk
            have hhead : (body ++ '>' :: rest).head? = body.head? := by
              cases body with
              | nil => exact absurd hk (by decide)
              | cons c body => rfl
            rw [hhead] at hd
            exact .doctype hb hd hk (by simpa using hn)
      · cases h
    · cases h

theorem notMem_takeWhile (cs : List Char) : '<' ∉ cs.takeWhile (· != '<') := by
  intro h
  have hall := List.all_eq_true.1 (List.all_takeWhile (p := (· != '<')) (l := cs)) _ h
  simp at hall

theorem eq_of_head?_dropWhile {cs : List Char} {c : Char}
    (h : (cs.dropWhile (· != '<')).head? = some c) : c = '<' := by
  have hd := List.head?_dropWhile_not (· != '<') cs
  rw [h] at hd
  simpa using hd

theorem Item.cut_next {c : Char} {cs rest : List Char} {item : Item}
    (h : next c cs = .ok (item, rest)) : Cut (c :: cs) item rest := by
  unfold next at h
  split at h
  · next hc =>
    subst hc
    unfold markup at h
    split at h
    · exact cut_declaration h
    · split at h
      · next hb =>
        cases h
        obtain ⟨rfl, he⟩ := cutTag_eq_some_iff.1 hb
        exact .close he
      · cases h
    · split at h
      · cases h
      · next hq =>
        split at h
        · next body tail hb =>
          cases h
          have hf := not_infix_of_cutAt sharp_instruction.unbordered hb
          have he := eq_of_cutAt hb
          subst he
          refine .instruction hf ?_
          intro hd
          apply hq
          cases body with
          | nil => simp at hd
          | cons d body => simpa using hd
        · cases h
    · next hbang hslash hquery =>
      split at h
      · next content tail hb =>
        cases h
        obtain ⟨rfl, he⟩ := cutTag_eq_some_iff.1 hb
        refine .tag he ?_
        intro d hd
        cases content with
        | nil => simp at hd
        | cons d' content =>
          obtain rfl : d' = d := by simpa using hd
          refine ⟨?_, ?_, ?_⟩
          · rintro rfl
            exact hbang _ rfl
          · rintro rfl
            exact hslash _ rfl
          · rintro rfl
            exact hquery _ rfl
      · cases h
  · next hc =>
    cases h
    have hcut := @Cut.run (c :: cs.takeWhile (· != '<')) (cs.dropWhile (· != '<')) (by simp)
    rw [List.cons_append, List.takeWhile_append_dropWhile] at hcut
    apply hcut
    · intro hm
      rcases List.mem_cons.1 hm with rfl | hm
      · exact hc rfl
      · exact notMem_takeWhile cs hm
    · exact fun _ => eq_of_head?_dropWhile

theorem Item.declaration_verbatim {cs content rest : List Char}
    (h : cutAt "]]>".toList cs = some (content, rest)) :
    declaration (verbatimMark ++ cs) = .ok (.verbatim content, rest) := by
  have he : verbatimMark ++ cs = '[' :: ("CDATA[".toList ++ cs) := rfl
  have hp : verbatimMark.isPrefixOf (verbatimMark ++ cs) = true :=
    List.isPrefixOf_iff_prefix.2 (List.prefix_append _ _)
  have hd : (verbatimMark ++ cs).drop verbatimMark.length = cs := List.drop_left
  rw [he] at hp hd ⊢
  rw [declaration, if_pos hp, hd, h]

theorem Item.declaration_doctype {cs body rest : List Char}
    (h : cutBalanced 0 cs = some (body, rest)) (head : cs.head? = some 'D' ∨ cs.head? = some 'd')
    (keyword : isDoctype body = true) (named : (body.drop 7).all isSpace = false) :
    declaration cs = .ok (.doctype body, rest) := by
  rw [declaration]
  · simp [head, h, keyword, named]
  · rintro ds rfl
    simp at head
  · rintro ds rfl
    simp at head

theorem Item.Cut.exists_next {text rest : List Char} {item : Item} (h : Cut text item rest) :
    ∃ c cs, text = c :: cs ∧ next c cs = .ok (item, rest) := by
  cases h with
  | @run text rest ne plain stop =>
    cases text with
    | nil => exact absurd rfl ne
    | cons c cs =>
      refine ⟨c, cs ++ rest, rfl, ?_⟩
      have hc : c ≠ '<' := fun e => plain (by simp [e])
      have hcs : ∀ d ∈ cs, (d != '<') = true := by
        intro d hd
        rw [bne_iff_ne]
        rintro rfl
        exact plain (by simp [hd])
      rw [next, if_neg hc, List.takeWhile_append_of_pos hcs, List.dropWhile_append_of_pos hcs]
      cases rest with
      | nil => simp
      | cons d rest =>
        obtain rfl := stop d rfl
        simp
  | @tag content rest enclosed head =>
    refine ⟨'<', _, rfl, ?_⟩
    rw [next, if_pos rfl, markup, cutTag_eq_some_iff.2 ⟨rfl, enclosed⟩]
    all_goals
      intro tail ht
      cases content with
      | nil => simp at ht
      | cons c content =>
        obtain ⟨hbang, hslash, hquery⟩ := head c rfl
        simp_all
  | close enclosed =>
    refine ⟨'<', _, rfl, ?_⟩
    rw [next, if_pos rfl, markup, cutTag_eq_some_iff.2 ⟨rfl, enclosed⟩]
  | verbatim free =>
    have hcut := cutAt_append sharp_verbatim.unbordered free rest
    refine ⟨'<', _, rfl, ?_⟩
    rw [next, if_pos rfl, markup, declaration_verbatim hcut]
  | comment free =>
    have hcut := cutAt_append sharp_comment.unbordered free rest
    refine ⟨'<', _, rfl, ?_⟩
    rw [next, if_pos rfl, markup, declaration, hcut]
  | @instruction body rest free head =>
    have hcut := cutAt_append sharp_instruction.unbordered free rest
    have hne : (body ++ "?>".toList ++ rest).head? ≠ some '>' := by
      cases body with
      | nil => simp
      | cons c body => simpa using head
    refine ⟨'<', _, rfl, ?_⟩
    rw [next, if_pos rfl, markup, if_neg hne, hcut]
  | @doctype body rest balanced head keyword named =>
    have hhead : (body ++ '>' :: rest).head? = body.head? := by
      cases body with
      | nil => simp at head
      | cons c body => rfl
    refine ⟨'<', _, rfl, ?_⟩
    rw [next, if_pos rfl, markup, declaration_doctype balanced (by rwa [hhead]) keyword named]

theorem Item.Cut.spelling_append {text rest : List Char} {item : Item} (h : Cut text item rest) :
    item.spelling ++ rest = text := by
  obtain ⟨c, cs, rfl, hn⟩ := h.exists_next
  exact spelling_next hn

theorem Item.Cut.spelling_ne_nil {text rest : List Char} {item : Item} (h : Cut text item rest) :
    item.spelling ≠ [] := by
  obtain ⟨c, cs, _, hn⟩ := h.exists_next
  exact Item.spelling_ne_nil hn

theorem Item.Cut.run_text {text run rest : List Char} (h : Cut text (.run run) rest) :
    run ≠ [] ∧ '<' ∉ run ∧ ∀ c, rest.head? = some c → c = '<' := by
  cases h with
  | run ne plain stop => exact ⟨ne, plain, stop⟩

theorem Item.Cut.tag_content {text content rest : List Char} (h : Cut text (.tag content) rest) :
    Encloses none content ∧ ∀ c, content.head? = some c → c ≠ '!' ∧ c ≠ '/' ∧ c ≠ '?' := by
  cases h with
  | tag enclosed head => exact ⟨enclosed, head⟩

theorem Item.Cut.verbatim_content {text content rest : List Char}
    (h : Cut text (.verbatim content) rest) : ¬ "]]>".toList <:+: content := by
  cases h with
  | verbatim free => exact free

theorem Item.Cut.of_markup {text rest : List Char} {item : Item} (h : Cut text item rest)
    (markup : ∀ run, item ≠ .run run) (tail : List Char) :
    Cut (item.spelling ++ tail) item tail := by
  cases h with
  | @run text rest ne plain stop => exact absurd rfl (markup text)
  | tag enclosed head => simpa [spelling] using Cut.tag enclosed head
  | close enclosed => simpa [spelling] using Cut.close enclosed
  | verbatim free => simpa [spelling] using Cut.verbatim free
  | comment free => simpa [spelling] using Cut.comment free
  | instruction free head => simpa [spelling] using Cut.instruction free head
  | doctype balanced head keyword named =>
    have hb := cutBalanced_of_cutBalanced balanced tail
    simpa [spelling] using Cut.doctype hb head keyword named

theorem Item.Cut.of_run {text rest run : List Char} (h : Cut text (.run run) rest)
    {tail : List Char} (stop : ∀ c, tail.head? = some c → c = '<') :
    Cut (run ++ tail) (.run run) tail :=
  .run h.run_text.1 h.run_text.2.1 stop

end XmlPipeline.Markup
