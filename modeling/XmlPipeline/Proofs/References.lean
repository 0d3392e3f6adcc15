import XmlPipeline.Markup.Reference
set_option autoImplicit false

namespace XmlPipeline.Markup

theorem resolveFrom_reference {offset : Nat} {rest body tail : List Char} {c : Char}
    (hc : cutReference rest = some (body, tail)) (hr : referent offset body = .ok c) :
    resolveFrom offset ('&' :: rest) =
      (resolveFrom (offset + Text.size body + 2) tail).map (c :: ·) := by
  rw [resolveFrom, if_pos rfl]
  split
  · next h => simp [hc] at h
  · next body' tail' h =>
    rw [hc] at h
    cases h
    rw [hr]
    rfl

theorem resolveFrom_of_ne {c : Char} (h : c ≠ '&') (offset : Nat) (rest : List Char) :
    resolveFrom offset (c :: rest) = (resolveFrom (offset + c.utf8Size) rest).map (c :: ·) := by
  rw [resolveFrom, if_neg h]

theorem cutReference_eq_some_iff {cs body tail : List Char} :
    cutReference cs = some (body, tail) ↔ cs = body ++ ';' :: tail ∧ ';' ∉ body ∧ '&' ∉ body := by
  constructor
  · intro h
    refine ⟨(eq_of_cutReference h).symm, ?_⟩
    induction cs generalizing body with
    | nil => cases h
    | cons c cs ih =>
      rw [cutReference] at h
      split at h
      · cases h
        simp
      · next hsemi =>
        split at h
        · cases h
        · next hamp =>
          obtain ⟨⟨b, t⟩, hb, he⟩ := Option.map_eq_some_iff.1 h
          simp only [Prod.mk.injEq] at he
          obtain ⟨rfl, rfl⟩ := he
          have hin := ih hb
          simp [Ne.symm hsemi, Ne.symm hamp, hin]
  · rintro ⟨rfl, hsemi, hamp⟩
    induction body with
    | nil => simp [cutReference]
    | cons c body ih =>
      simp only [List.mem_cons, not_or] at hsemi hamp
      rw [List.cons_append, cutReference, if_neg (Ne.symm hsemi.1), if_neg (Ne.symm hamp.1),
        ih hsemi.2 hamp.2]
      rfl

/-- What a text stands for, character by character and reference by reference. -/
inductive Denotes : List Char → List Char → Prop where
  | nil : Denotes [] []
  | plain {c : Char} {cs ds : List Char} (h : c ≠ '&') (later : Denotes cs ds) :
      Denotes (c :: cs) (c :: ds)
  | reference {body cs ds : List Char} {c : Char} (semi : ';' ∉ body) (amp : '&' ∉ body)
      (named : ∀ offset, referent offset body = .ok c) (later : Denotes cs ds) :
      Denotes ('&' :: (body ++ ';' :: cs)) (c :: ds)

theorem referent_of_ok {offset : Nat} {body : List Char} {c : Char}
    (h : referent offset body = .ok c) (offset' : Nat) : referent offset' body = .ok c := by
  unfold referent at h ⊢
  split
  · exact h
  · split
    · next d hd => simpa [hd] using h
    · next hd => simp [hd] at h

theorem denotes_of_resolveFrom {offset : Nat} {cs ds : List Char}
    (h : resolveFrom offset cs = .ok ds) : Denotes cs ds := by
  fun_induction resolveFrom offset cs generalizing ds with
  | case1 =>
    cases h
    exact .nil
  | case2 => cases h
  | case3 offset rest body tail hc _ ih =>
    cases hr : referent offset body with
    | error fault => simp [hr, Except.bind] at h
    | ok c =>
      cases ht : resolveFrom (offset + Text.size body + 2) tail with
      | error fault => simp [hr, ht, Except.bind, Except.map] at h
      | ok es =>
        simp only [hr, ht, Except.bind, Except.map, Except.ok.injEq] at h
        subst h
        obtain ⟨rfl, semi, amp⟩ := cutReference_eq_some_iff.1 hc
        exact .reference semi amp (referent_of_ok hr) (ih ht)
  | case4 offset c rest hc ih =>
    cases hr : resolveFrom (offset + c.utf8Size) rest with
    | error fault => simp [hr, Except.map] at h
    | ok es =>
      simp only [hr, Except.map, Except.ok.injEq] at h
      subst h
      exact .plain hc (ih hr)

theorem Denotes.resolveFrom {cs ds : List Char} (h : Denotes cs ds) (offset : Nat) :
    resolveFrom offset cs = .ok ds := by
  induction h generalizing offset with
  | nil => rw [Markup.resolveFrom]
  | plain hc _ ih => rw [resolveFrom_of_ne hc, ih, Except.map]
  | @reference body rest ds c semi amp named _ ih =>
    have hcut : cutReference (body ++ ';' :: rest) = some (body, rest) :=
      cutReference_eq_some_iff.2 ⟨rfl, semi, amp⟩
    rw [resolveFrom_reference hcut (named offset), ih, Except.map]

theorem resolve_eq_ok_iff {run content : String} :
    resolve run = .ok content ↔ Denotes run.toList content.toList := by
  rw [resolve]
  constructor
  · intro h
    cases hr : Markup.resolveFrom 0 run.toList with
    | error fault => simp [hr, Except.map] at h
    | ok ds =>
      simp only [hr, Except.map, Except.ok.injEq] at h
      rw [← h, String.toList_ofList]
      exact denotes_of_resolveFrom hr
  · intro h
    rw [h.resolveFrom, Except.map, String.ofList_toList]

theorem Denotes.append {a b as bs : List Char} (ha : Denotes a as) (hb : Denotes b bs) :
    Denotes (a ++ b) (as ++ bs) := by
  induction ha with
  | nil => exact hb
  | plain h _ ih => exact .plain h ih
  | reference semi amp named _ ih =>
    rw [List.cons_append, List.append_assoc]
    exact .reference semi amp named ih

theorem denotes_self {cs : List Char} (h : '&' ∉ cs) : Denotes cs cs := by
  induction cs with
  | nil => exact .nil
  | cons c cs ih =>
    simp only [List.mem_cons, not_or] at h
    exact .plain (Ne.symm h.1) (ih h.2)

/-- Each reference that is begun in a text is ended in it. -/
def ClosedReferences (cs : List Char) : Prop := ∀ a b, cs = a ++ '&' :: b → ';' ∈ b

theorem ClosedReferences.of_append {a b : List Char} (h : ClosedReferences (a ++ b)) :
    ClosedReferences b := by
  rintro x y rfl
  exact h (a ++ x) y (by rw [List.append_assoc])

theorem Denotes.exists_of_append {a b cs : List Char} (h : Denotes (a ++ b) cs)
    (closed : ClosedReferences a) :
    ∃ as bs, Denotes a as ∧ Denotes b bs ∧ cs = as ++ bs := by
  generalize hab : a ++ b = whole at h
  induction h generalizing a with
  | nil =>
    obtain ⟨rfl, rfl⟩ := List.append_eq_nil_iff.1 hab
    exact ⟨[], [], .nil, .nil, rfl⟩
  | @plain c rest ds hc later ih =>
    cases a with
    | nil =>
      rw [List.nil_append] at hab
      exact ⟨[], c :: ds, .nil, hab ▸ .plain hc later, rfl⟩
    | cons d a =>
      rw [List.cons_append, List.cons.injEq] at hab
      obtain ⟨rfl, hab⟩ := hab
      have hclosed : ClosedReferences ([d] ++ a) := closed
      obtain ⟨as, bs, ha, hb, rfl⟩ := ih hclosed.of_append hab
      exact ⟨d :: as, bs, .plain hc ha, hb, rfl⟩
  | @reference body rest ds c semi amp named later ih =>
    cases a with
    | nil =>
      rw [List.nil_append] at hab
      exact ⟨[], c :: ds, .nil, hab ▸ .reference semi amp named later, rfl⟩
    | cons d a =>
      rw [List.cons_append, List.cons.injEq] at hab
      obtain ⟨rfl, hab⟩ := hab
      have hin : ';' ∈ a := closed [] a rfl
      rcases List.append_eq_append_iff.1 hab with ⟨m, hbody, _⟩ | ⟨m, rfl, hrest⟩
      · exact absurd (by rw [hbody]; exact List.mem_append_left m hin) semi
      · cases m with
        | nil => exact absurd (by simpa using hin) semi
        | cons e m =>
          rw [List.cons_append, List.cons.injEq] at hrest
          obtain ⟨rfl, hrest⟩ := hrest
          have hclosed : ClosedReferences (('&' :: body ++ [';']) ++ m) := by simpa using closed
          obtain ⟨as, bs, ha, hb, rfl⟩ := ih hclosed.of_append hrest.symm
          exact ⟨c :: as, bs, .reference semi amp named ha, hb, rfl⟩

theorem Denotes.exists_of_parts {left right content : List Char}
    (h : Denotes (left ++ right) content) (closed : right = [] ∨ ClosedReferences left) :
    ∃ as bs, Denotes left as ∧ Denotes right bs ∧ content = as ++ bs := by
  rcases closed with rfl | closed
  · rw [List.append_nil] at h
    exact ⟨content, [], h, .nil, (List.append_nil content).symm⟩
  · exact h.exists_of_append closed

end XmlPipeline.Markup
