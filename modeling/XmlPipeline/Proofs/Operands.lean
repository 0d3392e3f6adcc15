import XmlPipeline.CommandLine.Command
set_option autoImplicit false

namespace XmlPipeline.CommandLine

def Dashed (arg : String) : Prop := arg.toList.head? = some '-'

instance (arg : String) : Decidable (Dashed arg) := inferInstanceAs (Decidable (_ = _))

namespace Given

def Awaits (g : Given) : Prop := ∃ opt, g.pending = some (opt, none)

/-- A step in which an option is given, or none is left unsettled. -/
structure Gives (g g' : Given) : Prop where
  idle : ¬ g.Awaits
  operand : g'.operand = g.operand

theorem exists_of_bind_eq_ok {x : Except Stop Given} {next : Given → Except Stop Given} {g : Given}
    (h : x.bind next = .ok g) : ∃ g₁, x = .ok g₁ ∧ next g₁ = .ok g := by
  cases x with
  | error stop => cases h
  | ok g₁ => exact ⟨g₁, rfl, h⟩

theorem not_awaits {g : Given} (h : g.pending = none) : ¬ g.Awaits := by
  rintro ⟨opt, hopt⟩
  rw [h] at hopt
  cases hopt

theorem store_ok {g g' : Given} {opt : Opt} {value : String} (h : g.store opt value = .ok g') :
    g'.operand = g.operand ∧ g'.pending = g.pending := by
  unfold store at h
  split at h
  · split at h
    · cases h
    split at h
    · cases h
    · cases h
      exact ⟨rfl, rfl⟩
  · cases h
    exact ⟨rfl, rfl⟩

theorem settle_ok {g g' : Given} (h : g.settle = .ok g') : Gives g g' ∧ g'.pending = none := by
  unfold settle at h
  split at h
  · next hpending =>
    cases h
    exact ⟨⟨not_awaits hpending, rfl⟩, hpending⟩
  · cases h
  · next opt value hpending =>
    obtain ⟨hoperand, hnone⟩ := store_ok h
    refine ⟨⟨?_, hoperand⟩, hnone⟩
    rintro ⟨other, hother⟩
    rw [hpending] at hother
    cases hother

theorem apply_ok {g g' : Given} {opt : Opt} (h : g.apply opt = .ok g') :
    Gives g g' ∧ g'.pending = none := by
  obtain ⟨g₁, hsettle, hg'⟩ := exists_of_bind_eq_ok h
  obtain ⟨hgives, hnone⟩ := settle_ok hsettle
  split at hg'
  · cases hg'
  · cases hg'
  · split at hg'
    · cases hg'
    · cases hg'
      exact ⟨⟨hgives.idle, hgives.operand⟩, hnone⟩

theorem await_ok {g g' : Given} {opt : Opt} {attached : Option String}
    (h : g.await opt attached = .ok g') : Gives g g' ∧ (g'.Awaits ↔ attached = none) := by
  obtain ⟨g₁, hsettle, hg'⟩ := exists_of_bind_eq_ok h
  obtain ⟨hgives, hnone⟩ := settle_ok hsettle
  cases attached with
  | none =>
    cases hg'
    exact ⟨⟨hgives.idle, hgives.operand⟩, by simp [Awaits]⟩
  | some value =>
    obtain ⟨hoperand, hpending⟩ := store_ok hg'
    exact ⟨⟨hgives.idle, hoperand.trans hgives.operand⟩,
      by simp [not_awaits (hpending.trans hnone)]⟩

variable {opts : List Opt} {g g' : Given}

theorem long_ok {text : List Char} (h : long opts g text = .ok g') : Gives g g' ∧
    (g'.Awaits → ∃ opt ∈ opts, takesValue opt = true ∧ text = opt.long.toList) := by
  unfold long at h
  extract_lets name attached at h
  cases hfind : opts.find? (·.long = String.ofList name) with
  | none =>
    rw [hfind] at h
    cases h
  | some opt =>
    simp only [hfind] at h
    split at h
    · next htakes =>
      obtain ⟨hgives, hawaits⟩ := await_ok h
      refine ⟨hgives, fun hg' => ⟨opt, List.mem_of_find?_eq_some hfind, htakes, ?_⟩⟩
      have hlong : opt.long = String.ofList name := by simpa using List.find?_some hfind
      have hlength : name.length = text.length := by
        have hnone : attached = none := hawaits.1 hg'
        exact Decidable.byContradiction fun hne => by simp [attached, hne] at hnone
      rw [hlong, String.toList_ofList]
      exact ((List.takeWhile_prefix _).eq_of_length hlength).symm
    · split at h
      · cases h
      · obtain ⟨hgives, hnone⟩ := apply_ok h
        exact ⟨hgives, fun hg' => absurd hg' (not_awaits hnone)⟩

theorem shorts_ok {cs : List Char} (h : shorts opts g cs = .ok g') : (cs = [] ∧ g' = g) ∨
    Gives g g' ∧ (g'.Awaits → ∃ opt ∈ opts, takesValue opt = true ∧ opt.short.isSome) := by
  induction cs generalizing g with
  | nil =>
    cases h
    exact .inl ⟨rfl, rfl⟩
  | cons c cs ih =>
    unfold shorts at h
    cases hfind : opts.find? (·.short = some c) with
    | none =>
      rw [hfind] at h
      cases h
    | some opt =>
      simp only [hfind] at h
      have hshort : opt.short = some c := by simpa using List.find?_some hfind
      right
      split at h
      · next htakes =>
        obtain ⟨hgives, _⟩ := await_ok h
        exact ⟨hgives, fun _ => ⟨opt, List.mem_of_find?_eq_some hfind, htakes, by simp [hshort]⟩⟩
      · obtain ⟨g₁, hg₁, hrest⟩ := exists_of_bind_eq_ok h
        obtain ⟨hgives, hnone⟩ := apply_ok hg₁
        rcases ih hrest with ⟨_, rfl⟩ | ⟨hgives', hawaits⟩
        · exact ⟨hgives, fun hg' => absurd hg' (not_awaits hnone)⟩
        · exact ⟨⟨hgives.idle, hgives'.operand.trans hgives.operand⟩, hawaits⟩

theorem option?_ok {arg : String} (h : option? opts g arg = some (.ok g')) :
    Gives g g' ∧ (g'.Awaits → ∃ opt ∈ opts, takesValue opt = true ∧
      (opt.short.isSome ∨ arg = "--" ++ opt.long)) := by
  unfold option? at h
  split at h
  · next c cs harg =>
    obtain ⟨hgives, hawaits⟩ := long_ok (Option.some.inj h)
    refine ⟨hgives, fun hg' => ?_⟩
    obtain ⟨opt, hopt, htakes, htext⟩ := hawaits hg'
    refine ⟨opt, hopt, htakes, .inr ?_⟩
    rw [← String.toList_inj, harg, htext, String.toList_append]
    rfl
  · rcases shorts_ok (Option.some.inj h) with ⟨hnil, _⟩ | ⟨hgives, hawaits⟩
    · cases hnil
    · refine ⟨hgives, fun hg' => ?_⟩
      obtain ⟨opt, hopt, htakes, hshort⟩ := hawaits hg'
      exact ⟨opt, hopt, htakes, .inl hshort⟩
  · cases h

theorem dashed_of_option? {arg : String} {result : Except Stop Given}
    (h : option? opts g arg = some result) : Dashed arg := by
  unfold option? at h
  rw [Dashed]
  split at h
  · next harg => simp [harg]
  · next harg => simp [harg]
  · cases h

theorem setOperand_ok {arg : String} (h : g.setOperand arg = .ok g') :
    ¬ g.Awaits ∧ g.operand = none ∧ g'.operand = some arg ∧ g'.pending = none := by
  unfold setOperand at h
  split at h
  · cases h
  · next hfree =>
    cases hsettle : g.settle with
    | error stop =>
      rw [hsettle] at h
      cases h
    | ok g₁ =>
      rw [hsettle] at h
      cases h
      obtain ⟨hgives, hnone⟩ := settle_ok hsettle
      exact ⟨hgives.idle, by simpa using hfree, rfl, hnone⟩

theorem operands_ok {args : List String} (h : operands g args = .ok g') :
    ¬ g.Awaits ∧ ((args = [] ∧ g'.operand = g.operand) ∨
      ∃ arg, args = [arg] ∧ g.operand = none ∧ g'.operand = some arg) := by
  induction args generalizing g with
  | nil =>
    obtain ⟨hgives, _⟩ := settle_ok h
    exact ⟨hgives.idle, .inl ⟨rfl, hgives.operand⟩⟩
  | cons arg rest ih =>
    obtain ⟨g₁, hset, hrest⟩ := exists_of_bind_eq_ok h
    obtain ⟨hidle, hnone, hsome, _⟩ := setOperand_ok hset
    refine ⟨hidle, .inr ⟨arg, ?_⟩⟩
    rcases (ih hrest).2 with ⟨rfl, hkept⟩ | ⟨_, _, hfree, _⟩
    · exact ⟨rfl, hnone, hkept.trans hsome⟩
    · rw [hsome] at hfree
      cases hfree

/-- What an argument can be to the reader, and how it goes on. -/
inductive Taken (opts : List Opt) (g g' : Given) (arg : String) (rest : List String) : Prop where
  | separator (isSeparator : arg = "--") (later : operands g rest = .ok g')
  | option {next : Given} (given : option? opts g arg = some (.ok next))
      (later : read opts next rest = .ok g')
  | value {opt : Opt} (isValue : option? opts g arg = none) (awaited : g.pending = some (opt, none))
      (later : read opts { g with pending := some (opt, some arg) } rest = .ok g')
  | operand {next : Given} (isOperand : option? opts g arg = none) (idle : ¬ g.Awaits)
      (set : g.setOperand arg = .ok next) (later : read opts next rest = .ok g')

theorem taken_of_read {arg : String} {rest : List String}
    (h : read opts g (arg :: rest) = .ok g') : Taken opts g g' arg rest := by
  unfold read at h
  split at h
  · next harg => exact .separator harg h
  split at h
  · next result hopt =>
    obtain ⟨next, rfl, hlater⟩ := exists_of_bind_eq_ok h
    exact .option hopt hlater
  · next hopt hpending => exact .value hopt hpending h
  · next hopt hidle =>
    obtain ⟨next, hset, hlater⟩ := exists_of_bind_eq_ok h
    exact .operand hopt (fun ⟨opt, hpending⟩ => hidle opt hpending) hset hlater

theorem operand_of_read {args : List String} {word : String} (h : read opts g args = .ok g')
    (hword : g.operand = some word) : g'.operand = some word := by
  induction args generalizing g with
  | nil => rw [(settle_ok h).1.operand, hword]
  | cons arg rest ih =>
    cases taken_of_read h with
    | separator _ later =>
      rcases (operands_ok later).2 with ⟨_, hkept⟩ | ⟨_, _, hfree, _⟩
      · exact hkept.trans hword
      · rw [hword] at hfree
        cases hfree
    | option given later => exact ih later ((option?_ok given).1.operand.trans hword)
    | value _ _ later => exact ih later hword
    | operand _ _ set _ =>
      rw [(setOperand_ok set).2.1] at hword
      cases hword

end Given

end XmlPipeline.CommandLine
