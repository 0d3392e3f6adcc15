import XmlPipeline.CommandLine.Invocation
set_option autoImplicit false

namespace XmlPipeline.CommandLine

namespace Given

def flagged (g : Given) (name : String) : Given := { g with flags := g.flags ++ [name] }

/-- A step that drops no flag, and to which a flag makes no difference unless it is given again. -/
def Adds (step : Given → Except Stop Given) : Prop :=
  ∀ g g', step g = .ok g' → g.flags ⊆ g'.flags ∧
    ∀ name, name ∉ g'.flags → step (g.flagged name) = .ok (g'.flagged name)

theorem Adds.bind {first next : Given → Except Stop Given} (h : Adds first) (h' : Adds next) :
    Adds fun g => (first g).bind next := by
  intro g g' hrun
  cases hg : first g with
  | error stop => simp [hg, Except.bind] at hrun
  | ok g₁ =>
    simp only [hg, Except.bind] at hrun
    obtain ⟨hsub, hfirst⟩ := h g g₁ hg
    obtain ⟨hsub', hnext⟩ := h' g₁ g' hrun
    refine ⟨List.Subset.trans hsub hsub', fun name hname => ?_⟩
    simp only [hfirst name fun hin => hname (hsub' hin), Except.bind]
    exact hnext name hname

theorem adds_error (stop : Stop) : Adds fun _ => .error stop := by
  intro g g' h
  cases h

theorem adds_ok {f : Given → Given} (hkeep : ∀ g, (f g).flags = g.flags)
    (hmap : ∀ g name, f (g.flagged name) = (f g).flagged name) : Adds fun g => .ok (f g) := by
  intro g g' h
  cases h
  exact ⟨(hkeep g).symm ▸ List.Subset.refl _, fun name _ => congrArg Except.ok (hmap g name)⟩

/-- A step may look at anything but the flags. -/
theorem Adds.of_view {α : Type} (view : Given → α)
    (hview : ∀ g name, view (g.flagged name) = view g) {step : α → Given → Except Stop Given}
    (h : ∀ a, Adds (step a)) : Adds fun g => step (view g) g := by
  intro g g' hrun
  obtain ⟨hsub, hstep⟩ := h (view g) g g' hrun
  refine ⟨hsub, fun name hname => ?_⟩
  simp only [hview]
  exact hstep name hname

theorem Adds.ite {p : Given → Prop} [DecidablePred p]
    (hp : ∀ g name, p (g.flagged name) ↔ p g) {a b : Given → Except Stop Given} (ha : Adds a)
    (hb : Adds b) : Adds fun g => if p g then a g else b g := by
  have hstep (holds : Bool) : Adds fun g => if holds then a g else b g := by
    cases holds
    · exact hb
    · exact ha
  have hite := Adds.of_view (fun g => decide (p g)) (fun g name => decide_eq_decide.2 (hp g name))
    hstep
  simpa only [decide_eq_true_eq] using hite

theorem adds_store (opt : Opt) (value : String) : Adds fun g => g.store opt value := by
  have hstored : Adds fun g : Given => .ok { g with values := g.values ++ [(opt.long, value)] } :=
    adds_ok (fun _ => rfl) fun _ _ => rfl
  simp only [store]
  cases opt.use with
  | single mayBeEmpty =>
    exact .ite (fun _ _ => Iff.rfl) (adds_error _) <|
      .ite (fun _ _ => Iff.rfl) (adds_error _) hstored
  | flag => exact hstored
  | many => exact hstored
  | help topic => exact hstored
  | version => exact hstored

theorem adds_setPending (pending : Option (Opt × Option String)) :
    Adds fun g => .ok { g with pending } :=
  adds_ok (fun _ => rfl) fun _ _ => rfl

theorem adds_settle : Adds settle := by
  have hpending (pending : Option (Opt × Option String)) :
      Adds fun g => settle { g with pending } := by
    cases pending with
    | none => exact adds_setPending none
    | some last =>
      obtain ⟨opt, _ | value⟩ := last
      · exact adds_error _
      · exact (adds_setPending none).bind (adds_store opt value)
  exact .of_view (·.pending) (fun _ _ => rfl) hpending

theorem adds_give (name : String) : Adds fun g =>
    if name ∈ g.flags then misuse .repeated else .ok { g with flags := name :: g.flags } := by
  intro g g' h
  by_cases hin : name ∈ g.flags
  · simp [hin, misuse] at h
  · simp only [hin, if_false, Except.ok.injEq] at h
    subst h
    refine ⟨List.subset_cons_self _ _, fun other hother => ?_⟩
    have hne : name ≠ other := fun he => hother (by simp [he])
    simp [flagged, hin, hne]

theorem adds_apply (opt : Opt) : Adds fun g => g.apply opt := by
  refine adds_settle.bind ?_
  cases opt.use with
  | help topic => exact adds_error _
  | version => exact adds_error _
  | flag => exact adds_give opt.long
  | single mayBeEmpty => exact adds_give opt.long
  | many => exact adds_give opt.long

theorem adds_await (opt : Opt) (attached : Option String) : Adds fun g => g.await opt attached := by
  refine adds_settle.bind ?_
  cases attached with
  | some value => exact adds_store opt value
  | none => exact adds_setPending (some (opt, none))

theorem adds_long (opts : List Opt) (text : List Char) : Adds fun g => long opts g text := by
  simp only [long]
  cases opts.find? (·.long = String.ofList (text.takeWhile (· ≠ '='))) with
  | none => exact adds_error _
  | some opt =>
    exact .ite (fun _ _ => Iff.rfl) (adds_await opt _) <|
      .ite (fun _ _ => Iff.rfl) (adds_error _) (adds_apply opt)

theorem adds_shorts (opts : List Opt) (cs : List Char) : Adds fun g => shorts opts g cs := by
  induction cs with
  | nil => exact adds_ok (fun _ => rfl) fun _ _ => rfl
  | cons c cs ih =>
    simp only [shorts]
    cases opts.find? (·.short = some c) with
    | none => exact adds_error _
    | some opt => exact .ite (fun _ _ => Iff.rfl) (adds_await opt _) ((adds_apply opt).bind ih)

theorem adds_setOperand (arg : String) : Adds fun g => g.setOperand arg := by
  have hset : Adds fun g : Given => .ok { g with operand := some arg } :=
    adds_ok (fun _ => rfl) fun _ _ => rfl
  exact .ite (fun _ _ => Iff.rfl) (adds_error _) (adds_settle.bind hset)

theorem adds_operands (args : List String) : Adds fun g => operands g args := by
  induction args with
  | nil => exact adds_settle
  | cons arg rest ih => exact (adds_setOperand arg).bind ih

theorem option?_cases (opts : List Opt) (arg : String) :
    (∃ step, Adds step ∧ ∀ g, option? opts g arg = some (step g)) ∨
      ∀ g, option? opts g arg = none := by
  simp only [option?]
  split
  · next c cs _ => exact .inl ⟨_, adds_long opts (c :: cs), fun _ => rfl⟩
  · next c cs _ _ => exact .inl ⟨_, adds_shorts opts (c :: cs), fun _ => rfl⟩
  · exact .inr fun _ => rfl

theorem adds_read (opts : List Opt) (args : List String) : Adds fun g => read opts g args := by
  induction args with
  | nil => exact adds_settle
  | cons arg rest ih =>
    by_cases harg : arg = "--"
    · simp only [read, harg, if_true]
      exact adds_operands rest
    · obtain ⟨step, hstep, hopt⟩ | hopt := option?_cases opts arg
      · simp only [read, harg, if_false, hopt]
        exact hstep.bind ih
      · have hoperand : Adds fun g => (g.setOperand arg).bind fun g => read opts g rest :=
          (adds_setOperand arg).bind ih
        -- An argument may be the value that the last option waits for.
        have hpending (pending : Option (Opt × Option String)) :
            Adds fun g => read opts { g with pending } (arg :: rest) := by
          simp only [read, harg, if_false, hopt]
          cases pending with
          | none => exact (adds_setPending none).bind hoperand
          | some last =>
            obtain ⟨opt, _ | value⟩ := last
            · exact (adds_setPending (some (opt, some arg))).bind ih
            · exact (adds_setPending (some (opt, some value))).bind hoperand
        exact .of_view (·.pending) (fun _ _ => rfl) hpending

end Given

def RunOptions.quieted (o : RunOptions) : RunOptions := { o with quiet := true }

theorem readRun_quiet {noColor : Bool} {args : List String} {o : RunOptions}
    (h : readRun noColor args = .ok (.run o)) (loud : o.quiet = false) :
    readRun noColor ("--quiet" :: args) = .ok (.run o.quieted) := by
  rw [readRun] at h ⊢
  cases hg : Given.read runOptions {} args with
  | error stop => simp [hg, Except.bind] at h
  | ok g =>
    have hfront : Given.read runOptions {} ("--quiet" :: args) =
        Given.read runOptions (Given.flagged {} "quiet") args := by
      rfl
    cases hoperand : g.operand with
    | none => simp [hg, Except.bind, hoperand] at h
    | some file =>
      simp only [hg, Except.bind, hoperand, Except.ok.injEq, Command.run.injEq] at h
      subst h
      have hquiet : "quiet" ∉ g.flags := by simpa using loud
      obtain ⟨_, hread⟩ := Given.adds_read runOptions args {} g hg
      have hread : Given.read runOptions (Given.flagged {} "quiet") args =
          .ok (g.flagged "quiet") := hread "quiet" hquiet
      rw [hfront, hread]
      simp [RunOptions.quieted, Except.bind, Given.flagged, hoperand, Given.valuesOf]

/-- A run is made quiet by one more argument. -/
theorem readArguments_quiet {name : String} {args : List String} {o : RunOptions}
    (h : readArguments (expandShorthand (name :: "run" :: args)) = .ok (.run o))
    (loud : o.quiet = false) :
    readArguments (expandShorthand (name :: "run" :: "--quiet" :: args)) =
      .ok (.run o.quieted) := by
  have hexpand (rest : List String) :
      expandShorthand (name :: "run" :: rest) = name :: "run" :: rest := by
    cases rest <;> simp [expandShorthand, firstOperand?, valueOptions, commandNames]
  have hread (rest : List String) :
      readArguments (name :: "run" :: rest) = readRun false rest := by
    simp [readArguments, readProgram]
  rw [hexpand, hread] at h ⊢
  exact readRun_quiet h loud

end XmlPipeline.CommandLine
