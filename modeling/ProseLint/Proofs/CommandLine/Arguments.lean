import Mathlib.Tactic
import ProseLint.CommandLine

/-!
# Leaving out an argument

The arguments are read from the left, and `Collects` has one case for each way in which the next of
them can stand. An input can be left out without a change to the options, and so can the option
without a value; no other argument is then read in another way.
-/
namespace ProseLint.CommandLine

theorem eq_of_piece?_value {t v : Text} (h : piece? t = some (.value v)) : v = t := by
  unfold piece? at h
  split at h
  · simpa using h.symm
  · simp at h
  · simp only [Option.map_eq_some_iff, reduceCtorEq, and_false, exists_false] at h
  · simp only [Option.map_eq_some_iff, reduceCtorEq, and_false, exists_false] at h
  · simpa using h.symm

/-- The arguments, read from the left, give some options with their values and some inputs. -/
inductive Collects : List Text → List (Flag × Text) → List Text → Prop
  | nil : Collects [] [] []
  | separator {t : Text} {ts : List Text} (ht : piece? t = some .separator) :
      Collects (t :: ts) [] ts
  | input {t : Text} {ts : List Text} {given : List (Flag × Text)} {inputs : List Text}
      (ht : piece? t = some (.value t)) (h : Collects ts given inputs) :
      Collects (t :: ts) given (t :: inputs)
  | parallel {t : Text} {ts : List Text} {given : List (Flag × Text)} {inputs : List Text}
      (ht : piece? t = some (.flag .parallel none)) (h : Collects ts given inputs) :
      Collects (t :: ts) ((.parallel, []) :: given) inputs
  | joined {t v : Text} {f : Flag} {ts : List Text} {given : List (Flag × Text)}
      {inputs : List Text} (hf : f ≠ .parallel) (ht : piece? t = some (.flag f (some v)))
      (h : Collects ts given inputs) : Collects (t :: ts) ((f, v) :: given) inputs
  | apart {t v : Text} {f : Flag} {ts : List Text} {given : List (Flag × Text)} {inputs : List Text}
      (hf : f ≠ .parallel) (ht : piece? t = some (.flag f none)) (hv : piece? v = some (.value v))
      (h : Collects ts given inputs) : Collects (t :: v :: ts) ((f, v) :: given) inputs

section

variable {raw : List Text} {given : List (Flag × Text)} {inputs : List Text}

theorem collects_of_collect? (h : collect? raw = some (given, inputs)) :
    Collects raw given inputs := by
  induction raw using collect?.induct generalizing given inputs with
  | case1 =>
    cases h
    exact .nil
  | case2 t ts ht => simp [collect?, ht] at h
  | case3 t ts ht =>
    simp only [collect?, ht, Option.some.injEq, Prod.mk.injEq] at h
    obtain ⟨rfl, rfl⟩ := h
    exact .separator ht
  | case4 t ts v ht ih =>
    obtain rfl := eq_of_piece?_value ht
    simp only [collect?, ht, Option.map_eq_some_iff, Prod.mk.injEq] at h
    obtain ⟨r, hr, rfl, rfl⟩ := h
    exact .input ht (ih hr)
  | case5 t ts value ht hvalue => simp [collect?, ht, hvalue] at h
  | case6 t ts value ht hvalue ih =>
    obtain rfl : value = none := by simpa using hvalue
    simp only [collect?, ht, Option.isSome_none, Bool.false_eq_true, if_false,
      Option.map_eq_some_iff, Prod.mk.injEq] at h
    obtain ⟨r, hr, rfl, rfl⟩ := h
    exact .parallel ht (ih hr)
  | case7 t ts f v hf ht ih =>
    simp only [collect?, ht, Option.map_eq_some_iff, Prod.mk.injEq] at h
    obtain ⟨r, hr, rfl, rfl⟩ := h
    exact .joined hf ht (ih hr)
  | case8 t f hf ht => simp [collect?, ht] at h
  | case9 t f hf ht v ts hv ih =>
    simp only [collect?, ht, hv, if_true, Option.map_eq_some_iff, Prod.mk.injEq] at h
    obtain ⟨r, hr, rfl, rfl⟩ := h
    exact .apart hf ht hv (ih hr)
  | case10 t f hf ht v ts hv => simp [collect?, ht, hv] at h

theorem Collects.collect?_eq (h : Collects raw given inputs) :
    collect? raw = some (given, inputs) := by
  induction h with
  | nil => rfl
  | separator ht => simp [collect?, ht]
  | input ht _ ih => simp [collect?, ht, ih]
  | parallel ht _ ih => simp [collect?, ht, ih]
  | joined hf ht _ ih => simp [collect?, ht, ih]
  | apart hf ht hv _ ih => simp [collect?, ht, hv, ih]

theorem collect?_eq_some_iff : collect? raw = some (given, inputs) ↔ Collects raw given inputs :=
  ⟨collects_of_collect?, Collects.collect?_eq⟩

/-- An input is one of the arguments, and without it the others are read as before. -/
theorem Collects.remove_input {before after : List Text} {path : Text}
    (h : Collects raw given inputs) (hinputs : inputs = before ++ path :: after) :
    ∃ x y, raw = x ++ path :: y ∧ Collects (x ++ y) given (before ++ after) := by
  induction h generalizing before with
  | nil => simp at hinputs
  | @separator t ts ht => exact ⟨t :: before, after, by rw [hinputs]; rfl, .separator ht⟩
  | @input t ts given inputs ht h ih =>
    cases before with
    | nil =>
      obtain ⟨rfl, rfl⟩ := List.cons.inj hinputs
      exact ⟨[], ts, rfl, h⟩
    | cons first before =>
      obtain ⟨rfl, hrest⟩ := List.cons.inj hinputs
      obtain ⟨x, y, rfl, hxy⟩ := ih hrest
      exact ⟨t :: x, y, rfl, .input ht hxy⟩
  | @parallel t ts given inputs ht h ih =>
    obtain ⟨x, y, rfl, hxy⟩ := ih hinputs
    exact ⟨t :: x, y, rfl, .parallel ht hxy⟩
  | @joined t v f ts given inputs hf ht h ih =>
    obtain ⟨x, y, rfl, hxy⟩ := ih hinputs
    exact ⟨t :: x, y, rfl, .joined hf ht hxy⟩
  | @apart t v f ts given inputs hf ht hv h ih =>
    obtain ⟨x, y, rfl, hxy⟩ := ih hinputs
    exact ⟨t :: v :: x, y, rfl, .apart hf ht hv hxy⟩

end

def parallelOption : Text := "--parallel".toList

theorem piece?_parallelOption : piece? parallelOption = some (.flag .parallel none) := by decide

theorem eq_of_ofLong?_parallel {name : Text} (h : Flag.ofLong? name = some .parallel) :
    name = "parallel".toList := by
  by_contra hname
  unfold Flag.ofLong? at h
  split_ifs at h <;> cases h

theorem ofShort?_ne_parallel (c : Char) : Flag.ofShort? c ≠ some .parallel := by
  unfold Flag.ofShort?
  split_ifs <;> simp

/-- Only the one long name stands for the option. -/
theorem eq_parallelOption {t : Text} (h : piece? t = some (.flag .parallel none)) :
    t = parallelOption := by
  unfold piece? at h
  split at h
  case h_1 => cases h
  case h_2 => cases h
  case h_3 rest _ =>
    obtain ⟨f, hf, hpiece⟩ := Option.map_eq_some_iff.mp h
    obtain ⟨rfl, hvalue⟩ := Piece.flag.inj hpiece
    have hname : rest.takeWhile (· != '=') = "parallel".toList := eq_of_ofLong?_parallel hf
    have hrest : rest = rest.takeWhile (· != '=') := by
      refine ((List.takeWhile_prefix _).eq_of_length_le ?_).symm
      split at hvalue
      · cases hvalue
      · next hdrop => exact List.drop_eq_nil_iff.mp hdrop
    rw [hrest, hname]
    rfl
  case h_4 c rest _ _ =>
    obtain ⟨f, hf, hpiece⟩ := Option.map_eq_some_iff.mp h
    obtain ⟨rfl, -⟩ := Piece.flag.inj hpiece
    exact absurd hf (ofShort?_ne_parallel c)
  case h_5 => cases h

theorem Collects.remove_parallel {raw : List Text} {given given' : List (Flag × Text)}
    {inputs : List Text} {v : Text} (h : Collects raw (given ++ (.parallel, v) :: given') inputs) :
    ∃ x y, raw = x ++ parallelOption :: y ∧ Collects (x ++ y) (given ++ given') inputs := by
  generalize hall : given ++ (.parallel, v) :: given' = all at h
  induction h generalizing given with
  | nil => simp at hall
  | separator ht => simp at hall
  | @input t ts all inputs ht h ih =>
    obtain ⟨x, y, rfl, hxy⟩ := ih hall
    exact ⟨t :: x, y, rfl, .input ht hxy⟩
  | @parallel t ts all inputs ht h ih =>
    cases given with
    | nil =>
      obtain ⟨-, rfl⟩ := List.cons.inj hall
      exact ⟨[], ts, by rw [eq_parallelOption ht]; rfl, h⟩
    | cons first given =>
      obtain ⟨rfl, hrest⟩ := List.cons.inj hall
      obtain ⟨x, y, rfl, hxy⟩ := ih hrest
      exact ⟨t :: x, y, rfl, .parallel ht hxy⟩
  | @joined t w f ts all inputs hf ht h ih =>
    cases given with
    | nil =>
      obtain ⟨hhead, -⟩ := List.cons.inj hall
      exact absurd (Prod.mk.inj hhead).1.symm hf
    | cons first given =>
      obtain ⟨rfl, hrest⟩ := List.cons.inj hall
      obtain ⟨x, y, rfl, hxy⟩ := ih hrest
      exact ⟨t :: x, y, rfl, .joined hf ht hxy⟩
  | @apart t w f ts all inputs hf ht hw h ih =>
    cases given with
    | nil =>
      obtain ⟨hhead, -⟩ := List.cons.inj hall
      exact absurd (Prod.mk.inj hhead).1.symm hf
    | cons first given =>
      obtain ⟨rfl, hrest⟩ := List.cons.inj hall
      obtain ⟨x, y, rfl, hxy⟩ := ih hrest
      exact ⟨t :: w :: x, y, rfl, .apart hf ht hw hxy⟩

/-- What the options and inputs say of a run. -/
structure Arguments.Given (args : Arguments) (given : List (Flag × Text)) : Prop where
  configuration : option? given .configuration nonempty? = some (some args.configuration)
  characterTable : option? given .characterTable nonempty? = some args.characterTable
  format : option? given .format (fun t => (InputFormat.ofName t).toOption) = some args.format
  resultFormat : ∃ format, option? given .resultFormat
    (fun t => (Report.Format.ofName t).toOption) = some format ∧
      args.resultFormat = format.getD .plain
  terminators : option? given .terminators some = some args.terminators
  parallel : args.parallel = (given.lookup .parallel).isSome
  nodup : (given.map (·.1)).Nodup
  inputs : args.inputs ≠ [] ∧ [] ∉ args.inputs

theorem rightly_used_iff (given : List (Flag × Text)) (inputs : List Text) :
    ¬ (inputs.isEmpty || inputs.any List.isEmpty || !decide (given.map (·.1)).Nodup) = true ↔
      (inputs ≠ [] ∧ [] ∉ inputs) ∧ (given.map (·.1)).Nodup := by
  have hany : inputs.any List.isEmpty = true ↔ [] ∈ inputs := by simp
  simp only [Bool.or_eq_true, hany, not_or, List.isEmpty_iff, Bool.not_eq_true',
    decide_eq_false_iff_not, not_not, ne_eq]

theorem parse?_eq_some_iff {raw : List Text} {args : Arguments} :
    parse? raw = some args ↔ ∃ given, Collects raw given args.inputs ∧ args.Given given := by
  unfold parse?
  simp only [Option.bind_eq_bind, Option.bind_eq_some_iff, ← collect?_eq_some_iff]
  constructor
  · rintro ⟨⟨given, inputs⟩, hcollect, _, hconfiguration, configuration, rfl, table, htable,
      format, hformat, resultFormat, hresult, terminators, hterminators, h⟩
    obtain ⟨hused, h⟩ := Option.ite_none_left_eq_some.mp h
    obtain rfl := Option.some.inj h
    obtain ⟨hinputs, hnodup⟩ := (rightly_used_iff given inputs).mp hused
    exact ⟨given, hcollect, hconfiguration, htable, hformat, ⟨resultFormat, hresult, rfl⟩,
      hterminators, rfl, hnodup, hinputs⟩
  · rintro ⟨given, hcollect, h⟩
    obtain ⟨resultFormat, hresult, hformat⟩ := h.resultFormat
    have hused := (rightly_used_iff given args.inputs).mpr ⟨h.inputs, h.nodup⟩
    refine ⟨_, hcollect, _, h.configuration, _, rfl, _, h.characterTable, _, h.format, _, hresult,
      _, h.terminators, ?_⟩
    rw [if_neg hused, ← hformat, ← h.parallel]

/-- An input can be left out of the arguments as long as another one remains. -/
theorem parse?_remove_input {raw : List Text} {args : Arguments} {before after : List Text}
    {path : Text} (h : parse? raw = some args) (hinputs : args.inputs = before ++ path :: after)
    (hrest : before ++ after ≠ []) :
    ∃ x y, raw = x ++ path :: y ∧
      parse? (x ++ y) = some { args with inputs := before ++ after } := by
  obtain ⟨given, hcollects, hgiven⟩ := parse?_eq_some_iff.mp h
  obtain ⟨x, y, hraw, hxy⟩ := hcollects.remove_input hinputs
  have hblank : [] ∉ before ++ after := by
    have hall := hgiven.inputs.2
    rw [hinputs] at hall
    simp only [List.mem_append, List.mem_cons, not_or] at hall ⊢
    exact ⟨hall.1, hall.2.2⟩
  exact ⟨x, y, hraw, parse?_eq_some_iff.mpr
    ⟨given, hxy, { hgiven with inputs := ⟨hrest, hblank⟩ }⟩⟩

theorem isSome_lookup_iff (given : List (Flag × Text)) (f : Flag) :
    (given.lookup f).isSome = true ↔ f ∈ given.map (·.1) := by
  rw [← not_iff_not, Bool.not_eq_true, Option.isSome_eq_false_iff, Option.isNone_iff_eq_none,
    List.lookup_eq_none_iff, List.mem_map]
  constructor
  · rintro h ⟨entry, hentry, rfl⟩
    simpa using h entry hentry
  · intro h entry hentry
    rw [bne_iff_ne]
    exact fun hf => h ⟨entry, hentry, hf.symm⟩

/-- The other options do not see the option without a value. -/
theorem option?_parallel {α : Type} (given given' : List (Flag × Text)) (v : Text) {f : Flag}
    (hf : f ≠ .parallel) (parse : Text → Option α) :
    option? (given ++ (Flag.parallel, v) :: given') f parse =
      option? (given ++ given') f parse := by
  have hbeq : (f == Flag.parallel) = false := beq_false_of_ne hf
  simp only [option?, List.lookup_append, List.lookup_cons, hbeq]

theorem Arguments.given_parallel_iff (args : Arguments) (given given' : List (Flag × Text))
    (v : Text) :
    { args with parallel := true }.Given (given ++ (Flag.parallel, v) :: given') ↔
      { args with parallel := false }.Given (given ++ given') := by
  have hnodup : ((given ++ (Flag.parallel, v) :: given').map (·.1)).Nodup ↔
      Flag.parallel ∉ (given ++ given').map (·.1) ∧ ((given ++ given').map (·.1)).Nodup := by
    rw [List.map_append, List.map_cons, List.nodup_middle, List.nodup_cons, List.map_append]
  have habsent : false = ((given ++ given').lookup Flag.parallel).isSome ↔
      Flag.parallel ∉ (given ++ given').map (·.1) := by
    rw [← isSome_lookup_iff, Bool.not_eq_true, eq_comm]
  have hpresent : true = ((given ++ (Flag.parallel, v) :: given').lookup Flag.parallel).isSome := by
    rw [eq_comm, isSome_lookup_iff]
    simp
  have hoption : ∀ f, f ≠ Flag.parallel → ∀ {α : Type} (parse : Text → Option α),
      option? (given ++ (.parallel, v) :: given') f parse = option? (given ++ given') f parse :=
    fun f hf _ parse => option?_parallel given given' v hf parse
  have hconfiguration := hoption .configuration (by decide) nonempty?
  have htable := hoption .characterTable (by decide) nonempty?
  have hformat := hoption .format (by decide) fun t => (InputFormat.ofName t).toOption
  have hresult := hoption .resultFormat (by decide) fun t => (Report.Format.ofName t).toOption
  have hterminators := hoption .terminators (by decide) some
  constructor
  · rintro ⟨h₁, h₂, h₃, ⟨format, h₄, h₄'⟩, h₅, -, hkeys, hinputs⟩
    exact ⟨hconfiguration ▸ h₁, htable ▸ h₂, hformat ▸ h₃, ⟨format, hresult ▸ h₄, h₄'⟩,
      hterminators ▸ h₅, habsent.mpr (hnodup.mp hkeys).1, (hnodup.mp hkeys).2, hinputs⟩
  · rintro ⟨h₁, h₂, h₃, ⟨format, h₄, h₄'⟩, h₅, hparallel, hkeys, hinputs⟩
    exact ⟨hconfiguration ▸ h₁, htable ▸ h₂, hformat ▸ h₃, ⟨format, hresult ▸ h₄, h₄'⟩,
      hterminators ▸ h₅, hpresent, hnodup.mpr ⟨habsent.mp hparallel, hkeys⟩, hinputs⟩

theorem parse?_add_parallel {raw : List Text} {args : Arguments} (h : parse? raw = some args)
    (hparallel : args.parallel = false) :
    parse? (parallelOption :: raw) = some { args with parallel := true } := by
  obtain ⟨given, hcollects, hgiven⟩ := parse?_eq_some_iff.mp h
  have hsame : { args with parallel := false } = args := by rw [← hparallel]
  rw [← hsame] at hgiven
  exact parse?_eq_some_iff.mpr ⟨(.parallel, []) :: given,
    .parallel piece?_parallelOption hcollects, (args.given_parallel_iff [] given []).mpr hgiven⟩

theorem parse?_remove_parallel {raw : List Text} {args : Arguments} (h : parse? raw = some args)
    (hparallel : args.parallel = true) :
    ∃ x y, raw = x ++ parallelOption :: y ∧
      parse? (x ++ y) = some { args with parallel := false } := by
  obtain ⟨given, hcollects, hgiven⟩ := parse?_eq_some_iff.mp h
  have hmem : Flag.parallel ∈ given.map (·.1) := by
    rw [← isSome_lookup_iff, ← hgiven.parallel, hparallel]
  obtain ⟨⟨f, v⟩, hentry, rfl⟩ := List.mem_map.mp hmem
  obtain ⟨front, back, rfl⟩ := List.append_of_mem hentry
  obtain ⟨x, y, hraw, hxy⟩ := hcollects.remove_parallel
  have hsame : { args with parallel := true } = args := by rw [← hparallel]
  rw [← hsame] at hgiven
  exact ⟨x, y, hraw, parse?_eq_some_iff.mpr
    ⟨front ++ back, hxy, (args.given_parallel_iff front back v).mp hgiven⟩⟩

end ProseLint.CommandLine
