import ProseLint.Proofs.Sentence.Cut
import ProseLint.Proofs.Text.Position

/-!
# Groups of terminators and closers

A group is a run of terminators, as long as it can be, and all the closers right behind it. The
groups of a text are found one behind the other. The first sentence end of the text is the end of
the first group that has a terminator beyond ASCII, or a blank or nothing behind it.
-/
namespace ProseLint.Terminators

/-- A run of terminators and the closers behind it, with what stands around them in a text. -/
structure Group where
  before : Text
  run : Text
  closers : Text
  after : Text
  deriving DecidableEq, Repr

namespace Group

/-- The text up to the end of the group. -/
def front (g : Group) : Text := g.before ++ g.run ++ g.closers

/-- The byte offset just past the group. -/
def stop (g : Group) : ℕ := Text.byteLength g.front

/-- A sentence ends with the group. -/
def endsSentence (g : Group) : Bool :=
  g.run.any (fun c => !isAscii c) || g.after.head?.all isBlank

/-- The group, found behind another text. -/
def shift (passed : Text) (g : Group) : Group := { g with before := passed ++ g.before }

@[simp] theorem after_shift (passed : Text) (g : Group) : (g.shift passed).after = g.after := rfl

@[simp] theorem endsSentence_shift (passed : Text) (g : Group) :
    (g.shift passed).endsSentence = g.endsSentence := rfl

@[simp] theorem front_shift (passed : Text) (g : Group) :
    (g.shift passed).front = passed ++ g.front := by
  simp [front, shift]

end Group

/-- The first group of a text: it begins with the first terminator. -/
def group? (T : Terminators) (t : Text) : Option Group :=
  let start := t.dropWhile fun c => !T.contains c
  let behind := start.dropWhile T.contains
  if start.isEmpty then none
  else some ⟨t.takeWhile fun c => !T.contains c, start.takeWhile T.contains,
    behind.takeWhile isCloser, behind.dropWhile isCloser⟩

variable {T : Terminators}

/-- The parts of a text around its first group. -/
structure Group.Leads (T : Terminators) (g : Group) (t : Text) : Prop where
  text_eq : t = g.before ++ (g.run ++ (g.closers ++ g.after))
  before : ∀ c ∈ g.before, T.contains c = false
  run_ne_nil : g.run ≠ []
  run : ∀ c ∈ g.run, T.contains c = true
  run_longest : ∀ c ∈ (g.closers ++ g.after).head?, T.contains c = false
  closers : ∀ c ∈ g.closers, isCloser c = true
  closers_longest : ∀ c ∈ g.after.head?, isCloser c = false

theorem forall_head?_dropWhile (p : Char → Bool) (t : Text) :
    ∀ c ∈ (t.dropWhile p).head?, p c = false := by
  intro c hc
  have hd := List.head?_dropWhile_not p t
  rw [Option.mem_def] at hc
  simpa [hc] using hd

theorem leads_of_group? {t : Text} {g : Group} (h : T.group? t = some g) : g.Leads T t := by
  simp only [group?] at h
  split at h
  · simp at h
  · rename_i hstart
    obtain rfl := Option.some.inj h
    have hfirst := forall_head?_dropWhile (fun c => !T.contains c) t
    refine ⟨?_, fun c hc => by simpa using List.mem_takeWhile_imp hc, ?_,
      fun _ => List.mem_takeWhile_imp, ?_, fun _ => List.mem_takeWhile_imp,
      forall_head?_dropWhile _ _⟩
    · simp only [List.takeWhile_append_dropWhile]
    · rw [List.isEmpty_iff] at hstart
      obtain ⟨c, u, hcons⟩ := List.exists_cons_of_ne_nil hstart
      have hc : T.contains c = true := by simpa [hcons] using hfirst
      simp [hcons, hc]
    · simp only [List.takeWhile_append_dropWhile]
      exact forall_head?_dropWhile _ _

theorem length_of_group? {t : Text} {g : Group} (h : T.group? t = some g) :
    g.after.length < t.length := by
  have hleads := leads_of_group? h
  have hlength := congrArg List.length hleads.text_eq
  have hrun := List.length_pos_iff.mpr hleads.run_ne_nil
  simp only [List.length_append] at hlength
  omega

/-- The groups of a text from left to right; the search for the next one goes on right behind the
one before. -/
def groups (T : Terminators) (t : Text) : List Group :=
  match h : T.group? t with
  | none => []
  | some g =>
    have := length_of_group? h
    g :: (T.groups g.after).map (Group.shift g.front)
termination_by t.length

theorem groups_of_none {t : Text} (h : T.group? t = none) : T.groups t = [] := by
  rw [groups]
  split
  · rfl
  · simp_all

theorem groups_of_some {t : Text} {g : Group} (h : T.group? t = some g) :
    T.groups t = g :: (T.groups g.after).map (Group.shift g.front) := by
  rw [groups]
  split
  · simp_all
  · simp_all

theorem cutFrom_run (wide : Bool) {run : Text} (hrun : ∀ c ∈ run, T.contains c = true) (v : Text) :
    T.cutFrom (.inRun wide) (run ++ v) =
      (T.cutFrom (.inRun (wide || run.any fun c => !isAscii c)) v).map fun r =>
        (run ++ r.1, r.2) := by
  induction run generalizing wide with
  | nil => simp
  | cons c run ih =>
    obtain ⟨hc, hrun⟩ := List.forall_mem_cons.mp hrun
    have hstep : T.step (.inRun wide) c = some (.inRun (wide || !isAscii c)) := by simp [step, hc]
    rw [List.cons_append, cutFrom, hstep]
    simp [ih _ hrun, Function.comp_def, Bool.or_assoc]

theorem cutFrom_inClosers (wide : Bool) {closers : Text}
    (hclosers : ∀ c ∈ closers, isCloser c = true) (v : Text) :
    T.cutFrom (.inClosers wide) (closers ++ v) =
      (T.cutFrom (.inClosers wide) v).map fun r => (closers ++ r.1, r.2) := by
  induction closers with
  | nil => simp
  | cons c closers ih =>
    obtain ⟨hc, hclosers⟩ := List.forall_mem_cons.mp hclosers
    have hstep : T.step (.inClosers wide) c = some (.inClosers wide) := by simp [step, hc]
    rw [List.cons_append, cutFrom, hstep]
    simp [ih hclosers, Function.comp_def]

/-- Behind a group the sentence ends, or the search begins anew. -/
theorem cutFrom_after {s : Search} {wide : Bool} {v : Text}
    (hs : s = .inClosers wide ∨ s = .inRun wide ∧ ∀ c ∈ v.head?, T.contains c = false)
    (hv : ∀ c ∈ v.head?, isCloser c = false) : T.cutFrom s v =
      if wide || v.head?.all isBlank then some ([], v) else T.cut v := by
  cases v with
  | nil => rcases hs with rfl | ⟨rfl, -⟩ <;> simp [cutFrom]
  | cons c v =>
    have hcloser : isCloser c = false := hv c rfl
    rcases hs with rfl | ⟨rfl, hrun⟩
    · by_cases hend : (wide || isBlank c) = true
      · simp_all [cutFrom, step]
      · rw [Bool.not_eq_true] at hend
        simp [cut, cutFrom, step, hcloser, hend]
    · have hc : T.contains c = false := hrun c rfl
      by_cases hend : (wide || isBlank c) = true
      · simp_all [cutFrom, step]
      · rw [Bool.not_eq_true] at hend
        simp [cut, cutFrom, step, hcloser, hc, hend]

/-- Whether the sentence ends with a group is seen behind its closers. -/
theorem cutFrom_closers_after (wide : Bool) {closers v : Text}
    (hrun : ∀ c ∈ (closers ++ v).head?, T.contains c = false)
    (hclosers : ∀ c ∈ closers, isCloser c = true) (hv : ∀ c ∈ v.head?, isCloser c = false) :
    T.cutFrom (.inRun wide) (closers ++ v) =
      (if wide || v.head?.all isBlank then some ([], v) else T.cut v).map fun r =>
        (closers ++ r.1, r.2) := by
  cases closers with
  | nil =>
    have hafter := @cutFrom_after T (.inRun wide) wide v (.inr ⟨rfl, hrun⟩) hv
    simpa using hafter
  | cons c closers =>
    obtain ⟨hc, hclosers⟩ := List.forall_mem_cons.mp hclosers
    have hstep : T.step (.inRun wide) c = some (.inClosers wide) := by
      simp [step, hc, hrun c rfl]
    rw [List.cons_append, cutFrom, hstep]
    simp [cutFrom_inClosers wide hclosers, cutFrom_after (T := T) (.inl rfl) hv,
      Function.comp_def]

/-- A text is cut behind its first group if a sentence ends there, or else where the text behind the
group is cut. -/
theorem cut_of_leads {t : Text} {g : Group} (h : g.Leads T t) : T.cut t =
    if g.endsSentence then some (g.front, g.after)
    else (T.cut g.after).map fun r => (g.front ++ r.1, r.2) := by
  obtain ⟨c, run, hrun⟩ := List.exists_cons_of_ne_nil h.run_ne_nil
  obtain ⟨hc, hterminators⟩ := List.forall_mem_cons.mp (hrun ▸ h.run)
  have hstart : T.cut (g.run ++ (g.closers ++ g.after)) =
      (T.cutFrom (.inRun (!isAscii c)) (run ++ (g.closers ++ g.after))).map fun r =>
        (c :: r.1, r.2) := by
    have hstep : T.step .outside c = some (.inRun (!isAscii c)) := by simp [step, hc]
    rw [hrun, List.cons_append, cut, cutFrom, hstep]
  rw [h.text_eq, cut_append (cut_eq_none_of_forall h.before), hstart, cutFrom_run _ hterminators,
    cutFrom_closers_after _ h.run_longest h.closers h.closers_longest]
  have hends : g.endsSentence =
      (!isAscii c || run.any (fun c => !isAscii c) || g.after.head?.all isBlank) := by
    rw [Group.endsSentence, hrun, List.any_cons]
  rw [← hends, Group.front, hrun]
  split <;> simp [Function.comp_def]

theorem cut_of_group?_none {t : Text} (h : T.group? t = none) : T.cut t = none := by
  simp only [group?, ite_eq_left_iff, reduceCtorEq, imp_false, Decidable.not_not,
    List.isEmpty_iff, List.dropWhile_eq_nil_iff] at h
  exact cut_eq_none_of_forall fun c hc => by simpa using h c hc

/-- A text is cut behind the first of its groups that ends a sentence. -/
theorem cut_eq_find? (t : Text) : T.cut t =
    ((T.groups t).find? Group.endsSentence).map fun g => (g.front, g.after) := by
  induction t using groups.induct (T := T) with
  | case1 t hnone => simp [cut_of_group?_none hnone, groups_of_none hnone]
  | case2 t g hsome _ ih =>
    rw [cut_of_leads (leads_of_group? hsome), groups_of_some hsome, List.find?_cons]
    cases g.endsSentence with
    | true => simp
    | false =>
      simp [ih, List.find?_map, Function.comp_def]

/-- The first sentence end is the end of the first group that ends a sentence. It is behind the
beginning of the text, not behind its end, and between two characters. -/
theorem firstEnd_eq_find? (T : Terminators) (t : Text) :
    T.firstEnd t = ((T.groups t).find? Group.endsSentence).map Group.stop ∧
      ∀ n ∈ T.firstEnd t, 0 < n ∧ n ≤ Text.byteLength t ∧
        ∃ a b, t = a ++ b ∧ n = Text.byteLength a := by
  constructor
  · rw [firstEnd, cut_eq_find?, Option.map_map]
    rfl
  · intro n hn
    obtain ⟨⟨a, b⟩, hcut, rfl⟩ := Option.map_eq_some_iff.mp hn
    obtain rfl := append_of_cut hcut
    refine ⟨Text.byteLength_pos (cut_ne_nil hcut), ?_, a, b, rfl, rfl⟩
    rw [Text.byteLength_append]
    exact Nat.le_add_right _ _

/-- A bracket and a blank that are terminators: the third group of four ends the sentence. -/
theorem firstEnd_eq_find?_of_blank_terminator :
    ((withExtra [')', ' ']).groups "1.5 (x).” y".toList).map (fun g => (g.run, g.closers, g.stop)) =
        [(['.'], [], 2), ([' '], [], 4), ([')', '.'], ['”'], 11), ([' '], [], 12)] ∧
      (withExtra [')', ' ']).firstEnd "1.5 (x).” y".toList = some 11 ∧
      0 < 11 ∧ 11 ≤ Text.byteLength "1.5 (x).” y".toList ∧
        ∃ a b, "1.5 (x).” y".toList = a ++ b ∧ 11 = Text.byteLength a := by
  have hend : (withExtra [')', ' ']).firstEnd "1.5 (x).” y".toList = some 11 := by cbv
  exact ⟨by cbv, hend, (firstEnd_eq_find? _ _).2 11 hend⟩

end ProseLint.Terminators
