import ProseLint.Proofs.Document.Walk
import ProseLint.Proofs.Markup.Run

/-!
# The outline of a compiled document

The search for the parent of a new section goes up from the section before it. In a nested document
it passes the sections whose levels are too high, so it ends at the nearest earlier section of lower
level, or at the latest root when no earlier section has a lower level. Every compiled document is
therefore nested, and the warnings about promoted headers can be read off its links.
-/
namespace ProseLint

/-- A warning that a header became a root beside a root of another level. -/
def Diagnostic.isPromotion (w : Diagnostic) : Bool :=
  w.isWarning && "no parent section for level ".toList.isPrefixOf w.message

namespace Document

open Markup.Compilation (promotion)

/-- The warning about a section: it is a root, and the latest root before it has another level. -/
def promotionOf (d : Document) (i : ℕ) : Option Diagnostic :=
  if d.parentOf i = none then
    (lastBelow (fun j => d.parentOf j = none) i).bind fun root =>
      if d.levelOf root = d.levelOf i then none
      else some (promotion (d.levelOf i) (d.headerOf i) (d.levelOf root))
  else none

/-- The warnings about all sections. -/
def promotions (d : Document) : List Diagnostic :=
  (List.range d.sections.length).filterMap d.promotionOf

theorem promotionOf_eq_some_iff {d : Document} {i : ℕ} {w : Diagnostic} :
    d.promotionOf i = some w ↔ d.parentOf i = none ∧
      ∃ root < i, d.parentOf root = none ∧ (∀ k, root < k → k < i → d.parentOf k ≠ none) ∧
        d.levelOf root ≠ d.levelOf i ∧
        w = promotion (d.levelOf i) (d.headerOf i) (d.levelOf root) := by
  rw [promotionOf]
  constructor
  · intro h
    split at h
    · rename_i hp
      obtain ⟨root, hroot, h⟩ := Option.bind_eq_some_iff.mp h
      obtain ⟨hlt, hnone, hgap⟩ := lastBelow_eq_some_iff.mp hroot
      split at h
      · simp at h
      · rename_i hlevel
        exact ⟨hp, root, hlt, by simpa using hnone, by simpa using hgap, hlevel,
          (Option.some.inj h).symm⟩
    · simp at h
  · rintro ⟨hp, root, hlt, hnone, hgap, hlevel, rfl⟩
    have hroot : lastBelow (fun j => d.parentOf j = none) i = some root :=
      lastBelow_eq_some_iff.mpr ⟨hlt, by simpa using hnone, by simpa using hgap⟩
    rw [if_pos hp, hroot, Option.bind_some, if_neg hlevel]

/-- Marking the first sentence of a header does not show in a warning. -/
theorem promotion_openHeader (level : ℕ) (header : List Sentence) (rootLevel : ℕ) :
    promotion level (openHeader header) rootLevel = promotion level header rootLevel := by
  cases header <;> rfl

@[simp] theorem promotions_frame (d : Document) : d.frame.promotions = d.promotions := by
  have h : d.frame.promotionOf = d.promotionOf := by
    funext i
    simp [promotionOf]
  rw [promotions, promotions, h, length_frame]

section

variable (d : Document) (level : ℕ) (header : List Sentence)

theorem rootBefore_place {i : ℕ} (hi : i ≤ d.sections.length) :
    lastBelow (fun j => (d.place level header).parentOf j = none) i =
      lastBelow (fun j => d.parentOf j = none) i := by
  apply lastBelow_congr
  intro k hk
  rw [parentOf_place, if_neg (by omega)]

/-- The warning about a new section. -/
theorem promotionOf_place_length :
    (d.place level header).promotionOf d.sections.length =
      if lastBelow (fun j => d.levelOf j < level) d.sections.length = none then
        (lastBelow (fun j => d.parentOf j = none) d.sections.length).bind fun root =>
          if d.levelOf root = level then none
          else some (promotion level header (d.levelOf root))
      else none := by
  rw [promotionOf, parentOf_place, if_pos rfl, rootBefore_place d level header le_rfl,
    levelOf_place, if_pos rfl, headerOf_place, if_pos rfl]
  split
  · cases hroot : lastBelow (fun j => d.parentOf j = none) d.sections.length with
    | none => rfl
    | some root =>
      have hlt : root < d.sections.length := (lastBelow_eq_some_iff.mp hroot).1
      rw [Option.bind_some, Option.bind_some, levelOf_place, if_neg hlt.ne, promotion_openHeader]
  · rfl

/-- The warnings about the sections before a new one stay as they are. -/
theorem promotionOf_place_of_lt {i : ℕ} (hi : i < d.sections.length) :
    (d.place level header).promotionOf i = d.promotionOf i := by
  rw [promotionOf, promotionOf, rootBefore_place d level header hi.le, parentOf_place,
    if_neg hi.ne, levelOf_place, if_neg hi.ne, headerOf_place, if_neg hi.ne]
  split
  · cases hroot : lastBelow (fun j => d.parentOf j = none) i with
    | none => rfl
    | some root =>
      have hlt : root < i := (lastBelow_eq_some_iff.mp hroot).1
      rw [Option.bind_some, Option.bind_some, levelOf_place, if_neg (hlt.trans hi).ne]
  · rfl

theorem promotions_place : (d.place level header).promotions =
    d.promotions ++ ((d.place level header).promotionOf d.sections.length).toList := by
  have hold : (List.range d.sections.length).filterMap (d.place level header).promotionOf =
      (List.range d.sections.length).filterMap d.promotionOf := by
    apply List.filterMap_congr
    intro i hi
    exact promotionOf_place_of_lt d level header (List.mem_range.mp hi)
  rw [promotions, length_place, List.range_succ, List.filterMap_append, hold, promotions]
  cases h : (d.place level header).promotionOf d.sections.length <;> simp [h]

end

/-- The preamble comes without a warning, for there is no root before it. -/
theorem outline_withSection {d : Document} (h : d.Nested) :
    d.withSection.Nested ∧ d.withSection.promotions = d.promotions := by
  rw [withSection_eq]
  split
  · rename_i hnil
    refine ⟨h.place 0 [], ?_⟩
    rw [promotions_place, hnil, List.length_nil, promotionOf]
    simp [lastBelow]
  · exact ⟨h, rfl⟩

/-- A change in the blocks of the current section changes nothing about the outline. -/
theorem outline_modifyCurrent {d : Document} (h : d.Nested) {f : Section → Section}
    (hf : ∀ s, (f s).frame = s.frame) :
    (d.modifyCurrent f).Nested ∧ (d.modifyCurrent f).promotions = d.promotions := by
  obtain ⟨hnested, hpromotions⟩ := outline_withSection h
  have hframe := frame_modifyCurrent hf d
  constructor
  · rw [← nested_frame, hframe, nested_frame]
    exact hnested
  · rw [← promotions_frame, hframe, promotions_frame, hpromotions]

end Document

namespace Markup

open Document

namespace Compilation

/-- The search goes up from `start`. No section behind `start` is low enough for the level, and all
of them lie below `start` in the forest. -/
theorem findParent_spec {d : Document} (level : ℕ) {n : ℕ}
    (hparent : ∀ i < n, d.parentOf i = lastBelow (fun j => d.levelOf j < d.levelOf i) i) :
    ∀ fuel start, start < fuel → start < n →
      (∀ k, start < k → k < n → level ≤ d.levelOf k ∧ d.levelOf start < d.levelOf k) →
      (∃ p, findParent d level fuel start = .inl p ∧
        lastBelow (fun j => d.levelOf j < level) n = some p) ∨
      ∃ r, findParent d level fuel start = .inr r ∧
        lastBelow (fun j => d.levelOf j < level) n = none ∧
        lastBelow (fun j => d.parentOf j = none) n = some r := by
  intro fuel
  induction fuel with
  | zero => exact fun start hfuel => absurd hfuel (Nat.not_lt_zero _)
  | succ fuel ih =>
    intro start hfuel hstart hbehind
    rw [findParent]
    by_cases hlevel : d.levelOf start < level
    · rw [if_pos hlevel]
      refine .inl ⟨start, rfl, lastBelow_eq_some_iff.mpr ⟨hstart, by simpa using hlevel, ?_⟩⟩
      intro k hk hkn
      simpa using (hbehind k hk hkn).1
    · rw [if_neg hlevel]
      have hup := hparent start hstart
      cases hp : d.parentOf start with
      | some above =>
        rw [hp] at hup
        obtain ⟨hlt, habove, hbetween⟩ := lastBelow_eq_some_iff.mp hup.symm
        have habove : d.levelOf above < d.levelOf start := by simpa using habove
        refine ih above (by omega) (by omega) fun k hk hkn => ?_
        rcases lt_trichotomy k start with hks | rfl | hks
        · have hlow : d.levelOf start ≤ d.levelOf k := by simpa using hbetween k hk hks
          omega
        · omega
        · have := hbehind k hks hkn
          omega
      | none =>
        rw [hp] at hup
        have hbefore : ∀ k < start, d.levelOf start ≤ d.levelOf k := by
          simpa using lastBelow_eq_none_iff.mp hup.symm
        refine .inr ⟨start, rfl, lastBelow_eq_none_iff.mpr ?_,
          lastBelow_eq_some_iff.mpr ⟨hstart, by simpa using hp, ?_⟩⟩
        · intro k hkn
          have hk : level ≤ d.levelOf k := by
            rcases lt_trichotomy k start with hks | rfl | hks
            · have := hbefore k hks
              omega
            · omega
            · exact (hbehind k hks hkn).1
          simpa using hk
        · intro k hks hkn
          -- `start` itself is below `k` and has a lower level
          have hne : d.parentOf k ≠ none := by
            rw [hparent k hkn]
            intro hnone
            have hlow : d.levelOf k ≤ d.levelOf start := by
              simpa using lastBelow_eq_none_iff.mp hnone start hks
            have := (hbehind k hks hkn).2
            omega
          simpa using hne

/-- The search begins at the section before a new one, which is not looked at itself. -/
theorem findParent_addSection {d : Document} (h : d.Nested) (level : ℕ) (header : List Sentence)
    (hpos : 0 < d.sections.length) :
    (∃ p, findParent (d.addSection level header) level d.sections.length
        (d.sections.length - 1) = .inl p ∧
      lastBelow (fun j => d.levelOf j < level) d.sections.length = some p) ∨
    ∃ r, findParent (d.addSection level header) level d.sections.length
        (d.sections.length - 1) = .inr r ∧
      lastBelow (fun j => d.levelOf j < level) d.sections.length = none ∧
      lastBelow (fun j => d.parentOf j = none) d.sections.length = some r := by
  have hlevel : ∀ i < d.sections.length, (d.addSection level header).levelOf i = d.levelOf i :=
    fun i hi => levelOf_addSection d level header i hi
  have hup : ∀ i < d.sections.length, (d.addSection level header).parentOf i = d.parentOf i :=
    fun i hi => parentOf_addSection d level header i hi
  have hparent : ∀ i < d.sections.length, (d.addSection level header).parentOf i =
      lastBelow (fun j => (d.addSection level header).levelOf j <
        (d.addSection level header).levelOf i) i := by
    intro i hi
    rw [hup i hi, h.parent_eq i hi, hlevel i hi]
    exact lastBelow_congr fun k hk => by rw [hlevel k (by omega)]
  have hlow : lastBelow (fun j => (d.addSection level header).levelOf j < level)
      d.sections.length = lastBelow (fun j => d.levelOf j < level) d.sections.length :=
    lastBelow_congr fun k hk => by rw [hlevel k hk]
  have hroots : lastBelow (fun j => (d.addSection level header).parentOf j = none)
      d.sections.length = lastBelow (fun j => d.parentOf j = none) d.sections.length :=
    lastBelow_congr fun k hk => by rw [hup k hk]
  have hfind := findParent_spec level hparent d.sections.length (d.sections.length - 1)
    (by omega) (by omega) (fun k hk hkn => by omega)
  rwa [hlow, hroots] at hfind

/-- A header becomes a section of the outline, with a warning when it is promoted. -/
theorem addSection_spec {c : Compilation} (h : c.document.Nested) (level : ℕ)
    (header : List Sentence) :
    (c.addSection level header).document = c.document.place level header ∧
      (c.addSection level header).diagnostics = c.diagnostics ++
        ((c.document.place level header).promotionOf c.document.sections.length).toList := by
  obtain ⟨d, ds, held, depth⟩ := c
  dsimp only at h ⊢
  rw [promotionOf_place_length]
  unfold addSection lastSection? place
  by_cases hnil : d.sections = []
  · simp [hnil, lastBelow]
  · have hpos : 0 < d.sections.length := List.length_pos_iff.mpr hnil
    simp only [List.isEmpty_iff, hnil, if_false]
    rcases findParent_addSection h level header hpos with ⟨p, hfind, hp⟩ | ⟨r, hfind, hp, hr⟩
    · rw [hfind, hp]
      simp
    · have hlt : r < d.sections.length := (lastBelow_eq_some_iff.mp hr).1
      rw [hfind, hp, hr]
      simp only [levelOf_addSection d level header r hlt, Option.bind_some, if_true]
      split <;> simp

theorem isPromotion_promotion (level : ℕ) (header : List Sentence) (rootLevel : ℕ) :
    (promotion level header rootLevel).isPromotion = true := by
  simp only [promotion, Diagnostic.isPromotion, Diagnostic.warning, Diagnostic.isWarning,
    List.append_assoc, Bool.and_eq_true, List.isPrefixOf_iff_prefix]
  exact ⟨rfl, List.prefix_append _ _⟩

/-- The document is nested and the warnings about promoted headers are those of its sections. -/
structure Outlined (c : Compilation) : Prop where
  nested : c.document.Nested
  warnings : c.diagnostics.filter Diagnostic.isPromotion = c.document.promotions

namespace Outlined

variable {ctx : Context} {c c' : Compilation}

theorem start (name : Text) : Outlined { document := { name := name } } :=
  ⟨.nil name, rfl⟩

theorem note (h : c.Outlined) (message : Text) (line : Option ℕ) :
    (c.note message line).Outlined := by
  refine ⟨h.nested, ?_⟩
  have hnote : (Diagnostic.note message line).isPromotion = false := rfl
  rw [Compilation.note, List.filter_append, h.warnings]
  simp [hnote]

theorem link (h : c.Outlined) (url : Text) : (c.link url).Outlined := by
  unfold Compilation.link
  split
  · exact ⟨h.nested, h.warnings⟩
  · refine ⟨h.nested, ?_⟩
    rw [Compilation.warn, List.filter_append, h.warnings]
    simp [Diagnostic.isPromotion, Diagnostic.warning, List.isPrefixOf]

theorem build (h : c.Outlined) {f : Section → Section} (hf : ∀ s, (f s).frame = s.frame) :
    (c.build (Document.modifyCurrent f)).Outlined := by
  obtain ⟨hnested, hpromotions⟩ := outline_modifyCurrent h.nested hf
  exact ⟨hnested, h.warnings.trans hpromotions.symm⟩

theorem addElement (h : c.Outlined) (ss : List Sentence) : (c.addElement ss).Outlined := by
  unfold Compilation.addElement
  split
  · exact h
  · exact h.build (Section.frame_addElement _)

theorem addSentences (h : c.Outlined) (ss : List Sentence) :
    (c.build fun d => ss.foldl (fun d s => d.addSentence s) d).Outlined := by
  induction ss generalizing c with
  | nil => exact ⟨h.nested, h.warnings⟩
  | cons s ss ih => exact ih (h.build (Section.frame_addSentence s))

theorem release (h : c.Outlined) : (c.release ctx).2.Outlined := ⟨h.nested, h.warnings⟩

theorem addSection (h : c.Outlined) (level : ℕ) (header : List Sentence) :
    (c.addSection level header).Outlined := by
  obtain ⟨hdocument, hdiagnostics⟩ := addSection_spec h.nested level header
  constructor
  · rw [hdocument]
    exact h.nested.place level header
  · rw [hdocument, hdiagnostics, promotions_place, List.filter_append, h.warnings]
    congr 1
    cases hw : (c.document.place level header).promotionOf c.document.sections.length with
    | none => rfl
    | some w =>
      obtain ⟨_, _, _, _, _, _, rfl⟩ := promotionOf_eq_some_iff.mp hw
      simp [isPromotion_promotion]

/-- Every step of a compilation keeps the outline. -/
theorem step (h : c.Outlined) {ls : List Leaf} (hs : Step ctx c ls c') : c'.Outlined := by
  cases hs with
  | hold l link => exact ⟨h.nested, h.warnings⟩
  | leaveOut kind => exact h.note _ _
  | link url => exact h.link url
  | depth n => exact ⟨h.nested, h.warnings⟩
  | addParagraph => exact h.build (Section.frame_pushBlock _)
  | setIndent indent => exact h.build (Section.frame_setIndent indent)
  | addList => exact h.build (Section.frame_pushBlock _)
  | flush =>
    have hrelease : (c.release ctx).2.Outlined := h.release
    exact hrelease.addSentences _
  | flushElement =>
    have hrelease : (c.release ctx).2.Outlined := h.release
    exact hrelease.addElement _
  | keepHeader =>
    unfold keepHeader
    dsimp only
    split
    · exact h.release
    · exact (h.release.note _ _).addElement _
  | addSection level => exact h.release.addSection level _

end Outlined
end Compilation

/-- What the links of the sections and the warnings about them say, in terms of the levels. -/
structure OutlineSpec (d : Document) (ds : List Diagnostic) : Prop where
  /-- The parent is the latest earlier section of lower level. -/
  parent : ∀ i < d.sections.length, ∀ j, d.parentOf i = some j ↔
    j < i ∧ d.levelOf j < d.levelOf i ∧ ∀ k, j < k → k < i → d.levelOf i ≤ d.levelOf k
  no_parent : ∀ i < d.sections.length,
    (d.parentOf i = none ↔ ∀ j < i, d.levelOf i ≤ d.levelOf j)
  children : ∀ j < d.sections.length,
    d.childrenOf j = (List.range d.sections.length).filter fun i => d.parentOf i = some j
  roots : d.roots = (List.range d.sections.length).filter fun i => d.parentOf i = none
  walk : d.walk = List.range d.sections.length
  ordered : d.orderedSections = d.sections
  /-- A header is warned about when it is a root and the latest root before it has another level. -/
  warned : ∀ i < d.sections.length, ∀ w, d.promotionOf i = some w ↔ d.parentOf i = none ∧
    ∃ root < i, d.parentOf root = none ∧ (∀ k, root < k → k < i → d.parentOf k ≠ none) ∧
      d.levelOf root ≠ d.levelOf i ∧
      w = Compilation.promotion (d.levelOf i) (d.headerOf i) (d.levelOf root)
  warnings : ds.filter Diagnostic.isPromotion =
    (List.range d.sections.length).filterMap d.promotionOf

theorem Compilation.Outlined.spec {c : Compilation} (h : c.Outlined) :
    OutlineSpec c.document c.diagnostics where
  parent _ hi _ := h.nested.parent_spec hi
  no_parent _ hi := h.nested.no_parent_spec hi
  children := h.nested.children_eq
  roots := h.nested.roots_eq
  walk := h.nested.walk_eq_range
  ordered := h.nested.orderedSections_eq
  warned _ _ _ := promotionOf_eq_some_iff
  warnings := h.warnings

theorem outlined_of_run {ctx : Context} {name : Text} {ls : List Leaf} {c : Compilation}
    (h : Compilation.Run ctx { document := { name := name } } ls c) : c.Outlined :=
  h.invariant (fun c _ => c.Outlined) (fun h hs => h.step hs) [] (.start name)

theorem nested_compile (ctx : Context) (name : Text) (tree : Node) :
    (compile ctx name tree).1.Nested := by
  obtain ⟨c, hrun, -, heq⟩ := compile_run ctx name tree
  rw [heq]
  exact (outlined_of_run hrun).nested

/-- The levels of the headers determine the outline of a compiled document. -/
theorem compile_outline (ctx : Context) (name : Text) (tree : Node) :
    OutlineSpec (compile ctx name tree).1 (compile ctx name tree).2 := by
  obtain ⟨c, hrun, -, heq⟩ := compile_run ctx name tree
  rw [heq]
  exact (outlined_of_run hrun).spec

end Markup
end ProseLint
