import Mathlib.Tactic
import ProseLint.Markup.Compile

/-!
# Compilation as a run of steps

The visit of a tree is a run of elementary steps. Each step takes in some leaves, at most one of
them, and a whole visit takes in the leaves of the tree from left to right. What every step
preserves holds of every compiled document.
-/
namespace ProseLint.Markup

namespace Leaf

/-- The source position of a leaf; what is left out has none. -/
def offset : Leaf → ℕ
  | text offset _ => offset
  | code offset _ => offset
  | autolink offset _ => offset
  | special offset _ => offset
  | omitted _ => 0

end Leaf

namespace Compilation

variable {ctx : Context}

/-- The elementary steps, with the leaves that they take in. -/
inductive Step (ctx : Context) : Compilation → List Leaf → Compilation → Prop
  | hold (c) (l : Leaf) (link : Option Text) : Step ctx c [l] (c.hold ctx l.offset l.content link)
  | leaveOut (c) (kind : OmittedKind) : Step ctx c [.omitted kind]
      (c.note (kind.name ++ " omitted from the document model".toList) none)
  | link (c) (url : Text) : Step ctx c [] (c.link url)
  | depth (c : Compilation) (n : ℕ) : Step ctx c [] { c with listDepth := n }
  | addParagraph (c) : Step ctx c [] (c.build Document.addParagraph)
  | setIndent (c) (indent : Text) : Step ctx c [] (c.build (Document.setIndent indent))
  | addList (c) : Step ctx c [] (c.build Document.addList)
  | flush (c) : Step ctx c [] (c.flush ctx)
  | flushElement (c) : Step ctx c [] (c.flushElement ctx)
  | keepHeader (c) : Step ctx c [] (c.keepHeader ctx)
  | addSection (c) (level : ℕ) : Step ctx c []
      ((c.release ctx).2.addSection level (c.release ctx).1)

/-- Any number of steps, with all the leaves that they take in. -/
inductive Run (ctx : Context) : Compilation → List Leaf → Compilation → Prop
  | refl (c) : Run ctx c [] c
  | step {c₁ c₂ c₃ ls ls'} (first : Step ctx c₁ ls c₂) (rest : Run ctx c₂ ls' c₃) :
      Run ctx c₁ (ls ++ ls') c₃

variable {c c₁ c₂ c₃ : Compilation} {ls ls' : List Leaf}

theorem Step.run (h : Step ctx c₁ ls c₂) : Run ctx c₁ ls c₂ := by
  simpa using Run.step h (.refl c₂)

theorem Run.trans (h : Run ctx c₁ ls c₂) (h' : Run ctx c₂ ls' c₃) : Run ctx c₁ (ls ++ ls') c₃ := by
  induction h with
  | refl => exact h'
  | step first _ ih =>
    rw [List.append_assoc]
    exact .step first (ih h')

/-- A step that takes in no leaf can be added at the end of a run. -/
theorem Run.snoc (h : Run ctx c₁ ls c₂) (h' : Step ctx c₂ [] c₃) : Run ctx c₁ ls c₃ := by
  simpa using h.trans h'.run

/-- What each step preserves, a run preserves. -/
theorem Run.invariant (h : Run ctx c₁ ls c₂) (P : Compilation → List Leaf → Prop)
    (hstep : ∀ {c c' past ls}, P c past → Step ctx c ls c' → P c' (past ++ ls))
    (past : List Leaf) (h₁ : P c₁ past) : P c₂ (past ++ ls) := by
  induction h generalizing past with
  | refl => simpa using h₁
  | step first _ ih =>
    rw [← List.append_assoc]
    exact ih _ (hstep h₁ first)

theorem run_openList (c : Compilation) : Run ctx c [] (c.openList ctx) := by
  unfold openList
  split
  · exact (((Run.refl c).snoc (.flush c)).snoc (.addList _)).snoc (.depth _ _)
  · exact ((Run.refl c).snoc (.flushElement c)).snoc (.depth _ _)

mutual

theorem run_visit (c : Compilation) : (n : Node) → Run ctx c n.leaves (visit ctx c n)
  | .leaf (.text offset t) => by
    rw [visit]
    exact (Step.hold c (.text offset t) none).run
  | .leaf (.code offset t) => by
    rw [visit]
    exact (Step.hold c (.code offset t) none).run
  | .leaf (.autolink offset url) => by
    rw [visit]
    exact (Step.hold c (.autolink offset url) (some url)).run
  | .leaf (.special offset kind) => by
    rw [visit]
    exact (Step.hold c (.special offset kind) none).run
  | .leaf (.omitted kind) => by
    rw [visit]
    exact (Step.leaveOut c kind).run
  | .container .root children => by
    rw [visit]
    exact run_visitAll c children
  | .container .quote children => by
    rw [visit]
    exact run_visitAll c children
  | .container .emphasis children => by
    rw [visit]
    exact run_visitAll c children
  | .container (.link url) children => by
    rw [visit]
    exact (run_visitAll c children).snoc (.link _ url)
  | .container .paragraph children => by
    rw [visit]
    split
    · have hopen : Run ctx c [] ((c.flush ctx).build Document.addParagraph) :=
        ((Run.refl c).snoc (.flush c)).snoc (.addParagraph _)
      have hclose := (hopen.trans (run_visitAll _ children)).snoc (.flush _)
      dsimp only
      split
      · exact hclose
      · exact hclose.snoc (.setIndent _ _)
    · exact run_visitAll c children
  | .container (.header level) children => by
    rw [visit]
    split
    · have hopen : Run ctx c [] (c.flush ctx) := (Run.refl c).snoc (.flush c)
      exact (hopen.trans (run_visitAll _ children)).snoc (.addSection _ level)
    · have hopen : Run ctx c [] (c.flushElement ctx) := (Run.refl c).snoc (.flushElement c)
      exact (hopen.trans (run_visitAll _ children)).snoc (.keepHeader _)
  | .container .bulletList children => by
    rw [visit]
    exact ((run_openList c).trans (run_visitAll _ children)).snoc (.depth _ _)
  | .container .orderedList children => by
    rw [visit]
    exact ((run_openList c).trans (run_visitAll _ children)).snoc (.depth _ _)
  | .container .listItem children => by
    rw [visit]
    exact (run_visitAll c children).snoc (.flushElement _)

theorem run_visitAll (c : Compilation) :
    (ns : List Node) → Run ctx c (Node.leavesOfAll ns) (visitAll ctx c ns)
  | [] => by
    rw [visitAll]
    exact .refl c
  | n :: ns => by
    rw [visitAll]
    exact (run_visit c n).trans (run_visitAll _ ns)

end

end Compilation

/-- A compiled document is the end of a run that takes in the leaves of the tree. -/
theorem compile_run (ctx : Context) (name : Text) (tree : Node) :
    ∃ c, Compilation.Run ctx { document := { name := name } } tree.leaves c ∧ c.held = [] ∧
      compile ctx name tree = (c.document, c.diagnostics) :=
  ⟨_, (Compilation.run_visit _ tree).snoc (.flush _), rfl, rfl⟩

end ProseLint.Markup
