import ProseLint.Proofs.Markup.Visit
import ProseLint.Proofs.Sentence.Links

/-!
# The links of a compiled document

A link gives its url to the text held back last, which has room for one url. When its label ends in
ink, the url goes to the sentence that receives the last character of the label, whatever stands
before or inside the link. It is lost when another link ends right behind, with no text in between:
a link around this one, or a link whose label has no text.
-/
namespace ProseLint

/-- The place of a sentence in a document does not matter. -/
theorem bear_map_unflagged {ss : List Sentence} {inked : DueText} :
    Bear (ss.map Sentence.unflagged) inked ↔ Bear ss inked := by
  simp only [Bear, List.forall₂_map_left_iff]
  have hbears : ∀ (s : Sentence) (share : DueText), s.unflagged.Bears share ↔ s.Bears share :=
    fun _ _ => ⟨fun h => h.congr rfl fun _ hurl => hurl, fun h => h.congr rfl fun _ hurl => hurl⟩
  simp only [hbears]

namespace Markup

/-- The text that events add. -/
def textOf (es : List Event) : Text := es.flatMap Event.content

@[simp] theorem textOf_append (es es' : List Event) :
    textOf (es ++ es') = textOf es ++ textOf es' := by simp [textOf]

namespace Intake

variable {ctx : Context} {t : Intake} {past : DueText}

/-- What is due in the text taken in so far is borne by the sentences, and behind them by the spans
held back. -/
structure Splits (t : Intake) (past before : DueText) (ms : List DueText) : Prop where
  past_eq : past = before ++ ms.flatten
  bear : Bear t.added (Marked.ink before)
  due : List.Forall₂ (fun span m => Due span.text span.link m) t.held ms

/-- Nothing that is due has been lost. -/
def Owes (t : Intake) (past : DueText) : Prop := ∃ before ms, t.Splits past before ms

/-- Nothing is due in the last span, so its url may change. -/
def Settled (t : Intake) (past : DueText) : Prop :=
  ∃ before ms, t.Splits past before ms ∧ ∀ m ∈ ms.getLast?, Free m

theorem settled_start : Settled {} [] := ⟨[], [], ⟨rfl, .nil, .nil⟩, by simp⟩

theorem Settled.owes (h : t.Settled past) : t.Owes past := by
  obtain ⟨before, ms, h, -⟩ := h
  exact ⟨before, ms, h⟩

theorem Owes.release (h : t.Owes past) : Bear (t.accept ctx .boundary).added (Marked.ink past) := by
  obtain ⟨before, ms, rfl, hbear, hdue⟩ := h
  rw [Marked.ink_append]
  exact hbear.append (bear_map_unflagged.mpr (bear_extract ctx.terminators hdue))

theorem Splits.hold {before m : DueText} {ms : List DueText} {span : Span}
    (h : t.Splits past before ms) (hm : Due span.text span.link m) :
    Splits { t with held := t.held ++ [span] } (past ++ m) before (ms ++ [m]) :=
  ⟨by simp [h.past_eq], h.bear, List.rel_append h.due (.cons hm .nil)⟩

/-- More text, or a boundary, settles what has been due. -/
theorem Owes.accept {e : Event} (h : t.Owes past) (he : ∀ url, e ≠ .link url) :
    (t.accept ctx e).Settled (past ++ Marked.const [] e.content) := by
  cases e with
  | leaf l =>
    obtain ⟨before, ms, h⟩ := h
    have hfree : Due (Marked.text (Marked.const [] l.content)) l.link (Marked.const [] l.content) :=
      .free (.const l.content)
    rw [Marked.text_const] at hfree
    exact ⟨before, _, h.hold hfree, by simp [Free.const, Event.content]⟩
  | link url => exact absurd rfl (he url)
  | boundary => exact ⟨past, [], ⟨by simp [Event.content], h.release, .nil⟩, by simp⟩

theorem Settled.link (h : t.Settled past) (url : Text) :
    (t.accept ctx (.link url)).Settled past := by
  obtain ⟨before, ms, h, hlast⟩ := h
  refine ⟨before, ms, ⟨h.past_eq, h.bear, ?_⟩, hlast⟩
  have hdue := h.due
  dsimp only [Intake.accept]
  obtain hnil | ⟨spans, span, hheld⟩ := List.eq_nil_or_concat' t.held
  · rwa [hnil] at hdue ⊢
  · rw [hheld] at hdue ⊢
    obtain ⟨ms', m, rfl, hms, hm⟩ := exists_of_forall₂_concat hdue
    have hfree : Due span.text (some url) m := by
      rw [← hm.text_eq]
      exact .free (hlast m (by simp))
    rw [relink_concat]
    exact List.rel_append hms (.cons hfree .nil)

theorem Settled.accept (h : t.Settled past) (e : Event) :
    (t.accept ctx e).Settled (past ++ Marked.const [] e.content) := by
  cases e with
  | leaf l => exact h.owes.accept (by simp)
  | link url => simpa [Event.content] using h.link url
  | boundary => exact h.owes.accept (by simp)

theorem Settled.foldl {es : List Event} (h : t.Settled past) :
    (es.foldl (Intake.accept ctx) t).Settled (past ++ Marked.const [] (textOf es)) := by
  induction es generalizing t past with
  | nil => simpa [textOf] using h
  | cons e es ih => simpa [textOf] using ih (h.accept e)

/-- The links behind a leaf write over each other, and the last of them stays. -/
theorem Settled.owes_linked {l : Leaf} {s : Text} {c : Char} (h : t.Settled past)
    (hl : l.content = s ++ [c]) (hc : isBlank c = false) (hplain : isCloser c = false)
    (urls : List Text) (url : Text) :
    ((.leaf l :: urls.map Event.link ++ [Event.link url]).foldl (Intake.accept ctx) t).Owes
      (past ++ (Marked.const [] s ++ [(c, [url])])) := by
  obtain ⟨before, ms, h, -⟩ := h
  obtain ⟨link, hlinks⟩ := @foldl_links ctx urls t.added t.held
    ⟨ctx.lines.lineNumber l.offset, l.content, l.link⟩
  have hdue : Due (Marked.text (Marked.const [] s) ++ [c]) (some url)
      (Marked.const [] s ++ [(c, [url])]) := .last (.const s) hc hplain
  rw [Marked.text_const, ← hl] at hdue
  rw [List.cons_append, List.foldl_cons, List.foldl_append]
  dsimp only [Intake.accept, List.foldl_cons, List.foldl_nil]
  rw [hlinks, relink_concat]
  exact ⟨before, _, h.hold hdue⟩

theorem Owes.foldl {es : List Event} (h : t.Owes past) (hes : ∀ url, es.head? ≠ some (.link url)) :
    (es.foldl (Intake.accept ctx) t).Owes (past ++ Marked.const [] (textOf es)) := by
  cases es with
  | nil => simpa [textOf] using h
  | cons e es =>
    have he : ∀ url, e ≠ .link url := fun url => by simpa using hes url
    have hrest : (es.foldl (Intake.accept ctx) (t.accept ctx e)).Settled _ := (h.accept he).foldl
    simpa [textOf] using hrest.owes

end Intake

section

variable (ctx : Context) (name : Text) (tree : Node) {before after init : List Event}
  {inList : Bool} {url : Text} {label : List Node} {l : Leaf} {urls : List Text} {t : Text}
  {c : Char}

/-- Of the links behind a leaf the last one gives its url to the sentence that receives the end of
the leaf, when that is ink. -/
theorem lists_last_url
    (htrail : tree.trail false = before ++ (.leaf l :: urls.map .link ++ [.link url]) ++ after)
    (hl : l.content = t ++ [c]) (hc : isBlank c = false) (hplain : isCloser c = false)
    (hafter : ∀ url', after.head? ≠ some (.link url')) :
    let marked := Marked.spot (textOf before ++ t) c (textOf after)
    (∃ s, HoldsMark (compile ctx name tree).1.sentences marked s) ∧
      ∀ s, HoldsMark (compile ctx name tree).1.sentences marked s → url ∈ s.links := by
  intro marked
  let due : DueText := Marked.const [] (textOf before ++ t) ++
    (c, [url]) :: Marked.const [] (textOf after)
  have hmarked : marked = dueMarks due := by
    simp [marked, due, dueMarks, Marked.spot, Marked.mapMarks, Marked.const, Function.comp_def]
  have howes : ((tree.trail false).foldl (Intake.accept ctx) {}).Owes due := by
    have hbefore : (before.foldl (Intake.accept ctx) {}).Settled _ := Intake.settled_start.foldl
    have hlinked : ((.leaf l :: urls.map Event.link ++ [Event.link url]).foldl
        (Intake.accept ctx) _).Owes _ := hbefore.owes_linked hl hc hplain urls url
    have hend : (after.foldl (Intake.accept ctx) _).Owes _ := hlinked.foldl hafter
    rw [htrail, List.foldl_append, List.foldl_append]
    simpa [due] using hend
  have hbear : Bear (compile ctx name tree).1.sentences (Marked.ink due) := by
    rw [← bear_map_unflagged, unflagged_sentences_compile, List.foldl_append]
    exact howes.release
  rw [hmarked]
  constructor
  · have hdue : (c, [url]) ∈ due := by simp [due]
    exact exists_holdsMark hbear hdue hc (by simp)
  · intro s hs
    obtain ⟨x, hx, hne, hlists⟩ := exists_due_of_holdsMark hbear hs
    -- the url of the last link is the only one that is due
    have hurl : x.2 = [url] := by
      rcases List.mem_append.mp hx with hx | hx
      · exact absurd (Marked.mark_eq_of_mem_const hx) hne
      · rcases List.mem_cons.mp hx with rfl | hx
        · rfl
        · exact absurd (Marked.mark_eq_of_mem_const hx) hne
    exact hlists url (by simp [hurl])

/-- The url of a link whose label ends in ink is listed by the sentence that receives the last
character of the label, unless another link ends right behind it. -/
theorem compile_lists_url (hlink : tree.Within before inList (.container (.link url) label) after)
    (hlabel : Node.trailOfAll inList label = init ++ .leaf l :: urls.map .link)
    (hl : l.content = t ++ [c]) (hc : isBlank c = false) (hplain : isCloser c = false)
    (hafter : ∀ url', after.head? ≠ some (.link url')) :
    let marked := Marked.spot (textOf (before ++ init) ++ t) c (textOf after)
    (∃ s, HoldsMark (compile ctx name tree).1.sentences marked s) ∧
      ∀ s, HoldsMark (compile ctx name tree).1.sentences marked s → url ∈ s.links := by
  have htrail : tree.trail false = before ++ init ++
      (.leaf l :: urls.map .link ++ [.link url]) ++ after := by
    rw [hlink.trail_eq, Node.trail]
    simp [Container.opening, Container.closing, Container.before, Container.isList, hlabel]
  exact lists_last_url ctx name tree htrail hl hc hplain hafter

end

/-- The first of two links in a paragraph, with emphasis in its label. -/
theorem compile_lists_url_of_emphasis :
    let ctx : Context := ⟨.ofText "See [the *docs*](a). [More](b).\n".toList, .fullStop⟩
    let label : List Node := [.text 5 "the ".toList,
      .container .emphasis [.text 10 "docs".toList]]
    let more : Node := .container (.link "b".toList) [.text 22 "More".toList]
    let tree : Node := .container .root [.container .paragraph [.text 0 "See ".toList,
      .container (.link "a".toList) label, .text 19 ". ".toList, more, .text 30 ".".toList]]
    let marked := Marked.spot "See the doc".toList 's' ". More.".toList
    (∃ s, HoldsMark (compile ctx [] tree).1.sentences marked s) ∧
      ∀ s, HoldsMark (compile ctx [] tree).1.sentences marked s → "a".toList ∈ s.links := by
  intro ctx label more tree
  have hparagraph : tree.Within [] false _ [] := @Node.Within.child tree _ _ _ .root [] [] _ .self
  have hlink : tree.Within [.boundary, .leaf (.text 0 "See ".toList)] false
      (.container (.link "a".toList) label) (.leaf (.text 19 ". ".toList) :: _) :=
    @Node.Within.child tree _ _ _ .paragraph [.text 0 "See ".toList]
      [.text 19 ". ".toList, more, .text 30 ".".toList] _ hparagraph
  have hlabel : Node.trailOfAll false label =
      [.leaf (.text 5 "the ".toList)] ++ .leaf (.text 10 "docs".toList) :: [].map .link := rfl
  have hlast : (Leaf.text 10 "docs".toList).content = "doc".toList ++ ['s'] := rfl
  exact compile_lists_url ctx [] tree hlink hlabel hlast (by decide) (by decide) (by simp)

/-- A link without text behind another one takes the place of its url. -/
theorem link_without_text_takes_place :
    ¬ ∀ (ctx : Context) (name : Text) (tree : Node) (before after init : List Event)
        (inList : Bool) (url : Text) (label : List Node) (l : Leaf) (urls : List Text) (t : Text)
        (c : Char),
      tree.Within before inList (.container (.link url) label) after →
      Node.trailOfAll inList label = init ++ .leaf l :: urls.map .link →
      l.content = t ++ [c] → isBlank c = false → isCloser c = false →
      ∀ s, HoldsMark (compile ctx name tree).1.sentences
        (Marked.spot (textOf (before ++ init) ++ t) c (textOf after)) s → url ∈ s.links := by
  intro h
  let ctx : Context := ⟨.ofText "[a](u)[](v)\n".toList, .fullStop⟩
  let label : List Node := [.text 1 "a".toList]
  let second : Node := .container (.link "v".toList) []
  let tree : Node := .container .root [.container .paragraph
    [.container (.link "u".toList) label, second]]
  let s : Sentence :=
    { content := "a".toList, line := 1, isFirst := true, links := ["v".toList] }
  have hsentences : (compile ctx [] tree).1.sentences = [s] := by cbv
  have hparagraph : tree.Within [] false _ [] := @Node.Within.child tree _ _ _ .root [] [] _ .self
  have hlink : tree.Within [.boundary] false (.container (.link "u".toList) label)
      [.link "v".toList, .boundary] :=
    @Node.Within.child tree _ _ _ .paragraph [] [second] _ hparagraph
  have hholds : HoldsMark (compile ctx [] tree).1.sentences (Marked.spot [] 'a' []) s := by
    rw [hsentences]
    have hdeals : Deals ["a".toList] (Marked.spot [] 'a' []) [[('a', true)]] :=
      ⟨rfl, .cons rfl .nil⟩
    exact ⟨_, [('a', true)], hdeals, by simp, ('a', true), by simp, rfl⟩
  have hlists := h ctx [] tree _ _ [] _ _ _ (.text 1 "a".toList) [] [] 'a' hlink rfl rfl
    (by decide) (by decide) s hholds
  exact absurd hlists (by decide)

end Markup
end ProseLint
