import ProseLint.Proofs.Document.Prose
import ProseLint.Proofs.Markup.Places

/-!
# The trail of a visit

What a visit of a tree does to the text held back, from left to right: a leaf adds to it, a link
gives its url to what was added last, and at a boundary all of it becomes sentences. These events
are the trail of the tree, of which a node inside the tree has its part.
-/
namespace ProseLint.Markup

inductive Event where
  | leaf (l : Leaf)
  | link (url : Text)
  | boundary
  deriving DecidableEq, Repr

/-- What is left out adds nothing. -/
def Leaf.events : Leaf → List Event
  | omitted _ => []
  | l => [.leaf l]

namespace Container

def opening (inList : Bool) (kind : Container) : List Event :=
  List.replicate (kind.before inList) .boundary

def closing (inList : Bool) : Container → List Event
  | link url => [.link url]
  | kind => List.replicate (kind.behind inList) .boundary

end Container

/-- The text that an event adds. -/
def Event.content : Event → Text
  | leaf l => l.content
  | link _ | boundary => []

/-- The url that the text of a leaf comes with. -/
def Leaf.link : Leaf → Option Text
  | autolink _ url => some url
  | text _ _ | code _ _ | special _ _ | omitted _ => none

namespace Node

mutual

def trail (inList : Bool) : Node → List Event
  | .leaf l => l.events
  | .container kind children => kind.opening inList ++
      trailOfAll (inList || kind.isList) children ++ kind.closing inList

def trailOfAll (inList : Bool) : List Node → List Event
  | [] => []
  | n :: ns => trail inList n ++ trailOfAll inList ns

end

theorem trailOfAll_append (inList : Bool) (ns ns' : List Node) :
    trailOfAll inList (ns ++ ns') = trailOfAll inList ns ++ trailOfAll inList ns' := by
  induction ns with
  | nil => rfl
  | cons n ns ih => rw [List.cons_append, trailOfAll, trailOfAll, ih, List.append_assoc]

/-- A node inside a tree, in a list or not, with the events in front of it and behind it. -/
inductive Within (tree : Node) : List Event → Bool → Node → List Event → Prop
  | self : Within tree [] false tree []
  | child {before after : List Event} {inList : Bool} {kind : Container} {left right : List Node}
      {n : Node} (parent : Within tree before inList (.container kind (left ++ n :: right)) after) :
      Within tree (before ++ kind.opening inList ++ trailOfAll (inList || kind.isList) left)
        (inList || kind.isList) n
        (trailOfAll (inList || kind.isList) right ++ kind.closing inList ++ after)

theorem Within.trail_eq {tree n : Node} {before after : List Event} {inList : Bool}
    (h : Within tree before inList n after) :
    tree.trail false = before ++ n.trail inList ++ after := by
  induction h with
  | self => simp
  | child _ ih => simp [ih, trail, trailOfAll_append, trailOfAll]

end Node

/-- The sentences as they were added to the document, and the text held back. -/
structure Intake where
  added : List Sentence := []
  held : List Span := []

namespace Intake

variable {ctx : Context}

/-- The url goes to the last of the spans. -/
def relink (url : Text) (spans : List Span) : List Span :=
  spans.modify (spans.length - 1) fun span => { span with link := some url }

@[simp] theorem relink_nil (url : Text) : relink url [] = [] := rfl

@[simp] theorem relink_concat (url : Text) (spans : List Span) (span : Span) :
    relink url (spans ++ [span]) = spans ++ [{ span with link := some url }] := by
  simp [relink]

def accept (ctx : Context) (t : Intake) : Event → Intake
  | .leaf l => { t with held := t.held ++ [⟨ctx.lines.lineNumber l.offset, l.content, l.link⟩] }
  | .link url => { t with held := relink url t.held }
  | .boundary => ⟨t.added ++ (extract ctx.terminators t.held).map Sentence.unflagged, []⟩

/-- Links in a row change nothing but the url of the last span. -/
theorem foldl_links (urls : List Text) (added : List Sentence) (spans : List Span) (span : Span) :
    ∃ link, (urls.map Event.link).foldl (accept ctx) ⟨added, spans ++ [span]⟩ =
      ⟨added, spans ++ [{ span with link := link }]⟩ := by
  induction urls generalizing span with
  | nil => exact ⟨span.link, rfl⟩
  | cons url urls ih =>
    obtain ⟨link, hlink⟩ := ih { span with link := some url }
    exact ⟨link, by simpa [accept] using hlink⟩

end Intake
end ProseLint.Markup
