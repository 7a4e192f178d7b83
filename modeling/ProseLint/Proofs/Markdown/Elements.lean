import Mathlib.Tactic
import ProseLint.Parse
import ProseLint.Proofs.Markup.Run

/-!
# Elements as events

An element of a Markdown text is a leaf, or a tag with the elements inside it. The events of an
element are its leaf, or the start of its tag, the events inside and the end. Taking in the events
of an element adds its nodes to the innermost tag that is open, whatever stands around it: a
container of the nodes inside, or the leaf that a tag becomes for which the document has no place.
-/
namespace ProseLint.Markdown

open Markup (Container Leaf Node OmittedKind SpecialText)

namespace Event

def isStart : Event → Bool
  | start _ => true
  | _ => false

def isFinish : Event → Bool
  | finish => true
  | _ => false

/-- An event that neither starts nor ends a tag. -/
def isLeaf (e : Event) : Bool := !e.isStart && !e.isFinish

end Event

/-- The number of tags that events start. -/
def starts (es : List EventAt) : ℕ := es.countP (·.event.isStart)

/-- The number of tags that events end. -/
def finishes (es : List EventAt) : ℕ := es.countP (·.event.isFinish)

@[simp] theorem starts_append (es es' : List EventAt) :
    starts (es ++ es') = starts es + starts es' := List.countP_append

@[simp] theorem finishes_append (es es' : List EventAt) :
    finishes (es ++ es') = finishes es + finishes es' := List.countP_append

inductive Element where
  | leaf (e : EventAt) (isLeaf : e.event.isLeaf = true)
  | tag (offset : ℕ) (tag : Tag) (children : List Element) (stop : ℕ)

mutual

/-- The events of an element; a tag starts at `offset` and ends at `stop`. -/
def Element.events : Element → List EventAt
  | .leaf e _ => [e]
  | .tag offset tag children stop =>
    ⟨offset, .start tag⟩ :: eventsOf children ++ [⟨stop, .finish⟩]

def eventsOf : List Element → List EventAt
  | [] => []
  | x :: xs => x.events ++ eventsOf xs

end

/-- The leaf that stands for an event: that of a leaf event, or what a tag becomes that is no
container. -/
def EventAt.leaf? (e : EventAt) : Option Leaf :=
  match e.event with
  | .start tag =>
    match shape e.offset tag with
    | .container _ => none
    | .leaf l => some l
  | event => Markdown.leaf? e.offset event

mutual

/-- The nodes of an element. What stands inside a tag that becomes a leaf is left out. -/
def Element.nodes : Element → List Node
  | .leaf e _ => (e.leaf?.map Node.leaf).toList
  | .tag offset tag children _ =>
    match shape offset tag with
    | .container kind => [.container kind (nodesOf children)]
    | .leaf l => [.leaf l]

def nodesOf : List Element → List Node
  | [] => []
  | x :: xs => x.nodes ++ nodesOf xs

end

mutual

/-- The starts and leaves of an element that stand inside no tag that becomes a leaf. -/
def Element.visible : Element → List EventAt
  | .leaf e _ => [e]
  | .tag offset tag children _ =>
    ⟨offset, .start tag⟩ ::
      match shape offset tag with
      | .container _ => visibleOf children
      | .leaf _ => []

def visibleOf : List Element → List EventAt
  | [] => []
  | x :: xs => x.visible ++ visibleOf xs

end

section

variable (xs ys : List Element)

theorem eventsOf_append : eventsOf (xs ++ ys) = eventsOf xs ++ eventsOf ys := by
  induction xs with
  | nil => rfl
  | cons x xs ih => simp only [List.cons_append, eventsOf, ih, List.append_assoc]

theorem nodesOf_append : nodesOf (xs ++ ys) = nodesOf xs ++ nodesOf ys := by
  induction xs with
  | nil => rfl
  | cons x xs ih => simp only [List.cons_append, nodesOf, ih, List.append_assoc]

theorem eventsOf_singleton (x : Element) : eventsOf [x] = x.events := List.append_nil _

theorem nodesOf_singleton (x : Element) : nodesOf [x] = x.nodes := List.append_nil _

end

mutual

theorem Element.visible_sublist : (x : Element) → x.visible.Sublist x.events
  | .leaf _ _ => .refl _
  | .tag offset tag children stop => by
    rw [Element.visible, Element.events, List.cons_append]
    refine .cons_cons _ ?_
    cases shape offset tag with
    | container kind => exact (visibleOf_sublist children).trans (List.sublist_append_left _ _)
    | leaf l => exact List.nil_sublist _

theorem visibleOf_sublist : (xs : List Element) → (visibleOf xs).Sublist (eventsOf xs)
  | [] => .refl _
  | x :: xs => x.visible_sublist.append (visibleOf_sublist xs)

end

theorem leavesOfAll_append (ns ms : List Node) :
    Node.leavesOfAll (ns ++ ms) = Node.leavesOfAll ns ++ Node.leavesOfAll ms := by
  induction ns with
  | nil => rfl
  | cons n ns ih => simp only [List.cons_append, Node.leavesOfAll, ih, List.append_assoc]

mutual

theorem Element.leaves_nodes :
    (x : Element) → Node.leavesOfAll x.nodes = x.visible.filterMap EventAt.leaf?
  | .leaf e _ => by
    rw [Element.nodes, Element.visible]
    cases h : e.leaf? <;> simp [Node.leavesOfAll, Node.leaves, h]
  | .tag offset tag children stop => by
    rw [Element.nodes, Element.visible, List.filterMap_cons]
    cases h : shape offset tag with
    | container kind =>
      simp [EventAt.leaf?, h, Node.leavesOfAll, Node.leaves, leaves_nodesOf children]
    | leaf l => simp [EventAt.leaf?, h, Node.leavesOfAll, Node.leaves]

/-- The leaves of the nodes are those of the visible events, in their order. -/
theorem leaves_nodesOf :
    (xs : List Element) → Node.leavesOfAll (nodesOf xs) = (visibleOf xs).filterMap EventAt.leaf?
  | [] => rfl
  | x :: xs => by
    rw [nodesOf, visibleOf, leavesOfAll_append, x.leaves_nodes, leaves_nodesOf xs,
      List.filterMap_append]

end

/-- A tag that is no container is left out, or it is an address. -/
theorem shape_eq_leaf {offset : ℕ} {tag : Tag} {l : Leaf} (h : shape offset tag = .leaf l) :
    (∃ kind, l = .omitted kind) ∨ ∃ url, tag = .link .autolink url ∧ l = .autolink offset url := by
  unfold shape at h
  split at h <;> simp only [reduceCtorEq, Shape.leaf.injEq] at h <;> subst h <;> simp

/-- A leaf has the offset of its event, unless it stands for what is left out. -/
theorem offset_of_leaf? {e : EventAt} {l : Leaf} (h : e.leaf? = some l) :
    (∃ kind, l = .omitted kind) ∨ l.offset = e.offset := by
  unfold EventAt.leaf? at h
  split at h
  · split at h
    · simp at h
    · rename_i hshape
      obtain rfl := Option.some.inj h
      exact (shape_eq_leaf hshape).imp_right fun ⟨url, _, hl⟩ => hl ▸ rfl
  · unfold Markdown.leaf? at h
    split at h
    · split at h <;> obtain rfl := Option.some.inj h <;> exact .inr rfl
    all_goals simp only [reduceCtorEq, Option.some.injEq] at h <;> subst h <;> simp [Leaf.offset]

/-- The tag of a container; the root of a tree has none. -/
def tag? : Container → Option Tag
  | .root => none
  | .header level => some (.heading level)
  | .paragraph => some .paragraph
  | .bulletList => some (.list false)
  | .orderedList => some (.list true)
  | .listItem => some .item
  | .quote => some .quote
  | .emphasis => some .emphasis
  | .link url => some (.link .labelled url)

/-- The typographic text that is read as special. -/
def sourceGlyph : SpecialText → Text
  | .apostrophe => ['’']
  | kind => kind.glyph

/-- An element that is left out as this kind. -/
def omittedElement : OmittedKind → Element
  | .table => .tag 0 .table [] 0
  | .definitionList => .tag 0 .definitionList [] 0
  | .rawMarkup => .tag 0 .htmlBlock [] 0
  | .image => .tag 0 (.image []) [] 0
  | .codeBlock => .tag 0 .codeBlock [] 0
  | .footnote => .tag 0 .footnote [] 0
  | .footnoteReference => .leaf ⟨0, .footnoteReference⟩ rfl
  | .metadata => .tag 0 .metadata [] 0
  | .rule => .leaf ⟨0, .rule⟩ rfl

def leafElement : Leaf → Element
  | .text offset t => .leaf ⟨offset, .text t⟩ rfl
  | .code offset t => .leaf ⟨offset, .code t⟩ rfl
  | .autolink offset url => .tag offset (.link .autolink url) [] offset
  | .special offset kind => .leaf ⟨offset, .text (sourceGlyph kind)⟩ rfl
  | .omitted kind => omittedElement kind

mutual

/-- Elements that give a node: a leaf, or the tag of a container around those of what is inside. -/
def elementsOf : Node → List Element
  | .leaf l => [leafElement l]
  | .container kind children =>
    match tag? kind with
    | some tag => [.tag 0 tag (elementsOfAll children) 0]
    | none => []

def elementsOfAll : List Node → List Element
  | [] => []
  | n :: ns => elementsOf n ++ elementsOfAll ns

end

mutual

/-- A node without roots in which no text leaf is a typographic glyph: such a text is read as a
special leaf. -/
def isInner : Node → Bool
  | .leaf (.text _ t) => (SpecialText.ofGlyph? t).isNone
  | .leaf _ => true
  | .container kind children => (tag? kind).isSome && allInner children

def allInner : List Node → Bool
  | [] => true
  | n :: ns => isInner n && allInner ns

end

theorem nodes_leafElement {l : Leaf} (h : isInner (.leaf l) = true) :
    (leafElement l).nodes = [.leaf l] := by
  cases l with
  | text offset t =>
    have hplain : SpecialText.ofGlyph? t = none := by simpa [isInner] using h
    simp [leafElement, Element.nodes, EventAt.leaf?, Markdown.leaf?, hplain]
  | code offset t => rfl
  | autolink offset url => rfl
  | special offset kind => cases kind <;> rfl
  | omitted kind => cases kind <;> rfl

theorem shape_of_tag? {kind : Container} {tag : Tag} (h : tag? kind = some tag) (offset : ℕ) :
    shape offset tag = .container kind := by
  cases kind <;> simp only [tag?, reduceCtorEq, Option.some.injEq] at h <;> subst h <;> rfl

mutual

theorem nodesOf_elementsOf : (n : Node) → isInner n = true → nodesOf (elementsOf n) = [n]
  | .leaf l, h => by rw [elementsOf, nodesOf_singleton, nodes_leafElement h]
  | .container kind children, h => by
    rw [isInner, Bool.and_eq_true] at h
    obtain ⟨tag, htag⟩ := Option.isSome_iff_exists.mp h.1
    rw [elementsOf, htag]
    dsimp only
    rw [nodesOf_singleton, Element.nodes, shape_of_tag? htag]
    dsimp only
    rw [nodesOf_elementsOfAll children h.2]

/-- Every forest of such nodes is that of some elements. -/
theorem nodesOf_elementsOfAll :
    (ns : List Node) → allInner ns = true → nodesOf (elementsOfAll ns) = ns
  | [], _ => rfl
  | n :: ns, h => by
    rw [allInner, Bool.and_eq_true] at h
    rw [elementsOfAll, nodesOf_append, nodesOf_elementsOf n h.1, nodesOf_elementsOfAll ns h.2]
    rfl

end

namespace Frames

variable {s s' : Frames} {e : EventAt}

/-- Add nodes to the innermost tag that is open. -/
def add (ns : List Node) (s : Frames) : Frames :=
  { s with top := { s.top with children := s.top.children ++ ns } }

@[simp] theorem add_nil (s : Frames) : s.add [] = s := by simp [add]

@[simp] theorem add_add (ns ms : List Node) (s : Frames) :
    (s.add ns).add ms = s.add (ns ++ ms) := by
  simp [add]

@[simp] theorem below_add (ns : List Node) (s : Frames) : (s.add ns).below = s.below := rfl

theorem steps_append (s : Frames) (es es' : List EventAt) :
    s.steps (es ++ es') = s.steps es >>= fun s' => s'.steps es' := by
  induction es generalizing s with
  | nil => rfl
  | cons e es ih =>
    rw [List.cons_append, steps, steps]
    cases s.step e with
    | ok s' => exact ih s'
    | error offset => rfl

theorem step_start {offset : ℕ} {tag : Tag} :
    s.step ⟨offset, .start tag⟩ = .ok ⟨⟨shape offset tag, []⟩, s.top :: s.below⟩ := rfl

theorem step_leaf (h : e.event.isLeaf = true) :
    s.step e = .ok (s.add (e.leaf?.map Node.leaf).toList) := by
  unfold step EventAt.leaf?
  split
  · rename_i hstart
    simp [hstart, Event.isLeaf, Event.isStart] at h
  · rename_i hfinish
    simp [hfinish, Event.isLeaf, Event.isFinish] at h
  · cases hleaf : Markdown.leaf? e.offset e.event <;> simp [add, Frame.push, hleaf]

/-- The node of a tag that ends is added to the tag around it. -/
theorem step_finish {top outer : Frame} {rest : List Frame} {stop : ℕ} :
    (⟨top, outer :: rest⟩ : Frames).step ⟨stop, .finish⟩ =
      .ok ((⟨outer, rest⟩ : Frames).add [top.toNode]) := rfl

theorem toNode_nodes (offset : ℕ) (tag : Tag) (children : List Element) (stop : ℕ) :
    [Frame.toNode ⟨shape offset tag, nodesOf children⟩] =
      (Element.tag offset tag children stop).nodes := by
  rw [Element.nodes, Frame.toNode]
  cases shape offset tag <;> rfl

mutual

/-- The events of an element add its nodes. -/
theorem steps_events (s : Frames) : (x : Element) → s.steps x.events = .ok (s.add x.nodes)
  | .leaf e h => by
    rw [Element.events, steps, step_leaf h]
    rfl
  | .tag offset tag children stop => by
    rw [Element.events, List.cons_append, steps, step_start]
    dsimp only
    rw [steps_append, steps_eventsOf ⟨⟨shape offset tag, []⟩, s.top :: s.below⟩ children,
      ← toNode_nodes offset tag children stop]
    rfl

theorem steps_eventsOf (s : Frames) :
    (xs : List Element) → s.steps (eventsOf xs) = .ok (s.add (nodesOf xs))
  | [] => by
    rw [nodesOf, add_nil]
    rfl
  | x :: xs => by
    rw [eventsOf, nodesOf, steps_append, steps_events s x, ← add_add]
    exact steps_eventsOf (s.add x.nodes) xs

end

end Frames

end ProseLint.Markdown
