import ProseLint.Proofs.Document.Flags
import ProseLint.Proofs.Document.Seats
import ProseLint.Proofs.Markup.Visit
import ProseLint.Proofs.Sentence.Relabel

/-!
# From the tree to places in the document

Each leaf of a tree belongs to a place in the document: to a list element of as many levels as there
are lists around the leaf, to the header of a section, or to a paragraph. The depth of lists is
counted up and down while the tree is visited, and the text held back is always that of one place:
before the place changes, the sentences of the text are added there.
-/
namespace ProseLint

open Markup

/-- The place of what a container holds; so many headers and lists come before it. Inside a list a
header makes no place of its own. -/
def Seat.enter (headers lists : ℕ) (kind : Container) (here : Seat) : Seat :=
  match kind, here with
  | .header _, .element list level => .element list level
  | .header _, _ => .header headers
  | .bulletList, .element list level => .element list (level + 1)
  | .orderedList, .element list level => .element list (level + 1)
  | .bulletList, _ | .orderedList, _ => .element lists 1
  | .root, here | .paragraph, here | .listItem, here | .quote, here | .emphasis, here
  | .link _, here => here

namespace Markup

def Container.level? : Container → Option ℕ
  | header level => some level
  | root | paragraph | bulletList | orderedList | listItem | quote | emphasis | link _ => none

namespace Node

mutual

/-- The levels of the headers that are in no list. -/
def headerLevels : Node → List ℕ
  | .leaf _ => []
  | .container kind children =>
    if kind.isList then [] else kind.level?.toList ++ headerLevelsOfAll children

def headerLevelsOfAll : List Node → List ℕ
  | [] => []
  | n :: ns => n.headerLevels ++ headerLevelsOfAll ns

end

mutual

/-- The number of lists that are in no other list. -/
def outerLists : Node → ℕ
  | .leaf _ => 0
  | .container kind children => if kind.isList then 1 else outerListsOfAll children

def outerListsOfAll : List Node → ℕ
  | [] => 0
  | n :: ns => n.outerLists + outerListsOfAll ns

end

mutual

/-- The leaves of a tree with their places. The tree itself is at the place `here`, behind so many
headers and lists. -/
def seats (headers lists : ℕ) (here : Seat) : Node → List (Seat × Leaf)
  | .leaf l => [(here, l)]
  | .container kind children => seatsOfAll headers lists (here.enter headers lists kind) children

def seatsOfAll (headers lists : ℕ) (here : Seat) : List Node → List (Seat × Leaf)
  | [] => []
  | n :: ns => n.seats headers lists here ++
      seatsOfAll (headers + n.headerLevels.length) (lists + n.outerLists) here ns

end

def isItem : Node → Bool
  | .container .listItem _ => true
  | .container _ _ | .leaf _ => false

mutual

/-- Lists hold list items only, and no other node holds one. Headers, paragraphs, emphasis and links
hold inline nodes only. -/
def isRegular : Node → Bool
  | .leaf _ => true
  | .container .bulletList children => allRegular true children
  | .container .orderedList children => allRegular true children
  | .container (.header _) children => allInline children
  | .container .paragraph children => allInline children
  | .container .emphasis children => allInline children
  | .container (.link _) children => allInline children
  | .container .root children => allRegular false children
  | .container .quote children => allRegular false children
  | .container .listItem children => allRegular false children

/-- The nodes are regular, and list items or not. -/
def allRegular (items : Bool) : List Node → Bool
  | [] => true
  | n :: ns => n.isItem == items && n.isRegular && allRegular items ns

end

mutual

theorem headerLevels_of_isInline : (n : Node) → n.isInline = true →
    n.headerLevels = [] ∧ n.outerLists = 0
  | .leaf l, _ => by simp [headerLevels, outerLists]
  | .container kind children, h => by
    have hkind : allInline children = true ∧ kind.isList = false ∧ kind.level? = none := by
      cases kind <;> simp_all [isInline, Container.isList, Container.level?]
    obtain ⟨hchildren, hlist, hlevel⟩ := hkind
    obtain ⟨hlevels, hlists⟩ := headerLevelsOfAll_of_allInline children hchildren
    simp [headerLevels, outerLists, hlist, hlevel, hlevels, hlists]

theorem headerLevelsOfAll_of_allInline : (ns : List Node) → allInline ns = true →
    headerLevelsOfAll ns = [] ∧ outerListsOfAll ns = 0
  | [], _ => by simp [headerLevelsOfAll, outerListsOfAll]
  | n :: ns, h => by
    rw [allInline, Bool.and_eq_true] at h
    obtain ⟨hfirst, hfirst'⟩ := headerLevels_of_isInline n h.1
    obtain ⟨hrest, hrest'⟩ := headerLevelsOfAll_of_allInline ns h.2
    simp [headerLevelsOfAll, outerListsOfAll, hfirst, hfirst', hrest, hrest']

end

theorem headerLevels_of_allInline {kind : Container} (hkind : kind.isList = false)
    {ns : List Node} (hns : allInline ns = true) :
    (container kind ns).headerLevels = kind.level?.toList ∧ (container kind ns).outerLists = 0 := by
  obtain ⟨hlevels, hlists⟩ := headerLevelsOfAll_of_allInline ns hns
  simp [headerLevels, outerLists, hkind, hlevels, hlists]

end Node

/-- Spans one after another that belong to one place. -/
structure Group where
  seat : Seat
  spans : List Span

namespace Group

/-- The sentences of the spans, at the place of the group. -/
def located (T : Terminators) (g : Group) : List (Seat × Sentence) :=
  g.seat.take (extract T g.spans)

/-- The lines and texts of the spans, with the place of the group. -/
def texts (g : Group) : List (Seat × ℕ × Text) := g.spans.map fun s => (g.seat, s.line, s.text)

end Group

/-- The line and the text of a leaf that has a place, unless the leaf is left out. -/
def textAt? (ctx : Context) : Seat × Leaf → Option (Seat × ℕ × Text)
  | (_, .omitted _) => none
  | (seat, l) => some (seat, ctx.lines.lineNumber l.offset, l.content)

namespace Compilation

variable {ctx : Context} {c c' : Compilation}

/-- The leaves that have been taken in are in the document at their places, behind so many headers
and lists, but for the last of them, which are all held back for the place `here`. -/
structure Seated (ctx : Context) (c : Compilation) (here : Seat) (levels : List ℕ) (lists : ℕ)
    (past : List (Seat × Leaf)) : Prop where
  exists_groups : ∃ (front : ℕ) (groups : List Group),
    c.document.Arranged front levels lists (groups.flatMap (Group.located ctx.terminators)) ∧
    groups.flatMap Group.texts ++ (Group.mk here c.held).texts = past.filterMap (textAt? ctx)

namespace Seated

variable {here here' : Seat} {levels levels' : List ℕ} {lists lists' : ℕ}
  {past : List (Seat × Leaf)}

theorem start (name : Text) : Seated ctx { document := { name := name } } .paragraph [] 0 [] :=
  ⟨0, [], .start name, rfl⟩

theorem append_nil (h : Seated ctx c here levels lists past) :
    Seated ctx c here levels lists (past ++ []) := by
  rwa [List.append_nil]

theorem congr (h : Seated ctx c here levels lists past) (hdocument : c'.document = c.document)
    (hheld : c'.held = c.held) : Seated ctx c' here levels lists past := by
  obtain ⟨front, groups, harranged, htexts⟩ := h
  exact ⟨front, groups, hdocument ▸ harranged, hheld ▸ htexts⟩

theorem reseat (h : Seated ctx c here levels lists past) (hheld : c.held = []) (here' : Seat) :
    Seated ctx c here' levels lists past := by
  obtain ⟨front, groups, hdocument, htexts⟩ := h
  refine ⟨front, groups, hdocument, ?_⟩
  rw [hheld] at htexts ⊢
  exact htexts

/-- The text held back becomes sentences at its place, and the place may change. -/
theorem release (h : Seated ctx c here levels lists past) (hheld : c'.held = [])
    (hdocument : ∀ front located, c.document.Arranged front levels lists located →
      ∃ front', c'.document.Arranged front' levels' lists'
        (located ++ here.take (extract ctx.terminators c.held))) (here' : Seat) :
    Seated ctx c' here' levels' lists' past := by
  obtain ⟨front, groups, harranged, htexts⟩ := h
  obtain ⟨front', harranged'⟩ := hdocument front _ harranged
  refine ⟨front', groups ++ [⟨here, c.held⟩], ?_, ?_⟩
  · simpa [Group.located] using harranged'
  · rw [hheld]
    simpa [Group.texts] using htexts

theorem leaf (h : Seated ctx c here levels lists past) (l : Leaf) :
    Seated ctx (visit ctx c (.leaf l)) here levels lists (past ++ [(here, l)]) := by
  obtain ⟨front, groups, hdocument, htexts⟩ := h
  cases l <;>
  · rw [visit]
    refine ⟨front, groups, hdocument, ?_⟩
    rw [List.filterMap_append, ← htexts]
    simp [Group.texts, textAt?, hold, note, Leaf.offset, Leaf.content]

/-- A url changes no text. -/
theorem link (h : Seated ctx c here levels lists past) (url : Text) :
    Seated ctx (c.link url) here levels lists past := by
  obtain ⟨front, groups, hdocument, htexts⟩ := h
  unfold Compilation.link
  split
  · rename_i span hspan
    obtain ⟨init, hinit⟩ := List.getLast?_eq_some_iff.mp hspan
    refine ⟨front, groups, hdocument, ?_⟩
    rw [← htexts]
    simp [Group.texts, hinit]
  · exact ⟨front, groups, hdocument, htexts⟩

/-- A change of the document that adds no sentence. -/
theorem build (h : Seated ctx c here levels lists past) {f : Document → Document}
    (hf : ∀ front located, c.document.Arranged front levels lists located →
      ∃ front', (f c.document).Arranged front' levels' lists' located) :
    Seated ctx (c.build f) here levels' lists' past := by
  obtain ⟨front, groups, hdocument, htexts⟩ := h
  obtain ⟨front', hdocument'⟩ := hf front _ hdocument
  exact ⟨front', groups, hdocument', htexts⟩

theorem flush (h : Seated ctx c .paragraph levels lists past) (here' : Seat) :
    Seated ctx (c.flush ctx) here' levels lists past :=
  h.release rfl (fun _ _ hdocument => hdocument.foldl_addSentence _) here'

theorem addSection (h : Seated ctx c (.header levels.length) levels lists past) (level : ℕ)
    (here' : Seat) : Seated ctx ((c.release ctx).2.addSection level (c.release ctx).1) here'
      (levels ++ [level]) lists past := by
  refine h.release (frame_addSection _ _ _).1 (fun front located hdocument => ⟨front, ?_⟩) here'
  have hadded := hdocument.addSection level (extract ctx.terminators c.held)
  obtain hroot | ⟨parent, hchild⟩ :=
    document_addSection (c.release ctx).2 level (c.release ctx).1
  · rw [hroot]
    exact hadded.addRoot _
  · rw [hchild]
    exact hadded.attachChild _ _

end Seated

mutual

/-- Inline nodes only add to the text held back. -/
theorem seated_visit_inline {c : Compilation} {here : Seat} {levels : List ℕ} {lists : ℕ}
    {past : List (Seat × Leaf)} (h : Seated ctx c here levels lists past) (headers' lists' : ℕ) :
    (n : Node) → n.isInline = true →
      Seated ctx (visit ctx c n) here levels lists (past ++ n.seats headers' lists' here) ∧
        (visit ctx c n).document = c.document
  | .leaf l, _ => by
    rw [Node.seats]
    refine ⟨h.leaf l, ?_⟩
    cases l <;> rw [visit] <;> rfl
  | .container .emphasis children, hn => by
    rw [visit, Node.seats]
    rw [Node.isInline] at hn
    exact seated_visitAll_inline h _ _ children hn
  | .container (.link url) children, hn => by
    rw [visit, Node.seats]
    rw [Node.isInline] at hn
    obtain ⟨hchildren, hdocument⟩ := seated_visitAll_inline h headers' lists' children hn
    refine ⟨hchildren.link url, ?_⟩
    rw [← hdocument]
    unfold Compilation.link
    split <;> rfl

theorem seated_visitAll_inline {c : Compilation} {here : Seat} {levels : List ℕ} {lists : ℕ}
    {past : List (Seat × Leaf)} (h : Seated ctx c here levels lists past) (headers' lists' : ℕ) :
    (ns : List Node) → Node.allInline ns = true →
      Seated ctx (visitAll ctx c ns) here levels lists
          (past ++ Node.seatsOfAll headers' lists' here ns) ∧
        (visitAll ctx c ns).document = c.document
  | [], _ => by
    rw [visitAll, Node.seatsOfAll]
    exact ⟨h.append_nil, rfl⟩
  | n :: ns, hns => by
    rw [Node.allInline, Bool.and_eq_true] at hns
    obtain ⟨hfirst, hdocument⟩ := seated_visit_inline h headers' lists' n hns.1
    obtain ⟨hrest, hdocument'⟩ := seated_visitAll_inline hfirst (headers' + n.headerLevels.length)
      (lists' + n.outerLists) ns hns.2
    rw [visitAll, Node.seatsOfAll, ← List.append_assoc]
    exact ⟨hrest, hdocument'.trans hdocument⟩

end

section Held

variable {c : Compilation}

theorem held_openList (c : Compilation) : (c.openList ctx).held = [] := by
  unfold openList
  split
  · rfl
  · exact held_addElement rfl _

theorem held_visit_of_isItem (c : Compilation) {n : Node} (h : n.isItem = true) :
    (visit ctx c n).held = [] := by
  cases n with
  | leaf l => simp [Node.isItem] at h
  | container kind children =>
    obtain rfl : kind = .listItem := by cases kind <;> simp_all [Node.isItem]
    rw [visit]
    exact held_addElement rfl _

theorem held_visitAll_of_allRegular (h : c.held = []) {ns : List Node}
    (hns : Node.allRegular true ns = true) : (visitAll ctx c ns).held = [] := by
  induction ns generalizing c with
  | nil =>
    rw [visitAll]
    exact h
  | cons n ns ih =>
    simp only [Node.allRegular, Bool.and_eq_true, beq_iff_eq] at hns
    rw [visitAll]
    exact ih (held_visit_of_isItem c hns.1.1) hns.2

end Held

/-! ## Inside lists -/

/-- The visit is inside list number `list`, and so many lists are open. -/
structure InList (ctx : Context) (c : Compilation) (list level : ℕ) (levels : List ℕ)
    (past : List (Seat × Leaf)) : Prop where
  seated : Seated ctx c (.element list level) levels (list + 1) past
  listDepth : c.listDepth = level
  pos : 0 < level
  ends : c.document.EndsInList

namespace InList

variable {list level : ℕ} {levels : List ℕ} {past : List (Seat × Leaf)}

theorem listDepth_ne_zero (h : InList ctx c list level levels past) : c.listDepth ≠ 0 :=
  h.listDepth ▸ h.pos.ne'

/-- The text held back becomes an element of the level, unless there is no sentence in it. -/
theorem element (h : InList ctx c list level levels past) (hheld : c'.held = [])
    (hdocument : c'.document = c.document) (hdepth : c'.listDepth = level) :
    InList ctx (c'.addElement (extract ctx.terminators c.held)) list level levels past := by
  unfold Compilation.addElement
  by_cases hempty : extract ctx.terminators c.held = []
  · rw [if_pos (by simpa using hempty)]
    refine ⟨h.seated.release hheld (fun front _ ha => ⟨front, ?_⟩) _, hdepth, h.pos, ?_⟩
    · rwa [hempty, Seat.take_nil, List.append_nil, hdocument]
    · rw [hdocument]
      exact h.ends
  · rw [if_neg (by simpa using hempty), hdepth]
    have hadded : Seated ctx (c'.build (Document.addElement level (extract ctx.terminators c.held)))
        (.element list level) levels (list + 1) past := by
      refine h.seated.release ?_ (fun _ _ ha => ?_) _
      · exact hheld
      · rw [Compilation.build, hdocument]
        exact ha.addElement h.ends level hempty
    exact ⟨hadded, hdepth, h.pos, Document.endsInList_addElement level _ _⟩

theorem flushElement (h : InList ctx c list level levels past) :
    InList ctx (c.flushElement ctx) list level levels past :=
  @element ctx c (c.release ctx).2 list level levels past h rfl rfl h.listDepth

theorem keepHeader (h : InList ctx c list level levels past) :
    InList ctx (c.keepHeader ctx) list level levels past := by
  unfold Compilation.keepHeader
  dsimp only
  split
  · rename_i hnone
    have hempty : extract ctx.terminators c.held = [] := List.head?_eq_none_iff.mp hnone
    have helement := @element ctx c (c.release ctx).2 list level levels past h rfl rfl h.listDepth
    rwa [hempty] at helement
  · exact element h rfl rfl h.listDepth

/-- The depth of lists is counted on the way. -/
theorem openList (h : InList ctx c list level levels past) :
    InList ctx (c.openList ctx) list (level + 1) levels past := by
  have hheld : (c.flushElement ctx).held = [] := held_addElement rfl _
  rw [Compilation.openList, if_neg h.listDepth_ne_zero]
  exact ⟨(h.flushElement.seated.reseat hheld _).congr rfl rfl,
    congrArg (· + 1) h.flushElement.listDepth, Nat.succ_pos _, h.flushElement.ends⟩

theorem closeList (h : InList ctx c list (level + 1) levels past) (hheld : c.held = [])
    (hpos : 0 < level) : InList ctx c.closeList list level levels past := by
  refine ⟨(h.seated.reseat hheld _).congr rfl rfl, ?_, hpos, h.ends⟩
  rw [listDepth_closeList, h.listDepth, Nat.add_sub_cancel]

theorem inline (h : InList ctx c list level levels past) (headers' lists' : ℕ) {n : Node}
    (hn : n.isInline = true) : InList ctx (visit ctx c n) list level levels
      (past ++ n.seats headers' lists' (.element list level)) := by
  obtain ⟨hseated, hdocument⟩ := seated_visit_inline h.seated headers' lists' n hn
  exact ⟨hseated, (listDepth_visit c n).trans h.listDepth, h.pos, hdocument ▸ h.ends⟩

theorem allInline (h : InList ctx c list level levels past) (headers' lists' : ℕ) {ns : List Node}
    (hns : Node.allInline ns = true) : InList ctx (visitAll ctx c ns) list level levels
      (past ++ Node.seatsOfAll headers' lists' (.element list level) ns) := by
  obtain ⟨hseated, hdocument⟩ := seated_visitAll_inline h.seated headers' lists' ns hns
  exact ⟨hseated, (listDepth_visitAll c ns).trans h.listDepth, h.pos, hdocument ▸ h.ends⟩

end InList

mutual

/-- In a list the visit of a regular node comes back to the list and the level it began at. -/
theorem inList_visit {c : Compilation} {list level : ℕ} {levels : List ℕ}
    {past : List (Seat × Leaf)} (h : InList ctx c list level levels past) (headers' lists' : ℕ) :
    (n : Node) → n.isRegular = true → InList ctx (visit ctx c n) list level levels
      (past ++ n.seats headers' lists' (.element list level))
  | .leaf l, _ => h.inline headers' lists' rfl
  | .container .root children, hn => by
    rw [visit, Node.seats]
    rw [Node.isRegular] at hn
    exact inList_visitAll h headers' lists' children hn
  | .container .quote children, hn => by
    rw [visit, Node.seats]
    rw [Node.isRegular] at hn
    exact inList_visitAll h headers' lists' children hn
  | .container .emphasis children, hn => by
    rw [Node.isRegular] at hn
    exact h.inline headers' lists' (by rwa [Node.isInline])
  | .container (.link url) children, hn => by
    rw [Node.isRegular] at hn
    exact h.inline headers' lists' (by rwa [Node.isInline])
  | .container .paragraph children, hn => by
    rw [visit, if_neg h.listDepth_ne_zero, Node.seats]
    rw [Node.isRegular] at hn
    exact h.allInline headers' lists' hn
  | .container (.header depth) children, hn => by
    rw [visit, if_neg h.listDepth_ne_zero, Node.seats]
    rw [Node.isRegular] at hn
    exact (h.flushElement.allInline headers' lists' hn).keepHeader
  | .container .bulletList children, hn => by
    rw [visit, Node.seats]
    rw [Node.isRegular] at hn
    have hheld : (visitAll ctx (c.openList ctx) children).held = [] :=
      held_visitAll_of_allRegular (held_openList c) hn
    exact (inList_visitAll h.openList headers' lists' children hn).closeList hheld h.pos
  | .container .orderedList children, hn => by
    rw [visit, Node.seats]
    rw [Node.isRegular] at hn
    have hheld : (visitAll ctx (c.openList ctx) children).held = [] :=
      held_visitAll_of_allRegular (held_openList c) hn
    exact (inList_visitAll h.openList headers' lists' children hn).closeList hheld h.pos
  | .container .listItem children, hn => by
    rw [visit, Node.seats]
    rw [Node.isRegular] at hn
    exact (inList_visitAll h headers' lists' children hn).flushElement

theorem inList_visitAll {c : Compilation} {list level : ℕ} {levels : List ℕ}
    {past : List (Seat × Leaf)} (h : InList ctx c list level levels past) (headers' lists' : ℕ)
    {items : Bool} : (ns : List Node) → Node.allRegular items ns = true →
      InList ctx (visitAll ctx c ns) list level levels
        (past ++ Node.seatsOfAll headers' lists' (.element list level) ns)
  | [], _ => by
    rw [visitAll, Node.seatsOfAll, List.append_nil]
    exact h
  | n :: ns, hns => by
    simp only [Node.allRegular, Bool.and_eq_true, beq_iff_eq] at hns
    have hfirst := inList_visit h headers' lists' n hns.1.2
    rw [visitAll, Node.seatsOfAll, ← List.append_assoc]
    exact inList_visitAll hfirst (headers' + n.headerLevels.length) (lists' + n.outerLists) ns
      hns.2

end

/-! ## Outside lists -/

variable {c : Compilation} {levels : List ℕ} {lists : ℕ} {past : List (Seat × Leaf)}
  {ns : List Node}

theorem seated_inline (h : Seated ctx c .paragraph levels lists past) {n : Node}
    (hn : n.isInline = true) : Seated ctx (visit ctx c n) .paragraph (levels ++ n.headerLevels)
      (lists + n.outerLists) (past ++ n.seats levels.length lists .paragraph) := by
  obtain ⟨hlevels, hlists⟩ := n.headerLevels_of_isInline hn
  rw [hlevels, hlists, List.append_nil]
  exact (seated_visit_inline h levels.length lists n hn).1

theorem seated_paragraph (h : Seated ctx c .paragraph levels lists past) (hdepth : c.listDepth = 0)
    (hns : Node.allInline ns = true) :
    Seated ctx (visit ctx c (.container .paragraph ns)) .paragraph
      (levels ++ (Node.container .paragraph ns).headerLevels)
      (lists + (Node.container .paragraph ns).outerLists)
      (past ++ (Node.container .paragraph ns).seats levels.length lists .paragraph) := by
  obtain ⟨hlevels, hlists⟩ := @Node.headerLevels_of_allInline .paragraph rfl ns hns
  rw [hlevels, hlists, Container.level?, Option.toList_none, List.append_nil, visit, if_pos hdepth,
    Node.seats]
  have hopened : Seated ctx ((c.flush ctx).build Document.addParagraph) .paragraph levels lists
      past := (h.flush _).build fun _ _ ha => ha.addParagraph
  have hflushed := (seated_visitAll_inline hopened levels.length lists ns hns).1.flush .paragraph
  dsimp only
  split
  · exact hflushed
  · exact hflushed.build fun _ _ ha => ha.setIndent _

/-- A header opens the section that its text is the header of. -/
theorem seated_header (h : Seated ctx c .paragraph levels lists past) (hdepth : c.listDepth = 0)
    (level : ℕ) (hns : Node.allInline ns = true) :
    Seated ctx (visit ctx c (.container (.header level) ns)) .paragraph
      (levels ++ (Node.container (.header level) ns).headerLevels)
      (lists + (Node.container (.header level) ns).outerLists)
      (past ++ (Node.container (.header level) ns).seats levels.length lists .paragraph) := by
  obtain ⟨hlevels, hlists⟩ := @Node.headerLevels_of_allInline (.header level) rfl ns hns
  rw [hlevels, hlists, Container.level?, Option.toList_some, visit, if_pos hdepth, Node.seats]
  obtain ⟨hinside, -⟩ :=
    seated_visitAll_inline (h.flush (.header levels.length)) levels.length lists ns hns
  exact hinside.addSection level .paragraph

/-- The first of all lists opens a block. -/
theorem inList_openList (h : Seated ctx c .paragraph levels lists past) (hdepth : c.listDepth = 0) :
    InList ctx (c.openList ctx) lists 1 levels past := by
  rw [openList, if_pos hdepth]
  have hadded : Seated ctx ((c.flush ctx).build Document.addList) (.element lists 1) levels
      (lists + 1) past := (h.flush _).build fun _ _ ha => ha.addList
  exact ⟨hadded.congr rfl rfl, congrArg (· + 1) hdepth, Nat.one_pos, Document.endsInList_addList _⟩

theorem seated_list (h : Seated ctx c .paragraph levels lists past) (hdepth : c.listDepth = 0)
    (hns : Node.allRegular true ns = true) :
    Seated ctx (visitAll ctx (c.openList ctx) ns).closeList .paragraph (levels ++ []) (lists + 1)
      (past ++ Node.seatsOfAll levels.length lists (.element lists 1) ns) := by
  -- Nothing is left of the last item, so the place may change.
  have hheld : (visitAll ctx (c.openList ctx) ns).held = [] :=
    held_visitAll_of_allRegular (held_openList c) hns
  have hitems := inList_visitAll (inList_openList h hdepth) levels.length lists ns hns
  rw [List.append_nil]
  exact (hitems.seated.reseat hheld _).congr rfl rfl

mutual

/-- Outside lists the place of the text held back between two regular nodes is a paragraph. -/
theorem seated_visit {c : Compilation} {levels : List ℕ} {lists : ℕ} {past : List (Seat × Leaf)}
    (h : Seated ctx c .paragraph levels lists past) (hdepth : c.listDepth = 0) :
    (n : Node) → n.isItem = false → n.isRegular = true →
      Seated ctx (visit ctx c n) .paragraph (levels ++ n.headerLevels) (lists + n.outerLists)
        (past ++ n.seats levels.length lists .paragraph)
  | .leaf l, _, _ => seated_inline h rfl
  | .container .root children, _, hn => by
    rw [visit, Node.seats]
    rw [Node.isRegular] at hn
    exact seated_visitAll h hdepth children hn
  | .container .quote children, _, hn => by
    rw [visit, Node.seats]
    rw [Node.isRegular] at hn
    exact seated_visitAll h hdepth children hn
  | .container .emphasis children, _, hn => by
    rw [Node.isRegular] at hn
    exact seated_inline h (by rwa [Node.isInline])
  | .container (.link url) children, _, hn => by
    rw [Node.isRegular] at hn
    exact seated_inline h (by rwa [Node.isInline])
  | .container .paragraph children, _, hn => by
    rw [Node.isRegular] at hn
    exact seated_paragraph h hdepth hn
  | .container (.header level) children, _, hn => by
    rw [Node.isRegular] at hn
    exact seated_header h hdepth level hn
  | .container .bulletList children, _, hn => by
    rw [visit, Node.seats]
    rw [Node.isRegular] at hn
    exact seated_list h hdepth hn
  | .container .orderedList children, _, hn => by
    rw [visit, Node.seats]
    rw [Node.isRegular] at hn
    exact seated_list h hdepth hn
  | .container .listItem children, hitem, _ => absurd hitem (by simp [Node.isItem])

theorem seated_visitAll {c : Compilation} {levels : List ℕ} {lists : ℕ}
    {past : List (Seat × Leaf)} (h : Seated ctx c .paragraph levels lists past)
    (hdepth : c.listDepth = 0) : (ns : List Node) → Node.allRegular false ns = true →
      Seated ctx (visitAll ctx c ns) .paragraph (levels ++ Node.headerLevelsOfAll ns)
        (lists + Node.outerListsOfAll ns)
        (past ++ Node.seatsOfAll levels.length lists .paragraph ns)
  | [], _ => by
    rw [visitAll, Node.seatsOfAll, Node.headerLevelsOfAll, Node.outerListsOfAll, List.append_nil,
      List.append_nil]
    exact h
  | n :: ns, hns => by
    simp only [Node.allRegular, Bool.and_eq_true, beq_iff_eq] at hns
    obtain ⟨⟨hitem, hn⟩, hns⟩ := hns
    have hfirst := seated_visit h hdepth n hitem hn
    have hrest := seated_visitAll hfirst ((listDepth_visit c n).trans hdepth) ns hns
    rw [visitAll, Node.seatsOfAll, Node.headerLevelsOfAll, Node.outerListsOfAll]
    simpa [Nat.add_assoc] using hrest

end

end Compilation
end Markup
end ProseLint
