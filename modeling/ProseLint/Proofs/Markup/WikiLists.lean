import Mathlib.Data.List.ReduceOption
import ProseLint.Parse
import ProseLint.Proofs.Markup.Elements
import ProseLint.Proofs.Markup.Outline
import ProseLint.Proofs.Markup.WikiLaying

/-!
# The lists of a wiki text

Items become a tree by a stack of open lists: lists are opened without items on the way down, and
on the way up each finished list hangs off the last item of the list around it. The compilation
goes through that tree with a depth of its own. The two cancel: every run of items is one list of
the document, and every item of the run that holds a sentence is an element of its own depth.
-/
namespace ProseLint
namespace Markup.Wiki

open Compilation

variable {ctx : Context}

namespace OpenList

/-- The container of a list. -/
def kind (l : OpenList) : Container := if l.ordered then .orderedList else .bulletList

theorem isList_kind (l : OpenList) : l.kind.isList = true := by
  unfold kind
  split <;> rfl

theorem toNode_eq (l : OpenList) :
    l.toNode = .container l.kind (l.items.map (.container .listItem)) := rfl

/-- A list that hangs off the last item is visited behind what has been visited of the item. -/
theorem visitAll_hang {c : Compilation} (hdepth : c.listDepth ≠ 0) (l outer : OpenList) :
    visitAll ctx c ((outer.hang l.toNode).items.map (.container .listItem)) =
      (visit ctx (visitAll ctx c (outer.items.map (.container .listItem))) l.toNode).flushElement
        ctx := by
  unfold hang
  split
  · rename_i item hitem
    obtain ⟨items, hitems⟩ := List.getLast?_eq_some_iff.mp hitem
    have hinner : (visitAll ctx (visitAll ctx c (items.map (.container .listItem)))
        item).listDepth ≠ 0 := by
      rwa [listDepth_visitAll, listDepth_visitAll]
    rw [hitems]
    simp only [List.dropLast_concat, List.map_append, List.map_cons, List.map_nil, visitAll_append,
      visitAll, visit]
    rw [toNode_eq, visit_inner_list l.isList_kind hinner]
  · rename_i hnone
    rw [List.getLast?_eq_none_iff.mp hnone]
    simp only [List.map_cons, List.map_nil, visitAll, visit]

end OpenList

/-- The elements that a stack of open lists gives, the innermost list standing first. -/
inductive Stacked (ctx : Context) : List OpenList → List ListElement → Prop
  | nil : Stacked ctx [] []
  | cons {l : OpenList} {ls : List OpenList} {es es' : List ListElement} (outer : Stacked ctx ls es)
      (yields : Yields ctx (ls.length + 1) l.items es') : Stacked ctx (l :: ls) (es ++ es')

namespace Stacked

variable {l outer : OpenList} {ls : List OpenList} {es : List ListElement}

/-- Lists without items give nothing. -/
theorem pad (h : Stacked ctx ls es) (n : ℕ) (ordered : Bool) :
    Stacked ctx (List.replicate n ⟨ordered, []⟩ ++ ls) es := by
  induction n with
  | zero => exact h
  | succ n ih =>
    have hpadded : Stacked ctx (⟨ordered, []⟩ :: (List.replicate n ⟨ordered, []⟩ ++ ls))
        (es ++ []) := .cons ih (yields_nil _)
    rwa [List.append_nil] at hpadded

theorem addItem (h : Stacked ctx (l :: ls) es) {content : List Node}
    (hcontent : Node.allInline content = true) : Stacked ctx (l.addItem content :: ls)
      (es ++ (element? ctx (ls.length + 1) content).toList) := by
  cases h with
  | cons hls hl =>
    rw [List.append_assoc]
    exact .cons hls (hl.concat hcontent)

/-- A finished list keeps its elements when it becomes part of the list around it. -/
theorem hang (h : Stacked ctx (l :: outer :: ls) es) :
    Stacked ctx (outer.hang l.toNode :: ls) es := by
  cases h with
  | cons houter hl =>
    cases houter with
    | cons hls houter =>
      rw [List.append_assoc]
      -- the outer list goes first, and at its depth the inner one behind it
      refine .cons hls fun c hheld hdepth => ?_
      have hitems := houter c hheld hdepth
      have hinner := hl.inner l.isList_kind hitems.held_eq (hitems.listDepth_eq.trans hdepth)
        (Nat.succ_pos _)
      rw [← OpenList.toNode_eq] at hinner
      rw [OpenList.visitAll_hang (by omega), flushElement_of_held_nil hinner.held_eq]
      exact hitems.trans hinner

theorem listsOf (h : Stacked ctx [l] es) : ListsOf ctx [l.toNode] [es] := by
  cases h with
  | cons hnil hl =>
    cases hnil
    exact hl.listsOf l.isList_kind

end Stacked

namespace State

variable {s : State} {es : List ListElement}

theorem flags_closeListsTo (s : State) (depth : ℕ) :
    (s.closeListsTo depth).inCode = s.inCode ∧ (s.closeListsTo depth).inTable = s.inTable := by
  have hinnermost : ∀ s : State, s.closeInnermostList.inCode = s.inCode ∧
      s.closeInnermostList.inTable = s.inTable := by
    intro s
    unfold closeInnermostList
    split <;> exact ⟨rfl, rfl⟩
  unfold closeListsTo
  induction s.lists.length - depth with
  | zero => exact ⟨rfl, rfl⟩
  | succ n ih => exact ⟨(hinnermost _).1.trans ih.1, (hinnermost _).2.trans ih.2⟩

theorem flags_closeParagraph (s : State) :
    s.closeParagraph.inCode = s.inCode ∧ s.closeParagraph.inTable = s.inTable := by
  unfold closeParagraph
  split <;> exact ⟨rfl, rfl⟩

/-- As long as a list stays open, closing others changes no block and no element. -/
theorem repeat_closeInnermostList_of_lt (h : Stacked ctx s.lists es) {n : ℕ}
    (hn : n < s.lists.length) : (Nat.repeat closeInnermostList n s).blocks = s.blocks ∧
      (Nat.repeat closeInnermostList n s).lists.length = s.lists.length - n ∧
      Stacked ctx (Nat.repeat closeInnermostList n s).lists es := by
  induction n with
  | zero => exact ⟨rfl, rfl, h⟩
  | succ n ih =>
    obtain ⟨hblocks, hlength, hstack⟩ := ih (by omega)
    rw [Nat.repeat, length_closeInnermostList]
    generalize Nat.repeat closeInnermostList n s = s' at *
    unfold closeInnermostList
    split
    · rename_i hlists
      rw [hlists, List.length_nil] at hlength
      omega
    · rename_i hlists
      rw [hlists, List.length_singleton] at hlength
      omega
    · rename_i hlists
      rw [hlists] at hstack
      exact ⟨hblocks, by omega, hstack.hang⟩

theorem closeListsTo_of_nil (h : s.lists = []) (depth : ℕ) : s.closeListsTo depth = s := by
  rw [closeListsTo, h, List.length_nil, Nat.zero_sub, Nat.repeat]

/-- Lists are closed until as many are open as the depth says, or fewer when there were fewer. -/
theorem closeListsTo_pos (h : Stacked ctx s.lists es) {depth : ℕ} (hdepth : 0 < depth) :
    (s.closeListsTo depth).blocks = s.blocks ∧
      (s.closeListsTo depth).lists.length = min s.lists.length depth ∧
      Stacked ctx (s.closeListsTo depth).lists es := by
  by_cases hnil : s.lists = []
  · rw [closeListsTo_of_nil hnil]
    exact ⟨rfl, by simp [hnil], h⟩
  · have hpos := List.length_pos_iff.mpr hnil
    obtain ⟨hblocks, hlength, hstack⟩ :=
      repeat_closeInnermostList_of_lt h (show s.lists.length - depth < s.lists.length by omega)
    exact ⟨hblocks, by rw [closeListsTo, hlength]; omega, hstack⟩

/-- The last list that is closed becomes a block. -/
theorem closeListsTo_zero (h : Stacked ctx s.lists es) (hne : s.lists ≠ []) :
    ∃ l, (s.closeListsTo 0).blocks = s.blocks ++ [l.toNode] ∧ Stacked ctx [l] es := by
  obtain ⟨hblocks, hlength, hstack⟩ := closeListsTo_pos h Nat.one_pos
  have hpos := List.length_pos_iff.mpr hne
  have hlast : s.closeListsTo 0 = (s.closeListsTo 1).closeInnermostList := by
    obtain ⟨n, hn⟩ : ∃ n, s.lists.length = n + 1 := Nat.exists_eq_add_one.mpr hpos
    rw [closeListsTo, closeListsTo, hn]
    rfl
  obtain ⟨l, hl⟩ : ∃ l, (s.closeListsTo 1).lists = [l] := by
    rw [← List.length_eq_one_iff]
    omega
  refine ⟨l, ?_, hl ▸ hstack⟩
  rw [hlast, closeInnermostList, hl, ← hblocks]
  rfl

end State

/-- A list item: the number of its marks, and the nodes of its body. -/
structure Item where
  depth : ℕ
  nodes : List Node

/-- The item that a line is for a reader in some state: a line that the reader does not take for
code, a blank line, a row of a table, a rule or a header. -/
def item? (s : State) (l : SourceLine) : Option Item :=
  let line := Text.trim l.text
  if s.inCode || (Text.dropStart? codeMark line).isSome || line.isEmpty ||
      line.head? == some '|' || isRule l.text || (header? l.text).isSome then none
  else (listItem? l.text).map fun (marks, body) => ⟨marks.length, inlineEnd l body⟩

/-- The items among lines that are read from some state on. -/
def items (s : State) : List SourceLine → List (Option Item)
  | [] => []
  | l :: ls => item? s l :: items (addLine s l) ls

/-- The runs of items with nothing in between. -/
def itemRuns (is : List (Option Item)) : List (List Item) :=
  ((is.splitOnP Option.isNone).map List.reduceOption).filter (· ≠ [])

/-- The list elements of a run. -/
def elements (ctx : Context) (run : List Item) : List ListElement :=
  run.filterMap fun i => element? ctx i.depth i.nodes

theorem modifyHead_nil_append {α : Type*} (ls : List (List α)) :
    ls.modifyHead ([] ++ ·) = ls := by
  cases ls <;> rfl

theorem elements_concat (run : List Item) (i : Item) : elements ctx (run ++ [i]) =
    elements ctx run ++ (element? ctx i.depth i.nodes).toList := by
  rw [elements, List.filterMap_append, elements]
  cases h : element? ctx i.depth i.nodes <;> simp [h]

theorem allInline_of_item? {s : State} {l : SourceLine} {i : Item} (h : item? s l = some i) :
    Node.allInline i.nodes = true ∧ 0 < i.depth := by
  unfold item? at h
  dsimp only at h
  split at h
  · simp at h
  · obtain ⟨⟨marks, body⟩, hitem, rfl⟩ := Option.map_eq_some_iff.mp h
    exact ⟨allInline_inlineFrom _ _ _, (of_listItem? hitem).1⟩

/-- What is done with an item. -/
theorem addLine_of_item? {s : State} {l : SourceLine} {i : Item} (h : item? s l = some i) :
    s.inCode = false ∧ ∃ ordered, addLine s l =
      ({ s with inTable := false } : State).closeParagraph.addItem i.depth ordered i.nodes := by
  unfold item? at h
  dsimp only at h
  split at h
  · simp at h
  · rename_i hother
    obtain ⟨⟨marks, body⟩, hitem, rfl⟩ := Option.map_eq_some_iff.mp h
    simp only [Bool.or_eq_true, not_or, Bool.not_eq_true, Option.isSome_eq_false_iff,
      Option.isNone_iff_eq_none] at hother
    obtain ⟨⟨⟨⟨⟨hcode, hmark⟩, hblank⟩, htable⟩, hrule⟩, hheader⟩ := hother
    refine ⟨hcode, marks.head? == some '#', ?_⟩
    simp [addLine, addPlainLine, hcode, hmark, hblank, htable, hrule, hheader, hitem]

/-! ## Lines -/

/-- Of the lines read so far, these runs of items have been closed, and this one may go on. -/
structure Reads (ctx : Context) (s : State) (done : List (List Item)) (run : List Item) : Prop where
  parted : s.Parted
  closed : s.inCode = true ∨ s.inTable = true → s.Closed
  allInline : ∀ children ∈ s.paragraph, Node.allInline children = true
  blocks : ListsOf ctx s.blocks (done.map (elements ctx))
  stacked : Stacked ctx s.lists (elements ctx run)
  run_eq_nil_iff : run = [] ↔ s.lists = []

open State

namespace Reads

variable {s : State} {done : List (List Item)} {run : List Item}

theorem start : Reads ctx {} [] [] :=
  ⟨.inl rfl, by simp, by simp, listsOf_nil, .nil, by simp⟩

/-- When nothing is open it does not matter whether code or a table has begun. -/
theorem flags (h : Reads ctx s done run) (hs : s.Closed) (inCode inTable : Bool) :
    Reads ctx { s with inCode := inCode, inTable := inTable } done run :=
  ⟨h.parted, fun _ => ⟨hs.paragraph_eq, hs.lists_eq⟩, h.allInline, h.blocks, h.stacked,
    h.run_eq_nil_iff⟩

/-- A line that is no row ends a table. -/
theorem endTable (h : Reads ctx s done run) : Reads ctx { s with inTable := false } done run := by
  refine ⟨h.parted, fun hflags => ?_, h.allInline, h.blocks, h.stacked, h.run_eq_nil_iff⟩
  have hs := h.closed (.inl (by simpa using hflags))
  exact ⟨hs.paragraph_eq, hs.lists_eq⟩

theorem closeParagraph (h : Reads ctx s done run) : Reads ctx s.closeParagraph done run := by
  unfold State.closeParagraph
  split
  · rename_i children hparagraph
    have hlists : s.lists = [] := h.parted.resolve_left (by simp [hparagraph])
    have hblocks := h.blocks.append (listsOf_paragraph (h.allInline children hparagraph))
    rw [List.append_nil] at hblocks
    exact ⟨.inl rfl, fun _ => ⟨rfl, hlists⟩, by simp, hblocks, h.stacked, h.run_eq_nil_iff⟩
  · exact h

/-- When all lists are closed the run is over. -/
theorem closeLists (h : Reads ctx s done run) :
    Reads ctx (s.closeListsTo 0) (done ++ [run].filter (· ≠ [])) [] := by
  by_cases hnil : s.lists = []
  · obtain rfl := h.run_eq_nil_iff.mpr hnil
    rw [closeListsTo_of_nil hnil]
    simpa using h
  · have hrun : run ≠ [] := mt h.run_eq_nil_iff.mp hnil
    have hlists := lists_closeListsTo_zero h.parted
    obtain ⟨hcode, htable⟩ := flags_closeListsTo s 0
    obtain ⟨l, hblocks, hstacked⟩ := closeListsTo_zero h.stacked hnil
    refine ⟨.inr hlists, fun hflags => ?_, ?_, ?_, hlists ▸ .nil, by simp [hlists]⟩
    · rw [hcode, htable] at hflags
      exact absurd (h.closed hflags).lists_eq hnil
    · rw [paragraph_closeListsTo h.parted]
      exact h.allInline
    · rw [hblocks]
      simpa [hrun] using h.blocks.append hstacked.listsOf

theorem closeBlocks (h : Reads ctx s done run) :
    Reads ctx s.closeBlocks (done ++ [run].filter (· ≠ [])) [] := by
  obtain ⟨hparted, -, hinline, hblocks, hstacked, hrun⟩ := h.closeParagraph.closeLists
  exact ⟨hparted, fun _ => closed_closeBlocks s, hinline, hblocks, hstacked, hrun⟩

/-- A block that is no list ends the run. -/
theorem block (h : Reads ctx s done run) {n : Node} (hn : ListsOf ctx [n] []) :
    Reads ctx (s.closeBlocks.pushBlock n) (done ++ [run].filter (· ≠ [])) [] := by
  have hclosed := (closed_closeBlocks s).pushBlock n
  have hbefore := h.closeBlocks
  have hblocks := hbefore.blocks.append hn
  rw [List.append_nil] at hblocks
  exact ⟨hclosed.parted, fun _ => hclosed, hbefore.allInline, hblocks, hbefore.stacked,
    hbefore.run_eq_nil_iff⟩

theorem leaveOut (h : Reads ctx s done run) (kind : OmittedKind) (inCode inTable : Bool) :
    Reads ctx { s.closeBlocks.leaveOut kind with inCode := inCode, inTable := inTable }
      (done ++ [run].filter (· ≠ [])) [] :=
  (h.block (listsOf_omitted kind)).flags ((closed_closeBlocks s).pushBlock _) inCode inTable

theorem addText (h : Reads ctx s done run) (hcode : s.inCode = false) (htable : s.inTable = false)
    (l : SourceLine) : Reads ctx (addText s l) (done ++ [run].filter (· ≠ [])) [] := by
  have hclosed := h.closeLists
  have hlists := lists_closeListsTo_zero h.parted
  have hnodes : Node.allInline (inline l.offset l.text) = true := allInline_inlineFrom _ _ _
  obtain ⟨hcode', htable'⟩ := flags_closeListsTo s 0
  have hflags : ¬((s.closeListsTo 0).inCode = true ∨ (s.closeListsTo 0).inTable = true) := by
    simp [hcode', htable', hcode, htable]
  unfold Wiki.addText
  dsimp only
  split
  · rename_i children hparagraph
    refine ⟨.inr hlists, fun h => absurd h hflags, ?_, hclosed.blocks, hclosed.stacked,
      hclosed.run_eq_nil_iff⟩
    simp [allInline_append, hclosed.allInline children hparagraph, Node.allInline, Node.text,
      Node.isInline, hnodes]
  · exact ⟨.inr hlists, fun h => absurd h hflags, by simpa using hnodes, hclosed.blocks,
      hclosed.stacked, hclosed.run_eq_nil_iff⟩

/-- An item goes on with the run. -/
theorem addItem (h : Reads ctx s done run) (hparagraph : s.paragraph = none)
    (hcode : s.inCode = false) (htable : s.inTable = false) {i : Item} (hdepth : 0 < i.depth)
    (hnodes : Node.allInline i.nodes = true) (ordered : Bool) :
    Reads ctx (s.addItem i.depth ordered i.nodes) done (run ++ [i]) := by
  -- the lists are closed down to the depth, or missing ones are opened, so that the item stands
  -- in a list of its own depth
  obtain ⟨hblocks, hlength, hstacked⟩ := closeListsTo_pos h.stacked hdepth
  obtain ⟨hcode', htable'⟩ := flags_closeListsTo s i.depth
  have hpadded := hstacked.pad (i.depth - (s.closeListsTo i.depth).lists.length) ordered
  have hnone := (paragraph_closeListsTo h.parted i.depth).trans hparagraph
  unfold State.addItem
  dsimp only
  split
  · rename_i hlists
    have hzero := congrArg List.length hlists
    simp only [List.length_append, List.length_replicate, List.length_nil] at hzero
    omega
  · rename_i l rest hlists
    rw [hlists] at hpadded
    have hrest : rest.length + 1 = i.depth := by
      have hsum := congrArg List.length hlists
      simp only [List.length_append, List.length_replicate, List.length_cons] at hsum
      omega
    have hadded := hpadded.addItem hnodes
    rw [hrest] at hadded
    refine ⟨.inl hnone, ?_, by simp [hnone], hblocks ▸ h.blocks, ?_, by simp⟩
    · simp [hcode', htable', hcode, htable]
    · rw [elements_concat]
      exact hadded

/-- A line that is an item goes on with the run. -/
theorem addLine_item (h : Reads ctx s done run) {l : SourceLine} {i : Item}
    (hi : item? s l = some i) : Reads ctx (addLine s l) done (run ++ [i]) := by
  obtain ⟨hnodes, hdepth⟩ := allInline_of_item? hi
  obtain ⟨hcode, ordered, hadd⟩ := addLine_of_item? hi
  obtain ⟨hcode', htable'⟩ := flags_closeParagraph { s with inTable := false }
  rw [hadd]
  exact h.endTable.closeParagraph.addItem (paragraph_closeParagraph _) (hcode'.trans hcode) htable'
    hdepth hnodes ordered

/-- Any other line ends the run. -/
theorem addLine_other (h : Reads ctx s done run) {l : SourceLine} (hl : item? s l = none) :
    Reads ctx (addLine s l) (done ++ [run].filter (· ≠ [])) [] := by
  have hquiet (hs : s.Closed) : Reads ctx s (done ++ [run].filter (· ≠ [])) [] := by
    obtain rfl := h.run_eq_nil_iff.mpr hs.lists_eq
    simpa using h
  unfold addLine
  dsimp only
  split
  · rename_i found hcode
    have hs := h.closed (.inl hcode)
    exact (hquiet hs).flags hs _ _
  · exact h.leaveOut .codeBlock _ _
  · rename_i hcode hmark
    split
    · exact h.closeBlocks
    · rename_i hblank
      split
      · rename_i hrow
        split
        · rename_i htable
          exact hquiet (h.closed (.inr htable))
        · exact h.leaveOut .table _ _
      · rename_i hrow
        unfold addPlainLine
        split
        · exact h.endTable.block (listsOf_omitted _)
        · rename_i hrule
          split
          · exact h.endTable.block (listsOf_header _ (allInline_inlineFrom _ _ _))
          · rename_i hheader
            split
            · rename_i marks body hitem
              simp [item?, hcode, hmark, hblank, hrow, hrule, hheader, hitem] at hl
            · exact h.endTable.addText hcode rfl l

/-- The runs among the lines are closed one after another. -/
theorem foldl (h : Reads ctx s done run) (ls : List SourceLine) :
    ∃ done' run', Reads ctx (ls.foldl addLine s) done' run' ∧
      done' ++ [run'].filter (· ≠ []) = done ++
        ((((items s ls).splitOnP Option.isNone).map List.reduceOption).modifyHead (run ++ ·)).filter
          (· ≠ []) := by
  induction ls generalizing s done run with
  | nil => exact ⟨done, run, h, by simp [items]⟩
  | cons l ls ih =>
    rw [List.foldl_cons, items, List.splitOnP_cons_eq_if_modifyHead]
    cases hl : item? s l with
    | some i =>
      obtain ⟨done', run', hreads, hruns⟩ := ih (h.addLine_item hl)
      refine ⟨done', run', hreads, ?_⟩
      rw [hruns]
      cases (items (addLine s l) ls).splitOnP Option.isNone <;> simp
    | none =>
      obtain ⟨done', run', hreads, hruns⟩ := ih (h.addLine_other hl)
      refine ⟨done', run', hreads, ?_⟩
      rw [hruns, modifyHead_nil_append]
      by_cases hrun : run = [] <;> simp [hrun]

end Reads

/-- The blocks of a wiki text add one list for each run of items. -/
theorem listsOf_blocks (ctx : Context) (ls : List SourceLine) :
    ListsOf ctx (ls.foldl addLine {}).closeBlocks.blocks
      ((itemRuns (items {} ls)).map (elements ctx)) := by
  obtain ⟨done, run, hreads, hruns⟩ := (@Reads.start ctx).foldl ls
  have hblocks := hreads.closeBlocks.blocks
  rwa [hruns, modifyHead_nil_append, List.nil_append] at hblocks

end Markup.Wiki

/-- The document of a wiki source has one list for each run of items, with one element for each item
that holds a sentence: its depth is that of the item, its sentences are those of the body alone. -/
theorem Parse.source_wiki_lists (T : Terminators) (name text : Text) :
    ∃ p, Parse.source .wiki T name text = .ok p ∧
      p.document.orderedSections.flatMap Section.lists =
        (Markup.Wiki.itemRuns (Markup.Wiki.items {} (Markup.SourceLine.all text))).map
          (Markup.Wiki.elements ⟨LineTable.ofText text, T⟩) := by
  refine ⟨_, rfl, ?_⟩
  have hnested := Markup.nested_compile ⟨LineTable.ofText text, T⟩ name (Markup.Wiki.read text)
  have hlists := Markup.Compilation.lists_compile name
    (Markup.Wiki.listsOf_blocks ⟨LineTable.ofText text, T⟩ (Markup.SourceLine.all text))
  exact (congrArg (List.flatMap Section.lists) hnested.orderedSections_eq).trans hlists

end ProseLint
